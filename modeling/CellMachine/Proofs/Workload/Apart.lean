import CellMachine.Proofs.Workload.WorkloadCourses

/-!
# Courses without workers

Calls, allocations and texts have nothing to do with workers: they neither wait for one nor count
any. That is said of each course once, so that the main frame can be read as what it does with its
workers and nothing else.
-/

namespace CellMachine

namespace Course

variable {σ α β : Type}

/-- The course waits for no worker, and leaves alone what the program counts. -/
def Apart : Course σ α → Prop
  | done _ => True
  | own _ next => ∀ t, (next t).Apart
  | host _ _ => False
  | step _ _ next => ∀ m, (next m).Apart
  | place _ next => ∀ r, (next r).Apart
  | collect next => ∀ ran, (next ran).Apart
  | join _ _ => False

section Control

variable {x : Course σ α} {f : α → Course σ β} {after : Course σ Unit}

lemma Apart.follow {k : Except Halt α → Course σ β} (apart : x.Apart) (next : ∀ r, (k r).Apart) :
    (x.follow k).Apart := by
  induction x with
  | done r => exact next r
  | own _ _ ih | step _ _ _ ih | place _ _ ih | collect _ ih => exact fun answer => ih _ (apart answer)
  | host => exact apart
  | join => exact apart

lemma Apart.bind (apart : x.Apart) (next : ∀ a, (f a).Apart) : (x >>= f).Apart :=
  apart.follow fun r => by
    cases r with
    | ok a => exact next a
    | error h => exact trivial

lemma Apart.ensuring (apart : x.Apart) (last : after.Apart) : (ensuring after x).Apart :=
  apart.follow fun _ => last.follow fun _ => trivial

lemma Apart.onHalt (apart : x.Apart) (last : after.Apart) : (onHalt after x).Apart :=
  apart.follow fun r => by
    cases r with
    | ok a => exact trivial
    | error h => exact last.follow fun _ => trivial

lemma Apart.outcome (apart : x.Apart) : (outcome x).Apart := apart.follow fun _ => trivial

lemma apart_ofExcept (r : Except CallError α) : (ofExcept r : Course σ α).Apart := by
  cases r <;> exact trivial

lemma apart_ofFault (r : Except Fault α) : (ofFault r : Course σ α).Apart := by
  cases r <;> exact trivial

lemma apart_ofHeap (r : Except HeapFault α) : (ofHeap r : Course σ α).Apart := by
  cases r <;> exact trivial

lemma apart_forEach {f : α → Course σ Unit} (each : ∀ a, (f a).Apart) (l : List α) :
    (forEach f l).Apart := by
  induction l with
  | nil => exact trivial
  | cons a rest ih => exact (each a).bind fun _ => ih

lemma apart_forEachOf (each : ∀ a, (f a).Apart) (l : List α) : (forEachOf f l).Apart := by
  induction l with
  | nil => exact trivial
  | cons a rest ih => exact (each a).bind fun _ => ih.bind fun _ => trivial

end Control

lemma apart_readStack (f : Array Value → Except Fault α) : (readStack f : Course σ α).Apart :=
  fun _ => apart_ofFault _

lemma apart_allocate (o : Object) : (allocate o : Course σ Address).Apart := by
  have placed : (place o fun r => ofHeap r : Course σ Address).Apart := apart_ofHeap
  refine Apart.bind (fun _ => trivial) fun polled => ?_
  cases polled with
  | true => exact fun _ => placed
  | false => exact placed

lemma apart_symbol (name : String) : (symbol name : Course σ Value).Apart := by
  refine Apart.bind (fun _ => trivial) fun found => ?_
  cases found with
  | some a => exact trivial
  | none => exact Apart.bind apart_ofHeap fun _ => fun _ => trivial

lemma apart_integer (n : Int64) : (integer n : Course σ Value).Apart := by
  rw [integer]
  cases Value.smallInt? n with
  | some v => exact trivial
  | none => exact (apart_allocate _).bind fun _ => trivial

lemma Apart.inFrame {x : Course σ α} (apart : x.Apart) (method : Option String)
    (outer block : Option Address) (breakTarget : Option FrameId) :
    (inFrame method outer block breakTarget x).Apart :=
  fun _ => fun _ => apart.ensuring fun _ => trivial

lemma apart_withTransient {x : Address → Course σ α} (apart : ∀ a, (x a).Apart) (o : Object) :
    (withTransient o x).Apart :=
  fun _ => (apart _).ensuring fun _ => trivial

lemma apart_releaseWindow (w : Window) : (releaseWindow w : Course σ Unit).Apart := fun _ => trivial

lemma apart_arrayOf (w : Window) (withKeywords : Bool) :
    (arrayOf w withKeywords : Course σ Address).Apart :=
  (apart_readStack _).bind fun _ => apart_allocate _

lemma apart_parameters (w : Window) (min : Nat) (max : Option Nat) (spread withKeywords : Bool) :
    (parameters w min max spread withKeywords : Course σ (List Value)).Apart := by
  refine (apart_readStack _).bind fun values => ?_
  have fitted : ∀ source, (do return Window.fitted min max (← nil) source :
      Course σ (List Value)).Apart := fun _ => fun _ => trivial
  dsimp only
  split
  · split
    · refine Apart.bind (fun _ => trivial) fun o => ?_
      split
      · exact Apart.bind trivial fun _ => fitted _
      · exact Apart.bind trivial fun _ => fitted _
    · exact Apart.bind trivial fun _ => fitted _
  · exact Apart.bind trivial fun _ => fitted _

lemma apart_operand (v : Value) : (operand v : Course σ Operand).Apart := by
  cases v with
  | ref a => exact fun _ => trivial
  | _ => exact trivial

lemma apart_settle (c : Computed) : (settle c : Course σ Value).Apart := by
  cases c with
  | integer n => exact apart_integer n
  | double d => exact trivial
  | truth b => exact fun _ => trivial

lemma apart_runPrimitive (p : Primitive) (receiver : Value) (w : Window) :
    (runPrimitive p receiver w : Course σ Value).Apart := by
  refine Apart.ensuring ?_ fun _ => trivial
  exact (apart_ofExcept _).bind fun _ => (apart_operand receiver).bind fun _ =>
    (apart_ofExcept _).bind fun _ => (apart_readStack _).bind fun _ => (apart_operand _).bind fun _ =>
    (apart_ofExcept _).bind apart_settle

lemma apart_isDetached (a : Address) : (isDetached a : Course σ Bool).Apart := by
  refine Apart.bind (fun _ => trivial) fun o => ?_
  split <;> exact trivial

lemma Apart.attached {x : Course σ α} (apart : x.Apart) (block : Option Address) (caller : FrameId) :
    (attached block caller x).Apart := by
  cases block with
  | none => exact apart
  | some a =>
    refine (apart_isDetached a).bind fun detached => ?_
    cases detached with
    | true => exact fun _ => apart.ensuring fun _ => trivial
    | false => exact apart

lemma apart_promote (receiver : Value) : (promote receiver : Course σ Value).Apart := by
  refine Apart.bind (fun _ => trivial) fun o => ?_
  split
  · exact (apart_allocate _).bind fun _ => trivial
  · exact (apart_allocate _).bind fun _ => trivial
  · exact trivial

/-- All native bodies are courses without workers. -/
def Runner.Apart (run : Runner σ) : Prop :=
  ∀ native receiver w block, (run native receiver w block).Apart

section Calls

variable {run : Runner σ} (apart : run.Apart)

include apart

lemma apart_runSynthesized (native : Native) (receiver : Value) (o : Object)
    (block : Option Address) : (runSynthesized run native receiver o block).Apart := by
  refine apart_withTransient (fun a => ?_) o
  exact fun _ => apart _ _ _ _

lemma apart_dispatch (m : MethodObject) (receiver : Value) (w : Window) (block : Option Address) :
    (dispatch run m receiver w block).Apart := by
  rw [dispatch]
  split
  · split
    · refine ((apart_readStack _).onHalt (apart_releaseWindow w)).bind fun v => ?_
      cases v with
      | ref a => exact apart _ _ _ _
      | _ => exact fun _ => apart_runSynthesized apart _ _ _ _
    · exact apart _ _ _ _
  · exact ((apart_promote receiver).onHalt (apart_releaseWindow w)).bind fun _ => apart _ _ _ _

omit apart in
lemma Apart.landing {x : Course σ Value} (apart : x.Apart) (id : FrameId) : (landing id x).Apart := by
  refine apart.outcome.bind fun r => ?_
  split
  · split <;> exact trivial
  · exact trivial

lemma apart_callMethod (m : MethodObject) (receiver : Value) (w : Window) (block : Option Address) :
    (callMethod run m receiver w block).Apart := by
  have called : ∀ caller, (Course.landing caller <| Course.inFrame (some m.name) m.scope block none <|
      Course.attached block caller <| dispatch run m (m.receiver.getD receiver) w block).Apart :=
    fun caller => (((apart_dispatch apart _ _ _ _).attached _ _).inFrame _ _ _ _).landing _
  refine Apart.bind (fun _ => trivial) fun interrupted => ?_
  cases interrupted with
  | true => exact fun _ => trivial
  | false => exact fun _ => called _

lemma apart_callBlock (b : BlockObject) (w : Window) (block : Option Address) :
    (callBlock run b w block).Apart := by
  refine Apart.inFrame ?_ _ _ _ _
  cases b.arity with
  | none => exact apart _ _ _ _
  | some arity =>
    refine Apart.ensuring ?_ fun _ => trivial
    exact (apart_parameters _ _ _ _ _).bind fun _ => (apart_allocate _).bind fun _ => fun _ =>
      apart _ _ _ _

lemma apart_yieldBlock (w : Window) : (yieldBlock run w).Apart := by
  refine Apart.bind (fun _ => trivial) fun f => ?_
  cases f.block with
  | none => exact fun _ => trivial
  | some a =>
    refine Apart.bind (fun _ => trivial) fun o => ?_
    split
    · exact apart_callBlock apart _ _ _
    · exact fun _ => fun _ => trivial

end Calls

lemma apart_breakWith (v : Value) : (breakWith v : Course σ CallError).Apart := by
  refine Apart.bind (fun _ => trivial) fun f => ?_
  cases f.breakTarget <;> exact trivial

lemma apart_inspect (v : Value) : (inspect v : Course σ String).Apart := by
  refine Apart.bind (fun _ => trivial) fun text => ?_
  cases text <;> exact trivial

lemma apart_keywords (w : Window) : (keywords w : Course σ Entries).Apart := by
  refine (apart_readStack _).bind fun a => ?_
  cases a with
  | none => exact trivial
  | some a =>
    refine Apart.bind (fun _ => trivial) fun o => ?_
    split <;> exact trivial

lemma apart_keyword? (w : Window) (name : String) : (keyword? w name : Course σ _).Apart :=
  (apart_keywords w).bind fun _ => fun _ => trivial

lemma apart_keyword (w : Window) (name : String) : (keyword w name : Course σ Value).Apart := by
  refine (apart_keyword? w name).bind fun v => ?_
  cases v with
  | some v => exact trivial
  | none => exact fun _ => trivial

lemma apart_checkKeywords (w : Window) (required allowed : List String) (others : OtherKeywords) :
    (checkKeywords w required allowed others : Course σ Unit).Apart := by
  refine (apart_keywords w).bind fun es => Apart.bind (fun _ => trivial) fun fault => ?_
  split
  · exact trivial
  · exact trivial
  · exact trivial
  · exact (apart_forEachOf apart_inspect _).bind fun _ => trivial

lemma apart_primitives : primitives.Apart := by
  intro native receiver w block
  cases native with
  | primitive p => exact apart_runPrimitive p receiver w
  | body n => exact fun _ => trivial

lemma apart_callPrimitive (p : Primitive) (receiver argument : Value) :
    (callPrimitive p receiver argument).Apart :=
  fun _ => apart_callMethod apart_primitives _ _ _ _

lemma apart_scale (w : Window) : (scale w).Apart := by
  refine Apart.ensuring ?_ fun _ => trivial
  exact (apart_ofExcept _).bind fun _ => (apart_checkKeywords _ _ _ _).bind fun _ =>
    (apart_readStack _).bind fun _ => (apart_keyword _ _).bind fun _ => (apart_keyword? _ _).bind
    fun _ => (apart_callPrimitive _ _ _).bind fun _ => apart_callPrimitive _ _ _

lemma apart_countVisit : countVisit.Apart := by
  refine Apart.bind (fun _ => trivial) fun f => ?_
  split
  · exact trivial
  · refine Apart.bind (fun _ => trivial) fun o => ?_
    split
    · exact trivial
    · exact fun _ => fun _ => trivial

lemma apart_checkSquare (limit : Value) (w : Window) : (checkSquare limit w).Apart := by
  refine Apart.ensuring ?_ fun _ => trivial
  refine apart_countVisit.bind fun _ => (apart_readStack _).bind fun i => (apart_readStack _).bind
    fun square => (apart_callPrimitive _ _ _).bind fun below => Apart.bind (fun _ => trivial)
    fun above => ?_
  cases above with
  | true =>
    have broken : ∀ e, (raiseError e : Run Unit).Apart := fun _ => trivial
    exact (apart_breakWith i).bind fun e => (broken e).bind fun _ => fun _ => trivial
  | false => exact fun _ => trivial

lemma apart_blocks : blocks.Apart := by
  intro native receiver w block
  rw [blocks]
  split
  · exact apart_checkSquare receiver w
  · exact apart_primitives native receiver w block

lemma apart_each (receiver : Value) (w : Window) : (each receiver w).Apart := by
  refine Apart.ensuring ?_ fun _ => trivial
  refine (apart_ofExcept _).bind fun _ => Apart.bind (fun _ => trivial) fun items => ?_
  cases items with
  | none => exact trivial
  | some items =>
    refine (apart_forEach (fun item => ?_) _).bind fun _ => trivial
    exact fun _ => (apart_yieldBlock apart_blocks _).bind fun _ => trivial

lemma apart_methods : methods.Apart := by
  intro native receiver w block
  rw [methods]
  split
  · exact apart_scale w
  · split
    · exact apart_each receiver w
    · exact apart_blocks native receiver w block

lemma apart_sumTo (n : Int64) : (sumTo n).Apart := by
  have step : ∀ total i, (addStep total i).Apart := fun total i => fun _ =>
    ((apart_arrayOf _ _).bind fun _ => apart_callPrimitive _ _ _).ensuring fun _ => trivial
  have sum : ∀ m i total, (sumFrom m i total).Apart := by
    intro m
    induction m with
    | zero => exact fun _ _ => trivial
    | succ m ih => exact fun i total => (step total i).bind fun _ => ih _ _
  exact sum _ _ _

lemma apart_callScale (v : Value) : (callScale v).Apart :=
  (apart_symbol _).bind fun _ => (apart_symbol _).bind fun _ => (apart_allocate _).bind fun _ =>
    fun _ => fun _ => apart_callMethod apart_methods _ _ _ _

lemma apart_append (array : Address) (o : Object) : (append array o).Apart :=
  (apart_allocate o).bind fun _ => fun _ => trivial

lemma apart_findSquareAbove (limit : Int64) : (findSquareAbove limit).Apart := by
  refine (apart_allocate _).bind fun pairs => fun _ => Apart.ensuring ?_ fun _ => trivial
  refine (apart_forEach (fun _ => apart_append _ _) _).bind fun _ => (apart_allocate _).bind fun _ =>
    (apart_allocate _).bind fun _ => fun _ => Apart.ensuring ?_ fun _ => trivial
  exact (apart_readStack _).bind fun _ => fun _ => apart_callMethod apart_methods _ _ _ _

lemma apart_callWithoutArguments : callWithoutArguments.Apart :=
  fun _ => fun _ => (apart_callMethod apart_methods _ _ _ _).bind fun _ => trivial

lemma apart_resultHash (rooted : Window) : (resultHash rooted).Apart :=
  (apart_symbol _).bind fun _ => (apart_symbol _).bind fun _ => (apart_symbol _).bind fun _ =>
    (apart_symbol _).bind fun _ => (apart_readStack _).bind fun _ => (apart_readStack _).bind fun _ =>
    (apart_readStack _).bind fun _ => (apart_readStack _).bind fun _ => (apart_allocate _).bind
    fun _ => trivial

lemma apart_setGlobals (program : String) (values : List String) :
    (setGlobals program values).Apart :=
  (apart_allocate _).bind fun _ => fun _ => (apart_allocate _).bind fun _ => fun _ =>
    apart_forEach (fun _ => apart_append _ _) _

end Course

end CellMachine
