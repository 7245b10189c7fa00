import CellMachine.Proofs.Machine.StackDiscipline

/-!
# Views of a machine

A machine may be seen as one with another host, on which an interrupt may be pending that is not
pending on the machine itself. Two computations correspond if what comes of the first on the
machine that is seen is what comes of the second on the machine that there is, and if one is seen
as the other after them. Nothing but the call of a method looks at pending interrupts, so all
computations of the machine correspond to themselves, calls as long as no interrupt is concealed.
-/

namespace CellMachine

def World.interruptible (b : Bool) (w : World) : World :=
  { w with signals := { w.signals with interrupt := b } }

lemma World.pollInterrupt_of_pending {w : World} (installed : w.signals.installed = true)
    (pending : w.signals.interrupt = true) : w.pollInterrupt = (true, w.interruptible false) := by
  rw [pollInterrupt, if_pos installed]
  exact Prod.ext pending rfl

/-- The step does the same whether an interrupt is pending or not. -/
structure Blind {α : Type} (f : Stacks → World → α × World) : Prop where
  same : ∀ argStacks w b, f argStacks (w.interruptible b) =
    ((f argStacks w).1, (f argStacks w).2.interruptible b)
  installed : ∀ argStacks w, w.signals.installed → (f argStacks w).2.signals.installed

namespace Blind

variable {α β : Type} {f : Stacks → World → α × World}

lemma interrupt (blind : Blind f) (argStacks : Stacks) (w : World) :
    (f argStacks w).2.signals.interrupt = w.signals.interrupt := by
  have same := blind.same argStacks w w.signals.interrupt
  exact congrArg (fun r => r.2.signals.interrupt) same

lemma onHeap (f : Stacks → Heap Object → α × Heap Object) :
    Blind fun argStacks w => w.onHeap (f argStacks) :=
  ⟨fun _ _ _ => rfl, fun _ _ => id⟩

lemma freshFrame : Blind fun _ w => w.freshFrame := ⟨fun _ _ _ => rfl, fun _ _ => id⟩

lemma unit {g : World → World} (same : ∀ w b, g (w.interruptible b) = (g w).interruptible b)
    (installed : ∀ w, w.signals.installed → (g w).signals.installed) : Blind fun _ w => ((), g w) :=
  ⟨fun _ w b => by rw [same], fun _ => installed⟩

lemma place (o : Object) : Blind fun argStacks w => w.place argStacks o := onHeap _

lemma collect : Blind fun argStacks w => w.collect argStacks := onHeap _

lemma allocate (o : Object) : Blind fun argStacks w => w.allocate argStacks o := by
  constructor
  · rintro argStacks ⟨heap, singletons, symbols, globals, ⟨interrupt, collection, installed⟩, n⟩ b
    cases installed with
    | false => rfl
    | true => cases collection with
      | false => rfl
      | true => rfl
  · rintro argStacks ⟨heap, singletons, symbols, globals, ⟨interrupt, collection, installed⟩, n⟩ on
    cases installed with
    | false => cases on
    | true => cases collection with
      | false => rfl
      | true => rfl

/-- A fold of changes that do not look at interrupts. -/
lemma foldl {g : World → Value → World}
    (same : ∀ w v b, g (w.interruptible b) v = (g w v).interruptible b)
    (installed : ∀ w v, w.signals.installed → (g w v).signals.installed) (vs : List Value) :
    Blind fun _ w => ((), vs.foldl g w) := by
  refine unit (g := fun w => vs.foldl g w) (fun w b => ?_) fun w on => ?_
  · induction vs generalizing w with
    | nil => rfl
    | cons v vs ih => rw [List.foldl_cons, List.foldl_cons, same, ih]
  · induction vs generalizing w with
    | nil => exact on
    | cons v vs ih => exact ih _ (installed w v on)

lemma setGlobal (name : String) (v : Value) : Blind fun _ w => ((), w.setGlobal name v) := by
  refine unit (fun w b => ?_) fun w on => ?_
  · have known : (w.interruptible b).global? name = w.global? name := rfl
    rw [World.setGlobal, World.setGlobal, known]
    cases w.global? name with
    | none => rfl
    | some old => rfl
  · rw [World.setGlobal]
    cases w.global? name with
    | none => exact on
    | some old => exact on

lemma publish (name : String) (fresh : Address) : Blind fun _ w => w.publish name fresh := by
  constructor
  · intro _ w b
    have known : (w.interruptible b).symbol? name = w.symbol? name := rfl
    rw [World.publish, World.publish, known]
    cases w.symbol? name with
    | none => rfl
    | some a => rfl
  · intro _ w on
    rw [World.publish]
    cases w.symbol? name with
    | none => exact on
    | some a => exact on

lemma intern (name : String) : Blind fun argStacks w => w.intern argStacks name := by
  constructor
  · intro argStacks w b
    have known : (w.interruptible b).symbol? name = w.symbol? name := rfl
    rw [World.intern, World.intern, known, (place _).same]
    cases w.symbol? name with
    | some a => rfl
    | none =>
      rcases w.place argStacks (.symbol name) with ⟨_ | fresh, w'⟩
      · rfl
      · dsimp only
        rw [(publish name fresh).same argStacks]
  · intro argStacks w on
    have placed := (place (.symbol name)).installed argStacks w on
    rw [World.intern]
    cases w.symbol? name with
    | some a => exact on
    | none =>
      rcases ran : w.place argStacks (.symbol name) with ⟨_ | fresh, w'⟩ <;> rw [ran] at placed
      · exact placed
      · exact (publish name fresh).installed argStacks w' placed

end Blind

/-- How a machine is seen: its host, and whether an interrupt is pending. Only machines that fit
are looked at. These still fit when a pending interrupt has been taken. -/
structure View (τ σ : Type) where
  host : τ → σ
  pending : τ → Bool → Bool
  Fits : τ → Signals → Prop
  steady : ∀ h s s', Fits h s → (s'.interrupt → s.interrupt) → (s.installed → s'.installed) →
    Fits h s'

namespace View

variable {τ σ : Type}

def seen (V : View τ σ) (m : Machine τ) : Machine σ :=
  { m with
    world := m.world.interruptible (V.pending m.host m.world.signals.interrupt)
    host := V.host m.host }

def FitsAt (V : View τ σ) (m : Machine τ) : Prop := V.Fits m.host m.world.signals

/-- The first change does to what is seen what the second does to what there is. -/
def Carries (V : View τ σ) (f : Machine σ → Machine σ) (g : Machine τ → Machine τ) : Prop :=
  ∀ m, V.FitsAt m → f (V.seen m) = V.seen (g m) ∧ V.FitsAt (g m)

end View

namespace VM

variable {τ σ α β : Type} {V : View τ σ}

/-- What comes of the computations on a machine and on what is seen of it. -/
def CorrespondAt (V : View τ σ) (x : VM σ α) (y : VM τ α) (m : Machine τ) : Prop :=
  x.run (V.seen m) = ((y.run m).1, V.seen (y.run m).2) ∧ V.FitsAt (y.run m).2

def Correspond (V : View τ σ) (x : VM σ α) (y : VM τ α) : Prop :=
  ∀ m, V.FitsAt m → CorrespondAt V x y m

namespace CorrespondAt

variable {x : VM σ α} {y : VM τ α} {f : α → VM σ β} {g : α → VM τ β} {m : Machine τ}

lemma bind (first : CorrespondAt V x y m) (rest : ∀ a, Correspond V (f a) (g a)) :
    CorrespondAt V (x >>= f) (y >>= g) m := by
  obtain ⟨same, fits⟩ := first
  rw [CorrespondAt, run_bind, run_bind, same]
  rcases ran : y.run m with ⟨e | a, m'⟩ <;> rw [ran] at fits
  · exact ⟨rfl, fits⟩
  · exact rest a m' fits

lemma outcome (same : CorrespondAt V x y m) : CorrespondAt V (VM.outcome x) (VM.outcome y) m := by
  refine ⟨?_, same.2⟩
  rw [run_outcome, run_outcome, same.1]

lemma ensuring {last : Machine σ → Machine σ} {last' : Machine τ → Machine τ}
    (same : CorrespondAt V x y m) (carries : V.Carries last last') :
    CorrespondAt V (VM.ensuring last x) (VM.ensuring last' y) m := by
  obtain ⟨after, fits⟩ := carries _ same.2
  refine ⟨?_, fits⟩
  rw [run_ensuring, run_ensuring, same.1, after]

end CorrespondAt

namespace Correspond

variable {x : VM σ α} {y : VM τ α} {f : α → VM σ β} {g : α → VM τ β}

lemma bind (first : Correspond V x y) (rest : ∀ a, Correspond V (f a) (g a)) :
    Correspond V (x >>= f) (y >>= g) := fun m fits => (first m fits).bind rest

lemma outcome (same : Correspond V x y) : Correspond V (VM.outcome x) (VM.outcome y) :=
  fun m fits => (same m fits).outcome

lemma ensuring {last : Machine σ → Machine σ} {last' : Machine τ → Machine τ}
    (same : Correspond V x y) (carries : V.Carries last last') :
    Correspond V (VM.ensuring last x) (VM.ensuring last' y) :=
  fun m fits => (same m fits).ensuring carries

lemma onHalt {last : Machine σ → Machine σ} {last' : Machine τ → Machine τ}
    (same : Correspond V x y) (carries : V.Carries last last') :
    Correspond V (VM.onHalt last x) (VM.onHalt last' y) := by
  intro m fits
  obtain ⟨same, fits'⟩ := same m fits
  rw [CorrespondAt, VM.onHalt, VM.onHalt]
  dsimp only
  rw [same]
  rcases ran : y.run m with ⟨e | a, m'⟩ <;> rw [ran] at fits'
  · obtain ⟨after, fits''⟩ := carries m' fits'
    exact ⟨by rw [← after], fits''⟩
  · exact ⟨rfl, fits'⟩

lemma pure (a : α) : Correspond V (Pure.pure a) (Pure.pure a) := fun _ fits => ⟨rfl, fits⟩

lemma halt (h : Halt) : Correspond V (VM.halt h : VM σ α) (VM.halt h) := fun _ fits => ⟨rfl, fits⟩

lemma ofOutcome (r : Except Halt α) : Correspond V (VM.ofOutcome r) (VM.ofOutcome r) := by
  cases r with
  | ok a => exact pure a
  | error h => exact halt h

lemma ofExcept (r : Except CallError α) : Correspond V (VM.ofExcept r) (VM.ofExcept r) := by
  cases r with
  | ok a => exact pure a
  | error e => exact halt (.error e)

lemma ofFault (r : Except Fault α) : Correspond V (VM.ofFault r) (VM.ofFault r) := by
  cases r with
  | ok a => exact pure a
  | error f => exact halt (.fault f)

lemma ofHeap (r : Except HeapFault α) : Correspond V (VM.ofHeap r) (VM.ofHeap r) := by
  cases r with
  | ok a => exact pure a
  | error f => exact halt (.fault (.heap f))

lemma read {f : Machine σ → α} {g : Machine τ → α} (same : ∀ m, f (V.seen m) = g m) :
    Correspond V (VM.read f) (VM.read g) := by
  intro m fits
  refine ⟨?_, fits⟩
  rw [run_read, run_read, same]

lemma inWorld {f : Stacks → World → α × World} (blind : Blind f) :
    Correspond V (VM.inWorld f) (VM.inWorld f) := by
  intro m fits
  constructor
  · let b := V.pending m.host m.world.signals.interrupt
    change (Except.ok (f m.argStacks (m.world.interruptible b)).1,
      (⟨(f m.argStacks (m.world.interruptible b)).2, m.thread, m.waiting, V.host m.host⟩ :
        Machine σ)) = _
    rw [blind.same, run_inWorld, View.seen, blind.interrupt]
  · exact V.steady _ _ _ fits (by rw [run_inWorld, blind.interrupt]; exact id) (blind.installed _ _)

lemma onThread (f : ThreadState → α × ThreadState) :
    Correspond V (VM.onThread f) (VM.onThread f) := fun _ fits => ⟨rfl, fits⟩

lemma modifyStack (f : Array Value → Array Value) :
    Correspond V (VM.modifyStack f) (VM.modifyStack f) := onThread _

lemma onStack (f : Array Value → Except Fault α × Array Value) :
    Correspond V (VM.onStack f) (VM.onStack f) := (onThread _).bind fun _ => ofFault _

lemma readStack (f : Array Value → Except Fault α) :
    Correspond V (VM.readStack f) (VM.readStack f) := (read fun _ => rfl).bind fun _ => ofFault _

lemma object? (a : Address) : Correspond V (VM.object? a) (VM.object? a) := read fun _ => rfl

lemma frame : Correspond V VM.frame VM.frame := read fun _ => rfl

lemma nil : Correspond V VM.nil VM.nil := (read fun _ => rfl).bind fun _ => pure _

lemma ofBool (b : Bool) : Correspond V (VM.ofBool b) (VM.ofBool b) :=
  (read fun _ => rfl).bind fun _ => pure _

lemma allocate (o : Object) : Correspond V (VM.allocate o) (VM.allocate o) :=
  (inWorld (Blind.allocate o)).bind fun _ => ofHeap _

lemma modifyObject (a : Address) (f : Object → Object) :
    Correspond V (VM.modifyObject a f) (VM.modifyObject a f) :=
  inWorld (.unit (fun _ _ => rfl) fun _ => id)

lemma integer (n : Int64) : Correspond V (VM.integer n) (VM.integer n) := by
  rw [VM.integer, VM.integer]
  split
  · exact pure _
  · exact (allocate _).bind fun _ => pure _

lemma operand (v : Value) : Correspond V (VM.operand v) (VM.operand v) := by
  cases v with
  | smallInt n => exact pure _
  | double d => exact pure _
  | ref a => exact (object? a).bind fun _ => pure _

lemma parameters (w : Window) (min : Nat) (max : Option Nat) (spread withKeywords : Bool) :
    Correspond V (VM.parameters w min max spread withKeywords)
      (VM.parameters w min max spread withKeywords) := by
  refine (readStack _).bind fun values => ?_
  have filled : ∀ source : List Value, Correspond V
      (do
        let source ← Pure.pure source
        return Window.fitted min max (← VM.nil) source : VM σ (List Value))
      (do
        let source ← Pure.pure source
        return Window.fitted min max (← VM.nil) source) :=
    fun source => (pure source).bind fun _ => nil.bind fun _ => pure _
  split
  · split
    · refine (object? _).bind fun found => ?_
      split
      · exact filled _
      · exact filled _
    · exact filled _
  · exact filled _

lemma promote (receiver : Value) : Correspond V (VM.promote receiver) (VM.promote receiver) := by
  refine (read fun m => ?_).bind fun found => ?_
  · cases receiver with
    | smallInt n | double d | ref a => rfl
  · split
    · exact (allocate _).bind fun _ => pure _
    · exact (allocate _).bind fun _ => pure _
    · exact pure _

lemma settle (c : Computed) : Correspond V (VM.settle c) (VM.settle c) := by
  cases c with
  | integer n => exact integer n
  | double d => exact pure _
  | truth b => exact ofBool b

lemma carries_thread (f : ThreadState → Unit × ThreadState) :
    V.Carries (fun m => (m.onThread f).2) fun m => (m.onThread f).2 := fun _ fits => ⟨rfl, fits⟩

lemma released (w : Window) : V.Carries (VM.released w) (VM.released w) := carries_thread _

lemma runPrimitive (p : Primitive) (receiver : Value) (w : Window) :
    Correspond V (VM.runPrimitive p receiver w) (VM.runPrimitive p receiver w) := by
  refine ensuring ?_ (released w)
  refine (ofExcept _).bind fun _ => (operand receiver).bind fun x => ?_
  refine (ofExcept _).bind fun compute => ?_
  exact (readStack _).bind fun _ => (operand _).bind fun y => (ofExcept _).bind fun _ => settle _

variable {x : VM σ α} {y : VM τ α}

lemma inFrame (same : Correspond V x y) (method : Option String) (outer block : Option Address)
    (target : Option FrameId) :
    Correspond V (VM.inFrame method outer block target x)
      (VM.inFrame method outer block target y) :=
  (inWorld Blind.freshFrame).bind fun _ => (onThread _).bind fun _ =>
    same.ensuring (carries_thread _)

lemma withTransient (o : Object) {x : Address → VM σ α} {y : Address → VM τ α}
    (same : ∀ a, Correspond V (x a) (y a)) :
    Correspond V (VM.withTransient o x) (VM.withTransient o y) :=
  (onThread _).bind fun a => (same a).ensuring (carries_thread _)

lemma attached (same : Correspond V x y) (block : Option Address) (caller : FrameId) :
    Correspond V (VM.attached block caller x) (VM.attached block caller y) := by
  cases block with
  | none => exact same
  | some a =>
    have detaches : V.Carries (detach a) (detach a) := fun m fits => ⟨rfl, fits⟩
    refine bind ?_ fun detached => ?_
    · refine (object? a).bind fun found => ?_
      split
      · exact pure _
      · exact pure _
    · split
      · exact (modifyObject a _).bind fun _ => same.ensuring detaches
      · exact same

end Correspond

/-- Native bodies correspond. -/
def CorrespondingRunners (V : View τ σ) (run : Runner σ) (run' : Runner τ) : Prop :=
  ∀ native receiver w block,
    Correspond V (run native receiver w block) (run' native receiver w block)

namespace CorrespondingRunners

variable {run : Runner σ} {run' : Runner τ} (same : CorrespondingRunners V run run')
include same

lemma dispatch (c : MethodObject) (receiver : Value) (w : Window) (block : Option Address) :
    Correspond V (VM.dispatch run c receiver w block) (VM.dispatch run' c receiver w block) := by
  have direct : ∀ receiver w, Correspond V (run c.native receiver w block)
      (run' c.native receiver w block) := fun receiver w => same c.native receiver w block
  have synthesized : ∀ o, Correspond V
      (do releaseWindow w; runSynthesized run c.native receiver o block)
      (do releaseWindow w; runSynthesized run' c.native receiver o block) := fun o =>
    (Correspond.modifyStack _).bind fun _ => .withTransient o fun a =>
      (Correspond.onStack _).bind fun w => direct receiver w
  rw [VM.dispatch, VM.dispatch]
  split
  · split
    · refine ((Correspond.readStack _).onHalt (Correspond.released w)).bind fun argument => ?_
      cases argument with
      | smallInt n => exact synthesized (.integer n)
      | double d => exact synthesized (.float d)
      | ref a => exact direct receiver w
    · exact direct receiver w
  · refine ((Correspond.promote receiver).onHalt (Correspond.released w)).bind fun receiver => ?_
    exact direct receiver w

/-- A call of a method sees an interrupt if and only if there is one, and none when it has been
taken. -/
lemma callMethod {m : Machine τ} (fits : V.FitsAt m)
    (honest : V.pending m.host m.world.signals.interrupt = m.world.signals.interrupt)
    (taken : V.pending m.host false = false) (c : MethodObject) (receiver : Value) (w : Window)
    (block : Option Address) :
    CorrespondAt V (VM.callMethod run c receiver w block) (VM.callMethod run' c receiver w block)
      m := by
  -- The poll is the one step that looks at interrupts, so it does not correspond at all machines.
  refine CorrespondAt.bind ?_ fun interrupted => ?_
  · have seen : (V.seen m).world = m.world := by
      rw [View.seen, honest]
      rfl
    have polled : V.pending m.host m.world.pollInterrupt.2.signals.interrupt =
        m.world.pollInterrupt.2.signals.interrupt := by
      rw [World.pollInterrupt]
      split
      · exact taken
      · exact honest
    refine ⟨?_, V.steady _ _ _ fits ?_ ?_⟩
    · rw [run_inWorld, run_inWorld, seen]
      simp only [View.seen, polled]
      rfl
    · rw [run_inWorld, World.pollInterrupt]
      split
      · exact fun impossible => by cases impossible
      · exact id
    · rw [run_inWorld, World.pollInterrupt]
      split
      · exact id
      · exact id
  · split
    · exact (Correspond.modifyStack _).bind fun _ => .halt _
    · refine Correspond.frame.bind fun f => ?_
      have inside := same.dispatch c (c.receiver.getD receiver) w block
      refine ((inside.attached block f.id).inFrame _ _ _ _).outcome.bind fun r => ?_
      split
      · split
        · exact .pure _
        · exact .halt _
      · exact .ofOutcome _

lemma callBlock (b : BlockObject) (w : Window) (block : Option Address) :
    Correspond V (VM.callBlock run b w block) (VM.callBlock run' b w block) := by
  refine Correspond.inFrame ?_ _ _ _ _
  split
  · exact same _ _ _ _
  · refine Correspond.ensuring ?_ (Correspond.released w)
    refine (Correspond.parameters w _ _ true true).bind fun values => ?_
    refine (Correspond.allocate _).bind fun _ => ?_
    exact (Correspond.onStack _).bind fun params => same _ _ _ _

lemma yieldBlock (w : Window) : Correspond V (VM.yieldBlock run w) (VM.yieldBlock run' w) := by
  refine Correspond.frame.bind fun f => ?_
  split
  · exact (Correspond.modifyStack _).bind fun _ => .halt _
  · refine (Correspond.object? _).bind fun found => ?_
    split
    · exact same.callBlock _ w none
    · exact (Correspond.read fun _ => rfl).bind fun type =>
        (Correspond.modifyStack _).bind fun _ => .halt _

/-- Calls of methods are for themselves, for they look at interrupts. -/
lemma callee (w : Window) (c : Callee) (other : ∀ o receiver block, c ≠ .method o receiver block) :
    Correspond V (VM.callee run w c) (VM.callee run' w c) := by
  cases c with
  | method o receiver block => exact absurd rfl (other o receiver block)
  | block a block =>
    refine (Correspond.object? a).bind fun found => ?_
    split
    · exact same.callBlock _ w block
    · exact (Correspond.modifyStack _).bind fun _ => .halt _
  | «yield» => exact same.yieldBlock w

end CorrespondingRunners

lemma carries_enterEnv (e : Env) : V.Carries (enterEnv e) (enterEnv e) := fun _ fits => ⟨rfl, fits⟩

/-- In an environment that was made before, or in the own one. -/
lemma CorrespondAt.inEnv {x : VM σ α} {y : VM τ α} {m : Machine τ} (e : Option Env)
    (same : ∀ m', V.FitsAt m' → m'.host = m.host → CorrespondAt V x y m') (fits : V.FitsAt m) :
    CorrespondAt V (VM.inEnv e x) (VM.inEnv e y) m := by
  cases e with
  | none => exact same m fits rfl
  | some e => exact (same (enterEnv e m) fits rfl).ensuring (carries_enterEnv _)

namespace Correspond

variable {x : VM σ α} {y : VM τ α}

lemma inEnv (same : Correspond V x y) (e : Option Env) :
    Correspond V (VM.inEnv e x) (VM.inEnv e y) :=
  fun _ fits => .inEnv e (fun m' fits' _ => same m' fits') fits

lemma childEnv (method : Option String) (outer block : Option Address) :
    Correspond V (VM.childEnv method outer block) (VM.childEnv method outer block) :=
  (inWorld Blind.freshFrame).bind fun _ => read fun _ => rfl

lemma opened (ws : List Window) (o : Opening) :
    Correspond V (VM.opened ws o) (VM.opened ws o) := by
  cases o with
  | values vs hasKeywords => exact onStack _
  | copyOf i =>
    rw [VM.opened, VM.opened]
    split
    · exact onStack _
    · exact onStack _

lemma taken (w : Window) (t : Taking) : Correspond V (VM.taken w t) (VM.taken w t) := onStack _

end Correspond

end VM

/-- The same deed of another program, which has to change what is shared in its own way. -/
def Deed.lift {σ τ : Type} (g : (σ → σ) → τ → τ) : Deed σ → Deed τ
  | allocate o => allocate o
  | edit a e => edit a e
  | symbol name => symbol name
  | setGlobal name v => setGlobal name v
  | addRoots vs => addRoots vs
  | removeRoots vs => removeRoots vs
  | collect => collect
  | enableCollection on => enableCollection on
  | installHandlers => installHandlers
  | requestInterrupt => requestInterrupt
  | requestCollection => requestCollection
  | setLine line => setLine line
  | share f => share (g f)

namespace VM

variable {σ τ ρ π : Type} {V : View (τ × π) (σ × ρ)}

lemma Correspond.deed {g : (σ → σ) → τ → τ}
    (shares : ∀ f, Correspond V (shared f) (shared (g f))) (d : Deed σ)
    (silent : d ≠ .requestInterrupt) : Correspond V (VM.deed d) (VM.deed (d.lift g)) := by
  have changes : ∀ {f : World → World}, (∀ w b, f (w.interruptible b) = (f w).interruptible b) →
      (∀ w, w.signals.installed → (f w).signals.installed) →
      Correspond V
        (do
          VM.inWorld fun _ w => ((), f w)
          VM.nil : VM (σ × ρ) Value)
        (do
          VM.inWorld fun _ w => ((), f w)
          VM.nil) := fun same on => (inWorld (.unit same on)).bind fun _ => nil
  cases d with
  | allocate o => exact (allocate _).bind fun _ => pure _
  | edit a e => exact changes (fun _ _ => rfl) fun _ => id
  | symbol name =>
    exact (inWorld (Blind.intern name)).bind fun _ => (ofHeap _).bind fun _ => pure _
  | setGlobal name v => exact (inWorld (Blind.setGlobal name v)).bind fun _ => nil
  | addRoots vs =>
    refine (inWorld (Blind.foldl (g := fun w v => w.addRoot v) ?_ ?_ vs)).bind fun _ => nil
    · exact fun _ _ _ => rfl
    · exact fun _ _ => id
  | removeRoots vs =>
    refine (inWorld (Blind.foldl (g := fun w v => w.removeRoot v) ?_ ?_ vs)).bind fun _ => nil
    · exact fun _ _ _ => rfl
    · exact fun _ _ => id
  | collect => exact (inWorld Blind.collect).bind fun ran => ofBool ran
  | enableCollection on => exact (inWorld (Blind.onHeap _)).bind fun _ => nil
  | installHandlers => exact changes (fun _ _ => rfl) fun _ _ => rfl
  | requestInterrupt => exact absurd rfl silent
  | requestCollection => exact changes (fun _ _ => rfl) fun _ => id
  | setLine line => exact (onThread _).bind fun _ => nil
  | share f => exact (shares f).bind fun _ => nil

end VM

end CellMachine
