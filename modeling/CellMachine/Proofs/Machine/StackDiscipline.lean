import CellMachine.Proofs.Machine.Bodies

/-!
# The discipline of the argument stack

A call takes over the topmost window of the argument stack. When it is over, however it
ends, the stack is cut back to where it stood when that window was opened, and what lies
below is as it was. All that runs inside the call works above that place: the windows of a
body are nested, so each of them is the topmost one when it is given away or released.
-/

namespace CellMachine

namespace Window

/-- The window was opened last of those on the stack, and values have been taken from it at
most. -/
structure Topmost (w : Window) (stack : Array Value) : Prop where
  front : w.origin ≤ w.start
  back : w.stop ≤ w.origin + w.openedSize
  top : stack.size = w.origin + w.openedSize

/-- Each window was opened at the end of the next one, the last at `base`. The first ends at
`top`. -/
inductive Nested (base : Nat) : List Window → Nat → Prop where
  | empty : Nested base [] base
  | opened {w : Window} {rest : List Window} (below : Nested base rest w.origin)
      (front : w.origin ≤ w.start) (back : w.stop ≤ w.origin + w.openedSize) :
      Nested base (w :: rest) (w.origin + w.openedSize)

/-- The second window is what taking values leaves of the first. -/
structure Narrows (w w' : Window) : Prop where
  origin : w'.origin = w.origin
  openedSize : w'.openedSize = w.openedSize
  front : w.start ≤ w'.start
  back : w'.stop ≤ w.stop

lemma shrink_shrink {stack : Array Value} {n k : Nat} (h : n ≤ k) :
    (stack.shrink k).shrink n = stack.shrink n := by
  apply Array.ext'
  rw [Array.toList_shrink, Array.toList_shrink, Array.toList_shrink, List.take_take, min_eq_left h]

lemma shrink_append {stack : Array Value} {n : Nat} (h : n ≤ stack.size) (values : List Value) :
    (stack ++ values).shrink n = stack.shrink n := by
  apply Array.ext'
  rw [Array.toList_shrink, Array.toList_shrink, Array.toList_appendList,
    List.take_append_of_le_length h]

lemma shrink_size (stack : Array Value) : stack.shrink stack.size = stack := by
  apply Array.ext'
  rw [Array.toList_shrink]
  exact List.take_length

lemma shrink_set! {stack : Array Value} {n i : Nat} (h : n ≤ i) (v : Value) :
    (stack.set! i v).shrink n = stack.shrink n := by
  apply Array.ext'
  rw [Array.toList_shrink, Array.toList_shrink, Array.set!_eq_setIfInBounds,
    Array.toList_setIfInBounds, List.take_set_of_le h]

variable {base top : Nat} {w : Window} {ws : List Window} {stack : Array Value}

lemma topmost_fresh (stack : Array Value) (values : List Value) (hasKeywords : Bool) :
    (fresh stack.size values.length hasKeywords).Topmost (stack ++ values) := by
  constructor
  · exact le_rfl
  · exact le_rfl
  · rw [← Array.length_toList, Array.toList_appendList, List.length_append]
    rfl

lemma Topmost.le_size (topmost : w.Topmost stack) : w.origin ≤ stack.size := by
  have := topmost.top
  omega

lemma Nested.le (nested : Nested base ws top) : base ≤ top := by
  induction nested with
  | empty => exact le_rfl
  | opened _ _ _ ih => omega

lemma Nested.topmost (nested : Nested base (w :: ws) stack.size) : w.Topmost stack := by
  generalize size : stack.size = top at nested
  cases nested with
  | opened below front back => exact ⟨front, back, size⟩

lemma Nested.tail (nested : Nested base (w :: ws) top) : Nested base ws w.origin := by
  cases nested with
  | opened below _ _ => exact below

lemma Topmost.nested (topmost : w.Topmost stack) (below : Nested base ws w.origin) :
    Nested base (w :: ws) stack.size := by
  rw [topmost.top]
  exact .opened below topmost.front topmost.back

lemma Nested.start_le (nested : Nested base ws top) {i : Nat} (here : ws[i]? = some w) :
    base ≤ w.start := by
  induction nested generalizing i with
  | empty => cases here
  | opened below front back ih =>
    cases i with
    | zero =>
      obtain rfl := Option.some.inj here
      exact below.le.trans front
    | succ i => exact ih here

lemma Nested.stop_le (nested : Nested base ws top) {i : Nat} (here : ws[i]? = some w) :
    w.stop ≤ top := by
  induction nested generalizing i with
  | empty => cases here
  | opened below front back ih =>
    cases i with
    | zero =>
      obtain rfl := Option.some.inj here
      exact back
    | succ i =>
      have lower := ih here
      omega

/-- An older window ends where a newer one starts, or before. -/
lemma Nested.apart (nested : Nested base ws top) {i j : Nat} {v : Window}
    (newer : ws[i]? = some v) (older : ws[j]? = some w) (order : i < j) : w.stop ≤ v.start := by
  induction nested generalizing i j with
  | empty => cases newer
  | opened below front back ih =>
    obtain ⟨j, rfl⟩ := Nat.exists_eq_succ_of_ne_zero (Nat.ne_of_gt (Nat.zero_lt_of_lt order))
    cases i with
    | zero =>
      obtain rfl := Option.some.inj newer
      exact (below.stop_le older).trans front
    | succ i => exact ih newer older (Nat.lt_of_succ_lt_succ order)

lemma Nested.set (nested : Nested base ws top) {i : Nat} (here : ws[i]? = some w) {w' : Window}
    (narrows : w.Narrows w') : Nested base (ws.set i w') top := by
  induction nested generalizing i with
  | empty => cases here
  | @opened v rest below front back ih =>
    cases i with
    | zero =>
      obtain rfl := Option.some.inj here
      rw [← narrows.origin, ← narrows.openedSize]
      refine .opened (narrows.origin ▸ below) ?_ ?_
      · rw [narrows.origin]
        exact front.trans narrows.front
      · rw [narrows.origin, narrows.openedSize]
        exact narrows.back.trans back
    | succ i => exact .opened (ih here) front back

/-- Released from the newest to the oldest, nested windows leave the stack cut back. -/
lemma Nested.release (nested : Nested base ws top) {stack : Array Value} (size : stack.size = top) :
    ws.foldl (fun s w => w.release s) stack = stack.shrink base := by
  induction nested generalizing stack with
  | empty => rw [List.foldl_nil, ← size, shrink_size]
  | @opened v rest below front back ih =>
    have cut : (v.release stack).size = v.origin := by
      rw [Window.release, Array.size_shrink]
      omega
    rw [List.foldl_cons, ih cut]
    exact shrink_shrink below.le

lemma Narrows.refl (w : Window) : w.Narrows w := ⟨rfl, rfl, le_rfl, le_rfl⟩

lemma narrows_shift (w : Window) (withKeywords : Bool) (stack : Array Value) :
    w.Narrows (w.shift withKeywords stack).2 := by
  have size := w.count_le_size withKeywords
  rw [shift]
  split
  · exact Narrows.refl w
  · split
    · refine ⟨rfl, rfl, Nat.le_succ _, ?_⟩
      simp only [stop, narrowFront]
      omega
    · exact Narrows.refl w

lemma narrows_popLast (w : Window) (stack : Array Value) : w.Narrows (w.popLast stack).2 := by
  refine ⟨rfl, rfl, le_rfl, ?_⟩
  simp only [stop, popLast]
  omega

/-- When the hash is not counted and a value is left, there are two in the window at least. -/
lemma two_le_size {withKeywords : Bool} (hidden : (w.hasKeywords && !withKeywords) = true)
    (some_left : ¬ w.count withKeywords = 0) : 2 ≤ w.size := by
  rw [count, if_pos hidden] at some_left
  omega

lemma narrows_pop (w : Window) (withKeywords : Bool) (stack : Array Value) :
    w.Narrows (w.pop withKeywords stack).2.1 ∧
      (w.pop withKeywords stack).2.2.size = stack.size ∧
      ∀ n ≤ w.start, (w.pop withKeywords stack).2.2.shrink n = stack.shrink n := by
  have unchanged : ∀ n ≤ w.start, stack.shrink n = stack.shrink n := fun _ _ => rfl
  rw [pop]
  split
  · exact ⟨Narrows.refl w, rfl, unchanged⟩
  · rename_i some_left
    split
    · rename_i keyword
      rw [popPositional]
      split
      · refine ⟨⟨rfl, rfl, le_rfl, ?_⟩, by simp, fun n low => shrink_set! ?_ _⟩
        · simp only [stop]
          omega
        · have two := two_le_size keyword some_left
          simp only [stop]
          omega
      · exact ⟨Narrows.refl w, rfl, unchanged⟩
      · exact ⟨Narrows.refl w, rfl, unchanged⟩
    · exact ⟨narrows_popLast w stack, rfl, unchanged⟩

/-- Taking a value writes inside the window at most. -/
lemma getElem?_pop (w : Window) (withKeywords : Bool) (stack : Array Value) {k : Nat}
    (outside : k < w.start ∨ w.stop ≤ k) :
    (w.pop withKeywords stack).2.2[k]? = stack[k]? := by
  rw [pop]
  split
  · rfl
  · rename_i some_left
    split
    · rename_i hidden
      have two := two_le_size hidden some_left
      rw [popPositional]
      split
      · refine Array.getElem?_setIfInBounds_ne ?_
        simp only [stop] at outside ⊢
        omega
      · rfl
      · rfl
    · rfl

lemma narrows_popKeywords (w : Window) (stack : Array Value) :
    w.Narrows (w.popKeywords stack).2 := by
  rw [popKeywords]
  split
  · exact narrows_popLast w stack
  · exact Narrows.refl w

lemma narrows_popEmptyKeywords (w : Window) (isEmptyHash : Address → Bool) (stack : Array Value) :
    w.Narrows (w.popEmptyKeywords isEmptyHash stack).2 := by
  rw [popEmptyKeywords]
  split
  · dsimp only
    split
    · exact narrows_popLast w stack
    · exact Narrows.refl w
  · exact Narrows.refl w
  · exact Narrows.refl w

/-- Whatever is taken from a window, and also if nothing is, the stack below it stays. -/
lemma narrows_from (w : Window) (stack : Array Value) (t : Taking) :
    w.Narrows (t.from w stack).2.1 ∧ (t.from w stack).2.2.size = stack.size ∧
      ∀ n ≤ w.start, (t.from w stack).2.2.shrink n = stack.shrink n := by
  cases t with
  | shift withKeywords => exact ⟨narrows_shift w withKeywords stack, rfl, fun _ _ => rfl⟩
  | pop withKeywords => exact narrows_pop w withKeywords stack
  | popKeywords => exact ⟨narrows_popKeywords w stack, rfl, fun _ _ => rfl⟩
  | popEmptyKeywords isEmptyHash =>
    exact ⟨narrows_popEmptyKeywords w isEmptyHash stack, rfl, fun _ _ => rfl⟩

lemma getElem?_from (w : Window) (stack : Array Value) (t : Taking) {k : Nat}
    (outside : k < w.start ∨ w.stop ≤ k) : (t.from w stack).2.2[k]? = stack[k]? := by
  cases t with
  | pop withKeywords => exact getElem?_pop w withKeywords stack outside
  | _ => rfl

end Window

namespace VM

variable {σ α β : Type} {s t : Array Value} {w : Window} {P : Machine σ → Prop}

/-- The argument stack is `s`. -/
def Stands (s : Array Value) (m : Machine σ) : Prop := m.thread.stack = s

/-- Taking over the topmost window, the computation cuts the stack back to its origin. -/
def Cuts (w : Window) (x : VM σ α) : Prop :=
  ∀ s, w.Topmost s → Ensures (Stands s) x fun _ => Stands (s.shrink w.origin)

/-- What the discipline asks of the runner of native bodies. -/
def CutsAll (run : Runner σ) : Prop :=
  ∀ native receiver w block, Cuts w (run native receiver w block)

lemma passes_update {f : Machine σ → α × Machine σ}
    (same : ∀ m, (f m).2.thread.stack = m.thread.stack) : Passes (Stands s) (update f) :=
  fun m here => ⟨⟨_, rfl⟩, (same m).trans here⟩

lemma passes_inWorld (f : Stacks → World → α × World) : Passes (Stands s) (inWorld f : VM σ α) :=
  passes_update fun _ => rfl

lemma passes_onHost (f : σ → α × σ) : Passes (Stands s) (onHost f : VM σ α) :=
  passes_update fun _ => rfl

lemma keeps_allocate (o : Object) : Keeps (Stands s) (allocate o : VM σ Address) :=
  (passes_inWorld _).bind fun _ => Keeps.ofHeap _

lemma keeps_symbol (name : String) : Keeps (Stands s) (symbol name : VM σ Value) :=
  (passes_inWorld _).bind fun _ => (Keeps.ofHeap _).andThen fun _ => Keeps.pure _

lemma ensures_pushWindow {values : List Value} {hasKeywords : Bool} {f : Window → VM σ β}
    {Q : Except Halt β → Machine σ → Prop}
    (h : Ensures (Stands (s ++ values)) (f (Window.fresh s.size values.length hasKeywords)) Q) :
    Ensures (Stands s) (pushWindow values hasKeywords >>= f) Q := by
  intro m here
  obtain rfl := here
  exact h _ rfl

lemma ensures_releaseWindow {f : Unit → VM σ β} {Q : Except Halt β → Machine σ → Prop}
    (h : Ensures (Stands (s.shrink w.origin)) (f ()) Q) :
    Ensures (Stands s) (releaseWindow w >>= f) Q := by
  intro m here
  obtain rfl := here
  exact h _ rfl

lemma stands_released {m : Machine σ} (here : Stands s m) (w : Window) :
    Stands (s.shrink w.origin) (released w m) := by
  obtain rfl := here
  exact rfl

/-- A frame of its own is no matter of the stack. -/
lemma ensures_inFrame {x : VM σ α} (h : Ensures (Stands s) x fun _ => Stands t)
    (method : Option String) (outer block : Option Address) (breakTarget : Option FrameId) :
    Ensures (Stands s) (inFrame method outer block breakTarget x) fun _ => Stands t := by
  refine (passes_inWorld _).bind fun id => ?_
  exact (passes_update fun _ => rfl).bind fun _ => h

lemma ensures_attached {x : VM σ α} (h : Ensures (Stands s) x fun _ => Stands t)
    (block : Option Address) (caller : FrameId) :
    Ensures (Stands s) (attached block caller x) fun _ => Stands t := by
  cases block with
  | none => exact h
  | some a =>
    rw [attached]
    refine Passes.bind (P := Stands s) ?_ fun detached => ?_
    · refine (Passes.object? a).bind fun found => ?_
      split
      · exact Passes.pure _
      · exact Passes.pure _
    · split
      · exact (passes_inWorld _).bind fun _ => h
      · exact h

lemma ensures_landing {x : VM σ Value} (h : Ensures (Stands s) x fun _ => Stands t)
    (id : FrameId) : Ensures (Stands s) (landing id x) fun _ => Stands t := by
  refine Ensures.bindOutcome h fun r => ?_
  split
  · split
    · exact Ensures.pure fun _ after => after
    · exact Ensures.halt fun _ after => after
  · exact Ensures.ofOutcome fun _ after => after

lemma cuts_runPrimitive (p : Primitive) (receiver : Value) (w : Window) :
    Cuts w (runPrimitive p receiver w : VM σ Value) :=
  fun _ _ => Ensures.runPrimitive (fun o _ => keeps_allocate o)
    (fun _ _ here _ => stands_released here w) p receiver

variable {run : Runner σ}

/-- A body with a window of its own that is opened above the stack leaves the stack. -/
lemma ensures_pushed (cuts : CutsAll run) (values : List Value) (native : Native) (receiver : Value)
    (block : Option Address) :
    Ensures (Stands s) (do
      let w ← pushWindow values false
      run native receiver w block) fun _ => Stands s := by
  refine ensures_pushWindow fun m here => ?_
  have topmost := Window.topmost_fresh s values false
  have left : Stands ((s ++ values).shrink s.size) _ :=
    cuts native receiver _ block _ topmost m here
  rwa [Window.shrink_append le_rfl, Window.shrink_size] at left

lemma ensures_runSynthesized (cuts : CutsAll run) (native : Native) (receiver : Value) (o : Object)
    (block : Option Address) :
    Ensures (Stands s) (runSynthesized run native receiver o block) fun _ => Stands s := by
  rw [runSynthesized, withTransient]
  refine Passes.bind (P := Stands s) (passes_update fun _ => rfl) fun a => ?_
  exact Ensures.ensuring (ensures_pushed cuts [.ref a] native receiver block)

/-- On the optimized path the window is released before the body has one of its own. -/
lemma cuts_dispatch (cuts : CutsAll run) (m : MethodObject) (receiver : Value) (w : Window)
    (block : Option Address) : Cuts w (dispatch run m receiver w block) := by
  intro s topmost
  have direct : ∀ receiver, Ensures (Stands s) (run m.native receiver w block) fun _ =>
      Stands (s.shrink w.origin) := fun receiver => cuts m.native receiver w block s topmost
  have synthesized : ∀ o, Ensures (Stands s) (do
      releaseWindow w
      runSynthesized run m.native receiver o block) fun _ => Stands (s.shrink w.origin) := by
    intro o
    exact ensures_releaseWindow (ensures_runSynthesized cuts m.native receiver o block)
  rw [dispatch]
  split
  · split
    · refine (Keeps.readStack _).orReleased (fun argument => ?_)
        fun _ _ here _ => stands_released here w
      cases argument with
      | smallInt n => exact synthesized (.integer n)
      | double d => exact synthesized (.float d)
      | ref a => exact direct receiver
    · exact direct receiver
  · exact (Keeps.promote (fun o _ => keeps_allocate o) receiver).orReleased direct
      fun _ _ here _ => stands_released here w

lemma cuts_callMethod (cuts : CutsAll run) (m : MethodObject) (receiver : Value) (w : Window)
    (block : Option Address) : Cuts w (callMethod run m receiver w block) := by
  intro s topmost
  rw [callMethod]
  refine (passes_inWorld _).bind fun interrupted => ?_
  have called : Ensures (Stands s) (do
      let caller := (← frame).id
      landing caller <|
        inFrame (some m.name) m.scope block none <|
          attached block caller <|
            dispatch run m (m.receiver.getD receiver) w block) fun _ =>
      Stands (s.shrink w.origin) := by
    refine Passes.frame.bind fun f => ?_
    have body := cuts_dispatch cuts m (m.receiver.getD receiver) w block s topmost
    exact ensures_landing (ensures_inFrame (ensures_attached body block f.id) _ _ _ _) f.id
  split
  · exact ensures_releaseWindow (Ensures.haltThen fun _ after => after)
  · exact called

lemma cuts_callBlock (cuts : CutsAll run) (b : BlockObject) (w : Window) (block : Option Address) :
    Cuts w (callBlock run b w block) := by
  intro s topmost
  rw [callBlock]
  refine ensures_inFrame ?_ _ _ _ _
  split
  · exact cuts b.native b.receiver w block s topmost
  · refine Ensures.ensuring (Q := fun _ => Stands (s.shrink w.origin)) ?_
    refine Ensures.conseq (Q := fun _ => Stands s) ?_ fun _ _ here => stands_released here w
    refine (Keeps.parameters w _ _ true true).bind (fun values => ?_) fun _ _ here _ => here
    refine (keeps_allocate _).bind (fun _ => ?_) fun _ _ here _ => here
    exact ensures_pushed cuts values b.native b.receiver block

lemma cuts_yieldBlock (cuts : CutsAll run) (w : Window) : Cuts w (yieldBlock run w) := by
  intro s topmost
  rw [yieldBlock]
  refine Passes.frame.bind fun f => ?_
  split
  · exact ensures_releaseWindow (Ensures.halt fun _ after => after)
  · refine (Passes.object? _).bind fun found => ?_
    split
    · exact cuts_callBlock cuts _ w none s topmost
    · refine (Passes.read _).bind fun type => ?_
      exact ensures_releaseWindow (Ensures.halt fun _ after => after)

end VM

namespace Body

open VM

variable {σ τ : Type} {note : Note → τ → τ} {run : Runner (σ × τ)} {s t : Array Value}
  {base : Nat} {ws : List Window}

lemma keeps_deed (d : Deed σ) : Keeps (Stands s) (VM.deed d : VM (σ × τ) Value) := by
  cases d with
  | allocate o => exact (keeps_allocate _).andThen fun _ => Keeps.pure _
  | symbol name => exact keeps_symbol name
  | collect => exact (passes_inWorld _).bind fun ran => (Passes.ofBool ran).keeps
  | share f => exact (passes_onHost _).bind fun _ => Passes.nil.keeps
  | setLine line =>
    have passed : Passes (Stands s) (VM.setLine line : VM (σ × τ) Unit) :=
      passes_update (f := fun m => m.onThread fun t => ((), t.setLine line)) fun _ => rfl
    exact passed.bind fun _ => Passes.nil.keeps
  | _ => exact (passes_inWorld _).bind fun _ => Passes.nil.keeps

/-- Which environment is the present one is no matter of the stack either. -/
lemma ensures_inEnv {α : Type} {x : VM σ α} {Q : Except Halt α → Array Value → Prop}
    (h : Ensures (Stands s) x fun r m => Q r m.thread.stack) (e : Option Env) :
    Ensures (Stands s) (inEnv e x) fun r m => Q r m.thread.stack := by
  cases e with
  | none => exact h
  | some e =>
    refine (Passes.read _).bind fun own => ?_
    exact (passes_update fun _ => rfl).bind fun _ => h

lemma passes_inEnv {α : Type} {x : VM σ α} (h : Passes (Stands s) x) (e : Option Env) :
    Passes (Stands s) (inEnv e x) :=
  ensures_inEnv (Q := fun r stack => (∃ a, r = .ok a) ∧ stack = s) h e

lemma passes_childEnv (method : Option String) (outer block : Option Address) :
    Passes (Stands s) (childEnv method outer block : VM σ Env) :=
  (passes_inWorld _).bind fun _ => Passes.read _

lemma passes_breakWith (v : Value) : Passes (Stands s) (VM.breakWith v : VM σ CallError) := by
  refine Passes.frame.bind fun f => ?_
  split
  · exact Passes.pure _
  · exact Passes.pure _

lemma passes_watchedBreak (e : Option Env) (v : Value) :
    Passes (Stands s) (watchedBreak note e v : VM (σ × τ) CallError) :=
  (passes_inEnv (passes_breakWith v) e).bind fun _ => (passes_onHost _).bind fun _ => Passes.pure _

lemma passes_activity (c : Callee) : Passes (Stands s) (activity c : VM σ Activity) := by
  cases c with
  | method m receiver block =>
    exact Passes.frame.bind fun _ => (Passes.read _).bind fun _ => Passes.pure _
  | block a block => exact Passes.pure _
  | «yield» => exact Passes.frame.bind fun _ => Passes.pure _

/-- A new window is opened above the others. -/
lemma nested_pushed (nested : Window.Nested base ws s.size) (values : List Value)
    (hasKeywords : Bool) {m : Machine σ} (here : Stands (s ++ values) m) :
    Window.Nested base (.fresh s.size values.length hasKeywords :: ws) m.thread.stack.size ∧
      m.thread.stack.shrink base = s.shrink base := by
  rw [here]
  exact ⟨(Window.topmost_fresh s values hasKeywords).nested nested,
    Window.shrink_append nested.le values⟩

lemma length_slice {stack : Array Value} {first last : Nat} {values : List Value}
    (sliced : Window.slice stack first last = .ok values) : values.length = last - first := by
  rw [Window.slice] at sliced
  split at sliced
  · rename_i bounds
    obtain rfl := Except.ok.inj sliced
    rw [Array.length_toList, Array.size_extract]
    omega
  · cases sliced

lemma ensures_opened (nested : Window.Nested base ws s.size) (o : Opening) :
    Ensures (Stands s) (opened ws o : VM σ Window) fun r m => match r with
      | .ok w => Window.Nested base (w :: ws) m.thread.stack.size ∧
        m.thread.stack.shrink base = s.shrink base
      | .error _ => Stands s m := by
  have pushed : ∀ values hasKeywords,
      Ensures (Stands s) (pushWindow values hasKeywords : VM σ Window) fun r m => match r with
        | .ok w => Window.Nested base (w :: ws) m.thread.stack.size ∧
          m.thread.stack.shrink base = s.shrink base
        | .error _ => Stands s m := by
    intro values hasKeywords m here
    obtain rfl := here
    exact nested_pushed nested values hasKeywords rfl
  cases o with
  | values vs hasKeywords => exact pushed vs hasKeywords
  | copyOf i =>
    rw [opened]
    cases ws[i]? with
    | none => exact pushed [] false
    | some w =>
      intro m here
      obtain rfl := here
      rw [run_onStack, Window.copy]
      cases sliced : Window.slice m.thread.stack w.start w.stop with
      | error f => rfl
      | ok values =>
        have length : values.length = w.size := by
          rw [length_slice sliced, Window.stop]
          omega
        dsimp only
        rw [← length]
        exact nested_pushed nested values w.hasKeywords rfl

lemma ensures_taken {i : Nat} {w : Window} (nested : Window.Nested base ws s.size)
    (here : ws[i]? = some w) (t : Taking) :
    Ensures (Stands s) (taken w t : VM σ (Except Fault (Option Value) × Window)) fun r m =>
      ∃ a w', r = .ok (a, w') ∧ Window.Nested base (ws.set i w') m.thread.stack.size ∧
        m.thread.stack.shrink base = s.shrink base := by
  obtain ⟨narrows, size, below⟩ := Window.narrows_from w s t
  intro m stands
  obtain rfl := stands
  refine ⟨_, _, rfl, ?_, below base (nested.start_le here)⟩
  have after := nested.set here narrows
  rwa [← size] at after

lemma cuts_callee (cuts : CutsAll run) (w : Window) (c : Callee) : Cuts w (callee run w c) := by
  intro s topmost
  cases c with
  | method m receiver block => exact cuts_callMethod cuts m receiver w block s topmost
  | «yield» => exact cuts_yieldBlock cuts w s topmost
  | block a block =>
    refine (Passes.object? a).bind fun found => ?_
    split
    · exact cuts_callBlock cuts _ w block s topmost
    · exact ensures_releaseWindow (Ensures.halt fun _ after => after)

/-- A call that a body makes in one of its environments. -/
lemma ensures_watchedCall (cuts : CutsAll run) (e : Option Env) (c : Callee) {w : Window}
    (topmost : w.Topmost s) :
    Ensures (Stands s) (inEnv e (watchedCall note run c w)) fun r m =>
      (∃ a, r = .ok a) ∧ Stands (s.shrink w.origin) m := by
  refine ensures_inEnv (Q := fun r stack => (∃ a, r = .ok a) ∧ stack = s.shrink w.origin) ?_ e
  refine (passes_activity c).bind fun a => (passes_onHost _).bind fun _ => ?_
  refine Ensures.bindOutcome (cuts_callee cuts w c s topmost) fun r => ?_
  exact (passes_onHost _).bind fun _ => Passes.pure r

/-- A window that is given away to a call leaves the others nested. -/
lemma ensures_given (cuts : CutsAll run) (e : Option Env) (c : Callee) {w : Window}
    (nested : Window.Nested base (w :: ws) s.size) {f : Except Halt Value → VM (σ × τ) Value}
    (rest : ∀ r t, Window.Nested base ws t.size →
      Ensures (Stands t) (f r) fun _ => Stands (t.shrink base)) :
    Ensures (Stands s) (inEnv e (watchedCall note run c w) >>= f) fun _ =>
      Stands (s.shrink base) := by
  have below : Window.Nested base ws (s.shrink w.origin).size := by
    rw [Array.size_shrink, min_eq_left nested.topmost.le_size]
    exact nested.tail
  refine Ensures.bind (ensures_watchedCall cuts e c nested.topmost) ?_ ?_
  · rintro r m ⟨_, here⟩
    rw [← Window.shrink_shrink nested.tail.le]
    exact rest r _ below m here
  · rintro h m ⟨⟨_, impossible⟩, _⟩
    cases impossible

/-- Played on nested windows, a body leaves the stack cut back to where the oldest of them was
opened. -/
lemma ensures_play (cuts : CutsAll run) (b : Body σ) {ws : List Window} {s : Array Value}
    (nested : Window.Nested base ws s.size) (envs : List Env) :
    Ensures (Stands s) (b.play note run ws envs) fun _ => Stands (s.shrink base) := by
  induction b generalizing ws s envs with
  | done r =>
    refine Ensures.bind (R := fun _ => Stands (s.shrink base)) ?_ ?_ fun _ _ after => after
    · intro m here
      obtain rfl := here
      exact nested.release rfl
    · exact fun _ => Ensures.ofOutcome fun _ after => after
  | look next ih => exact (Passes.read _).bind fun m => ih ws _ nested envs
  | deed d next ih => exact (Passes.outcome (keeps_deed d)).bind fun r => ih r nested envs
  | openWindow o next ih =>
    rw [play]
    refine Ensures.bindOutcome (ensures_opened nested o) fun r => ?_
    cases r with
    | error h => exact ih (.error h) nested envs
    | ok w =>
      rintro m ⟨inside, below⟩
      rw [← below]
      exact ih (.ok ()) inside envs m rfl
  | take i t next ih =>
    rw [play]
    split
    · rename_i w here
      refine Ensures.bind (ensures_taken nested here t) ?_ ?_
      · rintro ⟨a, w'⟩ m ⟨_, _, same, inside, below⟩
        obtain ⟨rfl, rfl⟩ : a = _ ∧ w' = _ := by simpa using same
        rw [← below]
        exact ih _ inside envs m rfl
      · rintro h m ⟨_, _, impossible, _⟩
        cases impossible
    · exact ih (.ok none) nested envs
  | close next ih =>
    cases ws with
    | nil => exact ih nested envs
    | cons w rest =>
      refine ensures_releaseWindow ?_
      rw [← Window.shrink_shrink nested.tail.le]
      refine ih ?_ envs
      rw [Array.size_shrink, min_eq_left nested.topmost.le_size]
      exact nested.tail
  | child env method outer block next ih =>
    exact (passes_inEnv (passes_childEnv method outer block) _).bind fun e => ih nested _
  | breakWith env v next ih =>
    exact (passes_watchedBreak _ v).bind fun e => ih e nested envs
  | call env c next ih =>
    cases ws with
    | nil =>
      have inside := (Window.topmost_fresh s [] false).nested nested
      refine ensures_pushWindow ?_
      rw [← Window.shrink_append nested.le []]
      exact ensures_given cuts _ c inside fun r t below => ih r below envs
    | cons w rest => exact ensures_given cuts _ c nested fun r t below => ih r below envs

/-- Native bodies of any table cut the stack back, however deep their calls are nested. -/
lemma cutsAll_runnerAt (note : Note → τ → τ) (table : BodyTable σ) (depth : Nat) :
    CutsAll (runnerAt note table depth) := by
  induction depth with
  | zero =>
    exact fun native receiver w block s _ =>
      ensures_releaseWindow (Ensures.halt fun _ after => after)
  | succ depth ih =>
    intro native receiver w block s topmost
    have watched : ∀ x : VM (σ × τ) Value,
        Ensures (Stands s) x (fun _ => Stands (s.shrink w.origin)) →
        Ensures (Stands s) (do
          let r ← outcome x
          noted note (.ends r)
          ofOutcome r) fun _ => Stands (s.shrink w.origin) := by
      intro x runs
      refine Ensures.bindOutcome runs fun r => (passes_onHost _).bind fun _ => ?_
      exact Ensures.ofOutcome fun _ after => after
    cases native with
    | primitive p => exact watched _ (cuts_runPrimitive p receiver w s topmost)
    | body i => exact watched _ (ensures_play ih _ (topmost.nested .empty) [])

end Body

namespace Machine

variable {σ τ : Type}

/-- The stack is as long as it was when the window was opened, and its slots are unchanged. -/
structure Restored (m : Machine σ) (w : Window) (after : Machine σ) : Prop where
  length : after.thread.stack.size = w.origin
  slots : ∀ i < w.origin, after.thread.stack[i]? = m.thread.stack[i]?

/-- So it is after every call, in whichever way it was made and however it ends. -/
structure Disciplined (run : Runner σ) (m : Machine σ) (w : Window) : Prop where
  method : ∀ c receiver block, m.Restored w ((VM.callMethod run c receiver w block).run m).2
  block : ∀ b block, m.Restored w ((VM.callBlock run b w block).run m).2
  yielded : m.Restored w ((VM.yieldBlock run w).run m).2

lemma restored_of_cuts {m : Machine σ} {w : Window} {α : Type} {x : VM σ α} (cuts : VM.Cuts w x)
    (topmost : w.Topmost m.thread.stack) : m.Restored w (x.run m).2 := by
  have after : (x.run m).2.thread.stack = m.thread.stack.shrink w.origin := cuts _ topmost m rfl
  constructor
  · rw [after, Array.size_shrink, min_eq_left topmost.le_size]
  · intro i low
    rw [after, ← Array.getElem?_toList, ← Array.getElem?_toList, Array.toList_shrink,
      List.getElem?_take_of_lt low]

/-- The discipline of the argument stack, for all native bodies and all nestings of calls. -/
theorem disciplined (note : Note → τ → τ) (table : BodyTable σ) (depth : Nat)
    {m : Machine (σ × τ)} {w : Window} (topmost : w.Topmost m.thread.stack) :
    Disciplined (Body.runnerAt note table depth) m w := by
  have cuts := Body.cutsAll_runnerAt note table depth
  constructor
  · exact fun c receiver block =>
      restored_of_cuts (VM.cuts_callMethod cuts c receiver w block) topmost
  · exact fun b block => restored_of_cuts (VM.cuts_callBlock cuts b w block) topmost
  · exact restored_of_cuts (VM.cuts_yieldBlock cuts w) topmost

/-- A machine with one value of an outer call on its stack and a window with one argument. -/
def within : Machine (Unit × Unit) where
  world :=
    { heap := ⟨.standard, true, false, #[], [], default, []⟩
      singletons := default
      symbols := []
      globals := []
      signals := default
      nextFrame := 1 }
  thread := { ThreadState.start ⟨0⟩ "main" with stack := #[.smallInt 1, .smallInt 2] }
  waiting := []
  host := ((), ())

/-- Each call has its argument in a cell of its own and leaves a window open when it ends. -/
def again : MethodObject := ⟨"again", .body 0, none, none, true⟩

def restless : BodyTable Unit := fun _ receiver block =>
  .openWindow (.values [.smallInt 3, .smallInt 4] false) fun _ =>
  .openWindow (.values [.smallInt 5] false) fun _ =>
  .call 0 (.method again receiver block) fun r =>
  .take 0 (.shift true) fun _ =>
  .done r

theorem disciplined_restless : (Window.fresh 1 1 false).Topmost within.thread.stack ∧
    Disciplined (Body.runnerAt (fun _ noted => noted) restless 3) within (.fresh 1 1 false) ∧
    ((VM.callMethod (Body.runnerAt (fun _ noted => noted) restless 3) again (.smallInt 0)
      (.fresh 1 1 false) none).run within).1 = .error .exhausted := by
  have topmost : (Window.fresh 1 1 false).Topmost within.thread.stack := ⟨le_rfl, le_rfl, rfl⟩
  refine ⟨topmost, disciplined (fun _ noted => noted) restless 3 topmost, ?_⟩
  decide +kernel

end Machine

end CellMachine
