import CellMachine.Proofs.Machine.StackDiscipline

/-!
# The stack below a body

What is on the argument stack below the window of a native body stays as it is all the time
that the body runs, whatever it does and whatever it calls. To say so, every body of a table is
made watchful: before each thing that it does it looks whether the values are still there, and
does something else if they are not. Watchful bodies run as the bodies they are made from,
whatever else that is.
-/

namespace CellMachine

namespace Body

variable {σ : Type}

/-- Runs another body instead if the stack does not begin with these values. -/
def unlessLost (below : Array Value) (lost b : Body σ) : Body σ :=
  .look fun _ m => if m.thread.stack.shrink below.size = below then b else lost

/-- Looks for these values before each node. -/
def watchful (below : Array Value) (lost : Body σ) : Body σ → Body σ
  | done r => unlessLost below lost <| .done r
  | look next => unlessLost below lost <| .look fun ws m => watchful below lost (next ws m)
  | deed d next => unlessLost below lost <| .deed d fun r => watchful below lost (next r)
  | openWindow o next => unlessLost below lost <| .openWindow o fun r => watchful below lost (next r)
  | take i t next => unlessLost below lost <| .take i t fun r => watchful below lost (next r)
  | close next => unlessLost below lost <| .close (watchful below lost next)
  | child env method outer block next =>
    unlessLost below lost <| .child env method outer block (watchful below lost next)
  | breakWith env v next =>
    unlessLost below lost <| .breakWith env v fun e => watchful below lost (next e)
  | call env c next => unlessLost below lost <| .call env c fun r => watchful below lost (next r)

end Body

/-- All bodies of a table are watchful. -/
def BodyTable.watchful {σ : Type} (below : Array Value) (lost : Body σ) (table : BodyTable σ) :
    BodyTable σ :=
  fun i receiver block => Body.watchful below lost (table i receiver block)

namespace VM

variable {σ α β : Type} {P : Machine σ → Prop}

/-- The computations are the same for all machines of which `P` holds. -/
def Agree (P : Machine σ → Prop) (x y : VM σ α) : Prop := ∀ m, P m → x.run m = y.run m

namespace Agree

variable {x y z : VM σ α} {f g : α → VM σ β}

lemma refl (x : VM σ α) : Agree P x x := fun _ _ => rfl

lemma trans (first : Agree P x y) (second : Agree P y z) : Agree P x z :=
  fun m here => (first m here).trans (second m here)

/-- First parts that agree, and rests that agree after them. -/
lemma bind {R : Except Halt α → Machine σ → Prop} (first : Agree P x y) (ensures : Ensures P x R)
    (rest : ∀ a, Agree (R (.ok a)) (f a) (g a)) : Agree P (x >>= f) (y >>= g) := by
  intro m here
  have after := ensures m here
  rw [run_bind, run_bind, ← first m here]
  rcases ran : x.run m with ⟨e | a, m'⟩
  · rfl
  · rw [ran] at after
    exact rest a m' after

/-- The same first part, and rests that agree after it. -/
lemma after {R : Except Halt α → Machine σ → Prop} (ensures : Ensures P x R)
    (rest : ∀ a, Agree (R (.ok a)) (f a) (g a)) : Agree P (x >>= f) (x >>= g) :=
  (refl x).bind ensures rest

lemma keep (keeps : Keeps P x) (rest : ∀ a, Agree P (f a) (g a)) : Agree P (x >>= f) (x >>= g) :=
  after keeps fun a m here => rest a m here.1

lemma pass (passes : Passes P x) (rest : ∀ a, Agree P (f a) (g a)) : Agree P (x >>= f) (x >>= g) :=
  keep passes.keeps rest

/-- What is done at a halt does not matter to the rest. -/
lemma keepOnHalt (keeps : Keeps P x) (last : Machine σ → Machine σ)
    (rest : ∀ a, Agree P (f a) (g a)) :
    Agree P (onHalt last x >>= f) (onHalt last x >>= g) := by
  refine after (R := fun r m => ∀ a, r = .ok a → P m) ?_ fun a m here => rest a m (here a rfl)
  refine Ensures.onHalt (keeps.conseq fun r m kept => ?_)
  cases r with
  | ok a => exact fun _ _ => kept.1
  | error e => exact fun _ same => by cases same

lemma ensuring (agree : Agree P x y) (last : Machine σ → Machine σ) :
    Agree P (VM.ensuring last x) (VM.ensuring last y) := by
  intro m here
  rw [run_ensuring, run_ensuring, agree m here]

/-- Rests that see how the first part came out. -/
lemma afterOutcome {f g : Except Halt α → VM σ β} {R : Except Halt α → Machine σ → Prop}
    (ensures : Ensures P x R) (rest : ∀ r, Agree (R r) (f r) (g r)) :
    Agree P (VM.outcome x >>= f) (VM.outcome x >>= g) :=
  fun m here => rest _ _ (ensures m here)

/-- First parts that agree, and a rest that sees how they came out. -/
lemma thenOutcome (agree : Agree P x y) (f : Except Halt α → VM σ β) :
    Agree P (VM.outcome x >>= f) (VM.outcome y >>= f) := by
  intro m here
  rw [run_bind, run_bind, run_outcome, run_outcome, agree m here]

end Agree

variable {s below : Array Value} {w : Window} {run run' : Runner σ}

lemma agree_inFrame {x y : VM σ α} (agree : Agree (Stands s) x y) (method : Option String)
    (outer block : Option Address) (breakTarget : Option FrameId) :
    Agree (Stands s) (inFrame method outer block breakTarget x)
      (inFrame method outer block breakTarget y) :=
  .pass (passes_inWorld _) fun _ => .pass (passes_update fun _ => rfl) fun _ => agree.ensuring leave

lemma agree_attached {x y : VM σ α} (agree : Agree (Stands s) x y) (block : Option Address)
    (caller : FrameId) : Agree (Stands s) (attached block caller x) (attached block caller y) := by
  cases block with
  | none => exact agree
  | some a =>
    refine .pass ?_ fun detached => ?_
    · refine (Passes.object? a).bind fun found => ?_
      split
      · exact Passes.pure _
      · exact Passes.pure _
    · split
      · exact .pass (passes_inWorld _) fun _ => agree.ensuring (detach a)
      · exact agree

end VM

namespace Window

variable {w : Window} {s below : Array Value} {base : Nat} {ws : List Window}

/-- The topmost window lies above these values. -/
structure Above (below : Array Value) (w : Window) (s : Array Value) : Prop extends
    w.Topmost s where
  least : below.size ≤ w.origin
  same : s.shrink below.size = below

lemma size_le_of_shrink (same : s.shrink below.size = below) : below.size ≤ s.size := by
  have size := congrArg Array.size same
  rw [Array.size_shrink] at size
  omega

lemma above_fresh (same : s.shrink below.size = below) (values : List Value) (hasKeywords : Bool) :
    (fresh s.size values.length hasKeywords).Above below (s ++ values) := by
  have least := size_le_of_shrink same
  exact ⟨topmost_fresh s values hasKeywords, least, (shrink_append least values).trans same⟩

lemma Above.released (above : w.Above below s) : (s.shrink w.origin).shrink below.size = below :=
  (shrink_shrink above.least).trans above.same

/-- Of two stacks that are the same up to a place, both begin with the values or none does. -/
lemma same_of_shrink {t : Array Value} (least : below.size ≤ base)
    (same : s.shrink below.size = below) (equal : t.shrink base = s.shrink base) : t.shrink below.size = below := by
  rw [← shrink_shrink least, equal, shrink_shrink least, same]

lemma Nested.above (nested : Nested base (w :: ws) s.size) (least : below.size ≤ base)
    (same : s.shrink below.size = below) : w.Above below s :=
  ⟨nested.topmost, least.trans nested.tail.le, same⟩

end Window

namespace VM

variable {σ τ α : Type} {s below : Array Value} {w : Window} {run run' : Runner σ}

/-- Native bodies run the same with windows above these values. -/
def AgreeAbove (below : Array Value) (run run' : Runner σ) : Prop :=
  ∀ native receiver w block s, w.Above below s →
    Agree (Stands s) (run native receiver w block) (run' native receiver w block)

lemma agree_pushed (agree : AgreeAbove below run run') (same : s.shrink below.size = below)
    (values : List Value) (native : Native) (receiver : Value) (block : Option Address) :
    Agree (Stands s) (do let w ← pushWindow values false; run native receiver w block)
      (do let w ← pushWindow values false; run' native receiver w block) := by
  intro m here
  obtain rfl := here
  exact agree native receiver _ block _ (Window.above_fresh same values false) _ rfl

lemma agree_dispatch (agree : AgreeAbove below run run') (c : MethodObject) (receiver : Value)
    (w : Window) (block : Option Address) (above : w.Above below s) :
    Agree (Stands s) (dispatch run c receiver w block) (dispatch run' c receiver w block) := by
  have direct : ∀ receiver, Agree (Stands s) (run c.native receiver w block)
      (run' c.native receiver w block) := fun receiver =>
    agree c.native receiver w block s above
  have synthesized : ∀ o, Agree (Stands s)
      (do releaseWindow w; runSynthesized run c.native receiver o block)
      (do releaseWindow w; runSynthesized run' c.native receiver o block) := by
    intro o m here
    obtain rfl := here
    have pushed : Agree (Stands (m.thread.stack.shrink w.origin))
        (runSynthesized run c.native receiver o block)
        (runSynthesized run' c.native receiver o block) :=
      .pass (passes_update fun _ => rfl) fun a =>
        (agree_pushed agree above.released [.ref a] c.native receiver block).ensuring popTransient
    exact pushed { m with thread := { m.thread with stack := w.release m.thread.stack } } rfl
  rw [dispatch, dispatch]
  split
  · split
    · refine .keepOnHalt (Keeps.readStack _) (VM.released w) fun argument => ?_
      cases argument with
      | smallInt n => exact synthesized (.integer n)
      | double d => exact synthesized (.float d)
      | ref a => exact direct receiver
    · exact direct receiver
  · exact .keepOnHalt (Keeps.promote (fun o _ => keeps_allocate o) receiver) (VM.released w) direct

lemma agree_callMethod (agree : AgreeAbove below run run') (c : MethodObject) (receiver : Value)
    (w : Window) (block : Option Address) (above : w.Above below s) :
    Agree (Stands s) (callMethod run c receiver w block) (callMethod run' c receiver w block) := by
  refine .pass (passes_inWorld _) fun interrupted => ?_
  split
  · exact .refl _
  · refine .pass Passes.frame fun f => ?_
    have inside := agree_dispatch agree c (c.receiver.getD receiver) w block above
    exact (agree_inFrame (agree_attached inside block f.id) _ _ _ _).thenOutcome _

lemma agree_callBlock (agree : AgreeAbove below run run') (b : BlockObject) (w : Window)
    (block : Option Address) (above : w.Above below s) :
    Agree (Stands s) (callBlock run b w block) (callBlock run' b w block) := by
  refine agree_inFrame ?_ _ _ _ _
  split
  · exact agree b.native b.receiver w block s above
  · refine Agree.ensuring ?_ (released w)
    refine .keep (Keeps.parameters w _ _ true true) fun values => ?_
    exact .keep (keeps_allocate _) fun _ =>
      agree_pushed agree above.same values b.native b.receiver block

lemma agree_yieldBlock (agree : AgreeAbove below run run') (w : Window) (above : w.Above below s) :
    Agree (Stands s) (yieldBlock run w) (yieldBlock run' w) := by
  refine .pass Passes.frame fun f => ?_
  split
  · exact .refl _
  · refine .pass (Passes.object? _) fun found => ?_
    split
    · exact agree_callBlock agree _ w none above
    · exact .refl _

lemma agree_callee (agree : AgreeAbove below run run') (c : Callee) (w : Window)
    (above : w.Above below s) : Agree (Stands s) (callee run w c) (callee run' w c) := by
  cases c with
  | method c receiver block => exact agree_callMethod agree c receiver w block above
  | «yield» => exact agree_yieldBlock agree w above
  | block a block =>
    refine .pass (Passes.object? a) fun found => ?_
    split
    · exact agree_callBlock agree _ w block above
    · exact .refl _

lemma agree_inEnv {x y : VM σ α} (agree : Agree (Stands s) x y) (e : Option Env) :
    Agree (Stands s) (inEnv e x) (inEnv e y) := by
  cases e with
  | none => exact agree
  | some e =>
    exact .pass (Passes.read _) fun own => .pass (passes_update fun _ => rfl) fun _ =>
      agree.ensuring (enterEnv own)

lemma agree_watchedCall {run run' : Runner (σ × τ)} (note : Note → τ → τ)
    (agree : AgreeAbove below run run') (e : Option Env) (c : Callee) (above : w.Above below s) :
    Agree (Stands s) (inEnv e (watchedCall note run c w)) (inEnv e (watchedCall note run' c w)) := by
  refine agree_inEnv ?_ e
  refine .pass (Body.passes_activity c) fun a => .pass (passes_onHost _) fun _ => ?_
  exact (agree_callee agree c w above).thenOutcome _

end VM

namespace Body

open VM

variable {σ τ : Type} {note : Note → τ → τ} {run run' : Runner (σ × τ)} {s below : Array Value}
  {base : Nat} {ws : List Window} {w : Window}

lemma agree_unlessLost (same : s.shrink below.size = below) (lost b : Body σ) (ws : List Window)
    (envs : List Env) :
    Agree (Stands s) (b.play note run ws envs) ((unlessLost below lost b).play note run ws envs) := by
  intro m here
  obtain rfl := here
  change _ = (play note run (if m.thread.stack.shrink below.size = below then b else lost)
    ws envs).run m
  rw [if_pos same]

/-- A window that is given away to a call leaves the values below. -/
lemma agree_given (cuts : CutsAll run) (agree : AgreeAbove below run run') (e : Option Env)
    (c : Callee) (nested : Window.Nested base (w :: ws) s.size) (least : below.size ≤ base)
    (same : s.shrink below.size = below) {f g : Except Halt Value → VM (σ × τ) Value}
    (rest : ∀ r t, Window.Nested base ws t.size → t.shrink below.size = below →
      Agree (Stands t) (f r) (g r)) :
    Agree (Stands s) (inEnv e (watchedCall note run c w) >>= f)
      (inEnv e (watchedCall note run' c w) >>= g) := by
  have above := nested.above least same
  have below' : Window.Nested base ws (s.shrink w.origin).size := by
    rw [Array.size_shrink, min_eq_left nested.topmost.le_size]
    exact nested.tail
  refine (agree_watchedCall note agree e c above).bind
    (ensures_watchedCall cuts e c nested.topmost) fun r => ?_
  exact fun m here => rest r _ below' above.released m here.2

/-- The induction is on the body. What carries it is that its windows are nested above the
values. -/
lemma agree_watchful (cuts : CutsAll run) (agree : AgreeAbove below run run') (lost b : Body σ)
    (nested : Window.Nested base ws s.size) (least : below.size ≤ base)
    (same : s.shrink below.size = below) (envs : List Env) :
    Agree (Stands s) (b.play note run ws envs) ((watchful below lost b).play note run' ws envs) := by
  induction b generalizing ws s envs with
  | done r =>
    refine Agree.trans ?_ (agree_unlessLost same lost _ ws envs)
    exact fun _ _ => rfl
  | look next ih =>
    refine Agree.trans ?_ (agree_unlessLost same lost _ ws envs)
    exact .pass (Passes.read _) fun m => ih ws _ nested same envs
  | deed d next ih =>
    refine Agree.trans ?_ (agree_unlessLost same lost _ ws envs)
    exact .pass (Passes.outcome (keeps_deed d)) fun r => ih r nested same envs
  | openWindow o next ih =>
    refine Agree.trans ?_ (agree_unlessLost same lost _ ws envs)
    rw [play, play]
    refine .afterOutcome (ensures_opened nested o) fun r => ?_
    cases r with
    | error h => exact ih (.error h) nested same envs
    | ok w =>
      rintro m ⟨inside, equal⟩
      exact ih (.ok ()) inside (Window.same_of_shrink least same equal) envs m rfl
  | take i t next ih =>
    refine Agree.trans ?_ (agree_unlessLost same lost _ ws envs)
    rw [play, play]
    split
    · rename_i w here
      refine .after (ensures_taken nested here t) fun r => ?_
      rintro m ⟨a, w', taken, inside, equal⟩
      obtain rfl := Except.ok.inj taken
      exact ih _ inside (Window.same_of_shrink least same equal) envs m rfl
    · exact ih (.ok none) nested same envs
  | close next ih =>
    refine Agree.trans ?_ (agree_unlessLost same lost _ ws envs)
    cases ws with
    | nil => exact ih nested same envs
    | cons w rest =>
      have above := nested.above least same
      have below' : Window.Nested base rest (s.shrink w.origin).size := by
        rw [Array.size_shrink, min_eq_left nested.topmost.le_size]
        exact nested.tail
      intro m here
      obtain rfl := here
      exact ih below' above.released envs
        { m with thread := { m.thread with stack := w.release m.thread.stack } } rfl
  | child env method outer block next ih =>
    refine Agree.trans ?_ (agree_unlessLost same lost _ ws envs)
    exact .pass (passes_inEnv (passes_childEnv method outer block) _) fun e => ih nested same _
  | breakWith env v next ih =>
    refine Agree.trans ?_ (agree_unlessLost same lost _ ws envs)
    exact .pass (passes_watchedBreak _ v) fun e => ih e nested same envs
  | call env c next ih =>
    refine Agree.trans ?_ (agree_unlessLost same lost _ ws envs)
    cases ws with
    | nil =>
      intro m here
      obtain rfl := here
      have opened := Window.above_fresh same [] false
      have inside := opened.toTopmost.nested nested
      exact agree_given cuts agree _ c inside least opened.same
        (fun r t nested same => ih r nested same envs)
        { m with thread := { m.thread with stack := m.thread.stack ++ [] } } rfl
    | cons w rest =>
      exact agree_given cuts agree _ c nested least same fun r t nested same => ih r nested same envs

/-- Watchful bodies run as the bodies they are made from, however deep their calls are nested. -/
lemma agreeAbove_watchful (note : Note → τ → τ) (table : BodyTable σ) (below : Array Value)
    (lost : Body σ) (depth : Nat) : AgreeAbove below (runnerAt note table depth)
      (runnerAt note (table.watchful below lost) depth) := by
  induction depth with
  | zero => exact fun native receiver w block s above => .refl _
  | succ depth ih =>
    intro native receiver w block s above
    refine Agree.thenOutcome ?_ _
    cases native with
    | primitive p => exact .refl _
    | body i =>
      have nested : Window.Nested w.origin [w] s.size := above.toTopmost.nested .empty
      exact agree_watchful (cutsAll_runnerAt note table depth) ih lost (table i receiver block)
        nested above.least above.same []

end Body

end CellMachine
