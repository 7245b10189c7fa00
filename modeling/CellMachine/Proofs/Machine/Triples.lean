import Mathlib.Order.Lattice
import Mathlib.Tactic.Common
import CellMachine.Machine.Call

/-!
# Triples

What is true after a computation that starts where something else is true. A computation
always leaves a machine, also when it comes to a halt, so the second assertion is about the
outcome and the machine together. There is one rule for each way to build a computation.
-/

namespace CellMachine

namespace VM

variable {σ α β : Type}

/-- If `P` holds of the machine at the start, `Q` holds of the outcome and of the machine
at the end. -/
def Ensures (P : Machine σ → Prop) (x : VM σ α) (Q : Except Halt α → Machine σ → Prop) : Prop :=
  ∀ m, P m → Q (x.run m).1 (x.run m).2

/-- The outcome is no break. -/
def Tame (r : Except Halt α) : Prop := ∀ target v, r ≠ .error (.error (.break target v))

/-- Whatever comes of the computation, it is no break and `P` still holds. -/
def Keeps (P : Machine σ → Prop) (x : VM σ α) : Prop := Ensures P x fun r m => P m ∧ Tame r

/-- The computation comes to no halt, and `P` still holds. -/
def Passes (P : Machine σ → Prop) (x : VM σ α) : Prop :=
  Ensures P x fun r m => (∃ a, r = .ok a) ∧ P m

namespace Ensures

variable {P : Machine σ → Prop} {Q Q' R : Except Halt α → Machine σ → Prop}
  {S : Except Halt β → Machine σ → Prop} {x : VM σ α}

lemma conseq (h : Ensures P x Q) (last : ∀ r m, Q r m → Q' r m) : Ensures P x Q' :=
  fun m before => last _ _ (h m before)

lemma pure {a : α} (h : ∀ m, P m → Q (.ok a) m) : Ensures P (Pure.pure a) Q := h

lemma halt {e : Halt} (h : ∀ m, P m → Q (.error e) m) : Ensures P (VM.halt e : VM σ α) Q := h

lemma raiseError {e : CallError} (h : ∀ m, P m → Q (.error (.error e)) m) :
    Ensures P (VM.raiseError e : VM σ α) Q := h

/-- A first part and the rest, which is left out if the first part comes to a halt. -/
lemma bind {f : α → VM σ β} (first : Ensures P x R) (rest : ∀ a, Ensures (R (.ok a)) (f a) S)
    (halted : ∀ e m, R (.error e) m → S (.error e) m) : Ensures P (x >>= f) S := by
  intro m before
  have after := first m before
  rw [run_bind]
  rcases hx : x.run m with ⟨e | a, m'⟩
  · rw [hx] at after
    exact halted e m' after
  · rw [hx] at after
    exact rest a m' after

/-- What stands behind a halt is never run. -/
lemma haltThen {e : Halt} {f : α → VM σ β} (h : ∀ m, P m → S (.error e) m) :
    Ensures P (VM.halt e >>= f) S := h

lemma ensuring {after : Machine σ → Machine σ} (h : Ensures P x fun r m => Q r (after m)) :
    Ensures P (VM.ensuring after x) Q := h

lemma onHalt {after : Machine σ → Machine σ}
    (h : Ensures P x fun r m => match r with
      | .ok _ => Q r m
      | .error _ => Q r (after m)) : Ensures P (VM.onHalt after x) Q := by
  intro m before
  have done := h m before
  rw [VM.onHalt]
  dsimp only
  rcases hx : x.run m with ⟨e | a, m'⟩
  · rw [hx] at done
    exact done
  · rw [hx] at done
    exact done

/-- The outcome is looked at by the rest, so there is no halt to think of. -/
lemma bindOutcome {f : Except Halt α → VM σ β} (first : Ensures P x R)
    (rest : ∀ r, Ensures (R r) (f r) S) : Ensures P (VM.outcome x >>= f) S :=
  fun m before => rest _ _ (first m before)

lemma ofOutcome {r : Except Halt α} (h : ∀ m, P m → Q r m) : Ensures P (VM.ofOutcome r) Q := by
  cases r with
  | ok a => exact h
  | error e => exact h

end Ensures

lemma tame_ok (a : α) : Tame (.ok a : Except Halt α) := fun _ _ same => by cases same

lemma tame_fault (f : Fault) : Tame (.error (.fault f) : Except Halt α) :=
  fun _ _ same => by cases same

/-- A halt does not change its nature when the rest of a computation is left out. -/
lemma Tame.error {e : Halt} (tame : Tame (.error e : Except Halt α)) :
    Tame (.error e : Except Halt β) := by
  intro target v same
  obtain rfl := Except.error.inj same
  exact tame target v rfl

/-- The error is no break. -/
def TameError (r : Except CallError α) : Prop := ∀ target v, r ≠ .error (.break target v)

lemma tameError_ok (a : α) : TameError (.ok a) := fun _ _ same => by cases same

lemma TameError.error {e : CallError} (tame : TameError (.error e : Except CallError α)) :
    TameError (.error e : Except CallError β) := by
  intro target v same
  obtain rfl := Except.error.inj same
  exact tame target v rfl

lemma TameError.bind {r : Except CallError α} {f : α → Except CallError β} (tame : TameError r)
    (rest : ∀ a, TameError (f a)) : TameError (r >>= f) := by
  cases r with
  | ok a => exact rest a
  | error e => exact tame.error

lemma tameError_expect (w : Window) (expected : Arity) (keywords : List String) :
    TameError (w.expect expected keywords) := by
  rw [Window.expect]
  split
  · exact tameError_ok ()
  · exact fun _ _ same => by cases same

lemma tameError_coerce (x : Operand) (type : String) : TameError (x.coerce type) := by
  cases x with
  | number n => exact tameError_ok n
  | other t => exact fun _ _ same => by cases same

lemma tameError_exactly (n : Int) : TameError (Computed.exactly n) := by
  rw [Computed.exactly]
  split
  · exact tameError_ok _
  · exact fun _ _ same => by cases same

lemma tameError_quotient (a b : Int) : TameError (Computed.quotient a b) := by
  rw [Computed.quotient]
  split
  · exact fun _ _ same => by cases same
  · exact tameError_exactly _

lemma tameError_arithmetic {exact_ : Int → Int → Except CallError Computed}
    (tame : ∀ a b, TameError (exact_ a b)) (inexact : Binary64 → Binary64 → Binary64) (a : Int64)
    (x : Operand) : TameError (Computed.arithmetic exact_ inexact a x) := by
  refine (tameError_coerce x _).bind fun n => ?_
  cases n with
  | integer b => exact tame _ _
  | double b => exact tameError_ok _

lemma tameError_inDoubles (op : Binary64 → Binary64 → Binary64) (a : Binary64) (x : Operand) :
    TameError (Computed.inDoubles op a x) :=
  (tameError_coerce x _).bind fun _ => tameError_ok _

lemma tameError_applied {r : Except CallError α} {F : α → Operand → Except CallError Computed}
    (tame : TameError r) (rest : ∀ a x, TameError (F a x)) :
    TameError (r >>= fun a => pure (F a)) ∧
      ∀ f, (r >>= fun a => pure (F a)) = .ok f → ∀ x, TameError (f x) := by
  refine ⟨tame.bind fun a => tameError_ok _, fun f applied x => ?_⟩
  cases r with
  | ok a =>
    obtain rfl := Except.ok.inj applied
    exact rest a x
  | error e => cases applied

/-- Neither the receiver nor the operand of a primitive makes it raise a break. -/
lemma tameError_on (p : Primitive) (receiver : Operand) :
    TameError (p.on receiver) ∧ ∀ f, p.on receiver = .ok f → ∀ x, TameError (f x) := by
  have integer : TameError receiver.integer := by
    rcases receiver with (_ | _) | _ <;> exact fun _ _ same => by cases same
  have double : TameError receiver.double := by
    rcases receiver with (_ | _) | _ <;> exact fun _ _ same => by cases same
  cases p with
  | integerAdd | integerSub | integerMul =>
    exact tameError_applied integer fun a x =>
      tameError_arithmetic (fun _ _ => tameError_exactly _) _ a x
  | integerDiv =>
    exact tameError_applied integer fun a x => tameError_arithmetic tameError_quotient _ a x
  | integerEq => exact tameError_applied integer fun a x => tameError_ok _
  | integerLt =>
    refine tameError_applied integer fun a x => ?_
    rcases x with (_ | _) | _ <;> exact fun _ _ same => by cases same
  | floatAdd | floatSub | floatMul | floatDiv =>
    exact tameError_applied double fun a x => tameError_inDoubles _ a x
  | floatLt =>
    refine tameError_applied double fun a x => ?_
    rcases x with _ | _ <;> exact fun _ _ same => by cases same

section Steps

variable {P : Machine σ → Prop} {Q : Except Halt β → Machine σ → Prop} {x : VM σ α}

/-- A first part that keeps the assertion, and a rest that starts with it. -/
lemma Keeps.bind {f : α → VM σ β} (first : Keeps P x) (rest : ∀ a, Ensures P (f a) Q)
    (halted : ∀ e m, P m → Tame (.error e : Except Halt β) → Q (.error e) m) :
    Ensures P (x >>= f) Q :=
  Ensures.bind first (fun a m after => rest a m after.1) fun e m after =>
    halted e m after.1 after.2.error

lemma Keeps.andThen {f : α → VM σ β} (first : Keeps P x) (rest : ∀ a, Keeps P (f a)) :
    Keeps P (x >>= f) :=
  first.bind rest fun _ _ kept tame => ⟨kept, tame⟩

lemma Keeps.pure (a : α) : Keeps P (Pure.pure a) := fun _ kept => ⟨kept, tame_ok a⟩

lemma Keeps.ofFault (r : Except Fault α) : Keeps P (VM.ofFault r) := by
  cases r with
  | ok a => exact Keeps.pure a
  | error f => exact fun _ kept => ⟨kept, tame_fault f⟩

lemma Keeps.ofHeap (r : Except HeapFault α) : Keeps P (VM.ofHeap r) := by
  cases r with
  | ok a => exact Keeps.pure a
  | error f => exact fun _ kept => ⟨kept, tame_fault _⟩

lemma Keeps.ofExcept {r : Except CallError α} (tame : TameError r) : Keeps P (VM.ofExcept r) := by
  cases r with
  | ok a => exact Keeps.pure a
  | error e =>
    refine fun _ kept => ⟨kept, fun target v same => tame target v ?_⟩
    obtain rfl := Halt.error.inj (Except.error.inj same)
    rfl

/-- What is known of the result may be used in the rest. -/
lemma Keeps.bindExcept {r : Except CallError α} {f : α → VM σ β} (tame : TameError r)
    (rest : ∀ a, r = .ok a → Keeps P (f a)) : Keeps P (VM.ofExcept r >>= f) := by
  cases r with
  | ok a => exact rest a rfl
  | error e => exact Keeps.ofExcept tame.error

/-- A first part at whose halt a window is released, and a rest that takes it over. -/
lemma Keeps.orReleased {f : α → VM σ β} {w : Window} (first : Keeps P x)
    (rest : ∀ a, Ensures P (f a) Q)
    (halted : ∀ e m, P m → Tame (.error e : Except Halt β) → Q (.error e) (released w m)) :
    Ensures P (VM.onHalt (released w) x >>= f) Q := by
  refine Ensures.bind (R := fun r m => match r with
    | .ok _ => P m
    | .error e => Q (.error e) m) (Ensures.onHalt ?_) rest fun _ _ after => after
  refine first.conseq fun r m after => ?_
  cases r with
  | ok a => exact after.1
  | error e => exact halted e m after.1 after.2.error

/-- A first part that cannot fail needs no second thought. -/
lemma Passes.bind {f : α → VM σ β} (first : Passes P x) (rest : ∀ a, Ensures P (f a) Q) :
    Ensures P (x >>= f) Q := by
  refine Ensures.bind first ?_ ?_
  · exact fun a m after => rest a m after.2
  · rintro e m ⟨⟨a, impossible⟩, _⟩
    cases impossible

lemma Passes.keeps (h : Passes P x) : Keeps P x := by
  refine h.conseq ?_
  rintro r m ⟨⟨a, rfl⟩, kept⟩
  exact ⟨kept, tame_ok a⟩

lemma Passes.pure (a : α) : Passes P (Pure.pure a) := fun _ kept => ⟨⟨a, rfl⟩, kept⟩

lemma Passes.read (f : Machine σ → α) : Passes P (VM.read f) := fun m kept => ⟨⟨f m, rfl⟩, kept⟩

lemma Passes.outcome (h : Keeps P x) : Passes P (VM.outcome x) :=
  fun m kept => ⟨⟨(x.run m).1, rfl⟩, (h m kept).1⟩

lemma Keeps.readStack (f : Array Value → Except Fault α) : Keeps P (VM.readStack f) :=
  (Passes.read _).bind fun _ => Keeps.ofFault _

lemma Passes.object? (a : Address) : Passes P (VM.object? a) := Passes.read _

lemma Passes.frame : Passes P (VM.frame : VM σ Frame) := Passes.read _

lemma Passes.nil : Passes P (VM.nil : VM σ Value) := (Passes.read _).bind fun _ => Passes.pure _

lemma Passes.ofBool (b : Bool) : Passes P (VM.ofBool b : VM σ Value) :=
  (Passes.read _).bind fun _ => Passes.pure _

lemma Keeps.operand (v : Value) : Keeps P (VM.operand v : VM σ Operand) := by
  cases v with
  | smallInt n => exact Keeps.pure _
  | double d => exact Keeps.pure _
  | ref a => exact (Passes.object? a).bind fun _ => Keeps.pure _

lemma Keeps.parameters (w : Window) (min : Nat) (max : Option Nat) (spread withKeywords : Bool) :
    Keeps P (VM.parameters w min max spread withKeywords : VM σ (List Value)) := by
  refine (Keeps.readStack _).andThen fun values => ?_
  have filled : ∀ source : List Value, Keeps P (do
      let source ← Pure.pure source
      return Window.fitted min max (← VM.nil) source : VM σ (List Value)) :=
    fun source => (Passes.pure source).bind fun _ => Passes.nil.bind fun _ => Keeps.pure _
  split
  · split
    · refine (Passes.object? _).bind fun found => ?_
      split
      · exact filled _
      · exact filled _
    · exact filled _
  · exact filled _

variable (allocates : ∀ o : Object, o.block? = none → Keeps P (VM.allocate o : VM σ Address))
include allocates

lemma Keeps.integer (n : Int64) : Keeps P (VM.integer n : VM σ Value) := by
  rw [VM.integer]
  split
  · exact Keeps.pure _
  · exact (allocates (.integer n) rfl).andThen fun _ => Keeps.pure _

lemma Keeps.promote (receiver : Value) : Keeps P (VM.promote receiver : VM σ Value) := by
  refine (Passes.read _).bind fun found => ?_
  split
  · exact (allocates (.integer _) rfl).andThen fun _ => Keeps.pure _
  · exact (allocates (.float _) rfl).andThen fun _ => Keeps.pure _
  · exact Keeps.pure _

lemma Keeps.settle (c : Computed) : Keeps P (VM.settle c : VM σ Value) := by
  cases c with
  | integer n => exact Keeps.integer allocates n
  | double d => exact Keeps.pure _
  | truth b => exact (Passes.ofBool b).keeps

/-- A primitive does nothing but allocate until it releases its window. -/
lemma Ensures.runPrimitive {Q : Except Halt Value → Machine σ → Prop} {w : Window}
    (last : ∀ r m, P m → Tame r → Q r (released w m)) (p : Primitive) (receiver : Value) :
    Ensures P (VM.runPrimitive p receiver w) Q := by
  refine Ensures.ensuring (Ensures.conseq (Q := fun r m => P m ∧ Tame r) ?_ fun r m after =>
    last r m after.1 after.2)
  refine (Keeps.ofExcept (tameError_expect w _ _)).andThen fun _ => ?_
  refine (Keeps.operand receiver).andThen fun x => ?_
  obtain ⟨unfit, computes⟩ := tameError_on p x
  refine Keeps.bindExcept unfit fun f applied => ?_
  refine (Keeps.readStack _).andThen fun _ => (Keeps.operand _).andThen fun y => ?_
  exact (Keeps.ofExcept (computes f applied y)).andThen fun _ => Keeps.settle allocates _

end Steps

end VM

end CellMachine
