import Mathlib.Data.Rat.Floor
import Mathlib.Tactic.NormNum
import CellMachine.Proofs.Machine.Survival
import CellMachine.Proofs.Workload.Knowledge

/-!
# Integer arithmetic

Sum, difference, product and quotient of two integers are exact, or else an error: what does
not fit a word is out of range, and nothing is divided by zero. It does not matter how the
operands are kept. A result is kept inline if it is small and in a cell of its own if it is not.

Results may be operands again. A cell with a large result stays what it is through the
collections of later operations as long as the result is on the argument stack.
-/

namespace CellMachine

/-- The operations of integers that yield integers. -/
inductive IntegerOperation where
  | sum
  | difference
  | product
  | quotient
deriving DecidableEq, Repr

namespace IntegerOperation

def primitive : IntegerOperation → Primitive
  | sum => .integerAdd
  | difference => .integerSub
  | product => .integerMul
  | quotient => .integerDiv

/-- The value; a quotient is rounded down. -/
def value (a b : Int) : IntegerOperation → Int
  | sum => a + b
  | difference => a - b
  | product => a * b
  | quotient => ⌊(a / b : ℚ)⌋

/-- An integer that fits a word. -/
def FitsWord (n : Int) : Prop := -2 ^ 63 ≤ n ∧ n < 2 ^ 63

/-- An integer that is kept inline. -/
def IsSmall (n : Int) : Prop := -2 ^ 62 ≤ n ∧ n < 2 ^ 62

instance : DecidablePred FitsWord := fun n => inferInstanceAs (Decidable (-2 ^ 63 ≤ n ∧ n < 2 ^ 63))

instance : DecidablePred IsSmall := fun n => inferInstanceAs (Decidable (-2 ^ 62 ≤ n ∧ n < 2 ^ 62))

/-- The value, or the error that stands for it. -/
def exactly (op : IntegerOperation) (a b : Int) : Except CallError Int :=
  if op = quotient ∧ b = 0 then .error .zeroDivision
  else if FitsWord (op.value a b) then .ok (op.value a b)
  else .error .overflow

lemma floor_div_eq_fdiv (a b : Int) : ⌊(a / b : ℚ)⌋ = a.fdiv b := by
  have positive : ∀ (a : Int) (n : Nat), ⌊(a / n : ℚ)⌋ = a.fdiv n := by
    intro a n
    rw [Rat.floor_intCast_div_natCast, Int.fdiv_eq_ediv_of_nonneg a (Int.natCast_nonneg n)]
  obtain ⟨n, rfl | rfl⟩ := b.eq_nat_or_neg
  · exact_mod_cast positive a n
  · rw [← Int.neg_neg a, Int.neg_fdiv_neg, ← positive]
    push_cast
    rw [neg_div_neg_eq, neg_div]

/-- Whether one is subtracted depends on the signs of both. -/
lemma floored_eq_fdiv {a b : Int} (nonzero : b ≠ 0) : Computed.floored a b = a.fdiv b := by
  rw [Computed.floored, Int.fdiv_eq_tdiv]
  by_cases divides : b ∣ a
  · rw [if_pos divides, if_neg fun both => both.1 (Int.tmod_eq_zero_of_dvd divides), sub_zero]
  · have remains : a.tmod b ≠ 0 := fun zero => divides (Int.dvd_iff_tmod_eq_zero.mpr zero)
    rw [if_neg divides]
    rcases lt_or_ge a 0 with below | above
    · rw [if_neg (not_le.mpr below)]
      rcases lt_or_gt_of_ne nonzero with negative | positive
      · rw [if_neg (not_le.mpr negative), if_neg (by simp [below, negative]),
          Int.sign_eq_neg_one_of_neg negative, add_neg_cancel, sub_zero]
      · rw [if_pos positive.le, if_pos ⟨remains, by simp [below, positive.le]⟩,
          Int.sign_eq_one_of_pos positive]
    · have same : ¬ a < 0 := not_lt.mpr above
      rw [if_pos above]
      rcases lt_or_gt_of_ne nonzero with negative | positive
      · rw [if_neg (not_le.mpr negative), if_pos ⟨remains, by simp [same, negative]⟩]
      · rw [if_pos positive.le, if_neg (by simp [same, not_lt.mpr positive.le]), sub_zero]

lemma toInt_ofInt {n : Int} (fits : FitsWord n) : (Int64.ofInt n).toInt = n :=
  Int64.toInt_ofInt_of_le fits.1 fits.2

lemma smallInt?_ofInt {n : Int} (fits : FitsWord n) : Value.smallInt? (.ofInt n) =
    if IsSmall n then some (.smallInt (.ofInt n)) else none := by
  have least : Value.smallIntMin.toInt = -2 ^ 62 := by decide
  have greatest : Value.smallIntMax.toInt = 2 ^ 62 - 1 := by decide
  have small : (Value.smallIntMin ≤ .ofInt n ∧ Int64.ofInt n ≤ Value.smallIntMax) ↔ IsSmall n := by
    rw [Int64.le_iff_toInt_le, Int64.le_iff_toInt_le, toInt_ofInt fits, least, greatest, IsSmall]
    omega
  rw [Value.smallInt?]
  simp only [small]

lemma computed_exactly (n : Int) : Computed.exactly n =
    if FitsWord n then .ok (.integer (.ofInt n)) else .error .overflow := by
  have least : Int64.minValue.toInt = -2 ^ 63 := by decide
  have greatest : Int64.maxValue.toInt = 2 ^ 63 - 1 := by decide
  have fits : (Int64.minValue.toInt ≤ n ∧ n ≤ Int64.maxValue.toInt) ↔ FitsWord n := by
    rw [least, greatest, FitsWord]
    omega
  rw [Computed.exactly]
  simp only [fits]

/-- A primitive computes the value, or the error that stands for it. -/
lemma apply_primitive (op : IntegerOperation) (a b : Int64) :
    op.primitive.apply (.number (.integer a)) (.number (.integer b)) =
      (op.exactly a.toInt b.toInt).map fun n => .integer (.ofInt n) := by
  have ranged : ∀ n, Computed.exactly n =
      (if FitsWord n then .ok n else .error .overflow : Except CallError Int).map
        fun n => Computed.integer (.ofInt n) := by
    intro n
    rw [computed_exactly]
    split
    · rfl
    · rfl
  cases op with
  | quotient =>
    change Computed.quotient a.toInt b.toInt = _
    rw [Computed.quotient, exactly]
    by_cases zero : b.toInt = 0
    · rw [if_pos zero, if_pos ⟨rfl, zero⟩]
      rfl
    · rw [if_neg zero, if_neg fun both => zero both.2, value, floor_div_eq_fdiv,
        ← floored_eq_fdiv zero]
      exact ranged _
  | _ =>
    rw [exactly, if_neg (by simp)]
    exact ranged _

end IntegerOperation

open IntegerOperation

namespace Machine

variable {σ : Type} {m m' : Machine σ} {run : Runner σ} {w : Window} {receiver argument : Value}

/-- The value is that integer, wherever it is kept. -/
def Denotes (m : Machine σ) (v : Value) (n : Int) : Prop :=
  ∃ k : Int64, m.operandOf v = .number (.integer k) ∧ k.toInt = n

/-- An integer as the result of a computation. It is inline just if it is small. -/
inductive Yields (m : Machine σ) : Except CallError Int → Except Halt Value → Prop where
  | failed (e : CallError) : Yields m (.error e) (.error (.error e))
  | inline {n : Int} (small : IsSmall n) : Yields m (.ok n) (.ok (.smallInt (.ofInt n)))
  | boxed {n : Int} {a : Address} (fits : FitsWord n) (large : ¬ IsSmall n)
      (here : m.world.heap.payload? a = some (.integer (.ofInt n))) :
      Yields m (.ok n) (.ok (.ref a))

lemma Yields.denotes {n : Int} {v : Value} (yields : m.Yields (.ok n) (.ok v)) : m.Denotes v n := by
  cases yields with
  | inline small =>
    refine ⟨.ofInt n, rfl, toInt_ofInt ?_⟩
    rw [IsSmall] at small
    rw [FitsWord]
    omega
  | boxed fits large here =>
    refine ⟨.ofInt n, ?_, toInt_ofInt fits⟩
    rw [operandOf, object?_of_payload? here]
    rfl

lemma Yields.exists_ok {n : Int} {r : Except Halt Value} (yields : m.Yields (.ok n) r) :
    ∃ v, r = .ok v := by
  cases yields with
  | inline small => exact ⟨_, rfl⟩
  | boxed fits large here => exact ⟨_, rfl⟩

lemma fitsWord_of_exactly {op : IntegerOperation} {a b n : Int} (exact_ : op.exactly a b = .ok n) :
    FitsWord n := by
  rw [exactly] at exact_
  split at exact_
  · cases exact_
  · split at exact_
    · rename_i fits
      rwa [← Except.ok.inj exact_]
    · cases exact_

/-- The outcome of arithmetic is that integer, if there are cells for integers. -/
lemma yields_of_settled {op : IntegerOperation} {a b : Int} {world : World}
    {r : Except Halt Value} (fits : ∃ c, world.heap.classOf (.integer 0) = .ok c)
    (settled : world.Settled ((op.exactly a b).map fun n => .integer (.ofInt n)) r m'.world) :
    m'.Yields (op.exactly a b) r := by
  cases exact_ : op.exactly a b with
  | error e =>
    rw [exact_] at settled
    cases settled with
    | failed => exact .failed e
  | ok n =>
    have word := fitsWord_of_exactly exact_
    have kept := smallInt?_ofInt word
    rw [exact_] at settled
    cases settled with
    | inline small =>
      rw [kept] at small
      split at small
      · rename_i isSmall
        rw [← Option.some.inj small]
        exact .inline isSmall
      · cases small
    | boxed large here =>
      rw [kept] at large
      split at large
      · cases large
      · rename_i isLarge
        exact .boxed word isLarge here
    | unfit large unfit =>
      obtain ⟨c, fits⟩ := fits
      have same : world.heap.classOf (.integer (.ofInt n)) = world.heap.classOf (.integer 0) := rfl
      rw [same, fits] at unfit
      cases unfit

end Machine

/-- Native primitives are run as what they are. -/
def Runner.RunsPrimitives {σ : Type} (run : Runner σ) : Prop :=
  ∀ p receiver w block, run (.primitive p) receiver w block = VM.runPrimitive p receiver w

namespace VM

variable {σ : Type}

/-- Runs an operation by a call of its method, or else directly. -/
def operate (run : Runner σ) (op : IntegerOperation) (called : Bool) (receiver : Value) (w : Window)
    (block : Option Address) : VM σ Value :=
  if called then callMethod run op.primitive.method receiver w block
  else runPrimitive op.primitive receiver w

end VM

namespace World

variable {w : World}

lemma pollInterrupt_frame (w : World) : w.pollInterrupt.2.heap = w.heap ∧
    (w.pollInterrupt.1 = false → w.pollInterrupt.2.pollInterrupt.1 = false) := by
  obtain ⟨heap, singletons, symbols, globals, ⟨interrupt, collection, installed⟩, nextFrame⟩ := w
  cases installed with
  | false => exact ⟨rfl, id⟩
  | true => exact ⟨rfl, fun _ => rfl⟩

lemma pollInterrupt_congr {w' : World} (same : w'.signals = w.signals) :
    w'.pollInterrupt.1 = w.pollInterrupt.1 := by
  rw [pollInterrupt, pollInterrupt, takeInterrupt, takeInterrupt, same]
  split
  · rfl
  · rfl

lemma pollInterrupt_allocate (argStacks : Stacks) (o : Object) (w : World) :
    (w.allocate argStacks o).2.pollInterrupt.1 = w.pollInterrupt.1 := by
  obtain ⟨heap, singletons, symbols, globals, ⟨interrupt, collection, installed⟩, nextFrame⟩ := w
  cases installed with
  | false => rfl
  | true =>
    cases collection with
    | false => rfl
    | true => rfl

/-- A box preserves what the stacks hold, and asks for no interrupt. -/
lemma preserves_boxed (sound : w.heap.Sound) (argStacks : Stacks)
    (outcome : Except CallError Computed) :
    w.heap.Preserves (w.boxed argStacks outcome).heap (w.heap.held argStacks)
        (Set.range Object.integer) ∧
      (w.boxed argStacks outcome).pollInterrupt.1 = w.pollInterrupt.1 := by
  have same := And.intro (sound.preserves_refl (w.heap.held argStacks) (Set.range Object.integer))
    (rfl : w.pollInterrupt.1 = w.pollInterrupt.1)
  unfold boxed
  split
  · split
    · exact same
    · rename_i n _
      refine ⟨(preserves_allocate sound argStacks (.integer n)).1.mono (List.Subset.refl _) ?_,
        pollInterrupt_allocate argStacks (.integer n) w⟩
      exact Set.singleton_subset_iff.mpr ⟨n, rfl⟩
  · exact same

end World

namespace Machine

variable {σ : Type} {m m' : Machine σ} {run : Runner σ} {w : Window} {receiver argument : Value}
  {p : Primitive}

/-- A call computes as the primitive does, whatever its argument is. -/
lemma ran_called (runs : run.RunsPrimitives) (sound : m.world.heap.Sound)
    (only : m.OnlyArgument w argument)
    (other : receiver ≠ .ref (.stack m.thread.transients.size)) (block : Option Address)
    (quiet : m.world.pollInterrupt.1 = false) :
    m.Ran w (p.apply (m.operandOf receiver) (m.operandOf argument))
      ((VM.callMethod run p.method receiver w block).run m).1
      ((VM.callMethod run p.method receiver w block).run m).2 := by
  cases argument with
  | smallInt n => exact ran_inline (x := .integer n) (runs p) sound only other block quiet
  | double d => exact ran_inline (x := .double d) (runs p) sound only other block quiet
  | ref a =>
    refine ran_callMethod sound quiet (tameError_apply p _ _) p.method receiver block
      fun m' inside => ?_
    have ran := ran_boxed (runs p) inside.world.sound (inside.onlyArgument only) receiver block
    rwa [inside.operandOf, inside.operandOf] at ran

lemma Denotes.not_transient {n : Int} (denotes : m.Denotes receiver n) :
    receiver ≠ .ref (.stack m.thread.transients.size) := by
  obtain ⟨k, operand, _⟩ := denotes
  refine not_transient_of_isSome fun a same => ?_
  subst same
  rw [operandOf] at operand
  cases here : m.object? a with
  | none =>
    rw [here] at operand
    cases operand
  | some o => rfl

/-- Either way, the outcome is the exact value or the error that stands for it. -/
lemma yields_operate {op : IntegerOperation} {called : Bool} {a b : Int}
    (runs : run.RunsPrimitives) (sound : m.world.heap.Sound)
    (fits : ∃ c, m.world.heap.classOf (.integer 0) = .ok c) (only : m.OnlyArgument w argument)
    (left : m.Denotes receiver a) (right : m.Denotes argument b) (block : Option Address)
    (quiet : called = true → m.world.pollInterrupt.1 = false) :
    m.Ran w (op.primitive.apply (m.operandOf receiver) (m.operandOf argument))
        ((VM.operate run op called receiver w block).run m).1
        ((VM.operate run op called receiver w block).run m).2 ∧
      ((VM.operate run op called receiver w block).run m).2.Yields (op.exactly a b)
        ((VM.operate run op called receiver w block).run m).1 := by
  have ran : m.Ran w (op.primitive.apply (m.operandOf receiver) (m.operandOf argument))
      ((VM.operate run op called receiver w block).run m).1
      ((VM.operate run op called receiver w block).run m).2 := by
    cases called with
    | true => exact ran_called runs sound only left.not_transient block (quiet rfl)
    | false => exact ran_direct sound only op.primitive receiver
  refine ⟨ran, ?_⟩
  have settled := ran.settled
  obtain ⟨i, operand, rfl⟩ := left
  obtain ⟨j, operand', rfl⟩ := right
  rw [operand, operand', apply_primitive] at settled
  exact yields_of_settled fits settled

/-- An operation has changed the heap by a box at most, and has kept what the stack below its
window and the other stacks hold. -/
structure Performed (m : Machine σ) (w : Window) (m' : Machine σ) : Prop where
  preserves : m.world.heap.Preserves m'.world.heap
    (m.world.heap.held (m.thread.stack.shrink w.origin :: m.waiting)) (Set.range Object.integer)
  quiet : m.world.pollInterrupt.1 = false → m'.world.pollInterrupt.1 = false

/-- The value that was pushed last has a window of its own. -/
lemma onlyArgument_pushed {stack : Array Value} {v : Value}
    (pushed : m.thread.stack = stack ++ [v]) : m.OnlyArgument (.fresh stack.size 1 false) v := by
  refine ⟨rfl, rfl, le_rfl, ?_⟩
  change m.thread.stack[stack.size]? = _
  rw [pushed, ← Array.getElem?_toList, Array.toList_appendList, ← Array.length_toList]
  exact List.getElem?_concat_length

/-- The stack below the window is among the roots when a method puts its result into a box. -/
lemma boxed_dispatch (runs : run.RunsPrimitives) (sound : m.world.heap.Sound)
    (only : m.OnlyArgument w argument) (receiver : Value) : ∃ own outcome,
      (m.thread.stack.shrink w.origin).toList ⊆ own.toList ∧
      ((VM.dispatch run p.method receiver w none).run m).2.world =
        m.world.boxed (own :: m.waiting) outcome := by
  have ran : (VM.dispatch run p.method receiver w none).run m = _ :=
    run_dispatch rfl only receiver none
  have dispatched := congrArg (fun r => r.2.world) ran
  have synthesized : ∀ x : Numeric, ∃ own outcome,
      (m.thread.stack.shrink w.origin).toList ⊆ own.toList ∧
      (((do
        VM.releaseWindow w
        VM.runSynthesized run p.method.native receiver x.object none) : VM σ Value).run m).2.world =
        m.world.boxed (own :: m.waiting) outcome := by
    intro x
    have inside : (m.synthesizing w x).OnlyArgument
        (.fresh (m.thread.stack.shrink w.origin).size 1 false)
        (.ref (.stack m.thread.transients.size)) := onlyArgument_pushed rfl
    obtain ⟨_, after⟩ := VM.runPrimitive_spec (m := m.synthesizing w x) sound inside p receiver
    have more : (m.thread.stack.shrink w.origin).toList ⊆
        ((m.thread.stack.shrink w.origin) ++ [Value.ref (.stack m.thread.transients.size)]).toList := by
      rw [Array.toList_appendList]
      exact List.subset_append_left _ _
    have body := congrArg (fun y : VM σ Value => (y.run (m.synthesizing w x)).2.world)
      (runs p receiver (.fresh (m.thread.stack.shrink w.origin).size 1 false) none)
    rw [run_synthesized, VM.run_ensuring]
    exact ⟨_, _, more, body.trans (congrArg Machine.world after)⟩
  cases argument with
  | smallInt n =>
    obtain ⟨own, outcome, more, after⟩ := synthesized (.integer n)
    exact ⟨own, outcome, more, dispatched.trans after⟩
  | double d =>
    obtain ⟨own, outcome, more, after⟩ := synthesized (.double d)
    exact ⟨own, outcome, more, dispatched.trans after⟩
  | ref a =>
    obtain ⟨_, after⟩ := VM.runPrimitive_spec sound only p receiver
    have more : (m.thread.stack.shrink w.origin).toList ⊆ m.thread.stack.toList := by
      rw [Array.toList_shrink]
      exact List.take_subset _ _
    have body := congrArg (fun x : VM σ Value => (x.run m).2.world) (runs p receiver w none)
    exact ⟨_, _, more, (dispatched.trans body).trans (congrArg Machine.world after)⟩

/-- An operation in a world with the same heap has changed it by a box. -/
lemma performed_of_boxed {world : World} {own : Array Value} {outcome : Except CallError Computed}
    (sound : m.world.heap.Sound) (heap : world.heap = m.world.heap)
    (quiet : m.world.pollInterrupt.1 = false → world.pollInterrupt.1 = false)
    (more : (m.thread.stack.shrink w.origin).toList ⊆ own.toList)
    (after : m'.world = world.boxed (own :: m.waiting) outcome) : m.Performed w m' := by
  obtain ⟨preserves, same⟩ := World.preserves_boxed (heap ▸ sound) (own :: m.waiting) outcome
  constructor
  · rw [after, ← heap]
    refine preserves.mono (fun v mem => ?_) subset_rfl
    simp only [Heap.held, List.flatMap_cons, List.mem_append] at mem ⊢
    exact mem.imp_left (Or.imp_left (@more v))
  · intro none_pending
    rw [after, same]
    exact quiet none_pending

lemma performed_operate {op : IntegerOperation} {called : Bool}
    (runs : run.RunsPrimitives) (sound : m.world.heap.Sound) (only : m.OnlyArgument w argument)
    (receiver : Value) (quiet : called = true → m.world.pollInterrupt.1 = false) :
    m.Performed w ((VM.operate run op called receiver w none).run m).2 := by
  cases called with
  | false =>
    obtain ⟨_, after⟩ := VM.runPrimitive_spec sound only op.primitive receiver
    refine performed_of_boxed sound rfl id ?_ (congrArg Machine.world after)
    rw [Array.toList_shrink]
    exact List.take_subset _ _
  | true =>
    obtain ⟨heap, later⟩ := m.world.pollInterrupt_frame
    let inner := Machine.entered { m with world := m.world.pollInterrupt.2 }
      (some op.primitive.method.name) none none none
    have only' : inner.OnlyArgument w argument := ⟨only.size, only.plain, only.front, only.here⟩
    have sound' : inner.world.heap.Sound := heap ▸ sound
    obtain ⟨own, outcome, more, after⟩ := boxed_dispatch runs sound' only' receiver
    have entered : ((VM.operate run op true receiver w none).run m).2.world =
        ((VM.dispatch run op.primitive.method receiver w none).run inner).2.world := by
      change ((VM.callMethod run op.primitive.method receiver w none).run m).2.world = _
      rw [run_callMethod (quiet rfl), Situation.run_landing, Situation.run_inFrame]
      rfl
    have later' : m.world.pollInterrupt.1 = false → inner.world.pollInterrupt.1 = false := by
      intro none_pending
      have same : inner.world.signals = m.world.pollInterrupt.2.signals := rfl
      rw [World.pollInterrupt_congr same]
      exact later none_pending
    have heap' : inner.world.heap = m.world.heap := heap
    exact performed_of_boxed sound heap' later' more (entered.trans after)

lemma Denotes.sustained {v : Value} {n : Int} (denotes : m.Denotes v n)
    (sustains : m.Sustains m' v) : m'.Denotes v n := by
  obtain ⟨k, operand, same⟩ := denotes
  refine ⟨k, ?_, same⟩
  cases v with
  | ref a =>
    rw [operandOf] at operand ⊢
    cases here : m.object? a with
    | none =>
      rw [here] at operand
      cases operand
    | some o =>
      rw [here] at operand
      rw [sustains a o rfl here]
      exact operand
  | _ => exact operand

lemma Yields.sustained {v : Value} {n : Int} (yields : m.Yields (.ok n) (.ok v))
    (sustains : m.Sustains m' v) : m'.Yields (.ok n) (.ok v) := by
  cases yields with
  | inline small => exact .inline small
  | boxed fits large here => exact .boxed fits large (sustains.payload? here)

/-- An operation sustains what is on the stack below its window. -/
lemma Performed.sustains (performed : m.Performed w m')
    (transients : m'.thread.transients = m.thread.transients) {v : Value}
    (below : v ∈ m.thread.stack.shrink w.origin) : m.Sustains m' v := by
  rintro a o rfl here
  refine (object?_of_preserves performed.preserves transients ?_).trans here
  cases a with
  | stack i => exact .inl ⟨i, rfl⟩
  | memory word =>
    refine .inr (.value ?_ (Heap.isLive_of_payload? here))
    rw [Heap.held, List.flatMap_cons]
    exact List.mem_append_left _ (List.mem_append_left _ (Array.mem_toList_iff.mpr below))

end Machine

/-- An operation on two of the integers at hand, by a call or directly. -/
structure Instruction where
  operation : IntegerOperation
  receiver : Nat
  argument : Nat
  called : Bool

namespace Instruction

def exactly (i : Instruction) (numbers : List Int) : Except Halt Int :=
  match numbers[i.receiver]?, numbers[i.argument]? with
  | some a, some b => (i.operation.exactly a b).mapError .error
  | _, _ => .error (.fault .outOfBounds)

/-- The results of one instruction after the other, each of which is at hand for those that
follow. -/
def results : List Instruction → List Int → Except Halt (List Int)
  | [], _ => .ok []
  | i :: rest, numbers => do
    let n ← i.exactly numbers
    return n :: (← results rest (numbers ++ [n]))

variable {σ : Type}

/-- The machine has its integers on the stack, above those of others. -/
def play (run : Runner σ) (base : Nat) (i : Instruction) : VM σ Unit := do
  let receiver ← VM.readStack fun stack => Window.element stack (base + i.receiver)
  let argument ← VM.readStack fun stack => Window.element stack (base + i.argument)
  let w ← VM.pushWindow [argument] false
  let result ← VM.operate run i.operation i.called receiver w none
  VM.modifyStack fun stack => stack.push result

end Instruction

namespace Machine

variable {σ : Type} {m m' : Machine σ} {run : Runner σ} {base : Nat} {numbers : List Int}

/-- Nothing has happened that keeps integers on the stack from being operands. -/
structure Advances (m m' : Machine σ) : Prop where
  sound : m'.world.heap.Sound
  settings : m'.world.heap.settings = m.world.heap.settings
  quiet : m.world.pollInterrupt.1 = false → m'.world.pollInterrupt.1 = false
  sustains : ∀ v ∈ m.thread.stack, m.Sustains m' v

/-- The exact results have been pushed, and what was pushed before is what it was. -/
structure Feeds (m m' : Machine σ) (results : List Int) : Prop where
  pushed : ∃ values : List Value, m'.thread.stack = m.thread.stack ++ values ∧
    List.Forall₂ (fun v n => m'.Yields (.ok n) (.ok v)) values results
  sustains : ∀ v ∈ m.thread.stack, m.Sustains m' v

lemma read_operand (at_hand : List.Forall₂ m.Denotes (m.thread.stack.toList.drop base) numbers)
    (k : Nat) :
    (∃ v n, (VM.readStack fun stack => Window.element stack (base + k)).run m = (.ok v, m) ∧
      v ∈ m.thread.stack ∧ numbers[k]? = some n ∧ m.Denotes v n) ∨
    numbers[k]? = none ∧ (VM.readStack fun stack => Window.element stack (base + k)).run m =
      (.error (.fault .outOfBounds), m) := by
  have both : ∀ {values : List Value} {ns : List Int}, List.Forall₂ m.Denotes values ns →
      ∀ k : Nat,
      (∃ v n, values[k]? = some v ∧ ns[k]? = some n ∧ m.Denotes v n) ∨
        values[k]? = none ∧ ns[k]? = none := by
    intro values ns same
    induction same with
    | nil => exact fun k => .inr ⟨rfl, rfl⟩
    | @cons v n values ns denotes _ ih =>
      intro k
      cases k with
      | zero => exact .inl ⟨v, n, rfl, rfl, denotes⟩
      | succ k => exact ih k
  rw [VM.run_readStack, Window.element, ← Array.getElem?_toList, ← List.getElem?_drop]
  rcases both at_hand k with ⟨v, n, here, there, denotes⟩ | ⟨here, there⟩
  · rw [here]
    have mem := List.mem_of_mem_drop (List.mem_of_getElem? here)
    exact .inl ⟨v, n, rfl, Array.mem_toList_iff.mp mem, there, denotes⟩
  · rw [here]
    exact .inr ⟨there, rfl⟩

/-- An operation whose argument has a window of its own leaves the stack as it was. -/
lemma operate_spec (op : IntegerOperation) {called : Bool} {receiver argument : Value} {a b : Int}
    (runs : run.RunsPrimitives) (sound : m.world.heap.Sound)
    (fits : ∃ c, m.world.heap.classOf (.integer 0) = .ok c) (left : m.Denotes receiver a)
    (right : m.Denotes argument b) (quiet : called = true → m.world.pollInterrupt.1 = false) :
    ∃ r m', (do
        let w ← VM.pushWindow [argument] false
        VM.operate run op called receiver w none).run m = (r, m') ∧
      m'.Yields (op.exactly a b) r ∧ m'.thread.stack = m.thread.stack ∧ m.Advances m' := by
  let m₁ : Machine σ := { m with thread := { m.thread with stack := m.thread.stack ++ [argument] } }
  let w := Window.fresh m.thread.stack.size 1 false
  have only : m₁.OnlyArgument w argument := onlyArgument_pushed rfl
  have sound₁ : m₁.world.heap.Sound := sound
  have quiet₁ : called = true → m₁.world.pollInterrupt.1 = false := quiet
  obtain ⟨ran, yields⟩ := yields_operate runs sound₁ fits only
    (left.sustained (sustains_pushed m _ receiver)) (right.sustained (sustains_pushed m _ argument))
    none quiet₁
  have performed : m₁.Performed w ((VM.operate run op called receiver w none).run m₁).2 :=
    performed_operate runs sound₁ only receiver quiet₁
  have cut : (m.thread.stack ++ [argument]).shrink m.thread.stack.size = m.thread.stack := by
    rw [Window.shrink_append le_rfl, Window.shrink_size]
  refine ⟨_, _, rfl, yields, (congrArg ThreadState.stack ran.thread).trans cut,
    performed.preserves.sound, performed.preserves.settings, performed.quiet, fun v mem => ?_⟩
  refine (sustains_pushed m _ v).trans (performed.sustains ?_ ?_)
  · rw [ran.thread]
  · change v ∈ (m.thread.stack ++ [argument]).shrink m.thread.stack.size
    rwa [cut]

/-- An instruction pushes its exact result, or comes to a halt with the error that stands for
it. -/
lemma play_spec (runs : run.RunsPrimitives) (sound : m.world.heap.Sound)
    (fits : ∃ c, m.world.heap.classOf (.integer 0) = .ok c)
    (at_hand : List.Forall₂ m.Denotes (m.thread.stack.toList.drop base) numbers) (i : Instruction)
    (quiet : i.called = true → m.world.pollInterrupt.1 = false) :
    (∃ n v m', i.exactly numbers = .ok n ∧ (i.play run base).run m = (.ok (), m') ∧
      m'.thread.stack = m.thread.stack.push v ∧ m'.Yields (.ok n) (.ok v) ∧ m.Advances m') ∨
    ∃ h, i.exactly numbers = .error h ∧ ((i.play run base).run m).1 = .error h := by
  rcases read_operand at_hand i.receiver with
    ⟨receiver, a, first, _, left, denotes⟩ | ⟨left, first⟩
  swap
  · refine .inr ⟨_, ?_, congrArg Prod.fst (VM.run_bind_error first)⟩
    rw [Instruction.exactly, left]
  rcases read_operand at_hand i.argument with
    ⟨argument, b, second, _, right, denotes'⟩ | ⟨right, second⟩
  swap
  · refine .inr ⟨.fault .outOfBounds, ?_, ?_⟩
    · rw [Instruction.exactly, left, right]
    · rw [Instruction.play, VM.run_bind_ok first, VM.run_bind_error second]
  obtain ⟨r, m', ran, yields, stack, advances⟩ :=
    operate_spec i.operation runs sound fits denotes denotes' quiet
  have exact_ : i.exactly numbers = (i.operation.exactly a b).mapError .error := by
    rw [Instruction.exactly, left, right]
  have played : (i.play run base).run m = (do
      let result ← (do
        let w ← VM.pushWindow [argument] false
        VM.operate run i.operation i.called receiver w none)
      VM.modifyStack fun stack => stack.push result).run m := by
    rw [Instruction.play, VM.run_bind_ok first, VM.run_bind_ok second, bind_assoc]
  rw [exact_, played]
  cases outcome : i.operation.exactly a b with
  | error f =>
    rw [outcome] at yields
    cases yields
    exact .inr ⟨_, rfl, congrArg Prod.fst (VM.run_bind_error ran)⟩
  | ok n =>
    rw [outcome] at yields
    obtain ⟨v, rfl⟩ := yields.exists_ok
    refine .inl ⟨n, v, _, rfl, VM.run_bind_ok ran, congrArg (fun s => s.push v) stack,
      yields.sustained (sustains_pushed m' _ v), advances.sound, advances.settings, advances.quiet,
      fun u mem => (advances.sustains u mem).trans (sustains_pushed m' _ u)⟩

/-- The result of an instruction is at hand for the next one, as are its operands. -/
lemma at_hand_pushed {i : Instruction} {n : Int} {v : Value}
    (at_hand : List.Forall₂ m.Denotes (m.thread.stack.toList.drop base) numbers)
    (exact_ : i.exactly numbers = .ok n) (stack : m'.thread.stack = m.thread.stack.push v)
    (yields : m'.Yields (.ok n) (.ok v)) (advances : m.Advances m') :
    List.Forall₂ m'.Denotes (m'.thread.stack.toList.drop base) (numbers ++ [n]) := by
  have inside : base ≤ m.thread.stack.toList.length := by
    by_contra beyond
    rw [List.drop_eq_nil_of_le (by omega), List.forall₂_nil_left_iff] at at_hand
    subst at_hand
    cases exact_
  rw [stack, Array.toList_push, List.drop_append_of_le_length inside]
  have sustained : ∀ v ∈ m.thread.stack.toList.drop base, m.Sustains m' v := fun v mem =>
    advances.sustains v (Array.mem_toList_iff.mp (List.mem_of_mem_drop mem))
  have still : List.Forall₂ m'.Denotes (m.thread.stack.toList.drop base) numbers :=
    (List.forall₂_and_left _ _ |>.mpr ⟨sustained, at_hand⟩).imp fun _ _ both =>
      both.2.sustained both.1
  exact List.rel_append still (.cons yields.denotes .nil)

/-- Instructions one after the other push their exact results, or the first that has none is the
last. -/
lemma plays_spec (runs : run.RunsPrimitives) (program : List Instruction)
    (sound : m.world.heap.Sound)
    (fits : ∃ c, m.world.heap.classOf (.integer 0) = .ok c)
    (at_hand : List.Forall₂ m.Denotes (m.thread.stack.toList.drop base) numbers)
    (quiet : ∀ i ∈ program, i.called = true → m.world.pollInterrupt.1 = false) :
    (∃ results m', Instruction.results program numbers = .ok results ∧
      (VM.forEach (Instruction.play run base) program).run m = (.ok (), m') ∧
      m.Feeds m' results) ∨
    ∃ h, Instruction.results program numbers = .error h ∧
      ((VM.forEach (Instruction.play run base) program).run m).1 = .error h := by
  induction program generalizing m numbers with
  | nil =>
    exact .inl ⟨[], m, rfl, rfl, ⟨[], by simp, .nil⟩, fun _ _ _ _ _ => id⟩
  | cons i rest ih =>
    rw [Instruction.results, VM.forEach]
    rcases play_spec runs sound fits at_hand i (quiet i List.mem_cons_self) with
      ⟨n, v, m₁, exact_, ran, stack, yields, advances⟩ | ⟨h, fails, halts⟩
    swap
    · refine .inr ⟨h, by rw [fails]; rfl, ?_⟩
      rw [VM.run_bind]
      rcases ran : (i.play run base).run m with ⟨e | u, m₁⟩
      · rw [ran] at halts
        exact halts
      · rw [ran] at halts
        cases halts
    have at_hand₁ := at_hand_pushed at_hand exact_ stack yields advances
    have fits₁ : ∃ c, m₁.world.heap.classOf (.integer 0) = .ok c := by
      rwa [Heap.classOf_congr advances.settings]
    have quiet₁ : ∀ i ∈ rest, i.called = true → m₁.world.pollInterrupt.1 = false :=
      fun i mem called => advances.quiet (quiet i (List.mem_cons_of_mem _ mem) called)
    rw [exact_, VM.run_bind_ok ran]
    rcases ih advances.sound fits₁ at_hand₁ quiet₁ with
      ⟨results, m', exact_', ran', ⟨values, stack', all⟩, sustains⟩ | ⟨h, fails, halts⟩
    · refine .inl ⟨n :: results, m', ?_, ran', ⟨⟨v :: values, ?_, .cons ?_ all⟩, fun u mem => ?_⟩⟩
      · change (do return n :: (← Instruction.results rest (numbers ++ [n]))) = _
        rw [exact_']
        rfl
      · rw [stack', stack]
        simp
      · exact yields.sustained (sustains v (stack ▸ Array.mem_push_self))
      · exact (advances.sustains u mem).trans (sustains u (stack ▸ Array.mem_push_of_mem v mem))
    · refine .inr ⟨h, ?_, halts⟩
      change (do return n :: (← Instruction.results rest (numbers ++ [n]))) = _
      rw [fails]
      rfl

/-- An operation yields its exact result, or the error that stands for it, unless an interrupt
comes first. So does each of several operations that work on each other's results. -/
theorem integer_law (runs : run.RunsPrimitives) (reachable : m.world.heap.Reachable)
    (fits : ∃ c, m.world.heap.classOf (.integer 0) = .ok c) :
    (∀ op called receiver argument a b w block, m.OnlyArgument w argument →
      m.Denotes receiver a → m.Denotes argument b →
        ((called = true ∧ m.world.pollInterrupt.1 = true) ∧
          ((VM.operate run op called receiver w block).run m).1 = .error (.error .interrupt)) ∨
        ((called = true → m.world.pollInterrupt.1 = false) ∧
          ((VM.operate run op called receiver w block).run m).2.Yields (op.exactly a b)
            ((VM.operate run op called receiver w block).run m).1)) ∧
    ∀ base numbers program, List.Forall₂ m.Denotes (m.thread.stack.toList.drop base) numbers →
      (∀ i ∈ program, i.called = true → m.world.pollInterrupt.1 = false) →
        (∃ results m', Instruction.results program numbers = .ok results ∧
          (VM.forEach (Instruction.play run base) program).run m = (.ok (), m') ∧
          m.Feeds m' results) ∨
        ∃ h, Instruction.results program numbers = .error h ∧
          ((VM.forEach (Instruction.play run base) program).run m).1 = .error h := by
  refine ⟨fun op called receiver argument a b w block only left right => ?_,
    fun base numbers program at_hand quiet =>
      plays_spec runs program reachable.sound fits at_hand quiet⟩
  by_cases pending : called = true ∧ m.world.pollInterrupt.1 = true
  · obtain ⟨rfl, interrupt⟩ := pending
    exact .inl ⟨⟨rfl, interrupt⟩, congrArg Prod.fst
      (run_interrupted interrupt op.primitive.method receiver w block)⟩
  · have quiet : called = true → m.world.pollInterrupt.1 = false := fun call =>
      Bool.eq_false_iff.mpr fun interrupt => pending ⟨call, interrupt⟩
    exact .inr ⟨quiet, (yields_operate runs reachable.sound fits only left right block quiet).2⟩

/-- Two inline integers have been pushed, and a cell with a third. -/
def threeIntegers : Machine Unit :=
  { pushed default with thread := { (pushed default).thread with
      stack := #[.smallInt (-8), .smallInt 4611686018427387903, .ref loneCell] } }

/-- A sum that is too large to be inline, an eighth of it and a small quotient, both rounded down,
and the difference of these two. -/
def boxing : List Instruction :=
  [⟨.sum, 1, 1, true⟩, ⟨.quotient, 3, 0, false⟩, ⟨.quotient, 0, 2, true⟩, ⟨.difference, 4, 5, true⟩]

/-- The results are exact, and twice the sum is out of range. -/
theorem integer_law_boxing :
    (∃ c, threeIntegers.world.heap.classOf (.integer 0) = .ok c) ∧
    List.Forall₂ threeIntegers.Denotes (threeIntegers.thread.stack.toList.drop 0)
      [-8, 2 ^ 62 - 1, 7] ∧
    (∃ m', (VM.forEach (Instruction.play bare 0) boxing).run threeIntegers = (.ok (), m') ∧
      threeIntegers.Feeds m' [2 ^ 63 - 2, -2 ^ 60, -2, 2 - 2 ^ 60]) ∧
    ((VM.forEach (Instruction.play bare 0) [⟨.sum, 1, 1, true⟩, ⟨.sum, 3, 3, true⟩]).run
      threeIntegers).1 = .error (.error .overflow) := by
  have fits : ∃ c, threeIntegers.world.heap.classOf (.integer 0) = .ok c := ⟨0, by decide +kernel⟩
  have at_hand : List.Forall₂ threeIntegers.Denotes (threeIntegers.thread.stack.toList.drop 0)
      [-8, 2 ^ 62 - 1, 7] :=
    .cons ⟨-8, rfl, by decide⟩ (.cons ⟨4611686018427387903, rfl, by decide⟩
      (.cons ⟨7, by decide +kernel, by decide⟩ .nil))
  have quiet : threeIntegers.world.pollInterrupt.1 = false := rfl
  have runs : Runner.RunsPrimitives bare := fun _ _ _ _ => rfl
  obtain ⟨_, plays⟩ := integer_law runs (m := threeIntegers) reachable_lone fits
  have large : Instruction.results boxing [-8, 2 ^ 62 - 1, 7] =
      .ok [2 ^ 63 - 2, -2 ^ 60, -2, 2 - 2 ^ 60] := by decide +kernel
  have overflow : Instruction.results [⟨.sum, 1, 1, true⟩, ⟨.sum, 3, 3, true⟩]
      [-8, 2 ^ 62 - 1, 7] = .error (.error .overflow) := by decide +kernel
  refine ⟨fits, at_hand, ?_, ?_⟩
  · rcases plays 0 _ boxing at_hand fun _ _ _ => quiet with
      ⟨results, m', same, ran, feeds⟩ | ⟨h, fails, _⟩
    · rw [large] at same
      cases same
      exact ⟨m', ran, feeds⟩
    · rw [large] at fails
      cases fails
  · rcases plays 0 _ _ at_hand fun _ _ _ => quiet with ⟨results, m', same, _⟩ | ⟨h, fails, halts⟩
    · rw [overflow] at same
      cases same
    · rw [overflow] at fails
      cases fails
      exact halts

end Machine

end CellMachine
