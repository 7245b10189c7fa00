import CellMachine.Proofs.Binary64.WholeNumbers
import CellMachine.Proofs.Machine.FastPath

/-!
# Texts of numbers

The text of an integer has digits only, behind a sign if it has one. The text of a double has a
letter or a point as well, unless the double is a whole number of more than sixteen digits: these
are written like integers, and only these can be taken for one. The integer that such a text is
that of reads back as the double.
-/

namespace CellMachine

/-- There is something in the text that is neither a digit nor a sign. -/
def Marked (text : String) : Prop := ∃ c ∈ text.toList, ¬ c.isDigit ∧ c ≠ '-'

lemma Marked.append_left {text : String} (marked : Marked text) (front : String) :
    Marked (front ++ text) := by
  obtain ⟨c, mem, sign⟩ := marked
  exact ⟨c, by rw [String.toList_append]; exact List.mem_append_right _ mem, sign⟩

/-- An integer is written with digits and a sign. -/
lemma not_marked_toString (n : Int) : ¬ Marked (toString n) := by
  have digits : ∀ k : Nat, ∀ c ∈ k.repr.toList, c.isDigit := by
    intro k c mem
    rw [Nat.toList_repr] at mem
    exact Nat.isDigit_of_mem_toDigits (by decide) le_rfl mem
  rintro ⟨c, mem, other, sign⟩
  rw [Int.toString_eq_repr, Int.repr_eq_if] at mem
  split at mem
  · exact other (digits _ c mem)
  · rw [String.toList_append] at mem
    rcases List.mem_append.mp mem with minus | digit
    · exact sign (List.mem_singleton.mp minus)
    · exact other (digits _ c digit)

namespace Decimal

variable {x : Decimal}

/-- A decimal with a fraction has a point. -/
lemma marked_positional (fraction : x.exponent < 0) : Marked x.positional := by
  rw [positional, if_neg (not_le.mpr fraction)]
  refine ⟨'.', ?_, by decide, by decide⟩
  rw [String.toList_ofList]
  exact List.mem_append_right _ List.mem_cons_self

lemma toDigits_append_zeros {n : Nat} (positive : 0 < n) (e : Nat) :
    Nat.toDigits 10 n ++ zeros e = Nat.toDigits 10 (n * 10 ^ e) := by
  induction e with
  | zero => rw [zeros, List.replicate_zero, List.append_nil, pow_zero, mul_one]
  | succ e ih =>
    have step := Nat.toDigits_append_toDigits (b := 10) (d := 0) (by decide)
      (Nat.mul_pos positive (Nat.pow_pos (n := e) (by decide : 0 < 10))) (by decide)
    rw [zeros, List.replicate_succ', ← List.append_assoc, ← zeros, ih, pow_succ, ← mul_assoc,
      mul_comm _ 10]
    exact step

/-- A decimal without one is written like the whole number that it is. -/
lemma positional_of_nonneg (whole : 0 ≤ x.exponent) (positive : 0 < x.coefficient) :
    x.positional = toString (x.coefficient * 10 ^ x.exponent.toNat) := by
  rw [positional, if_pos whole, toDigits_append_zeros positive]
  rfl

end Decimal

namespace Binary64

variable {d : Binary64} {n : Int} {k : Nat}

/-- The double is a finite whole number of more than sixteen digits, and the integer has its sign
and the value of its shortest decimal. -/
structure LooksLike (d : Binary64) (n : Int) : Prop where
  finite : d.isNaN = false ∧ d.isInfinite = false
  large : ∃ k, d.IsLarge k
  sign : n < 0 ↔ d.isNegative = true
  digits : n.natAbs = d.shortest.coefficient * 10 ^ d.shortest.exponent.toNat

lemma IsLarge.coefficient_pos (large : d.IsLarge k) : 0 < d.shortest.coefficient := by
  have reads := large.shortest.2
  have positive := pos_of_reads large.significand_ne_zero (by simp [grid, Nat.shiftLeft_eq]) reads
  exact Nat.pos_of_mul_pos_right positive

/-- There is one such integer at most. -/
lemma LooksLike.unique {n' : Int} (first : d.LooksLike n) (second : d.LooksLike n') : n = n' := by
  have same := first.digits.trans second.digits.symm
  have sign := first.sign.trans second.sign.symm
  omega

/-- A large whole number is written like an integer. -/
lemma IsLarge.exists_looksLike (large : d.IsLarge k)
    (finite : d.isNaN = false ∧ d.isInfinite = false) :
    ∃ n, d.LooksLike n ∧ DecimalStyle.shown.write d = toString n := by
  obtain ⟨whole, least⟩ := large
  have positive := IsLarge.coefficient_pos ⟨whole, least⟩
  have digits : DecimalStyle.shown.magnitude d =
      toString (d.shortest.coefficient * 10 ^ d.shortest.exponent.toNat) := by
    have limit : ¬ k < DecimalStyle.shown.wholeBelow := not_lt.mpr least
    rw [DecimalStyle.magnitude, finite.2, if_neg Bool.false_ne_true, whole]
    dsimp only
    rw [if_neg limit]
    exact Decimal.positional_of_nonneg (IsLarge.shortest ⟨whole, least⟩).1 positive
  have value : 0 < d.shortest.coefficient * 10 ^ d.shortest.exponent.toNat :=
    Nat.mul_pos positive (Nat.pow_pos (by decide))
  rw [DecimalStyle.write, finite.1, if_neg Bool.false_ne_true, digits]
  generalize value_eq : d.shortest.coefficient * 10 ^ d.shortest.exponent.toNat = v at value
  cases negative : d.isNegative with
  | false =>
    refine ⟨v, ⟨finite, ⟨k, whole, least⟩, ?_, by rw [value_eq]; omega⟩, ?_⟩
    · simp [negative]
    · rfl
  | true =>
    refine ⟨-v, ⟨finite, ⟨k, whole, least⟩, ?_, by rw [value_eq]; omega⟩, ?_⟩
    · simp only [negative, iff_true]
      omega
    · have below : ¬ 0 ≤ -(v : Int) := by omega
      rw [if_pos rfl, Int.toString_eq_repr, Int.repr_eq_if, if_neg below, neg_neg, Int.toNat_natCast]
      rfl

/-- Every other double is written with a letter or a point. -/
lemma marked_write (other : ∀ k, d.IsLarge k → d.isNaN = true ∨ d.isInfinite = true) :
    Marked (DecimalStyle.shown.write d) := by
  have magnitude : d.isNaN = false → Marked (DecimalStyle.shown.magnitude d) := by
    intro number
    rw [DecimalStyle.magnitude]
    split
    · exact ⟨'I', by decide, by decide, by decide⟩
    · rename_i finite
      cases whole : d.whole? with
      | none => exact Decimal.marked_positional (shortest_exponent_neg whole)
      | some k =>
        dsimp only
        split
        · exact Marked.append_left ⟨'.', by decide, by decide, by decide⟩ _
        · rename_i large
          rcases other k ⟨whole, not_lt.mp large⟩ with nan | infinite
          · rw [number] at nan
            cases nan
          · exact absurd infinite finite
  rw [DecimalStyle.write]
  split
  · exact ⟨'N', by decide, by decide, by decide⟩
  · rename_i number
    have marked := magnitude (Bool.not_eq_true _ ▸ number)
    split
    · exact marked.append_left "-"
    · exact marked

/-- The text of a double is that of an integer just if the double looks like it. -/
theorem write_eq_toString_iff : DecimalStyle.shown.write d = toString n ↔ d.LooksLike n := by
  by_cases candidate : (d.isNaN = false ∧ d.isInfinite = false) ∧ ∃ k, d.IsLarge k
  · obtain ⟨finite, k, large⟩ := candidate
    obtain ⟨n', looks, written⟩ := large.exists_looksLike finite
    rw [written]
    constructor
    · intro same
      rwa [← Int.repr_injective same]
    · intro looks'
      rw [looks.unique looks']
  · have marked : Marked (DecimalStyle.shown.write d) := by
      refine marked_write fun k large => ?_
      by_contra finite
      rw [not_or, Bool.not_eq_true, Bool.not_eq_true] at finite
      exact candidate ⟨finite, k, large⟩
    constructor
    · intro same
      rw [same] at marked
      exact absurd marked (not_marked_toString n)
    · exact fun looks => absurd ⟨looks.finite, looks.large⟩ candidate

end Binary64

namespace Machine

variable {σ : Type} {m : Machine σ} {v w : Value} {d : Binary64} {n : Int64}

/-- A number is shown in the same way wherever it is kept. -/
lemma inspect?_double (double : m.operandOf v = .number (.double d)) :
    m.inspect? v = some (DecimalStyle.shown.write d) := by
  cases v with
  | smallInt n => cases double
  | double d' =>
    obtain rfl := Numeric.double.inj (Operand.number.inj double)
    rfl
  | ref a =>
    rw [operandOf] at double
    rw [inspect?, inspectWith]
    cases here : m.object? a with
    | none =>
      rw [here] at double
      cases double
    | some o =>
      rw [here] at double
      cases o with
      | float d' =>
        obtain rfl := Numeric.double.inj (Operand.number.inj double)
        rfl
      | _ => cases double

lemma inspect?_integer (integer : m.operandOf v = .number (.integer n)) :
    m.inspect? v = some (toString n.toInt) := by
  cases v with
  | double d => cases integer
  | smallInt n' =>
    obtain rfl := Numeric.integer.inj (Operand.number.inj integer)
    rfl
  | ref a =>
    rw [operandOf] at integer
    rw [inspect?, inspectWith]
    cases here : m.object? a with
    | none =>
      rw [here] at integer
      cases integer
    | some o =>
      rw [here] at integer
      cases o with
      | integer n' =>
        obtain rfl := Numeric.integer.inj (Operand.number.inj integer)
        rfl
      | _ => cases integer

/-- When the text of one value can be taken for that of the other. -/
structure TellsNumbers (m : Machine σ) (v w : Value) (d : Binary64) (n : Int64) : Prop where
  /-- Both have a text. -/
  shown : (m.inspect? v).isSome ∧ (m.inspect? w).isSome
  /-- The texts differ unless the double looks like the integer, -/
  alike : m.inspect? v = m.inspect? w ↔ d.LooksLike n.toInt
  /-- and then it has more than sixteen digits, and the integer reads back as the double. -/
  confused : m.inspect? v = m.inspect? w →
    d.reads (d.grid 0) n.toInt.natAbs = true ∧ ∃ k, d.IsLarge k

/-- Doubles and integers are told apart by their texts, but for large whole doubles. -/
theorem tellsNumbers (double : m.operandOf v = .number (.double d))
    (integer : m.operandOf w = .number (.integer n)) : m.TellsNumbers v w d n := by
  have alike : m.inspect? v = m.inspect? w ↔ d.LooksLike n.toInt := by
    rw [inspect?_double double, inspect?_integer integer, Option.some_inj]
    exact Binary64.write_eq_toString_iff
  refine ⟨?_, alike, fun same => ?_⟩
  · rw [inspect?_double double, inspect?_integer integer]
    exact ⟨rfl, rfl⟩
  · obtain ⟨_, ⟨k, large⟩, _, digits⟩ := alike.mp same
    rw [digits]
    exact ⟨large.shortest.2, k, large⟩

/-- Ten to the sixteenth. -/
def tenPower : Binary64 := ⟨0x4341c37937e08000⟩

/-- As a double it has the text of the integer. -/
theorem tellsNumbers_tenPower :
    (pushed default).operandOf (.double tenPower) = .number (.double tenPower) ∧
    (pushed default).operandOf (.smallInt 10000000000000000) =
      .number (.integer 10000000000000000) ∧
    (pushed default).TellsNumbers (.double tenPower) (.smallInt 10000000000000000) tenPower
      10000000000000000 ∧
    (pushed default).inspect? (.double tenPower) =
      (pushed default).inspect? (.smallInt 10000000000000000) := by
  refine ⟨rfl, rfl, tellsNumbers rfl rfl, ?_⟩
  decide +kernel

end Machine

end CellMachine
