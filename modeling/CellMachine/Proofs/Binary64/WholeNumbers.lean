import Mathlib.Algebra.Order.Ring.Nat
import Mathlib.Data.List.Pairwise
import Mathlib.Tactic.Common
import Mathlib.Tactic.Ring
import CellMachine.Binary64.Shortest

/-!
# Shortest decimals and whole numbers

The shortest decimal of a double has a fraction if the double has one, and it has none if the
double is a whole number of more than sixteen digits. In that case it is a whole number that
reads back as the double, though it need not be the double itself.
-/

namespace CellMachine

namespace Binary64

variable {d : Binary64} {power : Int} {x : Decimal}

lemma significand_lt (d : Binary64) : d.significand < 2 ^ 53 := by
  have fraction : d.fraction < 2 ^ 52 := by
    rw [Binary64.fraction, UInt64.toNat_and]
    exact Nat.and_lt_two_pow _ (by decide)
  rw [significand]
  split <;> omega

/-- How many places of the significand stand behind the point. -/
def places (d : Binary64) : Nat := (-d.exponent).toNat

/-- A double with a fraction has it in the lowest places of its significand. -/
lemma of_whole?_eq_none (broken : d.whole? = none) :
    d.exponent < 0 ∧ d.significand % 2 ^ d.places ≠ 0 := by
  rw [whole?] at broken
  split at broken
  · cases broken
  · rename_i negative
    dsimp only at broken
    split at broken
    · cases broken
    · rename_i rest
      rw [Nat.one_shiftLeft] at rest
      exact ⟨not_le.mp negative, rest⟩

lemma of_whole?_eq_some {k : Nat} (whole : d.whole? = some k) :
    (0 ≤ d.exponent ∧ k = d.significand * 2 ^ d.exponent.toNat) ∨
      (d.exponent < 0 ∧ d.significand = k * 2 ^ d.places) := by
  rw [whole?] at whole
  split at whole
  · rename_i nonnegative
    rw [Nat.shiftLeft_eq] at whole
    exact .inl ⟨nonnegative, (Option.some.inj whole).symm⟩
  · rename_i negative
    dsimp only at whole
    split at whole
    · rename_i rest
      rw [Nat.one_shiftLeft] at rest whole
      obtain rfl := Option.some.inj whole
      exact .inr ⟨not_le.mp negative, (Nat.div_mul_cancel (Nat.dvd_of_mod_eq_zero rest)).symm⟩
    · cases whole

lemma nearest?_spec (found : d.nearest? power = some x) :
    x.exponent = power ∧ d.reads (d.grid power) x.coefficient = true := by
  have candidate : ∀ {point : Nat},
      (if d.reads (d.grid power) point then some (⟨point, power⟩ : Decimal) else none) = some x →
      x.exponent = power ∧ d.reads (d.grid power) x.coefficient = true := by
    intro point taken
    split at taken
    · rename_i reads
      obtain rfl := Option.some.inj taken
      exact ⟨rfl, reads⟩
    · cases taken
  have either : ∀ {a b : Option Decimal}, (a <|> b) = some x → a = some x ∨ b = some x := by
    intro a b first
    cases a with
    | none => exact .inr first
    | some y => exact .inl first
  rw [nearest?] at found
  dsimp only at found
  split at found
  · exact (either found).elim candidate candidate
  · exact (either found).elim candidate candidate

/-- The shortest decimal is a point of one of the grids, or the double itself. -/
lemma shortest_cases (d : Binary64) (nonzero : d.significand ≠ 0) :
    (∃ i < 18, d.nearest? (d.leadingPower + 1 - (i : Nat)) = some d.shortest) ∨
      d.shortest = d.exactDecimal := by
  rw [shortest, if_neg nonzero]
  cases found : (List.range 18).findSome? fun (i : Nat) => d.nearest? (d.leadingPower + 1 - i) with
  | none => exact .inr rfl
  | some x =>
    obtain ⟨i, mem, here⟩ := List.exists_of_findSome?_eq_some found
    exact .inl ⟨i, List.mem_range.mp mem, here⟩

/-- A point that reads as a double is no further from it than the ends of its interval. -/
lemma near_of_reads {g : Grid} {point : Nat} (reads : d.reads g point = true) :
    d.lower * g.perMark ≤ point * g.perPoint ∧ point * g.perPoint ≤ d.upper * g.perMark := by
  rw [Binary64.reads] at reads
  split at reads
  · simp only [Bool.and_eq_true, decide_eq_true_eq] at reads
    exact reads
  · simp only [Bool.and_eq_true, decide_eq_true_eq] at reads
    exact ⟨reads.1.le, reads.2.le⟩

/-- Zero does not read as any other double. -/
lemma pos_of_reads {g : Grid} {point : Nat} (nonzero : d.significand ≠ 0) (perMark : 0 < g.perMark)
    (reads : d.reads g point = true) : 0 < point := by
  have low : 0 < d.lower := by
    rw [lower, centre]
    split <;> omega
  exact Nat.pos_of_mul_pos_right ((Nat.mul_pos low perMark).trans_le (near_of_reads reads).1)

/-- A point at the place of the double itself reads as the double. -/
lemma reads_centre {g : Grid} {point : Nat} (nonzero : d.significand ≠ 0) (perMark : 0 < g.perMark)
    (itself : point * g.perPoint = d.centre * g.perMark) : d.reads g point = true := by
  have low : d.lower < d.centre := by
    rw [lower, centre]
    split <;> omega
  have left := Nat.mul_lt_mul_of_pos_right low perMark
  have right : d.centre * g.perMark < d.upper * g.perMark :=
    Nat.mul_lt_mul_of_pos_right (Nat.lt_add_of_pos_right two_pos) perMark
  rw [reads, itself]
  split
  · simp only [Bool.and_eq_true, decide_eq_true_eq]
    exact ⟨left.le, right.le⟩
  · simp only [Bool.and_eq_true, decide_eq_true_eq]
    exact ⟨left, right⟩

/-- On a grid of whole numbers, a double is read from a point if that is near enough. -/
lemma reads_grid (nonnegative : 0 ≤ power) (point : Nat) :
    d.reads (d.grid power) point = d.reads (d.grid 0) (point * 10 ^ power.toNat) := by
  have one : (-power).toNat = 0 := by omega
  simp only [reads, grid, one, Int.toNat_zero, Nat.pow_eq, pow_zero, neg_zero, Nat.shiftLeft_eq,
    one_mul]
  rw [Nat.mul_assoc point]

/-- No whole number reads as a double that has a fraction. -/
lemma reads_grid_zero_of_broken (broken : d.whole? = none) (point : Nat) :
    d.reads (d.grid 0) point = false := by
  obtain ⟨negative, rest⟩ := of_whole?_eq_none broken
  have fine : (-(d.exponent - 2)).toNat = d.places + 2 := by
    rw [places]
    omega
  have coarse : (d.exponent - 2).toNat = 0 := by omega
  by_contra reads
  rw [Bool.not_eq_false] at reads
  have low : d.centre - 2 ≤ d.lower := by
    rw [lower]
    split <;> omega
  have near : d.centre - 2 ≤ point * (2 ^ d.places * 4) ∧ point * (2 ^ d.places * 4) ≤ d.upper := by
    have near := near_of_reads reads
    simp only [grid, fine, coarse, Int.toNat_zero, Nat.pow_eq, pow_zero, neg_zero, Nat.shiftLeft_eq,
      one_mul, mul_one, pow_add] at near
    exact ⟨low.trans near.1, near.2⟩
  rw [← Nat.mul_assoc, centre, upper, centre] at near
  have same : d.significand = point * 2 ^ d.places := by omega
  rw [same, Nat.mul_mod_left] at rest
  exact rest rfl

/-- The shortest decimal of a double with a fraction has a fraction. -/
theorem shortest_exponent_neg (broken : d.whole? = none) : d.shortest.exponent < 0 := by
  obtain ⟨negative, rest⟩ := of_whole?_eq_none broken
  have nonzero : d.significand ≠ 0 := by
    intro zero
    rw [zero, Nat.zero_mod] at rest
    exact rest rfl
  rcases shortest_cases d nonzero with ⟨i, _, found⟩ | itself
  · obtain ⟨power, reads⟩ := nearest?_spec found
    by_contra whole
    rw [power, not_lt] at whole
    rw [reads_grid whole, reads_grid_zero_of_broken broken] at reads
    cases reads
  · rw [itself, exactDecimal, if_neg (not_le.mpr negative)]
    exact negative

/-- The first power that may be that of the leading digit. -/
def estimate (d : Binary64) : Int := ((d.significand.log2 + d.exponent) * 30103).fdiv 100000 - 1

/-- No power in the range of the estimate that the double reaches is above the leading one. -/
lemma le_leadingPower {i : Nat} (inside : i < 4) (reached : d.reaches (d.estimate + i) = true) :
    d.estimate + i ≤ d.leadingPower := by
  let powers := ((List.range 4).map fun (i : Nat) => d.estimate + i).filter d.reaches
  have mem : d.estimate + i ∈ powers :=
    List.mem_filter.mpr ⟨List.mem_map.mpr ⟨i, List.mem_range.mpr inside, rfl⟩, reached⟩
  have rising : powers.Pairwise (· ≤ ·) := by
    refine (List.pairwise_map.mpr ?_).filter _
    exact List.pairwise_lt_range.imp fun lt => Int.add_le_add_left (Int.ofNat_le.mpr lt.le) _
  change _ ≤ powers.getLast?.getD d.estimate
  rw [List.getLast?_eq_some_getLast (List.ne_nil_of_mem mem), Option.getD_some]
  exact rising.rel_getLast mem

lemma estimate_le_leadingPower (d : Binary64) : d.estimate ≤ d.leadingPower := by
  change _ ≤ (((List.range 4).map fun (i : Nat) => d.estimate + i).filter d.reaches).getLast?.getD
    d.estimate
  cases last : (((List.range 4).map fun (i : Nat) => d.estimate + i).filter d.reaches).getLast? with
  | none => exact le_rfl
  | some power =>
    obtain ⟨i, _, rfl⟩ := List.mem_map.mp (List.mem_filter.mp (List.mem_of_getLast? last)).1
    rw [Option.getD_some]
    omega

/-- The double is a whole number of more than sixteen digits, and the number is given. -/
def IsLarge (d : Binary64) (k : Nat) : Prop := d.whole? = some k ∧ 10 ^ 16 ≤ k

variable {k : Nat}

/-- There are no places behind the point. -/
lemma IsLarge.spec (large : d.IsLarge k) : 1 ≤ d.exponent ∧ k = d.significand * 2 ^ d.exponent.toNat := by
  obtain ⟨whole, least⟩ := large
  have bound := d.significand_lt
  rcases of_whole?_eq_some whole with ⟨nonnegative, same⟩ | ⟨_, same⟩
  · refine ⟨?_, same⟩
    by_contra small
    have zero : d.exponent.toNat = 0 := by omega
    rw [zero, pow_zero, mul_one] at same
    omega
  · have factor := Nat.le_mul_of_pos_right k (Nat.two_pow_pos d.places)
    omega

lemma IsLarge.significand_ne_zero (large : d.IsLarge k) : d.significand ≠ 0 := by
  intro zero
  have least := large.2
  rw [large.spec.2, zero, zero_mul] at least
  omega

/-- A large whole number in the scale of a grid of whole numbers. -/
lemma IsLarge.centre_mul (large : d.IsLarge k) (nonnegative : 0 ≤ power) :
    d.centre * (d.grid power).perMark * 10 ^ power.toNat = k * (d.grid power).perPoint := by
  obtain ⟨positive, same⟩ := large.spec
  have one : (-power).toNat = 0 := by omega
  rw [same, centre]
  simp only [grid, one, Nat.pow_eq, pow_zero, Nat.shiftLeft_eq, one_mul]
  have scale : 2 ^ (d.exponent - 2).toNat * 4 = 2 ^ d.exponent.toNat * 2 ^ (-(d.exponent - 2)).toNat := by
    rw [show (4 : Nat) = 2 ^ 2 from rfl, ← pow_add, ← pow_add]
    congr 1
    omega
  calc 4 * d.significand * 2 ^ (d.exponent - 2).toNat * 10 ^ power.toNat
      = d.significand * (2 ^ (d.exponent - 2).toNat * 4) * 10 ^ power.toNat := by ring
    _ = _ := by
      rw [scale]
      ring

/-- It has a leading digit of the power of sixteen at least. -/
lemma IsLarge.le_leadingPower (large : d.IsLarge k) : 16 ≤ d.leadingPower := by
  obtain ⟨positive, same⟩ := large.spec
  have reached : d.reaches 16 = true := by
    have scaled := large.centre_mul (show (0 : Int) ≤ 16 by omega)
    have many := Nat.mul_le_mul_right (d.grid 16).perPoint large.2
    rw [reaches]
    simp only [decide_eq_true_eq]
    change (d.grid 16).perPoint ≤ d.centre * (d.grid 16).perMark
    change d.centre * (d.grid 16).perMark * 10 ^ 16 = _ at scaled
    omega
  have digits : 53 ≤ d.significand.log2 + d.exponent := by
    have below : 2 ^ 53 < 2 ^ (d.significand.log2 + 1 + d.exponent.toNat) := by
      calc 2 ^ 53 < 10 ^ 16 := by decide
        _ ≤ k := large.2
        _ = d.significand * 2 ^ d.exponent.toNat := same
        _ < 2 ^ (d.significand.log2 + 1) * 2 ^ d.exponent.toNat :=
          Nat.mul_lt_mul_of_pos_right Nat.lt_log2_self (Nat.two_pow_pos _)
        _ = _ := (pow_add 2 _ _).symm
    have order := (Nat.pow_lt_pow_iff_right (by omega)).mp below
    omega
  have first : 14 ≤ d.estimate := by
    rw [estimate, Int.fdiv_eq_ediv_of_nonneg _ (by omega)]
    omega
  have least := d.estimate_le_leadingPower
  by_contra low
  -- the estimate is 14 or 15, so 16 is in its range
  have inside : (16 - d.estimate).toNat < 4 := by omega
  have sixteen : d.estimate + ((16 - d.estimate).toNat : Int) = 16 := by omega
  have found := Binary64.le_leadingPower (d := d) inside (by rw [sixteen]; exact reached)
  omega

/-- The shortest decimal of a large whole number is a whole number that reads as the double. -/
theorem IsLarge.shortest (large : d.IsLarge k) : 0 ≤ d.shortest.exponent ∧
    d.reads (d.grid 0) (d.shortest.coefficient * 10 ^ d.shortest.exponent.toNat) = true := by
  obtain ⟨positive, same⟩ := large.spec
  rcases d.shortest_cases large.significand_ne_zero with ⟨i, few, found⟩ | itself
  · obtain ⟨power, reads⟩ := nearest?_spec found
    have leading := large.le_leadingPower
    have whole : 0 ≤ d.leadingPower + 1 - (i : Nat) := by omega
    rw [reads_grid whole] at reads
    rw [power]
    exact ⟨whole, reads⟩
  · have scaled := large.centre_mul (le_refl (0 : Int))
    rw [Int.toNat_zero, pow_zero, mul_one] at scaled
    rw [itself, exactDecimal, if_pos (zero_le_one.trans positive)]
    refine ⟨le_rfl, ?_⟩
    rw [Int.toNat_zero, pow_zero, mul_one, Nat.shiftLeft_eq, ← same]
    refine reads_centre large.significand_ne_zero ?_ scaled.symm
    simp [grid, Nat.shiftLeft_eq]

end Binary64

end CellMachine
