import Mathlib
import CellMachine.Heap.Settings

/-!
# What accepted settings say

Settings are accepted exactly if their size classes rise, each class can be laid out in a block,
and the percentages are in order. In rising classes the first one that holds a number of bytes is
the smallest that does.
-/

namespace CellMachine

namespace Settings

variable {s : Settings}

lemma classFault?_eq_none_iff {size : Nat} : classFault? size = none ↔
    minCellSize ≤ size ∧ cellAlign ∣ size ∧ 8 ≤ cellsPerBlock size := by
  rw [classFault?, Nat.dvd_iff_mod_eq_zero]
  constructor
  · intro accepted
    split at accepted
    · cases accepted
    split at accepted
    · cases accepted
    split at accepted
    · cases accepted
    · refine ⟨?_, ?_, ?_⟩ <;> omega
  · rintro ⟨large, aligned, many⟩
    rw [if_neg (by omega), if_neg (by omega), if_neg (by omega)]

lemma ascending_iff : ∀ sizes : List Nat, ascending sizes ↔ sizes.Pairwise (· < ·)
  | [] => by simp [ascending]
  | [a] => by simp [ascending]
  | a :: b :: rest => by
    rw [ascending, Bool.and_eq_true, decide_eq_true_iff, ascending_iff (b :: rest),
      List.pairwise_cons (a := a)]
    constructor
    · rintro ⟨first, sorted⟩
      refine ⟨fun size mem => ?_, sorted⟩
      rcases List.mem_cons.mp mem with rfl | later
      · exact first
      · exact first.trans (List.rel_of_pairwise_cons sorted later)
    · rintro ⟨below, sorted⟩
      exact ⟨below b List.mem_cons_self, sorted⟩

/-- The settings that are not refused. -/
structure Accepted (s : Settings) : Prop where
  some_class : s.sizeClasses ≠ []
  ascending : s.sizeClasses.Pairwise (· < ·)
  large : ∀ size ∈ s.sizeClasses, minCellSize ≤ size
  aligned : ∀ size ∈ s.sizeClasses, cellAlign ∣ size
  many : ∀ size ∈ s.sizeClasses, 8 ≤ cellsPerBlock size
  trigger_le : s.trigger ≤ 100
  target_lt : s.target < 100
  trigger_le_target : s.trigger ≤ s.target

lemma fault?_eq_none_iff : s.fault? = none ↔ s.Accepted := by
  have each : s.sizeClasses.findSome? classFault? = none ↔ ∀ size ∈ s.sizeClasses,
      minCellSize ≤ size ∧ cellAlign ∣ size ∧ 8 ≤ cellsPerBlock size := by
    rw [List.findSome?_eq_none_iff]
    exact forall₂_congr fun _ _ => classFault?_eq_none_iff
  rw [fault?]
  constructor
  · intro accepted
    split at accepted
    · cases accepted
    rename_i some_class
    split at accepted
    · cases accepted
    rename_i rising
    split at accepted
    · cases accepted
    rename_i classes
    have laid := each.mp classes
    split at accepted
    · cases accepted
    split at accepted
    · cases accepted
    split at accepted
    · cases accepted
    constructor
    · exact fun none_there => some_class (List.isEmpty_iff.mpr none_there)
    · exact (ascending_iff _).mp (by simpa using rising)
    · exact fun size mem => (laid size mem).1
    · exact fun size mem => (laid size mem).2.1
    · exact fun size mem => (laid size mem).2.2
    · omega
    · omega
    · omega
  · intro accepted
    have laid := each.mpr fun size mem =>
      ⟨accepted.large size mem, accepted.aligned size mem, accepted.many size mem⟩
    have rising := (ascending_iff _).mpr accepted.ascending
    have target_lt := accepted.target_lt
    have trigger_le := accepted.trigger_le
    have trigger_le_target := accepted.trigger_le_target
    rw [if_neg (by simpa using accepted.some_class), if_neg (by simpa using rising), laid]
    simp only
    rw [if_neg (by omega), if_neg (by omega), if_neg (by omega)]

/-- The class that is chosen is the smallest that holds so many bytes. -/
lemma Accepted.classFor?_eq_some_iff (accepted : s.Accepted) {bytes c : Nat} :
    s.classFor? bytes = some c ↔ ∃ size, s.sizeClasses[c]? = some size ∧ bytes ≤ size ∧
      ∀ other ∈ s.sizeClasses, bytes ≤ other → size ≤ other := by
  rw [classFor?, List.findIdx?_eq_some_iff_getElem]
  have sorted := List.pairwise_iff_getElem.mp accepted.ascending
  constructor
  · rintro ⟨range, holds, before⟩
    refine ⟨s.sizeClasses[c], List.getElem?_eq_getElem range, by simpa using holds, ?_⟩
    intro other mem enough
    obtain ⟨d, range', rfl⟩ := List.mem_iff_getElem.mp mem
    by_cases earlier : d < c
    · have refused := before d earlier
      simp only [decide_eq_true_eq, not_le] at refused
      omega
    · by_cases same : d = c
      · subst same
        exact le_rfl
      · exact (sorted c d range range' (by omega)).le
  · rintro ⟨size, here, holds, least⟩
    obtain ⟨range, rfl⟩ := List.getElem?_eq_some_iff.mp here
    refine ⟨range, by simpa using holds, fun d earlier => ?_⟩
    have range' : d < s.sizeClasses.length := by omega
    have smaller := sorted d c range' range earlier
    by_contra enough
    have le := least s.sizeClasses[d] (List.getElem_mem range') (by simpa using enough)
    omega

/-- There is a largest class, and none is chosen exactly for more bytes than it holds. -/
lemma Accepted.exists_largest (accepted : s.Accepted) : ∃ largest ∈ s.sizeClasses,
    (∀ size ∈ s.sizeClasses, size ≤ largest) ∧
      ∀ bytes, s.classFor? bytes = none ↔ largest < bytes := by
  obtain ⟨largest, top⟩ := Option.ne_none_iff_exists'.mp
    (mt List.max?_eq_none_iff.mp accepted.some_class)
  obtain ⟨mem, le⟩ := List.max?_eq_some_iff.mp top
  refine ⟨largest, mem, le, fun bytes => ?_⟩
  rw [classFor?, List.findIdx?_eq_none_iff]
  constructor
  · intro none_holds
    have refused := none_holds largest mem
    simpa using refused
  · intro more size there
    have below := le size there
    simp only [decide_eq_false_iff_not]
    omega

end Settings

end CellMachine
