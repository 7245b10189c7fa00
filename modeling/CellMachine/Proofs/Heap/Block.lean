import CellMachine.Heap.Block
import CellMachine.Proofs.Counting

/-!
# The books of a block

A block is sound when only slots that it really has are in use, its count of free slots
is right and every word below the remembered one is full. Each operation is described
once by what it does to the cell of each slot; soundness and the later statements about
heaps use these descriptions alone.
-/

namespace CellMachine

namespace Block

variable {α : Type}

lemma isUsed_eq (b : Block α) (i : Nat) : b.isUsed i = (b.cell? i).isSome := rfl

lemma isMarked_eq (b : Block α) (i : Nat) : b.isMarked i = (b.cell? i).any Cell.isMarked := rfl

@[simp] lemma cell?_create (cellSize i : Nat) : (create cellSize : Block α).cell? i = none := by
  by_cases h : i < bitmapBits <;> simp [cell?, create, h]

lemma cell?_fill (b : Block α) {i : Nat} (hi : i < bitmapBits) (c : Cell α) (j : Nat) :
    (b.fill i c).cell? j = if i = j then some c else b.cell? j := by
  by_cases h : i = j
  · subst h
    simp [cell?, fill, hi]
  · simp [cell?, fill, h]

lemma cell?_modifyCell (b : Block α) (i : Nat) (f : Cell α → Cell α) (j : Nat) :
    (b.modifyCell i f).cell? j = if i = j then (b.cell? j).map f else b.cell? j := by
  by_cases h : i = j
  · subst h
    by_cases hi : i < bitmapBits <;> simp [cell?, modifyCell, hi]
  · simp [cell?, modifyCell, h]

@[simp] lemma cell?_unmarkAll (b : Block α) (i : Nat) :
    b.unmarkAll.cell? i = (b.cell? i).map Cell.unmark := by
  by_cases hi : i < bitmapBits <;> simp [cell?, unmarkAll, hi]

lemma cell?_release (b : Block α) (i j : Nat) :
    (b.release i).cell? j = if i = j then none else b.cell? j := by
  by_cases h : i = j
  · subst h
    by_cases hi : i < bitmapBits <;> simp [cell?, release, hi]
  · simp [cell?, release, h]

lemma isUsed_fill (b : Block α) {i : Nat} (hi : i < bitmapBits) (c : Cell α) (j : Nat) :
    (b.fill i c).isUsed j = if i = j then true else b.isUsed j := by
  rw [isUsed_eq, isUsed_eq, cell?_fill b hi]
  split <;> rfl

lemma isUsed_release (b : Block α) (i j : Nat) :
    (b.release i).isUsed j = if i = j then false else b.isUsed j := by
  rw [isUsed_eq, isUsed_eq, cell?_release]
  split <;> rfl

lemma cell?_foldl_release (l : List Nat) (b : Block α) (j : Nat) :
    (l.foldl release b).cell? j = if j ∈ l then none else b.cell? j := by
  induction l generalizing b with
  | nil => simp
  | cons i l ih =>
    rw [List.foldl_cons, ih, cell?_release]
    by_cases hj : j ∈ l
    · simp [hj]
    · by_cases h : i = j
      · simp [h]
      · simp [hj, h, Ne.symm h]

@[simp] lemma cellSize_fill (b : Block α) (i : Nat) (c : Cell α) :
    (b.fill i c).cellSize = b.cellSize := rfl

@[simp] lemma cellSize_modifyCell (b : Block α) (i : Nat) (f : Cell α → Cell α) :
    (b.modifyCell i f).cellSize = b.cellSize := rfl

@[simp] lemma cellSize_unmarkAll (b : Block α) : b.unmarkAll.cellSize = b.cellSize := rfl

@[simp] lemma cellSize_foldl_release (l : List Nat) (b : Block α) :
    (l.foldl release b).cellSize = b.cellSize := by
  induction l generalizing b with
  | nil => rfl
  | cons i l ih => exact ih (b.release i)

@[simp] lemma cellSize_sweep (b : Block α) : b.sweep.cellSize = b.cellSize :=
  cellSize_foldl_release _ b

structure Sound (b : Block α) : Prop where
  used_lt : ∀ i, b.isUsed i → i < b.totalCount
  fits : b.totalCount ≤ bitmapBits
  books : b.freeCount + b.usedSlots.length = b.totalCount
  full_below : ∀ i, i < wordBits * b.nextFreeWord → i < b.totalCount → b.isUsed i

lemma length_usedSlots (b : Block α) :
    b.usedSlots.length = (List.range b.totalCount).countP b.isUsed :=
  List.countP_eq_length_filter.symm

lemma mem_usedSlots {b : Block α} {i : Nat} :
    i ∈ b.usedSlots ↔ i < b.totalCount ∧ b.isUsed i := by
  simp [usedSlots]

lemma Sound.mem_usedSlots {b : Block α} (sound : b.Sound) {i : Nat} :
    i ∈ b.usedSlots ↔ b.isUsed i := by
  rw [Block.mem_usedSlots]
  exact ⟨fun h => h.2, fun h => ⟨sound.used_lt i h, h⟩⟩

lemma nodup_usedSlots (b : Block α) : b.usedSlots.Nodup :=
  List.nodup_range.filter _

/-- Two blocks of one size whose slots are used alike have the same used slots. -/
lemma usedSlots_congr {b b' : Block α} (size : b'.cellSize = b.cellSize)
    (used : ∀ i, b'.isUsed i = b.isUsed i) : b'.usedSlots = b.usedSlots := by
  have total : b'.totalCount = b.totalCount := by rw [totalCount, totalCount, size]
  rw [usedSlots, usedSlots, total]
  exact List.filter_congr fun i _ => used i

/-- A change that leaves every slot's use and the counters alone keeps a block sound. -/
lemma Sound.congr {b b' : Block α} (sound : b.Sound) (size : b'.cellSize = b.cellSize)
    (free : b'.freeCount = b.freeCount) (word : b'.nextFreeWord = b.nextFreeWord)
    (used : ∀ i, b'.isUsed i = b.isUsed i) : b'.Sound := by
  have total : b'.totalCount = b.totalCount := by rw [totalCount, totalCount, size]
  constructor
  · intro i hi
    rw [total]
    exact sound.used_lt i (used i ▸ hi)
  · exact total ▸ sound.fits
  · rw [free, total, usedSlots_congr size used]
    exact sound.books
  · intro i hi ht
    rw [used i]
    exact sound.full_below i (word ▸ hi) (total ▸ ht)

lemma isUsed_modifyCell (b : Block α) (i : Nat) (f : Cell α → Cell α) (j : Nat) :
    (b.modifyCell i f).isUsed j = b.isUsed j := by
  rw [isUsed_eq, isUsed_eq, cell?_modifyCell]
  split <;> simp

lemma isUsed_unmarkAll (b : Block α) (i : Nat) : b.unmarkAll.isUsed i = b.isUsed i := by
  simp [isUsed_eq]

lemma Sound.modifyCell {b : Block α} (sound : b.Sound) (i : Nat) (f : Cell α → Cell α) :
    (b.modifyCell i f).Sound :=
  sound.congr rfl rfl rfl (isUsed_modifyCell b i f)

lemma Sound.unmarkAll {b : Block α} (sound : b.Sound) : b.unmarkAll.Sound :=
  sound.congr rfl rfl rfl (isUsed_unmarkAll b)

lemma sound_create {cellSize : Nat} (valid : minCellSize ≤ cellSize) :
    (create cellSize : Block α).Sound := by
  constructor
  · intro i hi
    simp [isUsed_eq] at hi
  · have most : (create cellSize : Block α).totalCount ≤ (blockSize - blockHeader) / minCellSize :=
      Nat.div_le_div_left valid (by decide)
    exact most.trans (by decide)
  · have none_used : (create cellSize : Block α).usedSlots = [] := by
      simp [usedSlots, isUsed_eq]
    rw [none_used]
    rfl
  · intro i hi
    simp [create] at hi

lemma firstClear_eq_some_iff (b : Block α) {n start i : Nat} :
    b.firstClear n start = some i ↔
      start ≤ i ∧ i < start + n ∧ b.isUsed i = false ∧ ∀ j, start ≤ j → j < i → b.isUsed j := by
  induction n generalizing start with
  | zero =>
    simp only [firstClear]
    constructor
    · intro h
      cases h
    · rintro ⟨lo, hi, _⟩
      omega
  | succ n ih =>
    rw [firstClear]
    by_cases used : b.isUsed start
    · rw [if_pos used, ih]
      constructor
      · rintro ⟨lo, hi, clear, before⟩
        refine ⟨by omega, by omega, clear, ?_⟩
        intro j hj hji
        by_cases first : j = start
        · rw [first]
          exact used
        · exact before j (by omega) hji
      · rintro ⟨lo, hi, clear, before⟩
        have other : start ≠ i := by
          intro eq
          rw [eq, clear] at used
          cases used
        exact ⟨by omega, by omega, clear, fun j hj hji => before j (by omega) hji⟩
    · rw [if_neg used]
      have clear : b.isUsed start = false := Bool.eq_false_iff.mpr used
      constructor
      · intro h
        have same : start = i := Option.some.inj h
        subst same
        exact ⟨le_rfl, by omega, clear, fun j hj hji => by omega⟩
      · rintro ⟨lo, _, _, before⟩
        by_cases first : start = i
        · rw [first]
        · exact absurd (before start le_rfl (by omega)) used

lemma firstClear_isSome (b : Block α) {n start i : Nat} (lo : start ≤ i) (hi : i < start + n)
    (clear : b.isUsed i = false) : ∃ j, b.firstClear n start = some j ∧ j ≤ i := by
  induction n generalizing start with
  | zero => omega
  | succ n ih =>
    rw [firstClear]
    by_cases used : b.isUsed start
    · rw [if_pos used]
      have other : start ≠ i := by
        intro eq
        rw [eq, clear] at used
        cases used
      exact ih (by omega) (by omega)
    · rw [if_neg used]
      exact ⟨start, rfl, lo⟩

lemma nextSlot?_spec {b : Block α} {i : Nat} (h : b.nextSlot? = some i) :
    i < b.totalCount ∧ b.isUsed i = false ∧
      ∀ j, wordBits * b.nextFreeWord ≤ j → j < i → b.isUsed j := by
  rw [nextSlot?, Option.filter_eq_some_iff] at h
  obtain ⟨scan, bound⟩ := h
  obtain ⟨_, _, clear, before⟩ := b.firstClear_eq_some_iff.mp scan
  exact ⟨by simpa using bound, clear, before⟩

/-- The scan finds the lowest clear slot. -/
lemma Sound.used_below_nextSlot {b : Block α} (sound : b.Sound) {i : Nat}
    (h : b.nextSlot? = some i) : ∀ j, j < i → b.isUsed j := by
  obtain ⟨bound, _, before⟩ := nextSlot?_spec h
  intro j hj
  by_cases low : j < wordBits * b.nextFreeWord
  · exact sound.full_below j low (by omega)
  · exact before j (by omega) hj

/-- The scan begins before every clear slot. -/
lemma Sound.start_le {b : Block α} (sound : b.Sound) {i : Nat} (hi : i < b.totalCount)
    (clear : b.isUsed i = false) : wordBits * b.nextFreeWord ≤ i := by
  by_contra low
  have used := sound.full_below i (by omega) hi
  rw [clear] at used
  cases used

/-- A sound block that counts a free slot finds one. -/
lemma Sound.nextSlot?_isSome {b : Block α} (sound : b.Sound) (free : b.hasFree) :
    ∃ i, b.nextSlot? = some i := by
  have count : 0 < b.freeCount := by simpa [hasFree] using free
  obtain ⟨i, hi, clear⟩ : ∃ i, i < b.totalCount ∧ b.isUsed i = false := by
    by_contra none_clear
    push Not at none_clear
    have all_used : b.usedSlots = List.range b.totalCount :=
      List.filter_eq_self.mpr fun i hi => by
        simpa using none_clear i (List.mem_range.mp hi)
    have books := sound.books
    rw [all_used, List.length_range] at books
    omega
  have start := sound.start_le hi clear
  have words : i < wordBits * b.words := by
    rw [words, wordBits]
    omega
  obtain ⟨j, scan, le⟩ := b.firstClear_isSome start
    (show i < wordBits * b.nextFreeWord + (wordBits * b.words - wordBits * b.nextFreeWord) by omega)
    clear
  refine ⟨j, ?_⟩
  rw [nextSlot?, Option.filter_eq_some_iff]
  exact ⟨scan, by simpa using lt_of_le_of_lt le hi⟩

lemma Sound.fill {b : Block α} (sound : b.Sound) {i : Nat} (h : b.nextSlot? = some i)
    (c : Cell α) : (b.fill i c).Sound := by
  obtain ⟨bound, clear, _⟩ := nextSlot?_spec h
  have inside : i < bitmapBits := lt_of_lt_of_le bound sound.fits
  have used := b.isUsed_fill inside c
  constructor
  · intro j hj
    rw [used] at hj
    by_cases eq : i = j
    · exact eq ▸ bound
    · exact sound.used_lt j (by simpa [eq] using hj)
  · exact sound.fits
  · have one_more : (b.fill i c).usedSlots.length = b.usedSlots.length + 1 := by
      rw [length_usedSlots, length_usedSlots]
      refine countP_range_update bound clear (by simp [used]) ?_
      intro j hj
      simp [used, Ne.symm hj]
    have books := sound.books
    have room : b.usedSlots.length < b.totalCount := by
      rw [length_usedSlots]
      by_contra full
      have le := List.countP_le_length (p := b.isUsed) (l := List.range b.totalCount)
      rw [List.length_range] at le
      have all := List.countP_eq_length.mp
        (show (List.range b.totalCount).countP b.isUsed = (List.range b.totalCount).length by
          rw [List.length_range]; omega)
      have := all i (List.mem_range.mpr bound)
      rw [clear] at this
      cases this
    change b.freeCount - 1 + (b.fill i c).usedSlots.length = b.totalCount
    omega
  · intro j hj hjt
    rw [used]
    have below : j < i := by
      change j < wordBits * (i / wordBits) at hj
      have := Nat.mul_div_le i wordBits
      omega
    simp [sound.used_below_nextSlot h j below]

lemma Sound.release {b : Block α} (sound : b.Sound) {i : Nat} (h : b.isUsed i) :
    (b.release i).Sound := by
  have bound := sound.used_lt i h
  have used := b.isUsed_release i
  constructor
  · intro j hj
    rw [used] at hj
    split at hj
    · cases hj
    · exact sound.used_lt j hj
  · exact sound.fits
  · have one_less : b.usedSlots.length = (b.release i).usedSlots.length + 1 := by
      rw [length_usedSlots, length_usedSlots]
      refine countP_range_update bound (by simp [used]) h ?_
      intro j hj
      simp [used, Ne.symm hj]
    have books := sound.books
    change b.freeCount + 1 + (b.release i).usedSlots.length = b.totalCount
    omega
  · intro j hj hjt
    change j < wordBits * min b.nextFreeWord (i / wordBits) at hj
    have word : wordBits * min b.nextFreeWord (i / wordBits) ≤ wordBits * b.nextFreeWord :=
      Nat.mul_le_mul_left _ (Nat.min_le_left _ _)
    have other : i ≠ j := by
      have le := Nat.mul_le_mul_left wordBits (Nat.min_le_right b.nextFreeWord (i / wordBits))
      have := Nat.mul_div_le i wordBits
      omega
    rw [used]
    simp [other, sound.full_below j (by omega) hjt]

lemma Sound.foldl_release {b : Block α} (sound : b.Sound) {l : List Nat} (distinct : l.Nodup)
    (used : ∀ i ∈ l, b.isUsed i) : (l.foldl Block.release b).Sound := by
  induction l generalizing b with
  | nil => exact sound
  | cons i l ih =>
    rw [List.nodup_cons] at distinct
    refine ih (sound.release (used i List.mem_cons_self)) distinct.2 ?_
    intro j hj
    have other : i ≠ j := fun eq => distinct.1 (eq ▸ hj)
    rw [isUsed_release, if_neg other]
    exact used j (List.mem_cons_of_mem i hj)

lemma nodup_doomed (b : Block α) : b.doomed.Nodup := b.nodup_usedSlots.filter _

lemma mem_doomed {b : Block α} {i : Nat} :
    i ∈ b.doomed ↔ i ∈ b.usedSlots ∧ b.isMarked i = false := by
  simp [doomed]

lemma Sound.sweep {b : Block α} (sound : b.Sound) : b.sweep.Sound :=
  sound.foldl_release b.nodup_doomed fun _ hi => (Block.mem_usedSlots.mp (mem_doomed.mp hi).1).2

lemma freeCount_foldl_release (l : List Nat) (b : Block α) :
    (l.foldl release b).freeCount = b.freeCount + l.length := by
  induction l generalizing b with
  | nil => rfl
  | cons i l ih =>
    rw [List.foldl_cons, ih, List.length_cons]
    change b.freeCount + 1 + l.length = _
    omega

lemma freeCount_sweep (b : Block α) : b.sweep.freeCount = b.freeCount + b.doomed.length :=
  freeCount_foldl_release b.doomed b

lemma length_garbage (b : Block α) : b.garbage.length = b.doomed.length := by
  refine List.filterMap_length_eq_length.mpr fun i hi => ?_
  obtain ⟨c, hc⟩ := Option.isSome_iff_exists.mp (mem_usedSlots.mp (mem_doomed.mp hi).1).2
  rw [hc]
  rfl

/-- A sweep leaves exactly the marked cells. -/
lemma Sound.cell?_sweep {b : Block α} (sound : b.Sound) (i : Nat) :
    b.sweep.cell? i = (b.cell? i).filter Cell.isMarked := by
  rw [Block.sweep, cell?_foldl_release]
  cases hc : b.cell? i with
  | none => simp
  | some c =>
    have used : i ∈ b.usedSlots := sound.mem_usedSlots.mpr (by simp [isUsed_eq, hc])
    by_cases marked : c.isMarked
    · have spared : i ∉ b.doomed := fun h => by
        have := (mem_doomed.mp h).2
        simp [isMarked_eq, hc, marked] at this
      simp [spared, Option.filter_some, marked]
    · have taken : i ∈ b.doomed := mem_doomed.mpr ⟨used, by simp [isMarked_eq, hc, marked]⟩
      simp [taken, Option.filter_some, marked]

end Block

end CellMachine
