import CellMachine.Proofs.Heap.Bitmap

/-!
# First fit

An allocation takes the lowest slot of a block that is not in use, and it fails only in a full
block. The scan does not begin at the lowest slot, however: it begins at the word remembered from
the last allocation, or at an earlier one if a sweep has freed a slot there. What makes up for this
is that all words before the remembered one are full, after any operations in any order. So the
clear slots, in ascending order, are what allocation hands out one by one, whatever was remembered.
-/

namespace CellMachine

/-- What can be done with a block. -/
inductive BlockOp (α : Type) where
  | allocate (cell : Cell α)
  | mark (index : Nat)
  | unmark (index : Nat)
  | unmarkAll
  | sweep

/-- What an operation does to the words of a block in which some slots hold marked cells. -/
def Bitmap.perform {α : Type} (m : Bitmap) (isMarked : Nat → Bool) : BlockOp α → Bitmap
  | .allocate _ => (m.next?.map m.claim).getD m
  | .sweep => m.sweep isMarked
  | .mark _ => m
  | .unmark _ => m
  | .unmarkAll => m

namespace Block

variable {α : Type} {b : Block α} {i : Nat}

/-- Performs an operation; an allocation that finds no slot changes nothing. -/
def perform (b : Block α) : BlockOp α → Block α
  | .allocate cell => ((b.allocate? cell).map Prod.snd).getD b
  | .mark index => b.mark index
  | .unmark index => b.unmark index
  | .unmarkAll => b.unmarkAll
  | .sweep => b.sweep

def run (b : Block α) (ops : List (BlockOp α)) : Block α := ops.foldl perform b

/-- The slots that are not in use, lowest first. -/
def clearSlots (b : Block α) : List Nat := (List.range b.totalCount).filter fun i => !b.isUsed i

/-- What allocations of cells are given one after the other: a slot, or none. -/
def slotsFor (b : Block α) : List (Cell α) → List (Option Nat)
  | [] => []
  | cell :: rest =>
    match b.allocate? cell with
    | some (index, b') => some index :: b'.slotsFor rest
    | none => none :: b.slotsFor rest

/-- How a block gives out its slots. -/
structure FirstFit (b : Block α) : Prop where
  /-- An allocation puts its cell into the lowest slot that is not in use. -/
  lowest : ∀ c i b', b.allocate? c = some (i, b') ↔
    IsLeast { j | j < b.totalCount ∧ b.isUsed j = false } i ∧ b' = b.fill i c
  none_iff : ∀ c, b.allocate? c = none ↔ b.freeCount = 0
  full_iff : b.freeCount = 0 ↔ ∀ i < b.totalCount, b.isUsed i
  /-- Allocations in a row are given all clear slots in turn, and none after that. -/
  in_turn : ∀ cells, b.slotsFor cells = (List.range cells.length).map fun k => b.clearSlots[k]?
  bit : ∀ i, b.bitmap.bit i = b.isUsed i
  /-- No bit is set for which there is no slot. -/
  no_stray : ∀ i, b.totalCount ≤ i → b.bitmap.bit i = false
  full_words : ∀ w < b.nextFreeWord, b.bitmap.word w = BitVec.allOnes wordBits
  /-- No scan begins behind a clear slot, -/
  unhidden : ∀ i < b.totalCount, b.isUsed i = false → b.nextFreeWord ≤ i / wordBits
  /-- not even behind one that the sweep before it has freed. -/
  freed : ∀ i, b.isUsed i → b.isMarked i = false →
    i ∈ b.sweep.clearSlots ∧ b.sweep.nextFreeWord ≤ i / wordBits
  /-- The slot is found by looking at whole words. -/
  scanned : b.nextSlot? = b.bitmap.next?
  /-- Every operation is one on the words. -/
  written : ∀ op, (b.perform op).bitmap = b.bitmap.perform b.isMarked op

/-- A sound block whose remembered word begins no later than its slots end. -/
structure Kept (b : Block α) : Prop where
  sound : b.Sound
  remembered : wordBits * b.nextFreeWord ≤ b.totalCount

lemma kept_create {cellSize : Nat} (valid : minCellSize ≤ cellSize) :
    (create cellSize : Block α).Kept :=
  ⟨sound_create valid, Nat.zero_le _⟩

lemma Kept.fill (kept : b.Kept) (next : b.nextSlot? = some i) (c : Cell α) : (b.fill i c).Kept := by
  refine ⟨kept.sound.fill next c, ?_⟩
  have range := (nextSlot?_spec next).1
  exact (Nat.mul_div_le i wordBits).trans range.le

lemma nextFreeWord_foldl_release_le (l : List Nat) (b : Block α) :
    (l.foldl release b).nextFreeWord ≤ b.nextFreeWord := by
  induction l generalizing b with
  | nil => exact le_rfl
  | cons i l ih => exact (ih (b.release i)).trans (Nat.min_le_left _ _)

lemma totalCount_sweep (b : Block α) : b.sweep.totalCount = b.totalCount := by
  rw [totalCount, totalCount, cellSize_sweep]

lemma Kept.sweep (kept : b.Kept) : b.sweep.Kept := by
  refine ⟨kept.sound.sweep, ?_⟩
  rw [totalCount_sweep]
  exact (Nat.mul_le_mul_left _ (nextFreeWord_foldl_release_le _ b)).trans kept.remembered

lemma Kept.perform (kept : b.Kept) (op : BlockOp α) : (b.perform op).Kept := by
  cases op with
  | allocate cell =>
    cases next : b.nextSlot? with
    | none =>
      have same : b.perform (.allocate cell) = b := by simp [Block.perform, allocate?, next]
      rw [same]
      exact kept
    | some i =>
      have filled : b.perform (.allocate cell) = b.fill i cell := by
        simp [Block.perform, allocate?, next]
      rw [filled]
      exact kept.fill next cell
  | mark index => exact ⟨kept.sound.modifyCell index _, kept.remembered⟩
  | unmark index => exact ⟨kept.sound.modifyCell index _, kept.remembered⟩
  | unmarkAll => exact ⟨kept.sound.unmarkAll, kept.remembered⟩
  | sweep => exact kept.sweep

lemma Kept.run (kept : b.Kept) (ops : List (BlockOp α)) : (b.run ops).Kept := by
  induction ops generalizing b with
  | nil => exact kept
  | cons op ops ih => exact ih (kept.perform op)

lemma Kept.word_eq_allOnes (kept : b.Kept) {w : Nat} (before : w < b.nextFreeWord) :
    b.bitmap.word w = BitVec.allOnes wordBits := by
  refine (b.word_bitmap_eq_allOnes_iff w).mpr fun k range => ?_
  -- The whole word lies before the remembered one, so that all its bits are those of slots.
  have inside : wordBits * w + k < wordBits * b.nextFreeWord := by
    have next := Nat.mul_le_mul_left wordBits (Nat.succ_le_of_lt before)
    rw [Nat.mul_succ] at next
    omega
  exact kept.sound.full_below _ inside (lt_of_lt_of_le inside kept.remembered)

lemma mem_clearSlots : i ∈ b.clearSlots ↔ i < b.totalCount ∧ b.isUsed i = false := by
  simp [clearSlots]

lemma pairwise_clearSlots (b : Block α) : b.clearSlots.Pairwise (· < ·) :=
  List.pairwise_lt_range.filter _

lemma Sound.freeCount_eq_length (sound : b.Sound) : b.freeCount = b.clearSlots.length := by
  have split := List.length_eq_length_filter_add (l := List.range b.totalCount) b.isUsed
  have books := sound.books
  rw [List.length_range] at split
  rw [usedSlots] at books
  rw [clearSlots]
  omega

lemma Sound.nextFreeWord_le (sound : b.Sound) (clear : i ∈ b.clearSlots) :
    b.nextFreeWord ≤ i / wordBits := by
  obtain ⟨range, unused⟩ := mem_clearSlots.mp clear
  rw [Nat.le_div_iff_mul_le (by decide), Nat.mul_comm]
  exact sound.start_le range unused

lemma Sound.freeCount_eq_zero_iff (sound : b.Sound) : b.freeCount = 0 ↔ b.clearSlots = [] := by
  rw [sound.freeCount_eq_length, List.length_eq_zero_iff]

lemma Sound.nextSlot?_eq_none_iff (sound : b.Sound) : b.nextSlot? = none ↔ b.clearSlots = [] := by
  constructor
  · intro nowhere
    by_contra some_clear
    have counted : 0 < b.freeCount :=
      Nat.pos_of_ne_zero (mt sound.freeCount_eq_zero_iff.mp some_clear)
    obtain ⟨i, next⟩ := sound.nextSlot?_isSome (decide_eq_true counted)
    rw [nowhere] at next
    cases next
  · intro none_clear
    refine Option.eq_none_iff_forall_ne_some.mpr fun i next => ?_
    obtain ⟨range, unused, _⟩ := nextSlot?_spec next
    have clear : i ∈ b.clearSlots := mem_clearSlots.mpr ⟨range, unused⟩
    rw [none_clear] at clear
    cases clear

/-- The scan finds the lowest clear slot of all, though it does not look at all. -/
lemma Sound.nextSlot?_eq_some_iff (sound : b.Sound) :
    b.nextSlot? = some i ↔ IsLeast { j | j < b.totalCount ∧ b.isUsed j = false } i := by
  have least : ∀ i, b.nextSlot? = some i →
      IsLeast { j | j < b.totalCount ∧ b.isUsed j = false } i := by
    intro i next
    obtain ⟨range, unused, _⟩ := nextSlot?_spec next
    refine ⟨⟨range, unused⟩, fun j clear => ?_⟩
    by_contra before
    have used := sound.used_below_nextSlot next j (Nat.not_le.mp before)
    rw [clear.2] at used
    cases used
  refine ⟨least i, fun lowest => ?_⟩
  cases next : b.nextSlot? with
  | none =>
    have clear : i ∈ b.clearSlots := mem_clearSlots.mpr lowest.1
    rw [sound.nextSlot?_eq_none_iff.mp next] at clear
    cases clear
  | some j => rw [(least j next).unique lowest]

/-- An allocation takes the first of the clear slots and leaves the rest. -/
lemma Sound.clearSlots_eq_cons (sound : b.Sound) (next : b.nextSlot? = some i) (c : Cell α) :
    b.clearSlots = i :: (b.fill i c).clearSlots := by
  have lowest := sound.nextSlot?_eq_some_iff.mp next
  have inside : i < bitmapBits := lt_of_lt_of_le lowest.1.1 sound.fits
  have rest : ∀ j, j ∈ (b.fill i c).clearSlots ↔ j ∈ b.clearSlots ∧ i ≠ j := by
    intro j
    rw [mem_clearSlots, mem_clearSlots, isUsed_fill b inside]
    by_cases same : i = j
    · simp [same]
    · rw [if_neg same]
      exact ⟨fun clear => ⟨clear, same⟩, fun clear => clear.1⟩
  have ascending : (i :: (b.fill i c).clearSlots).Pairwise (· < ·) := by
    refine List.pairwise_cons.mpr ⟨fun j mem => ?_, pairwise_clearSlots _⟩
    obtain ⟨clear, other⟩ := (rest j).mp mem
    exact lt_of_le_of_ne (lowest.2 (mem_clearSlots.mp clear)) other
  -- Both lists rise, so that it is enough that they have the same members.
  refine b.pairwise_clearSlots.eq_of_mem_iff ascending fun j => ?_
  rw [List.mem_cons, rest j]
  by_cases same : i = j
  · simp [← same, mem_clearSlots.mpr lowest.1]
  · simp [same, Ne.symm same]

/-- The induction is on the cells to allocate: each but the first meets a block with one clear slot
less. -/
lemma Sound.slotsFor_eq (sound : b.Sound) (cells : List (Cell α)) :
    b.slotsFor cells = (List.range cells.length).map fun k => b.clearSlots[k]? := by
  induction cells generalizing b with
  | nil => rfl
  | cons c cells ih =>
    rw [List.length_cons, List.range_succ_eq_map, List.map_cons, List.map_map]
    cases next : b.nextSlot? with
    | none =>
      have full : b.clearSlots = [] := sound.nextSlot?_eq_none_iff.mp next
      have given : b.slotsFor (c :: cells) = none :: b.slotsFor cells := by
        simp [slotsFor, allocate?, next]
      rw [given, ih sound, full]
      rfl
    | some i =>
      have given : b.slotsFor (c :: cells) = some i :: (b.fill i c).slotsFor cells := by
        simp [slotsFor, allocate?, next]
      rw [given, ih (sound.fill next c), sound.clearSlots_eq_cons next c]
      rfl

lemma Sound.mem_clearSlots_sweep (sound : b.Sound) (used : b.isUsed i)
    (unmarked : b.isMarked i = false) : i ∈ b.sweep.clearSlots := by
  refine mem_clearSlots.mpr ⟨?_, ?_⟩
  · rw [totalCount_sweep]
    exact sound.used_lt i used
  · rw [isMarked_eq] at unmarked
    rw [isUsed_eq, sound.cell?_sweep]
    cases here : b.cell? i with
    | none => rfl
    | some c =>
      rw [here, Option.any_some] at unmarked
      simp [Option.filter_some, unmarked]

lemma Sound.bitmap_perform (sound : b.Sound) (op : BlockOp α) :
    (b.perform op).bitmap = b.bitmap.perform b.isMarked op := by
  cases op with
  | allocate cell =>
    rw [Block.perform, Bitmap.perform, allocate?, next?_bitmap]
    cases next : b.nextSlot? with
    | none => rfl
    | some i =>
      have range := (nextSlot?_spec next).1
      exact bitmap_fill (lt_of_lt_of_le range sound.fits) cell
  | mark index => exact bitmap_modifyCell b index _
  | unmark index => exact bitmap_modifyCell b index _
  | unmarkAll => exact bitmap_unmarkAll b
  | sweep => exact bitmap_sweep sound.fits

lemma Kept.firstFit (kept : b.Kept) : b.FirstFit := by
  have sound := kept.sound
  constructor
  · intro c i b'
    simp only [allocate?, Option.map_eq_some_iff, Prod.mk.injEq, ← sound.nextSlot?_eq_some_iff]
    constructor
    · rintro ⟨j, next, rfl, rfl⟩
      exact ⟨next, rfl⟩
    · rintro ⟨next, rfl⟩
      exact ⟨i, next, rfl, rfl⟩
  · intro c
    rw [allocate?, Option.map_eq_none_iff, sound.nextSlot?_eq_none_iff, sound.freeCount_eq_zero_iff]
  · rw [sound.freeCount_eq_zero_iff, List.eq_nil_iff_forall_not_mem]
    simp [mem_clearSlots]
  · exact sound.slotsFor_eq
  · exact b.bit_bitmap
  · intro i past
    rw [bit_bitmap]
    exact Bool.eq_false_iff.mpr fun used => Nat.not_lt.mpr past (sound.used_lt i used)
  · exact fun w => kept.word_eq_allOnes
  · exact fun i range unused => sound.nextFreeWord_le (mem_clearSlots.mpr ⟨range, unused⟩)
  · intro i used unmarked
    have clear := sound.mem_clearSlots_sweep used unmarked
    exact ⟨clear, sound.sweep.nextFreeWord_le clear⟩
  · exact b.next?_bitmap.symm
  · exact sound.bitmap_perform

/-- Blocks give out their slots first fit, whatever was done with them. -/
theorem firstFit_run {cellSize : Nat} (valid : minCellSize ≤ cellSize) (ops : List (BlockOp α)) :
    ((create cellSize : Block α).run ops).FirstFit :=
  ((kept_create valid).run ops).firstFit

/-- A block of eight cells that are all in use has no slot to give, until a sweep frees the only
one without a mark. -/
theorem firstFit_run_full :
    minCellSize ≤ 4064 ∧
      ∃ b : Block Nat,
        (create 4064).run (.replicate 8 (.allocate (Cell.fresh 1).mark) ++ [.unmark 5]) = b ∧
        b.FirstFit ∧ b.nextSlot? = none ∧ b.sweep.nextSlot? = some 5 := by
  have valid : minCellSize ≤ 4064 := by decide
  have full := firstFit_run (α := Nat) valid
    (.replicate 8 (.allocate (Cell.fresh 1).mark) ++ [.unmark 5])
  exact ⟨valid, _, rfl, full, by decide +kernel, by decide +kernel⟩

end Block

end CellMachine
