import CellMachine.Proofs.Heap.Growth

/-!
# The layout that accepted settings give

A few checks on the settings are all that stands between a list of numbers and a heap. Here they
are followed to what the heap relies on: the slots of a block are aligned, apart and inside, each
with a bit of its own, a class has room for every payload that it is chosen for, and no step of an
allocator divides by zero or adds a block that brings nothing.
-/

namespace CellMachine

/-- The word of the bitmap that has a slot's bit, and the place of the bit in it. -/
def bitPlace (index : Nat) : Nat × Nat := (index / wordBits, index % wordBits)

lemma bitPlace_injective : Function.Injective bitPlace := by
  intro i j same
  obtain ⟨word, place⟩ := Prod.mk.inj same
  rw [← Nat.div_add_mod i wordBits, word, place, Nat.div_add_mod]

namespace Block

variable {α : Type} {b : Block α} {i j : Nat}

/-- How a block's slots and their bits lie. -/
structure LaidOut (b : Block α) : Prop where
  eight_cells : 8 ≤ b.totalCount
  /-- Blocks start at multiples of their size. -/
  aligned : ∀ start i, blockSize ∣ start → 16 ∣ start + b.offsetOf i
  behind_header : ∀ i, 160 ≤ b.offsetOf i
  inside : ∀ i < b.totalCount, b.offsetOf i + b.cellSize ≤ 32768
  apart : ∀ i j, i < j → b.offsetOf i + b.cellSize ≤ b.offsetOf j
  /-- The bitmap has sixteen words of sixty-four bits. -/
  bit_place : ∀ i < b.totalCount, (bitPlace i).1 < 16 ∧ (bitPlace i).2 < 64
  own_place : ∀ i j, bitPlace i = bitPlace j → i = j
  /-- A slot has a bit, which taking and releasing the slot change, and no others. -/
  has_bit : ∀ i < b.totalCount, (b.bit? i).isSome
  bit_fill : ∀ i < b.totalCount, ∀ c j,
    (b.fill i c).bit? j = if i = j then some true else b.bit? j
  bit_release : ∀ i < b.totalCount, ∀ j,
    (b.release i).bit? j = if i = j then some false else b.bit? j

lemma bit?_fill (inside : i < bitmapBits) (c : Cell α) :
    (b.fill i c).bit? j = if i = j then some true else b.bit? j := by
  by_cases same : i = j
  · subst same
    simp [bit?, fill, inside]
  · simp [bit?, fill, same]

lemma bit?_release (inside : i < bitmapBits) :
    (b.release i).bit? j = if i = j then some false else b.bit? j := by
  by_cases same : i = j
  · subst same
    simp [bit?, release, inside]
  · simp [bit?, release, same]

lemma totalCount_le (large : minCellSize ≤ b.cellSize) : b.totalCount ≤ bitmapBits := by
  have most : b.totalCount ≤ (blockSize - blockHeader) / minCellSize :=
    Nat.div_le_div_left large (by decide)
  exact most.trans (by decide)

/-- Any block of a class that settings may have is laid out well. -/
lemma laidOut (valid : Settings.classFault? b.cellSize = none) : b.LaidOut := by
  obtain ⟨large, aligned, many⟩ := Settings.classFault?_eq_none_iff.mp valid
  have bits := totalCount_le large
  constructor
  · exact many
  · intro start i block
    have header : cellAlign ∣ blockHeader := by decide
    have whole : cellAlign ∣ blockSize := by decide
    exact (whole.trans block).add (header.add (aligned.mul_left i))
  · intro i
    exact Nat.le_add_right blockHeader _
  · intro i range
    have fits := slot_end_le range
    rw [Nat.succ_mul] at fits
    rw [offsetOf]
    exact (Nat.add_assoc _ _ _).trans_le fits
  · intro i j before
    have next : (i + 1) * b.cellSize ≤ j * b.cellSize := Nat.mul_le_mul_right _ before
    rw [Nat.succ_mul] at next
    rw [offsetOf, offsetOf]
    omega
  · intro i range
    have below : i < 1024 := lt_of_lt_of_le range bits
    constructor
    · change i / 64 < 16
      omega
    · change i % 64 < 64
      omega
  · exact fun i j same => bitPlace_injective same
  · intro i range
    have below : i < bitmapBits := lt_of_lt_of_le range bits
    simp [bit?, below]
  · exact fun i range c j => bit?_fill (lt_of_lt_of_le range bits) c
  · exact fun i range j => bit?_release (lt_of_lt_of_le range bits)

end Block

namespace Allocator

variable {α : Type} {a : Allocator α}

/-- Every division of an allocator is by something, and every block it adds helps. -/
structure Progresses (a : Allocator α) : Prop where
  cellSize_pos : 0 < a.cellSize
  totalCells_pos : 0 < a.blockCount → 0 < a.totalCells
  percentage : 0 < a.blockCount → a.percentage = 100 * a.freeCells / a.totalCells
  percentage_le : a.percentage ≤ 100
  block_brings : 8 ≤ a.cellsPerBlock
  addBlock_total : a.addBlock.totalCells = a.totalCells + a.cellsPerBlock
  addBlock_free : a.addBlock.freeCells = a.freeCells + a.cellsPerBlock
  allocates : ∀ c, (a.allocate? c).isSome
  /-- Growing goes on block by block while the target is missed, and comes to an end. -/
  grows : ∀ target < 100, ∃ n, a.growTo target = a.addBlocks n ∧
    target ≤ (a.addBlocks n).percentage ∧ ∀ m < n, (a.addBlocks m).percentage < target

lemma Sound.percentage_addBlocks (sound : a.Sound) (n : Nat) :
    (a.addBlocks n).percentage = percentIn a.cellsPerBlock a.liveCells (a.blockCount + n) := by
  rw [(sound.addBlocks n).percentage_eq, sound.liveCells_addBlocks, blockCount_addBlocks,
    cellsPerBlock, cellSize_addBlocks, cellsPerBlock]

lemma Sound.exists_growTo_eq_addBlocks (sound : a.Sound) {target : Nat} (below : target < 100) :
    ∃ n, a.growTo target = a.addBlocks n ∧ target ≤ (a.addBlocks n).percentage ∧
      ∀ m < n, (a.addBlocks m).percentage < target := by
  obtain ⟨n, grown⟩ := a.exists_growTo_eq_addBlocks target
  have reached := sound.percentage_growTo below
  refine ⟨n, grown, grown ▸ reached, fun m fewer => ?_⟩
  have blocks : (a.growTo target).blockCount = a.blockCount + n := by
    rw [grown, blockCount_addBlocks]
  have stopped_later : a.blockCount + m < (a.growTo target).blockCount := by omega
  rw [sound.percentage_addBlocks]
  exact sound.short_of_lt_growBy _ (Nat.le_add_right a.blockCount m) stopped_later

lemma Sound.progresses (sound : a.Sound) : a.Progresses := by
  obtain ⟨large, -, many⟩ := Settings.classFault?_eq_none_iff.mp sound.size_valid
  have accounted := sound.accounted
  constructor
  · exact lt_of_lt_of_le (by decide : 0 < minCellSize) large
  · exact sound.totalCells_pos
  · exact accounted.percentage
  · exact accounted.percentage_le
  · exact many
  · rw [totalCells, blockCount_addBlock, cellsPerBlock, cellSize_addBlock, Nat.succ_mul]
    rfl
  · exact freeCells_addBlock a
  · intro c
    obtain ⟨s, a', taken, _⟩ := sound.allocate?_takes c
    rw [taken]
    rfl
  · exact fun target below => sound.exists_growTo_eq_addBlocks below

end Allocator

namespace Settings

variable {s : Settings}

/-- What settings give to every heap that is made with them. -/
structure LaysOut (s : Settings) : Prop where
  /-- The smallest class with room for the header and the payload is chosen. -/
  smallest : ∀ bytes c, s.classFor? (cellHeader + bytes) = some c ↔
    ∃ size, s.sizeClasses[c]? = some size ∧ cellHeader + bytes ≤ size ∧
      ∀ other ∈ s.sizeClasses, cellHeader + bytes ≤ other → size ≤ other
  /-- Only what is too big for the largest class gets none. -/
  too_large : ∃ largest ∈ s.sizeClasses, (∀ size ∈ s.sizeClasses, size ≤ largest) ∧
    ∀ bytes, s.classFor? (cellHeader + bytes) = none ↔ largest < cellHeader + bytes
  block : ∀ {α : Type} (b : Block α), b.cellSize ∈ s.sizeClasses → b.LaidOut
  /-- The allocators of a heap are those of the classes, whatever was done with the heap. -/
  heap : ∀ {α : Type} [Payload α] (h : Heap α), h.Reachable → h.settings = s → ∀ (c : Nat) a,
    h.allocators[c]? = some a → s.sizeClasses[c]? = some a.cellSize ∧ a.Progresses ∧
      ∀ b ∈ a.blocks, b.cellSize = a.cellSize ∧ b.LaidOut
  /-- The growth that a heap asks for reaches the target. -/
  grow : ∀ {α : Type} [Payload α] (h : Heap α), h.Reachable → h.settings = s → ∀ (c : Nat) a,
    h.allocators[c]? = some a →
      ∃ a', (h.grow c).allocators[c]? = some a' ∧ s.target ≤ a'.percentage

/-- Accepted settings give a sound layout. -/
theorem laysOut (accepted : s.fault? = none) : s.LaysOut := by
  have facts := fault?_eq_none_iff.mp accepted
  constructor
  · exact fun bytes c => facts.classFor?_eq_some_iff
  · obtain ⟨largest, mem, le, chosen⟩ := facts.exists_largest
    exact ⟨largest, mem, le, fun bytes => chosen _⟩
  · intro α b mem
    apply Block.laidOut
    exact classFault?_eq_none_iff.mpr ⟨facts.large _ mem, facts.aligned _ mem, facts.many _ mem⟩
  · rintro α _ h reachable rfl c a here
    have sound := reachable.sound.allocator c a here
    have size := reachable.sound.sizes c
    rw [here, Option.map_some] at size
    refine ⟨size.symm, sound.progresses, fun b mem => ?_⟩
    obtain ⟨i, hi⟩ := Array.mem_iff_getElem?.mp mem
    have same := (sound.block i b hi).2
    refine ⟨same, Block.laidOut ?_⟩
    rw [same]
    exact sound.size_valid
  · rintro α _ h reachable rfl c a here
    have sound := reachable.sound.allocator c a here
    refine ⟨a.growTo h.settings.target, ?_, sound.percentage_growTo facts.target_lt⟩
    rw [Heap.grow, Heap.getElem?_modifyClass, here, if_pos rfl]
    rfl

/-- The usual classes: a payload of thirty-three bytes goes to the class of ninety-six. -/
theorem laysOut_standard : standard.fault? = none ∧ standard.LaysOut ∧
    standard.classFor? (cellHeader + 33) = some 3 ∧
    standard.classFor? (cellHeader + 480) = some 7 ∧
    standard.classFor? (cellHeader + 481) = none :=
  ⟨by decide, laysOut (by decide), by decide, by decide, by decide⟩

end Settings

end CellMachine
