import CellMachine.Proofs.Heap.Allocator

/-!
# The accounts of an allocator

Three things say how much of an allocator is free: the bitmaps of its blocks, the
counter of each block, and the allocator's own count with its list of offered blocks.
They are changed in different places, and a sweep builds the last one anew. Here they
agree after every sequence of operations, so that an allocation always finds a slot.
-/

namespace CellMachine

/-- An order in which to go through the blocks of an allocator, however many it has. -/
structure Tour where
  blocks : Nat → List Nat
  all : ∀ n, (blocks n).Perm (List.range n)

/-- What the owner of an allocator can do with it. -/
inductive AllocatorOp (α : Type) where
  | allocate (cell : Cell α)
  | mark (slot : Slot)
  | unmark (slot : Slot)
  | unmarkAll
  | sweep (tour : Tour)
  | addBlocks (count : Nat)
  | growTo (target : Fin 100)

namespace Block

variable {α : Type}

/-- How many bits below the block's number of cells are clear. -/
def clearBits (b : Block α) : Nat :=
  (List.range b.totalCount).countP fun i => b.bit? i == some false

lemma Sound.freeCount_eq_clearBits {b : Block α} (sound : b.Sound) :
    b.freeCount = b.clearBits := by
  have clear : b.clearBits = (List.range b.totalCount).countP fun i => !b.isUsed i := by
    apply List.countP_congr
    intro i hi
    have inside : i < bitmapBits := lt_of_lt_of_le (List.mem_range.mp hi) sound.fits
    simp [bit?, isUsed, cell?, inside]
  have split := List.length_eq_countP_add_countP b.isUsed (l := List.range b.totalCount)
  rw [List.length_range] at split
  have books := sound.books
  rw [length_usedSlots] at books
  simp only [Bool.not_eq_true, Bool.decide_eq_false] at split
  omega

end Block

namespace Allocator

variable {α : Type}

/-- Performs an operation; `none` when an allocation is offered a full block. -/
def perform (a : Allocator α) : AllocatorOp α → Option (Allocator α)
  | .allocate cell => (a.allocate? cell).map Prod.snd
  | .mark slot => some (a.modifyCell slot Cell.mark)
  | .unmark slot => some (a.modifyCell slot Cell.unmark)
  | .unmarkAll => some a.unmarkAll
  | .sweep tour => some (a.sweepInOrder (tour.blocks a.blockCount))
  | .addBlocks count => some (a.addBlocks count)
  | .growTo target => some (a.growTo target)

def run (a : Allocator α) (ops : List (AllocatorOp α)) : Option (Allocator α) :=
  ops.foldlM perform a

/-- An allocator later: the same blocks at the same places, and perhaps more of them. -/
structure Keeps (a a' : Allocator α) : Prop where
  cellSize : a'.cellSize = a.cellSize
  place : a'.place = a.place
  blocks : a.blockCount ≤ a'.blockCount

lemma Keeps.refl (a : Allocator α) : a.Keeps a := ⟨rfl, rfl, le_rfl⟩

lemma Keeps.trans {a b c : Allocator α} (first : a.Keeps b) (second : b.Keeps c) : a.Keeps c :=
  ⟨second.cellSize.trans first.cellSize, second.place.trans first.place,
    first.blocks.trans second.blocks⟩

@[simp] lemma blockCount_addBlock (a : Allocator α) :
    a.addBlock.blockCount = a.blockCount + 1 := by
  simp [blockCount, addBlock, offer]

@[simp] lemma blockCount_addBlocks (n : Nat) (a : Allocator α) :
    (a.addBlocks n).blockCount = a.blockCount + n := by
  induction n generalizing a with
  | zero => rfl
  | succ n ih =>
    rw [addBlocks, ih, blockCount_addBlock]
    omega

lemma keeps_modifyCell (a : Allocator α) (s : Slot) (f : Cell α → Cell α) :
    a.Keeps (a.modifyCell s f) :=
  ⟨rfl, rfl, by simp [blockCount, Allocator.modifyCell]⟩

lemma keeps_unmarkAll (a : Allocator α) : a.Keeps a.unmarkAll :=
  ⟨rfl, rfl, by simp [blockCount, Allocator.unmarkAll]⟩

lemma keeps_addBlocks (a : Allocator α) (n : Nat) : a.Keeps (a.addBlocks n) :=
  ⟨cellSize_addBlocks n a, place_addBlocks n a, by simp⟩

lemma keeps_ensureRoom (a : Allocator α) : a.Keeps a.ensureRoom := by
  obtain ⟨n, grown⟩ := a.exists_ensureRoom_eq_addBlocks
  rw [grown]
  exact a.keeps_addBlocks n

lemma keeps_growTo (a : Allocator α) (percent : Nat) : a.Keeps (a.growTo percent) := by
  obtain ⟨n, grown⟩ := a.exists_growTo_eq_addBlocks percent
  rw [grown]
  exact a.keeps_addBlocks n

lemma blockCount_fill (a : Allocator α) (s : Slot) (c : Cell α) :
    (a.fill s c).blockCount = a.blockCount := by
  rw [blockCount, blocks_fill, Array.size_modify, blockCount]

lemma keeps_fill (a : Allocator α) (s : Slot) (c : Cell α) : a.Keeps (a.fill s c) :=
  ⟨cellSize_fill a s c, place_fill a s c, (blockCount_fill a s c).ge⟩

lemma keeps_sweepInOrder {a : Allocator α} {order : List Nat}
    (all : order.Perm (List.range a.blockCount)) : a.Keeps (a.sweepInOrder order) := by
  have along := a.sweptAlong_sweepInOrder all
  exact ⟨along.cellSize, along.place, (blockCount_sweepInOrder all).ge⟩

/-- An allocation that took `s` out of `a`. -/
structure Takes (a : Allocator α) (c : Cell α) (s : Slot) (a' : Allocator α) : Prop where
  /-- The slot is one of a block that is owned now. -/
  owned : s.block < a'.blockCount
  bound : s.index < a'.cellsPerBlock
  unused : a.cell? s = none
  filled : a'.cell? s = some c
  others : ∀ t, t ≠ s → a'.cell? t = a.cell? t

lemma Sound.ensureRoom {a : Allocator α} (sound : a.Sound) : a.ensureRoom.Sound := by
  obtain ⟨n, grown⟩ := a.exists_ensureRoom_eq_addBlocks
  rw [grown]
  exact sound.addBlocks n

lemma cell?_ensureRoom (a : Allocator α) (s : Slot) : a.ensureRoom.cell? s = a.cell? s := by
  obtain ⟨n, grown⟩ := a.exists_ensureRoom_eq_addBlocks
  rw [grown, cell?_addBlocks]

/-- A sound allocator is never stuck on a full block. -/
lemma Sound.allocate?_takes {a : Allocator α} (sound : a.Sound) (c : Cell α) :
    ∃ s a', a.allocate? c = some (s, a') ∧ a'.Sound ∧ a.Keeps a' ∧ a.Takes c s a' := by
  obtain ⟨s, next⟩ := sound.nextSlot?_ensureRoom
  have kept := keeps_fill a.ensureRoom s c
  refine ⟨s, a.ensureRoom.fill s c, by simp [allocate?, next], sound.ensureRoom.fill next c,
    a.keeps_ensureRoom.trans kept, ?_⟩
  obtain ⟨_, b, hb, index⟩ := nextSlot?_eq_some_iff.mp next
  have written := cell?_fill sound.ensureRoom next c
  constructor
  · exact lt_of_lt_of_le (Array.getElem?_eq_some_iff.mp hb).1 kept.blocks
  · rw [cellsPerBlock, kept.cellSize, ← (sound.ensureRoom.block _ b hb).2]
    exact (Block.nextSlot?_spec index).1
  · rw [← cell?_ensureRoom]
    exact cell?_nextSlot next
  · rw [written, if_pos rfl]
  · intro t other
    rw [written, if_neg (Ne.symm other), cell?_ensureRoom]

/-- No block is offered exactly if none has a free cell. -/
lemma Sound.freeBlocks_eq_nil_iff {a : Allocator α} (sound : a.Sound) :
    a.freeBlocks = [] ↔ a.freeCells = 0 := by
  constructor
  · intro none_offered
    rw [sound.books]
    refine List.sum_eq_zero fun n mem => ?_
    obtain ⟨b, hb, rfl⟩ := List.mem_map.mp mem
    obtain ⟨i, hi⟩ := Array.mem_iff_getElem?.mp (Array.mem_toList_iff.mp hb)
    have not_offered : i ∉ a.freeBlocks := none_offered ▸ List.not_mem_nil
    rw [sound.mem_offered, hi, Option.any_some, Block.hasFree, decide_eq_true_iff] at not_offered
    omega
  · intro full
    refine List.eq_nil_iff_forall_not_mem.mpr fun i offered => ?_
    obtain ⟨b, hb, free⟩ := (Option.any_eq_true _ _).mp ((sound.mem_offered i).mp offered)
    have counted : b.freeCount ∈ a.blocks.toList.map Block.freeCount :=
      List.mem_map_of_mem (Array.mem_toList_iff.mpr (Array.mem_of_getElem? hb))
    have le := List.single_le_sum (fun _ _ => Nat.zero_le _) _ counted
    rw [← sound.books, full] at le
    rw [Block.hasFree, decide_eq_true_iff] at free
    omega

/-- Whether a block is added depends on the free cells alone. -/
lemma Sound.ensureRoom_eq_addBlocks {a : Allocator α} (sound : a.Sound) :
    a.ensureRoom = a.addBlocks (if a.freeCells = 0 then 1 else 0) := by
  by_cases full : a.freeCells = 0
  · rw [if_pos full, Allocator.ensureRoom, sound.freeBlocks_eq_nil_iff.mpr full]
    rfl
  · rw [if_neg full, Allocator.ensureRoom]
    split
    · rename_i none_offered
      exact absurd (sound.freeBlocks_eq_nil_iff.mp none_offered) full
    · rfl

lemma Sound.freeCells_le {a : Allocator α} (sound : a.Sound) : a.freeCells ≤ a.totalCells := by
  have books := sound.freeCells_add_usedSlots
  omega

lemma Sound.totalCells_pos {a : Allocator α} (sound : a.Sound) (some_block : 0 < a.blockCount) :
    0 < a.totalCells :=
  Nat.mul_pos some_block sound.cellsPerBlock_pos

/-- While less than a percentage below a hundred is free, the free cells are fewer than
ninety-nine times the used ones. -/
lemma freeCells_lt_of_percentage_lt {a : Allocator α} (sound : a.Sound) {percent : Nat}
    (below : percent < 100) (nonempty : 0 < a.totalCells) (short : a.percentage < percent) :
    a.freeCells < 99 * a.usedSlots.length := by
  rw [percentage, percentFree, if_neg (Nat.ne_of_gt nonempty),
    Nat.div_lt_iff_lt_mul nonempty] at short
  have most : percent * a.totalCells ≤ 99 * a.totalCells :=
    Nat.mul_le_mul_right _ (Nat.le_of_lt_succ below)
  have books := sound.freeCells_add_usedSlots
  omega

/-- Each round of growing adds a free cell and no used one, so that the rounds allowed
suffice. -/
lemma Sound.percentage_growBy {percent : Nat} (below : percent < 100) (fuel : Nat)
    {a : Allocator α} (sound : a.Sound) (enough : 100 * a.usedSlots.length + 1 ≤ fuel + a.freeCells) :
    percent ≤ (a.growBy percent fuel).percentage := by
  induction fuel generalizing a with
  | zero =>
    rw [growBy]
    by_contra short
    have books := sound.freeCells_add_usedSlots
    have few := freeCells_lt_of_percentage_lt sound below (by omega) (by omega)
    omega
  | succ fuel ih =>
    rw [growBy]
    split
    · have grown := sound.addBlock.freeCells_add_usedSlots
      have books := sound.freeCells_add_usedSlots
      have room := sound.cellsPerBlock_pos
      rw [totalCells, blockCount_addBlock, cellsPerBlock, cellSize_addBlock, Nat.succ_mul,
        freeCells_addBlock] at grown
      rw [totalCells, cellsPerBlock] at books
      refine ih sound.addBlock ?_
      rw [freeCells_addBlock]
      omega
    · omega

lemma Sound.percentage_growTo {a : Allocator α} (sound : a.Sound) {percent : Nat}
    (below : percent < 100) : percent ≤ (a.growTo percent).percentage := by
  refine sound.percentage_growBy below _ ?_
  have books := sound.freeCells_add_usedSlots
  omega

/-- The three views of what is free agree. -/
structure Accounted (a : Allocator α) : Prop where
  freeCells : a.freeCells = (a.blocks.toList.map Block.freeCount).sum
  freeCount : ∀ b ∈ a.blocks, b.freeCount = b.clearBits
  /-- A block with a free cell is offered once, a full one never. -/
  offered : ∀ i b, a.blocks[i]? = some b →
    a.freeBlocks.count i = if 0 < b.clearBits then 1 else 0
  /-- Only blocks that are owned are offered. -/
  owned : ∀ i ∈ a.freeBlocks, i < a.blockCount
  percentage_empty : a.blockCount = 0 → a.percentage = 0
  percentage : 0 < a.blockCount → a.percentage = 100 * a.freeCells / a.totalCells
  percentage_le : a.percentage ≤ 100

lemma Sound.accounted {a : Allocator α} (sound : a.Sound) : a.Accounted := by
  have clear : ∀ (i : Nat) (b : Block α), a.blocks[i]? = some b → b.freeCount = b.clearBits :=
    fun i b hb => (sound.block i b hb).1.freeCount_eq_clearBits
  constructor
  · exact sound.books
  · intro b hb
    obtain ⟨i, hi⟩ := Array.mem_iff_getElem?.mp hb
    exact clear i b hi
  · intro i b hb
    rw [List.Nodup.count sound.offered_nodup]
    simp [sound.mem_offered, hb, Block.hasFree, clear i b hb]
  · intro i hi
    have free := (sound.mem_offered i).mp hi
    by_contra outside
    rw [Array.getElem?_eq_none (Nat.le_of_not_lt outside)] at free
    cases free
  · intro none_owned
    rw [Allocator.percentage, percentFree, totalCells, none_owned, Nat.zero_mul, if_pos rfl]
  · intro some_owned
    rw [Allocator.percentage, percentFree, if_neg (Nat.ne_of_gt (sound.totalCells_pos some_owned)),
      Nat.mul_comm]
  · exact percentFree_le sound.freeCells_le

lemma Sound.perform {a : Allocator α} (sound : a.Sound) (op : AllocatorOp α) :
    ∃ a', a.perform op = some a' ∧ a'.Sound ∧ a.Keeps a' := by
  cases op with
  | allocate cell =>
    obtain ⟨s, a', taken, sound', kept, _⟩ := sound.allocate?_takes cell
    exact ⟨a', by simp [Allocator.perform, taken], sound', kept⟩
  | mark slot => exact ⟨_, rfl, sound.modifyCell slot _, a.keeps_modifyCell slot _⟩
  | unmark slot => exact ⟨_, rfl, sound.modifyCell slot _, a.keeps_modifyCell slot _⟩
  | unmarkAll => exact ⟨_, rfl, sound.unmarkAll, a.keeps_unmarkAll⟩
  | sweep tour =>
    have all := tour.all a.blockCount
    exact ⟨_, rfl, sound.sweepInOrder all, keeps_sweepInOrder all⟩
  | addBlocks count => exact ⟨_, rfl, sound.addBlocks count, a.keeps_addBlocks count⟩
  | growTo target =>
    obtain ⟨n, grown⟩ := a.exists_growTo_eq_addBlocks target
    exact ⟨_, rfl, grown ▸ sound.addBlocks n, a.keeps_growTo target⟩

lemma Sound.run {a : Allocator α} (sound : a.Sound) (ops : List (AllocatorOp α)) :
    ∃ a', a.run ops = some a' ∧ a'.Sound ∧ a.Keeps a' := by
  induction ops generalizing a with
  | nil => exact ⟨a, rfl, sound, .refl a⟩
  | cons op ops ih =>
    obtain ⟨b, performed, sound_b, kept_b⟩ := sound.perform op
    obtain ⟨a', rest, sound', kept'⟩ := ih sound_b
    refine ⟨a', ?_, sound', kept_b.trans kept'⟩
    rw [Allocator.run, List.foldlM_cons, performed]
    exact rest

/-- What holds of an allocator whatever was done with it. -/
structure InOrder (a : Allocator α) : Prop where
  accounted : a.Accounted
  /-- Allocation finds a slot that nothing used and leaves all others alone. -/
  allocates : ∀ c, ∃ s a', a.allocate? c = some (s, a') ∧ a.Takes c s a'
  /-- Growing to a percentage ends with that percentage free. -/
  grows : ∀ target < 100, target ≤ (a.growTo target).percentage
  /-- No block is ever lost. -/
  keeps : ∀ ops, ∃ a', a.run ops = some a' ∧ a.Keeps a'

/-- The accounts of an allocator are in order after any operations in any order. -/
theorem inOrder_run {cellSize : Nat} (valid : Settings.classFault? cellSize = none)
    (place : Nat → Nat) (ops : List (AllocatorOp α)) :
    ∃ a, (create cellSize place).run ops = some a ∧ a.InOrder := by
  obtain ⟨a, ran, sound, _⟩ := (sound_create (α := α) valid place).run ops
  refine ⟨a, ran, sound.accounted, ?_, fun target below => sound.percentage_growTo below, ?_⟩
  · intro c
    obtain ⟨s, a', taken, _, _, takes⟩ := sound.allocate?_takes c
    exact ⟨s, a', taken, takes⟩
  · intro more
    obtain ⟨a', ran', _, kept⟩ := sound.run more
    exact ⟨a', ran', kept⟩

/-- Two cells in blocks of sixty-four bytes, one of which a sweep takes back. -/
theorem inOrder_run_two_cells :
    Settings.classFault? 64 = none ∧
      ∃ a, (create 64 id : Allocator Nat).run
        [.allocate (.fresh 1), .allocate (.fresh 2), .mark ⟨0, 1⟩,
          .sweep ⟨List.range, fun _ => .refl _⟩, .growTo 20] = some a ∧ a.InOrder :=
  ⟨by decide, inOrder_run (by decide) id _⟩

end Allocator

end CellMachine
