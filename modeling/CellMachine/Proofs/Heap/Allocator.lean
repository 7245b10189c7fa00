import CellMachine.Heap.Allocator
import CellMachine.Proofs.Heap.Block
import CellMachine.Proofs.Heap.Settings

/-!
# The books of an allocator

An allocator is sound when its blocks are, its count of free cells is the sum over the
blocks and the list of offered blocks names each block with a free slot once. Growing
never touches a cell, filling touches one slot that was clear, and a sweep leaves the
marked cells, in whatever order it goes through the blocks.
-/

namespace CellMachine

namespace Allocator

variable {α : Type}

structure Sound (a : Allocator α) : Prop where
  size_valid : Settings.classFault? a.cellSize = none
  block : ∀ (i : Nat) (b : Block α), a.blocks[i]? = some b → b.Sound ∧ b.cellSize = a.cellSize
  books : a.freeCells = (a.blocks.toList.map Block.freeCount).sum
  offered_nodup : a.freeBlocks.Nodup
  mem_offered : ∀ i, i ∈ a.freeBlocks ↔ (a.blocks[i]?).any Block.hasFree

lemma Sound.minCellSize_le {a : Allocator α} (sound : a.Sound) : minCellSize ≤ a.cellSize :=
  (Settings.classFault?_eq_none_iff.mp sound.size_valid).1

lemma sound_create {cellSize : Nat} (valid : Settings.classFault? cellSize = none)
    (place : Nat → Nat) : (create cellSize place : Allocator α).Sound := by
  constructor
  · exact valid
  · intro i b h
    simp [create] at h
  · rfl
  · exact List.nodup_nil
  · intro i
    simp [create]

lemma cell?_eq_some_iff {a : Allocator α} {s : Slot} {c : Cell α} :
    a.cell? s = some c ↔ ∃ b, a.blocks[s.block]? = some b ∧ b.cell? s.index = some c := by
  rw [cell?, Option.bind_eq_some_iff]

@[simp] lemma cell?_create (cellSize : Nat) (place : Nat → Nat) (s : Slot) :
    (create cellSize place : Allocator α).cell? s = none := by
  simp [cell?, create]

lemma cell?_modifyCell (a : Allocator α) (s : Slot) (f : Cell α → Cell α) (t : Slot) :
    (a.modifyCell s f).cell? t = if s = t then (a.cell? t).map f else a.cell? t := by
  rw [cell?, cell?, modifyCell, Array.getElem?_modify]
  obtain ⟨i, k⟩ := s
  obtain ⟨j, l⟩ := t
  by_cases block : i = j
  · subst block
    cases hb : a.blocks[i]? with
    | none => simp
    | some b =>
      by_cases index : k = l
      · simp [index, Block.cell?_modifyCell]
      · simp [index, Block.cell?_modifyCell]
  · simp [block]

@[simp] lemma cell?_unmarkAll (a : Allocator α) (s : Slot) :
    a.unmarkAll.cell? s = (a.cell? s).map Cell.unmark := by
  rw [cell?, cell?, unmarkAll, Array.getElem?_map]
  cases a.blocks[s.block]? <;> simp

/-- A change block by block that keeps sizes, counters and the use of every slot. -/
lemma Sound.congr {a a' : Allocator α} (sound : a.Sound) (size : a'.cellSize = a.cellSize)
    (free : a'.freeCells = a.freeCells) (offered : a'.freeBlocks = a.freeBlocks)
    (f : Nat → Block α → Block α)
    (blocks : ∀ i, a'.blocks[i]? = (a.blocks[i]?).map (f i))
    (keeps : ∀ i b, b.Sound → (f i b).Sound ∧ (f i b).cellSize = b.cellSize ∧
      (f i b).freeCount = b.freeCount) : a'.Sound := by
  constructor
  · exact size ▸ sound.size_valid
  · intro i b h
    rw [blocks i, Option.map_eq_some_iff] at h
    obtain ⟨b₀, h₀, rfl⟩ := h
    obtain ⟨sound₀, size₀⟩ := sound.block i b₀ h₀
    exact ⟨(keeps i b₀ sound₀).1, by rw [(keeps i b₀ sound₀).2.1, size₀, size]⟩
  · rw [free, sound.books]
    have counts : a'.blocks.toList.map Block.freeCount = a.blocks.toList.map Block.freeCount := by
      apply List.ext_getElem?
      intro i
      rw [List.getElem?_map, List.getElem?_map, Array.getElem?_toList, Array.getElem?_toList,
        blocks i]
      cases h : a.blocks[i]? with
      | none => rfl
      | some b => simp [(keeps i b (sound.block i b h).1).2.2]
    rw [counts]
  · exact offered ▸ sound.offered_nodup
  · intro i
    rw [offered, sound.mem_offered i, blocks i]
    cases h : a.blocks[i]? with
    | none => rfl
    | some b => simp [Block.hasFree, (keeps i b (sound.block i b h).1).2.2]

lemma Sound.modifyCell {a : Allocator α} (sound : a.Sound) (s : Slot) (f : Cell α → Cell α) :
    (a.modifyCell s f).Sound := by
  refine sound.congr rfl rfl rfl
    (fun i b => if s.block = i then b.modifyCell s.index f else b) ?_ ?_
  · intro i
    rw [Allocator.modifyCell, Array.getElem?_modify]
    by_cases h : s.block = i
    · simp [h]
    · simp [h]
  · intro i b hb
    by_cases h : s.block = i
    · rw [if_pos h]
      exact ⟨hb.modifyCell s.index f, rfl, rfl⟩
    · rw [if_neg h]
      exact ⟨hb, rfl, rfl⟩

lemma Sound.unmarkAll {a : Allocator α} (sound : a.Sound) : a.unmarkAll.Sound := by
  refine sound.congr rfl rfl rfl (fun _ b => b.unmarkAll) ?_ ?_
  · intro i
    rw [Allocator.unmarkAll, Array.getElem?_map]
  · intro i b hb
    exact ⟨hb.unmarkAll, rfl, rfl⟩

@[simp] lemma cellSize_addBlock (a : Allocator α) : a.addBlock.cellSize = a.cellSize := rfl

@[simp] lemma place_addBlock (a : Allocator α) : a.addBlock.place = a.place := rfl

lemma getElem?_blocks_addBlock (a : Allocator α) (i : Nat) :
    a.addBlock.blocks[i]? =
      if i = a.blocks.size then some (Block.create a.cellSize) else a.blocks[i]? := by
  change (a.blocks.push (Block.create a.cellSize))[i]? = _
  rw [Array.getElem?_push]

@[simp] lemma cell?_addBlock (a : Allocator α) (s : Slot) : a.addBlock.cell? s = a.cell? s := by
  rw [cell?, cell?, getElem?_blocks_addBlock]
  by_cases h : s.block = a.blocks.size
  · simp [h]
  · simp [h]

lemma freeCells_addBlock (a : Allocator α) :
    a.addBlock.freeCells = a.freeCells + CellMachine.cellsPerBlock a.cellSize := by
  simp [addBlock, offer, Block.create]

lemma Sound.cellsPerBlock_pos {a : Allocator α} (sound : a.Sound) :
    0 < CellMachine.cellsPerBlock a.cellSize :=
  lt_of_lt_of_le (by decide) (Settings.classFault?_eq_none_iff.mp sound.size_valid).2.2

lemma Sound.addBlock {a : Allocator α} (sound : a.Sound) : a.addBlock.Sound := by
  constructor
  · exact sound.size_valid
  · intro i b h
    rw [getElem?_blocks_addBlock] at h
    split at h
    · have fresh : Block.create a.cellSize = b := Option.some.inj h
      subst fresh
      exact ⟨Block.sound_create sound.minCellSize_le, rfl⟩
    · exact sound.block i b h
  · rw [freeCells_addBlock, sound.books]
    simp [Allocator.addBlock, offer, Block.create]
  · change (a.blocks.size :: a.freeBlocks).Nodup
    rw [List.nodup_cons]
    refine ⟨?_, sound.offered_nodup⟩
    intro h
    have := (sound.mem_offered a.blocks.size).mp h
    simp at this
  · intro i
    change i ∈ a.blocks.size :: a.freeBlocks ↔ _
    rw [List.mem_cons, sound.mem_offered i, getElem?_blocks_addBlock]
    by_cases h : i = a.blocks.size
    · simpa [h, Block.hasFree, Block.create] using sound.cellsPerBlock_pos
    · simp [h]

@[simp] lemma cellSize_addBlocks (n : Nat) (a : Allocator α) :
    (a.addBlocks n).cellSize = a.cellSize := by
  induction n generalizing a with
  | zero => rfl
  | succ n ih => exact ih a.addBlock

@[simp] lemma place_addBlocks (n : Nat) (a : Allocator α) : (a.addBlocks n).place = a.place := by
  induction n generalizing a with
  | zero => rfl
  | succ n ih => exact ih a.addBlock

@[simp] lemma cell?_addBlocks (n : Nat) (a : Allocator α) (s : Slot) :
    (a.addBlocks n).cell? s = a.cell? s := by
  induction n generalizing a with
  | zero => rfl
  | succ n ih =>
    rw [addBlocks, ih, cell?_addBlock]

lemma Sound.addBlocks {a : Allocator α} (sound : a.Sound) (n : Nat) : (a.addBlocks n).Sound := by
  induction n generalizing a with
  | zero => exact sound
  | succ n ih => exact ih sound.addBlock

/-- Growing to a percentage adds some number of blocks. -/
lemma exists_growTo_eq_addBlocks (a : Allocator α) (percent : Nat) :
    ∃ n, a.growTo percent = a.addBlocks n := by
  have growBy : ∀ fuel (a : Allocator α), ∃ n, a.growBy percent fuel = a.addBlocks n := by
    intro fuel
    induction fuel with
    | zero => exact fun a => ⟨0, rfl⟩
    | succ fuel ih =>
      intro a
      rw [Allocator.growBy]
      split
      · obtain ⟨n, h⟩ := ih a.addBlock
        exact ⟨n + 1, h⟩
      · exact ⟨0, rfl⟩
  exact growBy _ a

/-- Making room adds a block or nothing. -/
lemma exists_ensureRoom_eq_addBlocks (a : Allocator α) : ∃ n, a.ensureRoom = a.addBlocks n := by
  unfold ensureRoom
  split
  · exact ⟨1, rfl⟩
  · exact ⟨0, rfl⟩

lemma nextSlot?_eq_some_iff {a : Allocator α} {s : Slot} :
    a.nextSlot? = some s ↔ a.freeBlocks.head? = some s.block ∧
      ∃ b, a.blocks[s.block]? = some b ∧ b.nextSlot? = some s.index := by
  obtain ⟨block, index⟩ := s
  simp only [nextSlot?, Option.pure_def, Option.bind_eq_bind, Option.bind_eq_some_iff,
    Option.some.injEq, Slot.mk.injEq]
  constructor
  · rintro ⟨i, head, b, hb, k, hk, rfl, rfl⟩
    exact ⟨head, b, hb, hk⟩
  · rintro ⟨head, b, hb, hk⟩
    exact ⟨block, head, b, hb, index, hk, rfl, rfl⟩

/-- The slot that is taken next is clear. -/
lemma cell?_nextSlot {a : Allocator α} {s : Slot} (h : a.nextSlot? = some s) :
    a.cell? s = none := by
  obtain ⟨_, b, hb, hs⟩ := nextSlot?_eq_some_iff.mp h
  have clear := (Block.nextSlot?_spec hs).2.1
  rw [cell?, hb]
  simpa [Block.isUsed_eq] using clear

@[simp] lemma cellSize_fill (a : Allocator α) (s : Slot) (c : Cell α) :
    (a.fill s c).cellSize = a.cellSize := by
  unfold fill withdrawFull
  split <;> rfl

@[simp] lemma place_fill (a : Allocator α) (s : Slot) (c : Cell α) :
    (a.fill s c).place = a.place := by
  unfold fill withdrawFull
  split <;> rfl

lemma blocks_fill (a : Allocator α) (s : Slot) (c : Cell α) :
    (a.fill s c).blocks = a.blocks.modify s.block fun b => b.fill s.index c := by
  unfold fill withdrawFull
  split <;> rfl

lemma freeCells_fill (a : Allocator α) (s : Slot) (c : Cell α) :
    (a.fill s c).freeCells = a.freeCells - 1 := by
  unfold fill withdrawFull
  split <;> rfl

lemma freeBlocks_fill (a : Allocator α) (s : Slot) (c : Cell α) :
    (a.fill s c).freeBlocks =
      if ((a.blocks[s.block]?).map fun b => b.fill s.index c).any Block.hasFree then a.freeBlocks
      else a.freeBlocks.tail := by
  simp only [fill, withdrawFull, Array.getElem?_modify, if_true]
  split <;> rfl

lemma cell?_fill {a : Allocator α} (sound : a.Sound) {s : Slot} (h : a.nextSlot? = some s)
    (c : Cell α) (t : Slot) : (a.fill s c).cell? t = if s = t then some c else a.cell? t := by
  obtain ⟨_, b, hb, hs⟩ := nextSlot?_eq_some_iff.mp h
  have inside : s.index < bitmapBits :=
    lt_of_lt_of_le (Block.nextSlot?_spec hs).1 (sound.block _ b hb).1.fits
  rw [cell?, cell?, blocks_fill, Array.getElem?_modify]
  obtain ⟨i, k⟩ := s
  obtain ⟨j, l⟩ := t
  by_cases block : i = j
  · subst block
    simp only at hb inside
    by_cases index : k = l
    · subst index
      simp [hb, Block.cell?_fill b inside]
    · simp [hb, index, Block.cell?_fill b inside]
  · simp [block]

/-- A sound allocator with an offered block has a slot to give. -/
lemma Sound.nextSlot?_isSome {a : Allocator α} (sound : a.Sound) {i : Nat}
    (head : a.freeBlocks.head? = some i) : ∃ s, a.nextSlot? = some s := by
  have offered := (sound.mem_offered i).mp (List.mem_of_head? head)
  obtain ⟨b, hb, free⟩ := (Option.any_eq_true _ _).mp offered
  obtain ⟨k, hk⟩ := (sound.block i b hb).1.nextSlot?_isSome free
  exact ⟨⟨i, k⟩, nextSlot?_eq_some_iff.mpr ⟨head, b, hb, hk⟩⟩

/-- After making room there is a slot to give. -/
lemma Sound.nextSlot?_ensureRoom {a : Allocator α} (sound : a.Sound) :
    ∃ s, a.ensureRoom.nextSlot? = some s := by
  cases offered : a.freeBlocks with
  | nil =>
    have grown : a.ensureRoom = a.addBlock := by simp [ensureRoom, offered]
    rw [grown]
    exact sound.addBlock.nextSlot?_isSome (i := a.blocks.size) rfl
  | cons i rest =>
    have same : a.ensureRoom = a := by simp [ensureRoom, offered]
    rw [same]
    exact sound.nextSlot?_isSome (i := i) (by rw [offered]; rfl)

lemma Sound.fill {a : Allocator α} (sound : a.Sound) {s : Slot} (h : a.nextSlot? = some s)
    (c : Cell α) : (a.fill s c).Sound := by
  obtain ⟨head, b, hb, hs⟩ := nextSlot?_eq_some_iff.mp h
  obtain ⟨rest, offered⟩ : ∃ rest, a.freeBlocks = s.block :: rest := by
    cases hf : a.freeBlocks with
    | nil => rw [hf] at head; cases head
    | cons i rest =>
      rw [hf] at head
      have same : i = s.block := Option.some.inj head
      exact ⟨rest, same ▸ rfl⟩
  have distinct := sound.offered_nodup
  rw [offered, List.nodup_cons] at distinct
  constructor
  · rw [cellSize_fill]
    exact sound.size_valid
  · intro i b' h'
    rw [blocks_fill, Array.getElem?_modify] at h'
    rw [cellSize_fill]
    split at h'
    · rename_i here
      subst here
      rw [hb] at h'
      have filled : b.fill s.index c = b' := Option.some.inj h'
      subst filled
      exact ⟨(sound.block _ b hb).1.fill hs c, (sound.block _ b hb).2⟩
    · exact sound.block i b' h'
  · have total := sum_map_modify Block.freeCount (fun b => b.fill s.index c)
      (show a.blocks.toList[s.block]? = some b by rw [Array.getElem?_toList]; exact hb)
    have free : 0 < b.freeCount := by
      have hasFree := (sound.mem_offered s.block).mp (by rw [offered]; exact List.mem_cons_self)
      simpa [hb, Block.hasFree] using hasFree
    rw [freeCells_fill, blocks_fill, Array.toList_modify, sound.books]
    simp only [Block.fill] at total ⊢
    omega
  · rw [freeBlocks_fill]
    split
    · exact sound.offered_nodup
    · rw [offered]
      exact distinct.2
  · intro i
    rw [freeBlocks_fill, blocks_fill, Array.getElem?_modify, hb]
    simp only [Option.map_some, Option.any_some]
    by_cases free : (b.fill s.index c).hasFree
    · rw [if_pos free, sound.mem_offered i]
      by_cases here : s.block = i
      · subst here
        have before : b.hasFree := by
          have hasFree := (sound.mem_offered s.block).mp (by rw [offered]; exact List.mem_cons_self)
          simpa [hb] using hasFree
        simp [hb, before, free]
      · simp [here]
    · rw [if_neg free, offered, List.tail_cons]
      by_cases here : s.block = i
      · subst here
        simp [hb, distinct.1, free]
      · have tail : i ∈ rest ↔ i ∈ a.freeBlocks := by
          rw [offered, List.mem_cons]
          exact ⟨Or.inr, fun h => h.resolve_left (Ne.symm here)⟩
        rw [tail, sound.mem_offered i, if_neg here]

/-- A block after its sweep. -/
def swept? (a : Allocator α) (i : Nat) : Option (Block α) := (a.blocks[i]?).map Block.sweep

/-- What a sweep in some order has done to an allocator after a part of the order. -/
structure SweptAlong (a : Allocator α) (order : List Nat) (r : Allocator α) : Prop where
  cellSize : r.cellSize = a.cellSize
  place : r.place = a.place
  blocks : ∀ i, r.blocks[i]? = if i ∈ order then a.swept? i else a.blocks[i]?
  freeBlocks : r.freeBlocks =
    (order.filter fun i => (a.swept? i).any Block.hasFree).reverse ++ a.freeBlocks
  freeCells : r.freeCells =
    a.freeCells + (order.map fun i => ((a.swept? i).map Block.freeCount).getD 0).sum

lemma sweepBlock_eq (a : Allocator α) (i : Nat) :
    a.sweepBlock i =
      { a with
        freeCells := a.freeCells + ((a.swept? i).map Block.freeCount).getD 0
        blocks := a.blocks.modify i Block.sweep
        freeBlocks := if (a.swept? i).any Block.hasFree then i :: a.freeBlocks else a.freeBlocks } := by
  have block : (a.blocks.modify i Block.sweep)[i]? = a.swept? i := by
    rw [Array.getElem?_modify, if_pos rfl, swept?]
  simp only [sweepBlock, block]
  by_cases free : (a.swept? i).any Block.hasFree
  · simp only [free, if_true, offer, block]
  · have zero : ((a.swept? i).map Block.freeCount).getD 0 = 0 := by
      cases h : a.swept? i with
      | none => rfl
      | some b => simpa [h, Block.hasFree] using free
    simp only [free, zero, Nat.add_zero]
    rfl

lemma getElem?_blocks_sweepBlock (a : Allocator α) (i j : Nat) :
    (a.sweepBlock i).blocks[j]? = if i = j then a.swept? j else a.blocks[j]? := by
  rw [sweepBlock_eq, Array.getElem?_modify, swept?]

lemma sweptAlong_foldl (order : List Nat) (distinct : order.Nodup) (a : Allocator α) :
    a.SweptAlong order (order.foldl sweepBlock a) := by
  induction order generalizing a with
  | nil => exact ⟨rfl, rfl, by simp, rfl, rfl⟩
  | cons i order ih =>
    rw [List.nodup_cons] at distinct
    have rest := ih distinct.2 (a.sweepBlock i)
    have later : ∀ j ∈ order, (a.sweepBlock i).swept? j = a.swept? j := by
      intro j hj
      have other : i ≠ j := fun eq => distinct.1 (eq ▸ hj)
      rw [swept?, getElem?_blocks_sweepBlock, if_neg other, swept?]
    rw [List.foldl_cons]
    constructor
    · rw [rest.cellSize, sweepBlock_eq]
    · rw [rest.place, sweepBlock_eq]
    · intro j
      rw [rest.blocks j, getElem?_blocks_sweepBlock]
      by_cases hj : j ∈ order
      · simp [hj, later j hj]
      · by_cases eq : i = j
        · simp [eq, hj]
        · simp [eq, Ne.symm eq, hj]
    · have free : order.filter (fun j => ((a.sweepBlock i).swept? j).any Block.hasFree) =
          order.filter fun j => (a.swept? j).any Block.hasFree :=
        List.filter_congr fun j hj => by rw [later j hj]
      rw [rest.freeBlocks, free, sweepBlock_eq, List.filter_cons]
      split <;> simp
    · have counts : order.map (fun j => (((a.sweepBlock i).swept? j).map Block.freeCount).getD 0) =
          order.map fun j => ((a.swept? j).map Block.freeCount).getD 0 :=
        List.map_congr_left fun j hj => by rw [later j hj]
      rw [rest.freeCells, counts, sweepBlock_eq, List.map_cons, List.sum_cons, Nat.add_assoc]

/-- Any order that goes through every block once is as good as another. -/
lemma sweptAlong_sweepInOrder (a : Allocator α) {order : List Nat}
    (all : order.Perm (List.range a.blockCount)) :
    ({ a with freeCells := 0, freeBlocks := [] } : Allocator α).SweptAlong order
      (a.sweepInOrder order) :=
  sweptAlong_foldl order (all.nodup_iff.mpr List.nodup_range) _

section Order

variable {a : Allocator α} {order : List Nat}

lemma getElem?_blocks_sweepInOrder (all : order.Perm (List.range a.blockCount)) (i : Nat) :
    (a.sweepInOrder order).blocks[i]? = a.swept? i := by
  have along := a.sweptAlong_sweepInOrder all
  rw [along.blocks i]
  by_cases h : i ∈ order
  · rw [if_pos h]
    rfl
  · have outside : a.blocks[i]? = none := by
      have far : i ∉ List.range a.blockCount := fun hi => h (all.mem_iff.mpr hi)
      simpa [blockCount] using far
    rw [if_neg h, swept?, outside]
    rfl

lemma toList_blocks_sweepInOrder (all : order.Perm (List.range a.blockCount)) :
    (a.sweepInOrder order).blocks.toList = a.blocks.toList.map Block.sweep := by
  apply List.ext_getElem?
  intro i
  rw [Array.getElem?_toList, getElem?_blocks_sweepInOrder all, swept?, List.getElem?_map,
    Array.getElem?_toList]

lemma blockCount_sweepInOrder (all : order.Perm (List.range a.blockCount)) :
    (a.sweepInOrder order).blockCount = a.blockCount := by
  have lengths := congrArg List.length (toList_blocks_sweepInOrder all)
  rwa [List.length_map, Array.length_toList, Array.length_toList] at lengths

lemma Sound.cell?_sweepInOrder (sound : a.Sound) (all : order.Perm (List.range a.blockCount))
    (s : Slot) : (a.sweepInOrder order).cell? s = (a.cell? s).filter Cell.isMarked := by
  rw [cell?, cell?, getElem?_blocks_sweepInOrder all, swept?]
  cases hb : a.blocks[s.block]? with
  | none => rfl
  | some b => exact (sound.block _ b hb).1.cell?_sweep s.index

lemma Sound.sweepInOrder (sound : a.Sound) (all : order.Perm (List.range a.blockCount)) :
    (a.sweepInOrder order).Sound := by
  have along := a.sweptAlong_sweepInOrder all
  constructor
  · rw [along.cellSize]
    exact sound.size_valid
  · intro i b h
    rw [getElem?_blocks_sweepInOrder all, swept?, Option.map_eq_some_iff] at h
    obtain ⟨b₀, h₀, rfl⟩ := h
    rw [along.cellSize]
    exact ⟨(sound.block i b₀ h₀).1.sweep, by
      rw [Block.cellSize_sweep]; exact (sound.block i b₀ h₀).2⟩
  · have total := (all.map fun i => ((a.swept? i).map Block.freeCount).getD 0).sum_eq
    have entries : (List.range a.blockCount).map
        (fun i => ((a.swept? i).map Block.freeCount).getD 0) =
        a.blocks.toList.map fun b => b.sweep.freeCount := by
      rw [← map_range_getElem? a.blocks.toList (fun b => b.sweep.freeCount) 0]
      simp [swept?, blockCount, Function.comp_def]
    rw [along.freeCells, toList_blocks_sweepInOrder all, List.map_map]
    simp only [Nat.zero_add]
    exact total.trans (congrArg List.sum entries)
  · rw [along.freeBlocks, List.append_nil]
    exact List.nodup_reverse.mpr ((all.nodup_iff.mpr List.nodup_range).filter _)
  · intro i
    rw [along.freeBlocks, List.append_nil, List.mem_reverse, List.mem_filter,
      getElem?_blocks_sweepInOrder all]
    constructor
    · exact fun h => h.2
    · intro h
      refine ⟨all.mem_iff.mpr ?_, h⟩
      by_contra far
      have outside : a.blocks[i]? = none := by simpa [blockCount] using far
      simp [swept?, outside] at h

end Order

@[simp] lemma cellSize_sweep (a : Allocator α) : a.sweep.cellSize = a.cellSize :=
  (a.sweptAlong_sweepInOrder (List.Perm.refl _)).cellSize

@[simp] lemma place_sweep (a : Allocator α) : a.sweep.place = a.place :=
  (a.sweptAlong_sweepInOrder (List.Perm.refl _)).place

lemma Sound.cell?_sweep {a : Allocator α} (sound : a.Sound) (s : Slot) :
    a.sweep.cell? s = (a.cell? s).filter Cell.isMarked :=
  sound.cell?_sweepInOrder (List.Perm.refl _) s

lemma Sound.sweep {a : Allocator α} (sound : a.Sound) : a.sweep.Sound :=
  sound.sweepInOrder (List.Perm.refl _)

def usedSlots (a : Allocator α) : List Slot :=
  (tagged a.blocks Block.usedSlots).map fun p => ⟨p.1, p.2⟩

lemma Sound.mem_usedSlots {a : Allocator α} (sound : a.Sound) {s : Slot} :
    s ∈ a.usedSlots ↔ (a.cell? s).isSome := by
  obtain ⟨i, k⟩ := s
  rw [usedSlots, List.mem_map]
  constructor
  · rintro ⟨⟨j, l⟩, mem, eq⟩
    cases eq
    obtain ⟨b, hb, used⟩ := mem_tagged.mp mem
    simpa [cell?, hb, Block.isUsed_eq] using (Block.mem_usedSlots.mp used).2
  · intro h
    obtain ⟨c, hc⟩ := Option.isSome_iff_exists.mp h
    obtain ⟨b, hb, hk⟩ := cell?_eq_some_iff.mp hc
    simp only at hb hk
    have used : k ∈ b.usedSlots :=
      (sound.block i b hb).1.mem_usedSlots.mpr (by simp [Block.isUsed_eq, hk])
    exact ⟨(i, k), mem_tagged.mpr ⟨b, hb, used⟩, rfl⟩

lemma nodup_usedSlots (a : Allocator α) : a.usedSlots.Nodup :=
  (nodup_tagged a.blocks Block.nodup_usedSlots).map fun _ _ eq =>
    Prod.ext (Slot.mk.inj eq).1 (Slot.mk.inj eq).2

/-- Every slot is free or in use. -/
lemma Sound.freeCells_add_usedSlots {a : Allocator α} (sound : a.Sound) :
    a.freeCells + a.usedSlots.length = a.totalCells := by
  have used : a.usedSlots.length = (a.blocks.toList.map fun b => b.usedSlots.length).sum := by
    rw [usedSlots, List.length_map, length_tagged]
  have each : ∀ l : List (Block α), (∀ b ∈ l, b.Sound ∧ b.cellSize = a.cellSize) →
      (l.map Block.freeCount).sum + (l.map fun b => b.usedSlots.length).sum =
        l.length * a.cellsPerBlock := by
    intro l hl
    induction l with
    | nil => simp
    | cons b l ih =>
      obtain ⟨soundb, sizeb⟩ := hl b List.mem_cons_self
      have tail := ih fun b' hb' => hl b' (List.mem_cons_of_mem b hb')
      have books := soundb.books
      rw [Block.totalCount, sizeb] at books
      simp only [List.map_cons, List.sum_cons, List.length_cons, Nat.succ_mul]
      change _ = _ + CellMachine.cellsPerBlock a.cellSize
      omega
  rw [sound.books, used, each a.blocks.toList ?_]
  · rfl
  · intro b hb
    obtain ⟨i, hi⟩ := List.mem_iff_getElem?.mp hb
    exact sound.block i b (by rw [← Array.getElem?_toList]; exact hi)

end Allocator

end CellMachine
