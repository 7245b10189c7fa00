import CellMachine.Heap.Block

/-!
# Allocators

All blocks of one size class. Where the blocks lie in memory is the system's choice,
given as a function from the order of their creation to block numbers; an address
belongs to the block whose number is its quotient by the block size. Blocks with a
free slot stand in a list from whose head allocation takes. A sweep goes through the
blocks in some order and builds that list anew.
-/

namespace CellMachine

structure Allocator (α : Type) where
  cellSize : Nat
  /-- The block number of each block, by order of creation. -/
  place : Nat → Nat
  freeCells : Nat
  blocks : Array (Block α)
  /-- Blocks with a free slot; allocation takes from the head. -/
  freeBlocks : List Nat

/-- A slot of an allocator. -/
structure Slot where
  block : Nat
  index : Nat
deriving DecidableEq, Repr, Inhabited

/-- `floor (100 * free / total)`, and zero of nothing. -/
def percentFree (free total : Nat) : Nat :=
  if total = 0 then 0 else free * 100 / total

theorem percentFree_le {free total : Nat} (h : free ≤ total) : percentFree free total ≤ 100 := by
  unfold percentFree
  split
  · omega
  · rw [Nat.mul_comm free]
    exact Nat.div_le_of_le_mul (Nat.mul_comm total 100 ▸ Nat.mul_le_mul_left 100 h)

namespace Allocator

variable {α : Type}

def create (cellSize : Nat) (place : Nat → Nat) : Allocator α where
  cellSize := cellSize
  place := place
  freeCells := 0
  blocks := #[]
  freeBlocks := []

def cellsPerBlock (a : Allocator α) : Nat := CellMachine.cellsPerBlock a.cellSize

def blockCount (a : Allocator α) : Nat := a.blocks.size

def totalCells (a : Allocator α) : Nat := a.blockCount * a.cellsPerBlock

def percentage (a : Allocator α) : Nat := percentFree a.freeCells a.totalCells

/-- Offers the free slots of an owned block to allocation. -/
def offer (a : Allocator α) (block : Nat) : Allocator α :=
  { a with
    freeCells := a.freeCells + (a.blocks[block]?.map Block.freeCount).getD 0
    freeBlocks := block :: a.freeBlocks }

def addBlock (a : Allocator α) : Allocator α :=
  { a with blocks := a.blocks.push (Block.create a.cellSize) }.offer a.blocks.size

def addBlocks (a : Allocator α) : Nat → Allocator α
  | 0 => a
  | n + 1 => a.addBlock.addBlocks n

/-- Adds a block when no block has a free slot. -/
def ensureRoom (a : Allocator α) : Allocator α :=
  match a.freeBlocks with
  | [] => a.addBlock
  | _ => a

/-- The slot the next allocation takes, when a block is offered. -/
def nextSlot? (a : Allocator α) : Option Slot := do
  let block ← a.freeBlocks.head?
  let index ← (← a.blocks[block]?).nextSlot?
  return ⟨block, index⟩

/-- Withdraws a block that has become full from the head of the list. -/
def withdrawFull (a : Allocator α) (block : Nat) : Allocator α :=
  if (a.blocks[block]?).any Block.hasFree then a
  else { a with freeBlocks := a.freeBlocks.tail }

/-- Puts a cell into the slot that `nextSlot?` gave. -/
def fill (a : Allocator α) (slot : Slot) (cell : Cell α) : Allocator α :=
  { a with
    freeCells := a.freeCells - 1
    blocks := a.blocks.modify slot.block fun b => b.fill slot.index cell }.withdrawFull slot.block

/-- Allocates a cell, with a new block if all are full. -/
def allocate? (a : Allocator α) (cell : Cell α) : Option (Slot × Allocator α) :=
  let a := a.ensureRoom
  a.nextSlot?.map fun slot => (slot, a.fill slot cell)

/-- Where the block starts that a word would belong to: the word without its low bits. -/
def blockStart (word : UInt64) : UInt64 := word &&& ~~~(.ofNat blockSize - 1)

/-- The owned block that a word points into. -/
def blockOf? (a : Allocator α) (word : Nat) : Option Nat :=
  (List.range a.blockCount).find? fun block => a.place block == word / blockSize

/-- The slot in use that a word points into. -/
def resolve? (a : Allocator α) (word : Nat) : Option Slot := do
  let block ← a.blockOf? word
  let index ← (← a.blocks[block]?).slotAt? (word % blockSize)
  return ⟨block, index⟩

/-- The word at which a slot starts. -/
def wordOf (a : Allocator α) (slot : Slot) : Nat :=
  a.place slot.block * blockSize + blockHeader + slot.index * a.cellSize

def cell? (a : Allocator α) (slot : Slot) : Option (Cell α) :=
  (a.blocks[slot.block]?).bind fun b => b.cell? slot.index

def modifyCell (a : Allocator α) (slot : Slot) (f : Cell α → Cell α) : Allocator α :=
  { a with blocks := a.blocks.modify slot.block fun b => b.modifyCell slot.index f }

def cells (a : Allocator α) : List (Cell α) := a.blocks.toList.flatMap Block.cells

def unmarkAll (a : Allocator α) : Allocator α :=
  { a with blocks := a.blocks.map Block.unmarkAll }

def growBy (a : Allocator α) (percent : Nat) : Nat → Allocator α
  | 0 => a
  | fuel + 1 => if a.percentage < percent then a.addBlock.growBy percent fuel else a

/-- Adds blocks until the percentage is free. A hundred blocks for each live cell are
enough for any percentage below a hundred. -/
def growTo (a : Allocator α) (percent : Nat) : Allocator α :=
  a.growBy percent (100 * (a.totalCells - a.freeCells) + 1)

/-- Sweeps one block and offers it if it has a free slot. -/
def sweepBlock (a : Allocator α) (block : Nat) : Allocator α :=
  let a := { a with blocks := a.blocks.modify block Block.sweep }
  if (a.blocks[block]?).any Block.hasFree then a.offer block else a

/-- Sweeps the blocks in the given order. -/
def sweepInOrder (a : Allocator α) (order : List Nat) : Allocator α :=
  order.foldl sweepBlock { a with freeCells := 0, freeBlocks := [] }

/-- The payloads a sweep drops. -/
def garbage (a : Allocator α) : List α := a.blocks.toList.flatMap Block.garbage

def sweep (a : Allocator α) : Allocator α := a.sweepInOrder (List.range a.blockCount)

end Allocator

end CellMachine
