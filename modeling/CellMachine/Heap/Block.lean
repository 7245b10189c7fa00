import CellMachine.Cell
import CellMachine.Heap.Settings

/-!
# Blocks

A block is a slab of equal slots. A slot is in use exactly when it holds a cell, and
the uses of all slots are the block's bitmap, read in words of 64. The scan for a free
slot starts at a word remembered from before; every word below it is full.
-/

namespace CellMachine

structure Block (α : Type) where
  cellSize : Nat
  freeCount : Nat
  /-- The first word of the bitmap that may have a clear bit. -/
  nextFreeWord : Nat
  slots : Vector (Option (Cell α)) bitmapBits

namespace Block

variable {α : Type}

def create (cellSize : Nat) : Block α where
  cellSize := cellSize
  freeCount := cellsPerBlock cellSize
  nextFreeWord := 0
  slots := Vector.replicate bitmapBits none

def totalCount (b : Block α) : Nat := cellsPerBlock b.cellSize

def hasFree (b : Block α) : Bool := 0 < b.freeCount

/-- The cell in a slot that is in use. -/
def cell? (b : Block α) (index : Nat) : Option (Cell α) := b.slots[index]?.join

def isUsed (b : Block α) (index : Nat) : Bool := (b.cell? index).isSome

/-- The bit of a slot; there is none past the end of the bitmap. -/
def bit? (b : Block α) (index : Nat) : Option Bool := b.slots[index]?.map Option.isSome

/-- Words of the bitmap that some slot has its bit in. -/
def words (b : Block α) : Nat := (b.totalCount + wordBits - 1) / wordBits

/-- The lowest clear bit among `n` bits from `index` on. -/
def firstClear (b : Block α) : Nat → Nat → Option Nat
  | 0, _ => none
  | n + 1, index => if b.isUsed index then firstClear b n (index + 1) else some index

/-- The slot the next allocation claims. -/
def nextSlot? (b : Block α) : Option Nat :=
  let start := wordBits * b.nextFreeWord
  (b.firstClear (wordBits * b.words - start) start).filter (· < b.totalCount)

/-- Puts a cell into a clear slot. -/
def fill (b : Block α) (index : Nat) (cell : Cell α) : Block α :=
  { b with
    freeCount := b.freeCount - 1
    nextFreeWord := index / wordBits
    slots := b.slots.setIfInBounds index (some cell) }

def allocate? (b : Block α) (cell : Cell α) : Option (Nat × Block α) :=
  b.nextSlot?.map fun index => (index, b.fill index cell)

/-- The used slot that an offset from the block's start lies in. -/
def slotAt? (b : Block α) (offset : Nat) : Option Nat :=
  if offset < blockHeader ∨ blockHeader + b.totalCount * b.cellSize ≤ offset then none
  else
    let index := (offset - blockHeader) / b.cellSize
    if b.isUsed index then some index else none

/-- Where a slot starts, counted from the block's start. -/
def offsetOf (b : Block α) (index : Nat) : Nat := blockHeader + index * b.cellSize

def usedSlots (b : Block α) : List Nat := (List.range b.totalCount).filter b.isUsed

def isMarked (b : Block α) (index : Nat) : Bool := (b.cell? index).any Cell.isMarked

def markedSlots (b : Block α) : List Nat := b.usedSlots.filter b.isMarked

def cells (b : Block α) : List (Cell α) := b.usedSlots.filterMap b.cell?

/-- Changes the cell in a slot; a clear slot stays clear. -/
def modifyCell (b : Block α) (index : Nat) (f : Cell α → Cell α) : Block α :=
  { b with slots := b.slots.setIfInBounds index ((b.cell? index).map f) }

def mark (b : Block α) (index : Nat) : Block α := b.modifyCell index Cell.mark

def unmark (b : Block α) (index : Nat) : Block α := b.modifyCell index Cell.unmark

def unmarkAll (b : Block α) : Block α :=
  { b with slots := b.slots.map fun slot => slot.map Cell.unmark }

/-- Clears a slot and lets the next scan start no later than its word. -/
def release (b : Block α) (index : Nat) : Block α :=
  { b with
    freeCount := b.freeCount + 1
    nextFreeWord := min b.nextFreeWord (index / wordBits)
    slots := b.slots.setIfInBounds index none }

/-- The slots a sweep clears, lowest first. -/
def doomed (b : Block α) : List Nat :=
  b.usedSlots.filter fun index => !b.isMarked index

/-- The payloads a sweep drops. -/
def garbage (b : Block α) : List α :=
  b.doomed.filterMap fun index => (b.cell? index).map Cell.payload

/-- Clears every used slot whose cell is not marked. -/
def sweep (b : Block α) : Block α := b.doomed.foldl release b

end Block

end CellMachine
