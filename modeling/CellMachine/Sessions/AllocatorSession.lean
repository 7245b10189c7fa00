import CellMachine.Heap.Basic

/-!
# Sessions with one allocator

Cells are numbered in the order of their allocation and known by their numbers. A
number is alive as long as its slot holds the cell that got it.
-/

namespace CellMachine

inductive AllocatorStep where
  | allocate (times : Nat)
  | mark (id : Nat)
  /-- Marks the living cells whose number is a multiple. -/
  | markEvery (stride : Nat)
  | unmarkAll
  | sweep
  | addBlocks (count : Nat)
  | growTo (percent : Nat)
  | owns (id : Nat)
  | ownsNull
  | cellAt (id : Nat) (delta : Int)
  | living
  | freeInBlocks
deriving Repr

inductive AllocatorAnswer where
  | nothing
  | flag (b : Bool)
  | count (n : Nat)
  | ids (ids : List Nat)
  /-- Whether the block is owned, here and by an allocator without blocks. -/
  | owned (here elsewhere : Bool)
  /-- A full block was offered. -/
  | stuck
deriving DecidableEq, Repr

structure AllocatorSession where
  allocator : Allocator Nat
  /-- The slot each number was given. -/
  slots : Array Slot

namespace AllocatorSession

def start (cellSize : Nat) : AllocatorSession :=
  ⟨Allocator.create cellSize (scatteredBlocks 1 0), #[]⟩

/-- The slot of a number that is alive. -/
def slot? (s : AllocatorSession) (id : Nat) : Option Slot := do
  let slot ← s.slots[id]?
  let cell ← s.allocator.cell? slot
  if cell.payload = id then some slot else none

def livingIds (s : AllocatorSession) : List Nat :=
  (List.range s.slots.size).filter fun id => (s.slot? id).isSome

/-- The number of the cell that a word points into. -/
def idAt? (s : AllocatorSession) (word : Nat) : Option Nat := do
  let slot ← s.allocator.resolve? word
  let cell ← s.allocator.cell? slot
  return cell.payload

def modifyCell (s : AllocatorSession) (slot : Slot) (f : Cell Nat → Cell Nat) :
    AllocatorSession :=
  { s with allocator := s.allocator.modifyCell slot f }

def allocate : Nat → AllocatorSession → AllocatorAnswer × AllocatorSession
  | 0, s => (.count s.slots.size, s)
  | n + 1, s =>
    let s := { s with allocator := s.allocator.ensureRoom }
    match s.allocator.nextSlot? with
    | some slot =>
      let cell := Cell.fresh s.slots.size
      allocate n
        { allocator := s.allocator.fill slot cell, slots := s.slots.push slot }
    | none => (.stuck, s)

def step (s : AllocatorSession) : AllocatorStep → AllocatorAnswer × AllocatorSession
  | .allocate n => s.allocate n
  | .mark id =>
    match s.slot? id with
    | some slot =>
      let unmarked := (s.allocator.cell? slot).any fun c => c.lacks .marked
      (.flag unmarked, s.modifyCell slot Cell.mark)
    | none => (.nothing, s)
  | .markEvery n =>
    (.nothing, ((s.livingIds.filter (· % n = 0)).filterMap s.slot?).foldl
      (fun s slot => s.modifyCell slot Cell.mark) s)
  | .unmarkAll => (.nothing, { s with allocator := s.allocator.unmarkAll })
  | .sweep =>
    (.count s.allocator.garbage.length, { s with allocator := s.allocator.sweep })
  | .addBlocks n => (.nothing, { s with allocator := s.allocator.addBlocks n })
  | .growTo p => (.nothing, { s with allocator := s.allocator.growTo p })
  | .owns id =>
    match s.slot? id with
    | some slot =>
      let word := s.allocator.wordOf slot
      let other : Allocator Nat := .create s.allocator.cellSize s.allocator.place
      (.owned (s.allocator.blockOf? word).isSome (other.blockOf? word).isSome, s)
    | none => (.nothing, s)
  | .ownsNull => (.flag (s.allocator.blockOf? 0).isSome, s)
  | .cellAt id delta =>
    match s.slot? id with
    | some slot =>
      let word := (s.allocator.wordOf slot + delta).toNat
      (((s.idAt? word).map .count).getD .nothing, s)
    | none => (.nothing, s)
  | .living => (.ids s.livingIds, s)
  | .freeInBlocks => (.count (s.allocator.blocks.foldl (fun n b => n + b.freeCount) 0), s)

end AllocatorSession

end CellMachine
