import CellMachine.Heap.Block

/-!
# Sessions with one block

A block of empty payloads under a list of steps. Offsets are counted from the start of
the block and may lie outside it.
-/

namespace CellMachine

inductive BlockStep where
  /-- Claims that many slots, or all that are left. -/
  | allocate (times : Nat)
  | mark (index : Nat)
  | unmark (index : Nat)
  /-- Marks the used slots whose index is a multiple. -/
  | markEvery (stride : Nat)
  | unmarkAll
  | sweep
  | isUsed (index : Nat)
  | slotAt (offset : Int)
  | contains (offset : Int)
  | usedSlots
  | markedSlots
deriving Repr

inductive BlockAnswer where
  | nothing
  | flag (b : Bool)
  | count (n : Nat)
  | slots (indices : List Nat)
  /-- The slots claimed, and whether the block ran out. -/
  | claimed (indices : List Nat) (full : Bool)
  /-- There is no such bit. -/
  | outOfBounds
deriving DecidableEq, Repr

namespace BlockSession

abbrev State := Block Unit

/-- Claims slots one after the other. -/
def claim : Nat → State → List Nat → BlockAnswer × State
  | 0, b, done => (.claimed done.reverse false, b)
  | n + 1, b, done =>
    match b.nextSlot? with
    | some index => claim n (b.fill index (Cell.fresh ())) (index :: done)
    | none => (.claimed done.reverse true, b)

def step (b : State) : BlockStep → BlockAnswer × State
  | .allocate n => claim n b []
  | .mark i =>
    match b.cell? i with
    | some c => (.flag (c.lacks .marked), b.mark i)
    | none => (.nothing, b)
  | .unmark i => if b.isUsed i then (.flag true, b.unmark i) else (.nothing, b)
  | .markEvery n => (.nothing, (b.usedSlots.filter (· % n = 0)).foldl Block.mark b)
  | .unmarkAll => (.nothing, b.unmarkAll)
  | .sweep => (.count b.garbage.length, b.sweep)
  | .isUsed i => (((b.bit? i).map .flag).getD .outOfBounds, b)
  | .slotAt o =>
    (if 0 ≤ o then ((b.slotAt? o.toNat).map .count).getD .nothing else .nothing, b)
  | .contains o => (.flag (0 ≤ o && o < blockSize), b)
  | .usedSlots => (.slots b.usedSlots, b)
  | .markedSlots => (.slots b.markedSlots, b)

end BlockSession

end CellMachine
