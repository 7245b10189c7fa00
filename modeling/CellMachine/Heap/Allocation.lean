import CellMachine.Heap.Collection

/-!
# Allocation

A payload goes into the smallest class that holds it behind its header. A class that
was never used gets its first blocks; a class that is short of free cells is collected
first, with the values the payload holds among the roots, and then grown. None of this
happens while collection is disabled, when a full class grows by one block at a time.
-/

namespace CellMachine

/-- Where an allocation stands before it takes its slot. -/
inductive Pressure where
  /-- The class has just got its first blocks. -/
  | prepared
  | relaxed
  /-- Less is free than the trigger asks for. -/
  | short
deriving DecidableEq, Repr

namespace Heap

variable {α : Type} [Payload α]

/-- The bytes a payload takes with its header. -/
def bytesFor (payload : α) : Nat := cellHeader + Payload.size payload

def classOf (h : Heap α) (payload : α) : Except HeapFault Nat :=
  if cellAlign < Payload.align payload then .error .overAligned
  else
    match h.settings.classFor? (bytesFor payload) with
    | some c => .ok c
    | none => .error (.tooLarge (bytesFor payload))

omit [Payload α] in
def modifyClass (h : Heap α) (c : Nat) (f : Allocator α → Allocator α) : Heap α :=
  { h with allocators := h.allocators.modify c f }

omit [Payload α] in
def pressure (h : Heap α) (c : Nat) : Pressure :=
  if !h.gcEnabled then .relaxed
  else if (h.allocators[c]?).any fun a => a.blockCount == 0 then .prepared
  else if (h.allocators[c]?).any fun a => a.percentage < h.settings.trigger then .short
  else .relaxed

omit [Payload α] in
/-- Gives an unused class its first blocks. -/
def prewarm (h : Heap α) (c : Nat) : Heap α :=
  let n := h.settings.initialBlocks
  h.modifyClass c fun a => a.addBlocks n

omit [Payload α] in
/-- Adds blocks to a class until the target percentage is free. -/
def grow (h : Heap α) (c : Nat) : Heap α :=
  let target := h.settings.target
  h.modifyClass c fun a => a.growTo target

omit [Payload α] in
def nextSpot? (h : Heap α) (c : Nat) : Option Spot :=
  ((h.allocators[c]?).bind Allocator.nextSlot?).map fun slot => ⟨c, slot⟩

omit [Payload α] in
def fill (h : Heap α) (s : Spot) (payload : α) : Heap α :=
  h.modifyClass s.sizeClass fun a => a.fill s.slot (Cell.fresh payload)

omit [Payload α] in
/-- Takes the next slot of a class, adding a block if all are full. -/
def allocateIn (h : Heap α) (c : Nat) (payload : α) : Except HeapFault Address × Heap α :=
  let h := h.modifyClass c Allocator.ensureRoom
  match h.nextSpot? c with
  | some s => (.ok (h.addressOf s), h.fill s payload)
  | none => (.error .fullBlockOffered, h)

/-- The root sets of a collection in the middle of an allocation: the pending payload's
values count as roots of the allocating thread, which comes first. -/
def rootSets (threads : List (Array Value)) (pending : List Value) : List RootSet :=
  match threads with
  | [] => [references pending]
  | own :: others =>
    (references own.toList ++ references pending) :: others.map fun vs => references vs.toList

/-- Makes sure that a class has room: first blocks, or a collection and growth. -/
def makeRoom (h : Heap α) (c : Nat) (threads : List (Array Value)) (payload : α) : Heap α :=
  match h.pressure c with
  | .prepared => h.prewarm c
  | .relaxed => h
  | .short => (h.collect (rootSets threads (Payload.children payload))).2.grow c

/-- Allocates a payload for the first of the threads, whose stacks are the roots. -/
def allocate (h : Heap α) (threads : List (Array Value)) (payload : α) :
    Except HeapFault Address × Heap α :=
  match h.classOf payload with
  | .error f => (.error f, h)
  | .ok c => (h.makeRoom c threads payload).allocateIn c payload

end Heap

end CellMachine
