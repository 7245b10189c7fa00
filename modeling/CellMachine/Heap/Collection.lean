import CellMachine.Heap.Basic

/-!
# Collection

A cycle clears all marks, marks what the submitted words and the global roots resolve
to and everything that can be reached from there, and sweeps every class. A word counts
as a root wherever in a slot it points; an edge counts only if it is the address of a
live cell. The work list holds cells that are marked and not yet visited, so a cell
enters it once at most.
-/

namespace CellMachine

/-- The words one thread submits as roots. -/
abbrev RootSet := List Address

/-- The words among a list of values. -/
def references (vs : List Value) : RootSet := vs.filterMap Value.cell?

structure Marking (α : Type) where
  heap : Heap α
  /-- Marked cells whose edges are still to be followed. -/
  pending : List Spot
  roots : Nat
  marked : Nat

namespace Marking

variable {α : Type} [Payload α]

def start (h : Heap α) : Marking α := ⟨h, [], 0, 0⟩

/-- Marks a cell, and remembers it when it was unmarked before. -/
def reach (m : Marking α) (s : Spot) : Marking α :=
  if (m.heap.cellAt? s).all Cell.isMarked then m
  else
    { m with
      heap := m.heap.modifyAt s Cell.mark
      pending := s :: m.pending
      marked := m.marked + 1 }

/-- A submitted word is a root if it points into a slot in use. -/
def candidate (m : Marking α) (word : Address) : Marking α :=
  match m.heap.resolve? word with
  | some s => { m with roots := m.roots + 1 }.reach s
  | none => m

/-- An edge is followed if it is the address of a live cell. -/
def edge (m : Marking α) : Value → Marking α
  | .ref a =>
    match m.heap.spot? a with
    | some s => m.reach s
    | none => m
  | _ => m

def children (m : Marking α) (s : Spot) : List Value :=
  ((m.heap.cellAt? s).map fun c => Payload.children c.payload).getD []

/-- Follows the edges of pending cells until none is left. -/
def drain : Nat → Marking α → Marking α
  | 0, m => m
  | fuel + 1, m =>
    match m.pending with
    | [] => m
    | s :: rest => drain fuel ((m.children s).foldl edge { m with pending := rest })

/-- Every cell is visited once at most, so as many rounds as there are slots are enough. -/
def finish (m : Marking α) : Marking α := drain (m.heap.totalCells + 1) m

end Marking

namespace Heap

variable {α : Type}

def unmarkAll (h : Heap α) : Heap α :=
  { h with allocators := h.allocators.map Allocator.unmarkAll }

/-- The payloads a sweep drops, class by class. -/
def garbage (h : Heap α) : List α := h.allocators.toList.flatMap Allocator.garbage

/-- Drops every unmarked cell. -/
def sweep (h : Heap α) : Heap α :=
  let garbage := h.garbage
  { h with
    allocators := h.allocators.map Allocator.sweep
    dropped := garbage.reverseAux h.dropped }

variable [Payload α]

/-- Marks everything the submitted words and the global roots lead to. -/
def markFrom (h : Heap α) (inputs : List RootSet) : Marking α :=
  let submitted := inputs.flatten.foldl Marking.candidate (Marking.start h.unmarkAll)
  ((references h.globalRoots).foldl Marking.candidate submitted).finish

/-- One cycle of the collector over the root sets of all threads. -/
def runCycle (h : Heap α) (inputs : List RootSet) : Heap α :=
  let candidates := inputs.flatten.length
  let m := h.markFrom inputs
  let roots := m.roots
  let marked := m.marked
  let h := m.heap
  let freed := h.garbage.length
  let h := h.sweep
  { h with
    stats := {
      cycles := h.stats.cycles + 1
      cellsFreed := h.stats.cellsFreed + freed
      last := ⟨candidates, roots, marked, freed⟩ } }

/-- A cycle, unless collection is disabled. -/
def collect (h : Heap α) (inputs : List RootSet) : Bool × Heap α :=
  if h.gcEnabled then (true, h.runCycle inputs) else (false, h)

omit [Payload α] in
/-- Drops every cell there is; the answer is their number. -/
def collectAll (h : Heap α) : Nat × Heap α :=
  let h := h.unmarkAll
  (h.garbage.length, h.sweep)

end Heap

end CellMachine
