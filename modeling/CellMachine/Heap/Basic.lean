import CellMachine.Heap.Allocator

/-!
# The heap

One allocator for each size class, the list of global roots and the books of the
collector. An address resolves to the slot in use that it points into, at its start or
inside. Payloads that a sweep drops are kept on record, latest first, so that the
books can be balanced.
-/

namespace CellMachine

/-- What the last collection counted. -/
structure CycleStats where
  /-- Words submitted as roots. -/
  candidates : Nat
  /-- Submitted words and global roots that resolved to a cell. -/
  roots : Nat
  marked : Nat
  freed : Nat
deriving DecidableEq, Repr, Inhabited

structure HeapStats where
  cycles : Nat
  cellsFreed : Nat
  last : CycleStats
deriving DecidableEq, Repr, Inhabited

structure Heap (α : Type) where
  settings : Settings
  gcEnabled : Bool
  collectAllAtExit : Bool
  allocators : Array (Allocator α)
  globalRoots : List Value
  stats : HeapStats
  /-- Payloads dropped so far, latest first. -/
  dropped : List α

/-- A slot of the heap. -/
structure Spot where
  sizeClass : Nat
  slot : Slot
deriving DecidableEq, Repr, Inhabited

/-- Why the heap cannot do what it was asked for. -/
inductive HeapFault where
  | invalidSettings (reason : Settings.Fault)
  | tooLarge (bytes : Nat)
  | overAligned
  /-- A block without a free slot was offered; the books rule it out. -/
  | fullBlockOffered
deriving DecidableEq, Repr

/-- Block numbers for the blocks of each class, in turn: far from small addresses, and so
far from each other that an offset leads from a cell into its own block or nowhere. -/
def scatteredBlocks (classes sizeClass block : Nat) : Nat :=
  0x80000000 + 0x10000 * (block * classes + sizeClass)

namespace Heap

variable {α : Type}

/-- An empty heap whose blocks will lie where `place` says. -/
def createAt (place : Nat → Nat → Nat) (s : Settings) : Except HeapFault (Heap α) :=
  match s.fault? with
  | some reason => .error (.invalidSettings reason)
  | none => .ok {
      settings := s
      gcEnabled := s.gcEnabled
      collectAllAtExit := s.collectAllAtExit
      allocators := (s.sizeClasses.mapIdx fun c size => Allocator.create size (place c)).toArray
      globalRoots := []
      stats := default
      dropped := [] }

def create (s : Settings) : Except HeapFault (Heap α) :=
  createAt (scatteredBlocks s.sizeClasses.length) s

/-! ## Addresses -/

/-- The slot in use that a word points into. -/
def resolveWord? (h : Heap α) (word : Nat) : Option Spot :=
  (List.range h.allocators.size).findSome? fun c =>
    ((h.allocators[c]?).bind fun a => a.resolve? word).map fun slot => ⟨c, slot⟩

/-- No slot lies on a thread's stack. -/
def resolve? (h : Heap α) : Address → Option Spot
  | .memory word => h.resolveWord? word
  | .stack _ => none

/-- Where a slot starts. -/
def addressOf (h : Heap α) (s : Spot) : Address :=
  .memory (((h.allocators[s.sizeClass]?).map fun a => a.wordOf s.slot).getD 0)

/-- The slot in use that starts at the address. -/
def spot? (h : Heap α) (a : Address) : Option Spot :=
  (h.resolve? a).filter fun s => h.addressOf s = a

/-- The start of the slot in use that an address points into. -/
def cellFor? (h : Heap α) (a : Address) : Option Address :=
  (h.resolve? a).map h.addressOf

def isLive (h : Heap α) (a : Address) : Bool := (h.spot? a).isSome

/-- The cells that a list of words denotes, in order. -/
def identify (h : Heap α) (words : List Address) : List Address :=
  words.filterMap h.cellFor?

def cellAt? (h : Heap α) (s : Spot) : Option (Cell α) :=
  (h.allocators[s.sizeClass]?).bind fun a => a.cell? s.slot

/-- The cell that lives at an address. -/
def cell? (h : Heap α) (a : Address) : Option (Cell α) := (h.spot? a).bind h.cellAt?

def payload? (h : Heap α) (a : Address) : Option α := (h.cell? a).map Cell.payload

def modifyAt (h : Heap α) (s : Spot) (f : Cell α → Cell α) : Heap α :=
  { h with allocators := h.allocators.modify s.sizeClass fun a => a.modifyCell s.slot f }

/-- Changes the payload that lives at an address. -/
def modifyPayload (h : Heap α) (a : Address) (f : α → α) : Heap α :=
  match h.spot? a with
  | some s => h.modifyAt s fun c => { c with payload := f c.payload }
  | none => h

/-! ## Switches and global roots -/

def enable (h : Heap α) : Heap α := { h with gcEnabled := true }

def disable (h : Heap α) : Heap α := { h with gcEnabled := false }

def setCollectAllAtExit (h : Heap α) (on : Bool) : Heap α :=
  { h with collectAllAtExit := on }

/-- Inline numbers need no root. -/
def addGlobalRoot (h : Heap α) (v : Value) : Heap α :=
  if v.isRef then { h with globalRoots := v :: h.globalRoots } else h

/-- Removes one registration of the value. -/
def removeGlobalRoot (h : Heap α) (v : Value) : Heap α :=
  { h with globalRoots := h.globalRoots.erase v }

def hasGlobalRoot (h : Heap α) (v : Value) : Bool := h.globalRoots.contains v

/-! ## Counts -/

def totalCells (h : Heap α) : Nat := h.allocators.foldl (fun n a => n + a.totalCells) 0

def freeCells (h : Heap α) : Nat := h.allocators.foldl (fun n a => n + a.freeCells) 0

def liveCells (h : Heap α) : Nat := h.totalCells - h.freeCells

def cells (h : Heap α) : List (Cell α) := h.allocators.toList.flatMap Allocator.cells

/-- The payloads that go with the heap when it is dropped. -/
def remains (h : Heap α) : List α := h.cells.map Cell.payload

/-- Adds one to the count of a name; names stay in rising order. -/
def countName (name : String) : List (String × Nat) → List (String × Nat)
  | [] => [(name, 1)]
  | (n, k) :: rest =>
    if name = n then (n, k + 1) :: rest
    else if name < n then (name, 1) :: (n, k) :: rest
    else (n, k) :: countName name rest

/-- Live cells by type name. -/
def census [Payload α] (h : Heap α) : List (String × Nat) :=
  h.cells.foldl (fun counts c => countName (Payload.typeName c.payload) counts) []

end Heap

end CellMachine
