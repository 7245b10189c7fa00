/-!
# Settings of a heap

Cell sizes come in classes, one allocator for each. A block of fixed size holds a
header and then as many cells of one class as fit. Settings are refused with the
first of the faults below that applies.
-/

namespace CellMachine

def blockSize : Nat := 32768

/-- Bytes at the start of a block that hold no cell. -/
def blockHeader : Nat := 160

def cellHeader : Nat := 32

def cellAlign : Nat := 16

def minCellSize : Nat := 32

/-- Every slot of a block has a bit of its own. -/
def bitmapBits : Nat := 1024

def wordBits : Nat := 64

def cellsPerBlock (cellSize : Nat) : Nat := (blockSize - blockHeader) / cellSize

structure Settings where
  /-- Cell sizes, one allocator for each. -/
  sizeClasses : List Nat
  /-- Blocks an allocator gets when it is first used. -/
  initialBlocks : Nat
  /-- An allocation collects when a smaller percentage of its class is free. -/
  trigger : Nat
  /-- After a collection a class grows until this percentage is free. -/
  target : Nat
  gcEnabled : Bool
  collectAllAtExit : Bool
deriving DecidableEq, Repr

namespace Settings

def standard : Settings where
  sizeClasses := [32, 48, 64, 96, 128, 192, 256, 512]
  initialBlocks := 4
  trigger := 10
  target := 20
  gcEnabled := true
  collectAllAtExit := false

inductive Fault where
  | noClasses
  | notAscending
  | belowMinimum
  | misaligned
  | tooFewCells
  | triggerAboveHundred
  | targetNotBelowHundred
  | targetBelowTrigger
deriving DecidableEq, Repr

namespace Fault

def message : Fault → String
  | noClasses => "at least one size class is required"
  | notAscending => "size classes must be strictly ascending"
  | belowMinimum => "size class is smaller than the minimum cell size"
  | misaligned => "size class must be a multiple of the cell alignment"
  | tooFewCells => "size class leaves fewer than 8 cells per block"
  | triggerAboveHundred => "trigger percentage must be at most 100"
  | targetNotBelowHundred => "target free percentage must be below 100"
  | targetBelowTrigger => "target free percentage must not be below the trigger"

end Fault

/-- What is wrong with a single size class. -/
def classFault? (size : Nat) : Option Fault :=
  if size < minCellSize then some .belowMinimum
  else if size % cellAlign ≠ 0 then some .misaligned
  else if cellsPerBlock size < 8 then some .tooFewCells
  else none

def ascending : List Nat → Bool
  | a :: b :: rest => a < b && ascending (b :: rest)
  | _ => true

def fault? (s : Settings) : Option Fault :=
  if s.sizeClasses.isEmpty then some .noClasses
  else if !ascending s.sizeClasses then some .notAscending
  else
    match s.sizeClasses.findSome? classFault? with
    | some f => some f
    | none =>
      if 100 < s.trigger then some .triggerAboveHundred
      else if 100 ≤ s.target then some .targetNotBelowHundred
      else if s.target < s.trigger then some .targetBelowTrigger
      else none

/-- The index of the first class that holds that many bytes. -/
def classFor? (s : Settings) (bytes : Nat) : Option Nat :=
  s.sizeClasses.findIdx? (bytes ≤ ·)

example : standard.fault? = none := by decide
example : standard.classFor? 65 = some 3 := by decide

end Settings

end CellMachine
