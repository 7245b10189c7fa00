import CellMachine.Value

/-!
# Cells

A cell is a payload behind a byte of flags. Two flags have a meaning: `marked` is
set while a collection has reached the cell, `synthesized` tells a cell that lives
on a thread's stack for the length of one call. What the collector must know of a
payload is the class `Payload`.
-/

namespace CellMachine

/-- A byte of flags; a flag may be any set of bits. -/
structure Flags where
  bits : UInt8
deriving DecidableEq, Repr, Inhabited

namespace Flags

def clear : Flags := ⟨0⟩

/-- Reached in the current collection. -/
def marked : Flags := ⟨1⟩

/-- A stand-in on a thread's stack, never owned by the heap. -/
def synthesized : Flags := ⟨2⟩

def contains (f g : Flags) : Bool := f.bits &&& g.bits == g.bits

def union (f g : Flags) : Flags := ⟨f.bits ||| g.bits⟩

def without (f g : Flags) : Flags := ⟨f.bits &&& ~~~g.bits⟩

end Flags

/-- A payload with its flags. -/
structure Cell (α : Type) where
  flags : Flags
  payload : α
deriving Repr

/-- What the heap and its collector need to know of a payload. -/
class Payload (α : Type) where
  /-- Bytes behind the cell header. -/
  size : α → Nat
  /-- Every cell slot is aligned to sixteen bytes; a payload may ask for more. -/
  align : α → Nat
  typeName : α → String
  /-- Every value the payload holds, in the order it reports them. -/
  children : α → List Value

namespace Cell

variable {α : Type}

def fresh (payload : α) : Cell α := ⟨.clear, payload⟩

def has (c : Cell α) (f : Flags) : Bool := c.flags.contains f

def add (c : Cell α) (f : Flags) : Cell α := { c with flags := c.flags.union f }

def remove (c : Cell α) (f : Flags) : Cell α := { c with flags := c.flags.without f }

/-- Whether adding the flag changes the cell. -/
def lacks (c : Cell α) (f : Flags) : Bool := !c.has f

def isMarked (c : Cell α) : Bool := c.has .marked

def mark (c : Cell α) : Cell α := c.add .marked

def unmark (c : Cell α) : Cell α := c.remove .marked

def isSynthesized (c : Cell α) : Bool := c.has .synthesized

/-- A cell for the length of one call. -/
def transient (payload : α) : Cell α := (fresh payload).add .synthesized

@[simp] theorem payload_mark (c : Cell α) : c.mark.payload = c.payload := rfl

@[simp] theorem payload_unmark (c : Cell α) : c.unmark.payload = c.payload := rfl

end Cell

end CellMachine
