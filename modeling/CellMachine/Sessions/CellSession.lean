import CellMachine.Machine.Inspect

/-!
# Sessions with one cell

A cell on a thread's own stack: its flags, and what can be read from it.
-/

namespace CellMachine

inductive CellStep where
  | mark
  | unmark
  | isMarked
  | synthesize
  | isSynthesized
  | flags
  | type
  | isInteger
  | isFloat
  | integer
  | float
  | string
  | inspect
  /-- Whether a reference to the cell leads back to it. -/
  | same
  | children
deriving DecidableEq, Repr

inductive CellAnswer where
  | nothing
  | flag (b : Bool)
  | flags (f : Flags)
  | count (n : Nat)
  | text (s : String)
  | integer (n : Int64)
  | double (d : Binary64)
deriving DecidableEq, Repr

/-- The text, if there is one. -/
def CellAnswer.ofText? : Option String → CellAnswer
  | some s => .text s
  | none => .nothing

namespace CellSession

/-- A cell on a stack of its own. -/
def place : Address := .stack 0

def step (c : Cell Object) : CellStep → CellAnswer × Cell Object
  | .mark => (.flag (c.lacks .marked), c.mark)
  | .unmark => (.nothing, c.unmark)
  | .isMarked => (.flag c.isMarked, c)
  | .synthesize => (.nothing, c.add .synthesized)
  | .isSynthesized => (.flag c.isSynthesized, c)
  | .flags => (.flags c.flags, c)
  | .type => (.text c.payload.typeName, c)
  | .isInteger => (.flag (c.payload.typeName == "Integer"), c)
  | .isFloat => (.flag (c.payload.typeName == "Float"), c)
  | .integer =>
    match c.payload with
    | .integer n => (.integer n, c)
    | _ => (.nothing, c)
  | .float =>
    match c.payload with
    | .float d => (.double d, c)
    | _ => (.nothing, c)
  | .string =>
    match c.payload with
    | .string s => (.text s, c)
    | _ => (.nothing, c)
  | .inspect =>
    let object? (a : Address) : Option Object := if a = place then some c.payload else none
    (.ofText? (inspectWith object? 1 (.ref place)), c)
  | .same => (.flag ((Value.ref place).cell? == some place), c)
  | .children => (.count c.payload.children.length, c)

end CellSession

end CellMachine
