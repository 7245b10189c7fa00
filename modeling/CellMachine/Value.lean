import CellMachine.Binary64

/-!
# Values and addresses

A value is a reference to a cell, an integer kept inline or a double kept inline.
Equality is identity: references agree by address, doubles by their bits. The
inline range of integers is two bits narrower than the 64-bit word; only
`smallInt?` checks it.
-/

namespace CellMachine

/-- A machine word read as an address: a place in block memory, or a place in some
thread's own stack, which no block overlaps. -/
inductive Address where
  | memory (word : Nat)
  | stack (depth : Nat)
deriving DecidableEq, Repr, Inhabited

/-- What a slot of an object, of an argument list or of a variable can hold. -/
inductive Value where
  | ref (cell : Address)
  | smallInt (n : Int64)
  | double (d : Binary64)
deriving DecidableEq, Repr, Inhabited

namespace Value

def smallIntMin : Int64 := -4611686018427387904

def smallIntMax : Int64 := 4611686018427387903

/-- The integer kept inline, when it lies in the inline range. -/
def smallInt? (n : Int64) : Option Value :=
  if smallIntMin ≤ n ∧ n ≤ smallIntMax then some (.smallInt n) else none

def isRef : Value → Bool
  | ref _ => true
  | _ => false

def isSmallInt : Value → Bool
  | smallInt _ => true
  | _ => false

def isDouble : Value → Bool
  | double _ => true
  | _ => false

/-- An inline number has no cell and is never traced. -/
def isInlineNumeric : Value → Bool
  | ref _ => false
  | _ => true

def cell? : Value → Option Address
  | ref a => some a
  | _ => none

def int? : Value → Option Int64
  | smallInt n => some n
  | _ => none

def double? : Value → Option Binary64
  | double d => some d
  | _ => none

theorem smallInt?_eq_some_iff {n : Int64} {v : Value} :
    smallInt? n = some v ↔ (smallIntMin ≤ n ∧ n ≤ smallIntMax) ∧ v = .smallInt n := by
  unfold smallInt?
  split
  · simp_all [eq_comm]
  · rename_i h
    exact ⟨nofun, fun hv => absurd hv.1 h⟩

end Value

end CellMachine
