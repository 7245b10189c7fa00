/-!
# Doubles as words

A double is its 64 bits. Arithmetic goes through the processor's operations, with
the rule for values that are no numbers stated here: a NaN operand comes back
quieted, the left one first, and an operation without a value gives one fixed NaN.
The fields below are what the texts of a double are computed from.
-/

namespace CellMachine

/-- A double-precision number, known by its bits. -/
structure Binary64 where
  bits : UInt64
deriving DecidableEq, Repr, Inhabited

namespace Binary64

def isNegative (d : Binary64) : Bool := d.bits >>> 63 == 1

/-- The eleven bits between the sign and the fraction. -/
def exponentField (d : Binary64) : Nat := ((d.bits >>> 52) &&& 0x7ff).toNat

def fraction (d : Binary64) : Nat := (d.bits &&& 0xfffffffffffff).toNat

def isNaN (d : Binary64) : Bool := d.exponentField == 0x7ff && d.fraction != 0

def isInfinite (d : Binary64) : Bool := d.exponentField == 0x7ff && d.fraction == 0

/-- The magnitude of a finite double is `significand * 2 ^ exponent`. -/
def significand (d : Binary64) : Nat :=
  if d.exponentField = 0 then d.fraction else d.fraction + 0x10000000000000

def exponent (d : Binary64) : Int := max d.exponentField 1 - 1075

/-- The magnitude of a finite double that is a whole number. -/
def whole? (d : Binary64) : Option Nat :=
  if 0 ≤ d.exponent then some (d.significand <<< d.exponent.toNat)
  else
    let unit := 1 <<< (-d.exponent).toNat
    if d.significand % unit = 0 then some (d.significand / unit) else none

def toFloat (d : Binary64) : Float := Float.ofBits d.bits

def ofFloat (x : Float) : Binary64 := ⟨x.toBits⟩

/-- The double nearest to an integer. -/
def ofInt64 (n : Int64) : Binary64 := ofFloat n.toFloat

/-- The NaN with its quiet bit set. -/
def quiet (d : Binary64) : Binary64 := ⟨d.bits ||| 0x0008000000000000⟩

/-- What an operation without a value gives. -/
def invalid : Binary64 := ⟨0xfff8000000000000⟩

/-- A NaN operand is returned quieted, the left one first. -/
def lift (op : Float → Float → Float) (a b : Binary64) : Binary64 :=
  if a.isNaN then a.quiet
  else if b.isNaN then b.quiet
  else
    let r := ofFloat (op a.toFloat b.toFloat)
    if r.isNaN then invalid else r

def add : Binary64 → Binary64 → Binary64 := lift (· + ·)

def sub : Binary64 → Binary64 → Binary64 := lift (· - ·)

def mul : Binary64 → Binary64 → Binary64 := lift (· * ·)

def div : Binary64 → Binary64 → Binary64 := lift (· / ·)

/-- Numeric comparison; no NaN is less than anything. -/
def lt (a b : Binary64) : Bool := a.toFloat < b.toFloat

/-- Numeric equality: the two zeros are equal, a NaN is equal to nothing. -/
def eqv (a b : Binary64) : Bool := a.toFloat == b.toFloat

end Binary64

end CellMachine
