import CellMachine.Binary64

/-!
# The fewest digits that read back

A finite double stands for the interval of reals that round to it. The shortest
decimal is sought on grids of one digit, two digits and so on: the double lies
between two neighbours of a grid, and the first grid with a neighbour in the
interval gives the answer, the nearer one of two and the upper one at a tie. All
comparisons are between natural numbers. The answer always lies in the interval.
-/

namespace CellMachine

/-- The number `coefficient * 10 ^ exponent`. -/
structure Decimal where
  coefficient : Nat
  exponent : Int
deriving DecidableEq, Repr, Inhabited

namespace Decimal

def zeros (n : Nat) : List Char := List.replicate n '0'

/-- All digits written out, with a point only where a fraction follows. -/
def positional (x : Decimal) : String :=
  let digits := Nat.toDigits 10 x.coefficient
  if 0 ≤ x.exponent then String.ofList (digits ++ zeros x.exponent.toNat)
  else
    let places := (-x.exponent).toNat
    let padded := zeros (places + 1 - digits.length) ++ digits
    let point := padded.length - places
    String.ofList (padded.take point ++ '.' :: padded.drop point)

end Decimal

namespace Binary64

/-- Four times the magnitude, over two to the exponent. -/
def centre (d : Binary64) : Nat := 4 * d.significand

/-- The lower end of the interval, nearer where the doubles below lie closer. -/
def lower (d : Binary64) : Nat :=
  if d.significand = 0x10000000000000 ∧ 1 < d.exponentField then d.centre - 1 else d.centre - 2

def upper (d : Binary64) : Nat := d.centre + 2

/-- The ends belong to the interval where a tie would round to this double. -/
def includesEnds (d : Binary64) : Bool := d.significand % 2 == 0

/-- A grid of powers of ten laid over the scale of a double: `points * perPoint` and
`marks * perMark` measure the same length. -/
structure Grid where
  perPoint : Nat
  perMark : Nat

def grid (d : Binary64) (power : Int) : Grid :=
  let scale := d.exponent - 2
  ⟨Nat.pow 10 power.toNat <<< (-scale).toNat, Nat.pow 10 (-power).toNat <<< scale.toNat⟩

/-- Whether the point lies in the interval of reals that round to the double. -/
def reads (d : Binary64) (g : Grid) (point : Nat) : Bool :=
  let place := point * g.perPoint
  let low := d.lower * g.perMark
  let high := d.upper * g.perMark
  if d.includesEnds then low ≤ place && place ≤ high else low < place && place < high

/-- The point of a grid that stands for the double, if the grid is fine enough. -/
def nearest? (d : Binary64) (power : Int) : Option Decimal :=
  let g := d.grid power
  let below := d.centre * g.perMark / g.perPoint
  let candidate (point : Nat) : Option Decimal :=
    if d.reads g point then some ⟨point, power⟩ else none
  if 2 * (d.centre * g.perMark) < (2 * below + 1) * g.perPoint then
    candidate below <|> candidate (below + 1)
  else candidate (below + 1) <|> candidate below

/-- Whether `10 ^ power` is at most the magnitude. -/
def reaches (d : Binary64) (power : Int) : Bool :=
  let g := d.grid power
  g.perPoint ≤ d.centre * g.perMark

/-- The power of ten of the first digit. The estimate from the power of two is low by
two at the most. -/
def leadingPower (d : Binary64) : Int :=
  let estimate := ((d.significand.log2 + d.exponent) * 30103).fdiv 100000 - 1
  (((List.range 4).map fun (i : Nat) => estimate + i).filter d.reaches).getLast?.getD estimate

/-- All digits of the double itself. -/
def exactDecimal (d : Binary64) : Decimal :=
  if 0 ≤ d.exponent then ⟨d.significand <<< d.exponent.toNat, 0⟩
  else ⟨d.significand * Nat.pow 5 (-d.exponent).toNat, d.exponent⟩

/-- The shortest decimal for the magnitude of a finite double. The first grid is that of
the power above the leading digit, where the upper neighbour may already read back. -/
def shortest (d : Binary64) : Decimal :=
  if d.significand = 0 then ⟨0, 0⟩
  else
    ((List.range 18).findSome? fun (i : Nat) => d.nearest? (d.leadingPower + 1 - i)).getD
      d.exactDecimal

end Binary64

end CellMachine
