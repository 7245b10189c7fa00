import CellMachine.Binary64.Shortest

/-!
# Texts of doubles

Two styles are in use. A value shown to a user keeps `.0` on whole numbers of at most
sixteen digits; the style of diagnostics never does. Both write every other finite
double by its shortest decimal, without an exponent.
-/

namespace CellMachine

/-- What a style of writing doubles has to decide. -/
structure DecimalStyle where
  infinity : String
  notANumber : String
  /-- Whole numbers below this keep a final `.0`. -/
  wholeBelow : Nat

namespace DecimalStyle

/-- How a value is shown: whole numbers below 10^16 end in `.0`. -/
def shown : DecimalStyle := ⟨"Infinity", "NaN", 10000000000000000⟩

/-- How a value appears in diagnostics. -/
def plain : DecimalStyle := ⟨"inf", "NaN", 0⟩

def magnitude (style : DecimalStyle) (d : Binary64) : String :=
  if d.isInfinite then style.infinity
  else
    match d.whole? with
    | some n =>
      if n < style.wholeBelow then String.ofList (Nat.toDigits 10 n) ++ ".0"
      else d.shortest.positional
    | none => d.shortest.positional

def write (style : DecimalStyle) (d : Binary64) : String :=
  if d.isNaN then style.notANumber
  else if d.isNegative then "-" ++ style.magnitude d
  else style.magnitude d

example : shown.write ⟨0x3fb999999999999a⟩ = "0.1" := by decide +kernel
example : shown.write ⟨0x8000000000000000⟩ = "-0.0" := by decide +kernel
example : plain.write ⟨0x8000000000000000⟩ = "-0" := by decide +kernel
example : shown.write ⟨0x0000000000000001⟩ =
    "0." ++ String.ofList (Decimal.zeros 323) ++ "5" := by decide +kernel

end DecimalStyle

end CellMachine
