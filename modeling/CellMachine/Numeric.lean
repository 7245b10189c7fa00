import CellMachine.Failure

/-!
# Arithmetic

Integers are exact: a result that does not fit a 64-bit word is an error, division
rounds toward negative infinity. An integer and a double meet as doubles. What an
operation yields is a number or a truth value; where the number is kept is not decided
here.
-/

namespace CellMachine

inductive Numeric where
  | integer (n : Int64)
  | double (d : Binary64)
deriving DecidableEq, Repr

def Numeric.toDouble : Numeric → Binary64
  | integer n => .ofInt64 n
  | double d => d

/-- A number, or something of another type. -/
inductive Operand where
  | number (x : Numeric)
  | other (type : String)
deriving DecidableEq, Repr

namespace Operand

def type : Operand → String
  | number (.integer _) => "Integer"
  | number (.double _) => "Float"
  | other type => type

/-- The operand of an operation whose receiver is of the target type. -/
def coerce (x : Operand) (target : String) : Except CallError Numeric :=
  match x with
  | number n => .ok n
  | other type => .error (.notCoercible type target)

def integer (x : Operand) : Except CallError Int64 :=
  match x with
  | number (.integer n) => .ok n
  | x => .error (.wrongType x.type "Integer")

def double (x : Operand) : Except CallError Binary64 :=
  match x with
  | number (.double d) => .ok d
  | x => .error (.wrongType x.type "Float")

end Operand

/-- What an operation yields. -/
inductive Computed where
  | integer (n : Int64)
  | double (d : Binary64)
  | truth (b : Bool)
deriving DecidableEq, Repr

namespace Computed

/-- The integer, when it fits a word. -/
def exactly (n : Int) : Except CallError Computed :=
  if Int64.minValue.toInt ≤ n ∧ n ≤ Int64.maxValue.toInt then .ok (.integer (.ofInt n))
  else .error .overflow

/-- Exact on two integers, in doubles otherwise. -/
def arithmetic (exact : Int → Int → Except CallError Computed)
    (inexact : Binary64 → Binary64 → Binary64) (a : Int64) (x : Operand) :
    Except CallError Computed := do
  match ← x.coerce "Integer" with
  | .integer b => exact a.toInt b.toInt
  | .double b => return .double (inexact (.ofInt64 a) b)

/-- The quotient rounded toward zero, less one if something remains and the signs differ. -/
def floored (a b : Int) : Int :=
  if a.tmod b ≠ 0 ∧ decide (a < 0) ≠ decide (b < 0) then a.tdiv b - 1 else a.tdiv b

/-- The quotient rounded down; dividing by zero is an error. -/
def quotient (a b : Int) : Except CallError Computed :=
  if b = 0 then .error .zeroDivision else exactly (floored a b)

/-- What is not a number is equal to no integer. -/
def equalInteger (a : Int64) : Operand → Computed
  | .number (.integer b) => .truth (a == b)
  | .number (.double b) => .truth ((Binary64.ofInt64 a).eqv b)
  | .other _ => .truth false

def lessInteger (a : Int64) : Operand → Except CallError Computed
  | .number (.integer b) => .ok (.truth (a < b))
  | .number (.double b) => .ok (.truth ((Binary64.ofInt64 a).lt b))
  | .other type => .error (.notComparable "Integer" type)

def inDoubles (op : Binary64 → Binary64 → Binary64) (a : Binary64) (x : Operand) :
    Except CallError Computed := do
  return .double (op a (← x.coerce "Float").toDouble)

def lessDouble (a : Binary64) : Operand → Except CallError Computed
  | .number x => .ok (.truth (a.lt x.toDouble))
  | .other type => .error (.notComparable "Float" type)

end Computed

namespace Primitive

/-- The operation on a receiver, or the error if the receiver is of the wrong type. -/
def on (p : Primitive) (receiver : Operand) :
    Except CallError (Operand → Except CallError Computed) := do
  match p with
  | integerAdd =>
    return Computed.arithmetic (fun a b => Computed.exactly (a + b)) Binary64.add (← receiver.integer)
  | integerSub =>
    return Computed.arithmetic (fun a b => Computed.exactly (a - b)) Binary64.sub (← receiver.integer)
  | integerMul =>
    return Computed.arithmetic (fun a b => Computed.exactly (a * b)) Binary64.mul (← receiver.integer)
  | integerDiv => return Computed.arithmetic Computed.quotient Binary64.div (← receiver.integer)
  | integerEq =>
    let a ← receiver.integer
    return fun x => .ok (Computed.equalInteger a x)
  | integerLt => return Computed.lessInteger (← receiver.integer)
  | floatAdd => return Computed.inDoubles Binary64.add (← receiver.double)
  | floatSub => return Computed.inDoubles Binary64.sub (← receiver.double)
  | floatMul => return Computed.inDoubles Binary64.mul (← receiver.double)
  | floatDiv => return Computed.inDoubles Binary64.div (← receiver.double)
  | floatLt => return Computed.lessDouble (← receiver.double)

/-! ## Names -/

/-- The names of all primitives, in the order of the table. -/
def table : List (String × Primitive) := [
  ("Integer#+", integerAdd), ("Integer#-", integerSub), ("Integer#*", integerMul),
  ("Integer#/", integerDiv), ("Integer#==", integerEq), ("Integer#<", integerLt),
  ("Float#+", floatAdd), ("Float#-", floatSub), ("Float#*", floatMul), ("Float#/", floatDiv),
  ("Float#<", floatLt)]

def find? (name : String) : Option Primitive := table.lookup name

def name (p : Primitive) : String :=
  ((table.find? fun e => e.2 == p).map Prod.fst).getD ""

/-- The part of a name behind its last number sign. -/
def selector (name : String) : String :=
  String.ofList (name.toList.reverse.takeWhile (· != '#')).reverse

/-- No primitive keeps its receiver or its argument. -/
def isOptimized (_ : Primitive) : Bool := true

/-- The method that runs a primitive. -/
def method (p : Primitive) : MethodObject where
  name := selector p.name
  native := .primitive p
  scope := none
  receiver := none
  optimized := p.isOptimized

example : table.map Prod.snd = [integerAdd, integerSub, integerMul, integerDiv, integerEq,
    integerLt, floatAdd, floatSub, floatMul, floatDiv, floatLt] := rfl

example : selector "Integer#+" = "+" := by decide +kernel

end Primitive

end CellMachine
