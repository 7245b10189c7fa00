import CellMachine.Heap.Basic
import CellMachine.Object

/-!
# Failures

A call can fail in three ways. An error is visible to the program and travels through
its frames; a break is one of them, on its way to the frame it targets. A fault ends
the step that ran into it. A refusal says that a step asks for something that is not
there. Messages are derived from causes.
-/

namespace CellMachine

/-- How many arguments are expected. -/
inductive Arity where
  | exactly (n : Nat)
  | between (low high : Nat)
  | atLeast (n : Nat)
deriving DecidableEq, Repr

namespace Arity

def accepts (given : Nat) : Arity → Bool
  | exactly n => given == n
  | between low high => low ≤ given && given ≤ high
  | atLeast n => n ≤ given

def text : Arity → String
  | exactly n => s!"{n}"
  | between low high => s!"{low}..{high}"
  | atLeast n => s!"{n}+"

end Arity

/-- The class an error belongs to. -/
inductive ErrorKind where
  | argument
  | type
  | range
  | zeroDivision
  | localJump
  | interrupt
deriving DecidableEq, Repr, Inhabited

namespace ErrorKind

def name : ErrorKind → String
  | argument => "ArgumentError"
  | type => "TypeError"
  | range => "RangeError"
  | zeroDivision => "ZeroDivisionError"
  | localJump => "LocalJumpError"
  | interrupt => "Interrupt"

end ErrorKind

/-- An error that travels through the frames of the program. -/
inductive CallError where
  /-- The keywords are those to be named in the message. -/
  | wrongCount (given : Nat) (expected : Arity) (keywords : List String)
  | keywordsRefused
  | missingKeywords (names : List String)
  | unknownKeywords (names : List String)
  | notCoercible (type target : String)
  | wrongType (type expected : String)
  | notComparable (receiver type : String)
  | wrongReceiver (method expected : String)
  | overflow
  | zeroDivision
  | noBlock
  /-- A break whose block was not passed to any running call. -/
  | strayBreak
  | interrupt
  | break (target : FrameId) (value : Value)
  /-- Raised by the program itself. -/
  | raised (kind : ErrorKind) (message : String)
deriving DecidableEq, Repr

/-- The keywords a count error names: none unless the call declares keywords. -/
def declaredKeywords (declared : Bool) (keywords : List String) : List String :=
  if declared then keywords else []

/-- The tail of a count error, naming the declared keywords. -/
def keywordsSuffix : List String → String
  | [] => ""
  | [k] => s!"; required keyword: {k}"
  | ks => "; required keywords: " ++ ", ".intercalate ks

/-- A list of keywords behind what is wrong with them. -/
def keywordList (kind : String) (names : List String) : String :=
  let shown := names.map fun n => if n.startsWith ":" then n else ":" ++ n
  let plural := if names.length = 1 then "" else "s"
  kind ++ " keyword" ++ plural ++ ": " ++ ", ".intercalate shown

namespace CallError

def kind : CallError → ErrorKind
  | wrongCount _ _ _ | keywordsRefused | missingKeywords _ | unknownKeywords _
  | notComparable _ _ => .argument
  | notCoercible _ _ | wrongType _ _ | wrongReceiver _ _ => .type
  | overflow => .range
  | zeroDivision => .zeroDivision
  | noBlock | strayBreak | .break _ _ => .localJump
  | interrupt => .interrupt
  | raised kind _ => kind

def message : CallError → String
  | wrongCount given expected keywords =>
    s!"wrong number of arguments (given {given}, expected {expected.text}" ++
      keywordsSuffix keywords ++ ")"
  | keywordsRefused => "no keywords accepted"
  | missingKeywords names => keywordList "missing" names
  | unknownKeywords names => keywordList "unknown" names
  | notCoercible type target => s!"{type} can't be coerced into {target}"
  | wrongType type expected => s!"wrong argument type {type} (expected {expected})"
  | notComparable receiver type => s!"comparison of {receiver} with {type} failed"
  | wrongReceiver method expected => s!"{method} expects an {expected} receiver"
  | overflow => "integer overflow"
  | zeroDivision => "divided by 0"
  | noBlock => "no block given (yield)"
  | strayBreak | .break _ _ => "break from proc-closure"
  | interrupt => "interrupted"
  | raised .zeroDivision _ => "divided by 0"
  | raised .interrupt _ => "interrupted"
  | raised _ message => message

end CallError

/-- A fault ends the step that ran into it. -/
inductive Fault where
  | exhaustedShift
  | exhaustedPop
  | indexOutside (index size : Nat)
  /-- An index past the end of a stack or of a list of bounds. -/
  | outOfBounds
  | heap (why : HeapFault)
  | deliberate (text : String)
deriving DecidableEq, Repr

/-- What a fault outside the heap says of itself. -/
def Fault.message? : Fault → Option String
  | exhaustedShift => some "shift on an exhausted argument window"
  | exhaustedPop => some "pop on an exhausted argument window"
  | indexOutside index size =>
    some s!"argument index {index} out of range for window of {size}"
  | deliberate text => some text
  | outOfBounds | heap _ => none

/-- A step that asks for something that is not there. -/
inductive Refusal where
  | noHandle
  | noWindow
  | notACell
  | notA (what : String)
  | body
  | primitive
  | value
  | integer
  | unknownStep
  | unknownArgsStep
  | unknownStackStep
  | errorKind
  | objectType
  | signal
deriving DecidableEq, Repr

namespace Refusal

def message : Refusal → String
  | noHandle => "no handle"
  | noWindow => "no window"
  | notACell => "not a cell"
  | notA what => s!"not a {what}"
  | body => "body"
  | primitive => "primitive"
  | value => "value"
  | integer => "integer"
  | unknownStep => "unknown step"
  | unknownArgsStep => "unknown args step"
  | unknownStackStep => "unknown stack step"
  | errorKind => "kind"
  | objectType => "type"
  | signal => "signal"

end Refusal

/-- Why a computation did not come to its end. -/
inductive Halt where
  | error (e : CallError)
  | fault (f : Fault)
  | refused (r : Refusal)
  /-- Calls are nested deeper than was allowed for, or a value has no finite text. -/
  | exhausted
deriving DecidableEq, Repr

end CellMachine
