import CellMachine.Machine.Keywords

/-!
# Scripts

A script is a list of steps; native bodies are scripts as well. A step names what it
works on by expressions. Most steps are a single operation; four of them run lists of
steps of their own.
-/

namespace CellMachine

inductive Expr where
  | nil
  | bool (b : Bool)
  /-- Inline when it fits, boxed otherwise. -/
  | int (n : Int64)
  | text (s : String)
  | list (items : List Expr)
  /-- Kept inline whether it fits or not. -/
  | small (n : Int64)
  | double (d : Binary64)
  | symbol (name : String)
  | box (n : Int64)
  | floatBox (d : Binary64)
  | hash (entries : List (Expr × Expr))
  | handle (name : String)
  /-- An argument of the body that is running. -/
  | argument (i : Nat)
  /-- The receiver of the body that is running. -/
  | self
  /-- The block passed to the body that is running. -/
  | passedBlock
  | outerScope
  | global (name : String)
  /-- A value inside that many arrays. -/
  | nested (depth : Nat) (e : Expr)
  | refused (why : Refusal)
deriving Inhabited

/-- The arguments a step supplies to a call. -/
inductive Supply where
  /-- Gives a window away. -/
  | window (name : String)
  | values (es : List Expr) (hasKeywords : Bool)

/-- What a method, a block or a direct call runs. -/
inductive BodyRef where
  | body (index : Nat)
  | primitive (name : String)
  | refused

/-- What a new method is made from. -/
inductive MethodSource where
  | primitive (name : String)
  | named (name : String) (body : BodyRef)

/-- The arity a step asks for a new block. -/
inductive AritySpec where
  /-- The block takes its arguments as they come. -/
  | undeclared
  | declared (arity : BlockArity)
  /-- A list of bounds with a bound missing. -/
  | short

structure MethodSpec where
  source : MethodSource
  optimized : Option Bool
  scope : Expr
  /-- A receiver that replaces the one a caller passes. -/
  receiver : Option Expr

/-- The name under which a result is kept. -/
abbrev Into := Option String

/-- Steps on values, names and the current frame. -/
inductive ValueOp where
  | keep (name : String) (e : Expr) (quiet : Bool)
  | forget (name : String)
  | show (e : Expr)
  | same (a b : Expr)
  | truthy (e : Expr)
  | symbolCount
  | noSymbols
  | hasSymbol (name : String)
  | setGlobal (name : String) (e : Expr)
  | global (name : String)
  | environment
  | setLine (line : UInt32)
  | backtrace
  | framesDiffer

inductive ObjectOp where
  | arrayPush (cell item : Expr)
  | arrayGet (cell : Expr) (i : Nat)
  | arrayInfo (cell : Expr)
  | hashInsert (cell key item : Expr)
  | hashGet (cell key : Expr)
  | hashGetSymbol (cell : Expr) (name : String)
  | hashInfo (cell : Expr)
  | stringPush (cell : Expr) (text : String)
  | symbolName (cell : Expr)
  | scopeNew (outer : Expr) (vars : List Expr) (into : Into)
  | scopeVar (cell : Expr) (i : Nat)
  | scopeSet (cell : Expr) (i : Nat) (item fill : Expr)
  | scopeOuter (cell : Expr)
  | blockNew (scope receiver : Expr) (body : BodyRef) (arity : AritySpec) (into : Into)
  | blockInfo (cell : Expr)
  | methodNew (spec : MethodSpec) (into : Into)

inductive CallOp where
  | block (cell block : Expr) (args : Supply)
  | method (cell receiver block : Expr) (args : Supply)
  | native (body : BodyRef) (receiver : Expr) (args : Supply)
  | yield (args : Supply)

/-- Steps that open a window. -/
inductive OpenOp where
  | values (es : List Expr) (hasKeywords : Bool)
  | empty
  | ofArray (cell : Expr) (hasKeywords : Bool)
  | copyOf (window : String)

/-- Steps on a window that is there. -/
inductive WindowOp where
  | drop
  | info
  | shift (withKeywords : Bool)
  | pop (withKeywords : Bool)
  | popKeywords
  | popEmptyKeywords
  | get (i : Nat)
  | at (i : Nat)
  | positional (i : Nat)
  | getD (i : Nat) (default : Expr)
  | first
  | last
  | values (withKeywords : Bool)
  | count (withKeywords : Bool)
  | diagnostic
  | expect (expected : Arity) (declared : Bool) (keywords : List String)
  | keywordHash
  | checkKeywords (required allowed : List String) (others : OtherKeywords)
  | keyword (name : String)
  | hasKeyword (name : String)
  | otherKeywords (listed : List String) (into : Into)
  | toArray (withKeywords : Bool) (into : Into)
  | parameters (min : Nat) (max : Option Nat) (spread withKeywords : Bool) (into : Into)
  /-- How an error about the count would name the required keywords. -/
  | keywordsSuffix (declared : Bool) (keywords : List String)
  /-- Refused, but not before the window has been found. -/
  | refused (why : Refusal)

/-- Steps on the bare argument stack. -/
inductive StackOp where
  | size
  | push (e : Expr)
  | extend (es : List Expr)
  | extendWithin (first last : Nat)
  | get (i : Nat)
  | set (i : Nat) (e : Expr)
  | slice (first last : Nat)
  | countInts (first last : Nat)
  | truncate (size : Nat)
  | roots

/-- Objects a step can leave behind in any number. -/
inductive Litter where
  | integers
  | floats
  | strings
  | arrays
  | hashes
  | scopes
  | blocks
  | methods

inductive CollectorOp where
  | collect
  | safepoint
  | stats
  | census
  | counts
  | enable
  | disable
  | isLive (e : Expr)
  | churn (what : Litter) (times : Nat)

inductive SignalOp where
  | requestInterrupt
  | requestCollection
  | take
  /-- A signal that has no effect. -/
  | ignored

inductive Op where
  | value (op : ValueOp)
  | object (op : ObjectOp)
  | call (op : CallOp) (into : Into)
  | openWindow (name : String) (op : OpenOp)
  | window (name : String) (op : WindowOp)
  | stack (op : StackOp)
  | collector (op : CollectorOp)
  | signal (op : SignalOp)
  | refused (why : Refusal)

/-- What a step is called, and whether its error ends the list it stands in. -/
structure Label where
  name : String
  caught : Bool
deriving Inhabited

inductive Step where
  | op (label : Label) (op : Op)
  /-- Ends the list with a value. -/
  | return (label : Label) (e : Expr)
  /-- Ends the list with a break. -/
  | break (label : Label) (e : Expr)
  /-- Ends the list with an error. -/
  | raise (label : Label) (kind : ErrorKind) (message : String)
  /-- Ends the list with a fault and leaves no trace of its own; in an outermost list,
  where no step stands around it, there is no such step. -/
  | panic (label : Label) (text : String)
  /-- Runs steps in a frame of their own, without windows. -/
  | child (label : Label) (outer : Expr) (method : Option String) (block : Expr)
      (steps : List Step)
  | when (label : Label) (condition : Expr) (yes no : List Step)
  | repeat (label : Label) (times : Nat) (steps : List Step)
  /-- Runs each list in a thread of its own. -/
  | spawn (label : Label) (workers : List (List Step))
deriving Inhabited

/-- A script with the native bodies it makes use of. -/
structure Script where
  bodies : Array (List Step)
  steps : List Step

end CellMachine
