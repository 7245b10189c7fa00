import CellMachine.Machine.Inspect
import CellMachine.Machine.Window

/-!
# Answers

What the steps of a script answer, and the trace of a script: a line for each step, in
the order in which the steps ended.
-/

namespace CellMachine

/-- What a frame shows of itself. -/
structure FrameReport where
  method : Option String
  file : String
  line : UInt32
  callerMethod : Option String
  outerType : Option String
  blockType : Option String
  self : Shown
  passedBlockType : Option String
deriving Repr

structure BlockReport where
  min : Nat
  max : Option Nat
  scopeType : Option String
  hasFrame : Bool
  isOwnFrame : Bool
  isCallerFrame : Bool
deriving Repr

structure HashReport where
  entries : List (Shown × Shown)
deriving Repr

inductive Answer where
  | nothing
  | flag (b : Bool)
  | count (n : Nat)
  | text (s : String)
  | shown (v : Shown)
  | list (items : List Answer)
  | window (w : Window)
  | frame (r : FrameReport)
  | block (r : BlockReport)
  | hash (r : HashReport)
  | stats (s : HeapStats)
  | census (counts : List (String × Nat))
  /-- An error, with the value a break carries. -/
  | error (e : CallError) (carried : Option Shown)
  | fault (f : Fault)
  | refused (why : Refusal)
  /-- For each thread the lines of its trace and what is left on its stack. -/
  | threads (runs : List (List (Nat × String × Answer) × Nat))

namespace Answer

def ofOption {α : Type} (f : α → Answer) (x : Option α) : Answer := (x.map f).getD nothing

def ok : Answer := .text "ok"

end Answer

/-- A step that has ended: how deep it stood, its name and its answer. -/
abbrev TraceLine := Nat × String × Answer

/-- What came of running a list of steps in a thread. -/
structure ThreadRun where
  trace : List TraceLine
  leftOnStack : Nat

end CellMachine
