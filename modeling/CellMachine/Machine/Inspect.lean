import CellMachine.Binary64.Text
import CellMachine.Machine.Computation
import CellMachine.Machine.Window
import CellMachine.Text.Quoted

/-!
# Texts of values

How a value is shown. Arrays and hashes are shown with what they hold, as deep as the
fuel allows; a value that is nested deeper than there are cells holds itself and has no
text.
-/

namespace CellMachine

/-- What a list of texts looks like between brackets. -/
def bracketed (left right : String) (texts : List String) : String :=
  left ++ ", ".intercalate texts ++ right

/-- The text of a value, given what lives at each address. -/
def inspectWith (object? : Address → Option Object) : Nat → Value → Option String
  | _, .smallInt n => some (toString n.toInt)
  | _, .double d => some (DecimalStyle.shown.write d)
  | 0, .ref _ => none
  | fuel + 1, .ref a => do
    match ← object? a with
    | .nilObject => return "nil"
    | .trueObject => return "true"
    | .falseObject => return "false"
    | .integer n => return toString n.toInt
    | .float d => return DecimalStyle.shown.write d
    | .symbol name => return ":" ++ name
    | .string text => return Text.quoted text
    | .array items =>
      return bracketed "[" "]" (← items.toList.mapM (inspectWith object? fuel))
    | .hash entries =>
      let texts ← entries.mapM fun e => do
        return (← inspectWith object? fuel e.1) ++ "=>" ++ (← inspectWith object? fuel e.2)
      return bracketed "\x7b" "\x7d" texts
    | .method m => return "#<Method: " ++ m.name ++ ">"
    | .scope _ _ => return "#<Scope>"
    | .block _ => return "#<Proc>"

/-- A value as it is shown: what it is, and its text. -/
inductive Shown where
  | int (text : String)
  | double (d : Binary64) (text : String)
  | cell (synthesized : Bool) (type text : String)
deriving DecidableEq, Repr

namespace Machine

variable {σ : Type}

/-- No value that is nested without end is deeper than there are cells. -/
def inspect? (m : Machine σ) (v : Value) : Option String :=
  inspectWith m.object? (m.world.heap.liveCells + m.thread.transients.size + 1) v

def shown? (m : Machine σ) (v : Value) : Option Shown := do
  let text ← m.inspect? v
  match v with
  | .smallInt _ => return .int text
  | .double d => return .double d text
  | .ref a => return .cell (m.isSynthesized a) (m.typeName a) text

end Machine

namespace VM

variable {σ α : Type}

/-- The value, or a halt if there is none. -/
def orExhausted : Option α → VM σ α
  | some a => pure a
  | none => halt .exhausted

def inspect (v : Value) : VM σ String := do orExhausted (← read fun m => m.inspect? v)

def shown (v : Value) : VM σ Shown := do orExhausted (← read fun m => m.shown? v)

end VM

/-- The diagnostic form of a value. -/
def Value.diagnostic : Value → String
  | .ref _ => "Ref"
  | .smallInt n => "SmallInt(" ++ toString n.toInt ++ ")"
  | .double d => "Double(" ++ DecimalStyle.plain.write d ++ ")"

/-- The diagnostic form of a window that holds the values. -/
def Window.diagnostic (w : Window) (values : List Value) : String :=
  "Args \x7b window: " ++ toString w.start ++ ".." ++ toString w.stop ++
    ", original_start: " ++ toString w.origin ++
    ", keyword_hash: " ++ (if w.hasKeywords then "true" else "false") ++
    ", values: " ++ bracketed "[" "]" (values.map Value.diagnostic) ++ " \x7d"

end CellMachine
