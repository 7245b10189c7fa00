import CellMachine.Machine.Inspect
import CellMachine.Machine.Window

/-!
# Keyword arguments

Keywords travel as a hash at the end of a window. Its keys are values; a key counts for
a name if it is the symbol of that name. A call declares which keywords it requires and
which it allows, and what becomes of others.
-/

namespace CellMachine

/-- What becomes of keywords that were not declared. -/
inductive OtherKeywords where
  | unknown
  | collected
  /-- No keyword may be passed at all. -/
  | forbidden
deriving DecidableEq, Repr

/-- What is wrong with the keywords of a call. -/
inductive KeywordFault where
  | forbidden
  | missing (names : List String)
  | unknown (keys : List Value)
deriving DecidableEq, Repr

namespace Entries

/-- The value whose key is the symbol of that name. -/
def named? (symbolName? : Value → Option String) (name : String) (es : Entries) : Option Value :=
  (es.find? fun e => symbolName? e.1 == some name).map Prod.snd

/-- Whether a key is the symbol of one of the names. -/
def isListed (symbolName? : Value → Option String) (names : List String) (key : Value) : Bool :=
  names.any fun name => symbolName? key == some name

/-- The entries that no listed name is the key of. -/
def except (symbolName? : Value → Option String) (names : List String) (es : Entries) : Entries :=
  es.filter fun e => !isListed symbolName? names e.1

/-- The first of the possible faults: forbidden, missing, unknown. -/
def fault? (symbolName? : Value → Option String) (required allowed : List String)
    (others : OtherKeywords) (es : Entries) : Option KeywordFault :=
  let missing := required.filter fun name => !es.any fun e => symbolName? e.1 == some name
  let unknown := (es.except symbolName? (required ++ allowed)).keys
  if others = .forbidden ∧ es ≠ [] then some .forbidden
  else if missing ≠ [] then some (.missing missing)
  else if others = .unknown ∧ unknown ≠ [] then some (.unknown unknown)
  else none

end Entries

/-- The name of a symbol. -/
def Machine.symbolName? {σ : Type} (m : Machine σ) : Value → Option String
  | .ref a =>
    match m.object? a with
    | some (.symbol name) => some name
    | _ => none
  | _ => none

namespace VM

variable {σ : Type}

/-- The entries of a cell, if it is a hash. -/
def entriesOf : Option Address → VM σ Entries
  | none => return []
  | some a => do
    match ← object? a with
    | some (.hash entries) => return entries
    | _ => return []

/-- The keywords of a window; none if its last value is no hash. -/
def keywords (w : Window) : VM σ Entries := do entriesOf (← readStack w.keywordHash?)

def keyword? (w : Window) (name : String) : VM σ (Option Value) := do
  let es ← keywords w
  read fun m => es.named? m.symbolName? name

/-- The keyword's value, or nil. -/
def keyword (w : Window) (name : String) : VM σ Value := do
  match ← keyword? w name with
  | some v => return v
  | none => nil

/-- Refuses a window whose keywords are not as declared. -/
def checkKeywords (w : Window) (required allowed : List String) (others : OtherKeywords) :
    VM σ Unit := do
  let es ← keywords w
  match ← read fun m => es.fault? m.symbolName? required allowed others with
  | none => return
  | some .forbidden => raiseError .keywordsRefused
  | some (.missing names) => raiseError (.missingKeywords names)
  | some (.unknown keys) => raiseError (.unknownKeywords (← keys.mapM inspect))

/-- A new hash of the keywords that are not listed. -/
def otherKeywords (w : Window) (listed : List String) : VM σ Address := do
  let es ← keywords w
  let rest ← read fun m => es.except m.symbolName? listed
  allocate (.hash (Entries.ofList rest))

end VM

end CellMachine
