import CellMachine.Script.Host

/-!
# Evaluation of expressions

Expressions are evaluated from left to right, the parts before the whole. A step evaluates
all its expressions before it asks whether they are of the right kind and whether the
window it works on is there; that a cell is a cell is asked at once.
-/

namespace CellMachine

namespace VM

/-- A value that may have to be boxed. -/
def makeInteger (n : Int64) : VM Host Value := do
  match Value.smallInt? n with
  | some v => return v
  | none => make (.integer n)

/-- A value inside that many arrays. -/
def nestIn : Nat → Value → VM Host Value
  | 0, v => return v
  | depth + 1, v => do nestIn depth (← make (.array #[← storable v]))

mutual

def eval (act : Activation) : Expr → VM Host Value
  | .nil => nil
  | .bool b => ofBool b
  | .int n => makeInteger n
  | .text s => make (.string s)
  | .list items => do make (.array (← evalStored act items).toArray)
  | .small n => return .smallInt n
  | .double d => return .double d
  | .symbol name => symbol name
  | .box n => make (.integer n)
  | .floatBox d => make (.float d)
  | .hash entries => do make (.hash (Entries.ofList (← evalEntries act entries)))
  | .handle name => handle name
  | .argument i => do
    let w ← window Host.ownArguments
    readStack (w.get i)
  | .self => return act.receiver
  | .passedBlock => do
    match act.block with
    | some a => return .ref a
    | none => nil
  | .outerScope => do
    match (← frame).outer with
    | some a => return .ref a
    | none => nil
  | .global name => do
    match ← read fun m => m.world.global? name with
    | some v => return v
    | none => nil
  | .nested depth e => do nestIn depth (← eval act e)
  | .refused why => refuse why

/-- Values as they are stored. -/
def evalStored (act : Activation) : List Expr → VM Host (List Value)
  | [] => return []
  | e :: rest => do
    let v ← storable (← eval act e)
    return v :: (← evalStored act rest)

def evalEntries (act : Activation) : List (Expr × Expr) → VM Host (List (Value × Value))
  | [] => return []
  | (k, x) :: rest => do
    let key ← storable (← eval act k)
    let item ← storable (← eval act x)
    return (key, item) :: (← evalEntries act rest)

end

/-- Values as they are passed on. -/
def evalAll (act : Activation) : List Expr → VM Host (List Value)
  | [] => return []
  | e :: rest => do
    let v ← eval act e
    return v :: (← evalAll act rest)

def evalStorable (act : Activation) (e : Expr) : VM Host Value := do storable (← eval act e)

/-- A cell, where nil and inline numbers stand for none. -/
def optionalCell (v : Value) : VM Host (Option Address) := do
  if v = (← nil) then return none else return v.cell?

def evalCell? (act : Activation) (e : Expr) : VM Host (Option Address) := do
  optionalCell (← eval act e)

/-- A cell that is going to be stored. -/
def evalStoredCell? (act : Activation) (e : Expr) : VM Host (Option Address) := do
  optionalCell (← evalStorable act e)

/-- A cell that has to be there. -/
def evalCell (act : Activation) (e : Expr) : VM Host Address := do
  match ← eval act e with
  | .ref a => return a
  | _ => refuse .notACell

/-- The object at an address, which has to be of the kind that is asked for. A step asks
when all its expressions have been evaluated. -/
def objectAs {α : Type} (what : String) (select : Object → Option α) (a : Address) :
    VM Host α := do
  match (← object? a).bind select with
  | some x => return x
  | none => refuse (.notA what)

/-- The window of a call. -/
def supply (act : Activation) : Supply → VM Host Window
  | .window name => giveAway name
  | .values es hasKeywords => do pushWindow (← evalAll act es) hasKeywords

def native (bodies : Nat) : BodyRef → VM Host Native
  | .body i => if i < bodies then return .body i else refuse .body
  | .primitive name =>
    match Primitive.find? name with
    | some p => return .primitive p
    | none => refuse .primitive
  | .refused => refuse .body

end VM

end CellMachine
