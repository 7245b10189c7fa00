import CellMachine.Machine.Call
import CellMachine.Script.Answer
import CellMachine.Script.Syntax

/-!
# The state of a script

A script keeps handles, which are rooted for as long as they are bound, and the windows
of the body that is running, which are released when the body ends. Cells made while a
step is evaluated are rooted until the step ends. A transient cell is never kept: where
a value is stored, the number in it takes its place.
-/

namespace CellMachine

structure Host where
  handles : List (String × Value)
  /-- Windows of the body that is running, newest first. -/
  windows : List (String × Window)
  /-- Cells made by the step that is running. -/
  made : List Value
  /-- How deep the list that is running stands. -/
  depth : Nat
  /-- Lines of steps that have ended, latest first. -/
  trace : List TraceLine

/-- The receiver and the block of the body that is running. -/
structure Activation where
  receiver : Value
  block : Option Address
deriving Repr

namespace Host

def start (handles : List (String × Value)) : Host := ⟨handles, [], [], 0, []⟩

/-- The name of the window that holds a body's own arguments. -/
def ownArguments : String := "args"

/-- Removes the first entry of a name. -/
def removeFirst {α : Type} (name : String) : List (String × α) → List (String × α)
  | [] => []
  | e :: rest => if e.1 = name then rest else e :: removeFirst name rest

/-- Replaces the first entry of a name. -/
def replaceFirst {α : Type} (name : String) (a : α) : List (String × α) → List (String × α)
  | [] => []
  | e :: rest => if e.1 = name then (name, a) :: rest else e :: replaceFirst name a rest

end Host

namespace VM

variable {α : Type}

def refuse (why : Refusal) : VM Host α := halt (.refused why)

def host : VM Host Host := read Machine.host

def modifyHost (f : Host → Host) : VM Host Unit := onHost fun h => ((), f h)

/-! ## Handles -/

/-- The value as it may be stored. -/
def storable (v : Value) : VM Host Value := do
  match ← read fun m => m.synthesized? v with
  | some (.integer n) => return .smallInt n
  | some (.float d) => return .double d
  | _ => return v

def handle (name : String) : VM Host Value := do
  match (← host).handles.lookup name with
  | some v => return v
  | none => refuse .noHandle

def unbindHandle (name : String) (v : Value) : VM Host Unit := do
  removeRoots [v]
  modifyHost fun h => { h with handles := Host.removeFirst name h.handles }

def forgetHandle (name : String) : VM Host Unit := do unbindHandle name (← handle name)

/-- Binds a name to a value, which is rooted from now on. -/
def bindHandle (name : String) (v : Value) : VM Host Unit := do
  let v ← storable v
  addRoots [v]
  match (← host).handles.lookup name with
  | some old => unbindHandle name old
  | none => pure ()
  modifyHost fun h => { h with handles := (name, v) :: h.handles }

/-- Keeps a result, if a name is given for it. -/
def bindInto (into : Into) (v : Value) : VM Host Unit := do
  match into with
  | some name => bindHandle name v
  | none => return

/-! ## Cells made by a step -/

/-- Allocates a cell that is rooted until the step ends. -/
def make (o : Object) : VM Host Value := do
  let v := Value.ref (← allocate o)
  addRoots [v]
  modifyHost fun h => { h with made := v :: h.made }
  return v

/-- Ends a step: the cells it made are rooted no longer. -/
def forgetMade (outer : List Value) : VM Host Unit := do
  removeRoots (← host).made
  modifyHost fun h => { h with made := outer }

/-! ## Windows -/

def window (name : String) : VM Host Window := do
  match (← host).windows.lookup name with
  | some w => return w
  | none => refuse .noWindow

def addWindow (name : String) (w : Window) : VM Host Unit :=
  modifyHost fun h => { h with windows := (name, w) :: h.windows }

def replaceWindow (name : String) (w : Window) : VM Host Unit :=
  modifyHost fun h => { h with windows := Host.replaceFirst name w h.windows }

/-- Takes a window away from the body, which no longer releases it. -/
def giveAway (name : String) : VM Host Window := do
  let w ← window name
  modifyHost fun h => { h with windows := Host.removeFirst name h.windows }
  return w

/-- Releases the windows of a body, newest first, and goes on with those of its caller. -/
def closeWindows (outer : List (String × Window)) (m : Machine Host) : Machine Host :=
  let (own, m) := m.onHost fun h => (h.windows, { h with windows := outer })
  (m.onThread fun t => t.onStack fun s => ((), own.foldl (fun s e => e.2.release s) s)).2

/-- Runs a computation with windows of its own. -/
def withWindows (own : List (String × Window)) (x : VM Host α) : VM Host α := do
  let outer := (← host).windows
  modifyHost fun h => { h with windows := own }
  ensuring (closeWindows outer) x

/-- Runs a computation one list deeper. -/
def deeper (x : VM Host α) : VM Host α := do
  let depth := (← host).depth
  modifyHost fun h => { h with depth := depth + 1 }
  ensuring (fun m => (m.onHost fun h => ((), { h with depth })).2) x

end VM

end CellMachine
