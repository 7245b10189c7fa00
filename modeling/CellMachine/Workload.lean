import CellMachine.CommandLine
import CellMachine.Machine.Call
import CellMachine.Machine.Thread

/-!
# The numeric workload

What the command line runs: a sum through optimized calls that leaves garbage behind at
every step, a call with keywords, and a search that breaks out of a block. Workers run
the sum alongside; they are joined one after the other once the main frame has its own
results, so a main frame that fails before leaves them behind. The report has the lines
that are printed, the status and what is left on the heap.
-/

namespace CellMachine

/-- What a run of the command line leaves behind. -/
structure RunReport where
  status : Nat
  output : List String
  errors : List String
  /-- The text of the values on the command line; none if the settings were refused. -/
  argv : Option String
  /-- Workers that are still attached when the main frame has ended. -/
  attached : Nat
  /-- Cells that are left after the final sweep, if there is one. -/
  liveAfterSweep : Option Nat
deriving DecidableEq, Repr

/-- The workers of a run. -/
structure Crew where
  /-- Started and not yet joined. -/
  attached : Nat
deriving DecidableEq, Repr

namespace Workload

open VM

abbrev Run := VM Crew

/-! ## Native bodies -/

def scaleBody : Native := .body 0

def eachBody : Native := .body 1

def checkBody : Native := .body 2

/-- A method of the workload; it is never optimized. -/
def methodOf (name : String) (native : Native) : MethodObject := ⟨name, native, none, none, false⟩

/-- Runs primitives alone. -/
def primitives : Runner Crew := fun native receiver w _ =>
  match native with
  | .primitive p => runPrimitive p receiver w
  | .body _ => do
    releaseWindow w
    halt .exhausted

/-- Calls a primitive with one argument. -/
def callPrimitive (p : Primitive) (receiver argument : Value) : Run Value := do
  let w ← pushWindow [argument] false
  callMethod primitives p.method receiver w none

/-- A value times a factor plus an offset, which are keywords. -/
def scale (w : Window) : Run Value :=
  ensuring (released w) do
    ofExcept (w.expect (.exactly 1) ["factor"])
    checkKeywords w ["factor"] ["offset"] .unknown
    let v ← readStack (w.get 0)
    let factor ← keyword w "factor"
    let offset := (← keyword? w "offset").getD (.smallInt 0)
    let product ← callPrimitive .integerMul v factor
    callPrimitive .integerAdd product offset

/-- Counts a visit in the first variable of the scope the block has captured. -/
def countVisit : Run Unit := do
  match (← frame).outer with
  | none => return
  | some a =>
    match (← object? a).bind Object.scope? with
    | none => return
    | some (_, vars) =>
      let seen := (vars[0]?.bind Value.int?).getD 0
      modifyObject a (Object.setVar 0 (.smallInt (seen + 1)) (← nil))

/-- Breaks out with the first parameter once the second one exceeds the limit. -/
def checkSquare (limit : Value) (w : Window) : Run Value :=
  ensuring (released w) do
    countVisit
    let i ← readStack (w.get 0)
    let square ← readStack (w.get 1)
    let below ← callPrimitive .integerLt limit square
    if ← truthy below then raiseError (← breakWith i)
    nil

def blocks : Runner Crew := fun native receiver w block =>
  if native = checkBody then checkSquare receiver w else primitives native receiver w block

def arrayItems (v : Value) : Run (Option (Array Value)) :=
  read fun m => (v.cell?.bind m.object?).bind Object.array?

def yieldItem (item : Value) : Run Unit := do
  let _ ← yieldBlock blocks (← pushWindow [item] false)

/-- Yields the items of an array one by one. -/
def each (receiver : Value) (w : Window) : Run Value :=
  ensuring (released w) do
    ofExcept (w.expect (.exactly 0) [])
    match ← arrayItems receiver with
    | none => raiseError (.wrongReceiver "each" "Array")
    | some items =>
      forEach yieldItem items.toList
      return receiver

def methods : Runner Crew := fun native receiver w block =>
  if native = scaleBody then scale w
  else if native = eachBody then each receiver w
  else blocks native receiver w block

/-! ## The parts of the workload -/

/-- One addition, with an array of both operands as garbage. -/
def addStep (total : Value) (i : Int64) : Run Value := do
  let step ← pushWindow [total, .smallInt i] false
  ensuring (released step) do
    let _ ← arrayOf step true
    callPrimitive .integerAdd total (.smallInt i)

def sumFrom : Nat → Int64 → Value → Run Value
  | 0, _, total => return total
  | n + 1, i, total => do sumFrom n (i + 1) (← addStep total i)

/-- The sum of all numbers below `n`, from zero up. -/
def sumTo (n : Int64) : Run Value := sumFrom n.toInt.toNat 0 (.smallInt 0)

def callScale (v : Value) : Run Value := do
  let factor ← symbol "factor"
  let offset ← symbol "offset"
  let keywords ← allocate (.hash (Entries.ofList [(factor, .smallInt 2), (offset, .smallInt 1)]))
  let receiver ← nil
  let w ← pushWindow [v, .ref keywords] true
  callMethod methods (methodOf "scale" scaleBody) receiver w none

def addPair (pairs : Address) (i : Int64) : Run Unit := do
  let pair ← allocate (.array #[.smallInt i, .smallInt (i * i)])
  modifyObject pairs (Object.push (.ref pair))

/-- The first number below twenty whose square exceeds the limit. -/
def findSquareAbove (limit : Int64) : Run Value := do
  let pairs ← allocate (.array #[])
  let receiver ← pushWindow [.ref pairs] false
  ensuring (released receiver) do
    forEach (fun i => addPair pairs (.ofNat i)) (List.range 20)
    let scope ← allocate (.scope none #[.smallInt 0])
    let block ← allocate
      (.block (.closure checkBody (some scope) (.smallInt limit) (some ⟨2, some 2⟩)))
    let rooted ← pushWindow [.ref scope, .ref block] false
    ensuring (released rooted) do
      let self ← readStack (receiver.get 0)
      let w ← pushWindow [] false
      callMethod methods (methodOf "each" eachBody) self w (some block)

def startWorkers (n : Nat) : Run Unit := onHost fun crew => ((), ⟨crew.attached + n⟩)

/-- Waits for the end of one worker, which runs the sum in a thread of its own. -/
def joinWorker (iterations : Int64) : Run String := do
  let t ← inThread "worker" ⟨0⟩ (do inspect (← sumTo iterations))
  onHost fun crew => ((), ⟨crew.attached - 1⟩)
  ofOutcome t.outcome

def addText (array : Address) (text : String) : Run Unit := do
  let v ← allocate (.string text)
  modifyObject array (Object.push (.ref v))

/-- Joins workers in turn and keeps the texts of their results. -/
def joinWorkers (iterations : Int64) (results : Address) : Nat → Run Unit
  | 0 => return
  | n + 1 => do
    addText results (← joinWorker iterations)
    joinWorkers iterations results n

def callWithoutArguments : Run Unit := do
  let receiver ← nil
  let w ← pushWindow [] false
  let _ ← callMethod methods (methodOf "scale" scaleBody) receiver w none

def resultHash (rooted : Window) : Run Value := do
  let sum ← symbol "sum"
  let scaled ← symbol "scaled"
  let found ← symbol "found"
  let workers ← symbol "workers"
  let a ← readStack (rooted.get 0)
  let b ← readStack (rooted.get 1)
  let c ← readStack (rooted.get 2)
  let d ← readStack (rooted.get 3)
  return .ref (← allocate (.hash (Entries.ofList [(sum, a), (scaled, b), (found, c), (workers, d)])))

def mainFrame (o : Options) : Run Value := do
  startWorkers o.threads
  let sum ← sumTo o.iterations
  let scaled ← callScale sum
  let found ← findSquareAbove 50
  let results ← allocate (.array #[])
  let rooted ← pushWindow [sum, scaled, found, .ref results] false
  ensuring (released rooted) do
    joinWorkers o.iterations results o.threads
    if o.raise then callWithoutArguments
    resultHash rooted

/-! ## The run -/

/-- Binds the global variables that tell of the command line. -/
def setGlobals (program : String) (values : List String) : Run Unit := do
  setGlobal "$exe" (.ref (← allocate (.string program)))
  let argv ← allocate (.array #[])
  setGlobal "ARGV" (.ref argv)
  forEach (addText argv) values

/-- What is printed to one of two places. -/
structure Printed where
  status : Nat
  output : List String
  errors : List String

def result (x : Run Value) : Run Printed := do
  match ← outcome x with
  | .ok v => return ⟨0, ["=> " ++ (← inspect v)], []⟩
  | .error (.error e) =>
    return ⟨1, [], ["main: " ++ e.message ++ " (" ++ e.kind.name ++ ")"]⟩
  | .error h => halt h

def statsLines : Run (List String) := do
  let h ← read fun m => m.world.heap
  let s := h.stats
  return [
    s!"gc: {s.cycles} cycles, {s.cellsFreed} cells freed, {h.liveCells}/{h.totalCells} cells live",
    s!"gc: last cycle {s.last.candidates} candidates, {s.last.roots} roots, " ++
      s!"{s.last.marked} marked, {s.last.freed} freed"]

/-- A count, ten places wide, and what is counted. -/
def censusLine (e : String × Nat) : String :=
  let digits := toString e.2
  "".pushn ' ' (10 - digits.length) ++ digits ++ " " ++ e.1

def censusLines : Run (List String) :=
  read fun m => m.world.heap.census.map censusLine

def reportedMain (program : String) (o : Options) : Run (Printed × String) := do
  setGlobals program o.values
  let printed ← result (mainFrame o)
  let stats ← if o.printStats then statsLines else pure []
  let objects ← if o.printObjects then censusLines else pure []
  let argv ← inspect ((← read fun m => m.world.global? "ARGV").getD (← nil))
  return ({ printed with output := printed.output ++ stats ++ objects }, argv)

/-- The report of a machine that has run the main frame. -/
def report (r : Except Halt (Printed × String)) (m : Machine Crew) : RunReport :=
  let heap := m.world.heap
  let attached := m.host.attached
  let swept := if heap.collectAllAtExit then some heap.collectAll.2.liveCells else none
  match r with
  | .ok (printed, argv) =>
    ⟨printed.status, printed.output, printed.errors, some argv, attached, swept⟩
  | .error _ => ⟨101, [], [], none, attached, swept⟩

/-- Runs what the command line asks for. -/
def run (program : String) (o : Options) : RunReport :=
  match Machine.create o.settings "main" ⟨0⟩ with
  | .error (.invalidSettings reason) =>
    ⟨1, [], ["invalid heap settings: " ++ reason.message], none, 0, none⟩
  | .error _ => ⟨101, [], [], none, 0, none⟩
  | .ok m =>
    let (r, m) := (reportedMain program o).run { m with world := m.world.installHandlers }
    report r m

end Workload

end CellMachine
