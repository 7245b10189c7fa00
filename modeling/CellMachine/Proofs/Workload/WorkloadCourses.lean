import CellMachine.Proofs.Workload.CallCourses
import CellMachine.Workload

/-!
# The workload as a course

What the main frame and its workers do, step by step. The main frame waits for its workers by
number. When it is alone and runs every worker at the time it joins it, it is the main frame of
the workload.
-/

namespace CellMachine

namespace Workload

/-- What becomes of a worker that runs while the main frame waits for it. -/
def joined (iterations : Int64) : Run String := do
  let t ← VM.inThread "worker" ⟨0⟩ (do VM.inspect (← sumTo iterations))
  VM.ofOutcome t.outcome

end Workload

namespace Course

abbrev Run := Course Crew

def primitives : Runner Crew := fun native receiver w _ =>
  match native with
  | .primitive p => runPrimitive p receiver w
  | .body _ => do
    releaseWindow w
    halt .exhausted

def callPrimitive (p : Primitive) (receiver argument : Value) : Run Value := do
  let w ← pushWindow [argument] false
  callMethod primitives p.method receiver w none

def scale (w : Window) : Run Value :=
  ensuring (releaseWindow w) do
    ofExcept (w.expect (.exactly 1) ["factor"])
    checkKeywords w ["factor"] ["offset"] .unknown
    let v ← readStack (w.get 0)
    let factor ← keyword w "factor"
    let offset := (← keyword? w "offset").getD (.smallInt 0)
    let product ← callPrimitive .integerMul v factor
    callPrimitive .integerAdd product offset

def countVisit : Run Unit := do
  match (← frame).outer with
  | none => return
  | some a =>
    match (← object? a).bind Object.scope? with
    | none => return
    | some (_, vars) =>
      let seen := (vars[0]?.bind Value.int?).getD 0
      modifyObject a (Object.setVar 0 (.smallInt (seen + 1)) (← nil))

def checkSquare (limit : Value) (w : Window) : Run Value :=
  ensuring (releaseWindow w) do
    countVisit
    let i ← readStack (w.get 0)
    let square ← readStack (w.get 1)
    let below ← callPrimitive .integerLt limit square
    if ← truthy below then raiseError (← breakWith i)
    nil

def blocks : Runner Crew := fun native receiver w block =>
  if native = Workload.checkBody then checkSquare receiver w else primitives native receiver w block

def arrayItems (v : Value) : Run (Option (Array Value)) :=
  read fun m => (v.cell?.bind m.object?).bind Object.array?

def yieldItem (item : Value) : Run Unit := do
  let _ ← yieldBlock blocks (← pushWindow [item] false)

def each (receiver : Value) (w : Window) : Run Value :=
  ensuring (releaseWindow w) do
    ofExcept (w.expect (.exactly 0) [])
    match ← arrayItems receiver with
    | none => raiseError (.wrongReceiver "each" "Array")
    | some items =>
      forEach yieldItem items.toList
      return receiver

def methods : Runner Crew := fun native receiver w block =>
  if native = Workload.scaleBody then scale w
  else if native = Workload.eachBody then each receiver w
  else blocks native receiver w block

def addStep (total : Value) (i : Int64) : Run Value := do
  let step ← pushWindow [total, .smallInt i] false
  ensuring (releaseWindow step) do
    let _ ← arrayOf step true
    callPrimitive .integerAdd total (.smallInt i)

def sumFrom : Nat → Int64 → Value → Run Value
  | 0, _, total => return total
  | n + 1, i, total => do sumFrom n (i + 1) (← addStep total i)

def sumTo (n : Int64) : Run Value := sumFrom n.toInt.toNat 0 (.smallInt 0)

def callScale (v : Value) : Run Value := do
  let factor ← symbol "factor"
  let offset ← symbol "offset"
  let keywords ← allocate (.hash (Entries.ofList [(factor, .smallInt 2), (offset, .smallInt 1)]))
  let receiver ← nil
  let w ← pushWindow [v, .ref keywords] true
  callMethod methods (Workload.methodOf "scale" Workload.scaleBody) receiver w none

/-- Allocates an object and adds it at the end of an array. -/
def append (array : Address) (o : Object) : Run Unit := do
  let v ← allocate o
  modifyObject array (Object.push (.ref v))

def addPair (pairs : Address) (i : Int64) : Run Unit :=
  append pairs (.array #[.smallInt i, .smallInt (i * i)])

def findSquareAbove (limit : Int64) : Run Value := do
  let pairs ← allocate (.array #[])
  let receiver ← pushWindow [.ref pairs] false
  ensuring (releaseWindow receiver) do
    forEach (fun i => addPair pairs (.ofNat i)) (List.range 20)
    let scope ← allocate (.scope none #[.smallInt 0])
    let block ← allocate
      (.block (.closure Workload.checkBody (some scope) (.smallInt limit) (some ⟨2, some 2⟩)))
    let rooted ← pushWindow [.ref scope, .ref block] false
    ensuring (releaseWindow rooted) do
      let self ← readStack (receiver.get 0)
      let w ← pushWindow [] false
      callMethod methods (Workload.methodOf "each" Workload.eachBody) self w (some block)

def startWorkers (n : Nat) : Run Unit := onHost fun crew => ((), ⟨crew.attached + n⟩)

/-- Waits for the end of a worker. -/
def joinWorker (worker : Nat) : Run String :=
  join worker fun r => do
    onHost fun crew => ((), ⟨crew.attached - 1⟩)
    ofOutcome r

def addText (array : Address) (text : String) : Run Unit := append array (.string text)

def joinWorkers (results : Address) : List Nat → Run Unit
  | [] => return
  | worker :: rest => do
    addText results (← joinWorker worker)
    joinWorkers results rest

def callWithoutArguments : Run Unit := do
  let receiver ← nil
  let w ← pushWindow [] false
  let _ ← callMethod methods (Workload.methodOf "scale" Workload.scaleBody) receiver w none

def resultHash (rooted : Window) : Run Value := do
  let sum ← symbol "sum"
  let scaled ← symbol "scaled"
  let found ← symbol "found"
  let workers ← symbol "workers"
  let a ← readStack (rooted.get 0)
  let b ← readStack (rooted.get 1)
  let c ← readStack (rooted.get 2)
  let d ← readStack (rooted.get 3)
  return .ref (← allocate (.hash (Entries.ofList [(sum, a), (scaled, b), (found, c), (workers, d)])))

def mainFrame (o : Options) : Run Value := do
  startWorkers o.threads
  let sum ← sumTo o.iterations
  let scaled ← callScale sum
  let found ← findSquareAbove 50
  let results ← allocate (.array #[])
  let rooted ← pushWindow [sum, scaled, found, .ref results] false
  ensuring (releaseWindow rooted) do
    joinWorkers results (List.range o.threads)
    if o.raise then callWithoutArguments
    resultHash rooted

def setGlobals (program : String) (values : List String) : Run Unit := do
  setGlobal "$exe" (.ref (← allocate (.string program)))
  let argv ← allocate (.array #[])
  setGlobal "ARGV" (.ref argv)
  forEach (addText argv) values

def result (x : Run Value) : Run Workload.Printed := do
  match ← outcome x with
  | .ok v => return ⟨0, ["=> " ++ (← inspect v)], []⟩
  | .error (.error e) =>
    return ⟨1, [], ["main: " ++ e.message ++ " (" ++ e.kind.name ++ ")"]⟩
  | .error h => halt h

/-- The lines about cycles of a heap. -/
def statsOf (h : Heap Object) : List String :=
  let s := h.stats
  [s!"gc: {s.cycles} cycles, {s.cellsFreed} cells freed, {h.liveCells}/{h.totalCells} cells live",
    s!"gc: last cycle {s.last.candidates} candidates, {s.last.roots} roots, " ++
      s!"{s.last.marked} marked, {s.last.freed} freed"]

def statsLines : Run (List String) := return statsOf (← read fun m => m.world.heap)

def censusLines : Run (List String) :=
  read fun m => m.world.heap.census.map Workload.censusLine

def reportedMain (program : String) (o : Options) : Run (Workload.Printed × String) := do
  setGlobals program o.values
  let printed ← result (mainFrame o)
  let stats ← if o.printStats then statsLines else pure []
  let objects ← if o.printObjects then censusLines else pure []
  let argv ← inspect ((← read fun m => m.world.global? "ARGV").getD (← nil))
  return ({ printed with output := printed.output ++ stats ++ objects }, argv)

/-- A worker runs the sum and shows it. -/
def worker (iterations : Int64) : Run String := do inspect (← sumTo iterations)

section Alone

variable (joined : VM Crew String)

lemma alone_primitives : primitives.alone joined = Workload.primitives := by
  funext native receiver w block
  cases native with
  | primitive p => exact alone_runPrimitive joined p receiver w
  | body n => simp [Runner.alone, primitives, Workload.primitives]

@[simp] lemma alone_callPrimitive (p : Primitive) (receiver argument : Value) :
    alone joined (callPrimitive p receiver argument) =
      Workload.callPrimitive p receiver argument := by
  simp [callPrimitive, Workload.callPrimitive, alone_primitives]

lemma alone_scale (w : Window) : alone joined (scale w) = Workload.scale w := by
  simp [scale, Workload.scale, run_releaseWindow]

lemma alone_countVisit : alone joined countVisit = Workload.countVisit := by
  simp only [countVisit, Workload.countVisit, alone_bind, alone_frame]
  refine congrArg _ (funext fun f => ?_)
  cases f.outer with
  | none => rfl
  | some a =>
    simp only [alone_bind, alone_object?]
    refine congrArg _ (funext fun o => ?_)
    cases o.bind Object.scope? <;> simp

lemma alone_checkSquare (limit : Value) (w : Window) :
    alone joined (checkSquare limit w) = Workload.checkSquare limit w := by
  simp only [checkSquare, Workload.checkSquare, alone_ensuring, alone_releaseWindow,
    run_releaseWindow, alone_bind, alone_countVisit, alone_readStack, alone_callPrimitive,
    alone_truthy]
  refine congrArg _ (congrArg _ (funext fun _ => congrArg _ (funext fun i => congrArg _
    (funext fun square => congrArg _ (funext fun below => congrArg _ (funext fun above => ?_))))))
  cases above <;> simp

lemma alone_blocks : blocks.alone joined = Workload.blocks := by
  funext native receiver w block
  rw [Runner.alone, blocks, Workload.blocks, ← alone_primitives joined]
  split
  · exact alone_checkSquare joined receiver w
  · rfl

lemma alone_yieldItem (item : Value) :
    alone joined (yieldItem item) = Workload.yieldItem item := by
  simp [yieldItem, Workload.yieldItem, alone_blocks]

lemma alone_each (receiver : Value) (w : Window) :
    alone joined (each receiver w) = Workload.each receiver w := by
  simp only [each, Workload.each, alone_ensuring, alone_releaseWindow, run_releaseWindow,
    alone_bind, alone_ofExcept]
  refine congrArg _ (congrArg _ (funext fun _ => congrArg _ (funext fun items => ?_)))
  cases items with
  | none => rfl
  | some items => simp [alone_yieldItem]

lemma alone_methods : methods.alone joined = Workload.methods := by
  funext native receiver w block
  rw [Runner.alone, methods, Workload.methods, ← alone_blocks joined]
  split
  · exact alone_scale joined w
  · split
    · exact alone_each joined receiver w
    · rfl

lemma alone_sumFrom (n : Nat) (i : Int64) (total : Value) :
    alone joined (sumFrom n i total) = Workload.sumFrom n i total := by
  induction n generalizing i total with
  | zero => rfl
  | succ n ih =>
    simp [sumFrom, Workload.sumFrom, addStep, Workload.addStep, run_releaseWindow, ih]

lemma alone_sumTo (n : Int64) : alone joined (sumTo n) = Workload.sumTo n :=
  alone_sumFrom joined _ _ _

lemma alone_worker (iterations : Int64) : alone joined (worker iterations) =
    (do VM.inspect (← Workload.sumTo iterations)) := by
  simp [worker, alone_sumTo]

lemma alone_callScale (v : Value) : alone joined (callScale v) = Workload.callScale v := by
  simp [callScale, Workload.callScale, alone_methods]

lemma alone_append (array : Address) (o : Object) : alone joined (append array o) = (do
    let v ← VM.allocate o
    VM.modifyObject array (Object.push (.ref v))) := by
  simp [append]

lemma alone_findSquareAbove (limit : Int64) :
    alone joined (findSquareAbove limit) = Workload.findSquareAbove limit := by
  have pair : ∀ a i, alone joined (addPair a i) = Workload.addPair a i :=
    fun a i => alone_append joined a _
  simp [findSquareAbove, Workload.findSquareAbove, alone_methods, run_releaseWindow, pair]

lemma alone_callWithoutArguments :
    alone joined callWithoutArguments = Workload.callWithoutArguments := by
  simp [callWithoutArguments, Workload.callWithoutArguments, alone_methods]

lemma alone_resultHash (rooted : Window) :
    alone joined (resultHash rooted) = Workload.resultHash rooted := by
  simp [resultHash, Workload.resultHash]

lemma alone_addText (array : Address) (text : String) :
    alone joined (addText array text) = Workload.addText array text :=
  alone_append joined array _

lemma alone_setGlobals (program : String) (values : List String) :
    alone joined (setGlobals program values) = Workload.setGlobals program values := by
  simp [setGlobals, Workload.setGlobals, alone_addText]

lemma alone_joinWorker (iterations : Int64) (worker : Nat) :
    alone (Workload.joined iterations) (joinWorker worker) = Workload.joinWorker iterations := by
  ext m : 1
  simp only [joinWorker, alone, Workload.joined, Workload.joinWorker, alone_bind, alone_onHost,
    alone_ofOutcome, VM.run_bind, VM.run_outcome, VM.run_onHost]
  -- the worker's thread always ends, whatever its outcome
  obtain ⟨t, m', ended⟩ : ∃ t m', (VM.inThread "worker" (⟨0⟩ : Crew)
      (do VM.inspect (← Workload.sumTo iterations))).run m = (.ok t, m') := ⟨_, _, rfl⟩
  rw [ended]
  simp only [run_ofOutcome]

lemma alone_joinWorkers (iterations : Int64) (results : Address) (workers : List Nat) :
    alone (Workload.joined iterations) (joinWorkers results workers) =
      Workload.joinWorkers iterations results workers.length := by
  induction workers with
  | nil => rfl
  | cons worker rest ih =>
    simp [joinWorkers, Workload.joinWorkers, alone_joinWorker, alone_addText, ih]

lemma alone_mainFrame (o : Options) :
    alone (Workload.joined o.iterations) (mainFrame o) = Workload.mainFrame o := by
  simp only [mainFrame, Workload.mainFrame, alone_bind, alone_sumTo, alone_callScale,
    alone_findSquareAbove, alone_allocate, alone_pushWindow, alone_ensuring, alone_releaseWindow,
    run_releaseWindow, alone_joinWorkers, List.length_range, startWorkers, Workload.startWorkers,
    alone_onHost]
  cases o.raise <;> simp [alone_callWithoutArguments, alone_resultHash]

lemma alone_result (x : Run Value) :
    alone joined (result x) = Workload.result (alone joined x) := by
  simp only [result, Workload.result, alone_bind, alone_outcome]
  refine congrArg _ (funext fun r => ?_)
  rcases r with (e | _ | _ | _) | v <;> simp

lemma alone_statsLines : alone joined statsLines = Workload.statsLines := rfl

lemma alone_censusLines : alone joined censusLines = Workload.censusLines := rfl

/-- Alone, the course of the main frame is the main frame of the workload. -/
theorem alone_reportedMain (program : String) (o : Options) :
    alone (Workload.joined o.iterations) (reportedMain program o) =
      Workload.reportedMain program o := by
  simp only [reportedMain, Workload.reportedMain, alone_bind, alone_setGlobals, alone_result,
    alone_mainFrame]
  cases o.printStats <;> cases o.printObjects <;>
    simp [alone_statsLines, alone_censusLines]

end Alone

end Course

end CellMachine
