import CellMachine.Machine.Thread
import CellMachine.Script.Operations

/-!
# Running scripts

A list of steps is run in order. Each step leaves a line in the trace when it ends. An
error ends the list it happens in and goes on outside, unless the step catches it or the
list is the outermost one; faults and refusals end the step alone. Native bodies are run
by the same rules, in a frame of their own, so the runner of a script is defined by
recursion on how deep calls may be nested.
-/

namespace CellMachine

/-- Where a list of steps stands after one of them. -/
inductive Flow where
  | next
  /-- The list has ended with a value. -/
  | finished (v : Value)
deriving Repr

namespace VM

/-! ## One step -/

/-- What a step that came to a halt has to say. -/
def haltAnswer : Halt → VM Host Answer
  | .error (.break target v) => return .error (.break target v) (some (← shown v))
  | .error e => return .error e none
  | .fault f => return .fault f
  | .refused why => return .refused why
  | .exhausted => halt .exhausted

/-- Adds a line to the trace. -/
def leaveTrace (name : String) (answer : Answer) : VM Host Unit :=
  modifyHost fun h => { h with trace := (h.depth, name, answer) :: h.trace }

/-- Runs a step, leaves its line in the trace and unroots the cells it made. -/
def tracing (label : Label) (x : VM Host (Answer × Flow)) : VM Host (Except Halt Flow) := do
  let outer := (← host).made
  modifyHost fun h => { h with made := [] }
  let r ← outcome x
  match r with
  | .ok (answer, flow) =>
    leaveTrace label.name answer
    forgetMade outer
    return .ok flow
  | .error h =>
    leaveTrace label.name (← haltAnswer h)
    forgetMade outer
    return .error h

/-- Goes on after a step whose halt ends the step alone; an error goes on outside,
unless the step catches it or stands in the outermost list. -/
def traced (label : Label) (x : VM Host (Answer × Flow)) : VM Host Flow := do
  match ← tracing label x with
  | .ok flow => return flow
  | .error (.error e) =>
    if label.caught || (← host).depth = 0 then return .next else raiseError e
  | .error _ => return .next

/-- A step that ends its list with an error. -/
def tracedLast (label : Label) (x : VM Host CallError) : VM Host Flow := do
  match ← tracing label (do raiseError (← x)) with
  | .ok flow => return flow
  | .error (.error e) => if (← host).depth = 0 then return .finished (← nil) else raiseError e
  | .error _ => return .next

def resultOf : Flow → Option Value
  | .next => none
  | .finished v => some v

/-- Repeats a list until it ends with a value. -/
def repeated (x : VM Host Flow) : Nat → VM Host Flow
  | 0 => return .next
  | n + 1 => do
    match ← x with
    | .next => repeated x n
    | .finished v => return .finished v

/-! ## Threads -/

/-- Runs a list of steps in a thread that has its own copies of the handles. -/
def inWorker (x : VM Host Flow) : VM Host ThreadRun := do
  let handles := (← host).handles
  addRoots (handles.map Prod.snd)
  let t ← inThread "worker" (Host.start handles) (withWindows [] x)
  removeRoots (t.host.handles.map Prod.snd)
  match t.outcome with
  | .error .exhausted => halt .exhausted
  | _ => return ⟨t.host.trace.reverse, t.stack.size⟩

/-! ## Lists of steps -/

mutual

def runStep (bodies : Bodies) (act : Activation) : Step → VM Host Flow
  | .op label op => traced label do
    let answer ← perform bodies act op
    return (answer, .next)
  | .return label e => traced label do
    let v ← evalStorable act e
    return (← showValue v, .finished v)
  | .break label e => tracedLast label do breakWith (← evalStorable act e)
  | .raise label kind message => tracedLast label (return .raised kind message)
  | .panic label text => do
    if (← host).depth = 0 then traced label (refuse .unknownStep)
    else throwFault (.deliberate text)
  | .child label outer method block steps => traced label do
    let outer ← evalCell? act outer
    let block ← evalCell? act block
    let flow ← inFrame method outer block none <|
      withWindows [] <| deeper <| runSteps bodies ⟨act.receiver, block⟩ steps
    return (← showOption (resultOf flow), .next)
  | .when label condition yes no => traced label do
    let holds ← truthy (← eval act condition)
    let flow ← deeper (if holds then runSteps bodies act yes else runSteps bodies act no)
    return (.flag holds, flow)
  | .repeat label times steps => traced label do
    let flow ← deeper (repeated (runSteps bodies act steps) times)
    return (.nothing, flow)
  | .spawn label workers => traced label do
    return (.threads (← runWorkers bodies workers), .next)

def runSteps (bodies : Bodies) (act : Activation) : List Step → VM Host Flow
  | [] => return .next
  | step :: rest => do
    match ← runStep bodies act step with
    | .next => runSteps bodies act rest
    | .finished v => return .finished v

def runWorkers (bodies : Bodies) :
    List (List Step) → VM Host (List (List TraceLine × Nat))
  | [] => return []
  | steps :: rest => do
    let receiver ← nil
    let run ← inWorker (runSteps bodies ⟨receiver, none⟩ steps)
    return (run.trace, run.leftOnStack) :: (← runWorkers bodies rest)

end

/-! ## Native bodies -/

/-- Runs a body of the script. Its own arguments are its first window. -/
def runBody (bodies : Bodies) (steps : List Step) (receiver : Value) (w : Window)
    (block : Option Address) : VM Host Value :=
  withWindows [(Host.ownArguments, w)] <| deeper do
    match ← runSteps bodies ⟨receiver, block⟩ steps with
    | .finished v => return v
    | .next => nil

/-- Runs native bodies whose calls are nested at most so deep. -/
def runnerAt (bodies : Array (List Step)) : Nat → Runner Host
  | 0 => fun _ _ w _ => do
    releaseWindow w
    halt .exhausted
  | depth + 1 => fun native receiver w block =>
    match native with
    | .primitive p => runPrimitive p receiver w
    | .body i =>
      runBody ⟨bodies.size, runnerAt bodies depth⟩ (bodies[i]?.getD []) receiver w block

/-- How deep calls may be nested: deeper than any memory reaches. -/
def maxNesting : Nat := UInt32.size

end VM

/-! ## Whole scripts -/

/-- The trace of a script, and the live objects that are left when only the global
variables are kept. -/
structure ScriptReport where
  run : ThreadRun
  census : List (String × Nat)

namespace Script

/-- Forgets handles and stacks and collects. -/
def finalCensus (m : Machine Host) : List (String × Nat) :=
  let world := m.host.handles.foldl (fun w e => w.removeRoot e.2) m.world
  (world.collect []).2.heap.census

/-- Runs a script on a machine of its own, with handlers for signals installed. One that goes
deeper than any memory reaches, in calls or in what it shows, reports nothing. -/
def run (s : Settings) (script : Script) : Except HeapFault (Option ScriptReport) := do
  let m ← Machine.create s "main" (Host.start [])
  let m := { m with world := m.world.installHandlers }
  let bodies : Bodies := ⟨script.bodies.size, VM.runnerAt script.bodies VM.maxNesting⟩
  let steps : VM Host Flow := VM.withWindows [] (VM.runSteps bodies ⟨m.world.singletons.nil, none⟩
    script.steps)
  match steps.run m with
  | (.error .exhausted, _) => return none
  | (_, m) => return some ⟨⟨m.host.trace.reverse, m.thread.stack.size⟩, finalCensus m⟩

end Script

end CellMachine
