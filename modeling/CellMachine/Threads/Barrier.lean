import CellMachine.Threads.Schedule

/-!
# The sense-reversing barrier

Arrivals are counted; the last one resets the count, flips the sense and passes, the
others wait until the sense differs from the one they found. The counting threads below
share one barrier and one counter: in each phase every thread adds one, waits, reads the
counter and waits again.
-/

namespace CellMachine

structure Barrier where
  arrived : Nat
  sense : Bool
deriving DecidableEq, Repr, Inhabited

namespace Barrier

def initial : Barrier := ⟨0, false⟩

/-- One arrival of `parties`. The answer is the sense to wait out, if the thread has to
wait. -/
def arrive (b : Barrier) (parties : Nat) : Option Bool × Barrier :=
  if b.arrived + 1 = parties then (none, ⟨0, !b.sense⟩)
  else (some b.sense, { b with arrived := b.arrived + 1 })

/-- Whether a thread that found the given sense may go on. -/
def passable (b : Barrier) (found : Bool) : Bool := b.sense != found

end Barrier

/-- Where a counting thread stands in its phase. -/
inductive CountingStage where
  | adding
  | arriving
  | waiting (found : Bool)
  | reading
  | arrivingAgain
  | waitingAgain (found : Bool)
deriving DecidableEq, Repr, Inhabited

structure CountingThread where
  stage : CountingStage
  /-- What it read in each phase so far, latest first. -/
  seen : List Nat
deriving DecidableEq, Repr, Inhabited

structure CountingSystem where
  barrier : Barrier
  counter : Nat
  phases : Nat
  threads : Array CountingThread
deriving DecidableEq, Repr

namespace CountingSystem

def start (threads phases : Nat) : CountingSystem :=
  ⟨.initial, 0, phases, Array.replicate threads ⟨.adding, []⟩⟩

def setStage (s : CountingSystem) (thread : Nat) (stage : CountingStage) : CountingSystem :=
  { s with threads := s.threads.modify thread fun t => { t with stage := stage } }

/-- Arrives at the barrier and goes to the next stage, at once or after waiting. -/
def arrive (s : CountingSystem) (thread : Nat) (next : CountingStage)
    (wait : Bool → CountingStage) : CountingSystem :=
  let (found, barrier) := s.barrier.arrive s.threads.size
  { s with barrier := barrier }.setStage thread ((found.map wait).getD next)

def step (thread : Nat) (s : CountingSystem) : CountingSystem :=
  match s.threads[thread]? with
  | none => s
  | some t =>
    match t.stage with
    | .adding =>
      if t.seen.length < s.phases then
        { s with counter := s.counter + 1 }.setStage thread .arriving
      else s
    | .arriving => s.arrive thread .reading .waiting
    | .waiting found =>
      if s.barrier.passable found then s.setStage thread .reading else s
    | .reading =>
      let value := s.counter
      { s with threads := s.threads.modify thread fun t =>
          { stage := .arrivingAgain, seen := value :: t.seen } }
    | .arrivingAgain => s.arrive thread .adding .waitingAgain
    | .waitingAgain found =>
      if s.barrier.passable found then s.setStage thread .adding else s

/-- Every thread has been through all phases. -/
def finished (s : CountingSystem) : Bool :=
  s.threads.all fun t => t.stage == .adding && s.phases ≤ t.seen.length

/-- What each thread read, phase by phase, when the threads take turns. -/
def readings (threads phases : Nat) : List (List Nat) :=
  let s := takeTurns step threads finished (7 * phases + 1) (start threads phases)
  s.threads.toList.map fun t => t.seen.reverse

example : readings 3 2 = [[3, 6], [3, 6], [3, 6]] := by decide +kernel

end CountingSystem

end CellMachine
