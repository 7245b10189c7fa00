import CellMachine.Heap.Allocation
import CellMachine.Threads.Barrier
import CellMachine.Threads.GcWord

/-!
# Threads on one heap

Every thread runs a program of its own: from its private state it says what it does
next and which values it would report as roots. One step of a thread is one change of
what the threads share. Collection stops the world: whoever is elected coordinates the
cycle, every registered thread submits its roots and meets the others at a barrier, the
coordinator collects, and all meet once more before they leave.
-/

namespace CellMachine

/-- What the threads share besides the state of the rendezvous. -/
structure Shared (α ω : Type) where
  heap : Heap α
  /-- What else the programs share. -/
  world : ω

/-- What a thread does next, and how it goes on afterwards. -/
inductive Move (α ω σ : Type) where
  | halt
  | register (next : σ)
  | allocate (payload : α) (next : Except HeapFault Address → σ)
  | collect (next : Bool → σ)
  | safepoint (next : σ)
  /-- One change of what is shared, or a look at it. -/
  | update (act : Shared α ω → σ × Shared α ω)
  | deregister (next : σ)

structure Program (α ω σ : Type) where
  roots : σ → List Value
  move : σ → Move α ω σ

/-- Why a thread is in the rendezvous, and so where it goes on. -/
inductive Errand (α σ : Type) where
  | safepoint (next : σ)
  /-- It met a requested cycle when it was about to allocate. -/
  | beforeAllocation (payload : α) (next : Except HeapFault Address → σ)
  /-- It collects because its size class is short. -/
  | shortage (sizeClass : Nat) (payload : α) (next : Except HeapFault Address → σ)
  | collection (next : Bool → σ)
  /-- It wants to deregister while a cycle is requested. -/
  | departure (next : σ)

/-- Where a thread stands. -/
inductive Stage (α σ : Type) where
  | between
  | pressing (payload : α) (next : Except HeapFault Address → σ)
  | electing (errand : Errand α σ)
  | joining (coordinator : Bool) (errand : Errand α σ)
  | submitting (coordinator : Bool) (parties : Nat) (errand : Errand α σ)
  | arriving (coordinator : Bool) (parties : Nat) (errand : Errand α σ)
  | waiting (found : Bool) (coordinator : Bool) (parties : Nat) (errand : Errand α σ)
  | collecting (parties : Nat) (errand : Errand α σ)
  | finishing (parties : Nat) (errand : Errand α σ)
  | leaving (parties : Nat) (errand : Errand α σ)
  | waitingToLeave (found : Bool) (errand : Errand α σ)
  | departing (errand : Errand α σ)
  | growing (sizeClass : Nat) (payload : α) (next : Except HeapFault Address → σ)
  | claiming (sizeClass : Nat) (payload : α) (next : Except HeapFault Address → σ)
  | deregistering (next : σ)

/-- A thread: its private state and where it stands in its current move. -/
structure MutatorThread (α σ : Type) where
  own : σ
  stage : Stage α σ

structure MutatorSystem (α ω σ : Type) where
  shared : Shared α ω
  word : GcWord
  barrier : Barrier
  /-- Root sets submitted for the requested cycle. -/
  inputs : List RootSet
  threads : Array (MutatorThread α σ)

namespace Errand

variable {α σ : Type} [Payload α]

/-- The values of a payload that is about to be allocated. -/
def pending : Errand α σ → List Value
  | beforeAllocation payload _ => Payload.children payload
  | shortage _ payload _ => Payload.children payload
  | _ => []

/-- What a thread in this state submits. A departing thread has no roots any more. -/
def rootSet {ω : Type} (p : Program α ω σ) (own : σ) (e : Errand α σ) : RootSet :=
  match e with
  | departure _ => []
  | _ => references (p.roots own) ++ references e.pending

end Errand

namespace MutatorSystem

variable {α ω σ : Type}

def start (heap : Heap α) (world : ω) (threads : List σ) : MutatorSystem α ω σ where
  shared := ⟨heap, world⟩
  word := .initial
  barrier := .initial
  inputs := []
  threads := (threads.map fun own => ⟨own, .between⟩).toArray

def setStage (s : MutatorSystem α ω σ) (thread : Nat) (stage : Stage α σ) :
    MutatorSystem α ω σ :=
  { s with threads := s.threads.modify thread fun t => { t with stage := stage } }

/-- Ends the thread's move with a new private state. -/
def settle (s : MutatorSystem α ω σ) (thread : Nat) (own : σ) : MutatorSystem α ω σ :=
  { s with threads := s.threads.setIfInBounds thread ⟨own, .between⟩ }

def modifyHeap (s : MutatorSystem α ω σ) (f : Heap α → Heap α) : MutatorSystem α ω σ :=
  { s with shared := { s.shared with heap := f s.shared.heap } }

/-- Goes on after the rendezvous. -/
def resume (s : MutatorSystem α ω σ) (thread : Nat) : Errand α σ → MutatorSystem α ω σ
  | .safepoint next => s.settle thread next
  | .beforeAllocation payload next => s.setStage thread (.pressing payload next)
  | .shortage c payload next => s.setStage thread (.growing c payload next)
  | .collection next => s.settle thread (next true)
  | .departure next => s.setStage thread (.deregistering next)

/-- Goes on without a collection, because collection is disabled. -/
def forgo (s : MutatorSystem α ω σ) (thread : Nat) : Errand α σ → MutatorSystem α ω σ
  | .collection next => s.settle thread (next false)
  | e => s.resume thread e

/-- Past the first barrier: the coordinator collects, the others go to the second. -/
def passFirst (s : MutatorSystem α ω σ) (thread : Nat) (coordinator : Bool) (parties : Nat)
    (e : Errand α σ) : MutatorSystem α ω σ :=
  s.setStage thread (if coordinator then .collecting parties e else .leaving parties e)

variable [Payload α]

/-- The first step of a thread's next move, or why it does not take place. -/
def begin (p : Program α ω σ) (thread : Nat) (own : σ) (s : MutatorSystem α ω σ) :
    Except GcHold (MutatorSystem α ω σ) :=
  match p.move own with
  | .halt => .ok s
  | .register next =>
    match s.word.register with
    | .ok word => .ok ({ s with word }.settle thread next)
    | .error hold => .error hold
  | .allocate payload next =>
    match s.shared.heap.classOf payload with
    | .error f => .ok (s.settle thread (next (.error f)))
    | .ok _ =>
      if s.word.isRequested then
        .ok (s.setStage thread (.joining false (.beforeAllocation payload next)))
      else .ok (s.setStage thread (.pressing payload next))
  | .collect next => .ok (s.setStage thread (.electing (.collection next)))
  | .safepoint next =>
    if s.word.isRequested then .ok (s.setStage thread (.joining false (.safepoint next)))
    else .ok (s.settle thread next)
  | .update act =>
    let (own, shared) := act s.shared
    .ok ({ s with shared }.settle thread own)
  | .deregister next => .ok (s.setStage thread (.deregistering next))

/-- Looks at the pressure on the payload's size class. -/
def press (thread : Nat) (payload : α) (next : Except HeapFault Address → σ)
    (s : MutatorSystem α ω σ) : MutatorSystem α ω σ :=
  match s.shared.heap.classOf payload with
  | .error f => s.settle thread (next (.error f))
  | .ok c =>
    match s.shared.heap.pressure c with
    | .prepared =>
      (s.modifyHeap fun h => h.prewarm c).setStage thread (.claiming c payload next)
    | .relaxed => s.setStage thread (.claiming c payload next)
    | .short => s.setStage thread (.electing (.shortage c payload next))

/-- What the next step of a thread leaves, or why it does not take place: the thread has to wait,
or it finds a count out of range. -/
def attempt (p : Program α ω σ) (thread : Nat) (s : MutatorSystem α ω σ) :
    Except GcHold (MutatorSystem α ω σ) :=
  match s.threads[thread]? with
  | none => .ok s
  | some ⟨own, stage⟩ =>
    match stage with
    | .between => s.begin p thread own
    | .pressing payload next => .ok (s.press thread payload next)
    | .electing e =>
      if !s.shared.heap.gcEnabled then .ok (s.forgo thread e)
      else
        match s.word.start with
        | .ok (election, word) =>
          .ok ({ s with word }.setStage thread (.joining election.coordinator e))
        | .error hold => .error hold
    | .joining coordinator e =>
      match s.word.activeParticipants? with
      | some parties => .ok (s.setStage thread (.submitting coordinator parties.toNat e))
      | none => .ok (s.resume thread e)
    | .submitting coordinator parties e =>
      .ok ({ s with inputs := e.rootSet p own :: s.inputs }.setStage thread
        (.arriving coordinator parties e))
    | .arriving coordinator parties e =>
      match s.barrier.arrive parties with
      | (none, barrier) => .ok ({ s with barrier }.passFirst thread coordinator parties e)
      | (some found, barrier) =>
        .ok ({ s with barrier }.setStage thread (.waiting found coordinator parties e))
    | .waiting found coordinator parties e =>
      if s.barrier.passable found then .ok (s.passFirst thread coordinator parties e)
      else .error .blocked
    | .collecting parties e =>
      let inputs := s.inputs.reverse
      .ok (({ s with inputs := [] }.modifyHeap fun h => h.runCycle inputs).setStage thread
        (.finishing parties e))
    | .finishing parties e =>
      .ok ({ s with word := s.word.finish }.setStage thread (.leaving parties e))
    | .leaving parties e =>
      match s.barrier.arrive parties with
      | (none, barrier) => .ok ({ s with barrier }.setStage thread (.departing e))
      | (some found, barrier) =>
        .ok ({ s with barrier }.setStage thread (.waitingToLeave found e))
    | .waitingToLeave found e =>
      if s.barrier.passable found then .ok (s.setStage thread (.departing e))
      else .error .blocked
    | .departing e =>
      match s.word.depart with
      | .ok word => .ok ({ s with word }.resume thread e)
      | .error hold => .error hold
    | .growing c payload next =>
      .ok ((s.modifyHeap fun h => h.grow c).setStage thread (.claiming c payload next))
    | .claiming c payload next =>
      let (result, heap) := s.shared.heap.allocateIn c payload
      .ok ({ s with shared := { s.shared with heap } }.settle thread (next result))
    | .deregistering next =>
      match s.word.deregister with
      | .ok (true, word) => .ok ({ s with word }.settle thread next)
      | .ok (false, _) => .ok (s.setStage thread (.joining false (.departure next)))
      | .error hold => .error hold

/-- One step of one thread. A step that does not take place leaves the system as it is. -/
def step (p : Program α ω σ) (thread : Nat) (s : MutatorSystem α ω σ) :
    MutatorSystem α ω σ :=
  match s.attempt p thread with
  | .ok s => s
  | .error _ => s

/-- What a thread reports whose next step finds a count out of range. The thread fails; one that
has to wait does not, and tries again. -/
def failure? (p : Program α ω σ) (thread : Nat) (s : MutatorSystem α ω σ) : Option String :=
  match s.attempt p thread with
  | .ok _ => none
  | .error hold => hold.message?

omit [Payload α] in
def isHalted (p : Program α ω σ) (t : MutatorThread α σ) : Bool :=
  match t.stage, p.move t.own with
  | .between, .halt => true
  | _, _ => false

omit [Payload α] in
/-- All threads have come to their end. -/
def finished (p : Program α ω σ) (s : MutatorSystem α ω σ) : Bool :=
  s.threads.all (isHalted p)

/-- The system after the threads have followed a schedule. -/
def follow (p : Program α ω σ) (schedule : List Nat) (s : MutatorSystem α ω σ) :
    MutatorSystem α ω σ :=
  followSchedule (step p) schedule s

/-- The system after the threads have taken turns. -/
def takeTurns (p : Program α ω σ) (rounds : Nat) (s : MutatorSystem α ω σ) :
    MutatorSystem α ω σ :=
  CellMachine.takeTurns (step p) s.threads.size (finished p) rounds s

end MutatorSystem

end CellMachine
