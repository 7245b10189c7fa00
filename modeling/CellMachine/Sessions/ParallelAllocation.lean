import CellMachine.Heap.Node
import CellMachine.Threads.Mutator

/-!
# Parallel allocation

Each thread registers, allocates nodes one by one, keeps every so many-th of them as a
root, collects after every so many-th, and before it deregisters looks whether all its
roots still hold its own nodes. When all threads have gone, one more thread collects
without any roots.
-/

namespace CellMachine

/-- What every thread of the exercise does. -/
structure AllocationPlan where
  threads : Nat
  /-- Nodes that each thread allocates. -/
  nodes : Nat
  /-- Every so many-th node is kept, from the first. -/
  keep : Nat
  /-- A collection follows every so many-th node; none if zero. -/
  collectEvery : Nat
  /-- Bytes and alignment of a node's payload. -/
  size : Nat := 8
  align : Nat := 8
deriving DecidableEq, Repr

inductive AllocatorPhase where
  | arriving
  | allocating
  | collecting
  | leaving
  | gone
deriving DecidableEq, Repr

/-- The private state of an allocating thread. -/
structure AllocatingThread where
  thread : Nat
  phase : AllocatorPhase
  /-- Nodes allocated so far. -/
  made : Nat
  /-- The number and the place of each node kept, latest first. -/
  kept : List (Nat × Address)
  intact : Bool
  fault : Option HeapFault
deriving Repr

/-- What the exercise shows at its end. -/
structure AllocationOutcome where
  /-- Roots of each thread, and whether they all held its nodes. -/
  kept : List (Nat × Bool)
  /-- Whether the last collection ran. -/
  ran : Bool
  freed : Nat
  live : Nat
  participants : Nat
deriving DecidableEq, Repr

namespace AllocationPlan

variable (plan : AllocationPlan)

def nodeId (thread made : Nat) : Nat := thread * plan.nodes + made

/-- The node with that number. -/
def node (id : Nat) : Node := ⟨id, "Node", plan.size, plan.align, []⟩

def afterNode (t : AllocatingThread) : AllocatorPhase :=
  if 0 < plan.collectEvery && t.made % plan.collectEvery == 0 then .collecting
  else .allocating

/-- A node has been allocated. -/
def allocated (t : AllocatingThread) : Except HeapFault Address → AllocatingThread
  | .error f => { t with phase := .leaving, fault := some f }
  | .ok a =>
    let id := plan.nodeId t.thread t.made
    let kept := if t.made % plan.keep == 0 then (id, a) :: t.kept else t.kept
    let t := { t with kept, made := t.made + 1 }
    { t with phase := plan.afterNode t }

/-- Whether every root holds the node that was kept there. -/
def check (t : AllocatingThread) (h : Heap Node) : Bool :=
  t.kept.all fun (id, a) => (h.payload? a).map Node.id == some id

def program : Program Node Unit AllocatingThread where
  roots t := t.kept.map fun k => .ref k.2
  move t :=
    match t.phase with
    | .arriving => .register { t with phase := .allocating }
    | .allocating =>
      if t.made < plan.nodes then
        .allocate (plan.node (plan.nodeId t.thread t.made)) (plan.allocated t)
      else .update fun s => ({ t with phase := .leaving, intact := check t s.heap }, s)
    | .collecting => .collect fun _ => { t with phase := .allocating }
    | .leaving => .deregister { t with phase := .gone }
    | .gone => .halt

def initialThread (thread : Nat) : AllocatingThread :=
  ⟨thread, .arriving, 0, [], false, none⟩

def system (heap : Heap Node) : MutatorSystem Node Unit AllocatingThread :=
  .start heap () ((List.range plan.threads).map initialThread)

/-- Rounds that are enough when all threads take turns: a node may cost its thread a
cycle of every other thread. -/
def rounds : Nat := 20 * (plan.nodes + 2) * (plan.threads + 1)

/-- What a late thread without roots finds after the system has come to its end. -/
def outcome (s : MutatorSystem Node Unit AllocatingThread) : AllocationOutcome :=
  let kept := s.threads.toList.map fun t => (t.own.kept.length, t.own.intact)
  let (ran, heap) := s.shared.heap.collect [[]]
  ⟨kept, ran, heap.stats.cellsFreed, heap.liveCells, s.word.participants.toNat⟩

/-- The outcome when the threads take turns. -/
def run (settings : Settings) : Except HeapFault AllocationOutcome := do
  let heap ← Heap.create settings
  return outcome ((plan.system heap).takeTurns plan.program plan.rounds)

end AllocationPlan

end CellMachine
