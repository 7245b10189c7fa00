import CellMachine.Heap.Allocation
import CellMachine.Heap.Node
import CellMachine.Threads.GcWord

/-!
# Sessions with one heap

A single thread works on a heap of nodes: it keeps a list of explicit roots, numbers
its nodes in the order of allocation and knows them by their numbers. A number is alive
as long as the address it was given holds its node.
-/

namespace CellMachine

/-- The target of an edge. -/
inductive EdgeTarget where
  | node (id : Nat)
  | int (n : Int64)
deriving Repr

/-- A word: the address a node was given with an offset, or one that was not got from any
address. -/
inductive WordOf where
  | foreign
  | near (id : Nat) (delta : Int)
deriving Repr

/-- Allocations of one step. -/
structure Batch where
  times : Nat
  bytes : Nat
  kind : String
  /-- Keeps as a root every so many-th node, from the first; none if zero. -/
  keep : Nat
  /-- From the second on, each node also points at the one before it. -/
  chain : Bool
  edges : List EdgeTarget
deriving Repr

inductive HeapStep where
  | allocate (batch : Batch)
  | allocateWide
  | link (source : Nat) (target : EdgeTarget)
  | unlink (source target : Nat)
  | root (target : EdgeTarget)
  | unroot (target : EdgeTarget)
  | clearRoots
  | addGlobal (target : EdgeTarget)
  | removeGlobal (target : EdgeTarget)
  | collect
  | safepoint
  | enable
  | disable
  | setExit (on : Bool)
  | stats
  | census
  | counts
  | isLive (id : Nat)
  | isAligned (id : Nat)
  | isMarked (id : Nat)
  | cellAt (word : WordOf)
  | identify (words : List WordOf)
  | collectAll
  | unknown
deriving Repr

/-- A step that cannot be taken as it stands. -/
inductive HeapRefusal where
  | deadOrUnknown
  | payloadSize
  | word
  | step
deriving DecidableEq, Repr

namespace HeapRefusal

def message : HeapRefusal → String
  | deadOrUnknown => "dead or unknown id"
  | payloadSize => "payload size"
  | word => "word"
  | step => "heap step"

end HeapRefusal

inductive HeapAnswer where
  | nothing
  | flag (b : Bool)
  | count (n : Nat)
  | ids (ids : List Nat)
  /-- The first number used and the cycles run meanwhile. -/
  | allocated (first cycles : Nat)
  | stats (s : HeapStats)
  | census (counts : List (String × Nat))
  | counts (total free live : Nat)
  | refused (why : HeapRefusal)
  | fault (why : HeapFault)
deriving Repr

structure HeapSession where
  heap : Heap Node
  word : GcWord
  /-- The address each number was given. -/
  places : Array Address
  roots : Array Value

namespace HeapSession

/-- Payload sizes a node can have. -/
def payloadSizes : List Nat :=
  [8, 16, 20, 32, 36, 64, 68, 96, 100, 160, 164, 224, 228, 480, 484, 1000]

def start (s : Settings) : Except HeapFault HeapSession := do
  let heap ← Heap.create s
  return { heap, word := (GcWord.initial.register).toOption.getD .initial, places := #[],
           roots := #[] }

/-- The address of a number that is alive. -/
def place? (s : HeapSession) (id : Nat) : Option Address := do
  let a ← s.places[id]?
  let node ← s.heap.payload? a
  if node.id = id then some a else none

/-- The number of the node that lives at an address. -/
def idOf? (s : HeapSession) (a : Address) : Option Nat := (s.heap.payload? a).map Node.id

def target? (s : HeapSession) : EdgeTarget → Option Value
  | .node id => (s.place? id).map .ref
  | .int n => some (.smallInt n)

/-- An address that no block covers. -/
def nowhere : Address := .memory 0

/-- The address a word stands for, if its node was ever allocated. Where the blocks lie is
the system's choice, so a foreign word points into none of them. -/
def word? (s : HeapSession) : WordOf → Option Address
  | .foreign => some nowhere
  | .near id delta =>
    match s.places[id]? with
    | some (.memory n) => some (.memory (n + delta).toNat)
    | some (.stack n) => some (.stack n)
    | none => none

/-- Allocates one node and keeps it if it is due; the last node is known for chaining. -/
def allocateOne (s : HeapSession) (b : Batch) (edges : List Value) (i : Nat) :
    Except HeapFault Address × HeapSession :=
  let node : Node := ⟨s.places.size, b.kind, b.bytes, 8, edges⟩
  let (result, heap) := s.heap.allocate [s.roots] node
  match result with
  | .error f => (.error f, { s with heap })
  | .ok a =>
    let due := 0 < b.keep && i % b.keep == 0
    (.ok a, { s with
      heap
      places := s.places.push a
      roots := if due then s.roots.push (.ref a) else s.roots })

/-- Allocates the rest of a batch, after `i` nodes of it. -/
def allocateRest (b : Batch) (edges : List Value) :
    Nat → Nat → Option Address → HeapSession → Option HeapFault × HeapSession
  | 0, _, _, s => (none, s)
  | n + 1, i, last, s =>
    let chained := if b.chain then (last.map Value.ref).toList else []
    match s.allocateOne b (edges ++ chained) i with
    | (.error f, s) => (some f, s)
    | (.ok a, s) => allocateRest b edges n (i + 1) (some a) s

/-- The edges are looked up before the size is looked at. -/
def allocateBatch (s : HeapSession) (b : Batch) : HeapAnswer × HeapSession :=
  match b.edges.mapM s.target? with
  | none => (.refused .deadOrUnknown, s)
  | some edges =>
    if b.bytes ∉ payloadSizes then (.refused .payloadSize, s)
    else
      let first := s.places.size
      let cycles := s.heap.stats.cycles
      match allocateRest b edges b.times 0 none s with
      | (some f, s) => (.fault f, s)
      | (none, s) => (.allocated first (s.heap.stats.cycles - cycles), s)

/-- Acts on a node that has to be alive. -/
def withNode (s : HeapSession) (id : Nat)
    (act : Address → HeapAnswer × HeapSession) : HeapAnswer × HeapSession :=
  match s.place? id with
  | some a => act a
  | none => (.refused .deadOrUnknown, s)

/-- Acts on an integer or on a node that has to be alive. -/
def withTarget (s : HeapSession) (target : EdgeTarget)
    (act : Value → HeapAnswer × HeapSession) : HeapAnswer × HeapSession :=
  match s.target? target with
  | some v => act v
  | none => (.refused .deadOrUnknown, s)

def setHeap (s : HeapSession) (heap : Heap Node) : HeapSession := { s with heap }

def collect (s : HeapSession) : HeapAnswer × HeapSession :=
  let (ran, heap) := s.heap.collect [references s.roots.toList]
  (.flag ran, s.setHeap heap)

/-- Forgets all roots and drops every cell. -/
def collectAll (s : HeapSession) : HeapAnswer × HeapSession :=
  let (freed, heap) := { s.heap with globalRoots := [] }.collectAll
  (.count freed, { s with heap, roots := #[] })

def step (s : HeapSession) : HeapStep → HeapAnswer × HeapSession
  | .allocate b => s.allocateBatch b
  | .allocateWide =>
    let (result, heap) := s.heap.allocate [s.roots] ⟨s.places.size, "Wide", 32, 32, []⟩
    match result with
    | .error f => (.fault f, s.setHeap heap)
    | .ok _ => (.nothing, s.setHeap heap)
  | .link source target =>
    s.withNode source fun a =>
      s.withTarget target fun v =>
        (.nothing, s.setHeap (s.heap.modifyPayload a fun n => n.addEdge v))
  | .unlink source target =>
    s.withNode source fun a =>
      s.withNode target fun b =>
        let v := Value.ref b
        let removed := ((s.heap.payload? a).map fun n => n.edges.count v).getD 0
        (.count removed, s.setHeap (s.heap.modifyPayload a fun n => n.removeEdges v))
  | .root target =>
    s.withTarget target fun v =>
      let roots := s.roots.push v
      (.count roots.size, { s with roots })
  | .unroot target =>
    match s.target? target with
    | some v => (.flag (s.roots.contains v), { s with roots := s.roots.erase v })
    | none => (.flag false, s)
  | .clearRoots => (.count s.roots.size, { s with roots := #[] })
  | .addGlobal target =>
    s.withTarget target fun v => (.nothing, s.setHeap (s.heap.addGlobalRoot v))
  | .removeGlobal target =>
    s.withTarget target fun v =>
      (.flag (s.heap.hasGlobalRoot v), s.setHeap (s.heap.removeGlobalRoot v))
  | .collect => s.collect
  | .safepoint => (.nothing, s)
  | .enable => (.flag true, s.setHeap s.heap.enable)
  | .disable => (.flag false, s.setHeap s.heap.disable)
  | .setExit on => (.flag on, s.setHeap (s.heap.setCollectAllAtExit on))
  | .stats => (.stats s.heap.stats, s)
  | .census => (.census s.heap.census, s)
  | .counts => (.counts s.heap.totalCells s.heap.freeCells s.heap.liveCells, s)
  | .isLive id => (.flag ((s.place? id).any s.heap.isLive), s)
  | .isAligned id =>
    s.withNode id fun a =>
      match a with
      | .memory n => (.flag (n % cellAlign == 0), s)
      | .stack _ => (.flag false, s)
  | .isMarked id =>
    s.withNode id fun a => (.flag ((s.heap.cell? a).any Cell.isMarked), s)
  | .cellAt word =>
    match s.word? word with
    | some w => ((((s.heap.cellFor? w).bind s.idOf?).map .count).getD .nothing, s)
    | none => (.refused .word, s)
  | .identify words =>
    (.ids ((s.heap.identify (words.filterMap s.word?)).filterMap s.idOf?), s)
  | .collectAll => s.collectAll
  | .unknown => (.refused .step, s)

/-- The numbers of the nodes dropped since there were `before` of them. -/
def droppedSince (s : HeapSession) (before : Nat) : List Nat :=
  (s.heap.dropped.take (s.heap.dropped.length - before)).map Node.id

/-- What a session shows after each step. -/
structure Report where
  answer : HeapAnswer
  live : Nat
  total : Nat
  dropped : List Nat

def perform (s : HeapSession) (step : HeapStep) : Report × HeapSession :=
  let before := s.heap.dropped.length
  let (answer, s) := s.step step
  (⟨answer, s.heap.liveCells, s.heap.totalCells, s.droppedSince before⟩, s)

/-- Threads still registered when the session's thread has gone. -/
def threadsAtEnd (s : HeapSession) : UInt64 :=
  ((s.word.deregister).toOption.map fun r => r.2.threads).getD s.word.threads

/-- The numbers of the nodes that go with the heap. -/
def teardown (s : HeapSession) : List Nat := s.heap.remains.map Node.id

end HeapSession

end CellMachine
