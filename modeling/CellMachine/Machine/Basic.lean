import CellMachine.Machine.World

/-!
# The machine

One thread's view of the machine: the shared world, the thread's own state and the
stacks of threads that wait for it. The thread has its argument stack, the transient
cells of calls now running and its frames.
-/

namespace CellMachine

/-- One call in progress. -/
structure Frame where
  id : FrameId
  method : Option String
  file : String
  line : UInt32
  /-- The scope the running method or block has captured. -/
  outer : Option Address
  /-- The block passed to the call. -/
  block : Option Address
  /-- The frame a break out of this body leads to. -/
  breakTarget : Option FrameId
deriving DecidableEq, Repr, Inhabited

/-- A frame without a caller. -/
def Frame.top (id : FrameId) (file : String) : Frame :=
  ⟨id, none, file, 0, none, none, none⟩

/-- What belongs to one thread alone. -/
structure ThreadState where
  /-- The argument stack: the thread's roots. -/
  stack : Array Value
  /-- Cells on the thread's own stack, each for the length of one call. -/
  transients : Array (Cell Object)
  frame : Frame
  /-- The frames of the callers, the direct caller first. -/
  callers : List Frame

namespace ThreadState

def start (id : FrameId) (file : String) : ThreadState :=
  ⟨#[], #[], Frame.top id file, []⟩

/-- Enters a frame of its own, at the place in the source where its caller stands. -/
def enter (id : FrameId) (method : Option String) (outer block : Option Address)
    (breakTarget : Option FrameId) : ThreadState → ThreadState
  | ⟨stack, transients, frame, callers⟩ =>
    ⟨stack, transients, ⟨id, method, frame.file, frame.line, outer, block, breakTarget⟩,
      frame :: callers⟩

/-- Back to the frame of the direct caller. -/
def leave : ThreadState → ThreadState
  | ⟨stack, transients, frame, callers⟩ =>
    ⟨stack, transients, callers.headD frame, callers.tail⟩

def backtraceFrom (frame : Frame) : List Frame → List String
  | [] => [line frame "<main>"]
  | caller :: rest => line frame "block" :: backtraceFrom caller rest
where
  /-- A place in the source and what runs there. -/
  line (frame : Frame) (unnamed : String) : String :=
    frame.file ++ ":" ++ toString frame.line.toNat ++ ":in '" ++ frame.method.getD unnamed ++ "'"

/-- One line for each frame, innermost first. -/
def backtrace (t : ThreadState) : List String := backtraceFrom t.frame t.callers

end ThreadState

/-- The machine as one thread sees it, with the state of the program that drives it. -/
structure Machine (σ : Type) where
  world : World
  thread : ThreadState
  /-- Argument stacks of threads that wait for this one. -/
  waiting : Stacks
  host : σ

namespace Machine

variable {σ : Type}

/-- A machine with one thread, about to run a file. -/
def create (s : Settings) (file : String) (host : σ) : Except HeapFault (Machine σ) := do
  let world ← World.create s
  let (id, world) := world.freshFrame
  return ⟨world, .start id file, [], host⟩

/-- The roots of a collection. -/
def argStacks (m : Machine σ) : Stacks := m.thread.stack :: m.waiting

def cell? (m : Machine σ) : Address → Option (Cell Object)
  | .memory a => m.world.heap.cell? (.memory a)
  | .stack n => m.thread.transients[n]?

/-- What lives at an address. -/
def object? (m : Machine σ) (a : Address) : Option Object := (m.cell? a).map Cell.payload

def isSynthesized (m : Machine σ) (a : Address) : Bool := (m.cell? a).any Cell.isSynthesized

/-- What a transient cell holds. -/
def synthesized? (m : Machine σ) : Value → Option Object
  | .ref a => ((m.cell? a).filter Cell.isSynthesized).map Cell.payload
  | _ => none

def typeName (m : Machine σ) (a : Address) : String := ((m.object? a).map Object.typeName).getD ""

/-! ## Changing one part -/

def onWorld {α : Type} (f : Stacks → World → α × World) : Machine σ → α × Machine σ
  | ⟨world, thread, waiting, host⟩ =>
    let (a, world) := f (thread.stack :: waiting) world
    (a, ⟨world, thread, waiting, host⟩)

def onThread {α : Type} (f : ThreadState → α × ThreadState) : Machine σ → α × Machine σ
  | ⟨world, thread, waiting, host⟩ =>
    let (a, thread) := f thread
    (a, ⟨world, thread, waiting, host⟩)

def onHost {α : Type} (f : σ → α × σ) : Machine σ → α × Machine σ
  | ⟨world, thread, waiting, host⟩ =>
    let (a, host) := f host
    (a, ⟨world, thread, waiting, host⟩)

end Machine

/-- A step on the argument stack alone. -/
def ThreadState.onStack {α : Type} (f : Array Value → α × Array Value) :
    ThreadState → α × ThreadState
  | ⟨stack, transients, frame, callers⟩ =>
    let (a, stack) := f stack
    (a, ⟨stack, transients, frame, callers⟩)

theorem ThreadState.onStack_eq {α : Type} (f : Array Value → α × Array Value) (t : ThreadState) :
    t.onStack f = ((f t.stack).1, { t with stack := (f t.stack).2 }) := rfl

namespace ThreadState

/-- Puts a transient cell on the thread's own stack. -/
def pushTransient (o : Object) : ThreadState → Address × ThreadState
  | ⟨stack, transients, frame, callers⟩ =>
    (.stack transients.size, ⟨stack, transients.push (Cell.transient o), frame, callers⟩)

def popTransient : ThreadState → ThreadState
  | ⟨stack, transients, frame, callers⟩ => ⟨stack, transients.pop, frame, callers⟩

def setLine (line : UInt32) : ThreadState → ThreadState
  | ⟨stack, transients, frame, callers⟩ => ⟨stack, transients, { frame with line }, callers⟩

end ThreadState

end CellMachine
