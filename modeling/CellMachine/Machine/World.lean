import CellMachine.Failure
import CellMachine.Heap.Allocation

/-!
# The shared world

What all threads of a machine have in common: the heap, the three singletons, the table
of names, the global variables and the flags that signals set. Each function here is
one step that no other thread can see in the middle. The threads' argument stacks are
the roots of every collection; the calling thread's stack comes first.
-/

namespace CellMachine

/-- The addresses of nil, true and false. -/
structure Singletons where
  nilCell : Address
  trueCell : Address
  falseCell : Address
deriving DecidableEq, Repr, Inhabited

namespace Singletons

def nil (s : Singletons) : Value := .ref s.nilCell

def ofBool (s : Singletons) (b : Bool) : Value := .ref (if b then s.trueCell else s.falseCell)

/-- Everything but nil and false is true. -/
def truthy (s : Singletons) (v : Value) : Bool := v != s.nil && v != s.ofBool false

end Singletons

/-- Flags that signals set and calls and allocations take. -/
structure Signals where
  interrupt : Bool
  collection : Bool
  /-- Nothing is taken by calls and allocations before the handlers are installed. -/
  installed : Bool
deriving DecidableEq, Repr, Inhabited

structure World where
  heap : Heap Object
  singletons : Singletons
  /-- One cell for each name. -/
  symbols : List (String × Address)
  globals : List (String × Value)
  signals : Signals
  nextFrame : Nat

/-- The argument stacks of all threads, that of the calling thread first. -/
abbrev Stacks := List (Array Value)

namespace World

/-- Allocates a singleton and roots it for good. -/
def rooted (h : Heap Object) (o : Object) : Except HeapFault (Address × Heap Object) :=
  match h.allocate [] o with
  | (.ok a, h) => .ok (a, h.addGlobalRoot (.ref a))
  | (.error f, _) => .error f

/-- A heap with nothing but the singletons. -/
def create (s : Settings) : Except HeapFault World := do
  let heap ← Heap.create s
  let (nilCell, heap) ← rooted heap .nilObject
  let (trueCell, heap) ← rooted heap .trueObject
  let (falseCell, heap) ← rooted heap .falseObject
  return {
    heap
    singletons := ⟨nilCell, trueCell, falseCell⟩
    symbols := []
    globals := []
    signals := ⟨false, false, false⟩
    nextFrame := 1 }

/-- Replaces the heap. -/
def onHeap {α : Type} (f : Heap Object → α × Heap Object) : World → α × World
  | ⟨heap, singletons, symbols, globals, signals, nextFrame⟩ =>
    let (a, heap) := f heap
    (a, ⟨heap, singletons, symbols, globals, signals, nextFrame⟩)

def collect (argStacks : Stacks) : World → Bool × World :=
  onHeap fun h => h.collect (argStacks.map fun vs => references vs.toList)

/-- Takes a slot for an object, with a collection if its class is short of free cells. -/
def place (argStacks : Stacks) (o : Object) : World → Except HeapFault Address × World :=
  onHeap fun h => h.allocate argStacks o

def modifyObject (a : Address) (f : Object → Object) (w : World) : World :=
  (w.onHeap fun h => ((), h.modifyPayload a f)).2

def addRoot (v : Value) (w : World) : World :=
  (w.onHeap fun h => ((), h.addGlobalRoot v)).2

def removeRoot (v : Value) (w : World) : World :=
  (w.onHeap fun h => ((), h.removeGlobalRoot v)).2

def freshFrame (w : World) : FrameId × World :=
  (⟨w.nextFrame⟩, { w with nextFrame := w.nextFrame + 1 })

/-! ## Signals -/

def requestInterrupt (w : World) : World :=
  { w with signals := { w.signals with interrupt := true } }

def requestCollection (w : World) : World :=
  { w with signals := { w.signals with collection := true } }

def takeInterrupt (w : World) : Bool × World :=
  (w.signals.interrupt, { w with signals := { w.signals with interrupt := false } })

def takeCollection (w : World) : Bool × World :=
  (w.signals.collection, { w with signals := { w.signals with collection := false } })

def installHandlers (w : World) : World :=
  { w with signals := { w.signals with installed := true } }

/-- The interrupt flag as a call takes it. -/
def pollInterrupt (w : World) : Bool × World :=
  if w.signals.installed then w.takeInterrupt else (false, w)

/-- The collection flag as an allocation takes it. -/
def pollCollection (w : World) : Bool × World :=
  if w.signals.installed then w.takeCollection else (false, w)

/-- Allocates an object, after the collection that a signal has asked for. Values held
only by the object are no roots of that first collection. -/
def allocate (argStacks : Stacks) (o : Object) (w : World) : Except HeapFault Address × World :=
  let (requested, w) := w.pollCollection
  if requested then (w.collect argStacks).2.place argStacks o else w.place argStacks o

/-! ## Names -/

def symbol? (w : World) (name : String) : Option Address := w.symbols.lookup name

/-- Enters a cell for a name; if another thread was faster, the answer is its cell. -/
def publish (name : String) (fresh : Address) (w : World) : Address × World :=
  match w.symbol? name with
  | some a => (a, w)
  | none => (fresh, { w.addRoot (.ref fresh) with symbols := (name, fresh) :: w.symbols })

/-- The one cell of a name, allocated on first use. -/
def intern (argStacks : Stacks) (name : String) (w : World) : Except HeapFault Address × World :=
  match w.symbol? name with
  | some a => (.ok a, w)
  | none =>
    match w.place argStacks (.symbol name) with
    | (.ok fresh, w) => let (a, w) := w.publish name fresh; (.ok a, w)
    | (.error f, w) => (.error f, w)

/-! ## Global variables -/

def global? (w : World) (name : String) : Option Value := w.globals.lookup name

/-- Replaces the value bound to a name. -/
def rebind (name : String) (v : Value) : List (String × Value) → List (String × Value)
  | [] => [(name, v)]
  | (n, old) :: rest => if n = name then (n, v) :: rest else (n, old) :: rebind name v rest

/-- Binds a global variable; a value stays rooted until it is replaced. -/
def setGlobal (name : String) (v : Value) (w : World) : World :=
  let released :=
    match w.global? name with
    | some old => w.removeRoot old
    | none => w
  { released with globals := rebind name v released.globals }.addRoot v

end World

end CellMachine
