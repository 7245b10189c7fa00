import CellMachine.Machine.Keywords
import CellMachine.Numeric

/-!
# Calls

A call runs the native body of a method or a block in a frame of its own. It takes over
its window of arguments and releases it on every way out. What a native body does is
given from outside, as a runner, so that everything here holds for any bodies.

A block knows the frame that passed it to the outermost call now running with it. A
break out of the block's body leads to that frame: the call that was made there ends
with the value of the break.
-/

namespace CellMachine

/-- Runs a native body on a receiver, a window and a block. The window becomes its own. -/
abbrev Runner (σ : Type) := Native → Value → Window → Option Address → VM σ Value

/-- What arithmetic sees of an object. -/
def Operand.ofObject : Object → Operand
  | .integer n => .number (.integer n)
  | .float d => .number (.double d)
  | o => .other o.typeName

namespace VM

variable {σ α : Type}

/-! ## Windows -/

/-- Pushes values as a window. -/
def pushWindow (values : List Value) (hasKeywords : Bool) : VM σ Window :=
  onStack fun s => let (w, s) := Window.push values hasKeywords s; (.ok w, s)

def releaseWindow (w : Window) : VM σ Unit := modifyStack w.release

/-- The release of a window, to be done when a computation ends. -/
def released (w : Window) (m : Machine σ) : Machine σ :=
  (m.onThread fun t => t.onStack fun s => ((), w.release s)).2

/-- A new array of a window's values. -/
def arrayOf (w : Window) (withKeywords : Bool) : VM σ Address := do
  allocate (.array (← readStack (w.values withKeywords)).toArray)

/-- The values of a window as a block with parameters sees them: an array that comes
alone is spread over more than one parameter, what is missing is nil and what is too
much is dropped. -/
def parameters (w : Window) (min : Nat) (max : Option Nat) (spread withKeywords : Bool) :
    VM σ (List Value) := do
  let values ← readStack (w.values withKeywords)
  let source ←
    match values with
    | [.ref a] =>
      if spread && 1 < min then
        match ← object? a with
        | some (.array items) => pure items.toList
        | _ => pure values
      else pure values
    | _ => pure values
  return Window.fitted min max (← nil) source

/-! ## Primitives -/

/-- A value as an operand, wherever its number is kept. -/
def operand : Value → VM σ Operand
  | .smallInt n => return .number (.integer n)
  | .double d => return .number (.double d)
  | .ref a => return ((← object? a).map Operand.ofObject).getD (.other "")

/-- A result as a value. -/
def settle : Computed → VM σ Value
  | .integer n => integer n
  | .double d => return .double d
  | .truth b => ofBool b

/-- Runs a primitive: count, receiver and operand are checked in this order. -/
def runPrimitive (p : Primitive) (receiver : Value) (w : Window) : VM σ Value :=
  ensuring (released w) do
    ofExcept (w.expect (.exactly 1) [])
    let compute ← ofExcept (p.on (← operand receiver))
    let argument ← readStack (w.get 0)
    settle (← ofExcept (compute (← operand argument)))

/-! ## The calling frame of a block -/

/-- Whether the cell is a block that no running call has been passed. -/
def isDetached (a : Address) : VM σ Bool := do
  match ← object? a with
  | some (.block b) => return b.callingFrame.isNone
  | _ => return false

def detach (a : Address) (m : Machine σ) : Machine σ :=
  (m.onWorld fun _ w => ((), w.modifyObject a (Object.withCallingFrame none))).2

/-- Lets the block know its calling frame for the length of a computation, unless it
has one already. -/
def attached (block : Option Address) (caller : FrameId) (x : VM σ α) : VM σ α := do
  match block with
  | none => x
  | some a =>
    if ← isDetached a then
      modifyObject a (Object.withCallingFrame (some caller))
      ensuring (detach a) x
    else x

/-! ## Methods -/

/-- A number on the thread's own stack gets a cell on the heap; any other receiver stays
what it is. -/
def promote (receiver : Value) : VM σ Value := do
  match ← read fun m => m.synthesized? receiver with
  | some (.integer n) => return .ref (← allocate (.integer n))
  | some (.float d) => return .ref (← allocate (.float d))
  | _ => return receiver

/-- Runs a body with a transient cell as its only argument. -/
def runSynthesized (run : Runner σ) (native : Native) (receiver : Value) (o : Object)
    (block : Option Address) : VM σ Value :=
  withTransient o fun a => do
    let w ← pushWindow [.ref a] false
    run native receiver w block

/-- Runs the body of a method. An optimized one gets an inline number that is its only
argument in a transient cell; the receiver of any other is never transient. -/
def dispatch (run : Runner σ) (m : MethodObject) (receiver : Value) (w : Window)
    (block : Option Address) : VM σ Value := do
  if m.optimized then
    if w.count true = 1 then
      match ← onHalt (released w) (readStack (w.get 0)) with
      | .smallInt n =>
        releaseWindow w
        runSynthesized run m.native receiver (.integer n) block
      | .double d =>
        releaseWindow w
        runSynthesized run m.native receiver (.float d) block
      | .ref _ => run m.native receiver w block
    else run m.native receiver w block
  else
    let receiver ← onHalt (released w) (promote receiver)
    run m.native receiver w block

/-- A break to the frame is over; its value is the result. -/
def landing (id : FrameId) (x : VM σ Value) : VM σ Value := do
  match ← outcome x with
  | .error (.error (.break target v)) =>
    if target = id then return v else raiseError (.break target v)
  | r => ofOutcome r

/-- Calls a method. A pending interrupt is delivered instead of the call. -/
def callMethod (run : Runner σ) (m : MethodObject) (receiver : Value) (w : Window)
    (block : Option Address) : VM σ Value := do
  if ← inWorld fun _ world => world.pollInterrupt then
    releaseWindow w
    raiseError .interrupt
  let caller := (← frame).id
  landing caller <|
    inFrame (some m.name) m.scope block none <|
      attached block caller <|
        dispatch run m (m.receiver.getD receiver) w block

/-! ## Blocks -/

/-- Calls a block. With declared parameters its body gets a window of exactly these,
above the one it was called with. -/
def callBlock (run : Runner σ) (b : BlockObject) (w : Window) (block : Option Address) :
    VM σ Value :=
  inFrame none b.scope block b.callingFrame do
    match b.arity with
    | none => run b.native b.receiver w block
    | some arity =>
      ensuring (released w) do
        let values ← parameters w arity.min arity.max true true
        let _ ← allocate (.array values.toArray)
        let params ← pushWindow values false
        run b.native b.receiver params block

/-- Calls the block that was passed to the current call. -/
def yieldBlock (run : Runner σ) (w : Window) : VM σ Value := do
  match (← frame).block with
  | none =>
    releaseWindow w
    raiseError .noBlock
  | some a =>
    match ← object? a with
    | some (.block b) => callBlock run b w none
    | _ =>
      let type ← read fun m => m.typeName a
      releaseWindow w
      raiseError (.wrongType type "Proc")

/-- The error that a break with a value raises in the current frame. -/
def breakWith (v : Value) : VM σ CallError := do
  match (← frame).breakTarget with
  | some target => return .break target v
  | none => return .strayBreak

end VM

end CellMachine
