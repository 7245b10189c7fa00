import CellMachine.Proofs.Threads.InternClients
import CellMachine.Proofs.Workload.Course

/-!
# Calls as courses

The computations that calls are made of, taken apart into steps. Each course is named after its
computation and is that computation when the thread is alone.
-/

namespace CellMachine

namespace Course

/-- Runs a native body, as a course. -/
abbrev Runner (σ : Type) := Native → Value → Window → Option Address → Course σ Value

variable {σ α β : Type} (joined : VM σ String)

def onStack (f : Array Value → α × Array Value) : Course σ α := onThread fun t => t.onStack f

def modifyStack (f : Array Value → Array Value) : Course σ Unit := onStack fun s => ((), f s)

def readStack (f : Array Value → Except Fault α) : Course σ α := do
  ofFault (← readThread fun t => f t.stack)

def object? (a : Address) : Course σ (Option Object) := read fun m => m.object? a

def singletons : Course σ Singletons := read fun m => m.world.singletons

def nil : Course σ Value := return (← singletons).nil

def ofBool (b : Bool) : Course σ Value := return (← singletons).ofBool b

def truthy (v : Value) : Course σ Bool := return (← singletons).truthy v

def frame : Course σ Frame := readThread ThreadState.frame

def modifyObject (a : Address) (f : Object → Object) : Course σ Unit :=
  inWorld (fun w => ((), w.modifyObject a f)) fun w => Heap.touches_modifyPayload w.heap a f

def setGlobal (name : String) (v : Value) : Course σ Unit :=
  inWorld (fun w => ((), w.setGlobal name v)) fun w => Client.touches_setGlobal w name v

@[simp] lemma alone_readStack (f : Array Value → Except Fault α) :
    alone joined (readStack f) = VM.readStack f := by
  simp [readStack, VM.readStack]

@[simp] lemma alone_object? (a : Address) : alone joined (object? a) = VM.object? a := rfl

@[simp] lemma alone_nil : alone joined nil = VM.nil := by
  simp [nil, VM.nil, singletons, VM.singletons]

@[simp] lemma alone_ofBool (b : Bool) : alone joined (ofBool b) = VM.ofBool b := by
  simp [ofBool, VM.ofBool, singletons, VM.singletons]

@[simp] lemma alone_truthy (v : Value) : alone joined (truthy v) = VM.truthy v := by
  simp [truthy, VM.truthy, singletons, VM.singletons]

@[simp] lemma alone_frame : alone joined frame = VM.frame := rfl

@[simp] lemma alone_modifyObject (a : Address) (f : Object → Object) :
    alone joined (modifyObject a f) = VM.modifyObject a f := rfl

@[simp] lemma alone_setGlobal (name : String) (v : Value) :
    alone joined (setGlobal name v) = VM.setGlobal name v := rfl

def pollCollection : Course σ Bool :=
  inWorld World.pollCollection fun w => by
    rw [World.pollCollection]
    split <;> exact .refl

/-- Takes a slot, after the collection that a signal has asked for. -/
def allocate (o : Object) : Course σ Address := do
  if ← pollCollection then
    collect fun _ => place o fun r => ofHeap r
  else place o fun r => ofHeap r

/-- The cell of a name: looked up, allocated if it is not there, and published. -/
def symbol (name : String) : Course σ Value := do
  match ← read fun m => m.world.symbol? name with
  | some a => return .ref a
  | none =>
    let fresh ← place (.symbol name) ofHeap
    return .ref (← inWorld (World.publish name fresh) fun w => Client.touches_publish w name fresh)

/-- Inline when it fits, boxed on the heap otherwise. -/
def integer (n : Int64) : Course σ Value := do
  match Value.smallInt? n with
  | some v => return v
  | none => return .ref (← allocate (.integer n))

@[simp] lemma alone_allocate (o : Object) : alone joined (allocate o) = VM.allocate o := by
  ext m : 1
  simp only [allocate, alone_bind, VM.allocate, VM.run_bind, VM.run_inWorld, pollCollection,
    alone_inWorld, World.allocate]
  cases m.world.pollCollection.1 with
  | false =>
    simp only [Bool.false_eq_true, if_false, alone, VM.run_bind, VM.run_inWorld, alone_ofHeap]
    rfl
  | true =>
    simp only [if_true, alone, VM.run_bind, VM.collect, VM.run_inWorld, alone_ofHeap]
    rfl

@[simp] lemma alone_symbol (name : String) : alone joined (symbol name) = VM.symbol name := by
  ext m : 1
  simp only [symbol, alone_bind, alone_read, VM.symbol, VM.run_bind, VM.run_inWorld, VM.run_read,
    World.intern]
  cases m.world.symbol? name with
  | some a => rfl
  | none =>
    simp only [alone_bind, alone, VM.run_bind, VM.run_inWorld, alone_ofHeap]
    rcases m.world.place m.argStacks (.symbol name) with ⟨_ | a, w⟩ <;> rfl

@[simp] lemma alone_integer (n : Int64) : alone joined (integer n) = VM.integer n := by
  rw [integer, VM.integer]
  cases Value.smallInt? n <;> simp

def leave : Course σ Unit := onThread fun t => ((), t.leave)

/-- Runs a course in a frame of its own. -/
def inFrame (method : Option String) (outer block : Option Address) (breakTarget : Option FrameId)
    (x : Course σ α) : Course σ α := do
  let id ← inWorld World.freshFrame untouched
  onThread fun t => ((), t.enter id method outer block breakTarget)
  ensuring leave x

def popTransient : Course σ Unit := onThread fun t => ((), t.popTransient)

/-- Runs a course with a transient cell, which is gone when it ends. -/
def withTransient (o : Object) (x : Address → Course σ α) : Course σ α := do
  let a ← onThread fun t => t.pushTransient o
  ensuring popTransient (x a)

@[simp] lemma alone_inFrame (method : Option String) (outer block : Option Address)
    (breakTarget : Option FrameId) (x : Course σ α) :
    alone joined (inFrame method outer block breakTarget x) =
      VM.inFrame method outer block breakTarget (alone joined x) := by
  simp only [inFrame, alone_bind, alone_onThread, alone_ensuring]
  rfl

@[simp] lemma alone_withTransient (o : Object) (x : Address → Course σ α) :
    alone joined (withTransient o x) = VM.withTransient o fun a => alone joined (x a) := by
  simp only [withTransient, alone_bind, alone_onThread, alone_ensuring]
  rfl

def pushWindow (values : List Value) (hasKeywords : Bool) : Course σ Window :=
  onStack (Window.push values hasKeywords)

def releaseWindow (w : Window) : Course σ Unit := modifyStack w.release

def arrayOf (w : Window) (withKeywords : Bool) : Course σ Address := do
  allocate (.array (← readStack (w.values withKeywords)).toArray)

def parameters (w : Window) (min : Nat) (max : Option Nat) (spread withKeywords : Bool) :
    Course σ (List Value) := do
  let values ← readStack (w.values withKeywords)
  let source ←
    match values with
    | [.ref a] =>
      if spread && 1 < min then
        match ← object? a with
        | some (.array items) => pure items.toList
        | _ => pure values
      else pure values
    | _ => pure values
  return Window.fitted min max (← nil) source

@[simp] lemma alone_pushWindow (values : List Value) (hasKeywords : Bool) :
    alone joined (pushWindow values hasKeywords) = VM.pushWindow values hasKeywords := rfl

@[simp] lemma alone_releaseWindow (w : Window) :
    alone joined (releaseWindow w) = VM.releaseWindow w := rfl

lemma run_releaseWindow (w : Window) :
    (fun m : Machine σ => ((VM.releaseWindow w).run m).2) = VM.released w := rfl

@[simp] lemma alone_arrayOf (w : Window) (withKeywords : Bool) :
    alone joined (arrayOf w withKeywords) = VM.arrayOf w withKeywords := by
  simp [arrayOf, VM.arrayOf]

@[simp] lemma alone_parameters (w : Window) (min : Nat) (max : Option Nat)
    (spread withKeywords : Bool) : alone joined (parameters w min max spread withKeywords) =
      VM.parameters w min max spread withKeywords := by
  simp only [parameters, VM.parameters, alone_bind, alone_readStack]
  refine congrArg _ (funext fun values => ?_)
  rcases values with _ | ⟨_ | _ | _, _ | ⟨_, _⟩⟩ <;> try (simp; done)
  dsimp only
  split
  · rw [alone_bind, alone_object?]
    refine congrArg _ (funext fun o => ?_)
    rcases o with _ | o
    · simp
    · cases o <;> simp
  · simp

def operand : Value → Course σ Operand
  | .smallInt n => return .number (.integer n)
  | .double d => return .number (.double d)
  | .ref a => return ((← object? a).map Operand.ofObject).getD (.other "")

def settle : Computed → Course σ Value
  | .integer n => integer n
  | .double d => return .double d
  | .truth b => ofBool b

def runPrimitive (p : Primitive) (receiver : Value) (w : Window) : Course σ Value :=
  ensuring (releaseWindow w) do
    ofExcept (w.expect (.exactly 1) [])
    let compute ← ofExcept (p.on (← operand receiver))
    let argument ← readStack (w.get 0)
    settle (← ofExcept (compute (← operand argument)))

@[simp] lemma alone_operand (v : Value) : alone joined (operand v) = VM.operand v := by
  cases v <;> simp [operand, VM.operand]

@[simp] lemma alone_settle (c : Computed) : alone joined (settle c) = VM.settle c := by
  cases c <;> simp [settle, VM.settle]

@[simp] lemma alone_runPrimitive (p : Primitive) (receiver : Value) (w : Window) :
    alone joined (runPrimitive p receiver w) = VM.runPrimitive p receiver w := by
  simp [runPrimitive, VM.runPrimitive, run_releaseWindow]

def isDetached (a : Address) : Course σ Bool := do
  match ← object? a with
  | some (.block b) => return b.callingFrame.isNone
  | _ => return false

def attached (block : Option Address) (caller : FrameId) (x : Course σ α) : Course σ α := do
  match block with
  | none => x
  | some a =>
    if ← isDetached a then
      modifyObject a (Object.withCallingFrame (some caller))
      ensuring (modifyObject a (Object.withCallingFrame none)) x
    else x

@[simp] lemma alone_isDetached (a : Address) :
    alone joined (isDetached a) = VM.isDetached a := by
  simp only [isDetached, VM.isDetached, alone_bind, alone_object?]
  refine congrArg _ (funext fun o => ?_)
  rcases o with _ | o
  · rfl
  · cases o <;> rfl

@[simp] lemma alone_attached (block : Option Address) (caller : FrameId) (x : Course σ α) :
    alone joined (attached block caller x) = VM.attached block caller (alone joined x) := by
  cases block with
  | none => rfl
  | some a =>
    simp only [attached, VM.attached, alone_bind, alone_isDetached]
    refine congrArg _ (funext fun detached => ?_)
    cases detached
    · rfl
    · simp only [if_true, alone_bind, alone_modifyObject, alone_ensuring]
      rfl

def promote (receiver : Value) : Course σ Value := do
  match ← read fun m => m.synthesized? receiver with
  | some (.integer n) => return .ref (← allocate (.integer n))
  | some (.float d) => return .ref (← allocate (.float d))
  | _ => return receiver

def runSynthesized (run : Runner σ) (native : Native) (receiver : Value) (o : Object)
    (block : Option Address) : Course σ Value :=
  withTransient o fun a => do
    let w ← pushWindow [.ref a] false
    run native receiver w block

def dispatch (run : Runner σ) (m : MethodObject) (receiver : Value) (w : Window)
    (block : Option Address) : Course σ Value := do
  if m.optimized then
    if w.count true = 1 then
      match ← onHalt (releaseWindow w) (readStack (w.get 0)) with
      | .smallInt n =>
        releaseWindow w
        runSynthesized run m.native receiver (.integer n) block
      | .double d =>
        releaseWindow w
        runSynthesized run m.native receiver (.float d) block
      | .ref _ => run m.native receiver w block
    else run m.native receiver w block
  else
    let receiver ← onHalt (releaseWindow w) (promote receiver)
    run m.native receiver w block

def landing (id : FrameId) (x : Course σ Value) : Course σ Value := do
  match ← outcome x with
  | .error (.error (.break target v)) =>
    if target = id then return v else raiseError (.break target v)
  | r => ofOutcome r

def callMethod (run : Runner σ) (m : MethodObject) (receiver : Value) (w : Window)
    (block : Option Address) : Course σ Value := do
  if ← inWorld World.pollInterrupt (fun w => by rw [World.pollInterrupt]; split <;> exact .refl) then
    releaseWindow w
    raiseError .interrupt
  let caller := (← frame).id
  landing caller <|
    inFrame (some m.name) m.scope block none <|
      attached block caller <|
        dispatch run m (m.receiver.getD receiver) w block

@[simp] lemma alone_promote (receiver : Value) :
    alone joined (promote receiver) = VM.promote receiver := by
  simp only [promote, VM.promote, alone_bind, alone_read]
  refine congrArg _ (funext fun o => ?_)
  rcases o with _ | o
  · rfl
  · cases o <;> simp

variable (run : Runner σ)

/-- A runner, for a thread that is alone. -/
def Runner.alone : CellMachine.Runner σ :=
  fun native receiver w block => Course.alone joined (run native receiver w block)

@[simp] lemma alone_runSynthesized (native : Native) (receiver : Value) (o : Object)
    (block : Option Address) : alone joined (runSynthesized run native receiver o block) =
      VM.runSynthesized (run.alone joined) native receiver o block := by
  simp only [runSynthesized, VM.runSynthesized, alone_withTransient, alone_bind, alone_pushWindow]
  rfl

@[simp] lemma alone_dispatch (m : MethodObject) (receiver : Value) (w : Window)
    (block : Option Address) : alone joined (dispatch run m receiver w block) =
      VM.dispatch (run.alone joined) m receiver w block := by
  rw [dispatch, VM.dispatch]
  split
  · split
    · simp only [alone_bind, alone_onHalt, alone_readStack, alone_releaseWindow, run_releaseWindow]
      refine congrArg _ (funext fun v => ?_)
      cases v <;> simp [Runner.alone]
    · rfl
  · simp only [alone_bind, alone_onHalt, alone_promote, alone_releaseWindow, run_releaseWindow]
    rfl

@[simp] lemma alone_landing (id : FrameId) (x : Course σ Value) :
    alone joined (landing id x) = VM.landing id (alone joined x) := by
  simp only [landing, VM.landing, alone_bind, alone_outcome]
  refine congrArg _ (funext fun r => ?_)
  rcases r with (e | _ | _ | _) | _
  · cases e with
    | «break» target v =>
      dsimp only
      split <;> rfl
    | _ => rfl
  all_goals rfl

@[simp] lemma alone_callMethod (m : MethodObject) (receiver : Value) (w : Window)
    (block : Option Address) : alone joined (callMethod run m receiver w block) =
      VM.callMethod (run.alone joined) m receiver w block := by
  simp only [callMethod, VM.callMethod, alone_bind, alone_inWorld]
  refine congrArg _ (funext fun interrupted => ?_)
  cases interrupted <;> simp

def callBlock (b : BlockObject) (w : Window) (block : Option Address) : Course σ Value :=
  inFrame none b.scope block b.callingFrame do
    match b.arity with
    | none => run b.native b.receiver w block
    | some arity =>
      ensuring (releaseWindow w) do
        let values ← parameters w arity.min arity.max true true
        let _ ← allocate (.array values.toArray)
        let params ← pushWindow values false
        run b.native b.receiver params block

def yieldBlock (w : Window) : Course σ Value := do
  match (← frame).block with
  | none =>
    releaseWindow w
    raiseError .noBlock
  | some a =>
    match ← object? a with
    | some (.block b) => callBlock run b w none
    | _ =>
      let type ← read fun m => m.typeName a
      releaseWindow w
      raiseError (.wrongType type "Proc")

def breakWith (v : Value) : Course σ CallError := do
  match (← frame).breakTarget with
  | some target => return .break target v
  | none => return .strayBreak

@[simp] lemma alone_callBlock (b : BlockObject) (w : Window) (block : Option Address) :
    alone joined (callBlock run b w block) = VM.callBlock (run.alone joined) b w block := by
  rw [callBlock, VM.callBlock, alone_inFrame]
  refine congrArg _ ?_
  cases b.arity with
  | none => rfl
  | some arity =>
    simp only [alone_ensuring, alone_bind, alone_parameters, alone_allocate, alone_pushWindow,
      alone_releaseWindow, run_releaseWindow]
    rfl

@[simp] lemma alone_yieldBlock (w : Window) :
    alone joined (yieldBlock run w) = VM.yieldBlock (run.alone joined) w := by
  simp only [yieldBlock, VM.yieldBlock, alone_bind, alone_frame]
  refine congrArg _ (funext fun f => ?_)
  cases f.block with
  | none => simp
  | some a =>
    simp only [alone_bind, alone_object?]
    refine congrArg _ (funext fun o => ?_)
    rcases o with _ | o
    · simp
    · cases o <;> simp

@[simp] lemma alone_breakWith (v : Value) : alone joined (breakWith v) = VM.breakWith v := by
  simp only [breakWith, VM.breakWith, alone_bind, alone_frame]
  refine congrArg _ (funext fun f => ?_)
  cases f.breakTarget <;> rfl

def orExhausted : Option α → Course σ α
  | some a => pure a
  | none => halt .exhausted

def inspect (v : Value) : Course σ String := do orExhausted (← read fun m => m.inspect? v)

def entriesOf : Option Address → Course σ Entries
  | none => return []
  | some a => do
    match ← object? a with
    | some (.hash entries) => return entries
    | _ => return []

def keywords (w : Window) : Course σ Entries := do entriesOf (← readStack w.keywordHash?)

def keyword? (w : Window) (name : String) : Course σ (Option Value) := do
  let es ← keywords w
  read fun m => es.named? m.symbolName? name

def keyword (w : Window) (name : String) : Course σ Value := do
  match ← keyword? w name with
  | some v => return v
  | none => nil

/-- Does something for each element of a list and keeps the results. -/
def forEachOf (f : α → Course σ β) : List α → Course σ (List β)
  | [] => return []
  | a :: rest => return (← f a) :: (← forEachOf f rest)

def checkKeywords (w : Window) (required allowed : List String) (others : OtherKeywords) :
    Course σ Unit := do
  let es ← keywords w
  match ← read fun m => es.fault? m.symbolName? required allowed others with
  | none => return
  | some .forbidden => raiseError .keywordsRefused
  | some (.missing names) => raiseError (.missingKeywords names)
  | some (.unknown keys) => raiseError (.unknownKeywords (← forEachOf inspect keys))

@[simp] lemma alone_inspect (v : Value) : alone joined (inspect v) = VM.inspect v := by
  simp only [inspect, VM.inspect, alone_bind, alone_read]
  refine congrArg _ (funext fun text => ?_)
  cases text <;> rfl

@[simp] lemma alone_entriesOf (a : Option Address) :
    alone joined (entriesOf a) = VM.entriesOf a := by
  cases a with
  | none => rfl
  | some a =>
    simp only [entriesOf, VM.entriesOf, alone_bind, alone_object?]
    refine congrArg _ (funext fun o => ?_)
    rcases o with _ | o
    · rfl
    · cases o <;> rfl

@[simp] lemma alone_keywords (w : Window) : alone joined (keywords w) = VM.keywords w := by
  simp [keywords, VM.keywords]

@[simp] lemma alone_keyword? (w : Window) (name : String) :
    alone joined (keyword? w name) = VM.keyword? w name := by
  simp [keyword?, VM.keyword?]

@[simp] lemma alone_keyword (w : Window) (name : String) :
    alone joined (keyword w name) = VM.keyword w name := by
  simp only [keyword, VM.keyword, alone_bind, alone_keyword?]
  refine congrArg _ (funext fun v => ?_)
  cases v <;> simp

@[simp] lemma alone_forEachOf (f : α → Course σ β) (l : List α) :
    alone joined (forEachOf f l) = l.mapM fun a => alone joined (f a) := by
  induction l with
  | nil => rfl
  | cons a rest ih => simp [forEachOf, ih]

@[simp] lemma alone_checkKeywords (w : Window) (required allowed : List String)
    (others : OtherKeywords) : alone joined (checkKeywords w required allowed others) =
      VM.checkKeywords w required allowed others := by
  simp only [checkKeywords, VM.checkKeywords, alone_bind, alone_keywords, alone_read]
  refine congrArg _ (funext fun es => congrArg _ (funext fun fault => ?_))
  rcases fault with _ | _ | _ | _ <;> simp

end Course

end CellMachine
