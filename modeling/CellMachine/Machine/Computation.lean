import CellMachine.Machine.Basic

/-!
# Computations

A computation of one thread runs to a value or comes to a halt, and leaves a machine in
both cases. What it has changed by then stays changed, so everything that has to be
undone is undone by `ensuring`. Each primitive computation has a lemma that says what
its run is; the lemmas for `pure` and `bind` do the rest.
-/

namespace CellMachine

/-- A computation of one thread: what comes of it, and the machine it leaves. -/
structure VM (σ α : Type) where
  run : Machine σ → Except Halt α × Machine σ

namespace VM

variable {σ α β : Type}

/-! ## Control -/

@[inline] protected def pure (a : α) : VM σ α := ⟨fun m => (.ok a, m)⟩

@[inline] protected def bind (x : VM σ α) (f : α → VM σ β) : VM σ β :=
  ⟨fun m =>
    match x.run m with
    | (.ok a, m) => (f a).run m
    | (.error h, m) => (.error h, m)⟩

instance : Monad (VM σ) where
  pure := VM.pure
  bind := VM.bind

@[simp] theorem run_pure (a : α) (m : Machine σ) : (pure a : VM σ α).run m = (.ok a, m) := rfl

theorem run_bind (x : VM σ α) (f : α → VM σ β) (m : Machine σ) :
    (x >>= f).run m =
      match x.run m with
      | (.ok a, m) => (f a).run m
      | (.error h, m) => (.error h, m) := rfl

@[ext] theorem ext {x y : VM σ α} (h : ∀ m, x.run m = y.run m) : x = y := by
  cases x
  cases y
  simp only [mk.injEq]
  exact funext h

theorem run_bind_ok {x : VM σ α} {f : α → VM σ β} {m m' : Machine σ} {a : α}
    (h : x.run m = (.ok a, m')) : (x >>= f).run m = (f a).run m' := by
  rw [run_bind, h]

theorem run_bind_error {x : VM σ α} {f : α → VM σ β} {m m' : Machine σ} {e : Halt}
    (h : x.run m = (.error e, m')) : (x >>= f).run m = (.error e, m') := by
  rw [run_bind, h]

instance : LawfulMonad (VM σ) :=
  LawfulMonad.mk' (VM σ)
    (fun x => ext fun m => by
      show (x >>= fun a => pure (id a)).run m = x.run m
      rw [run_bind]
      rcases x.run m with ⟨_ | _, _⟩ <;> rfl)
    (fun _ _ => rfl)
    (fun x f g => ext fun m => by
      simp only [run_bind]
      rcases x.run m with ⟨_ | _, _⟩ <;> rfl)

/-- Comes to a halt. -/
@[inline] def halt (h : Halt) : VM σ α := ⟨fun m => (.error h, m)⟩

@[simp] theorem run_halt (h : Halt) (m : Machine σ) :
    (halt h : VM σ α).run m = (.error h, m) := rfl

def raiseError (e : CallError) : VM σ α := halt (.error e)

def throwFault (f : Fault) : VM σ α := halt (.fault f)

/-- Runs a computation and then, whatever came of it, changes the machine. -/
@[inline] def ensuring (after : Machine σ → Machine σ) (x : VM σ α) : VM σ α :=
  ⟨fun m => let (r, m) := x.run m; (r, after m)⟩

/-- Runs a computation and, if it came to a halt, changes the machine. -/
@[inline] def onHalt (after : Machine σ → Machine σ) (x : VM σ α) : VM σ α :=
  ⟨fun m =>
    match x.run m with
    | (.ok a, m) => (.ok a, m)
    | (.error h, m) => (.error h, after m)⟩

/-- The outcome of a computation as a value. -/
@[inline] def outcome (x : VM σ α) : VM σ (Except Halt α) :=
  ⟨fun m => let (r, m) := x.run m; (.ok r, m)⟩

@[simp] theorem run_ensuring (after : Machine σ → Machine σ) (x : VM σ α) (m : Machine σ) :
    (ensuring after x).run m = ((x.run m).1, after (x.run m).2) := rfl

@[simp] theorem run_outcome (x : VM σ α) (m : Machine σ) :
    (outcome x).run m = (.ok (x.run m).1, (x.run m).2) := rfl

@[inline] def ofOutcome : Except Halt α → VM σ α
  | .ok a => pure a
  | .error h => halt h

@[inline] def ofExcept : Except CallError α → VM σ α
  | .ok a => pure a
  | .error e => raiseError e

@[inline] def ofFault : Except Fault α → VM σ α
  | .ok a => pure a
  | .error f => throwFault f

@[inline] def ofHeap : Except HeapFault α → VM σ α
  | .ok a => pure a
  | .error f => throwFault (.heap f)

/-- Does something for each element of a list. -/
def forEach (f : α → VM σ Unit) : List α → VM σ Unit
  | [] => pure ()
  | a :: rest => do
    f a
    forEach f rest

/-! ## The parts of the machine -/

/-- Reads the machine. -/
@[inline] def read (f : Machine σ → α) : VM σ α := ⟨fun m => (.ok (f m), m)⟩

/-- Changes the machine. -/
@[inline] def update (f : Machine σ → α × Machine σ) : VM σ α :=
  ⟨fun m => let (a, m) := f m; (.ok a, m)⟩

/-- A step in the shared world. -/
@[inline] def inWorld (f : Stacks → World → α × World) : VM σ α := update fun m => m.onWorld f

@[inline] def onThread (f : ThreadState → α × ThreadState) : VM σ α := update fun m => m.onThread f

@[inline] def onHost (f : σ → α × σ) : VM σ α := update fun m => m.onHost f

@[simp] theorem run_read (f : Machine σ → α) (m : Machine σ) : (read f).run m = (.ok (f m), m) :=
  rfl

@[simp] theorem run_inWorld (f : Stacks → World → α × World) (m : Machine σ) :
    (inWorld f).run m =
      (.ok (f m.argStacks m.world).1, { m with world := (f m.argStacks m.world).2 }) := rfl

@[simp] theorem run_onThread (f : ThreadState → α × ThreadState) (m : Machine σ) :
    (onThread f).run m = (.ok (f m.thread).1, { m with thread := (f m.thread).2 }) := rfl

@[simp] theorem run_onHost (f : σ → α × σ) (m : Machine σ) :
    (onHost f).run m = (.ok (f m.host).1, { m with host := (f m.host).2 }) := rfl

/-- A step on the argument stack. -/
@[inline] def onStack (f : Array Value → Except Fault α × Array Value) : VM σ α := do
  ofFault (← onThread fun t => t.onStack f)

theorem run_onStack (f : Array Value → Except Fault α × Array Value) (m : Machine σ) :
    (onStack f).run m =
      (ofFault (f m.thread.stack).1).run
        { m with thread := { m.thread with stack := (f m.thread.stack).2 } } := rfl

@[inline] def modifyStack (f : Array Value → Array Value) : VM σ Unit :=
  onThread fun t => t.onStack fun s => ((), f s)

@[simp] theorem run_modifyStack (f : Array Value → Array Value) (m : Machine σ) :
    (modifyStack f).run m =
      (.ok (), { m with thread := { m.thread with stack := f m.thread.stack } }) := rfl

/-- Reads the argument stack. -/
@[inline] def readStack (f : Array Value → Except Fault α) : VM σ α := do
  ofFault (← read fun m => f m.thread.stack)

@[simp] theorem run_readStack (f : Array Value → Except Fault α) (m : Machine σ) :
    (readStack f).run m = (ofFault (f m.thread.stack)).run m := rfl

/-- The machine as it stands. -/
def machine : VM σ (Machine σ) := read id

def object? (a : Address) : VM σ (Option Object) := read fun m => m.object? a

def singletons : VM σ Singletons := read fun m => m.world.singletons

def nil : VM σ Value := return (← singletons).nil

def ofBool (b : Bool) : VM σ Value := return (← singletons).ofBool b

def truthy (v : Value) : VM σ Bool := return (← singletons).truthy v

def thread : VM σ ThreadState := read Machine.thread

def frame : VM σ Frame := read fun m => m.thread.frame

/-! ## Allocation and collection -/

/-- Allocates an object on the heap. -/
def allocate (o : Object) : VM σ Address := do
  ofHeap (← inWorld fun argStacks w => w.allocate argStacks o)

/-- A collection now; false if collection is disabled. -/
def collect : VM σ Bool := inWorld fun argStacks w => w.collect argStacks

def modifyObject (a : Address) (f : Object → Object) : VM σ Unit :=
  inWorld fun _ w => ((), w.modifyObject a f)

def addRoots (vs : List Value) : VM σ Unit :=
  inWorld fun _ w => ((), vs.foldl (fun w v => w.addRoot v) w)

def removeRoots (vs : List Value) : VM σ Unit :=
  inWorld fun _ w => ((), vs.foldl (fun w v => w.removeRoot v) w)

/-- Inline when it fits, boxed on the heap otherwise. -/
def integer (n : Int64) : VM σ Value := do
  match Value.smallInt? n with
  | some v => return v
  | none => return .ref (← allocate (.integer n))

def symbol (name : String) : VM σ Value := do
  return .ref (← ofHeap (← inWorld fun argStacks w => w.intern argStacks name))

def setGlobal (name : String) (v : Value) : VM σ Unit :=
  inWorld fun _ w => ((), w.setGlobal name v)

/-! ## Frames and transient cells -/

def setLine (line : UInt32) : VM σ Unit := onThread fun t => ((), t.setLine line)

/-- Back to the frame of the direct caller. -/
def leave (m : Machine σ) : Machine σ := (m.onThread fun t => ((), t.leave)).2

/-- Runs a computation in a frame of its own. -/
def inFrame (method : Option String) (outer block : Option Address)
    (breakTarget : Option FrameId) (x : VM σ α) : VM σ α := do
  let id ← inWorld fun _ w => w.freshFrame
  onThread fun t => ((), t.enter id method outer block breakTarget)
  ensuring leave x

def popTransient (m : Machine σ) : Machine σ := (m.onThread fun t => ((), t.popTransient)).2

/-- Runs a computation with a transient cell, which is gone when it ends. -/
def withTransient (o : Object) (x : Address → VM σ α) : VM σ α := do
  let a ← onThread fun t => t.pushTransient o
  ensuring popTransient (x a)

end VM

end CellMachine
