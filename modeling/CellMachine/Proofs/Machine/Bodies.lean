import CellMachine.Proofs.Machine.Triples

/-!
# Native bodies

A native body is a tree. At each node it does one thing to the machine, and how it goes on
may depend on all that it can see. It works with windows of its own on the argument stack,
which are nested: a new one is opened on top, only the newest is closed or given away to a
call, and at the end of the body the newest is released first. It makes calls in its own
environment or in one that it has made below it. A body sees how its calls and deeds came
out, also when that is an error or a fault, so it may catch what it likes.

Bodies are run together with a watcher, who notes what calls and breaks there are. The
notes are kept beside the state that bodies share, where no body can see them.
-/

namespace CellMachine

/-- A change of what an object holds. -/
inductive Edit where
  | push (v : Value)
  | insert (k v : Value)
  | append (suffix : String)
  | setVar (i : Nat) (v fill : Value)

def Edit.apply : Edit → Object → Object
  | push v => Object.push v
  | insert k v => Object.insert k v
  | append suffix => Object.append suffix
  | setVar i v fill => Object.setVar i v fill

/-- What a body does without a call and without its windows. -/
inductive Deed (σ : Type) where
  | allocate (o : Object)
  | edit (a : Address) (e : Edit)
  | symbol (name : String)
  | setGlobal (name : String) (v : Value)
  | addRoots (vs : List Value)
  | removeRoots (vs : List Value)
  | collect
  | enableCollection (on : Bool)
  | installHandlers
  | requestInterrupt
  | requestCollection
  | setLine (line : UInt32)
  /-- A change of the state that the bodies share. -/
  | share (f : σ → σ)

/-- How a window comes about. -/
inductive Opening where
  | values (vs : List Value) (hasKeywords : Bool)
  /-- A copy of one of the body's windows, the newest of which is the first. -/
  | copyOf (i : Nat)

/-- How values are taken from a window. -/
inductive Taking where
  | shift (withKeywords : Bool)
  | pop (withKeywords : Bool)
  | popKeywords
  | popEmptyKeywords (isEmptyHash : Address → Bool)

/-- What a body calls. -/
inductive Callee where
  | method (m : MethodObject) (receiver : Value) (block : Option Address)
  /-- The block at an address. -/
  | block (a : Address) (block : Option Address)
  /-- The block that was passed to the call of the environment. -/
  | yield

/-- Environments are counted: the body's own is the first, those made by it follow. -/
inductive Body (σ : Type) where
  | done (r : Except Halt Value)
  | look (next : List Window → Machine σ → Body σ)
  | deed (d : Deed σ) (next : Except Halt Value → Body σ)
  | openWindow (o : Opening) (next : Except Halt Unit → Body σ)
  | take (i : Nat) (t : Taking) (next : Except Halt (Option Value) → Body σ)
  | close (next : Body σ)
  | child (env : Nat) (method : Option String) (outer block : Option Address) (next : Body σ)
  | breakWith (env : Nat) (v : Value) (next : CallError → Body σ)
  /-- Gives the newest window away to a call, an empty one if the body has none. -/
  | call (env : Nat) (callee : Callee) (next : Except Halt Value → Body σ)

/-- The body that each number stands for, with the receiver and the block it is run on. -/
abbrev BodyTable (σ : Type) := Nat → Value → Option Address → Body σ

/-- A call that has not returned. -/
inductive Activity where
  /-- A call of a method from a frame, with the block that was passed. -/
  | method (caller : FrameId) (passed : Option Address)
  | block (a : Option Address)
deriving DecidableEq

inductive Note where
  | calls (a : Activity)
  /-- The native body of the latest call has come to its end. -/
  | ends (r : Except Halt Value)
  | returns (r : Except Halt Value)
  /-- A break was asked for, in the body's own environment or in another. -/
  | breaks (own : Bool) (v : Value) (e : CallError)

/-- An environment that a body has made. -/
structure Env where
  frame : Frame
  callers : List Frame

namespace VM

variable {σ τ α : Type}

def enterEnv (e : Env) (m : Machine σ) : Machine σ :=
  { m with thread := { m.thread with frame := e.frame, callers := e.callers } }

def env : VM σ Env := read fun m => ⟨m.thread.frame, m.thread.callers⟩

/-- Runs a computation in an environment that was made before, or in the own one. -/
def inEnv : Option Env → VM σ α → VM σ α
  | none, x => x
  | some e, x => do
    let own ← env
    update fun m => ((), enterEnv e m)
    ensuring (enterEnv own) x

/-- A new environment below the present one. -/
def childEnv (method : Option String) (outer block : Option Address) : VM σ Env := do
  let id ← inWorld fun _ w => w.freshFrame
  read fun m =>
    let t := m.thread.enter id method outer block none
    ⟨t.frame, t.callers⟩

def shared (f : σ → σ) : VM (σ × τ) Unit := onHost fun h => ((), (f h.1, h.2))

/-- What is done, with an answer if there is one. -/
def deed : Deed σ → VM (σ × τ) Value
  | .allocate o => return .ref (← allocate (o.withCallingFrame none))
  | .edit a e => do modifyObject a e.apply; nil
  | .symbol name => symbol name
  | .setGlobal name v => do setGlobal name v; nil
  | .addRoots vs => do addRoots vs; nil
  | .removeRoots vs => do removeRoots vs; nil
  | .collect => do ofBool (← collect)
  | .enableCollection on => do
    inWorld fun _ w => w.onHeap fun h => ((), if on then h.enable else h.disable)
    nil
  | .installHandlers => do inWorld fun _ w => ((), w.installHandlers); nil
  | .requestInterrupt => do inWorld fun _ w => ((), w.requestInterrupt); nil
  | .requestCollection => do inWorld fun _ w => ((), w.requestCollection); nil
  | .setLine line => do setLine line; nil
  | .share f => do shared f; nil

def opened (ws : List Window) : Opening → VM σ Window
  | .values vs hasKeywords => pushWindow vs hasKeywords
  | .copyOf i =>
    match ws[i]? with
    | some w => onStack w.copy
    | none => pushWindow [] false

end VM

def Taking.from (w : Window) (stack : Array Value) :
    Taking → Except Fault (Option Value) × Window × Array Value
  | shift withKeywords =>
    let (r, w) := w.shift withKeywords stack
    (r.map some, w, stack)
  | pop withKeywords =>
    let (r, w, stack) := w.pop withKeywords stack
    (r.map some, w, stack)
  | popKeywords =>
    let (r, w) := w.popKeywords stack
    (r.map fun a => a.map Value.ref, w, stack)
  | popEmptyKeywords isEmptyHash =>
    let (r, w) := w.popEmptyKeywords isEmptyHash stack
    (r.map fun _ => none, w, stack)

namespace VM

variable {σ τ α : Type}

/-- What was taken, and what the window is then. -/
def taken (w : Window) (t : Taking) : VM σ (Except Fault (Option Value) × Window) :=
  onStack fun s => let (r, w, s) := t.from w s; (.ok (r, w), s)

/-- What a call is, as a watcher sees it. A cell is passed as a block if it is one. -/
def activity : Callee → VM σ Activity
  | .method _ _ block => do
    let caller := (← frame).id
    let passed ← read fun m => block.filter fun a => ((m.object? a).bind Object.block?).isSome
    return .method caller passed
  | .block a _ => return .block (some a)
  | .yield => return .block (← frame).block

def callee (run : Runner σ) (w : Window) : Callee → VM σ Value
  | .method m receiver block => callMethod run m receiver w block
  | .block a block => do
    match ← object? a with
    | some (.block b) => callBlock run b w block
    | _ =>
      releaseWindow w
      halt (.refused (.notA "Proc"))
  | .yield => yieldBlock run w

def noted (note : Note → τ → τ) (n : Note) : VM (σ × τ) Unit :=
  onHost fun h => ((), (h.1, note n h.2))

/-- A call before the eyes of the watcher. -/
def watchedCall (note : Note → τ → τ) (run : Runner (σ × τ)) (c : Callee) (w : Window) :
    VM (σ × τ) (Except Halt Value) := do
  noted note (.calls (← activity c))
  let r ← outcome (callee run w c)
  noted note (.returns r)
  return r

def watchedBreak (note : Note → τ → τ) (env : Option Env) (v : Value) : VM (σ × τ) CallError := do
  let e ← inEnv env (breakWith v)
  noted note (.breaks env.isNone v e)
  return e

end VM

/-- The machine without the notes of the watcher. -/
def Machine.unwatched {σ τ : Type} (m : Machine (σ × τ)) : Machine σ :=
  ⟨m.world, m.thread, m.waiting, m.host.1⟩

/-- The environment of a number, if it is not the body's own. -/
def envAt (envs : List Env) : Nat → Option Env
  | 0 => none
  | i + 1 => envs[i]?

namespace Body

open VM

variable {σ τ : Type}

/-- Runs a body that has some windows, the newest first, and has made some environments. -/
def play (note : Note → τ → τ) (run : Runner (σ × τ)) :
    Body σ → List Window → List Env → VM (σ × τ) Value
  | done r, ws, _ => do
    modifyStack fun s => ws.foldl (fun s w => w.release s) s
    ofOutcome r
  | look next, ws, envs => do
    let m ← machine
    play note run (next ws m.unwatched) ws envs
  | deed d next, ws, envs => do
    let r ← outcome (VM.deed d)
    play note run (next r) ws envs
  | openWindow o next, ws, envs => do
    match ← outcome (opened ws o) with
    | .ok w => play note run (next (.ok ())) (w :: ws) envs
    | .error h => play note run (next (.error h)) ws envs
  | take i t next, ws, envs => do
    match ws[i]? with
    | some w =>
      let (r, w) ← taken w t
      play note run (next (r.mapError .fault)) (ws.set i w) envs
    | none => play note run (next (.ok none)) ws envs
  | close next, ws, envs => do
    match ws with
    | [] => play note run next [] envs
    | w :: rest =>
      releaseWindow w
      play note run next rest envs
  | child env method outer block next, ws, envs => do
    let e ← inEnv (envAt envs env) (childEnv method outer block)
    play note run next ws (envs ++ [e])
  | breakWith env v next, ws, envs => do
    let e ← watchedBreak note (envAt envs env) v
    play note run (next e) ws envs
  | call env c next, ws, envs => do
    match ws with
    | [] =>
      let w ← pushWindow [] false
      let r ← inEnv (envAt envs env) (watchedCall note run c w)
      play note run (next r) [] envs
    | w :: rest =>
      let r ← inEnv (envAt envs env) (watchedCall note run c w)
      play note run (next r) rest envs

/-- Runs the bodies of a table whose calls are nested at most so deep. -/
def runnerAt (note : Note → τ → τ) (table : BodyTable σ) : Nat → Runner (σ × τ)
  | 0 => fun _ _ w _ => do
    releaseWindow w
    halt .exhausted
  | depth + 1 => fun native receiver w block => do
    let r ← outcome <|
      match native with
      | .primitive p => runPrimitive p receiver w
      | .body i => play note (runnerAt note table depth) (table i receiver block) [w] []
    noted note (.ends r)
    ofOutcome r

end Body

end CellMachine
