import CellMachine.Proofs.Machine.Calling

/-!
# Conducts

Native code in general: a tree that does one thing to the machine at each node and sees all
there is to see before it goes on. It makes of the argument stack what it likes, and it calls in
any environment, be it the own one, one that it has made or one that it got from its caller.

The run of a conduct is written down in a diary that native code cannot see. At every node an
entry is made of the world as it is and of the calls that have not returned, and so at the start
and at the end of every call. When an object is made whose address has belonged to another,
nothing that was noted of the other counts any more.
-/

namespace CellMachine

/-- Environments are given by their frames. -/
inductive Conduct (σ : Type) where
  | done (r : Except Halt Value)
  | look (next : Machine σ → Conduct σ)
  | deed (d : Deed σ) (next : Except Halt Value → Conduct σ)
  | stack (f : Array Value → Array Value) (next : Conduct σ)
  | child (env : Option Env) (method : Option String) (outer block : Option Address)
      (next : Env → Conduct σ)
  /-- A window is given away to a call that is made in the own environment or in another one. -/
  | call (env : Option Env) (c : Callee) (w : Window) (next : Except Halt Value → Conduct σ)

/-- What each number stands for, with the receiver, the window and the block that it is run on. -/
abbrev ConductTable (σ : Type) := Nat → Value → Window → Option Address → Conduct σ

/-- The world at one point of a run, with what the diary says there. -/
structure Point where
  world : World
  /-- The calls that have not returned, the innermost first. -/
  active : List Activity
  /-- The addresses of the objects that were made, the latest first. -/
  born : List Address

/-- A call that has come to its end. -/
structure Span where
  entry : Point
  exit : Point

structure Diary where
  active : List Activity
  born : List Address
  /-- The latest first. -/
  points : List Point
  spans : List Span

/-- The call without a block that is gone. -/
def Activity.forget (gone : List Address) : Activity → Activity
  | method caller passed => method caller (passed.filter (· ∉ gone))
  | block a => block a

namespace Diary

def blank : Diary := ⟨[], [], [], []⟩

def calls (call : Activity) (d : Diary) : Diary := { d with active := call :: d.active }

def returns (d : Diary) : Diary := { d with active := d.active.tail }

/-- New objects have these addresses, and what was there before is gone. -/
def bears (new : List Address) (d : Diary) : Diary :=
  { d with active := d.active.map (Activity.forget new), born := new ++ d.born }

def mark (p : Point) (d : Diary) : Diary := { d with points := p :: d.points }

def ends (s : Span) (d : Diary) : Diary := { d with spans := s :: d.spans }

end Diary

def Machine.point {σ : Type} (m : Machine (σ × Diary)) : Point :=
  ⟨m.world, m.host.2.active, m.host.2.born⟩

/-- The address of an object that was made. -/
def Deed.births {σ : Type} : Deed σ → Except Halt Value → List Address
  | .allocate _, .ok (.ref a) => [a]
  | _, _ => []

namespace VM

variable {σ : Type}

def written (f : Diary → Diary) : VM (σ × Diary) Unit := onHost fun h => ((), (h.1, f h.2))

def marked : VM (σ × Diary) Unit := do
  let p ← read Machine.point
  written (Diary.mark p)

/-- A call that is written down while it lasts. -/
def loggedCall (run : Runner (σ × Diary)) (c : Callee) (w : Window) :
    VM (σ × Diary) (Except Halt Value) := do
  let entry ← read Machine.point
  written (Diary.calls (← activity c))
  let r ← outcome (callee run w c)
  written Diary.returns
  let exit ← read Machine.point
  written (Diary.ends ⟨entry, exit⟩)
  return r

/-- A deed, and the birth that may come of it. -/
def loggedDeed (d : Deed σ) : VM (σ × Diary) (Except Halt Value) := do
  let r ← outcome (VM.deed d)
  written (Diary.bears (d.births r))
  return r

end VM

namespace Conduct

open VM

variable {σ : Type}

def play (run : Runner (σ × Diary)) : Conduct σ → VM (σ × Diary) Value
  | done r => do
    marked
    ofOutcome r
  | look next => do
    marked
    let m ← machine
    play run (next m.unwatched)
  | deed d next => do
    marked
    let r ← loggedDeed d
    play run (next r)
  | stack f next => do
    marked
    modifyStack f
    play run next
  | child env method outer block next => do
    marked
    let e ← inEnv env (childEnv method outer block)
    play run (next e)
  | call env c w next => do
    marked
    let r ← inEnv env (loggedCall run c w)
    play run (next r)

/-- Runs the conducts of a table whose calls are nested at most so deep. -/
def runnerAt (table : ConductTable σ) : Nat → Runner (σ × Diary)
  | 0 => fun _ _ w _ => do
    releaseWindow w
    halt .exhausted
  | depth + 1 => fun native receiver w block =>
    match native with
    | .primitive p => runPrimitive p receiver w
    | .body i => play (runnerAt table depth) (table i receiver w block)

end Conduct

end CellMachine
