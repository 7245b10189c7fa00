import CellMachine.Machine.Call
import CellMachine.Machine.Thread
import CellMachine.Proofs.Heap.Reachable

/-!
# Courses

A computation runs from a machine to a machine in one go. When other threads run in between, it
has to be taken apart: a course says what the thread does first and, for all that can come of it,
how it goes on. What a thread does on its own state, or on the shared world without taking a slot,
is one step. Slots are taken, collections run and other threads waited for in ways that a course
does not know; it only goes on with the answer.

A thread that is alone gets all answers at once. Then a course is a computation again, and each
course below is, alone, the computation of the same name.
-/

namespace CellMachine

/-- What leaves the heap alone does not touch it. -/
lemma untouched (w : World) : Relation.ReflTransGen Heap.Touch w.heap w.heap := .refl

/-- A computation of one thread, step by step. A step goes on with what was there before it. -/
inductive Course (σ α : Type) where
  | done (r : Except Halt α)
  /-- Changes the state of the thread. -/
  | own (act : ThreadState → ThreadState) (next : ThreadState → Course σ α)
  /-- Changes the state of the program that drives the machine. -/
  | host (act : σ → σ) (next : σ → Course σ α)
  /-- Changes the shared world, or looks at the whole machine. -/
  | step (act : World → World)
      (tame : ∀ w, Relation.ReflTransGen Heap.Touch w.heap (act w).heap)
      (next : Machine σ → Course σ α)
  /-- Takes a slot for an object. -/
  | place (o : Object) (next : Except HeapFault Address → Course σ α)
  | collect (next : Bool → Course σ α)
  /-- Waits for the end of a worker. -/
  | join (worker : Nat) (next : Except Halt String → Course σ α)

namespace Course

variable {σ α β γ : Type}

/-- Goes on with the outcome of a course, whatever it is. -/
def follow (k : Except Halt α → Course σ β) : Course σ α → Course σ β
  | done r => k r
  | own act next => own act fun t => follow k (next t)
  | host act next => host act fun h => follow k (next h)
  | step act tame next => step act tame fun m => follow k (next m)
  | place o next => place o fun r => follow k (next r)
  | collect next => collect fun ran => follow k (next ran)
  | join worker next => join worker fun r => follow k (next r)

/-- What to do with a value, and what with a halt. -/
def either (f : α → β) (g : Halt → β) : Except Halt α → β
  | .ok a => f a
  | .error h => g h

@[simp] lemma either_ok (f : α → β) (g : Halt → β) (a : α) : either f g (.ok a) = f a := rfl

@[simp] lemma either_error (f : α → β) (g : Halt → β) (h : Halt) : either f g (.error h) = g h :=
  rfl

instance : Monad (Course σ) where
  pure a := done (.ok a)
  bind x f := x.follow (either f fun h => done (.error h))

def halt (h : Halt) : Course σ α := done (.error h)

def raiseError (e : CallError) : Course σ α := halt (.error e)

def throwFault (f : Fault) : Course σ α := halt (.fault f)

def ofOutcome (r : Except Halt α) : Course σ α := done r

def ofExcept : Except CallError α → Course σ α
  | .ok a => pure a
  | .error e => raiseError e

def ofFault : Except Fault α → Course σ α
  | .ok a => pure a
  | .error f => throwFault f

def ofHeap : Except HeapFault α → Course σ α
  | .ok a => pure a
  | .error f => throwFault (.heap f)

/-- The outcome of a course as a value. -/
def outcome (x : Course σ α) : Course σ (Except Halt α) := x.follow fun r => done (.ok r)

/-- Does something for each element of a list. -/
def forEach (f : α → Course σ Unit) : List α → Course σ Unit
  | [] => pure ()
  | a :: rest => do
    f a
    forEach f rest

/-- Reads the state of the thread. -/
def readThread (f : ThreadState → α) : Course σ α := own id fun t => done (.ok (f t))

/-- Reads the machine. -/
def read (f : Machine σ → α) : Course σ α := step id untouched fun m => done (.ok (f m))

def onThread (f : ThreadState → α × ThreadState) : Course σ α :=
  own (fun t => (f t).2) fun t => done (.ok (f t).1)

def onHost (f : σ → α × σ) : Course σ α := host (fun h => (f h).2) fun h => done (.ok (f h).1)

/-- A step in the shared world. -/
def inWorld (f : World → α × World)
    (tame : ∀ w, Relation.ReflTransGen Heap.Touch w.heap (f w).2.heap) : Course σ α :=
  step (fun w => (f w).2) tame fun m => done (.ok (f m.world).1)

/-- Runs a course and then, whatever came of it, another. -/
def ensuring (after : Course σ Unit) (x : Course σ α) : Course σ α :=
  x.follow fun r => after.follow fun _ => done r

/-- Runs a course and, if it came to a halt, another. -/
def onHalt (after : Course σ Unit) (x : Course σ α) : Course σ α :=
  x.follow (either (fun a => done (.ok a)) fun h => after.follow fun _ => done (.error h))

/-- A course as a computation, for a thread that is alone until it joins a worker. -/
def alone (joined : VM σ String) : Course σ α → VM σ α
  | done r => VM.ofOutcome r
  | own act next => ⟨fun m => (alone joined (next m.thread)).run { m with thread := act m.thread }⟩
  | host act next => ⟨fun m => (alone joined (next m.host)).run { m with host := act m.host }⟩
  | step act _ next => ⟨fun m => (alone joined (next m)).run { m with world := act m.world }⟩
  | place o next => do alone joined (next (← VM.inWorld fun argStacks w => w.place argStacks o))
  | collect next => do alone joined (next (← VM.collect))
  | join _ next => do alone joined (next (← VM.outcome joined))

lemma run_ofOutcome (r : Except Halt α) (m : Machine σ) : (VM.ofOutcome r).run m = (r, m) := by
  cases r <;> rfl

section Alone

variable (joined : VM σ String)

/-- What follows a course follows its outcome. -/
lemma alone_follow (k : Except Halt α → Course σ β) (x : Course σ α) :
    alone joined (x.follow k) = VM.outcome (alone joined x) >>= fun r => alone joined (k r) := by
  induction x with
  | done r =>
    ext m : 1
    cases r <;> rfl
  | own act next ih =>
    ext m : 1
    simp only [follow, alone, ih, VM.run_bind, VM.run_outcome]
  | host act next ih =>
    ext m : 1
    simp only [follow, alone, ih, VM.run_bind, VM.run_outcome]
  | step act tame next ih =>
    ext m : 1
    simp only [follow, alone, ih, VM.run_bind, VM.run_outcome]
  | place o next ih =>
    ext m : 1
    simp only [follow, alone, ih, VM.run_bind, VM.run_inWorld, VM.run_outcome]
  | collect next ih =>
    ext m : 1
    simp only [follow, alone, ih, VM.run_bind, VM.collect, VM.run_inWorld, VM.run_outcome]
  | join worker next ih =>
    ext m : 1
    simp only [follow, alone, ih, VM.run_bind, VM.run_outcome]

@[simp] lemma alone_pure (a : α) : alone joined (pure a : Course σ α) = pure a := rfl

@[simp] lemma alone_bind (x : Course σ α) (f : α → Course σ β) :
    alone joined (x >>= f) = alone joined x >>= fun a => alone joined (f a) := by
  ext m : 1
  change (alone joined (x.follow _)).run m = _
  rw [alone_follow, VM.run_bind, VM.run_outcome, VM.run_bind]
  rcases (alone joined x).run m with ⟨_ | a, m'⟩ <;> rfl

@[simp] lemma alone_halt (h : Halt) : alone joined (halt h : Course σ α) = VM.halt h := rfl

@[simp] lemma alone_raiseError (e : CallError) :
    alone joined (raiseError e : Course σ α) = VM.raiseError e := rfl

@[simp] lemma alone_ofOutcome (r : Except Halt α) :
    alone joined (ofOutcome r : Course σ α) = VM.ofOutcome r := rfl

@[simp] lemma alone_ofExcept (r : Except CallError α) :
    alone joined (ofExcept r : Course σ α) = VM.ofExcept r := by
  cases r <;> rfl

@[simp] lemma alone_ofFault (r : Except Fault α) :
    alone joined (ofFault r : Course σ α) = VM.ofFault r := by
  cases r <;> rfl

@[simp] lemma alone_ofHeap (r : Except HeapFault α) :
    alone joined (ofHeap r : Course σ α) = VM.ofHeap r := by
  cases r <;> rfl

@[simp] lemma alone_outcome (x : Course σ α) :
    alone joined x.outcome = VM.outcome (alone joined x) := by
  ext m : 1
  rw [outcome, alone_follow, VM.run_bind, VM.run_outcome]
  rfl

@[simp] lemma alone_forEach (f : α → Course σ Unit) (l : List α) :
    alone joined (forEach f l) = VM.forEach (fun a => alone joined (f a)) l := by
  induction l with
  | nil => rfl
  | cons a rest ih => rw [forEach, alone_bind, ih, VM.forEach]

@[simp] lemma alone_readThread (f : ThreadState → α) :
    alone joined (readThread f : Course σ α) = VM.read fun m => f m.thread := rfl

@[simp] lemma alone_read (f : Machine σ → α) : alone joined (read f) = VM.read f := rfl

@[simp] lemma alone_onThread (f : ThreadState → α × ThreadState) :
    alone joined (onThread f : Course σ α) = VM.onThread f := rfl

@[simp] lemma alone_onHost (f : σ → α × σ) : alone joined (onHost f) = VM.onHost f := rfl

@[simp] lemma alone_inWorld (f : World → α × World)
    (tame : ∀ w, Relation.ReflTransGen Heap.Touch w.heap (f w).2.heap) :
    alone joined (inWorld f tame : Course σ α) = VM.inWorld fun _ => f := rfl

@[simp] lemma alone_ensuring (after : Course σ Unit) (x : Course σ α) :
    alone joined (ensuring after x) =
      VM.ensuring (fun m => ((alone joined after).run m).2) (alone joined x) := by
  ext m : 1
  rw [ensuring, alone_follow, VM.run_bind, VM.run_outcome, VM.run_ensuring]
  dsimp only
  rw [alone_follow, VM.run_bind, VM.run_outcome]
  exact run_ofOutcome _ _

@[simp] lemma alone_onHalt (after : Course σ Unit) (x : Course σ α) :
    alone joined (onHalt after x) =
      VM.onHalt (fun m => ((alone joined after).run m).2) (alone joined x) := by
  ext m : 1
  rw [onHalt, alone_follow, VM.run_bind, VM.run_outcome, VM.onHalt]
  dsimp only
  rcases (alone joined x).run m with ⟨h | a, m'⟩
  · simp only [either_error, alone_follow, VM.run_bind, VM.run_outcome]
    rfl
  · rfl

end Alone

end Course

end CellMachine
