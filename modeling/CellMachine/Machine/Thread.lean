import CellMachine.Machine.Computation

/-!
# Threads of a machine

A thread that is waited for runs with an argument stack and frames of its own in the
shared world. The stack of the thread that waits stays among the roots.
-/

namespace CellMachine

/-- What is left when a thread has ended. -/
structure ThreadEnd (σ α : Type) where
  outcome : Except Halt α
  stack : Array Value
  host : σ

namespace VM

variable {σ α : Type}

/-- Sets the state of the calling thread aside and starts a new one. -/
def startThread (id : FrameId) (file : String) (host : σ) :
    VM σ (ThreadState × Stacks × σ) :=
  update fun ⟨world, thread, waiting, own⟩ =>
    ((thread, waiting, own), ⟨world, .start id file, thread.stack :: waiting, host⟩)

/-- Goes on with the calling thread. -/
def resumeThread (thread : ThreadState) (waiting : Stacks) (own : σ) :
    VM σ (Array Value × σ) :=
  update fun ⟨world, ended, _, host⟩ =>
    ((ended.stack, host), ⟨world, thread, waiting, own⟩)

/-- Runs a computation in a thread of its own and waits for its end. -/
def inThread (file : String) (host : σ) (x : VM σ α) : VM σ (ThreadEnd σ α) := do
  let id ← inWorld fun _ w => w.freshFrame
  let (thread, waiting, own) ← startThread id file host
  let outcome ← outcome x
  let (stack, host) ← resumeThread thread waiting own
  return ⟨outcome, stack, host⟩

end VM

end CellMachine
