/-!
# Schedules

A system of threads is given by what one step of a thread does to the whole. A thread
that has to wait leaves the system as it is, so any list of thread numbers is a
schedule. Taking turns is one of them.
-/

namespace CellMachine

/-- Lets the threads of a schedule take one step each, in order. -/
def followSchedule {σ : Type} (step : Nat → σ → σ) (schedule : List Nat) (s : σ) : σ :=
  schedule.foldl (fun s thread => step thread s) s

/-- Lets all threads take turns, for the given number of rounds or until the system has
finished. -/
def takeTurns {σ : Type} (step : Nat → σ → σ) (threads : Nat) (finished : σ → Bool) :
    Nat → σ → σ
  | 0, s => s
  | rounds + 1, s =>
    if finished s then s
    else takeTurns step threads finished rounds
      (followSchedule step (List.range threads) s)

end CellMachine
