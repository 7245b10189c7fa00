import Mathlib

/-!
# Fair schedules

A schedule is fair if every thread gets its turn again and again. A system that always has a
thread that can move, and a measure that falls with every move, comes to its end under every
fair schedule.
-/

namespace CellMachine

/-- Each of that many threads has a turn after any time. -/
def Fair (threads : Nat) (schedule : Nat → Nat) : Prop :=
  ∀ i < threads, ∀ n, ∃ m, n ≤ m ∧ schedule m = i

lemma fair_roundRobin (threads : Nat) : Fair threads (· % threads) := by
  intro i known n
  refine ⟨n * threads + i, ?_, Nat.mul_add_mod_of_lt known⟩
  have more : n * 1 ≤ n * threads := Nat.mul_le_mul_left n (by omega)
  omega

/-- The first turn of a thread from some time on. -/
lemma Fair.exists_next {threads i : Nat} {schedule : Nat → Nat} (fair : Fair threads schedule)
    (known : i < threads) (n : Nat) :
    ∃ m, n ≤ m ∧ schedule m = i ∧ ∀ l, n ≤ l → l < m → schedule l ≠ i := by
  have turns := fair i known n
  obtain ⟨later, turn⟩ := Nat.find_spec turns
  exact ⟨Nat.find turns, later, turn, fun l lower upper same =>
    Nat.find_min turns upper ⟨lower, same⟩⟩

/-- A measure that falls again and again as long as something is not done. -/
lemma exists_of_falls {done : Nat → Prop} (measure : Nat → Nat)
    (falls : ∀ n, ¬ done n → ∃ m, measure m < measure n) (n : Nat) : ∃ m, done m := by
  induction left : measure n using Nat.strong_induction_on generalizing n with
  | _ k ih =>
    by_cases finished : done n
    · exact ⟨n, finished⟩
    · obtain ⟨m, less⟩ := falls n finished
      exact ih (measure m) (left ▸ less) m rfl

variable {σ : Type} {threads : Nat} {step : Nat → σ → σ} {schedule : Nat → Nat} {states : Nat → σ}

/-- A thread that can move will move, unless another one moves before. -/
lemma Fair.exists_move (fair : Fair threads schedule)
    (next : ∀ n, states (n + 1) = step (schedule n) (states n)) {n i : Nat} (known : i < threads)
    (moves : step i (states n) ≠ states n) : ∃ m, n ≤ m ∧ states (m + 1) ≠ states m := by
  by_contra still
  push Not at still
  have same : ∀ m, n ≤ m → states m = states n := by
    intro m later
    induction m, later using Nat.le_induction with
    | base => rfl
    | succ m later ih => exact (still m later).trans ih
  obtain ⟨m, later, turn⟩ := fair i known n
  apply moves
  rw [← same m later, ← turn, ← next m]
  exact still m later

/-- Every move lowers the measure, and before the end there is always a move. -/
theorem Fair.reaches (fair : Fair threads schedule)
    (next : ∀ n, states (n + 1) = step (schedule n) (states n)) {done : Nat → Prop}
    (measure : σ → Nat)
    (lowers : ∀ n, states (n + 1) = states n ∨ measure (states (n + 1)) < measure (states n))
    (moves : ∀ n, ¬ done n → ∃ i < threads, step i (states n) ≠ states n) : ∃ n, done n := by
  have antitone : ∀ n m, n ≤ m → measure (states m) ≤ measure (states n) := by
    intro n m later
    induction m, later using Nat.le_induction with
    | base => exact le_rfl
    | succ m _ ih =>
      rcases lowers m with same | less
      · rwa [same]
      · exact less.le.trans ih
  refine exists_of_falls (fun n => measure (states n)) (fun n unfinished => ?_) 0
  obtain ⟨i, known, able⟩ := moves n unfinished
  obtain ⟨m, later, moved⟩ := fair.exists_move next known able
  exact ⟨m + 1, ((lowers m).resolve_left moved).trans_le (antitone n m later)⟩

end CellMachine
