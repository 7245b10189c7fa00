import CellMachine.Proofs.Threads.Changes

/-!
# A lone mutator

When all threads have gone, one more may register, collect once without any roots and deregister.
It is the only party of its cycle, so it waits for nobody, and what it does to the heap is one
collection with one empty set of roots.
-/

namespace CellMachine

/-- Where a thread is that comes only to collect. -/
inductive Visit where
  | arriving
  | collecting
  | leaving (ran : Bool)
  | gone (ran : Bool)

variable {α ω σ : Type}

/-- A thread without roots that registers, collects once and deregisters. -/
def visitor : Program α ω Visit where
  roots _ := []
  move
    | .arriving => .register .collecting
    | .collecting => .collect .leaving
    | .leaving ran => .deregister (.gone ran)
    | .gone _ => .halt

namespace GcWord

variable {w : GcWord}

lemma exists_register (idle : w.isRequested = false) (left : w.remaining = 0)
    (room : w.registered + 1 < 2 ^ 24) : ∃ w', w.register = .ok w' := by
  cases attempt : w.register with
  | ok w' => exact ⟨w', rfl⟩
  | error hold =>
    rcases register_refused attempt with ⟨_, requested | some_left⟩ | ⟨_, full⟩
    · rw [idle] at requested
      cases requested
    · exact absurd left some_left
    · omega

lemma exists_start (left : w.remaining = 0) : ∃ e w', w.start = .ok (e, w') := by
  cases attempt : w.start with
  | ok result => exact ⟨result.1, result.2, rfl⟩
  | error hold => exact absurd left (start_refused attempt).2.2

lemma exists_depart (some_left : w.remaining ≠ 0) : ∃ w', w.depart = .ok w' := by
  cases attempt : w.depart with
  | ok w' => exact ⟨w', rfl⟩
  | error hold => exact absurd (depart_refused attempt) some_left

lemma exists_deregister (idle : w.isRequested = false) (registered : w.registered ≠ 0) :
    ∃ w', w.deregister = .ok (true, w') := by
  cases attempt : w.deregister with
  | ok result =>
    obtain ⟨done, w'⟩ := result
    have answer := (deregister_spec attempt).1
    rw [idle] at answer
    exact ⟨w', by rw [answer]; rfl⟩
  | error hold => exact absurd (deregister_refused attempt).2 registered

end GcWord

namespace MutatorSystem

/-- One new thread in the place of all others. -/
def visited (s : MutatorSystem α ω σ) : MutatorSystem α ω Visit where
  shared := s.shared
  word := s.word
  barrier := s.barrier
  inputs := s.inputs
  threads := #[⟨.arriving, .between⟩]

/-- Nobody is registered, and the last cycle is over. -/
structure Deserted (s : MutatorSystem α ω σ) : Prop where
  idle : s.word.isRequested = false
  left : s.word.remaining = 0
  registered : s.word.registered = 0
  arrived : s.barrier.arrived = 0
  inputs : s.inputs = []

variable [Payload α]

/-- The turns of a lone thread. -/
abbrev turns (n : Nat) (s : MutatorSystem α ω Visit) : MutatorSystem α ω Visit :=
  s.follow visitor (List.replicate n 0)

/-- A lone thread that is registered collects, and then it is about to leave. -/
lemma visit_collect (shared : Shared α ω) {word : GcWord} (sense : Bool)
    (idle : word.isRequested = false) (left : word.remaining = 0) (one : word.registered = 1) :
    ∃ n word' sense', word'.isRequested = false ∧ word'.remaining = 0 ∧ word'.registered = 1 ∧
      turns n ⟨shared, word, ⟨0, sense⟩, [], #[⟨.collecting, .between⟩]⟩ =
        ⟨{ shared with heap := (shared.heap.collect [[]]).2 }, word', ⟨0, sense'⟩, [],
          #[⟨.leaving (shared.heap.collect [[]]).1, .between⟩]⟩ := by
  cases enabled : shared.heap.gcEnabled with
  | false =>
    refine ⟨2, word, sense, idle, left, one, ?_⟩
    simp [turns, follow, followSchedule, List.replicate, step, attempt, begin, visitor, setStage, settle,
      forgo, enabled, Heap.collect]
  | true =>
    obtain ⟨election, started, start⟩ := GcWord.exists_start left
    obtain ⟨elected, requested, parties, registered⟩ : election.coordinator = true ∧
        started.isRequested = true ∧ started.remaining = 1 ∧ started.registered = 1 := by
      rcases GcWord.start_spec start with ⟨requested, _⟩ | ⟨_, _, elected, requested, parties, same⟩
      · rw [idle] at requested
        cases requested
      · exact ⟨elected, requested, parties.trans one, same.trans one⟩
    have active : started.activeParticipants? = some started.participants :=
      GcWord.activeParticipants?_eq_some_iff.mpr ⟨requested, rfl⟩
    have alone : started.participants.toNat = 1 := parties
    obtain ⟨ended, still, counted⟩ := GcWord.finish_spec requested
    obtain ⟨last, depart⟩ := GcWord.exists_depart (w := started.finish) (by omega)
    obtain ⟨idle', left', registered'⟩ := GcWord.depart_spec depart
    refine ⟨9, last, sense, idle'.trans ended, by omega, by omega, ?_⟩
    simp [turns, follow, followSchedule, List.replicate, step, attempt, begin, visitor, setStage, settle,
      resume, passFirst, modifyHeap, Barrier.arrive, Errand.rootSet, Errand.pending, references,
      enabled, Heap.collect, start, elected, active, alone, depart]

lemma turns_add (m n : Nat) (s : MutatorSystem α ω Visit) :
    turns (m + n) s = turns n (turns m s) := by
  rw [turns, follow, followSchedule, List.replicate_add, List.foldl_append]
  rfl

/-- A visitor finds its way in and out, and all it does to the heap is one collection. -/
theorem Deserted.visit {s : MutatorSystem α ω σ} (deserted : s.Deserted) :
    ∃ n after, turns n s.visited = after ∧ after.Deserted ∧
      after.shared = { s.shared with heap := (s.shared.heap.collect [[]]).2 } ∧
      after.threads = #[⟨.gone (s.shared.heap.collect [[]]).1, .between⟩] := by
  obtain ⟨shared, word, ⟨arrived, sense⟩, inputs, threads⟩ := s
  obtain ⟨idle, left, none_there, rfl, rfl⟩ := deserted
  change word.registered = 0 at none_there
  obtain ⟨entered, register⟩ := GcWord.exists_register idle left (by rw [none_there]; decide)
  obtain ⟨_, _, idle₁, left₁, one₁⟩ := GcWord.register_spec register
  obtain ⟨n, word₂, sense₂, idle₂, left₂, one₂, collected⟩ :=
    visit_collect shared sense idle₁ left₁ (one₁.trans (by rw [none_there]))
  obtain ⟨word₃, deregister⟩ := GcWord.exists_deregister idle₂ (by omega)
  obtain ⟨idle₃, left₃, none_left⟩ := (GcWord.deregister_spec deregister).2 rfl
  have enter : turns 1 (visited ⟨shared, word, ⟨0, sense⟩, [], threads⟩) =
      ⟨shared, entered, ⟨0, sense⟩, [], #[⟨.collecting, .between⟩]⟩ := by
    simp [turns, follow, followSchedule, List.replicate, step, attempt, begin, visitor, settle, visited,
      register]
  refine ⟨1 + n + 2, ⟨{ shared with heap := (shared.heap.collect [[]]).2 }, word₃, ⟨0, sense₂⟩, [],
    #[⟨.gone (shared.heap.collect [[]]).1, .between⟩]⟩, ?_, ?_, rfl, rfl⟩
  · rw [turns_add, turns_add, enter, collected]
    simp [turns, follow, followSchedule, List.replicate, step, attempt, begin, visitor, setStage, settle,
      deregister]
  · refine ⟨idle₃, left₃.trans left₂, ?_, rfl, rfl⟩
    change word₃.registered = 0
    omega

end MutatorSystem

end CellMachine
