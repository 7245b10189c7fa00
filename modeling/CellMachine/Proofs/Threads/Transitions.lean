import CellMachine.Proofs.Threads.Word
import CellMachine.Threads.Mutator

/-!
# The transitions of a thread

A step of a thread is one of a few transitions, each of which concerns this thread and what all
threads have in common, or it leaves the system alone because the thread waits. This holds of
every program and every system. What a step keeps, shows to the programs or brings nearer is then
a fact about transitions.
-/

namespace CellMachine

variable {α ω σ : Type}

namespace Stage

/-- What a thread in the rendezvous is there for. -/
def errand? : Stage α σ → Option (Errand α σ)
  | joining _ e | submitting _ _ e | arriving _ _ e | waiting _ _ _ e | collecting _ e
  | finishing _ e | leaving _ e | waitingToLeave _ e | departing e => some e
  | _ => none

/-- Where a thread goes from the first barrier. -/
def passed (coordinator : Bool) (parties : Nat) (e : Errand α σ) : Stage α σ :=
  if coordinator then collecting parties e else leaving parties e

end Stage

namespace Errand

/-- Where a thread stands when it has left the rendezvous. -/
def after (own : σ) : Errand α σ → MutatorThread α σ
  | safepoint next => ⟨next, .between⟩
  | beforeAllocation payload next => ⟨own, .pressing payload next⟩
  | shortage c payload next => ⟨own, .growing c payload next⟩
  | collection next => ⟨next true, .between⟩
  | departure next => ⟨own, .deregistering next⟩

/-- Where a thread stands that goes on without a collection. -/
def forgone (own : σ) : Errand α σ → MutatorThread α σ
  | collection next => ⟨next false, .between⟩
  | e => e.after own

end Errand

/-- Why the next step of a thread does not take place. -/
def MutatorThread.Refused (p : Program α ω σ) (word : GcWord) (sense : Bool) (hold : GcHold) :
    MutatorThread α σ → Prop
  | ⟨own, .between⟩ => ∃ next, p.move own = .register next ∧ word.register = .error hold
  | ⟨_, .electing _⟩ => word.start = .error hold
  | ⟨_, .waiting found _ _ _⟩ | ⟨_, .waitingToLeave found _⟩ => hold = .blocked ∧ found = sense
  | ⟨_, .departing _⟩ => word.depart = .error hold
  | ⟨_, .deregistering _⟩ => word.deregister = .error hold
  | _ => False

/-- The thread has come to its end, or its next step does not take place. -/
def MutatorThread.Stays (p : Program α ω σ) (word : GcWord) (sense : Bool) (t : MutatorThread α σ) :
    Prop :=
  (t.stage = .between ∧ p.move t.own = .halt) ∨ ∃ hold, t.Refused p word sense hold

lemma MutatorThread.Stays.refused {p : Program α ω σ} {word : GcWord} {sense : Bool}
    {t : MutatorThread α σ} (stays : t.Stays p word sense) (elsewhere : t.stage ≠ .between) :
    ∃ hold, t.Refused p word sense hold :=
  stays.resolve_left fun halted => elsewhere halted.1

/-- What the threads of a system have in common. -/
structure Common (α ω : Type) where
  shared : Shared α ω
  word : GcWord
  barrier : Barrier
  inputs : List RootSet

variable [Payload α]

/-- All that the next step of a thread can do to the thread and to what the threads have in
common, each with what it takes. -/
inductive Transition (p : Program α ω σ) :
    Common α ω → MutatorThread α σ → Common α ω → MutatorThread α σ → Prop where
  | register {g : Common α ω} {own next : σ} {word : GcWord}
      (move : p.move own = .register next) (ok : g.word.register = .ok word) :
      Transition p g ⟨own, .between⟩ { g with word } ⟨next, .between⟩
  /-- No size class has room for the payload. -/
  | refuse {g : Common α ω} {own : σ} {payload : α} {next : Except HeapFault Address → σ}
      {f : HeapFault} (move : p.move own = .allocate payload next)
      (fault : g.shared.heap.classOf payload = .error f) :
      Transition p g ⟨own, .between⟩ g ⟨next (.error f), .between⟩
  | allocate {g : Common α ω} {own : σ} {payload : α} {next : Except HeapFault Address → σ}
      (move : p.move own = .allocate payload next) (idle : g.word.isRequested = false) :
      Transition p g ⟨own, .between⟩ g ⟨own, .pressing payload next⟩
  | allocateLater {g : Common α ω} {own : σ} {payload : α} {next : Except HeapFault Address → σ}
      (move : p.move own = .allocate payload next) (requested : g.word.isRequested = true) :
      Transition p g ⟨own, .between⟩ g ⟨own, .joining false (.beforeAllocation payload next)⟩
  | demand {g : Common α ω} {own : σ} {next : Bool → σ} (move : p.move own = .collect next) :
      Transition p g ⟨own, .between⟩ g ⟨own, .electing (.collection next)⟩
  | poll {g : Common α ω} {own next : σ} (move : p.move own = .safepoint next)
      (idle : g.word.isRequested = false) :
      Transition p g ⟨own, .between⟩ g ⟨next, .between⟩
  | stop {g : Common α ω} {own next : σ} (move : p.move own = .safepoint next)
      (requested : g.word.isRequested = true) :
      Transition p g ⟨own, .between⟩ g ⟨own, .joining false (.safepoint next)⟩
  | update {g : Common α ω} {own : σ} {act : Shared α ω → σ × Shared α ω}
      (move : p.move own = .update act) :
      Transition p g ⟨own, .between⟩ { g with shared := (act g.shared).2 }
        ⟨(act g.shared).1, .between⟩
  | resign {g : Common α ω} {own next : σ} (move : p.move own = .deregister next) :
      Transition p g ⟨own, .between⟩ g ⟨own, .deregistering next⟩
  | fault {g : Common α ω} {own : σ} {payload : α} {next : Except HeapFault Address → σ}
      {f : HeapFault} (fault : g.shared.heap.classOf payload = .error f) :
      Transition p g ⟨own, .pressing payload next⟩ g ⟨next (.error f), .between⟩
  /-- The size class takes its first blocks. -/
  | prewarm {g : Common α ω} {own : σ} {payload : α} {next : Except HeapFault Address → σ} {c : Nat}
      (fits : g.shared.heap.classOf payload = .ok c)
      (fresh : g.shared.heap.pressure c = .prepared) :
      Transition p g ⟨own, .pressing payload next⟩
        { g with shared := { g.shared with heap := g.shared.heap.prewarm c } }
        ⟨own, .claiming c payload next⟩
  | suffice {g : Common α ω} {own : σ} {payload : α} {next : Except HeapFault Address → σ} {c : Nat}
      (fits : g.shared.heap.classOf payload = .ok c)
      (enough : g.shared.heap.pressure c = .relaxed) :
      Transition p g ⟨own, .pressing payload next⟩ g ⟨own, .claiming c payload next⟩
  | runShort {g : Common α ω} {own : σ} {payload : α} {next : Except HeapFault Address → σ} {c : Nat}
      (fits : g.shared.heap.classOf payload = .ok c) (short : g.shared.heap.pressure c = .short) :
      Transition p g ⟨own, .pressing payload next⟩ g ⟨own, .electing (.shortage c payload next)⟩
  | forgo {g : Common α ω} {own : σ} {e : Errand α σ}
      (disabled : g.shared.heap.gcEnabled = false) :
      Transition p g ⟨own, .electing e⟩ g (e.forgone own)
  | elect {g : Common α ω} {own : σ} {e : Errand α σ} {election : Election} {word : GcWord}
      (enabled : g.shared.heap.gcEnabled = true) (ok : g.word.start = .ok (election, word)) :
      Transition p g ⟨own, .electing e⟩ { g with word } ⟨own, .joining election.coordinator e⟩
  | prepare {g : Common α ω} {own : σ} {c : Bool} {e : Errand α σ} {parties : UInt64}
      (active : g.word.activeParticipants? = some parties) :
      Transition p g ⟨own, .joining c e⟩ g ⟨own, .submitting c parties.toNat e⟩
  /-- The cycle is over before the thread has joined it. -/
  | skip {g : Common α ω} {own : σ} {c : Bool} {e : Errand α σ}
      (idle : g.word.activeParticipants? = none) :
      Transition p g ⟨own, .joining c e⟩ g (e.after own)
  | submit {g : Common α ω} {own : σ} {c : Bool} {n : Nat} {e : Errand α σ} :
      Transition p g ⟨own, .submitting c n e⟩ { g with inputs := e.rootSet p own :: g.inputs }
        ⟨own, .arriving c n e⟩
  | arriveLast {g : Common α ω} {own : σ} {c : Bool} {n : Nat} {e : Errand α σ}
      (last : g.barrier.arrived + 1 = n) :
      Transition p g ⟨own, .arriving c n e⟩ { g with barrier := ⟨0, !g.barrier.sense⟩ }
        ⟨own, .passed c n e⟩
  | arrive {g : Common α ω} {own : σ} {c : Bool} {n : Nat} {e : Errand α σ}
      (more : g.barrier.arrived + 1 ≠ n) :
      Transition p g ⟨own, .arriving c n e⟩
        { g with barrier := ⟨g.barrier.arrived + 1, g.barrier.sense⟩ }
        ⟨own, .waiting g.barrier.sense c n e⟩
  | pass {g : Common α ω} {own : σ} {found c : Bool} {n : Nat} {e : Errand α σ}
      (free : found = !g.barrier.sense) :
      Transition p g ⟨own, .waiting found c n e⟩ g ⟨own, .passed c n e⟩
  | collect {g : Common α ω} {own : σ} {n : Nat} {e : Errand α σ} :
      Transition p g ⟨own, .collecting n e⟩
        { g with
          shared := { g.shared with heap := g.shared.heap.runCycle g.inputs.reverse }
          inputs := [] }
        ⟨own, .finishing n e⟩
  | finish {g : Common α ω} {own : σ} {n : Nat} {e : Errand α σ} :
      Transition p g ⟨own, .finishing n e⟩ { g with word := g.word.finish } ⟨own, .leaving n e⟩
  | leaveLast {g : Common α ω} {own : σ} {n : Nat} {e : Errand α σ}
      (last : g.barrier.arrived + 1 = n) :
      Transition p g ⟨own, .leaving n e⟩ { g with barrier := ⟨0, !g.barrier.sense⟩ }
        ⟨own, .departing e⟩
  | leave {g : Common α ω} {own : σ} {n : Nat} {e : Errand α σ}
      (more : g.barrier.arrived + 1 ≠ n) :
      Transition p g ⟨own, .leaving n e⟩
        { g with barrier := ⟨g.barrier.arrived + 1, g.barrier.sense⟩ }
        ⟨own, .waitingToLeave g.barrier.sense e⟩
  | passOut {g : Common α ω} {own : σ} {found : Bool} {e : Errand α σ}
      (free : found = !g.barrier.sense) :
      Transition p g ⟨own, .waitingToLeave found e⟩ g ⟨own, .departing e⟩
  | depart {g : Common α ω} {own : σ} {e : Errand α σ} {word : GcWord}
      (ok : g.word.depart = .ok word) :
      Transition p g ⟨own, .departing e⟩ { g with word } (e.after own)
  | grow {g : Common α ω} {own : σ} {c : Nat} {payload : α} {next : Except HeapFault Address → σ} :
      Transition p g ⟨own, .growing c payload next⟩
        { g with shared := { g.shared with heap := g.shared.heap.grow c } }
        ⟨own, .claiming c payload next⟩
  | claim {g : Common α ω} {own : σ} {c : Nat} {payload : α} {next : Except HeapFault Address → σ} :
      Transition p g ⟨own, .claiming c payload next⟩
        { g with shared := { g.shared with heap := (g.shared.heap.allocateIn c payload).2 } }
        ⟨next (g.shared.heap.allocateIn c payload).1, .between⟩
  | deregister {g : Common α ω} {own next : σ} {word : GcWord}
      (ok : g.word.deregister = .ok (true, word)) :
      Transition p g ⟨own, .deregistering next⟩ { g with word } ⟨next, .between⟩
  /-- A cycle that is requested counts on the thread. -/
  | stay {g : Common α ω} {own next : σ} (requested : g.word.isRequested = true) :
      Transition p g ⟨own, .deregistering next⟩ g ⟨own, .joining false (.departure next)⟩

lemma Barrier.passable_iff {b : Barrier} {found : Bool} : b.passable found ↔ found = !b.sense := by
  rw [passable]
  cases b.sense <;> cases found <;> decide

/-- A thread that may not go on found the sense as it is. -/
lemma Barrier.not_passable_iff {b : Barrier} {found : Bool} :
    ¬ b.passable found ↔ found = b.sense := by
  rw [passable_iff]
  cases b.sense <;> cases found <;> decide

namespace MutatorSystem

omit [Payload α] in
def common (s : MutatorSystem α ω σ) : Common α ω := ⟨s.shared, s.word, s.barrier, s.inputs⟩

omit [Payload α] in
/-- The system after a change that one thread has made. -/
def changed (s : MutatorSystem α ω σ) (thread : Nat) (g : Common α ω) (t : MutatorThread α σ) :
    MutatorSystem α ω σ :=
  ⟨g.shared, g.word, g.barrier, g.inputs, s.threads.modify thread fun _ => t⟩

omit [Payload α] in
lemma setStage_eq {s : MutatorSystem α ω σ} {i : Nat} {own : σ} {stage : Stage α σ}
    (here : s.threads[i]? = some ⟨own, stage⟩) (stage' : Stage α σ) :
    s.setStage i stage' = s.changed i s.common ⟨own, stage'⟩ := by
  have threads : (s.threads.modify i fun t => { t with stage := stage' }) =
      s.threads.modify i fun _ => ⟨own, stage'⟩ := by
    apply Array.ext_getElem?
    intro j
    rw [Array.getElem?_modify, Array.getElem?_modify]
    by_cases same : i = j
    · subst same
      simp [here]
    · simp [same]
  rw [setStage, changed, threads]
  rfl

omit [Payload α] in
lemma settle_eq (s : MutatorSystem α ω σ) (i : Nat) (own : σ) :
    s.settle i own = s.changed i s.common ⟨own, .between⟩ := by
  have threads : s.threads.setIfInBounds i (⟨own, .between⟩ : MutatorThread α σ) =
      s.threads.modify i fun _ => ⟨own, .between⟩ := by
    apply Array.ext_getElem?
    intro j
    rw [Array.getElem?_setIfInBounds, Array.getElem?_modify]
    by_cases same : i = j
    · subst same
      by_cases bound : i < s.threads.size
      · simp [bound]
      · simp [bound]
    · simp [same]
  rw [settle, changed, threads]
  rfl

section Steps

variable {p : Program α ω σ} {s : MutatorSystem α ω σ} {i : Nat} {own : σ} {stage : Stage α σ}

omit [Payload α] in
lemma resume_eq (here : s.threads[i]? = some ⟨own, stage⟩) (e : Errand α σ) :
    s.resume i e = s.changed i s.common (e.after own) := by
  cases e with
  | safepoint next => exact settle_eq s i next
  | collection next => exact settle_eq s i (next true)
  | _ => exact setStage_eq here _

omit [Payload α] in
lemma forgo_eq (here : s.threads[i]? = some ⟨own, stage⟩) (e : Errand α σ) :
    s.forgo i e = s.changed i s.common (e.forgone own) := by
  cases e with
  | collection next => exact settle_eq s i (next false)
  | safepoint next => exact settle_eq s i next
  | _ => exact setStage_eq here _

/-- What comes of the next step of a thread: it has come to its end, it makes a transition, or the
step is refused. -/
def Takes (p : Program α ω σ) (s : MutatorSystem α ω σ) (i : Nat) (t : MutatorThread α σ) :
    Except GcHold (MutatorSystem α ω σ) → Prop
  | .ok s' => ((t.stage = .between ∧ p.move t.own = .halt) ∧ s' = s) ∨
      ∃ g t', Transition p s.common t g t' ∧ s' = s.changed i g t'
  | .error hold => t.Refused p s.word s.barrier.sense hold

lemma takes_begin (here : s.threads[i]? = some ⟨own, .between⟩) :
    s.Takes p i ⟨own, .between⟩ (s.begin p i own) := by
  rw [begin]
  cases move : p.move own with
  | halt => exact .inl ⟨⟨rfl, move⟩, rfl⟩
  | register next =>
    dsimp only
    split
    · rename_i word ok
      exact .inr ⟨_, _, .register move ok, settle_eq _ i next⟩
    · rename_i hold refused
      exact ⟨next, move, refused⟩
  | allocate payload next =>
    dsimp only
    split
    · rename_i f fault
      exact .inr ⟨_, _, .refuse move fault, settle_eq s i _⟩
    · split
      · rename_i requested
        exact .inr ⟨_, _, .allocateLater move requested, setStage_eq here _⟩
      · rename_i idle
        exact .inr ⟨_, _, .allocate move (Bool.eq_false_iff.mpr idle), setStage_eq here _⟩
  | collect next => exact .inr ⟨_, _, .demand move, setStage_eq here _⟩
  | safepoint next =>
    dsimp only
    split
    · rename_i requested
      exact .inr ⟨_, _, .stop move requested, setStage_eq here _⟩
    · rename_i idle
      exact .inr ⟨_, _, .poll move (Bool.eq_false_iff.mpr idle), settle_eq s i next⟩
  | update act => exact .inr ⟨_, _, .update move, settle_eq _ i _⟩
  | deregister next => exact .inr ⟨_, _, .resign move, setStage_eq here _⟩

lemma takes_press {payload : α} {next : Except HeapFault Address → σ}
    (here : s.threads[i]? = some ⟨own, .pressing payload next⟩) :
    s.Takes p i ⟨own, .pressing payload next⟩ (.ok (s.press i payload next)) := by
  rw [press]
  cases fits : s.shared.heap.classOf payload with
  | error f => exact .inr ⟨_, _, .fault fits, settle_eq s i _⟩
  | ok c =>
    dsimp only
    split
    · rename_i fresh
      exact .inr ⟨_, _, .prewarm fits fresh,
        setStage_eq (s := s.modifyHeap fun h => h.prewarm c) here _⟩
    · rename_i enough
      exact .inr ⟨_, _, .suffice fits enough, setStage_eq here _⟩
    · rename_i short
      exact .inr ⟨_, _, .runShort fits short, setStage_eq here _⟩

lemma takes_attempt {t : MutatorThread α σ} (here : s.threads[i]? = some t) :
    s.Takes p i t (s.attempt p i) := by
  obtain ⟨own, stage⟩ := t
  rw [attempt, here]
  cases stage with
  | between => exact takes_begin here
  | pressing payload next => exact takes_press here
  | electing e =>
    dsimp only
    split
    · rename_i disabled
      exact .inr ⟨_, _, .forgo (Bool.not_eq_true' _ ▸ disabled), forgo_eq here e⟩
    · rename_i enabled
      have enabled : s.shared.heap.gcEnabled = true := by simpa using enabled
      split
      · rename_i election word ok
        exact .inr ⟨_, _, .elect enabled ok, setStage_eq (s := { s with word }) here _⟩
      · rename_i hold refused
        exact refused
  | joining c e =>
    dsimp only
    split
    · rename_i parties active
      exact .inr ⟨_, _, .prepare active, setStage_eq here _⟩
    · rename_i idle
      exact .inr ⟨_, _, .skip idle, resume_eq here e⟩
  | submitting c n e =>
    exact .inr ⟨_, _, .submit,
      setStage_eq (s := { s with inputs := e.rootSet p own :: s.inputs }) here _⟩
  | arriving c n e =>
    dsimp only
    rw [Barrier.arrive]
    by_cases last : s.barrier.arrived + 1 = n
    · rw [if_pos last]
      exact .inr ⟨_, _, .arriveLast last,
        setStage_eq (s := { s with barrier := ⟨0, !s.barrier.sense⟩ }) here _⟩
    · rw [if_neg last]
      exact .inr ⟨_, _, .arrive last,
        setStage_eq (s := { s with barrier := ⟨s.barrier.arrived + 1, s.barrier.sense⟩ }) here _⟩
  | waiting found c n e =>
    dsimp only
    split
    · rename_i free
      exact .inr ⟨_, _, .pass (Barrier.passable_iff.mp free), setStage_eq here _⟩
    · rename_i stuck
      exact ⟨rfl, Barrier.not_passable_iff.mp stuck⟩
  | collecting n e =>
    exact .inr ⟨_, _, .collect,
      setStage_eq (s := { s with inputs := [] }.modifyHeap fun h => h.runCycle s.inputs.reverse)
        here _⟩
  | finishing n e =>
    exact .inr ⟨_, _, .finish, setStage_eq (s := { s with word := s.word.finish }) here _⟩
  | leaving n e =>
    dsimp only
    rw [Barrier.arrive]
    by_cases last : s.barrier.arrived + 1 = n
    · rw [if_pos last]
      exact .inr ⟨_, _, .leaveLast last,
        setStage_eq (s := { s with barrier := ⟨0, !s.barrier.sense⟩ }) here _⟩
    · rw [if_neg last]
      exact .inr ⟨_, _, .leave last,
        setStage_eq (s := { s with barrier := ⟨s.barrier.arrived + 1, s.barrier.sense⟩ }) here _⟩
  | waitingToLeave found e =>
    dsimp only
    split
    · rename_i free
      exact .inr ⟨_, _, .passOut (Barrier.passable_iff.mp free), setStage_eq here _⟩
    · rename_i stuck
      exact ⟨rfl, Barrier.not_passable_iff.mp stuck⟩
  | departing e =>
    dsimp only
    split
    · rename_i word ok
      exact .inr ⟨_, _, .depart ok, resume_eq (s := { s with word }) here e⟩
    · rename_i hold refused
      exact refused
  | growing c payload next =>
    exact .inr ⟨_, _, .grow, setStage_eq (s := s.modifyHeap fun h => h.grow c) here _⟩
  | claiming c payload next => exact .inr ⟨_, _, .claim, settle_eq _ i _⟩
  | deregistering next =>
    dsimp only
    split
    · rename_i word ok
      exact .inr ⟨_, _, .deregister ok, settle_eq _ i next⟩
    · rename_i word ok
      have requested : s.word.isRequested = true := by
        simpa using (GcWord.deregister_spec ok).1
      exact .inr ⟨_, _, .stay requested, setStage_eq here _⟩
    · rename_i hold refused
      exact refused

/-- All that a step of a thread can do. -/
lemma takes_step {t : MutatorThread α σ} (here : s.threads[i]? = some t) :
    (t.Stays p s.word s.barrier.sense ∧ s.step p i = s) ∨
      ∃ g t', Transition p s.common t g t' ∧ s.step p i = s.changed i g t' := by
  have takes := takes_attempt (p := p) here
  rw [step]
  cases attempted : s.attempt p i with
  | ok s' =>
    rw [attempted] at takes
    exact takes.imp_left fun ⟨halted, same⟩ => ⟨.inl halted, same⟩
  | error hold =>
    rw [attempted] at takes
    exact .inl ⟨.inr ⟨hold, takes⟩, rfl⟩

lemma step_of_attempt {s' : MutatorSystem α ω σ} (attempted : s.attempt p i = .ok s') :
    s.step p i = s' := by
  rw [step, attempted]

/-- A thread that does not exist takes no step. -/
lemma step_of_none (nobody : s.threads[i]? = none) : s.step p i = s := by
  apply step_of_attempt
  rw [attempt, nobody]

/-- Only a thread whose next step is refused fails. -/
lemma exists_refused_of_failure? {t : MutatorThread α σ} {text : String}
    (here : s.threads[i]? = some t) (fails : s.failure? p i = some text) :
    ∃ hold, t.Refused p s.word s.barrier.sense hold ∧ hold.message? = some text := by
  have takes := takes_attempt (p := p) here
  rw [failure?] at fails
  cases attempted : s.attempt p i with
  | ok s' =>
    rw [attempted] at fails
    cases fails
  | error hold =>
    rw [attempted] at fails takes
    exact ⟨hold, takes, fails⟩

end Steps

end MutatorSystem

end CellMachine
