import CellMachine.Proofs.Threads.Beats
import CellMachine.Proofs.Threads.Fairness

/-!
# Progress

The threads of a program that counts its calls down come to rest under every fair schedule. A
measure falls with every step that is not a poll. First come the calls that the threads have
ahead, each counted in an order of its own choice; then how far the threads are with their present
calls; and last how far they are with the requested cycle. An election takes all others back to
the start of that, which is paid for by the work of the thread that was elected.

When the measure falls no more, nobody waits for a cycle: a thread that waits at a barrier waits
for one that has not arrived, and each of these would still arrive.
-/

namespace CellMachine

variable {α ω σ W : Type} [PartialOrder W] {p : Program α ω σ} {held : σ → Nat} {rank : σ → W}

/-- The program counts its calls down. A thread may poll: then it looks at what is shared and
goes to a safepoint, again and again. -/
structure Program.Progresses (p : Program α ω σ) (held : σ → Nat) (rank : σ → W) : Prop where
  single : ∀ own, held own ≤ 1
  halt : ∀ own, p.move own = .halt → held own = 0
  register : ∀ own next, p.move own = .register next → rank next < rank own
  allocate : ∀ own payload next, p.move own = .allocate payload next →
    ∀ result, rank (next result) < rank own
  collect : ∀ own next, p.move own = .collect next → ∀ ran, rank (next ran) < rank own
  safepoint : ∀ own next, p.move own = .safepoint next → rank next ≤ rank own
  update : ∀ own act, p.move own = .update act → ∀ shared,
    rank (act shared).1 < rank own ∨
      rank (act shared).1 = rank own ∧ ∃ next, p.move (act shared).1 = .safepoint next
  deregister : ∀ own next, p.move own = .deregister next → rank next < rank own

/-- The work left in a call after the rendezvous. -/
def Errand.work : Errand α σ → Nat
  | safepoint _ => 5
  | beforeAllocation _ _ | departure _ => 4
  | shortage _ _ _ | collection _ => 2

/-- The work left in a call. -/
def Stage.work : Stage α σ → Nat
  | between => 5
  | pressing _ _ | deregistering _ => 4
  | electing e => e.work + 1
  | growing _ _ _ => 2
  | claiming _ _ _ => 1
  | joining _ e | submitting _ _ e | arriving _ _ e | waiting _ _ _ e | collecting _ e
  | finishing _ e | leaving _ e | waitingToLeave _ e | departing e => e.work

/-- The steps that a thread has left in the requested cycle. -/
def Stage.distance (requested : Bool) : Stage α σ → Nat
  | joining _ _ => 9
  | submitting _ _ _ => 8
  | arriving _ _ _ => 7
  | waiting _ _ _ _ => 6
  | collecting _ _ => 5
  | finishing _ _ => 4
  | leaving _ _ => 3
  | waitingToLeave _ _ => 2
  | departing _ => 1
  | _ => if requested then 10 else 0

namespace Stage

lemma work_of_errand {stage : Stage α σ} {e : Errand α σ} (inside : stage.errand? = some e) :
    stage.work = e.work := by
  cases stage <;> cases inside <;> rfl

lemma distance_of_out {stage : Stage α σ} (out : stage.errand? = none) (requested : Bool) :
    stage.distance requested = if requested then 10 else 0 := by
  cases stage <;> first | rfl | cases out

lemma distance_of_inside {stage : Stage α σ} {e : Errand α σ} (inside : stage.errand? = some e)
    (requested : Bool) : stage.distance requested = stage.distance false ∧
      0 < stage.distance false ∧ stage.distance false ≤ 9 := by
  cases stage <;> cases inside <;> simp [distance]

lemma distance_le (stage : Stage α σ) (requested : Bool) : stage.distance requested ≤ 10 := by
  cases out : stage.errand? with
  | none =>
    rw [distance_of_out out]
    cases requested <;> decide
  | some e =>
    have bounds := distance_of_inside out requested
    omega

/-- The end of a cycle takes nobody away from its end. -/
lemma distance_mono (stage : Stage α σ) {requested requested' : Bool}
    (fewer : requested' = true → requested = true) :
    stage.distance requested' ≤ stage.distance requested := by
  cases out : stage.errand? with
  | none =>
    rw [distance_of_out out, distance_of_out out]
    cases requested' with
    | false => exact Nat.zero_le _
    | true => rw [fewer rfl]
  | some e => rw [(distance_of_inside out requested').1, (distance_of_inside out requested).1]

end Stage

/-- After the rendezvous a thread has a call less ahead, or no more work left in the present one. -/
lemma Errand.work_after (progress : p.Progresses held rank) {own : σ} {e : Errand α σ}
    (move : p.move own = e.move) :
    (rank (e.after own).own < rank own ∨
      rank (e.after own).own = rank own ∧ (e.after own).stage.work ≤ e.work) ∧
      (e.after own).stage.errand? = none := by
  cases e with
  | safepoint next =>
    have falls := (progress.safepoint own next move).lt_or_eq
    exact ⟨falls.imp_right fun same => ⟨same, le_rfl⟩, rfl⟩
  | collection next => exact ⟨.inl (progress.collect own next move true), rfl⟩
  | _ => exact ⟨.inr ⟨rfl, le_rfl⟩, rfl⟩

/-- The thread polls: it looks at what is shared, or finds at a safepoint that no cycle is
requested. -/
def MutatorThread.Polls (p : Program α ω σ) (rank : σ → W) (word : GcWord) (shared : Shared α ω)
    (t t' : MutatorThread α σ) : Prop :=
  t.stage = .between ∧ t'.stage = .between ∧ rank t'.own = rank t.own ∧
    ((p.move t.own = .safepoint t'.own ∧ word.isRequested = false) ∨
      ∃ act next, p.move t.own = .update act ∧ (act shared).1 = t'.own ∧
        p.move t'.own = .safepoint next)

/-- There is less to do for the thread. -/
def Advances (rank : σ → W) (g : Common α ω) (t : MutatorThread α σ) (g' : Common α ω)
    (t' : MutatorThread α σ) : Prop :=
  rank t'.own < rank t.own ∨
    rank t'.own = rank t.own ∧
      (t'.stage.work < t.stage.work ∨
        t'.stage.work ≤ t.stage.work ∧
          t'.stage.distance g.word.isRequested < t.stage.distance g.word.isRequested ∧
          (g'.word.isRequested = true → g.word.isRequested = true))

section Transitions

variable {g g' : Common α ω} {t t' : MutatorThread α σ} {own : σ} {stage : Stage α σ}
  {e : Errand α σ}

/-- The thread has less work left in its call. -/
lemma Advances.works (same : t'.own = t.own) (less : t'.stage.work < t.stage.work) :
    Advances rank g t g' t' :=
  .inr ⟨congrArg rank same, .inl less⟩

/-- The thread is nearer to the end of the cycle. -/
lemma Advances.nears (same : t'.own = t.own) (work : t'.stage.work ≤ t.stage.work)
    (distance : t'.stage.distance g.word.isRequested < t.stage.distance g.word.isRequested)
    (requested : g'.word.isRequested = true → g.word.isRequested = true) :
    Advances rank g t g' t' :=
  .inr ⟨congrArg rank same, .inr ⟨work, distance, requested⟩⟩

/-- A thread that meets a requested cycle has begun with it. -/
lemma Advances.joins {c : Bool} (requested : g.word.isRequested = true)
    (out : stage.errand? = none) (work : e.work ≤ stage.work) :
    Advances rank g ⟨own, stage⟩ g ⟨own, .joining c e⟩ := by
  refine .nears rfl work ?_ id
  rw [Stage.distance_of_out out, requested]
  exact (by decide : 9 < 10)

/-- Without a collection a thread is where it would be after one, or a little farther. -/
lemma Errand.advances_forgone (progress : p.Progresses held rank) (move : p.move own = e.move) :
    Advances rank g ⟨own, .electing e⟩ g (e.forgone own) := by
  have after : Advances rank g ⟨own, .electing e⟩ g (e.after own) := by
    rcases (work_after progress move).1 with less | ⟨same, work⟩
    · exact .inl less
    · exact .inr ⟨same, .inl (Nat.lt_succ_of_le work)⟩
  cases e with
  | collection next => exact .inl (progress.collect own next move false)
  | _ => exact after

/-- A thread that is out of a cycle which is not requested any more is at its end. -/
lemma Errand.advances_after (progress : p.Progresses held rank) (inside : stage.errand? = some e)
    (move : p.move own = e.move) (idle : g.word.isRequested = false)
    (same_word : g'.word.isRequested = g.word.isRequested) :
    Advances rank g ⟨own, stage⟩ g' (e.after own) := by
  obtain ⟨falls | ⟨same, work⟩, out⟩ := work_after progress move
  · exact .inl falls
  · refine .inr ⟨same, .inr ⟨?_, ?_, same_word.symm.trans⟩⟩
    · rwa [Stage.work_of_errand inside]
    · rw [Stage.distance_of_out out, idle]
      exact (Stage.distance_of_inside inside false).2.1

lemma Advances.passes {barrier : Barrier} {c : Bool} {n : Nat} (inside : stage.errand? = some e)
    (far : 6 ≤ stage.distance g.word.isRequested) :
    Advances rank g ⟨own, stage⟩ { g with barrier } ⟨own, .passed c n e⟩ := by
  have work := (Stage.work_of_errand inside).ge
  cases c with
  | true => exact .nears rfl work (Nat.lt_of_lt_of_le (by decide : 5 < 6) far) id
  | false => exact .nears rfl work (Nat.lt_of_lt_of_le (by decide : 3 < 6) far) id

variable [Payload α]

/-- A transition is a poll, or there is less to do after it. Threads leave a cycle when it is not
requested any more. -/
lemma Transition.polls_or_advances (transition : Transition p g t g' t')
    (progress : p.Progresses held rank) (follows : t.Follows p)
    (apart : ∀ e, t.stage = .departing e → g.word.isRequested = false) :
    (t.Polls p rank g.word g.shared t' ∧ ∃ shared, g' = { g with shared }) ∨
      Advances rank g t g' t' := by
  cases transition with
  | register move => exact .inr (.inl (progress.register _ _ move))
  | refuse move => exact .inr (.inl (progress.allocate _ _ _ move _))
  | allocate => exact .inr (.works rfl (by decide : 4 < 5))
  | allocateLater => exact .inr (.works rfl (by decide : 4 < 5))
  | demand => exact .inr (.works rfl (by decide : 2 + 1 < 5))
  | poll move idle =>
    rcases (progress.safepoint _ _ move).lt_or_eq with less | same
    · exact .inr (.inl less)
    · exact .inl ⟨⟨rfl, rfl, same, .inl ⟨move, idle⟩⟩, _, rfl⟩
  | stop _ requested => exact .inr (.joins requested rfl le_rfl)
  | @update own act move =>
    rcases progress.update own act move g.shared with less | ⟨same, next, safepoint⟩
    · exact .inr (.inl less)
    · exact .inl ⟨⟨rfl, rfl, same, .inr ⟨act, next, move, rfl, safepoint⟩⟩, _, rfl⟩
  | resign => exact .inr (.works rfl (by decide : 4 < 5))
  | fault => exact .inr (.inl (progress.allocate _ _ _ (follows _ rfl) _))
  | prewarm => exact .inr (.works rfl (by decide : 1 < 4))
  | suffice => exact .inr (.works rfl (by decide : 1 < 4))
  | runShort => exact .inr (.works rfl (by decide : 2 + 1 < 4))
  | forgo => exact .inr (Errand.advances_forgone progress (follows _ rfl))
  | elect => exact .inr (.works rfl (Nat.lt_succ_self _))
  | prepare => exact .inr (.nears rfl le_rfl (by decide : 8 < 9) id)
  | skip ended =>
    have idle : g.word.isRequested = false := GcWord.activeParticipants?_eq_none_iff.mp ended
    exact .inr (Errand.advances_after progress rfl (follows _ rfl) idle rfl)
  | submit => exact .inr (.nears rfl le_rfl (by decide : 7 < 8) id)
  | arriveLast => exact .inr (.passes rfl (by decide : 6 ≤ 7))
  | arrive => exact .inr (.nears rfl le_rfl (by decide : 6 < 7) id)
  | pass => exact .inr (.passes rfl le_rfl)
  | collect => exact .inr (.nears rfl le_rfl (by decide : 4 < 5) id)
  | finish => exact .inr (.nears rfl le_rfl (by decide : 3 < 4) GcWord.isRequested_of_finish)
  | leaveLast => exact .inr (.nears rfl le_rfl (by decide : 1 < 3) id)
  | leave => exact .inr (.nears rfl le_rfl (by decide : 2 < 3) id)
  | passOut => exact .inr (.nears rfl le_rfl (by decide : 1 < 2) id)
  | depart ok =>
    have same_word := (GcWord.depart_spec ok).1
    exact .inr (Errand.advances_after progress rfl (follows _ rfl) (apart _ rfl) same_word)
  | grow => exact .inr (.works rfl (by decide : 1 < 2))
  | claim => exact .inr (.inl (progress.allocate _ _ _ (follows _ rfl) _))
  | deregister => exact .inr (.inl (progress.deregister _ _ (follows _ rfl)))
  | stay requested => exact .inr (.joins requested rfl le_rfl)

end Transitions

namespace MutatorSystem

variable {s : MutatorSystem α ω σ} {i : Nat} {t : MutatorThread α σ}

/-- What comes of the turn of a thread. -/
inductive Turn (p : Program α ω σ) (rank : σ → W) (s : MutatorSystem α ω σ) (i : Nat)
    (t : MutatorThread α σ) : MutatorSystem α ω σ → Prop where
  | stays (stays : t.Stays p s.word s.barrier.sense) : Turn p rank s i t s
  | polls {shared : Shared α ω} {t' : MutatorThread α σ} (polls : t.Polls p rank s.word s.shared t') :
      Turn p rank s i t (s.changed i { s.common with shared } t')
  | advances {g : Common α ω} {t' : MutatorThread α σ} (advances : Advances rank s.common t g t') :
      Turn p rank s i t (s.changed i g t')

/-- What comes of a turn. Threads leave a cycle when it is not requested any more. -/
lemma turn_step [Payload α] (progress : p.Progresses held rank) (here : s.threads[i]? = some t)
    (follows : t.Follows p)
    (apart : ∀ e, t.stage = .departing e → s.word.isRequested = false) :
    s.Turn p rank i t (s.step p i) := by
  rcases takes_step (p := p) here with ⟨stays, same⟩ | ⟨g, t', transition, eq⟩
  · rw [same]
    exact .stays stays
  · rw [eq]
    rcases transition.polls_or_advances progress follows apart with ⟨polls, shared, rfl⟩ | advances
    · exact .polls polls
    · exact .advances advances

end MutatorSystem

end CellMachine
