import CellMachine.Proofs.Threads.Safety

/-!
# What the programs see

Most steps of a thread are part of a rendezvous, and no program sees them. To the programs
a step makes room, runs a cycle, is an update of what is shared, or ends a call of the thread
that took it. For this a thread in the middle of a call has to be in the middle of the call
that its program makes.
-/

namespace CellMachine

variable {α ω σ : Type} {p : Program α ω σ}

/-- The call for which a thread is in the rendezvous. -/
def Errand.move : Errand α σ → Move α ω σ
  | safepoint next => .safepoint next
  | beforeAllocation payload next | shortage _ payload next => .allocate payload next
  | collection next => .collect next
  | departure next => .deregister next

/-- The call that a thread is in the middle of. -/
def Stage.move? : Stage α σ → Option (Move α ω σ)
  | between => none
  | pressing payload next | growing _ payload next | claiming _ payload next =>
    some (.allocate payload next)
  | electing e | joining _ e | submitting _ _ e | arriving _ _ e | waiting _ _ _ e
  | collecting _ e | finishing _ e | leaving _ e | waitingToLeave _ e | departing e => some e.move
  | deregistering next => some (.deregister next)

/-- If the thread is in the middle of a call, then of the one that its program makes. -/
def MutatorThread.Follows (p : Program α ω σ) (t : MutatorThread α σ) : Prop :=
  ∀ move, t.stage.move? = some move → p.move t.own = move

lemma MutatorThread.follows_between (own : σ) : MutatorThread.Follows p ⟨own, .between⟩ := by
  intro move busy
  cases busy

/-- A thread that goes to the middle of the call that its program makes. -/
lemma MutatorThread.follows_of_move {own : σ} {stage : Stage α σ} {move : Move α ω σ}
    (here : p.move own = move) (busy : stage.move? = some move) :
    MutatorThread.Follows p ⟨own, stage⟩ :=
  fun _ other => here.trans (Option.some.inj (busy.symm.trans other))

lemma Stage.move?_of_errand {stage : Stage α σ} {e : Errand α σ} (inside : stage.errand? = some e) :
    stage.move? = some (e.move : Move α ω σ) := by
  cases stage <;> first | (cases inside; rfl) | cases inside

lemma Errand.move_ne_update (e : Errand α σ) (act : Shared α ω → σ × Shared α ω) :
    e.move ≠ .update act := by
  cases e <;> intro same <;> cases same

/-- A thread that is about to do an update is between two calls. -/
lemma MutatorThread.Follows.eq_between {own : σ} {stage : Stage α σ}
    {act : Shared α ω → σ × Shared α ω}
    (follows : MutatorThread.Follows p ⟨own, stage⟩) (move : p.move own = .update act) :
    stage = .between := by
  have other : ∀ m : Move α ω σ, stage.move? = some m → m = .update act :=
    fun m busy => (follows m busy).symm.trans move
  cases stage with
  | between => rfl
  | pressing => cases other _ rfl
  | growing => cases other _ rfl
  | claiming => cases other _ rfl
  | deregistering => cases other _ rfl
  | _ => exact absurd (other _ rfl) (Errand.move_ne_update _ act)

/-- How a thread goes on after a call that shows it nothing of the heap. -/
def Move.Ends : Move α ω σ → σ → Prop
  | register next, own | safepoint next, own | deregister next, own => own = next
  | collect next, own => ∃ ran, own = next ran
  | _, _ => False

variable [Payload α]

/-- What a step that is no collection shows to the programs: what is shared, and the private
state of the thread that took it. -/
inductive Beat (p : Program α ω σ) (shared : Shared α ω) (own : σ) : σ → Shared α ω → Prop where
  | stay : Beat p shared own own shared
  | room {c : Nat} {heap : Heap α}
      (made : heap = shared.heap.prewarm c ∨ heap = shared.heap.grow c) :
      Beat p shared own own { shared with heap }
  | update {act : Shared α ω → σ × Shared α ω} (move : p.move own = .update act) :
      Beat p shared own (act shared).1 (act shared).2
  | claim {c : Nat} {payload : α} {next : Except HeapFault Address → σ}
      (move : p.move own = .allocate payload next) (fits : shared.heap.classOf payload = .ok c) :
      Beat p shared own (next (shared.heap.allocateIn c payload).1)
        { shared with heap := (shared.heap.allocateIn c payload).2 }
  | refuse {payload : α} {next : Except HeapFault Address → σ} {f : HeapFault}
      (move : p.move own = .allocate payload next)
      (fault : shared.heap.classOf payload = .error f) :
      Beat p shared own (next (.error f)) shared
  | answer {next : σ} (ends : (p.move own).Ends next) : Beat p shared own next shared

namespace Errand

variable {own : σ} {e : Errand α σ}

omit [Payload α] in
/-- A thread that leaves the rendezvous goes on with its call or has ended it. -/
lemma follows_after (move : p.move own = e.move) : (e.after own).Follows p := by
  cases e with
  | safepoint next => exact MutatorThread.follows_between next
  | collection next => exact MutatorThread.follows_between (next true)
  | beforeAllocation => exact MutatorThread.follows_of_move move rfl
  | shortage => exact MutatorThread.follows_of_move move rfl
  | departure => exact MutatorThread.follows_of_move move rfl

omit [Payload α] in
lemma follows_forgone (move : p.move own = e.move) : (e.forgone own).Follows p := by
  cases e with
  | collection next => exact MutatorThread.follows_between (next false)
  | _ => exact follows_after move

lemma beat_after {shared : Shared α ω} (move : p.move own = e.move) :
    Beat p shared own (e.after own).own shared := by
  cases e with
  | safepoint next => exact .answer (by rw [move]; rfl)
  | collection next => exact .answer (by rw [move]; exact ⟨true, rfl⟩)
  | _ => exact .stay

lemma beat_forgone {shared : Shared α ω} (move : p.move own = e.move) :
    Beat p shared own (e.forgone own).own shared := by
  cases e with
  | collection next => exact .answer (by rw [move]; exact ⟨false, rfl⟩)
  | safepoint next => exact .answer (by rw [move]; rfl)
  | _ => exact .stay

end Errand

namespace Transition

variable {held : σ → Nat} {g g' : Common α ω} {t t' : MutatorThread α σ}

lemma follows (transition : Transition p g t g' t') (follows : t.Follows p) : t'.Follows p := by
  cases transition with
  | register => exact MutatorThread.follows_between _
  | refuse => exact MutatorThread.follows_between _
  | allocate move => exact MutatorThread.follows_of_move move rfl
  | allocateLater move => exact MutatorThread.follows_of_move move rfl
  | demand move => exact MutatorThread.follows_of_move move rfl
  | poll => exact MutatorThread.follows_between _
  | stop move => exact MutatorThread.follows_of_move move rfl
  | update => exact MutatorThread.follows_between _
  | resign move => exact MutatorThread.follows_of_move move rfl
  | fault => exact MutatorThread.follows_between _
  | forgo => exact Errand.follows_forgone (follows _ rfl)
  | skip => exact Errand.follows_after (follows _ rfl)
  | @arriveLast own c => cases c <;> exact follows
  | @pass own found c => cases c <;> exact follows
  | depart => exact Errand.follows_after (follows _ rfl)
  | claim => exact MutatorThread.follows_between _
  | deregister => exact MutatorThread.follows_between _
  | _ => exact follows

/-- A transition that is no collection shows the programs a beat. -/
lemma beat (transition : Transition p g t g' t') (sane : t.Sane held g.shared.heap)
    (follows : t.Follows p) (other : ∀ n e, t.stage ≠ .collecting n e) :
    Beat p g.shared t.own t'.own g'.shared := by
  cases transition with
  | register move => exact .answer (by rw [move]; rfl)
  | refuse move fault => exact .refuse move fault
  | poll move => exact .answer (by rw [move]; rfl)
  | update move => exact .update move
  | fault fault => exact .refuse (follows _ rfl) fault
  | prewarm => exact .room (.inl rfl)
  | forgo => exact Errand.beat_forgone (follows _ rfl)
  | skip => exact Errand.beat_after (follows _ rfl)
  | collect => exact absurd rfl (other _ _)
  | depart => exact Errand.beat_after (follows _ rfl)
  | grow => exact .room (.inr rfl)
  | claim => exact .claim (follows _ rfl) sane.2.1
  | deregister => exact .answer (by rw [follows _ rfl]; rfl)
  | _ => exact .stay

end Transition

namespace MutatorSystem

variable {held : σ → Nat} {s : MutatorSystem α ω σ} {i : Nat} {own : σ} {stage : Stage α σ}

/-- The step leaves the system alone, or the thread that took it goes on and the programs see
a beat. -/
def Shows (p : Program α ω σ) (s : MutatorSystem α ω σ) (i : Nat) (own : σ)
    (s' : MutatorSystem α ω σ) : Prop :=
  s' = s ∨ ∃ g t', t'.Follows p ∧ Beat p s.shared own t'.own g.shared ∧ s' = s.changed i g t'

/-- What the programs see of a step. -/
lemma shows_step (here : s.threads[i]? = some ⟨own, stage⟩)
    (sane : MutatorThread.Sane held s.shared.heap ⟨own, stage⟩)
    (follows : MutatorThread.Follows p ⟨own, stage⟩) (other : ¬ s.Collects i) :
    s.Shows p i own (s.step p i) := by
  rcases takes_step (p := p) here with ⟨_, same⟩ | ⟨g, t', transition, eq⟩
  · exact .inl same
  · have elsewhere : ∀ n e, stage ≠ .collecting n e := by
      rintro n e rfl
      exact other ⟨own, n, e, here⟩
    exact .inr ⟨g, t', transition.follows follows, transition.beat sane follows elsewhere, eq⟩

variable {schedule : Nat → Nat}

/-- An update is one step. -/
lemma step_of_update {act : Shared α ω → σ × Shared α ω}
    (here : s.threads[i]? = some ⟨own, .between⟩) (move : p.move own = .update act) :
    s.step p i =
      s.changed i { s.common with shared := (act s.shared).2 } ⟨(act s.shared).1, .between⟩ := by
  have attempted : s.attempt p i =
      .ok ({ s with shared := (act s.shared).2 }.settle i (act s.shared).1) := by
    rw [attempt, here]
    dsimp only
    rw [begin, move]
  rw [step_of_attempt attempted]
  exact settle_eq _ i _

omit [Payload α] in
lemma isHalted_iff {t : MutatorThread α σ} :
    isHalted p t = true ↔ t.stage = .between ∧ p.move t.own = .halt := by
  constructor
  · intro halted
    rw [isHalted] at halted
    split at halted
    · rename_i between halt
      exact ⟨between, halt⟩
    · cases halted
  · rintro ⟨between, halt⟩
    rw [isHalted, between, halt]

omit [Payload α] in
lemma finished_iff : s.finished p = true ↔ ∀ (j : Nat) t, s.threads[j]? = some t →
    t.stage = .between ∧ p.move t.own = .halt := by
  rw [finished, Array.all_eq_true_iff_forall_mem]
  constructor
  · exact fun halted j t there => isHalted_iff.mp (halted t (Array.mem_of_getElem? there))
  · intro halted t mem
    obtain ⟨j, there⟩ := Array.mem_iff_getElem?.mp mem
    exact isHalted_iff.mpr (halted j t there)

/-- A thread that has come to its end takes no step. -/
lemma step_of_halt {t : MutatorThread α σ} (here : s.threads[i]? = some t)
    (between : t.stage = .between) (halt : p.move t.own = .halt) : s.step p i = s := by
  apply step_of_attempt
  obtain ⟨own, stage⟩ := t
  obtain rfl : stage = .between := between
  rw [attempt, here]
  dsimp only
  rw [begin, halt]

/-- When all threads have come to their end, nothing happens any more. -/
lemma run_of_finished {n : Nat} (finished : (s.run p schedule n).finished p = true) (k : Nat) :
    s.run p schedule (n + k) = s.run p schedule n := by
  induction k with
  | zero => rfl
  | succ k ih =>
    rw [← Nat.add_assoc, run, ih]
    cases here : (s.run p schedule n).threads[schedule (n + k)]? with
    | none => exact step_of_none here
    | some t =>
      obtain ⟨between, halt⟩ := finished_iff.mp finished _ t here
      exact step_of_halt here between halt

/-- A run is its first step and a run from there. -/
lemma run_succ_eq (n : Nat) : s.run p schedule (n + 1) =
    (s.step p (schedule 0)).run p (fun k => schedule (k + 1)) n := by
  induction n with
  | zero => rfl
  | succ n ih => exact congrArg (step p (schedule (n + 1))) ih

/-- A collection shows the programs one cycle, and nothing else. -/
lemma step_of_collects (collects : s.Collects i) :
    ∃ t g t', s.threads[i]? = some t ∧ t'.own = t.own ∧ (t.Follows p → t'.Follows p) ∧
      g.shared = { s.shared with heap := s.shared.heap.runCycle s.inputs.reverse } ∧
      s.step p i = s.changed i g t' := by
  obtain ⟨own, n, e, here⟩ := collects
  let collected := { s with inputs := [] }.modifyHeap fun h => h.runCycle s.inputs.reverse
  refine ⟨_, collected.common, ⟨own, .finishing n e⟩, here, rfl, fun follows => follows, rfl, ?_⟩
  have attempted : s.attempt p i = .ok (collected.setStage i (.finishing n e)) := by
    rw [attempt, here]
  rw [step_of_attempt attempted]
  exact setStage_eq (s := collected) here _

lemma Starts.follows (starts : s.Starts p held) (schedule : Nat → Nat) (n : Nat) :
    ∀ (j : Nat) t, (s.run p schedule n).threads[j]? = some t → t.Follows p := by
  induction n with
  | zero =>
    intro j t here
    obtain ⟨h, world, threads, _, _, rfl⟩ := starts.start
    rw [run, Rendezvous.getElem?_start] at here
    obtain ⟨own, _, rfl⟩ := Option.map_eq_some_iff.mp here
    exact MutatorThread.follows_between own
  | succ n ih =>
    intro j t there
    rw [run] at there
    by_cases collects : (s.run p schedule n).Collects (schedule n)
    · obtain ⟨u, g, u', here, _, follows, _, eq⟩ := step_of_collects (p := p) collects
      rw [eq] at there
      exact forall_changed here (follows (ih _ u here)) ih j t there
    · obtain ⟨phase, inv⟩ := starts.rendezvous schedule n
      cases here : (s.run p schedule n).threads[schedule n]? with
      | none =>
        rw [step_of_none here] at there
        exact ih j t there
      | some u =>
        rcases shows_step here (inv.sane _ u here) (ih _ u here) collects with same |
          ⟨g, u', follows, _, eq⟩
        · rw [same] at there
          exact ih j t there
        · rw [eq] at there
          exact forall_changed here follows ih j t there

/-- A step of a run that is no collection leaves the system alone, or the programs see a beat. -/
lemma Starts.beats (starts : s.Starts p held) {n : Nat}
    (other : ¬ (s.run p schedule n).Collects (schedule n)) :
    s.run p schedule (n + 1) = s.run p schedule n ∨
      ∃ t g t', (s.run p schedule n).threads[schedule n]? = some t ∧
        Beat p (s.run p schedule n).shared t.own t'.own g.shared ∧
        s.run p schedule (n + 1) = (s.run p schedule n).changed (schedule n) g t' := by
  obtain ⟨phase, inv⟩ := starts.rendezvous schedule n
  rw [run]
  cases here : (s.run p schedule n).threads[schedule n]? with
  | none =>
    left
    exact step_of_none here
  | some t =>
    have follows := starts.follows schedule n _ t here
    rcases shows_step here (inv.sane _ t here) follows other with same | ⟨g, t', _, beat, eq⟩
    · exact .inl same
    · exact .inr ⟨t, g, t', rfl, beat, eq⟩

end MutatorSystem

end CellMachine
