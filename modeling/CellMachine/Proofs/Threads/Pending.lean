import CellMachine.Proofs.Heap.Allocation
import CellMachine.Proofs.Threads.Safety

/-!
# Objects that are being allocated

From the first step of an allocation to its last, whichever cycles the thread takes part in
meanwhile, no cell that the object refers to is freed. The object is among the guarded
words all the time, and at the end it lies in the slot whose address is returned.
-/

namespace CellMachine

variable {α ω σ : Type} [Payload α] {p : Program α ω σ} {held : σ → Nat}
  {s : MutatorSystem α ω σ} {i : Nat} {own : σ} {stage : Stage α σ} {payload : α}
  {next : Except HeapFault Address → σ}

/-- What an allocation returns: the address of a cell with the payload, or why none can
have it. -/
def Heap.Answers (h : Heap α) (payload : α) : Except HeapFault Address → Prop
  | .ok a => h.payload? a = some payload
  | .error f => h.classOf payload = .error f

/-- The thread goes on with the allocation, or it has just returned from it. -/
def Common.Carries (g : Common α ω) (t : MutatorThread α σ) (own : σ) (payload : α)
    (next : Except HeapFault Address → σ) : Prop :=
  (t.own = own ∧ t.stage.allocation? = some (payload, next)) ∨
    ∃ result, t = ⟨next result, .between⟩ ∧ g.shared.heap.Answers payload result

namespace Errand

variable {g : Common α ω} {e : Errand α σ}

lemma carries_after (pending : e.allocation? = some (payload, next)) :
    g.Carries (e.after own) own payload next := by
  cases e with
  | beforeAllocation => exact .inl ⟨rfl, pending⟩
  | shortage => exact .inl ⟨rfl, pending⟩
  | safepoint => cases pending
  | collection => cases pending
  | departure => cases pending

lemma carries_forgone (pending : e.allocation? = some (payload, next)) :
    g.Carries (e.forgone own) own payload next := by
  cases e with
  | collection => cases pending
  | _ => exact carries_after pending

end Errand

namespace Transition

variable {g g' : Common α ω} {t t' : MutatorThread α σ}

lemma carries_allocate (transition : Transition p g ⟨own, .between⟩ g' t')
    (move : p.move own = .allocate payload next) : g'.Carries t' own payload next := by
  -- only three of the first steps belong to an allocation
  cases transition with
  | refuse move' fault =>
    obtain ⟨rfl, rfl⟩ := Move.allocate.inj (move'.symm.trans move)
    exact .inr ⟨_, rfl, fault⟩
  | allocate move' =>
    obtain ⟨rfl, rfl⟩ := Move.allocate.inj (move'.symm.trans move)
    exact .inl ⟨rfl, rfl⟩
  | allocateLater move' =>
    obtain ⟨rfl, rfl⟩ := Move.allocate.inj (move'.symm.trans move)
    exact .inl ⟨rfl, rfl⟩
  | register move' => cases move'.symm.trans move
  | demand move' => cases move'.symm.trans move
  | poll move' => cases move'.symm.trans move
  | stop move' => cases move'.symm.trans move
  | update move' => cases move'.symm.trans move
  | resign move' => cases move'.symm.trans move

/-- A thread in the middle of an allocation goes on with it or ends it. -/
lemma carries (transition : Transition p g t g' t') (sound : g.shared.heap.Sound)
    (sane : t.Sane held g.shared.heap) (pending : t.stage.allocation? = some (payload, next)) :
    g'.Carries t' t.own payload next := by
  cases transition with
  | fault fault =>
    obtain ⟨rfl, rfl⟩ := Prod.mk.inj (Option.some.inj pending)
    exact .inr ⟨_, rfl, fault⟩
  | forgo => exact Errand.carries_forgone pending
  | skip => exact Errand.carries_after pending
  | @arriveLast own c => cases c <;> exact .inl ⟨rfl, pending⟩
  | @pass own found c => cases c <;> exact .inl ⟨rfl, pending⟩
  | depart => exact Errand.carries_after pending
  | @claim own c payload' next' =>
    obtain ⟨rfl, rfl⟩ := Prod.mk.inj (Option.some.inj pending)
    have hc := Heap.classOf_lt sound sane.2.1
    obtain ⟨a, ok, _, placed, _⟩ := sound.allocateIn_live hc payload'
    have answers : (g.shared.heap.allocateIn c payload').2.Answers payload'
        (g.shared.heap.allocateIn c payload').1 := by
      rw [ok]
      exact placed
    exact .inr ⟨_, rfl, answers⟩
  | _ => first | exact .inl ⟨rfl, pending⟩ | cases pending

end Transition

namespace MutatorSystem

/-- The thread is in the middle of an allocation, or it has just returned from it. -/
def Allocates (s : MutatorSystem α ω σ) (i : Nat) (own : σ) (payload : α)
    (next : Except HeapFault Address → σ) : Prop :=
  (∃ stage, s.threads[i]? = some ⟨own, stage⟩ ∧ stage.allocation? = some (payload, next)) ∨
    ∃ result, s.threads[i]? = some ⟨next result, .between⟩ ∧ s.shared.heap.Answers payload result

lemma allocates_changed {g : Common α ω} {t t' : MutatorThread α σ}
    (here : s.threads[i]? = some t) (carries : g.Carries t' own payload next) :
    (s.changed i g t').Allocates i own payload next := by
  have moved : (s.changed i g t').threads[i]? = some t' := by rw [getElem?_changed here, if_pos rfl]
  rcases carries with ⟨rfl, pending⟩ | ⟨result, rfl, answers⟩
  · exact .inl ⟨t'.stage, moved, pending⟩
  · exact .inr ⟨result, moved, answers⟩

/-- The first step of an allocation. -/
lemma allocates_begin (here : s.threads[i]? = some ⟨own, .between⟩)
    (move : p.move own = .allocate payload next) :
    (s.step p i).Allocates i own payload next := by
  rcases takes_step (p := p) here with ⟨⟨_, halt⟩ | ⟨_, _, register, _⟩, _⟩ | ⟨g, t', transition, eq⟩
  · cases halt.symm.trans move
  · cases register.symm.trans move
  · rw [eq]
    exact allocates_changed here (transition.carries_allocate move)

/-- A step of the thread goes on with the allocation or ends it. -/
lemma allocates_step (sound : s.shared.heap.Sound) (here : s.threads[i]? = some ⟨own, stage⟩)
    (sane : MutatorThread.Sane held s.shared.heap ⟨own, stage⟩)
    (pending : stage.allocation? = some (payload, next)) :
    (s.step p i).Allocates i own payload next := by
  rcases takes_step (p := p) here with ⟨_, same⟩ | ⟨g, t', transition, eq⟩
  · rw [same]
    exact .inl ⟨stage, here, pending⟩
  · rw [eq]
    exact allocates_changed here (transition.carries sound sane pending)

/-- An allocation that begins at time `n` frees nothing that its object refers to until it
returns, and returns the object's address. -/
def KeepsPending (p : Program α ω σ) (schedule : Nat → Nat) (s : MutatorSystem α ω σ) : Prop :=
  ∀ (n : Nat) (own : σ) (payload : α) (next : Except HeapFault Address → σ),
    (s.run p schedule n).threads[schedule n]? = some ⟨own, .between⟩ →
    p.move own = .allocate payload next → ∀ m, n < m →
    (∀ l, n < l → l < m → ∀ t, (s.run p schedule l).threads[schedule n]? = some t →
      t.stage ≠ .between) →
    (s.run p schedule m).Allocates (schedule n) own payload next ∧
      ∀ x, Value.ref x ∈ Payload.children payload → (s.run p schedule n).shared.heap.isLive x →
        (s.run p schedule m).shared.heap.isLive x

/-- A step of any thread keeps what a pending object refers to. -/
lemma Starts.isLive_of_allocation? (starts : s.Starts p held) {schedule : Nat → Nat} {n : Nat}
    (here : (s.run p schedule n).threads[i]? = some ⟨own, stage⟩)
    (pending : stage.allocation? = some (payload, next)) {x : Address}
    (child : Value.ref x ∈ Payload.children payload)
    (live : (s.run p schedule n).shared.heap.isLive x) :
    (s.run p schedule (n + 1)).shared.heap.isLive x := by
  by_cases collects : (s.run p schedule n).Collects (schedule n)
  · have guard : x ∈ (s.run p schedule n).guarded p held :=
      .inr (.inl ⟨i, _, payload, next, here, pending, child⟩)
    have reached := Heap.Reaches.root guard (Heap.cellFor?_of_isLive live)
    have sound := (starts.rendezvous schedule n).choose_spec.heap.sound
    rw [run_collects collects]
    exact sound.isLive_runCycle_iff.mpr (reached.mono (starts.guarded_subset collects))
  · exact starts.kept collects live

lemma Starts.keepsPending (starts : s.Starts p held) (schedule : Nat → Nat) :
    s.KeepsPending p schedule := by
  intro n own payload next here move m later
  induction m, later using Nat.le_induction with
  | base =>
    intro _
    refine ⟨?_, fun x _ live => starts.kept ?_ live⟩
    · rw [run]
      exact allocates_begin here move
    · rintro ⟨_, _, _, other⟩
      rw [here] at other
      cases other
  | succ m before ih =>
    intro unreturned
    obtain ⟨allocates, kept⟩ := ih fun l after earlier => unreturned l after (earlier.trans m.lt_succ_self)
    rcases allocates with ⟨stage, now, pending⟩ | ⟨result, returned, _⟩
    · refine ⟨?_, fun x child live => starts.isLive_of_allocation? now pending child (kept x child live)⟩
      obtain ⟨phase, inv⟩ := starts.rendezvous schedule m
      by_cases turn : schedule m = schedule n
      · rw [run, turn]
        exact allocates_step inv.heap.sound now (inv.sane _ _ now) pending
      · exact .inl ⟨stage, (starts.getElem?_run_succ turn).trans now, pending⟩
    · exact absurd rfl (unreturned m before m.lt_succ_self _ returned)

end MutatorSystem

end CellMachine
