import CellMachine.Proofs.Threads.StopTheWorld

/-!
# No thread loses a cell

A cell is freed only by a cycle, and no cycle frees what the threads still need: what they
report as roots, what an object that is being allocated refers to, and what global roots
lead to. While a cycle collects every registered thread is in the rendezvous, so its roots
and its pending object are among the submitted words.
-/

namespace CellMachine

variable {α ω σ : Type} [Payload α] {p : Program α ω σ} {held : σ → Nat} {phase : Phase}
  {s : MutatorSystem α ω σ} {i : Nat} {g : Common α ω} {t t' : MutatorThread α σ}

omit [Payload α] in
/-- The allocation for which a thread is in the rendezvous: its object, and what the thread
does with the address. -/
def Errand.allocation? : Errand α σ → Option (α × (Except HeapFault Address → σ))
  | beforeAllocation payload next => some (payload, next)
  | shortage _ payload next => some (payload, next)
  | _ => none

omit [Payload α] in
/-- The allocation that a thread is in the middle of. -/
def Stage.allocation? : Stage α σ → Option (α × (Except HeapFault Address → σ))
  | pressing payload next | growing _ payload next | claiming _ payload next => some (payload, next)
  | electing e | joining _ e | submitting _ _ e | arriving _ _ e | waiting _ _ _ e
  | collecting _ e | finishing _ e | leaving _ e | waitingToLeave _ e | departing e => e.allocation?
  | _ => none

lemma Errand.mem_rootSet_of_allocation? {own : σ} {e : Errand α σ} {payload : α}
    {next : Except HeapFault Address → σ} {w : Address}
    (pending : e.allocation? = some (payload, next))
    (child : Value.ref w ∈ Payload.children payload) : w ∈ e.rootSet p own := by
  cases e with
  | beforeAllocation payload' next' =>
    obtain ⟨rfl, rfl⟩ := Prod.mk.inj (Option.some.inj pending)
    exact List.mem_append_right _ (mem_references.mpr child)
  | shortage c payload' next' =>
    obtain ⟨rfl, rfl⟩ := Prod.mk.inj (Option.some.inj pending)
    exact List.mem_append_right _ (mem_references.mpr child)
  | safepoint => cases pending
  | collection => cases pending
  | departure => cases pending

omit [Payload α] in
lemma Stage.allocation?_of_errand {stage : Stage α σ} {e : Errand α σ}
    (inside : stage.errand? = some e) : stage.allocation? = e.allocation? := by
  cases stage <;> first | (cases inside; rfl) | cases inside

/-- Only a thread with a registration allocates. -/
lemma MutatorThread.Sane.registered_of_allocation? {h : Heap α}
    {call : α × (Except HeapFault Address → σ)} (sane : t.Sane held h)
    (pending : t.stage.allocation? = some call) : 0 < held t.own := by
  obtain ⟨own, stage⟩ := t
  cases stage with
  | between => cases pending
  | deregistering => cases pending
  | _ => exact sane.1

namespace MutatorSystem

/-- The words that a cycle must not lose: roots that registered threads report, values of
objects that are being allocated, and global roots. -/
def guarded (p : Program α ω σ) (held : σ → Nat) (s : MutatorSystem α ω σ) : Set Address :=
  { w | (∃ (i : Nat) (t : MutatorThread α σ) (e : Errand α σ), s.threads[i]? = some t ∧
        0 < held t.own ∧ t.stage.errand? = some e ∧ w ∈ e.rootSet p t.own) ∨
      (∃ (i : Nat) (t : MutatorThread α σ) (payload : α) (next : Except HeapFault Address → σ),
        s.threads[i]? = some t ∧ t.stage.allocation? = some (payload, next) ∧
        Value.ref w ∈ Payload.children payload) ∨
      Value.ref w ∈ s.shared.heap.globalRoots }

end MutatorSystem

namespace Rendezvous

open MutatorSystem

/-- All guarded words are among those the cycle starts from. -/
lemma guarded_subset (inv : Rendezvous p held .assembled s)
    (unscanned : s.count Stage.isScanner ≠ 0) :
    s.guarded p held ⊆ s.shared.heap.cycleRoots s.inputs.reverse := by
  have submitted : ∀ (j : Nat) (u : MutatorThread α σ) (e : Errand α σ) (w : Address),
      s.threads[j]? = some u → u.stage.errand? = some e → w ∈ e.rootSet p u.own →
      w ∈ s.shared.heap.cycleRoots s.inputs.reverse := by
    intro j u e w hu inside mem
    have call : s.InCall j u.own e := ⟨u.stage, hu, inside⟩
    have sent := (inv.inputs_perm unscanned).mem_iff.mpr (mem_rootSets call)
    exact .inl ⟨_, List.mem_reverse.mpr sent, mem⟩
  rintro w (⟨j, u, e, hu, _, inside, mem⟩ | ⟨j, u, payload, next, hu, pending, child⟩ | global)
  · exact submitted j u e w hu inside mem
  · have registered := (inv.sane j u hu).registered_of_allocation? pending
    obtain ⟨e, inside⟩ := (inv.registered_iff hu).mp registered
    rw [Stage.allocation?_of_errand inside] at pending
    exact submitted j u e w hu inside (Errand.mem_rootSet_of_allocation? pending child)
  · exact .inr global

/-- A change that is no collection frees no cell. -/
lemma isLive_of_change (inv : Rendezvous p held phase s) (here : s.threads[i]? = some t)
    (change : Change p held s.common t g t') (other : ¬ s.Collects i) {a : Address}
    (live : s.shared.heap.isLive a) : g.shared.heap.isLive a := by
  cases change with
  | outside _ _ _ mutations => exact (inv.heap.sound.isLive_mutations mutations live).2
  | collect => exact absurd ⟨_, _, _, here⟩ other
  | _ => exact live

end Rendezvous

namespace MutatorSystem

/-- No cycle of a run frees a cell that is still needed, and nothing else frees any. -/
structure CollectsSafely (p : Program α ω σ) (held : σ → Nat) (schedule : Nat → Nat)
    (s : MutatorSystem α ω σ) : Prop where
  /-- A step that is no collection frees no cell. -/
  kept : ∀ n, ¬ (s.run p schedule n).Collects (schedule n) → ∀ a,
    (s.run p schedule n).shared.heap.isLive a → (s.run p schedule (n + 1)).shared.heap.isLive a
  /-- A collection is one cycle with the submitted root sets. -/
  cycle : ∀ n, (s.run p schedule n).Collects (schedule n) →
    (s.run p schedule (n + 1)).shared.heap =
      (s.run p schedule n).shared.heap.runCycle (s.run p schedule n).inputs.reverse
  /-- Every registered thread reports its roots for it, -/
  reported : ∀ n, (s.run p schedule n).Collects (schedule n) → ∀ (j : Nat) u,
    (s.run p schedule n).threads[j]? = some u → 0 < held u.own →
      ∃ e, u.stage.errand? = some e ∧ e.rootSet p u.own ∈ (s.run p schedule n).inputs
  /-- and what the guarded words lead to stays, in its slot and with its payload. -/
  survives : ∀ n, (s.run p schedule n).Collects (schedule n) → ∀ a,
    (s.run p schedule n).shared.heap.Reaches ((s.run p schedule n).guarded p held) a →
      (s.run p schedule (n + 1)).shared.heap.isLive a ∧
      (s.run p schedule (n + 1)).shared.heap.spot? a = (s.run p schedule n).shared.heap.spot? a ∧
      (s.run p schedule (n + 1)).shared.heap.payload? a =
        (s.run p schedule n).shared.heap.payload? a

lemma Starts.kept (starts : s.Starts p held) {schedule : Nat → Nat} {n : Nat}
    (other : ¬ (s.run p schedule n).Collects (schedule n)) {a : Address}
    (live : (s.run p schedule n).shared.heap.isLive a) :
    (s.run p schedule (n + 1)).shared.heap.isLive a := by
  obtain ⟨phase, inv⟩ := starts.rendezvous schedule n
  rcases inv.step_cases starts.lawful (schedule n) with same | ⟨t, g, t', here, change, _, eq⟩
  · rw [run, same]
    exact live
  · rw [run, eq]
    exact inv.isLive_of_change here change other live

/-- The collecting thread starts from all guarded words. -/
lemma Starts.guarded_subset (starts : s.Starts p held) {schedule : Nat → Nat} {n : Nat}
    (collects : (s.run p schedule n).Collects (schedule n)) :
    (s.run p schedule n).guarded p held ⊆
      (s.run p schedule n).shared.heap.cycleRoots (s.run p schedule n).inputs.reverse := by
  obtain ⟨_, _, _, here⟩ := collects
  obtain ⟨phase, inv⟩ := starts.rendezvous schedule n
  obtain rfl := inv.assembled_of_collecting here
  exact inv.guarded_subset (Rendezvous.unscanned_of_collecting here)

lemma run_collects {schedule : Nat → Nat} {n : Nat}
    (collects : (s.run p schedule n).Collects (schedule n)) :
    (s.run p schedule (n + 1)).shared.heap =
      (s.run p schedule n).shared.heap.runCycle (s.run p schedule n).inputs.reverse := by
  obtain ⟨_, _, _, here⟩ := collects
  exact step_collecting here

/-- However the steps of the threads are interleaved, no cell is freed that one of them
still needs. -/
theorem collectsSafely (starts : s.Starts p held) (schedule : Nat → Nat) :
    s.CollectsSafely p held schedule := by
  constructor
  · exact fun n other a live => starts.kept other live
  · exact fun n collects => run_collects collects
  · rintro n ⟨_, _, _, here⟩ j u hu registered
    obtain ⟨phase, inv⟩ := starts.rendezvous schedule n
    obtain rfl := inv.assembled_of_collecting here
    obtain ⟨e, inside⟩ := (inv.registered_iff hu).mp registered
    have unscanned := Rendezvous.unscanned_of_collecting here
    have sent := Rendezvous.mem_rootSets (p := p) ⟨u.stage, hu, inside⟩
    exact ⟨e, inside, (inv.inputs_perm unscanned).mem_iff.mpr sent⟩
  · intro n collects a reached
    have rooted := reached.mono (starts.guarded_subset collects)
    have sound := (starts.rendezvous schedule n).choose_spec.heap.sound
    rw [run_collects collects]
    exact ⟨sound.isLive_runCycle_iff.mpr rooted, sound.spot?_runCycle_of_reaches rooted,
      sound.payload?_runCycle_of_reaches rooted⟩

set_option maxRecDepth 10000 in
/-- The cell that both threads report survives their cycle. -/
theorem collectsSafely_keepers : keepers.Starts (keeper loopCell) keeperHeld ∧
    keepers.CollectsSafely (keeper loopCell) keeperHeld meeting ∧
    (keepers.run (keeper loopCell) meeting 13).Collects (meeting 13) ∧
    (keepers.run (keeper loopCell) meeting (13 + 1)).shared.heap.isLive loopCell := by
  have safe := collectsSafely starts_keepers meeting
  have collects : (keepers.run (keeper loopCell) meeting 13).Collects (meeting 13) :=
    ⟨_, _, _, rfl⟩
  have heap : (keepers.run (keeper loopCell) meeting 13).shared.heap = Heap.selfLoop := rfl
  have found : Heap.selfLoop.cellFor? loopCell = some loopCell := by decide +kernel
  have reported : loopCell ∈ (keepers.run (keeper loopCell) meeting 13).guarded (keeper loopCell)
      keeperHeld :=
    .inl ⟨0, _, _, rfl, by decide, rfl, List.mem_singleton_self _⟩
  have reached := Heap.Reaches.root reported (heap ▸ found)
  exact ⟨starts_keepers, safe, collects, (safe.survives 13 collects _ reached).1⟩

end MutatorSystem

end CellMachine
