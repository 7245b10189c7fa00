import CellMachine.Proofs.Threads.Rendezvous

/-!
# Every step keeps the rendezvous in order

Most changes leave the phase as it is: it is enough to balance the books for the moving
thread. Three changes start a new phase: the election, the last arrival at the first
barrier and the last arrival at the second.
-/

namespace CellMachine

variable {α ω σ : Type} [Payload α] {p : Program α ω σ} {held : σ → Nat} {phase : Phase}
  {s : MutatorSystem α ω σ} {i : Nat} {g : Common α ω} {t t' : MutatorThread α σ}

namespace Stage

omit [Payload α] in
lemma admits_of_errand?_eq_none {stage : Stage α σ} (out : stage.errand? = none) (phase : Phase)
    (sense : Bool) (n : Nat) : stage.Admits phase sense n := by
  cases phase <;> cases stage <;> first | rfl | cases out

omit [Payload α] in
/-- Outside the rendezvous a thread has no part in the cycle. -/
lemma idle_of_errand?_eq_none {stage : Stage α σ} (out : stage.errand? = none) :
    stage.inRendezvous = false ∧ stage.isCoordinator = false ∧ stage.isScanner = false ∧
      ∀ sense, stage.isParked sense = false := by
  cases stage <;> first | exact ⟨rfl, rfl, rfl, fun _ => rfl⟩ | cases out

omit [Payload α] in
/-- Between cycles the number of participants does not matter. -/
lemma Admits.apart {stage : Stage α σ} {sense : Bool} {n : Nat}
    (place : stage.Admits .apart sense n) (m : Nat) : stage.Admits .apart sense m := by
  cases stage <;> exact place

omit [Payload α] in
/-- Nobody waits between the cycles for the sense that the barrier has. -/
lemma idle_of_admits_apart {stage : Stage α σ} {sense : Bool} {n : Nat}
    (place : stage.Admits .apart sense n) :
    stage.isCoordinator = false ∧ stage.isScanner = false ∧ stage.isParked sense = false := by
  cases stage with
  | waitingToLeave found e =>
    have found_eq : found = !sense := place
    subst found_eq
    exact ⟨rfl, rfl, by cases sense <;> rfl⟩
  | _ => first | exact ⟨rfl, rfl, rfl⟩ | cases place

omit [Payload α] in
lemma passed_cases (c : Bool) (n : Nat) (e : Errand α σ) :
    (passed c n e).errand? = some e ∧ (passed c n e).isCoordinator = c ∧
      (passed c n e).isScanner = c ∧ (passed c n e).hasSubmitted = true ∧
      (∀ sense, (passed c n e).isParked sense = false) ∧
      ∀ sense, (passed c n e).Admits .assembled sense n := by
  cases c <;> exact ⟨rfl, rfl, rfl, rfl, fun _ => rfl, fun _ => rfl⟩

end Stage

lemma submitted_of_errand?_eq_none (out : t.stage.errand? = none) : submitted p t = 0 := by
  rw [submitted, out]

/-- The books of the word and the barrier balance for the moving thread. -/
structure Booked (held : σ → Nat) (c : Common α ω) (t : MutatorThread α σ) (c' : Common α ω)
    (t' : MutatorThread α σ) : Prop where
  registered : c'.word.registered + held t.own = c.word.registered + held t'.own
  coordinators : c'.word.isRequested.toNat + t.stage.isCoordinator.toNat =
    c.word.isRequested.toNat + t'.stage.isCoordinator.toNat
  sense : c'.barrier.sense = c.barrier.sense
  arrived : c'.barrier.arrived + (t.stage.isParked c.barrier.sense).toNat =
    c.barrier.arrived + (t'.stage.isParked c.barrier.sense).toNat

namespace Rendezvous

open MutatorSystem

lemma sane_changed (inv : Rendezvous p held phase s) (here : s.threads[i]? = some t)
    (settings : g.shared.heap.settings = s.shared.heap.settings)
    (sane : t'.Sane held g.shared.heap) (j : Nat) (u : MutatorThread α σ)
    (at_j : (s.changed i g t').threads[j]? = some u) : u.Sane held g.shared.heap :=
  forall_changed here sane (fun k v hv => (inv.sane k v hv).congr settings) j u at_j

/-- A change after which the same threads have submitted, and the same have to scan. -/
lemma inputs_changed (inv : Rendezvous p held phase s) (here : s.threads[i]? = some t)
    (inputs : g.inputs = s.inputs) (scanner : t'.stage.isScanner = t.stage.isScanner)
    (same : submitted p t' = submitted p t) :
    ((s.changed i g t').count Stage.isScanner = 0 → g.inputs = []) ∧
    ((s.changed i g t').count Stage.isScanner ≠ 0 →
      (g.inputs : Multiset RootSet) = (s.changed i g t').total (submitted p)) := by
  have scanners := count_changed Stage.isScanner g t' here
  have sets := total_changed (submitted p) g t' here
  rw [scanner] at scanners
  rw [same] at sets
  have scanners' := Nat.add_right_cancel scanners
  have sets' := add_right_cancel sets
  rw [scanners', sets', inputs]
  exact ⟨inv.scanned, inv.unscanned⟩

/-- The books balance for all threads if they balance for the one that moves. -/
lemma update (inv : Rendezvous p held phase s) (here : s.threads[i]? = some t)
    (booked : Booked held s.common t g t')
    (heap : g.shared.heap.Reachable)
    (settings : g.shared.heap.settings = s.shared.heap.settings)
    (sane : t'.Sane held g.shared.heap)
    (place : t'.stage.Admits phase s.barrier.sense g.word.remaining)
    (apart : phase = .apart → g.word.isRequested = false ∧
      g.word.remaining + t.stage.inRendezvous.toNat =
        s.word.remaining + t'.stage.inRendezvous.toNat)
    (busy : phase ≠ .apart → g.word.remaining = s.word.remaining ∧ held t'.own = held t.own)
    (gathering : phase = .gathering → t'.stage.isScanner = t.stage.isScanner)
    (assembled : phase = .assembled → t'.stage.inRendezvous = t.stage.inRendezvous)
    (inputs : ((s.changed i g t').count Stage.isScanner = 0 → g.inputs = []) ∧
      ((s.changed i g t').count Stage.isScanner ≠ 0 →
        (g.inputs : Multiset RootSet) = (s.changed i g t').total (submitted p))) :
    Rendezvous p held phase (s.changed i g t') := by
  have total_held := total_changed (fun u => held u.own) g t' here
  have old_registered := inv.registered
  have old_coordinators := inv.coordinators
  have old_arrived := inv.arrived
  have old_remaining := inv.remaining
  constructor
  · exact heap
  · exact inv.sane_changed here settings sane
  · have sense : (s.changed i g t').barrier.sense = s.barrier.sense := booked.sense
    rw [sense]
    refine forall_changed here place fun j u hu => ?_
    have old := inv.stages j u hu
    by_cases now : phase = .apart
    · subst now
      exact old.apart _
    · change u.stage.Admits phase s.barrier.sense g.word.remaining
      rw [(busy now).1]
      exact old
  · have own := booked.registered
    change _ = g.word.registered
    change g.word.registered + _ = s.word.registered + _ at own
    omega
  · have all := count_changed Stage.isCoordinator g t' here
    have own := booked.coordinators
    change _ = g.word.isRequested.toNat
    change g.word.isRequested.toNat + _ = s.word.isRequested.toNat + _ at own
    omega
  · have sense : (s.changed i g t').barrier.sense = s.barrier.sense := booked.sense
    rw [sense]
    have all := count_changed (Stage.isParked s.barrier.sense) g t' here
    have own := booked.arrived
    change _ = g.barrier.arrived
    change g.barrier.arrived + (t.stage.isParked s.barrier.sense).toNat =
      s.barrier.arrived + (t'.stage.isParked s.barrier.sense).toNat at own
    omega
  · change g.word.remaining = _
    by_cases now : phase = .apart
    · have all := count_changed Stage.inRendezvous g t' here
      have own := (apart now).2
      rw [if_pos now] at old_remaining ⊢
      omega
    · obtain ⟨same, keeps⟩ := busy now
      rw [if_neg now] at old_remaining ⊢
      rw [keeps] at total_held
      omega
  · exact fun now => (apart now).1
  · intro now
    have all := count_changed Stage.isScanner g t' here
    rw [gathering now, inv.gathering now] at all
    omega
  · intro now
    have different : phase ≠ .apart := by rw [now]; decide
    obtain ⟨positive, each⟩ := inv.assembled now
    obtain ⟨same, keeps⟩ := busy different
    refine ⟨same ▸ positive, forall_changed here ?_ each⟩
    rw [keeps, assembled now]
    exact each i t here
  · exact inputs.1
  · exact inputs.2

lemma requested (inv : Rendezvous p held .gathering s) : s.word.isRequested = true := by
  have scanners := inv.gathering rfl
  have coordinators := inv.coordinators
  have le := s.count_isScanner_le
  cases h : s.word.isRequested with
  | true => rfl
  | false =>
    rw [h, Bool.toNat_false] at coordinators
    omega

/-- A registered thread is out of the rendezvous only between cycles or before it has
joined one. -/
lemma phase_of_outside (inv : Rendezvous p held phase s) (here : s.threads[i]? = some t)
    (out : t.stage.errand? = none) (registered : 0 < held t.own) : phase ≠ .assembled := by
  intro now
  have own := (inv.assembled now).2 i t here
  rw [(Stage.idle_of_errand?_eq_none out).1, Bool.toNat_false] at own
  omega

lemma outside {shared : Shared α ω} (inv : Rendezvous p held phase s)
    (here : s.threads[i]? = some t) (before : t.stage.errand? = none)
    (after : t'.stage.errand? = none) (same : held t'.own = held t.own)
    (mutations : Relation.ReflTransGen Heap.Mutation s.shared.heap shared.heap)
    (sane : t'.Sane held shared.heap) :
    Rendezvous p held phase (s.changed i { s.common with shared } t') := by
  obtain ⟨rendezvous, coordinator, scanner, parked⟩ := Stage.idle_of_errand?_eq_none before
  obtain ⟨rendezvous', coordinator', scanner', parked'⟩ := Stage.idle_of_errand?_eq_none after
  have submitted_same : submitted p t' = submitted p t := by
    rw [submitted_of_errand?_eq_none before, submitted_of_errand?_eq_none after]
  refine inv.update here ?_ (inv.heap.mutations mutations) (Heap.settings_of_mutations mutations)
    sane (Stage.admits_of_errand?_eq_none after _ _ _) ?_ (fun _ => ⟨rfl, same⟩) ?_ ?_
    (inv.inputs_changed here rfl (scanner'.trans scanner.symm) submitted_same)
  · constructor
    · rw [same]
    · rw [coordinator, coordinator']
    · rfl
    · rw [parked, parked']
  · intro now
    rw [rendezvous, rendezvous']
    exact ⟨inv.idle now, rfl⟩
  · exact fun _ => scanner'.trans scanner.symm
  · exact fun _ => rendezvous'.trans rendezvous.symm

/-- Between cycles the number of registrations may change. -/
lemma recount {word : GcWord} (inv : Rendezvous p held .apart s) (here : s.threads[i]? = some t)
    (before : t.stage.errand? = none) (after : t'.stage.errand? = none)
    (requested : word.isRequested = false) (remaining : word.remaining = s.word.remaining)
    (registered : word.registered + held t.own = s.word.registered + held t'.own)
    (sane : t'.Sane held s.shared.heap) :
    Rendezvous p held .apart (s.changed i { s.common with word } t') := by
  obtain ⟨rendezvous, coordinator, scanner, parked⟩ := Stage.idle_of_errand?_eq_none before
  obtain ⟨rendezvous', coordinator', scanner', parked'⟩ := Stage.idle_of_errand?_eq_none after
  have submitted_same : submitted p t' = submitted p t := by
    rw [submitted_of_errand?_eq_none before, submitted_of_errand?_eq_none after]
  refine inv.update here ?_ inv.heap rfl sane (Stage.admits_of_errand?_eq_none after _ _ _) ?_
    (fun ne => absurd rfl ne) nofun nofun
    (inv.inputs_changed here rfl (scanner'.trans scanner.symm) submitted_same)
  · constructor
    · exact registered
    · have old : s.common.word.isRequested = false := inv.idle rfl
      rw [coordinator, coordinator', old]
      exact congrArg (fun b : Bool => b.toNat + 0) requested
    · rfl
    · rw [parked, parked']
  · intro _
    rw [rendezvous, rendezvous']
    exact ⟨requested, congrArg (· + 0) remaining⟩

lemma join {own : σ} {stage : Stage α σ} {e : Errand α σ} (inv : Rendezvous p held phase s)
    (here : s.threads[i]? = some ⟨own, stage⟩) (before : stage.errand? = none)
    (registered : 0 < held own) (requested : s.word.isRequested = true)
    (sane : MutatorThread.Sane held s.shared.heap ⟨own, .joining false e⟩) :
    Rendezvous p held phase (s.changed i s.common ⟨own, .joining false e⟩) := by
  have now : phase = .gathering := by
    cases phase with
    | apart =>
      rw [inv.idle rfl] at requested
      cases requested
    | gathering => rfl
    | assembled => exact absurd rfl (inv.phase_of_outside here before registered)
  subst now
  obtain ⟨_, coordinator, scanner, parked⟩ := Stage.idle_of_errand?_eq_none before
  have submitted_same : submitted p ⟨own, .joining false e⟩ = submitted p ⟨own, stage⟩ :=
    (submitted_of_errand?_eq_none (t := ⟨own, stage⟩) before).symm
  refine inv.update here ?_ inv.heap rfl sane trivial nofun (fun _ => ⟨rfl, rfl⟩)
    (fun _ => scanner.symm) nofun (inv.inputs_changed here rfl scanner.symm submitted_same)
  constructor
  · rfl
  · rw [coordinator]
    rfl
  · rfl
  · rw [parked]
    rfl

/-- A move within the rendezvous that changes neither the word nor the barrier. -/
lemma shift {own : σ} {stage stage' : Stage α σ} {inputs : List RootSet}
    (inv : Rendezvous p held phase s) (here : s.threads[i]? = some ⟨own, stage⟩)
    (sane : MutatorThread.Sane held s.shared.heap ⟨own, stage'⟩)
    (place : stage'.Admits phase s.barrier.sense s.word.remaining)
    (rendezvous : stage'.inRendezvous = stage.inRendezvous)
    (coordinator : stage'.isCoordinator = stage.isCoordinator)
    (scanner : stage'.isScanner = stage.isScanner)
    (parked : stage'.isParked s.barrier.sense = stage.isParked s.barrier.sense)
    (sets : ((s.changed i { s.common with inputs } ⟨own, stage'⟩).count Stage.isScanner = 0 →
        inputs = []) ∧
      ((s.changed i { s.common with inputs } ⟨own, stage'⟩).count Stage.isScanner ≠ 0 →
        (inputs : Multiset RootSet) =
          (s.changed i { s.common with inputs } ⟨own, stage'⟩).total (submitted p))) :
    Rendezvous p held phase (s.changed i { s.common with inputs } ⟨own, stage'⟩) := by
  refine inv.update here ?_ inv.heap rfl sane place ?_ (fun _ => ⟨rfl, rfl⟩) (fun _ => scanner)
    (fun _ => rendezvous) sets
  · constructor
    · rfl
    · rw [coordinator]
    · rfl
    · exact congrArg (fun b : Bool => s.barrier.arrived + b.toNat) parked.symm
  · intro now
    rw [rendezvous]
    exact ⟨inv.idle now, rfl⟩

lemma phase_of_joining {own : σ} {c : Bool} {e : Errand α σ} (inv : Rendezvous p held phase s)
    (here : s.threads[i]? = some ⟨own, .joining c e⟩) : phase = .gathering := by
  have place := inv.stages i _ here
  cases phase <;> first | rfl | cases place

lemma prepare {own : σ} {c : Bool} {e : Errand α σ} {parties : UInt64}
    (inv : Rendezvous p held phase s) (here : s.threads[i]? = some ⟨own, .joining c e⟩)
    (active : s.word.activeParticipants? = some parties)
    (sane : MutatorThread.Sane held s.shared.heap ⟨own, .submitting c parties.toNat e⟩) :
    Rendezvous p held phase (s.changed i s.common ⟨own, .submitting c parties.toNat e⟩) := by
  obtain rfl := inv.phase_of_joining here
  have parties_eq := (GcWord.activeParticipants?_eq_some_iff.mp active).2
  refine inv.shift here sane ?_ rfl rfl rfl rfl (inv.inputs_changed here rfl rfl rfl)
  exact congrArg UInt64.toNat parties_eq.symm

/-- A thread that has joined a cycle does not find it over. -/
lemma not_idle {own : σ} {c : Bool} {e : Errand α σ} (inv : Rendezvous p held phase s)
    (here : s.threads[i]? = some ⟨own, .joining c e⟩) :
    s.word.activeParticipants? = some s.word.participants := by
  obtain rfl := inv.phase_of_joining here
  exact GcWord.activeParticipants?_eq_some_iff.mpr ⟨inv.requested, rfl⟩

lemma submit {own : σ} {c : Bool} {n : Nat} {e : Errand α σ} (inv : Rendezvous p held phase s)
    (here : s.threads[i]? = some ⟨own, .submitting c n e⟩)
    (sane : MutatorThread.Sane held s.shared.heap ⟨own, .arriving c n e⟩) :
    Rendezvous p held phase
      (s.changed i { s.common with inputs := e.rootSet p own :: s.inputs } ⟨own, .arriving c n e⟩) := by
  have place := inv.stages i _ here
  have now : phase = .gathering := by cases phase <;> first | rfl | cases place
  subst now
  have scanners := count_changed Stage.isScanner { s.common with inputs := e.rootSet p own :: s.inputs }
    ⟨own, .arriving c n e⟩ here
  have sets := total_changed (submitted p) { s.common with inputs := e.rootSet p own :: s.inputs }
    ⟨own, .arriving c n e⟩ here
  have one := inv.gathering rfl
  have same : (s.changed i { s.common with inputs := e.rootSet p own :: s.inputs }
      ⟨own, .arriving c n e⟩).count Stage.isScanner = 1 := by
    rw [← one]
    exact Nat.add_right_cancel scanners
  refine inv.shift here sane place rfl rfl rfl rfl ⟨?_, ?_⟩
  · intro zero
    omega
  · intro _
    have before : submitted p (⟨own, .submitting c n e⟩ : MutatorThread α σ) = 0 := rfl
    have after : submitted p (⟨own, .arriving c n e⟩ : MutatorThread α σ) = {e.rootSet p own} := rfl
    rw [before, after, add_zero, ← inv.unscanned (by omega)] at sets
    rw [sets, ← Multiset.cons_coe, ← Multiset.singleton_add, add_comm]

/-- A thread waits at a barrier for the others. -/
lemma park {own : σ} {stage stage' : Stage α σ} (inv : Rendezvous p held phase s)
    (here : s.threads[i]? = some ⟨own, stage⟩)
    (sane : MutatorThread.Sane held s.shared.heap ⟨own, stage'⟩) (ne : phase ≠ .apart)
    (place : stage'.Admits phase s.barrier.sense s.word.remaining)
    (rendezvous : stage'.inRendezvous = stage.inRendezvous)
    (coordinator : stage'.isCoordinator = stage.isCoordinator)
    (scanner : stage'.isScanner = stage.isScanner)
    (before : stage.isParked s.barrier.sense = false)
    (after : stage'.isParked s.barrier.sense = true)
    (same : submitted p ⟨own, stage'⟩ = submitted p ⟨own, stage⟩) :
    Rendezvous p held phase (s.changed i
      { s.common with barrier := ⟨s.barrier.arrived + 1, s.barrier.sense⟩ } ⟨own, stage'⟩) := by
  refine inv.update here ?_ inv.heap rfl sane place (fun now => absurd now ne)
    (fun _ => ⟨rfl, rfl⟩) (fun _ => scanner) (fun _ => rendezvous)
    (inv.inputs_changed here rfl scanner same)
  constructor
  · rfl
  · rw [coordinator]
  · rfl
  · have before' : stage.isParked s.common.barrier.sense = false := before
    have after' : stage'.isParked s.common.barrier.sense = true := after
    rw [before', after']
    rfl

lemma pass {own : σ} {found c : Bool} {n : Nat} {e : Errand α σ} (inv : Rendezvous p held phase s)
    (here : s.threads[i]? = some ⟨own, .waiting found c n e⟩) (free : found = !s.barrier.sense)
    (sane : MutatorThread.Sane held s.shared.heap ⟨own, .passed c n e⟩) :
    Rendezvous p held phase (s.changed i s.common ⟨own, .passed c n e⟩) := by
  have place := inv.stages i _ here
  have parked : (Stage.waiting found c n e : Stage α σ).isParked s.barrier.sense = false := by
    rw [free]
    cases s.barrier.sense <;> rfl
  obtain ⟨errand, coordinator, scanner, _, parked', place'⟩ := Stage.passed_cases (α := α) (σ := σ) c n e
  cases phase with
  | apart => cases place
  | gathering =>
    obtain ⟨same, _⟩ := place
    rw [free] at same
    cases h : s.barrier.sense <;> rw [h] at same <;> cases same
  | assembled =>
    obtain ⟨_, parties⟩ := place
    have submitted_same : submitted p ⟨own, .passed c n e⟩ =
        submitted p ⟨own, .waiting found c n e⟩ := by
      cases c <;> rfl
    refine inv.shift here sane ?_ ?_ coordinator scanner ((parked' _).trans parked.symm)
      (inv.inputs_changed here rfl scanner submitted_same)
    · have := place' s.barrier.sense
      rwa [parties] at this ⊢
    · rw [Stage.inRendezvous, errand]
      rfl

lemma scan {own : σ} {n : Nat} {e : Errand α σ} (inv : Rendezvous p held phase s)
    (here : s.threads[i]? = some ⟨own, .collecting n e⟩)
    (sane : MutatorThread.Sane held (s.shared.heap.runCycle s.inputs.reverse) ⟨own, .finishing n e⟩) :
    Rendezvous p held phase (s.changed i
      { s.common with
        shared := { s.shared with heap := s.shared.heap.runCycle s.inputs.reverse }
        inputs := [] } ⟨own, .finishing n e⟩) := by
  have place := inv.stages i _ here
  have now : phase = .assembled := by cases phase <;> first | rfl | cases place
  subst now
  obtain ⟨_, _, _, frame⟩ := inv.heap.sound.runCycle_frame s.inputs.reverse
  refine inv.update here ?_ (inv.heap.step (.cycle _ _)) (by rw [frame]) sane place nofun
    (fun _ => ⟨rfl, rfl⟩) nofun (fun _ => rfl) ⟨fun _ => rfl, fun some_left => ?_⟩
  · constructor
    · rfl
    · rfl
    · rfl
    · rfl
  · have scanners : _ + 1 = s.count Stage.isScanner + 0 := count_changed Stage.isScanner
      { s.common with
        shared := { s.shared with heap := s.shared.heap.runCycle s.inputs.reverse }
        inputs := [] } ⟨own, .finishing n e⟩ here
    have one := Bool.toNat_le s.word.isRequested
    have le := s.count_isScanner_le
    rw [inv.coordinators] at le
    omega

/-- Where there is a coordinator, a cycle is requested. -/
lemma requested_of_coordinator (inv : Rendezvous p held phase s) (here : s.threads[i]? = some t)
    (coordinates : t.stage.isCoordinator = true) : s.word.isRequested = true := by
  have own := le_total (fun t => t.stage.isCoordinator.toNat) here
  have all := inv.coordinators
  rw [coordinates] at own
  change 1 ≤ s.count Stage.isCoordinator at own
  cases h : s.word.isRequested with
  | true => rfl
  | false =>
    rw [h, Bool.toNat_false] at all
    omega

lemma finish {own : σ} {n : Nat} {e : Errand α σ} (inv : Rendezvous p held phase s)
    (here : s.threads[i]? = some ⟨own, .finishing n e⟩)
    (sane : MutatorThread.Sane held s.shared.heap ⟨own, .leaving n e⟩) :
    Rendezvous p held phase
      (s.changed i { s.common with word := s.word.finish } ⟨own, .leaving n e⟩) := by
  have place := inv.stages i _ here
  have now : phase = .assembled := by cases phase <;> first | rfl | cases place
  subst now
  have requested := inv.requested_of_coordinator here rfl
  obtain ⟨ended, remaining, registered⟩ := GcWord.finish_spec requested
  refine inv.update here ?_ inv.heap rfl sane ?_ nofun (fun _ => ⟨remaining, rfl⟩)
    nofun (fun _ => rfl) (inv.inputs_changed here rfl rfl rfl)
  · constructor
    · exact congrArg (· + held own) registered
    · have before : s.common.word.isRequested = true := requested
      have after : s.word.finish.isRequested = false := ended
      rw [before, after]
      rfl
    · rfl
    · rfl
  · change n = s.word.finish.remaining
    rw [remaining]
    exact place

lemma no_scanner (inv : Rendezvous p held .apart s) : s.count Stage.isScanner = 0 := by
  have le := s.count_isScanner_le
  rw [inv.coordinators, inv.idle rfl] at le
  exact Nat.le_zero.mp le

lemma passOut {own : σ} {found : Bool} {e : Errand α σ} (inv : Rendezvous p held phase s)
    (here : s.threads[i]? = some ⟨own, .waitingToLeave found e⟩) (free : found = !s.barrier.sense)
    (sane : MutatorThread.Sane held s.shared.heap ⟨own, .departing e⟩) :
    Rendezvous p held phase (s.changed i s.common ⟨own, .departing e⟩) := by
  have place := inv.stages i _ here
  have parked : (Stage.waitingToLeave found e : Stage α σ).isParked s.barrier.sense = false := by
    rw [free]
    cases s.barrier.sense <;> rfl
  cases phase with
  | apart => exact inv.shift here sane trivial rfl rfl rfl parked.symm (inv.inputs_changed here rfl rfl rfl)
  | gathering => cases place
  | assembled =>
    have same : found = s.barrier.sense := place
    rw [free] at same
    cases h : s.barrier.sense <;> rw [h] at same <;> cases same

lemma depart {own : σ} {e : Errand α σ} {word : GcWord} (inv : Rendezvous p held phase s)
    (here : s.threads[i]? = some ⟨own, .departing e⟩) (ok : s.word.depart = .ok word)
    (sane : (e.after own).Sane held s.shared.heap) :
    Rendezvous p held phase (s.changed i { s.common with word } (e.after own)) := by
  have place := inv.stages i _ here
  have now : phase = .apart := by cases phase <;> first | rfl | cases place
  subst now
  obtain ⟨registered_own, sane_errand⟩ := (inv.sane i _ here).of_errand rfl
  obtain ⟨_, keeps, out⟩ := e.sane_after registered_own sane_errand
  obtain ⟨requested, remaining, registered⟩ := GcWord.depart_spec ok
  obtain ⟨rendezvous, coordinator, scanner, parked⟩ := Stage.idle_of_errand?_eq_none out
  refine inv.update here ?_ inv.heap rfl sane (Stage.admits_of_errand?_eq_none out _ _ _) ?_
    (fun ne => absurd rfl ne) nofun nofun ⟨?_, fun some_left => ?_⟩
  · constructor
    · rw [keeps]
      exact congrArg (· + held own) registered
    · rw [coordinator]
      exact congrArg (fun b : Bool => b.toNat + 0) requested
    · rfl
    · rw [parked]
      rfl
  · intro _
    rw [rendezvous]
    exact ⟨requested.trans (inv.idle rfl), remaining⟩
  · exact fun _ => inv.scanned inv.no_scanner
  · have scanners := count_changed Stage.isScanner { s.common with word } (e.after own) here
    rw [scanner, inv.no_scanner] at scanners
    exact absurd (Nat.add_right_cancel scanners) some_left

end Rendezvous

end CellMachine
