import CellMachine.Proofs.Heap.Exactness
import CellMachine.Proofs.Threads.Turns

/-!
# Stopping the world

What the order of the rendezvous means for whole runs: one coordinator for each cycle,
no registered thread at large while it collects, one root set from each, registrations
only between cycles, and no collection reported that did not take place.
-/

namespace CellMachine

variable {α ω σ : Type} [Payload α] {p : Program α ω σ} {held : σ → Nat} {phase : Phase}
  {s : MutatorSystem α ω σ} {i : Nat} {g : Common α ω} {t t' : MutatorThread α σ}

namespace Stage

/-- It has arrived at the first barrier, and cannot have got past the second. -/
def BetweenBarriers (sense : Bool) : Stage α σ → Prop
  | waiting found _ _ _ => found = !sense
  | collecting _ _ | finishing _ _ | leaving _ _ => True
  | waitingToLeave found _ => found = sense
  | _ => False

end Stage

namespace MutatorSystem

/-- The thread is in the rendezvous for this errand. -/
def InCall (s : MutatorSystem α ω σ) (i : Nat) (own : σ) (e : Errand α σ) : Prop :=
  ∃ stage, s.threads[i]? = some ⟨own, stage⟩ ∧ stage.errand? = some e

/-- The thread has been elected and has not ended its cycle. -/
def Coordinates (s : MutatorSystem α ω σ) (i : Nat) : Prop :=
  ∃ t, s.threads[i]? = some t ∧ t.stage.isCoordinator = true

/-- How many registrations a thread holds. -/
def held? (s : MutatorSystem α ω σ) (held : σ → Nat) (i : Nat) : Option Nat :=
  s.threads[i]?.map fun t => held t.own

/-- The root sets of all threads in the rendezvous. -/
def rootSets (p : Program α ω σ) (s : MutatorSystem α ω σ) : List RootSet :=
  s.threads.toList.filterMap fun t => t.stage.errand?.map fun e => e.rootSet p t.own

omit [Payload α] in
/-- There is not more than one coordinator. -/
lemma coordinator_unique (one : s.count Stage.isCoordinator ≤ 1) {i j : Nat}
    (hi : s.Coordinates i) (hj : s.Coordinates j) : i = j := by
  obtain ⟨t, ht, coordinates⟩ := hi
  obtain ⟨u, hu, coordinates'⟩ := hj
  by_contra ne
  -- without the first one the second is still there
  have without := count_changed Stage.isCoordinator s.common ⟨t.own, .between⟩ ht
  have still : (s.changed i s.common ⟨t.own, .between⟩).threads[j]? = some u := by
    rw [getElem?_changed ht, if_neg ne, hu]
  have bound := le_total (fun t => t.stage.isCoordinator.toNat) still
  rw [coordinates] at without
  rw [coordinates'] at bound
  change 1 ≤ count _ _ at bound
  change _ + 1 = _ + 0 at without
  omega

end MutatorSystem

namespace Rendezvous

open MutatorSystem

/-- Only the end of the cycle relieves the coordinator. -/
lemma coordinator_stays (inv : Rendezvous p held phase s) (here : s.threads[i]? = some t)
    (change : Change p held s.common t g t') (coordinates : t.stage.isCoordinator = true)
    (requested : g.word.isRequested = true) : t'.stage.isCoordinator = true := by
  cases change with
  | outside before =>
    rw [(Stage.idle_of_errand?_eq_none before).2.1] at coordinates
    cases coordinates
  | join before =>
    have idle := (Stage.idle_of_errand?_eq_none before).2.1
    rw [show _ = false from idle] at coordinates
    cases coordinates
  | skip idle =>
    have active := inv.not_idle here
    rw [show s.word.activeParticipants? = none from idle] at active
    cases active
  | arriveLast =>
    rw [(Stage.passed_cases ..).2.1]
    exact coordinates
  | pass =>
    rw [(Stage.passed_cases ..).2.1]
    exact coordinates
  | finish =>
    have ends := (GcWord.finish_spec (inv.requested_of_coordinator here rfl)).1
    rw [show s.word.finish.isRequested = true from requested] at ends
    cases ends
  | prepare => exact coordinates
  | submit => exact coordinates
  | arrive => exact coordinates
  | collect => rfl
  | _ => cases coordinates

lemma coordinates_changed (inv : Rendezvous p held phase s) (here : s.threads[i]? = some t)
    (change : Change p held s.common t g t') (requested : g.word.isRequested = true) {j : Nat}
    (coordinates : s.Coordinates j) : (s.changed i g t').Coordinates j := by
  obtain ⟨u, hu, was⟩ := coordinates
  by_cases mover : i = j
  · subst mover
    obtain rfl := Option.some.inj (here.symm.trans hu)
    exact ⟨t', by rw [getElem?_changed here, if_pos rfl],
      inv.coordinator_stays here change was requested⟩
  · exact ⟨u, by rw [getElem?_changed here, if_neg mover, hu], was⟩

/-- While a cycle is requested no thread registers or deregisters. -/
lemma held_stays (inv : Rendezvous p held phase s) (here : s.threads[i]? = some t)
    (change : Change p held s.common t g t') (requested : s.word.isRequested = true) :
    held t'.own = held t.own := by
  cases change with
  | outside _ _ same => exact same
  | register _ ok =>
    have idle := (GcWord.register_spec ok).1
    rw [show s.word.isRequested = false from idle] at requested
    cases requested
  | deregister _ ok =>
    have idle := (GcWord.deregister_spec ok).1
    rw [show s.common.word.isRequested = true from requested] at idle
    cases idle
  | skip =>
    obtain ⟨registered, sane⟩ := (inv.sane i _ here).of_errand rfl
    exact (Errand.sane_after registered sane).2.1
  | depart =>
    obtain ⟨registered, sane⟩ := (inv.sane i _ here).of_errand rfl
    exact (Errand.sane_after registered sane).2.1
  | _ => rfl

/-- Elections and registrations take place only when all have left the last cycle. -/
lemma all_out_of_change (inv : Rendezvous p held phase s) (here : s.threads[i]? = some t)
    (change : Change p held s.common t g t')
    (news : (s.word.isRequested = false ∧ g.word.isRequested = true) ∨ held t.own < held t'.own) :
    s.word.remaining = 0 ∧ ∀ (j : Nat) u, s.threads[j]? = some u → u.stage.errand? = none := by
  have gone : s.word.isRequested = false → s.word.remaining = 0 →
      s.word.remaining = 0 ∧ ∀ (j : Nat) u, s.threads[j]? = some u → u.stage.errand? = none := by
    intro idle none_left
    obtain rfl := inv.phase_of_idle idle none_left
    exact ⟨none_left, inv.all_out none_left⟩
  have settled : g.word.isRequested = s.word.isRequested → held t'.own ≤ held t.own →
      s.word.remaining = 0 ∧ ∀ (j : Nat) u, s.threads[j]? = some u → u.stage.errand? = none := by
    intro same le
    rcases news with ⟨before, after⟩ | more
    · rw [same, before] at after
      cases after
    · omega
  cases change with
  | outside _ _ same => exact settled rfl same.le
  | register _ ok =>
    obtain ⟨idle, none_left, _⟩ := GcWord.register_spec ok
    exact gone idle none_left
  | deregister loses ok =>
    obtain ⟨done, counts⟩ := GcWord.deregister_spec ok
    have idle : s.word.isRequested = false := by
      change true = !s.word.isRequested at done
      simpa using done.symm
    exact settled ((counts rfl).1.trans idle.symm) (Nat.le_of_succ_le loses.le)
  | elect _ ok =>
    rcases GcWord.start_spec ok with ⟨_, _, rfl⟩ | ⟨idle, none_left, _⟩
    · exact settled rfl le_rfl
    · exact gone idle none_left
  | skip =>
    obtain ⟨registered, sane⟩ := (inv.sane i _ here).of_errand rfl
    exact settled rfl (Errand.sane_after registered sane).2.1.le
  | depart ok =>
    obtain ⟨registered, sane⟩ := (inv.sane i _ here).of_errand rfl
    exact settled (GcWord.depart_spec ok).1 (Errand.sane_after registered sane).2.1.le
  | finish =>
    have requested := inv.requested_of_coordinator here rfl
    rcases news with ⟨before, _⟩ | more
    · rw [requested] at before
      cases before
    · exact absurd more (lt_irrefl _)
  | _ => exact settled rfl le_rfl

/-- A thread in the rendezvous was there before, in the same call, or has just joined. -/
lemma errand_cases (change : Change p held s.common t g t') {e : Errand α σ}
    (inside : t'.stage.errand? = some e) :
    (t'.own = t.own ∧ t.stage.errand? = some e) ∨ ∃ c, t'.stage = .joining c e := by
  cases change with
  | outside _ after =>
    rw [after] at inside
    cases inside
  | register => cases inside
  | deregister => cases inside
  | join => exact .inr ⟨_, by rw [Option.some.inj inside]⟩
  | elect => exact .inr ⟨_, by rw [Option.some.inj inside]⟩
  | @skip own c e' =>
    cases e' <;> cases inside
  | @depart own e' =>
    cases e' <;> cases inside
  | arriveLast =>
    rw [(Stage.passed_cases ..).1] at inside
    exact .inl ⟨rfl, inside⟩
  | pass =>
    rw [(Stage.passed_cases ..).1] at inside
    exact .inl ⟨rfl, inside⟩
  | _ => exact .inl ⟨rfl, inside⟩

/-- The only way out of the rendezvous. -/
lemma departing_of_change (inv : Rendezvous p held phase s) (here : s.threads[i]? = some t)
    (change : Change p held s.common t g t') {e : Errand α σ} (before : t.stage.errand? = some e)
    (after : t'.stage.errand? = none) : t.stage = .departing e := by
  cases change with
  | skip idle =>
    have active := inv.not_idle here
    rw [show s.word.activeParticipants? = none from idle] at active
    cases active
  | depart => rw [Option.some.inj before]
  | arriveLast =>
    rw [(Stage.passed_cases ..).1] at after
    cases after
  | pass =>
    rw [(Stage.passed_cases ..).1] at after
    cases after
  | outside out =>
    rw [out] at before
    cases before
  | register => cases before
  | deregister => cases before
  | _ => cases after

/-- The only change that ends a cycle. -/
lemma finishing_of_change (change : Change p held s.common t g t') (before : s.word.isRequested = true)
    (after : g.word.isRequested = false) : ∃ own n e, t = ⟨own, .finishing n e⟩ := by
  have settled : g.word.isRequested = s.word.isRequested → ∃ own n e, t = ⟨own, .finishing n e⟩ := by
    intro same
    rw [same, before] at after
    cases after
  cases change with
  | register _ ok =>
    have idle := (GcWord.register_spec ok).1
    exact settled ((GcWord.register_spec ok).2.2.1.trans idle.symm)
  | deregister _ ok =>
    have idle := (GcWord.deregister_spec ok).1
    rw [show s.common.word.isRequested = true from before] at idle
    cases idle
  | elect _ ok =>
    rcases GcWord.start_spec ok with ⟨_, _, rfl⟩ | ⟨idle, _⟩
    · exact settled rfl
    · rw [show s.word.isRequested = false from idle] at before
      cases before
  | depart ok => exact settled (GcWord.depart_spec ok).1
  | finish => exact ⟨_, _, _, rfl⟩
  | _ => exact settled rfl

/-- The only change after which nobody is left to scan. -/
lemma collecting_of_change (inv : Rendezvous p held phase s) (here : s.threads[i]? = some t)
    (change : Change p held s.common t g t') (before : s.count Stage.isScanner ≠ 0)
    (after : (s.changed i g t').count Stage.isScanner = 0) :
    ∃ own n e, t = ⟨own, .collecting n e⟩ := by
  have counts := count_changed Stage.isScanner g t' here
  have settled : t'.stage.isScanner = t.stage.isScanner → ∃ own n e, t = ⟨own, .collecting n e⟩ := by
    intro same
    rw [same, after] at counts
    exact absurd (Nat.add_right_cancel counts).symm before
  cases change with
  | outside out out' =>
    exact settled ((Stage.idle_of_errand?_eq_none out').2.2.1.trans
      (Stage.idle_of_errand?_eq_none out).2.2.1.symm)
  | join out => exact settled (Stage.idle_of_errand?_eq_none out).2.2.1.symm
  | elect =>
    rw [after] at counts
    change 0 + 0 = _ + _ at counts
    omega
  | skip idle =>
    have active := inv.not_idle here
    rw [show s.word.activeParticipants? = none from idle] at active
    cases active
  | arriveLast => exact settled (Stage.passed_cases ..).2.2.1
  | pass => exact settled (Stage.passed_cases ..).2.2.1
  | collect => exact ⟨_, _, _, rfl⟩
  | depart =>
    obtain ⟨registered, sane⟩ := (inv.sane i _ here).of_errand rfl
    exact settled (Stage.idle_of_errand?_eq_none (Errand.sane_after registered sane).2.2).2.2.1
  | _ => exact settled rfl

/-- Whoever runs the cycle does so while all are assembled. -/
lemma assembled_of_collecting {own : σ} {n : Nat} {e : Errand α σ}
    (inv : Rendezvous p held phase s) (here : s.threads[i]? = some ⟨own, .collecting n e⟩) :
    phase = .assembled := by
  have place := inv.stages i _ here
  cases phase <;> first | rfl | cases place

lemma assembled_of_finishing {own : σ} {n : Nat} {e : Errand α σ}
    (inv : Rendezvous p held phase s) (here : s.threads[i]? = some ⟨own, .finishing n e⟩) :
    phase = .assembled := by
  have place := inv.stages i _ here
  cases phase <;> first | rfl | cases place

/-- Registered threads are then in the rendezvous, with one registration each. -/
lemma registered_iff (inv : Rendezvous p held .assembled s) {j : Nat} {u : MutatorThread α σ}
    (here : s.threads[j]? = some u) : 0 < held u.own ↔ ∃ e, u.stage.errand? = some e := by
  rw [(inv.assembled rfl).2 j u here, ← Option.isSome_iff_exists]
  change _ ↔ u.stage.inRendezvous = true
  cases u.stage.inRendezvous with
  | false => simp
  | true => simp

lemma betweenBarriers (inv : Rendezvous p held .assembled s) {j : Nat} {u : MutatorThread α σ}
    (here : s.threads[j]? = some u) (registered : 0 < held u.own) :
    u.stage.BetweenBarriers s.barrier.sense := by
  have place := inv.stages j u here
  obtain ⟨e, inside⟩ := (inv.registered_iff here).mp registered
  obtain ⟨own, stage⟩ := u
  cases stage with
  | waiting found c n e' => exact place.1
  | waitingToLeave found e' => exact place
  | collecting => trivial
  | finishing => trivial
  | leaving => trivial
  | joining => cases place
  | submitting => cases place
  | arriving => cases place
  | departing => cases place
  | _ => cases inside

/-- All have submitted who are assembled. -/
lemma submitted_eq (inv : Rendezvous p held .assembled s) {j : Nat} {u : MutatorThread α σ}
    (here : s.threads[j]? = some u) : submitted p u =
      ((u.stage.errand?.map fun e => e.rootSet p u.own).toList : Multiset RootSet) := by
  have place := inv.stages j u here
  obtain ⟨own, stage⟩ := u
  cases stage <;> first | rfl | cases place

/-- What the coordinator collects with: one root set from each registered thread. -/
lemma inputs_perm (inv : Rendezvous p held .assembled s) (unscanned : s.count Stage.isScanner ≠ 0) :
    s.inputs.Perm (s.rootSets p) := by
  rw [← Multiset.coe_eq_coe, inv.unscanned unscanned, rootSets, ← sum_map_toMultiset]
  exact total_congr fun j u hu => inv.submitted_eq hu

omit [Payload α] in
lemma unscanned_of_collecting {own : σ} {n : Nat} {e : Errand α σ}
    (here : s.threads[i]? = some ⟨own, .collecting n e⟩) : s.count Stage.isScanner ≠ 0 := by
  intro zero
  cases eq_false_of_count_eq_zero zero here

lemma mem_rootSets {own : σ} {e : Errand α σ} (call : s.InCall i own e) :
    e.rootSet p own ∈ s.rootSets p := by
  obtain ⟨stage, here, inside⟩ := call
  exact List.mem_filterMap.mpr ⟨⟨own, stage⟩, mem_threads.mpr ⟨i, here⟩, by simp [inside]⟩

end Rendezvous

namespace MutatorSystem

variable {schedule : Nat → Nat} {n : Nat}

lemma step_collecting {own : σ} {k : Nat} {e : Errand α σ}
    (here : s.threads[i]? = some ⟨own, .collecting k e⟩) :
    (s.step p i).shared.heap = s.shared.heap.runCycle s.inputs.reverse := by
  rw [step, attempt, here]
  rfl

/-- The thread to move is about to collect. -/
def Collects (s : MutatorSystem α ω σ) (i : Nat) : Prop :=
  ∃ own parties e, s.threads[i]? = some ⟨own, .collecting parties e⟩

/-- Whether the thread is about to collect, as a computation. -/
def collects? (s : MutatorSystem α ω σ) (i : Nat) : Bool :=
  match s.threads[i]? with
  | some ⟨_, .collecting _ _⟩ => true
  | _ => false

omit [Payload α] in
lemma collects_iff {s : MutatorSystem α ω σ} {i : Nat} : s.Collects i ↔ collects? s i = true := by
  rw [Collects, collects?]
  constructor
  · rintro ⟨own, parties, e, here⟩
    rw [here]
  · intro collects
    split at collects
    · rename_i own parties e here
      exact ⟨own, parties, e, here⟩
    · cases collects

instance (s : MutatorSystem α ω σ) (i : Nat) : Decidable (s.Collects i) :=
  decidable_of_iff _ collects_iff.symm

/-- The thread to move is about to end the cycle. -/
def Finishes (s : MutatorSystem α ω σ) (i : Nat) : Prop :=
  ∃ own parties e, s.threads[i]? = some ⟨own, .finishing parties e⟩

/-- At time `m` a cycle collected with the root set of a call that goes on until `n`; if the
cycle is not requested any more, it was ended between the two by the same coordinator. -/
structure ScannedAt (p : Program α ω σ) (schedule : Nat → Nat) (s : MutatorSystem α ω σ) (i : Nat)
    (own : σ) (e : Errand α σ) (m n : Nat) : Prop where
  earlier : m < n
  collects : (s.run p schedule m).Collects (schedule m)
  submitted : e.rootSet p own ∈ (s.run p schedule m).inputs
  call : ∀ l, m ≤ l → l ≤ n → (s.run p schedule l).InCall i own e
  running : (s.run p schedule n).word.isRequested = true →
    (s.run p schedule n).Coordinates (schedule m)
  ended : (s.run p schedule n).word.isRequested = false → ∃ k, m < k ∧ k < n ∧
    schedule k = schedule m ∧ (s.run p schedule k).Finishes (schedule k) ∧
    (s.run p schedule k).word.isRequested = true ∧
    (s.run p schedule (k + 1)).word.isRequested = false

lemma forall_le_succ {P : Nat → Prop} {m n : Nat} (old : ∀ l, m ≤ l → l ≤ n → P l) (new : P (n + 1))
    (l : Nat) (lower : m ≤ l) (upper : l ≤ n + 1) : P l := by
  rcases Nat.lt_or_eq_of_le upper with less | rfl
  · exact old l lower (Nat.le_of_lt_succ less)
  · exact new

/-- A call in the rendezvous that goes on was going on before the last step, or has just
joined the rendezvous. -/
lemma Starts.call_before (starts : s.Starts p held) (schedule : Nat → Nat) (n : Nat) {own : σ}
    {e : Errand α σ} (call : (s.run p schedule (n + 1)).InCall i own e)
    (scanned : (s.run p schedule (n + 1)).count Stage.isScanner = 0) :
    (s.run p schedule n).InCall i own e := by
  obtain ⟨phase, inv⟩ := starts.rendezvous schedule n
  obtain ⟨phase', inv'⟩ := starts.rendezvous schedule (n + 1)
  obtain ⟨stage, here', inside⟩ := call
  rcases inv.step_cases starts.lawful (schedule n) with same | ⟨t, g, t', here, change, sane, eq⟩
  · rw [run, same] at here'
    exact ⟨stage, here', inside⟩
  · have now := here'
    rw [run, eq, getElem?_changed here] at now
    split at now
    · rename_i mover
      obtain rfl := Option.some.inj now
      rcases Rendezvous.errand_cases change inside with ⟨own_eq, before⟩ | ⟨c, joined⟩
      · subst mover own_eq
        exact ⟨t.stage, here, before⟩
      · simp only at joined
        subst joined
        have gathering := inv'.phase_of_joining here'
        rw [inv'.gathering gathering] at scanned
        cases scanned
    · exact ⟨stage, now, inside⟩

lemma ScannedAt.extend {own : σ} {e : Errand α σ} {m : Nat}
    (old : ScannedAt p schedule s i own e m n) (call : (s.run p schedule (n + 1)).InCall i own e)
    (running : (s.run p schedule (n + 1)).word.isRequested = true →
      (s.run p schedule (n + 1)).Coordinates (schedule m))
    (ended : (s.run p schedule (n + 1)).word.isRequested = false →
      (s.run p schedule n).word.isRequested = false ∨
        (schedule n = schedule m ∧ (s.run p schedule n).Finishes (schedule n) ∧
          (s.run p schedule n).word.isRequested = true)) :
    ScannedAt p schedule s i own e m (n + 1) := by
  refine ⟨old.earlier.trans n.lt_succ_self, old.collects, old.submitted,
    forall_le_succ old.call call, running, ?_⟩
  intro idle
  rcases ended idle with before | ⟨same, finishes, before⟩
  · obtain ⟨k, after_m, before_n, rest⟩ := old.ended before
    exact ⟨k, after_m, before_n.trans n.lt_succ_self, rest⟩
  · exact ⟨n, old.earlier, n.lt_succ_self, same, finishes, before, idle⟩

/-- When a cycle has collected, every call in the rendezvous has been scanned. -/
lemma Starts.exists_scannedAt (starts : s.Starts p held) (schedule : Nat → Nat) (n : Nat) {own : σ}
    {e : Errand α σ} (call : (s.run p schedule n).InCall i own e)
    (scanned : (s.run p schedule n).count Stage.isScanner = 0) :
    ∃ m, ScannedAt p schedule s i own e m n := by
  induction n with
  | zero =>
    obtain ⟨h, world, threads, _, _, rfl⟩ := starts.start
    obtain ⟨stage, here, inside⟩ := call
    obtain ⟨_, _, eq⟩ := Option.map_eq_some_iff.mp ((Rendezvous.getElem?_start ..).symm.trans here)
    cases eq
    cases inside
  | succ n ih =>
    obtain ⟨phase, inv⟩ := starts.rendezvous schedule n
    have before := starts.call_before schedule n call scanned
    rcases inv.step_cases starts.lawful (schedule n) with same | ⟨t, g, t', here, change, sane, eq⟩
    · have stays : s.run p schedule (n + 1) = s.run p schedule n := same
      rw [stays] at scanned
      obtain ⟨m, old⟩ := ih before scanned
      refine ⟨m, old.extend call ?_ fun idle => .inl ?_⟩
      · rw [stays]
        exact old.running
      · rwa [stays] at idle
    have next : s.run p schedule (n + 1) = (s.run p schedule n).changed (schedule n) g t' := eq
    by_cases already : (s.run p schedule n).count Stage.isScanner = 0
    · obtain ⟨m, old⟩ := ih before already
      -- a cycle that is still running keeps its coordinator
      have one : (s.run p schedule n).count Stage.isCoordinator ≤ 1 := by
        rw [inv.coordinators]
        exact Bool.toNat_le _
      refine ⟨m, old.extend call ?_ ?_⟩
      · rw [next]
        intro requested
        cases was : (s.run p schedule n).word.isRequested with
        | true => exact inv.coordinates_changed here change requested (old.running was)
        | false =>
          obtain ⟨_, out⟩ := inv.all_out_of_change here change (.inl ⟨was, requested⟩)
          obtain ⟨stage, here', inside⟩ := before
          rw [out i _ here'] at inside
          cases inside
      · rw [next]
        intro idle
        cases was : (s.run p schedule n).word.isRequested with
        | false => exact .inl rfl
        | true =>
          obtain ⟨own', k, e', rfl⟩ := Rendezvous.finishing_of_change change was idle
          have mover : (s.run p schedule n).Coordinates (schedule n) := ⟨_, here, rfl⟩
          exact .inr ⟨coordinator_unique one mover (old.running was), ⟨own', k, e', here⟩, rfl⟩
    · rw [next] at scanned
      obtain ⟨own', k, e', rfl⟩ := inv.collecting_of_change here change already scanned
      obtain rfl := inv.assembled_of_collecting here
      have was := inv.requested_of_coordinator here rfl
      refine ⟨n, n.lt_succ_self, ⟨own', k, e', here⟩, ?_, forall_le_succ ?_ call, ?_, ?_⟩
      · exact (inv.inputs_perm already).mem_iff.mpr (Rendezvous.mem_rootSets before)
      · intro l lower upper
        obtain rfl := Nat.le_antisymm lower upper
        exact before
      · rw [next]
        intro requested
        exact inv.coordinates_changed here change requested ⟨_, here, rfl⟩
      · rw [next]
        intro idle
        obtain ⟨_, _, _, eq⟩ := Rendezvous.finishing_of_change change was idle
        cases eq

/-- A thread that is not to move stays where it is. -/
lemma Starts.getElem?_run_succ (starts : s.Starts p held) (other : schedule n ≠ i) :
    (s.run p schedule (n + 1)).threads[i]? = (s.run p schedule n).threads[i]? := by
  obtain ⟨phase, inv⟩ := starts.rendezvous schedule n
  rcases inv.step_cases starts.lawful (schedule n) with same | ⟨t, g, t', here, _, _, eq⟩
  · rw [run, same]
  · rw [run, eq, getElem?_changed here, if_neg other]

/-- A call of `collect` that is about to elect stays so, joins a cycle, or answers `false` at once
because collection is disabled. -/
lemma Starts.electing_succ (starts : s.Starts p held) {own : σ} {next : Bool → σ}
    (here : (s.run p schedule n).threads[i]? = some ⟨own, .electing (.collection next)⟩) :
    (s.run p schedule (n + 1)).threads[i]? = some ⟨own, .electing (.collection next)⟩ ∨
      (s.run p schedule (n + 1)).InCall i own (.collection next) ∨
      ((s.run p schedule (n + 1)).threads[i]? = some ⟨next false, .between⟩ ∧
        (s.run p schedule n).shared.heap.gcEnabled = false) := by
  by_cases turn : schedule n = i
  · subst turn
    rcases takes_step (p := p) here with ⟨_, same⟩ | ⟨g, t', transition, eq⟩
    · rw [run, same]
      exact .inl here
    · have there : (s.run p schedule (n + 1)).threads[schedule n]? = some t' := by
        rw [run, eq, getElem?_changed here, if_pos rfl]
      cases transition with
      | forgo disabled => exact .inr (.inr ⟨there, disabled⟩)
      | elect => exact .inr (.inl ⟨_, there, rfl⟩)
  · exact .inl ((starts.getElem?_run_succ turn).trans here)

/-- The world is stopped for every cycle of a run. -/
structure StopsTheWorld (p : Program α ω σ) (held : σ → Nat) (schedule : Nat → Nat)
    (s : MutatorSystem α ω σ) : Prop where
  /-- A requested cycle has one coordinator, and without one there is none. -/
  one_coordinator : ∀ n, (s.run p schedule n).count Stage.isCoordinator =
    (s.run p schedule n).word.isRequested.toNat
  /-- The coordinator of a cycle stays the same until its end. -/
  same_coordinator : ∀ n i, (s.run p schedule n).Coordinates i →
    (s.run p schedule (n + 1)).word.isRequested = true → (s.run p schedule (n + 1)).Coordinates i
  /-- While the coordinator collects and until it ends the cycle, every registered thread
  has arrived at the first barrier and none has left the second. -/
  stopped : ∀ n i, (s.run p schedule n).Collects i ∨ (s.run p schedule n).Finishes i →
    ∀ (j : Nat) u, (s.run p schedule n).threads[j]? = some u → 0 < held u.own →
      u.stage.BetweenBarriers (s.run p schedule n).barrier.sense
  /-- The root sets that are collected with are one from each registered thread, -/
  one_each : ∀ n i, (s.run p schedule n).Collects i →
    (s.run p schedule n).inputs.Perm ((s.run p schedule n).rootSets p) ∧
    ∀ (j : Nat) u, (s.run p schedule n).threads[j]? = some u →
      (0 < held u.own ↔ ∃ e, u.stage.errand? = some e)
  /-- and none is left from an earlier cycle. -/
  none_before : ∀ n, (s.run p schedule n).word.isRequested = false →
    (s.run p schedule n).inputs = []
  /-- The word counts the registrations. -/
  counted : ∀ n, (s.run p schedule n).total (fun t => held t.own) =
    (s.run p schedule n).word.registered
  /-- Between election and end no thread registers or deregisters. -/
  frozen : ∀ n, (s.run p schedule n).word.isRequested = true → ∀ i,
    (s.run p schedule (n + 1)).held? held i = (s.run p schedule n).held? held i
  /-- A cycle is elected and a thread registers only when all have left the last cycle. -/
  all_left : ∀ n, ((s.run p schedule n).word.isRequested = false ∧
      (s.run p schedule (n + 1)).word.isRequested = true) ∨
      (∃ (i : Nat) (t t' : MutatorThread α σ), (s.run p schedule n).threads[i]? = some t ∧
        (s.run p schedule (n + 1)).threads[i]? = some t' ∧ held t.own < held t'.own) →
    (s.run p schedule n).word.remaining = 0 ∧
    ∀ (j : Nat) u, (s.run p schedule n).threads[j]? = some u → u.stage.errand? = none
  /-- A call of `collect` that answers `true` was scanned by a cycle which collected and
  was ended, by one coordinator, during the call. -/
  collected : ∀ n i own next, (s.run p schedule n).InCall i own (.collection next) →
    (s.run p schedule (n + 1)).threads[i]? = some ⟨next true, .between⟩ →
    ∃ m k, m < k ∧ k < n ∧
      (s.run p schedule m).Collects (schedule m) ∧
      (Errand.collection next).rootSet p own ∈ (s.run p schedule m).inputs ∧
      (s.run p schedule (m + 1)).shared.heap =
        (s.run p schedule m).shared.heap.runCycle (s.run p schedule m).inputs.reverse ∧
      schedule k = schedule m ∧ (s.run p schedule k).Finishes (schedule k) ∧
      (s.run p schedule k).word.isRequested = true ∧
      (s.run p schedule (k + 1)).word.isRequested = false ∧
      ∀ l, m ≤ l → l ≤ n → (s.run p schedule l).InCall i own (.collection next)
  /-- One that does not join a cycle answers `false`, for collection is disabled. -/
  uncollected : ∀ n i own next,
    (s.run p schedule n).threads[i]? = some ⟨own, .electing (.collection next)⟩ →
    (s.run p schedule (n + 1)).threads[i]? = some ⟨own, .electing (.collection next)⟩ ∨
      (s.run p schedule (n + 1)).InCall i own (.collection next) ∨
      ((s.run p schedule (n + 1)).threads[i]? = some ⟨next false, .between⟩ ∧
        (s.run p schedule n).shared.heap.gcEnabled = false)

/-- A call that has just ended was over with its cycle. -/
lemma Starts.ended_of_left (starts : s.Starts p held) (schedule : Nat → Nat) (n : Nat) {own own' : σ}
    {e : Errand α σ} (call : (s.run p schedule n).InCall i own e)
    (left : (s.run p schedule (n + 1)).threads[i]? = some ⟨own', .between⟩) :
    (s.run p schedule n).word.isRequested = false ∧
      (s.run p schedule n).count Stage.isScanner = 0 := by
  obtain ⟨phase, inv⟩ := starts.rendezvous schedule n
  obtain ⟨stage, here, inside⟩ := call
  rcases inv.step_cases starts.lawful (schedule n) with same | ⟨t, g, t', mover, change, sane, eq⟩
  · have stays : s.run p schedule (n + 1) = s.run p schedule n := same
    rw [stays, here] at left
    cases left
    cases inside
  · have next : s.run p schedule (n + 1) = (s.run p schedule n).changed (schedule n) g t' := eq
    rw [next, getElem?_changed mover] at left
    split at left
    · rename_i same
      subst same
      obtain rfl := Option.some.inj (mover.symm.trans here)
      obtain rfl := Option.some.inj left
      have out := inv.departing_of_change mover change inside rfl
      simp only at out
      subst out
      have place := inv.stages _ _ mover
      have now : phase = .apart := by cases phase <;> first | rfl | cases place
      subst now
      exact ⟨inv.idle rfl, inv.no_scanner⟩
    · rw [here] at left
      cases left
      cases inside

/-- During a cycle no thread registers or deregisters. -/
lemma Starts.held?_succ (starts : s.Starts p held) (schedule : Nat → Nat) (n : Nat)
    (requested : (s.run p schedule n).word.isRequested = true) (i : Nat) :
    (s.run p schedule (n + 1)).held? held i = (s.run p schedule n).held? held i := by
  obtain ⟨phase, inv⟩ := starts.rendezvous schedule n
  rcases inv.step_cases starts.lawful (schedule n) with same | ⟨t, g, t', here, change, _, eq⟩
  · rw [run, same]
  · rw [run, eq, held?, held?, getElem?_changed here]
    split
    · rename_i mover
      subst mover
      rw [here, Option.map_some, Option.map_some, inv.held_stays here change requested]
    · rfl

/-- A thread that has gained a registration has just moved, out of the rendezvous. -/
lemma Starts.all_out_of_gain (starts : s.Starts p held) (schedule : Nat → Nat) (n : Nat)
    (here : (s.run p schedule n).threads[i]? = some t)
    (here' : (s.run p schedule (n + 1)).threads[i]? = some t') (more : held t.own < held t'.own) :
    (s.run p schedule n).word.remaining = 0 ∧
    ∀ (j : Nat) u, (s.run p schedule n).threads[j]? = some u → u.stage.errand? = none := by
  obtain ⟨phase, inv⟩ := starts.rendezvous schedule n
  rcases inv.step_cases starts.lawful (schedule n) with same | ⟨u, g, u', mover, change, _, eq⟩
  · rw [run, same] at here'
    obtain rfl := Option.some.inj (here.symm.trans here')
    exact absurd more (lt_irrefl _)
  · rw [run, eq, getElem?_changed mover] at here'
    split at here'
    · rename_i same
      subst same
      obtain rfl := Option.some.inj (mover.symm.trans here)
      obtain rfl := Option.some.inj here'
      exact inv.all_out_of_change mover change (.inr more)
    · obtain rfl := Option.some.inj (here.symm.trans here')
      exact absurd more (lt_irrefl _)

lemma Starts.all_out_of_election (starts : s.Starts p held) (schedule : Nat → Nat) (n : Nat)
    (idle : (s.run p schedule n).word.isRequested = false)
    (requested : (s.run p schedule (n + 1)).word.isRequested = true) :
    (s.run p schedule n).word.remaining = 0 ∧
    ∀ (j : Nat) u, (s.run p schedule n).threads[j]? = some u → u.stage.errand? = none := by
  obtain ⟨phase, inv⟩ := starts.rendezvous schedule n
  rcases inv.step_cases starts.lawful (schedule n) with same | ⟨t, g, t', mover, change, _, eq⟩
  · rw [run, same, idle] at requested
    cases requested
  · rw [run, eq] at requested
    exact inv.all_out_of_change mover change (.inl ⟨idle, requested⟩)

/-- The rendezvous stops the world, whatever the threads and their order of steps. -/
theorem stopsTheWorld (starts : s.Starts p held) (schedule : Nat → Nat) :
    s.StopsTheWorld p held schedule := by
  constructor
  · intro n
    obtain ⟨phase, inv⟩ := starts.rendezvous schedule n
    exact inv.coordinators
  · intro n i coordinates requested
    obtain ⟨phase, inv⟩ := starts.rendezvous schedule n
    rcases inv.step_cases starts.lawful (schedule n) with same | ⟨t, g, t', here, change, _, eq⟩
    · rw [run, same]
      exact coordinates
    · rw [run, eq] at requested ⊢
      exact inv.coordinates_changed here change requested coordinates
  · intro n i cycling j u hu registered
    obtain ⟨phase, inv⟩ := starts.rendezvous schedule n
    have now : phase = .assembled := by
      rcases cycling with ⟨_, _, _, here⟩ | ⟨_, _, _, here⟩
      · exact inv.assembled_of_collecting here
      · exact inv.assembled_of_finishing here
    subst now
    exact inv.betweenBarriers hu registered
  · intro n i collects
    obtain ⟨phase, inv⟩ := starts.rendezvous schedule n
    obtain ⟨_, _, _, here⟩ := collects
    obtain rfl := inv.assembled_of_collecting here
    exact ⟨inv.inputs_perm (Rendezvous.unscanned_of_collecting here),
      fun j u hu => inv.registered_iff hu⟩
  · intro n idle
    obtain ⟨phase, inv⟩ := starts.rendezvous schedule n
    have le := (s.run p schedule n).count_isScanner_le
    rw [inv.coordinators, idle] at le
    exact inv.scanned (Nat.le_zero.mp le)
  · intro n
    obtain ⟨phase, inv⟩ := starts.rendezvous schedule n
    exact inv.registered
  · exact fun n requested i => starts.held?_succ schedule n requested i
  · rintro n (⟨idle, requested⟩ | ⟨i, t, t', here, here', more⟩)
    · exact starts.all_out_of_election schedule n idle requested
    · exact starts.all_out_of_gain schedule n here here' more
  · intro n i own next call left
    obtain ⟨idle, scanned⟩ := starts.ended_of_left schedule n call left
    obtain ⟨m, scan⟩ := starts.exists_scannedAt schedule n call scanned
    obtain ⟨k, after_m, before_n, same, finishes, requested, ended⟩ := scan.ended idle
    obtain ⟨_, _, _, here⟩ := scan.collects
    exact ⟨m, k, after_m, before_n, scan.collects, scan.submitted, step_collecting here, same,
      finishes, requested, ended, scan.call⟩
  · exact fun n i own next here => starts.electing_succ here

/-- A thread that registers, collects and deregisters, with one root throughout. -/
def keeper (root : Address) : Program Node Unit Nat where
  roots _ := [.ref root]
  move
    | 0 => .register 1
    | 1 => .collect fun _ => 2
    | 2 => .deregister 3
    | _ => .halt

def keeperHeld : Nat → Nat
  | 1 | 2 => 1
  | _ => 0

lemma lawful_keeper (root : Address) : (keeper root).Lawful keeperHeld := by
  constructor
  · intro own next move
    match own with
    | 0 =>
      cases move
      rfl
    | 1 | 2 | _ + 3 => cases move
  · intro own payload next move
    match own with
    | 0 | 1 | 2 | _ + 3 => cases move
  · intro own next move
    match own with
    | 1 =>
      cases move
      exact ⟨by decide, fun _ => rfl⟩
    | 0 | 2 | _ + 3 => cases move
  · intro own next move
    match own with
    | 0 | 1 | 2 | _ + 3 => cases move
  · intro own act move
    match own with
    | 0 | 1 | 2 | _ + 3 => cases move
  · intro own next move
    match own with
    | 2 =>
      cases move
      rfl
    | 0 | 1 | _ + 3 => cases move

/-- The one cell of the heap below. -/
def loopCell : Address := Heap.selfLoop.addressOf ⟨0, ⟨0, 0⟩⟩

def keepers : MutatorSystem Node Unit Nat := .start Heap.selfLoop () [0, 0]

/-- The first thread is elected, the second joins it. -/
def meeting (n : Nat) : Nat := [0, 1, 0, 0, 1, 1, 0, 1, 0, 1, 0, 1, 0, 0, 0, 0, 1, 1].getD n 0

lemma starts_keepers : keepers.Starts (keeper loopCell) keeperHeld :=
  ⟨lawful_keeper loopCell, Heap.selfLoop, (), [0, 0], Heap.reachable_selfLoop, by simp [keeperHeld],
    rfl⟩

set_option maxRecDepth 10000 in
/-- The call of the second thread answers `true` after the eighteenth step, and was scanned
by the cycle of the first. -/
theorem stopsTheWorld_keepers : keepers.Starts (keeper loopCell) keeperHeld ∧
    keepers.StopsTheWorld (keeper loopCell) keeperHeld meeting ∧
    (keepers.run (keeper loopCell) meeting 17).InCall 1 1 (.collection fun _ => 2) ∧
    ∃ m < 17, (keepers.run (keeper loopCell) meeting m).Collects (meeting m) ∧
      [loopCell] ∈ (keepers.run (keeper loopCell) meeting m).inputs := by
  have stops := stopsTheWorld starts_keepers meeting
  have call : (keepers.run (keeper loopCell) meeting 17).InCall 1 1 (.collection fun _ => 2) :=
    ⟨_, rfl, rfl⟩
  have left : (keepers.run (keeper loopCell) meeting (17 + 1)).threads[1]? = some ⟨2, .between⟩ := rfl
  obtain ⟨m, k, after_m, before_k, collects, submitted, _⟩ := stops.collected 17 1 1 _ call left
  exact ⟨starts_keepers, stops, call, m, after_m.trans before_k, collects, submitted⟩

end MutatorSystem

end CellMachine
