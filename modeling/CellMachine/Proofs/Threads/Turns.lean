import CellMachine.Proofs.Threads.Preservation

/-!
# From one phase to the next

The election opens a cycle: the participants are then the registered threads. The last
arrival at a barrier is the moment when as many threads have arrived as registrations
are held. Each of them holds one, so no other thread holds any.
-/

namespace CellMachine

variable {α ω σ : Type} [Payload α] {p : Program α ω σ} {held : σ → Nat} {phase : Phase}
  {s : MutatorSystem α ω σ} {i : Nat} {g : Common α ω} {t t' : MutatorThread α σ}

namespace Stage

/-- It has arrived at the first barrier and not at the second. -/
def hasArrived (sense : Bool) : Stage α σ → Bool
  | waiting found _ _ _ => found == sense
  | collecting _ _ | leaving _ _ => true
  | _ => false

/-- It has arrived at the second barrier. -/
def hasLeft (sense : Bool) : Stage α σ → Bool
  | waitingToLeave found _ => found == sense
  | departing _ => true
  | _ => false

omit [Payload α] in
/-- While threads gather, those that have arrived are those that wait. -/
lemma hasArrived_eq {stage : Stage α σ} {sense : Bool} {n : Nat}
    (place : stage.Admits .gathering sense n) : stage.hasArrived sense = stage.isParked sense := by
  cases stage <;> first | rfl | cases place

omit [Payload α] in
lemma hasLeft_eq {stage : Stage α σ} {sense : Bool} {n : Nat}
    (place : stage.Admits .assembled sense n) : stage.hasLeft sense = stage.isParked sense := by
  cases stage with
  | waiting found c parties e =>
    obtain ⟨other, _⟩ := place
    subst other
    cases sense <;> rfl
  | _ => first | rfl | cases place

omit [Payload α] in
lemma inRendezvous_of_hasArrived {stage : Stage α σ} {sense : Bool}
    (arrived : stage.hasArrived sense = true) : stage.inRendezvous = true := by
  cases stage <;> first | rfl | cases arrived

omit [Payload α] in
lemma inRendezvous_of_hasLeft {stage : Stage α σ} {sense : Bool}
    (left : stage.hasLeft sense = true) : stage.inRendezvous = true := by
  cases stage <;> first | rfl | cases left

omit [Payload α] in
lemma errand?_eq_none_of_inRendezvous {stage : Stage α σ} (out : stage.inRendezvous = false) :
    stage.errand? = none :=
  Option.isNone_iff_eq_none.mp (by rw [← Option.not_isSome, ← inRendezvous, out]; rfl)

omit [Payload α] in
/-- Where a thread that waited for the first barrier stands when the sense has changed. -/
lemma admits_assembled {stage : Stage α σ} {sense : Bool} {n : Nat}
    (place : stage.Admits .gathering sense n) (arrived : stage.hasArrived sense = true) :
    stage.Admits .assembled (!sense) n := by
  cases stage with
  | waiting found c parties e =>
    obtain ⟨rfl, parties_eq⟩ := place
    exact ⟨(Bool.not_not found).symm, parties_eq⟩
  | collecting parties e => cases place
  | leaving parties e => cases place
  | _ => cases arrived

omit [Payload α] in
lemma admits_apart {stage : Stage α σ} {sense : Bool} (left : stage.hasLeft sense = true) (n : Nat) :
    stage.Admits .apart (!sense) n := by
  cases stage with
  | waitingToLeave found e =>
    have same : found = sense := by simpa [hasLeft] using left
    exact same.trans (Bool.not_not sense).symm
  | departing e => trivial
  | _ => cases left

omit [Payload α] in
/-- Nobody waits for the sense that a barrier has just got. -/
lemma not_parked_of_hasArrived {stage : Stage α σ} {sense : Bool}
    (arrived : stage.hasArrived sense = true) : stage.isParked (!sense) = false := by
  cases stage with
  | waiting found c parties e =>
    have same : found = sense := by simpa [hasArrived] using arrived
    subst same
    cases found <;> rfl
  | _ => first | rfl | cases arrived

end Stage

namespace Rendezvous

open MutatorSystem

/-- Whoever stands in the rendezvous holds a registration. -/
lemma registered_of_inRendezvous {h : Heap α} (sane : t.Sane held h)
    (inside : t.stage.inRendezvous = true) : 0 < held t.own := by
  obtain ⟨own, stage⟩ := t
  obtain ⟨e, he⟩ := Option.isSome_iff_exists.mp inside
  exact (sane.of_errand he).1

/-- With no participant left everybody is out. -/
lemma all_out (inv : Rendezvous p held .apart s) (none_left : s.word.remaining = 0) (j : Nat)
    (u : MutatorThread α σ) (here : s.threads[j]? = some u) : u.stage.errand? = none := by
  have count := inv.remaining
  rw [if_pos rfl, none_left] at count
  exact Stage.errand?_eq_none_of_inRendezvous (eq_false_of_count_eq_zero count.symm here)

/-- The only time for an election or a registration. -/
lemma phase_of_idle (inv : Rendezvous p held phase s) (idle : s.word.isRequested = false)
    (none_left : s.word.remaining = 0) : phase = .apart := by
  cases phase with
  | apart => rfl
  | gathering =>
    rw [inv.requested] at idle
    cases idle
  | assembled =>
    have positive := (inv.assembled rfl).1
    omega

lemma elect {own : σ} {e : Errand α σ} {word : GcWord} (inv : Rendezvous p held .apart s)
    (here : s.threads[i]? = some ⟨own, .electing e⟩) (none_left : s.word.remaining = 0)
    (requested : word.isRequested = true) (remaining : word.remaining = s.word.registered)
    (registered : word.registered = s.word.registered)
    (sane : MutatorThread.Sane held s.shared.heap ⟨own, .joining true e⟩) :
    Rendezvous p held .gathering (s.changed i { s.common with word } ⟨own, .joining true e⟩) := by
  have out := inv.all_out none_left
  have scanners : _ + 0 = s.count Stage.isScanner + 1 :=
    count_changed Stage.isScanner { s.common with word } ⟨own, .joining true e⟩ here
  have coordinators : _ + 0 = s.count Stage.isCoordinator + 1 :=
    count_changed Stage.isCoordinator { s.common with word } ⟨own, .joining true e⟩ here
  have parked : _ + 0 = s.count (Stage.isParked s.barrier.sense) + 0 :=
    count_changed (Stage.isParked s.barrier.sense) { s.common with word } ⟨own, .joining true e⟩ here
  have total : _ + held own = s.total (fun u => held u.own) + held own :=
    total_changed (fun u => held u.own) { s.common with word } ⟨own, .joining true e⟩ here
  have sets : _ + 0 = s.total (submitted p) + 0 :=
    total_changed (submitted p) { s.common with word } ⟨own, .joining true e⟩ here
  have no_sets : s.total (submitted p) = 0 :=
    total_eq_zero fun j u hu => submitted_of_errand?_eq_none (out j u hu)
  rw [inv.no_scanner] at scanners
  rw [inv.coordinators, inv.idle rfl] at coordinators
  rw [inv.arrived] at parked
  have total' := (Nat.add_right_cancel total).trans inv.registered
  constructor
  · exact inv.heap
  · exact inv.sane_changed here rfl sane
  · refine forall_changed here trivial fun j u hu => ?_
    exact Stage.admits_of_errand?_eq_none (out j u hu) _ _ _
  · exact total'.trans registered.symm
  · rw [show (s.changed i { s.common with word } ⟨own, .joining true e⟩).word.isRequested = true
      from requested]
    exact coordinators
  · exact parked
  · rw [if_neg nofun]
    exact remaining.trans total'.symm
  · exact nofun
  · exact fun _ => scanners
  · exact nofun
  · intro zero
    rw [zero] at scanners
    cases scanners
  · intro _
    have empty := inv.scanned inv.no_scanner
    have zero : (s.changed i { s.common with word } ⟨own, .joining true e⟩).total (submitted p) = 0 := by
      rw [no_sets] at sets
      simpa using sets
    rw [zero, show (s.changed i { s.common with word } ⟨own, .joining true e⟩).inputs = [] from empty]
    rfl

/-- At the last arrival as many threads have arrived as registrations are held. So whoever
holds one holds no other and has arrived. -/
lemma all_arrived (inv : Rendezvous p held phase s) (busy : phase ≠ .apart)
    (here : s.threads[i]? = some t)
    (sane : ∀ (k : Nat) v, (s.changed i g t').threads[k]? = some v → v.Sane held g.shared.heap)
    (same : held t'.own = held t.own) {f : Stage α σ → Bool}
    (inside : ∀ {stage}, f stage = true → stage.inRendezvous = true)
    (counted : s.count f = s.barrier.arrived) (before : f t.stage = false)
    (after : f t'.stage = true) (last : s.barrier.arrived + 1 = s.word.remaining) (j : Nat)
    (u : MutatorThread α σ) (at_j : (s.changed i g t').threads[j]? = some u) :
    held u.own = (f u.stage).toNat ∧ u.stage.inRendezvous = f u.stage := by
  have remaining := inv.remaining
  rw [if_neg busy] at remaining
  have total := total_changed (fun u => held u.own) g t' here
  rw [same] at total
  have arrivals := count_changed f g t' here
  rw [before, after, counted] at arrivals
  have all : (s.changed i g t').count f = (s.changed i g t').total fun u => held u.own := by
    rw [Nat.add_right_cancel total, ← remaining, ← last]
    exact arrivals
  have own := held_eq_of_total_eq (fun k v hv arrived =>
    registered_of_inRendezvous (sane k v hv) (inside arrived)) all j u at_j
  refine ⟨own, ?_⟩
  cases arrived : f u.stage with
  | true => exact inside arrived
  | false =>
    rw [arrived] at own
    cases there : u.stage.inRendezvous with
    | false => rfl
    | true =>
      have some_held := registered_of_inRendezvous (sane j u at_j) there
      rw [own] at some_held
      cases some_held

/-- The last arrival at the first barrier. -/
lemma assemble {own : σ} {c : Bool} {n : Nat} {e : Errand α σ} (inv : Rendezvous p held phase s)
    (here : s.threads[i]? = some ⟨own, .arriving c n e⟩) (last : s.barrier.arrived + 1 = n)
    (sane : MutatorThread.Sane held s.shared.heap ⟨own, .passed c n e⟩) :
    Rendezvous p held .assembled (s.changed i
      { s.common with barrier := ⟨0, !s.barrier.sense⟩ } ⟨own, .passed c n e⟩) := by
  have parties := inv.stages i _ here
  have now : phase = .gathering := by cases phase <;> first | rfl | cases parties
  subst now
  change n = s.word.remaining at parties
  obtain ⟨errand, coordinator, scanner, has_submitted, not_parked, place⟩ :=
    Stage.passed_cases (α := α) (σ := σ) c n e
  have rendezvous : (Stage.passed c n e : Stage α σ).inRendezvous = true := by
    rw [Stage.inRendezvous, errand]
    rfl
  have arrived_own : ∀ sense, (Stage.passed c n e : Stage α σ).hasArrived sense = true := by
    cases c <;> exact fun _ => rfl
  let g : Common α ω := { s.common with barrier := ⟨0, !s.barrier.sense⟩ }
  have remaining := inv.remaining
  rw [if_neg (by decide)] at remaining
  have total := total_changed (fun u => held u.own) g ⟨own, .passed c n e⟩ here
  have total' := Nat.add_right_cancel total
  have scanners := count_changed Stage.isScanner g ⟨own, .passed c n e⟩ here
  rw [scanner] at scanners
  have scanners' := (Nat.add_right_cancel scanners).trans (inv.gathering rfl)
  have arrived : s.count (Stage.hasArrived s.barrier.sense) = s.barrier.arrived := by
    rw [← inv.arrived]
    exact total_congr fun j u hu => congrArg Bool.toNat (Stage.hasArrived_eq (inv.stages j u hu))
  have saneAll := inv.sane_changed (g := g) here rfl sane
  have everyone := inv.all_arrived (by decide) here saneAll rfl Stage.inRendezvous_of_hasArrived
    arrived rfl (arrived_own _) (last.trans parties)
  constructor
  · exact inv.heap
  · exact saneAll
  · intro j u hu
    cases arrived : u.stage.hasArrived s.barrier.sense with
    | false =>
      have out := (everyone j u hu).2
      rw [arrived] at out
      exact Stage.admits_of_errand?_eq_none (Stage.errand?_eq_none_of_inRendezvous out) _ _ _
    | true =>
      rw [getElem?_changed here] at hu
      split at hu
      · obtain rfl := Option.some.inj hu
        change (Stage.passed c n e).Admits .assembled (!s.barrier.sense) s.word.remaining
        rw [← parties]
        exact place _
      · exact Stage.admits_assembled (inv.stages j u hu) arrived
  · exact total'.trans inv.registered
  · have coordinators := count_changed Stage.isCoordinator g ⟨own, .passed c n e⟩ here
    rw [coordinator] at coordinators
    exact (Nat.add_right_cancel coordinators).trans inv.coordinators
  · refine total_eq_zero fun j u hu => ?_
    change (u.stage.isParked (!s.barrier.sense)).toNat = 0
    cases arrived : u.stage.hasArrived s.barrier.sense with
    | true => rw [Stage.not_parked_of_hasArrived arrived, Bool.toNat_false]
    | false =>
      have out := (everyone j u hu).2
      rw [arrived] at out
      have idle := Stage.idle_of_errand?_eq_none (Stage.errand?_eq_none_of_inRendezvous out)
      rw [idle.2.2.2, Bool.toNat_false]
  · rw [if_neg (by decide)]
    exact remaining.trans total'.symm
  · intro other
    cases other
  · intro other
    cases other
  · intro _
    refine ⟨?_, fun j u hu => ?_⟩
    · change 0 < s.word.remaining
      omega
    · rw [(everyone j u hu).1, (everyone j u hu).2]
  · intro zero
    rw [scanners'] at zero
    cases zero
  · intro _
    have sets := total_changed (submitted p) g ⟨own, .passed c n e⟩ here
    have same : submitted p ⟨own, .passed c n e⟩ = submitted p ⟨own, .arriving c n e⟩ := by
      cases c <;> rfl
    rw [same] at sets
    rw [add_right_cancel sets]
    exact inv.unscanned (by rw [inv.gathering rfl]; decide)

/-- The last arrival at the second barrier. -/
lemma disperse {own : σ} {n : Nat} {e : Errand α σ} (inv : Rendezvous p held phase s)
    (here : s.threads[i]? = some ⟨own, .leaving n e⟩) (last : s.barrier.arrived + 1 = n)
    (sane : MutatorThread.Sane held s.shared.heap ⟨own, .departing e⟩) :
    Rendezvous p held .apart (s.changed i
      { s.common with barrier := ⟨0, !s.barrier.sense⟩ } ⟨own, .departing e⟩) := by
  have parties := inv.stages i _ here
  have now : phase = .assembled := by cases phase <;> first | rfl | cases parties
  subst now
  change n = s.word.remaining at parties
  let g : Common α ω := { s.common with barrier := ⟨0, !s.barrier.sense⟩ }
  have remaining := inv.remaining
  rw [if_neg nofun] at remaining
  have total := total_changed (fun u => held u.own) g ⟨own, .departing e⟩ here
  have total' := Nat.add_right_cancel total
  have left : s.count (Stage.hasLeft s.barrier.sense) = s.barrier.arrived := by
    rw [← inv.arrived]
    exact total_congr fun j u hu => congrArg Bool.toNat (Stage.hasLeft_eq (inv.stages j u hu))
  have saneAll := inv.sane_changed (g := g) here rfl sane
  have everyone := inv.all_arrived (by decide) here saneAll rfl Stage.inRendezvous_of_hasLeft left
    rfl rfl (last.trans parties)
  have places : ∀ (j : Nat) u, (s.changed i g ⟨own, .departing e⟩).threads[j]? = some u →
      u.stage.Admits .apart (!s.barrier.sense) s.word.remaining := by
    intro j u hu
    cases left : u.stage.hasLeft s.barrier.sense with
    | true => exact Stage.admits_apart left _
    | false =>
      have out := (everyone j u hu).2
      rw [left] at out
      exact Stage.admits_of_errand?_eq_none (Stage.errand?_eq_none_of_inRendezvous out) _ _ _
  have idle := fun j u hu => Stage.idle_of_admits_apart (places j u hu)
  have coordinators := count_changed Stage.isCoordinator g ⟨own, .departing e⟩ here
  have coordinators' := (Nat.add_right_cancel coordinators).trans inv.coordinators
  have no_coordinator : (s.changed i g ⟨own, .departing e⟩).count Stage.isCoordinator = 0 :=
    total_eq_zero fun j u hu => congrArg Bool.toNat (idle j u hu).1
  have ended : s.word.isRequested = false := by
    rw [no_coordinator] at coordinators'
    cases h : s.word.isRequested with
    | false => rfl
    | true =>
      rw [h] at coordinators'
      cases coordinators'
  have scanners := count_changed Stage.isScanner g ⟨own, .departing e⟩ here
  have scanners' := Nat.add_right_cancel scanners
  have no_scanner : (s.changed i g ⟨own, .departing e⟩).count Stage.isScanner = 0 :=
    total_eq_zero fun j u hu => congrArg Bool.toNat (idle j u hu).2.1
  constructor
  · exact inv.heap
  · exact saneAll
  · exact places
  · exact total'.trans inv.registered
  · exact coordinators'
  · exact total_eq_zero fun j u hu => congrArg Bool.toNat (idle j u hu).2.2
  · rw [if_pos rfl]
    have inside := count_changed Stage.inRendezvous g ⟨own, .departing e⟩ here
    have before : s.count Stage.inRendezvous = s.total fun u => held u.own :=
      total_congr fun j u hu => ((inv.assembled rfl).2 j u hu).symm
    exact remaining.trans (before.symm.trans (Nat.add_right_cancel inside).symm)
  · exact fun _ => ended
  · exact nofun
  · exact nofun
  · intro _
    exact inv.scanned (scanners'.symm.trans no_scanner)
  · intro some_left
    exact absurd no_scanner some_left

/-- Every lawful change keeps the rendezvous in order. -/
lemma change (inv : Rendezvous p held phase s) (here : s.threads[i]? = some t)
    (change : Change p held s.common t g t') (sane : t'.Sane held g.shared.heap) :
    ∃ phase', Rendezvous p held phase' (s.changed i g t') := by
  cases change with
  | outside before after same mutations =>
    exact ⟨phase, inv.outside here before after same mutations sane⟩
  | register gains ok =>
    obtain ⟨idle, none_left, idle', none_left', registered⟩ := GcWord.register_spec ok
    obtain rfl := inv.phase_of_idle idle none_left
    refine ⟨.apart, inv.recount here rfl rfl idle' (none_left'.trans none_left.symm) ?_ sane⟩
    rw [gains, registered]
    exact Nat.add_right_comm ..
  | deregister loses ok =>
    obtain ⟨done, counts⟩ := GcWord.deregister_spec ok
    obtain ⟨idle', remaining, registered⟩ := counts rfl
    change true = !s.word.isRequested at done
    have idle : s.word.isRequested = false := by simpa using done.symm
    have positive : 0 < held _ := Nat.lt_of_lt_of_eq (Nat.succ_pos _) loses
    have now : phase = .apart := by
      cases phase with
      | apart => rfl
      | gathering =>
        rw [inv.requested] at idle
        cases idle
      | assembled => exact absurd rfl (inv.phase_of_outside here rfl positive)
    subst now
    refine ⟨.apart, inv.recount here rfl rfl idle' remaining ?_ sane⟩
    change _ + 1 = s.word.registered at registered
    rw [← loses, ← registered]
    exact Nat.add_right_comm _ _ 1
  | join before registered requested => exact ⟨phase, inv.join here before registered requested sane⟩
  | elect registered ok =>
    rcases GcWord.start_spec ok with ⟨requested, joins, rfl⟩ |
      ⟨idle, none_left, elected, requested, remaining, counted⟩
    · rw [joins] at sane ⊢
      exact ⟨phase, inv.join here rfl registered requested sane⟩
    · obtain rfl := inv.phase_of_idle idle none_left
      rw [elected] at sane ⊢
      exact ⟨.gathering, inv.elect here none_left requested remaining counted sane⟩
  | prepare active => exact ⟨phase, inv.prepare here active sane⟩
  | skip idle =>
    have active := inv.not_idle here
    rw [show s.word.activeParticipants? = none from idle] at active
    cases active
  | submit => exact ⟨phase, inv.submit here sane⟩
  | arriveLast last => exact ⟨.assembled, inv.assemble here last sane⟩
  | arrive more =>
    have place := inv.stages i _ here
    have now : phase = .gathering := by cases phase <;> first | rfl | cases place
    subst now
    exact ⟨.gathering, inv.park here sane nofun ⟨rfl, place⟩ rfl rfl rfl rfl
      (beq_self_eq_true s.barrier.sense) rfl⟩
  | pass free => exact ⟨phase, inv.pass here free sane⟩
  | collect => exact ⟨phase, inv.scan here sane⟩
  | finish => exact ⟨phase, inv.finish here sane⟩
  | leaveLast last => exact ⟨.apart, inv.disperse here last sane⟩
  | leave more =>
    have place := inv.stages i _ here
    have now : phase = .assembled := by cases phase <;> first | rfl | cases place
    subst now
    exact ⟨.assembled, inv.park here sane nofun rfl rfl rfl rfl rfl
      (beq_self_eq_true s.barrier.sense) rfl⟩
  | passOut free => exact ⟨phase, inv.passOut here free sane⟩
  | depart ok => exact ⟨phase, inv.depart here ok sane⟩

/-- A step leaves the system alone, or it is a lawful change by some thread. -/
lemma step_cases (lawful : p.Lawful held) (inv : Rendezvous p held phase s) (i : Nat) :
    s.step p i = s ∨ ∃ t g t', s.threads[i]? = some t ∧ Change p held s.common t g t' ∧
      t'.Sane held g.shared.heap ∧ s.step p i = s.changed i g t' := by
  cases here : s.threads[i]? with
  | none =>
    exact .inl (step_of_none here)
  | some t =>
    rcases moves_step lawful inv.heap.sound here (inv.sane i t here) with same |
      ⟨g, t', change, sane, eq⟩
    · exact .inl same
    · exact .inr ⟨t, g, t', rfl, change, sane, eq⟩

/-- Every step of a lawful program keeps the rendezvous in order. -/
lemma step (lawful : p.Lawful held) (inv : Rendezvous p held phase s) (i : Nat) :
    ∃ phase', Rendezvous p held phase' (s.step p i) := by
  rcases inv.step_cases lawful i with same | ⟨t, g, t', here, change, sane, eq⟩
  · rw [same]
    exact ⟨phase, inv⟩
  · rw [eq]
    exact inv.change here change sane

omit [Payload α] in
lemma getElem?_start (h : Heap α) (world : ω) (threads : List σ) (j : Nat) :
    (MutatorSystem.start h world threads).threads[j]? =
      threads[j]?.map fun own => ⟨own, .between⟩ := by
  rw [MutatorSystem.start, List.getElem?_toArray, List.getElem?_map]

/-- At first no thread is registered. -/
lemma start {h : Heap α} (reachable : h.Reachable) (world : ω) {threads : List σ}
    (unregistered : ∀ own ∈ threads, held own = 0) :
    Rendezvous p held .apart (MutatorSystem.start h world threads) := by
  have each : ∀ (j : Nat) u, (MutatorSystem.start h world threads).threads[j]? = some u →
      held u.own = 0 ∧ u.stage = .between := by
    intro j u hu
    rw [getElem?_start, Option.map_eq_some_iff] at hu
    obtain ⟨own, mem, rfl⟩ := hu
    exact ⟨unregistered own (List.mem_of_getElem? mem), rfl⟩
  have counts : ∀ f : Stage α σ → Bool, f .between = false →
      (MutatorSystem.start h world threads).count f = 0 := by
    intro f out
    refine total_eq_zero fun j u hu => ?_
    rw [(each j u hu).2, out, Bool.toNat_false]
  obtain ⟨requested, remaining, registered⟩ := GcWord.initial_fields
  constructor
  · exact reachable
  · intro j u hu
    obtain ⟨own, stage⟩ := u
    obtain ⟨_, rfl⟩ := each j _ hu
    trivial
  · intro j u hu
    rw [(each j u hu).2]
    rfl
  · exact (total_eq_zero fun j u hu => (each j u hu).1).trans registered.symm
  · rw [counts _ rfl]
    exact congrArg Bool.toNat requested.symm
  · exact counts _ rfl
  · rw [if_pos rfl, counts _ rfl]
    exact remaining
  · exact fun _ => requested
  · exact nofun
  · exact nofun
  · exact fun _ => rfl
  · intro some_there
    exact absurd (counts _ rfl) some_there

end Rendezvous

namespace MutatorSystem

/-- The state after a number of steps of an unending schedule. -/
def run (p : Program α ω σ) (schedule : Nat → Nat) (s : MutatorSystem α ω σ) :
    Nat → MutatorSystem α ω σ
  | 0 => s
  | n + 1 => (run p schedule s n).step p (schedule n)

/-- Every finite schedule is the beginning of an unending one. -/
lemma run_eq_follow (p : Program α ω σ) (schedule : Nat → Nat) (s : MutatorSystem α ω σ) (n : Nat) :
    s.run p schedule n = s.follow p ((List.range n).map schedule) := by
  induction n with
  | zero => rfl
  | succ n ih =>
    rw [run, ih, follow, follow, followSchedule, followSchedule, List.range_succ, List.map_append,
      List.foldl_append]
    rfl

/-- A lawful program on a reachable heap, before any thread has registered. -/
structure Starts (p : Program α ω σ) (held : σ → Nat) (s : MutatorSystem α ω σ) : Prop where
  lawful : p.Lawful held
  start : ∃ (h : Heap α) (world : ω) (threads : List σ), h.Reachable ∧
    (∀ own ∈ threads, held own = 0) ∧ s = MutatorSystem.start h world threads

lemma Starts.rendezvous {s : MutatorSystem α ω σ} (starts : s.Starts p held) (schedule : Nat → Nat)
    (n : Nat) : ∃ phase, Rendezvous p held phase (s.run p schedule n) := by
  induction n with
  | zero =>
    obtain ⟨h, world, threads, reachable, unregistered, rfl⟩ := starts.start
    exact ⟨.apart, .start reachable world unregistered⟩
  | succ n ih =>
    obtain ⟨phase, inv⟩ := ih
    exact inv.step starts.lawful (schedule n)

end MutatorSystem

end CellMachine
