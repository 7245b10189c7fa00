import CellMachine.Proofs.Threads.AllocatingThreads
import CellMachine.Proofs.Threads.LoneMutator

/-!
# The outcome of parallel allocation

Who collects when, which threads share a cycle and where a node is put differ from schedule to
schedule. What does not differ: each thread keeps the same of its nodes and finds them intact, and
every cell that was taken is freed in the end, if anything is collected at all.
-/

namespace CellMachine

section General

variable {α ω σ : Type} [Payload α] {p : Program α ω σ} {held : σ → Nat} {phase : Phase}

namespace MutatorSystem

/-- No cycle goes on. -/
structure Asleep (s : MutatorSystem α ω σ) : Prop where
  idle : s.word.isRequested = false
  out : ∀ (j : Nat) u, s.threads[j]? = some u → u.stage.errand? = none

end MutatorSystem

namespace Rendezvous

open MutatorSystem

variable {s : MutatorSystem α ω σ} {i : Nat} {g : Common α ω} {t t' : MutatorThread α σ}

/-- While collection is disabled nobody starts a cycle. -/
lemma asleep_step (inv : Rendezvous p held phase s) (lawful : p.Lawful held)
    (disabled : s.shared.heap.gcEnabled = false) (asleep : s.Asleep) (i : Nat) :
    (s.step p i).Asleep := by
  rcases inv.step_cases lawful i with same | ⟨t, g, t', here, change, _, eq⟩
  · rw [same]
    exact asleep
  have before := asleep.out i t here
  rw [eq]
  have stays : g.word.isRequested = false → t'.stage.errand? = none → (s.changed i g t').Asleep :=
    fun idle out => ⟨idle, forall_changed here out asleep.out⟩
  cases change with
  | outside _ out => exact stays asleep.idle out
  | register _ ok => exact stays (GcWord.register_spec ok).2.2.1 rfl
  | deregister _ ok => exact stays ((GcWord.deregister_spec ok).2 rfl).1 rfl
  | join _ _ requested =>
    have idle := asleep.idle
    rw [show s.word.isRequested = true from requested] at idle
    cases idle
  | @elect own e =>
    have forgoes : s.step p i = s.forgo i e := by
      apply step_of_attempt
      rw [attempt, here]
      simp [disabled]
    obtain ⟨registered, sane⟩ := inv.sane i _ here
    have out := (Errand.sane_forgone registered sane).2.2
    rw [← eq, forgoes, forgo_eq here e]
    exact ⟨asleep.idle, forall_changed here out asleep.out⟩
  | _ => cases before

/-- When all threads have given their registrations back, the last cycle is over. -/
lemma deserted (inv : Rendezvous p held phase s)
    (nobody : ∀ (j : Nat) u, s.threads[j]? = some u → held u.own = 0) : s.Deserted := by
  have none_held : s.total (fun u => held u.own) = 0 := total_eq_zero nobody
  obtain rfl : phase = .apart := by
    by_contra busy
    have remaining := inv.remaining
    rw [if_neg busy, none_held] at remaining
    exact inv.some_left busy remaining
  have out : ∀ (j : Nat) u, s.threads[j]? = some u → u.stage.inRendezvous = false := by
    intro j u there
    by_contra inside
    have registered := registered_of_inRendezvous (inv.sane j u there) (Bool.not_eq_false _ ▸ inside)
    rw [nobody j u there] at registered
    cases registered
  constructor
  · exact inv.idle rfl
  · rw [inv.remaining, if_pos rfl]
    exact total_eq_zero fun j u there => congrArg Bool.toNat (out j u there)
  · rw [← inv.registered, none_held]
  · exact inv.arrived_eq_zero
  · exact inv.scanned inv.no_scanner

end Rendezvous

namespace Heap

variable {h : Heap α}

/-- Nothing stays in a heap that is collected without roots. -/
lemma Sound.liveCells_runCycle_empty (sound : h.Sound) (globals : h.globalRoots = []) :
    (h.runCycle [[]]).liveCells = 0 := by
  have none_there : ∀ w ∈ h.cycleRoots [[]], h.cellFor? w = none := by
    rintro w (⟨roots, mem, within⟩ | global)
    · obtain rfl := List.mem_singleton.mp mem
      cases within
    · rw [globals] at global
      cases global
  rw [← (sound.runCycle [[]]).length_remains, (sound.runCycle [[]]).remains_eq_nil, List.length_nil]
  exact fun a live => not_reaches none_there a (sound.isLive_runCycle_iff.mp live)

end Heap

end General

namespace AllocationPlan

open MutatorSystem

variable {plan : AllocationPlan} {settings : Settings} {schedule : Nat → Nat} {n : Nat}
  {s : MutatorSystem Node Unit AllocatingThread} {i : Nat} {g : Common Node Unit}
  {t t' : MutatorThread Node AllocatingThread}

/-- All records are right, and as many cells have been taken as nodes have been made. -/
structure Tallied (plan : AllocationPlan) (settings : Settings)
    (s : MutatorSystem Node Unit AllocatingThread) : Prop where
  threads : ∀ (i : Nat) t, s.threads[i]? = some t → plan.Recorded i s.shared.heap t.own
  taken : s.shared.heap.taken = s.total fun t => t.own.made
  enabled : s.shared.heap.gcEnabled = settings.gcEnabled
  settings : s.shared.heap.settings = settings
  globalRoots : s.shared.heap.globalRoots = []

lemma Tallied.update (tallied : plan.Tallied settings s) (here : s.threads[i]? = some t)
    (switches : s.shared.heap.SameSwitches g.shared.heap)
    (taken : g.shared.heap.taken + t.own.made = s.shared.heap.taken + t'.own.made)
    (own : plan.Recorded i g.shared.heap t'.own)
    (others : ∀ (j : Nat) u, s.threads[j]? = some u → u.own.phase.IsWorking →
      ∀ k ∈ u.own.kept, g.shared.heap.payload? k.2 = s.shared.heap.payload? k.2) :
    plan.Tallied settings (s.changed i g t') := by
  constructor
  · intro j u there
    rw [getElem?_changed here] at there
    split at there
    · rename_i mover
      obtain rfl := Option.some.inj there
      rw [← mover]
      exact own
    · exact (tallied.threads j u there).heap switches.settings (others j u there)
  · have sums := total_changed (fun t => t.own.made) g t' here
    rw [← tallied.taken] at sums
    change g.shared.heap.taken = _
    omega
  · exact switches.enabled.trans tallied.enabled
  · exact switches.settings.trans tallied.settings
  · exact switches.globalRoots.trans tallied.globalRoots

lemma Tallied.strides (tallied : plan.Tallied settings s) (sound : s.shared.heap.Sound)
    (here : s.threads[i]? = some t)
    (strides : plan.Strides s.shared.heap t.own t'.own g.shared.heap) :
    plan.Tallied settings (s.changed i g t') := by
  refine tallied.update here strides.sameSwitches (strides.taken sound)
    (strides.recorded sound (tallied.threads i t here)) fun j u there working k kept => ?_
  have before := (tallied.threads j u there).holds working k kept
  rw [before]
  exact strides.payload sound before

lemma Tallied.cycle (tallied : plan.Tallied settings s) (sound : s.shared.heap.Sound)
    (here : s.threads[i]? = some t) (same : t'.own = t.own) {inputs : List RootSet}
    (shared : g.shared = { s.shared with heap := s.shared.heap.runCycle inputs })
    (reported : ∀ (j : Nat) u, s.threads[j]? = some u → u.own.phase.IsWorking →
      ∀ k ∈ u.own.kept, k.2 ∈ s.shared.heap.cycleRoots inputs) :
    plan.Tallied settings (s.changed i g t') := by
  have heap : g.shared.heap = s.shared.heap.runCycle inputs := by rw [shared]
  have switches := sound.sameSwitches_runCycle inputs
  have kept : ∀ (j : Nat) u, s.threads[j]? = some u → u.own.phase.IsWorking →
      ∀ k ∈ u.own.kept,
        (s.shared.heap.runCycle inputs).payload? k.2 = s.shared.heap.payload? k.2 := by
    intro j u there working k mem
    have payload := (tallied.threads j u there).holds working k mem
    have live := Heap.cellFor?_of_isLive (Heap.isLive_of_payload? payload)
    exact sound.payload?_runCycle_of_reaches (.root (reported j u there working k mem) live)
  rw [← heap] at switches kept
  refine tallied.update here switches ?_ ?_ kept
  · rw [heap, sound.taken_runCycle, same]
  · rw [same]
    exact (tallied.threads i t here).heap switches.settings (kept i t here)

/-- Threads that follow the plan on a new heap. -/
structure Opens (plan : AllocationPlan) (settings : Settings)
    (s : MutatorSystem Node Unit AllocatingThread) : Prop where
  /-- A plan that keeps every zeroth node divides by zero. -/
  keeps : 0 < plan.keep
  start : ∃ (place : Nat → Nat → Nat) (heap : Heap Node),
    Apart place settings.sizeClasses.length ∧ Heap.createAt place settings = .ok heap ∧
      s = plan.system heap

lemma getElem?_system (heap : Heap Node) : (plan.system heap).threads[i]? = some t ↔
    i < plan.threads ∧ t = ⟨initialThread i, .between⟩ := by
  rw [system, Rendezvous.getElem?_start, List.getElem?_map]
  by_cases known : i < plan.threads
  · simp [known, eq_comm]
  · simp [known]

namespace Opens

lemma starts (opens : plan.Opens settings s) : s.Starts plan.program held := by
  obtain ⟨place, heap, apart, made, rfl⟩ := opens.start
  refine ⟨plan.lawful, heap, (), _, .create apart made, fun t mem => ?_, rfl⟩
  obtain ⟨i, _, rfl⟩ := List.mem_map.mp mem
  rfl

lemma size (opens : plan.Opens settings s) : s.threads.size = plan.threads := by
  obtain ⟨_, heap, _, _, rfl⟩ := opens.start
  simp [system, MutatorSystem.start]

/-- At a collection every thread that has not begun to leave has reported its roots. -/
lemma reported (opens : plan.Opens settings s)
    (collects : (s.run plan.program schedule n).Collects (schedule n))
    (tallied : plan.Tallied settings (s.run plan.program schedule n)) (j : Nat)
    (u : MutatorThread Node AllocatingThread)
    (there : (s.run plan.program schedule n).threads[j]? = some u) (working : u.own.phase.IsWorking)
    (k : Nat × Address) (kept : k ∈ u.own.kept) :
    k.2 ∈ (s.run plan.program schedule n).shared.heap.cycleRoots
      (s.run plan.program schedule n).inputs.reverse := by
  have follows := opens.starts.follows schedule n j u there
  have guarded := opens.starts.guarded_subset collects
  obtain ⟨_, _, _, here⟩ := collects
  obtain ⟨phase, inv⟩ := opens.starts.rendezvous schedule n
  obtain rfl := inv.assembled_of_collecting here
  have recorded := tallied.threads j u there
  have known : k.2 ∈ references (plan.program.roots u.own) :=
    mem_references.mpr (List.mem_map.mpr ⟨k, kept, rfl⟩)
  by_cases arriving : u.own.phase = .arriving
  · have ids := recorded.ids
    rw [recorded.new arriving] at ids
    have none_kept : u.own.kept = [] := List.map_eq_nil_iff.mp ids
    rw [none_kept] at kept
    cases kept
  · have registered : 0 < held u.own := by
      rw [held]
      cases phase : u.own.phase <;> simp_all [AllocatorPhase.IsWorking]
    obtain ⟨e, inside⟩ := (inv.registered_iff there).mp registered
    refine guarded (.inl ⟨j, u, e, there, registered, inside, ?_⟩)
    have move := follows e.move (Stage.move?_of_errand inside)
    have moves := plan.moves u.own
    rw [move] at moves
    cases e with
    | departure next =>
      cases moves with
      | leave phase =>
        rw [phase] at working
        exact working.elim
    | _ => exact List.mem_append_left _ known

lemma tallied (opens : plan.Opens settings s) (schedule : Nat → Nat) (n : Nat) :
    plan.Tallied settings (s.run plan.program schedule n) := by
  induction n with
  | zero =>
    obtain ⟨place, heap, apart, made, rfl⟩ := opens.start
    obtain ⟨taken, same, enabled, globals⟩ := Heap.taken_createAt apart made
    refine ⟨fun i t here => ?_, taken.trans (total_eq_zero fun i t here => ?_).symm, enabled, same,
      globals⟩
    · obtain ⟨_, rfl⟩ := (getElem?_system heap).mp here
      exact recorded_initial heap i
    · obtain ⟨_, rfl⟩ := (getElem?_system heap).mp here
      rfl
  | succ n ih =>
    obtain ⟨phase, inv⟩ := opens.starts.rendezvous schedule n
    by_cases collects : (s.run plan.program schedule n).Collects (schedule n)
    · obtain ⟨t, g, t', here, same, _, shared, eq⟩ := step_of_collects (p := plan.program) collects
      rw [MutatorSystem.run, eq]
      exact ih.cycle inv.heap.sound here same shared (opens.reported collects ih)
    · rcases opens.starts.beats collects with same | ⟨t, g, t', here, beat, eq⟩
      · rw [same]
        exact ih
      · rw [eq]
        exact ih.strides inv.heap.sound here (strides_of_beat beat)

/-- While collection is disabled no cycle is run. -/
lemma asleep (opens : plan.Opens settings s) (disabled : settings.gcEnabled = false)
    (schedule : Nat → Nat) (n : Nat) : (s.run plan.program schedule n).Asleep := by
  induction n with
  | zero =>
    obtain ⟨_, heap, _, _, rfl⟩ := opens.start
    refine ⟨GcWord.initial_fields.1, fun i t here => ?_⟩
    obtain ⟨_, rfl⟩ := (getElem?_system heap).mp here
    rfl
  | succ n ih =>
    obtain ⟨phase, inv⟩ := opens.starts.rendezvous schedule n
    have off := (opens.tallied schedule n).enabled.trans disabled
    exact inv.asleep_step plan.lawful off ih (schedule n)

lemma cellsFreed_of_disabled (opens : plan.Opens settings s) (disabled : settings.gcEnabled = false)
    (schedule : Nat → Nat) (n : Nat) :
    (s.run plan.program schedule n).shared.heap.stats.cellsFreed = 0 := by
  induction n with
  | zero =>
    obtain ⟨place, heap, apart, made, rfl⟩ := opens.start
    have taken := (Heap.taken_createAt apart made).1
    rw [Heap.taken] at taken
    change heap.stats.cellsFreed = 0
    omega
  | succ n ih =>
    have asleep := opens.asleep disabled schedule n
    have idle : ¬ (s.run plan.program schedule n).Collects (schedule n) := by
      rintro ⟨own, k, e, here⟩
      cases asleep.out _ _ here
    obtain ⟨phase, inv⟩ := opens.starts.rendezvous schedule n
    rcases opens.starts.beats idle with same | ⟨t, g, t', _, beat, eq⟩
    · rw [same]
      exact ih
    · rw [eq]
      change g.shared.heap.stats.cellsFreed = 0
      rw [(strides_of_beat beat).stats inv.heap.sound]
      exact ih

end Opens

lemma halted_of_finished (finished : s.finished plan.program = true) (i : Nat)
    (t : MutatorThread Node AllocatingThread) (here : s.threads[i]? = some t) :
    t.stage = .between ∧ t.own.phase = .gone := by
  obtain ⟨between, halt⟩ := finished_iff.mp finished i t here
  have moves := plan.moves t.own
  rw [halt] at moves
  cases moves with
  | halt phase => exact ⟨between, phase⟩

/-- What the exercise shows, whatever happened before. -/
def expected (plan : AllocationPlan) (settings : Settings) : AllocationOutcome where
  kept := List.replicate plan.threads ((plan.nodes + plan.keep - 1) / plan.keep, true)
  ran := settings.gcEnabled
  freed := if settings.gcEnabled then plan.threads * plan.nodes else 0
  live := if settings.gcEnabled then 0 else plan.threads * plan.nodes
  participants := 0

namespace Opens

lemma deserted (opens : plan.Opens settings s)
    (finished : (s.run plan.program schedule n).finished plan.program = true) :
    (s.run plan.program schedule n).Deserted := by
  obtain ⟨phase, inv⟩ := opens.starts.rendezvous schedule n
  refine inv.deserted fun j u there => ?_
  rw [held, (halted_of_finished finished j u there).2]

lemma made_of_finished (opens : plan.Opens settings s) (fits : plan.Fits settings)
    (finished : (s.run plan.program schedule n).finished plan.program = true) (i : Nat)
    (t : MutatorThread Node AllocatingThread)
    (here : (s.run plan.program schedule n).threads[i]? = some t) :
    t.own.made = plan.nodes ∧ t.own.intact = true := by
  have tallied := opens.tallied schedule n
  have recorded := tallied.threads i t here
  rw [← tallied.settings] at fits
  exact recorded.done (by rw [(halted_of_finished finished i t here).2]; exact id)
    (recorded.fault fits)

/-- All cells that are taken in the end. -/
lemma taken_of_finished (opens : plan.Opens settings s) (fits : plan.Fits settings)
    (finished : (s.run plan.program schedule n).finished plan.program = true) :
    (s.run plan.program schedule n).shared.heap.taken = plan.threads * plan.nodes := by
  have same : (s.run plan.program schedule n).total (fun t => t.own.made) =
      (s.run plan.program schedule n).total fun _ => plan.nodes :=
    total_congr fun i t here => (opens.made_of_finished fits finished i t here).1
  rw [(opens.tallied schedule n).taken, same, total, List.map_const', List.sum_replicate,
    Array.length_toList, opens.starts.size_run, opens.size, smul_eq_mul]

lemma outcome_of_finished (opens : plan.Opens settings s) (fits : plan.Fits settings)
    (finished : (s.run plan.program schedule n).finished plan.program = true) :
    outcome (s.run plan.program schedule n) = plan.expected settings := by
  obtain ⟨phase, inv⟩ := opens.starts.rendezvous schedule n
  have sound := inv.heap.sound
  have tallied := opens.tallied schedule n
  have taken := opens.taken_of_finished fits finished
  have kept : (s.run plan.program schedule n).threads.toList.map
      (fun t => (t.own.kept.length, t.own.intact)) =
      List.replicate plan.threads ((plan.nodes + plan.keep - 1) / plan.keep, true) := by
    refine List.eq_replicate_iff.mpr ⟨?_, fun x mem => ?_⟩
    · rw [List.length_map, Array.length_toList, opens.starts.size_run, opens.size]
    · obtain ⟨t, mem', rfl⟩ := List.mem_map.mp mem
      obtain ⟨i, here⟩ := mem_threads.mp mem'
      obtain ⟨made, intact⟩ := opens.made_of_finished fits finished i t here
      have ids := congrArg List.length (tallied.threads i t here).ids
      rw [List.length_map, length_keptIds opens.keeps, made] at ids
      rw [ids, intact]
  have participants : (s.run plan.program schedule n).word.participants.toNat = 0 :=
    (opens.deserted finished).left
  rw [outcome, expected, kept, participants, Heap.collect, tallied.enabled]
  cases enabled : settings.gcEnabled with
  | true =>
    have none_left := sound.liveCells_runCycle_empty tallied.globalRoots
    have same := sound.taken_runCycle [[]]
    rw [taken, Heap.taken, none_left, Nat.add_zero] at same
    simp [none_left, same]
  | false =>
    have freed := opens.cellsFreed_of_disabled enabled schedule n
    rw [Heap.taken, freed, Nat.zero_add] at taken
    simp [freed, taken]

/-- Under a fair schedule all threads come to their end. -/
lemma exists_finished (opens : plan.Opens settings s) (fair : Fair plan.threads schedule) :
    ∃ n, ∀ m, n ≤ m → (s.run plan.program schedule m).finished plan.program = true := by
  rw [← opens.size] at fair
  obtain ⟨n, rests⟩ := opens.starts.comesToRest plan.progresses fair
  refine ⟨n, fun m later => finished_iff.mpr ?_⟩
  have rest := rests m later
  obtain ⟨phase, inv⟩ := opens.starts.rendezvous schedule m
  -- no thread of the plan polls
  have still : ∀ (i : Nat) t, (s.run plan.program schedule m).threads[i]? = some t →
      t.stage = .between ∧ (plan.program.move t.own = .halt ∨
        ∃ next, plan.program.move t.own = .register next ∧
          (s.run plan.program schedule m).word.registered + 1 = 2 ^ 24) := by
    intro i t here
    obtain ⟨between, halt | full |
      ⟨_, t', _, ⟨_, _, _, ⟨safepoint, _⟩ | ⟨_, _, _, _, safepoint⟩⟩, _⟩⟩ := rest.threads i t here
    · exact ⟨between, .inl halt⟩
    · exact ⟨between, .inr full⟩
    · have moves := plan.moves t.own
      rw [safepoint] at moves
      cases moves
    · have moves := plan.moves t'.own
      rw [safepoint] at moves
      cases moves
  have nobody : (s.run plan.program schedule m).total (fun t => held t.own) = 0 := by
    refine total_eq_zero fun i t here => ?_
    rcases (still i t here).2 with halt | ⟨next, register, _⟩
    · exact plan.progresses.halt t.own halt
    · have gains := plan.lawful.register t.own next register
      have single := plan.progresses.single next
      omega
  rw [inv.registered] at nobody
  intro i t here
  obtain ⟨between, halt | ⟨_, _, full⟩⟩ := still i t here
  · exact ⟨between, halt⟩
  · rw [nobody] at full
    cases full

/-- So few threads do not overflow the count of registrations. -/
lemma register_ne_overflow (opens : plan.Opens settings s) (few : plan.threads < 2 ^ 24)
    {i : Nat} {t : MutatorThread Node AllocatingThread}
    (here : (s.run plan.program schedule n).threads[i]? = some t) (arriving : t.own.phase = .arriving) :
    (s.run plan.program schedule n).word.register ≠ .error .threadOverflow := by
  intro overflow
  rcases GcWord.register_refused overflow with ⟨blocked, _⟩ | ⟨_, full⟩
  · cases blocked
  have unregistered : held t.own = 0 := by rw [held, arriving]
  have fewer := opens.starts.registered_lt plan.progresses.single here unregistered
  rw [opens.size] at fewer
  omega

end Opens

/-- What does not depend on the schedule. -/
structure SameOutcome (plan : AllocationPlan) (settings : Settings) (schedule : Nat → Nat)
    (s : MutatorSystem Node Unit AllocatingThread) : Prop where
  /-- As long as a thread has not begun to leave, it keeps every so many-th of its nodes, from the
  first, and finds each where it was put. -/
  kept : ∀ n (i : Nat) t, (s.run plan.program schedule n).threads[i]? = some t →
    t.own.phase.IsWorking → t.own.kept.map Prod.fst = plan.keptIds i t.own.made ∧
      ∀ k ∈ t.own.kept,
        (s.run plan.program schedule n).shared.heap.payload? k.2 = some (plan.node k.1)
  /-- If a node fits a size class, no thread meets a fault, -/
  faultless : plan.Fits settings → ∀ n (i : Nat) t,
    (s.run plan.program schedule n).threads[i]? = some t → t.own.fault = none
  /-- nor is there one at registration, if the threads can be counted. -/
  admitted : plan.threads < 2 ^ 24 → ∀ n (i : Nat) t,
    (s.run plan.program schedule n).threads[i]? = some t → t.own.phase = .arriving →
      (s.run plan.program schedule n).word.register ≠ .error .threadOverflow
  /-- No thread fails because a count is out of range. -/
  counted : plan.threads < 2 ^ 24 → ∀ n i,
    (s.run plan.program schedule n).failure? plan.program i = none
  /-- All threads come to their end. -/
  ends : Fair plan.threads schedule → ∃ n, ∀ m, n ≤ m →
    (s.run plan.program schedule m).finished plan.program = true
  /-- Then no thread is registered and no participant is outstanding, -/
  deserted : ∀ n, (s.run plan.program schedule n).finished plan.program = true →
    (s.run plan.program schedule n).Deserted
  /-- which is still so when one more thread has come to collect without roots, -/
  visited : ∀ n, (s.run plan.program schedule n).finished plan.program = true →
    ∃ k after, turns k (s.run plan.program schedule n).visited = after ∧ after.Deserted ∧
      after.shared.heap = ((s.run plan.program schedule n).shared.heap.collect [[]]).2 ∧
      after.threads = #[⟨.gone settings.gcEnabled, .between⟩]
  /-- and all totals are as expected. -/
  totals : plan.Fits settings → ∀ n,
    (s.run plan.program schedule n).finished plan.program = true →
      outcome (s.run plan.program schedule n) = plan.expected settings

/-- Whatever the schedule, the threads of a plan come to the same outcome. -/
theorem sameOutcome (opens : plan.Opens settings s) (schedule : Nat → Nat) :
    plan.SameOutcome settings schedule s := by
  constructor
  · intro n i t here working
    have recorded := (opens.tallied schedule n).threads i t here
    exact ⟨recorded.ids, recorded.holds working⟩
  · intro fits n i t here
    have tallied := opens.tallied schedule n
    rw [← tallied.settings] at fits
    exact (tallied.threads i t here).fault fits
  · exact fun few n i t here arriving => opens.register_ne_overflow few here arriving
  · exact fun few n i => opens.starts.failure?_eq_none plan.progresses.single
      (by rwa [opens.size]) schedule n i
  · exact fun fair => opens.exists_finished fair
  · exact fun n finished => opens.deserted finished
  · intro n finished
    obtain ⟨k, after, turns_eq, deserted, shared, threads⟩ := (opens.deserted finished).visit
    refine ⟨k, after, turns_eq, deserted, by rw [shared], ?_⟩
    rw [threads, Heap.collect, (opens.tallied schedule n).enabled]
    cases settings.gcEnabled <;> rfl
  · exact fun fits n finished => opens.outcome_of_finished fits finished

/-- Two threads make three nodes each, keep the first and the third, and collect after the second.
The nodes are larger than usual. -/
def pair : AllocationPlan where
  threads := 2
  nodes := 3
  keep := 2
  collectEvery := 2
  size := 40
  align := 16

/-- If they take turns, they come to the outcome that all schedules have. -/
theorem sameOutcome_pair : ∃ s, pair.Opens .standard s ∧ pair.SameOutcome .standard (· % 2) s ∧
    ∃ n, outcome (s.run pair.program (· % 2) n) = ⟨[(2, true), (2, true)], true, 6, 0, 0⟩ := by
  obtain ⟨heap, made⟩ : ∃ heap : Heap Node, Heap.create .standard = .ok heap := ⟨_, rfl⟩
  have opens : pair.Opens .standard (pair.system heap) :=
    ⟨by decide, _, heap, apart_scatteredBlocks _, made, rfl⟩
  have same := sameOutcome opens (· % 2)
  obtain ⟨n, finished⟩ := same.ends (fair_roundRobin 2)
  have fits : pair.Fits .standard := .inr (by decide)
  exact ⟨_, opens, same, n, same.totals fits n (finished n le_rfl)⟩

end AllocationPlan

end CellMachine
