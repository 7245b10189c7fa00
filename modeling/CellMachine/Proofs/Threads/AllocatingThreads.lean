import CellMachine.Proofs.Heap.Balance
import CellMachine.Proofs.Threads.ComingToRest
import CellMachine.Sessions.ParallelAllocation

/-!
# What a thread of the exercise keeps

A thread that follows an allocation plan keeps a record of the nodes it wants to find again. The
record is right as long as the thread has not begun to leave: it names every so many-th of the nodes
made so far, and each of them is where it was put.
-/

namespace CellMachine

namespace Heap

variable {α : Type} {h h' : Heap α} {c : Nat} [Payload α]

/-- How many cells have been taken so far: those that live and those that were freed. -/
def taken (h : Heap α) : Nat := h.stats.cellsFreed + h.liveCells

omit [Payload α] in
lemma Sound.taken_room (sound : h.Sound) (made : h' = h.prewarm c ∨ h' = h.grow c) :
    h'.taken = h.taken := by
  rcases made with rfl | rfl
  · exact congrArg (h.stats.cellsFreed + ·) ((sound.loses_prewarm c).liveCells sound).symm
  · exact congrArg (h.stats.cellsFreed + ·) ((sound.loses_grow c).liveCells sound).symm

lemma Sound.taken_allocateIn (sound : h.Sound) {payload : α} (fits : h.classOf payload = .ok c) :
    (h.allocateIn c payload).2.taken = h.taken + 1 := by
  have gains : h.Gains id (h.allocateIn c payload).2 [payload] :=
    sound.gains_allocateIn (classOf_lt sound fits) payload
  have lengths := gains.remains.length_eq
  rw [List.length_map, List.length_map, gains.sound.length_remains, List.singleton_append,
    List.length_cons, sound.length_remains] at lengths
  rw [taken, taken, gains.stats, lengths]
  rfl

/-- What a cycle frees was taken before. -/
lemma Sound.taken_runCycle (sound : h.Sound) (inputs : List RootSet) :
    (h.runCycle inputs).taken = h.taken := by
  have freed := (sound.cycleBooks inputs).freed
  rw [(sound.cycleBooks inputs).marked] at freed
  rw [taken, taken, (sound.totals_runCycle inputs).2]
  omega

omit [Payload α] in
lemma taken_createAt {place : Nat → Nat → Nat} {settings : Settings}
    (apart : Apart place settings.sizeClasses.length) (made : createAt place settings = .ok h) :
    h.taken = 0 ∧ h.settings = settings ∧ h.gcEnabled = settings.gcEnabled ∧
      h.globalRoots = [] := by
  have sound := sound_createAt apart made
  have empty := sound.remains_eq_nil (not_isLive_createAt apart made)
  have live : h.liveCells = 0 := by rw [← sound.length_remains, empty, List.length_nil]
  rw [taken, live]
  rw [createAt] at made
  split at made
  · cases made
  · cases made
    exact ⟨rfl, rfl, rfl, rfl⟩

end Heap

/-- A thread in this phase has not begun to leave. -/
def AllocatorPhase.IsWorking : AllocatorPhase → Prop
  | leaving | gone => False
  | _ => True

namespace AllocationPlan

variable {plan : AllocationPlan} {settings : Settings} {h h' : Heap Node} {t t' : AllocatingThread}
  {thread : Nat}

variable (plan) in
/-- The numbers of the nodes that a thread is to keep when it has made so many, latest first. -/
def keptIds (thread made : Nat) : List Nat :=
  (((List.range made).filter fun k => k % plan.keep == 0).map (plan.nodeId thread)).reverse

lemma keptIds_succ (thread made : Nat) : plan.keptIds thread (made + 1) =
    if made % plan.keep == 0 then plan.nodeId thread made :: plan.keptIds thread made
    else plan.keptIds thread made := by
  rw [keptIds, keptIds, List.range_succ, List.filter_append]
  cases kept : made % plan.keep == 0 <;> simp [kept]

/-- Every so many-th node, from the first. -/
lemma length_keptIds (positive : 0 < plan.keep) (thread made : Nat) :
    (plan.keptIds thread made).length = (made + plan.keep - 1) / plan.keep := by
  induction made with
  | zero => exact (Nat.div_eq_of_lt (by omega)).symm
  | succ made ih =>
    have one_more : made + 1 + plan.keep - 1 = made + plan.keep - 1 + 1 := by omega
    have sum : made + plan.keep - 1 + 1 = made + plan.keep := by omega
    rw [keptIds_succ, one_more, Nat.succ_div, ← ih, sum]
    by_cases multiple : made % plan.keep = 0
    · have divides : plan.keep ∣ made + plan.keep :=
        Dvd.dvd.add (Nat.dvd_of_mod_eq_zero multiple) (dvd_refl _)
      simp [multiple, divides]
    · have not_dvd : ¬ plan.keep ∣ made + plan.keep := fun divides =>
        multiple (Nat.mod_eq_zero_of_dvd ((Nat.dvd_add_left (dvd_refl _)).mp divides))
      simp [multiple, not_dvd]

inductive Moves (plan : AllocationPlan) (t : AllocatingThread) :
    Move Node Unit AllocatingThread → Prop where
  | arrive (phase : t.phase = .arriving) : Moves plan t (.register { t with phase := .allocating })
  | node (phase : t.phase = .allocating) (more : t.made < plan.nodes) :
      Moves plan t (.allocate (plan.node (plan.nodeId t.thread t.made)) (plan.allocated t))
  | last (phase : t.phase = .allocating) (all : plan.nodes ≤ t.made) :
      Moves plan t (.update fun s => ({ t with phase := .leaving, intact := check t s.heap }, s))
  | collect (phase : t.phase = .collecting) :
      Moves plan t (.collect fun _ => { t with phase := .allocating })
  | leave (phase : t.phase = .leaving) : Moves plan t (.deregister { t with phase := .gone })
  | halt (phase : t.phase = .gone) : Moves plan t .halt

lemma moves (plan : AllocationPlan) (t : AllocatingThread) :
    plan.Moves t (plan.program.move t) := by
  obtain ⟨thread, phase, made, kept, intact, fault⟩ := t
  cases phase with
  | arriving => exact .arrive rfl
  | allocating =>
    rw [program]
    dsimp only
    split
    · rename_i more
      exact .node rfl more
    · rename_i all
      exact .last rfl (Nat.le_of_not_lt all)
  | collecting => exact .collect rfl
  | leaving => exact .leave rfl
  | gone => exact .halt rfl

/-- How many registrations a thread holds. -/
def held (t : AllocatingThread) : Nat :=
  match t.phase with
  | .arriving | .gone => 0
  | _ => 1

/-- The calls that a thread has ahead, or more. -/
def ahead (plan : AllocationPlan) (t : AllocatingThread) : Nat :=
  match t.phase with
  | .arriving | .collecting => 2 * (plan.nodes - t.made) + 3
  | .allocating => 2 * (plan.nodes - t.made) + 2
  | .leaving => 1
  | .gone => 0

lemma afterNode_cases (plan : AllocationPlan) (t : AllocatingThread) :
    plan.afterNode t = .allocating ∨ plan.afterNode t = .collecting := by
  rw [afterNode]
  split
  · exact .inr rfl
  · exact .inl rfl

lemma phase_allocated (plan : AllocationPlan) (t : AllocatingThread) (result : Except HeapFault Address) :
    (∃ f, result = .error f ∧
      plan.allocated t result = { t with phase := .leaving, fault := some f }) ∨
    ((plan.allocated t result).made = t.made + 1 ∧
      ((plan.allocated t result).phase = .allocating ∨
        (plan.allocated t result).phase = .collecting)) := by
  cases result with
  | error f => exact .inl ⟨f, rfl, rfl⟩
  | ok a =>
    exact .inr ⟨rfl, plan.afterNode_cases _⟩

lemma held_allocated (t : AllocatingThread) (result : Except HeapFault Address) :
    held (plan.allocated t result) = 1 := by
  rcases plan.phase_allocated t result with ⟨f, _, eq⟩ | ⟨_, phase | phase⟩
  · rw [eq]
    rfl
  · rw [held, phase]
  · rw [held, phase]

lemma lawful (plan : AllocationPlan) : plan.program.Lawful held := by
  constructor
  · intro t next move
    have moves := plan.moves t
    rw [move] at moves
    cases moves with
    | arrive phase => simp [held, phase]
  · intro t payload next move
    have moves := plan.moves t
    rw [move] at moves
    cases moves with
    | node phase =>
      have registered : held t = 1 := by rw [held, phase]
      exact ⟨registered ▸ Nat.one_pos, fun result => (held_allocated t result).trans registered.symm⟩
  · intro t next move
    have moves := plan.moves t
    rw [move] at moves
    cases moves with
    | collect phase => simp [held, phase]
  · intro t next move
    have moves := plan.moves t
    rw [move] at moves
    cases moves
  · intro t act move s
    have moves := plan.moves t
    rw [move] at moves
    cases moves with
    | last phase => exact ⟨by simp [held, phase], .refl⟩
  · intro t next move
    have moves := plan.moves t
    rw [move] at moves
    cases moves with
    | leave phase => simp [held, phase]

lemma progresses (plan : AllocationPlan) : plan.program.Progresses held plan.ahead := by
  constructor
  · intro t
    rw [held]
    split <;> decide
  · intro t move
    have moves := plan.moves t
    rw [move] at moves
    cases moves with
    | halt phase => simp [held, phase]
  · intro t next move
    have moves := plan.moves t
    rw [move] at moves
    cases moves with
    | arrive phase => simp [ahead, phase]
  · intro t payload next move result
    have moves := plan.moves t
    rw [move] at moves
    cases moves with
    | node phase more =>
      rcases plan.phase_allocated t result with ⟨f, _, eq⟩ | ⟨made, after | after⟩
      · simp [eq, ahead, phase]
      · simp only [ahead, phase, after, made]
        omega
      · simp only [ahead, phase, after, made]
        omega
  · intro t next move ran
    have moves := plan.moves t
    rw [move] at moves
    cases moves with
    | collect phase => simp [ahead, phase]
  · intro t next move
    have moves := plan.moves t
    rw [move] at moves
    cases moves
  · intro t act move shared
    have moves := plan.moves t
    rw [move] at moves
    cases moves with
    | last phase => exact .inl (by simp [ahead, phase])
  · intro t next move
    have moves := plan.moves t
    rw [move] at moves
    cases moves with
    | leave phase => simp [ahead, phase]

/-- A step that is no collection, as it concerns the heap and the thread that took it. -/
inductive Strides (plan : AllocationPlan) (h : Heap Node) (t : AllocatingThread) :
    AllocatingThread → Heap Node → Prop where
  | stay : Strides plan h t t h
  | room {c : Nat} {heap : Heap Node} (made : heap = h.prewarm c ∨ heap = h.grow c) :
      Strides plan h t t heap
  | arrive (phase : t.phase = .arriving) : Strides plan h t { t with phase := .allocating } h
  | node {c : Nat} (phase : t.phase = .allocating) (more : t.made < plan.nodes)
      (fits : h.classOf (plan.node (plan.nodeId t.thread t.made)) = .ok c) :
      Strides plan h t
        (plan.allocated t (h.allocateIn c (plan.node (plan.nodeId t.thread t.made))).1)
        (h.allocateIn c (plan.node (plan.nodeId t.thread t.made))).2
  | refuse {f : HeapFault} (phase : t.phase = .allocating) (more : t.made < plan.nodes)
      (fault : h.classOf (plan.node (plan.nodeId t.thread t.made)) = .error f) :
      Strides plan h t (plan.allocated t (.error f)) h
  | last (phase : t.phase = .allocating) (all : plan.nodes ≤ t.made) :
      Strides plan h t { t with phase := .leaving, intact := check t h } h
  | resume (phase : t.phase = .collecting) : Strides plan h t { t with phase := .allocating } h
  | leave (phase : t.phase = .leaving) : Strides plan h t { t with phase := .gone } h

lemma strides_of_beat {shared shared' : Shared Node Unit}
    (beat : Beat plan.program shared t t' shared') :
    plan.Strides shared.heap t t' shared'.heap := by
  have moves := plan.moves t
  cases beat with
  | stay => exact .stay
  | room made => exact .room made
  | update move =>
    rw [move] at moves
    cases moves with
    | last phase all => exact .last phase all
  | claim move fits =>
    rw [move] at moves
    cases moves with
    | node phase more => exact .node phase more fits
  | refuse move fault =>
    rw [move] at moves
    cases moves with
    | node phase more => exact .refuse phase more fault
  | answer ends =>
    generalize plan.program.move t = move at moves ends
    cases moves with
    | arrive phase =>
      obtain rfl : t' = _ := ends
      exact .arrive phase
    | collect phase =>
      obtain ⟨_, rfl⟩ := ends
      exact .resume phase
    | leave phase =>
      obtain rfl : t' = _ := ends
      exact .leave phase
    | node => exact ends.elim
    | last => exact ends.elim
    | halt => exact ends.elim

namespace Strides

lemma sameSwitches (strides : plan.Strides h t t' h') : h.SameSwitches h' := by
  cases strides with
  | room made => exact Heap.sameSwitches_room made
  | node => exact Heap.sameSwitches_allocateIn _ _ _
  | _ => exact .refl h

lemma stats (strides : plan.Strides h t t' h') (sound : h.Sound) : h'.stats = h.stats := by
  cases strides with
  | room made =>
    rcases made with rfl | rfl
    · rfl
    · rfl
  | @node c _ _ fits =>
    have gains : h.Gains id (h.allocateIn c _).2 [plan.node (plan.nodeId t.thread t.made)] :=
      sound.gains_allocateIn (Heap.classOf_lt sound fits) _
    exact gains.stats
  | _ => rfl

/-- A stride frees no cell and changes none. -/
lemma payload (strides : plan.Strides h t t' h') (sound : h.Sound) {a : Address} {node : Node}
    (here : h.payload? a = some node) : h'.payload? a = some node := by
  cases strides with
  | room made => exact (sound.cells_of_room made a).2.trans here
  | node _ _ fits => exact sound.payload?_allocateIn fits here
  | _ => exact here

/-- The cells that are taken are those of the nodes that are made. -/
lemma taken (strides : plan.Strides h t t' h') (sound : h.Sound) :
    h'.taken + t.made = h.taken + t'.made := by
  cases strides with
  | room made => rw [sound.taken_room made]
  | @node c phase more fits =>
    have made : (plan.allocated t (h.allocateIn c (plan.node (plan.nodeId t.thread t.made))).1).made =
        t.made + 1 := by
      obtain ⟨a, ok, _⟩ := sound.allocateIn_cells (Heap.classOf_lt sound fits)
        (plan.node (plan.nodeId t.thread t.made))
      rw [ok]
      rfl
    rw [sound.taken_allocateIn fits, made]
    omega
  | _ => rfl

end Strides

variable (plan) in
/-- A node finds room, if any is made. -/
def Fits (settings : Settings) : Prop :=
  plan.nodes = 0 ∨
    (plan.align ≤ cellAlign ∧ (settings.classFor? (cellHeader + plan.size)).isSome)

/-- What a thread has on record is right. -/
structure Recorded (plan : AllocationPlan) (thread : Nat) (h : Heap Node) (t : AllocatingThread) :
    Prop where
  number : t.thread = thread
  made : t.made ≤ plan.nodes
  new : t.phase = .arriving → t.made = 0
  ids : t.kept.map Prod.fst = plan.keptIds thread t.made
  /-- The nodes are where they were put, as long as the thread reports their places. -/
  holds : t.phase.IsWorking → ∀ k ∈ t.kept, h.payload? k.2 = some (plan.node k.1)
  fault : plan.Fits h.settings → t.fault = none
  /-- Before it left, the thread has made all nodes and found all roots intact. -/
  done : ¬ t.phase.IsWorking → t.fault = none → t.made = plan.nodes ∧ t.intact = true

/-- At first nothing is on record. -/
lemma recorded_initial (h : Heap Node) (thread : Nat) :
    plan.Recorded thread h (initialThread thread) := by
  constructor
  · rfl
  · exact Nat.zero_le _
  · exact fun _ => rfl
  · rfl
  · exact fun _ k kept => absurd kept List.not_mem_nil
  · exact fun _ => rfl
  · exact fun left => absurd trivial left

lemma working_afterNode (t : AllocatingThread) :
    (plan.afterNode t).IsWorking ∧ plan.afterNode t ≠ .arriving := by
  rcases plan.afterNode_cases t with phase | phase
  · rw [phase]
    exact ⟨trivial, nofun⟩
  · rw [phase]
    exact ⟨trivial, nofun⟩

namespace Recorded

/-- What others do to the heap does not matter if it leaves the nodes alone. -/
lemma heap (recorded : plan.Recorded thread h t) (settings : h'.settings = h.settings)
    (same : t.phase.IsWorking → ∀ k ∈ t.kept, h'.payload? k.2 = h.payload? k.2) :
    plan.Recorded thread h' t := by
  constructor
  · exact recorded.number
  · exact recorded.made
  · exact recorded.new
  · exact recorded.ids
  · exact fun working k kept => (same working k kept).trans (recorded.holds working k kept)
  · rw [settings]
    exact recorded.fault
  · exact recorded.done

/-- A thread that goes on with another phase keeps its record. -/
lemma go (recorded : plan.Recorded thread h t) {phase : AllocatorPhase}
    (working : t.phase.IsWorking) (goes : phase.IsWorking) (settled : phase ≠ .arriving) :
    plan.Recorded thread h { t with phase } := by
  constructor
  · exact recorded.number
  · exact recorded.made
  · exact fun arriving => absurd arriving settled
  · exact recorded.ids
  · exact fun _ => recorded.holds working
  · exact recorded.fault
  · exact fun left => absurd goes left

/-- Whoever looks at its roots finds them intact. -/
lemma check_eq (recorded : plan.Recorded thread h t) (working : t.phase.IsWorking) :
    check t h = true := by
  rw [check, List.all_eq_true]
  rintro ⟨id, a⟩ kept
  have here : h.payload? a = some (plan.node id) := recorded.holds working (id, a) kept
  simp [here, node]

/-- A node has been made and found its place. -/
lemma node (recorded : plan.Recorded thread h t) (more : t.made < plan.nodes) {a : Address}
    (settings : h'.settings = h.settings)
    (old : ∀ k ∈ t.kept, h'.payload? k.2 = some (plan.node k.1))
    (new : h'.payload? a = some (plan.node (plan.nodeId t.thread t.made))) :
    plan.Recorded thread h' (plan.allocated t (.ok a)) := by
  have goes : (plan.allocated t (.ok a)).phase.IsWorking ∧
      (plan.allocated t (.ok a)).phase ≠ .arriving := working_afterNode _
  constructor
  · exact recorded.number
  · exact more
  · exact fun arriving => absurd arriving goes.2
  · change (if t.made % plan.keep == 0 then (plan.nodeId t.thread t.made, a) :: t.kept
      else t.kept).map Prod.fst = plan.keptIds thread (t.made + 1)
    rw [keptIds_succ, ← recorded.ids, recorded.number]
    split
    · rfl
    · rfl
  · intro _ k kept
    change k ∈ (if t.made % plan.keep == 0 then (plan.nodeId t.thread t.made, a) :: t.kept
      else t.kept) at kept
    split at kept
    · rcases List.mem_cons.mp kept with rfl | before
      · exact new
      · exact old k before
    · exact old k kept
  · rw [settings]
    exact recorded.fault
  · exact fun left => absurd goes.1 left

end Recorded

/-- A node that finds no room is a matter of the settings. -/
lemma not_fits (more : t.made < plan.nodes) {id : Nat} {f : HeapFault}
    (fault : h.classOf (plan.node id) = .error f) : ¬ plan.Fits h.settings := by
  rintro (none_made | ⟨aligned, room⟩)
  · omega
  · obtain ⟨c, found⟩ := Option.isSome_iff_exists.mp room
    have size : Heap.bytesFor (plan.node id) = cellHeader + plan.size := rfl
    have align : Payload.align (plan.node id) = plan.align := rfl
    rw [Heap.classOf, align, if_neg (not_lt.mpr aligned), size, found] at fault
    cases fault

/-- A stride keeps the record of the thread that takes it. -/
lemma Strides.recorded (strides : plan.Strides h t t' h') (sound : h.Sound)
    (recorded : plan.Recorded thread h t) : plan.Recorded thread h' t' := by
  have settings := strides.sameSwitches.settings
  cases strides with
  | stay => exact recorded
  | room made => exact recorded.heap settings fun _ k _ => (sound.cells_of_room made k.2).2
  | arrive phase => exact recorded.go (phase ▸ trivial) trivial nofun
  | @node c phase more fits =>
    have working : t.phase.IsWorking := phase ▸ trivial
    obtain ⟨a, ok, _, _, new, _⟩ := sound.allocateIn_cells (Heap.classOf_lt sound fits)
      (plan.node (plan.nodeId t.thread t.made))
    rw [ok]
    refine recorded.node more settings (fun k kept => ?_) new
    exact sound.payload?_allocateIn fits (recorded.holds working k kept)
  | refuse phase more fault =>
    constructor
    · exact recorded.number
    · exact recorded.made
    · exact nofun
    · exact recorded.ids
    · exact nofun
    · exact fun fits => absurd fits (not_fits more fault)
    · exact fun _ none_left => nomatch none_left
  | last phase all =>
    constructor
    · exact recorded.number
    · exact recorded.made
    · exact nofun
    · exact recorded.ids
    · exact nofun
    · exact recorded.fault
    · exact fun _ _ => ⟨Nat.le_antisymm recorded.made all, recorded.check_eq (phase ▸ trivial)⟩
  | resume phase => exact recorded.go (phase ▸ trivial) trivial nofun
  | leave phase =>
    constructor
    · exact recorded.number
    · exact recorded.made
    · exact nofun
    · exact recorded.ids
    · exact nofun
    · exact recorded.fault
    · exact fun _ => recorded.done (by rw [phase]; exact id)

end AllocationPlan

end CellMachine
