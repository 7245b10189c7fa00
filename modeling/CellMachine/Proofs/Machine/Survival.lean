import CellMachine.Proofs.Heap.Dangling
import CellMachine.Proofs.Machine.Allocation
import CellMachine.Proofs.Machine.FastPath

/-!
# What survives an allocation

An allocation may collect twice: a signal may have asked for it, and the class of the object
may be short of free cells. Cells that values on the argument stacks or global roots hold,
directly or through other cells, go through both with the payloads they had, and the new
object is given another cell.
-/

namespace CellMachine

namespace Heap

variable {α : Type} [Payload α] {h h' : Heap α} {vs vs' : List Value} {made : Set α} {x : Address}

/-- A live cell that the values hold, directly or through other cells. -/
inductive Kept (h : Heap α) (vs : List Value) : Address → Prop where
  | value {a : Address} (mem : .ref a ∈ vs) (live : h.isLive a) : Kept h vs a
  | child {a b : Address} {payload : α} (start : Kept h vs a) (here : h.payload? a = some payload)
      (child : .ref b ∈ Payload.children payload) (live : h.isLive b) : Kept h vs b

lemma Kept.isLive (kept : h.Kept vs x) : h.isLive x := by
  cases kept with
  | value mem live => exact live
  | child start here child live => exact live

lemma Kept.mono (kept : h.Kept vs x) (more : vs ⊆ vs') : h.Kept vs' x := by
  induction kept with
  | value mem live => exact .value (more mem) live
  | child start here child live ih => exact .child ih here child live

/-- Where kept cells stay what they are, they are kept. -/
lemma Kept.congr (kept : h.Kept vs x)
    (live : ∀ a, h.Kept vs a → h'.isLive a)
    (payload : ∀ a, h.Kept vs a → h'.payload? a = h.payload? a) : h'.Kept vs x := by
  induction kept with
  | value mem alive => exact .value mem (live _ (.value mem alive))
  | child start here child alive ih =>
    exact .child ih ((payload _ start).trans here) child (live _ (.child start here child alive))

lemma Kept.reaches {roots : Set Address} (kept : h.Kept vs x)
    (submitted : ∀ a, .ref a ∈ vs → a ∈ roots) : h.Reaches roots x := by
  induction kept with
  | value mem live => exact .root (submitted _ mem) (cellFor?_of_isLive live)
  | child start here child live ih => exact .edge ih here child live

/-- The second heap has all cells that are kept in the first, and all that is new in it is made
of certain payloads. -/
structure Preserves (h h' : Heap α) (vs : List Value) (made : Set α) : Prop where
  sound : h'.Sound
  settings : h'.settings = h.settings
  globalRoots : h'.globalRoots = h.globalRoots
  live : ∀ a, h.Kept vs a → h'.isLive a
  payload : ∀ a, h.Kept vs a → h'.payload? a = h.payload? a
  origin : ∀ a payload, h'.payload? a = some payload → h.payload? a = some payload ∨ payload ∈ made

lemma Preserves.kept (preserves : h.Preserves h' vs made) (kept : h.Kept vs x) : h'.Kept vs x :=
  kept.congr preserves.live preserves.payload

lemma Preserves.mono {made' : Set α} (preserves : h.Preserves h' vs' made) (more : vs ⊆ vs')
    (also : made ⊆ made') : h.Preserves h' vs made' :=
  ⟨preserves.sound, preserves.settings, preserves.globalRoots,
    fun a kept => preserves.live a (kept.mono more),
    fun a kept => preserves.payload a (kept.mono more),
    fun a payload here => (preserves.origin a payload here).imp_right fun new => also new⟩

lemma Sound.preserves_refl (sound : h.Sound) (vs : List Value) (made : Set α) :
    h.Preserves h vs made :=
  ⟨sound, rfl, rfl, fun _ kept => kept.isLive, fun _ _ => rfl, fun _ _ here => .inl here⟩

lemma Preserves.trans {h'' : Heap α} (first : h.Preserves h' vs made)
    (second : h'.Preserves h'' vs made) : h.Preserves h'' vs made := by
  constructor
  · exact second.sound
  · exact second.settings.trans first.settings
  · exact second.globalRoots.trans first.globalRoots
  · exact fun a kept => second.live a (first.kept kept)
  · exact fun a kept => (second.payload a (first.kept kept)).trans (first.payload a kept)
  · intro a payload here
    rcases second.origin a payload here with old | new
    · exact first.origin a payload old
    · exact .inr new

/-- A cycle whose roots are the values at least. -/
lemma Sound.preserves_runCycle (sound : h.Sound) {inputs : List RootSet}
    (submitted : ∀ a, .ref a ∈ vs → a ∈ h.cycleRoots inputs) (made : Set α) :
    h.Preserves (h.runCycle inputs) vs made := by
  obtain ⟨_, _, _, frame⟩ := sound.runCycle_frame inputs
  constructor
  · exact sound.runCycle inputs
  · rw [frame]
  · rw [frame]
  · exact fun a kept => sound.isLive_runCycle_iff.mpr (kept.reaches submitted)
  · exact fun a kept => sound.payload?_runCycle_of_reaches (kept.reaches submitted)
  · intro a payload here
    have reached := sound.isLive_runCycle_iff.mp (isLive_of_payload? here)
    exact .inl ((sound.payload?_runCycle_of_reaches reached).symm.trans here)

lemma Sound.preserves_collect (sound : h.Sound) {inputs : List RootSet}
    (submitted : ∀ a, .ref a ∈ vs → a ∈ h.cycleRoots inputs) (made : Set α) :
    h.Preserves (h.collect inputs).2 vs made := by
  rw [Heap.collect]
  split
  · exact sound.preserves_runCycle submitted made
  · exact sound.preserves_refl vs made

lemma Sound.preserves_room (sound : h.Sound) {c : Nat} (room : h' = h.prewarm c ∨ h' = h.grow c)
    (vs : List Value) (made : Set α) : h.Preserves h' vs made := by
  have cells := sound.cells_of_room room
  refine ⟨?_, ?_, globalRoots_of_room room, fun a kept => ?_, fun a _ => (cells a).2,
    fun a payload here => .inl ((cells a).2.symm.trans here)⟩
  · rcases room with rfl | rfl
    · exact sound.prewarm c
    · exact sound.grow c
  · rcases room with rfl | rfl
    · rfl
    · rfl
  · rw [Heap.isLive, (cells a).1]
    exact kept.isLive

/-- The roots of an allocation's own collection are those of the stacks and more. -/
lemma mem_rootSets_of_stack {threads : List (Array Value)} (pending : List Value)
    {stack : Array Value} (mem : stack ∈ threads) {a : Address} (there : .ref a ∈ stack.toList) :
    ∃ roots ∈ rootSets threads pending, a ∈ roots := by
  have submitted := mem_references.mpr there
  cases threads with
  | nil => cases mem
  | cons own others =>
    rcases List.mem_cons.mp mem with rfl | later
    · exact ⟨_, List.mem_cons_self, List.mem_append_left _ submitted⟩
    · exact ⟨_, List.mem_cons_of_mem _ (List.mem_map_of_mem later), submitted⟩

/-- What the stacks and the global roots hold. -/
def held (h : Heap α) (threads : List (Array Value)) : List Value :=
  threads.flatMap Array.toList ++ h.globalRoots

omit [Payload α] in
lemma mem_cycleRoots_of_held {threads : List (Array Value)} {inputs : List RootSet}
    (submitted : ∀ stack ∈ threads, ∀ a, .ref a ∈ stack.toList → ∃ roots ∈ inputs, a ∈ roots)
    {a : Address} (mem : .ref a ∈ h.held threads) : a ∈ h.cycleRoots inputs := by
  rcases List.mem_append.mp mem with pushed | global
  · obtain ⟨stack, own, there⟩ := List.mem_flatMap.mp pushed
    exact .inl (submitted stack own a there)
  · exact .inr global

lemma Sound.preserves_makeRoom (sound : h.Sound) (c : Nat) (threads : List (Array Value))
    (payload : α) (made : Set α) :
    h.Preserves (h.makeRoom c threads payload) (h.held threads) made := by
  rw [makeRoom]
  split
  · exact sound.preserves_room (.inl rfl) _ made
  · exact sound.preserves_refl _ made
  · have submitted : ∀ a, .ref a ∈ h.held threads →
        a ∈ h.cycleRoots (rootSets threads (Payload.children payload)) := fun a mem =>
      mem_cycleRoots_of_held (fun stack own b there =>
        mem_rootSets_of_stack (Payload.children payload) own there) mem
    have collected := sound.preserves_collect submitted made
    exact collected.trans (collected.sound.preserves_room (.inr rfl) _ made)

lemma Sound.preserves_allocateIn (sound : h.Sound) {c : Nat} {payload : α}
    (fits : h.classOf payload = .ok c) (vs : List Value) :
    h.Preserves (h.allocateIn c payload).2 vs {payload} ∧
      ∀ a, (h.allocateIn c payload).1 = .ok a → ¬ h.isLive a := by
  obtain ⟨a, ok, sound', free, placed, others⟩ :=
    sound.allocateIn_cells (classOf_lt sound fits) payload
  have other : ∀ x, h.Kept vs x → x ≠ a := by
    rintro x kept rfl
    exact free kept.isLive
  constructor
  · refine ⟨sound', Mutation.settings (.claim _ fits), (h.allocateIn_frame c payload).1,
      fun x kept => ?_, fun x kept => (others x (other x kept)).2, fun x old here => ?_⟩
    · rw [Heap.isLive, (others x (other x kept)).1]
      exact kept.isLive
    · by_cases new : x = a
      · rw [new, placed] at here
        exact .inr (Option.some.inj here).symm
      · exact .inl ((others x new).2.symm.trans here)
  · intro b returned
    rw [ok] at returned
    obtain rfl := Except.ok.inj returned
    exact free

/-- An allocation preserves what the stacks and the global roots hold, and takes none of its
cells. -/
lemma Sound.preserves_allocate (sound : h.Sound) (threads : List (Array Value)) (payload : α) :
    h.Preserves (h.allocate threads payload).2 (h.held threads) {payload} ∧
      ∀ a, (h.allocate threads payload).1 = .ok a → ¬ h.Kept (h.held threads) a := by
  rw [Heap.allocate]
  split
  · exact ⟨sound.preserves_refl _ _, fun a returned => by cases returned⟩
  · rename_i c fits
    have room := sound.preserves_makeRoom c threads payload {payload}
    have fits' := (classOf_congr room.settings payload).trans fits
    obtain ⟨placed, free⟩ := room.sound.preserves_allocateIn fits' (h.held threads)
    refine ⟨room.trans placed, fun a returned kept => ?_⟩
    exact free a returned (room.live a kept)

end Heap

namespace World

variable {w : World}

lemma preserves_polledHeap (sound : w.heap.Sound) (argStacks : Stacks) (made : Set Object) :
    w.heap.Preserves (w.polledHeap argStacks) (w.heap.held argStacks) made := by
  rw [polledHeap]
  split
  · refine sound.preserves_runCycle (fun a mem => Heap.mem_cycleRoots_of_held ?_ mem) made
    intro stack own b there
    exact ⟨_, List.mem_map_of_mem own, mem_references.mpr there⟩
  · exact sound.preserves_refl _ made

/-- So does an allocation of the machine, with the collection that a signal has asked for. -/
lemma preserves_allocate (sound : w.heap.Sound) (argStacks : Stacks) (o : Object) :
    w.heap.Preserves (w.allocate argStacks o).2.heap (w.heap.held argStacks) {o} ∧
      ∀ a, (w.allocate argStacks o).1 = .ok a → ¬ w.heap.Kept (w.heap.held argStacks) a := by
  obtain ⟨result, heap⟩ := allocate_eq argStacks o w
  have polled := preserves_polledHeap sound argStacks {o}
  have held : (w.polledHeap argStacks).held argStacks = w.heap.held argStacks := by
    rw [Heap.held, polled.globalRoots]
    rfl
  obtain ⟨placed, free⟩ := polled.sound.preserves_allocate argStacks o
  rw [held] at placed free
  rw [result, heap]
  exact ⟨polled.trans placed, fun a returned kept => free a returned (polled.kept kept)⟩

end World

namespace Machine

variable {σ : Type} {m m' : Machine σ} {x : Address} {o : Object}

/-- The cells that the machine's roots hold. -/
abbrev Keeps (m : Machine σ) (x : Address) : Prop :=
  m.world.heap.Kept (m.world.heap.held m.argStacks) x

/-- A cell on the thread's own stack, or one that the machine's roots hold. -/
def Holds (m : Machine σ) (x : Address) : Prop := (∃ i, x = .stack i) ∨ m.Keeps x

lemma isLive_of_object? {word : Nat} (here : (m.object? (.memory word)).isSome) :
    m.world.heap.isLive (.memory word) := by
  obtain ⟨o, there⟩ := Option.isSome_iff_exists.mp here
  exact Heap.isLive_of_payload? there

lemma holds_of_mem_held (held : .ref x ∈ m.world.heap.held m.argStacks)
    (here : (m.object? x).isSome) : m.Holds x := by
  cases x with
  | stack i => exact .inl ⟨i, rfl⟩
  | memory word => exact .inr (.value held (isLive_of_object? here))

lemma holds_of_mem_stack (pushed : .ref x ∈ m.thread.stack) (here : (m.object? x).isSome) :
    m.Holds x := by
  refine holds_of_mem_held (List.mem_append_left _ (List.mem_flatMap.mpr ?_)) here
  exact ⟨m.thread.stack, List.mem_cons_self, Array.mem_toList_iff.mpr pushed⟩

lemma holds_of_mem_globalRoots (listed : .ref x ∈ m.world.heap.globalRoots)
    (here : (m.object? x).isSome) : m.Holds x :=
  holds_of_mem_held (List.mem_append_right _ listed) here

/-- What a cell holds that is held is held as well. -/
lemma Holds.child {y : Address} (holds : m.Holds x) (here : m.world.heap.payload? x = some o)
    (child : .ref y ∈ o.children) (there : (m.object? y).isSome) : m.Holds y := by
  rcases holds with ⟨i, rfl⟩ | kept
  · cases here
  · cases y with
    | stack i => exact .inl ⟨i, rfl⟩
    | memory word => exact .inr (.child kept here child (isLive_of_object? there))

/-- What is kept stays what it is, and so do transient cells that are left alone. -/
lemma object?_of_preserves {vs : List Value} {made : Set Object}
    (preserves : m.world.heap.Preserves m'.world.heap vs made)
    (transients : m'.thread.transients = m.thread.transients)
    (held : (∃ i, x = .stack i) ∨ m.world.heap.Kept vs x) : m'.object? x = m.object? x := by
  cases x with
  | stack i =>
    change (m'.thread.transients[i]?).map Cell.payload = _
    rw [transients]
    rfl
  | memory word =>
    rcases held with ⟨i, same⟩ | kept
    · cases same
    · exact preserves.payload _ kept

/-- What an allocation makes of a machine. -/
structure Allocates (m : Machine σ) (o : Object) (a : Address) (m' : Machine σ) : Prop where
  here : m'.world.heap.payload? a = some o
  thread : m'.thread = m.thread
  waiting : m'.waiting = m.waiting
  host : m'.host = m.host
  world : m'.world = (m.world.allocate m.argStacks o).2
  preserves : m.world.heap.Preserves m'.world.heap (m.world.heap.held m.argStacks) {o}
  fresh : ¬ m.Keeps a

lemma Allocates.sameStacks {a : Address} (allocates : m.Allocates o a m') :
    m'.argStacks = m.argStacks := by
  rw [argStacks, argStacks, allocates.thread, allocates.waiting]

/-- What is held stays what it is, and is still held. -/
lemma Allocates.holds {a : Address} (allocates : m.Allocates o a m') (holds : m.Holds x) :
    m'.Holds x ∧ x ≠ a ∧ m'.object? x = m.object? x := by
  have same := object?_of_preserves allocates.preserves
    (congrArg ThreadState.transients allocates.thread) holds
  rcases holds with ⟨i, rfl⟩ | kept
  · refine ⟨.inl ⟨i, rfl⟩, ?_, same⟩
    rintro rfl
    cases allocates.here
  · refine ⟨.inr ?_, ?_, same⟩
    · rw [Keeps, allocates.sameStacks, Heap.held, allocates.preserves.globalRoots]
      exact allocates.preserves.kept kept
    · rintro rfl
      exact allocates.fresh kept

/-- The value refers to the object that it did. -/
def Sustains (m m' : Machine σ) (v : Value) : Prop :=
  ∀ a o, v = .ref a → m.object? a = some o → m'.object? a = some o

lemma Sustains.trans {m'' : Machine σ} {v : Value} (first : m.Sustains m' v)
    (second : m'.Sustains m'' v) : m.Sustains m'' v :=
  fun a o same here => second a o same (first a o same here)

lemma Sustains.payload? (sustains : m.Sustains m' (.ref x))
    (here : m.world.heap.payload? x = some o) : m'.world.heap.payload? x = some o := by
  cases x with
  | memory word => exact sustains _ o rfl here
  | stack i => cases here

/-- It does not matter to a value what is pushed. -/
lemma sustains_pushed (m : Machine σ) (stack : Array Value) (v : Value) :
    m.Sustains { m with thread := { m.thread with stack } } v :=
  fun a o _ here => by cases a <;> exact here

lemma allocates (sound : m.world.heap.Sound) (fits : ∃ c, m.world.heap.classOf o = .ok c) :
    ∃ a m', (VM.allocate o).run m = (.ok a, m') ∧ m.Allocates o a m' := by
  obtain ⟨c, fits⟩ := fits
  obtain ⟨a, m', ran, here, _⟩ := run_allocate_of_ok sound fits
  obtain ⟨preserves, free⟩ := World.preserves_allocate sound m.argStacks o
  have direct := run_allocate m o
  rw [ran] at direct
  cases returned : (m.world.allocate m.argStacks o).1 with
  | error f =>
    rw [returned] at direct
    cases direct
  | ok b =>
    rw [returned] at direct
    obtain ⟨rfl, rfl⟩ : a = b ∧ m' = _ := by simpa using direct
    exact ⟨a, _, ran, here, rfl, rfl, rfl, rfl, preserves, free a returned⟩

end Machine

end CellMachine
