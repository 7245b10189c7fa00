import CellMachine.Proofs.Heap.Payloads

/-!
# No dangling references

A thread works on a heap. It allocates, changes what its cells hold, keeps roots of its own
and global ones, and lets the collector run or stops it. If it never stores a reference
to a cell that is gone, then no reference that it can get at ever denotes one: what a live
cell, a root or a global root refers to is live after every operation, also after those
that collect in their middle. A cell stays in the slot it was given, and nothing but the
thread's own edits changes its payload, until a collection frees it.
-/

namespace CellMachine

/-- A heap and the values that the thread working on it keeps as roots. -/
structure HeapUser (α : Type) where
  heap : Heap α
  roots : Array Value

/-- What the thread does. The other values that take part in a collection are words found
elsewhere, such as on native stacks. -/
inductive HeapOp (α : Type) where
  | allocate (payload : α) (others : List (Array Value))
  | edit (a : Address) (f : α → α)
  | setRoots (roots : Array Value)
  | addGlobalRoot (v : Value)
  | removeGlobalRoot (v : Value)
  | collect (others : List (Array Value))
  | grow (sizeClass : Nat)
  | enable
  | disable

/-- Every reference among the values denotes a live cell. -/
def Heap.AllLive {α : Type} (h : Heap α) (vs : List Value) : Prop :=
  ∀ x, Value.ref x ∈ vs → h.isLive x

instance {α : Type} (h : Heap α) (vs : List Value) : Decidable (h.AllLive vs) :=
  decidable_of_iff (∀ x ∈ references vs, h.isLive x) <| by
    simp only [mem_references]
    rfl

namespace HeapUser

variable {α : Type} [Payload α]

def perform (u : HeapUser α) : HeapOp α → HeapUser α
  | .allocate payload others => { u with heap := (u.heap.allocate (u.roots :: others) payload).2 }
  | .edit a f => { u with heap := u.heap.modifyPayload a f }
  | .setRoots roots => { u with roots }
  | .addGlobalRoot v => { u with heap := u.heap.addGlobalRoot v }
  | .removeGlobalRoot v => { u with heap := u.heap.removeGlobalRoot v }
  | .collect others =>
    { u with heap := (u.heap.collect ((u.roots :: others).map fun vs => references vs.toList)).2 }
  | .grow c => { u with heap := u.heap.grow c }
  | .enable => { u with heap := u.heap.enable }
  | .disable => { u with heap := u.heap.disable }

/-- The address of the cell that an operation makes. -/
def made? (u : HeapUser α) : HeapOp α → Option Address
  | .allocate payload others => (u.heap.allocate (u.roots :: others) payload).1.toOption
  | _ => none

/-- The operation stores references to live cells only. -/
def StoresLive (u : HeapUser α) : HeapOp α → Prop
  | .allocate payload _ => u.heap.AllLive (Payload.children payload)
  | .edit a f => ∀ payload, u.heap.payload? a = some payload →
      u.heap.AllLive (Payload.children (f payload))
  | .setRoots roots => u.heap.AllLive roots.toList
  | .addGlobalRoot v => u.heap.AllLive [v]
  | _ => True

/-- After so many operations. -/
def run (u : HeapUser α) (ops : Nat → HeapOp α) : Nat → HeapUser α
  | 0 => u
  | n + 1 => (run u ops n).perform (ops n)

/-- The root sets of a collection that an operation asks for. -/
def submits (u : HeapUser α) : HeapOp α → List RootSet
  | .allocate payload others => Heap.rootSets (u.roots :: others) (Payload.children payload)
  | .collect others => (u.roots :: others).map fun vs => references vs.toList
  | _ => []

/-- The operation runs a cycle. -/
def Collects (u : HeapUser α) : HeapOp α → Prop
  | .allocate payload _ => ∃ c, u.heap.classOf payload = .ok c ∧ u.heap.pressure c = .short
  | .collect _ => u.heap.gcEnabled
  | _ => False

/-- A cell is freed by a cycle whose roots do not lead to it. -/
def Frees (u : HeapUser α) (op : HeapOp α) (a : Address) : Prop :=
  u.Collects op ∧ ¬ u.heap.Reaches (u.heap.cycleRoots (u.submits op)) a

end HeapUser

/-- What an operation makes of the payload at an address, if it frees no cell there. -/
def HeapOp.editAt {α : Type} (a : Address) : HeapOp α → α → α
  | .edit b f => if b = a then f else id
  | _ => id

/-- What so many operations, from a first one on, make of the payload at an address. -/
def HeapOp.editsAt {α : Type} (ops : Nat → HeapOp α) (a : Address) (first : Nat) : Nat → α → α
  | 0 => id
  | k + 1 => (ops (first + k)).editAt a ∘ editsAt ops a first k

namespace Heap

variable {α : Type}

/-- The second heap has the cells of the first, but for some that neither the global roots nor
the values lead to. -/
structure Retains (h h' : Heap α) [Payload α] (vs : List Value) : Prop where
  sound : h'.Sound
  layout : h'.layout = h.layout
  globalRoots : h'.globalRoots = h.globalRoots
  spot : ∀ x, h'.isLive x → h'.spot? x = h.spot? x
  payload : ∀ x, h'.isLive x → h'.payload? x = h.payload? x
  edges : ∀ x payload, h'.payload? x = some payload → h.AllLive (Payload.children payload) →
    h'.AllLive (Payload.children payload)
  values : h.AllLive vs → h'.AllLive vs
  globals : h.AllLive h.globalRoots → h'.AllLive h.globalRoots

variable [Payload α]

lemma Retains.isLive {h h' : Heap α} {vs : List Value} (retains : h.Retains h' vs) {x : Address}
    (live : h'.isLive x) : h.isLive x := by
  rw [Heap.isLive, ← retains.spot x live]
  exact live

/-- Heaps that use the same slots for the same cells. -/
lemma Sound.retains_of_cells {h h' : Heap α} (sound : h.Sound) (sound' : h'.Sound)
    (layout : h'.layout = h.layout) (globalRoots : h'.globalRoots = h.globalRoots)
    (cells : ∀ s, h'.cellAt? s = h.cellAt? s) (vs : List Value) : h.Retains h' vs := by
  have same := sound.cells_of_layout sound' layout cells
  have all : ∀ vs, h.AllLive vs → h'.AllLive vs := by
    intro vs alive x mem
    rw [isLive, (same x).1]
    exact alive x mem
  exact ⟨sound', layout, globalRoots, fun x _ => (same x).1, fun x _ => (same x).2,
    fun _ _ _ => all _, all vs, all _⟩

lemma Retains.trans {h h' h'' : Heap α} {vs : List Value} (first : h.Retains h' vs)
    (second : h'.Retains h'' vs) : h.Retains h'' vs := by
  constructor
  · exact second.sound
  · exact second.layout.trans first.layout
  · exact second.globalRoots.trans first.globalRoots
  · exact fun x live => (second.spot x live).trans (first.spot x (second.isLive live))
  · exact fun x live => (second.payload x live).trans (first.payload x (second.isLive live))
  · intro x payload here alive
    have before := (second.payload x (isLive_of_payload? here)).symm.trans here
    exact second.edges x payload here (first.edges x payload before alive)
  · exact fun alive => second.values (first.values alive)
  · intro alive
    have between := first.globals alive
    rw [← first.globalRoots] at between ⊢
    exact second.globals between

/-- A cycle to which the values are submitted. -/
lemma Sound.retains_runCycle {h : Heap α} (sound : h.Sound) {inputs : List RootSet}
    {vs : List Value} (submitted : ∀ x, Value.ref x ∈ vs → ∃ roots ∈ inputs, x ∈ roots) :
    h.Retains (h.runCycle inputs) vs := by
  obtain ⟨_, _, _, frame⟩ := sound.runCycle_frame inputs
  have globalRoots : (h.runCycle inputs).globalRoots = h.globalRoots := by rw [frame]
  constructor
  · exact sound.runCycle inputs
  · exact sound.layout_runCycle inputs
  · exact globalRoots
  · exact fun x live => sound.spot?_runCycle_of_reaches (sound.isLive_runCycle_iff.mp live)
  · exact fun x live => sound.payload?_runCycle_of_reaches (sound.isLive_runCycle_iff.mp live)
  · exact fun x payload here alive y child => (sound.isLive_of_edge here child).mpr (alive y child)
  · intro alive x mem
    exact sound.isLive_runCycle_iff.mpr
      (.root (.inl (submitted x mem)) (cellFor?_of_isLive (alive x mem)))
  · intro alive x mem
    exact sound.isLive_runCycle_iff.mpr (.root (.inr mem) (cellFor?_of_isLive (alive x mem)))

lemma Sound.retains_collect {h : Heap α} (sound : h.Sound) {inputs : List RootSet}
    (vs : List Value) (submitted : ∀ x, Value.ref x ∈ vs → ∃ roots ∈ inputs, x ∈ roots) :
    h.Retains (h.collect inputs).2 vs := by
  rw [Heap.collect]
  split
  · exact sound.retains_runCycle submitted
  · exact sound.retains_of_cells sound rfl rfl (fun _ => rfl) vs

lemma Sound.retains_grow {h : Heap α} (sound : h.Sound) (c : Nat) (vs : List Value) :
    h.Retains (h.grow c) vs :=
  sound.retains_of_cells (sound.grow c) (layout_grow h c) rfl (cellAt?_grow h c) vs

/-- Making room retains what the first thread's roots and the pending payload lead to. -/
lemma Sound.retains_makeRoom {h : Heap α} (sound : h.Sound) (c : Nat) (own : Array Value)
    (others : List (Array Value)) (payload : α) :
    h.Retains (h.makeRoom c (own :: others) payload) (own.toList ++ Payload.children payload) := by
  rw [makeRoom]
  split
  · exact sound.retains_of_cells (sound.prewarm c) (layout_prewarm h c) rfl (cellAt?_prewarm h c) _
  · exact sound.retains_of_cells sound rfl rfl (fun _ => rfl) _
  · refine Retains.trans (sound.retains_collect _ ?_) ((sound.collect _).retains_grow c _)
    intro x mem
    refine ⟨_, List.mem_cons_self, ?_⟩
    rw [List.mem_append, mem_references, mem_references]
    exact List.mem_append.mp mem

/-- A collection keeps a live cell, unless it runs a cycle whose roots do not lead to it. -/
lemma Sound.isLive_collect {h : Heap α} (sound : h.Sound) {inputs : List RootSet} {x : Address}
    (live : h.isLive x) (reached : h.gcEnabled → h.Reaches (h.cycleRoots inputs) x) :
    (h.collect inputs).2.isLive x := by
  rw [Heap.collect]
  split
  · rename_i enabled
    exact sound.isLive_runCycle_iff.mpr (reached enabled)
  · exact live

/-- Making room keeps a live cell, unless it runs a cycle whose roots do not lead to it. -/
lemma Sound.isLive_makeRoom {h : Heap α} (sound : h.Sound) {c : Nat} {threads : List (Array Value)}
    {payload : α} {x : Address} (live : h.isLive x)
    (reached : h.pressure c = .short →
      h.Reaches (h.cycleRoots (rootSets threads (Payload.children payload))) x) :
    (h.makeRoom c threads payload).isLive x := by
  rw [makeRoom]
  split
  · rwa [sound.isLive_congr (sound.prewarm c) (layout_prewarm h c) (by simp)]
  · exact live
  · rename_i short
    have soundCycle := sound.collect (rootSets threads (Payload.children payload))
    rw [soundCycle.isLive_congr (soundCycle.grow c) (layout_grow _ c) (by simp)]
    exact sound.isLive_collect live fun _ => reached short

end Heap

namespace HeapUser

variable {α : Type} [Payload α] {u : HeapUser α} {op : HeapOp α}

/-- A sound heap without a dangling reference. -/
structure Tidy (u : HeapUser α) : Prop where
  sound : u.heap.Sound
  edges : ∀ a payload, u.heap.payload? a = some payload → u.heap.AllLive (Payload.children payload)
  roots : u.heap.AllLive u.roots.toList
  globals : u.heap.AllLive u.heap.globalRoots

lemma Tidy.retains (tidy : u.Tidy) {heap : Heap α}
    (retains : u.heap.Retains heap u.roots.toList) : (⟨heap, u.roots⟩ : HeapUser α).Tidy := by
  constructor
  · exact retains.sound
  · intro a payload here
    have live := Heap.isLive_of_payload? here
    exact retains.edges a payload here
      (tidy.edges a payload ((retains.payload a live).symm.trans here))
  · exact retains.values tidy.roots
  · rw [retains.globalRoots]
    exact retains.globals tidy.globals

/-- A change of the global roots, or one that the cells do not notice. -/
lemma Tidy.congr (tidy : u.Tidy) {heap : Heap α} (settings : heap.settings = u.heap.settings)
    (allocators : heap.allocators = u.heap.allocators)
    (globals : u.heap.AllLive heap.globalRoots) : (⟨heap, u.roots⟩ : HeapUser α).Tidy := by
  have cells := Heap.cells_congr allocators
  have all : ∀ vs, u.heap.AllLive vs → heap.AllLive vs := by
    intro vs alive x mem
    rw [Heap.isLive, (cells x).1]
    exact alive x mem
  constructor
  · exact tidy.sound.congr settings allocators
  · intro a payload here
    exact all _ (tidy.edges a payload ((cells a).2.symm.trans here))
  · exact all _ tidy.roots
  · exact all _ globals

lemma Tidy.edit (tidy : u.Tidy) {a : Address} {f : α → α} (stores : u.StoresLive (.edit a f)) :
    (u.perform (.edit a f)).Tidy := by
  have all : ∀ vs, u.heap.AllLive vs → (u.heap.modifyPayload a f).AllLive vs := by
    intro vs alive x mem
    rw [tidy.sound.isLive_modifyPayload]
    exact alive x mem
  constructor
  · exact tidy.sound.modifyPayload a f
  · intro x payload here
    change (u.heap.modifyPayload a f).payload? x = some payload at here
    rw [tidy.sound.payload?_modifyPayload] at here
    split at here
    · rename_i same
      obtain ⟨old, before, rfl⟩ := Option.map_eq_some_iff.mp here
      exact all _ (stores old (same ▸ before))
    · exact all _ (tidy.edges x payload here)
  · exact all _ tidy.roots
  · change (u.heap.modifyPayload a f).AllLive (u.heap.modifyPayload a f).globalRoots
    rw [(u.heap.modifyPayload_frame a f).2.1]
    exact all _ tidy.globals

/-- An allocation that has made room and taken a clear slot. -/
structure Placed (u : HeapUser α) (payload : α) (others : List (Array Value)) (a : Address)
    (room : Heap α) : Prop where
  made : u.made? (.allocate payload others) = some a
  retains : u.heap.Retains room (u.roots.toList ++ Payload.children payload)
  keeps : ∀ x, u.heap.isLive x → ¬ u.Frees (.allocate payload others) x → room.isLive x
  clear : ¬ room.isLive a
  sound : (u.perform (.allocate payload others)).heap.Sound
  globalRoots : (u.perform (.allocate payload others)).heap.globalRoots = room.globalRoots
  here : (u.perform (.allocate payload others)).heap.payload? a = some payload
  rest : ∀ x, x ≠ a → (u.perform (.allocate payload others)).heap.spot? x = room.spot? x ∧
    (u.perform (.allocate payload others)).heap.payload? x = room.payload? x

/-- A payload that has no class leaves everything as it is. -/
lemma perform_allocate_of_error {payload : α} {f : HeapFault}
    (unfit : u.heap.classOf payload = .error f) (others : List (Array Value)) :
    u.made? (.allocate payload others) = none ∧ u.perform (.allocate payload others) = u := by
  rw [made?, HeapUser.perform, Heap.allocate, unfit]
  exact ⟨rfl, rfl⟩

lemma perform_allocate_of_ok {payload : α} {c : Nat} (fits : u.heap.classOf payload = .ok c)
    (others : List (Array Value)) :
    (u.perform (.allocate payload others)).heap =
      ((u.heap.makeRoom c (u.roots :: others) payload).allocateIn c payload).2 := by
  rw [HeapUser.perform, Heap.allocate, fits]

/-- An allocation fails and changes nothing, or it makes room and takes a slot. -/
lemma Tidy.allocate_cases (tidy : u.Tidy) (payload : α) (others : List (Array Value)) :
    (u.made? (.allocate payload others) = none ∧ u.perform (.allocate payload others) = u) ∨
      ∃ a room, u.Placed payload others a room := by
  cases fits : u.heap.classOf payload with
  | error f => exact .inl (perform_allocate_of_error fits others)
  | ok c =>
    have retains := tidy.sound.retains_makeRoom c u.roots others payload
    have size := Heap.size_of_layout retains.layout
    obtain ⟨a, ok, sound, clear, here, rest⟩ :=
      retains.sound.allocateIn_cells (size ▸ Heap.classOf_lt tidy.sound fits) payload
    have heap := perform_allocate_of_ok fits others
    refine .inr ⟨a, _, ?_, retains, fun x live unfreed => ?_, clear, ?_, ?_, ?_, ?_⟩
    · rw [made?, Heap.allocate, fits]
      dsimp only
      rw [ok]
      rfl
    · refine tidy.sound.isLive_makeRoom live fun short => ?_
      by_contra missed
      exact unfreed ⟨⟨c, fits, short⟩, missed⟩
    · rwa [heap]
    · rw [heap]
      exact (Heap.allocateIn_frame _ c payload).1
    · rwa [heap]
    · rwa [heap]

lemma Tidy.allocate (tidy : u.Tidy) {payload : α} {others : List (Array Value)}
    (stores : u.StoresLive (.allocate payload others)) :
    (u.perform (.allocate payload others)).Tidy := by
  rcases tidy.allocate_cases payload others with ⟨_, same⟩ | ⟨a, room, placed⟩
  · rw [same]
    exact tidy
  have all : ∀ vs, room.AllLive vs → (u.perform (.allocate payload others)).heap.AllLive vs := by
    intro vs alive x mem
    have live := alive x mem
    have other : x ≠ a := fun same => placed.clear (same ▸ live)
    rw [Heap.isLive, (placed.rest x other).1]
    exact live
  have kept : room.AllLive (u.roots.toList ++ Payload.children payload) := by
    refine placed.retains.values fun x mem => ?_
    rcases List.mem_append.mp mem with mem | mem
    · exact tidy.roots x mem
    · exact stores x mem
  constructor
  · exact placed.sound
  · intro x old before
    by_cases new : x = a
    · obtain rfl : payload = old := by
        rw [new, placed.here] at before
        exact Option.some.inj before
      exact all _ fun y child => kept y (List.mem_append_right _ child)
    · rw [(placed.rest x new).2] at before
      have same := placed.retains.payload x (Heap.isLive_of_payload? before)
      exact all _ (placed.retains.edges x old before (tidy.edges x old (same.symm.trans before)))
  · exact all _ fun x mem => kept x (List.mem_append_left _ mem)
  · rw [placed.globalRoots, placed.retains.globalRoots]
    exact all _ (placed.retains.globals tidy.globals)

/-- No operation that stores references to live cells only leaves a dangling one. -/
lemma Tidy.perform (tidy : u.Tidy) (stores : u.StoresLive op) : (u.perform op).Tidy := by
  cases op with
  | allocate payload others => exact tidy.allocate stores
  | edit a f => exact tidy.edit stores
  | setRoots roots => exact ⟨tidy.sound, tidy.edges, stores, tidy.globals⟩
  | addGlobalRoot v =>
    obtain ⟨settings, allocators, _⟩ := u.heap.addGlobalRoot_frame v
    refine tidy.congr settings allocators ?_
    rw [Heap.addGlobalRoot]
    split
    · intro x mem
      rcases List.mem_cons.mp mem with same | mem
      · exact stores x (List.mem_singleton.mpr same)
      · exact tidy.globals x mem
    · exact tidy.globals
  | removeGlobalRoot v =>
    exact tidy.congr rfl rfl fun x mem => tidy.globals x (List.mem_of_mem_erase mem)
  | collect others =>
    refine tidy.retains (tidy.sound.retains_collect _ fun x mem => ?_)
    exact ⟨_, List.mem_cons_self, mem_references.mpr mem⟩
  | grow c => exact tidy.retains (tidy.sound.retains_grow c _)
  | enable => exact tidy.congr rfl rfl tidy.globals
  | disable => exact tidy.congr rfl rfl tidy.globals

/-- A cell that an operation does not free stays in its slot, with its payload unless the
operation is an edit of it. -/
lemma Tidy.stays (tidy : u.Tidy) {x : Address} (live : u.heap.isLive x)
    (unfreed : ¬ u.Frees op x) :
    (u.perform op).heap.spot? x = u.heap.spot? x ∧
      (u.perform op).heap.payload? x = (u.heap.payload? x).map (op.editAt x) := by
  have same : ∀ {heap : Heap α}, heap.allocators = u.heap.allocators →
      heap.spot? x = u.heap.spot? x ∧ heap.payload? x = (u.heap.payload? x).map id := by
    intro heap allocators
    rw [Option.map_id, id]
    exact Heap.cells_congr allocators x
  have retained : ∀ {heap vs}, u.heap.Retains heap vs → heap.isLive x →
      heap.spot? x = u.heap.spot? x ∧ heap.payload? x = (u.heap.payload? x).map id := by
    intro heap vs retains live
    rw [Option.map_id, id]
    exact ⟨retains.spot x live, retains.payload x live⟩
  cases op with
  | allocate payload others =>
    rcases tidy.allocate_cases payload others with ⟨_, unchanged⟩ | ⟨a, room, placed⟩
    · rw [unchanged]
      exact same rfl
    · have left := placed.keeps x live unfreed
      have other : x ≠ a := fun same => placed.clear (same ▸ left)
      rw [(placed.rest x other).1, (placed.rest x other).2]
      exact retained placed.retains left
  | edit a f =>
    refine ⟨tidy.sound.spot?_modifyPayload a f x, ?_⟩
    change (u.heap.modifyPayload a f).payload? x = _
    rw [tidy.sound.payload?_modifyPayload, HeapOp.editAt]
    split
    · rfl
    · rw [Option.map_id, id]
  | collect others =>
    refine retained (tidy.sound.retains_collect [] fun y mem => by cases mem) ?_
    refine tidy.sound.isLive_collect live fun enabled => ?_
    by_contra missed
    exact unfreed ⟨enabled, missed⟩
  | grow c =>
    have grown := tidy.sound.isLive_congr (tidy.sound.grow c) (Heap.layout_grow _ c) (by simp) x
    exact retained (tidy.sound.retains_grow c []) (grown.trans live)
  | addGlobalRoot v => exact same (u.heap.addGlobalRoot_frame v).2.1
  | setRoots roots => exact same rfl
  | removeGlobalRoot v => exact same rfl
  | enable => exact same rfl
  | disable => exact same rfl

/-- A heap that is just made, and a thread that holds no roots yet. -/
def Fresh (u : HeapUser α) : Prop :=
  ∃ place settings, Apart place settings.sizeClasses.length ∧
    Heap.createAt place settings = .ok u.heap ∧ u.roots = #[]

lemma Fresh.tidy (fresh : u.Fresh) : u.Tidy := by
  obtain ⟨place, settings, apart, made, roots⟩ := fresh
  have sound := Heap.sound_createAt apart made
  have empty := Heap.not_isLive_createAt apart made
  constructor
  · exact sound
  · exact fun a payload here => absurd (Heap.isLive_of_payload? here) (empty a)
  · rw [roots]
    exact fun x mem => by cases mem
  · rw [Heap.createAt] at made
    split at made
    · cases made
    · obtain ⟨heap, _⟩ := u
      cases made
      exact fun x mem => by cases mem

lemma Tidy.run (tidy : u.Tidy) {ops : Nat → HeapOp α}
    (stores : ∀ n, (u.run ops n).StoresLive (ops n)) (n : Nat) : (u.run ops n).Tidy := by
  induction n with
  | zero => exact tidy
  | succ n ih => exact ih.perform (stores n)

/-- As long as no operation frees it, a cell stays in its slot, with all edits made of it. -/
lemma stays_run {ops : Nat → HeapOp α} (tidy : ∀ n, (u.run ops n).Tidy) {n : Nat} {a : Address}
    {s : Spot} {payload : α} (slot : (u.run ops n).heap.spot? a = some s)
    (here : (u.run ops n).heap.payload? a = some payload) (k : Nat)
    (unfreed : ∀ i < k, ¬ (u.run ops (n + i)).Frees (ops (n + i)) a) :
    (u.run ops (n + k)).heap.spot? a = some s ∧
      (u.run ops (n + k)).heap.payload? a = some (HeapOp.editsAt ops a n k payload) := by
  induction k with
  | zero => exact ⟨slot, here⟩
  | succ k ih =>
    obtain ⟨slot, before⟩ := ih fun i hi => unfreed i (by omega)
    have live : (u.run ops (n + k)).heap.isLive a := Heap.isLive_of_payload? before
    obtain ⟨stays, after⟩ := (tidy (n + k)).stays live (unfreed k (by omega))
    refine ⟨stays.trans slot, after.trans ?_⟩
    rw [before]
    rfl

/-- What is true of every state of a run and of every cell that is made in it. -/
structure NoDangling (u : HeapUser α) (ops : Nat → HeapOp α) : Prop where
  /-- What live cells refer to is live, -/
  edges : ∀ n a payload, (u.run ops n).heap.payload? a = some payload →
    (u.run ops n).heap.AllLive (Payload.children payload)
  /-- and so is what the roots -/
  roots : ∀ n, (u.run ops n).heap.AllLive (u.run ops n).roots.toList
  /-- and the global roots refer to. -/
  globals : ∀ n, (u.run ops n).heap.AllLive (u.run ops n).heap.globalRoots
  /-- Live cells at different addresses have no word in common. -/
  disjoint : ∀ n a b s t w, (u.run ops n).heap.spot? a = some s →
    (u.run ops n).heap.spot? b = some t → (u.run ops n).heap.Covers s w →
    (u.run ops n).heap.Covers t w → a = b
  /-- A cell that is made takes the place of no other, unless its operation frees that one. -/
  vacant : ∀ n a, (u.run ops n).made? (ops n) = some a → (u.run ops n).heap.isLive a →
    (u.run ops n).Frees (ops n) a
  /-- Until a cell is freed, its address resolves to itself, in the slot that the allocation
  took, where the payload is the allocated one with all edits made since. -/
  stays : ∀ n a payload others, ops n = .allocate payload others →
    (u.run ops n).made? (ops n) = some a →
    ∃ s, ∀ k, (∀ i < k, ¬ (u.run ops (n + 1 + i)).Frees (ops (n + 1 + i)) a) →
      (u.run ops (n + 1 + k)).heap.cellFor? a = some a ∧
      (u.run ops (n + 1 + k)).heap.spot? a = some s ∧
      (u.run ops (n + 1 + k)).heap.payload? a = some (HeapOp.editsAt ops a (n + 1) k payload)

lemma Tidy.made_spec (tidy : u.Tidy) {payload : α} {others : List (Array Value)} {a : Address}
    (made : u.made? (.allocate payload others) = some a) :
    (u.perform (.allocate payload others)).heap.payload? a = some payload ∧
      (u.heap.isLive a → u.Frees (.allocate payload others) a) := by
  rcases tidy.allocate_cases payload others with ⟨unmade, _⟩ | ⟨b, room, placed⟩
  · rw [unmade] at made
    cases made
  · obtain rfl : b = a := Option.some.inj (placed.made.symm.trans made)
    refine ⟨placed.here, fun live => ?_⟩
    by_contra unfreed
    exact placed.clear (placed.keeps b live unfreed)

/-- A thread that stores references to live cells only has no dangling reference, at any
time and whatever the settings of its heap. -/
theorem noDangling (fresh : u.Fresh) {ops : Nat → HeapOp α}
    (stores : ∀ n, (u.run ops n).StoresLive (ops n)) : u.NoDangling ops := by
  have tidy : ∀ n, (u.run ops n).Tidy := fresh.tidy.run stores
  constructor
  · exact fun n => (tidy n).edges
  · exact fun n => (tidy n).roots
  · exact fun n => (tidy n).globals
  · intro n a b s t w ha hb hs ht
    have sound := (tidy n).sound
    obtain rfl := sound.covers_unique hs ht
    rw [← (sound.spot?_eq_some_iff.mp ha).2, ← (sound.spot?_eq_some_iff.mp hb).2]
  · intro n a made
    cases op : ops n with
    | allocate payload others =>
      rw [op] at made
      exact ((tidy n).made_spec made).2
    | _ =>
      rw [op] at made
      cases made
  · intro n a payload others allocates made
    rw [allocates] at made
    have here := ((tidy n).made_spec made).1
    rw [← allocates] at here
    have live := Heap.isLive_of_payload? here
    obtain ⟨s, hs⟩ := Option.isSome_iff_exists.mp live
    refine ⟨s, fun k unfreed => ?_⟩
    obtain ⟨slot, after⟩ := stays_run (n := n + 1) tidy hs here k unfreed
    exact ⟨Heap.cellFor?_of_isLive (Heap.isLive_of_payload? after), slot, after⟩

/-- A thread with a heap whose blocks hold eight cells each. -/
def newcomer : HeapUser Node where
  heap :=
    { Heap.oneClass with
      settings := { Settings.standard with sizeClasses := [4064], initialBlocks := 1 }
      allocators := #[Allocator.create 4064 (scatteredBlocks 1 0)] }
  roots := #[]

/-- The addresses of the first two cells. -/
def cellOf (i : Nat) : Address := newcomer.heap.addressOf ⟨0, ⟨0, i⟩⟩

/-- Two nodes that come to refer to each other and are then no longer rooted. -/
def knot (n : Nat) : HeapOp Node :=
  [.allocate ⟨0, "node", 8, 8, []⟩ [],
    .setRoots #[.ref (cellOf 0)],
    .allocate ⟨1, "node", 8, 8, [.ref (cellOf 0)]⟩ [],
    .edit (cellOf 0) fun node => node.addEdge (.ref (cellOf 1)),
    .setRoots #[],
    .collect []].getD n .enable

lemma fresh_newcomer : newcomer.Fresh :=
  ⟨scatteredBlocks 1, newcomer.heap.settings, apart_scatteredBlocks 1, rfl, rfl⟩

lemma storesLive_knot (n : Nat) : (newcomer.run knot n).StoresLive (knot n) := by
  by_cases late : 6 ≤ n
  · have op : knot n = .enable := by
      rw [knot, List.getD_eq_getElem?_getD, List.getElem?_eq_none late]
      rfl
    rw [op]
    trivial
  · obtain lt : n < 6 := by omega
    interval_cases n
    · change newcomer.heap.AllLive []
      decide +kernel
    · change (newcomer.run knot 1).heap.AllLive [.ref (cellOf 0)]
      decide +kernel
    · change (newcomer.run knot 2).heap.AllLive [.ref (cellOf 0)]
      decide +kernel
    · intro payload here
      have old : (newcomer.run knot 3).heap.payload? (cellOf 0) = some ⟨0, "node", 8, 8, []⟩ := by
        decide +kernel
      obtain rfl := Option.some.inj (old.symm.trans here)
      change (newcomer.run knot 3).heap.AllLive [.ref (cellOf 1)]
      decide +kernel
    · exact fun x mem => by cases mem
    · trivial

/-- The nodes are there when the first one is made to refer to the second. -/
theorem noDangling_knot : newcomer.Fresh ∧ (∀ n, (newcomer.run knot n).StoresLive (knot n)) ∧
    newcomer.NoDangling knot ∧
    (newcomer.run knot 3).heap.AllLive [.ref (cellOf 0), .ref (cellOf 1)] := by
  refine ⟨fresh_newcomer, storesLive_knot, noDangling fresh_newcomer storesLive_knot, ?_⟩
  decide +kernel

end HeapUser

end CellMachine
