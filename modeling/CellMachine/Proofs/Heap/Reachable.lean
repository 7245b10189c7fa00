import CellMachine.Proofs.Heap.Cycle

/-!
# Reachable heaps

The states a heap can get into: it starts empty, with its blocks wherever the system
puts them, and every change afterwards is one of those below. Edges and flags change
freely between two collections, and each class may offer its free blocks in any order.
All these states are sound.
-/

namespace CellMachine

lemma Settings.classFault?_eq_none {s : Settings} (accepted : s.fault? = none) {c size : Nat}
    (here : s.sizeClasses[c]? = some size) : classFault? size = none := by
  have mem := List.mem_of_getElem? here
  have accepted := fault?_eq_none_iff.mp accepted
  exact classFault?_eq_none_iff.mpr
    ⟨accepted.large size mem, accepted.aligned size mem, accepted.many size mem⟩

/-- No two blocks of the first classes lie at the same place. -/
def Apart (place : Nat → Nat → Nat) (classes : Nat) : Prop :=
  ∀ c i d j, c < classes → d < classes → place c i = place d j → c = d ∧ i = j

lemma apart_scatteredBlocks (classes : Nat) : Apart (scatteredBlocks classes) classes := by
  intro c i d j hc hd eq
  have same : i * classes + c = j * classes + d := by
    simp only [scatteredBlocks] at eq
    omega
  have quotient : ∀ k e : Nat, e < classes → (k * classes + e) / classes = k := by
    intro k e he
    rw [Nat.add_comm, Nat.add_mul_div_right e k (by omega), Nat.div_eq_of_lt he, Nat.zero_add]
  have block : i = j := by
    rw [← quotient i c hc, same, quotient j d hd]
  subst block
  exact ⟨by omega, rfl⟩

namespace Heap

variable {α : Type}

/-- A change by which no slot is taken or cleared. -/
inductive Touch : Heap α → Heap α → Prop where
  /-- New edges, another payload or other flags for the cell in one slot. -/
  | edit (h : Heap α) (s : Spot) (f : Cell α → Cell α) : Touch h (h.modifyAt s f)
  | addRoot (h : Heap α) (v : Value) : Touch h (h.addGlobalRoot v)
  | removeRoot (h : Heap α) (v : Value) : Touch h (h.removeGlobalRoot v)
  | enable (h : Heap α) : Touch h h.enable
  | disable (h : Heap α) : Touch h h.disable
  | atExit (h : Heap α) (on : Bool) : Touch h (h.setCollectAllAtExit on)

/-- Offers the free blocks of a class in another order. -/
def offerInOrder (h : Heap α) (c : Nat) (order : List Nat) : Heap α :=
  h.modifyClass c fun a => if order.Perm a.freeBlocks then { a with freeBlocks := order } else a

variable [Payload α]

/-- A change that frees no cell. -/
inductive Mutation : Heap α → Heap α → Prop where
  | touch {h h' : Heap α} (change : Touch h h') : Mutation h h'
  | prewarm (h : Heap α) (c : Nat) : Mutation h (h.prewarm c)
  | grow (h : Heap α) (c : Nat) : Mutation h (h.grow c)
  | claim (h : Heap α) {c : Nat} {payload : α} (fits : h.classOf payload = .ok c) :
      Mutation h (h.allocateIn c payload).2
  | offerInOrder (h : Heap α) (c : Nat) (order : List Nat) : Mutation h (h.offerInOrder c order)

/-- One change of a heap. -/
inductive Step : Heap α → Heap α → Prop where
  | mutation {h h' : Heap α} (change : Mutation h h') : Step h h'
  | cycle (h : Heap α) (inputs : List RootSet) : Step h (h.runCycle inputs)
  | dropAll (h : Heap α) : Step h h.collectAll.2

inductive Reachable : Heap α → Prop where
  | create {place : Nat → Nat → Nat} {s : Settings} {h : Heap α}
      (apart : Apart place s.sizeClasses.length) (made : createAt place s = .ok h) : Reachable h
  | step {h h' : Heap α} (before : Reachable h) (change : Step h h') : Reachable h'

omit [Payload α] in
lemma Sound.touch {h h' : Heap α} (sound : h.Sound) (change : Touch h h') : h'.Sound := by
  cases change with
  | edit s f => exact sound.modifyAt s f
  | addRoot v =>
    rw [addGlobalRoot]
    split
    · exact sound.congr rfl rfl
    · exact sound
  | removeRoot v => exact sound.congr rfl rfl
  | enable => exact sound.congr rfl rfl
  | disable => exact sound.congr rfl rfl
  | atExit on => exact sound.congr rfl rfl

omit [Payload α] in
lemma layout_offerInOrder (h : Heap α) (c : Nat) (order : List Nat) :
    (h.offerInOrder c order).layout = h.layout := by
  refine layout_modifyClass h c fun a => ?_
  split
  · exact ⟨rfl, rfl⟩
  · exact ⟨rfl, rfl⟩

omit [Payload α] in
lemma cellAt?_offerInOrder (h : Heap α) (c : Nat) (order : List Nat) (s : Spot) :
    (h.offerInOrder c order).cellAt? s = h.cellAt? s := by
  rw [offerInOrder, cellAt?_modifyClass]
  split
  · rename_i same
    subst same
    rw [cellAt?]
    congr 1
    funext a
    split
    · rfl
    · rfl
  · rfl

omit [Payload α] in
lemma Sound.offerInOrder {h : Heap α} (sound : h.Sound) (c : Nat) (order : List Nat) :
    (h.offerInOrder c order).Sound := by
  refine sound.modifyClass c (fun a => ?_) fun a ha => ?_
  · split
    · exact ⟨rfl, rfl⟩
    · exact ⟨rfl, rfl⟩
  · have old := sound.allocator c a ha
    split
    · rename_i perm
      exact ⟨old.size_valid, old.block, old.books, perm.nodup_iff.mpr old.offered_nodup,
        fun i => perm.mem_iff.trans (old.mem_offered i)⟩
    · exact old

omit [Payload α] in
lemma sound_createAt {place : Nat → Nat → Nat} {s : Settings} {h : Heap α}
    (apart : Apart place s.sizeClasses.length) (made : createAt place s = .ok h) : h.Sound := by
  rw [createAt] at made
  split at made
  · cases made
  · rename_i accepted
    cases made
    have class_ : ∀ c : Nat, ((s.sizeClasses.mapIdx fun c size =>
        (Allocator.create size (place c) : Allocator α)).toArray)[c]? =
        (s.sizeClasses[c]?).map fun size => Allocator.create size (place c) := by
      intro c
      rw [List.getElem?_toArray, List.getElem?_mapIdx]
    constructor
    · exact accepted
    · intro c
      simp only [class_, Option.map_map]
      exact Option.map_id' ..
    · intro c a ha
      simp only [class_, Option.map_eq_some_iff] at ha
      obtain ⟨size, hsize, rfl⟩ := ha
      exact Allocator.sound_create (Settings.classFault?_eq_none accepted hsize) _
    · intro c a d b ha hb i j eq
      simp only [class_, Option.map_eq_some_iff] at ha hb
      obtain ⟨size, hsize, rfl⟩ := ha
      obtain ⟨size', hsize', rfl⟩ := hb
      exact apart c i d j (List.getElem?_eq_some_iff.mp hsize).1
        (List.getElem?_eq_some_iff.mp hsize').1 eq

lemma Sound.mutation {h h' : Heap α} (sound : h.Sound) (change : Mutation h h') : h'.Sound := by
  cases change with
  | touch change => exact sound.touch change
  | prewarm c => exact sound.prewarm c
  | grow c => exact sound.grow c
  | @claim c payload fits =>
    obtain ⟨_, _, _, _, sound', _⟩ := sound.allocateIn_spec (classOf_lt sound fits) payload
    exact sound'
  | offerInOrder c order => exact sound.offerInOrder c order

lemma Sound.step {h h' : Heap α} (sound : h.Sound) (change : Step h h') : h'.Sound := by
  cases change with
  | mutation change => exact sound.mutation change
  | cycle inputs => exact sound.runCycle inputs
  | dropAll => exact sound.unmarkAll.sweep

lemma Reachable.sound {h : Heap α} (reachable : h.Reachable) : h.Sound := by
  induction reachable with
  | create apart made => exact sound_createAt apart made
  | step before change ih => exact ih.step change

lemma Reachable.mutations {h h' : Heap α} (reachable : h.Reachable)
    (changes : Relation.ReflTransGen Mutation h h') : h'.Reachable := by
  induction changes with
  | refl => exact reachable
  | tail _ change ih => exact ih.step (.mutation change)

omit [Payload α] in
lemma touches_modifyPayload (h : Heap α) (a : Address) (f : α → α) :
    Relation.ReflTransGen Touch h (h.modifyPayload a f) := by
  rw [modifyPayload]
  split
  · exact .single (.edit h _ _)
  · exact .refl

lemma Mutation.settings {h h' : Heap α} (change : Mutation h h') : h'.settings = h.settings := by
  cases change with
  | touch change =>
    cases change with
    | addRoot v =>
      rw [addGlobalRoot]
      split
      · rfl
      · rfl
    | _ => rfl
  | claim fits =>
    rw [allocateIn]
    split
    · rfl
    · rfl
  | _ => rfl

lemma settings_of_mutations {h h' : Heap α} (changes : Relation.ReflTransGen Mutation h h') :
    h'.settings = h.settings := by
  induction changes with
  | refl => rfl
  | tail _ change ih => exact change.settings.trans ih

omit [Payload α] in
/-- The slot of a live cell stays where it is, and in use. -/
lemma Sound.isLive_of_layout {h h' : Heap α} (sound : h.Sound) (sound' : h'.Sound)
    (layout : h'.layout = h.layout) (used : ∀ s, (h.cellAt? s).isSome → (h'.cellAt? s).isSome)
    {a : Address} (live : h.isLive a) : h'.isLive a := by
  obtain ⟨s, here, rfl⟩ := sound.isLive_iff.mp live
  exact sound'.isLive_iff.mpr ⟨s, used s here, addressOf_congr layout s⟩

/-- No mutation frees a cell. -/
lemma Sound.isLive_mutation {h h' : Heap α} (sound : h.Sound) (change : Mutation h h')
    {a : Address} (live : h.isLive a) : h'.isLive a := by
  have sound' := sound.mutation change
  cases change with
  | touch change =>
    cases change with
    | edit s f =>
      refine sound.isLive_of_layout sound' (layout_modifyAt h s f) ?_ live
      intro t used
      rw [cellAt?_modifyAt]
      split
      · simpa using used
      · exact used
    | addRoot v =>
      rw [addGlobalRoot]
      split
      · exact live
      · exact live
    | _ => exact live
  | prewarm c =>
    exact sound.isLive_of_layout sound' (layout_prewarm h c) (by simp) live
  | grow c =>
    exact sound.isLive_of_layout sound' (layout_grow h c) (by simp) live
  | @claim c payload fits =>
    obtain ⟨s, _, _, _, _, layout, cells⟩ := sound.allocateIn_spec (classOf_lt sound fits) payload
    refine sound.isLive_of_layout sound' layout ?_ live
    intro t used
    rw [cells]
    split
    · rfl
    · exact used
  | offerInOrder c order =>
    refine sound.isLive_of_layout sound' (layout_offerInOrder h c order) ?_ live
    intro t used
    rwa [cellAt?_offerInOrder]

lemma Sound.isLive_mutations {h h' : Heap α} (sound : h.Sound)
    (changes : Relation.ReflTransGen Mutation h h') {a : Address} (live : h.isLive a) :
    h'.Sound ∧ h'.isLive a := by
  induction changes with
  | refl => exact ⟨sound, live⟩
  | tail _ change ih => exact ⟨ih.1.mutation change, ih.1.isLive_mutation change ih.2⟩

lemma Sound.settings_collect {h : Heap α} (sound : h.Sound) (inputs : List RootSet) :
    (h.collect inputs).2.settings = h.settings := by
  rw [collect]
  split
  · obtain ⟨_, _, _, frame⟩ := sound.runCycle_frame inputs
    change (h.runCycle inputs).settings = h.settings
    rw [frame]
  · rfl

lemma Reachable.collect {h : Heap α} (reachable : h.Reachable) (inputs : List RootSet) :
    (h.collect inputs).2.Reachable := by
  rw [Heap.collect]
  split
  · exact reachable.step (.cycle h inputs)
  · exact reachable

lemma Reachable.makeRoom {h : Heap α} (reachable : h.Reachable) (c : Nat)
    (threads : List (Array Value)) (payload : α) : (h.makeRoom c threads payload).Reachable ∧
      (h.makeRoom c threads payload).settings = h.settings := by
  rw [Heap.makeRoom]
  split
  · exact ⟨reachable.step (.mutation (.prewarm h c)), rfl⟩
  · exact ⟨reachable, rfl⟩
  · have collected := reachable.collect (rootSets threads (Payload.children payload))
    exact ⟨collected.step (.mutation (.grow _ c)), reachable.sound.settings_collect _⟩

lemma classOf_congr {h h' : Heap α} (same : h'.settings = h.settings) (payload : α) :
    h'.classOf payload = h.classOf payload := by
  rw [classOf, classOf, same]

lemma Reachable.allocate {h : Heap α} (reachable : h.Reachable) (threads : List (Array Value))
    (payload : α) : (h.allocate threads payload).2.Reachable := by
  rw [Heap.allocate]
  cases fits : h.classOf payload with
  | error f => exact reachable
  | ok c =>
    obtain ⟨room, settings⟩ := reachable.makeRoom c threads payload
    exact room.step (.mutation (.claim _ ((classOf_congr settings payload).trans fits)))

end Heap

end CellMachine
