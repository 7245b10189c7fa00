import CellMachine.Proofs.Heap.Exactness

/-!
# Allocation with a pending payload

An allocation may have to collect before it takes its slot. The values of the payload are
among the roots of that collection, so whatever live cell the payload refers to is live
when the payload has its slot.
-/

namespace CellMachine

namespace Heap

variable {α : Type} {h : Heap α}

lemma Sound.isLive_congr {h' : Heap α} (sound : h.Sound) (sound' : h'.Sound)
    (layout : h'.layout = h.layout) (used : ∀ s, (h'.cellAt? s).isSome = (h.cellAt? s).isSome)
    (x : Address) : h'.isLive x = h.isLive x := by
  rw [isLive, isLive, sound.spot?_congr sound' layout used]

lemma size_of_layout {h' : Heap α} (layout : h'.layout = h.layout) :
    h'.allocators.size = h.allocators.size := by
  have sizes := congrArg Array.size layout
  simpa [Heap.layout] using sizes

/-- A live cell is its own start. -/
lemma cellFor?_of_isLive {x : Address} (live : h.isLive x) : h.cellFor? x = some x := by
  obtain ⟨s, hs⟩ := Option.isSome_iff_exists.mp live
  rw [spot?, Option.filter_eq_some_iff] at hs
  obtain ⟨hit, here⟩ := hs
  rw [cellFor?, hit, Option.map_some]
  exact congrArg some (by simpa using here)

/-- Taking a slot makes one address live, which was not live before. -/
lemma Sound.allocateIn_live (sound : h.Sound) {c : Nat} (hc : c < h.allocators.size) (payload : α) :
    ∃ a, (h.allocateIn c payload).1 = .ok a ∧ (h.allocateIn c payload).2.Sound ∧
      (h.allocateIn c payload).2.payload? a = some payload ∧
      ∀ x, (x ≠ a ∧ (h.allocateIn c payload).2.isLive x) ↔ h.isLive x := by
  obtain ⟨s, _, clear, ok, sound', layout, cells⟩ := sound.allocateIn_spec hc payload
  have address := addressOf_congr layout
  have taken : (h.allocateIn c payload).2.cellAt? s = some (Cell.fresh payload) := by
    rw [cells, if_pos rfl]
  have used : ((h.allocateIn c payload).2.cellAt? s).isSome := by
    rw [taken]
    rfl
  refine ⟨h.addressOf s, ok, sound', ?_, fun x => ?_⟩
  · rw [← address, payload?, sound'.cell?_addressOf used, taken]
    rfl
  · constructor
    · rintro ⟨other, live⟩
      obtain ⟨t, here, rfl⟩ := sound'.isLive_iff.mp live
      rw [address] at other ⊢
      have ne : s ≠ t := by
        rintro rfl
        exact other rfl
      rw [cells, if_neg ne] at here
      exact sound.isLive_iff.mpr ⟨t, here, rfl⟩
    · intro live
      obtain ⟨t, here, rfl⟩ := sound.isLive_iff.mp live
      have ne : s ≠ t := by
        rintro rfl
        rw [clear] at here
        cases here
      have here' : ((h.allocateIn c payload).2.cellAt? t).isSome := by
        rwa [cells, if_neg ne]
      refine ⟨fun same => ne ?_, sound'.isLive_iff.mpr ⟨t, here', address t⟩⟩
      rw [← address, ← address] at same
      exact (sound'.addressOf_inj here' used same).symm

variable [Payload α]

/-- The references that the payload holds are submitted by the allocating thread. -/
lemma mem_rootSets_of_child {threads : List (Array Value)} {pending : List Value} {x : Address}
    (child : Value.ref x ∈ pending) : ∃ roots ∈ rootSets threads pending, x ∈ roots := by
  have mem := mem_references.mpr child
  cases threads with
  | nil => exact ⟨_, List.mem_singleton_self _, mem⟩
  | cons own others => exact ⟨_, List.mem_cons_self, List.mem_append_right _ mem⟩

lemma Sound.collect (sound : h.Sound) (inputs : List RootSet) : (h.collect inputs).2.Sound := by
  rw [Heap.collect]
  split
  · exact sound.runCycle inputs
  · exact sound

lemma Sound.layout_collect (sound : h.Sound) (inputs : List RootSet) :
    (h.collect inputs).2.layout = h.layout := by
  rw [Heap.collect]
  split
  · exact sound.layout_runCycle inputs
  · rfl

/-- A collection keeps a live cell whose address is submitted, and revives none. -/
lemma Sound.isLive_collect_iff (sound : h.Sound) {inputs : List RootSet} {x : Address}
    (submitted : ∃ roots ∈ inputs, x ∈ roots) : (h.collect inputs).2.isLive x ↔ h.isLive x := by
  rw [Heap.collect]
  split
  · change (h.runCycle inputs).isLive x ↔ _
    rw [sound.isLive_runCycle_iff]
    exact ⟨fun reached => reached.isLive sound,
      fun live => .root (.inl submitted) (cellFor?_of_isLive live)⟩
  · rfl

/-- Making room neither frees nor revives what the payload refers to. -/
lemma Sound.makeRoom_spec (sound : h.Sound) (c : Nat) (threads : List (Array Value)) (payload : α) :
    (h.makeRoom c threads payload).Sound ∧ (h.makeRoom c threads payload).layout = h.layout ∧
      ∀ x, Value.ref x ∈ Payload.children payload →
        ((h.makeRoom c threads payload).isLive x ↔ h.isLive x) := by
  rw [makeRoom]
  split
  · have sound' := sound.prewarm c
    refine ⟨sound', layout_prewarm h c, fun x _ => ?_⟩
    rw [sound.isLive_congr sound' (layout_prewarm h c) (by simp)]
  · exact ⟨sound, rfl, fun _ _ => Iff.rfl⟩
  · have soundCycle := sound.collect (rootSets threads (Payload.children payload))
    have sound' := soundCycle.grow c
    refine ⟨sound', (layout_grow _ c).trans (sound.layout_collect _), fun x child => ?_⟩
    rw [soundCycle.isLive_congr sound' (layout_grow _ c) (by simp)]
    exact sound.isLive_collect_iff (mem_rootSets_of_child child)

/-- An allocation of a payload that fits a class succeeds, and the live cells that the
payload refers to stay live. -/
lemma Sound.allocate_spec (sound : h.Sound) {payload : α} {c : Nat}
    (fits : h.classOf payload = .ok c) (threads : List (Array Value)) :
    ∃ a, (h.allocate threads payload).1 = .ok a ∧ (h.allocate threads payload).2.Sound ∧
      (h.allocate threads payload).2.payload? a = some payload ∧
      ∀ x, Value.ref x ∈ Payload.children payload →
        ((x ≠ a ∧ (h.allocate threads payload).2.isLive x) ↔ h.isLive x) := by
  obtain ⟨soundRoom, layout, room⟩ := sound.makeRoom_spec c threads payload
  have hc : c < (h.makeRoom c threads payload).allocators.size := by
    rw [size_of_layout layout]
    exact classOf_lt sound fits
  obtain ⟨a, ok, sound', here, live⟩ := soundRoom.allocateIn_live hc payload
  have eq : h.allocate threads payload = (h.makeRoom c threads payload).allocateIn c payload := by
    rw [allocate, fits]
  rw [eq]
  exact ⟨a, ok, sound', here, fun x child => (live x).trans (room x child)⟩

end Heap

end CellMachine
