import CellMachine.Proofs.Heap.Allocation

/-!
# Payloads

What single operations do to the payloads that live at the addresses of a heap. An edit
changes the one that it is about, taking a slot adds one, and where the allocators stay as
they are no payload changes.
-/

namespace CellMachine

namespace Heap

variable {α : Type}

lemma Sound.payload?_addressOf {h : Heap α} (sound : h.Sound) {s : Spot}
    (used : (h.cellAt? s).isSome) :
    h.payload? (h.addressOf s) = (h.cellAt? s).map Cell.payload := by
  rw [payload?, sound.cell?_addressOf used]

lemma isLive_of_payload? {h : Heap α} {a : Address} {payload : α}
    (here : h.payload? a = some payload) : h.isLive a := by
  obtain ⟨c, hc, _⟩ := Option.map_eq_some_iff.mp here
  obtain ⟨s, hs, _⟩ := Option.bind_eq_some_iff.mp hc
  rw [isLive, hs]
  rfl

lemma Sound.spot?_modifyPayload {h : Heap α} (sound : h.Sound) (a : Address) (f : α → α)
    (x : Address) : (h.modifyPayload a f).spot? x = h.spot? x := by
  rw [modifyPayload]
  split
  · rename_i s _
    refine sound.spot?_congr (sound.modifyAt s _) (layout_modifyAt h s _) (fun t => ?_) x
    rw [cellAt?_modifyAt]
    split
    · exact Option.isSome_map
    · rfl
  · rfl

lemma Sound.isLive_modifyPayload {h : Heap α} (sound : h.Sound) (a : Address) (f : α → α)
    (x : Address) : (h.modifyPayload a f).isLive x = h.isLive x := by
  rw [isLive, isLive, sound.spot?_modifyPayload]

lemma Sound.modifyPayload {h : Heap α} (sound : h.Sound) (a : Address) (f : α → α) :
    (h.modifyPayload a f).Sound := by
  rw [Heap.modifyPayload]
  split
  · exact sound.modifyAt _ _
  · exact sound

lemma Sound.payload?_modifyPayload {h : Heap α} (sound : h.Sound) (a : Address) (f : α → α)
    (x : Address) :
    (h.modifyPayload a f).payload? x = if a = x then (h.payload? x).map f else h.payload? x := by
  rw [payload?, cell?, sound.spot?_modifyPayload, payload?, cell?]
  cases hx : h.spot? x with
  | none => simp
  | some t =>
    obtain ⟨used, rfl⟩ := sound.spot?_eq_some_iff.mp hx
    rw [Option.bind_some, Option.bind_some, Heap.modifyPayload]
    by_cases same : a = h.addressOf t
    · rw [same, hx, if_pos rfl]
      dsimp only
      rw [cellAt?_modifyAt, if_pos rfl, Option.map_map, Option.map_map]
      rfl
    · rw [if_neg same]
      cases ha : h.spot? a with
      | none => rfl
      | some s =>
        have other : s ≠ t := by
          rintro rfl
          exact same (sound.spot?_eq_some_iff.mp ha).2.symm
        dsimp only
        rw [cellAt?_modifyAt, if_neg other]

/-- Which cells there are depends on the allocators alone. -/
lemma cells_congr {h h' : Heap α} (same : h'.allocators = h.allocators) (x : Address) :
    h'.spot? x = h.spot? x ∧ h'.payload? x = h.payload? x := by
  obtain ⟨_, _, _, _, _, _, _⟩ := h
  obtain ⟨_, _, _, _, _, _, _⟩ := h'
  dsimp only at same
  subst same
  exact ⟨rfl, rfl⟩

/-- Nor does it matter for the addresses how many free slots there are. -/
lemma Sound.cells_of_layout {h h' : Heap α} (sound : h.Sound) (sound' : h'.Sound)
    (layout : h'.layout = h.layout) (cells : ∀ s, h'.cellAt? s = h.cellAt? s) (x : Address) :
    h'.spot? x = h.spot? x ∧ h'.payload? x = h.payload? x := by
  have spot := sound.spot?_congr sound' layout (fun s => congrArg Option.isSome (cells s)) x
  refine ⟨spot, ?_⟩
  rw [payload?, payload?, cell?, cell?, spot]
  exact congrArg (fun f => ((h.spot? x).bind f).map Cell.payload) (funext cells)

lemma modifyPayload_frame (h : Heap α) (a : Address) (f : α → α) :
    (h.modifyPayload a f).settings = h.settings ∧
      (h.modifyPayload a f).globalRoots = h.globalRoots ∧
      (h.modifyPayload a f).dropped = h.dropped := by
  rw [modifyPayload]
  split
  · exact ⟨rfl, rfl, rfl⟩
  · exact ⟨rfl, rfl, rfl⟩

lemma addGlobalRoot_frame (h : Heap α) (v : Value) :
    (h.addGlobalRoot v).settings = h.settings ∧ (h.addGlobalRoot v).allocators = h.allocators ∧
      (h.addGlobalRoot v).dropped = h.dropped := by
  rw [addGlobalRoot]
  split
  · exact ⟨rfl, rfl, rfl⟩
  · exact ⟨rfl, rfl, rfl⟩

lemma allocateIn_frame (h : Heap α) (c : Nat) (payload : α) :
    (h.allocateIn c payload).2.globalRoots = h.globalRoots ∧
      (h.allocateIn c payload).2.dropped = h.dropped := by
  rw [allocateIn]
  split
  · exact ⟨rfl, rfl⟩
  · exact ⟨rfl, rfl⟩

/-- Taking a slot for a payload leaves the cells in all other slots alone. -/
lemma Sound.allocateIn_cells {h : Heap α} (sound : h.Sound) {c : Nat}
    (hc : c < h.allocators.size) (payload : α) :
    ∃ a, (h.allocateIn c payload).1 = .ok a ∧ (h.allocateIn c payload).2.Sound ∧
      ¬ h.isLive a ∧ (h.allocateIn c payload).2.payload? a = some payload ∧
      ∀ x, x ≠ a → (h.allocateIn c payload).2.spot? x = h.spot? x ∧
        (h.allocateIn c payload).2.payload? x = h.payload? x := by
  obtain ⟨s, _, clear, ok, sound', layout, cells⟩ := sound.allocateIn_spec hc payload
  have address := addressOf_congr layout
  have taken : (h.allocateIn c payload).2.cellAt? s = some (Cell.fresh payload) := by
    rw [cells, if_pos rfl]
  have used : ((h.allocateIn c payload).2.cellAt? s).isSome := by
    rw [taken]
    rfl
  have free : ¬ h.isLive (h.addressOf s) := by
    intro live
    obtain ⟨t, here, same⟩ := sound.isLive_iff.mp live
    have same' : t = s := by
      refine sound'.addressOf_inj ?_ used (by rw [address, address, same])
      rw [cells]
      split
      · rfl
      · exact here
    rw [same', clear] at here
    cases here
  have spot : ∀ x, x ≠ h.addressOf s →
      (h.allocateIn c payload).2.spot? x = h.spot? x := by
    intro x other
    apply Option.ext
    intro t
    rw [sound'.spot?_eq_some_iff, sound.spot?_eq_some_iff, address]
    constructor
    · rintro ⟨here, rfl⟩
      have ne : s ≠ t := fun same => other (by rw [same])
      exact ⟨by rwa [cells, if_neg ne] at here, rfl⟩
    · rintro ⟨here, rfl⟩
      have ne : s ≠ t := fun same => other (by rw [same])
      exact ⟨by rwa [cells, if_neg ne], rfl⟩
  refine ⟨h.addressOf s, ok, sound', free, ?_, fun x other => ⟨spot x other, ?_⟩⟩
  · rw [← address, sound'.payload?_addressOf used, taken]
    rfl
  · rw [payload?, payload?, cell?, cell?, spot x other]
    cases hx : h.spot? x with
    | none => rfl
    | some t =>
      obtain ⟨_, rfl⟩ := sound.spot?_eq_some_iff.mp hx
      have ne : s ≠ t := fun same => other (by rw [same])
      rw [Option.bind_some, Option.bind_some, cells, if_neg ne]

lemma Sound.cells_of_room [Payload α] {h h' : Heap α} (sound : h.Sound) {c : Nat}
    (made : h' = h.prewarm c ∨ h' = h.grow c) (a : Address) :
    h'.spot? a = h.spot? a ∧ h'.payload? a = h.payload? a := by
  rcases made with rfl | rfl
  · exact sound.cells_of_layout (sound.prewarm c) (layout_prewarm h c) (cellAt?_prewarm h c) a
  · exact sound.cells_of_layout (sound.grow c) (layout_grow h c) (cellAt?_grow h c) a

lemma globalRoots_of_room {h h' : Heap α} {c : Nat} (made : h' = h.prewarm c ∨ h' = h.grow c) :
    h'.globalRoots = h.globalRoots := by
  rcases made with rfl | rfl
  · rfl
  · rfl

/-- A new cell takes the place of no other. -/
lemma Sound.payload?_allocateIn [Payload α] {h : Heap α} (sound : h.Sound) {c : Nat}
    {payload old : α} (fits : h.classOf payload = .ok c) {a : Address}
    (here : h.payload? a = some old) : (h.allocateIn c payload).2.payload? a = some old := by
  obtain ⟨b, _, _, free, _, others⟩ := sound.allocateIn_cells (classOf_lt sound fits) payload
  have other : a ≠ b := by
    rintro rfl
    exact free (isLive_of_payload? here)
  exact (others a other).2.trans here

/-- The switch and the settings of a heap. -/
structure SameSwitches {α : Type} (h h' : Heap α) : Prop where
  settings : h'.settings = h.settings
  enabled : h'.gcEnabled = h.gcEnabled
  globalRoots : h'.globalRoots = h.globalRoots

section Switches

variable {α : Type} {h h' : Heap α} {c : Nat}

lemma SameSwitches.refl (h : Heap α) : h.SameSwitches h := ⟨rfl, rfl, rfl⟩

lemma SameSwitches.trans {h'' : Heap α} (first : h.SameSwitches h')
    (second : h'.SameSwitches h'') : h.SameSwitches h'' :=
  ⟨second.settings.trans first.settings, second.enabled.trans first.enabled,
    second.globalRoots.trans first.globalRoots⟩

lemma sameSwitches_room (made : h' = h.prewarm c ∨ h' = h.grow c) : h.SameSwitches h' := by
  rcases made with rfl | rfl
  · exact ⟨rfl, rfl, rfl⟩
  · exact ⟨rfl, rfl, rfl⟩

lemma sameSwitches_modifyPayload (h : Heap α) (a : Address) (f : α → α) :
    h.SameSwitches (h.modifyPayload a f) := by
  rw [modifyPayload]
  split
  · exact ⟨rfl, rfl, rfl⟩
  · exact ⟨rfl, rfl, rfl⟩

lemma sameSwitches_allocateIn (h : Heap α) (c : Nat) (payload : α) :
    h.SameSwitches (h.allocateIn c payload).2 := by
  rw [allocateIn]
  split
  · exact ⟨rfl, rfl, rfl⟩
  · exact ⟨rfl, rfl, rfl⟩

variable [Payload α]

lemma Sound.sameSwitches_runCycle (sound : h.Sound) (inputs : List RootSet) :
    h.SameSwitches (h.runCycle inputs) := by
  obtain ⟨_, _, _, frame⟩ := sound.runCycle_frame inputs
  constructor <;> rw [frame]

lemma Sound.sameSwitches_collect (sound : h.Sound) (inputs : List RootSet) :
    h.SameSwitches (h.collect inputs).2 := by
  rw [Heap.collect]
  split
  · exact sound.sameSwitches_runCycle inputs
  · exact .refl h

lemma Sound.sameSwitches_makeRoom (sound : h.Sound) (c : Nat) (threads : List (Array Value))
    (payload : α) : h.SameSwitches (h.makeRoom c threads payload) := by
  rw [makeRoom]
  split
  · exact sameSwitches_room (.inl rfl)
  · exact .refl h
  · exact (sound.sameSwitches_collect _).trans (sameSwitches_room (.inr rfl))

end Switches

/-- Nothing lives in a heap that is just made. -/
lemma not_isLive_createAt {place : Nat → Nat → Nat} {s : Settings} {h : Heap α}
    (apart : Apart place s.sizeClasses.length) (made : createAt place s = .ok h) (a : Address) :
    ¬ h.isLive a := by
  intro live
  obtain ⟨spot, used, _⟩ := (sound_createAt apart made).isLive_iff.mp live
  rw [createAt] at made
  split at made
  · cases made
  · cases made
    simp only [cellAt?, List.getElem?_toArray, List.getElem?_mapIdx] at used
    cases hs : s.sizeClasses[spot.sizeClass]? with
    | none => simp [hs] at used
    | some size => simp [hs] at used

end Heap

end CellMachine
