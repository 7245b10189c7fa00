import CellMachine.Proofs.Heap.Layout

/-!
# What operations do to the cells of a heap

Every operation on a heap is described by what it does to the cell in each slot, and is
shown to keep the heap sound and its layout as it was. Only a sweep and the filling of a
slot change which slots are in use.
-/

namespace CellMachine

lemma Cell.isMarked_mark {α : Type} (c : Cell α) : c.mark.isMarked = true := by
  have bits : ∀ b : UInt8, ((b ||| 1) &&& 1 == 1) = true := by decide +kernel
  exact bits c.flags.bits

lemma Cell.isMarked_unmark {α : Type} (c : Cell α) : c.unmark.isMarked = false := by
  have bits : ∀ b : UInt8, ((b &&& ~~~1) &&& 1 == 1) = false := by decide +kernel
  exact bits c.flags.bits

namespace Heap

variable {α : Type}

lemma layout_of_classes {h h' : Heap α} (f : Nat → Allocator α → Allocator α)
    (classes : ∀ c : Nat, h'.allocators[c]? = (h.allocators[c]?).map (f c))
    (keeps : ∀ (c : Nat) (a : Allocator α), h.allocators[c]? = some a →
      (f c a).cellSize = a.cellSize ∧ (f c a).place = a.place) : h'.layout = h.layout := by
  apply Array.ext_getElem?
  intro c
  rw [layout, layout, Array.getElem?_map, Array.getElem?_map, classes c]
  cases ha : h.allocators[c]? with
  | none => rfl
  | some a => simp [keeps c a ha]

lemma Sound.of_classes {h h' : Heap α} (sound : h.Sound) (settings : h'.settings = h.settings)
    (f : Nat → Allocator α → Allocator α)
    (classes : ∀ c : Nat, h'.allocators[c]? = (h.allocators[c]?).map (f c))
    (keeps : ∀ (c : Nat) (a : Allocator α), h.allocators[c]? = some a →
      (f c a).cellSize = a.cellSize ∧ (f c a).place = a.place)
    (sounds : ∀ (c : Nat) (a : Allocator α), h.allocators[c]? = some a → (f c a).Sound) :
    h'.Sound := by
  constructor
  · exact settings ▸ sound.settings
  · intro c
    rw [settings, ← sound.sizes c, classes c]
    cases ha : h.allocators[c]? with
    | none => rfl
    | some a => simp [keeps c a ha]
  · intro c a ha
    rw [classes c, Option.map_eq_some_iff] at ha
    obtain ⟨a₀, h₀, rfl⟩ := ha
    exact sounds c a₀ h₀
  · intro c a c' a' ha ha' i j place
    rw [classes, Option.map_eq_some_iff] at ha ha'
    obtain ⟨a₀, h₀, rfl⟩ := ha
    obtain ⟨a₀', h₀', rfl⟩ := ha'
    rw [(keeps c a₀ h₀).2, (keeps c' a₀' h₀').2] at place
    exact sound.apart c a₀ c' a₀' h₀ h₀' i j place

lemma getElem?_modifyClass (h : Heap α) (c : Nat) (f : Allocator α → Allocator α) (d : Nat) :
    (h.modifyClass c f).allocators[d]? = (h.allocators[d]?).map (if c = d then f else id) := by
  rw [modifyClass, Array.getElem?_modify]
  by_cases eq : c = d
  · simp [eq]
  · simp [eq]

lemma layout_modifyClass (h : Heap α) (c : Nat) {f : Allocator α → Allocator α}
    (keeps : ∀ a : Allocator α, (f a).cellSize = a.cellSize ∧ (f a).place = a.place) :
    (h.modifyClass c f).layout = h.layout := by
  refine layout_of_classes (fun d => if c = d then f else id) (getElem?_modifyClass h c f) ?_
  intro d a _
  by_cases eq : c = d
  · simpa only [eq, if_true] using keeps a
  · simp [eq]

lemma Sound.modifyClass {h : Heap α} (sound : h.Sound) (c : Nat) {f : Allocator α → Allocator α}
    (keeps : ∀ a : Allocator α, (f a).cellSize = a.cellSize ∧ (f a).place = a.place)
    (sounds : ∀ a : Allocator α, h.allocators[c]? = some a → (f a).Sound) :
    (h.modifyClass c f).Sound := by
  refine sound.of_classes rfl (fun d => if c = d then f else id) (getElem?_modifyClass h c f) ?_ ?_
  · intro d a _
    by_cases eq : c = d
    · simpa only [eq, if_true] using keeps a
    · simp [eq]
  · intro d a ha
    by_cases eq : c = d
    · subst eq
      simpa using sounds a ha
    · simpa [eq] using sound.allocator d a ha

lemma cellAt?_modifyClass (h : Heap α) (c : Nat) (f : Allocator α → Allocator α) (s : Spot) :
    (h.modifyClass c f).cellAt? s =
      if c = s.sizeClass then (h.allocators[c]?).bind fun a => (f a).cell? s.slot
      else h.cellAt? s := by
  rw [cellAt?, getElem?_modifyClass]
  by_cases eq : c = s.sizeClass
  · subst eq
    cases h.allocators[s.sizeClass]? <;> simp
  · simp [eq, cellAt?]

lemma modifyAt_eq (h : Heap α) (s : Spot) (f : Cell α → Cell α) :
    h.modifyAt s f = h.modifyClass s.sizeClass fun a => a.modifyCell s.slot f := rfl

@[simp] lemma layout_modifyAt (h : Heap α) (s : Spot) (f : Cell α → Cell α) :
    (h.modifyAt s f).layout = h.layout :=
  layout_modifyClass h s.sizeClass fun _ => ⟨rfl, rfl⟩

lemma Sound.modifyAt {h : Heap α} (sound : h.Sound) (s : Spot) (f : Cell α → Cell α) :
    (h.modifyAt s f).Sound :=
  sound.modifyClass s.sizeClass (fun _ => ⟨rfl, rfl⟩)
    fun a ha => (sound.allocator _ a ha).modifyCell s.slot f

lemma cellAt?_modifyAt (h : Heap α) (s : Spot) (f : Cell α → Cell α) (t : Spot) :
    (h.modifyAt s f).cellAt? t = if s = t then (h.cellAt? t).map f else h.cellAt? t := by
  rw [modifyAt_eq, cellAt?_modifyClass]
  obtain ⟨c, slot⟩ := s
  obtain ⟨d, slot'⟩ := t
  by_cases class_eq : c = d
  · subst class_eq
    rw [cellAt?]
    cases h.allocators[c]? with
    | none => simp
    | some a =>
      by_cases slot_eq : slot = slot'
      · simp [slot_eq, Allocator.cell?_modifyCell]
      · simp [slot_eq, Allocator.cell?_modifyCell]
  · simp [class_eq]

lemma getElem?_unmarkAll (h : Heap α) (c : Nat) :
    h.unmarkAll.allocators[c]? = (h.allocators[c]?).map Allocator.unmarkAll := by
  rw [unmarkAll, Array.getElem?_map]

@[simp] lemma layout_unmarkAll (h : Heap α) : h.unmarkAll.layout = h.layout :=
  layout_of_classes (fun _ => Allocator.unmarkAll) (getElem?_unmarkAll h) fun _ _ _ => ⟨rfl, rfl⟩

lemma Sound.unmarkAll {h : Heap α} (sound : h.Sound) : h.unmarkAll.Sound :=
  sound.of_classes rfl (fun _ => Allocator.unmarkAll) (getElem?_unmarkAll h)
    (fun _ _ _ => ⟨rfl, rfl⟩) fun c a ha => (sound.allocator c a ha).unmarkAll

@[simp] lemma cellAt?_unmarkAll (h : Heap α) (s : Spot) :
    h.unmarkAll.cellAt? s = (h.cellAt? s).map Cell.unmark := by
  rw [cellAt?, cellAt?, getElem?_unmarkAll]
  cases h.allocators[s.sizeClass]? <;> simp

lemma getElem?_sweep (h : Heap α) (c : Nat) :
    h.sweep.allocators[c]? = (h.allocators[c]?).map Allocator.sweep := by
  rw [sweep, Array.getElem?_map]

@[simp] lemma layout_sweep (h : Heap α) : h.sweep.layout = h.layout :=
  layout_of_classes (fun _ => Allocator.sweep) (getElem?_sweep h) fun _ a _ =>
    ⟨a.cellSize_sweep, a.place_sweep⟩

lemma Sound.sweep {h : Heap α} (sound : h.Sound) : h.sweep.Sound :=
  sound.of_classes rfl (fun _ => Allocator.sweep) (getElem?_sweep h)
    (fun _ a _ => ⟨a.cellSize_sweep, a.place_sweep⟩) fun c a ha => (sound.allocator c a ha).sweep

/-- A sweep leaves exactly the marked cells. -/
lemma Sound.cellAt?_sweep {h : Heap α} (sound : h.Sound) (s : Spot) :
    h.sweep.cellAt? s = (h.cellAt? s).filter Cell.isMarked := by
  rw [cellAt?, cellAt?, getElem?_sweep]
  cases ha : h.allocators[s.sizeClass]? with
  | none => rfl
  | some a => exact (sound.allocator _ a ha).cell?_sweep s.slot

@[simp] lemma layout_prewarm (h : Heap α) (c : Nat) : (h.prewarm c).layout = h.layout :=
  layout_modifyClass h c fun a => ⟨a.cellSize_addBlocks _, a.place_addBlocks _⟩

lemma Sound.prewarm {h : Heap α} (sound : h.Sound) (c : Nat) : (h.prewarm c).Sound :=
  sound.modifyClass c (fun a => ⟨a.cellSize_addBlocks _, a.place_addBlocks _⟩)
    fun a ha => (sound.allocator c a ha).addBlocks _

/-- Adding blocks to a class moves no cell. -/
lemma cellAt?_modifyClass_of_grow (h : Heap α) (c : Nat) {f : Allocator α → Allocator α}
    (grows : ∀ a : Allocator α, ∃ n, f a = a.addBlocks n) (s : Spot) :
    (h.modifyClass c f).cellAt? s = h.cellAt? s := by
  rw [cellAt?_modifyClass]
  split
  · rename_i eq
    subst eq
    rw [cellAt?]
    congr 1
    funext a
    obtain ⟨n, hn⟩ := grows a
    rw [hn, Allocator.cell?_addBlocks]
  · rfl

lemma layout_modifyClass_of_grow (h : Heap α) (c : Nat) {f : Allocator α → Allocator α}
    (grows : ∀ a : Allocator α, ∃ n, f a = a.addBlocks n) :
    (h.modifyClass c f).layout = h.layout := by
  refine layout_modifyClass h c fun a => ?_
  obtain ⟨n, hn⟩ := grows a
  rw [hn]
  exact ⟨a.cellSize_addBlocks n, a.place_addBlocks n⟩

lemma Sound.modifyClass_of_grow {h : Heap α} (sound : h.Sound) (c : Nat)
    {f : Allocator α → Allocator α} (grows : ∀ a : Allocator α, ∃ n, f a = a.addBlocks n) :
    (h.modifyClass c f).Sound := by
  refine sound.modifyClass c (fun a => ?_) fun a ha => ?_
  · obtain ⟨n, hn⟩ := grows a
    rw [hn]
    exact ⟨a.cellSize_addBlocks n, a.place_addBlocks n⟩
  · obtain ⟨n, hn⟩ := grows a
    rw [hn]
    exact (sound.allocator c a ha).addBlocks n

lemma Sound.grow {h : Heap α} (sound : h.Sound) (c : Nat) : (h.grow c).Sound :=
  sound.modifyClass_of_grow c fun a => a.exists_growTo_eq_addBlocks _

lemma Sound.ensureRoom {h : Heap α} (sound : h.Sound) (c : Nat) :
    (h.modifyClass c Allocator.ensureRoom).Sound :=
  sound.modifyClass_of_grow c fun a => a.exists_ensureRoom_eq_addBlocks

@[simp] lemma cellAt?_prewarm (h : Heap α) (c : Nat) (s : Spot) :
    (h.prewarm c).cellAt? s = h.cellAt? s :=
  cellAt?_modifyClass_of_grow h c (fun _ => ⟨_, rfl⟩) s

@[simp] lemma cellAt?_grow (h : Heap α) (c : Nat) (s : Spot) :
    (h.grow c).cellAt? s = h.cellAt? s :=
  cellAt?_modifyClass_of_grow h c (fun a => a.exists_growTo_eq_addBlocks _) s

@[simp] lemma layout_grow (h : Heap α) (c : Nat) : (h.grow c).layout = h.layout :=
  layout_modifyClass_of_grow h c fun a => a.exists_growTo_eq_addBlocks _

lemma nextSpot?_eq_some_iff {h : Heap α} {c : Nat} {s : Spot} :
    h.nextSpot? c = some s ↔
      s.sizeClass = c ∧ ∃ a, h.allocators[c]? = some a ∧ a.nextSlot? = some s.slot := by
  obtain ⟨d, slot⟩ := s
  simp only [nextSpot?, Option.map_eq_some_iff, Option.bind_eq_some_iff, Spot.mk.injEq]
  constructor
  · rintro ⟨slot', ⟨a, ha, hs⟩, rfl, rfl⟩
    exact ⟨rfl, a, ha, hs⟩
  · rintro ⟨rfl, a, ha, hs⟩
    exact ⟨slot, ⟨a, ha, hs⟩, rfl, rfl⟩

@[simp] lemma layout_fill (h : Heap α) (s : Spot) (payload : α) :
    (h.fill s payload).layout = h.layout :=
  layout_modifyClass h s.sizeClass fun a => ⟨a.cellSize_fill _ _, a.place_fill _ _⟩

lemma Sound.fill {h : Heap α} (sound : h.Sound) {c : Nat} {s : Spot} (next : h.nextSpot? c = some s)
    (payload : α) : (h.fill s payload).Sound := by
  obtain ⟨rfl, a₀, h₀, hs⟩ := nextSpot?_eq_some_iff.mp next
  refine sound.modifyClass s.sizeClass (fun a => ⟨a.cellSize_fill _ _, a.place_fill _ _⟩) ?_
  intro a ha
  obtain rfl : a₀ = a := Option.some.inj (h₀.symm.trans ha)
  exact (sound.allocator _ a₀ ha).fill hs _

lemma Sound.cellAt?_fill {h : Heap α} (sound : h.Sound) {c : Nat} {s : Spot}
    (next : h.nextSpot? c = some s) (payload : α) (t : Spot) :
    (h.fill s payload).cellAt? t = if s = t then some (Cell.fresh payload) else h.cellAt? t := by
  obtain ⟨rfl, a, ha, hs⟩ := nextSpot?_eq_some_iff.mp next
  rw [Heap.fill, cellAt?_modifyClass, cellAt?]
  obtain ⟨c, slot⟩ := s
  obtain ⟨d, slot'⟩ := t
  by_cases class_eq : c = d
  · subst class_eq
    simp only at ha hs
    rw [if_pos rfl, ha, Option.bind_some, Allocator.cell?_fill (sound.allocator _ a ha) hs]
    by_cases slot_eq : slot = slot'
    · simp [slot_eq]
    · simp [slot_eq]
  · simp [class_eq]

lemma cellAt?_nextSpot {h : Heap α} {c : Nat} {s : Spot} (next : h.nextSpot? c = some s) :
    h.cellAt? s = none := by
  obtain ⟨rfl, a, ha, hs⟩ := nextSpot?_eq_some_iff.mp next
  rw [cellAt?, ha]
  exact Allocator.cell?_nextSlot hs

/-- An allocation in a class that exists succeeds: it takes a clear slot of the class and leaves
every other slot alone. -/
lemma Sound.allocateIn_spec {h : Heap α} (sound : h.Sound) {c : Nat} (hc : c < h.allocators.size)
    (payload : α) : ∃ s, s.sizeClass = c ∧ h.cellAt? s = none ∧
      (h.allocateIn c payload).1 = .ok (h.addressOf s) ∧
      (h.allocateIn c payload).2.Sound ∧ (h.allocateIn c payload).2.layout = h.layout ∧
      ∀ t, (h.allocateIn c payload).2.cellAt? t =
        if s = t then some (Cell.fresh payload) else h.cellAt? t := by
  have room := sound.ensureRoom c
  have cells := cellAt?_modifyClass_of_grow h c fun a => a.exists_ensureRoom_eq_addBlocks
  have layout := layout_modifyClass_of_grow h c fun a => a.exists_ensureRoom_eq_addBlocks
  obtain ⟨slot, hslot⟩ := (sound.allocator c _ (Array.getElem?_eq_getElem hc)).nextSlot?_ensureRoom
  have next : (h.modifyClass c Allocator.ensureRoom).nextSpot? c = some ⟨c, slot⟩ := by
    refine nextSpot?_eq_some_iff.mpr ⟨rfl, _, ?_, hslot⟩
    simp [getElem?_modifyClass, Array.getElem?_eq_getElem hc]
  refine ⟨⟨c, slot⟩, rfl, ?_, ?_, ?_, ?_, ?_⟩
  · rw [← cells]
    exact cellAt?_nextSpot next
  · simp only [allocateIn, next]
    rw [addressOf_congr layout]
  · simp only [allocateIn, next]
    exact room.fill next payload
  · simp only [allocateIn, next]
    rw [layout_fill, layout]
  · intro t
    simp only [allocateIn, next]
    rw [room.cellAt?_fill next, cells]

lemma classOf_lt [Payload α] {h : Heap α} (sound : h.Sound) {payload : α} {c : Nat}
    (fits : h.classOf payload = .ok c) : c < h.allocators.size := by
  rw [classOf] at fits
  split at fits
  · cases fits
  split at fits
  · rename_i d found
    obtain rfl : d = c := Except.ok.inj fits
    have size := (List.findIdx?_eq_some_iff_getElem.mp found).1
    have same := sound.sizes d
    rw [List.getElem?_eq_getElem size] at same
    obtain ⟨a, ha, _⟩ := Option.map_eq_some_iff.mp same
    exact (Array.getElem?_eq_some_iff.mp ha).1
  · cases fits

end Heap

end CellMachine
