import CellMachine.Proofs.Heap.Operations

/-!
# Reachability

What the collector must keep: the cells that the root words point into and whatever is
reached from them along the values that cells hold. An edge counts if it is the address
of a live cell. Nothing here mentions marks.
-/

namespace CellMachine

namespace Heap

variable {α : Type}

def spots (h : Heap α) : List Spot :=
  (tagged h.allocators Allocator.usedSlots).map fun p => ⟨p.1, p.2⟩

lemma Sound.mem_spots {h : Heap α} (sound : h.Sound) {s : Spot} :
    s ∈ h.spots ↔ (h.cellAt? s).isSome := by
  obtain ⟨c, slot⟩ := s
  rw [spots, List.mem_map]
  constructor
  · rintro ⟨⟨d, slot'⟩, mem, eq⟩
    cases eq
    obtain ⟨a, ha, used⟩ := mem_tagged.mp mem
    simpa [cellAt?, ha] using (sound.allocator _ a ha).mem_usedSlots.mp used
  · intro used
    obtain ⟨k, hk⟩ := Option.isSome_iff_exists.mp used
    obtain ⟨a, ha, hs⟩ := cellAt?_eq_some_iff.mp hk
    have mem := (sound.allocator c a ha).mem_usedSlots.mpr (Option.isSome_iff_exists.mpr ⟨k, hs⟩)
    exact ⟨(c, slot), mem_tagged.mpr ⟨a, ha, mem⟩, rfl⟩

lemma nodup_spots (h : Heap α) : h.spots.Nodup :=
  (nodup_tagged h.allocators Allocator.nodup_usedSlots).map fun _ _ eq =>
    Prod.ext (Spot.mk.inj eq).1 (Spot.mk.inj eq).2

lemma totalCells_eq (h : Heap α) :
    h.totalCells = (h.allocators.toList.map Allocator.totalCells).sum := by
  rw [totalCells, ← Array.foldl_toList, List.sum_eq_foldl, List.foldl_map]

lemma freeCells_eq (h : Heap α) :
    h.freeCells = (h.allocators.toList.map Allocator.freeCells).sum := by
  rw [freeCells, ← Array.foldl_toList, List.sum_eq_foldl, List.foldl_map]

/-- Every slot is free or in use. -/
lemma Sound.freeCells_add_spots {h : Heap α} (sound : h.Sound) :
    h.freeCells + h.spots.length = h.totalCells := by
  have each : ∀ a ∈ h.allocators.toList, a.freeCells + a.usedSlots.length = a.totalCells := by
    intro a ha
    obtain ⟨c, hc⟩ := List.mem_iff_getElem?.mp ha
    rw [Array.getElem?_toList] at hc
    exact (sound.allocator c a hc).freeCells_add_usedSlots
  have split : (h.allocators.toList.map fun a => a.freeCells + a.usedSlots.length).sum =
      (h.allocators.toList.map Allocator.freeCells).sum +
        (h.allocators.toList.map fun a => a.usedSlots.length).sum :=
    List.sum_map_add
  rw [totalCells_eq, freeCells_eq, spots, List.length_map, length_tagged, ← split,
    List.map_congr_left each]

/-- There are no more distinct slots in use than the heap lists. -/
lemma Sound.length_le_spots {h : Heap α} (sound : h.Sound) {l : List Spot} (distinct : l.Nodup)
    (used : ∀ s ∈ l, (h.cellAt? s).isSome) : l.length ≤ h.spots.length := by
  have inside : l ⊆ h.spots := fun s hs => sound.mem_spots.mpr (used s hs)
  exact (List.subperm_of_subset distinct inside).length_le

variable [Payload α]

/-- An address of a cell that the root words lead to. -/
inductive Reaches (h : Heap α) (roots : Set Address) : Address → Prop where
  /-- A word that points anywhere into a slot in use leads to the cell in that slot. -/
  | root {word a : Address} (mem : word ∈ roots) (hit : h.cellFor? word = some a) :
      Reaches h roots a
  | edge {a b : Address} {payload : α} (start : Reaches h roots a)
      (here : h.payload? a = some payload) (child : Value.ref b ∈ Payload.children payload)
      (live : h.isLive b) : Reaches h roots b

lemma Reaches.mono {h : Heap α} {roots roots' : Set Address} (sub : roots ⊆ roots') {a : Address}
    (reached : h.Reaches roots a) : h.Reaches roots' a := by
  induction reached with
  | root mem hit => exact .root (sub mem) hit
  | edge start here child live ih => exact .edge ih here child live

/-- Words that resolve to nothing lead nowhere. -/
lemma not_reaches {h : Heap α} {roots : Set Address} (blind : ∀ w ∈ roots, h.cellFor? w = none)
    (a : Address) : ¬ h.Reaches roots a := by
  intro reached
  induction reached with
  | root mem hit =>
    rw [blind _ mem] at hit
    cases hit
  | edge start here child live ih => exact ih

lemma Reaches.isLive {h : Heap α} (sound : h.Sound) {roots : Set Address} {a : Address}
    (reached : h.Reaches roots a) : h.isLive a := by
  cases reached with
  | root mem hit => exact sound.isLive_of_cellFor? hit
  | edge start here child live => exact live

/-- Reachability depends on where cells are and what they hold, and on nothing else. -/
lemma Reaches.congr {h h' : Heap α} (resolve : ∀ w, h'.cellFor? w = h.cellFor? w)
    (payload : ∀ a, h'.payload? a = h.payload? a) (live : ∀ a, h'.isLive a = h.isLive a)
    {roots : Set Address} {a : Address} (reached : h.Reaches roots a) : h'.Reaches roots a := by
  induction reached with
  | root mem hit => exact .root mem ((resolve _).trans hit)
  | edge start here child alive ih =>
    exact .edge ih ((payload _).trans here) child ((live _).trans alive)

/-- The same cells with the same payloads, at the same places. -/
structure SamePayloads (h h' : Heap α) : Prop where
  layout : h'.layout = h.layout
  payload : ∀ s, (h'.cellAt? s).map Cell.payload = (h.cellAt? s).map Cell.payload

namespace SamePayloads

variable {h h' : Heap α}

omit [Payload α] in
lemma symm (same : h.SamePayloads h') : h'.SamePayloads h :=
  ⟨same.layout.symm, fun s => (same.payload s).symm⟩

omit [Payload α] in
lemma isSome (same : h.SamePayloads h') (s : Spot) :
    (h'.cellAt? s).isSome = (h.cellAt? s).isSome := by
  have := congrArg Option.isSome (same.payload s)
  simpa using this

omit [Payload α] in
lemma resolve? (same : h.SamePayloads h') (sound : h.Sound) (sound' : h'.Sound) (w : Address) :
    h'.resolve? w = h.resolve? w :=
  sound.resolve?_congr sound' same.layout same.isSome w

omit [Payload α] in
lemma spot? (same : h.SamePayloads h') (sound : h.Sound) (sound' : h'.Sound) (x : Address) :
    h'.spot? x = h.spot? x :=
  sound.spot?_congr sound' same.layout same.isSome x

omit [Payload α] in
lemma payload? (same : h.SamePayloads h') (sound : h.Sound) (sound' : h'.Sound) (x : Address) :
    h'.payload? x = h.payload? x := by
  rw [Heap.payload?, Heap.payload?, cell?, cell?, same.spot? sound sound']
  cases h.spot? x with
  | none => rfl
  | some s => exact same.payload s

omit [Payload α] in
lemma isLive (same : h.SamePayloads h') (sound : h.Sound) (sound' : h'.Sound) (x : Address) :
    h'.isLive x = h.isLive x := by
  rw [Heap.isLive, Heap.isLive, same.spot? sound sound']

omit [Payload α] in
lemma cellFor? (same : h.SamePayloads h') (sound : h.Sound) (sound' : h'.Sound) (w : Address) :
    h'.cellFor? w = h.cellFor? w := by
  rw [Heap.cellFor?, Heap.cellFor?, same.resolve? sound sound']
  exact congrArg (fun f => (h.resolve? w).map f) (funext (addressOf_congr same.layout))

lemma reaches_iff (same : h.SamePayloads h') (sound : h.Sound) (sound' : h'.Sound)
    {roots : Set Address} {a : Address} : h'.Reaches roots a ↔ h.Reaches roots a := by
  constructor
  · exact Reaches.congr (same.symm.cellFor? sound' sound) (same.symm.payload? sound' sound)
      (same.symm.isLive sound' sound)
  · exact Reaches.congr (same.cellFor? sound sound') (same.payload? sound sound')
      (same.isLive sound sound')

omit [Payload α] in
lemma unmarkAll (h : Heap α) : h.SamePayloads h.unmarkAll := by
  constructor
  · exact layout_unmarkAll h
  · intro s
    rw [cellAt?_unmarkAll, Option.map_map]
    rfl

end SamePayloads

end Heap

end CellMachine
