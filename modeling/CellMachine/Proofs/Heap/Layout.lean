import CellMachine.Heap.Allocation
import CellMachine.Proofs.Heap.Allocator

/-!
# Addresses of a sound heap

A heap is sound when its settings are accepted, its allocators are sound and serve the
size classes in order, and no two of their blocks lie at the same place. In a sound heap
a word resolves to a slot exactly when the slot is in use and the word lies in it, so
slots in use and addresses of live cells stand for one another.
-/

namespace CellMachine

namespace Block

variable {α : Type}

/-- A slot and its end lie inside the block. -/
lemma slot_end_le {b : Block α} {i : Nat} (h : i < b.totalCount) :
    blockHeader + (i + 1) * b.cellSize ≤ blockSize := by
  have most : b.totalCount * b.cellSize ≤ blockSize - blockHeader :=
    Nat.div_mul_le_self _ b.cellSize
  have here : (i + 1) * b.cellSize ≤ b.totalCount * b.cellSize := Nat.mul_le_mul_right _ h
  have room : blockHeader ≤ blockSize := by decide
  omega

lemma cellSize_pos {b : Block α} {i : Nat} (h : i < b.totalCount) : 0 < b.cellSize := by
  by_contra zero
  have none_fit : b.totalCount = 0 := by
    have : b.cellSize = 0 := by omega
    simp [totalCount, cellsPerBlock, this]
  omega

lemma Sound.slotAt?_eq_some_iff {b : Block α} (sound : b.Sound) {offset i : Nat} :
    b.slotAt? offset = some i ↔ b.isUsed i ∧
      blockHeader + i * b.cellSize ≤ offset ∧ offset < blockHeader + (i + 1) * b.cellSize := by
  rw [slotAt?]
  constructor
  · intro h
    split at h
    · cases h
    · rename_i inside
      dsimp only at h
      split at h
      · rename_i used
        have index : (offset - blockHeader) / b.cellSize = i := Option.some.inj h
        subst index
        have size := cellSize_pos (sound.used_lt _ used)
        have low := Nat.div_mul_le_self (offset - blockHeader) b.cellSize
        have high := Nat.lt_mul_div_succ (offset - blockHeader) size
        rw [Nat.mul_comm] at high
        exact ⟨used, by omega, by omega⟩
      · cases h
  · rintro ⟨used, low, high⟩
    have bound := sound.used_lt i used
    have last : (i + 1) * b.cellSize ≤ b.totalCount * b.cellSize := Nat.mul_le_mul_right _ bound
    have index : (offset - blockHeader) / b.cellSize = i := by
      apply Nat.div_eq_of_lt_le
      · omega
      · omega
    rw [if_neg (by omega), index]
    exact if_pos used

end Block

namespace Allocator

variable {α : Type}

lemma Sound.block_of_cell {a : Allocator α} (sound : a.Sound) {s : Slot}
    (used : (a.cell? s).isSome) : ∃ b, a.blocks[s.block]? = some b ∧ b.Sound ∧
      b.cellSize = a.cellSize ∧ b.isUsed s.index := by
  obtain ⟨c, hc⟩ := Option.isSome_iff_exists.mp used
  obtain ⟨b, hb, hk⟩ := cell?_eq_some_iff.mp hc
  obtain ⟨soundb, size⟩ := sound.block _ b hb
  exact ⟨b, hb, soundb, size, by simp [Block.isUsed_eq, hk]⟩

/-- A word inside a slot lies in the slot's block, at the slot's offset. -/
lemma Sound.word_split {a : Allocator α} (sound : a.Sound) {s : Slot}
    (used : (a.cell? s).isSome) {w : Nat} (low : a.wordOf s ≤ w)
    (high : w < a.wordOf s + a.cellSize) :
    w / blockSize = a.place s.block ∧ blockHeader + s.index * a.cellSize ≤ w % blockSize ∧
      w % blockSize < blockHeader + (s.index + 1) * a.cellSize := by
  obtain ⟨b, hb, soundb, size, hu⟩ := sound.block_of_cell used
  have fits := Block.slot_end_le (soundb.used_lt _ hu)
  rw [size, Nat.succ_mul] at fits
  rw [wordOf] at low high
  have block : w / blockSize = a.place s.block := by
    apply Nat.div_eq_of_lt_le
    · omega
    · rw [Nat.succ_mul]
      omega
  have split := Nat.div_add_mod w blockSize
  rw [block, Nat.mul_comm] at split
  refine ⟨block, by omega, ?_⟩
  rw [Nat.succ_mul]
  omega

lemma Sound.cellSize_pos {a : Allocator α} (sound : a.Sound) : 0 < a.cellSize :=
  lt_of_lt_of_le (by decide) sound.minCellSize_le

lemma blockOf?_eq_some_iff {a : Allocator α} (apart : ∀ i j, a.place i = a.place j → i = j)
    {w i : Nat} : a.blockOf? w = some i ↔ i < a.blockCount ∧ a.place i = w / blockSize := by
  constructor
  · intro h
    have found := List.find?_some h
    have range := List.mem_of_find?_eq_some h
    exact ⟨List.mem_range.mp range, by simpa using found⟩
  · rintro ⟨range, here⟩
    cases h : a.blockOf? w with
    | none =>
      have missed := List.find?_eq_none.mp h i (List.mem_range.mpr range)
      simp [here] at missed
    | some j =>
      have found := List.find?_some h
      have same : a.place j = a.place i := by rw [here]; simpa using found
      rw [apart j i same]

/-- A word resolves to the slot in use that it lies in, and to no other. -/
lemma Sound.resolve?_eq_some_iff {a : Allocator α} (sound : a.Sound)
    (apart : ∀ i j, a.place i = a.place j → i = j) {w : Nat} {s : Slot} :
    a.resolve? w = some s ↔
      (a.cell? s).isSome ∧ a.wordOf s ≤ w ∧ w < a.wordOf s + a.cellSize := by
  have flat : a.resolve? w = some s ↔ ∃ b, a.blockOf? w = some s.block ∧
      a.blocks[s.block]? = some b ∧ b.slotAt? (w % blockSize) = some s.index := by
    obtain ⟨block, index⟩ := s
    simp only [resolve?, Option.pure_def, Option.bind_eq_bind, Option.bind_eq_some_iff,
      Option.some.injEq, Slot.mk.injEq]
    constructor
    · rintro ⟨i, hi, b, hb, k, hk, rfl, rfl⟩
      exact ⟨b, hi, hb, hk⟩
    · rintro ⟨b, hi, hb, hk⟩
      exact ⟨block, hi, b, hb, index, hk, rfl, rfl⟩
  rw [flat]
  constructor
  · rintro ⟨b, hi, hb, hk⟩
    obtain ⟨_, place⟩ := (blockOf?_eq_some_iff apart).mp hi
    obtain ⟨soundb, size⟩ := sound.block _ b hb
    obtain ⟨used, low, high⟩ := soundb.slotAt?_eq_some_iff.mp hk
    have split := Nat.div_add_mod w blockSize
    rw [← place, Nat.mul_comm] at split
    rw [size] at low
    rw [size, Nat.succ_mul] at high
    refine ⟨?_, ?_, ?_⟩
    · simpa [cell?, hb, Block.isUsed_eq] using used
    · rw [wordOf]
      omega
    · rw [wordOf]
      omega
  · rintro ⟨used, low, high⟩
    obtain ⟨place, offset_low, offset_high⟩ := sound.word_split used low high
    obtain ⟨b, hb, soundb, size, hu⟩ := sound.block_of_cell used
    refine ⟨b, (blockOf?_eq_some_iff apart).mpr ⟨?_, place.symm⟩, hb, ?_⟩
    · exact (Array.getElem?_eq_some_iff.mp hb).1
    · exact soundb.slotAt?_eq_some_iff.mpr ⟨hu, size ▸ offset_low, size ▸ offset_high⟩

end Allocator

namespace Heap

variable {α : Type}

structure Sound (h : Heap α) : Prop where
  settings : h.settings.fault? = none
  sizes : ∀ c : Nat, (h.allocators[c]?).map Allocator.cellSize = h.settings.sizeClasses[c]?
  allocator : ∀ (c : Nat) (a : Allocator α), h.allocators[c]? = some a → a.Sound
  apart : ∀ (c : Nat) (a : Allocator α) (c' : Nat) (a' : Allocator α), h.allocators[c]? = some a →
    h.allocators[c']? = some a' → ∀ i j, a.place i = a'.place j → c = c' ∧ i = j

/-- Cell sizes and places of all classes; addresses depend on nothing else. -/
def layout (h : Heap α) : Array (Nat × (Nat → Nat)) :=
  h.allocators.map fun a => (a.cellSize, a.place)

lemma addressOf_congr {h h' : Heap α} (same : h'.layout = h.layout) (s : Spot) :
    h'.addressOf s = h.addressOf s := by
  have read : ∀ g : Heap α, g.addressOf s =
      .memory (((g.layout[s.sizeClass]?).map fun l =>
        l.2 s.slot.block * blockSize + blockHeader + s.slot.index * l.1).getD 0) := by
    intro g
    rw [addressOf, layout, Array.getElem?_map, Option.map_map]
    rfl
  rw [read h, read h', same]

lemma cellAt?_eq_some_iff {h : Heap α} {s : Spot} {c : Cell α} :
    h.cellAt? s = some c ↔ ∃ a, h.allocators[s.sizeClass]? = some a ∧ a.cell? s.slot = some c := by
  rw [cellAt?, Option.bind_eq_some_iff]

/-- The word lies in the slot, and the slot is in use. -/
def Covers (h : Heap α) (s : Spot) (w : Nat) : Prop :=
  ∃ a, h.allocators[s.sizeClass]? = some a ∧ (a.cell? s.slot).isSome ∧
    a.wordOf s.slot ≤ w ∧ w < a.wordOf s.slot + a.cellSize

lemma Covers.cellAt?_isSome {h : Heap α} {s : Spot} {w : Nat} (covers : h.Covers s w) :
    (h.cellAt? s).isSome := by
  obtain ⟨a, ha, used, _⟩ := covers
  simpa [cellAt?, ha] using used

/-- No word lies in two slots. -/
lemma Sound.covers_unique {h : Heap α} (sound : h.Sound) {s t : Spot} {w : Nat}
    (hs : h.Covers s w) (ht : h.Covers t w) : s = t := by
  obtain ⟨c, ⟨i, k⟩⟩ := s
  obtain ⟨d, ⟨j, l⟩⟩ := t
  obtain ⟨a, ha, used, low, high⟩ := hs
  obtain ⟨a', ha', used', low', high'⟩ := ht
  obtain ⟨place, offset_low, offset_high⟩ := (sound.allocator _ a ha).word_split used low high
  obtain ⟨place', offset_low', offset_high'⟩ :=
    (sound.allocator _ a' ha').word_split used' low' high'
  obtain ⟨rfl, rfl⟩ := sound.apart _ a _ a' ha ha' i j (place.symm.trans place')
  have same : a = a' := Option.some.inj (ha.symm.trans ha')
  subst same
  have below : k * a.cellSize < (l + 1) * a.cellSize := by simp only at *; omega
  have above : l * a.cellSize < (k + 1) * a.cellSize := by simp only at *; omega
  have le := Nat.lt_of_mul_lt_mul_right below
  have ge := Nat.lt_of_mul_lt_mul_right above
  have index : k = l := by omega
  subst index
  rfl

/-- The slot in use that a word points into, found by asking the classes in the given order. -/
def resolveAlong (h : Heap α) (order : List Nat) (word : Nat) : Option Spot :=
  order.findSome? fun c =>
    ((h.allocators[c]?).bind fun a => a.resolve? word).map fun slot => ⟨c, slot⟩

/-- Address resolution is exact, and no order of the classes finds another slot. -/
lemma Sound.resolveAlong_eq_some_iff {h : Heap α} (sound : h.Sound) {order : List Nat}
    (all : ∀ c < h.allocators.size, c ∈ order) {w : Nat} {s : Spot} :
    h.resolveAlong order w = some s ↔ h.Covers s w := by
  have found : ∀ t, h.resolveAlong order w = some t → h.Covers t w := by
    intro t ht
    obtain ⟨c, hc, hit⟩ := List.exists_of_findSome?_eq_some ht
    obtain ⟨slot, hslot, rfl⟩ := Option.map_eq_some_iff.mp hit
    obtain ⟨a, ha, hres⟩ := Option.bind_eq_some_iff.mp hslot
    have apart : ∀ i j, a.place i = a.place j → i = j :=
      fun i j eq => (sound.apart c a c a ha ha i j eq).2
    exact ⟨a, ha, (sound.allocator c a ha).resolve?_eq_some_iff apart |>.mp hres⟩
  refine ⟨found s, ?_⟩
  intro covers
  cases ht : h.resolveAlong order w with
  | some t => rw [sound.covers_unique (found t ht) covers]
  | none =>
    obtain ⟨a, ha, held⟩ := id covers
    have apart : ∀ i j, a.place i = a.place j → i = j :=
      fun i j eq => (sound.apart _ a _ a ha ha i j eq).2
    have hit := ((sound.allocator _ a ha).resolve?_eq_some_iff apart).mpr held
    have asked := all s.sizeClass (Array.getElem?_eq_some_iff.mp ha).1
    have missed := List.findSome?_eq_none_iff.mp ht s.sizeClass asked
    simp [ha, hit] at missed

lemma Sound.resolveWord?_eq_some_iff {h : Heap α} (sound : h.Sound) {w : Nat} {s : Spot} :
    h.resolveWord? w = some s ↔ h.Covers s w :=
  sound.resolveAlong_eq_some_iff fun _ range => List.mem_range.mpr range

lemma addressOf_eq {h : Heap α} {s : Spot} {a : Allocator α}
    (ha : h.allocators[s.sizeClass]? = some a) : h.addressOf s = .memory (a.wordOf s.slot) := by
  simp [addressOf, ha]

/-- A live cell is found at the start of its slot, and only there. -/
lemma Sound.spot?_eq_some_iff {h : Heap α} (sound : h.Sound) {x : Address} {s : Spot} :
    h.spot? x = some s ↔ (h.cellAt? s).isSome ∧ h.addressOf s = x := by
  rw [spot?, Option.filter_eq_some_iff]
  constructor
  · rintro ⟨hit, here⟩
    cases x with
    | stack d => cases hit
    | memory w =>
      have covers := sound.resolveWord?_eq_some_iff.mp hit
      exact ⟨covers.cellAt?_isSome, by simpa using here⟩
  · rintro ⟨used, rfl⟩
    obtain ⟨c, hc⟩ := Option.isSome_iff_exists.mp used
    obtain ⟨a, ha, hk⟩ := cellAt?_eq_some_iff.mp hc
    refine ⟨?_, by simp⟩
    rw [addressOf_eq ha]
    refine sound.resolveWord?_eq_some_iff.mpr ⟨a, ha, by simp [hk], le_rfl, ?_⟩
    have size := (sound.allocator _ a ha).cellSize_pos
    omega

lemma Sound.spot?_addressOf {h : Heap α} (sound : h.Sound) {s : Spot}
    (used : (h.cellAt? s).isSome) : h.spot? (h.addressOf s) = some s :=
  sound.spot?_eq_some_iff.mpr ⟨used, rfl⟩

/-- Distinct live cells have distinct addresses. -/
lemma Sound.addressOf_inj {h : Heap α} (sound : h.Sound) {s t : Spot}
    (hs : (h.cellAt? s).isSome) (ht : (h.cellAt? t).isSome)
    (same : h.addressOf s = h.addressOf t) : s = t := by
  have found := sound.spot?_addressOf hs
  rw [same, sound.spot?_addressOf ht] at found
  exact (Option.some.inj found).symm

lemma Sound.isLive_iff {h : Heap α} (sound : h.Sound) {x : Address} :
    h.isLive x ↔ ∃ s, (h.cellAt? s).isSome ∧ h.addressOf s = x := by
  rw [isLive, Option.isSome_iff_exists]
  exact exists_congr fun s => sound.spot?_eq_some_iff

lemma Sound.cell?_addressOf {h : Heap α} (sound : h.Sound) {s : Spot}
    (used : (h.cellAt? s).isSome) : h.cell? (h.addressOf s) = h.cellAt? s := by
  rw [cell?, sound.spot?_addressOf used]
  rfl

/-- A word that resolves at all resolves to a live cell. -/
lemma Sound.isLive_of_cellFor? {h : Heap α} (sound : h.Sound) {w x : Address}
    (hit : h.cellFor? w = some x) : h.isLive x := by
  obtain ⟨s, hs, rfl⟩ := Option.map_eq_some_iff.mp hit
  cases w with
  | stack d => cases hs
  | memory w =>
    have covers := sound.resolveWord?_eq_some_iff.mp hs
    exact sound.isLive_iff.mpr ⟨s, covers.cellAt?_isSome, rfl⟩

lemma Sound.resolve?_cellAt? {h : Heap α} (sound : h.Sound) {w : Address} {s : Spot}
    (hit : h.resolve? w = some s) : (h.cellAt? s).isSome := by
  cases w with
  | stack d => cases hit
  | memory w => exact (sound.resolveWord?_eq_some_iff.mp hit).cellAt?_isSome

/-- Heaps of one layout that use the same slots resolve every word alike. -/
lemma Sound.resolve?_congr {h h' : Heap α} (sound : h.Sound) (sound' : h'.Sound)
    (same : h'.layout = h.layout) (used : ∀ s, (h'.cellAt? s).isSome = (h.cellAt? s).isSome)
    (w : Address) : h'.resolve? w = h.resolve? w := by
  have transfer : ∀ {g g' : Heap α}, g'.layout = g.layout →
      (∀ s, (g'.cellAt? s).isSome = (g.cellAt? s).isSome) → ∀ {s : Spot} {w : Nat},
      g.Covers s w → g'.Covers s w := by
    intro g g' same used s w covers
    obtain ⟨a, ha, hu, low, high⟩ := covers
    have entry := congrArg (fun l => l[s.sizeClass]?) same
    simp only [layout, Array.getElem?_map, ha, Option.map_some, Option.map_eq_some_iff,
      Prod.mk.injEq] at entry
    obtain ⟨a', ha', size, place⟩ := entry
    have hu' := used s
    rw [cellAt?, cellAt?, ha, ha', Option.bind_some, Option.bind_some, hu] at hu'
    exact ⟨a', ha', hu', by rw [Allocator.wordOf, size, place]; exact low, by
      rw [Allocator.wordOf, size, place]; exact high⟩
  cases w with
  | stack d => rfl
  | memory w =>
    apply Option.ext
    intro s
    exact sound'.resolveWord?_eq_some_iff.trans <| Iff.trans
      ⟨transfer same.symm fun s => (used s).symm, transfer same used⟩
      sound.resolveWord?_eq_some_iff.symm

lemma Sound.spot?_congr {h h' : Heap α} (sound : h.Sound) (sound' : h'.Sound)
    (same : h'.layout = h.layout) (used : ∀ s, (h'.cellAt? s).isSome = (h.cellAt? s).isSome)
    (x : Address) : h'.spot? x = h.spot? x := by
  rw [spot?, spot?, sound.resolve?_congr sound' same used]
  exact congrArg (fun p => (h.resolve? x).filter p) (funext fun s => by rw [addressOf_congr same])

end Heap

end CellMachine
