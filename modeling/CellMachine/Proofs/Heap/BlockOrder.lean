import CellMachine.Proofs.Heap.Accounting
import CellMachine.Sessions.AllocatorSession

/-!
# The order of the blocks

Every sweep offers the blocks again in the order in which it met them, and that order is not
determined. So two runs of the same steps soon have their cells in different slots of different
blocks. What they have in common is the population: the numbers of the living cells with their
flags, and how many blocks there are. Every step changes it in a way that does not depend on
where a cell lies, and everything that is reported is read off it.
-/

namespace CellMachine

lemma Cell.mark_mark {α : Type} (c : Cell α) : c.mark.mark = c.mark := by
  simp [Cell.mark, Cell.add, Flags.union, UInt8.or_assoc]

namespace Allocator

variable {α : Type} {a b : Allocator α} {order : List Nat}

def doomedIn (a : Allocator α) (i : Nat) : Nat :=
  ((a.blocks[i]?).map fun b => b.doomed.length).getD 0

/-- Sweeps the blocks in the given order and adds up what it frees in each. -/
def sweepCounting (a : Allocator α) (order : List Nat) : Nat × Allocator α :=
  order.foldl (fun (freed, a) i => (freed + a.doomedIn i, a.sweepBlock i))
    (0, { a with freeCells := 0, freeBlocks := [] })

lemma foldl_sweepCounting (order : List Nat) (distinct : order.Nodup) (n : Nat)
    (a : Allocator α) :
    order.foldl (fun (freed, a) i => (freed + a.doomedIn i, a.sweepBlock i)) (n, a) =
      (n + (order.map a.doomedIn).sum, order.foldl sweepBlock a) := by
  induction order generalizing n a with
  | nil => rfl
  | cons i order ih =>
    rw [List.nodup_cons] at distinct
    have later : order.map (a.sweepBlock i).doomedIn = order.map a.doomedIn := by
      refine List.map_congr_left fun j hj => ?_
      have other : i ≠ j := fun same => distinct.1 (same ▸ hj)
      rw [doomedIn, getElem?_blocks_sweepBlock, if_neg other, doomedIn]
    rw [List.foldl_cons, ih distinct.2, later, List.map_cons, List.sum_cons, List.foldl_cons,
      Nat.add_assoc]

/-- The count is the same in every order. -/
lemma sweepCounting_eq (all : order.Perm (List.range a.blockCount)) :
    a.sweepCounting order =
      ((a.blocks.toList.map fun b => b.doomed.length).sum, a.sweepInOrder order) := by
  have counted := foldl_sweepCounting order (all.nodup_iff.mpr List.nodup_range) 0
    { a with freeCells := 0, freeBlocks := [] }
  have each : (order.map a.doomedIn).sum = (a.blocks.toList.map fun b => b.doomed.length).sum := by
    rw [(all.map a.doomedIn).sum_eq, ← map_range_getElem? a.blocks.toList _ 0]
    simp only [Array.length_toList, Array.getElem?_toList]
    rfl
  rw [sweepCounting, counted, Nat.zero_add, ← each]
  rfl

/-- What is freed is what is free afterwards and was not before. -/
lemma Sound.freeCells_sweepInOrder (sound : a.Sound)
    (all : order.Perm (List.range a.blockCount)) :
    (a.sweepInOrder order).freeCells = a.freeCells + (a.sweepCounting order).1 := by
  rw [(sound.sweepInOrder all).books, toList_blocks_sweepInOrder all, sound.books,
    sweepCounting_eq all, List.map_map, ← List.sum_map_add]
  exact congrArg List.sum (List.map_congr_left fun b _ => b.freeCount_sweep)

lemma length_garbage (a : Allocator α) :
    a.garbage.length = (a.blocks.toList.map fun b => b.doomed.length).sum := by
  rw [garbage, List.length_flatMap]
  exact congrArg List.sum (List.map_congr_left fun b _ => b.length_garbage)

/-- Every cell was changed as `g` says, or dropped, and so many empty blocks were added. -/
structure Edited (g : Cell α → Option (Cell α)) (more : Nat) (a b : Allocator α) : Prop where
  sound : b.Sound
  cellSize : b.cellSize = a.cellSize
  blocks : b.blockCount = a.blockCount + more
  cells : ∀ t, b.cell? t = (a.cell? t).bind g

lemma Sound.edited_addBlocks (sound : a.Sound) (n : Nat) : a.Edited some n (a.addBlocks n) := by
  constructor
  · exact sound.addBlocks n
  · exact cellSize_addBlocks n a
  · exact blockCount_addBlocks n a
  · intro t
    rw [cell?_addBlocks]
    cases a.cell? t <;> rfl

lemma Sound.edited_unmarkAll (sound : a.Sound) :
    a.Edited (fun c => some c.unmark) 0 a.unmarkAll := by
  constructor
  · exact sound.unmarkAll
  · rfl
  · exact Array.size_map
  · intro t
    rw [cell?_unmarkAll, Option.map_eq_bind]
    rfl

lemma Sound.edited_sweepInOrder (sound : a.Sound)
    (all : order.Perm (List.range a.blockCount)) :
    a.Edited (Option.guard Cell.isMarked) 0 (a.sweepInOrder order) := by
  constructor
  · exact sound.sweepInOrder all
  · exact (a.sweptAlong_sweepInOrder all).cellSize
  · exact blockCount_sweepInOrder all
  · intro t
    rw [sound.cell?_sweepInOrder all]
    cases a.cell? t with
    | none => rfl
    | some c => simp [Option.filter, Option.guard]

/-- Marks the cells in some slots. -/
def markSlots (a : Allocator α) (slots : List Slot) : Allocator α :=
  slots.foldl (fun a t => a.modifyCell t Cell.mark) a

lemma cell?_markSlots (slots : List Slot) (a : Allocator α) (t : Slot) :
    (a.markSlots slots).cell? t =
      (a.cell? t).map fun c => if t ∈ slots then c.mark else c := by
  induction slots generalizing a with
  | nil => simp [markSlots]
  | cons s slots ih =>
    refine (ih (a.modifyCell s Cell.mark)).trans ?_
    rw [cell?_modifyCell]
    by_cases here : s = t
    · subst here
      cases a.cell? s with
      | none => simp
      | some c => by_cases again : s ∈ slots <;> simp [again, Cell.mark_mark]
    · simp [here, Ne.symm here]

lemma Sound.markSlots (sound : a.Sound) (slots : List Slot) : (a.markSlots slots).Sound := by
  induction slots generalizing a with
  | nil => exact sound
  | cons s slots ih => exact ih (sound.modifyCell s Cell.mark)

lemma blockCount_markSlots (slots : List Slot) (a : Allocator α) :
    (a.markSlots slots).blockCount = a.blockCount := by
  induction slots generalizing a with
  | nil => rfl
  | cons s slots ih => exact (ih (a.modifyCell s Cell.mark)).trans Array.size_modify

lemma cellSize_markSlots (slots : List Slot) (a : Allocator α) :
    (a.markSlots slots).cellSize = a.cellSize := by
  induction slots generalizing a with
  | nil => rfl
  | cons s slots ih => exact ih (a.modifyCell s Cell.mark)

end Allocator

namespace Tour

/-- Goes through the blocks as they were created. -/
def ascending : Tour := ⟨List.range, fun _ => .refl _⟩

def descending : Tour := ⟨fun n => (List.range n).reverse, fun _ => List.reverse_perm _⟩

end Tour

/-- The step asks for no address. -/
def AllocatorStep.AsksNoAddress : AllocatorStep → Prop
  | .owns _ => False
  | .ownsNull => False
  | .cellAt _ _ => False
  | _ => True

namespace AllocatorSession

variable {s s' : AllocatorSession} {c d : Cell Nat} {t : Slot} {number : Nat}

/-- Some slot holds the cell, with these flags. -/
def Holds (s : AllocatorSession) (c : Cell Nat) : Prop := ∃ t, s.allocator.cell? t = some c

/-- Every cell is where its number was put. -/
structure Coherent (s : AllocatorSession) : Prop where
  sound : s.allocator.Sound
  numbered : ∀ t c, s.allocator.cell? t = some c → s.slots[c.payload]? = some t

namespace Coherent

lemma slot?_eq_some_iff (coherent : s.Coherent) :
    s.slot? number = some t ↔ ∃ c, s.allocator.cell? t = some c ∧ c.payload = number := by
  simp only [slot?, Option.bind_eq_bind, Option.bind_eq_some_iff]
  constructor
  · rintro ⟨u, given, c, held, same⟩
    split at same
    · rename_i mine
      cases same
      exact ⟨c, held, mine⟩
    · cases same
  · rintro ⟨c, held, rfl⟩
    exact ⟨t, coherent.numbered t c held, c, held, if_pos rfl⟩

lemma isSome_slot?_iff (coherent : s.Coherent) :
    (s.slot? number).isSome ↔ ∃ c, s.Holds c ∧ c.payload = number := by
  rw [Option.isSome_iff_exists]
  constructor
  · rintro ⟨t, there⟩
    obtain ⟨c, held, mine⟩ := coherent.slot?_eq_some_iff.mp there
    exact ⟨c, ⟨t, held⟩, mine⟩
  · rintro ⟨c, ⟨t, held⟩, mine⟩
    exact ⟨t, coherent.slot?_eq_some_iff.mpr ⟨c, held, mine⟩⟩

/-- A number belongs to one cell. -/
lemma holds_unique (coherent : s.Coherent) (hc : s.Holds c) (hd : s.Holds d)
    (same : c.payload = d.payload) : c = d := by
  obtain ⟨t, ht⟩ := hc
  obtain ⟨u, hu⟩ := hd
  have put := coherent.numbered t c ht
  rw [same, coherent.numbered u d hu] at put
  obtain rfl := Option.some.inj put
  exact Option.some.inj (ht.symm.trans hu)

lemma payload_lt (coherent : s.Coherent) (held : s.Holds c) : c.payload < s.slots.size := by
  obtain ⟨t, ht⟩ := held
  exact (Array.getElem?_eq_some_iff.mp (coherent.numbered t c ht)).1

lemma mem_livingIds (coherent : s.Coherent) :
    number ∈ s.livingIds ↔ ∃ c, s.Holds c ∧ c.payload = number := by
  rw [livingIds, List.mem_filter, coherent.isSome_slot?_iff, List.mem_range]
  constructor
  · exact fun living => living.2
  · rintro ⟨c, held, rfl⟩
    exact ⟨coherent.payload_lt held, c, held, rfl⟩

/-- The living cells are as many as the slots in use. -/
lemma length_livingIds (coherent : s.Coherent) :
    s.livingIds.length = s.allocator.usedSlots.length := by
  have given : (List.range s.slots.size).filterMap s.slot? |>.Perm s.allocator.usedSlots := by
    refine (List.perm_ext_iff_of_nodup ?_ (Allocator.nodup_usedSlots _)).mpr fun t => ?_
    · refine List.nodup_range.filterMap fun i j t hi hj => ?_
      obtain ⟨c, held, rfl⟩ := coherent.slot?_eq_some_iff.mp hi
      obtain ⟨d, held', rfl⟩ := coherent.slot?_eq_some_iff.mp hj
      rw [Option.some.inj (held.symm.trans held')]
    · rw [List.mem_filterMap, coherent.sound.mem_usedSlots, Option.isSome_iff_exists]
      constructor
      · rintro ⟨i, _, there⟩
        obtain ⟨c, held, _⟩ := coherent.slot?_eq_some_iff.mp there
        exact ⟨c, held⟩
      · rintro ⟨c, held⟩
        exact ⟨c.payload, List.mem_range.mpr (coherent.payload_lt ⟨t, held⟩),
          coherent.slot?_eq_some_iff.mpr ⟨c, held, rfl⟩⟩
  rw [← given.length_eq, List.length_filterMap_eq_countP, List.countP_eq_length_filter]
  rfl

end Coherent

/-- An allocator without blocks; the system will put them where it likes. -/
def empty (cellSize : Nat) (place : Nat → Nat) : AllocatorSession :=
  ⟨Allocator.create cellSize place, #[]⟩

lemma coherent_empty {cellSize : Nat} (valid : Settings.classFault? cellSize = none)
    (place : Nat → Nat) : (empty cellSize place).Coherent := by
  refine ⟨Allocator.sound_create valid place, fun t c held => ?_⟩
  rw [empty, Allocator.cell?_create] at held
  cases held

lemma holds_edited {g : Cell Nat → Option (Cell Nat)} {n : Nat} {a : Allocator Nat}
    (edited : s.allocator.Edited g n a) :
    ({ s with allocator := a } : AllocatorSession).Holds d ↔ ∃ c, s.Holds c ∧ g c = some d := by
  simp only [Holds, edited.cells, Option.bind_eq_some_iff]
  constructor
  · rintro ⟨t, c, held, new⟩
    exact ⟨c, ⟨t, held⟩, new⟩
  · rintro ⟨c, ⟨t, held⟩, new⟩
    exact ⟨t, c, held, new⟩

/-- `g` changes no number. -/
def KeepsNumbers (g : Cell Nat → Option (Cell Nat)) : Prop :=
  ∀ c d, g c = some d → d.payload = c.payload

lemma Coherent.edited {g : Cell Nat → Option (Cell Nat)} {n : Nat} {a : Allocator Nat}
    (coherent : s.Coherent) (keeps : KeepsNumbers g) (edited : s.allocator.Edited g n a) :
    ({ s with allocator := a } : AllocatorSession).Coherent := by
  refine ⟨edited.sound, fun t d held => ?_⟩
  simp only [edited.cells, Option.bind_eq_some_iff] at held
  obtain ⟨c, old, new⟩ := held
  rw [keeps c d new]
  exact coherent.numbered t c old

/-- Puts the next cell into the slot that is offered. -/
def fillNext (s : AllocatorSession) (t : Slot) : AllocatorSession :=
  ⟨s.allocator.fill t (.fresh s.slots.size), s.slots.push t⟩

section Fill

variable (coherent : s.Coherent) (next : s.allocator.nextSlot? = some t)

include coherent next

lemma cell?_fillNext (u : Slot) : (s.fillNext t).allocator.cell? u =
    if t = u then some (.fresh s.slots.size) else s.allocator.cell? u :=
  Allocator.cell?_fill coherent.sound next _ u

lemma Coherent.fillNext : (s.fillNext t).Coherent := by
  refine ⟨coherent.sound.fill next _, fun u c held => ?_⟩
  rw [cell?_fillNext coherent next] at held
  rw [AllocatorSession.fillNext, Array.getElem?_push]
  split at held
  · rename_i here
    obtain rfl := Option.some.inj held
    exact (if_pos rfl).trans (congrArg some here)
  · have older := coherent.payload_lt ⟨u, held⟩
    rw [if_neg (Nat.ne_of_lt older)]
    exact coherent.numbered u c held

lemma holds_fillNext : (s.fillNext t).Holds c ↔ c = .fresh s.slots.size ∨ s.Holds c := by
  constructor
  · rintro ⟨u, held⟩
    rw [cell?_fillNext coherent next] at held
    split at held
    · exact .inl (Option.some.inj held).symm
    · exact .inr ⟨u, held⟩
  · rintro (rfl | ⟨u, held⟩)
    · exact ⟨t, by rw [cell?_fillNext coherent next, if_pos rfl]⟩
    · have other : t ≠ u := by
        rintro rfl
        rw [Allocator.cell?_nextSlot next] at held
        cases held
      exact ⟨u, by rw [cell?_fillNext coherent next, if_neg other, held]⟩

end Fill

/-- The same population in as many blocks, wherever the cells lie. -/
structure Alike (s s' : AllocatorSession) : Prop where
  left : s.Coherent
  right : s'.Coherent
  cellSize : s.allocator.cellSize = s'.allocator.cellSize
  blocks : s.allocator.blockCount = s'.allocator.blockCount
  numbers : s.slots.size = s'.slots.size
  population : ∀ c, s.Holds c ↔ s'.Holds c

namespace Alike

variable (alike : s.Alike s')

include alike

lemma isSome_slot? (number : Nat) : (s.slot? number).isSome = (s'.slot? number).isSome := by
  rw [Bool.eq_iff_iff, alike.left.isSome_slot?_iff, alike.right.isSome_slot?_iff]
  simp only [alike.population]

lemma livingIds : s.livingIds = s'.livingIds := by
  rw [AllocatorSession.livingIds, AllocatorSession.livingIds, alike.numbers]
  exact List.filter_congr fun number _ => alike.isSome_slot? number

lemma totalCells : s.allocator.totalCells = s'.allocator.totalCells := by
  rw [Allocator.totalCells, Allocator.totalCells, Allocator.cellsPerBlock, Allocator.cellsPerBlock,
    alike.cellSize, alike.blocks]

lemma freeCells : s.allocator.freeCells = s'.allocator.freeCells := by
  have books := alike.left.sound.freeCells_add_usedSlots
  have books' := alike.right.sound.freeCells_add_usedSlots
  rw [← alike.left.length_livingIds, alike.livingIds, alike.totalCells] at books
  rw [← alike.right.length_livingIds] at books'
  omega

lemma percentage : s.allocator.percentage = s'.allocator.percentage := by
  rw [Allocator.percentage, Allocator.percentage, alike.freeCells, alike.totalCells]

/-- The same change of every cell and as many new blocks. -/
lemma edited {g : Cell Nat → Option (Cell Nat)} {n : Nat} {a a' : Allocator Nat}
    (keeps : KeepsNumbers g) (edited : s.allocator.Edited g n a)
    (edited' : s'.allocator.Edited g n a') :
    Alike { s with allocator := a } { s' with allocator := a' } := by
  constructor
  · exact alike.left.edited keeps edited
  · exact alike.right.edited keeps edited'
  · exact edited.cellSize.trans (alike.cellSize.trans edited'.cellSize.symm)
  · rw [edited.blocks, edited'.blocks, alike.blocks]
  · exact alike.numbers
  · intro c
    rw [holds_edited edited, holds_edited edited']
    simp only [alike.population]

lemma addBlocks (n : Nat) : Alike { s with allocator := s.allocator.addBlocks n }
    { s' with allocator := s'.allocator.addBlocks n } := by
  refine alike.edited (fun c d same => ?_) (alike.left.sound.edited_addBlocks n)
    (alike.right.sound.edited_addBlocks n)
  rw [Option.some.inj same]

lemma ensureRoom : Alike { s with allocator := s.allocator.ensureRoom }
    { s' with allocator := s'.allocator.ensureRoom } := by
  rw [alike.left.sound.ensureRoom_eq_addBlocks, alike.right.sound.ensureRoom_eq_addBlocks,
    alike.freeCells]
  exact alike.addBlocks _

omit alike in
/-- Both grow by as many blocks, since every round looks at the same percentage. -/
lemma growBy {percent : Nat} (fuel : Nat) (alike : s.Alike s') :
    Alike { s with allocator := s.allocator.growBy percent fuel }
      { s' with allocator := s'.allocator.growBy percent fuel } := by
  induction fuel generalizing s s' with
  | zero => exact alike
  | succ fuel ih =>
    rw [Allocator.growBy, Allocator.growBy, alike.percentage]
    split
    · exact ih (alike.addBlocks 1)
    · exact alike

lemma growTo (percent : Nat) : Alike { s with allocator := s.allocator.growTo percent }
    { s' with allocator := s'.allocator.growTo percent } := by
  rw [Allocator.growTo, Allocator.growTo, alike.totalCells, alike.freeCells]
  exact growBy _ alike

lemma fillNext {t t' : Slot} (next : s.allocator.nextSlot? = some t)
    (next' : s'.allocator.nextSlot? = some t') : (s.fillNext t).Alike (s'.fillNext t') := by
  constructor
  · exact alike.left.fillNext next
  · exact alike.right.fillNext next'
  · exact (Allocator.cellSize_fill _ t _).trans
      (alike.cellSize.trans (Allocator.cellSize_fill _ t' _).symm)
  · exact (Allocator.blockCount_fill _ t _).trans
      (alike.blocks.trans (Allocator.blockCount_fill _ t' _).symm)
  · rw [AllocatorSession.fillNext, AllocatorSession.fillNext, Array.size_push, Array.size_push,
      alike.numbers]
  · intro c
    rw [holds_fillNext alike.left next, holds_fillNext alike.right next', alike.numbers,
      alike.population]

/-- A number that is alive has the same cell in both. -/
lemma cell?_eq {t t' : Slot} (there : s.slot? number = some t)
    (there' : s'.slot? number = some t') : s.allocator.cell? t = s'.allocator.cell? t' := by
  obtain ⟨c, held, rfl⟩ := alike.left.slot?_eq_some_iff.mp there
  obtain ⟨c', held', same⟩ := alike.right.slot?_eq_some_iff.mp there'
  have both := (alike.population c).mp ⟨t, held⟩
  rw [held, held', alike.right.holds_unique both ⟨t', held'⟩ same.symm]

end Alike

/-- Marks a cell whose number is one of those asked for. -/
def markIf (p : Nat → Prop) [DecidablePred p] (c : Cell Nat) : Option (Cell Nat) :=
  some (if p c.payload then c.mark else c)

lemma keepsNumbers_markIf (p : Nat → Prop) [DecidablePred p] : KeepsNumbers (markIf p) := by
  intro c d marked
  obtain rfl := Option.some.inj marked
  split
  · rfl
  · rfl

section Marking

variable {p : Nat → Prop} [DecidablePred p]

lemma Coherent.edited_markSlots (coherent : s.Coherent) {slots : List Slot}
    (chosen : ∀ t c, s.allocator.cell? t = some c → (t ∈ slots ↔ p c.payload)) :
    s.allocator.Edited (markIf p) 0 (s.allocator.markSlots slots) := by
  constructor
  · exact coherent.sound.markSlots slots
  · exact Allocator.cellSize_markSlots slots _
  · exact Allocator.blockCount_markSlots slots _
  · intro t
    rw [Allocator.cell?_markSlots]
    cases held : s.allocator.cell? t with
    | none => rfl
    | some c =>
      rw [Option.map_some, Option.bind_some, markIf]
      simp only [chosen t c held]

lemma Coherent.mem_singleton_iff (coherent : s.Coherent) (there : s.slot? number = some t)
    (u : Slot) (c : Cell Nat) (held : s.allocator.cell? u = some c) :
    u ∈ [t] ↔ c.payload = number := by
  rw [List.mem_singleton]
  constructor
  · rintro rfl
    obtain ⟨d, held', rfl⟩ := coherent.slot?_eq_some_iff.mp there
    rw [Option.some.inj (held.symm.trans held')]
  · intro mine
    have found := coherent.slot?_eq_some_iff.mpr ⟨c, held, mine⟩
    exact Option.some.inj (found.symm.trans there)

lemma Coherent.mem_slots_iff (coherent : s.Coherent) (t : Slot) (c : Cell Nat)
    (held : s.allocator.cell? t = some c) :
    t ∈ (s.livingIds.filter (decide <| p ·)).filterMap s.slot? ↔ p c.payload := by
  have found := coherent.slot?_eq_some_iff.mpr ⟨c, held, rfl⟩
  simp only [List.mem_filterMap, List.mem_filter, decide_eq_true_iff]
  constructor
  · rintro ⟨i, ⟨_, asked⟩, there⟩
    obtain ⟨d, held', rfl⟩ := coherent.slot?_eq_some_iff.mp there
    rwa [Option.some.inj (held.symm.trans held')]
  · intro asked
    exact ⟨c.payload, ⟨coherent.mem_livingIds.mpr ⟨c, ⟨t, held⟩, rfl⟩, asked⟩, found⟩

end Marking

lemma foldl_modifyCell (slots : List Slot) (s : AllocatorSession) :
    slots.foldl (fun s t => s.modifyCell t Cell.mark) s =
      { s with allocator := s.allocator.markSlots slots } := by
  induction slots generalizing s with
  | nil => rfl
  | cons t slots ih => exact ih (s.modifyCell t Cell.mark)

/-- Performs a step; a sweep goes through the blocks in the given order. -/
def stepIn (tour : Tour) (s : AllocatorSession) : AllocatorStep → AllocatorAnswer × AllocatorSession
  | .sweep =>
    let (freed, a) := s.allocator.sweepCounting (tour.blocks s.allocator.blockCount)
    (.count freed, { s with allocator := a })
  | step => s.step step

/-- Both report the same and stay alike; neither is offered a full block. -/
structure Agree (x x' : AllocatorAnswer × AllocatorSession) : Prop where
  answer : x.1 = x'.1
  going : x.1 ≠ .stuck
  alike : x.2.Alike x'.2

namespace Alike

variable (alike : s.Alike s')

include alike

lemma allocate (n : Nat) : Agree (s.allocate n) (s'.allocate n) := by
  induction n generalizing s s' with
  | zero => exact ⟨congrArg AllocatorAnswer.count alike.numbers, nofun, alike⟩
  | succ n ih =>
    have room := alike.ensureRoom
    obtain ⟨t, next⟩ := alike.left.sound.nextSlot?_ensureRoom
    obtain ⟨t', next'⟩ := alike.right.sound.nextSlot?_ensureRoom
    rw [AllocatorSession.allocate, AllocatorSession.allocate]
    simp only [next, next']
    exact ih (room.fillNext next next')

lemma mark (number : Nat) : Agree (s.step (.mark number)) (s'.step (.mark number)) := by
  have same := alike.isSome_slot? number
  cases there : s.slot? number with
  | none =>
    have absent : s'.slot? number = none := by
      rwa [there, Option.isSome_none, eq_comm, Option.isSome_eq_false_iff,
        Option.isNone_iff_eq_none] at same
    simp only [step, there, absent]
    exact ⟨rfl, nofun, alike⟩
  | some t =>
    rw [there, Option.isSome_some, eq_comm, Option.isSome_iff_exists] at same
    obtain ⟨t', there'⟩ := same
    simp only [step, there, there']
    have marked : s.allocator.Edited (markIf (· = number)) 0 (s.allocator.markSlots [t]) :=
      alike.left.edited_markSlots (alike.left.mem_singleton_iff there)
    have marked' : s'.allocator.Edited (markIf (· = number)) 0 (s'.allocator.markSlots [t']) :=
      alike.right.edited_markSlots (alike.right.mem_singleton_iff there')
    refine ⟨?_, nofun, alike.edited (keepsNumbers_markIf (· = number)) marked marked'⟩
    rw [alike.cell?_eq there there']

lemma markEvery (stride : Nat) :
    Agree (s.step (.markEvery stride)) (s'.step (.markEvery stride)) := by
  simp only [step, foldl_modifyCell]
  exact ⟨rfl, nofun, alike.edited (keepsNumbers_markIf (· % stride = 0))
    (alike.left.edited_markSlots alike.left.mem_slots_iff)
    (alike.right.edited_markSlots alike.right.mem_slots_iff)⟩

lemma unmarkAll : Agree (s.step .unmarkAll) (s'.step .unmarkAll) := by
  refine ⟨rfl, nofun, alike.edited (fun c d same => ?_) alike.left.sound.edited_unmarkAll
    alike.right.sound.edited_unmarkAll⟩
  rw [← Option.some.inj same]
  rfl

/-- A sweep frees as many cells in both, whatever order either of them has. -/
lemma sweep (tour tour' : Tour) : Agree (s.stepIn tour .sweep) (s'.stepIn tour' .sweep) := by
  have all := tour.all s.allocator.blockCount
  have all' := tour'.all s'.allocator.blockCount
  have after := alike.edited (fun c d same => by rw [(Option.guard_eq_some_iff.mp same).1])
    (alike.left.sound.edited_sweepInOrder all) (alike.right.sound.edited_sweepInOrder all')
  have freed := alike.left.sound.freeCells_sweepInOrder all
  have freed' := alike.right.sound.freeCells_sweepInOrder all'
  have count : (s.allocator.sweepCounting (tour.blocks s.allocator.blockCount)).1 =
      (s'.allocator.sweepCounting (tour'.blocks s'.allocator.blockCount)).1 := by
    have before := alike.freeCells
    have same := after.freeCells
    simp only at same
    omega
  refine ⟨congrArg AllocatorAnswer.count count, nofun, ?_⟩
  simp only [stepIn, Allocator.sweepCounting_eq all, Allocator.sweepCounting_eq all']
  exact after

lemma freeInBlocks : Agree (s.step .freeInBlocks) (s'.step .freeInBlocks) := by
  have counted : ∀ r : AllocatorSession, r.Coherent →
      r.allocator.blocks.foldl (fun n b => n + b.freeCount) 0 = r.allocator.freeCells := by
    intro r coherent
    rw [coherent.sound.books, ← Array.foldl_toList, List.sum_eq_foldl, List.foldl_map]
  refine ⟨?_, nofun, alike⟩
  simp only [step, counted s alike.left, counted s' alike.right, alike.freeCells]

/-- Each step reports the same in both runs. -/
lemma stepIn {step : AllocatorStep} (blind : step.AsksNoAddress) (tour tour' : Tour) :
    Agree (s.stepIn tour step) (s'.stepIn tour' step) := by
  cases step with
  | allocate times => exact alike.allocate times
  | mark number => exact alike.mark number
  | markEvery stride => exact alike.markEvery stride
  | unmarkAll => exact alike.unmarkAll
  | sweep => exact alike.sweep tour tour'
  | addBlocks count => exact ⟨rfl, nofun, alike.addBlocks count⟩
  | growTo percent => exact ⟨rfl, nofun, alike.growTo percent⟩
  | owns number => exact blind.elim
  | ownsNull => exact blind.elim
  | cellAt number delta => exact blind.elim
  | living => exact ⟨congrArg AllocatorAnswer.ids alike.livingIds, nofun, alike⟩
  | freeInBlocks => exact alike.freeInBlocks

end Alike

/-- The steps of a session sweep from the first block to the last. -/
lemma stepIn_ascending (s : AllocatorSession) (step : AllocatorStep) :
    s.stepIn .ascending step = s.step step := by
  cases step with
  | sweep =>
    have all := Tour.ascending.all s.allocator.blockCount
    simp only [stepIn, AllocatorSession.step, Allocator.sweepCounting_eq all,
      Allocator.length_garbage]
    rfl
  | _ => rfl

/-- The session after so many steps, each sweep in the order of its tour. -/
def after (s : AllocatorSession) (tours : Nat → Tour) (steps : Nat → AllocatorStep) :
    Nat → AllocatorSession
  | 0 => s
  | n + 1 => ((s.after tours steps n).stepIn (tours n) (steps n)).2

/-- What is reported at a step. -/
def answerAt (s : AllocatorSession) (tours : Nat → Tour) (steps : Nat → AllocatorStep) (n : Nat) :
    AllocatorAnswer :=
  ((s.after tours steps n).stepIn (tours n) (steps n)).1

/-- What can be told of an allocator without looking where its cells lie. -/
structure Census where
  freeCells : Nat
  totalCells : Nat
  blockCount : Nat
  percentage : Nat
  living : List Nat
deriving DecidableEq, Repr

def census (s : AllocatorSession) : Census where
  freeCells := s.allocator.freeCells
  totalCells := s.allocator.totalCells
  blockCount := s.allocator.blockCount
  percentage := s.allocator.percentage
  living := s.livingIds

lemma alike_empty {cellSize : Nat} (valid : Settings.classFault? cellSize = none)
    (place place' : Nat → Nat) : (empty cellSize place).Alike (empty cellSize place') := by
  refine ⟨coherent_empty valid place, coherent_empty valid place', rfl, rfl, rfl, fun c => ?_⟩
  simp only [Holds, empty, Allocator.cell?_create]

lemma Alike.census (alike : s.Alike s') : s.census = s'.census := by
  rw [AllocatorSession.census, AllocatorSession.census, alike.freeCells, alike.totalCells,
    alike.blocks, alike.percentage, alike.livingIds]

section Runs

variable {steps : Nat → AllocatorStep} (blind : ∀ n, (steps n).AsksNoAddress)

include blind

lemma Alike.after (alike : s.Alike s') (tours tours' : Nat → Tour) (n : Nat) :
    (s.after tours steps n).Alike (s'.after tours' steps n) := by
  induction n with
  | zero => exact alike
  | succ n ih => exact (ih.stepIn (blind n) (tours n) (tours' n)).alike

/-- Whatever orders two runs sweep in, and wherever their blocks lie, they report the same all
along and have the same census. -/
theorem order_of_blocks_unseen {cellSize : Nat} (valid : Settings.classFault? cellSize = none)
    (place place' : Nat → Nat) (tours tours' : Nat → Tour) (n : Nat) :
    (empty cellSize place).answerAt tours steps n =
        (empty cellSize place').answerAt tours' steps n ∧
      (empty cellSize place).answerAt tours steps n ≠ .stuck ∧
      ((empty cellSize place).after tours steps n).census =
        ((empty cellSize place').after tours' steps n).census := by
  have alike := (alike_empty valid place place').after blind tours tours' n
  have agree := alike.stepIn (blind n) (tours n) (tours' n)
  exact ⟨agree.answer, agree.going, alike.census⟩

end Runs

/-- Fills two blocks and a half, keeps every third cell and fills up what became free. -/
def thinning : Nat → AllocatorStep
  | 0 => .allocate 20
  | 1 => .markEvery 3
  | 2 => .sweep
  | 3 => .allocate 5
  | _ => .living

/-- Two runs whose new cells are in different blocks after the sweep. -/
theorem order_of_blocks_unseen_thinning : Settings.classFault? 4064 = none ∧
    (∀ n, (thinning n).AsksNoAddress) ∧
    ((empty 4064 (2 * ·)).after (fun _ => .ascending) thinning 4).census =
      ((empty 4064 Nat.succ).after (fun _ => .descending) thinning 4).census ∧
    ((empty 4064 (2 * ·)).after (fun _ => .ascending) thinning 4).slots ≠
      ((empty 4064 Nat.succ).after (fun _ => .descending) thinning 4).slots := by
  have blind : ∀ n, (thinning n).AsksNoAddress := by
    intro n
    match n with
    | 0 => trivial
    | 1 => trivial
    | 2 => trivial
    | 3 => trivial
    | _ + 4 => trivial
  have valid : Settings.classFault? 4064 = none := by decide
  have unseen := order_of_blocks_unseen blind valid (2 * ·) Nat.succ (fun _ => .ascending)
    (fun _ => .descending) 4
  exact ⟨valid, blind, unseen.2.2, by decide +kernel⟩

end AllocatorSession

end CellMachine
