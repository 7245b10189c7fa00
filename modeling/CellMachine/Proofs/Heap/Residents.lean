import CellMachine.Proofs.Heap.Payloads

/-!
# Residents of a heap

The live cells of a heap, listed by their addresses. They are as many as the counters of
the allocators say and as a census by type says. What a change does to the list is told by
the cells it frees: a cycle frees what its roots do not lead to, a final sweep frees all,
and most changes free none.
-/

namespace CellMachine

namespace Heap

variable {α : Type}

/-- The addresses of the live cells. -/
def residents (h : Heap α) : List Address := h.spots.map h.addressOf

lemma Sound.mem_residents {h : Heap α} (sound : h.Sound) {a : Address} :
    a ∈ h.residents ↔ h.isLive a := by
  rw [residents, List.mem_map, sound.isLive_iff]
  exact exists_congr fun s => and_congr_left fun _ => sound.mem_spots

lemma Sound.nodup_residents {h : Heap α} (sound : h.Sound) : h.residents.Nodup :=
  List.Nodup.map_on
    (fun _ hs _ ht same => sound.addressOf_inj (sound.mem_spots.mp hs) (sound.mem_spots.mp ht) same)
    h.nodup_spots

/-- Two lists of addresses without repetition that say the same. -/
lemma Sound.perm_residents {h : Heap α} (sound : h.Sound) {l : List Address} (distinct : l.Nodup)
    (mem : ∀ a, a ∈ l ↔ h.isLive a) : h.residents.Perm l :=
  (List.perm_ext_iff_of_nodup sound.nodup_residents distinct).mpr fun a =>
    sound.mem_residents.trans (mem a).symm

lemma Sound.length_residents {h : Heap α} (sound : h.Sound) :
    h.residents.length = h.liveCells := by
  have books := sound.freeCells_add_spots
  rw [residents, List.length_map, liveCells]
  omega

lemma cells_eq (h : Heap α) : h.cells = h.spots.filterMap h.cellAt? := by
  have class_ : ∀ a : Allocator α, a.cells = a.usedSlots.filterMap a.cell? := by
    intro a
    rw [Allocator.cells, Allocator.usedSlots, List.filterMap_map]
    rw [filterMap_tagged a.blocks Block.usedSlots _ Block.cell?]
    · rfl
    · intro i b hb k
      simp [Allocator.cell?, hb]
  rw [cells, spots, List.filterMap_map]
  rw [filterMap_tagged h.allocators Allocator.usedSlots _ Allocator.cell?]
  · exact congrArg (fun f => List.flatMap f h.allocators.toList) (funext class_)
  · intro c a ha s
    simp [cellAt?, ha]

lemma Sound.remains_eq {h : Heap α} (sound : h.Sound) :
    h.remains = h.residents.filterMap h.payload? := by
  rw [remains, cells_eq, residents, List.map_filterMap, List.filterMap_map]
  apply List.filterMap_congr
  intro s hs
  rw [Function.comp_apply, sound.payload?_addressOf (sound.mem_spots.mp hs)]

lemma Sound.remains_eq_nil {h : Heap α} (sound : h.Sound) (none_live : ∀ a, ¬ h.isLive a) :
    h.remains = [] := by
  have empty : h.residents = [] := List.eq_nil_iff_forall_not_mem.mpr fun a here =>
    none_live a (sound.mem_residents.mp here)
  rw [sound.remains_eq, empty]
  rfl

/-- Each live cell holds a payload. -/
lemma Sound.length_payloads {h : Heap α} (sound : h.Sound) {l : List Address}
    (live : ∀ a ∈ l, h.isLive a) : (l.filterMap h.payload?).length = l.length := by
  refine List.filterMap_length_eq_length.mpr fun a here => ?_
  obtain ⟨s, used, rfl⟩ := sound.isLive_iff.mp (live a here)
  rwa [sound.payload?_addressOf used, Option.isSome_map]

lemma Sound.length_remains {h : Heap α} (sound : h.Sound) : h.remains.length = h.liveCells := by
  rw [sound.remains_eq, sound.length_payloads fun a => sound.mem_residents.mp,
    sound.length_residents]

lemma sum_countName (name : String) (counts : List (String × Nat)) :
    ((countName name counts).map Prod.snd).sum = (counts.map Prod.snd).sum + 1 := by
  induction counts with
  | nil => rfl
  | cons entry rest ih =>
    obtain ⟨n, k⟩ := entry
    rw [countName]
    split
    · simp only [List.map_cons, List.sum_cons]
      omega
    split
    · simp only [List.map_cons, List.sum_cons]
      omega
    · simp only [List.map_cons, List.sum_cons, ih]
      omega

/-- The census counts every cell once. -/
lemma Sound.sum_census [Payload α] {h : Heap α} (sound : h.Sound) :
    (h.census.map Prod.snd).sum = h.liveCells := by
  have counted : ∀ (cells : List (Cell α)) counts,
      ((cells.foldl (fun counts c => countName (Payload.typeName c.payload) counts)
        counts).map Prod.snd).sum = (counts.map Prod.snd).sum + cells.length := by
    intro cells
    induction cells with
    | nil => exact fun _ => rfl
    | cons c cells ih =>
      intro counts
      rw [List.foldl_cons, ih, sum_countName, List.length_cons]
      omega
  rw [census, counted, ← sound.length_remains, remains, List.length_map]
  exact Nat.zero_add _

/-- The second heap has the cells of the first but for those at some addresses, whose payloads
it has dropped. -/
structure Loses (h h' : Heap α) (gone : List Address) : Prop where
  sound : h'.Sound
  distinct : gone.Nodup
  resident : ∀ a ∈ gone, h.isLive a
  live_iff : ∀ a, h'.isLive a ↔ h.isLive a ∧ a ∉ gone
  payload : ∀ a, h'.isLive a → h'.payload? a = h.payload? a
  dropped : ∃ lost, lost.Perm (gone.filterMap h.payload?) ∧ h'.dropped = lost ++ h.dropped

/-- A change that frees none, after one that may. -/
lemma Loses.then_none {h h' h'' : Heap α} {gone : List Address} (first : h.Loses h' gone)
    (second : h'.Loses h'' []) : h.Loses h'' gone := by
  have live : ∀ a, h''.isLive a ↔ h'.isLive a := fun a => by simp [second.live_iff a]
  obtain ⟨none_lost, empty, same⟩ := second.dropped
  obtain rfl := empty.eq_nil
  constructor
  · exact second.sound
  · exact first.distinct
  · exact first.resident
  · exact fun a => (live a).trans (first.live_iff a)
  · intro a here
    rw [second.payload a here, first.payload a ((live a).mp here)]
  · rw [same]
    exact first.dropped

/-- What a heap held is what it holds with what it has lost. -/
lemma Loses.remains {h h' : Heap α} {gone : List Address} (loses : h.Loses h' gone)
    (sound : h.Sound) : h.remains.Perm (h'.remains ++ gone.filterMap h.payload?) := by
  have split : h.residents.Perm (h'.residents ++ gone) := by
    refine sound.perm_residents ?_ fun a => ?_
    · refine loses.sound.nodup_residents.append loses.distinct ?_
      exact fun a here lost =>
        ((loses.live_iff a).mp (loses.sound.mem_residents.mp here)).2 lost
    · rw [List.mem_append, loses.sound.mem_residents, loses.live_iff]
      by_cases lost : a ∈ gone
      · simp [lost, loses.resident a lost]
      · simp [lost]
  have kept : h'.residents.filterMap h.payload? = h'.residents.filterMap h'.payload? :=
    List.filterMap_congr fun a here => (loses.payload a (loses.sound.mem_residents.mp here)).symm
  rw [sound.remains_eq, loses.sound.remains_eq, ← kept, ← List.filterMap_append]
  exact split.filterMap _

lemma Loses.liveCells {h h' : Heap α} {gone : List Address} (loses : h.Loses h' gone)
    (sound : h.Sound) : h.liveCells = h'.liveCells + gone.length := by
  have lengths := (loses.remains sound).length_eq
  rwa [List.length_append, sound.length_payloads loses.resident, sound.length_remains,
    loses.sound.length_remains] at lengths

/-- The same cells in the same slots, and nothing dropped. -/
lemma Sound.loses_none {h h' : Heap α} (sound : h.Sound) (sound' : h'.Sound)
    (layout : h'.layout = h.layout) (cells : ∀ s, h'.cellAt? s = h.cellAt? s)
    (dropped : h'.dropped = h.dropped) : h.Loses h' [] := by
  have same := sound.cells_of_layout sound' layout cells
  constructor
  · exact sound'
  · exact List.nodup_nil
  · exact fun a mem => by cases mem
  · intro a
    rw [isLive, isLive, (same a).1]
    simp
  · exact fun a _ => (same a).2
  · exact ⟨[], .refl _, dropped⟩

lemma Sound.loses_prewarm {h : Heap α} (sound : h.Sound) (c : Nat) : h.Loses (h.prewarm c) [] :=
  sound.loses_none (sound.prewarm c) (layout_prewarm h c) (cellAt?_prewarm h c) rfl

lemma Sound.loses_grow {h : Heap α} (sound : h.Sound) (c : Nat) : h.Loses (h.grow c) [] :=
  sound.loses_none (sound.grow c) (layout_grow h c) (cellAt?_grow h c) rfl

lemma unmarked (h : Heap α) (s : Spot) : (h.unmarkAll.cellAt? s).all fun c => !c.isMarked := by
  rw [cellAt?_unmarkAll]
  cases h.cellAt? s with
  | none => rfl
  | some c => simp [c.isMarked_unmark]

/-- Without marks, what all residents hold is garbage. -/
lemma Sound.garbage_unmarkAll {h : Heap α} (sound : h.Sound) :
    h.unmarkAll.garbage.Perm (h.residents.filterMap h.payload?) := by
  have all_doomed : h.unmarkAll.doomed = h.unmarkAll.spots :=
    List.filter_eq_self.mpr fun s _ => h.unmarked s
  have spots : h.unmarkAll.spots.Perm h.spots := by
    refine (List.perm_ext_iff_of_nodup (nodup_spots _) (nodup_spots _)).mpr fun s => ?_
    rw [sound.unmarkAll.mem_spots, sound.mem_spots, cellAt?_unmarkAll, Option.isSome_map]
  rw [garbage_eq, all_doomed, residents, List.filterMap_map]
  refine (spots.filterMap _).trans (.of_eq (List.filterMap_congr fun s hs => ?_))
  rw [Function.comp_apply, sound.payload?_addressOf (sound.mem_spots.mp hs), cellAt?_unmarkAll,
    Option.map_map]
  rfl

lemma Sound.not_isLive_collectAll {h : Heap α} (sound : h.Sound) (a : Address) :
    ¬ h.collectAll.2.isLive a := by
  intro live
  have swept : h.collectAll.2.Sound := sound.unmarkAll.sweep
  obtain ⟨s, used, _⟩ := swept.isLive_iff.mp live
  obtain ⟨c, hc⟩ := Option.isSome_iff_exists.mp used
  have kept := (sound.unmarkAll.cellAt?_sweep s).symm.trans hc
  obtain ⟨here, marked⟩ := Option.filter_eq_some_iff.mp kept
  have clear := h.unmarked s
  simp [here, marked] at clear

/-- A final sweep frees every cell and answers with their number. -/
lemma Sound.loses_collectAll {h : Heap α} (sound : h.Sound) :
    h.Loses h.collectAll.2 h.residents ∧ h.collectAll.1 = h.liveCells := by
  have none_left := sound.not_isLive_collectAll
  constructor
  · constructor
    · exact sound.unmarkAll.sweep
    · exact sound.nodup_residents
    · exact fun a here => sound.mem_residents.mp here
    · intro a
      rw [sound.mem_residents]
      exact ⟨fun live => absurd live (none_left a), fun ⟨live, gone⟩ => absurd live gone⟩
    · exact fun a live => absurd live (none_left a)
    · exact ⟨_, (List.reverse_perm _).trans sound.garbage_unmarkAll, List.reverseAux_eq⟩
  · change h.unmarkAll.garbage.length = h.liveCells
    rw [sound.garbage_unmarkAll.length_eq, ← sound.remains_eq, sound.length_remains]

variable [Payload α] {inputs : List RootSet}

/-- A cycle frees what its roots do not lead to. -/
lemma Sound.loses_runCycle {h : Heap α} (sound : h.Sound) (inputs : List RootSet) :
    h.Loses (h.runCycle inputs) (h.unreached inputs) := by
  constructor
  · exact sound.runCycle inputs
  · exact sound.nodup_unreached
  · exact fun a lost => (sound.mem_unreached.mp lost).1
  · intro a
    rw [sound.isLive_runCycle_iff, sound.mem_unreached]
    constructor
    · exact fun reached => ⟨reached.isLive sound, fun lost => lost.2 reached⟩
    · rintro ⟨live, kept⟩
      by_contra missed
      exact kept ⟨live, missed⟩
  · exact fun a live => sound.payload?_runCycle_of_reaches (sound.isLive_runCycle_iff.mp live)
  · exact ⟨_, List.reverse_perm _, sound.dropped_runCycle inputs⟩

/-- The totals of the statistics grow by what the cycle counts. -/
lemma Sound.totals_runCycle {h : Heap α} (sound : h.Sound) (inputs : List RootSet) :
    (h.runCycle inputs).stats.cycles = h.stats.cycles + 1 ∧
      (h.runCycle inputs).stats.cellsFreed =
        h.stats.cellsFreed + (h.runCycle inputs).stats.last.freed := by
  obtain ⟨all, holds, _⟩ := sound.exists_markFrom inputs
  obtain ⟨allocators, eq⟩ := holds.frame
  have before : (h.markFrom inputs).heap.stats = h.stats := by
    rw [eq]
    rfl
  rw [← before]
  exact ⟨rfl, rfl⟩

/-- All marked cells survive, and only these. -/
lemma Sound.marked_runCycle {h : Heap α} (sound : h.Sound) (inputs : List RootSet) :
    (h.runCycle inputs).stats.last.marked = (h.runCycle inputs).liveCells := by
  obtain ⟨all, holds, empty, mem⟩ := sound.exists_markFrom inputs
  have distinct : all.Nodup := holds.distinct.of_append_left
  have addresses : (h.runCycle inputs).residents.Perm (all.map h.addressOf) := by
    refine (sound.runCycle inputs).perm_residents (distinct.map_on ?_) fun a => ?_
    · intro s hs t ht same
      exact sound.addressOf_inj ((mem s).mp hs).1 ((mem t).mp ht).1 same
    · rw [List.mem_map, sound.isLive_runCycle_iff]
      constructor
      · rintro ⟨s, hs, rfl⟩
        exact ((mem s).mp hs).2
      · intro reached
        obtain ⟨s, used, rfl⟩ := sound.isLive_iff.mp (reached.isLive sound)
        exact ⟨s, (mem s).mpr ⟨used, reached⟩, rfl⟩
  have counted := holds.counted
  rw [empty, List.append_nil] at counted
  calc (h.runCycle inputs).stats.last.marked
      = (h.markFrom inputs).marked := rfl
    _ = (h.runCycle inputs).liveCells := by
      rw [counted, ← (sound.runCycle inputs).length_residents, addresses.length_eq,
        List.length_map]

end Heap

namespace Marking

variable {α : Type} [Payload α]

omit [Payload α] in
@[simp] lemma roots_reach (m : Marking α) (s : Spot) : (m.reach s).roots = m.roots := by
  rw [reach]
  split
  · rfl
  · rfl

omit [Payload α] in
@[simp] lemma roots_edge (m : Marking α) (v : Value) : (m.edge v).roots = m.roots := by
  rw [edge.eq_def]
  split
  · split
    · exact roots_reach m _
    · rfl
  · rfl

/-- No root is found along an edge. -/
lemma roots_drain (fuel : Nat) (m : Marking α) : (m.drain fuel).roots = m.roots := by
  have edges : ∀ (values : List Value) (m : Marking α),
      (values.foldl edge m).roots = m.roots := by
    intro values
    induction values with
    | nil => exact fun _ => rfl
    | cons v values ih => exact fun m => (ih (m.edge v)).trans (roots_edge m v)
  induction fuel generalizing m with
  | zero => rfl
  | succ fuel ih =>
    rw [drain]
    split
    · rfl
    · exact (ih _).trans (edges _ _)

/-- Each submitted word that resolves is counted. -/
lemma Holds.roots_candidates {h : Heap α} {roots : Set Address} {visited : List Spot}
    (words : List Address) (within : ∀ w ∈ words, w ∈ roots) {m : Marking α}
    (holds : Holds h roots visited m) :
    (words.foldl Marking.candidate m).roots =
      m.roots + words.countP fun w => (h.resolve? w).isSome := by
  induction words generalizing m with
  | nil => rfl
  | cons word words ih =>
    obtain ⟨next, _⟩ := holds.candidate (within word List.mem_cons_self)
    have resolve := holds.samePayloads.resolve? holds.sound holds.soundHeap word
    rw [List.foldl_cons, ih (fun w hw => within w (List.mem_cons_of_mem _ hw)) next,
      List.countP_cons, Marking.candidate, resolve]
    cases h.resolve? word with
    | none => simp
    | some s =>
      simp
      omega

end Marking

namespace Heap

variable {α : Type} [Payload α]

/-- The words that a cycle takes for roots if they resolve: those submitted, and those of the
global roots, as often as they are registered. -/
def rootWords (h : Heap α) (inputs : List RootSet) : List Address :=
  inputs.flatten ++ references h.globalRoots

lemma Sound.roots_runCycle {h : Heap α} (sound : h.Sound) (inputs : List RootSet) :
    (h.runCycle inputs).stats.last.roots =
      (h.rootWords inputs).countP fun w => (h.cellFor? w).isSome := by
  have resolve := (SamePayloads.unmarkAll h).resolve? sound sound.unmarkAll
  have start := Marking.holds_start sound Set.univ
  have within : ∀ (words : List Address), ∀ w ∈ words, w ∈ (Set.univ : Set Address) :=
    fun _ w _ => Set.mem_univ w
  obtain ⟨submitted, _⟩ := start.candidates inputs.flatten (within _)
  calc (h.runCycle inputs).stats.last.roots
      = (h.markFrom inputs).roots := rfl
    _ = (h.rootWords inputs).countP fun w => (h.unmarkAll.resolve? w).isSome := by
      rw [Heap.markFrom, Marking.finish, Marking.roots_drain,
        submitted.roots_candidates _ (within _), start.roots_candidates _ (within _), rootWords,
        List.countP_append]
      exact congrArg (· + _) (Nat.zero_add _)
    _ = _ := List.countP_congr fun w _ => by rw [resolve, cellFor?, Option.isSome_map]

end Heap

end CellMachine
