import CellMachine.Heap.Node
import CellMachine.Proofs.Heap.Reachable

/-!
# Exactness of a cycle

What a cycle does to the cells, seen by their addresses: the live cells that the roots
lead to stay as they are, and all other live cells are dropped at once. Words that lie in
no slot in use, among them every place on a thread's stack, have no part in it.
-/

namespace CellMachine

namespace Heap

variable {α : Type} [Payload α] {h : Heap α} {inputs : List RootSet}

lemma Sound.spot?_runCycle_of_reaches (sound : h.Sound) {a : Address}
    (reached : h.Reaches (h.cycleRoots inputs) a) : (h.runCycle inputs).spot? a = h.spot? a := by
  obtain ⟨s, used, rfl⟩ := sound.isLive_iff.mp (reached.isLive sound)
  have stays := sound.cellAt?_runCycle_of_reaches reached
  have used' : ((h.runCycle inputs).cellAt? s).isSome := by simpa [stays] using used
  have address := addressOf_congr (sound.layout_runCycle inputs) s
  rw [sound.spot?_addressOf used, ← address]
  exact (sound.runCycle inputs).spot?_addressOf used'

/-- A cell that the roots lead to is live afterwards, with a mark and otherwise unchanged. -/
lemma Sound.cell?_runCycle_of_reaches (sound : h.Sound) {a : Address}
    (reached : h.Reaches (h.cycleRoots inputs) a) :
    (h.runCycle inputs).cell? a = (h.cell? a).map fun c => c.unmark.mark := by
  obtain ⟨s, used, rfl⟩ := sound.isLive_iff.mp (reached.isLive sound)
  rw [cell?, sound.spot?_runCycle_of_reaches reached, cell?, sound.spot?_addressOf used]
  exact sound.cellAt?_runCycle_of_reaches reached

lemma Sound.payload?_runCycle_of_reaches (sound : h.Sound) {a : Address}
    (reached : h.Reaches (h.cycleRoots inputs) a) :
    (h.runCycle inputs).payload? a = h.payload? a := by
  rw [payload?, sound.cell?_runCycle_of_reaches reached, Option.map_map]
  rfl

lemma Sound.isLive_runCycle_iff (sound : h.Sound) {a : Address} :
    (h.runCycle inputs).isLive a ↔ h.Reaches (h.cycleRoots inputs) a := by
  constructor
  · intro live
    obtain ⟨s, used, here⟩ := (sound.runCycle inputs).isLive_iff.mp live
    rw [addressOf_congr (sound.layout_runCycle inputs)] at here
    subst here
    by_contra unreached
    rw [sound.cellAt?_runCycle_of_not_reaches unreached] at used
    cases used
  · intro reached
    have live := reached.isLive sound
    rw [isLive] at live
    rwa [isLive, sound.spot?_runCycle_of_reaches reached]

/-- Where the cells lie that the sweep of a cycle drops. -/
def unreached (h : Heap α) (inputs : List RootSet) : List Address :=
  (h.markFrom inputs).heap.doomed.map h.addressOf

lemma Sound.payload_markFrom (sound : h.Sound) (inputs : List RootSet) (s : Spot) :
    ((h.markFrom inputs).heap.cellAt? s).map Cell.payload = (h.cellAt? s).map Cell.payload := by
  obtain ⟨all, holds, _⟩ := sound.exists_markFrom inputs
  exact (holds.samePayloads.payload s).trans ((SamePayloads.unmarkAll h).payload s)

lemma Sound.used_of_mem_doomed (sound : h.Sound) {s : Spot}
    (doomed : s ∈ (h.markFrom inputs).heap.doomed) : (h.cellAt? s).isSome := by
  obtain ⟨c, hc, _⟩ := (sound.markFrom inputs).mem_doomed.mp doomed
  have same := congrArg Option.isSome (sound.payload_markFrom inputs s)
  simpa [hc] using same.symm

lemma Sound.nodup_unreached (sound : h.Sound) : (h.unreached inputs).Nodup := by
  refine List.Nodup.map_on ?_ (nodup_doomed _)
  intro s hs t ht same
  exact sound.addressOf_inj (sound.used_of_mem_doomed hs) (sound.used_of_mem_doomed ht) same

lemma Sound.mem_unreached (sound : h.Sound) {a : Address} :
    a ∈ h.unreached inputs ↔ h.isLive a ∧ ¬ h.Reaches (h.cycleRoots inputs) a := by
  rw [unreached, List.mem_map, sound.isLive_iff]
  constructor
  · rintro ⟨s, hs, rfl⟩
    obtain ⟨c, hc, unmarked⟩ := (sound.markFrom inputs).mem_doomed.mp hs
    refine ⟨⟨s, sound.used_of_mem_doomed hs, rfl⟩, fun reached => ?_⟩
    rw [(sound.cellAt?_markFrom inputs s).1 reached, Option.map_eq_some_iff] at hc
    obtain ⟨c₀, _, rfl⟩ := hc
    rw [Cell.isMarked_mark] at unmarked
    cases unmarked
  · rintro ⟨⟨s, here, rfl⟩, missed⟩
    obtain ⟨c, hc⟩ := Option.isSome_iff_exists.mp here
    have left := (sound.cellAt?_markFrom inputs s).2 missed
    rw [hc] at left
    exact ⟨s, (sound.markFrom inputs).mem_doomed.mpr ⟨c.unmark, left, c.isMarked_unmark⟩, rfl⟩

lemma Sound.garbage_markFrom (sound : h.Sound) :
    (h.markFrom inputs).heap.garbage = (h.unreached inputs).filterMap h.payload? := by
  rw [garbage_eq, unreached, List.filterMap_map]
  apply List.filterMap_congr
  intro s hs
  rw [sound.payload_markFrom, Function.comp_apply, payload?,
    sound.cell?_addressOf (sound.used_of_mem_doomed hs)]

/-- The dropped payloads are those of the cells that the roots do not lead to. -/
lemma Sound.dropped_runCycle (sound : h.Sound) (inputs : List RootSet) :
    (h.runCycle inputs).dropped =
      ((h.unreached inputs).filterMap h.payload?).reverse ++ h.dropped := by
  obtain ⟨all, holds, _⟩ := sound.exists_markFrom inputs
  obtain ⟨allocators, eq⟩ := holds.frame
  have old : (h.markFrom inputs).heap.dropped = h.dropped := by
    rw [eq]
    rfl
  calc (h.runCycle inputs).dropped
      = (h.markFrom inputs).heap.garbage.reverseAux (h.markFrom inputs).heap.dropped := rfl
    _ = _ := by rw [List.reverseAux_eq, sound.garbage_markFrom, old]

lemma Sound.freed_runCycle (sound : h.Sound) (inputs : List RootSet) :
    (h.runCycle inputs).stats.last.freed = (h.unreached inputs).length := by
  have each : ∀ a ∈ h.unreached inputs, (h.payload? a).isSome := by
    intro a ha
    obtain ⟨s, used, rfl⟩ := sound.isLive_iff.mp (sound.mem_unreached.mp ha).1
    rwa [payload?, sound.cell?_addressOf used, Option.isSome_map]
  calc (h.runCycle inputs).stats.last.freed
      = (h.markFrom inputs).heap.garbage.length := rfl
    _ = _ := by rw [sound.garbage_markFrom, List.filterMap_length_eq_length.mpr each]

/-- Root sets without the words that lie in no slot in use. -/
def inside (h : Heap α) (inputs : List RootSet) : List RootSet :=
  inputs.map fun roots => roots.filter fun w => (h.resolve? w).isSome

lemma foldl_candidate_filter {g : Heap α} {roots : Set Address} (words : List Address)
    (within : ∀ w ∈ words, w ∈ roots) {visited : List Spot} {m : Marking α}
    (holds : Marking.Holds g roots visited m) :
    (words.filter fun w => (g.resolve? w).isSome).foldl Marking.candidate m =
      words.foldl Marking.candidate m := by
  induction words generalizing m with
  | nil => rfl
  | cons word words ih =>
    have within' : ∀ w ∈ words, w ∈ roots := fun w hw => within w (List.mem_cons_of_mem _ hw)
    obtain ⟨next, _⟩ := holds.candidate (within word List.mem_cons_self)
    cases hit : g.resolve? word with
    | some s =>
      rw [List.filter_cons_of_pos (by simp [hit]), List.foldl_cons, List.foldl_cons]
      exact ih within' next
    | none =>
      have resolve := holds.samePayloads.resolve? holds.sound holds.soundHeap word
      have skip : m.candidate word = m := by simp only [Marking.candidate, resolve, hit]
      rw [List.filter_cons_of_neg (by simp [hit]), List.foldl_cons, skip]
      exact ih within' holds

/-- A word that lies in no slot in use is passed over. -/
lemma Sound.markFrom_inside (sound : h.Sound) (inputs : List RootSet) :
    h.markFrom (h.inside inputs) = h.markFrom inputs := by
  have resolve := (SamePayloads.unmarkAll h).resolve? sound sound.unmarkAll
  have flat : (h.inside inputs).flatten =
      inputs.flatten.filter fun w => (h.unmarkAll.resolve? w).isSome := by
    simp only [inside, resolve, List.filter_flatten]
  rw [Heap.markFrom, Heap.markFrom, flat]
  rw [foldl_candidate_filter inputs.flatten (fun _ _ => Set.mem_univ _)
    (Marking.holds_start sound Set.univ)]

/-- What it means that a cycle over some root sets is exact. -/
structure ExactCycle (h : Heap α) (inputs : List RootSet) : Prop where
  /-- Marking comes to an end. -/
  drained : (h.markFrom inputs).pending = []
  live_iff : ∀ a, (h.runCycle inputs).isLive a ↔
    h.isLive a ∧ h.Reaches (h.cycleRoots inputs) a
  /-- Survivors stay in their slots with payload, edges and all flags but the mark. -/
  kept : ∀ a, (h.runCycle inputs).isLive a → (h.runCycle inputs).spot? a = h.spot? a ∧
    (h.runCycle inputs).cell? a = (h.cell? a).map fun c => c.unmark.mark
  /-- No survivor loses a cell that it refers to. -/
  edges : ∀ a payload b, (h.runCycle inputs).payload? a = some payload →
    Value.ref b ∈ Payload.children payload → ((h.runCycle inputs).isLive b ↔ h.isLive b)
  /-- Each cell that the roots do not lead to is dropped, once. -/
  freed : ∃ gone : List Address, gone.Nodup ∧
    (∀ a, a ∈ gone ↔ h.isLive a ∧ ¬ h.Reaches (h.cycleRoots inputs) a) ∧
    (h.runCycle inputs).dropped = (gone.filterMap h.payload?).reverse ++ h.dropped ∧
    (h.runCycle inputs).stats.last.freed = gone.length
  /-- Earlier marks do not matter. -/
  forgetful : ∀ g : Heap α, g.unmarkAll = h.unmarkAll → g.runCycle inputs = h.runCycle inputs
  /-- Words outside all slots in use do not matter. -/
  foreign : h.markFrom (h.inside inputs) = h.markFrom inputs
  /-- A place on a thread's stack is marked neither as a root nor along an edge, and no
  slot lies there. -/
  stack : ∀ depth, (∀ m : Marking α, m.candidate (.stack depth) = m ∧
    m.edge (.ref (.stack depth)) = m) ∧ ¬ h.isLive (.stack depth)
  /-- Nothing but the slots, the dropped payloads and the counts changes. -/
  frame : ∃ allocators dropped stats, h.runCycle inputs = { h with allocators, dropped, stats }

lemma Sound.isLive_of_edge (sound : h.Sound) {a b : Address} {payload : α}
    (here : (h.runCycle inputs).payload? a = some payload)
    (child : Value.ref b ∈ Payload.children payload) :
    (h.runCycle inputs).isLive b ↔ h.isLive b := by
  have live : (h.runCycle inputs).isLive a := by
    obtain ⟨c, hc, _⟩ := Option.map_eq_some_iff.mp here
    obtain ⟨s, hs, _⟩ := Option.bind_eq_some_iff.mp hc
    simp [isLive, hs]
  have reached := sound.isLive_runCycle_iff.mp live
  rw [sound.payload?_runCycle_of_reaches reached] at here
  rw [sound.isLive_runCycle_iff]
  exact ⟨fun reached' => reached'.isLive sound, fun alive => .edge reached here child alive⟩

/-- A cycle keeps the cells that its roots lead to and drops all others, in every
reachable heap and for all words submitted. -/
theorem runCycle_exact {h : Heap α} (reachable : h.Reachable) (inputs : List RootSet) :
    h.ExactCycle inputs := by
  have sound := reachable.sound
  obtain ⟨all, _, empty, _⟩ := sound.exists_markFrom inputs
  constructor
  · exact empty
  · intro a
    rw [sound.isLive_runCycle_iff]
    exact ⟨fun reached => ⟨reached.isLive sound, reached⟩, And.right⟩
  · intro a live
    have reached := sound.isLive_runCycle_iff.mp live
    exact ⟨sound.spot?_runCycle_of_reaches reached, sound.cell?_runCycle_of_reaches reached⟩
  · intro a payload b here child
    exact sound.isLive_of_edge here child
  · exact ⟨h.unreached inputs, sound.nodup_unreached, fun _ => sound.mem_unreached,
      sound.dropped_runCycle inputs, sound.freed_runCycle inputs⟩
  · intro g same
    have roots := congrArg Heap.globalRoots same
    change g.globalRoots = h.globalRoots at roots
    rw [runCycle, runCycle, markFrom, markFrom, same, roots]
  · exact sound.markFrom_inside inputs
  · intro depth
    exact ⟨fun m => ⟨rfl, rfl⟩, by simp [isLive, spot?, resolve?]⟩
  · exact sound.runCycle_frame inputs

omit [Payload α] in
/-- A heap of one size class before its first allocation. -/
def oneClass : Heap α where
  settings := { Settings.standard with sizeClasses := [64] }
  gcEnabled := true
  collectAllAtExit := false
  allocators := #[Allocator.create 64 (scatteredBlocks 1 0)]
  globalRoots := []
  stats := default
  dropped := []

lemma reachable_oneClass : (oneClass : Heap α).Reachable := by
  let h : Heap α := oneClass
  have made : createAt (scatteredBlocks 1) h.settings = .ok h := rfl
  exact .create (apart_scatteredBlocks 1) made

/-- One cell that nothing but itself refers to. -/
def selfLoop : Heap Node :=
  let h := ((oneClass : Heap Node).allocateIn 0 ⟨1, "node", 8, 8, []⟩).2
  let s : Spot := ⟨0, ⟨0, 0⟩⟩
  let own := h.addressOf s
  h.modifyAt s fun c => { c with payload := c.payload.addEdge (.ref own) }

lemma reachable_selfLoop : selfLoop.Reachable :=
  (reachable_oneClass.step (.mutation (.claim _ (by decide)))).step
    (.mutation (.touch (.edit _ _ _)))

/-- The cell is live before the cycle and dropped by it, for all that it refers to itself
and a word of the stack is submitted. -/
theorem runCycle_exact_selfLoop : selfLoop.Reachable ∧ selfLoop.ExactCycle [[.stack 0]] ∧
    selfLoop.isLive (selfLoop.addressOf ⟨0, ⟨0, 0⟩⟩) ∧
    ¬ (selfLoop.runCycle [[.stack 0]]).isLive (selfLoop.addressOf ⟨0, ⟨0, 0⟩⟩) := by
  have exact_ := runCycle_exact reachable_selfLoop [[.stack 0]]
  have blind : ∀ w ∈ selfLoop.cycleRoots [[.stack 0]], selfLoop.cellFor? w = none := by
    rintro w (⟨roots, hroots, hw⟩ | global)
    · obtain rfl := List.mem_singleton.mp hroots
      obtain rfl := List.mem_singleton.mp hw
      rfl
    · cases global
  refine ⟨reachable_selfLoop, exact_, by decide +kernel, ?_⟩
  intro live
  exact not_reaches blind _ ((exact_.live_iff _).mp live).2

end Heap

end CellMachine
