import CellMachine.Proofs.Heap.Marking

/-!
# A whole cycle

After the roots are submitted and the work list is drained, exactly the cells that the
roots lead to carry a mark, whatever marks there were before. The sweep then leaves
these cells as they are and drops all others.
-/

namespace CellMachine

lemma mem_references {vs : List Value} {w : Address} : w ∈ references vs ↔ Value.ref w ∈ vs := by
  rw [references, List.mem_filterMap]
  constructor
  · rintro ⟨v, mem, hv⟩
    cases v with
    | ref a =>
      obtain rfl : a = w := Option.some.inj hv
      exact mem
    | smallInt n => cases hv
    | double d => cases hv
  · intro mem
    exact ⟨.ref w, mem, rfl⟩

namespace Heap

variable {α : Type}

/-- The slots whose cells a sweep drops, class by class. -/
def doomed (h : Heap α) : List Spot :=
  h.spots.filter fun s => (h.cellAt? s).all fun c => !c.isMarked

lemma Sound.mem_doomed {h : Heap α} (sound : h.Sound) {s : Spot} :
    s ∈ h.doomed ↔ ∃ c, h.cellAt? s = some c ∧ c.isMarked = false := by
  rw [doomed, List.mem_filter, sound.mem_spots]
  cases h.cellAt? s <;> simp

lemma nodup_doomed (h : Heap α) : h.doomed.Nodup := h.nodup_spots.filter _

/-- What a sweep drops is what the slots it clears hold. -/
lemma garbage_eq (h : Heap α) :
    h.garbage = h.doomed.filterMap fun s => (h.cellAt? s).map Cell.payload := by
  have block : ∀ b : Block α, b.garbage =
      b.usedSlots.filterMap fun i => ((b.cell? i).filter fun c => !c.isMarked).map Cell.payload := by
    intro b
    rw [Block.garbage, Block.doomed, List.filterMap_filter]
    apply List.filterMap_congr
    intro i hi
    obtain ⟨c, hc⟩ := Option.isSome_iff_exists.mp (Block.mem_usedSlots.mp hi).2
    cases marked : c.isMarked <;> simp [Block.isMarked_eq, hc, marked, Option.filter]
  have class_ : ∀ a : Allocator α, a.garbage =
      a.usedSlots.filterMap fun s => ((a.cell? s).filter fun c => !c.isMarked).map Cell.payload := by
    intro a
    rw [Allocator.garbage, Allocator.usedSlots, List.filterMap_map]
    rw [filterMap_tagged a.blocks Block.usedSlots _
      fun b i => ((b.cell? i).filter fun c => !c.isMarked).map Cell.payload]
    · exact congrArg (fun f => List.flatMap f a.blocks.toList) (funext block)
    · intro i b hb k
      simp [Allocator.cell?, hb]
  have whole : h.garbage =
      h.spots.filterMap fun s => ((h.cellAt? s).filter fun c => !c.isMarked).map Cell.payload := by
    rw [garbage, spots, List.filterMap_map]
    rw [filterMap_tagged h.allocators Allocator.usedSlots _
      fun a s => ((a.cell? s).filter fun c => !c.isMarked).map Cell.payload]
    · exact congrArg (fun f => List.flatMap f h.allocators.toList) (funext class_)
    · intro c a ha s
      simp [cellAt?, ha]
  rw [whole, doomed, List.filterMap_filter]
  apply List.filterMap_congr
  intro s _
  cases hs : h.cellAt? s with
  | none => simp
  | some c => cases marked : c.isMarked <;> simp [marked, Option.filter]

variable [Payload α]

omit [Payload α] in
/-- The words a cycle starts from: what the threads submit, and the global roots. -/
def cycleRoots (h : Heap α) (inputs : List RootSet) : Set Address :=
  { w | (∃ roots ∈ inputs, w ∈ roots) ∨ Value.ref w ∈ h.globalRoots }

/-- Marking comes to an end, and then the marked cells are those the roots lead to. -/
lemma Sound.exists_markFrom {h : Heap α} (sound : h.Sound) (inputs : List RootSet) :
    ∃ all, Marking.Holds h.unmarkAll (h.cycleRoots inputs) all (h.markFrom inputs) ∧
      (h.markFrom inputs).pending = [] ∧
      ∀ s, s ∈ all ↔ (h.cellAt? s).isSome ∧ h.Reaches (h.cycleRoots inputs) (h.addressOf s) := by
  have clean := SamePayloads.unmarkAll h
  have reaches : ∀ {a}, h.unmarkAll.Reaches (h.cycleRoots inputs) a ↔
      h.Reaches (h.cycleRoots inputs) a := clean.reaches_iff sound sound.unmarkAll
  have address := addressOf_congr (layout_unmarkAll h)
  have submitted : ∀ w ∈ inputs.flatten, w ∈ h.cycleRoots inputs :=
    fun w hw => .inl (List.mem_flatten.mp hw)
  have global : ∀ w ∈ references h.globalRoots, w ∈ h.cycleRoots inputs :=
    fun w hw => .inr (mem_references.mp hw)
  obtain ⟨holds₁, grows₁, known₁⟩ :=
    (Marking.holds_start sound (h.cycleRoots inputs)).candidates inputs.flatten submitted
  obtain ⟨holds₂, grows₂, known₂⟩ := holds₁.candidates (references h.globalRoots) global
  obtain ⟨all, holds, closed, empty, keeps⟩ := holds₂.finish
  change (h.markFrom inputs).pending = [] at empty
  have known : ∀ s, s ∈ all ++ (h.markFrom inputs).pending ↔ s ∈ all := by
    intro s
    rw [empty, List.append_nil]
  -- every reached address belongs to a visited cell, by induction on the way to it
  have complete : ∀ a, h.unmarkAll.Reaches (h.cycleRoots inputs) a →
      ∃ s ∈ all, h.unmarkAll.addressOf s = a := by
    intro a reached
    induction reached with
    | root mem hit =>
      obtain ⟨s, hs, here⟩ := Option.map_eq_some_iff.mp hit
      refine ⟨s, keeps ?_, here⟩
      rcases mem with mem | mem
      · exact grows₂ (known₁ _ (List.mem_flatten.mpr mem) s hs)
      · exact known₂ _ (mem_references.mpr mem) s hs
    | edge start here child live ih =>
      obtain ⟨s, hs, rfl⟩ := ih
      have used := holds.used s ((known s).mpr hs)
      rw [payload?, holds.sound.cell?_addressOf used, Option.map_eq_some_iff] at here
      obtain ⟨c, hc, rfl⟩ := here
      obtain ⟨t, ht⟩ := Option.isSome_iff_exists.mp live
      have found := closed s hs c hc _ child t ht
      exact ⟨t, (known t).mp found, (holds.sound.spot?_eq_some_iff.mp ht).2⟩
  refine ⟨all, holds, empty, ?_⟩
  intro s
  constructor
  · intro hs
    have reached := holds.reached s ((known s).mpr hs)
    rw [address] at reached
    exact ⟨(clean.isSome s).symm.trans (holds.used s ((known s).mpr hs)), reaches.mp reached⟩
  · rintro ⟨used, reached⟩
    rw [← address] at reached
    obtain ⟨t, ht, same⟩ := complete _ (reaches.mpr reached)
    have used_t := holds.used t ((known t).mpr ht)
    have eq := holds.sound.addressOf_inj used_t ((clean.isSome s).trans used) same
    exact eq ▸ ht

/-- The marked cells after marking, with all that marking leaves alone. -/
lemma Sound.cellAt?_markFrom {h : Heap α} (sound : h.Sound) (inputs : List RootSet) (s : Spot) :
    ((h.Reaches (h.cycleRoots inputs) (h.addressOf s)) →
      (h.markFrom inputs).heap.cellAt? s = (h.cellAt? s).map fun c => c.unmark.mark) ∧
    (¬ h.Reaches (h.cycleRoots inputs) (h.addressOf s) →
      (h.markFrom inputs).heap.cellAt? s = (h.cellAt? s).map Cell.unmark) := by
  obtain ⟨all, holds, empty, mem⟩ := sound.exists_markFrom inputs
  have marks := holds.marks s
  rw [empty, List.append_nil, cellAt?_unmarkAll, Option.map_map] at marks
  rw [marks]
  cases hs : h.cellAt? s with
  | none => exact ⟨fun _ => rfl, fun _ => rfl⟩
  | some c =>
    constructor
    · intro reached
      have found := (mem s).mpr ⟨by simp [hs], reached⟩
      simp [found]
    · intro unreached
      have missed : s ∉ all := fun found => unreached ((mem s).mp found).2
      simp [missed]

omit [Payload α] in
lemma Sound.congr {h h' : Heap α} (sound : h.Sound) (settings : h'.settings = h.settings)
    (allocators : h'.allocators = h.allocators) : h'.Sound :=
  ⟨settings ▸ sound.settings, allocators ▸ settings ▸ sound.sizes, allocators ▸ sound.allocator,
    allocators ▸ sound.apart⟩

lemma cellAt?_runCycle (h : Heap α) (inputs : List RootSet) (s : Spot) :
    (h.runCycle inputs).cellAt? s = (h.markFrom inputs).heap.sweep.cellAt? s := rfl

lemma Sound.markFrom {h : Heap α} (sound : h.Sound) (inputs : List RootSet) :
    (h.markFrom inputs).heap.Sound := by
  obtain ⟨all, holds, _⟩ := sound.exists_markFrom inputs
  exact holds.soundHeap

lemma Sound.runCycle {h : Heap α} (sound : h.Sound) (inputs : List RootSet) :
    (h.runCycle inputs).Sound :=
  (sound.markFrom inputs).sweep.congr rfl rfl

lemma Sound.layout_runCycle {h : Heap α} (sound : h.Sound) (inputs : List RootSet) :
    (h.runCycle inputs).layout = h.layout := by
  obtain ⟨all, holds, _⟩ := sound.exists_markFrom inputs
  calc (h.runCycle inputs).layout
      = (h.markFrom inputs).heap.layout := layout_sweep _
    _ = h.unmarkAll.layout := holds.layout
    _ = h.layout := layout_unmarkAll h

/-- A cycle changes the cells, the list of dropped payloads and the counts, and nothing else. -/
lemma Sound.runCycle_frame {h : Heap α} (sound : h.Sound) (inputs : List RootSet) :
    ∃ allocators dropped stats, h.runCycle inputs = { h with allocators, dropped, stats } := by
  obtain ⟨all, holds, _⟩ := sound.exists_markFrom inputs
  obtain ⟨allocators, eq⟩ := holds.frame
  refine ⟨(h.runCycle inputs).allocators, (h.runCycle inputs).dropped, (h.runCycle inputs).stats, ?_⟩
  simp only [Heap.runCycle, Heap.sweep, eq]
  rfl

/-- A cell that the roots lead to stays in its slot. -/
lemma Sound.cellAt?_runCycle_of_reaches {h : Heap α} (sound : h.Sound) {inputs : List RootSet}
    {s : Spot} (reached : h.Reaches (h.cycleRoots inputs) (h.addressOf s)) :
    (h.runCycle inputs).cellAt? s = (h.cellAt? s).map fun c => c.unmark.mark := by
  rw [cellAt?_runCycle, (sound.markFrom inputs).cellAt?_sweep,
    (sound.cellAt?_markFrom inputs s).1 reached]
  cases h.cellAt? s <;> simp [Option.filter, Cell.isMarked_mark]

/-- Any other slot is clear afterwards. -/
lemma Sound.cellAt?_runCycle_of_not_reaches {h : Heap α} (sound : h.Sound)
    {inputs : List RootSet} {s : Spot}
    (unreached : ¬ h.Reaches (h.cycleRoots inputs) (h.addressOf s)) :
    (h.runCycle inputs).cellAt? s = none := by
  rw [cellAt?_runCycle, (sound.markFrom inputs).cellAt?_sweep,
    (sound.cellAt?_markFrom inputs s).2 unreached]
  cases h.cellAt? s <;> simp [Option.filter, Cell.isMarked_unmark]

end Heap

end CellMachine
