import CellMachine.Proofs.Heap.Accounting
import CellMachine.Proofs.Heap.Balance

/-!
# How far a heap grows

A thread works on a heap that collects when a class is short of free cells. Blocks are never
given back, so what a class owns is bounded by what it needed at its worst: if no cycle leaves
more than so many of its cells live, then it owns no more blocks than its first ones, or the
fewest in which the target percentage is free beside as many live cells. The percentages are
truncated at each comparison; more blocks never lower them, and that carries the bound.
-/

namespace CellMachine

/-- The percentage that is free in so many blocks while so many of their cells are live. -/
def percentIn (perBlock live blocks : Nat) : Nat :=
  percentFree (blocks * perBlock - live) (blocks * perBlock)

/-- More blocks and fewer live cells do not lower the percentage. -/
lemma percentIn_mono {perBlock live live' blocks blocks' : Nat} (more : blocks ≤ blocks')
    (fewer : live' ≤ live) : percentIn perBlock live blocks ≤ percentIn perBlock live' blocks' := by
  have total : blocks * perBlock ≤ blocks' * perBlock := Nat.mul_le_mul_right _ more
  simp only [percentIn]
  generalize blocks * perBlock = t at total ⊢
  generalize blocks' * perBlock = t' at total ⊢
  rcases Nat.eq_zero_or_pos t with rfl | pos
  · exact Nat.zero_le _
  rw [percentFree, percentFree, if_neg (by omega), if_neg (by omega),
    Nat.le_div_iff_mul_le (by omega)]
  have whole := Nat.div_mul_le_self ((t - live) * 100) t
  have most : (t - live) * 100 / t ≤ 100 :=
    Nat.div_le_of_le_mul (Nat.mul_le_mul_right 100 (Nat.sub_le t live))
  generalize (t - live) * 100 / t = q at whole most ⊢
  rcases Nat.lt_or_ge live t with room | full
  · have added : q * (t' - t) ≤ 100 * (t' - t) := Nat.mul_le_mul_right _ most
    calc q * t' = q * t + q * (t' - t) := by rw [← Nat.mul_add, Nat.add_sub_cancel' total]
      _ ≤ (t - live) * 100 + 100 * (t' - t) := Nat.add_le_add whole added
      _ ≤ (t' - live') * 100 := by omega
  · have none_free : q = 0 := by
      rw [Nat.sub_eq_zero_of_le full, Nat.zero_mul] at whole
      exact (Nat.mul_eq_zero.mp (Nat.le_zero.mp whole)).resolve_right (by omega)
    rw [none_free, Nat.zero_mul]
    exact Nat.zero_le _

/-- Any percentage below a hundred is reached with enough blocks. -/
lemma exists_isLeast_percentIn {perBlock percent : Nat} (pos : 0 < perBlock) (below : percent < 100)
    (live : Nat) : ∃ b, IsLeast { b | percent ≤ percentIn perBlock live b } b := by
  classical
  have enough : ∃ b, percent ≤ percentIn perBlock live b := by
    refine ⟨100 * live + 1, ?_⟩
    have many : 100 * live + 1 ≤ (100 * live + 1) * perBlock := Nat.le_mul_of_pos_right _ pos
    rw [percentIn]
    generalize (100 * live + 1) * perBlock = t at many
    rw [percentFree, if_neg (by omega), Nat.le_div_iff_mul_le (by omega)]
    calc percent * t ≤ 99 * t := Nat.mul_le_mul_right _ (by omega)
      _ ≤ (t - live) * 100 := by omega
  exact ⟨Nat.find enough, Nat.find_spec enough, fun b reached => Nat.find_min' enough reached⟩

lemma Settings.percentages_of_valid {s : Settings} (valid : s.fault? = none) :
    s.trigger ≤ 100 ∧ s.target < 100 ∧ s.trigger ≤ s.target := by
  have accepted := fault?_eq_none_iff.mp valid
  exact ⟨accepted.trigger_le, accepted.target_lt, accepted.trigger_le_target⟩

namespace Allocator

variable {α : Type} {a : Allocator α} {percent : Nat}

def liveCells (a : Allocator α) : Nat := a.totalCells - a.freeCells

lemma Sound.percentage_eq (sound : a.Sound) :
    a.percentage = percentIn a.cellsPerBlock a.liveCells a.blockCount := by
  have within := sound.freeCells_le
  rw [percentage, percentIn, ← totalCells, liveCells, Nat.sub_sub_self within]

lemma Sound.liveCells_addBlock (sound : a.Sound) : a.addBlock.liveCells = a.liveCells := by
  have within := sound.freeCells_le
  have grown : a.addBlock.totalCells = a.totalCells + a.cellsPerBlock := by
    rw [totalCells, blockCount_addBlock, cellsPerBlock, cellSize_addBlock, Nat.succ_mul]
    rfl
  have freed : a.addBlock.freeCells = a.freeCells + a.cellsPerBlock := freeCells_addBlock a
  rw [liveCells, liveCells, grown, freed]
  omega

/-- An allocator grows only as long as the percentage has not been reached. -/
lemma Sound.short_of_lt_growBy (fuel : Nat) {a : Allocator α} (sound : a.Sound) {b : Nat}
    (atLeast : a.blockCount ≤ b) (fewer : b < (a.growBy percent fuel).blockCount) :
    percentIn a.cellsPerBlock a.liveCells b < percent := by
  induction fuel generalizing a with
  | zero => exact absurd fewer (Nat.not_lt.mpr atLeast)
  | succ fuel ih =>
    rw [growBy] at fewer
    split at fewer
    · rename_i short
      rcases Nat.eq_or_lt_of_le atLeast with rfl | more
      · rwa [← sound.percentage_eq]
      · have rest := ih sound.addBlock (by rw [blockCount_addBlock]; exact more) fewer
        rwa [sound.liveCells_addBlock, cellsPerBlock, cellSize_addBlock, ← cellsPerBlock] at rest
    · exact absurd fewer (Nat.not_lt.mpr atLeast)

/-- Growing stops at the first number of blocks in which the percentage is free. -/
lemma Sound.blockCount_growTo_le (sound : a.Sound) {b : Nat}
    (reached : percent ≤ percentIn a.cellsPerBlock a.liveCells b) :
    (a.growTo percent).blockCount ≤ max a.blockCount b := by
  by_contra beyond
  have short := sound.short_of_lt_growBy _ (Nat.le_max_left a.blockCount b) (Nat.not_le.mp beyond)
  have mono : percentIn a.cellsPerBlock a.liveCells b ≤
      percentIn a.cellsPerBlock a.liveCells (max a.blockCount b) :=
    percentIn_mono (Nat.le_max_right a.blockCount b) (le_refl a.liveCells)
  omega

/-- Where a part is free, no block has to be added. -/
lemma Sound.ensureRoom_eq_self (sound : a.Sound) (pos : 0 < a.percentage) : a.ensureRoom = a := by
  have some_free : a.freeCells ≠ 0 := by
    intro none_free
    rw [percentage, percentFree, none_free, Nat.zero_mul, Nat.zero_div, ite_self] at pos
    exact Nat.lt_irrefl 0 pos
  rw [sound.ensureRoom_eq_addBlocks, if_neg some_free]
  rfl

lemma blockCount_sweep (a : Allocator α) : a.sweep.blockCount = a.blockCount :=
  blockCount_sweepInOrder (List.Perm.refl (List.range a.blockCount))

/-- With nothing in use, all is free. -/
lemma Sound.percentage_of_no_live (sound : a.Sound) (blocks : 0 < a.blockCount)
    (dead : a.liveCells = 0) : a.percentage = 100 := by
  have total := sound.totalCells_pos blocks
  have within := sound.freeCells_le
  rw [liveCells] at dead
  have all_free : a.freeCells = a.totalCells := by omega
  rw [percentage, percentFree, if_neg (Nat.ne_of_gt total), all_free, Nat.mul_div_cancel_left _ total]

lemma Sound.liveCells_addBlocks (sound : a.Sound) (n : Nat) :
    (a.addBlocks n).liveCells = a.liveCells := by
  induction n generalizing a with
  | zero => rfl
  | succ n ih => exact (ih sound.addBlock).trans sound.liveCells_addBlock

lemma blockCount_pos_of_nextSlot? {s : Slot} (next : a.nextSlot? = some s) : 0 < a.blockCount := by
  obtain ⟨_, b, hb, _⟩ := nextSlot?_eq_some_iff.mp next
  exact lt_of_le_of_lt (Nat.zero_le _) (Array.getElem?_eq_some_iff.mp hb).1

end Allocator

namespace Marking

variable {α β : Type} [Payload α] {f : Heap α → β}

section Unseen

variable (unseen : ∀ h s, f (h.modifyAt s Cell.mark) = f h)

include unseen

omit [Payload α] in
lemma unseen_reach (m : Marking α) (s : Spot) : f (m.reach s).heap = f m.heap := by
  rw [reach]
  split
  · rfl
  · exact unseen m.heap s

omit [Payload α] in
lemma unseen_candidate (m : Marking α) (word : Address) : f (m.candidate word).heap = f m.heap := by
  rw [candidate]
  split
  · exact unseen_reach unseen { m with roots := m.roots + 1 } _
  · rfl

omit [Payload α] in
lemma unseen_edge (m : Marking α) (v : Value) : f (m.edge v).heap = f m.heap := by
  rw [edge.eq_def]
  split
  · split
    · exact unseen_reach unseen m _
    · rfl
  · rfl

omit [Payload α] unseen in
lemma unseen_foldl {γ : Type} {step : Marking α → γ → Marking α}
    (each : ∀ m x, f (step m x).heap = f m.heap) (xs : List γ) (m : Marking α) :
    f (xs.foldl step m).heap = f m.heap := by
  induction xs generalizing m with
  | nil => rfl
  | cons x xs ih => exact (ih (step m x)).trans (each m x)

lemma unseen_drain (fuel : Nat) (m : Marking α) : f (drain fuel m).heap = f m.heap := by
  induction fuel generalizing m with
  | zero => rfl
  | succ fuel ih =>
    rw [drain]
    split
    · rfl
    · rename_i s rest _
      exact (ih _).trans (unseen_foldl (unseen_edge unseen) (m.children s) { m with pending := rest })

end Unseen

end Marking

namespace Heap

variable {α : Type} [Payload α] {h : Heap α} {c : Nat}

/-- What no single mark changes, marking does not change. -/
lemma unseen_markFrom {β : Type} {f : Heap α → β}
    (unseen : ∀ h s, f (h.modifyAt s Cell.mark) = f h) (inputs : List RootSet) :
    f (h.markFrom inputs).heap = f h.unmarkAll := by
  have each := Marking.unseen_candidate unseen
  rw [markFrom, Marking.finish, Marking.unseen_drain unseen, Marking.unseen_foldl each,
    Marking.unseen_foldl each]
  rfl

omit [Payload α] in
def blockCount (h : Heap α) (c : Nat) : Nat :=
  ((h.allocators[c]?).map Allocator.blockCount).getD 0

omit [Payload α] in
def liveIn (h : Heap α) (c : Nat) : Nat :=
  ((h.allocators[c]?).map Allocator.liveCells).getD 0

omit [Payload α] in
def percentageIn (h : Heap α) (c : Nat) : Nat :=
  ((h.allocators[c]?).map Allocator.percentage).getD 0

omit [Payload α] in
lemma blockCount_of_map {h' : Heap α} {f : Allocator α → Allocator α}
    (classes : h'.allocators[c]? = (h.allocators[c]?).map f)
    (same : ∀ a : Allocator α, (f a).blockCount = a.blockCount) :
    h'.blockCount c = h.blockCount c := by
  rw [blockCount, blockCount, classes, Option.map_map]
  congr 2
  funext a
  exact same a

omit [Payload α] in
lemma blockCount_modifyAt (h : Heap α) (s : Spot) (f : Cell α → Cell α) :
    (h.modifyAt s f).blockCount = h.blockCount := by
  funext c
  refine blockCount_of_map (getElem?_modifyClass h s.sizeClass _ c) fun a => ?_
  split
  · exact Array.size_modify
  · rfl

/-- No block comes or goes in a cycle. -/
lemma blockCount_runCycle (h : Heap α) (inputs : List RootSet) :
    (h.runCycle inputs).blockCount = h.blockCount := by
  funext c
  calc (h.runCycle inputs).blockCount c
      = (h.markFrom inputs).heap.blockCount c :=
        blockCount_of_map (getElem?_sweep _ c) Allocator.blockCount_sweep
    _ = h.unmarkAll.blockCount c :=
        congrFun (unseen_markFrom (f := blockCount) (fun h s => blockCount_modifyAt h s _) inputs) c
    _ = h.blockCount c := blockCount_of_map (getElem?_unmarkAll h c) fun a => Array.size_map

omit [Payload α] in
/-- Where an allocation stands while collection is enabled. -/
lemma pressure_of_enabled {a : Allocator α} (enabled : h.gcEnabled)
    (here : h.allocators[c]? = some a) : h.pressure c =
      if a.blockCount = 0 then .prepared
      else if a.percentage < h.settings.trigger then .short else .relaxed := by
  simp [pressure, enabled, here]

omit [Payload α] in
/-- Taking a slot of a class: the class gives the slot that it offers next. -/
lemma allocateIn_eq {a : Allocator α} (sound : a.Sound) (here : h.allocators[c]? = some a)
    (payload : α) : ∃ slot, a.ensureRoom.nextSlot? = some slot ∧
      (h.allocateIn c payload).1 = .ok (h.addressOf ⟨c, slot⟩) ∧
      ∀ d : Nat, (h.allocateIn c payload).2.allocators[d]? = (h.allocators[d]?).map
        (if c = d then fun a => a.ensureRoom.fill slot (Cell.fresh payload) else id) := by
  obtain ⟨slot, offered⟩ := sound.nextSlot?_ensureRoom
  have next : (h.modifyClass c Allocator.ensureRoom).nextSpot? c = some ⟨c, slot⟩ := by
    refine nextSpot?_eq_some_iff.mpr ⟨rfl, _, ?_, offered⟩
    simp [getElem?_modifyClass, here]
  have layout := layout_modifyClass_of_grow h c fun a => a.exists_ensureRoom_eq_addBlocks
  refine ⟨slot, offered, ?_, fun d => ?_⟩
  · simp only [allocateIn, next]
    rw [addressOf_congr layout]
  · simp only [allocateIn, next]
    rw [Heap.fill, getElem?_modifyClass, getElem?_modifyClass, Option.map_map]
    by_cases same : c = d
    · simp [same, Function.comp_def]
    · simp [same]

/-- What making room for an allocation in a class does to all classes: the slot will be taken from
the allocator `a`, which gets a block first if it has no free slot. -/
structure Prepares (h : Heap α) (c : Nat) (inputs : List RootSet) (room : Heap α)
    (a : Allocator α) : Prop where
  here : room.allocators[c]? = some a
  /-- At least the trigger is free where the slot is taken. -/
  served : h.settings.trigger ≤ a.ensureRoom.percentage
  /-- Only a class that had no block before may need its first one now. -/
  steady : 0 < h.blockCount c → a.ensureRoom = a
  others : ∀ d, c ≠ d → room.blockCount d = h.blockCount d
  /-- The class has what it had, its first blocks, or the fewest in which the target is free beside
  what the cycle leaves. -/
  bounded : ∀ size live b, h.settings.sizeClasses[c]? = some size →
    (h.pressure c = .short → (h.runCycle inputs).liveIn c ≤ live) →
    h.settings.target ≤ percentIn (cellsPerBlock size) live b →
    a.ensureRoom.blockCount ≤ max (h.blockCount c) (max (max 1 h.settings.initialBlocks) b)

omit [Payload α] in
/-- A class that is set up has all its blocks free, or gets its first one. -/
lemma served_prepared {a : Allocator α} (sound : a.Sound) (empty : a.blockCount = 0)
    (valid : h.settings.trigger ≤ 100) (n : Nat) :
    h.settings.trigger ≤ (a.addBlocks n).ensureRoom.percentage ∧
      (a.addBlocks n).ensureRoom.blockCount ≤ max 1 n := by
  have dead : a.liveCells = 0 := by
    rw [Allocator.liveCells, Allocator.totalCells, empty, Nat.zero_mul, Nat.zero_sub]
  have fresh : (a.addBlocks n).liveCells = 0 := (sound.liveCells_addBlocks n).trans dead
  obtain ⟨slot, offered⟩ := (sound.addBlocks n).nextSlot?_ensureRoom
  have some_block := Allocator.blockCount_pos_of_nextSlot? offered
  obtain ⟨k, grown⟩ := (a.addBlocks n).exists_ensureRoom_eq_addBlocks
  have all_free : (a.addBlocks n).ensureRoom.percentage = 100 := by
    refine (sound.addBlocks n).ensureRoom.percentage_of_no_live some_block ?_
    rw [grown, (sound.addBlocks n).liveCells_addBlocks, fresh]
  refine ⟨all_free.symm ▸ valid, ?_⟩
  rcases Nat.eq_zero_or_pos n with rfl | pos
  · have only : (a.addBlocks 0).ensureRoom.blockCount ≤ a.blockCount + 1 := by
      rw [Allocator.addBlocks, Allocator.ensureRoom]
      split
      · exact (Allocator.blockCount_addBlock a).le
      · exact Nat.le_succ _
    omega
  · have blocks : (a.addBlocks n).blockCount = n := by rw [Allocator.blockCount_addBlocks]; omega
    have full := (sound.addBlocks n).percentage_of_no_live (by omega) fresh
    rw [(sound.addBlocks n).ensureRoom_eq_self (by omega), blocks]
    exact Nat.le_max_right _ _

omit [Payload α] in
lemma blockCount_of_some {a : Allocator α} (here : h.allocators[c]? = some a) :
    h.blockCount c = a.blockCount := by rw [blockCount, here]; rfl

omit [Payload α] in
lemma blockCount_modifyClass_of_ne {d : Nat} (other : c ≠ d) (f : Allocator α → Allocator α) :
    (h.modifyClass c f).blockCount d = h.blockCount d := by
  rw [blockCount, getElem?_modifyClass, if_neg other, Option.map_id, id, blockCount]

omit [Payload α] in
/-- Heaps of one layout have the same classes. -/
lemma exists_of_layout {h' : Heap α} (layout : h'.layout = h.layout) {a : Allocator α}
    (here : h.allocators[c]? = some a) :
    ∃ a', h'.allocators[c]? = some a' ∧ a'.cellSize = a.cellSize := by
  have same : (h'.layout)[c]? = some (a.cellSize, a.place) := by
    rw [layout, Heap.layout, Array.getElem?_map, here]
    rfl
  rw [Heap.layout, Array.getElem?_map, Option.map_eq_some_iff] at same
  obtain ⟨a', here', eq⟩ := same
  exact ⟨a', here', congrArg Prod.fst eq⟩

lemma Sound.prepares (sound : h.Sound) (class_lt : c < h.allocators.size) (enabled : h.gcEnabled)
    (pos : 1 ≤ h.settings.trigger) (threads : List (Array Value)) (payload : α) :
    ∃ a, h.Prepares c (rootSets threads (Payload.children payload))
      (h.makeRoom c threads payload) a := by
  obtain ⟨_, target_lt, le_target⟩ := Settings.percentages_of_valid sound.settings
  obtain ⟨a₀, here⟩ : ∃ a, h.allocators[c]? = some a := ⟨_, Array.getElem?_eq_getElem class_lt⟩
  have soundClass := sound.allocator c a₀ here
  have count := blockCount_of_some here
  have cases := pressure_of_enabled enabled here
  rw [makeRoom]
  split at cases
  · rename_i empty
    rw [cases]
    obtain ⟨served, few⟩ := served_prepared soundClass empty (by omega) h.settings.initialBlocks
    refine ⟨_, ?_, served, by omega, fun d other => blockCount_modifyClass_of_ne other _, ?_⟩
    · rw [Heap.prewarm, getElem?_modifyClass, if_pos rfl, here, Option.map_some]
    · omega
  split at cases
  · rename_i short
    rw [cases]
    set inputs := rootSets threads (Payload.children payload)
    have collected : (h.collect inputs).2 = h.runCycle inputs := by rw [Heap.collect, if_pos enabled]
    have target := congrArg Settings.target (sound.sameSwitches_runCycle inputs).settings
    have blocks := h.blockCount_runCycle inputs
    obtain ⟨a₁, here₁, size⟩ := exists_of_layout (sound.layout_runCycle inputs) here
    have sound₁ := (sound.runCycle inputs).allocator c a₁ here₁
    obtain ⟨n, grown⟩ := a₁.exists_growTo_eq_addBlocks h.settings.target
    have reached := sound₁.percentage_growTo target_lt
    have room := (grown ▸ sound₁.addBlocks n).ensureRoom_eq_self (show 0 < _ by omega)
    rw [collected]
    refine ⟨a₁.growTo h.settings.target, ?_, room.symm ▸ (by omega), fun _ => room, ?_, ?_⟩
    · rw [Heap.grow, getElem?_modifyClass, if_pos rfl, here₁, target, Option.map_some]
    · intro d other
      rw [Heap.grow, blockCount_modifyClass_of_ne other, blocks]
    · intro size' live b class_size least enough
      have few : a₁.liveCells ≤ live := by
        have most := least cases
        rwa [liveIn, here₁] at most
      have same : a₁.cellSize = size' := by
        rw [← sound.sizes c, here] at class_size
        exact size.trans (Option.some.inj class_size)
      rw [room, ← blocks, blockCount_of_some here₁]
      refine (sound₁.blockCount_growTo_le (b := b) ?_).trans (by omega)
      rw [Allocator.cellsPerBlock, same]
      exact enough.trans (percentIn_mono le_rfl few)
  · rename_i enough
    rw [cases]
    have free : 0 < a₀.percentage := by omega
    have room := soundClass.ensureRoom_eq_self free
    refine ⟨a₀, here, room.symm ▸ (by omega), fun _ => room, fun _ _ => rfl, ?_⟩
    rw [room]
    omega

/-- An allocation that a class serves: it takes a slot of its class and adds no further block. -/
structure Serves (h : Heap α) (c : Nat) (inputs : List RootSet) (room h' : Heap α) (made : Address)
    (a : Allocator α) : Prop extends h.Prepares c inputs room a where
  slot : ∃ slot, a.ensureRoom.nextSlot? = some slot ∧ h'.spot? made = some ⟨c, slot⟩
  own : h'.blockCount c = a.ensureRoom.blockCount
  rest : ∀ d, c ≠ d → h'.blockCount d = room.blockCount d

lemma Prepares.serves {inputs : List RootSet} {room : Heap α} {a : Allocator α}
    (prepares : h.Prepares c inputs room a) (sound : room.Sound) (payload : α) :
    ∃ made, (room.allocateIn c payload).1 = .ok made ∧
      h.Serves c inputs room (room.allocateIn c payload).2 made a := by
  have class_lt := (Array.getElem?_eq_some_iff.mp prepares.here).1
  have soundClass := sound.allocator c a prepares.here
  obtain ⟨slot, next, ok, classes⟩ := allocateIn_eq soundClass prepares.here payload
  obtain ⟨_, _, _, _, placed, layout, _⟩ := sound.allocateIn_spec class_lt payload
  have own : (room.allocateIn c payload).2.allocators[c]? =
      some (a.ensureRoom.fill slot (.fresh payload)) := by
    rw [classes c, prepares.here, if_pos rfl, Option.map_some]
  have used : (room.allocateIn c payload).2.cellAt? ⟨c, slot⟩ = some (.fresh payload) := by
    rw [cellAt?, own, Option.bind_some, Allocator.cell?_fill soundClass.ensureRoom next, if_pos rfl]
  refine ⟨_, ok, prepares, ⟨slot, next, ?_⟩, ?_, fun d other => ?_⟩
  · rw [← addressOf_congr layout]
    exact placed.spot?_addressOf (used ▸ rfl)
  · rw [blockCount_of_some own, Allocator.blockCount_fill]
  · rw [blockCount, classes d, if_neg other, Option.map_id, id, blockCount]

end Heap

/-- What leaves collection on, and growth to allocation. -/
def HeapOp.IsUsual {α : Type} : HeapOp α → Prop
  | .grow _ | .disable => False
  | _ => True

namespace HeapUser

variable {α : Type} [Payload α] {u : HeapUser α} {op : HeapOp α} {ops : Nat → HeapOp α}
  {s : Settings} {c : Nat} {payload : α}

/-- A sound heap that collects. -/
structure Collecting (s : Settings) (u : HeapUser α) : Prop where
  sound : u.heap.Sound
  settings : u.heap.settings = s
  enabled : u.heap.gcEnabled
  /-- A class that is not short of free cells has some. -/
  pos : 1 ≤ s.trigger

omit [Payload α] in
lemma Collecting.switched {h : Heap α} (collecting : u.Collecting s) (sound : h.Sound)
    (switches : u.heap.SameSwitches h) : (⟨h, u.roots⟩ : HeapUser α).Collecting s :=
  ⟨sound, switches.settings.trans collecting.settings, switches.enabled.trans collecting.enabled,
    collecting.pos⟩

lemma Collecting.perform (collecting : u.Collecting s) (usual : op.IsUsual) :
    (u.perform op).Collecting s := by
  have sound := collecting.sound
  cases op with
  | allocate payload others =>
    cases fits : u.heap.classOf payload with
    | error f =>
      rw [(perform_allocate_of_error fits others).2]
      exact collecting
    | ok c =>
      have retains := sound.retains_makeRoom c u.roots others payload
      have class_lt := Heap.classOf_lt sound fits
      rw [← Heap.size_of_layout retains.layout] at class_lt
      obtain ⟨_, _, _, _, placed, _⟩ := retains.sound.allocateIn_spec class_lt payload
      have switches := (sound.sameSwitches_makeRoom c (u.roots :: others) payload).trans
        (Heap.sameSwitches_allocateIn _ c payload)
      rw [← perform_allocate_of_ok fits others] at placed switches
      exact collecting.switched placed switches
  | edit a f =>
    exact collecting.switched (sound.modifyPayload a f) (u.heap.sameSwitches_modifyPayload a f)
  | collect others =>
    exact collecting.switched (sound.collect _) (sound.sameSwitches_collect _)
  | addGlobalRoot v =>
    obtain ⟨same, allocators, _⟩ := u.heap.addGlobalRoot_frame v
    refine ⟨sound.congr same allocators, same.trans collecting.settings, ?_, collecting.pos⟩
    change (u.heap.addGlobalRoot v).gcEnabled
    rw [Heap.addGlobalRoot]
    split
    · exact collecting.enabled
    · exact collecting.enabled
  | setRoots roots => exact ⟨sound, collecting.settings, collecting.enabled, collecting.pos⟩
  | removeGlobalRoot v =>
    exact ⟨sound.congr rfl rfl, collecting.settings, collecting.enabled, collecting.pos⟩
  | enable => exact ⟨sound.congr rfl rfl, collecting.settings, rfl, collecting.pos⟩
  | grow c => exact usual.elim
  | disable => exact usual.elim

lemma Collecting.serves (collecting : u.Collecting s) (fits : u.heap.classOf payload = .ok c)
    (others : List (Array Value)) : ∃ made a, u.made? (.allocate payload others) = some made ∧
      u.heap.Serves c (u.submits (.allocate payload others))
        (u.heap.makeRoom c (u.roots :: others) payload)
        (u.perform (.allocate payload others)).heap made a := by
  have sound := collecting.sound
  have pos : 1 ≤ u.heap.settings.trigger := by
    rw [collecting.settings]
    exact collecting.pos
  obtain ⟨a, prepares⟩ := sound.prepares (Heap.classOf_lt sound fits) collecting.enabled pos
    (u.roots :: others) payload
  have soundRoom := (sound.retains_makeRoom c u.roots others payload).sound
  obtain ⟨made, ok, serves⟩ := prepares.serves soundRoom payload
  rw [← perform_allocate_of_ok fits others] at serves
  refine ⟨made, a, ?_, serves⟩
  rw [made?, Heap.allocate, fits]
  dsimp only
  rw [ok]
  rfl

/-- An allocation runs one cycle if its class has blocks and is short of free cells, and none
otherwise. -/
lemma Collecting.cycles_allocate (collecting : u.Collecting s)
    (fits : u.heap.classOf payload = .ok c) (others : List (Array Value)) :
    (u.perform (.allocate payload others)).heap.stats.cycles = u.heap.stats.cycles +
      if 0 < u.heap.blockCount c ∧ u.heap.percentageIn c < s.trigger then 1 else 0 := by
  have sound := collecting.sound
  obtain ⟨a, here⟩ : ∃ a, u.heap.allocators[c]? = some a :=
    ⟨_, Array.getElem?_eq_getElem (Heap.classOf_lt sound fits)⟩
  have retains := sound.retains_makeRoom c u.roots others payload
  have class_lt := Heap.classOf_lt sound fits
  rw [← Heap.size_of_layout retains.layout] at class_lt
  have gains : (u.heap.makeRoom c (u.roots :: others) payload).Gains id _ [payload] :=
    retains.sound.gains_allocateIn class_lt payload
  have taken := gains.stats
  have pressed : u.heap.pressure c = .short ↔
      0 < u.heap.blockCount c ∧ u.heap.percentageIn c < s.trigger := by
    rw [Heap.pressure_of_enabled collecting.enabled here, Heap.blockCount_of_some here,
      Heap.percentageIn, here, collecting.settings, Option.map_some, Option.getD_some]
    split
    · simp [*]
    · split
      · simp [*, Nat.pos_iff_ne_zero]
      · simp [*]
  rw [perform_allocate_of_ok fits others, taken]
  rcases sound.makeRoom_cases c (u.roots :: others) payload with ⟨short, _, stats⟩ | ⟨enough, _, stats⟩
  · rw [stats, (sound.totals_runCycle _).1, if_pos (pressed.mp short)]
  · rw [stats, if_neg fun short => enough (pressed.mpr short), Nat.add_zero]

/-- No class grows beyond what it has, its first blocks, or what the cycles leave a need for. -/
lemma Collecting.blockCount_perform (collecting : u.Collecting s) (usual : op.IsUsual)
    {size live b : Nat} (class_size : s.sizeClasses[c]? = some size)
    (least : u.Collects op → (u.heap.runCycle (u.submits op)).liveIn c ≤ live)
    (enough : s.target ≤ percentIn (cellsPerBlock size) live b) :
    (u.perform op).heap.blockCount c ≤
      max (u.heap.blockCount c) (max (max 1 s.initialBlocks) b) := by
  have unchanged : ∀ {h : Heap α}, h.blockCount c = u.heap.blockCount c →
      h.blockCount c ≤ max (u.heap.blockCount c) (max (max 1 s.initialBlocks) b) := by
    intro h same
    omega
  cases op with
  | allocate payload others =>
    cases fits : u.heap.classOf payload with
    | error f =>
      rw [(perform_allocate_of_error fits others).2]
      exact unchanged rfl
    | ok d =>
      obtain ⟨made, a, _, serves⟩ := collecting.serves fits others
      by_cases same : d = c
      · subst same
        rw [serves.own, ← collecting.settings]
        rw [← collecting.settings] at class_size enough
        exact serves.bounded size live b class_size (fun short => least ⟨d, fits, short⟩) enough
      · exact unchanged ((serves.rest c same).trans (serves.others c same))
  | edit a f =>
    refine unchanged ?_
    change (u.heap.modifyPayload a f).blockCount c = _
    rw [Heap.modifyPayload]
    split
    · rw [Heap.blockCount_modifyAt]
    · rfl
  | collect others =>
    refine unchanged ?_
    change (u.heap.collect _).2.blockCount c = _
    rw [Heap.collect, if_pos collecting.enabled, Heap.blockCount_runCycle]
  | addGlobalRoot v =>
    refine unchanged ?_
    change (u.heap.addGlobalRoot v).blockCount c = _
    rw [Heap.blockCount, (u.heap.addGlobalRoot_frame v).2.1, Heap.blockCount]
  | setRoots roots => exact unchanged rfl
  | removeGlobalRoot v => exact unchanged rfl
  | enable => exact unchanged rfl
  | grow c => exact usual.elim
  | disable => exact usual.elim

omit [Payload α] in
lemma Fresh.blockCount (fresh : u.Fresh) (c : Nat) : u.heap.blockCount c = 0 := by
  obtain ⟨heap, _⟩ := u
  obtain ⟨place, settings, _, made, _⟩ := fresh
  rw [Heap.createAt] at made
  split at made
  · cases made
  · cases made
    simp only [Heap.blockCount, List.getElem?_toArray, List.getElem?_mapIdx]
    cases settings.sizeClasses[c]? <;> rfl

lemma Collecting.run (collecting : u.Collecting s) (usual : ∀ n, (ops n).IsUsual) (n : Nat) :
    (u.run ops n).Collecting s := by
  induction n with
  | zero => exact collecting
  | succ n ih => exact ih.perform (usual n)

/-- What is true of all allocations of a run, and of what the classes own in all its states. -/
structure GrowsWithNeed (u : HeapUser α) (ops : Nat → HeapOp α) : Prop where
  /-- If no cycle leaves more cells of a class live than so many, then the class never owns more
  blocks than one, its first ones, or the fewest in which the target is free beside so many. -/
  bounded : ∀ c size live, u.heap.settings.sizeClasses[c]? = some size →
    (∀ n, (u.run ops n).Collects (ops n) →
      ((u.run ops n).heap.runCycle ((u.run ops n).submits (ops n))).liveIn c ≤ live) →
    ∃ b, IsLeast { b | u.heap.settings.target ≤ percentIn (cellsPerBlock size) live b } b ∧
      ∀ n, (u.run ops n).heap.blockCount c ≤ max (max 1 u.heap.settings.initialBlocks) b
  /-- An allocation runs one cycle if its class owns a block and less than the trigger is free,
  and no cycle otherwise. -/
  cycles : ∀ n payload others c, ops n = .allocate payload others →
    (u.run ops n).heap.classOf payload = .ok c →
    (u.run ops (n + 1)).heap.stats.cycles = (u.run ops n).heap.stats.cycles +
      if 0 < (u.run ops n).heap.blockCount c ∧
        (u.run ops n).heap.percentageIn c < u.heap.settings.trigger then 1 else 0
  /-- It takes its slot from an allocator of which the trigger is free. -/
  served : ∀ n payload others c, ops n = .allocate payload others →
    (u.run ops n).heap.classOf payload = .ok c →
    ∃ made a, (u.run ops n).made? (ops n) = some made ∧
      (u.run ops n).heap.Serves c ((u.run ops n).submits (ops n))
        ((u.run ops n).heap.makeRoom c ((u.run ops n).roots :: others) payload)
        (u.run ops (n + 1)).heap made a

/-- While collection is on, a heap grows only as its live data need it, whatever its settings
and whatever its thread does. -/
theorem growsWithNeed (fresh : u.Fresh) (enabled : u.heap.gcEnabled)
    (pos : 1 ≤ u.heap.settings.trigger) (usual : ∀ n, (ops n).IsUsual) : u.GrowsWithNeed ops := by
  have sound := fresh.tidy.sound
  have collecting : ∀ n, (u.run ops n).Collecting u.heap.settings :=
    Collecting.run ⟨sound, rfl, enabled, pos⟩ usual
  constructor
  · intro c size live class_size least
    obtain ⟨a, here, same⟩ := Option.map_eq_some_iff.mp ((sound.sizes c).trans class_size)
    have perBlock := (sound.allocator c a here).cellsPerBlock_pos
    rw [same] at perBlock
    obtain ⟨b, fewest⟩ := exists_isLeast_percentIn perBlock
      (Settings.percentages_of_valid sound.settings).2.1 live
    refine ⟨b, fewest, fun n => ?_⟩
    induction n with
    | zero =>
      rw [run, fresh.blockCount]
      exact Nat.zero_le _
    | succ n ih =>
      have grown := (collecting n).blockCount_perform (usual n) class_size (least n) fewest.1
      exact grown.trans (max_le ih le_rfl)
  · intro n payload others c allocates fits
    rw [run, allocates]
    exact (collecting n).cycles_allocate fits others
  · intro n payload others c allocates fits
    rw [run, allocates]
    exact (collecting n).serves fits others

/-- Makes nodes without end and roots none of them. -/
def spending (n : Nat) : HeapOp Node := .allocate ⟨n, "node", 8, 8, []⟩ []

/-- Eight nodes fill the one block of their class, so that the ninth takes a cycle. -/
theorem growsWithNeed_spending : newcomer.Fresh ∧ newcomer.heap.gcEnabled ∧
    1 ≤ newcomer.heap.settings.trigger ∧ (∀ n, (spending n).IsUsual) ∧
    newcomer.GrowsWithNeed spending ∧ (newcomer.run spending 8).heap.blockCount 0 = 1 ∧
    (newcomer.run spending 8).heap.stats.cycles = 0 ∧
    (newcomer.run spending 9).heap.stats.cycles = 1 := by
  have usual : ∀ n, (spending n).IsUsual := fun _ => trivial
  have grows := growsWithNeed fresh_newcomer rfl (by decide) usual
  refine ⟨fresh_newcomer, rfl, by decide, usual, grows, by decide +kernel, by decide +kernel, ?_⟩
  rw [grows.cycles 8 ⟨8, "node", 8, 8, []⟩ [] 0 rfl (by decide +kernel)]
  decide +kernel

end HeapUser

end CellMachine
