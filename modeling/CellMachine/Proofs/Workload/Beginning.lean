import CellMachine.Proofs.Workload.Knowledge

/-!
# A steady beginning

With valid settings and the usual size classes a world can be made, and it is steady from the
start: the singletons are in their places, rooted for good, and nothing else is there.
-/

namespace CellMachine

variable {settings : Settings} {rooted : List (Address × Object)} {h : Heap Object}

/-- These are the global roots of the heap, and this is what they refer to. -/
structure Heap.Stocked (settings : Settings) (rooted : List (Address × Object)) (h : Heap Object) :
    Prop where
  reachable : h.Reachable
  settings : h.settings = settings
  globals : h.globalRoots = rooted.map fun e => .ref e.1
  cells : ∀ e ∈ rooted, h.payload? e.1 = some e.2

namespace Heap.Stocked

lemma room {h' : Heap Object} {c : Nat} (stocked : h.Stocked settings rooted)
    (made : h' = h.prewarm c ∨ h' = h.grow c) : h'.Stocked settings rooted := by
  have cells := stocked.reachable.sound.cells_of_room made
  refine ⟨?_, ?_, (globalRoots_of_room made).trans stocked.globals,
    fun e mem => (cells e.1).2.trans (stocked.cells e mem)⟩
  · rcases made with rfl | rfl
    · exact stocked.reachable.step (.mutation (.prewarm _ c))
    · exact stocked.reachable.step (.mutation (.grow _ c))
  · rcases made with rfl | rfl
    · exact stocked.settings
    · exact stocked.settings

lemma cycle (stocked : h.Stocked settings rooted) (inputs : List RootSet) :
    (h.runCycle inputs).Stocked settings rooted := by
  have sound := stocked.reachable.sound
  obtain ⟨_, _, _, frame⟩ := sound.runCycle_frame inputs
  refine ⟨stocked.reachable.step (.cycle _ inputs), ?_, ?_, fun e mem => ?_⟩
  · rw [frame]
    exact stocked.settings
  · rw [frame]
    exact stocked.globals
  · have here := stocked.cells e mem
    have root : Value.ref e.1 ∈ h.globalRoots := by
      rw [stocked.globals]
      exact List.mem_map_of_mem mem
    have live := isLive_of_payload? here
    exact (sound.payload?_runCycle_of_reaches (.root (.inr root) (cellFor?_of_isLive live))).trans
      here

lemma makeRoom (stocked : h.Stocked settings rooted) (c : Nat) (o : Object) :
    (h.makeRoom c [] o).Stocked settings rooted := by
  rw [Heap.makeRoom]
  split
  · exact stocked.room (.inl rfl)
  · exact stocked
  · rw [Heap.collect]
    split
    · exact (stocked.cycle _).room (.inr rfl)
    · exact stocked.room (.inr rfl)

/-- One more cell is there and rooted. -/
lemma root (stocked : h.Stocked settings rooted)
    (classes : settings.sizeClasses = Settings.standard.sizeClasses) (o : Object) :
    ∃ a h', World.rooted h o = .ok (a, h') ∧ h'.Stocked settings ((a, o) :: rooted) := by
  obtain ⟨c, fits⟩ : ∃ c, h.classOf o = .ok c := by
    simp only [classOf, bytesFor, Settings.classFor?, stocked.settings, classes]
    cases o <;> exact ⟨_, rfl⟩
  have stocked := stocked.makeRoom c o
  have ran : h.allocate [] o = (h.makeRoom c [] o).allocateIn c o := by rw [allocate, fits]
  have fits : (h.makeRoom c [] o).classOf o = .ok c := by
    have same : (h.makeRoom c [] o).settings = h.settings := by
      rw [stocked.settings, ‹h.Stocked settings rooted›.settings]
    rw [classOf, same]
    exact fits
  generalize h.makeRoom c [] o = room at stocked ran fits
  have sound := stocked.reachable.sound
  obtain ⟨a, ok, _, _, placed, _⟩ := sound.allocateIn_cells (classOf_lt sound fits) o
  have claimed : (room.allocateIn c o).2.Reachable :=
    stocked.reachable.step (.mutation (.claim _ fits))
  refine ⟨a, (room.allocateIn c o).2.addGlobalRoot (.ref a), ?_, ?_⟩
  · rw [World.rooted, ran]
    generalize room.allocateIn c o = out at ok
    obtain ⟨result, after⟩ := out
    obtain rfl : result = .ok a := ok
    rfl
  · refine ⟨claimed.step (.mutation (.touch (.addRoot _ (.ref a)))), ?_, ?_, ?_⟩
    · rw [(Heap.addGlobalRoot_frame _ _).1, Heap.Mutation.settings (.claim room fits)]
      exact stocked.settings
    · rw [globalRoots_addGlobalRoot, (room.allocateIn_frame c o).1, stocked.globals]
      rfl
    · intro e mem
      rw [payload?_addGlobalRoot]
      rcases List.mem_cons.mp mem with rfl | old
      · exact placed
      · exact sound.payload?_allocateIn fits (stocked.cells e old)

end Heap.Stocked

namespace World

/-- What is there at first is there for good. -/
theorem exists_create (valid : settings.fault? = none)
    (classes : settings.sizeClasses = Settings.standard.sizeClasses) :
    ∃ w, World.create settings = .ok w ∧ w.installHandlers.Steady w.singletons := by
  obtain ⟨empty, created⟩ : ∃ empty : Heap Object, Heap.create settings = .ok empty := by
    rw [Heap.create, Heap.createAt, valid]
    exact ⟨_, rfl⟩
  have bare : empty.Stocked settings [] := by
    refine ⟨.create (apart_scatteredBlocks _) created, ?_, ?_, fun e mem => by cases mem⟩
    all_goals
      rw [Heap.create, Heap.createAt, valid] at created
      cases created
      rfl
  obtain ⟨nilCell, one, first, stocked₁⟩ := bare.root classes .nilObject
  obtain ⟨trueCell, two, second, stocked₂⟩ := stocked₁.root classes .trueObject
  obtain ⟨falseCell, heap, third, stocked₃⟩ := stocked₂.root classes .falseObject
  refine ⟨⟨heap, ⟨nilCell, trueCell, falseCell⟩, [], [], ⟨false, false, false⟩, 1⟩, ?_, ?_⟩
  · simp only [World.create, created, first, second, third, bind, Except.bind, pure, Except.pure]
  · refine ⟨stocked₃.reachable, ?_, rfl, ⟨?_, ?_, ?_⟩, ⟨heap.globalRoots, ⟨.nil, ?_, ?_⟩, ?_, ?_, ?_⟩,
      rfl, rfl⟩
    · exact (congrArg Settings.sizeClasses stocked₃.settings).trans classes
    · exact stocked₃.cells (nilCell, .nilObject) (by simp)
    · exact stocked₃.cells (trueCell, .trueObject) (by simp)
    · exact stocked₃.cells (falseCell, .falseObject) (by simp)
    · exact fun _ _ mem => by cases mem
    · simp [installHandlers]
    all_goals
      rw [stocked₃.globals]
      simp

end World

end CellMachine
