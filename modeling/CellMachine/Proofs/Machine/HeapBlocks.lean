import CellMachine.Proofs.Machine.CallingFrames
import CellMachine.Proofs.Machine.Survival

/-!
# Blocks of a heap

Which blocks are there, and which frames they know. All that happens to a heap leaves the blocks
that it does not drop as they are, but for the frame that a call sets or clears, and an allocation
adds no block but the one that it is asked for.
-/

namespace CellMachine

namespace Heap

variable {h h' h'' : Heap Object} {a : Address}

def block? (h : Heap Object) (a : Address) : Option BlockObject := (h.payload? a).bind Object.block?

lemma callingFrame?_eq (h : Heap Object) (a : Address) :
    h.callingFrame? a = (h.block? a).bind BlockObject.callingFrame := rfl

/-- All blocks of the second heap are blocks of the first. -/
structure Thins (h h' : Heap Object) : Prop where
  sound : h'.Sound
  blocks : ∀ a b, h'.block? a = some b → h.block? a = some b

lemma Thins.trans (first : h.Thins h') (second : h'.Thins h'') : h.Thins h'' :=
  ⟨second.sound, fun a b here => first.blocks a b (second.blocks a b here)⟩

lemma Sound.thins_refl (sound : h.Sound) : h.Thins h := ⟨sound, fun _ _ => id⟩

lemma Sound.thins_of_allocators (sound : h.Sound) (settings : h'.settings = h.settings)
    (allocators : h'.allocators = h.allocators) : h.Thins h' := by
  refine ⟨sound.congr settings allocators, fun a b here => ?_⟩
  rwa [block?, (cells_congr allocators a).2] at here

/-- Nothing but objects of other kinds is new. -/
lemma Preserves.thins {vs : List Value} {made : Set Object} (preserves : h.Preserves h' vs made)
    (plain : ∀ o ∈ made, o.block? = none) : h.Thins h' := by
  refine ⟨preserves.sound, fun a b here => ?_⟩
  obtain ⟨o, there, same⟩ := Option.bind_eq_some_iff.mp here
  rcases preserves.origin a o there with old | new
  · rw [block?, old]
    exact same
  · rw [plain o new] at same
    cases same

lemma Sound.thins_collect (sound : h.Sound) (inputs : List RootSet) :
    h.Thins (h.collect inputs).2 := by
  have kept : h.Preserves (h.collect inputs).2 [] ∅ :=
    sound.preserves_collect (fun a mem => by cases mem) ∅
  exact kept.thins fun _ mem => by cases mem

lemma Sound.thins_allocate (sound : h.Sound) (threads : List (Array Value)) {o : Object}
    (plain : o.block? = none) : h.Thins (h.allocate threads o).2 :=
  (sound.preserves_allocate threads o).1.thins fun _ mem => mem ▸ plain

lemma Sound.thins_modifyPayload (sound : h.Sound) (a : Address) {f : Object → Object}
    (same : ∀ o : Object, (f o).block? = o.block?) : h.Thins (h.modifyPayload a f) := by
  refine ⟨sound.modifyPayload a f, fun x b here => ?_⟩
  rw [block?, sound.payload?_modifyPayload] at here
  split at here
  · rw [Option.bind_map] at here
    exact (congrArg (Option.bind _) (funext same)).symm.trans here
  · exact here

/-- Nothing but the frame that one block knows is changed. -/
lemma Sound.block?_withCallingFrame (sound : h.Sound) (a : Address) (id : Option FrameId)
    (x : Address) : (h.modifyPayload a (Object.withCallingFrame id)).block? x =
      if a = x then (h.block? x).map fun b => { b with callingFrame := id } else h.block? x := by
  rw [block?, sound.payload?_modifyPayload]
  split
  · rw [block?]
    cases h.payload? x with
    | none => rfl
    | some o => cases o <;> rfl
  · rfl

/-- The blocks after an allocation are old, but for one at the address that it answers. -/
lemma Sound.blocks_allocate (sound : h.Sound) (threads : List (Array Value)) (o : Object) :
    (h.allocate threads o).2.Sound ∧ ∀ a b, (h.allocate threads o).2.block? a = some b →
      (h.allocate threads o).1 ≠ .ok a ∧ h.block? a = some b ∨
        (h.allocate threads o).1 = .ok a ∧ o.block? = some b := by
  rw [allocate]
  split
  · exact ⟨sound, fun a b here => .inl ⟨fun same => (by cases same), here⟩⟩
  · rename_i c fits
    have room := sound.preserves_makeRoom c threads o ∅
    have thins := room.thins fun _ mem => by cases mem
    have fits' := (classOf_congr room.settings o).trans fits
    obtain ⟨new, ok, sound', _, placed, others⟩ :=
      room.sound.allocateIn_cells (classOf_lt room.sound fits') o
    refine ⟨sound', fun a b here => ?_⟩
    by_cases same : a = new
    · subst same
      rw [block?, placed] at here
      exact .inr ⟨ok, here⟩
    · rw [block?, (others a same).2] at here
      exact .inl ⟨fun answer => same (Except.ok.inj (answer.symm.trans ok)), thins.blocks a b here⟩

end Heap

namespace World

variable {w : World}

lemma thins_collect (sound : w.heap.Sound) (argStacks : Stacks) :
    w.heap.Thins (w.collect argStacks).2.heap :=
  sound.thins_collect _

lemma thins_polledHeap (sound : w.heap.Sound) (argStacks : Stacks) :
    w.heap.Thins (w.polledHeap argStacks) :=
  (preserves_polledHeap sound argStacks ∅).thins fun _ mem => by cases mem

lemma blocks_allocate (sound : w.heap.Sound) (argStacks : Stacks) (o : Object) :
    (w.allocate argStacks o).2.heap.Sound ∧
      ∀ a b, (w.allocate argStacks o).2.heap.block? a = some b →
        (w.allocate argStacks o).1 ≠ .ok a ∧ w.heap.block? a = some b ∨
          (w.allocate argStacks o).1 = .ok a ∧ o.block? = some b := by
  obtain ⟨result, heap⟩ := allocate_eq argStacks o w
  have polled := thins_polledHeap sound argStacks
  obtain ⟨sound', blocks⟩ := polled.sound.blocks_allocate argStacks o
  rw [result, heap]
  exact ⟨sound', fun a b here => (blocks a b here).imp_left (And.imp_right (polled.blocks a b))⟩

lemma thins_allocate (sound : w.heap.Sound) (argStacks : Stacks) {o : Object}
    (plain : o.block? = none) : w.heap.Thins (w.allocate argStacks o).2.heap :=
  (preserves_allocate sound argStacks o).1.thins fun _ mem => mem ▸ plain

lemma thins_pollInterrupt (sound : w.heap.Sound) : w.heap.Thins w.pollInterrupt.2.heap := by
  rw [pollInterrupt]
  split
  · exact sound.thins_refl
  · exact sound.thins_refl

lemma thins_addRoot (sound : w.heap.Sound) (v : Value) : w.heap.Thins (w.addRoot v).heap := by
  obtain ⟨settings, allocators, _⟩ := w.heap.addGlobalRoot_frame v
  exact sound.thins_of_allocators settings allocators

lemma thins_removeRoot (sound : w.heap.Sound) (v : Value) :
    w.heap.Thins (w.removeRoot v).heap :=
  sound.thins_of_allocators rfl rfl

lemma thins_foldl {f : World → Value → World}
    (each : ∀ (w : World) v, w.heap.Sound → w.heap.Thins (f w v).heap) (vs : List Value)
    {w : World} (sound : w.heap.Sound) : w.heap.Thins (vs.foldl f w).heap := by
  induction vs generalizing w with
  | nil => exact sound.thins_refl
  | cons v vs ih =>
    have first := each w v sound
    exact first.trans (ih first.sound)

lemma thins_intern (sound : w.heap.Sound) (argStacks : Stacks) (name : String) :
    w.heap.Thins (w.intern argStacks name).2.heap := by
  have placed := sound.thins_allocate argStacks (o := .symbol name) rfl
  rw [intern]
  split
  · exact sound.thins_refl
  · split
    · rename_i fresh w' taken
      have same : (w.heap.allocate argStacks (.symbol name)).2 = w'.heap :=
        congrArg (fun r => World.heap r.2) taken
      rw [same] at placed
      dsimp only
      rw [publish]
      split
      · exact placed
      · exact placed.trans (thins_addRoot placed.sound (.ref fresh))
    · rename_i w' taken
      have same : (w.heap.allocate argStacks (.symbol name)).2 = w'.heap :=
        congrArg (fun r => World.heap r.2) taken
      exact same ▸ placed

lemma thins_setGlobal (sound : w.heap.Sound) (name : String) (v : Value) :
    w.heap.Thins (w.setGlobal name v).heap := by
  have bound : ∀ {w' : World}, w.heap.Thins w'.heap →
      w.heap.Thins (World.addRoot v { w' with globals := rebind name v w'.globals }).heap :=
    fun thins => thins.trans (thins_addRoot thins.sound v)
  rw [setGlobal]
  split
  · exact bound (thins_removeRoot sound _)
  · exact bound sound.thins_refl

lemma thins_rooted {h h' : Heap Object} {o : Object} {a : Address} (sound : h.Sound)
    (plain : o.block? = none) (made : rooted h o = .ok (a, h')) : h.Thins h' := by
  have allocated := sound.thins_allocate [] plain
  rw [rooted] at made
  split at made
  · rename_i b after placed
    rw [placed] at allocated
    obtain ⟨_, rfl⟩ := Prod.mk.inj (Except.ok.inj made)
    obtain ⟨settings, allocators, _⟩ := after.addGlobalRoot_frame (.ref b)
    exact allocated.trans (allocated.sound.thins_of_allocators settings allocators)
  · cases made

/-- There are no blocks in a new world. -/
lemma blockless_create {s : Settings} {w : World} (made : World.create s = .ok w) :
    w.heap.Sound ∧ ∀ a, w.heap.block? a = none := by
  obtain ⟨empty, _, one, _, two, _, three, created, first, second, third, rfl⟩ := create_spec made
  have apart := apart_scatteredBlocks s.sizeClasses.length
  have toOne := thins_rooted (Heap.sound_createAt apart created) rfl first
  have toTwo := toOne.trans (thins_rooted toOne.sound rfl second)
  have toThree := toTwo.trans (thins_rooted toTwo.sound rfl third)
  refine ⟨toThree.sound, fun a => Option.eq_none_iff_forall_ne_some.mpr fun b here => ?_⟩
  obtain ⟨o, there, _⟩ := Option.bind_eq_some_iff.mp (toThree.blocks a b here)
  exact Heap.not_isLive_createAt apart created a (Heap.isLive_of_payload? there)

end World

end CellMachine
