import CellMachine.Proofs.Machine.NewWorld

/-!
# Calling frames

Which frame a block leads a break to is kept in the block itself. Everything that a program
does to the shared world leaves these frames alone; only calls set and clear them. The one
exception is that a block may be dropped while a call with it is running, for a block that
is passed is no root. A payload that was dropped shows whether that has happened.
-/

namespace CellMachine

/-- An object that is no block, or a block that knows no frame. -/
def Object.Detached (o : Object) : Prop := o.block?.bind BlockObject.callingFrame = none

/-- A block is made without a frame. -/
lemma Object.detached_withCallingFrame (o : Object) : (o.withCallingFrame none).Detached := by
  cases o with
  | _ => rfl

namespace Heap

/-- The frame that the block at an address knows. -/
def callingFrame? (h : Heap Object) (a : Address) : Option FrameId :=
  ((h.payload? a).bind Object.block?).bind BlockObject.callingFrame

/-- A block was dropped that still knew a frame. -/
def Bereft (h : Heap Object) : Prop :=
  ∃ b, Object.block b ∈ h.dropped ∧ b.callingFrame ≠ none

/-- What comes later knows the same frames, unless a block was dropped that knew one. -/
structure Follows (h h' : Heap Object) : Prop where
  sound : h'.Sound
  bereft : h.Bereft → h'.Bereft
  frames : ¬ h'.Bereft → ∀ a, h'.callingFrame? a = h.callingFrame? a

variable {h h' h'' : Heap Object}

lemma callingFrame?_eq_some_iff {a : Address} {id : FrameId} :
    h.callingFrame? a = some id ↔
      ∃ b, h.payload? a = some (.block b) ∧ b.callingFrame = some id := by
  rw [callingFrame?]
  constructor
  · intro known
    obtain ⟨b, here, hid⟩ := Option.bind_eq_some_iff.mp known
    obtain ⟨o, ho, hb⟩ := Option.bind_eq_some_iff.mp here
    cases o with
    | block b' =>
      obtain rfl := Option.some.inj hb
      exact ⟨b', ho, hid⟩
    | _ => cases hb
  · rintro ⟨b, here, hid⟩
    rw [here]
    exact hid

lemma Follows.trans (first : h.Follows h') (second : h'.Follows h'') : h.Follows h'' := by
  constructor
  · exact second.sound
  · exact fun lost => second.bereft (first.bereft lost)
  · intro kept a
    have kept' : ¬ h'.Bereft := fun lost => kept (second.bereft lost)
    rw [second.frames kept a, first.frames kept' a]

/-- Heaps with the same payloads, none of which was dropped in between. -/
lemma follows_of_payloads (sound : h'.Sound) (dropped : h'.dropped = h.dropped)
    (same : ∀ a, h'.payload? a = h.payload? a) : h.Follows h' := by
  constructor
  · exact sound
  · rw [Bereft, Bereft, dropped]
    exact id
  · intro _ a
    rw [callingFrame?, callingFrame?, same]

lemma Sound.follows_refl (sound : h.Sound) : h.Follows h :=
  follows_of_payloads sound rfl fun _ => rfl

lemma Sound.follows_of_allocators (sound : h.Sound) (settings : h'.settings = h.settings)
    (allocators : h'.allocators = h.allocators) (dropped : h'.dropped = h.dropped) :
    h.Follows h' :=
  follows_of_payloads (sound.congr settings allocators) dropped
    fun a => (cells_congr allocators a).2

/-- A cycle drops the blocks that it frees as they are. -/
lemma Sound.follows_runCycle (sound : h.Sound) (inputs : List RootSet) :
    h.Follows (h.runCycle inputs) := by
  have dropped := sound.dropped_runCycle inputs
  constructor
  · exact sound.runCycle inputs
  · rintro ⟨b, gone, known⟩
    refine ⟨b, ?_, known⟩
    rw [dropped]
    exact List.mem_append_right _ gone
  · intro kept a
    by_cases live : (h.runCycle inputs).isLive a
    · rw [callingFrame?, sound.payload?_runCycle_of_reaches (sound.isLive_runCycle_iff.mp live)]
      rfl
    · have gone : (h.runCycle inputs).payload? a = none := by
        by_contra here
        obtain ⟨o, ho⟩ := Option.ne_none_iff_exists'.mp here
        exact live (isLive_of_payload? ho)
      rw [callingFrame?, gone]
      by_contra known
      obtain ⟨id, hid⟩ := Option.ne_none_iff_exists'.mp (Ne.symm known)
      obtain ⟨b, here, knows⟩ := callingFrame?_eq_some_iff.mp hid
      refine kept ⟨b, ?_, by rw [knows]; exact Option.some_ne_none id⟩
      rw [dropped, List.mem_append, List.mem_reverse, List.mem_filterMap]
      refine .inl ⟨a, sound.mem_unreached.mpr ⟨isLive_of_payload? here, fun reached => ?_⟩, here⟩
      exact live (sound.isLive_runCycle_iff.mpr reached)

lemma Sound.follows_collect (sound : h.Sound) (inputs : List RootSet) :
    h.Follows (h.collect inputs).2 := by
  rw [Heap.collect]
  split
  · exact sound.follows_runCycle inputs
  · exact sound.follows_refl

lemma Sound.follows_makeRoom (sound : h.Sound) (c : Nat) (threads : List (Array Value))
    (o : Object) : h.Follows (h.makeRoom c threads o) := by
  rw [makeRoom]
  split
  · have same := sound.cells_of_layout (sound.prewarm c) (layout_prewarm h c) (cellAt?_prewarm h c)
    exact follows_of_payloads (sound.prewarm c) rfl fun a => (same a).2
  · exact sound.follows_refl
  · have collected := sound.follows_collect (rootSets threads (Payload.children o))
    have grown := collected.sound.grow c
    have same := collected.sound.cells_of_layout grown (layout_grow _ c) (cellAt?_grow _ c)
    exact collected.trans (follows_of_payloads grown rfl fun a => (same a).2)

/-- The cell of a new object was not in use, so no block was there. -/
lemma Sound.follows_allocateIn (sound : h.Sound) {c : Nat} (hc : c < h.allocators.size) {o : Object}
    (detached : o.Detached) : h.Follows (h.allocateIn c o).2 := by
  obtain ⟨a, _, sound', free, here, rest⟩ := sound.allocateIn_cells hc o
  have dropped := (allocateIn_frame h c o).2
  constructor
  · exact sound'
  · rw [Bereft, Bereft, dropped]
    exact id
  · intro _ x
    rw [callingFrame?, callingFrame?]
    by_cases new : x = a
    · have before : h.payload? a = none := by
        by_contra used
        obtain ⟨old, hold⟩ := Option.ne_none_iff_exists'.mp used
        exact free (isLive_of_payload? hold)
      rw [new, here, before]
      exact detached
    · rw [(rest x new).2]

lemma Sound.follows_allocate (sound : h.Sound) (threads : List (Array Value)) {o : Object}
    (detached : o.Detached) : h.Follows (h.allocate threads o).2 := by
  rw [allocate]
  split
  · exact sound.follows_refl
  · rename_i c fits
    have room := sound.follows_makeRoom c threads o
    have size := size_of_layout (sound.makeRoom_spec c threads o).2.1
    exact room.trans (room.sound.follows_allocateIn (size ▸ classOf_lt sound fits) detached)

/-- An edit keeps what an object knows of frames. -/
lemma Sound.follows_modifyPayload (sound : h.Sound) (a : Address) {f : Object → Object}
    (keeps : ∀ o, (f o).block?.bind BlockObject.callingFrame =
      o.block?.bind BlockObject.callingFrame) :
    h.Follows (h.modifyPayload a f) := by
  constructor
  · exact sound.modifyPayload a f
  · rw [Bereft, Bereft, (h.modifyPayload_frame a f).2.2]
    exact id
  · intro _ x
    rw [callingFrame?, callingFrame?, sound.payload?_modifyPayload]
    split
    · cases h.payload? x with
      | none => rfl
      | some o => exact keeps o
    · rfl

end Heap

namespace World

/-- What comes later knows the same frames, and has made some more. -/
structure Follows (w w' : World) : Prop where
  heap : w.heap.Follows w'.heap
  frames : w.nextFrame ≤ w'.nextFrame

variable {w w' w'' : World}

lemma Follows.trans (first : w.Follows w') (second : w'.Follows w'') : w.Follows w'' :=
  ⟨first.heap.trans second.heap, first.frames.trans second.frames⟩

lemma follows_of_heap (sound : w.heap.Sound) (heap : w'.heap = w.heap)
    (frames : w.nextFrame ≤ w'.nextFrame) : w.Follows w' :=
  ⟨heap ▸ sound.follows_refl, frames⟩

lemma follows_collect (sound : w.heap.Sound) (argStacks : Stacks) :
    w.Follows (w.collect argStacks).2 :=
  ⟨sound.follows_collect _, le_rfl⟩

lemma follows_place (sound : w.heap.Sound) (argStacks : Stacks) {o : Object}
    (detached : o.Detached) : w.Follows (w.place argStacks o).2 :=
  ⟨sound.follows_allocate _ detached, le_rfl⟩

lemma follows_pollCollection (sound : w.heap.Sound) : w.Follows w.pollCollection.2 := by
  rw [pollCollection]
  split
  · exact follows_of_heap sound rfl le_rfl
  · exact follows_of_heap sound rfl le_rfl

lemma follows_pollInterrupt (sound : w.heap.Sound) : w.Follows w.pollInterrupt.2 := by
  rw [pollInterrupt]
  split
  · exact follows_of_heap sound rfl le_rfl
  · exact follows_of_heap sound rfl le_rfl

lemma follows_allocate (sound : w.heap.Sound) (argStacks : Stacks) {o : Object}
    (detached : o.Detached) : w.Follows (w.allocate argStacks o).2 := by
  have polled := follows_pollCollection sound
  rw [allocate]
  dsimp only
  split
  · have collected := follows_collect polled.heap.sound argStacks
    exact (polled.trans collected).trans (follows_place collected.heap.sound argStacks detached)
  · exact polled.trans (follows_place polled.heap.sound argStacks detached)

lemma follows_addRoot (sound : w.heap.Sound) (v : Value) : w.Follows (w.addRoot v) := by
  obtain ⟨settings, allocators, dropped⟩ := w.heap.addGlobalRoot_frame v
  exact ⟨sound.follows_of_allocators settings allocators dropped, le_rfl⟩

lemma follows_removeRoot (sound : w.heap.Sound) (v : Value) : w.Follows (w.removeRoot v) :=
  ⟨sound.follows_of_allocators rfl rfl rfl, le_rfl⟩

/-- Roots that are added or removed one after the other. -/
lemma follows_foldl {f : World → Value → World}
    (each : ∀ (w : World) v, w.heap.Sound → w.Follows (f w v))
    (vs : List Value) {w : World} (sound : w.heap.Sound) : w.Follows (vs.foldl f w) := by
  induction vs generalizing w with
  | nil => exact follows_of_heap sound rfl le_rfl
  | cons v vs ih =>
    have first := each w v sound
    exact first.trans (ih first.heap.sound)

lemma follows_intern (sound : w.heap.Sound) (argStacks : Stacks) (name : String) :
    w.Follows (w.intern argStacks name).2 := by
  have placed := follows_place sound argStacks (o := .symbol name) rfl
  rw [intern]
  split
  · exact follows_of_heap sound rfl le_rfl
  · split
    · rename_i fresh w' taken
      rw [taken] at placed
      dsimp only
      rw [publish]
      split
      · exact placed
      · have rooted := placed.trans (follows_addRoot placed.heap.sound (.ref fresh))
        exact ⟨rooted.heap, rooted.frames⟩
    · rename_i taken
      rw [taken] at placed
      exact placed

lemma follows_setGlobal (sound : w.heap.Sound) (name : String) (v : Value) :
    w.Follows (w.setGlobal name v) := by
  have unbound : ∀ {w' : World}, w.Follows w' →
      w.Follows (World.addRoot v { w' with globals := rebind name v w'.globals }) := by
    intro w' follows
    have rooted := follows_addRoot (w := { w' with globals := rebind name v w'.globals })
      follows.heap.sound v
    exact ⟨follows.heap.trans rooted.heap, follows.frames.trans rooted.frames⟩
  rw [setGlobal]
  split
  · exact unbound (follows_removeRoot sound _)
  · exact unbound (follows_of_heap sound rfl le_rfl)

lemma follows_modifyObject (sound : w.heap.Sound) (a : Address) {f : Object → Object}
    (keeps : ∀ o, (f o).block?.bind BlockObject.callingFrame =
      o.block?.bind BlockObject.callingFrame) :
    w.Follows (w.modifyObject a f) :=
  ⟨sound.follows_modifyPayload a keeps, le_rfl⟩

/-- The cell is a block. -/
def isBlock (w : World) (a : Address) : Bool :=
  ((w.heap.payload? a).bind Object.block?).isSome

/-- Nothing but the frame that one block knows is changed. -/
lemma callingFrame?_withCallingFrame (sound : w.heap.Sound) (a : Address) (id : Option FrameId)
    (x : Address) :
    (w.modifyObject a (Object.withCallingFrame id)).heap.callingFrame? x =
      if a = x then (if w.isBlock a then id else none) else w.heap.callingFrame? x := by
  change ((w.heap.modifyPayload a (Object.withCallingFrame id)).callingFrame? x) = _
  rw [Heap.callingFrame?, sound.payload?_modifyPayload]
  by_cases same : a = x
  · subst same
    rw [if_pos rfl, if_pos rfl, isBlock]
    cases w.heap.payload? a with
    | none => rfl
    | some o => cases o <;> rfl
  · rw [if_neg same, if_neg same]
    rfl

lemma follows_rooted {h h' : Heap Object} (sound : h.Sound) {o : Object} (detached : o.Detached)
    {a : Address} (made : rooted h o = .ok (a, h')) : h.Follows h' := by
  have allocated := sound.follows_allocate [] detached
  rw [rooted] at made
  split at made
  · rename_i a' after taken
    obtain ⟨rfl, rfl⟩ := Prod.mk.inj (Except.ok.inj made)
    rw [taken] at allocated
    obtain ⟨settings, allocators, dropped⟩ := after.addGlobalRoot_frame (.ref a')
    exact allocated.trans (allocated.sound.follows_of_allocators settings allocators dropped)
  · cases made

/-- No block knows a frame in a new world. -/
lemma frames_create {s : Settings} {w : World} (made : World.create s = .ok w) :
    w.heap.Sound ∧ (w.heap.Bereft ∨ ∀ a, w.heap.callingFrame? a = none) := by
  obtain ⟨empty, _, one, _, two, _, three, hempty, hnil, htrue, hfalse, rfl⟩ := create_spec made
  have sound : empty.Sound := Heap.sound_createAt (apart_scatteredBlocks _) hempty
  have first := follows_rooted sound (o := .nilObject) rfl hnil
  have second := first.trans (follows_rooted first.sound (o := .trueObject) rfl htrue)
  have third := second.trans (follows_rooted second.sound (o := .falseObject) rfl hfalse)
  refine ⟨third.sound, ?_⟩
  by_cases bereft : three.Bereft
  · exact .inl bereft
  · refine .inr fun a => (third.frames bereft a).trans ?_
    rw [Heap.callingFrame?]
    cases here : empty.payload? a with
    | none => rfl
    | some o =>
      exact absurd (Heap.isLive_of_payload? here)
        (Heap.not_isLive_createAt (apart_scatteredBlocks _) hempty a)

end World

end CellMachine
