import CellMachine.Proofs.Machine.Conducts
import CellMachine.Proofs.Machine.HeapBlocks

/-!
# Calling frames are bracketed

A block knows the frame of the caller of the outermost of the calls that it was passed to, from
the start of that call to its end, and otherwise none. Only the call that has set the frame of a
block clears it. This holds at every point of a run, whatever native code does and however its
calls end, for all blocks that are there at that point.
-/

namespace CellMachine

namespace Activity

lemma forget_nil (call : Activity) : call.forget [] = call := by
  cases call with
  | method caller passed => cases passed <;> rfl
  | block a => rfl

lemma forget_append (new new' : List Address) (call : Activity) :
    call.forget (new' ++ new) = (call.forget new).forget new' := by
  cases call with
  | method caller passed =>
    cases passed with
    | none => rfl
    | some a =>
      by_cases old : a ∈ new <;> by_cases late : a ∈ new' <;>
        simp [forget, Option.filter, old, late]
  | block a => rfl

/-- A call that has forgotten a block was not passed it, and all others are as before. -/
lemma passer_forget (new : List Address) (call : Activity) (a : Address) :
    (call.forget new).passer a = if a ∈ new then none else call.passer a := by
  cases call with
  | method caller passed =>
    cases passed with
    | none => by_cases gone : a ∈ new <;> simp [forget, passer, gone]
    | some b =>
      by_cases gone : a ∈ new
      · by_cases lost : b ∈ new
        · simp [forget, passer, Option.filter, gone, lost]
        · have other : b ≠ a := fun same => lost (same ▸ gone)
          simp [forget, passer, Option.filter, gone, lost, other]
      · by_cases lost : b ∈ new
        · have other : b ≠ a := fun same => gone (same ▸ lost)
          simp [forget, passer, Option.filter, gone, lost, other]
        · simp [forget, passer, Option.filter, gone, lost]
  | block b => simp [forget, passer]

end Activity

lemma outermost_forget (new : List Address) (active : List Activity) (a : Address) :
    outermost a (active.map (Activity.forget new)) =
      if a ∈ new then none else outermost a active := by
  induction active with
  | nil => simp [outermost]
  | cons call rest ih =>
    rw [List.map_cons, outermost, ih, Activity.passer_forget, outermost]
    split
    · rfl
    · rfl

/-- The frame that a block should know that is at an address: that of the caller of the outermost
call that it was passed to, unless it is as old as the run and knew one before. -/
def dueFrame (base : Address → Option FrameId) (born : List Address) (active : List Activity)
    (a : Address) : Option FrameId :=
  if a ∈ born then outermost a active else (base a).or (outermost a active)

/-- All blocks that are there know the right frame. -/
def Point.Accurate (base : Address → Option FrameId) (p : Point) : Prop :=
  ∀ a b, p.world.heap.block? a = some b → b.callingFrame = dueFrame base p.born p.active a

namespace Diary

variable {d d' d'' : Diary}

/-- What blocks should know without the `k` innermost calls. -/
def due (d : Diary) (base : Address → Option FrameId) (k : Nat) : Address → Option FrameId :=
  dueFrame base d.born (d.active.drop k)

/-- What comes later in a run of the same calls, after these births. -/
def LaterBy (new : List Address) (d d' : Diary) : Prop :=
  ∃ points spans, d' = { d.bears new with points, spans }

def Later (d d' : Diary) : Prop := ∃ new, LaterBy new d d'

lemma bears_nil (d : Diary) : d.bears [] = d := by
  simp [bears, funext Activity.forget_nil]

lemma bears_append (new new' : List Address) (d : Diary) :
    d.bears (new' ++ new) = (d.bears new).bears new' := by
  simp only [bears, List.map_map, List.append_assoc, mk.injEq, and_true]
  exact congrArg (List.map · d.active) (funext (Activity.forget_append new new'))

lemma Later.refl (d : Diary) : d.Later d := ⟨[], d.points, d.spans, by rw [bears_nil]⟩

lemma Later.trans (first : d.Later d') (second : d'.Later d'') : d.Later d'' := by
  obtain ⟨new, _, _, rfl⟩ := first
  obtain ⟨new', points, spans, rfl⟩ := second
  refine ⟨new' ++ new, points, spans, ?_⟩
  rw [bears_append]
  rfl

lemma later_bears (new : List Address) (d : Diary) : d.Later (d.bears new) := ⟨new, _, _, rfl⟩

lemma later_mark (p : Point) (d : Diary) : d.Later (d.mark p) :=
  ⟨[], _, _, by rw [bears_nil]; rfl⟩

lemma later_ends (s : Span) (d : Diary) : d.Later (d.ends s) :=
  ⟨[], _, _, by rw [bears_nil]; rfl⟩

lemma due_bears (new : List Address) (d : Diary) (base : Address → Option FrameId) (k : Nat)
    (a : Address) : (d.bears new).due base k a = if a ∈ new then none else d.due base k a := by
  simp only [due, dueFrame, bears]
  rw [← List.map_drop, outermost_forget]
  by_cases fresh : a ∈ new
  · simp [fresh]
  · simp [fresh]

lemma LaterBy.born {new : List Address} (later : LaterBy new d d') : d'.born = new ++ d.born := by
  obtain ⟨points, spans, rfl⟩ := later
  rfl

lemma LaterBy.due {new : List Address} (later : LaterBy new d d') (base : Address → Option FrameId)
    (k : Nat) (a : Address) : d'.due base k a = if a ∈ new then none else d.due base k a := by
  obtain ⟨points, spans, rfl⟩ := later
  exact due_bears new d base k a

/-- What the innermost call adds to what was due without it. -/
lemma due_zero {call : Activity} {rest : List Activity} (active : d.active = call :: rest)
    (base : Address → Option FrameId) (a : Address) :
    d.due base 0 a = (d.due base 1 a).or (call.passer a) := by
  rw [due, due, active, List.drop_zero, List.drop_one, List.tail_cons, dueFrame, dueFrame,
    outermost]
  split
  · rfl
  · rw [Option.or_assoc]

/-- The innermost call changes nothing of what blocks should know. -/
def Covered (d : Diary) (base : Address → Option FrameId) : Prop :=
  ∀ a, d.due base 0 a = d.due base 1 a

variable {base : Address → Option FrameId}

lemma covered_of_passer {call : Activity} {rest : List Activity} (active : d.active = call :: rest)
    (idle : ∀ a, d.due base 1 a = none → call.passer a = none) : d.Covered base := by
  intro a
  rw [due_zero active]
  cases known : d.due base 1 a with
  | none => rw [idle a known]; rfl
  | some id => rfl

lemma Covered.later (covered : d.Covered base) (later : d.Later d') : d'.Covered base := by
  obtain ⟨new, later⟩ := later
  intro a
  rw [later.due, later.due, covered a]

end Diary

/-- The call has left the frames of blocks as they were, and blocks made meanwhile know none. -/
def Span.Neutral (s : Span) : Prop :=
  ∃ new, s.exit.born = new ++ s.entry.born ∧ ∀ a b, s.exit.world.heap.block? a = some b →
    (a ∈ new → b.callingFrame = none) ∧
      (a ∉ new → ∀ b', s.entry.world.heap.block? a = some b' → b.callingFrame = b'.callingFrame)

namespace Diary

structure Bracketed (base : Address → Option FrameId) (d : Diary) : Prop where
  points : ∀ p ∈ d.points, p.Accurate base
  spans : ∀ s ∈ d.spans, s.Neutral

variable {base : Address → Option FrameId} {d : Diary}

lemma Bracketed.calls (bracketed : d.Bracketed base) (call : Activity) :
    (d.calls call).Bracketed base := ⟨bracketed.points, bracketed.spans⟩

lemma Bracketed.bears (bracketed : d.Bracketed base) (new : List Address) :
    (d.bears new).Bracketed base := ⟨bracketed.points, bracketed.spans⟩

end Diary

/-- The blocks know the frames that are due, except that the `k` innermost calls have not told
theirs yet, and so it was at all points that have been noted. -/
structure Stands {σ : Type} (base : Address → Option FrameId) (k : Nat) (d : Diary)
    (m : Machine (σ × Diary)) : Prop where
  sound : m.world.heap.Sound
  plain : ∀ c ∈ m.thread.transients, c.payload.block? = none
  frames : ∀ a b, m.world.heap.block? a = some b → b.callingFrame = m.host.2.due base k a
  bracketed : m.host.2.Bracketed base
  later : d.Later m.host.2

open VM

variable {σ α β : Type} {base : Address → Option FrameId} {k : Nat} {d d' : Diary}
  {m : Machine (σ × Diary)}

namespace Stands

lemma mono (stands : Stands base k d' m) (later : d.Later d') : Stands base k d m :=
  ⟨stands.sound, stands.plain, stands.frames, stands.bracketed, later.trans stands.later⟩

/-- The situation starts anew. -/
lemma here (stands : Stands base k d m) : Stands base k m.host.2 m :=
  ⟨stands.sound, stands.plain, stands.frames, stands.bracketed, .refl _⟩

lemma thread (stands : Stands base k d m) {thread : ThreadState}
    (plain : ∀ c ∈ thread.transients, c.payload.block? = none) :
    Stands base k d { m with thread } :=
  ⟨stands.sound, plain, stands.frames, stands.bracketed, stands.later⟩

lemma onStack (stands : Stands base k d m) (stack : Array Value) :
    Stands base k d { m with thread := { m.thread with stack } } :=
  stands.thread stands.plain

lemma released (stands : Stands base k d m) (w : Window) : Stands base k d (released w m) :=
  stands.onStack _

lemma world (stands : Stands base k d m) {w : World} (thins : m.world.heap.Thins w.heap) :
    Stands base k d { m with world := w } :=
  ⟨thins.sound, stands.plain, fun a b here => stands.frames a b (thins.blocks a b here),
    stands.bracketed, stands.later⟩

end Stands

/-- Whatever comes of the computation, what was the case is the case afterwards. -/
def Leaves (P : Machine σ → Prop) (x : VM σ α) : Prop := Ensures P x fun _ => P

lemma Leaves.bind {P : Machine σ → Prop} {x : VM σ α} {f : α → VM σ β} (first : Leaves P x)
    (rest : ∀ a, Leaves P (f a)) : Leaves P (x >>= f) :=
  Ensures.bind first rest fun _ _ kept => kept

lemma leaves_of_keeps {P : Machine σ → Prop} {x : VM σ α} (keeps : Keeps P x) : Leaves P x :=
  keeps.conseq fun _ _ => And.left

lemma leaves_of_passes {P : Machine σ → Prop} {x : VM σ α} (passes : Passes P x) : Leaves P x :=
  leaves_of_keeps passes.keeps

lemma Leaves.outcome {P : Machine σ → Prop} {x : VM σ α} (leaves : Leaves P x) :
    Leaves P (VM.outcome x) := leaves

lemma Leaves.ensuring {P : Machine σ → Prop} {x : VM σ α} {after : Machine σ → Machine σ}
    (leaves : Leaves P x) (kept : ∀ m, P m → P (after m)) : Leaves P (VM.ensuring after x) :=
  fun m before => kept _ (leaves m before)

namespace Stands

lemma passes_inWorld {f : Stacks → World → α × World}
    (thins : ∀ argStacks (w : World), w.heap.Sound → w.heap.Thins (f argStacks w).2.heap) :
    Passes (Stands (σ := σ) base k d) (inWorld f) :=
  fun _ stands => ⟨⟨_, rfl⟩, stands.world (thins _ _ stands.sound)⟩

lemma passes_onThread {f : ThreadState → α × ThreadState}
    (transients : ∀ t, (f t).2.transients = t.transients) :
    Passes (Stands (σ := σ) base k d) (onThread f) :=
  fun m stands => ⟨⟨_, rfl⟩, stands.thread (transients m.thread ▸ stands.plain)⟩

lemma passes_modifyStack (f : Array Value → Array Value) :
    Passes (Stands (σ := σ) base k d) (modifyStack f) :=
  fun _ stands => ⟨⟨_, rfl⟩, stands.onStack _⟩

lemma passes_pushWindow (values : List Value) (hasKeywords : Bool) :
    Passes (Stands (σ := σ) base k d) (pushWindow values hasKeywords) :=
  fun _ stands => ⟨⟨_, rfl⟩, stands.onStack _⟩

lemma keeps_allocate {o : Object} (plain : o.block? = none) :
    Keeps (Stands (σ := σ) base k d) (allocate o) :=
  (passes_inWorld fun argStacks _ sound => World.thins_allocate sound argStacks plain).bind
    fun _ => Keeps.ofHeap _

lemma leaves_inFrame {method : Option String} {outer block : Option Address}
    {target : Option FrameId} {x : VM (σ × Diary) α} (leaves : Leaves (Stands base k d) x) :
    Leaves (Stands base k d) (inFrame method outer block target x) := by
  intro m stands
  rw [Situation.run_inFrame]
  have inside : Stands base k d (m.entered method outer block target) :=
    (stands.world (w := m.world.freshFrame.2) stands.sound.thins_refl).thread stands.plain
  have after := leaves _ inside
  exact after.thread after.plain

lemma leaves_withTransient {o : Object} (plain : o.block? = none) {x : Address → VM (σ × Diary) α}
    (leaves : ∀ a, Leaves (Stands base k d) (x a)) :
    Leaves (Stands base k d) (withTransient o x) := by
  intro m stands
  have pushed : Stands base k d { m with thread := (m.thread.pushTransient o).2 } := by
    refine stands.thread fun c mem => ?_
    rcases Array.mem_push.mp mem with old | rfl
    · exact stands.plain c old
    · exact plain
  have after := leaves (m.thread.pushTransient o).1 _ pushed
  refine after.thread fun c mem => after.plain c ?_
  rw [← Array.mem_toList_iff] at mem ⊢
  refine List.mem_of_mem_dropLast ?_
  rw [← Array.toList_pop]
  exact mem

end Stands

namespace Stands

lemma shift {j : Nat} (stands : Stands base k d m)
    (same : ∀ a, m.host.2.due base k a = m.host.2.due base j a) : Stands base j d m :=
  ⟨stands.sound, stands.plain, fun a b here => (stands.frames a b here).trans (same a),
    stands.bracketed, stands.later⟩

/-- No transient cell is a block. -/
lemma object? (stands : Stands base k d m) (a : Address) :
    (m.object? a).bind Object.block? = m.world.heap.block? a := by
  cases a with
  | memory word => rfl
  | stack n =>
    change ((m.thread.transients[n]?).map Cell.payload).bind Object.block? = none
    cases here : m.thread.transients[n]? with
    | none => rfl
    | some c => exact stands.plain c (Array.mem_of_getElem? here)

lemma isDetached (stands : Stands base k d m) (a : Address) : (VM.isDetached a).run m =
    (.ok ((m.world.heap.block? a).any fun b => b.callingFrame.isNone), m) := by
  rw [VM.isDetached, run_bind_ok (show (VM.object? a).run m = (.ok (m.object? a), m) from rfl),
    ← stands.object? a]
  rcases m.object? a with _ | o
  · rfl
  · cases o <;> rfl

variable {x : VM (σ × Diary) α}

/-- What keeps everything while the innermost call counts keeps it also when the call makes no
difference. -/
lemma covered (stands : Stands base 1 d m) (covered : m.host.2.Covered base)
    (leaves : ∀ d, Leaves (Stands base 0 d) x) : Stands base 1 d (x.run m).2 := by
  have inside := (stands.shift fun a => (covered a).symm).here
  have after := leaves _ m inside
  exact (after.shift (covered.later after.later)).mono stands.later

/-- The call sets the frame of a block that knows none, and clears it in the end. -/
lemma attach_detach {a : Address} {b : BlockObject} {caller : FrameId} {rest : List Activity}
    (stands : Stands base 1 d m) (leaves : ∀ d, Leaves (Stands base 0 d) x)
    (active : m.host.2.active = .method caller (some a) :: rest)
    (isBlock : m.world.heap.block? a = some b) (detached : b.callingFrame = none) :
    Stands base 1 d (detach a (x.run (Situation.known a (some caller) m)).2) := by
  have nothing : m.host.2.due base 1 a = none := (stands.frames a b isBlock).symm.trans detached
  have others : ∀ y, a ≠ y → m.host.2.due base 0 y = m.host.2.due base 1 y := by
    intro y other
    rw [Diary.due_zero active, Activity.passer_of_ne other, Option.or_none]
  have attached : Stands base 0 m.host.2 (Situation.known a (some caller) m) := by
    refine ⟨stands.sound.modifyPayload a _, stands.plain, fun y b' there => ?_, stands.bracketed,
      .refl _⟩
    change (m.world.heap.modifyPayload a _).block? y = _ at there
    rw [stands.sound.block?_withCallingFrame] at there
    change b'.callingFrame = m.host.2.due base 0 y
    split at there
    · rename_i same
      subst same
      obtain ⟨_, _, rfl⟩ := Option.map_eq_some_iff.mp there
      rw [Diary.due_zero active, nothing, Activity.passer, if_pos rfl]
      rfl
    · rename_i other
      rw [others y other]
      exact stands.frames y b' there
  have after := leaves _ _ attached
  obtain ⟨new, later⟩ := after.later
  -- If the block was dropped meanwhile, another may be at its address. It knows no frame either.
  have dues := later.due base
  refine ⟨after.sound.modifyPayload a _, after.plain, fun y b' there => ?_, after.bracketed,
    stands.later.trans after.later⟩
  change ((x.run (Situation.known a (some caller) m)).2.world.heap.modifyPayload a _).block? y = _
    at there
  rw [after.sound.block?_withCallingFrame] at there
  change b'.callingFrame = (x.run (Situation.known a (some caller) m)).2.host.2.due base 1 y
  rw [dues]
  split at there
  · rename_i same
    subst same
    obtain ⟨_, _, rfl⟩ := Option.map_eq_some_iff.mp there
    rw [nothing, ite_self]
  · rename_i other
    rw [← others y other, ← dues]
    exact after.frames y b' there

/-- Whatever block the call was passed, if any. -/
lemma attached {block : Option Address} (caller : FrameId) (rest : List Activity)
    (stands : Stands base 1 d m) (leaves : ∀ d, Leaves (Stands base 0 d) x)
    (active : m.host.2.active =
      .method caller (block.filter fun a => (m.world.heap.block? a).isSome) :: rest) :
    Stands base 1 d ((VM.attached block caller x).run m).2 := by
  cases block with
  | none => exact stands.covered (Diary.covered_of_passer active fun _ _ => rfl) leaves
  | some a =>
    rw [VM.attached, run_bind_ok (stands.isDetached a)]
    rw [Option.filter_some] at active
    cases here : m.world.heap.block? a with
    | none =>
      rw [here] at active
      exact stands.covered (Diary.covered_of_passer active fun _ _ => rfl) leaves
    | some b =>
      rw [here] at active
      cases knows : b.callingFrame with
      | none =>
        simp only [Option.any_some, knows]
        exact stands.attach_detach leaves active here knows
      | some id =>
        simp only [Option.any_some, knows]
        refine stands.covered (Diary.covered_of_passer active fun y nothing => ?_) leaves
        refine Activity.passer_of_ne (fun same => ?_) caller
        rw [← same, ← stands.frames a b here, knows] at nothing
        cases nothing

end Stands

/-- Native code leaves the frames of blocks as they are. -/
def Bracketing (run : Runner (σ × Diary)) : Prop :=
  ∀ native receiver w block base d, Leaves (Stands base 0 d) (run native receiver w block)

namespace Stands

variable {run : Runner (σ × Diary)}

lemma leaves_dispatch (bracketing : Bracketing run) (c : MethodObject) (receiver : Value)
    (w : Window) (block : Option Address) (d : Diary) :
    Leaves (Stands base 0 d) (dispatch run c receiver w block) := by
  have direct : ∀ receiver w, Leaves (Stands base 0 d) (run c.native receiver w block) :=
    fun receiver w => bracketing c.native receiver w block base d
  have synthesized : ∀ o : Object, o.block? = none → Leaves (Stands base 0 d) (do
      releaseWindow w
      runSynthesized run c.native receiver o block) := by
    intro o plain
    refine (leaves_of_passes (passes_modifyStack _)).bind fun _ => ?_
    refine leaves_withTransient plain fun a => ?_
    exact (leaves_of_passes (passes_pushWindow _ _)).bind fun w => direct receiver w
  rw [dispatch]
  split
  · split
    · refine (Keeps.readStack _).orReleased (fun argument => ?_)
        fun _ m stands _ => stands.released w
      cases argument with
      | smallInt n => exact synthesized (.integer n) rfl
      | double d => exact synthesized (.float d) rfl
      | ref a => exact direct receiver w
    · exact direct receiver w
  · exact (Keeps.promote (fun o plain => keeps_allocate plain) receiver).orReleased
      (fun receiver => direct receiver w) fun _ m stands _ => stands.released w

/-- A call of a method, from its start to its end. -/
lemma callMethod (stands : Stands base 1 d m) (bracketing : Bracketing run)
    (rest : List Activity) (c : MethodObject) (receiver : Value) (w : Window)
    (block : Option Address) (active : m.host.2.active = .method m.thread.frame.id
      (block.filter fun a => (m.world.heap.block? a).isSome) :: rest) :
    Stands base 1 d ((VM.callMethod run c receiver w block).run m).2 := by
  have heap : m.world.pollInterrupt.2.heap = m.world.heap := by
    rw [World.pollInterrupt]
    split
    · rfl
    · rfl
  have polled := stands.world (World.thins_pollInterrupt stands.sound)
  rw [VM.callMethod, run_bind_ok (run_inWorld (fun _ world => world.pollInterrupt) m)]
  split
  · have released : Leaves (Stands base 1 d) (VM.releaseWindow w : VM (σ × Diary) Unit) :=
      leaves_of_passes (passes_modifyStack _)
    exact released.bind (fun _ => Ensures.haltThen fun _ after => after) _ polled
  · let m' : Machine (σ × Diary) := { m with world := m.world.pollInterrupt.2 }
    have own : (frame : VM (σ × Diary) Frame).run m' = (.ok m'.thread.frame, m') := rfl
    rw [run_bind_ok own, Situation.run_landing, Situation.run_inFrame]
    have entered : Stands base 1 d (m'.entered (some c.name) c.scope block none) :=
      (polled.world (w := m'.world.freshFrame.2) polled.sound.thins_refl).thread polled.plain
    have after := entered.attached m'.thread.frame.id rest
      (leaves_dispatch bracketing c (c.receiver.getD receiver) w block) (by
        refine active.trans ?_
        change _ = Activity.method m.thread.frame.id
          (block.filter fun a => (m.world.pollInterrupt.2.heap.block? a).isSome) :: rest
        rw [heap])
    exact after.thread after.plain

lemma leaves_callBlock (bracketing : Bracketing run) (b : BlockObject) (w : Window)
    (block : Option Address) (d : Diary) : Leaves (Stands base 0 d) (callBlock run b w block) := by
  refine leaves_inFrame ?_
  split
  · exact bracketing _ _ _ _ base d
  · refine Leaves.ensuring ?_ fun m stands => stands.released w
    refine (leaves_of_keeps (Keeps.parameters w _ _ true true)).bind fun values => ?_
    refine (leaves_of_keeps (keeps_allocate rfl)).bind fun _ => ?_
    exact (leaves_of_passes (passes_pushWindow _ _)).bind fun params => bracketing _ _ _ _ base d

lemma leaves_halted (w : Window) (h : Halt) (d : Diary) : Leaves (Stands base 0 d) (do
    releaseWindow w
    halt h : VM (σ × Diary) α) :=
  (leaves_of_passes (passes_modifyStack _)).bind fun _ => Ensures.halt fun _ after => after

lemma leaves_yieldBlock (bracketing : Bracketing run) (w : Window) (d : Diary) :
    Leaves (Stands base 0 d) (yieldBlock run w) := by
  refine (leaves_of_passes Passes.frame).bind fun f => ?_
  split
  · exact leaves_halted w _ d
  · refine (leaves_of_passes (Passes.object? _)).bind fun found => ?_
    split
    · exact leaves_callBlock bracketing _ w none d
    · exact (leaves_of_passes (Passes.read _)).bind fun type => leaves_halted w _ d

/-- A call that has been noted. -/
lemma callee (stands : Stands base 1 d m) (bracketing : Bracketing run)
    (rest : List Activity) (c : Callee) (w : Window) (active : m.host.2.active = .of m c :: rest) :
    Stands base 1 d ((VM.callee run w c).run m).2 := by
  cases c with
  | method o receiver block =>
    refine stands.callMethod bracketing rest o receiver w block (active.trans ?_)
    simp only [Activity.of, stands.object?]
  | block a block =>
    refine stands.covered (Diary.covered_of_passer active fun _ _ => rfl) fun d => ?_
    refine (leaves_of_passes (Passes.object? a)).bind fun found => ?_
    split
    · exact leaves_callBlock bracketing _ w block d
    · exact leaves_halted w _ d
  | «yield» =>
    exact stands.covered (Diary.covered_of_passer active fun _ _ => rfl)
      (leaves_yieldBlock bracketing w)

/-- A call is noted for as long as it lasts. -/
lemma leaves_loggedCall (bracketing : Bracketing run) (c : Callee) (w : Window) (d : Diary) :
    Leaves (Stands base 0 d) (loggedCall run c w) := by
  intro m stands
  let call := Activity.of m c
  let m' : Machine (σ × Diary) := { m with host := (m.host.1, m.host.2.calls call) }
  have started : Stands base 1 (m.host.2.calls call) m' :=
    ⟨stands.sound, stands.plain, stands.frames, stands.bracketed.calls call, .refl _⟩
  have same : Activity.of m' c = call := by cases c <;> rfl
  have after := started.callee bracketing m.host.2.active c w (by rw [same]; rfl)
  let m'' : Machine (σ × Diary) := ((VM.callee run w c).run m').2
  rw [loggedCall, run_bind_ok (run_read _ m), Situation.activity_eq, run_bind_ok (run_read _ m)]
  let returned : Machine (σ × Diary) := { m'' with host := (m''.host.1, m''.host.2.returns) }
  change Stands base 0 d { returned with
    host := (returned.host.1, returned.host.2.ends ⟨m.point, returned.point⟩) }
  obtain ⟨new, later⟩ := after.later
  -- What was due without the innermost call is due when that call has returned.
  have frames : ∀ a b, returned.world.heap.block? a = some b →
      b.callingFrame = returned.host.2.due base 0 a := by
    intro a b here
    rw [after.frames a b here, Diary.due, Diary.due, List.drop_one]
    rfl
  have later' : Diary.LaterBy new m.host.2 returned.host.2 := by
    obtain ⟨points, spans, noted⟩ := later
    refine ⟨points, spans, ?_⟩
    change m''.host.2.returns = _
    rw [noted]
    rfl
  have neutral : Span.Neutral ⟨m.point, returned.point⟩ := by
    refine ⟨new, later'.born, fun a b here => ⟨fun fresh => ?_, fun old b' there => ?_⟩⟩
    · rw [frames a b here, later'.due, if_pos fresh]
    · rw [frames a b here, later'.due, if_neg old]
      exact (stands.frames a b' there).symm
  refine ⟨after.sound, after.plain, frames, ⟨after.bracketed.points, fun s mem => ?_⟩,
    stands.later.trans (.trans ⟨new, later'⟩ (Diary.later_ends _ _))⟩
  rcases List.mem_cons.mp mem with rfl | old
  · exact neutral
  · exact after.bracketed.spans s old

lemma leaves_inEnv (env : Option Env) {x : VM (σ × Diary) α} (leaves : Leaves (Stands base k d) x) :
    Leaves (Stands base k d) (inEnv env x) := by
  cases env with
  | none => exact leaves
  | some e =>
    intro m stands
    have after := leaves (enterEnv e m) (stands.thread stands.plain)
    exact after.thread after.plain

lemma leaves_childEnv (method : Option String) (outer block : Option Address) :
    Leaves (Stands base k d) (childEnv method outer block : VM (σ × Diary) Env) :=
  (leaves_of_passes (passes_inWorld fun _ _ sound => sound.thins_refl)).bind fun _ =>
    leaves_of_passes (Passes.read _)

/-- Nothing is born of most deeds. -/
lemma leaves_deed (dd : Deed σ) (other : ∀ o, dd ≠ .allocate o) :
    Leaves (Stands base 0 d) (VM.deed dd : VM (σ × Diary) Value) := by
  have inWorld : ∀ {f : Stacks → World → Unit × World},
      (∀ argStacks (w : World), w.heap.Sound → w.heap.Thins (f argStacks w).2.heap) →
      Leaves (Stands base 0 d) (do
        VM.inWorld f
        VM.nil : VM (σ × Diary) Value) :=
    fun thins => (leaves_of_passes (passes_inWorld thins)).bind fun _ => leaves_of_passes Passes.nil
  cases dd with
  | allocate o => exact absurd rfl (other o)
  | edit a e =>
    exact inWorld fun _ w sound => sound.thins_modifyPayload a fun o => e.block?_apply o
  | symbol name =>
    refine (leaves_of_passes (passes_inWorld fun roots w sound =>
      World.thins_intern sound roots name)).bind fun _ => ?_
    exact (leaves_of_keeps (Keeps.ofHeap _)).bind fun _ => leaves_of_keeps (Keeps.pure _)
  | setGlobal name v => exact inWorld fun _ w sound => World.thins_setGlobal sound name v
  | addRoots vs =>
    exact inWorld fun _ w sound => World.thins_foldl
      (fun _ v sound => World.thins_addRoot sound v) vs sound
  | removeRoots vs =>
    exact inWorld fun _ w sound => World.thins_foldl
      (fun _ v sound => World.thins_removeRoot sound v) vs sound
  | collect =>
    exact (leaves_of_passes (passes_inWorld fun roots w sound =>
      World.thins_collect sound roots)).bind fun ran => leaves_of_passes (Passes.ofBool ran)
  | enableCollection on =>
    refine inWorld fun _ w sound => ?_
    cases on with
    | false => exact sound.thins_of_allocators rfl rfl
    | true => exact sound.thins_of_allocators rfl rfl
  | installHandlers | requestInterrupt | requestCollection =>
    exact inWorld fun _ w sound => sound.thins_refl
  | setLine line =>
    exact (leaves_of_passes (passes_onThread fun _ => rfl)).bind
      fun _ => leaves_of_passes Passes.nil
  | share f =>
    have shared : Leaves (Stands base 0 d) (VM.shared f : VM (σ × Diary) Unit) := fun m stands =>
      ⟨stands.sound, stands.plain, stands.frames, stands.bracketed, stands.later⟩
    exact shared.bind fun _ => leaves_of_passes Passes.nil

/-- A new object is noted; if it is a block it knows no frame. -/
lemma leaves_born (o : Object) :
    Leaves (Stands base 0 d) (loggedDeed (.allocate o) : VM (σ × Diary) _) := by
  intro m stands
  have blocks := (World.blocks_allocate stands.sound m.argStacks (o.withCallingFrame none)).2
  have sound := (World.blocks_allocate stands.sound m.argStacks (o.withCallingFrame none)).1
  have allocated := Machine.run_allocate m (o.withCallingFrame none)
  let w' := (m.world.allocate m.argStacks (o.withCallingFrame none)).2
  rw [loggedDeed, run_bind_ok (run_outcome _ m)]
  cases answer : (m.world.allocate m.argStacks (o.withCallingFrame none)).1 with
  | error f =>
    rw [answer] at allocated
    have ran : (VM.deed (.allocate o)).run m =
        (.error (.fault (.heap f)), { m with world := w' }) := run_bind_error allocated
    rw [ran]
    refine ⟨sound, stands.plain, fun a b here => ?_, stands.bracketed.bears _, ?_⟩
    · rcases blocks a b here with ⟨_, old⟩ | ⟨new, _⟩
      · change b.callingFrame = (m.host.2.bears []).due base 0 a
        rw [Diary.bears_nil]
        exact stands.frames a b old
      · rw [answer] at new
        cases new
    · exact stands.later.trans (Diary.later_bears [] _)
  | ok made =>
    rw [answer] at allocated
    have ran : (VM.deed (.allocate o)).run m = (.ok (.ref made), { m with world := w' }) :=
      run_bind_ok allocated
    rw [ran]
    refine ⟨sound, stands.plain, fun a b here => ?_, stands.bracketed.bears _, ?_⟩
    · change b.callingFrame = (m.host.2.bears [made]).due base 0 a
      rw [Diary.due_bears]
      rcases blocks a b here with ⟨other, old⟩ | ⟨new, made'⟩
      · rw [if_neg fun mem => other (answer.trans (congrArg _ (List.mem_singleton.mp mem).symm))]
        exact stands.frames a b old
      · rw [answer] at new
        rw [if_pos (List.mem_singleton.mpr (Except.ok.inj new).symm)]
        have detached := o.detached_withCallingFrame
        rw [Object.Detached, made'] at detached
        exact detached
    · exact stands.later.trans (Diary.later_bears [made] _)

lemma leaves_loggedDeed (dd : Deed σ) :
    Leaves (Stands base 0 d) (loggedDeed dd : VM (σ × Diary) _) := by
  by_cases allocates : ∃ o, dd = .allocate o
  · obtain ⟨o, rfl⟩ := allocates
    exact leaves_born o
  · have other : ∀ o, dd ≠ .allocate o := fun o same => allocates ⟨o, same⟩
    have none_born : ∀ r, dd.births r = [] := by
      intro r
      cases dd with
      | allocate o => exact absurd rfl (other o)
      | _ => rfl
    refine (leaves_deed dd other).outcome.bind fun r => ?_
    rw [none_born]
    refine fun m stands => ⟨stands.sound, stands.plain, fun a b here => ?_,
      stands.bracketed.bears [], stands.later.trans (Diary.later_bears [] _)⟩
    change b.callingFrame = (m.host.2.bears []).due base 0 a
    rw [Diary.bears_nil]
    exact stands.frames a b here

lemma leaves_marked : Leaves (Stands base 0 d) (marked : VM (σ × Diary) Unit) := by
  intro m stands
  refine ⟨stands.sound, stands.plain, stands.frames, ⟨fun p mem => ?_, stands.bracketed.spans⟩,
    stands.later.trans (Diary.later_mark m.point _)⟩
  rcases List.mem_cons.mp mem with rfl | old
  · exact stands.frames
  · exact stands.bracketed.points p old

lemma leaves_play {run : Runner (σ × Diary)} (bracketing : Bracketing run) (c : Conduct σ)
    (d : Diary) : Leaves (Stands base 0 d) (c.play run) := by
  induction c with
  | done r => exact leaves_marked.bind fun _ => Ensures.ofOutcome fun _ after => after
  | look next ih =>
    exact leaves_marked.bind fun _ => (leaves_of_passes (Passes.read _)).bind fun m => ih _
  | deed dd next ih => exact leaves_marked.bind fun _ => (leaves_loggedDeed dd).bind fun r => ih r
  | stack f next ih =>
    exact leaves_marked.bind fun _ => (leaves_of_passes (passes_modifyStack f)).bind fun _ => ih
  | child env method outer block next ih =>
    exact leaves_marked.bind fun _ =>
      (leaves_inEnv env (leaves_childEnv method outer block)).bind fun e => ih e
  | call env callee w next ih =>
    exact leaves_marked.bind fun _ =>
      (leaves_inEnv env (leaves_loggedCall bracketing callee w d)).bind fun r => ih r

lemma bracketing_runnerAt (table : ConductTable σ) (depth : Nat) :
    Bracketing (Conduct.runnerAt table depth) := by
  induction depth with
  | zero => exact fun native receiver w block base d => leaves_halted w _ d
  | succ depth ih =>
    intro native receiver w block base d
    cases native with
    | primitive p =>
      exact Ensures.runPrimitive (fun o plain => keeps_allocate plain)
        (fun r m stands _ => stands.released w) p receiver
    | body i => exact leaves_play ih _ d

end Stands

namespace Machine

/-- Nothing has been noted yet. -/
structure Opens (m : Machine (σ × Diary)) : Prop where
  sound : m.world.heap.Sound
  plain : ∀ c ∈ m.thread.transients, c.payload.block? = none
  diary : m.host.2 = .blank

lemma Opens.stands (opens : m.Opens) : Stands m.world.heap.callingFrame? 0 m.host.2 m := by
  refine ⟨opens.sound, opens.plain, fun a b here => ?_, ?_, .refl _⟩
  · rw [opens.diary]
    change _ = (m.world.heap.callingFrame? a).or none
    rw [Option.or_none, Heap.callingFrame?_eq, here]
    rfl
  · rw [opens.diary]
    exact ⟨fun _ mem => (by cases mem), fun _ mem => (by cases mem)⟩

lemma opens_create {s : Settings} {file : String} {shared : σ}
    (created : create s file (shared, Diary.blank) = .ok m) :
    m.Opens ∧ ∀ a, m.world.heap.callingFrame? a = none := by
  obtain ⟨w, made, started⟩ := ok_of_bind created
  obtain ⟨sound, nothing⟩ := World.blockless_create made
  obtain rfl := Except.ok.inj started
  refine ⟨⟨sound, fun c mem => absurd mem (Array.not_mem_empty c), rfl⟩, fun a => ?_⟩
  exact congrArg (Option.bind · BlockObject.callingFrame) (nothing a)

/-- The outermost of the calls that were passed the block was made in this frame. -/
def PassedFrom (id : FrameId) (a : Address) (active : List Activity) : Prop :=
  ∃ inner outer, active = inner ++ .method id (some a) :: outer ∧
    ∀ id', .method id' (some a) ∉ outer

/-- What the diary of a run that began here says of the frames that blocks know. -/
structure BracketsFrames (before : Machine (σ × Diary)) (d : Diary) : Prop where
  /-- While a block is passed it knows the frame of the outermost caller, and otherwise none. -/
  exact : ∀ p ∈ d.points, ∀ a b, p.world.heap.block? a = some b →
    (a ∈ p.born ∨ before.world.heap.callingFrame? a = none) →
      ∀ id, b.callingFrame = some id ↔ PassedFrom id a p.active
  /-- A frame that was set before the run stays. -/
  older : ∀ p ∈ d.points, ∀ a b, p.world.heap.block? a = some b → a ∉ p.born →
    ∀ id, before.world.heap.callingFrame? a = some id → b.callingFrame = some id
  /-- Every call that was made leaves the frames as they were, -/
  neutral : ∀ s ∈ d.spans, s.Neutral
  /-- and all have come to their end. -/
  returned : d.active = []

/-- The frames of blocks are bracketed by calls, whatever native code does. -/
theorem bracketsFrames (table : ConductTable σ) (depth : Nat) (c : Conduct σ)
    {m : Machine (σ × Diary)} (opens : m.Opens) :
    m.BracketsFrames ((c.play (Conduct.runnerAt table depth)).run m).2.host.2 := by
  have after := Stands.leaves_play (Stands.bracketing_runnerAt table depth) c _ m opens.stands
  refine ⟨fun p mem a b here quiet id => ?_, fun p mem a b here old id known => ?_,
    after.bracketed.spans, ?_⟩
  · have due : dueFrame m.world.heap.callingFrame? p.born p.active a = outermost a p.active := by
      rw [dueFrame]
      split
      · rfl
      · rename_i old
        rw [quiet.resolve_left old, Option.none_or]
    rw [after.bracketed.points p mem a b here, due]
    exact outermost_eq_some_iff
  · rw [after.bracketed.points p mem a b here, dueFrame, if_neg old, known]
    rfl
  · obtain ⟨new, points, spans, noted⟩ := after.later
    rw [noted, opens.diary]
    rfl

/-- One size class, whose blocks hold eight cells. -/
def plainSettings : Settings := { Settings.standard with sizeClasses := [4064], initialBlocks := 1 }

def idle : Machine (Unit × Diary) :=
  (create plainSettings "main" ((), .blank)).toOption.get (by decide +kernel)

lemma opens_idle : idle.Opens ∧ ∀ a, idle.world.heap.callingFrame? a = none :=
  opens_create (eq_ok_get _)

def handOn : MethodObject := ⟨"hand_on", .body 0, none, none, false⟩

def giveUp : MethodObject := ⟨"give_up", .body 1, none, none, false⟩

/-- The inner of the two calls ends in a fault. -/
def handers : ConductTable Unit := fun i receiver w block =>
  match i with
  | 0 => .call none (.method giveUp receiver block) w .done
  | _ => .done (.error (.fault .exhaustedPop))

def handing : Conduct Unit :=
  .deed (.allocate (.block (.closure (.body 2) none (.smallInt 0) none))) fun r =>
    .call none (.method handOn (.smallInt 0) (r.toOption.bind Value.cell?)) (.fresh 0 0 false) .done

def handed : Diary := ((handing.play (Conduct.runnerAt handers 3)).run idle).2.host.2

/-- The block knows the frame of the first caller during both calls, and none before and after. -/
theorem bracketsFrames_handing : idle.Opens ∧ idle.BracketsFrames handed ∧
    handed.spans.length = 2 ∧
    handed.born.map (fun a => handed.points.map fun p => p.world.heap.callingFrame? a) =
      [[none, some ⟨1⟩, some ⟨1⟩, some ⟨1⟩, none, none]] := by
  refine ⟨opens_idle.1, bracketsFrames handers 3 handing opens_idle.1, ?_, ?_⟩
  · decide +kernel
  · decide +kernel

end Machine

end CellMachine
