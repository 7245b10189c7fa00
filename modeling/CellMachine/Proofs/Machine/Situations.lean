import CellMachine.Proofs.Machine.Bodies
import CellMachine.Proofs.Machine.CallingFrames

/-!
# Situations

Where a thread stands among calls: which of them have not returned, in which frame it runs
and whose frames wait for it. The frame that a block knows is that of the caller of the
outermost of these calls to which the block was passed; a block that was passed to none of
them knows no frame. What a machine does outside of calls leaves the situation as it is, and
a call changes it for the length of its body only.

All this is given up once a block has been dropped while a call with it was running.
-/

namespace CellMachine

/-- The caller, if the call was passed the block. -/
def Activity.passer (a : Address) : Activity → Option FrameId
  | method caller passed => if passed = some a then some caller else none
  | block _ => none

/-- A call passes no other block than its own. -/
lemma Activity.passer_of_ne {a b : Address} (other : a ≠ b) (caller : FrameId) :
    (Activity.method caller (some a)).passer b = none :=
  if_neg fun same => other (Option.some.inj same)

def Activity.caller? : Activity → Option FrameId
  | method caller _ => some caller
  | block _ => none

/-- The caller of the outermost call to which the block was passed; the innermost call comes
first in the list. -/
def outermost (a : Address) : List Activity → Option FrameId
  | [] => none
  | call :: rest => (outermost a rest).or (call.passer a)

/-- The frames that made these calls. -/
def callersOf (active : List Activity) : List FrameId := active.filterMap Activity.caller?

/-- A call that passes no block is passed over. -/
lemma outermost_cons_of_none {a : Address} {call : Activity} (passes : call.passer a = none)
    (rest : List Activity) : outermost a (call :: rest) = outermost a rest := by
  rw [outermost, passes, Option.or_none]

lemma passer_eq_some_iff {a : Address} {call : Activity} {id : FrameId} :
    call.passer a = some id ↔ call = .method id (some a) := by
  cases call with
  | block b =>
    exact ⟨fun impossible => (by cases impossible), fun impossible => by cases impossible⟩
  | method caller passed =>
    rw [Activity.passer, Activity.method.injEq]
    constructor
    · intro passes
      split at passes
      · exact ⟨Option.some.inj passes, ‹_›⟩
      · cases passes
    · rintro ⟨rfl, rfl⟩
      exact if_pos rfl

/-- There is such a frame unless the block was passed to none of the calls, -/
theorem outermost_eq_none_iff {a : Address} {active : List Activity} :
    outermost a active = none ↔ ∀ id, Activity.method id (some a) ∉ active := by
  induction active with
  | nil => simp [outermost]
  | cons call rest ih =>
    rw [outermost, Option.or_eq_none_iff, ih, Option.eq_none_iff_forall_ne_some]
    simp only [ne_eq, passer_eq_some_iff, List.mem_cons, not_or, eq_comm (a := call)]
    exact ⟨fun h id => ⟨h.2 id, h.1 id⟩, fun h => ⟨fun id => (h id).2, fun id => (h id).1⟩⟩

/-- and then none of the calls further out was passed it. -/
theorem outermost_eq_some_iff {a : Address} {active : List Activity} {id : FrameId} :
    outermost a active = some id ↔ ∃ inner outer, active = inner ++ .method id (some a) :: outer ∧
      ∀ id, Activity.method id (some a) ∉ outer := by
  induction active with
  | nil => simp [outermost]
  | cons call rest ih =>
    rw [outermost, Option.or_eq_some_iff, ih, outermost_eq_none_iff, passer_eq_some_iff]
    constructor
    · rintro (⟨inner, outer, rfl, last⟩ | ⟨last, rfl⟩)
      · exact ⟨call :: inner, outer, rfl, last⟩
      · exact ⟨[], rest, rfl, last⟩
    · rintro ⟨inner, outer, same, last⟩
      cases inner with
      | nil =>
        obtain ⟨rfl, rfl⟩ := List.cons.inj same
        exact .inr ⟨last, rfl⟩
      | cons _ inner =>
        obtain ⟨rfl, rfl⟩ := List.cons.inj same
        exact .inl ⟨inner, outer, rfl, last⟩

lemma mem_callersOf_of_outermost {a : Address} {active : List Activity} {id : FrameId}
    (passes : outermost a active = some id) : id ∈ callersOf active := by
  obtain ⟨inner, outer, rfl, _⟩ := outermost_eq_some_iff.mp passes
  exact List.mem_filterMap.mpr ⟨.method id (some a), by simp, rfl⟩

/-- Where a thread stands. -/
structure Situation where
  active : List Activity
  /-- No frame from this number on has been made yet, at the latest. -/
  least : Nat
  id : FrameId
  target : Option FrameId
  callers : List Frame

namespace Situation

variable {σ α β : Type}

structure Fits (s : Situation) (m : Machine σ) : Prop where
  frames : ∀ a, m.world.heap.callingFrame? a = outermost a s.active
  transients : ∀ c ∈ m.thread.transients, c.payload.block? = none
  reserved : s.least ≤ m.world.nextFrame
  id : m.thread.frame.id = s.id
  target : m.thread.frame.breakTarget = s.target
  callers : m.thread.callers = s.callers

/-- The machine is in the situation and the program that drives it in some state, unless a
block was dropped too early. -/
def Holds (s : Situation) (J : σ → Prop) (m : Machine σ) : Prop :=
  m.world.heap.Sound ∧ (m.world.heap.Bereft ∨ (s.Fits m ∧ J m.host))

variable {s s' : Situation} {J J' : σ → Prop} {m : Machine σ}

/-- Neither the argument stack nor the state of the program is part of a situation. -/
lemma Fits.congr (fits : s.Fits m) (stack : Array Value) (host : σ) :
    s.Fits ⟨m.world, { m.thread with stack }, m.waiting, host⟩ :=
  ⟨fits.frames, fits.transients, fits.reserved, fits.id, fits.target, fits.callers⟩

lemma Fits.withTransients (fits : s.Fits m) {cells : Array (Cell Object)}
    (plain : ∀ c ∈ cells, c.payload.block? = none) :
    s.Fits { m with thread := { m.thread with transients := cells } } :=
  ⟨fits.frames, plain, fits.reserved, fits.id, fits.target, fits.callers⟩

lemma Holds.mono (holds : s.Holds J m) (h : s.Fits m → J m.host → J' m.host) : s.Holds J' m := by
  obtain ⟨sound, bereft | ⟨fits, j⟩⟩ := holds
  · exact ⟨sound, .inl bereft⟩
  · exact ⟨sound, .inr ⟨fits, h fits j⟩⟩

/-- Only the situation changes. -/
lemma Holds.shift (holds : s.Holds J m) {m' : Machine σ} (world : m'.world = m.world)
    (host : m'.host = m.host) (h : s.Fits m → s'.Fits m') : s'.Holds J m' := by
  obtain ⟨sound, rest⟩ := holds
  rw [Holds, world, host]
  exact ⟨sound, rest.imp_right fun both => ⟨h both.1, both.2⟩⟩

lemma Holds.world (holds : s.Holds J m) {w : World} (follows : m.world.Follows w) :
    s.Holds J { m with world := w } := by
  refine ⟨follows.heap.sound, ?_⟩
  by_cases bereft : w.heap.Bereft
  · exact .inl bereft
  · obtain ⟨_, before | ⟨fits, j⟩⟩ := holds
    · exact absurd (follows.heap.bereft before) bereft
    · refine .inr ⟨⟨fun a => ?_, fits.transients, ?_, fits.id, fits.target, fits.callers⟩, j⟩
      · exact (follows.heap.frames bereft a).trans (fits.frames a)
      · exact fits.reserved.trans follows.frames

lemma Holds.sound (holds : s.Holds J m) : m.world.heap.Sound := holds.1

open VM

lemma passes_inWorld {f : Stacks → World → α × World}
    (follows : ∀ argStacks (w : World), w.heap.Sound → w.Follows (f argStacks w).2) :
    Passes (s.Holds J) (inWorld f) :=
  fun _ holds => ⟨⟨_, rfl⟩, holds.world (follows _ _ holds.sound)⟩

/-- A change of the thread that leaves its frames and its cells alone, such as one of the line. -/
lemma passes_onThread {f : ThreadState → α × ThreadState}
    (transients : ∀ t, (f t).2.transients = t.transients) (id : ∀ t, (f t).2.frame.id = t.frame.id)
    (target : ∀ t, (f t).2.frame.breakTarget = t.frame.breakTarget)
    (callers : ∀ t, (f t).2.callers = t.callers) : Passes (s.Holds J) (onThread f) := by
  refine fun m holds => ⟨⟨_, rfl⟩, holds.shift rfl rfl fun fits => ?_⟩
  exact ⟨fits.frames, transients m.thread ▸ fits.transients, fits.reserved,
    (id m.thread).trans fits.id, (target m.thread).trans fits.target,
    (callers m.thread).trans fits.callers⟩

lemma Holds.onStack (holds : s.Holds J m) (stack : Array Value) :
    s.Holds J { m with thread := { m.thread with stack } } :=
  holds.shift rfl rfl fun fits => fits.congr stack m.host

lemma Holds.released (holds : s.Holds J m) (w : Window) : s.Holds J (released w m) :=
  holds.onStack _

lemma passes_pushWindow (values : List Value) (hasKeywords : Bool) :
    Passes (s.Holds J) (pushWindow values hasKeywords) :=
  fun _ holds => ⟨⟨_, rfl⟩, holds.onStack _⟩

lemma passes_releaseWindow (w : Window) : Passes (s.Holds J) (releaseWindow w) :=
  fun _ holds => ⟨⟨_, rfl⟩, holds.onStack _⟩

lemma keeps_onStack (f : Array Value → Except Fault α × Array Value) :
    Keeps (s.Holds J) (onStack f) :=
  Passes.bind (P := s.Holds J) (fun _ holds => ⟨⟨_, rfl⟩, holds.onStack _⟩) fun _ => Keeps.ofFault _

lemma keeps_allocate {o : Object} (detached : o.Detached) : Keeps (s.Holds J) (allocate o) :=
  (passes_inWorld fun roots _ sound => World.follows_allocate sound roots detached).bind
    fun _ => Keeps.ofHeap _

lemma ensures_withTransient {o : Object} (plain : o.block? = none) {x : Address → VM σ α}
    {K : Except Halt α → σ → Prop}
    (h : ∀ a, Ensures (s.Holds J) (x a) fun r => s.Holds (K r)) :
    Ensures (s.Holds J) (withTransient o x) fun r => s.Holds (K r) := by
  refine Passes.bind (P := s.Holds J) (fun m holds => ⟨⟨_, rfl⟩, ?_⟩) fun a => ?_
  · refine holds.shift rfl rfl fun fits => fits.withTransients fun c mem => ?_
    rcases Array.mem_push.mp mem with old | rfl
    · exact fits.transients c old
    · exact plain
  · refine Ensures.ensuring ((h a).conseq fun r m holds => ?_)
    refine holds.shift rfl rfl fun fits => fits.withTransients fun c mem => ?_
    rw [← Array.mem_toList_iff, Array.toList_pop] at mem
    exact fits.transients c (Array.mem_toList_iff.mp (List.mem_of_mem_dropLast mem))

/-- A block was dropped too early. -/
def Lost (m : Machine σ) : Prop := m.world.heap.Sound ∧ m.world.heap.Bereft

/-- The computation leaves the thread in its situation, and finds no block again that was
lost. -/
structure Leads (s : Situation) (P : Machine σ → Prop) (x : VM σ α)
    (K : Except Halt α → σ → Prop) : Prop where
  lost : ∀ m, Lost m → Lost (x.run m).2
  fits : ∀ m, m.world.heap.Sound → s.Fits m → P m → s.Holds (K (x.run m).1) (x.run m).2

variable {P Q : Machine σ → Prop} {x : VM σ α} {K : Except Halt α → σ → Prop}

/-- It is enough that everything else that is the case remains so. -/
lemma leads_of_ensures (h : ∀ E : Prop, Ensures (s.Holds fun host => E ∧ J host) x fun r =>
    s.Holds fun host => E ∧ K r host) : s.Leads (fun m => J m.host) x K := by
  constructor
  · rintro m ⟨sound, bereft⟩
    obtain ⟨sound', bereft' | ⟨_, impossible, _⟩⟩ := h False m ⟨sound, .inl bereft⟩
    · exact ⟨sound', bereft'⟩
    · exact impossible.elim
  · intro m sound fits j
    exact (h True m ⟨sound, .inr ⟨fits, trivial, j⟩⟩).mono fun _ both => both.2

lemma leads_of_keeps (h : ∀ E : Prop, Keeps (s.Holds fun host => E ∧ J host) x) :
    s.Leads (fun m => J m.host) x fun r host => Tame r ∧ J host :=
  leads_of_ensures fun E => (h E).conseq fun _ _ kept => kept.1.mono fun _ j => ⟨j.1, kept.2, j.2⟩

namespace Leads

lemma ensures (leads : s.Leads (fun m => J m.host) x K) (E : Prop) :
    Ensures (s.Holds fun host => E ∧ J host) x fun r => s.Holds fun host => E ∧ K r host := by
  rintro m ⟨sound, bereft | ⟨fits, e, j⟩⟩
  · obtain ⟨sound', bereft'⟩ := leads.lost m ⟨sound, bereft⟩
    exact ⟨sound', .inl bereft'⟩
  · exact (leads.fits m sound fits j).mono fun _ k => ⟨e, k⟩

lemma before (leads : s.Leads Q x K) (first : ∀ m, s.Fits m → P m → Q m) : s.Leads P x K :=
  ⟨leads.lost, fun m sound fits p => leads.fits m sound fits (first m fits p)⟩

lemma conseq (leads : s.Leads P x K) {K' : Except Halt α → σ → Prop}
    (last : ∀ r host, K r host → K' r host) : s.Leads P x K' :=
  ⟨leads.lost, fun m sound fits p => (leads.fits m sound fits p).mono fun _ => last _ _⟩

/-- What does not depend on the machine may be presupposed. -/
lemma given {E : Prop} (lost : ∀ m, Lost m → Lost (x.run m).2) (h : E → s.Leads P x K) :
    s.Leads (fun m => E ∧ P m) x K :=
  ⟨lost, fun m sound fits p => (h p.1).fits m sound fits p.2⟩

/-- Calls that change no calling frame. -/
lemma settled {active : List Activity} (leads : Leads { s with active } P x K)
    (same : ∀ a, outermost a active = outermost a s.active) : s.Leads P x K := by
  refine ⟨leads.lost, fun m sound fits p => ?_⟩
  refine (leads.fits m sound ⟨fun a => (fits.frames a).trans (same a).symm, fits.transients,
    fits.reserved, fits.id, fits.target, fits.callers⟩ p).shift rfl rfl fun after => ?_
  exact ⟨fun a => (after.frames a).trans (same a), after.transients, after.reserved, after.id,
    after.target, after.callers⟩

/-- What does not depend on the machine is still the case. -/
lemma also (leads : s.Leads P x K) (E : Prop) :
    s.Leads (fun m => E ∧ P m) x fun r host => E ∧ K r host :=
  ⟨leads.lost, fun m sound fits p => (leads.fits m sound fits p.2).mono fun _ k => ⟨p.1, k⟩⟩

lemma pure {a : α} (h : ∀ m, P m → K (.ok a) m.host) : s.Leads P (Pure.pure a) K :=
  ⟨fun _ lost => lost, fun m sound fits p => ⟨sound, .inr ⟨fits, h m p⟩⟩⟩

lemma ofOutcome {r : Except Halt α} (h : ∀ m, P m → K r m.host) : s.Leads P (VM.ofOutcome r) K := by
  cases r with
  | ok a => exact pure h
  | error e => exact ⟨fun _ lost => lost, fun m sound fits p => ⟨sound, .inr ⟨fits, h m p⟩⟩⟩

lemma bind {R : Except Halt β → σ → Prop} {y : VM σ β} {f : β → VM σ α} (first : s.Leads P y R)
    (rest : ∀ b, s.Leads (fun m => R (.ok b) m.host) (f b) K)
    (halted : ∀ e host, R (.error e) host → K (.error e) host) : s.Leads P (y >>= f) K := by
  constructor
  · intro m lost
    have after := first.lost m lost
    rw [run_bind]
    rcases hy : y.run m with ⟨e | b, m'⟩
    · rw [hy] at after
      exact after
    · rw [hy] at after
      exact (rest b).lost m' after
  · intro m sound fits p
    have after := first.fits m sound fits p
    rw [run_bind]
    rcases hy : y.run m with ⟨e | b, m'⟩
    · rw [hy] at after
      exact after.mono fun _ => halted e m'.host
    · rw [hy] at after
      obtain ⟨sound', bereft' | ⟨fits', here⟩⟩ := after
      · obtain ⟨sound'', bereft''⟩ := (rest b).lost m' ⟨sound', bereft'⟩
        exact ⟨sound'', .inl bereft''⟩
      · exact (rest b).fits m' sound' fits' here

/-- A first part that cannot fail and changes nothing of this. -/
lemma pass {y : VM σ β} {f : β → VM σ α}
    (first : ∀ E : Prop, Passes (s.Holds fun host => E ∧ J host) y)
    (rest : ∀ b, s.Leads (fun m => J m.host) (f b) K) : s.Leads (fun m => J m.host) (y >>= f) K :=
  leads_of_ensures fun E => (first E).bind fun b => (rest b).ensures E

lemma outcome (leads : s.Leads P x K) :
    s.Leads P (VM.outcome x) fun r host => ∃ q, r = .ok q ∧ K q host :=
  ⟨leads.lost, fun m sound fits p => (leads.fits m sound fits p).mono fun _ k => ⟨_, rfl, k⟩⟩

lemma onHost {g : σ → β × σ} {f : β → VM σ α} (h : ∀ b, s.Leads Q (f b) K)
    (seen : ∀ m, P m → Q { m with host := (g m.host).2 }) : s.Leads P (VM.onHost g >>= f) K :=
  ⟨fun m => (h _).lost { m with host := (g m.host).2 }, fun m sound fits p =>
    (h (g m.host).1).fits { m with host := (g m.host).2 } sound
      (fits.congr m.thread.stack (g m.host).2) (seen m p)⟩

lemma read {g : Machine σ → β} {f : β → VM σ α} {Q : β → Machine σ → Prop}
    (h : ∀ b, s.Leads (Q b) (f b) K) (seen : ∀ m, s.Fits m → P m → Q (g m) m) :
    s.Leads P (VM.read g >>= f) K :=
  ⟨fun m => (h (g m)).lost m, fun m sound fits p => (h (g m)).fits m sound fits (seen m fits p)⟩

lemma inWorld {g : Stacks → World → β × World} {f : β → VM σ α}
    (follows : ∀ argStacks (w : World), w.heap.Sound → w.Follows (g argStacks w).2)
    (h : ∀ b, s.Leads P (f b) K)
    (same : ∀ m, P m → P { m with world := (g m.argStacks m.world).2 }) :
    s.Leads P (VM.inWorld g >>= f) K := by
  constructor
  · rintro m ⟨sound, bereft⟩
    have after := (follows m.argStacks m.world sound).heap
    exact (h _).lost _ ⟨after.sound, after.bereft bereft⟩
  · intro m sound fits p
    have after : s.Holds (fun _ => True) _ :=
      Holds.world ⟨sound, .inr ⟨fits, trivial⟩⟩ (follows m.argStacks m.world sound)
    obtain ⟨sound', bereft' | ⟨fits', _⟩⟩ := after
    · obtain ⟨sound'', bereft''⟩ := (h (g m.argStacks m.world).1).lost _ ⟨sound', bereft'⟩
      exact ⟨sound'', .inl bereft''⟩
    · exact (h _).fits _ sound' fits' (same m p)

end Leads

/-- In a frame of its own, called from another. -/
def enter (s : Situation) (id : FrameId) (target : Option FrameId) (f : Frame) : Situation :=
  ⟨s.active, id.number + 1, id, target, f :: s.callers⟩

end Situation

/-- The machine at the start of a computation in a frame of its own. -/
def Machine.entered {σ : Type} (m : Machine σ) (method : Option String)
    (outer block : Option Address) (target : Option FrameId) : Machine σ :=
  { m with
    world := m.world.freshFrame.2
    thread := m.thread.enter m.world.freshFrame.1 method outer block target }

namespace Situation

open VM

variable {σ α β : Type} {s s' : Situation} {J J' : σ → Prop} {m : Machine σ}
  {P Q : Machine σ → Prop} {x : VM σ α} {K : Except Halt α → σ → Prop}

lemma run_inFrame (method : Option String) (outer block : Option Address)
    (target : Option FrameId) (x : VM σ α) (m : Machine σ) :
    (inFrame method outer block target x).run m =
      ((x.run (m.entered method outer block target)).1,
        leave (x.run (m.entered method outer block target)).2) := rfl

/-- A frame that is entered is left again, and it is a new one. -/
lemma leads_inFrame {method : Option String} {outer block : Option Address}
    {target : Option FrameId}
    (h : ∀ id f, (s.enter id target f).Leads (fun m => s.least ≤ id.number ∧ P m) x K)
    (entered : ∀ m, P m → P (m.entered method outer block target)) :
    s.Leads P (inFrame method outer block target x) K := by
  constructor
  · intro m lost
    rw [run_inFrame]
    exact (h default default).lost _ lost
  · intro m sound fits p
    rw [run_inFrame]
    have inside := (h ⟨m.world.nextFrame⟩ m.thread.frame).fits
      (m.entered method outer block target) sound
      ⟨fits.frames, fits.transients, le_rfl, rfl, rfl, congrArg _ fits.callers⟩
      ⟨fits.reserved, entered m p⟩
    refine inside.shift rfl rfl fun after => ?_
    have frame : (leave (x.run (m.entered method outer block target)).2).thread.frame =
        m.thread.frame := by
      change List.headD _ _ = _
      rw [after.callers]
      rfl
    have callers : (leave (x.run (m.entered method outer block target)).2).thread.callers =
        s.callers := by
      change List.tail _ = _
      rw [after.callers]
      rfl
    refine ⟨after.frames, after.transients, ?_, frame ▸ fits.id, frame ▸ fits.target, callers⟩
    exact (fits.reserved.trans (Nat.le_succ _)).trans after.reserved

/-- No transient cell is a block. -/
lemma Fits.block? (fits : s.Fits m) (a : Address) :
    (m.object? a).bind Object.block? = (m.world.heap.payload? a).bind Object.block? := by
  cases a with
  | memory word => rfl
  | stack n =>
    change ((m.thread.transients[n]?).map Cell.payload).bind Object.block? = none
    cases here : m.thread.transients[n]? with
    | none => rfl
    | some c => exact fits.transients c (Array.mem_of_getElem? here)

lemma Fits.isDetached (fits : s.Fits m) (a : Address) :
    (isDetached a).run m =
      (.ok (m.world.isBlock a && (outermost a s.active).isNone), m) := by
  rw [VM.isDetached, run_bind_ok (show (VM.object? a).run m = (.ok (m.object? a), m) from rfl),
    ← fits.frames, Heap.callingFrame?, World.isBlock, ← fits.block? a]
  rcases m.object? a with _ | o
  · rfl
  · cases o <;> rfl

lemma isDetached_run (a : Address) (m : Machine σ) :
    ∃ b, (isDetached a).run m = (.ok b, m) := by
  rw [VM.isDetached, run_bind_ok (show (VM.object? a).run m = (.ok (m.object? a), m) from rfl)]
  split
  · exact ⟨_, rfl⟩
  · exact ⟨_, rfl⟩

/-- The machine with another frame for a block. -/
def known (a : Address) (id : Option FrameId) (m : Machine σ) : Machine σ :=
  { m with world := m.world.modifyObject a (Object.withCallingFrame id) }

lemma Lost.known {m : Machine σ} (lost : Lost m) (a : Address) (id : Option FrameId) :
    Lost (known a id m) := by
  refine ⟨lost.1.modifyPayload a _, ?_⟩
  change Heap.Bereft (m.world.heap.modifyPayload a _)
  rw [Heap.Bereft, (m.world.heap.modifyPayload_frame a _).2.2]
  exact lost.2

/-- A call outside of the others that were passed the block sets its frame and clears it. -/
lemma attach_detach {a : Address} {caller : FrameId}
    (h : Leads { s with active := .method caller (some a) :: s.active } (fun m => J m.host) x K)
    (first : outermost a s.active = none) (isBlock : m.world.isBlock a) (sound : m.world.heap.Sound)
    (fits : s.Fits m) (j : J m.host) :
    s.Holds (K (x.run (known a (some caller) m)).1)
      (detach a (x.run (known a (some caller) m)).2) := by
  have passer : ∀ y, a ≠ y →
      outermost y (.method caller (some a) :: s.active) = outermost y s.active :=
    fun y other => outermost_cons_of_none (Activity.passer_of_ne other caller) _
  have attached : Fits { s with active := .method caller (some a) :: s.active }
      (known a (some caller) m) := by
    refine ⟨fun y => ?_, fits.transients, fits.reserved, fits.id, fits.target, fits.callers⟩
    rw [known, World.callingFrame?_withCallingFrame sound]
    split
    · rename_i same
      rw [← same]
      change some caller = (outermost a s.active).or (if some a = some a then some caller else none)
      rw [first, Option.none_or, if_pos rfl]
    · rename_i other
      exact (fits.frames y).trans (passer y other).symm
  obtain ⟨sound', bereft | ⟨after, k⟩⟩ := h.fits _ (sound.modifyPayload a _) attached j
  · obtain ⟨sound'', bereft''⟩ := Lost.known ⟨sound', bereft⟩ a none
    exact ⟨sound'', .inl bereft''⟩
  · refine ⟨sound'.modifyPayload a _, .inr ⟨⟨fun y => ?_, after.transients, after.reserved,
      after.id, after.target, after.callers⟩, k⟩⟩
    refine (World.callingFrame?_withCallingFrame sound' a none y).trans ?_
    split
    · rename_i same
      rw [ite_self, ← same, first]
    · rename_i other
      exact (after.frames y).trans (passer y other)

/-- While a call is running, it counts among those that have not returned, and the block that
it was passed knows the caller of the outermost of these. -/
lemma leads_attached {block passed : Option Address} {caller : FrameId}
    (h : Leads { s with active := .method caller passed :: s.active } (fun m => J m.host) x K) :
    s.Leads (fun m => J m.host ∧ passed = block.filter m.world.isBlock)
      (attached block caller x) K := by
  cases block with
  | none =>
    refine ⟨h.lost, fun m sound fits p => ?_⟩
    obtain ⟨j, rfl⟩ := p
    exact (h.settled fun y => outermost_cons_of_none rfl _).fits m sound fits j
  | some a =>
    constructor
    · intro m lost
      obtain ⟨b, seen⟩ := isDetached_run a m
      rw [attached, run_bind_ok seen]
      cases b with
      | false => exact h.lost m lost
      | true => exact Lost.known (h.lost _ (Lost.known lost a (some caller))) a none
    · rintro m sound fits ⟨j, rfl⟩
      rw [attached, run_bind_ok (fits.isDetached a)]
      cases isBlock : m.world.isBlock a with
      | false =>
        refine (h.settled fun y => outermost_cons_of_none ?_ _).fits m sound fits j
        rw [Option.filter_some_neg (by simp [isBlock])]
        rfl
      | true =>
        have passed : (some a).filter m.world.isBlock = some a := by simp [isBlock]
        rw [passed] at h
        cases knows : outermost a s.active with
        | some id =>
          refine (h.settled fun y => ?_).fits m sound fits j
          by_cases same : y = a
          · rw [same, outermost, knows, Option.some_or]
          · exact outermost_cons_of_none (Activity.passer_of_ne (Ne.symm same) caller) _
        | none => exact attach_detach h knows isBlock sound fits j

end Situation

end CellMachine
