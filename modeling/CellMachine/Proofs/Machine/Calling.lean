import CellMachine.Proofs.Machine.Situations

/-!
# Calls and the situation of a thread

A call changes the situation for the length of its body. What is asked of the bodies is said
by two assertions about the state that they share, one for the start and one for the end,
and a call passes them on. All that a body does itself leaves the situation as it is.
-/

namespace CellMachine

/-- The frame that a break out of the body of the innermost call leads to. -/
def aim : List Activity → Option FrameId
  | .block (some a) :: around => outermost a around
  | _ => none

/-- What becomes of an outcome at the frame that made the call. -/
def landed (id : FrameId) : Except Halt Value → Except Halt Value
  | .error (.error (.break target v)) =>
    if target = id then .ok v else .error (.error (.break target v))
  | r => r

/-- What a call makes of the outcome of its body. -/
def Activity.lands : Activity → Except Halt Value → Except Halt Value
  | method caller _, r => landed caller r
  | block _, r => r

/-- What a call is when the machine makes it. -/
def Activity.of {σ : Type} (m : Machine σ) : Callee → Activity
  | .method _ _ passed =>
    method m.thread.frame.id (passed.filter fun a => ((m.object? a).bind Object.block?).isSome)
  | .block a _ => block (some a)
  | .yield => block m.thread.frame.block

lemma landed_of_tame {r : Except Halt Value} (tame : VM.Tame r) (id : FrameId) :
    landed id r = r := by
  match r, tame with
  | .ok v, _ => rfl
  | .error (.fault f), _ => rfl
  | .error (.refused f), _ => rfl
  | .error .exhausted, _ => rfl
  | .error (.error e), tame =>
    cases e with
    | «break» target v => exact absurd rfl (tame target v)
    | _ => rfl

lemma landed_break_of_ne {target id : FrameId} (other : target ≠ id) (v : Value) :
    landed id (.error (.error (.break target v))) = .error (.error (.break target v)) :=
  if_neg other

lemma Activity.lands_of_tame (call : Activity) {r : Except Halt Value} (tame : VM.Tame r) :
    call.lands r = r := by
  cases call with
  | method caller passed => exact landed_of_tame tame caller
  | block a => rfl

/-- A break that leads to the frame of a call ends there, -/
lemma Activity.lands_break (target : FrameId) (passed : Option Address) (v : Value) :
    (method target passed).lands (.error (.error (.break target v))) = .ok v :=
  if_pos rfl

/-- and goes through all calls that were made in other frames. -/
lemma Activity.lands_break_of_ne {call : Activity} {target : FrameId}
    (other : call.caller? ≠ some target) (v : Value) :
    call.lands (.error (.error (.break target v))) = .error (.error (.break target v)) := by
  cases call with
  | method caller passed => exact landed_break_of_ne (fun same => other (congrArg some same.symm)) v
  | block a => rfl

namespace Situation

open VM

variable {σ α β : Type} {s : Situation} {m : Machine σ} {P : Machine σ → Prop} {x : VM σ α}

/-- The frames that wait are older than the one in which the thread runs. -/
structure Ordered (s : Situation) : Prop where
  waiting : ∀ id ∈ callersOf s.active, id.number < s.id.number
  present : s.id.number < s.least

/-- The thread runs in the frame of the body of the innermost call. -/
structure Proper (s : Situation) : Prop extends Ordered s where
  target : s.target = aim s.active

/-- What is asked of the runner of native bodies: `J` is the case when a body starts and `K`
when it ends, for any calls that have not returned. If nothing was run, `J` may be so still. -/
structure Leading (run : Runner σ) (J : List Activity → σ → Prop)
    (K : List Activity → Except Halt Value → σ → Prop) : Prop where
  runs : ∀ (s : Situation) native receiver w block,
    s.Leads (fun m => s.Proper ∧ J s.active m.host) (run native receiver w block) (K s.active)
  idle : ∀ active r host, Tame r → J active host → K active r host

lemma run_landing (id : FrameId) (x : VM σ Value) (m : Machine σ) :
    (landing id x).run m = (landed id (x.run m).1, (x.run m).2) := by
  rw [landing, run_bind_ok (run_outcome x m)]
  split
  · rename_i target v same
    rw [same, landed]
    split
    · rfl
    · rfl
  · rename_i other
    rw [landed_of_tame fun target v same => other target v same]
    cases (x.run m).1 with
    | ok v => rfl
    | error e => rfl

lemma Leads.landing {x : VM σ Value} {K : Except Halt Value → σ → Prop} (leads : s.Leads P x K)
    (id : FrameId) :
    s.Leads P (landing id x) fun r host => ∃ q, r = landed id q ∧ K q host := by
  constructor
  · intro m lost
    rw [run_landing]
    exact leads.lost m lost
  · intro m sound fits p
    rw [run_landing]
    exact (leads.fits m sound fits p).mono fun _ k => ⟨_, rfl, k⟩

variable {run : Runner σ} {J : List Activity → σ → Prop}
  {K : List Activity → Except Halt Value → σ → Prop}

/-- A halt before the body is run. -/
lemma Leading.halted (leading : Leading run J K) (w : Window) {E : Prop} {e : Halt}
    {active : List Activity} (holds : s.Holds (fun host => E ∧ J active host) m)
    (tame : Tame (.error e : Except Halt Value)) :
    s.Holds (fun host => E ∧ K active (.error e) host) (released w m) :=
  (holds.released w).mono fun _ both => ⟨both.1, leading.idle _ _ _ tame both.2⟩

/-- The body of a method gets its argument in one of three ways. -/
lemma leads_dispatch (leading : Leading run J K) (c : MethodObject) (receiver : Value) (w : Window)
    (block : Option Address) :
    s.Leads (fun m => s.Proper ∧ J s.active m.host) (dispatch run c receiver w block)
      (K s.active) := by
  refine (leads_of_ensures (J := fun host => s.Proper ∧ J s.active host) fun E => ?_)
  have direct : ∀ receiver w, Ensures (s.Holds fun host => E ∧ s.Proper ∧ J s.active host)
      (run c.native receiver w block) fun r => s.Holds fun host => E ∧ K s.active r host :=
    fun receiver w => (leading.runs s c.native receiver w block).ensures E
  have halted : ∀ e m, s.Holds (fun host => E ∧ s.Proper ∧ J s.active host) m →
      Tame (.error e : Except Halt Value) →
      s.Holds (fun host => E ∧ K s.active (.error e) host) (released w m) :=
    fun e m holds tame => leading.halted w (holds.mono fun _ j => ⟨j.1, j.2.2⟩) tame
  have synthesized : ∀ o : Object, o.block? = none →
      Ensures (s.Holds fun host => E ∧ s.Proper ∧ J s.active host) (do
        releaseWindow w
        runSynthesized run c.native receiver o block)
        fun r => s.Holds fun host => E ∧ K s.active r host := by
    intro o plain
    refine (passes_releaseWindow w).bind fun _ => ?_
    refine ensures_withTransient (K := fun r host => E ∧ K s.active r host) plain fun a => ?_
    exact (passes_pushWindow _ _).bind fun w => direct receiver w
  rw [dispatch]
  split
  · split
    · refine (Keeps.readStack _).orReleased (fun argument => ?_) halted
      cases argument with
      | smallInt n => exact synthesized (.integer n) rfl
      | double d => exact synthesized (.float d) rfl
      | ref a => exact direct receiver w
    · exact direct receiver w
  · refine (Keeps.promote (fun o plain => keeps_allocate ?_) receiver).orReleased
      (fun receiver => direct receiver w) halted
    rw [Object.Detached, plain]
    rfl

lemma Ordered.method {s : Situation} (ordered : s.Ordered) {id : FrameId}
    (new : s.least ≤ id.number) (passed : Option Address) (f : Frame) :
    Proper { s.enter id none f with active := .method s.id passed :: s.active } := by
  have present := ordered.present
  refine ⟨⟨fun caller mem => ?_, Nat.lt_succ_self _⟩, rfl⟩
  rcases List.mem_cons.mp mem with rfl | older
  · exact present.trans_le new
  · exact ((ordered.waiting caller older).trans present).trans_le new

lemma Ordered.block {s : Situation} (ordered : s.Ordered) {id : FrameId} (new : s.least ≤ id.number)
    (a : Option Address) (f : Frame) {target : Option FrameId}
    (aims : target = aim (.block a :: s.active)) :
    Proper { s.enter id target f with active := .block a :: s.active } := by
  refine ⟨⟨fun caller mem => ?_, Nat.lt_succ_self _⟩, aims⟩
  exact ((ordered.waiting caller mem).trans ordered.present).trans_le new

/-- A call of a method that is not interrupted. -/
lemma leads_called (leading : Leading run J K) (c : MethodObject) (receiver : Value) (w : Window)
    (block passed : Option Address) (method : Option String) (outer : Option Address) :
    s.Leads (fun m => (s.Ordered ∧ J (.method s.id passed :: s.active) m.host) ∧
        passed = block.filter m.world.isBlock)
      (VM.landing s.id <| inFrame method outer block none <|
        attached block s.id <| dispatch run c receiver w block)
      fun r host => ∃ q, r = landed s.id q ∧ K (.method s.id passed :: s.active) q host := by
  refine Leads.landing (leads_inFrame (fun id f => ?_) fun _ p => p) s.id
  refine (leads_attached (s := s.enter id none f)
    (J := fun host => Proper _ ∧ J (.method s.id passed :: s.active) host)
    (leads_dispatch leading c receiver w block)).before ?_
  rintro m - ⟨new, ⟨ordered, j⟩, blocks⟩
  exact ⟨⟨ordered.method new passed f, j⟩, blocks⟩

lemma leads_callMethod (leading : Leading run J K) (c : MethodObject) (receiver : Value)
    (w : Window) (block passed : Option Address) :
    s.Leads (fun m => (s.Ordered ∧ J (.method s.id passed :: s.active) m.host) ∧
        passed = block.filter m.world.isBlock)
      (callMethod run c receiver w block)
      fun r host => ∃ q, r = landed s.id q ∧ K (.method s.id passed :: s.active) q host := by
  rw [callMethod]
  refine Leads.inWorld (fun _ _ sound => World.follows_pollInterrupt sound) (fun interrupted => ?_)
    fun m p => ⟨p.1, ?_⟩
  · split
    · refine (leads_of_ensures (J := J (.method s.id passed :: s.active)) fun E => ?_).before
        fun m _ p => p.1.2
      refine (passes_releaseWindow w).bind fun _ => Ensures.haltThen fun m holds => holds.mono ?_
      have tame : Tame (.error (.error .interrupt) : Except Halt Value) :=
        fun _ _ same => by cases same
      exact fun _ j => ⟨j.1, _, rfl, leading.idle _ _ _ tame j.2⟩
    · refine Leads.read (Q := fun f m => f.id = s.id ∧
        (s.Ordered ∧ J (.method s.id passed :: s.active) m.host) ∧
          passed = block.filter m.world.isBlock) (fun f => ?_) fun m fits p => ⟨fits.id, p⟩
      refine Leads.given
        (leads_called (s := { s with id := f.id }) leading c _ w block none _ _).lost fun same => ?_
      rw [same]
      exact leads_called leading c _ w block passed _ _
  · rw [World.pollInterrupt]
    split
    · exact p.2
    · exact p.2

/-- The body of a block with parameters, which has a window of its own. -/
lemma leads_parameters (leading : Leading run J K) (b : BlockObject) (arity : BlockArity)
    (w : Window) (block : Option Address) :
    s.Leads (fun m => s.Proper ∧ J s.active m.host) (ensuring (released w) do
      let values ← parameters w arity.min arity.max true true
      let _ ← allocate (.array values.toArray)
      let params ← pushWindow values false
      run b.native b.receiver params block) (K s.active) := by
  refine leads_of_ensures (J := fun host => s.Proper ∧ J s.active host) fun E => Ensures.ensuring ?_
  refine Ensures.conseq (Q := fun r => s.Holds fun host => E ∧ K s.active r host) ?_
    fun r m holds => holds.released w
  have halted : ∀ e m, s.Holds (fun host => E ∧ s.Proper ∧ J s.active host) m →
      Tame (.error e : Except Halt Value) →
      s.Holds (fun host => E ∧ K s.active (.error e) host) m :=
    fun e m holds tame => holds.mono fun _ j => ⟨j.1, leading.idle _ _ _ tame j.2.2⟩
  refine (Keeps.parameters w _ _ true true).bind (fun values => ?_) halted
  refine (keeps_allocate (o := .array values.toArray) rfl).bind (fun _ => ?_) halted
  exact (passes_pushWindow values false).bind fun params =>
    (leading.runs s b.native b.receiver params block).ensures E

lemma leads_callBlock (leading : Leading run J K) (b : BlockObject) (a : Option Address)
    (w : Window) (block : Option Address) :
    s.Leads (fun m => (s.Ordered ∧ b.callingFrame = aim (.block a :: s.active)) ∧
        J (.block a :: s.active) m.host)
      (callBlock run b w block) (K (.block a :: s.active)) := by
  rw [callBlock]
  refine leads_inFrame (fun id f => ?_) fun _ p => p
  have entered : ∀ y, outermost y (.block a :: s.active) =
      outermost y (s.enter id b.callingFrame f).active := fun y => outermost_cons_of_none rfl _
  refine Leads.settled ?_ entered
  have start : ∀ m : Machine σ, (s.least ≤ id.number ∧
      (s.Ordered ∧ b.callingFrame = aim (.block a :: s.active)) ∧ J (.block a :: s.active) m.host) →
      Proper { s.enter id b.callingFrame f with active := .block a :: s.active } ∧
        J (.block a :: s.active) m.host := by
    rintro m ⟨new, ⟨ordered, aims⟩, j⟩
    exact ⟨ordered.block new a f aims, j⟩
  split
  · exact (leading.runs { s.enter id b.callingFrame f with active := .block a :: s.active }
      _ _ _ _).before fun m _ => start m
  · exact (leads_parameters
      (s := { s.enter id b.callingFrame f with active := .block a :: s.active })
      leading b _ w block).before fun m _ => start m

/-- A block at an address aims where the outermost call leads to which it was passed. -/
lemma Fits.aims (fits : s.Fits m) {a : Address} {b : BlockObject}
    (here : m.object? a = some (.block b)) :
    b.callingFrame = aim (.block (some a) :: s.active) := by
  have known := fits.frames a
  rw [Heap.callingFrame?, ← fits.block? a, here] at known
  exact known

lemma leads_yieldBlock (leading : Leading run J K) (a : Option Address) (w : Window) :
    s.Leads (fun m => (s.Ordered ∧ J (.block a :: s.active) m.host) ∧ a = m.thread.frame.block)
      (yieldBlock run w) (K (.block a :: s.active)) := by
  have halted : ∀ (e : CallError), (∀ target v, e ≠ .break target v) →
      s.Leads (fun m => J (.block a :: s.active) m.host) (do
        releaseWindow w
        raiseError e) (K (.block a :: s.active)) := by
    intro e tame
    refine leads_of_ensures fun E => (passes_releaseWindow w).bind fun _ =>
      Ensures.raiseError fun m holds => holds.mono fun _ j => ⟨j.1, leading.idle _ _ _ ?_ j.2⟩
    intro target v same
    exact tame target v (Halt.error.inj (Except.error.inj same))
  rw [yieldBlock]
  refine Leads.read (Q := fun f m => a = f.block ∧ s.Ordered ∧ J (.block a :: s.active) m.host)
    (fun f => ?_) fun m fits p => ⟨p.2, p.1⟩
  split
  · exact (halted .noBlock fun _ _ same => by cases same).before fun m _ p => p.2.2
  · rename_i passed isPassed
    refine Leads.read (Q := fun found m => (∀ b, found = some (.block b) → s.Ordered ∧
        b.callingFrame = aim (.block a :: s.active)) ∧ J (.block a :: s.active) m.host)
      (fun found => ?_) ?_
    · split
      · exact (leads_callBlock leading _ a w none).before fun m _ p => ⟨p.1 _ rfl, p.2⟩
      · refine Leads.read (Q := fun _ m => J (.block a :: s.active) m.host) (fun type => ?_)
          fun m _ p => p.2
        exact halted _ fun _ _ same => by cases same
    · rintro m fits ⟨same, ordered, j⟩
      refine ⟨fun b here => ⟨ordered, ?_⟩, j⟩
      rw [same, isPassed]
      exact fits.aims here

lemma activity_eq (c : Callee) :
    (activity c : VM σ Activity) = VM.read fun m => Activity.of m c := by
  cases c with
  | _ => rfl

/-- Only a block can be called at an address. -/
lemma leads_calleeBlock (leading : Leading run J K) (a : Address) (block : Option Address)
    (w : Window) :
    s.Leads (fun m => s.Ordered ∧ J (.block (some a) :: s.active) m.host)
      (callee run w (.block a block)) (K (.block (some a) :: s.active)) := by
  refine Leads.read (Q := fun found m => (∀ b, found = some (.block b) → s.Ordered ∧
      b.callingFrame = aim (.block (some a) :: s.active)) ∧ J (.block (some a) :: s.active) m.host)
    (fun found => ?_) fun m fits p => ⟨fun b here => ⟨p.1, fits.aims here⟩, p.2⟩
  split
  · exact (leads_callBlock leading _ (some a) w block).before fun m _ p => ⟨p.1 _ rfl, p.2⟩
  · refine (leads_of_ensures (J := J (.block (some a) :: s.active)) fun E => ?_).before
      fun m _ p => p.2
    refine (passes_releaseWindow w).bind fun _ => Ensures.halt fun m holds => holds.mono ?_
    exact fun _ j => ⟨j.1, leading.idle _ _ _ (fun _ _ same => by cases same) j.2⟩

/-- What is true of a call is true of what its body came to, but for the landing. -/
lemma leads_callee (leading : Leading run J K) (c : Callee) (call : Activity) (w : Window) :
    s.Leads (fun m => call = Activity.of m c ∧ s.Ordered ∧ J (call :: s.active) m.host)
      (callee run w c) fun r host => ∃ q, r = call.lands q ∧ K (call :: s.active) q host := by
  cases c with
  | method o receiver block =>
    have called := leads_callMethod (s := s) leading o receiver w block
    cases call with
    | block b => exact ⟨(called none).lost, fun m _ _ p => Activity.noConfusion p.1⟩
    | method caller passed =>
      refine Leads.before (Q := fun m => caller = s.id ∧
        (s.Ordered ∧ J (.method caller passed :: s.active) m.host) ∧
          passed = block.filter m.world.isBlock) ?_ ?_
      · refine Leads.given (called passed).lost fun same => ?_
        rw [same]
        exact called passed
      · rintro m fits ⟨same, ordered, j⟩
        obtain ⟨rfl, rfl⟩ := Activity.method.inj same
        refine ⟨fits.id, ⟨ordered, j⟩, ?_⟩
        congr 1
        funext a
        rw [fits.block?, World.isBlock]
  | block a block =>
    have called := leads_calleeBlock (s := s) leading a block w
    refine Leads.given (E := call = .block (some a))
      (P := fun m => s.Ordered ∧ J (call :: s.active) m.host) called.lost fun same => ?_
    rw [same]
    exact called.conseq fun r host k => ⟨r, rfl, k⟩
  | «yield» =>
    have yielded := leads_yieldBlock (s := s) leading
    cases call with
    | method caller passed => exact ⟨(yielded none w).lost, fun m _ _ p => Activity.noConfusion p.1⟩
    | block a =>
      refine ((yielded a w).conseq fun r host k => ⟨r, rfl, k⟩).before ?_
      rintro m fits ⟨same, ordered, j⟩
      exact ⟨⟨ordered, j⟩, Activity.block.inj same⟩

/-- In another environment of the same body. -/
def within (s : Situation) (e : Env) : Situation :=
  ⟨s.active, s.least, e.frame.id, e.frame.breakTarget, e.callers⟩

/-- The environment was made by the body that runs. -/
structure Below (s : Situation) (e : Env) : Prop where
  older : s.id.number < e.frame.id.number
  present : e.frame.id.number < s.least
  target : e.frame.breakTarget = none

lemma Ordered.within (ordered : s.Ordered) {e : Env} (below : s.Below e) : (s.within e).Ordered :=
  ⟨fun id mem => (ordered.waiting id mem).trans below.older, below.present⟩

variable {I : σ → Prop} {L : Except Halt α → σ → Prop}

/-- An environment is left as it was entered. -/
lemma leads_inEnv {e : Env} (h : (s.within e).Leads (fun m => I m.host) x L) :
    s.Leads (fun m => I m.host) (inEnv (some e) x) L := by
  refine ⟨fun m lost => h.lost (enterEnv e m) lost, fun m sound fits j => ?_⟩
  have inside := h.fits (enterEnv e m) sound
    ⟨fits.frames, fits.transients, fits.reserved, rfl, rfl, rfl⟩ j
  refine inside.shift rfl rfl fun after => ?_
  exact ⟨after.frames, after.transients, after.reserved, fits.id, fits.target, fits.callers⟩

lemma run_childEnv (env : Option Env) (method : Option String) (outer block : Option Address)
    (m : Machine σ) :
    ∃ e, (inEnv env (childEnv method outer block)).run m =
        (.ok e, { m with world := m.world.freshFrame.2 }) ∧
      e.frame.id = ⟨m.world.nextFrame⟩ ∧ e.frame.breakTarget = none := by
  cases env with
  | none => exact ⟨_, rfl, rfl, rfl⟩
  | some own => exact ⟨_, rfl, rfl, rfl⟩

/-- A new environment has a frame that is newer than all others. -/
lemma leads_child {env : Option Env} {method : Option String} {outer block : Option Address}
    {y : Env → VM σ α}
    (h : ∀ e, Leads { s with least := e.frame.id.number + 1 }
      (fun m => (s.least ≤ e.frame.id.number ∧ e.frame.breakTarget = none) ∧ I m.host) (y e) L) :
    s.Leads (fun m => I m.host) (inEnv env (childEnv method outer block) >>= y) L := by
  constructor
  · intro m lost
    obtain ⟨e, made, _⟩ := run_childEnv env method outer block m
    rw [run_bind_ok made]
    exact (h e).lost _ lost
  · intro m sound fits j
    obtain ⟨e, made, id, target⟩ := run_childEnv env method outer block m
    rw [run_bind_ok made]
    have number : e.frame.id.number = m.world.nextFrame := congrArg _ id
    have new : s.least ≤ e.frame.id.number := fits.reserved.trans_eq number.symm
    refine ((h e).fits { m with world := m.world.freshFrame.2 } sound
      ⟨fits.frames, fits.transients, (congrArg Nat.succ number).le, fits.id, fits.target,
        fits.callers⟩ ⟨⟨new, target⟩, j⟩).shift rfl rfl fun after => ?_
    exact ⟨after.frames, after.transients, (new.trans (Nat.le_succ _)).trans after.reserved,
      after.id, after.target, after.callers⟩

/-- A break is led to where the frame says. -/
lemma inEnv_breakWith (env : Option Env) (v : Value) :
    inEnv env (breakWith v : VM σ CallError) = VM.read fun m =>
      ((env.map Env.frame).getD m.thread.frame).breakTarget.elim .strayBreak fun target =>
        .break target v := by
  have own : ∀ m : Machine σ, (breakWith v).run m =
      (.ok (m.thread.frame.breakTarget.elim .strayBreak fun target => .break target v), m) := by
    intro m
    rw [breakWith, run_bind_ok (show (frame : VM σ Frame).run m = (.ok m.thread.frame, m) from rfl)]
    cases m.thread.frame.breakTarget with
    | none => rfl
    | some target => rfl
  ext1 m
  cases env with
  | none => exact own m
  | some e =>
    change (((breakWith v).run (enterEnv e m)).1, enterEnv ⟨m.thread.frame, m.thread.callers⟩
      ((breakWith v).run (enterEnv e m)).2) = _
    rw [own]
    rfl

end Situation

/-- No edit has to do with the calling frame of a block. -/
lemma Edit.block?_apply (e : Edit) (o : Object) : (e.apply o).block? = o.block? := by
  cases e with
  | _ => cases o with
    | _ => rfl

namespace Situation

open VM

variable {σ τ : Type} {s : Situation} {J : τ → Prop} {I : σ → Prop}

/-- What the bodies share is no matter of the watcher. -/
lemma passes_shared (f : σ → σ) :
    Passes (s.Holds fun host => J host.2) (shared f : VM (σ × τ) Unit) := by
  rintro m ⟨sound, bereft | ⟨fits, j⟩⟩
  · exact ⟨⟨_, rfl⟩, sound, .inl bereft⟩
  · exact ⟨⟨_, rfl⟩, sound, .inr ⟨fits.congr m.thread.stack _, j⟩⟩

lemma keeps_deed (d : Deed σ) :
    Keeps (s.Holds fun host => J host.2) (VM.deed d : VM (σ × τ) Value) := by
  have inWorld : ∀ {f : Stacks → World → Unit × World},
      (∀ argStacks (w : World), w.heap.Sound → w.Follows (f argStacks w).2) →
      Keeps (s.Holds fun host => J host.2) (do
        VM.inWorld f
        VM.nil : VM (σ × τ) Value) :=
    fun follows => (passes_inWorld follows).bind fun _ => Passes.nil.keeps
  cases d with
  | allocate o =>
    exact (keeps_allocate o.detached_withCallingFrame).andThen fun _ => Keeps.pure _
  | edit a e =>
    exact inWorld fun _ w sound => World.follows_modifyObject sound a fun o => by
      rw [e.block?_apply]
  | symbol name =>
    exact (passes_inWorld fun roots w sound => World.follows_intern sound roots name).bind fun _ =>
      (Keeps.ofHeap _).andThen fun _ => Keeps.pure _
  | setGlobal name v => exact inWorld fun _ w sound => World.follows_setGlobal sound name v
  | addRoots vs =>
    exact inWorld fun _ w sound => World.follows_foldl
      (fun _ v sound => World.follows_addRoot sound v) vs sound
  | removeRoots vs =>
    exact inWorld fun _ w sound => World.follows_foldl
      (fun _ v sound => World.follows_removeRoot sound v) vs sound
  | collect =>
    exact (passes_inWorld fun roots w sound => World.follows_collect sound roots).bind fun ran =>
      (Passes.ofBool ran).keeps
  | enableCollection on =>
    refine inWorld fun _ w sound => ⟨?_, le_rfl⟩
    cases on with
    | false => exact sound.follows_of_allocators rfl rfl rfl
    | true => exact sound.follows_of_allocators rfl rfl rfl
  | installHandlers | requestInterrupt | requestCollection =>
    exact inWorld fun _ w sound => World.follows_of_heap sound rfl le_rfl
  | setLine line =>
    exact (passes_onThread (fun _ => rfl) (fun _ => rfl) (fun _ => rfl) fun _ => rfl).bind fun _ =>
      Passes.nil.keeps
  | share f => exact (passes_shared f).bind fun _ => Passes.nil.keeps

lemma keeps_opened (ws : List Window) (o : Opening) : Keeps (s.Holds I) (opened ws o) := by
  cases o with
  | values vs hasKeywords => exact (passes_pushWindow vs hasKeywords).keeps
  | copyOf i =>
    rw [opened]
    split
    · exact keeps_onStack _
    · exact (passes_pushWindow [] false).keeps

lemma passes_taken (w : Window) (t : Taking) : Passes (s.Holds I) (taken w t) :=
  fun _ holds => ⟨⟨_, rfl⟩, holds.onStack _⟩

end Situation

end CellMachine
