import CellMachine.Proofs.Machine.Bracketing
import CellMachine.Proofs.Machine.Views

/-!
# Bodies as conducts

What a body does with its windows is a change of the argument stack, and each of its environments
is a frame with the frames below it. So for each body there is a conduct that does the same, with
the same outcome and the same machine in the end. What a conduct leaves as it was, a body leaves
as it was.
-/

namespace CellMachine

variable {σ : Type}

/-- The window that is opened on a stack, and the stack with it. -/
def Opening.on (ws : List Window) (s : Array Value) : Opening → Except Fault Window × Array Value
  | values vs hasKeywords =>
    let (w, s) := Window.push vs hasKeywords s
    (.ok w, s)
  | copyOf i =>
    match ws[i]? with
    | some w => w.copy s
    | none =>
      let (w, s) := Window.push [] false s
      (.ok w, s)

/-- The error of a break out of a frame. -/
def Frame.breakError (v : Value) (f : Frame) : CallError :=
  f.breakTarget.elim .strayBreak fun target => .break target v

/-- What was taken, what the window is then, and the stack. -/
def Taking.on (w : Window) (t : Taking) (s : Array Value) :
    (Except Fault (Option Value) × Window) × Array Value :=
  let (r, w, s) := t.from w s
  ((r, w), s)

/-- A change of the argument stack, and what comes of it. -/
def Conduct.onStack {α : Type} (f : Array Value → α × Array Value) (next : α → Conduct σ) :
    Conduct σ :=
  .look fun m => .stack (fun s => (f s).2) (next (f m.thread.stack).1)

namespace Body

/-- What a body does that has some windows, the newest first, and has made some environments. -/
def conduct : Body σ → List Window → List Env → Conduct σ
  | done r, ws, _ => .stack (fun s => ws.foldl (fun s w => w.release s) s) (.done r)
  | look next, ws, envs => .look fun m => (next ws m).conduct ws envs
  | deed d next, ws, envs => .deed d fun r => (next r).conduct ws envs
  | openWindow o next, ws, envs => .onStack (o.on ws) fun
    | .ok w => (next (.ok ())).conduct (w :: ws) envs
    | .error f => (next (.error (.fault f))).conduct ws envs
  | take i t next, ws, envs =>
    match ws[i]? with
    | some w => .onStack (t.on w) fun (r, w) =>
      (next (r.mapError .fault)).conduct (ws.set i w) envs
    | none => (next (.ok none)).conduct ws envs
  | close next, ws, envs =>
    match ws with
    | [] => next.conduct [] envs
    | w :: rest => .stack w.release (next.conduct rest envs)
  | child env method outer block next, ws, envs =>
    .child (envAt envs env) method outer block fun e => next.conduct ws (envs ++ [e])
  | breakWith env v next, ws, envs => .look fun m =>
    (next ((((envAt envs env).map Env.frame).getD m.thread.frame).breakError v)).conduct ws envs
  | call env c next, ws, envs =>
    match ws with
    | [] => .onStack (Window.push [] false) fun w => .call (envAt envs env) c w fun r =>
      (next r).conduct [] envs
    | w :: rest => .call (envAt envs env) c w fun r => (next r).conduct rest envs

end Body

def BodyTable.conducts (table : BodyTable σ) : ConductTable σ :=
  fun i receiver w block => (table i receiver block).conduct [w] []

/-- A watcher who notes nothing. -/
def unheeded : Note → Unit → Unit := fun _ noted => noted

namespace VM

variable {α : Type} {run : Runner (σ × Unit)}

lemma run_watchedCall (c : Callee) (w : Window) (m : Machine (σ × Unit)) :
    (watchedCall unheeded run c w).run m =
      (.ok ((callee run w c).run m).1, ((callee run w c).run m).2) := by
  rw [watchedCall, Situation.activity_eq, run_bind_ok (run_read _ _)]
  rfl

lemma opened_eq {τ : Type} (ws : List Window) (o : Opening) :
    (opened ws o : VM τ Window) = VM.onStack (o.on ws) := by
  cases o with
  | values vs hasKeywords => rfl
  | copyOf i =>
    rw [opened]
    cases here : ws[i]? with
    | none =>
      refine congrArg VM.onStack (funext fun s => ?_)
      rw [Opening.on, here]
    | some w =>
      refine congrArg VM.onStack (funext fun s => ?_)
      rw [Opening.on, here]

/-- The rest sees what came of the change also if it is a fault. -/
lemma outcome_onStack {β : Type} (f : Array Value → Except Fault β × Array Value)
    (g : Except Halt β → VM (σ × Unit) α) : (outcome (VM.onStack f) >>= g) =
      VM.onThread (fun t => t.onStack f) >>= fun r => g (r.mapError .fault) := by
  refine VM.ext fun m => ?_
  rw [run_bind, run_outcome, run_onStack, run_bind, run_onThread, ThreadState.onStack_eq]
  cases (f m.thread.stack).1 with
  | ok a => rfl
  | error e => rfl

lemma run_watchedBreak (e : Option Env) (v : Value) (m : Machine (σ × Unit)) :
    (watchedBreak unheeded e v).run m =
      (.ok (((e.map Env.frame).getD m.thread.frame).breakError v), m) := by
  rw [watchedBreak, Situation.inEnv_breakWith, run_bind_ok (run_read _ m)]
  rfl

end VM

def Diary.closed : View (σ × Diary) (σ × Unit) where
  host h := (h.1, ())
  pending _ b := b
  Fits _ _ := True
  steady _ _ _ _ _ _ := trivial

/-- The machine without the diary. -/
def Machine.undiaried (m : Machine (σ × Diary)) : Machine (σ × Unit) :=
  { m with host := (m.host.1, ()) }

namespace Diary

open VM

variable {α : Type} {x : VM (σ × Unit) α} {y : VM (σ × Diary) α} {run : Runner (σ × Unit)}
  {run' : Runner (σ × Diary)}

lemma correspond_marked (same : Correspond closed x y) :
    Correspond closed x (do VM.marked; y) :=
  fun m _ => same { m with host := (m.host.1, m.host.2.mark m.point) } trivial

/-- What is written down is written down unseen. -/
lemma correspond_loggedCall (same : CorrespondingRunners closed run run') (c : Callee)
    (w : Window) : Correspond closed (watchedCall unheeded run c w) (loggedCall run' c w) := by
  have called : Correspond closed (callee run w c) (callee run' w c) := by
    intro m fits
    cases c with
    | method o receiver block => exact same.callMethod fits rfl rfl o receiver w block
    | block a block => exact same.callee w _ (fun _ _ _ other => by cases other) m fits
    | «yield» => exact same.callee w _ (fun _ _ _ other => by cases other) m fits
  intro m _
  let m' : Machine (σ × Diary) :=
    { m with host := (m.host.1, m.host.2.calls (Activity.of m c)) }
  obtain ⟨ran, _⟩ := called m' trivial
  refine ⟨?_, trivial⟩
  rw [run_watchedCall, loggedCall, run_bind_ok (run_read _ m), Situation.activity_eq,
    run_bind_ok (run_read _ m)]
  change (Except.ok ((callee run w c).run (closed.seen m')).1,
    ((callee run w c).run (closed.seen m')).2) = _
  rw [ran]
  rfl

/-- A deed is done all the same; a birth is written down after it. -/
lemma correspond_loggedDeed (d : Deed σ) :
    Correspond closed (outcome (VM.deed d)) (loggedDeed d) := by
  have deed : Correspond closed (VM.deed d) (VM.deed d) := by
    by_cases asks : d = .requestInterrupt
    · subst asks
      exact fun m _ => ⟨rfl, trivial⟩
    · have same := Correspond.deed (V := closed) (g := id) (fun f m _ => ⟨rfl, trivial⟩) d asks
      have lifts : d.lift id = d := by cases d <;> rfl
      rwa [lifts] at same
  intro m fits
  refine ⟨?_, trivial⟩
  rw [run_outcome, (deed m fits).1]
  rfl

/-- What comes of a change of the stack is known from the stack as it is seen. -/
lemma correspond_onStack {β : Type} (f : Array Value → β × Array Value)
    {g : β → VM (σ × Unit) Value} {next : β → Conduct σ}
    (rest : ∀ a, Correspond closed (g a) ((next a).play run')) :
    Correspond closed (VM.onThread (fun t => t.onStack f) >>= g)
      ((Conduct.onStack f next).play run') := by
  intro m _
  let m' : Machine (σ × Diary) := { m with
    thread := { m.thread with stack := (f m.thread.stack).2 }
    host := (m.host.1, (m.host.2.mark m.point).mark m.point) }
  exact rest (f m.thread.stack).1 m' trivial

/-- The induction is on the body. An entry that a conduct makes at a node is none that a body can
see, so each node goes on from the machine that is seen. -/
lemma correspond_play (same : CorrespondingRunners closed run run') (b : Body σ) (ws : List Window)
    (envs : List Env) :
    Correspond closed (b.play unheeded run ws envs) ((b.conduct ws envs).play run') := by
  induction b generalizing ws envs with
  | done r =>
    refine correspond_marked ((Correspond.modifyStack _).bind fun _ => ?_)
    exact correspond_marked (.ofOutcome r)
  | look next ih => exact correspond_marked fun m fits => ih ws m.unwatched ws envs m fits
  | deed d next ih =>
    exact correspond_marked ((correspond_loggedDeed d).bind fun r => ih r ws envs)
  | openWindow o next ih =>
    rw [Body.play, opened_eq, outcome_onStack, Body.conduct]
    refine correspond_onStack (o.on ws) fun r => ?_
    cases r with
    | ok w => exact ih (.ok ()) (w :: ws) envs
    | error f => exact ih (.error (.fault f)) ws envs
  | take i t next ih =>
    rw [Body.play, Body.conduct]
    cases ws[i]? with
    | none => exact ih (.ok none) ws envs
    | some w =>
      exact correspond_onStack (t.on w) fun r => ih (r.1.mapError .fault) (ws.set i r.2) envs
  | close next ih =>
    cases ws with
    | nil => exact ih [] envs
    | cons w rest =>
      exact correspond_marked ((Correspond.modifyStack _).bind fun _ => ih rest envs)
  | child env method outer block next ih =>
    refine correspond_marked (((Correspond.childEnv method outer block).inEnv _).bind ?_)
    exact fun e => ih ws _
  | breakWith env v next ih =>
    refine correspond_marked fun m fits => ?_
    rw [CorrespondAt, Body.play, run_bind_ok (run_watchedBreak _ v _)]
    exact ih _ ws envs m fits
  | call env c next ih =>
    cases ws with
    | nil =>
      exact correspond_onStack (Window.push [] false) fun w =>
        correspond_marked (((correspond_loggedCall same c w).inEnv _).bind fun r => ih r [] envs)
    | cons w rest =>
      refine correspond_marked (((correspond_loggedCall same c w).inEnv _).bind ?_)
      exact fun r => ih r rest envs

/-- However deep calls are nested, bodies run as their conducts. -/
lemma corresponding_runnerAt (table : BodyTable σ) (depth : Nat) : CorrespondingRunners closed
    (Body.runnerAt unheeded table depth) (Conduct.runnerAt table.conducts depth) := by
  induction depth with
  | zero => exact fun native receiver w block => (Correspond.modifyStack _).bind fun _ => .halt _
  | succ depth ih =>
    intro native receiver w block
    have ended : ∀ x : VM (σ × Unit) Value, (do
        let r ← outcome x
        noted unheeded (.ends r)
        ofOutcome r) = x := by
      refine fun x => VM.ext fun m => ?_
      change (ofOutcome (x.run m).1).run (x.run m).2 = x.run m
      rcases x.run m with ⟨e | a, m'⟩
      · rfl
      · rfl
    rw [Body.runnerAt]
    dsimp only
    rw [ended]
    cases native with
    | primitive p => exact Correspond.runPrimitive p receiver w
    | body i => exact correspond_play ih (table i receiver block) [w] []

end Diary

/-- The stack and the frames of blocks after a call, and the call without a diary. -/
structure CallRestores (table : BodyTable σ) (depth : Nat) (c : Callee) (w : Window)
    (m : Machine (σ × Diary)) (ended : Except Halt (Except Halt Value) × Machine (σ × Diary)) :
    Prop where
  outcome : ended.1 = .ok ((VM.callee (Body.runnerAt unheeded table depth) w c).run m.undiaried).1
  machine : ended.2.undiaried =
    ((VM.callee (Body.runnerAt unheeded table depth) w c).run m.undiaried).2
  stack : ended.2.thread.stack = m.thread.stack.shrink w.origin
  frames : ∀ a b, ended.2.world.heap.block? a = some b → b.callingFrame =
    if a ∈ ended.2.host.2.born then none else m.world.heap.callingFrame? a

lemma callRestores (table : BodyTable σ) (depth : Nat) (c : Callee) {w : Window}
    {m : Machine (σ × Diary)} (opens : m.Opens) (topmost : w.Topmost m.thread.stack) :
    CallRestores table depth c w m
      ((VM.loggedCall (Conduct.runnerAt table.conducts depth) c w).run m) := by
  have runners := Diary.corresponding_runnerAt table depth
  have same := (Diary.correspond_loggedCall runners c w m trivial).1
  rw [VM.run_watchedCall] at same
  have machine := (congrArg Prod.snd same).symm
  have cuts : VM.Cuts w (VM.callee (Body.runnerAt unheeded table depth) w c) :=
    Body.cuts_callee (Body.cutsAll_runnerAt unheeded table depth) w c
  have after := Stands.leaves_loggedCall (Stands.bracketing_runnerAt table.conducts depth) c w _ m
    opens.stands
  refine ⟨(congrArg Prod.fst same).symm, machine, ?_, fun a b here => ?_⟩
  · have stack := congrArg (fun m => m.thread.stack) machine
    exact stack.trans (cuts _ topmost _ rfl)
  · obtain ⟨new, later⟩ := opens.diary ▸ after.later
    have born := later.born.trans (List.append_nil new)
    have due : Diary.blank.due m.world.heap.callingFrame? 0 a = m.world.heap.callingFrame? a :=
      Option.or_none
    rw [after.frames a b here, later.due, born, due]

end CellMachine
