import CellMachine.Proofs.Machine.BodyConducts
import CellMachine.Proofs.Machine.FastPath

/-!
# Interrupts

An interrupt that was asked for ends the next call of a method before it has begun. Apart from
that nothing comes of it. To say so, there is a copy of each program that never asks: it notes in
a ledger where the program would have asked, and leaves out those calls of methods that the ledger
says are to end at once. The program runs as its copy does, on which no interrupt is ever pending.
-/

namespace CellMachine

inductive Moment where
  | requested
  /-- A method was called, or would have been if not for an interrupt. -/
  | called (interrupted : Bool)
deriving DecidableEq

/-- The latest moment is the first. -/
abbrev Ledger := List Moment

namespace Ledger

/-- An interrupt was asked for, and no method has been called since. -/
def due (l : Ledger) : Bool := l.head? == some .requested

/-- Of the calls, just those are interrupted before which an interrupt was asked for. -/
def Lawful (l : Ledger) : Prop :=
  ∀ later interrupted earlier, l = later ++ .called interrupted :: earlier →
    (interrupted = true ↔ ∃ before, earlier = .requested :: before)

lemma due_iff {l : Ledger} : l.due = true ↔ ∃ before, l = .requested :: before := by
  rcases l with _ | ⟨moment, before⟩
  · simp [due]
  · simp [due]

lemma Lawful.requested {l : Ledger} (lawful : l.Lawful) : Ledger.Lawful (.requested :: l) := by
  intro later interrupted earlier same
  cases later with
  | nil => cases same
  | cons _ later => exact lawful later interrupted earlier (List.cons.inj same).2

lemma Lawful.called {l : Ledger} (lawful : l.Lawful) : Ledger.Lawful (.called l.due :: l) := by
  intro later interrupted earlier same
  cases later with
  | nil =>
    obtain ⟨call, rfl⟩ := List.cons.inj same
    rw [← Moment.called.inj call]
    exact due_iff
  | cons _ later => exact lawful later interrupted earlier (List.cons.inj same).2

end Ledger

variable {σ : Type}

/-- The machine with the interrupt that is due. -/
def Machine.shown (m : Machine (σ × Ledger)) : Machine σ :=
  { m with world := m.world.interruptible m.host.2.due, host := m.host.1 }

def Moment.noted (moment : Moment) : Deed (σ × Ledger) := .share fun h => (h.1, moment :: h.2)

/-- The deed, or the note that it was to be done if it asks for an interrupt. -/
def Deed.spared : Deed σ → Deed (σ × Ledger)
  | requestInterrupt => Moment.noted .requested
  | d => d.lift fun f h => (f h.1, h.2)

/-- The call of a method, or its outcome if an interrupt is due. -/
def Callee.spared (env : Nat) (c : Callee) (next : Except Halt Value → Body (σ × Ledger)) :
    Body (σ × Ledger) :=
  match c with
  | method _ _ _ => .look fun _ m =>
    .deed (Moment.noted (.called m.host.2.due)) fun _ =>
      if m.host.2.due then .close (next (.error (.error .interrupt))) else .call env c next
  | _ => .call env c next

/-- The copy of a body that does not ask. -/
def Body.spared : Body σ → Body (σ × Ledger)
  | done r => .done r
  | look next => .look fun ws m => (next ws m.shown).spared
  | deed d next => .deed d.spared fun r => (next r).spared
  | openWindow o next => .openWindow o fun r => (next r).spared
  | take i t next => .take i t fun r => (next r).spared
  | close next => .close next.spared
  | child env method outer block next => .child env method outer block next.spared
  | breakWith env v next => .breakWith env v fun e => (next e).spared
  | call env c next => c.spared env fun r => (next r).spared

def BodyTable.spared (table : BodyTable σ) : BodyTable (σ × Ledger) :=
  fun i receiver block => (table i receiver block).spared

/-- The body asks for no interrupt, whatever it sees. -/
def Body.Silent : Body σ → Prop
  | done _ => True
  | look next => ∀ ws m, (next ws m).Silent
  | deed d next => d ≠ .requestInterrupt ∧ ∀ r, (next r).Silent
  | openWindow _ next => ∀ r, (next r).Silent
  | take _ _ next => ∀ r, (next r).Silent
  | close next => next.Silent
  | child _ _ _ _ next => next.Silent
  | breakWith _ _ next => ∀ e, (next e).Silent
  | call _ _ next => ∀ r, (next r).Silent

lemma Deed.silent_spared (d : Deed σ) : d.spared ≠ .requestInterrupt := by
  cases d <;> exact fun same => by cases same

lemma Body.silent_spared (b : Body σ) : b.spared.Silent := by
  induction b with
  | done r => trivial
  | look next ih => exact fun ws m => ih ws m.shown
  | deed d next ih => exact ⟨d.silent_spared, ih⟩
  | openWindow o next ih => exact ih
  | take i t next ih => exact ih
  | close next ih => exact ih
  | child env method outer block next ih => exact ih
  | breakWith env v next ih => exact ih
  | call env c next ih =>
    cases c with
    | method o receiver block =>
      refine fun ws m => ⟨fun same => (by cases same), fun r => ?_⟩
      split
      · exact ih _
      · exact ih
    | block a block => exact ih
    | «yield» => exact ih

namespace Ledger

def concealed : View ((σ × Ledger) × Unit) (σ × Unit) where
  host h := (h.1.1, h.2)
  pending h _ := h.1.2.due
  Fits h s := s.interrupt = false ∧ s.installed = true ∧ h.1.2.Lawful
  steady h s s' fits interrupt installed := by
    obtain ⟨quiet, on, lawful⟩ := fits
    refine ⟨?_, installed on, lawful⟩
    rw [← Bool.not_eq_true] at quiet ⊢
    exact fun pending => quiet (interrupt pending)

open VM

variable {run : Runner (σ × Unit)} {run' : Runner ((σ × Ledger) × Unit)}

lemma correspond_deed (d : Deed σ) :
    Correspond (concealed (σ := σ)) (VM.deed d) (VM.deed d.spared) := by
  by_cases asks : d = .requestInterrupt
  · subst asks
    exact fun m fits => ⟨rfl, fits.1, fits.2.1, fits.2.2.requested⟩
  · have same := Correspond.deed (V := concealed) (g := fun f h => (f h.1, h.2))
      (fun f m fits => ⟨rfl, fits⟩) d asks
    have spares : d.spared = d.lift fun f (h : σ × Ledger) => (f h.1, h.2) := by
      cases d with
      | requestInterrupt => exact absurd rfl asks
      | _ => rfl
    rwa [← spares] at same

/-- An interrupted call leaves no trace but the lost window and the interrupt that was taken. -/
lemma run_interrupted (run : Runner (σ × Unit)) {m : Machine (σ × Unit)}
    (installed : m.world.signals.installed = true) (pending : m.world.signals.interrupt = true)
    (o : MethodObject) (receiver : Value) (block : Option Address) (w : Window) (e : Option Env) :
    (inEnv e (watchedCall unheeded run (.method o receiver block) w)).run m =
      (.ok (.error (.error .interrupt)),
        VM.released w { m with world := m.world.interruptible false }) := by
  have polled := World.pollInterrupt_of_pending installed pending
  have ended : ∀ m' : Machine (σ × Unit), m'.world = m.world →
      (watchedCall unheeded run (.method o receiver block) w).run m' =
        (.ok (.error (.error .interrupt)),
          VM.released w { m' with world := m.world.interruptible false }) := by
    intro m' same
    have taken : m'.world.pollInterrupt.1 = true := by rw [same, polled]
    rw [run_watchedCall, callee, Machine.run_interrupted taken, same, polled]
  cases e with
  | none => exact ended m rfl
  | some e =>
    have inside := ended (enterEnv e m) rfl
    change (((watchedCall unheeded run (.method o receiver block) w).run (enterEnv e m)).1,
      enterEnv ⟨m.thread.frame, m.thread.callers⟩
        ((watchedCall unheeded run (.method o receiver block) w).run (enterEnv e m)).2) = _
    rw [inside]
    rfl

variable {next : Except Halt Value → Body σ} {m : Machine ((σ × Ledger) × Unit)} {envs : List Env}

/-- The machine after the note of a call. -/
def afterCall (m : Machine ((σ × Ledger) × Unit)) : Machine ((σ × Ledger) × Unit) :=
  { m with host := ((m.host.1.1, .called m.host.1.2.due :: m.host.1.2), ()) }

lemma run_spared (env : Nat) (o : MethodObject) (receiver : Value) (block : Option Address)
    (ws : List Window) :
    ((Body.call env (.method o receiver block) next).spared.play unheeded run' ws envs).run m =
      ((if m.host.1.2.due then .close (next (.error (.error .interrupt))).spared
        else .call env (.method o receiver block) fun r => (next r).spared : Body (σ × Ledger)).play
          unheeded run' ws envs).run (afterCall m) := rfl

/-- The copy leaves out a call before which an interrupt was asked for. -/
lemma correspond_due (fits : concealed.FitsAt m) (due : m.host.1.2.due = true) (env : Nat)
    (o : MethodObject) (receiver : Value) (block : Option Address) (ws : List Window)
    (rest : ∀ r ws, Correspond concealed ((next r).play unheeded run ws envs)
      ((next r).spared.play unheeded run' ws envs)) :
    CorrespondAt concealed
      ((Body.call env (.method o receiver block) next).play unheeded run ws envs)
      ((Body.call env (.method o receiver block) next).spared.play unheeded run' ws envs) m := by
  have fits' : concealed.FitsAt (afterCall m) := ⟨fits.1, fits.2.1, fits.2.2.called⟩
  rw [CorrespondAt, run_spared, if_pos due]
  have interrupted : ∀ (w : Window) (m₁ : Machine (σ × Unit)) ws,
      m₁.world = (concealed.seen m).world →
      (do
        let r ← inEnv (envAt envs env) (watchedCall unheeded run (.method o receiver block) w)
        (next r).play unheeded run ws envs : VM (σ × Unit) Value).run m₁ =
      ((next (.error (.error .interrupt))).play unheeded run ws envs).run
        (VM.released w { m₁ with world := m.world.interruptible false }) := by
    intro w m₁ ws same
    have installed : m₁.world.signals.installed = true := by
      rw [same]
      exact fits.2.1
    have pending : m₁.world.signals.interrupt = true := by
      rw [same]
      exact due
    have called := run_interrupted run installed pending o receiver block w (envAt envs env)
    rw [run_bind_ok called, same]
    rfl
  cases ws with
  | nil =>
    -- The empty window that the call opens is gone with it, and the copy has none to close.
    let w := Window.fresh m.thread.stack.size 0 false
    let m₁ : Machine (σ × Unit) := { concealed.seen m with
      thread := { m.thread with stack := m.thread.stack ++ ([] : List Value) } }
    have unchanged : VM.released w { m₁ with world := m.world.interruptible false } =
        concealed.seen (afterCall m) := by
      have cut : w.release (m.thread.stack ++ ([] : List Value)) = m.thread.stack :=
        Window.release_push [] false m.thread.stack
      change (⟨_, { m.thread with stack := w.release (m.thread.stack ++ ([] : List Value)) },
        _, _⟩ : Machine (σ × Unit)) = _
      rw [cut]
      rfl
    have ran : ((Body.call env (.method o receiver block) next).play unheeded run [] envs).run
        (concealed.seen m) = ((next (.error (.error .interrupt))).play unheeded run [] envs).run
          (concealed.seen (afterCall m)) := (interrupted w m₁ [] rfl).trans (congrArg _ unchanged)
    rw [ran]
    exact rest _ [] (afterCall m) fits'
  | cons w ws =>
    have ran : ((Body.call env (.method o receiver block) next).play unheeded run (w :: ws)
        envs).run (concealed.seen m) =
          ((next (.error (.error .interrupt))).play unheeded run ws envs).run
            (concealed.seen (VM.released w (afterCall m))) :=
      interrupted w (concealed.seen m) ws rfl
    rw [ran]
    exact rest _ ws (VM.released w (afterCall m)) fits'

/-- Any other call is the same call. -/
lemma correspond_watchedCall (same : CorrespondingRunners concealed run run') (c : Callee)
    (w : Window) (fits : concealed.FitsAt m)
    (quiet : (∃ o receiver block, c = .method o receiver block) → m.host.1.2.due = false) :
    CorrespondAt concealed (watchedCall unheeded run c w) (watchedCall unheeded run' c w) m := by
  have called : CorrespondAt concealed (callee run w c) (callee run' w c) m := by
    cases c with
    | method o receiver block =>
      have calm := quiet ⟨o, receiver, block, rfl⟩
      exact same.callMethod fits (calm.trans fits.1.symm) calm o receiver w block
    | block a block => exact same.callee w _ (fun _ _ _ other => by cases other) m fits
    | «yield» => exact same.callee w _ (fun _ _ _ other => by cases other) m fits
  refine ⟨?_, ?_⟩
  · rw [run_watchedCall, run_watchedCall, called.1]
  · rw [run_watchedCall]
    exact called.2

lemma correspond_call (same : CorrespondingRunners concealed run run') (c : Callee) (env : Nat)
    (ws : List Window) (fits : concealed.FitsAt m)
    (quiet : (∃ o receiver block, c = .method o receiver block) → m.host.1.2.due = false)
    (rest : ∀ r ws, Correspond concealed ((next r).play unheeded run ws envs)
      ((next r).spared.play unheeded run' ws envs)) :
    CorrespondAt concealed ((Body.call env c next).play unheeded run ws envs)
      ((Body.call env c fun r => (next r).spared).play unheeded run' ws envs) m := by
  have called : ∀ w m' ws, concealed.FitsAt m' → m'.host = m.host → CorrespondAt concealed
      (do
        let r ← inEnv (envAt envs env) (watchedCall unheeded run c w)
        (next r).play unheeded run ws envs : VM (σ × Unit) Value)
      (do
        let r ← inEnv (envAt envs env) (watchedCall unheeded run' c w)
        (next r).spared.play unheeded run' ws envs) m' := by
    intro w m' ws fits' host
    refine CorrespondAt.bind (.inEnv _ (fun m'' fits'' host' => ?_) fits') fun r => rest r ws
    refine correspond_watchedCall same c w fits'' fun method => ?_
    rw [host', host]
    exact quiet method
  cases ws with
  | nil =>
    let w := Window.fresh m.thread.stack.size 0 false
    let m₁ := { m with thread := { m.thread with stack := m.thread.stack ++ ([] : List Value) } }
    have pushed : (pushWindow [] false).run m = (.ok w, m₁) := rfl
    have seen : (pushWindow [] false).run (concealed.seen m) = (.ok w, concealed.seen m₁) := rfl
    rw [CorrespondAt, Body.play, Body.play, run_bind_ok pushed, run_bind_ok seen]
    exact called w m₁ [] fits rfl
  | cons w ws => exact called w m ws fits rfl

/-- The induction is on the body. What carries it is that no interrupt is pending on the machine of
the copy, so that the one that is seen is the one that the ledger says is due. -/
lemma correspond_play (same : CorrespondingRunners concealed run run') (b : Body σ)
    (ws : List Window) (envs : List Env) :
    Correspond concealed (b.play unheeded run ws envs) (b.spared.play unheeded run' ws envs) := by
  induction b generalizing ws envs with
  | done r => exact (Correspond.modifyStack _).bind fun _ => .ofOutcome r
  | look next ih => exact fun m fits => ih ws m.unwatched.shown ws envs m fits
  | deed d next ih => exact (correspond_deed d).outcome.bind fun r => ih r ws envs
  | openWindow o next ih =>
    rw [Body.play, Body.spared, Body.play]
    refine (Correspond.opened ws o).outcome.bind fun r => ?_
    cases r with
    | ok w => exact ih (.ok ()) (w :: ws) envs
    | error h => exact ih (.error h) ws envs
  | take i t next ih =>
    rw [Body.play, Body.spared, Body.play]
    cases ws[i]? with
    | none => exact ih (.ok none) ws envs
    | some w =>
      exact (Correspond.taken w t).bind fun r => ih (r.1.mapError .fault) (ws.set i r.2) envs
  | close next ih =>
    cases ws with
    | nil => exact ih [] envs
    | cons w rest => exact (Correspond.modifyStack _).bind fun _ => ih rest envs
  | child env method outer block next ih =>
    exact ((Correspond.childEnv method outer block).inEnv _).bind fun e => ih ws _
  | breakWith env v next ih =>
    intro m fits
    rw [CorrespondAt, Body.play, Body.spared, Body.play, run_bind_ok (run_watchedBreak _ v _),
      run_bind_ok (run_watchedBreak _ v _)]
    exact ih _ ws envs m fits
  | call env c next ih =>
    intro m fits
    cases c with
    | method o receiver block =>
      cases due : m.host.1.2.due with
      | true => exact correspond_due fits due env o receiver block ws fun r ws => ih r ws envs
      | false =>
        have fits' : concealed.FitsAt (afterCall m) := ⟨fits.1, fits.2.1, fits.2.2.called⟩
        have seen : concealed.seen m = concealed.seen (afterCall m) := by
          change (⟨m.world.interruptible m.host.1.2.due, _, _, _⟩ : Machine (σ × Unit)) = _
          rw [due]
          rfl
        rw [CorrespondAt, run_spared, due, if_neg Bool.false_ne_true, seen]
        exact correspond_call same _ env ws fits' (fun _ => rfl) fun r ws => ih r ws envs
    | block a block =>
      refine correspond_call same _ env ws fits ?_ fun r ws => ih r ws envs
      rintro ⟨_, _, _, other⟩
      cases other
    | «yield» =>
      refine correspond_call same _ env ws fits ?_ fun r ws => ih r ws envs
      rintro ⟨_, _, _, other⟩
      cases other

/-- However deep calls are nested. -/
lemma corresponding_runnerAt (table : BodyTable σ) (depth : Nat) : CorrespondingRunners concealed
    (Body.runnerAt unheeded table depth) (Body.runnerAt unheeded table.spared depth) := by
  induction depth with
  | zero => exact fun native receiver w block => (Correspond.modifyStack _).bind fun _ => .halt _
  | succ depth ih =>
    have ended : ∀ {x : VM (σ × Unit) Value} {y : VM ((σ × Ledger) × Unit) Value},
        Correspond concealed x y → Correspond concealed
          (do
            let r ← outcome x
            noted unheeded (.ends r)
            ofOutcome r)
          (do
            let r ← outcome y
            noted unheeded (.ends r)
            ofOutcome r) := fun same =>
      same.outcome.bind fun r => Correspond.bind (fun m fits => ⟨rfl, fits⟩) fun _ => .ofOutcome r
    intro native receiver w block
    cases native with
    | primitive p => exact ended (.runPrimitive p receiver w)
    | body i => exact ended (correspond_play ih (table i receiver block) [w] [])

end Ledger

/-- A program outside of all calls, with nested calls at most so deep. -/
def Body.unwatched (program : Body σ) (table : BodyTable σ) (depth : Nat) : VM (σ × Unit) Value :=
  program.play unheeded (runnerAt unheeded table depth) [] []

namespace Machine

/-- The machine for the copy of a program. -/
def sparing (m : Machine (σ × Unit)) : Machine ((σ × Ledger) × Unit) :=
  { m with
    world := m.world.interruptible false
    host := ((m.host.1, if m.world.signals.interrupt then [.requested] else []), ()) }

lemma due_sparing (m : Machine (σ × Unit)) :
    m.sparing.host.1.2.due = m.world.signals.interrupt := by
  rw [sparing]
  cases m.world.signals.interrupt with
  | false => rfl
  | true => rfl

lemma seen_sparing (m : Machine (σ × Unit)) : Ledger.concealed.seen m.sparing = m := by
  change (⟨m.world.interruptible m.sparing.host.1.2.due, _, _, _⟩ : Machine (σ × Unit)) = m
  rw [due_sparing]
  rfl

lemma lawful_sparing (m : Machine (σ × Unit)) : m.sparing.host.1.2.Lawful := by
  intro later interrupted earlier same
  have none_called : Moment.called interrupted ∉ m.sparing.host.1.2 := by
    rw [sparing]
    dsimp only
    split
    · simp
    · simp
  exact absurd (same ▸ List.mem_append_right later List.mem_cons_self) none_called

/-- What interrupts come to in a run of a program. -/
structure InterruptsOnce (table : BodyTable σ) (depth : Nat) (program : Body σ)
    (m : Machine (σ × Unit)) : Prop where
  /-- The copy never asks for an interrupt, and none is pending on its machine. -/
  silent : program.spared.Silent ∧ ∀ i receiver block, (table.spared i receiver block).Silent
  quiet : m.sparing.world.signals.interrupt = false ∧
    ((program.spared.unwatched table.spared depth).run m.sparing).2.world.signals.interrupt = false
  /-- The program comes to the same, with the same machine but for an interrupt that is due. -/
  outcome : ((program.unwatched table depth).run m).1 =
    ((program.spared.unwatched table.spared depth).run m.sparing).1
  machine : ((program.unwatched table depth).run m).2.unwatched =
    ((program.spared.unwatched table.spared depth).run m.sparing).2.unwatched.shown
  /-- The calls that are left out are just those before which an interrupt was asked for. -/
  lawful : ((program.spared.unwatched table.spared depth).run m.sparing).2.host.1.2.Lawful
  /-- A call with an interrupt pending takes it and loses its window, and does nothing else. -/
  cut : ∀ (run : Runner (σ × Unit)) (m' : Machine (σ × Unit)), m'.world.signals.installed = true →
    m'.world.signals.interrupt = true → ∀ c receiver w block,
      (VM.callMethod run c receiver w block).run m' = (.error (.error .interrupt),
        { m' with
          world := m'.world.interruptible false
          thread := { m'.thread with stack := m'.thread.stack.shrink w.origin } })
  /-- Calls restore the stack and the frames of blocks, also those that an interrupt ends. -/
  restores : ∀ (m' : Machine (σ × Diary)) c w, m'.Opens → w.Topmost m'.thread.stack →
    CallRestores table depth c w m'
      ((VM.loggedCall (Conduct.runnerAt table.conducts depth) c w).run m')

/-- Interrupts are delivered once and leave no trace. -/
theorem interruptsOnce (table : BodyTable σ) (depth : Nat) (program : Body σ)
    {m : Machine (σ × Unit)} (installed : m.world.signals.installed = true) :
    InterruptsOnce table depth program m := by
  have fits : Ledger.concealed.FitsAt m.sparing := ⟨rfl, installed, m.lawful_sparing⟩
  obtain ⟨ran, quiet, _, lawful⟩ :=
    Ledger.correspond_play (Ledger.corresponding_runnerAt table depth) program [] [] m.sparing fits
  rw [seen_sparing] at ran
  refine ⟨⟨program.silent_spared, fun i receiver block => (table i receiver block).silent_spared⟩,
    ⟨rfl, quiet⟩, congrArg Prod.fst ran, ?_, lawful, ?_, ?_⟩
  · exact congrArg (fun r => unwatched r.2) ran
  · intro run m' on pending c receiver w block
    have polled := World.pollInterrupt_of_pending on pending
    rw [run_interrupted (congrArg Prod.fst polled), polled]
    rfl
  · exact fun m' c w opens topmost => callRestores table depth c opens topmost

/-- A new machine with handlers. -/
def handled : Machine (Nat × Unit) :=
  let m := (create plainSettings "main" (0, ())).toOption.get (by decide +kernel)
  { m with world := m.world.installHandlers }

def outer : MethodObject := ⟨"outer", .body 0, none, none, false⟩

def inner : MethodObject := ⟨"inner", .body 1, none, none, false⟩

/-- The outer body counts its runs, and asks for an interrupt before it makes its call. -/
def asking : BodyTable Nat := fun i receiver _ =>
  match i with
  | 0 => .deed (.share (· + 1)) fun _ => .deed .requestInterrupt fun _ =>
    .openWindow (.values [receiver] false) fun _ => .call 0 (.method inner receiver none) .done
  | _ => .done (.ok receiver)

/-- Two requests, and two calls one after the other. -/
def impatient : Body Nat :=
  .deed .requestInterrupt fun _ => .deed .requestInterrupt fun _ =>
    .call 0 (.method outer (.smallInt 5) none) fun _ =>
    .call 0 (.method outer (.smallInt 5) none) .done

/-- The first call takes both requests, the call inside of the second takes the third, and the
error comes out of the second call. -/
theorem interruptsOnce_impatient : handled.world.signals.installed = true ∧
    InterruptsOnce asking 2 impatient handled ∧
    ((impatient.unwatched asking 2).run handled).1 = .error (.error .interrupt) ∧
    ((impatient.unwatched asking 2).run handled).2.host.1 = 1 ∧
    ((impatient.spared.unwatched asking.spared 2).run handled.sparing).2.host.1.2 =
      [.called true, .requested, .called false, .called true, .requested, .requested] := by
  refine ⟨rfl, interruptsOnce asking 2 impatient rfl, ?_, ?_, ?_⟩
  · decide +kernel
  · decide +kernel
  · decide +kernel

end Machine

end CellMachine
