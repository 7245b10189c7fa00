import CellMachine.Proofs.Machine.Calling

/-!
# Breaks

A break out of the body of a block ends the outermost of the calls to which the block was
passed, with the value of the break. All calls inside of that one hand it on, unless a body
makes something else of it. If the block was passed to no call that is still running, there
is no such break but an error of another kind.

What happens is written to a journal. Bodies may catch a break and do other things before
they end with it, but they do not end with one that they have not seen.
-/

namespace CellMachine

/-- What is written down, with the calls that had not returned then, the innermost first. -/
inductive Event where
  /-- A break was asked for, in the own environment of the body or in another one. -/
  | broke (active : List Activity) (own : Bool) (v : Value) (e : CallError)
  /-- The innermost call has returned. Its body, if there was time to run it, has ended before. -/
  | returned (active : List Activity) (body : Option (Except Halt Value)) (r : Except Halt Value)

structure Journal where
  active : List Activity
  /-- How the body of the innermost call has ended. -/
  ended : Option (Except Halt Value)
  /-- The latest first. -/
  events : List Event

namespace Journal

def blank : Journal := ⟨[], none, []⟩

def note : Note → Journal → Journal
  | .calls call, j => ⟨call :: j.active, none, j.events⟩
  | .ends r, j => { j with ended := some r }
  | .returns r, j => ⟨j.active.tail, none, .returned j.active j.ended r :: j.events⟩
  | .breaks own v e, j => { j with events := .broke j.active own v e :: j.events }

end Journal

/-- Inside of these calls, the body of the block has asked for a break to the caller of the
outermost of those among them that were passed the block. -/
def Raised (a : Address) (active : List Activity) (target : FrameId) (v : Value)
    (events : List Event) : Prop :=
  ∃ around, Event.broke (.block (some a) :: around) true v (.break target v) ∈ events ∧
    active <:+ .block (some a) :: around ∧ outermost a active = some target

/-- What can happen after other events. -/
inductive Event.Right (earlier : List Event) : Event → Prop
  /-- A break out of the body of a block leads to the caller of the outermost call with it. -/
  | raised {a : Address} {around : List Activity} {target : FrameId} (v : Value)
      (passed : outermost a around = some target) :
      Right earlier (.broke (.block (some a) :: around) true v (.break target v))
  /-- If there is no such call, or if it is not the body of a block, it leads nowhere. -/
  | stray {active : List Activity} {own : Bool} (v : Value)
      (nowhere : own = true → aim active = none) :
      Right earlier (.broke active own v .strayBreak)
  /-- A call whose body was not run raises no break. -/
  | unrun {active : List Activity} {r : Except Halt Value} (tame : VM.Tame r) :
      Right earlier (.returned active none r)
  /-- A call whose body has not ended with a break has the same outcome. -/
  | plain {active : List Activity} {r : Except Halt Value} (tame : VM.Tame r) :
      Right earlier (.returned active (some r) r)
  /-- A break has reached the outermost call with the block, and its value is the result. -/
  | reached {a : Address} {rest : List Activity} {target : FrameId} {v : Value}
      (raised : Raised a (.method target (some a) :: rest) target v earlier)
      (last : outermost a rest = none) :
      Right earlier (.returned (.method target (some a) :: rest)
        (some (.error (.error (.break target v)))) (.ok v))
  /-- A break goes through a call that was made in another frame, further in. -/
  | through {a : Address} {call : Activity} {rest : List Activity} {target : FrameId} {v : Value}
      (raised : Raised a (call :: rest) target v earlier) (further : outermost a rest = some target)
      (other : call.caller? ≠ some target) :
      Right earlier (.returned (call :: rest) (some (.error (.error (.break target v))))
        (.error (.error (.break target v))))

/-- Each event is right after those before it. -/
def AllRight : List Event → Prop
  | [] => True
  | e :: earlier => e.Right earlier ∧ AllRight earlier

/-- The errors known after an outcome has become known. -/
def hears {α : Type} (r : Except Halt α) (known : List CallError) : List CallError :=
  match r with
  | .error (.error e) => e :: known
  | _ => known

/-- If the body ends with a break, that is among the outcomes of its breaks and calls. -/
def Body.Honest {σ : Type} : Body σ → List CallError → Prop
  | done r, known => ∀ target v, r = .error (.error (.break target v)) → .break target v ∈ known
  | look next, known => ∀ ws m, (next ws m).Honest known
  | deed _ next, known => ∀ r, (next r).Honest (hears r known)
  | openWindow _ next, known => ∀ r, (next r).Honest (hears r known)
  | take _ _ next, known => ∀ r, (next r).Honest (hears r known)
  | close next, known => next.Honest known
  | child _ _ _ _ next, known => next.Honest known
  | breakWith _ _ next, known => ∀ e, (next e).Honest (e :: known)
  | call _ _ next, known => ∀ r, (next r).Honest (hears r known)

/-- Something that stays as it is when more is written to the journal. -/
def Lasting (V : List Event → Prop) : Prop := ∀ e events, V events → V (e :: events)

/-- A call is apart from the calls around it if those were made from other frames. -/
def Activity.Apart (call : Activity) (active : List Activity) : Prop :=
  ∀ id, call.caller? = some id → id ∉ callersOf active

/-- If it is a break, the body that asked for it is known. -/
def Explained {α : Type} (active : List Activity) (r : Except Halt α) (events : List Event) :
    Prop :=
  ∀ target v, r = .error (.error (.break target v)) → ∃ a, Raised a active target v events

/-- What is the case after a body has heard of an outcome. -/
structure Heard {α : Type} (V : List Event → Prop) (active : List Activity) (r : Except Halt α)
    (events : List Event) : Prop where
  rest : V events
  explained : Explained active r events

/-- The journal while a body of the innermost of these calls is running. -/
structure Underway (V : List Event → Prop) (active : List Activity) (j : Journal) : Prop where
  calling : j.active = active
  ended : j.ended = none
  right : AllRight j.events
  rest : V j.events

/-- The journal when the body is over, or was not run. -/
structure Over (V : List Event → Prop) (active : List Activity) (r : Except Halt Value)
    (j : Journal) : Prop where
  calling : j.active = active
  right : AllRight j.events
  rest : V j.events
  outcome : (j.ended = none ∧ VM.Tame r) ∨ (j.ended = some r ∧ Explained active r j.events)

variable {V W : List Event → Prop} {active : List Activity} {j : Journal} {call : Activity}
  {r : Except Halt Value} {events : List Event}

lemma lasting_explained {α : Type} (active : List Activity) (r : Except Halt α) :
    Lasting (Explained active r) := by
  intro e events explained target v same
  obtain ⟨a, around, broke, inside, passed⟩ := explained target v same
  exact ⟨a, around, List.mem_cons_of_mem _ broke, inside, passed⟩

lemma explained_of_tame {α : Type} {r : Except Halt α} (tame : VM.Tame r) :
    Explained active r events :=
  fun target v same => absurd same (tame target v)

lemma Lasting.heard {α : Type} (lasting : Lasting V) (active : List Activity)
    (r : Except Halt α) : Lasting (Heard V active r) :=
  fun e events heard =>
    ⟨lasting e events heard.rest, lasting_explained _ _ e events heard.explained⟩

lemma Lasting.and_const (lasting : Lasting V) (E : Prop) : Lasting fun events => V events ∧ E :=
  fun e events both => ⟨lasting e events both.1, both.2⟩

lemma Underway.mono (underway : Underway V active j) (h : V j.events → W j.events) :
    Underway W active j :=
  ⟨underway.calling, underway.ended, underway.right, h underway.rest⟩

lemma Underway.calls (underway : Underway V active j) (call : Activity) :
    Underway V (call :: active) (j.note (.calls call)) :=
  ⟨congrArg _ underway.calling, rfl, underway.right, underway.rest⟩

/-- A call of which the body is not run. -/
lemma Underway.idle (underway : Underway V active j) (tame : VM.Tame r) : Over V active r j :=
  ⟨underway.calling, underway.right, underway.rest, .inl ⟨underway.ended, tame⟩⟩

lemma tame_or_break (r : Except Halt Value) :
    VM.Tame r ∨ ∃ target v, r = .error (.error (.break target v)) := by
  by_cases tame : VM.Tame r
  · exact .inl tame
  · rw [VM.Tame] at tame
    push Not at tame
    exact .inr tame

/-- A break that is raised inside of a call goes through it or has reached it. -/
lemma right_returned {a : Address} {target : FrameId} {v : Value}
    (raised : Raised a (call :: active) target v events)
    (apart : call.Apart active) :
    (Event.returned (call :: active) (some (.error (.error (.break target v))))
        (call.lands (.error (.error (.break target v))))).Right events ∧
      Explained active (call.lands (.error (.error (.break target v)))) events := by
  obtain ⟨around, broke, inside, passed⟩ := raised
  cases further : outermost a active with
  | some id =>
    have same : id = target := by
      rw [outermost, further, Option.some_or] at passed
      exact Option.some.inj passed
    rw [same] at further
    have other : call.caller? ≠ some target := fun here =>
      apart target here (mem_callersOf_of_outermost further)
    rw [call.lands_break_of_ne other]
    refine ⟨.through ⟨around, broke, inside, passed⟩ further other, fun t w same => ?_⟩
    obtain ⟨rfl, rfl⟩ : target = t ∧ v = w := by simpa using same
    exact ⟨a, around, broke, (List.suffix_cons call active).trans inside, further⟩
  | none =>
    have own : call = .method target (some a) := by
      rw [outermost, further, Option.none_or] at passed
      exact passer_eq_some_iff.mp passed
    subst own
    rw [Activity.lands_break]
    exact ⟨.reached ⟨around, broke, inside, passed⟩ further, explained_of_tame (VM.tame_ok v)⟩

lemma aim_eq_some_iff {target : FrameId} : aim active = some target ↔
    ∃ a around, active = .block (some a) :: around ∧ outermost a around = some target := by
  constructor
  · intro aims
    match active, aims with
    | .block (some a) :: around, aims => exact ⟨a, around, rfl, aims⟩
  · rintro ⟨a, around, rfl, passed⟩
    exact passed

/-- The journal after a break was asked for. -/
lemma Underway.breaks (underway : Underway V active j) (lasting : Lasting V) (own : Bool)
    (v : Value) {e : CallError} (leads : e = (if own then aim active else none).elim .strayBreak
      fun target => .break target v) :
    Underway (Heard V active (.error (.error e) : Except Halt Value)) active
      (j.note (.breaks own v e)) := by
  have step : (Event.broke active own v e).Right j.events →
      Explained active (.error (.error e) : Except Halt Value) (.broke active own v e :: j.events) →
      Underway (Heard V active (.error (.error e) : Except Halt Value)) active
        (j.note (.breaks own v e)) := by
    obtain ⟨rfl, ended, right, rest⟩ := underway
    exact fun now explained => ⟨rfl, ended, ⟨now, right⟩, lasting _ _ rest, explained⟩
  subst leads
  cases aims : (if own then aim active else none) with
  | none =>
    rw [aims] at step
    refine step (.stray v fun here => ?_) fun t w same => by cases same
    rwa [if_pos here] at aims
  | some target =>
    rw [aims] at step
    cases own with
    | false => cases aims
    | true =>
      obtain ⟨a, around, rfl, passed⟩ := aim_eq_some_iff.mp aims
      refine step (.raised v passed) fun t w same => ?_
      obtain ⟨rfl, rfl⟩ : target = t ∧ v = w := by simpa using same
      refine ⟨a, around, List.mem_cons_self, List.suffix_rfl, ?_⟩
      rw [outermost_cons_of_none rfl, passed]

/-- The journal after a call has returned. -/
lemma Over.returned (after : Over V (call :: active) r j) (lasting : Lasting V)
    (apart : call.Apart active) :
    Underway (Heard V active (call.lands r)) active (j.note (.returns (call.lands r))) := by
  have step : ∀ body, j.ended = body →
      (Event.returned (call :: active) body (call.lands r)).Right j.events ∧
        Explained active (call.lands r) j.events →
      Underway (Heard V active (call.lands r)) active (j.note (.returns (call.lands r))) := by
    rintro body rfl ⟨right, explained⟩
    refine ⟨congrArg List.tail after.calling, rfl, ⟨after.calling ▸ right, after.right⟩, ?_⟩
    exact ⟨lasting _ _ after.rest, lasting_explained _ _ _ _ explained⟩
  rcases after.outcome with ⟨unrun, tame⟩ | ⟨ended, explained⟩
  · refine step none unrun ⟨?_, ?_⟩
    · rw [call.lands_of_tame tame]
      exact .unrun tame
    · rw [call.lands_of_tame tame]
      exact explained_of_tame tame
  · refine step (some r) ended ?_
    rcases tame_or_break r with tame | ⟨target, v, rfl⟩
    · rw [call.lands_of_tame tame]
      exact ⟨.plain tame, explained_of_tame tame⟩
    · obtain ⟨a, raised⟩ := explained target v rfl
      exact right_returned raised apart

/-- What was noted of the body so far says where each break comes from that it knows. -/
def Knows (V : List Event → Prop) (active : List Activity) (known : List CallError) : Prop :=
  ∀ events, V events → ∀ target v, .break target v ∈ known → ∃ a, Raised a active target v events

lemma mem_hears {α : Type} {q : Except Halt α} {known : List CallError} {e : CallError}
    (mem : e ∈ hears q known) : e ∈ known ∨ q = .error (.error e) := by
  match q, mem with
  | .ok a, mem => exact .inl mem
  | .error (.fault f), mem => exact .inl mem
  | .error (.refused f), mem => exact .inl mem
  | .error .exhausted, mem => exact .inl mem
  | .error (.error e'), mem =>
    rcases List.mem_cons.mp mem with rfl | old
    · exact .inr rfl
    · exact .inl old

lemma Knows.mono {known : List CallError} (knows : Knows V active known)
    (h : ∀ events, W events → V events) : Knows W active known :=
  fun events rest => knows events (h events rest)

lemma hears_fault {α : Type} (r : Except Fault α) (known : List CallError) :
    hears (r.mapError Halt.fault) known = known := by
  cases r with
  | _ => rfl

lemma hears_error {α : Type} (β : Type) (h : Halt) (known : List CallError) :
    hears (.error h : Except Halt α) known = hears (.error h : Except Halt β) known := by
  cases h with
  | _ => rfl

lemma Knows.hears {α : Type} {known : List CallError} (knows : Knows V active known)
    (q : Except Halt α) : Knows (Heard V active q) active (hears q known) := by
  rintro events ⟨rest, explained⟩ target v mem
  rcases mem_hears mem with old | rfl
  · exact knows events rest target v old
  · exact explained target v rfl

lemma mem_of_envAt {envs : List Env} {i : Nat} {e : Env} (here : envAt envs i = some e) :
    e ∈ envs := by
  cases i with
  | zero => cases here
  | succ i => exact List.mem_of_getElem? here

namespace Situation

open VM Body

variable {σ : Type} {s : Situation} {m : Machine (σ × Journal)} {run : Runner (σ × Journal)}

/-- What is asked of the runner, whatever else stays as it is when more is noted. -/
def Guided (run : Runner (σ × Journal)) : Prop :=
  ∀ V, Lasting V → Leading run (fun active host => Underway V active host.2)
    fun active r host => Over V active r host.2

lemma Ordered.apart (ordered : s.Ordered) (c : Callee) (fits : s.Fits m) :
    (Activity.of m c).Apart s.active := by
  intro id here mem
  cases c with
  | method o receiver block =>
    obtain rfl := Option.some.inj here
    have older := ordered.waiting _ mem
    rw [fits.id] at older
    exact lt_irrefl _ older
  | block a block => cases here
  | «yield» => cases here

lemma leads_watchedCall (guided : Guided run) {V : List Event → Prop} (lasting : Lasting V)
    (c : Callee) (w : Window) :
    s.Leads (fun m => s.Ordered ∧ Underway V s.active m.host.2) (watchedCall Journal.note run c w)
      fun r host => ∃ q, r = .ok q ∧ Underway (Heard V s.active q) s.active host.2 := by
  rw [watchedCall, activity_eq]
  refine Leads.read (Q := fun call m => call = Activity.of m c ∧ s.Ordered ∧
    Underway (fun events => V events ∧ call.Apart s.active) s.active m.host.2) (fun call => ?_) ?_
  · have kept := lasting.and_const (call.Apart s.active)
    refine Leads.onHost (Q := fun m => call = Activity.of m c ∧ s.Ordered ∧
      Underway (fun events => V events ∧ call.Apart s.active) (call :: s.active) m.host.2)
      (fun _ => ?_) fun m p => ⟨p.1, p.2.1, p.2.2.calls call⟩
    refine Leads.bind (leads_callee (guided _ kept) c call w).outcome (fun r => ?_) ?_
    · refine Leads.onHost (Q := fun m => Underway (Heard V s.active r) s.active m.host.2)
        (fun _ => ?_) ?_
      · exact Leads.pure fun m underway => ⟨r, rfl, underway⟩
      · rintro m ⟨q, same, q', rfl, after⟩
        obtain rfl := Except.ok.inj same
        exact (after.returned kept after.rest.2).mono fun heard => ⟨heard.rest.1, heard.explained⟩
    · rintro e host ⟨q, impossible, _⟩
      cases impossible
  · rintro m fits ⟨ordered, underway⟩
    exact ⟨rfl, ordered, underway.mono fun rest => ⟨rest, ordered.apart c fits⟩⟩

/-- A body is running that has made some environments. -/
structure Playing (s : Situation) (envs : List Env) (V : List Event → Prop) (j : Journal) :
    Prop where
  proper : s.Proper
  below : ∀ e ∈ envs, s.Below e
  underway : Underway V s.active j

variable {envs : List Env} {V : List Event → Prop}

/-- The body can make calls in all of its environments. -/
lemma leads_callIn (guided : Guided run) (lasting : Lasting V) (i : Nat) (c : Callee) (w : Window) :
    s.Leads (fun m => s.Playing envs V m.host.2)
      (inEnv (envAt envs i) (watchedCall Journal.note run c w))
      fun r host => ∃ q, r = .ok q ∧ Underway (Heard V s.active q) s.active host.2 := by
  cases here : envAt envs i with
  | none =>
    exact (leads_watchedCall guided lasting c w).before
      fun m _ p => ⟨p.proper.toOrdered, p.underway⟩
  | some e =>
    have mem := mem_of_envAt here
    refine (leads_inEnv (I := fun host => (s.within e).Ordered ∧ Underway V s.active host.2)
      (leads_watchedCall guided lasting c w)).before fun m _ p => ?_
    exact ⟨p.proper.toOrdered.within (p.below e mem), p.underway⟩

/-- A break leads where it should, in the own environment of a body and in any other. -/
lemma leads_watchedBreak (lasting : Lasting V) (i : Nat) (v : Value) :
    s.Leads (fun m => s.Playing envs V m.host.2)
      (watchedBreak Journal.note (envAt envs i) v : VM (σ × Journal) CallError)
      fun r host => ∃ e, r = .ok e ∧
        Underway (Heard V s.active (.error (.error e) : Except Halt Value)) s.active host.2 := by
  rw [watchedBreak, inEnv_breakWith]
  refine Leads.read (Q := fun e m => Underway V s.active m.host.2 ∧
    (e = (if (envAt envs i).isNone then aim s.active else none).elim .strayBreak
      fun target => .break target v)) (fun e => ?_) ?_
  · exact Leads.onHost (Q := fun m =>
        Underway (Heard V s.active (.error (.error e) : Except Halt Value)) s.active m.host.2)
      (fun _ => Leads.pure fun m underway => ⟨e, rfl, underway⟩)
      fun m p => p.1.breaks lasting _ v p.2
  · intro m fits p
    refine ⟨p.underway, ?_⟩
    cases here : envAt envs i with
    | none =>
      rw [← p.proper.target, ← fits.target]
      rfl
    | some e =>
      have target := (p.below e (mem_of_envAt here)).target
      change (e.frame.breakTarget).elim _ _ = _
      rw [target]
      rfl

lemma Playing.child {j : Journal} (p : s.Playing envs V j) {e : Env}
    (new : s.least ≤ e.frame.id.number) (target : e.frame.breakTarget = none) :
    Playing { s with least := e.frame.id.number + 1 } (envs ++ [e]) V j := by
  have present := p.proper.present
  refine ⟨⟨⟨p.proper.waiting, ?_⟩, p.proper.target⟩, fun e' mem => ?_, p.underway⟩
  · exact present.trans_le (new.trans (Nat.le_succ _))
  · rcases List.mem_append.mp mem with old | same
    · obtain ⟨older, present', target'⟩ := p.below e' old
      exact ⟨older, present'.trans_le (new.trans (Nat.le_succ _)), target'⟩
    · obtain rfl := List.mem_singleton.mp same
      exact ⟨present.trans_le new, Nat.lt_succ_self _, target⟩

variable {α : Type}

/-- A step of the body of which something is heard, and the rest of the body. -/
lemma leads_next {β : Type} (heard : β → Except Halt α) {x : VM (σ × Journal) β}
    {f : β → VM (σ × Journal) Value}
    (first : s.Leads (fun m => s.Playing envs V m.host.2) x fun r host => ∃ q, r = .ok q ∧
      Underway (Heard V s.active (heard q)) s.active host.2)
    (rest : ∀ q, s.Leads (fun m => s.Playing envs (Heard V s.active (heard q)) m.host.2) (f q)
      fun r host => Underway (Heard (Heard V s.active (heard q)) s.active r) s.active host.2) :
    s.Leads (fun m => s.Playing envs V m.host.2) (x >>= f) fun r host =>
      Underway (Heard V s.active r) s.active host.2 := by
  refine Leads.before (Leads.bind (first.also (s.Proper ∧ ∀ e ∈ envs, s.Below e)) (fun q => ?_) ?_)
    fun m _ p => ⟨⟨p.proper, p.below⟩, p⟩
  · refine ((rest q).before ?_).conseq fun r host after =>
      after.mono fun both => ⟨both.rest.rest, both.explained⟩
    rintro m - ⟨⟨proper, below⟩, _, same, underway⟩
    obtain rfl := Except.ok.inj same
    exact ⟨proper, below, underway⟩
  · rintro e host ⟨_, _, impossible, _⟩
    cases impossible

/-- A step that is no call and no break. -/
lemma leads_tame {x : VM (σ × Journal) α}
    (keeps : ∀ J : Journal → Prop, Keeps (s.Holds fun host => J host.2) x) :
    s.Leads (fun m => s.Playing envs V m.host.2) (outcome x) fun r host => ∃ q, r = .ok q ∧
      Underway (Heard V s.active q) s.active host.2 := by
  refine Leads.conseq (Leads.outcome (leads_of_keeps
    (J := fun host : σ × Journal => s.Playing envs V host.2)
    fun E => keeps fun j => E ∧ s.Playing envs V j)) ?_
  rintro r host ⟨q, rfl, tame, p⟩
  exact ⟨q, rfl, p.underway.mono fun rest => ⟨rest, explained_of_tame tame⟩⟩

/-- A body ends with no break that is not explained. -/
lemma leads_play (guided : Guided run) (b : Body σ) {s : Situation} {V : List Event → Prop}
    (lasting : Lasting V) {known : List CallError} (honest : b.Honest known)
    (knows : Knows V s.active known) (ws : List Window) (envs : List Env) :
    s.Leads (fun m => s.Playing envs V m.host.2) (b.play Journal.note run ws envs) fun r host =>
      Underway (Heard V s.active r) s.active host.2 := by
  induction b generalizing s V known ws envs with
  | done r =>
    refine Leads.pass (J := fun host : σ × Journal => s.Playing envs V host.2)
      (fun E m holds => ⟨⟨_, rfl⟩, holds.onStack _⟩) fun _ => Leads.ofOutcome fun m p => ?_
    refine p.underway.mono fun rest => ⟨rest, fun target v same => ?_⟩
    exact knows _ rest target v (honest target v same)
  | look next ih =>
    exact Leads.read (Q := fun _ m => s.Playing envs V m.host.2)
      (fun m => ih ws m.unwatched lasting (honest ws m.unwatched) knows ws envs) fun _ _ p => p
  | deed d next ih =>
    refine leads_next (fun q => q) (leads_tame fun J => keeps_deed d) fun q => ?_
    exact ih q (lasting.heard _ q) (honest q) (knows.hears q) ws envs
  | openWindow o next ih =>
    rw [play]
    refine leads_next (fun q => q) (leads_tame fun J => keeps_opened ws o) fun q => ?_
    have kept := lasting.heard s.active q
    cases q with
    | ok w =>
      exact ih (.ok ()) kept (honest (.ok ())) (knows.mono fun _ heard => heard.rest) (w :: ws) envs
    | error h =>
      have heard := knows.hears (.error h : Except Halt Window)
      rw [hears_error Unit] at heard
      exact ih (.error h) kept (honest (.error h)) heard ws envs
  | take i t next ih =>
    rw [play]
    split
    · rename_i w _
      refine Leads.pass (J := fun host : σ × Journal => s.Playing envs V host.2)
        (fun E => passes_taken w t) fun taken => ?_
      have heard := honest (taken.1.mapError .fault)
      rw [hears_fault] at heard
      exact ih _ lasting heard knows (ws.set i taken.2) envs
    · exact ih (.ok none) lasting (honest (.ok none)) knows ws envs
  | close next ih =>
    cases ws with
    | nil => exact ih lasting honest knows [] envs
    | cons w rest =>
      exact Leads.pass (J := fun host : σ × Journal => s.Playing envs V host.2)
        (fun E => passes_releaseWindow w) fun _ => ih lasting honest knows rest envs
  | child env method outer block next ih =>
    refine leads_child (I := fun host : σ × Journal => s.Playing envs V host.2) fun e => ?_
    refine (ih (s := { s with least := e.frame.id.number + 1 }) lasting honest knows ws
      (envs ++ [e])).before ?_
    rintro m - ⟨⟨new, target⟩, p⟩
    exact p.child new target
  | breakWith env v next ih =>
    refine leads_next (fun e => (.error (.error e) : Except Halt Value))
      (leads_watchedBreak lasting env v) fun e => ?_
    exact ih e (lasting.heard _ _) (honest e) (knows.hears (.error (.error e))) ws envs
  | call env c next ih =>
    have called : ∀ w rest, s.Leads (fun m => s.Playing envs V m.host.2) (do
        let r ← inEnv (envAt envs env) (watchedCall Journal.note run c w)
        play Journal.note run (next r) rest envs) fun r host =>
        Underway (Heard V s.active r) s.active host.2 := by
      intro w rest
      refine leads_next (fun q => q) (leads_callIn guided lasting env c w) fun q => ?_
      exact ih q (lasting.heard _ q) (honest q) (knows.hears q) rest envs
    cases ws with
    | nil =>
      exact Leads.pass (J := fun host : σ × Journal => s.Playing envs V host.2)
        (fun E => passes_pushWindow [] false) fun w => called w []
    | cons w rest => exact called w rest

/-- The end of a body is noted. -/
lemma leads_watched {x : VM (σ × Journal) Value} {P : Machine (σ × Journal) → Prop}
    (h : s.Leads P x fun r host => Underway (Heard V s.active r) s.active host.2) :
    s.Leads P (do
      let r ← outcome x
      noted Journal.note (.ends r)
      ofOutcome r) fun r host => Over V s.active r host.2 := by
  refine Leads.bind h.outcome (fun r => ?_) ?_
  · refine Leads.onHost (Q := fun m => Over V s.active r m.host.2)
      (fun _ => Leads.ofOutcome fun m after => after) ?_
    rintro m ⟨_, same, underway⟩
    obtain rfl := Except.ok.inj same
    exact ⟨underway.calling, underway.right, underway.rest.rest,
      .inr ⟨rfl, underway.rest.explained⟩⟩
  · rintro e host ⟨_, impossible, _⟩
    cases impossible

/-- What is asked of bodies carries over to the runner, however deep calls are nested. -/
lemma guided_runnerAt {table : BodyTable σ}
    (honest : ∀ i receiver block, (table i receiver block).Honest []) (depth : Nat) :
    Guided (runnerAt Journal.note table depth) := by
  induction depth with
  | zero =>
    intro V lasting
    refine ⟨fun s native receiver w block => ?_, fun _ _ _ tame underway => underway.idle tame⟩
    refine Leads.before (leads_of_ensures
      (J := fun host : σ × Journal => Underway V s.active host.2) fun E => ?_) fun m _ p => p.2
    refine (passes_releaseWindow w).bind fun _ => Ensures.halt fun m holds => holds.mono ?_
    exact fun _ j => ⟨j.1, j.2.idle fun _ _ same => by cases same⟩
  | succ depth ih =>
    intro V lasting
    refine ⟨fun s native receiver w block => leads_watched ?_,
      fun _ _ _ tame underway => underway.idle tame⟩
    cases native with
    | primitive p =>
      refine Leads.before (leads_of_ensures
        (J := fun host : σ × Journal => Underway V s.active host.2) fun E => ?_) fun m _ p => p.2
      refine Ensures.runPrimitive (fun o plain => keeps_allocate ?_) ?_ p receiver
      · rw [Object.Detached, plain]
        rfl
      · exact fun r m holds tame => (holds.released w).mono fun _ j =>
          ⟨j.1, j.2.mono fun rest => ⟨rest, explained_of_tame tame⟩⟩
    | body i =>
      refine (leads_play ih (table i receiver block) lasting (honest i receiver block)
        (fun _ _ _ _ mem => by cases mem) [w] []).before fun m _ p => ?_
      exact ⟨p.1, fun _ mem => (by cases mem), p.2⟩

end Situation

/-- A program that runs outside of all calls, with nested calls at most so deep. -/
def Body.journaled {σ : Type} (program : Body σ) (table : BodyTable σ) (depth : Nat) :
    VM (σ × Journal) Value :=
  program.play Journal.note (runnerAt Journal.note table depth) [] []

namespace Machine

variable {σ : Type}

/-- At the start of a run there are no calls. -/
lemma holds_create {s : Settings} {file : String} {shared : σ} {m : Machine (σ × Journal)}
    (created : create s file (shared, .blank) = .ok m) :
    Situation.Holds ⟨[], m.thread.frame.id.number + 1, m.thread.frame.id, none, []⟩
      (fun host => Underway (fun _ => True) [] host.2) m := by
  cases made : World.create s with
  | error f =>
    rw [create, made] at created
    cases created
  | ok w =>
    rw [create, made] at created
    obtain rfl := Except.ok.inj created
    obtain ⟨sound, frames⟩ := World.frames_create made
    refine ⟨sound, frames.imp_right fun unknown => ?_⟩
    exact ⟨⟨unknown, fun c mem => absurd mem (Array.not_mem_empty c), le_rfl, rfl, rfl, rfl⟩,
      rfl, rfl, trivial, trivial⟩

/-- What a run of a program has come to. -/
structure BreaksLand (r : Except Halt Value) (j : Journal) : Prop where
  /-- All breaks lead to the right frames, and end the right calls. -/
  right : AllRight j.events
  /-- All calls have returned, -/
  returned : j.active = []
  /-- and no break has come out of all of them. -/
  tame : VM.Tame r

/-- Breaks reach their frames and no others, if no block is dropped while a call with it runs. -/
theorem breaksLand {table : BodyTable σ}
    (honest : ∀ i receiver block, (table i receiver block).Honest []) (depth : Nat)
    {program : Body σ} (fair : program.Honest []) {s : Settings} {file : String} {shared : σ}
    {m : Machine (σ × Journal)} (created : create s file (shared, .blank) = .ok m)
    (kept : ¬ ((program.journaled table depth).run m).2.world.heap.Bereft) :
    BreaksLand ((program.journaled table depth).run m).1
      ((program.journaled table depth).run m).2.host.2 := by
  have plays := Situation.leads_play (Situation.guided_runnerAt honest depth) program
    (s := ⟨[], m.thread.frame.id.number + 1, m.thread.frame.id, none, []⟩)
    (V := fun _ => True) (fun _ _ _ => trivial) fair (fun _ _ _ _ mem => by cases mem) [] []
  have proper : Situation.Proper ⟨[], m.thread.frame.id.number + 1, m.thread.frame.id, none, []⟩ :=
    ⟨⟨fun _ mem => (by cases mem), Nat.lt_succ_self _⟩, rfl⟩
  obtain ⟨sound, bereft | ⟨fits, underway⟩⟩ := holds_create created
  · exact absurd (plays.lost m ⟨sound, bereft⟩).2 kept
  · obtain ⟨_, bereft | ⟨_, after⟩⟩ := plays.fits m sound fits
      ⟨proper, fun _ mem => (by cases mem), underway⟩
    · exact absurd bereft kept
    · refine ⟨after.right, after.calling, fun target v same => ?_⟩
      obtain ⟨a, around, _, _, nothing⟩ := after.rest.explained target v same
      cases nothing

/-- A heap whose blocks hold eight cells each. -/
def roomy : Settings := { Settings.standard with sizeClasses := [4064], initialBlocks := 1 }

def started : Machine (Unit × Journal) :=
  (create roomy "main" ((), .blank)).toOption.get (by decide +kernel)

lemma create_roomy : create roomy "main" ((), .blank) = .ok started := eq_ok_get _

def each : MethodObject := ⟨"each", .body 0, none, none, false⟩

def passOn : MethodObject := ⟨"pass_on", .body 1, none, none, false⟩

/-- The last of the three breaks with 7; the others hand on what comes. -/
def passes : BodyTable Unit := fun i receiver block =>
  match i with
  | 0 => .call 0 .yield .done
  | 1 => .call 0 (.method each receiver block) .done
  | _ => .breakWith 0 (.smallInt 7) fun e => .done (.error (.error e))

/-- Calls with a block that is passed on to a second call. -/
def passing : Body Unit :=
  .deed (.allocate (.block (.closure (.body 2) none (.smallInt 0) none))) fun r =>
    .call 0 (.method passOn (.smallInt 0) (r.toOption.bind Value.cell?)) .done

/-- A body may end with what it has heard last. -/
lemma honest_done (r : Except Halt Value) (known : List CallError) :
    (Body.done r : Body Unit).Honest (hears r known) := by
  rintro target v rfl
  exact List.mem_cons_self

lemma honest_passes (i : Nat) (receiver : Value) (block : Option Address) :
    (passes i receiver block).Honest [] := by
  match i with
  | 0 => exact fun r => honest_done r []
  | 1 => exact fun r => honest_done r []
  | _ + 2 => exact fun e => honest_done (.error (.error e)) []

/-- The outer of the two calls has the value of the break. -/
theorem breaksLand_passing : (∀ i receiver block, (passes i receiver block).Honest []) ∧
    passing.Honest [] ∧ create roomy "main" ((), .blank) = .ok started ∧
    ¬ ((passing.journaled passes 3).run started).2.world.heap.Bereft ∧
    BreaksLand ((passing.journaled passes 3).run started).1
      ((passing.journaled passes 3).run started).2.host.2 ∧
    ((passing.journaled passes 3).run started).1 = .ok (.smallInt 7) := by
  have fair : passing.Honest [] := fun r q => honest_done q (hears r [])
  have kept : ¬ ((passing.journaled passes 3).run started).2.world.heap.Bereft := by
    have nothing : ((passing.journaled passes 3).run started).2.world.heap.dropped = [] := by
      decide +kernel
    rintro ⟨b, gone, _⟩
    rw [nothing] at gone
    cases gone
  refine ⟨honest_passes, fair, create_roomy, kept,
    breaksLand honest_passes 3 fair create_roomy kept, ?_⟩
  decide +kernel

end Machine

end CellMachine
