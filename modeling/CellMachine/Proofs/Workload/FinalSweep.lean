import CellMachine.Proofs.Workload.Apart
import CellMachine.Proofs.Workload.SameResult

/-!
# The final sweep

The main frame leaves the heap to a sweep that takes every cell. It waits for its workers one after
the other, from the first one on, and counts those that it has not waited for: they are what the
report calls attached. A halt takes it past them. So the sweep is safe when none is attached, and
that is so after a value, whoever asked for interrupts and when; after an interrupt it need not be.
-/

namespace CellMachine

namespace Course

variable {α β : Type}

/-- Whatever the others do, the course ends so: with these workers still attached, and after waiting
for so many of them, from the first one on. -/
def Ends (post : Crew → Nat → Except Halt α → Prop) : Run α → Crew → Nat → Prop
  | done r, crew, joined => post crew joined r
  | own _ next, crew, joined => ∀ t, Ends post (next t) crew joined
  | host act next, crew, joined => Ends post (next crew) (act crew) joined
  | step _ _ next, crew, joined => ∀ m, Ends post (next m) crew joined
  | place _ next, crew, joined => ∀ r, Ends post (next r) crew joined
  | collect next, crew, joined => ∀ ran, Ends post (next ran) crew joined
  | join worker next, crew, joined => worker = joined ∧ ∀ r, Ends post (next r) crew (joined + 1)

section Ends

variable {post : Crew → Nat → Except Halt α → Prop} {post' : Crew → Nat → Except Halt β → Prop}
  {x : Run α} {f : α → Run β} {after : Run Unit} {crew : Crew} {joined : Nat}

lemma ends_follow {k : Except Halt α → Run β}
    (ends : Ends (fun crew joined r => Ends post' (k r) crew joined) x crew joined) :
    Ends post' (x.follow k) crew joined := by
  induction x generalizing crew joined with
  | done r => exact ends
  | host _ _ ih => exact ih _ ends
  | own _ _ ih | step _ _ _ ih | place _ _ ih | collect _ ih =>
    exact fun answer => ih answer (ends answer)
  | join _ _ ih => exact ⟨ends.1, fun r => ih r (ends.2 r)⟩

lemma Ends.imp {weak : Crew → Nat → Except Halt α → Prop}
    (weaker : ∀ crew joined r, post crew joined r → weak crew joined r)
    (ends : Ends post x crew joined) : Ends weak x crew joined := by
  induction x generalizing crew joined with
  | done r => exact weaker crew joined r ends
  | host _ _ ih => exact ih _ ends
  | own _ _ ih | step _ _ _ ih | place _ _ ih | collect _ ih =>
    exact fun answer => ih answer (ends answer)
  | join _ _ ih => exact ⟨ends.1, fun r => ih r (ends.2 r)⟩

/-- A course without workers leaves things as they are. -/
lemma Apart.ends (apart : x.Apart) (all : ∀ r, post crew joined r) : Ends post x crew joined := by
  induction x with
  | done r => exact all r
  | own _ _ ih | step _ _ _ ih | place _ _ ih | collect _ ih =>
    exact fun answer => ih answer (apart answer)
  | host => exact apart.elim
  | join => exact apart.elim

lemma Apart.ends_bind (apart : x.Apart) (halted : ∀ h, post' crew joined (.error h))
    (value : ∀ a, Ends post' (f a) crew joined) : Ends post' (x >>= f) crew joined := by
  refine ends_follow (apart.ends fun r => ?_)
  cases r with
  | error h => exact halted h
  | ok a => exact value a

lemma Ends.bind (ends : Ends post x crew joined)
    (halted : ∀ crew joined h, post crew joined (.error h) → post' crew joined (.error h))
    (value : ∀ crew joined a, post crew joined (.ok a) → Ends post' (f a) crew joined) :
    Ends post' (x >>= f) crew joined := by
  refine ends_follow (ends.imp fun crew joined r holds => ?_)
  cases r with
  | error h => exact halted crew joined h holds
  | ok a => exact value crew joined a holds

lemma Ends.ensuring (ends : Ends post x crew joined) (last : after.Apart) :
    Ends post (ensuring after x) crew joined :=
  ends_follow (ends.imp fun _ _ _ holds => ends_follow (last.ends fun _ => holds))

lemma Ends.outcome (ends : Ends post x crew joined) :
    Ends (fun crew joined r => ∃ r', r = .ok r' ∧ post crew joined r') (outcome x) crew joined :=
  ends_follow (ends.imp fun _ _ r holds => ⟨r, rfl, holds⟩)

end Ends

/-- Each of so many workers has been waited for or is attached. -/
def Settles (threads : Nat) (crew : Crew) (joined : Nat) (value : Prop) : Prop :=
  crew.attached + joined = threads ∧ (value → joined = threads)

lemma ends_joinWorkers (results : Address) (crew : Crew) {threads joined : Nat}
    (all : joined + crew.attached = threads) :
    Ends (fun crew joined r => Settles threads crew joined (∃ a, r = .ok a))
      (joinWorkers results (List.range' joined crew.attached)) crew joined := by
  obtain ⟨attached⟩ := crew
  induction attached generalizing joined with
  | zero => exact ⟨(Nat.add_comm _ _).trans all, fun _ => all⟩
  | succ attached ih =>
    have all : joined + (attached + 1) = threads := all
    have fewer : joined + 1 + attached = threads := by omega
    have settled : ∀ h : Halt, Settles threads ⟨attached⟩ (joined + 1)
        (∃ a : Unit, Except.error h = .ok a) := fun h =>
      ⟨(Nat.add_comm _ _).trans fewer, fun ⟨_, same⟩ => by cases same⟩
    refine ⟨rfl, fun r => ?_⟩
    cases r with
    | error h => exact settled h
    | ok text => exact (apart_append _ _).ends_bind settled fun _ => ih fewer

lemma ends_startWorkers {post : Crew → Nat → Except Halt α → Prop} {n joined : Nat}
    {f : Unit → Run α} (ends : Ends post (f ()) ⟨n⟩ joined) :
    Ends post (startWorkers n >>= f) ⟨0⟩ joined := by
  change Ends post (f ()) ⟨0 + n⟩ joined
  rwa [Nat.zero_add]

/-- The main frame comes to a value only after all its workers. -/
lemma ends_mainFrame (o : Options) :
    Ends (fun crew joined r => Settles o.threads crew joined (∃ a, r = .ok a)) (mainFrame o)
      ⟨0⟩ 0 := by
  have started : ∀ h : Halt, Settles o.threads ⟨o.threads⟩ 0 (∃ a : Value, Except.error h = .ok a) :=
    fun h => ⟨rfl, fun ⟨_, same⟩ => by cases same⟩
  refine ends_startWorkers <| (apart_sumTo _).ends_bind started fun sum =>
    (apart_callScale sum).ends_bind started fun scaled =>
    (apart_findSquareAbove _).ends_bind started fun found =>
    (apart_allocate _).ends_bind started fun results =>
    Apart.ends_bind (fun _ => trivial) started fun rooted => Ends.ensuring ?_ fun _ => trivial
  have workers := ends_joinWorkers results ⟨o.threads⟩ (Nat.zero_add o.threads)
  rw [← List.range_eq_range'] at workers
  refine workers.bind (fun crew joined h settled => ⟨settled.1, fun ⟨_, same⟩ => by cases same⟩)
    fun crew joined _ settled => Apart.ends ?_ fun r => ⟨settled.1, fun _ => settled.2 ⟨_, rfl⟩⟩
  dsimp only
  split
  · exact apart_callWithoutArguments.bind fun _ => apart_resultHash rooted
  · exact apart_resultHash rooted

/-- What becomes of the workers of a main frame that reports. -/
def Accounts (o : Options) (crew : Crew) (joined : Nat)
    (r : Except Halt (Workload.Printed × String)) : Prop :=
  ∀ report, r = .ok report → Settles o.threads crew joined (report.1.status = 0)

/-- It reports a status of zero only after all its workers. -/
lemma ends_reportedMain (program : String) (o : Options) :
    Ends (Accounts o) (reportedMain program o) ⟨0⟩ 0 := by
  have halted : ∀ {β : Type} {p : β → Prop} (h : Halt) a, Except.error h = .ok a → p a :=
    fun _ _ same => by cases same
  have shown : Ends (fun crew joined r => ∀ printed, r = .ok printed →
      Settles o.threads crew joined (printed.status = 0)) (result (mainFrame o)) ⟨0⟩ 0 := by
    refine (ends_mainFrame o).outcome.bind ?_ ?_
    · rintro crew joined h ⟨_, same, _⟩
      cases same
    · rintro crew joined r ⟨r', same, settled⟩
      obtain rfl : r = r' := Except.ok.inj same
      rcases r with h | v
      · cases h with
        | error e =>
          intro printed same
          cases same
          exact ⟨settled.1, fun zero => absurd zero Nat.one_ne_zero⟩
        | _ => exact halted _
      · refine (apart_inspect v).ends_bind halted fun text printed same => ?_
        exact ⟨settled.1, fun _ => settled.2 ⟨v, rfl⟩⟩
  refine (apart_setGlobals program _).ends_bind halted fun _ =>
    shown.bind (fun _ _ h _ => halted h) fun crew joined printed settled => ?_
  have reported : ∀ stats objects : List String, Ends (Accounts o) (do
      let argv ← inspect ((← read fun m => m.world.global? "ARGV").getD (← nil))
      return ({ printed with output := printed.output ++ stats ++ objects }, argv)) crew joined :=
    fun _ _ => fun _ => fun _ => (apart_inspect _).ends_bind halted fun _ report same => by
      cases same
      exact settled printed rfl
  dsimp only
  cases o.printStats <;> cases o.printObjects
  · exact reported [] []
  · exact fun _ => reported [] _
  · exact fun _ => reported _ []
  · exact fun _ => fun _ => reported _ _

end Course

/-- Where its life leads, the thread ends so, if it has waited for so many workers by now. -/
def Life.Ends {β : Type} (post : Crew → Nat → Except Halt β → Prop) (joined : Nat) : Life β → Prop
  | .arriving | .starting => True
  | .running a | .polling a => Course.Ends post a.course a.crew joined
  | .ended crew r | .gone crew r => post crew joined r

/-- The first so many workers have told their ends. -/
def Scene.Told (scene : Scene) (joined : Nat) : Prop := ∀ k < joined, ∃ r, scene.outcomes k = some r

section Turns

variable {β : Type} {p : Part β} {s s' : Shared Object Scene} {l l' : Life β}

/-- A thread that goes on has waited for one more worker at most, and that one has told its end. -/
lemma Part.Turn.ends {post : Crew → Nat → Except Halt β → Prop} {joined : Nat}
    (turn : p.Turn s l l' s') (begins : Course.Ends post p.course ⟨0⟩ 0)
    (told : s.world.Told joined) (ends : l.Ends post joined) :
    ∃ joined', s.world.Told joined' ∧ l'.Ends post joined' := by
  cases turn with
  | stay => exact ⟨joined, told, ends⟩
  | room => exact ⟨joined, told, ends⟩
  | arrive => exact ⟨joined, told, trivial⟩
  | start => exact ⟨0, fun _ none_below => absurd none_below (Nat.not_lt_zero _), begins⟩
  | host => exact ⟨joined, told, ends⟩
  | own | step | place | refuse | collect => exact ⟨joined, told, ends _⟩
  | @join _ _ worker r next known =>
    obtain ⟨rfl, ends⟩ := ends
    refine ⟨worker + 1, fun k less => ?_, ends r⟩
    rcases Nat.lt_succ_iff_lt_or_eq.mp less with before | rfl
    · exact told k before
    · exact ⟨r, known⟩
  | wait | poll | leave | tell => exact ⟨joined, told, ends⟩

lemma Part.Turn.gone {crew : Crew} {r : Except Halt β} (turn : p.Turn s (.gone crew r) l' s') :
    l' = .gone crew r := by
  cases turn <;> rfl

end Turns

namespace Workload

open MutatorSystem

variable {program : String} {o : Options} {w : World} {s : MutatorSystem Object Scene Person}

/-- The main frame has waited only for workers that have told their ends, and who has told it is
gone. -/
def Attends (o : Options) (s : Shared Object Scene) : Person → Prop
  | .main life => ∃ joined, s.world.Told joined ∧ life.Ends (Course.Accounts o) joined
  | .worker number life =>
    number < o.threads ∧ ∀ r, s.world.outcomes number = some r → ∃ crew, life = .gone crew r
  | .sender _ => True

lemma Attends.congr {s s' : Shared Object Scene} {own : Person}
    (same : s'.world.outcomes = s.world.outcomes) (attends : Attends o s own) :
    Attends o s' own := by
  cases own with
  | main life =>
    obtain ⟨joined, told, ends⟩ := attends
    exact ⟨joined, fun k less => same ▸ told k less, ends⟩
  | worker number life => rwa [Attends, same]
  | sender => exact attends

/-- Others do not mind when a worker tells its end. -/
lemma Attends.told {s s' : Shared Object Scene} {number : Nat} {r : Except Halt String}
    {own : Person} (attends : Attends o s own)
    (tells : s'.world = (workerPart o number).tell r s.world)
    (other : ∀ life, own ≠ .worker number life) : Attends o s' own := by
  have outcomes : ∀ n, s'.world.outcomes n = if n = number then some r else s.world.outcomes n :=
    fun n => tells ▸ rfl
  cases own with
  | main life =>
    obtain ⟨joined, told, ends⟩ := attends
    refine ⟨joined, fun k less => ?_, ends⟩
    rw [outcomes]
    split
    · exact ⟨r, rfl⟩
    · exact told k less
  | worker n life =>
    have other : n ≠ number := by
      rintro rfl
      exact other life rfl
    rwa [Attends, outcomes, if_neg other]
  | sender => exact trivial

lemma attends_turn {i : Nat} {t t' : MutatorThread Object Person} {g : Common Object Scene}
    (here : s.threads[i]? = some t)
    (places : ∀ (j : Nat) u, s.threads[j]? = some u → place o u.own = j)
    (turn : Turn program o s.shared t.own t'.own g.shared)
    (attends : ∀ (j : Nat) u, s.threads[j]? = some u → Attends o s.shared u.own) :
    ∀ (j : Nat) u, (s.changed i g t').threads[j]? = some u → Attends o g.shared u.own := by
  have changed := forall_own_changed (P := Attends o g.shared) g t' here places
  have own := attends i t here
  generalize t.own = own₀ at turn own changed
  generalize t'.own = own₁ at turn changed
  generalize g.shared = shared at turn changed
  cases turn with
  | @main l l' _ turn =>
    obtain ⟨joined, told, ends⟩ := own
    have same := outcomes_mainPart program o turn
    refine changed ?_ fun j u there _ => (attends j u there).congr same
    obtain ⟨joined', told', ends'⟩ := turn.ends (Course.ends_reportedMain program o) told ends
    exact ⟨joined', by rwa [Scene.Told, same], ends'⟩
  | @worker number l l' _ turn =>
    rcases turn.outcomes with ⟨same, _⟩ | ⟨crew, r, rfl, rfl, tells⟩
    · refine changed ⟨own.1, fun r told => ?_⟩ fun j u there _ => (attends j u there).congr same
      obtain ⟨crew, rfl⟩ := own.2 r (same ▸ told)
      exact ⟨crew, turn.gone⟩
    · refine changed ⟨own.1, fun r' told => ?_⟩ fun j u there other => ?_
      · have told : some r = some r' := by
          rw [tells] at told
          exact (if_pos rfl).symm.trans told
        exact ⟨crew, congrArg _ (Option.some.inj told)⟩
      · refine (attends j u there).told tells fun life same => other ?_
        rw [same]
        rfl
  | rest requests => exact changed trivial fun j u there _ => attends j u there
  | room requests made => exact changed trivial fun j u there _ => (attends j u there).congr rfl
  | send requests => exact changed trivial fun j u there _ => (attends j u there).congr rfl

lemma attends_run (program : String) (interrupts : Nat) (reachable : w.heap.Reachable)
    (schedule : Nat → Nat) (n : Nat) :
    let s := (system o w interrupts).run (threads program o) schedule n
    ∀ (i : Nat) t, s.threads[i]? = some t → Attends o s.shared t.own := by
  refine holds_run (P := fun s => ∀ (i : Nat) t, s.threads[i]? = some t → Attends o s.shared t.own)
    reachable schedule ?_ ?_ ?_ n
  · intro i t here
    obtain ⟨_, _, own | ⟨number, known, own⟩ | own⟩ := getElem?_system i t here
    · rw [own]
      exact ⟨0, fun _ none_below => absurd none_below (Nat.not_lt_zero _), trivial⟩
    · rw [own]
      exact ⟨known, fun r told => by cases told⟩
    · rw [own]
      exact trivial
  · intro n t g t' s collects here same shared attends j u there
    have outcomes : g.shared.world.outcomes = s.shared.world.outcomes := by rw [shared]
    rw [getElem?_changed here] at there
    split at there
    · cases there
      exact same.symm ▸ (attends _ t here).congr outcomes
    · exact (attends j u there).congr outcomes
  · intro n t g t' s here turn attends
    exact attends_turn here (place_run reachable schedule n) turn attends

/-- The worker has deregistered and told its end. -/
def WorkerGone (s : MutatorSystem Object Scene Person) (k : Nat) : Prop :=
  ∃ t crew r, s.threads[k + 1]? = some t ∧ t.own = .worker k (.gone crew r)

/-- All workers are gone; no thread is registered, and none needs a cell. -/
structure NobodyLeft (o : Options) (s : MutatorSystem Object Scene Person) : Prop where
  workers : ∀ k < o.threads, WorkerGone s k
  registered : s.word.registered = 0
  roots : ∀ (i : Nat) t, s.threads[i]? = some t → t.own.roots = []

/-- The main frame has left its last workers behind, as many as it has not waited for. -/
structure LeavesLast (o : Options) (s : MutatorSystem Object Scene Person) (crew : Crew)
    (report : Printed × String) : Prop where
  attached : crew.attached ≤ o.threads
  gone : ∀ k, k + crew.attached < o.threads → WorkerGone s k
  nobody : crew.attached = 0 → NobodyLeft o s
  value : report.1.status = 0 → crew.attached = 0

section Left

variable {crew : Crew} {report : Printed × String}
  (attends : ∀ (i : Nat) t, s.threads[i]? = some t → Attends o s.shared t.own)

include attends

/-- The main frame has waited for all workers but those that are attached. -/
lemma MainLeft.exists_joined (left : MainLeft s crew (.ok report)) :
    ∃ joined, s.shared.world.Told joined ∧
      Course.Settles o.threads crew joined (report.1.status = 0) := by
  obtain ⟨t, here, own⟩ := left
  have main := attends 0 t here
  obtain ⟨joined, told, accounts⟩ : ∃ joined, s.shared.world.Told joined ∧
      Course.Accounts o crew joined (.ok report) := by
    rcases own with own | own
    · rwa [own] at main
    · rwa [own] at main
  exact ⟨joined, told, accounts report rfl⟩

/-- When all have told their ends, nobody is registered or needs a cell. -/
lemma MainLeft.forall_left (left : MainLeft s crew (.ok report)) (told : s.shared.world.Told o.threads)
    (places : ∀ (i : Nat) t, s.threads[i]? = some t → place o t.own = i) (i : Nat)
    (t : MutatorThread Object Person) (here : s.threads[i]? = some t) :
    t.own.held = 0 ∧ t.own.roots = [] := by
  have placed := places i t here
  have known := attends i t here
  generalize own : t.own = person at placed known
  cases person with
  | main l =>
    obtain rfl : 0 = i := placed
    obtain ⟨t₀, first, ended⟩ := left
    obtain rfl : t₀ = t := Option.some.inj (first.symm.trans here)
    rcases ended with ended | ended
    · cases own.symm.trans ended
      exact ⟨rfl, rfl⟩
    · cases own.symm.trans ended
      exact ⟨rfl, rfl⟩
  | worker k l =>
    obtain ⟨r, outcome⟩ := told k known.1
    obtain ⟨crew, rfl⟩ := known.2 r outcome
    exact ⟨rfl, rfl⟩
  | sender requests => exact ⟨rfl, rfl⟩

end Left

/-- Whoever asks for interrupts and when: a main frame that has deregistered leaves behind only the
workers that it counts as attached, and none after a value. -/
theorem leavesLast (program : String) {o : Options} (valid : o.settings.fault? = none)
    (interrupts : Nat) : ∃ w, World.create o.settings = .ok w ∧ ∀ schedule n crew report,
      MainLeft ((system o w.installHandlers interrupts).run (threads program o) schedule n) crew
        (.ok report) →
      LeavesLast o ((system o w.installHandlers interrupts).run (threads program o) schedule n) crew
        report := by
  obtain ⟨w, made, steady⟩ := World.exists_create valid rfl
  have reachable := steady.reachable
  refine ⟨w, made, fun schedule n crew report left => ?_⟩
  obtain ⟨phase, inv⟩ := (starts_system program o interrupts reachable).rendezvous schedule n
  have attends := attends_run (o := o) program interrupts reachable schedule n
  obtain ⟨joined, told, all, value⟩ := left.exists_joined attends
  have gone : ∀ k < joined, k < o.threads →
      WorkerGone ((system o w.installHandlers interrupts).run (threads program o) schedule n) k := by
    intro k less known
    obtain ⟨t, l, here, own⟩ := exists_worker program interrupts reachable schedule n known
    obtain ⟨r, outcome⟩ := told k less
    have worker := attends _ t here
    rw [own] at worker
    obtain ⟨crew, rfl⟩ := worker.2 r outcome
    exact ⟨t, crew, r, here, own⟩
  refine ⟨by omega, fun k less => gone k (by omega) (by omega), fun none_attached => ?_, fun zero => ?_⟩
  · obtain rfl : joined = o.threads := by omega
    have out := left.forall_left attends told (place_run reachable schedule n)
    refine ⟨fun k known => gone k known known, ?_, fun i t here => (out i t here).2⟩
    rw [← inv.registered]
    exact total_eq_zero fun i t here => (out i t here).1
  · have joined_all := value zero
    omega

/-- One worker, and one number to add. -/
def oneWorker : Options :=
  { Options.standard with threads := 1, iterations := 1, collectAllAtExit := true }

/-- When all take turns, the main frame comes to a value and leaves nobody behind. -/
theorem leavesLast_oneWorker : oneWorker.settings.fault? = none ∧
    ∃ w, World.create oneWorker.settings = .ok w ∧ ∃ n crew report,
      MainLeft ((system oneWorker w.installHandlers 0).run (threads "cell" oneWorker) (· % 3) n) crew
        (.ok report) ∧ report.1.status = 0 ∧
      NobodyLeft oneWorker
        ((system oneWorker w.installHandlers 0).run (threads "cell" oneWorker) (· % 3) n) := by
  have valid : oneWorker.settings.fault? = none := by decide
  obtain ⟨w, made, leaves⟩ := leavesLast "cell" valid 0
  obtain ⟨w', made', steady⟩ := World.exists_create valid rfl
  obtain rfl : w = w' := Except.ok.inj (made.symm.trans made')
  have fits : 2 * sumBelow oneWorker.iterations + 1 < 2 ^ 62 := by decide
  obtain ⟨n, gone⟩ := mainGone_of_fair "cell" fits steady (fair_roundRobin 3)
  obtain ⟨r, t, crew, here, own⟩ := gone n le_rfl
  have left : MainLeft _ crew r := ⟨t, here, .inr own⟩
  obtain ⟨_, _, printed, rfl, reports, _⟩ := MainHasEnded.post "cell" fits steady ⟨crew, left⟩
  have value : printed.status = 0 := reports.status
  have last := leaves _ n crew _ left
  exact ⟨valid, w, made, n, crew, _, left, value, last.nobody (last.value value)⟩

/-- An interrupt is asked for, the worker begins, and from then on the main frame has all turns. -/
def interruptedTurns (n : Nat) : Nat := if n = 0 then 2 else if n < 5 then 1 else 0

/-- The main frame has gone with this error, with one worker attached that is on its course. -/
def leavesWorker (error : String) (s : MutatorSystem Object Scene Person) : Bool :=
  match s.threads[0]?.map MutatorThread.own, s.threads[1]?.map MutatorThread.own with
  | some (Person.main (.gone ⟨1⟩ (.ok (printed, _)))), some (Person.worker 0 (.running _)) =>
    printed.status == 1 && printed.errors == [error] && s.shared.heap.collectAllAtExit &&
      s.word.registered == 1
  | _, _ => false

/-- An interrupt at its first call takes the main frame past the worker, which is registered when
the heap is to be swept. -/
theorem leavesWorker_interrupted : ∃ w, World.create oneWorker.settings = .ok w ∧
    leavesWorker "main: interrupted (Interrupt)" ((system oneWorker w.installHandlers 1).run
      (threads "cell" oneWorker) interruptedTurns 60) = true := by
  have computed : (match World.create oneWorker.settings with
      | .ok w => leavesWorker "main: interrupted (Interrupt)"
          ((system oneWorker w.installHandlers 1).run (threads "cell" oneWorker) interruptedTurns 60)
      | .error _ => false) = true := by decide +kernel
  cases made : World.create oneWorker.settings with
  | ok w =>
    rw [made] at computed
    exact ⟨w, rfl, computed⟩
  | error f =>
    rw [made] at computed
    cases computed

end Workload

end CellMachine
