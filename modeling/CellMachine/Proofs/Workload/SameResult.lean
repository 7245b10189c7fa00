import CellMachine.Proofs.Workload.Beginning
import CellMachine.Proofs.Workload.Lives

/-!
# The result of the workload

However the main frame and its workers take turns, whoever collects and when: what the main frame
knows of the heap stays so, because others leave it alone and every cycle starts from what the
main frame has reported. So it prints the same in all runs, and it does come to its end.
-/

namespace CellMachine

namespace Workload

open MutatorSystem

variable {program : String} {o : Options} {ss : Singletons} {w : World}
  {s : MutatorSystem Object Scene Person} {i : Nat} {g : Common Object Scene}
  {t t' : MutatorThread Object Person} {schedule : Nat → Nat} {n : Nat}

/-- A thread knows what it needs, and a worker that is gone has told its end. -/
def Keeps (o : Options) (ss : Singletons) (s : Shared Object Scene) : Person → Prop
  | .main life => ∃ K, s.view.Bears K ∧ life.Meets (mainTerms ss o) K
  | .worker number life => life.Meets (workerTerms ss o.iterations) ∅ ∧
      ∀ c r, life = .gone c r → s.world.outcomes number = some r
  | .sender requests => requests = 0

/-- The world is steady, workers have told what they should, and all threads know what they need. -/
structure InOrder (o : Options) (ss : Singletons) (s : MutatorSystem Object Scene Person) : Prop where
  steady : s.shared.view.Steady ss
  told : ∀ number r, s.shared.world.outcomes number = some r → r = .ok (workerText o.iterations)
  keeps : ∀ (i : Nat) t, s.threads[i]? = some t → Keeps o ss s.shared t.own

/-- What is known stays known, and what a worker has told is not taken back. -/
lemma Keeps.elsewhere {s s' : Shared Object Scene} {own : Person} (keeps : Keeps o ss s own)
    (known : ∀ K, s.view.Bears K → s'.view.Bears K)
    (outcomes : ∀ number life, own = .worker number life →
      s'.world.outcomes number = s.world.outcomes number) : Keeps o ss s' own := by
  cases own with
  | main life =>
    obtain ⟨K, bears, meets⟩ := keeps
    exact ⟨K, known K bears, meets⟩
  | worker number life =>
    rw [Keeps, outcomes number life rfl]
    exact keeps
  | sender => exact keeps

variable (fits : 2 * sumBelow o.iterations + 1 < 2 ^ 62)

include fits in
lemma suits_main : (mainPart program o).Suits (mainTerms ss o) :=
  ⟨fun id => leads_reportedMain ss program fits id "main", fun _ _ => rfl⟩

include fits in
lemma suits_worker (number : Nat) : (workerPart o number).Suits (workerTerms ss o.iterations) :=
  ⟨fun id => leads_worker ss (by omega) id "worker", fun _ _ => rfl⟩

lemma InOrder.changed (here : s.threads[i]? = some t)
    (places : ∀ (j : Nat) u, s.threads[j]? = some u → place o u.own = j)
    (steady : g.shared.view.Steady ss)
    (told : ∀ number r, g.shared.world.outcomes number = some r → r = .ok (workerText o.iterations))
    (own : Keeps o ss g.shared t'.own)
    (others : ∀ (j : Nat) u, s.threads[j]? = some u → place o u.own ≠ place o t.own →
      Keeps o ss g.shared u.own) : InOrder o ss (s.changed i g t') :=
  ⟨steady, told, forall_own_changed g t' here places own others⟩

include fits in
lemma InOrder.turn (inOrder : InOrder o ss s) (here : s.threads[i]? = some t)
    (places : ∀ (j : Nat) u, s.threads[j]? = some u → place o u.own = j)
    (turn : Turn program o s.shared t.own t'.own g.shared) : InOrder o ss (s.changed i g t') := by
  have keeps := inOrder.keeps i t here
  generalize own_eq : t.own = own at turn keeps
  generalize own_eq' : t'.own = own' at turn
  have changed := @InOrder.changed o ss s i g t t' here places
  rw [own_eq, own_eq'] at changed
  generalize shared_eq : g.shared = shared at turn changed
  cases turn with
  | @main l l' _ turn =>
    obtain ⟨K, bears, meets⟩ := keeps
    have outcomes := outcomes_mainPart program o turn
    have lands := turn.lands (suits_main fits) ?_ inOrder.steady bears meets
    · obtain ⟨K', bears', meets', _⟩ := lands.knows
      refine changed lands.steady ?_ ⟨K', bears', meets'⟩ fun j u there other => ?_
      · rw [outcomes]
        exact inOrder.told
      · have kept := inOrder.keeps j u there
        generalize u.own = own at kept other
        cases own with
        | main => exact absurd rfl other
        | worker number life =>
          rw [Keeps, outcomes]
          exact kept
        | sender => exact kept
    · intro number r r' answer known
      rw [inOrder.told number r' known]
      change (if number < o.threads then _ else _) = some r at answer
      split at answer
      · exact Option.some.inj answer
      · cases answer
  | @worker number l l' _ turn =>
    obtain ⟨meets, gone⟩ := keeps
    have lands := turn.lands (suits_worker fits number) (fun _ _ _ answer => by cases answer)
      inOrder.steady (fun f mem => absurd mem (Set.notMem_empty f)) meets
    obtain ⟨K', _, meets', less⟩ := lands.knows
    obtain rfl := Set.subset_empty_iff.mp (less.resolve_left id)
    have others := lands.others.resolve_left id
    have kept : (∀ number' r, shared.world.outcomes number' = some r →
          r = .ok (workerText o.iterations)) ∧
        (∀ c r, l' = .gone c r → shared.world.outcomes number = some r) ∧
        ∀ number', number' ≠ number →
          shared.world.outcomes number' = s.shared.world.outcomes number' := by
      rcases turn.outcomes with ⟨same, before⟩ | ⟨c, r, rfl, rfl, same⟩
      · rw [same]
        exact ⟨inOrder.told, fun c r eq => gone c r (before c r eq), fun _ _ => rfl⟩
      · rw [same]
        refine ⟨fun number' r' known => ?_, fun _ r' eq => ?_, fun number' other => if_neg other⟩
        · change (if number' = number then some r else s.shared.world.outcomes number') = some r' at known
          split at known
          · obtain rfl := Option.some.inj known
            exact meets
          · exact inOrder.told number' r' known
        · cases eq
          exact if_pos rfl
    obtain ⟨told, gone', elsewhere⟩ := kept
    refine changed lands.steady told ⟨meets', gone'⟩ fun j u there other => ?_
    refine (inOrder.keeps j u there).elsewhere others fun number' life eq => elsewhere number' ?_
    rintro rfl
    rw [eq] at other
    exact other rfl
  | rest requests =>
    exact changed inOrder.steady inOrder.told keeps fun j u there _ => inOrder.keeps j u there
  | @room requests c heap made =>
    refine changed (inOrder.steady.room made) inOrder.told keeps fun j u there _ => ?_
    have sound := inOrder.steady.reachable.sound
    exact (inOrder.keeps j u there).elsewhere (fun K bears => bears.room sound made) fun _ _ _ => rfl
  | send requests => cases keeps

lemma Life.Meets.kept_of_held {β : Type} {tm : Terms β} {K : Knowledge} {l : Life β}
    (out : l.held = 0) (meets : l.Meets tm K) : l.needs = [] ∧ l.Meets tm (K.kept l.needs) := by
  cases l with
  | arriving => exact ⟨rfl, trivial⟩
  | starting => cases out
  | running => cases out
  | polling => cases out
  | ended crew r =>
    refine ⟨rfl, ?_⟩
    change tm.post r ((K.kept []).kept [])
    rw [Knowledge.kept_kept]
    exact meets
  | gone crew r =>
    refine ⟨rfl, ?_⟩
    change tm.post r ((K.kept []).kept [])
    rw [Knowledge.kept_kept]
    exact meets

/-- In a cycle all that the main frame needs is among the roots. -/
lemma needs_submitted {l : Life (Printed × String)} {K : Knowledge} {interrupts : Nat}
    (reachable : w.heap.Reachable)
    (collects : ((system o w interrupts).run (threads program o) schedule n).Collects (schedule n))
    (here : ((system o w interrupts).run (threads program o) schedule n).threads[i]? = some t)
    (own : t.own = .main l) (meets : l.Meets (mainTerms ss o) K) :
    l.Meets (mainTerms ss o) (K.kept l.needs) ∧ ∀ a, .ref a ∈ l.needs →
      a ∈ ((system o w interrupts).run (threads program o) schedule n).shared.heap.cycleRoots
        ((system o w interrupts).run (threads program o) schedule n).inputs.reverse := by
  have starts := starts_system program o interrupts reachable
  have follows := starts.follows schedule n i t here
  have guarded := starts.guarded_subset collects
  obtain ⟨_, _, _, collector⟩ := collects
  obtain ⟨phase, inv⟩ := starts.rendezvous schedule n
  obtain rfl := inv.assembled_of_collecting collector
  have held : Person.held t.own = l.held := by rw [own]; rfl
  rcases Nat.eq_zero_or_pos l.held with out | registered
  · obtain ⟨none_needed, meets⟩ := Life.Meets.kept_of_held out meets
    exact ⟨meets, fun a mem => by rw [none_needed] at mem; cases mem⟩
  · obtain ⟨e, inside⟩ := (inv.registered_iff here).mp (held ▸ registered)
    have move := follows e.move (Stage.move?_of_errand inside)
    rw [own] at move
    obtain ⟨meets, reported⟩ := Life.Meets.kept (threads program o) (mainPart program o)
      rfl rfl move trivial meets
    refine ⟨meets, fun a mem => guarded (.inl ⟨i, t, e, here, held ▸ registered, inside, ?_⟩)⟩
    rw [own]
    exact reported a mem

lemma InOrder.cycle (inOrder : InOrder o ss s) (here : s.threads[i]? = some t)
    (places : ∀ (j : Nat) u, s.threads[j]? = some u → place o u.own = j)
    (same : t'.own = t.own) {inputs : List RootSet}
    (shared : g.shared = { s.shared with heap := s.shared.heap.runCycle inputs })
    (submitted : ∀ (j : Nat) u l K, s.threads[j]? = some u → u.own = .main l →
      l.Meets (mainTerms ss o) K → l.Meets (mainTerms ss o) (K.kept l.needs) ∧
        ∀ a, .ref a ∈ l.needs → a ∈ s.shared.heap.cycleRoots inputs) :
    InOrder o ss (s.changed i g t') := by
  have keeps : ∀ (j : Nat) u, s.threads[j]? = some u → Keeps o ss g.shared u.own := by
    intro j u there
    have kept := inOrder.keeps j u there
    have reported := fun l K => submitted j u l K there
    rw [shared]
    generalize u.own = own at kept reported
    cases own with
    | main life =>
      obtain ⟨K, bears, meets⟩ := kept
      obtain ⟨meets, roots⟩ := reported life K rfl meets
      exact ⟨_, bears.cycle inOrder.steady roots, meets⟩
    | worker => exact kept
    | sender => exact kept
  refine InOrder.changed here places ?_ ?_ (same ▸ keeps i t here) fun j u there _ => keeps j u there
  · rw [shared]
    exact inOrder.steady.cycle inputs
  · rw [shared]
    exact inOrder.told

include fits in
lemma runsInOrder (program : String) (steady : w.Steady ss) (schedule : Nat → Nat) (n : Nat) :
    InOrder o ss ((system o w 0).run (threads program o) schedule n) := by
  refine holds_run (P := InOrder o ss) steady.reachable schedule ?_ ?_ ?_ n
  · refine ⟨steady, fun number r told => (by cases told), fun i t here => ?_⟩
    obtain ⟨_, _, own | ⟨number, _, own⟩ | own⟩ := getElem?_system i t here
    · rw [own]
      exact ⟨∅, fun f mem => absurd mem (Set.notMem_empty f), trivial⟩
    · rw [own]
      exact ⟨trivial, fun _ _ eq => by cases eq⟩
    · rw [own]
      rfl
  · intro n t g t' s collects here same shared inOrder
    exact inOrder.cycle here (place_run steady.reachable schedule n) same shared
      fun j u l K there own meets => needs_submitted steady.reachable collects there own meets
  · intro n t g t' s here turn inOrder
    exact inOrder.turn fits here (place_run steady.reachable schedule n) turn

/-- Only the first of the threads is registered. -/
lemma total_le_one {f : MutatorThread Object Person → Nat} (first : ∀ t, f t ≤ 1)
    (others : ∀ (i : Nat) t, s.threads[i + 1]? = some t → f t = 0) : s.total f ≤ 1 := by
  obtain ⟨_, _, _, _, ⟨list⟩⟩ := s
  cases list with
  | nil => exact Nat.zero_le _
  | cons t rest =>
    have none_left : (rest.map f).sum = 0 := by
      refine List.sum_eq_zero fun x mem => ?_
      obtain ⟨u, there, rfl⟩ := List.mem_map.mp mem
      obtain ⟨i, here⟩ := List.mem_iff_getElem?.mp there
      refine others i u ?_
      simpa using here
    have sum : f t + (rest.map f).sum ≤ 1 := none_left ▸ first t
    exact sum

section AtRest

variable {l : Life String} {number : Nat} (steady : w.Steady ss)
  (rest : (system o w 0).AtRest (threads program o) Person.rank schedule n)

include fits steady rest

/-- A worker that is at rest has not begun or has come to its end. -/
lemma worker_atRest
    (here : ((system o w 0).run (threads program o) schedule n).threads[i]? = some t)
    (own : t.own = .worker number l) : l = .arriving ∨ ∃ c r, l = .gone c r := by
  have keeps := (runsInOrder fits program steady schedule n).keeps i t here
  obtain ⟨_, still⟩ := rest.threads i t here
  have made := (workerPart o number).makes l
  rw [own] at keeps still
  rcases still with halt | ⟨next, register, _⟩ | ⟨m, t', _, polls, _⟩
  · rw [show (workerPart o number).move l = .halt from halt] at made
    cases made
    exact .inr ⟨_, _, rfl⟩
  · rw [show (workerPart o number).move l = .register next from register] at made
    cases made
    exact .inl rfl
  · rcases Part.waits_of_polls (p := workerPart o number) (fun _ => rfl) own polls with
      ⟨a, rfl, _⟩ | ⟨th, c, k, next, rfl, _⟩
    · obtain ⟨⟨⟨k, next, eq⟩, leads⟩, _⟩ := keeps
      rw [eq] at leads
      obtain ⟨r, answer, _⟩ := leads
      cases answer
    · obtain ⟨⟨r, answer, _⟩, _⟩ := keeps
      cases answer

/-- At rest there is room for everybody. -/
lemma registered_atRest :
    ((system o w 0).run (threads program o) schedule n).word.registered ≤ 1 := by
  have reachable := steady.reachable
  have starts := starts_system program o 0 reachable
  obtain ⟨phase, inv⟩ := starts.rendezvous schedule n
  rw [← inv.registered]
  refine total_le_one (fun t => (progresses_threads program o).single t.own) fun i t here => ?_
  have placed := place_run reachable schedule n (i + 1) t here
  generalize own : t.own = person at placed
  cases person with
  | main l => cases placed
  | worker number l =>
    rcases worker_atRest fits steady rest here own with rfl | ⟨c, r, rfl⟩
    · rfl
    · rfl
  | sender => rfl

/-- At rest a thread has come to its end or polls. -/
lemma halts_or_polls
    (here : ((system o w 0).run (threads program o) schedule n).threads[i]? = some t) :
    (threads program o).move t.own = .halt ∨
      (system o w 0).PollsNext (threads program o) Person.rank schedule n i t := by
  obtain ⟨_, halt | ⟨_, _, full⟩ | polls⟩ := rest.threads i t here
  · exact .inl halt
  · have few := registered_atRest fits steady rest
    omega
  · exact .inr polls

/-- At rest all workers have told their ends. -/
lemma told_atRest (known : number < o.threads) :
    ∃ r, ((system o w 0).run (threads program o) schedule n).shared.world.outcomes number = some r := by
  obtain ⟨t, l, here, own⟩ := exists_worker program 0 steady.reachable schedule n known
  have keeps := (runsInOrder fits program steady schedule n).keeps _ t here
  rw [own] at keeps
  rcases worker_atRest fits steady rest here own with rfl | ⟨c, r, rfl⟩
  · rcases halts_or_polls fits steady rest here with halt | ⟨m, t', _, polls, _⟩
    · rw [own] at halt
      cases halt
    · rcases Part.waits_of_polls (p := workerPart o number) (fun _ => rfl) own polls with
        ⟨a, eq, _⟩ | ⟨_, _, _, _, eq, _⟩
      · cases eq
      · cases eq
  · exact ⟨r, keeps.2 c r rfl⟩

end AtRest

/-- The main frame has come to its end. -/
def MainGone (s : MutatorSystem Object Scene Person) (r : Except Halt (Printed × String)) : Prop :=
  ∃ t crew, s.threads[0]? = some t ∧ t.own = .main (.gone crew r)

section AtRest

variable {l : Life (Printed × String)} (steady : w.Steady ss)
  (rest : ∀ m, n ≤ m → (system o w 0).AtRest (threads program o) Person.rank schedule m)

include fits steady rest

/-- At rest the main frame does not wait for a worker, which has told its end. -/
lemma not_joining {th : ThreadState} {c : Crew} {k : Nat}
    {next : Except Halt String → Course Crew (Printed × String)}
    (here : ((system o w 0).run (threads program o) schedule n).threads[0]? = some t)
    (own : t.own = .main (.running ⟨th, c, .join k next⟩)) : False := by
  have keeps := (runsInOrder fits program steady schedule n).keeps 0 t here
  rcases halts_or_polls fits steady (rest n le_rfl) here with halt | ⟨m, t', later, polls, _⟩
  · rw [own] at halt
    cases halt
  · rcases Part.waits_of_polls (p := mainPart program o) (fun _ => rfl) own polls with
      ⟨a, eq, _⟩ | ⟨_, _, _, _, eq, untold⟩
    · cases eq
    · cases eq
      rw [own] at keeps
      obtain ⟨K, _, r, answer, _⟩ := keeps
      have known : k < o.threads := by
        by_contra unknown
        rw [show (mainTerms ss o).answer k = none from if_neg unknown] at answer
        cases answer
      obtain ⟨r', told⟩ := told_atRest fits steady (rest m later) known
      rw [untold] at told
      cases told

/-- At rest the main frame has come to its end. -/
lemma mainGone_atRest : ∃ r, MainGone ((system o w 0).run (threads program o) schedule n) r := by
  obtain ⟨t, l, here, own⟩ := exists_main program o 0 steady.reachable schedule n
  have made := (mainPart program o).makes l
  rcases halts_or_polls fits steady (rest n le_rfl) here with halt | ⟨m, t', later, polls, there⟩
  · rw [own] at halt
    rw [show (mainPart program o).move l = .halt from halt] at made
    cases made
    exact ⟨_, t, _, here, own⟩
  · rcases Part.waits_of_polls (p := mainPart program o) (fun _ => rfl) own polls with
      ⟨⟨th, c, course⟩, rfl, after⟩ | ⟨th, c, k, next, rfl, _⟩
    · -- at its next turn it looks for the worker again
      have keeps := (runsInOrder fits program steady schedule n).keeps 0 t here
      rw [own] at keeps
      obtain ⟨K, _, ⟨⟨k, next, eq⟩, _⟩⟩ := keeps
      obtain rfl : course = .join k next := eq
      exact (not_joining fits steady (fun m' latest => rest m' (by omega)) there after).elim
    · exact (not_joining fits steady rest here own).elim

end AtRest

/-- The main frame has deregistered, with these workers that it has not waited for. -/
def MainLeft (s : MutatorSystem Object Scene Person) (crew : Crew)
    (r : Except Halt (Printed × String)) : Prop :=
  ∃ t, s.threads[0]? = some t ∧ (t.own = .main (.ended crew r) ∨ t.own = .main (.gone crew r))

/-- The main frame has deregistered with this outcome. -/
def MainHasEnded (s : MutatorSystem Object Scene Person) (r : Except Halt (Printed × String)) :
    Prop :=
  ∃ crew, MainLeft s crew r

/-- The global variable is bound to an array of these strings, in order. -/
def BindsStrings (w : World) (name : String) (texts : List String) : Prop :=
  ∃ a items, w.global? name = some (.ref a) ∧ w.heap.payload? a = some (.array items) ∧
    List.Forall₂ (fun v text => ∃ x, v = .ref x ∧ w.heap.payload? x = some (.string text))
      items.toList texts

lemma bindsStrings_of_bears {K : Knowledge} {values : List String} (bears : w.Bears K)
    (known : K.HasArguments values) : BindsStrings w "ARGV" values := by
  obtain ⟨a, bound, items, here, listed⟩ := known
  rw [Knowledge.Items, List.forall₂_map_right_iff] at listed
  refine ⟨a, items, bears _ bound, bears _ here, listed.imp ?_⟩
  rintro v text ⟨x, rfl, _, there⟩
  exact ⟨x, rfl, bears _ there⟩

section Outcomes

variable (program) (steady : w.Steady ss)

include fits steady

/-- Under a fair schedule the main frame comes to its end. -/
lemma mainGone_of_fair (fair : Fair (o.threads + 2) schedule) : ∃ n, ∀ m, n ≤ m →
    ∃ r, MainGone ((system o w 0).run (threads program o) schedule m) r := by
  have starts := starts_system program o 0 steady.reachable
  obtain ⟨n, rest⟩ := starts.comesToRest (progresses_threads program o)
    ((size_system o w 0).symm ▸ fair)
  exact ⟨n, fun m later => mainGone_atRest fits steady fun m' latest => rest m' (later.trans latest)⟩

/-- Its end is the one that its course leads to. -/
lemma MainHasEnded.post {r : Except Halt (Printed × String)}
    (has_ended : MainHasEnded ((system o w 0).run (threads program o) schedule n) r) :
    ∃ K, ((system o w 0).run (threads program o) schedule n).shared.view.Bears K ∧
      (mainTerms ss o).post r (K.kept []) := by
  obtain ⟨crew, t, here, own⟩ := has_ended
  have keeps := (runsInOrder fits program steady schedule n).keeps 0 t here
  rcases own with own | own
  · rwa [own] at keeps
  · rwa [own] at keeps

end Outcomes

/-- The threads of the workload come to the same result in all runs. -/
structure SameResult (program : String) (o : Options) (w : World) : Prop where
  /-- Taken alone, the threads do what the workload says. -/
  courses : Course.alone (joined o.iterations) (mainPart program o).course = reportedMain program o ∧
    ∀ number, Course.alone (joined o.iterations) (workerPart o number).course =
      (do VM.inspect (← sumTo o.iterations))
  reports : ∀ schedule n r, MainHasEnded ((system o w 0).run (threads program o) schedule n) r →
    ∃ printed, r = .ok (printed, bracketed "[" "]" (o.values.map Text.quoted)) ∧ printed.Reports o
  arguments : ∀ schedule n r, MainHasEnded ((system o w 0).run (threads program o) schedule n) r →
    BindsStrings ((system o w 0).run (threads program o) schedule n).shared.view "ARGV" o.values
  ends : ∀ schedule, Fair (o.threads + 2) schedule → ∃ n, ∀ m, n ≤ m →
    ∃ r, MainGone ((system o w 0).run (threads program o) schedule m) r
  /-- No thread is ever refused for want of room in the word. -/
  room : o.threads + 3 < 2 ^ 24 → ∀ schedule n,
    ((system o w 0).run (threads program o) schedule n).word.registered + 1 < 2 ^ 24

/-- Whatever the settings, the number of workers and the order of turns, the main frame prints the
line of its results, or the error that it was asked for, and the values of the command line are
there. -/
theorem sameResult (program : String) {o : Options} (valid : o.settings.fault? = none)
    (inline : 2 * (sumBelow o.iterations : Int) + 1 ≤ Value.smallIntMax.toInt) :
    ∃ w, World.create o.settings = .ok w ∧ SameResult program o w.installHandlers := by
  obtain ⟨w, made, steady⟩ := World.exists_create valid rfl
  have greatest : Value.smallIntMax.toInt = 4611686018427387903 := by decide
  have fits : 2 * sumBelow o.iterations + 1 < 2 ^ 62 := by omega
  refine ⟨w, made, ⟨?_, fun number => ?_⟩, ?_, ?_, fun schedule fair => ?_, fun few schedule n => ?_⟩
  · exact Course.alone_reportedMain program o
  · exact Course.alone_worker _ o.iterations
  · intro schedule n r has_ended
    obtain ⟨K, _, printed, eq, reports, _⟩ := has_ended.post program fits steady
    exact ⟨printed, eq, reports⟩
  · intro schedule n r has_ended
    obtain ⟨K, bears, printed, _, _, known⟩ := has_ended.post program fits steady
    exact bindsStrings_of_bears (bears.mono (K.kept_subset [])) known
  · exact mainGone_of_fair program fits steady fair
  · have starts := starts_system program o 0 steady.reachable
    obtain ⟨phase, inv⟩ := starts.rendezvous schedule n
    have all : total _ _ ≤ 1 * _ := total_le_size (s := (system o w.installHandlers 0).run
      (threads program o) schedule n) fun t => (progresses_threads program o).single t.own
    have size := (starts.size_run schedule n).trans (size_system o w.installHandlers 0)
    rw [← inv.registered]
    omega

/-- Two workers and aggressive settings. -/
def busyOptions : Options :=
  { Options.standard with
    trigger := 99
    target := 99
    initialBlocks := 1
    iterations := 10
    threads := 2
    values := ["a", "b"] }

/-- When the four take turns, the main frame comes to its end, and prints one line. -/
theorem sameResult_busyOptions : busyOptions.settings.fault? = none ∧
    2 * (sumBelow busyOptions.iterations : Int) + 1 ≤ Value.smallIntMax.toInt ∧
    ∃ w, World.create busyOptions.settings = .ok w ∧
      SameResult "cell" busyOptions w.installHandlers ∧
      ∃ n printed, MainGone ((system busyOptions w.installHandlers 0).run
        (threads "cell" busyOptions) (· % 4) n) (.ok (printed, "[\"a\", \"b\"]")) ∧
        printed.output = ["=> \x7b:sum=>45, :scaled=>91, :found=>8, :workers=>[\"45\", \"45\"]\x7d"] := by
  have valid : busyOptions.settings.fault? = none := by decide
  have inline : 2 * (sumBelow busyOptions.iterations : Int) + 1 ≤ Value.smallIntMax.toInt := by decide
  obtain ⟨w, made, same⟩ := sameResult "cell" valid inline
  refine ⟨valid, inline, w, made, same, ?_⟩
  obtain ⟨n, gone⟩ := same.ends _ (fair_roundRobin 4)
  obtain ⟨r, t, crew, here, own⟩ := gone n le_rfl
  obtain ⟨printed, rfl, reports⟩ := same.reports _ n r ⟨crew, t, here, .inr own⟩
  have text : bracketed "[" "]" (busyOptions.values.map Text.quoted) = "[\"a\", \"b\"]" := by
    decide +kernel
  refine ⟨n, printed, ⟨t, crew, here, text ▸ own⟩, ?_⟩
  obtain ⟨more, output, quiet⟩ := reports.output
  rw [output, quiet rfl rfl]
  decide +kernel

end Workload

end CellMachine
