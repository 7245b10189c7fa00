import CellMachine.Proofs.Threads.ComingToRest
import CellMachine.Proofs.Workload.WorkloadCourses

/-!
# The threads of the workload

The main frame and its workers as threads on one heap. A thread registers, takes its course step
by step and deregisters; a worker then tells its outcome, and the main frame polls at safepoints
while it waits for that. A worker may start as soon as it gets a turn, so the runs in which the
main frame has started it before are among all runs. Somebody else may ask for interrupts at any
time.
-/

namespace CellMachine

namespace Course

variable {σ α β : Type}

/-- The second course goes on as the first. -/
inductive GoesOn : Course σ α → Course σ α → Prop where
  | own {act : ThreadState → ThreadState} {next : ThreadState → Course σ α} (t : ThreadState) :
      GoesOn (next t) (.own act next)
  | host {act : σ → σ} {next : σ → Course σ α} (h : σ) : GoesOn (next h) (.host act next)
  | step {act : World → World} {tame : ∀ w, Relation.ReflTransGen Heap.Touch w.heap (act w).heap}
      {next : Machine σ → Course σ α} (m : Machine σ) : GoesOn (next m) (.step act tame next)
  | place {o : Object} {next : Except HeapFault Address → Course σ α}
      (r : Except HeapFault Address) : GoesOn (next r) (.place o next)
  | collect {next : Bool → Course σ α} (ran : Bool) : GoesOn (next ran) (.collect next)
  | join {worker : Nat} {next : Except Halt String → Course σ α} (r : Except Halt String) :
      GoesOn (next r) (.join worker next)

lemma wellFounded_goesOn : WellFounded (GoesOn : Course σ α → Course σ α → Prop) := by
  refine ⟨fun x => ?_⟩
  induction x with
  | done r => exact ⟨_, fun _ goes => by cases goes⟩
  | own _ _ ih | host _ _ ih | step _ _ _ ih | place _ _ ih | collect _ ih | join _ _ ih =>
    refine ⟨_, fun _ goes => ?_⟩
    cases goes
    exact ih _

/-- Courses in the order in which one goes on as another. -/
instance : IsStrictOrder (Course σ α) (Relation.TransGen GoesOn) where
  irrefl := wellFounded_goesOn.transGen.irrefl.irrefl
  trans _ _ _ := .trans

instance : PartialOrder (Course σ α) := partialOrderOfSO (Relation.TransGen GoesOn)

lemma GoesOn.lt {x y : Course σ α} (goes : GoesOn x y) : x < y := .single goes

instance : WellFoundedLT (Course σ α) := ⟨wellFounded_goesOn.transGen⟩

/-- The course without its outcome. -/
def bare : Course σ α → Course σ Unit := follow fun _ => done (.ok ())

lemma GoesOn.bare {x y : Course σ α} (goes : GoesOn x y) : GoesOn x.bare y.bare := by
  cases goes with
  | @own act next t => exact @GoesOn.own _ _ act (fun t => (next t).bare) t
  | @host act next h => exact @GoesOn.host _ _ act (fun h => (next h).bare) h
  | @step act tame next m => exact @GoesOn.step _ _ act tame (fun m => (next m).bare) m
  | @place o next r => exact @GoesOn.place _ _ o (fun r => (next r).bare) r
  | @collect next ran => exact @GoesOn.collect _ _ (fun ran => (next ran).bare) ran
  | @join worker next r => exact @GoesOn.join _ _ worker (fun r => (next r).bare) r

end Course

/-- What the threads share besides the heap. -/
structure Scene where
  surroundings : Surroundings
  /-- What became of the workers that have ended. -/
  outcomes : Nat → Option (Except Halt String)

namespace Shared

/-- The world as the threads see it. -/
def view (s : Shared Object Scene) : World := toWorld ⟨s.heap, s.world.surroundings⟩

def withView (s : Shared Object Scene) (w : World) : Shared Object Scene :=
  ⟨w.heap, { s.world with surroundings := w.shared.world }⟩

@[simp] lemma view_withView (s : Shared Object Scene) (w : World) : (s.withView w).view = w := rfl

end Shared

/-- A thread that is on its course. -/
structure Journey (β : Type) where
  thread : ThreadState
  crew : Crew
  course : Course Crew β

inductive Life (β : Type) where
  | arriving
  | starting
  | running (a : Journey β)
  /-- About to go to a safepoint, because the worker that it waits for has not ended. -/
  | polling (a : Journey β)
  /-- Deregistered, but nobody knows yet. -/
  | ended (crew : Crew) (r : Except Halt β)
  | gone (crew : Crew) (r : Except Halt β)

/-- A thread of the workload, or somebody who will ask for so many interrupts. -/
inductive Person where
  | main (life : Life (Workload.Printed × String))
  | worker (number : Nat) (life : Life String)
  | sender (requests : Nat)

/-- The part that a thread plays. -/
structure Part (β : Type) where
  file : String
  course : Course Crew β
  /-- What it tells the others in the end. -/
  tell : Except Halt β → Scene → Scene
  as : Life β → Person

namespace Part

variable {β : Type}

/-- The next move of a thread on its course. -/
def proceed (p : Part β) (a : Journey β) : Move Object Scene Person :=
  match a.course with
  | .done r => .deregister (p.as (.ended a.crew r))
  | .own act next => .update fun s => (p.as (.running ⟨act a.thread, a.crew, next a.thread⟩), s)
  | .host act next => .update fun s => (p.as (.running ⟨a.thread, act a.crew, next a.crew⟩), s)
  | .step act _ next => .update fun s =>
      (p.as (.running { a with course := next ⟨s.view, a.thread, [], a.crew⟩ }),
        s.withView (act s.view))
  | .place o next => .allocate o fun r => p.as (.running { a with course := next r })
  | .collect next => .collect fun ran => p.as (.running { a with course := next ran })
  | .join worker next => .update fun s =>
      match s.world.outcomes worker with
      | some r => (p.as (.running { a with course := next r }), s)
      | none => (p.as (.polling a), s)

def move (p : Part β) : Life β → Move Object Scene Person
  | .arriving => .register (p.as .starting)
  | .starting => .update fun s =>
      let (id, w) := s.view.freshFrame
      (p.as (.running ⟨.start id p.file, ⟨0⟩, p.course⟩), s.withView w)
  | .running a => p.proceed a
  | .polling a => .safepoint (p.as (.running a))
  | .ended crew r => .update fun s => (p.as (.gone crew r), { s with world := p.tell r s.world })
  | .gone _ _ => .halt

end Part

namespace Workload

def mainPart (program : String) (o : Options) : Part (Printed × String) where
  file := "main"
  course := Course.reportedMain program o
  tell _ scene := scene
  as := .main

def workerPart (o : Options) (number : Nat) : Part String where
  file := "worker"
  course := Course.worker o.iterations
  tell r scene := { scene with outcomes := fun n => if n = number then some r else scene.outcomes n }
  as := .worker number

end Workload

def Life.roots {β : Type} : Life β → List Value
  | .running a | .polling a => a.thread.stack.toList
  | _ => []

def Person.roots : Person → List Value
  | .main life => life.roots
  | .worker _ life => life.roots
  | .sender _ => []

namespace Workload

def threads (program : String) (o : Options) : Program Object Scene Person where
  roots := Person.roots
  move
    | .main life => (mainPart program o).move life
    | .worker number life => (workerPart o number).move life
    | .sender 0 => .halt
    | .sender (requests + 1) => .update fun s =>
        (.sender requests, s.withView s.view.requestInterrupt)

/-- The main frame and its workers in a new world, and somebody who asks for interrupts. -/
def system (o : Options) (w : World) (interrupts : Nat) : MutatorSystem Object Scene Person :=
  .start w.heap ⟨w.shared.world, fun _ => none⟩ <|
    .main .arriving :: (List.range o.threads).map (.worker · .arriving) ++ [.sender interrupts]

end Workload

namespace Part

variable {β : Type}

/-- The moves of a thread, by where it stands in its life. -/
inductive Makes (p : Part β) : Life β → Move Object Scene Person → Prop where
  | arrive : Makes p .arriving (.register (p.as .starting))
  | start : Makes p .starting (.update fun s =>
      (p.as (.running ⟨.start s.view.freshFrame.1 p.file, ⟨0⟩, p.course⟩),
        s.withView s.view.freshFrame.2))
  | done {t : ThreadState} {c : Crew} {r : Except Halt β} :
      Makes p (.running ⟨t, c, .done r⟩) (.deregister (p.as (.ended c r)))
  | own {t : ThreadState} {c : Crew} {act : ThreadState → ThreadState}
      {next : ThreadState → Course Crew β} :
      Makes p (.running ⟨t, c, .own act next⟩) (.update fun s =>
        (p.as (.running ⟨act t, c, next t⟩), s))
  | host {t : ThreadState} {c : Crew} {act : Crew → Crew} {next : Crew → Course Crew β} :
      Makes p (.running ⟨t, c, .host act next⟩) (.update fun s =>
        (p.as (.running ⟨t, act c, next c⟩), s))
  | step {t : ThreadState} {c : Crew} {act : World → World}
      {tame : ∀ w, Relation.ReflTransGen Heap.Touch w.heap (act w).heap}
      {next : Machine Crew → Course Crew β} :
      Makes p (.running ⟨t, c, .step act tame next⟩) (.update fun s =>
        (p.as (.running ⟨t, c, next ⟨s.view, t, [], c⟩⟩), s.withView (act s.view)))
  | place {t : ThreadState} {c : Crew} {o : Object}
      {next : Except HeapFault Address → Course Crew β} :
      Makes p (.running ⟨t, c, .place o next⟩) (.allocate o fun r =>
        p.as (.running ⟨t, c, next r⟩))
  | collect {t : ThreadState} {c : Crew} {next : Bool → Course Crew β} :
      Makes p (.running ⟨t, c, .collect next⟩) (.collect fun ran =>
        p.as (.running ⟨t, c, next ran⟩))
  | join {t : ThreadState} {c : Crew} {worker : Nat} {next : Except Halt String → Course Crew β} :
      Makes p (.running ⟨t, c, .join worker next⟩) (.update fun s =>
        match s.world.outcomes worker with
        | some r => (p.as (.running ⟨t, c, next r⟩), s)
        | none => (p.as (.polling ⟨t, c, .join worker next⟩), s))
  | poll {a : Journey β} : Makes p (.polling a) (.safepoint (p.as (.running a)))
  | tell {c : Crew} {r : Except Halt β} : Makes p (.ended c r) (.update fun s =>
      (p.as (.gone c r), { s with world := p.tell r s.world }))
  | gone {c : Crew} {r : Except Halt β} : Makes p (.gone c r) .halt

lemma makes (p : Part β) (life : Life β) : p.Makes life (p.move life) := by
  cases life with
  | arriving => exact .arrive
  | starting => exact .start
  | running a =>
    obtain ⟨t, c, course⟩ := a
    cases course with
    | done r => exact .done
    | own act next => exact .own
    | host act next => exact .host
    | step act tame next => exact .step
    | place o next => exact .place
    | collect next => exact .collect
    | join worker next => exact .join
  | polling a => exact .poll
  | ended crew r => exact .tell
  | gone crew r => exact .gone

end Part

/-- The move keeps count of registrations. -/
def Move.Counts {α ω σ : Type} (held : σ → Nat) (own : σ) : Move α ω σ → Prop
  | .halt => True
  | .register next => held next = held own + 1
  | .allocate _ next => 0 < held own ∧ ∀ result, held (next result) = held own
  | .collect next => 0 < held own ∧ ∀ done, held (next done) = held own
  | .safepoint next => 0 < held own ∧ held next = held own
  | .update act => ∀ shared, held (act shared).1 = held own ∧
      Relation.ReflTransGen Heap.Touch shared.heap (act shared).2.heap
  | .deregister next => held next + 1 = held own

lemma Program.lawful_of_counts {α ω σ : Type} {p : Program α ω σ} {held : σ → Nat}
    (counts : ∀ own, (p.move own).Counts held own) : p.Lawful held := by
  have counts : ∀ own m, p.move own = m → m.Counts held own := fun own m move => move ▸ counts own
  exact ⟨fun own _ => counts own _, fun own _ _ => counts own _, fun own _ => counts own _,
    fun own _ => counts own _, fun own _ => counts own _, fun own _ => counts own _⟩

def Life.held {β : Type} : Life β → Nat
  | .starting | .running _ | .polling _ => 1
  | _ => 0

def Person.held : Person → Nat
  | .main life => life.held
  | .worker _ life => life.held
  | .sender _ => 0

lemma Life.held_le {β : Type} (life : Life β) : life.held ≤ 1 := by
  cases life <;> simp [held]

lemma Part.held_of_halt {β : Type} {p : Part β} {life : Life β} (halt : p.move life = .halt) :
    life.held = 0 := by
  have made := p.makes life
  rw [halt] at made
  cases made
  rfl

lemma Part.counts {β : Type} {p : Part β} (held : ∀ life, (p.as life).held = life.held)
    (life : Life β) : (p.move life).Counts Person.held (p.as life) := by
  have made := p.makes life
  generalize p.move life = m at made
  have moves : ∀ {l l' : Life β} {k n : Nat}, l'.held + k = l.held + n →
      (p.as l').held + k = (p.as l).held + n := by
    intro l l' k n same
    rw [held, held]
    exact same
  have registered : ∀ {l : Life β}, 0 < l.held → 0 < (p.as l).held := fun positive =>
    (held _).symm ▸ positive
  cases made with
  | arrive => exact moves (k := 0) rfl
  | start => exact fun s => ⟨moves (k := 0) (n := 0) rfl, .refl⟩
  | done => exact moves (n := 0) rfl
  | own => exact fun s => ⟨moves (k := 0) (n := 0) rfl, .refl⟩
  | host => exact fun s => ⟨moves (k := 0) (n := 0) rfl, .refl⟩
  | @step t c act tame next => exact fun s => ⟨moves (k := 0) (n := 0) rfl, tame s.view⟩
  | place => exact ⟨registered Nat.one_pos, fun _ => moves (k := 0) (n := 0) rfl⟩
  | collect => exact ⟨registered Nat.one_pos, fun _ => moves (k := 0) (n := 0) rfl⟩
  | @join _ _ worker next =>
    intro s
    dsimp only
    split
    · exact ⟨moves (k := 0) (n := 0) rfl, .refl⟩
    · exact ⟨moves (k := 0) (n := 0) rfl, .refl⟩
  | poll => exact ⟨registered Nat.one_pos, moves (k := 0) (n := 0) rfl⟩
  | tell => exact fun s => ⟨moves (k := 0) (n := 0) rfl, .refl⟩
  | gone => exact trivial

namespace Workload

variable (program : String) (o : Options)

lemma lawful_threads : (threads program o).Lawful Person.held := by
  refine Program.lawful_of_counts fun own => ?_
  cases own with
  | main life => exact (mainPart program o).counts (fun _ => rfl) life
  | worker number life => exact (workerPart o number).counts (fun _ => rfl) life
  | sender requests =>
    cases requests with
    | zero => exact trivial
    | succ requests => exact fun s => ⟨rfl, .refl⟩

end Workload

/-- The move counts down. -/
def Move.Descends {α ω σ W : Type} [PartialOrder W] (p : Program α ω σ) (rank : σ → W) (own : σ) :
    Move α ω σ → Prop
  | .halt => True
  | .register next => rank next < rank own
  | .allocate _ next => ∀ result, rank (next result) < rank own
  | .collect next => ∀ ran, rank (next ran) < rank own
  | .safepoint next => rank next ≤ rank own
  | .update act => ∀ shared, rank (act shared).1 < rank own ∨
      rank (act shared).1 = rank own ∧ ∃ next, p.move (act shared).1 = .safepoint next
  | .deregister next => rank next < rank own

lemma Program.progresses_of_descends {α ω σ W : Type} [PartialOrder W] {p : Program α ω σ}
    {held : σ → Nat} {rank : σ → W} (single : ∀ own, held own ≤ 1)
    (halt : ∀ own, p.move own = .halt → held own = 0)
    (descends : ∀ own, (p.move own).Descends p rank own) : p.Progresses held rank := by
  have descends : ∀ own m, p.move own = m → m.Descends p rank own :=
    fun own m move => move ▸ descends own
  exact ⟨single, halt, fun own _ => descends own _, fun own _ _ => descends own _,
    fun own _ => descends own _, fun own _ => descends own _, fun own _ => descends own _,
    fun own _ => descends own _⟩

/-- The stages of a life and the course of a thread, counted down. -/
def Life.rank {β : Type} : Life β → ℕ ×ₗ Course Crew Unit
  | .arriving => toLex (4, .done (.ok ()))
  | .starting => toLex (3, .done (.ok ()))
  | .running a | .polling a => toLex (2, a.course.bare)
  | .ended _ _ => toLex (1, .done (.ok ()))
  | .gone _ _ => toLex (0, .done (.ok ()))

def Person.rank : Person → ℕ ×ₗ Course Crew Unit
  | .main life => life.rank
  | .worker _ life => life.rank
  | .sender requests => toLex (requests, .done (.ok ()))

lemma toLex_lt_of_lt {m n : ℕ} (less : m < n) (x y : Course Crew Unit) :
    toLex (m, x) < toLex (n, y) := Prod.Lex.toLex_lt_toLex.mpr (.inl less)

lemma Course.GoesOn.toLex_lt {β : Type} {x y : Course Crew β} (goes : GoesOn x y) (n : ℕ) :
    toLex (n, x.bare) < toLex (n, y.bare) :=
  Prod.Lex.toLex_lt_toLex.mpr (.inr ⟨rfl, goes.bare.lt⟩)

lemma Part.descends {β : Type} {p : Part β} (prog : Program Object Scene Person)
    (rank : ∀ life, (p.as life).rank = life.rank) (moves : ∀ life, prog.move (p.as life) = p.move life)
    (life : Life β) : (p.move life).Descends prog Person.rank (p.as life) := by
  have made := p.makes life
  generalize p.move life = m at made
  have falls : ∀ {l l' : Life β}, l'.rank < l.rank → (p.as l').rank < (p.as l).rank := by
    intro l l' less
    rw [rank, rank]
    exact less
  have stays : ∀ {l l' : Life β}, l'.rank = l.rank → (p.as l').rank = (p.as l).rank := by
    intro l l' same
    rw [rank, rank]
    exact same
  cases made with
  | arrive => exact falls (toLex_lt_of_lt (by decide) _ _)
  | start => exact fun s => .inl (falls (toLex_lt_of_lt (by decide) _ _))
  | done => exact falls (toLex_lt_of_lt (by decide) _ _)
  | own => exact fun s => .inl (falls (Course.GoesOn.toLex_lt (.own _) 2))
  | host => exact fun s => .inl (falls (Course.GoesOn.toLex_lt (.host _) 2))
  | step => exact fun s => .inl (falls (Course.GoesOn.toLex_lt (.step _) 2))
  | place => exact fun r => falls (Course.GoesOn.toLex_lt (.place r) 2)
  | collect => exact fun ran => falls (Course.GoesOn.toLex_lt (.collect ran) 2)
  | @join t c worker next =>
    intro s
    dsimp only
    split
    · exact .inl (falls (Course.GoesOn.toLex_lt (.join _) 2))
    · exact .inr ⟨stays rfl, _, moves _⟩
  | @poll a =>
    have same : (p.as (.running a)).rank = (p.as (.polling a)).rank := stays rfl
    exact same.le
  | tell => exact fun s => .inl (falls (toLex_lt_of_lt (by decide) _ _))
  | gone => exact trivial

namespace Workload

variable (program : String) (o : Options)

lemma progresses_threads : (threads program o).Progresses Person.held Person.rank := by
  refine Program.progresses_of_descends (fun own => ?_) (fun own halt => ?_) fun own => ?_
  · cases own with
    | main life => exact life.held_le
    | worker number life => exact life.held_le
    | sender requests => exact Nat.zero_le _
  · cases own with
    | main life => exact Part.held_of_halt halt
    | worker number life => exact Part.held_of_halt halt
    | sender requests => rfl
  · cases own with
    | main life => exact (mainPart program o).descends _ (fun _ => rfl) (fun _ => rfl) life
    | worker number life => exact (workerPart o number).descends _ (fun _ => rfl) (fun _ => rfl) life
    | sender requests =>
      cases requests with
      | zero => exact trivial
      | succ requests => exact fun s => .inl (toLex_lt_of_lt (Nat.lt_succ_self _) _ _)

/-- Where a thread stands among the others. -/
def place (o : Options) : Person → Nat
  | .main _ => 0
  | .worker number _ => number + 1
  | .sender _ => o.threads + 1

variable {o} {w : World} {interrupts : Nat}

lemma getElem?_system (i : Nat) (t : MutatorThread Object Person)
    (here : (system o w interrupts).threads[i]? = some t) :
    place o t.own = i ∧ t.stage = .between ∧ (t.own = .main .arriving ∨
      (∃ n < o.threads, t.own = .worker n .arriving) ∨ t.own = .sender interrupts) := by
  rw [system, Rendezvous.getElem?_start, Option.map_eq_some_iff] at here
  obtain ⟨own, here, rfl⟩ := here
  cases i with
  | zero =>
    cases here
    exact ⟨rfl, rfl, .inl rfl⟩
  | succ n =>
    rw [List.cons_append, List.getElem?_cons_succ, List.getElem?_append] at here
    split at here
    · rename_i known
      rw [List.length_map, List.length_range] at known
      rw [List.getElem?_map, List.getElem?_range known] at here
      cases here
      exact ⟨rfl, rfl, .inr (.inl ⟨n, known, rfl⟩)⟩
    · rename_i last
      rw [List.length_map, List.length_range] at last here
      obtain ⟨bound, rfl⟩ := List.getElem?_eq_some_iff.mp here
      have only : n = o.threads := by
        rw [List.length_singleton] at bound
        omega
      subst only
      simp [place]

lemma size_system (o : Options) (w : World) (interrupts : Nat) :
    (system o w interrupts).threads.size = o.threads + 2 := by
  simp [system, MutatorSystem.start]

lemma starts_system (o : Options) (interrupts : Nat) (reachable : w.heap.Reachable) :
    (system o w interrupts).Starts (threads program o) Person.held := by
  refine ⟨lawful_threads program o, w.heap, ⟨w.shared.world, fun _ => none⟩, _, reachable, ?_, rfl⟩
  intro own mem
  obtain ⟨i, there⟩ := List.mem_iff_getElem?.mp mem
  have here : (system o w interrupts).threads[i]? = some ⟨own, .between⟩ := by
    rw [system, Rendezvous.getElem?_start, there]
    rfl
  obtain ⟨_, _, rfl | ⟨n, _, rfl⟩ | rfl⟩ := getElem?_system i _ here
  · rfl
  · rfl
  · rfl

end Workload

end CellMachine
