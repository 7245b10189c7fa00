import CellMachine.Proofs.Workload.LedMain
import CellMachine.Proofs.Workload.Threads

/-!
# Where a life leads

Whatever a thread does leads on to what is asked of it: a thread that owns what is shared learns
from its own steps, and one that owns nothing changes nothing. A cycle leaves a thread what it
has reported roots for.
-/

namespace CellMachine

variable {β : Type} {s s' : Shared Object Scene} {p : Part β} {l l' : Life β}
  {prog : Program Object Scene Person}

/-- A step that is no collection, as it concerns what is shared and the thread that took it. -/
inductive Part.Turn (p : Part β) (s : Shared Object Scene) :
    Life β → Life β → Shared Object Scene → Prop where
  | stay (l : Life β) : Turn p s l l s
  | room (l : Life β) {c : Nat} {heap : Heap Object}
      (made : heap = s.heap.prewarm c ∨ heap = s.heap.grow c) : Turn p s l l { s with heap }
  | arrive : Turn p s .arriving .starting s
  | start : Turn p s .starting
      (.running ⟨.start s.view.freshFrame.1 p.file, ⟨0⟩, p.course⟩)
      (s.withView s.view.freshFrame.2)
  | own {t : ThreadState} {c : Crew} {act : ThreadState → ThreadState}
      {next : ThreadState → Course Crew β} :
      Turn p s (.running ⟨t, c, .own act next⟩) (.running ⟨act t, c, next t⟩) s
  | host {t : ThreadState} {c : Crew} {act : Crew → Crew} {next : Crew → Course Crew β} :
      Turn p s (.running ⟨t, c, .host act next⟩) (.running ⟨t, act c, next c⟩) s
  | step {t : ThreadState} {c : Crew} {act : World → World}
      {tame : ∀ w, Relation.ReflTransGen Heap.Touch w.heap (act w).heap}
      {next : Machine Crew → Course Crew β} :
      Turn p s (.running ⟨t, c, .step act tame next⟩)
        (.running ⟨t, c, next ⟨s.view, t, [], c⟩⟩) (s.withView (act s.view))
  | place {t : ThreadState} {c : Crew} {o : Object} {k : Nat}
      {next : Except HeapFault Address → Course Crew β} (fits : s.heap.classOf o = .ok k) :
      Turn p s (.running ⟨t, c, .place o next⟩)
        (.running ⟨t, c, next (s.heap.allocateIn k o).1⟩)
        { s with heap := (s.heap.allocateIn k o).2 }
  | refuse {t : ThreadState} {c : Crew} {o : Object} {f : HeapFault}
      {next : Except HeapFault Address → Course Crew β} (fault : s.heap.classOf o = .error f) :
      Turn p s (.running ⟨t, c, .place o next⟩) (.running ⟨t, c, next (.error f)⟩) s
  | collect {t : ThreadState} {c : Crew} {next : Bool → Course Crew β} (ran : Bool) :
      Turn p s (.running ⟨t, c, .collect next⟩) (.running ⟨t, c, next ran⟩) s
  | join {t : ThreadState} {c : Crew} {worker : Nat} {r : Except Halt String}
      {next : Except Halt String → Course Crew β} (told : s.world.outcomes worker = some r) :
      Turn p s (.running ⟨t, c, .join worker next⟩) (.running ⟨t, c, next r⟩) s
  | wait {t : ThreadState} {c : Crew} {worker : Nat} {next : Except Halt String → Course Crew β}
      (untold : s.world.outcomes worker = none) :
      Turn p s (.running ⟨t, c, .join worker next⟩) (.polling ⟨t, c, .join worker next⟩) s
  | poll {a : Journey β} : Turn p s (.polling a) (.running a) s
  | leave {t : ThreadState} {c : Crew} {r : Except Halt β} :
      Turn p s (.running ⟨t, c, .done r⟩) (.ended c r) s
  | tell {c : Crew} {r : Except Halt β} :
      Turn p s (.ended c r) (.gone c r) { s with world := p.tell r s.world }

lemma Part.turn_of_beat (moves : prog.move (p.as l) = p.move l) {own : Person}
    (beat : Beat prog s (p.as l) own s') : ∃ l', own = p.as l' ∧ p.Turn s l l' s' := by
  have made := p.makes l
  rw [← moves] at made
  cases beat with
  | stay => exact ⟨l, rfl, .stay l⟩
  | room room => exact ⟨l, rfl, .room l room⟩
  | update move =>
    rw [move] at made
    cases made with
    | start => exact ⟨_, rfl, .start⟩
    | own => exact ⟨_, rfl, .own⟩
    | host => exact ⟨_, rfl, .host⟩
    | step => exact ⟨_, rfl, .step⟩
    | @join t c worker next =>
      cases told : s.world.outcomes worker with
      | some r =>
        simp only [told]
        exact ⟨_, rfl, .join told⟩
      | none =>
        simp only [told]
        exact ⟨_, rfl, .wait told⟩
    | tell => exact ⟨_, rfl, .tell⟩
  | claim move fits =>
    rw [move] at made
    cases made with
    | place => exact ⟨_, rfl, .place fits⟩
  | refuse move fault =>
    rw [move] at made
    cases made with
    | place => exact ⟨_, rfl, .refuse fault⟩
  | answer ends =>
    generalize prog.move (p.as l) = m at made ends
    cases made with
    | arrive =>
      obtain rfl := ends
      exact ⟨_, rfl, .arrive⟩
    | done =>
      obtain rfl := ends
      exact ⟨_, rfl, .leave⟩
    | collect =>
      obtain ⟨ran, rfl⟩ := ends
      exact ⟨_, rfl, .collect ran⟩
    | poll =>
      obtain rfl := ends
      exact ⟨_, rfl, .poll⟩
    | _ => exact ends.elim

/-- The last turn of a life tells its end; no other changes what is told. -/
lemma Part.Turn.outcomes (turn : p.Turn s l l' s') :
    (s'.world.outcomes = s.world.outcomes ∧ ∀ c r, l' = .gone c r → l = .gone c r) ∨
      ∃ c r, l = .ended c r ∧ l' = .gone c r ∧ s'.world = p.tell r s.world := by
  cases turn with
  | stay => exact .inl ⟨rfl, fun _ _ => id⟩
  | room => exact .inl ⟨rfl, fun _ _ => id⟩
  | tell => exact .inr ⟨_, _, rfl, rfl, rfl⟩
  | _ => exact .inl ⟨rfl, fun _ _ same => by cases same⟩

/-- A thread polls because it waits for a worker that has told nothing yet. -/
lemma Part.waits_of_polls {W : Type} [PartialOrder W] {rank : Person → W} {word : GcWord}
    {t t' : MutatorThread Object Person} (moves : ∀ l, prog.move (p.as l) = p.move l)
    (own : t.own = p.as l) (polls : t.Polls prog rank word s t') :
    (∃ a, l = .polling a ∧ t'.own = p.as (.running a)) ∨
      ∃ th c n next, l = .running ⟨th, c, .join n next⟩ ∧ s.world.outcomes n = none := by
  have only : ∀ {l' : Life β} {next : Person}, prog.move (p.as l') = .safepoint next →
      ∃ a, l' = .polling a := by
    intro l' next move
    have made := p.makes l'
    rw [← moves, move] at made
    cases made
    exact ⟨_, rfl⟩
  obtain ⟨_, _, _, ⟨move, _⟩ | ⟨act, next, move, after, safepoint⟩⟩ := polls
  · have made := p.makes l
    rw [← moves, ← own, move] at made
    generalize t'.own = own' at made ⊢
    cases made with
    | @poll a => exact .inl ⟨a, rfl, rfl⟩
  · have made := p.makes l
    rw [← moves, ← own, move] at made
    rw [← after] at safepoint
    cases made with
    | @join th c n next =>
      cases told : s.world.outcomes n with
      | some r =>
        simp only [told] at safepoint
        obtain ⟨a, same⟩ := only safepoint
        cases same
      | none => exact .inr ⟨th, c, n, next, rfl, told⟩
    | _ =>
      obtain ⟨a, same⟩ := only safepoint
      cases same

namespace Workload

variable (program : String) (o : Options)

/-- The main frame tells nothing. -/
lemma outcomes_mainPart {l l' : Life (Printed × String)}
    (turn : (mainPart program o).Turn s l l' s') : s'.world.outcomes = s.world.outcomes := by
  rcases turn.outcomes with ⟨same, _⟩ | ⟨_, _, _, _, same⟩
  · exact same
  · rw [same]
    rfl

/-- The turn of a thread of the workload or of the one who asks for interrupts. -/
inductive Turn (s : Shared Object Scene) : Person → Person → Shared Object Scene → Prop where
  | main {l l' : Life (Printed × String)} {s' : Shared Object Scene}
      (turn : (mainPart program o).Turn s l l' s') : Turn s (.main l) (.main l') s'
  | worker (n : Nat) {l l' : Life String} {s' : Shared Object Scene}
      (turn : (workerPart o n).Turn s l l' s') : Turn s (.worker n l) (.worker n l') s'
  | rest (requests : Nat) : Turn s (.sender requests) (.sender requests) s
  | room (requests : Nat) {c : Nat} {heap : Heap Object}
      (made : heap = s.heap.prewarm c ∨ heap = s.heap.grow c) :
      Turn s (.sender requests) (.sender requests) { s with heap }
  | send (requests : Nat) : Turn s (.sender (requests + 1)) (.sender requests)
      (s.withView s.view.requestInterrupt)

lemma turn_of_beat {own own' : Person} (beat : Beat (threads program o) s own own' s') :
    Turn program o s own own' s' := by
  cases own with
  | main life =>
    obtain ⟨l', rfl, turn⟩ := (mainPart program o).turn_of_beat (l := life) rfl beat
    exact .main turn
  | worker n life =>
    obtain ⟨l', rfl, turn⟩ := (workerPart o n).turn_of_beat (l := life) rfl beat
    exact .worker n turn
  | sender requests =>
    have stuck : ∀ m, (threads program o).move (.sender requests) = m → m = .halt ∨
        ∃ r, requests = r + 1 ∧ m = .update fun s =>
          (.sender r, s.withView s.view.requestInterrupt) := by
      rintro m rfl
      cases requests with
      | zero => exact .inl rfl
      | succ r => exact .inr ⟨r, rfl, rfl⟩
    cases beat with
    | stay => exact .rest requests
    | update move =>
      rcases stuck _ move with halt | ⟨r, rfl, same⟩
      · cases halt
      · cases same
        exact .send r
    | room made => exact .room requests made
    | claim move fits =>
      rcases stuck _ move with halt | ⟨r, _, same⟩
      · cases halt
      · cases same
    | refuse move fault =>
      rcases stuck _ move with halt | ⟨r, _, same⟩
      · cases halt
      · cases same
    | answer ends =>
      rcases stuck _ rfl with halt | ⟨r, _, same⟩
      · rw [halt] at ends
        exact ends.elim
      · rw [same] at ends
        exact ends.elim

lemma Turn.place_eq {own own' : Person} (turn : Turn program o s own own' s') :
    place o own' = place o own := by
  cases turn <;> rfl

section Runs

open MutatorSystem

variable {program o} {w : World} {interrupts : Nat}

/-- What holds at first, and after each collection and each turn if it did before, holds at all
times. -/
lemma holds_run (reachable : w.heap.Reachable) {P : MutatorSystem Object Scene Person → Prop}
    (schedule : Nat → Nat) (first : P (system o w interrupts))
    (collection : ∀ n t g t', let s := (system o w interrupts).run (threads program o) schedule n
      s.Collects (schedule n) → s.threads[schedule n]? = some t → t'.own = t.own →
        g.shared = { s.shared with heap := s.shared.heap.runCycle s.inputs.reverse } → P s →
          P (s.changed (schedule n) g t'))
    (turn : ∀ n t g t', let s := (system o w interrupts).run (threads program o) schedule n
      s.threads[schedule n]? = some t → Turn program o s.shared t.own t'.own g.shared → P s →
        P (s.changed (schedule n) g t')) (n : Nat) :
    P ((system o w interrupts).run (threads program o) schedule n) := by
  have starts := starts_system program o interrupts reachable
  induction n with
  | zero => exact first
  | succ n ih =>
    by_cases collects :
        ((system o w interrupts).run (threads program o) schedule n).Collects (schedule n)
    · obtain ⟨t, g, t', here, same, _, shared, eq⟩ :=
        step_of_collects (p := threads program o) collects
      rw [MutatorSystem.run, eq]
      exact collection n t g t' collects here same shared ih
    · rcases starts.beats collects with same | ⟨t, g, t', here, beat, eq⟩
      · rw [same]
        exact ih
      · rw [eq]
        exact turn n t g t' here (turn_of_beat program o beat) ih

/-- What holds of the thread that has changed and of all in other places holds of all. -/
lemma forall_own_changed {s : MutatorSystem Object Scene Person} {i : Nat}
    {t : MutatorThread Object Person} {P : Person → Prop} (g : Common Object Scene)
    (t' : MutatorThread Object Person) (here : s.threads[i]? = some t)
    (places : ∀ (j : Nat) u, s.threads[j]? = some u → place o u.own = j) (mover : P t'.own)
    (others : ∀ (j : Nat) u, s.threads[j]? = some u → place o u.own ≠ place o t.own → P u.own)
    (j : Nat) (u : MutatorThread Object Person) (there : (s.changed i g t').threads[j]? = some u) :
    P u.own := by
  rw [getElem?_changed here] at there
  split at there
  · cases there
    exact mover
  · rename_i other
    refine others j u there ?_
    rw [places j u there, places i t here]
    exact Ne.symm other

/-- Nobody changes places. -/
lemma place_run (reachable : w.heap.Reachable) (schedule : Nat → Nat) (n : Nat) :
    ∀ (i : Nat) t, ((system o w interrupts).run (threads program o) schedule n).threads[i]? = some t →
      place o t.own = i := by
  have keeps : ∀ {s : MutatorSystem Object Scene Person} {i : Nat} {t t' : MutatorThread Object Person}
      {g : Common Object Scene}, s.threads[i]? = some t → place o t'.own = place o t.own →
      (∀ (j : Nat) u, s.threads[j]? = some u → place o u.own = j) →
      ∀ (j : Nat) u, (s.changed i g t').threads[j]? = some u → place o u.own = j := by
    intro s i t t' g here same all j u there
    rw [getElem?_changed here] at there
    split at there
    · rename_i mover
      cases there
      exact mover ▸ same.trans (all i t here)
    · exact all j u there
  refine holds_run (P := fun s => ∀ (i : Nat) t, s.threads[i]? = some t → place o t.own = i)
    reachable schedule (fun i t here => (getElem?_system i t here).1) ?_ ?_ n
  · intro n t g t' s collects here same shared ih
    exact keeps here (same ▸ rfl) ih
  · intro n t g t' s here turn ih
    exact keeps here turn.place_eq ih

/-- Every place is taken. -/
lemma exists_place (program : String) (o : Options) (interrupts : Nat)
    (reachable : w.heap.Reachable) (schedule : Nat → Nat) (n : Nat) {i : Nat} (known : i < o.threads + 2) :
    ∃ t, ((system o w interrupts).run (threads program o) schedule n).threads[i]? = some t ∧
      place o t.own = i := by
  have starts := starts_system program o interrupts reachable
  have size := (starts.size_run schedule n).trans (size_system o w interrupts)
  obtain ⟨t, here⟩ : ∃ t,
      ((system o w interrupts).run (threads program o) schedule n).threads[i]? = some t :=
    ⟨_, Array.getElem?_eq_getElem (by omega)⟩
  exact ⟨t, here, place_run reachable schedule n i t here⟩

/-- The main frame comes first. -/
lemma exists_main (program : String) (o : Options) (interrupts : Nat)
    (reachable : w.heap.Reachable) (schedule : Nat → Nat) (n : Nat) :
    ∃ t l, ((system o w interrupts).run (threads program o) schedule n).threads[0]? = some t ∧
      t.own = .main l := by
  obtain ⟨⟨own, stage⟩, here, placed⟩ := exists_place program o interrupts reachable schedule n
    (i := 0) (by omega)
  cases own with
  | main l => exact ⟨_, l, here, rfl⟩
  | worker number l => cases placed
  | sender requests => cases placed

/-- The workers come next. -/
lemma exists_worker (program : String) (interrupts : Nat) (reachable : w.heap.Reachable)
    (schedule : Nat → Nat) (n : Nat) {number : Nat}
    (known : number < o.threads) :
    ∃ t l, ((system o w interrupts).run (threads program o) schedule n).threads[number + 1]? = some t ∧
      t.own = .worker number l := by
  obtain ⟨⟨own, stage⟩, here, placed⟩ := exists_place program o interrupts reachable schedule n
    (i := number + 1) (by omega)
  cases own with
  | main l => cases placed
  | worker number' l =>
    obtain rfl : number' = number := Nat.succ.inj placed
    exact ⟨_, l, here, rfl⟩
  | sender requests =>
    have same : o.threads + 1 = number + 1 := placed
    omega

end Runs

end Workload

/-- The thread leads to what is asked of it, or has come there. -/
def Life.Meets (t : Terms β) (K : Knowledge) : Life β → Prop
  | .arriving | .starting => True
  | .running a => t.Leads a.course a.thread K
  | .polling a => (∃ n next, a.course = .join n next) ∧ t.Leads a.course a.thread K
  | .ended _ r | .gone _ r => t.post r (K.kept [])

/-- The thread begins well, and what it tells of its end is all that it tells. -/
structure Part.Suits (p : Part β) (t : Terms β) : Prop where
  begins : ∀ id, t.Leads p.course (.start id p.file) ∅
  tells : ∀ r scene, (p.tell r scene).surroundings = scene.surroundings

section Meets

variable {t : Terms β} {K : Knowledge}

/-- What a turn leads to. -/
structure Part.Lands (t : Terms β) (K : Knowledge) (s s' : Shared Object Scene) (l' : Life β) :
    Prop where
  steady : s'.view.Steady t.singletons
  knows : ∃ K', s'.view.Bears K' ∧ l'.Meets t K' ∧ (t.owner ∨ K' ⊆ K)
  others : t.owner ∨ ∀ K₀, s.view.Bears K₀ → s'.view.Bears K₀

lemma Part.Turn.lands (turn : p.Turn s l l' s') (suits : p.Suits t)
    (told : ∀ n r r', t.answer n = some r → s.world.outcomes n = some r' → r' = r)
    (steady : s.view.Steady t.singletons) (bears : s.view.Bears K) (meets : l.Meets t K) :
    Part.Lands t K s s' l' := by
  have here : ∀ {l' : Life β}, l'.Meets t K → Part.Lands t K s s l' := fun meets' =>
    ⟨steady, ⟨K, bears, meets', .inr subset_rfl⟩, .inr fun _ known => known⟩
  have sound := steady.reachable.sound
  cases turn with
  | stay => exact here meets
  | room l made =>
    exact ⟨steady.room made, ⟨K, bears.room sound made, meets, .inr subset_rfl⟩,
      .inr fun K₀ known => known.room sound made⟩
  | arrive => exact here trivial
  | start =>
    have stays : ∀ K₀, s.view.Bears K₀ → s.view.freshFrame.2.Bears K₀ := fun K₀ known =>
      known.congr (fun _ _ mem => mem) rfl rfl
    refine ⟨?_, ⟨∅, fun f mem => absurd mem (Set.notMem_empty f), suits.begins _,
      .inr (Set.empty_subset K)⟩, .inr stays⟩
    exact steady.touched .refl rfl rfl (fun _ => rfl) fun _ interned =>
      interned.congr rfl rfl rfl interned.cells
  | own => exact here meets
  | host => exact here (meets _)
  | @step th c act tame next =>
    obtain ⟨K', steady', bears', owns, leads⟩ := meets ⟨s.view, th, [], c⟩ ⟨rfl, steady, bears⟩
    refine ⟨steady', ⟨K', bears', leads, owns.imp_right And.left⟩, owns.imp_right ?_⟩
    rintro ⟨_, heap, symbols, globals⟩ K₀ known
    exact known.congr (fun a o mem => heap ▸ mem) symbols globals
  | @place th c o k next fits =>
    obtain ⟨a, ok, fresh, known⟩ := bears.claim sound fits
    obtain ⟨K', sub, owns, leads⟩ := meets a fun o' mem => fresh o' (K.kept_subset _ mem)
    rw [show (s.heap.allocateIn k o).1 = .ok a from ok]
    refine ⟨steady.claim fits, ⟨K', known.mono (sub.trans ?_), leads, owns⟩, .inr fun K₀ known₀ => ?_⟩
    · exact Set.insert_subset_insert (K.kept_subset _)
    · obtain ⟨_, _, _, more⟩ := known₀.claim sound fits
      exact more.mono (Set.subset_insert _ _)
  | refuse fault =>
    obtain ⟨k, fits⟩ := steady.exists_classOf _
    rw [show s.heap.classOf _ = .ok k from fits] at fault
    cases fault
  | collect ran =>
    exact ⟨steady, ⟨_, bears.mono (K.kept_subset _), meets ran, .inr (K.kept_subset _)⟩,
      .inr fun _ known => known⟩
  | @join _ _ worker r next known =>
    obtain ⟨r', answer, leads⟩ := meets
    obtain rfl := told worker r' r answer known
    exact ⟨steady, ⟨_, bears.mono (K.kept_subset _), leads, .inr (K.kept_subset _)⟩,
      .inr fun _ known => known⟩
  | wait untold => exact here ⟨⟨_, _, rfl⟩, meets⟩
  | poll => exact here meets.2
  | leave => exact here meets
  | @tell _ r =>
    have same : ({ s with world := p.tell r s.world } : Shared Object Scene).view = s.view := by
      rw [Shared.view, suits.tells]
      rfl
    exact ⟨same.symm ▸ steady, ⟨K, same.symm ▸ bears, meets, .inr subset_rfl⟩,
      .inr fun K₀ known => same.symm ▸ known⟩

/-- What a thread that waits for a cycle needs of its values, but for those that it has said to
need no more. -/
def Life.needs : Life β → List Value
  | .running ⟨t, _, .place o _⟩ => t.stack.toList ++ o.children
  | .running ⟨t, _, .collect _⟩ => t.stack.toList
  | .polling a => a.thread.stack.toList
  | _ => []

lemma Knowledge.kept_kept (K : Knowledge) (roots : List Value) :
    (K.kept roots).kept roots = K.kept roots :=
  subset_antisymm (Knowledge.kept_subset _ _)
    (Knowledge.kept_subset_kept subset_rfl (List.Subset.refl _))

/-- In a cycle a thread reports what it needs, and what it needs is enough. -/
lemma Life.Meets.kept (prog : Program Object Scene Person) (p : Part β) {e : Errand Object Person}
    (moves : prog.move (p.as l) = p.move l)
    (roots : prog.roots (p.as l) = l.roots) (move : prog.move (p.as l) = e.move) (owner : t.owner)
    (meets : l.Meets t K) : l.Meets t (K.kept l.needs) ∧
      ∀ a, .ref a ∈ l.needs → a ∈ e.rootSet prog (p.as l) := by
  have made := p.makes l
  rw [← moves, move] at made
  have reported : ∀ {a vs}, .ref a ∈ l.roots → a ∈ references (prog.roots (p.as l)) ++ vs :=
    fun mem => List.mem_append_left _ (mem_references.mpr (roots ▸ mem))
  have placed : ∀ {th : ThreadState} {c : Crew} {o : Object}
      {next : Except HeapFault Address → Course Crew β},
      Life.Meets t K (.running ⟨th, c, .place o next⟩) →
        Life.Meets t (K.kept (th.stack.toList ++ o.children)) (.running ⟨th, c, .place o next⟩) := by
    intro th c o next meets a fresh
    rw [Knowledge.kept_kept] at fresh ⊢
    obtain ⟨K', sub, _, leads⟩ := meets a fresh
    exact ⟨K', sub, .inl owner, leads⟩
  have pending : ∀ {a} {o : Object}, .ref a ∈ l.roots ++ o.children →
      a ∈ references (prog.roots (p.as l)) ++ references (Payload.children o) := by
    intro a o mem
    rcases List.mem_append.mp mem with root | child
    · exact reported root
    · exact List.mem_append_right _ (mem_references.mpr child)
  cases e with
  | safepoint next =>
    cases made with
    | @poll a =>
      obtain ⟨th, c, course⟩ := a
      obtain ⟨⟨n, after, rfl⟩, r, answer, leads⟩ := meets
      refine ⟨⟨⟨n, after, rfl⟩, r, answer, ?_⟩, fun a mem => reported mem⟩
      exact (Knowledge.kept_kept K _).symm ▸ leads
  | collection next =>
    cases made with
    | collect =>
      refine ⟨fun ran => ?_, fun a mem => reported mem⟩
      exact (Knowledge.kept_kept K _).symm ▸ meets ran
  | departure next =>
    cases made with
    | done =>
      refine ⟨?_, fun a mem => by cases mem⟩
      change t.post _ ((K.kept []).kept [])
      rw [Knowledge.kept_kept]
      exact meets
  | beforeAllocation payload next =>
    cases made with
    | place => exact ⟨placed meets, fun a mem => pending mem⟩
  | shortage c payload next =>
    cases made with
    | place => exact ⟨placed meets, fun a mem => pending mem⟩

end Meets

end CellMachine
