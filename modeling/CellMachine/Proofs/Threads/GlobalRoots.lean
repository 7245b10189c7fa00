import CellMachine.Proofs.Threads.StandingRoots
import CellMachine.Proofs.Threads.UniqueNames

/-!
# Global variables root their values

While no thread is in the middle of a call, the global roots are the three singletons, one for each
name in the table and one for each variable that is bound to a cell. A registered thread that is in
the middle of one is at no safepoint, so no cycle meets it there. But whoever binds a variable need
not be registered, and a cycle may overtake such a thread after it has taken the registration of the
old value away and before it registers the new one. The variable is then bound to a cell that is no
root, even if it was bound to the same cell before.
-/

namespace CellMachine

namespace Heap

variable {α : Type} [Payload α] {h : Heap α}

lemma Sound.globalRoots_makeRoom (sound : h.Sound) (c : Nat) (threads : List (Array Value))
    (payload : α) : (h.makeRoom c threads payload).globalRoots = h.globalRoots := by
  rw [makeRoom]
  split
  · rfl
  · rfl
  · rw [Heap.collect]
    split
    · exact globalRoots_runCycle sound _
    · rfl

lemma Sound.globalRoots_allocate (sound : h.Sound) (threads : List (Array Value)) (payload : α) :
    (h.allocate threads payload).2.globalRoots = h.globalRoots := by
  rw [allocate]
  cases h.classOf payload with
  | error f => rfl
  | ok c => exact (allocateIn_frame _ c payload).1.trans (sound.globalRoots_makeRoom c threads payload)

/-- Cells without children lead to nothing but themselves. -/
lemma Reaches.mem_of_leaves {roots : Set Address} {leaves : List Address}
    (within : ∀ w ∈ roots, w ∈ leaves)
    (cells : ∀ w ∈ leaves, h.cellFor? w = some w ∧
      (h.payload? w).all (fun o => (Payload.children o).isEmpty) = true) {a : Address}
    (reached : h.Reaches roots a) : a ∈ leaves := by
  induction reached with
  | root mem hit =>
    have leaf := within _ mem
    rw [(cells _ leaf).1] at hit
    exact Option.some.inj hit ▸ leaf
  | edge start here child live ih =>
    have childless := (cells _ ih).2
    rw [here, Option.all_some, List.isEmpty_iff] at childless
    rw [childless] at child
    cases child

omit [Payload α] in
lemma globalRoots_create {settings : Settings} (made : create settings = .ok h) :
    h.globalRoots = [] := by
  rw [create, createAt] at made
  split at made
  · cases made
  · cases made
    rfl

end Heap

namespace World

/-- The roots of nil, true and false. -/
def singletonRoots (w : World) : List Value :=
  [w.singletons.nil, w.singletons.ofBool true, w.singletons.ofBool false]

lemma globalRoots_rooted {h h' : Heap Object} {o : Object} {a : Address} (sound : h.Sound)
    (made : rooted h o = .ok (a, h')) : h'.globalRoots = .ref a :: h.globalRoots := by
  have same := sound.globalRoots_allocate [] o
  rw [rooted] at made
  split at made
  · rename_i b after ran
    cases made
    rw [ran] at same
    rw [Heap.globalRoots_addGlobalRoot, same]
    rfl
  · cases made

lemma globalRoots_create {settings : Settings} {w : World} (made : create settings = .ok w) :
    w.heap.globalRoots.Perm w.singletonRoots := by
  obtain ⟨empty, nilCell, one, trueCell, two, falseCell, heap, created, first, second, third, rfl⟩ :=
    create_spec made
  have unbroken := Unbroken.create created
  have unbroken' := unbroken.rooted rfl first
  have unbroken'' := unbroken'.rooted rfl second
  have roots : heap.globalRoots = [.ref falseCell, .ref trueCell, .ref nilCell] := by
    rw [globalRoots_rooted unbroken''.reachable.sound third,
      globalRoots_rooted unbroken'.reachable.sound second,
      globalRoots_rooted unbroken.reachable.sound first, Heap.globalRoots_create created]
  change heap.globalRoots.Perm [.ref nilCell, .ref trueCell, .ref falseCell]
  rw [roots]
  exact List.reverse_perm [Value.ref nilCell, .ref trueCell, .ref falseCell]

end World

variable {σ : Type} {c : Client σ} {held : σ → Nat}

/-- Threads that share the world of a new machine. -/
structure Client.Opens (c : Client σ) (held : σ → Nat)
    (s : MutatorSystem Object Guarded (Caller σ)) : Prop where
  lawful : c.Lawful held
  start : ∃ (settings : Settings) (w : World) (threads : List σ), World.create settings = .ok w ∧
    (∀ own ∈ threads, held own = 0) ∧
    s = .start w.heap ⟨w.shared.world, ⟨false, false⟩⟩ (threads.map fun own => ⟨own, .start⟩)

namespace MutatorSystem

variable {fixed : List Value} {s : MutatorSystem Object Guarded (Caller σ)}

/-- No thread is in the middle of binding a variable or of publishing a name. -/
def Quiet (c : Client σ) (s : MutatorSystem Object Guarded (Caller σ)) : Prop :=
  ∀ (i : Nat) t, s.threads[i]? = some t → c.critical t.own = .outside

lemma Booked.roots (booked : s.Booked c fixed) (quiet : s.Quiet c) :
    s.shared.guardedWorld.roots = fixed + s.shared.guardedWorld.tableRoots := by
  have balance := booked.balance
  have owed : s.total (fun t => (c.critical t.own).owed) = 0 :=
    total_eq_zero fun j u there => by rw [quiet j u there]; rfl
  have surplus : s.total (fun t => (c.critical t.own).surplus) = 0 :=
    total_eq_zero fun j u there => by rw [quiet j u there]; rfl
  rwa [owed, surplus, add_zero, add_zero] at balance

end MutatorSystem

namespace Client

variable {w w' : World} {l l' : Locks} {t t' : Caller σ}

/-- The variables change only when a thread binds one. -/
lemma Strides.globals_cases (strides : c.Strides w l t t' w' l') : w'.globals = w.globals ∨
    ∃ name v, c.request t.own = .setGlobal name v ∧ c.critical t = .outside ∧
      w'.globals = World.rebind name v w.globals := by
  cases strides with
  | @bind name v asked out => exact .inr ⟨name, v, asked, out, rfl⟩
  | @release name v old =>
    cases old with
    | none => exact .inl rfl
    | some u => exact .inl rfl
  | _ => exact .inl rfl

lemma Strides.singletons (strides : c.Strides w l t t' w' l') : w'.singletons = w.singletons := by
  cases strides with
  | @release name v old =>
    cases old with
    | none => rfl
    | some u => rfl
  | _ => rfl

/-- A thread that binds a variable neither allocates a cell nor frees one. -/
lemma Strides.isLive_eq (strides : c.Strides w l t t' w' l') (sound : w.heap.Sound) {name : String}
    {v : Value} (asked : c.request t.own = .setGlobal name v) (a : Address) :
    w'.heap.isLive a = w.heap.isLive a := by
  cases strides with
  | room made => exact congrArg Option.isSome (sound.cells_of_room made a).1
  | @enroll name v =>
    exact congrArg Option.isSome (Heap.cells_congr (w.heap.addGlobalRoot_frame v).2.1 a).1
  | miss here => cases here.symm.trans asked
  | allocate here => cases here.symm.trans asked
  | make here => cases here.symm.trans asked
  | modify here => cases here.symm.trans asked
  | root here => cases here.symm.trans asked
  | enter here => cases here.symm.trans asked
  | @release name v old =>
    cases old with
    | none => rfl
    | some u => rfl
  | _ => rfl

/-- A thread whose move may take it into the rendezvous is in the middle of nothing. -/
lemma idle_of_move {e : Errand Object (Caller σ)} (move : c.stepwise.move t = e.move) :
    c.critical t = .outside ∧ c.cellFor? t = none := by
  have moves := c.moves t
  rw [move] at moves
  generalize eq : e.move = m at moves
  cases moves with
  | make here missed =>
    rw [critical, cellFor?, here, missed]
    exact ⟨rfl, rfl⟩
  | modify | look | bind | release | enroll | find | root | enter =>
    exact absurd eq (Errand.move_ne_update e _)
  | _ here =>
    rw [critical, cellFor?, here]
    exact ⟨rfl, rfl⟩

/-- Whoever is about to bind a variable to a cell has been given a cell that is live. -/
def GivesLive (c : Client σ) (schedule : Nat → Nat)
    (s : MutatorSystem Object Guarded (Caller σ)) : Prop :=
  ∀ n t name a, (s.run c.stepwise schedule n).threads[schedule n]? = some t →
    c.critical t.own = .outside → c.request t.own.own = .setGlobal name (.ref a) →
    (s.run c.stepwise schedule n).shared.heap.isLive a

/-- An earlier cycle has overtaken a thread that is not registered, in the middle of binding the
variable to the cell. -/
def Overtaken (c : Client σ) (held : σ → Nat) (schedule : Nat → Nat)
    (s : MutatorSystem Object Guarded (Caller σ)) (n : Nat) (name : String) (a : Address) : Prop :=
  ∃ m < n, (s.run c.stepwise schedule m).Collects (schedule m) ∧
    ∃ (i : Nat) (t : MutatorThread Object (Caller σ)),
      (s.run c.stepwise schedule m).threads[i]? = some t ∧ held t.own.own = 0 ∧
        (c.critical t.own).binding? = some (name, .ref a)

/-- The words that a cycle starts from: what the threads report, what the objects that are being
allocated refer to, and the global roots. -/
def wanted (c : Client σ) (fixed : List Value) (s : MutatorSystem Object Guarded (Caller σ)) :
    Set Address :=
  { w | (∃ (i : Nat) (t : MutatorThread Object (Caller σ)), s.threads[i]? = some t ∧
        (.ref w ∈ c.roots t.own.own ∨
          ∃ call, t.stage.allocation? = some call ∧ .ref w ∈ call.1.children)) ∨
      w ∈ s.rootWords c fixed }

namespace Opens

open MutatorSystem

variable {s : MutatorSystem Object Guarded (Caller σ)} {schedule : Nat → Nat} {n : Nat}

lemma starts (opens : c.Opens held s) : s.Starts c.stepwise fun t => held t.own := by
  obtain ⟨settings, w, threads, made, unregistered, eq⟩ := opens.start
  refine ⟨opens.lawful.stepwise, w.heap, _, _, (World.blank_of_create made).reachable,
    fun t mem => ?_, eq⟩
  obtain ⟨own, mem', rfl⟩ := List.mem_map.mp mem
  exact unregistered own mem'

lemma reachable (opens : c.Opens held s) (schedule : Nat → Nat) (n : Nat) :
    (s.run c.stepwise schedule n).shared.heap.Reachable := by
  obtain ⟨phase, inv⟩ := opens.starts.rendezvous schedule n
  exact inv.heap

/-- A cycle meets no registered thread in the middle of a call, and no thread with a new cell. -/
lemma idle (opens : c.Opens held s)
    (collects : (s.run c.stepwise schedule n).Collects (schedule n)) (j : Nat)
    (u : MutatorThread Object (Caller σ))
    (there : (s.run c.stepwise schedule n).threads[j]? = some u) :
    (0 < held u.own.own → c.critical u.own = .outside) ∧ c.cellFor? u.own = none := by
  obtain ⟨_, _, _, here⟩ := collects
  obtain ⟨phase, inv⟩ := opens.starts.rendezvous schedule n
  obtain rfl := inv.assembled_of_collecting here
  by_cases registered : 0 < held u.own.own
  · obtain ⟨e, inside⟩ := (inv.registered_iff there).mp registered
    have out := idle_of_move (opens.starts.follows schedule n j u there _ (Stage.move?_of_errand inside))
    exact ⟨fun _ => out.1, out.2⟩
  · -- only registered threads intern names
    have needs := opens.lawful.registered u.own.own
    refine ⟨fun positive => absurd positive registered, ?_⟩
    rw [cellFor?]
    cases asked : c.request u.own.own with
    | intern name => exact absurd (needs (by rw [asked]; trivial)) registered
    | _ => rfl

lemma strides (opens : c.Opens held s)
    (other : ¬ (s.run c.stepwise schedule n).Collects (schedule n)) :
    s.run c.stepwise schedule (n + 1) = s.run c.stepwise schedule n ∨
      ∃ t g t', (s.run c.stepwise schedule n).threads[schedule n]? = some t ∧
        c.Strides (s.run c.stepwise schedule n).shared.guardedWorld
          (s.run c.stepwise schedule n).shared.world.locks t.own t'.own g.shared.guardedWorld
          g.shared.world.locks ∧
        s.run c.stepwise schedule (n + 1) =
          (s.run c.stepwise schedule n).changed (schedule n) g t' := by
  rcases opens.starts.beats other with same | ⟨t, g, t', here, beat, eq⟩
  · exact .inl same
  · exact .inr ⟨t, g, t', here, strides_of_beat beat, eq⟩

/-- The singletons stay what they are. -/
lemma singletons (opens : c.Opens held s) (schedule : Nat → Nat) (n : Nat) :
    (s.run c.stepwise schedule n).shared.guardedWorld.singletons =
      s.shared.guardedWorld.singletons := by
  induction n with
  | zero => rfl
  | succ n ih =>
    by_cases collects : (s.run c.stepwise schedule n).Collects (schedule n)
    · obtain ⟨t, g, t', _, _, _, shared, eq⟩ := step_of_collects (p := c.stepwise) collects
      rw [run, eq]
      change g.shared.guardedWorld.singletons = _
      rw [shared]
      exact ih
    · rcases opens.strides collects with same | ⟨t, g, t', here, strides, eq⟩
      · rw [same]
        exact ih
      · rw [eq]
        exact strides.singletons.trans ih

lemma idle_start (opens : c.Opens held s) (j : Nat) (u : MutatorThread Object (Caller σ))
    (there : s.threads[j]? = some u) : c.critical u.own = .outside ∧ c.cellFor? u.own = none := by
  obtain ⟨settings, w, threads, made, _, rfl⟩ := opens.start
  rw [Rendezvous.getElem?_start] at there
  obtain ⟨v, mem, rfl⟩ := Option.map_eq_some_iff.mp there
  obtain ⟨own, _, rfl⟩ := List.mem_map.mp (List.mem_of_getElem? mem)
  rw [critical, cellFor?]
  cases c.request own <;> exact ⟨rfl, rfl⟩

lemma booked_start (opens : c.Opens held s) :
    s.Booked c s.shared.guardedWorld.singletonRoots := by
  have idle := opens.idle_start
  have none_there : ∀ {M : Type} [AddCommMonoid M] (f : Critical → M), f .outside = 0 →
      s.total (fun t => f (c.critical t.own)) = 0 := fun f zero =>
    total_eq_zero fun j u there => by rw [(idle j u there).1, zero]
  obtain ⟨settings, w, threads, made, _, rfl⟩ := opens.start
  have blank := World.blank_of_create made
  have symbols : w.symbols = [] := blank.symbols
  have globals : w.globals = [] := blank.globals
  constructor
  · exact none_there (fun k => k.binding?.isSome.toNat) rfl
  · exact none_there (fun k => k.naming?.isSome.toNat) rfl
  · have roots : w.roots = w.singletonRoots := Multiset.coe_eq_coe.mpr (World.globalRoots_create made)
    have tables : w.tableRoots = 0 := by
      rw [World.tableRoots, symbols, globals]
      rfl
    change w.roots + _ = w.singletonRoots + w.tableRoots + _
    rw [none_there Critical.owed rfl, none_there Critical.surplus rfl, roots, tables]
    simp only [add_zero]
  · intro j u name v there binds
    rw [(idle j u there).1] at binds
    cases binds
  · intro j u name there names
    rw [(idle j u there).1] at names
    cases names
  · intro j u name a there cell
    rw [(idle j u there).2] at cell
    cases cell
  · change ∀ name a, (name, a) ∈ w.symbols → _
    rw [symbols]
    exact fun name a entry => by cases entry
  · change (w.symbols.map Prod.fst).Nodup
    rw [symbols]
    exact .nil
  · change (w.globals.map Prod.fst).Nodup
    rw [globals]
    exact .nil

lemma booked (opens : c.Opens held s) (schedule : Nat → Nat) (n : Nat) :
    (s.run c.stepwise schedule n).Booked c s.shared.guardedWorld.singletonRoots := by
  induction n with
  | zero => exact opens.booked_start
  | succ n ih =>
    have reachable := opens.reachable schedule n
    by_cases collects : (s.run c.stepwise schedule n).Collects (schedule n)
    · obtain ⟨t, g, t', here, same, _, shared, eq⟩ := step_of_collects (p := c.stepwise) collects
      rw [run, eq]
      exact ih.cycle reachable.sound here same (fun j u there => (opens.idle collects j u there).2)
        shared
    · rcases opens.strides collects with same | ⟨t, g, t', here, strides, eq⟩
      · rw [same]
        exact ih
      · rw [eq]
        exact ih.strides opens.lawful reachable here strides

/-- A cycle leaves the variables alone. -/
lemma globals_of_collects (collects : (s.run c.stepwise schedule n).Collects (schedule n)) :
    (s.run c.stepwise schedule (n + 1)).shared.guardedWorld.globals =
      (s.run c.stepwise schedule n).shared.guardedWorld.globals := by
  obtain ⟨t, g, t', _, _, _, shared, eq⟩ := step_of_collects (p := c.stepwise) collects
  rw [run, eq]
  change g.shared.guardedWorld.globals = _
  rw [shared]
  rfl

/-- A cycle frees no global root. -/
lemma isLive_of_root (opens : c.Opens held s)
    (collects : (s.run c.stepwise schedule n).Collects (schedule n)) {a : Address}
    (root : a ∈ (s.run c.stepwise schedule n).rootWords c s.shared.guardedWorld.singletonRoots)
    (live : (s.run c.stepwise schedule n).shared.heap.isLive a) :
    (s.run c.stepwise schedule (n + 1)).shared.heap.isLive a := by
  have sound := (opens.reachable schedule n).sound
  have registered := (opens.booked schedule n).mem_globalRoots_iff.mpr root
  rw [run_collects collects]
  exact sound.isLive_runCycle_iff.mpr (.root (.inr registered) (Heap.cellFor?_of_isLive live))

lemma isLive_singleton (opens : c.Opens held s) (schedule : Nat → Nat) (n : Nat) :
    (s.run c.stepwise schedule n).shared.heap.AllLive s.shared.guardedWorld.singletonRoots := by
  induction n with
  | zero =>
    obtain ⟨settings, w, threads, made, _, rfl⟩ := opens.start
    have blank := World.blank_of_create made
    exact fun a mem => blank.stored a (.inl ((World.globalRoots_create made).mem_iff.mpr mem))
  | succ n ih =>
    intro a mem
    by_cases collects : (s.run c.stepwise schedule n).Collects (schedule n)
    · exact opens.isLive_of_root collects (.inl mem) (ih a mem)
    · exact opens.starts.kept collects (ih a mem)

/-- A cell that a variable is bound to is live, unless a cycle has overtaken the binding. -/
lemma isLive_or_overtaken (opens : c.Opens held s) (gives : GivesLive c schedule s) (n : Nat)
    {name : String} {a : Address}
    (entry : (name, .ref a) ∈ (s.run c.stepwise schedule n).shared.guardedWorld.globals) :
    (s.run c.stepwise schedule n).shared.heap.isLive a ∨
      c.Overtaken held schedule s n name a := by
  induction n generalizing name a with
  | zero =>
    obtain ⟨settings, w, threads, made, _, rfl⟩ := opens.start
    have globals : w.globals = [] := (World.blank_of_create made).globals
    change (name, .ref a) ∈ w.globals at entry
    rw [globals] at entry
    cases entry
  | succ n ih =>
    have longer : c.Overtaken held schedule s n name a → c.Overtaken held schedule s (n + 1) name a :=
      fun ⟨m, before, met⟩ => ⟨m, Nat.lt_succ_of_lt before, met⟩
    by_cases collects : (s.run c.stepwise schedule n).Collects (schedule n)
    · rw [globals_of_collects collects] at entry
      rcases (opens.booked schedule n).standing_or_binds entry with stands | ⟨i, t, here, binds⟩
      · exact (ih entry).imp (opens.isLive_of_root collects (.inr (.inr (.inl ⟨name, stands⟩)))) longer
      · -- a registered thread would not have been met there
        have unregistered : held t.own.own = 0 := by
          by_contra registered
          have out := (opens.idle collects i t here).1 (Nat.pos_of_ne_zero registered)
          rw [out] at binds
          cases binds
        exact .inr ⟨n, n.lt_succ_self, collects, i, t, here, unregistered, binds⟩
    · have kept : (s.run c.stepwise schedule n).shared.heap.isLive a →
          (s.run c.stepwise schedule (n + 1)).shared.heap.isLive a :=
        fun live => opens.starts.kept collects live
      rcases opens.strides collects with same | ⟨t, g, t', here, strides, eq⟩
      · rw [same] at entry
        exact (ih entry).imp kept longer
      · have after : (s.run c.stepwise schedule (n + 1)).shared.guardedWorld.globals =
            g.shared.guardedWorld.globals := by rw [eq]; rfl
        rw [after] at entry
        rcases strides.globals_cases with same | ⟨name', v, asked, out, bound⟩
        · rw [same] at entry
          exact (ih entry).imp kept longer
        · rw [bound] at entry
          rcases World.mem_rebind entry with old | new
          · exact (ih old).imp kept longer
          · cases new
            exact .inl (kept (gives n t name a here out asked))

lemma wanted_of_root (opens : c.Opens held s)
    (collects : (s.run c.stepwise schedule n).Collects (schedule n)) {w : Address}
    (root : w ∈ (s.run c.stepwise schedule n).shared.heap.cycleRoots
      (s.run c.stepwise schedule n).inputs.reverse) :
    w ∈ wanted c s.shared.guardedWorld.singletonRoots (s.run c.stepwise schedule n) := by
  obtain ⟨_, _, _, here⟩ := collects
  obtain ⟨phase, inv⟩ := opens.starts.rendezvous schedule n
  obtain rfl := inv.assembled_of_collecting here
  have perm := inv.inputs_perm (Rendezvous.unscanned_of_collecting here)
  rcases root with ⟨roots, submitted, mem⟩ | global
  · have sent := perm.mem_iff.mp (List.mem_reverse.mp submitted)
    obtain ⟨t, there, some_e⟩ := List.mem_filterMap.mp sent
    obtain ⟨e, inside, rfl⟩ := Option.map_eq_some_iff.mp some_e
    obtain ⟨j, at_j⟩ := mem_threads.mp there
    refine .inl ⟨j, t, at_j, ?_⟩
    rw [Stage.allocation?_of_errand inside]
    rcases Errand.mem_rootSet_cases mem with reported | pending
    · exact .inl reported
    · cases e with
      | beforeAllocation o next => exact .inr ⟨_, rfl, pending⟩
      | shortage k o next => exact .inr ⟨_, rfl, pending⟩
      | _ => cases pending
  · exact .inr ((opens.booked schedule n).mem_globalRoots_iff.mp global)

lemma not_isLive_of_unreached (opens : c.Opens held s)
    (collects : (s.run c.stepwise schedule n).Collects (schedule n)) {a : Address}
    (unreached : ¬ (s.run c.stepwise schedule n).shared.heap.Reaches
      (wanted c s.shared.guardedWorld.singletonRoots (s.run c.stepwise schedule n)) a) :
    ¬ (s.run c.stepwise schedule (n + 1)).shared.heap.isLive a := by
  intro live
  rw [run_collects collects] at live
  have reached := (opens.reachable schedule n).sound.isLive_runCycle_iff.mp live
  exact unreached (reached.mono fun w root => opens.wanted_of_root collects root)

/-- While a thread binds a variable, the same cells stay live. -/
lemma isLive_of_binding (opens : c.Opens held s)
    (other : ¬ (s.run c.stepwise schedule n).Collects (schedule n)) {name : String} {v : σ → Value}
    (binding : ∀ t, (s.run c.stepwise schedule n).threads[schedule n]? = some t →
      c.request t.own.own = .setGlobal name (v t.own.own)) (a : Address) :
    (s.run c.stepwise schedule (n + 1)).shared.heap.isLive a =
      (s.run c.stepwise schedule n).shared.heap.isLive a := by
  rcases opens.strides other with same | ⟨t, g, t', here, strides, eq⟩
  · rw [same]
  · rw [eq]
    exact strides.isLive_eq (opens.reachable schedule n).sound (binding t here) a

end Opens

/-- What the variables root, what the table does, and what neither of them does. -/
structure RootsGlobals (c : Client σ) (held : σ → Nat) (schedule : Nat → Nat)
    (s : MutatorSystem Object Guarded (Caller σ)) : Prop where
  /-- While no thread binds a variable or publishes a name, the global roots are the singletons,
  one for each name and one for each variable that is bound to a cell. -/
  rooted : ∀ n, (s.run c.stepwise schedule n).Quiet c →
    (s.run c.stepwise schedule n).shared.heap.globalRoots.Perm
      (s.shared.guardedWorld.singletonRoots ++
        (s.run c.stepwise schedule n).shared.guardedWorld.symbols.map (fun e => .ref e.2) ++
        ((s.run c.stepwise schedule n).shared.guardedWorld.globals.map Prod.snd).filter Value.isRef)
  /-- At any time they are the singletons, one for each name, one for each variable that no thread
  is in the middle of binding, and what threads in the middle of a call have registered: a value
  that they have replaced, or a cell that they are about to enter. -/
  registered : ∀ n, (s.run c.stepwise schedule n).shared.guardedWorld.roots =
    s.shared.guardedWorld.singletonRoots +
      registrations ((s.run c.stepwise schedule n).shared.guardedWorld.symbols.map fun e => .ref e.2) +
      registrations (((s.run c.stepwise schedule n).standing c).map Prod.snd) +
      (s.run c.stepwise schedule n).total fun t => (c.critical t.own).surplus
  /-- The singletons stay what they are. -/
  singletons : ∀ n, (s.run c.stepwise schedule n).shared.guardedWorld.singletons =
    s.shared.guardedWorld.singletons
  /-- No name and no variable occurs twice. -/
  one_each : ∀ n,
    ((s.run c.stepwise schedule n).shared.guardedWorld.symbols.map Prod.fst).Nodup ∧
    ((s.run c.stepwise schedule n).shared.guardedWorld.globals.map Prod.fst).Nodup
  /-- A call that has just ended has bound the variable to its value. -/
  bound : ∀ n own name v, (s.run c.stepwise schedule n).threads[schedule n]? =
      some ⟨⟨own, .released⟩, .between⟩ → c.request own = .setGlobal name v →
    (s.run c.stepwise schedule (n + 1)).threads[schedule n]? =
      some ⟨⟨c.resume own .done, .start⟩, .between⟩ ∧
    (s.run c.stepwise schedule (n + 1)).shared.guardedWorld.global? name = some v
  /-- All singletons and names are live at any time. If the cells that variables are bound to are
  live when they are given, so are the values of variables, but for those whose binding a cycle
  has overtaken. -/
  live : ∀ n,
    (s.run c.stepwise schedule n).shared.heap.AllLive s.shared.guardedWorld.singletonRoots ∧
    (∀ name a, (name, a) ∈ (s.run c.stepwise schedule n).shared.guardedWorld.symbols →
      (s.run c.stepwise schedule n).shared.heap.payload? a = some (.symbol name)) ∧
    (GivesLive c schedule s → ∀ name a,
      (s.run c.stepwise schedule n).shared.guardedWorld.global? name = some (.ref a) →
      (s.run c.stepwise schedule n).shared.heap.isLive a ∨ c.Overtaken held schedule s n name a)
  /-- No cycle overtakes a registered thread. -/
  met : ∀ n, (s.run c.stepwise schedule n).Collects (schedule n) → ∀ (i : Nat) t,
    (s.run c.stepwise schedule n).threads[i]? = some t → 0 < held t.own.own →
      c.critical t.own = .outside
  /-- What the global roots lead to stays, -/
  kept : ∀ n, (s.run c.stepwise schedule n).Collects (schedule n) → ∀ a,
    (s.run c.stepwise schedule n).shared.heap.Reaches
      ((s.run c.stepwise schedule n).rootWords c s.shared.guardedWorld.singletonRoots) a →
    (s.run c.stepwise schedule (n + 1)).shared.heap.isLive a
  /-- and what neither these nor the threads lead to is freed by the next cycle. -/
  freed : ∀ n, (s.run c.stepwise schedule n).Collects (schedule n) → ∀ a,
    ¬ (s.run c.stepwise schedule n).shared.heap.Reaches
      (wanted c s.shared.guardedWorld.singletonRoots (s.run c.stepwise schedule n)) a →
    ¬ (s.run c.stepwise schedule (n + 1)).shared.heap.isLive a
  /-- So a variable stays bound to a cell that has been freed, when a cycle has overtaken a thread
  that has not registered the cell yet and nothing else leads to it. -/
  lost : ∀ n, (s.run c.stepwise schedule n).Collects (schedule n) → ∀ (i : Nat) t name a,
    (s.run c.stepwise schedule n).threads[i]? = some t →
    (c.critical t.own).binding? = some (name, .ref a) →
    ¬ (s.run c.stepwise schedule n).shared.heap.Reaches
      (wanted c s.shared.guardedWorld.singletonRoots (s.run c.stepwise schedule n)) a →
    (s.run c.stepwise schedule (n + 1)).shared.guardedWorld.global? name = some (.ref a) ∧
      ¬ (s.run c.stepwise schedule (n + 1)).shared.heap.isLive a

/-- Global variables root their values, but for those that an unregistered thread is in the middle
of binding: for any number of threads, any lawful programs and any schedule. -/
theorem rootsGlobals {s : MutatorSystem Object Guarded (Caller σ)} (opens : c.Opens held s)
    (schedule : Nat → Nat) : c.RootsGlobals held schedule s := by
  constructor
  · intro n quiet
    have roots := (opens.booked schedule n).roots quiet
    have refs : ((s.run c.stepwise schedule n).shared.guardedWorld.symbols.map
        fun e => Value.ref e.2).filter Value.isRef =
        (s.run c.stepwise schedule n).shared.guardedWorld.symbols.map fun e => Value.ref e.2 := by
      apply List.filter_eq_self.mpr
      intro v mem
      obtain ⟨e, _, rfl⟩ := List.mem_map.mp mem
      rfl
    rw [World.tableRoots, registrations, registrations, refs, Multiset.coe_add, Multiset.coe_add,
      ← List.append_assoc] at roots
    exact Multiset.coe_eq_coe.mp roots
  · exact fun n => (opens.booked schedule n).roots_eq
  · exact opens.singletons schedule
  · exact fun n => ⟨(opens.booked schedule n).names, (opens.booked schedule n).bindings⟩
  · intro n own name v here asked
    have move : c.stepwise.move ⟨own, .released⟩ = .update (inWorld fun w l =>
        (c.replied ⟨own, .released⟩ .done, w.addRoot v, { l with globals := false })) := by
      rw [stepwise]
      dsimp only
      rw [asked]
    have current := (opens.booked schedule n).current _ _ name v here
      (by simp only [critical, asked]; rfl)
    rw [MutatorSystem.run, MutatorSystem.step_of_update here move]
    refine ⟨?_, current⟩
    rw [MutatorSystem.getElem?_changed here, if_pos rfl]
    rfl
  · exact fun n => ⟨opens.isLive_singleton schedule n, (opens.booked schedule n).cells,
      fun gives name a bound => opens.isLive_or_overtaken gives n (World.mem_of_global? bound)⟩
  · exact fun n collects i t here => (opens.idle collects i t here).1
  · intro n collects a reached
    rw [MutatorSystem.run_collects collects]
    refine (opens.reachable schedule n).sound.isLive_runCycle_iff.mpr (reached.mono fun w root => ?_)
    exact .inr ((opens.booked schedule n).mem_globalRoots_iff.mpr root)
  · exact fun n collects a unreached => opens.not_isLive_of_unreached collects unreached
  · intro n collects i t name a here binds unreached
    have current := (opens.booked schedule n).current i t name (.ref a) here binds
    rw [World.global?, ← Opens.globals_of_collects collects] at current
    exact ⟨current, opens.not_isLive_of_unreached collects unreached⟩

/-- Whether the cell that the thread is about to bind a variable to is live. -/
def boundLive? (c : Client σ) (s : MutatorSystem Object Guarded (Caller σ)) (i : Nat) : Bool :=
  s.threads[i]?.all fun t =>
    match c.critical t.own, c.request t.own.own with
    | .outside, .setGlobal _ (.ref a) => s.shared.heap.isLive a
    | _, _ => true

/-- Whether it stays so for that many steps. -/
def staysBoundLive? (c : Client σ) :
    Nat → (Nat → Nat) → MutatorSystem Object Guarded (Caller σ) → Bool
  | 0, _, _ => true
  | n + 1, schedule, s =>
    boundLive? c s (schedule 0) &&
      staysBoundLive? c n (fun k => schedule (k + 1)) (s.step c.stepwise (schedule 0))

lemma boundLive_run {m : Nat} {schedule : Nat → Nat}
    {s : MutatorSystem Object Guarded (Caller σ)} (stays : staysBoundLive? c m schedule s = true) :
    ∀ n < m, boundLive? c (s.run c.stepwise schedule n) (schedule n) = true := by
  induction m generalizing s schedule with
  | zero => exact fun n before => absurd before (Nat.not_lt_zero n)
  | succ m ih =>
    obtain ⟨now, later⟩ := (Bool.and_eq_true _ _).mp stays
    intro n before
    cases n with
    | zero => exact now
    | succ n =>
      rw [MutatorSystem.run_succ_eq]
      exact ih later n (Nat.lt_of_succ_lt_succ before)

/-- Whoever has come to its end binds nothing, so that it is enough to look until then. -/
lemma givesLive_of_finished {m : Nat} {schedule : Nat → Nat}
    {s : MutatorSystem Object Guarded (Caller σ)} (stays : staysBoundLive? c m schedule s = true)
    (finished : (s.run c.stepwise schedule m).finished c.stepwise = true) :
    GivesLive c schedule s := by
  intro n t name a there out asked
  by_cases before : n < m
  · have live := boundLive_run stays n before
    rw [boundLive?, there, Option.all_some, out, asked] at live
    exact live
  · rw [← Nat.add_sub_cancel' (Nat.not_lt.mp before), MutatorSystem.run_of_finished finished] at there
    have halt := (MutatorSystem.finished_iff.mp finished _ t there).2
    have moves := c.moves t.own
    rw [halt] at moves
    cases moves with
    | halt here => cases here.symm.trans asked

/-- Whatever the cycle starts from is among cells without children, so that it frees all others. -/
lemma not_reaches_wanted {s : MutatorSystem Object Guarded (Caller σ)} {fixed : List Value}
    (leaves : List Address) {a : Address} (singletons : ∀ v ∈ fixed, v ∈ leaves.map Value.ref)
    (symbols : ∀ e ∈ s.shared.guardedWorld.symbols, e.2 ∈ leaves)
    (stands : ∀ e ∈ s.standing c, e.2 ∈ leaves.map Value.ref)
    (idle : ∀ t ∈ s.threads.toList, c.roots t.own.own = [] ∧ t.stage.allocation?.isNone = true ∧
      (c.critical t.own).surplus = 0)
    (cells : ∀ w ∈ leaves, s.shared.heap.cellFor? w = some w ∧
      (s.shared.heap.payload? w).all (fun o => (Payload.children o).isEmpty) = true)
    (other : a ∉ leaves) : ¬ s.shared.heap.Reaches (wanted c fixed s) a := by
  have leaf : ∀ {w}, .ref w ∈ leaves.map Value.ref → w ∈ leaves := by
    intro w mem
    obtain ⟨x, there, eq⟩ := List.mem_map.mp mem
    exact Value.ref.inj eq ▸ there
  refine fun reached => other (reached.mem_of_leaves (fun w root => ?_) cells)
  rcases root with ⟨j, t, there, reported | ⟨call, pending, _⟩⟩ |
    root | ⟨name, entry⟩ | ⟨name, entry⟩ | ⟨j, t, there, beyond⟩
  · rw [(idle t (MutatorSystem.mem_threads.mpr ⟨j, there⟩)).1] at reported
    cases reported
  · have no_call := (idle t (MutatorSystem.mem_threads.mpr ⟨j, there⟩)).2.1
    rw [pending] at no_call
    cases no_call
  · exact leaf (singletons _ root)
  · exact symbols _ entry
  · exact leaf (stands _ entry)
  · rw [(idle t (MutatorSystem.mem_threads.mpr ⟨j, there⟩)).2.2] at beyond
    exact absurd beyond (Multiset.notMem_zero _)

/-- A thread that makes requests one after another. It remembers the last cell that it was given or
the value of the variable when it looked. -/
def scripted (requests : Value → List Request) : Client (Nat × Value) where
  roots _ := []
  request own := (requests own.2).getD own.1 .halt
  resume own reply :=
    (own.1 + 1,
      match reply with
      | .cell a => .ref a
      | .view w => (w.global? "$x").getD own.2
      | _ => own.2)

/-- It registers first, and has deregistered when it comes to the request with that number. -/
def heldUntil (last : Nat) (own : Nat × Value) : Nat := if 1 ≤ own.1 ∧ own.1 < last then 1 else 0

lemma lawful_scripted {requests : Value → List Request} {last m : Nat} (within : last ≤ m)
    (ends : ∀ v, (requests v).length ≤ m)
    (registered : ∀ k < m, ∀ v, ((requests v).getD k .halt).NeedsMutator → 0 < heldUntil last (k, v))
    (counted : ∀ k < m, ∀ v, heldUntil last (k + 1, v) + ((requests v).getD k .halt).lost =
      heldUntil last (k, v) + ((requests v).getD k .halt).gained)
    (no_modify : ∀ k < m, ∀ v a f, (requests v).getD k .halt ≠ .modify a f) :
    (scripted requests).Lawful (heldUntil last) := by
  have halts : ∀ {k} v, ¬ k < m → (scripted requests).request (k, v) = .halt :=
    fun v beyond => List.getD_eq_default _ _ ((ends v).trans (Nat.not_lt.mp beyond))
  constructor
  · rintro ⟨k, v⟩ needs
    by_cases early : k < m
    · exact registered k early v needs
    · rw [halts v early] at needs
      cases needs
  · rintro ⟨k, v⟩ reply
    by_cases early : k < m
    · exact counted k early v
    · have before : heldUntil last (k, v) = 0 := if_neg fun bounds => by omega
      have after : heldUntil last ((scripted requests).resume (k, v) reply) = 0 :=
        if_neg fun bounds => by
          have upper : k + 1 < last := bounds.2
          omega
      rw [halts v early, before, after]
      rfl
  · rintro ⟨k, v⟩ a f asked
    by_cases early : k < m
    · exact absurd asked (no_modify k early v a f)
    · rw [halts v early] at asked
      cases asked

/-- A thread that binds two variables to one cell, then both to the cell of a name, one of them
twice, and collects. -/
def rebindings (v : Value) : List Request :=
  [.register, .allocate (.string "first"), .setGlobal "$x" v, .setGlobal "$y" v, .intern "second",
    .setGlobal "$x" v, .setGlobal "$y" v, .setGlobal "$y" v, .collect, .deregister]

def rebinder : Client (Nat × Value) := scripted rebindings

lemma lawful_rebinder : rebinder.Lawful (heldUntil 10) := by
  refine lawful_scripted (m := 10) le_rfl (fun _ => le_rfl) ?_ ?_ ?_
  · intro k early v needs
    interval_cases k <;> first | exact Nat.one_pos | cases needs
  · intro k early v
    interval_cases k <;> rfl
  · intro k early v a f asked
    interval_cases k <;> cases asked

def rebinders : MutatorSystem Object Guarded (Caller (Nat × Value)) :=
  .start raceWorld.heap ⟨raceWorld.shared.world, ⟨false, false⟩⟩
    ([(0, .smallInt 0)].map fun own => ⟨own, .start⟩)

lemma opens_rebinders : rebinder.Opens (heldUntil 10) rebinders :=
  ⟨lawful_rebinder, raceSettings, raceWorld, [(0, .smallInt 0)], eq_ok_get made_raceSettings,
    by simp [heldUntil], rfl⟩

/-- The only thread always has its turn. -/
def alone (_ : Nat) : Nat := 0

lemma givesLive_rebinders : GivesLive rebinder alone rebinders :=
  givesLive_of_finished (m := 36) (by decide +kernel) (by decide +kernel)

/-- The cells of the first text and of the name. -/
def firstCell : Address := raceWorld.heap.addressOf ⟨0, ⟨0, 3⟩⟩

def secondCell : Address := raceWorld.heap.addressOf ⟨0, ⟨0, 4⟩⟩

def singletonCells : List Address :=
  [raceWorld.singletons.nilCell, raceWorld.singletons.trueCell, raceWorld.singletons.falseCell]

/-- Three registrations keep the cell of the name, and the other one is freed. -/
theorem rootsGlobals_rebinders : rebinder.Opens (heldUntil 10) rebinders ∧
    GivesLive rebinder alone rebinders ∧ rebinder.RootsGlobals (heldUntil 10) alone rebinders ∧
    (rebinders.run rebinder.stepwise alone 30).Collects (alone 30) ∧
    (rebinders.run rebinder.stepwise alone 30).shared.heap.isLive firstCell ∧
    (rebinders.run rebinder.stepwise alone 30).shared.heap.globalRoots.count (.ref secondCell) = 3 ∧
    ¬ (rebinders.run rebinder.stepwise alone (30 + 1)).shared.heap.isLive firstCell ∧
    (rebinders.run rebinder.stepwise alone (30 + 1)).shared.heap.isLive secondCell := by
  have roots := rootsGlobals opens_rebinders alone
  have collects : (rebinders.run rebinder.stepwise alone 30).Collects (alone 30) := by decide +kernel
  have freed := roots.freed 30 collects firstCell
    (not_reaches_wanted (secondCell :: singletonCells) (by decide +kernel)
      (by decide +kernel) (by decide +kernel) (by decide +kernel) (by decide +kernel)
      (by decide +kernel))
  have entry : ("second", secondCell) ∈
      (rebinders.run rebinder.stepwise alone 30).shared.guardedWorld.symbols := by decide +kernel
  have kept := roots.kept 30 collects secondCell
    (.root (.inr (.inl ⟨_, entry⟩)) (by decide +kernel))
  exact ⟨opens_rebinders, givesLive_rebinders, roots, collects, by decide +kernel, by decide +kernel,
    freed, kept⟩

/-- A registered thread binds a variable to a text and collects. Another one, which is not
registered, looks the variable up and binds it to the value that it has. -/
def renewals (v : Value) : List Request :=
  [.register, .allocate (.string "kept"), .setGlobal "$x" v, .collect, .deregister, .halt,
    .look, .setGlobal "$x" v]

def renewer : Client (Nat × Value) := scripted renewals

lemma lawful_renewer : renewer.Lawful (heldUntil 5) := by
  refine lawful_scripted (m := 8) (by decide) (fun _ => le_rfl) ?_ ?_ ?_
  · intro k early v needs
    interval_cases k <;> first | exact Nat.one_pos | cases needs
  · intro k early v
    interval_cases k <;> rfl
  · intro k early v a f asked
    interval_cases k <;> cases asked

def renewers : MutatorSystem Object Guarded (Caller (Nat × Value)) :=
  .start raceWorld.heap ⟨raceWorld.shared.world, ⟨false, false⟩⟩
    ([(0, .smallInt 0), (6, .smallInt 0)].map fun own => ⟨own, .start⟩)

lemma opens_renewers : renewer.Opens (heldUntil 5) renewers :=
  ⟨lawful_renewer, raceSettings, raceWorld, [(0, .smallInt 0), (6, .smallInt 0)],
    eq_ok_get made_raceSettings, by simp [heldUntil], rfl⟩

/-- The cycle of the first thread comes between the second and the third step of the second
thread's call. -/
def overtaking (n : Nat) : Nat := if n ∈ [7, 8, 9, 16] then 1 else 0

lemma givesLive_renewers : GivesLive renewer overtaking renewers :=
  givesLive_of_finished (m := 22) (by decide +kernel) (by decide +kernel)

lemma quiet_renewers : (renewers.run renewer.stepwise overtaking (15 + 1 + 1)).Quiet renewer := by
  have out : ∀ t ∈ (renewers.run renewer.stepwise overtaking (15 + 1 + 1)).threads.toList,
      (renewer.critical t.own).binding? = none ∧ (renewer.critical t.own).naming? = none := by
    decide +kernel
  intro i t here
  obtain ⟨no_binding, no_naming⟩ := out t (MutatorSystem.mem_threads.mpr ⟨i, here⟩)
  cases k : renewer.critical t.own with
  | outside => rfl
  | bound | released =>
    rw [k] at no_binding
    cases no_binding
  | rooted =>
    rw [k] at no_naming
    cases no_naming

/-- After its look the second thread does nothing but bind the variable. -/
lemma renewer_binds {own : Nat × Value} (last : own.1 = 7) :
    renewer.request own = .setGlobal "$x" own.2 := by
  change (renewals own.2).getD own.1 .halt = _
  rw [last]
  rfl

/-- The cycle frees the cell, and registering it afterwards does not bring it back. -/
theorem freesCurrent_renewers : renewer.Opens (heldUntil 5) renewers ∧
    GivesLive renewer overtaking renewers ∧
    (renewers.run renewer.stepwise overtaking 15).Collects (overtaking 15) ∧
    (renewers.run renewer.stepwise overtaking 15).shared.guardedWorld.global? "$x" =
      some (.ref firstCell) ∧
    (renewers.run renewer.stepwise overtaking 15).shared.heap.isLive firstCell ∧
    (renewers.run renewer.stepwise overtaking (15 + 1 + 1)).Quiet renewer ∧
    (renewers.run renewer.stepwise overtaking (15 + 1 + 1)).shared.guardedWorld.global? "$x" =
      some (.ref firstCell) ∧
    ¬ (renewers.run renewer.stepwise overtaking (15 + 1 + 1)).shared.heap.isLive firstCell := by
  have collects : (renewers.run renewer.stepwise overtaking 15).Collects (overtaking 15) := by
    decide +kernel
  have freed := opens_renewers.not_isLive_of_unreached collects
    (not_reaches_wanted singletonCells (a := firstCell) (by decide +kernel)
      (by decide +kernel) (by decide +kernel) (by decide +kernel) (by decide +kernel)
      (by decide +kernel))
  -- the thread that is left over only registers the value
  have other : ¬ (renewers.run renewer.stepwise overtaking (15 + 1)).Collects
      (overtaking (15 + 1)) := by decide +kernel
  have binding : (renewers.run renewer.stepwise overtaking (15 + 1)).threads[overtaking (15 + 1)]?.map
      (fun t => t.own.own.1) = some 7 := by decide +kernel
  have same := opens_renewers.isLive_of_binding other
    (fun t here => renewer_binds (by rw [here] at binding; exact Option.some.inj binding)) firstCell
  rw [← same] at freed
  exact ⟨opens_renewers, givesLive_renewers, collects, by decide +kernel, by decide +kernel,
    quiet_renewers, by decide +kernel, freed⟩

end Client

end CellMachine
