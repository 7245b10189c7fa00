import CellMachine.Proofs.Threads.RootBooks

/-!
# Variables whose values are registered

A call that binds a variable enters the value before it registers it. In between the variable is
bound and its value need not be a root. All other variables stand: at any time the global roots
are those of the singletons, one for each name, one for each variable that stands and is bound to
a cell, and what threads in the middle of a call have registered beyond that.
-/

namespace CellMachine

lemma Heap.globalRoots_runCycle {α : Type} [Payload α] {h : Heap α} (sound : h.Sound)
    (inputs : List RootSet) : (h.runCycle inputs).globalRoots = h.globalRoots := by
  obtain ⟨_, _, _, frame⟩ := sound.runCycle_frame inputs
  rw [frame]

/-- Where no name occurs twice, one entry and those of other names are all that there is. -/
lemma perm_cons_filter {β : Type} {entries : List (String × β)} {name : String} {v : β}
    (distinct : (entries.map Prod.fst).Nodup) (entry : (name, v) ∈ entries) :
    entries.Perm ((name, v) :: entries.filter fun e => e.1 ≠ name) := by
  obtain ⟨before, after, rfl⟩ := List.mem_iff_append.mp entry
  rw [List.map_append, List.map_cons, List.nodup_middle, List.nodup_cons, ← List.map_append] at distinct
  have others : ∀ e ∈ before ++ after, e.1 ≠ name := by
    rintro e mem rfl
    exact distinct.1 (List.mem_map.mpr ⟨e, mem, rfl⟩)
  have rest : (before ++ (name, v) :: after).filter (fun e => e.1 ≠ name) = before ++ after := by
    rw [List.filter_append, List.filter_cons_of_neg (by simp), ← List.filter_append]
    exact List.filter_eq_self.mpr fun e mem => decide_eq_true (others e mem)
  rw [rest]
  exact List.perm_middle

namespace MutatorSystem

/-- What some thread counts is in the sum of what all count. -/
lemma mem_total {α ω σ β : Type} {s : MutatorSystem α ω σ} {w : MutatorThread α σ → Multiset β}
    {x : β} : x ∈ s.total w ↔
      ∃ (i : Nat) (t : MutatorThread α σ), s.threads[i]? = some t ∧ x ∈ w t := by
  have joined : s.total w = (Multiset.ofList (s.threads.toList.map w)).join := (Multiset.sum_coe _).symm
  rw [joined, Multiset.mem_join]
  constructor
  · rintro ⟨_, mem, within⟩
    obtain ⟨t, there, rfl⟩ := List.mem_map.mp (Multiset.mem_coe.mp mem)
    obtain ⟨i, here⟩ := mem_threads.mp there
    exact ⟨i, t, here, within⟩
  · rintro ⟨i, t, here, within⟩
    exact ⟨w t, Multiset.mem_coe.mpr (List.mem_map_of_mem (mem_threads.mpr ⟨i, here⟩)), within⟩

variable {σ : Type} {c : Client σ} {fixed : List Value}
  {s : MutatorSystem Object Guarded (Caller σ)} {i : Nat} {t t' : MutatorThread Object (Caller σ)}
  {g : Common Object Guarded} {name : String}

/-- Whether some thread is in the middle of binding the variable. -/
def binds? (c : Client σ) (s : MutatorSystem Object Guarded (Caller σ)) (name : String) : Bool :=
  s.threads.any fun t => (c.critical t.own).binding?.any fun b => b.1 == name

/-- The variables that no thread is in the middle of binding, and their values. -/
def standing (c : Client σ) (s : MutatorSystem Object Guarded (Caller σ)) : List (String × Value) :=
  s.shared.guardedWorld.globals.filter fun e => !s.binds? c e.1

lemma binds?_iff : s.binds? c name = true ↔
    ∃ (i : Nat) (t : MutatorThread Object (Caller σ)) (v : Value), s.threads[i]? = some t ∧
      (c.critical t.own).binding? = some (name, v) := by
  rw [binds?, Array.any_eq_true']
  constructor
  · rintro ⟨t, mem, binding⟩
    obtain ⟨i, here⟩ := Array.mem_iff_getElem?.mp mem
    obtain ⟨⟨n, v⟩, binds, same⟩ := (Option.any_eq_true _ _).mp binding
    obtain rfl := eq_of_beq same
    exact ⟨i, t, v, here, binds⟩
  · rintro ⟨i, t, v, here, binds⟩
    exact ⟨t, Array.mem_of_getElem? here, by rw [binds, Option.any_some, beq_self_eq_true]⟩

/-- A variable that does not stand is about to be bound to the value it has. -/
lemma Booked.standing_or_binds (booked : s.Booked c fixed) {v : Value}
    (entry : (name, v) ∈ s.shared.guardedWorld.globals) : (name, v) ∈ s.standing c ∨
      ∃ (i : Nat) (t : MutatorThread Object (Caller σ)), s.threads[i]? = some t ∧
        (c.critical t.own).binding? = some (name, v) := by
  cases binding : s.binds? c name with
  | false => exact .inl (List.mem_filter.mpr ⟨entry, by rw [binding]; rfl⟩)
  | true =>
    obtain ⟨i, t, u, here, binds⟩ := binds?_iff.mp binding
    have bound := World.mem_of_global? (booked.current i t name u here binds)
    obtain rfl := (Prod.mk.inj (List.inj_on_of_nodup_map booked.bindings bound entry rfl)).2
    exact .inr ⟨i, t, here, binds⟩

lemma standing_of_no_binder
    (nobody : ∀ (i : Nat) t, s.threads[i]? = some t → (c.critical t.own).binding? = none) :
    s.standing c = s.shared.guardedWorld.globals := by
  refine List.filter_eq_self.mpr fun e _ => ?_
  rw [Bool.not_eq_true', Bool.eq_false_iff]
  intro binding
  obtain ⟨i, t, v, here, binds⟩ := binds?_iff.mp binding
  rw [nobody i t here] at binds
  cases binds

/-- While a thread binds a variable, all others stand. -/
lemma Booked.standing_of_binder (booked : s.Booked c fixed) {v : Value}
    (here : s.threads[i]? = some t) (binds : (c.critical t.own).binding? = some (name, v)) :
    s.standing c = s.shared.guardedWorld.globals.filter fun e => e.1 ≠ name := by
  refine List.filter_congr fun e _ => ?_
  rw [Bool.eq_iff_iff, Bool.not_eq_true', Bool.eq_false_iff, decide_eq_true_iff]
  refine not_congr ⟨fun binding => ?_, ?_⟩
  · obtain ⟨j, u, v', there, binds'⟩ := binds?_iff.mp binding
    by_cases same : i = j
    · subst same
      obtain rfl := Option.some.inj (here.symm.trans there)
      exact (Prod.mk.inj (Option.some.inj (binds'.symm.trans binds))).1
    · rw [booked.binder_unique here binds same there] at binds'
      cases binds'
  · rintro rfl
    exact binds?_iff.mpr ⟨i, t, v, here, binds⟩

/-- The registrations of all variables are those of the ones that stand and what is owed. -/
lemma Booked.standing_owed (booked : s.Booked c fixed) :
    registrations ((s.standing c).map Prod.snd) + s.total (fun t => (c.critical t.own).owed) =
      registrations (s.shared.guardedWorld.globals.map Prod.snd) := by
  by_cases nobody : ∀ (i : Nat) t, s.threads[i]? = some t → (c.critical t.own).binding? = none
  · have owed : s.total (fun t => (c.critical t.own).owed) = 0 :=
      total_eq_zero fun i t here => Critical.owed_eq_zero (nobody i t here)
    rw [owed, standing_of_no_binder nobody, add_zero]
  · push Not at nobody
    obtain ⟨i, t, here, some_binding⟩ := nobody
    obtain ⟨⟨name, v⟩, binds⟩ := Option.ne_none_iff_exists'.mp some_binding
    have entry := World.mem_of_global? (booked.current i t name v here binds)
    have all := registrations_perm ((perm_cons_filter booked.bindings entry).map Prod.snd)
    rw [all, List.map_cons, registrations_cons, booked.standing_of_binder here binds,
      booked.owed_eq here binds, add_comm]

/-- The global roots at any time. -/
lemma Booked.roots_eq (booked : s.Booked c fixed) : s.shared.guardedWorld.roots =
    fixed + registrations (s.shared.guardedWorld.symbols.map fun e => .ref e.2) +
      registrations ((s.standing c).map Prod.snd) + s.total fun t => (c.critical t.own).surplus := by
  have balance := booked.balance
  rw [World.tableRoots, ← booked.standing_owed] at balance
  refine add_right_cancel (b := s.total fun t => (c.critical t.own).owed) (balance.trans ?_)
  abel

/-- The words that the global roots are: the singletons, the names, the variables that stand, and
what threads in the middle of a call have registered, a value that they have replaced or a cell
that they are about to enter. -/
def rootWords (c : Client σ) (fixed : List Value) (s : MutatorSystem Object Guarded (Caller σ)) :
    Set Address :=
  { w | .ref w ∈ fixed ∨ (∃ name, (name, w) ∈ s.shared.guardedWorld.symbols) ∨
      (∃ name, (name, .ref w) ∈ s.standing c) ∨
      ∃ (i : Nat) (t : MutatorThread Object (Caller σ)), s.threads[i]? = some t ∧
        .ref w ∈ (c.critical t.own).surplus }

lemma Booked.mem_globalRoots_iff (booked : s.Booked c fixed) {w : Address} :
    .ref w ∈ s.shared.heap.globalRoots ↔ w ∈ s.rootWords c fixed := by
  have registered : ∀ {vs : List Value}, .ref w ∈ registrations vs ↔ .ref w ∈ vs := by
    intro vs
    rw [registrations, Multiset.mem_coe, List.mem_filter]
    exact and_iff_left rfl
  have names : .ref w ∈ s.shared.guardedWorld.symbols.map (fun e => Value.ref e.2) ↔
      ∃ name, (name, w) ∈ s.shared.guardedWorld.symbols := by
    constructor
    · intro mem
      obtain ⟨⟨name, a⟩, entry, same⟩ := List.mem_map.mp mem
      exact ⟨name, Value.ref.inj same ▸ entry⟩
    · rintro ⟨name, entry⟩
      exact List.mem_map.mpr ⟨_, entry, rfl⟩
  have stands : .ref w ∈ (s.standing c).map Prod.snd ↔ ∃ name, (name, .ref w) ∈ s.standing c := by
    constructor
    · intro mem
      obtain ⟨⟨name, v⟩, entry, same⟩ := List.mem_map.mp mem
      exact ⟨name, same ▸ entry⟩
    · rintro ⟨name, entry⟩
      exact List.mem_map.mpr ⟨_, entry, rfl⟩
  change .ref w ∈ s.shared.guardedWorld.roots ↔ _
  rw [booked.roots_eq, Multiset.mem_add, Multiset.mem_add, Multiset.mem_add, registered, registered,
    names, stands, mem_total, or_assoc, or_assoc]
  rfl

/-- A cycle that meets no thread with a new cell for a name keeps the books. -/
lemma Booked.cycle (booked : s.Booked c fixed) (sound : s.shared.heap.Sound)
    (here : s.threads[i]? = some t) (same : t'.own = t.own)
    (settled : ∀ (j : Nat) u, s.threads[j]? = some u → c.cellFor? u.own = none) {inputs : List RootSet}
    (shared : g.shared = { s.shared with heap := s.shared.heap.runCycle inputs }) :
    (s.changed i g t').Booked c fixed := by
  have totals : ∀ {M : Type} [AddCancelCommMonoid M] (w : Caller σ → M),
      (s.changed i g t').total (fun t => w t.own) = s.total fun t => w t.own := by
    intro M _ w
    have sums := total_changed (fun t => w t.own) g t' here
    rw [same] at sums
    exact add_right_cancel sums
  -- every thread that there is after the cycle was there before
  have before : ∀ (j : Nat) u, (s.changed i g t').threads[j]? = some u →
      ∃ u', s.threads[j]? = some u' ∧ u'.own = u.own := by
    intro j u there
    rw [getElem?_changed here] at there
    split at there
    · rename_i mover
      obtain rfl := Option.some.inj there
      exact ⟨t, mover ▸ here, same.symm⟩
    · exact ⟨u, there, rfl⟩
  have world : (s.changed i g t').shared =
      { s.shared with heap := s.shared.heap.runCycle inputs } := shared
  constructor
  · rw [totals fun t => (c.critical t).binding?.isSome.toNat, world]
    exact booked.binders
  · rw [totals fun t => (c.critical t).naming?.isSome.toNat, world]
    exact booked.namers
  · have roots : (s.changed i g t').shared.guardedWorld.roots = s.shared.guardedWorld.roots := by
      rw [world]
      exact congrArg (fun r : List Value => (r : Multiset Value))
        (Heap.globalRoots_runCycle sound inputs)
    rw [totals fun t => (c.critical t).owed, totals fun t => (c.critical t).surplus, roots, world]
    exact booked.balance
  · intro j u name v there binds
    obtain ⟨u', there', own⟩ := before j u there
    rw [world]
    exact booked.current j u' name v there' (own ▸ binds)
  · intro j u name there names
    obtain ⟨u', there', own⟩ := before j u there
    rw [world]
    exact booked.absent j u' name there' (own ▸ names)
  · intro j u name a there cell
    obtain ⟨u', there', own⟩ := before j u there
    rw [← own, settled j u' there'] at cell
    cases cell
  · rw [world]
    intro name a entry
    have payload := booked.cells name a entry
    have live := Heap.isLive_of_payload? payload
    have root := booked.mem_globalRoots_iff.mpr (.inr (.inl ⟨name, entry⟩))
    have reached : s.shared.heap.Reaches (s.shared.heap.cycleRoots inputs) a :=
      .root (.inr root) (Heap.cellFor?_of_isLive live)
    exact (sound.payload?_runCycle_of_reaches reached).trans payload
  · rw [world]
    exact booked.names
  · rw [world]
    exact booked.bindings

end MutatorSystem

end CellMachine
