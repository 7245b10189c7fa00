import CellMachine.Machine.World
import CellMachine.Proofs.Heap.Payloads

/-!
# The table of names

The table has one entry for each name, the cell of an entry holds the name, and the global
roots are those that were there first, one for each entry and one for each global variable.
Publishing a name and binding a global variable keep it so.
-/

namespace CellMachine

namespace Heap

variable {α : Type}

lemma payload?_addGlobalRoot (h : Heap α) (v : Value) (a : Address) :
    (h.addGlobalRoot v).payload? a = h.payload? a :=
  (cells_congr (h.addGlobalRoot_frame v).2.1 a).2

lemma globalRoots_addGlobalRoot (h : Heap α) (v : Value) :
    (h.addGlobalRoot v).globalRoots = [v].filter Value.isRef ++ h.globalRoots := by
  rw [addGlobalRoot]
  cases v <;> rfl

/-- Inline numbers are never registered. -/
lemma Reachable.isRef_of_mem [Payload α] {h : Heap α} (reachable : h.Reachable) {v : Value}
    (mem : v ∈ h.globalRoots) : v.isRef = true := by
  induction reachable with
  | create apart made =>
    rw [createAt] at made
    split at made
    · cases made
    · cases made
      cases mem
  | @step h h' before change ih =>
    cases change with
    | mutation change =>
      cases change with
      | touch change =>
        cases change with
        | addRoot v' =>
          rw [globalRoots_addGlobalRoot] at mem
          rcases List.mem_append.mp mem with new | old
          · exact (List.mem_filter.mp new).2
          · exact ih old
        | removeRoot v' => exact ih (List.mem_of_mem_erase mem)
        | _ => exact ih mem
      | @claim c payload fits =>
        rw [(h.allocateIn_frame c payload).1] at mem
        exact ih mem
      | _ => exact ih mem
    | cycle inputs =>
      obtain ⟨_, _, _, frame⟩ := before.sound.runCycle_frame inputs
      rw [frame] at mem
      exact ih mem
    | dropAll => exact ih mem

end Heap

namespace World

lemma rebind_of_none {globals : List (String × Value)} {name : String} {v : Value}
    (unbound : globals.lookup name = none) : rebind name v globals = globals ++ [(name, v)] := by
  induction globals with
  | nil => rfl
  | cons e rest ih =>
    rw [List.lookup_eq_none_iff] at unbound
    have other : e.1 ≠ name := (bne_iff_ne.mp (unbound e List.mem_cons_self)).symm
    have rest_unbound : rest.lookup name = none :=
      List.lookup_eq_none_iff.mpr fun e' mem => unbound e' (List.mem_cons_of_mem _ mem)
    rw [rebind, if_neg other, ih rest_unbound]
    rfl

/-- The new value takes the place of the old one. -/
lemma rebind_of_some {globals : List (String × Value)} {name : String} {old : Value} (v : Value)
    (bound : globals.lookup name = some old) :
    (old :: (rebind name v globals).map Prod.snd).Perm (v :: globals.map Prod.snd) := by
  induction globals with
  | nil => cases bound
  | cons e rest ih =>
    obtain ⟨n, value⟩ := e
    rw [rebind]
    by_cases same : n = name
    · subst same
      obtain rfl : value = old := by simpa using bound
      rw [if_pos rfl]
      exact .swap ..
    · have rest_bound : rest.lookup name = some old := by
        simpa [List.lookup_cons, beq_eq_false_iff_ne.mpr (Ne.symm same)] using bound
      rw [if_neg same]
      exact (List.Perm.swap ..).trans (((ih rest_bound).cons value).trans (.swap ..))

lemma mem_of_global? {w : World} {name : String} {v : Value} (bound : w.global? name = some v) :
    (name, v) ∈ w.globals := by
  obtain ⟨before, after, eq, _⟩ := List.lookup_eq_some_iff.mp bound
  rw [eq]
  exact List.mem_append_right _ List.mem_cons_self

open scoped List in
/-- One of the registered values is replaced, and with it its registration. -/
lemma perm_of_replaced {roots base values values' : List Value} {old v : Value}
    (refs : ∀ u ∈ roots, u.isRef = true) (rooted : roots ~ base ++ values.filter Value.isRef)
    (mem : old ∈ values) (replaced : old :: values' ~ v :: values) :
    [v].filter Value.isRef ++ roots.erase old ~ base ++ values'.filter Value.isRef := by
  have new : [v].filter Value.isRef ++ roots ~ base ++ (old :: values').filter Value.isRef :=
    calc [v].filter Value.isRef ++ roots
      _ ~ [v].filter Value.isRef ++ (base ++ values.filter Value.isRef) := rooted.append_left _
      _ ~ base ++ ([v].filter Value.isRef ++ values.filter Value.isRef) :=
        List.perm_append_comm_assoc ..
      _ ~ base ++ (old :: values').filter Value.isRef := by
        rw [← List.filter_append]
        exact (replaced.filter Value.isRef).symm.append_left base
  cases ref : old.isRef with
  | false =>
    have absent : old ∉ roots := fun there => by simp [refs old there] at ref
    have inline : ¬ old.isRef = true := by simp [ref]
    rw [List.erase_of_not_mem absent]
    rwa [List.filter_cons_of_neg inline] at new
  | true =>
    have there : old ∈ roots :=
      rooted.mem_iff.mpr (List.mem_append_right _ (List.mem_filter.mpr ⟨mem, ref⟩))
    rw [List.filter_cons_of_pos ref] at new
    refine List.Perm.cons_inv (a := old) ?_
    calc old :: ([v].filter Value.isRef ++ roots.erase old)
      _ ~ [v].filter Value.isRef ++ old :: roots.erase old := List.perm_middle.symm
      _ ~ [v].filter Value.isRef ++ roots := (List.perm_cons_erase there).symm.append_left _
      _ ~ base ++ old :: values'.filter Value.isRef := new
      _ ~ old :: (base ++ values'.filter Value.isRef) := List.perm_middle

variable {fixed : List Value} {w w' : World} {u : Value}

lemma setGlobal_frame (w : World) (name : String) (v : Value) (a : Address) :
    (w.setGlobal name v).heap.payload? a = w.heap.payload? a ∧
      (w.setGlobal name v).symbols = w.symbols := by
  rw [setGlobal]
  cases w.global? name with
  | none => exact ⟨w.heap.payload?_addGlobalRoot v a, rfl⟩
  | some old => exact ⟨(w.heap.removeGlobalRoot old).payload?_addGlobalRoot v a, rfl⟩

lemma payload?_publish (w : World) (name : String) (x a : Address) :
    (w.publish name x).2.heap.payload? a = w.heap.payload? a := by
  rw [publish]
  cases w.symbol? name with
  | none => exact w.heap.payload?_addGlobalRoot (.ref x) a
  | some b => rfl

lemma mem_globalRoots_setGlobal {name : String} {v : Value}
    (after : u ∈ (w.setGlobal name v).heap.globalRoots) : u ∈ w.heap.globalRoots ∨ u = v := by
  have added : ∀ h : Heap Object, u ∈ (h.addGlobalRoot v).globalRoots →
      u ∈ h.globalRoots ∨ u = v := by
    intro h mem
    rw [h.globalRoots_addGlobalRoot] at mem
    rcases List.mem_append.mp mem with new | old
    · exact .inr (List.mem_singleton.mp (List.mem_filter.mp new).1)
    · exact .inl old
  rw [setGlobal] at after
  cases bound : w.global? name with
  | none =>
    rw [bound] at after
    exact added w.heap after
  | some old =>
    rw [bound] at after
    rcases added (w.heap.removeGlobalRoot old) after with mem | new
    · exact .inl (List.mem_of_mem_erase mem)
    · exact .inr new

lemma mem_globalRoots_publish {name : String} {x : Address}
    (after : u ∈ (w.publish name x).2.heap.globalRoots) :
    u ∈ w.heap.globalRoots ∨ u = .ref x ∧ w.symbol? name = none := by
  rw [publish] at after
  cases found : w.symbol? name with
  | none =>
    rw [found] at after
    rcases List.mem_cons.mp after with new | old
    · exact .inr ⟨new, rfl⟩
    · exact .inl old
  | some b =>
    rw [found] at after
    exact .inl after

/-- The table has one entry for each name, its cells hold the names, and the global roots are
those that were there first, one for each entry and one for each global variable. -/
structure Interned (fixed : List Value) (w : World) : Prop where
  unique : (w.symbols.map Prod.fst).Nodup
  cells : ∀ name a, (name, a) ∈ w.symbols → w.heap.payload? a = some (.symbol name)
  rooted : w.heap.globalRoots.Perm
    (fixed ++ w.symbols.map (fun e => .ref e.2) ++ (w.globals.map Prod.snd).filter Value.isRef)

namespace Interned

lemma mem_globalRoots (interned : w.Interned fixed) {name : String} {a : Address}
    (entry : (name, a) ∈ w.symbols) : .ref a ∈ w.heap.globalRoots := by
  have mem : Value.ref a ∈ w.symbols.map fun e => .ref e.2 := List.mem_map.mpr ⟨_, entry, rfl⟩
  exact interned.rooted.mem_iff.mpr (List.mem_append_left _ (List.mem_append_right _ mem))

lemma symbol?_eq_some_iff (interned : w.Interned fixed) {name : String} {a : Address} :
    w.symbol? name = some a ↔ (name, a) ∈ w.symbols := by
  rw [symbol?, List.lookup_eq_some_iff]
  constructor
  · rintro ⟨before, after, eq, _⟩
    rw [eq]
    exact List.mem_append_right _ List.mem_cons_self
  · intro entry
    obtain ⟨before, after, eq⟩ := List.append_of_mem entry
    refine ⟨before, after, eq, fun e mem => ?_⟩
    have unique := interned.unique
    rw [eq, List.map_append, List.nodup_append] at unique
    have other := unique.2.2 e.1 (List.mem_map_of_mem mem) name List.mem_cons_self
    simpa using other.symm

lemma address_unique (interned : w.Interned fixed) {name : String} {a a' : Address}
    (entry : (name, a) ∈ w.symbols) (entry' : (name, a') ∈ w.symbols) : a = a' := by
  rw [← interned.symbol?_eq_some_iff] at entry entry'
  exact Option.some.inj (entry.symm.trans entry')

lemma name_unique (interned : w.Interned fixed) {name name' : String} {a : Address}
    (entry : (name, a) ∈ w.symbols) (entry' : (name', a) ∈ w.symbols) : name = name' := by
  have same := (interned.cells name a entry).symm.trans (interned.cells name' a entry')
  cases same
  rfl

/-- Whatever leaves the table, the global variables and the global roots alone, and moves no
cell of the table. -/
lemma congr (interned : w.Interned fixed) (symbols : w'.symbols = w.symbols)
    (globals : w'.globals = w.globals) (roots : w'.heap.globalRoots = w.heap.globalRoots)
    (cells : ∀ name a, (name, a) ∈ w.symbols → w'.heap.payload? a = some (.symbol name)) :
    w'.Interned fixed := by
  constructor
  · rw [symbols]
    exact interned.unique
  · rw [symbols]
    exact cells
  · rw [roots, symbols, globals]
    exact interned.rooted

/-- A global variable is registered under its new value instead of its old one. -/
lemma setGlobal (interned : w.Interned fixed) (reachable : w.heap.Reachable) (name : String)
    (v : Value) : (w.setGlobal name v).Interned fixed := by
  rw [World.setGlobal]
  cases bound : w.global? name with
  | none =>
    refine ⟨interned.unique, fun n a entry => ?_, ?_⟩
    · exact (w.heap.payload?_addGlobalRoot v a).trans (interned.cells n a entry)
    · change (w.heap.addGlobalRoot v).globalRoots.Perm
        (fixed ++ w.symbols.map (fun e => .ref e.2) ++
          ((rebind name v w.globals).map Prod.snd).filter Value.isRef)
      rw [rebind_of_none bound, Heap.globalRoots_addGlobalRoot, List.map_append, List.filter_append,
        ← List.append_assoc]
      exact List.perm_append_comm.trans (interned.rooted.append_right _)
  | some old =>
    have rooted : w.heap.globalRoots.Perm (fixed ++ w.symbols.map (fun e => .ref e.2) ++
        (w.globals.map Prod.snd).filter Value.isRef) := interned.rooted
    refine ⟨interned.unique, fun n a entry => ?_, ?_⟩
    · exact ((w.heap.removeGlobalRoot old).payload?_addGlobalRoot v a).trans
        (interned.cells n a entry)
    · change ((w.heap.removeGlobalRoot old).addGlobalRoot v).globalRoots.Perm
        (fixed ++ w.symbols.map (fun e => .ref e.2) ++
          ((rebind name v w.globals).map Prod.snd).filter Value.isRef)
      rw [Heap.globalRoots_addGlobalRoot]
      exact perm_of_replaced (fun v mem => reachable.isRef_of_mem mem) rooted
        (List.mem_map_of_mem (mem_of_global? bound)) (rebind_of_some v bound)

/-- The cell of a new name enters the table and the global roots together. -/
lemma publish (interned : w.Interned fixed) {name : String} {a : Address}
    (here : w.heap.payload? a = some (.symbol name)) : (w.publish name a).2.Interned fixed := by
  rw [World.publish]
  cases found : w.symbol? name with
  | some b => exact interned
  | none =>
    have absent : ∀ e ∈ w.symbols, e.1 ≠ name := by
      intro e mem same
      have entry : (name, e.2) ∈ w.symbols := by rwa [← same]
      rw [interned.symbol?_eq_some_iff.mpr entry] at found
      cases found
    have payload := w.heap.payload?_addGlobalRoot (.ref a)
    constructor
    · refine List.nodup_cons.mpr ⟨fun mem => ?_, interned.unique⟩
      obtain ⟨e, entry, same⟩ := List.mem_map.mp mem
      exact absent e entry same
    · intro name' b entry
      rcases List.mem_cons.mp entry with new | old
      · cases new
        exact (payload a).trans here
      · exact (payload b).trans (interned.cells name' b old)
    · change ((w.heap.addGlobalRoot (.ref a)).globalRoots).Perm (fixed ++
        (.ref a :: w.symbols.map fun e => .ref e.2) ++ (w.globals.map Prod.snd).filter Value.isRef)
      rw [Heap.globalRoots_addGlobalRoot]
      exact (interned.rooted.cons _).trans (by simpa using List.perm_middle.symm)

/-- The cell that a thread gets for a name is the one in the table. -/
lemma mem_publish (interned : w.Interned fixed) (name : String) (a : Address) :
    (name, (w.publish name a).1) ∈ (w.publish name a).2.symbols := by
  rw [World.publish]
  cases found : w.symbol? name with
  | some b => exact interned.symbol?_eq_some_iff.mp found
  | none => exact List.mem_cons_self

end Interned

end World

end CellMachine
