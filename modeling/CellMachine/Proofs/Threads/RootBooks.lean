import CellMachine.Proofs.Machine.SymbolTable
import CellMachine.Proofs.Threads.LockedCalls

/-!
# The books of the global roots

Registrations are removed one at a time and by value, so nothing tells whose they are. What can be
said is how many there are: the global roots and what the threads in the middle of a call still
owe are, value for value, what the tables ask for and what such threads have registered beyond
that.
-/

namespace CellMachine

/-- The registrations of these values; inline numbers have none. -/
def registrations (vs : List Value) : Multiset Value := (vs.filter Value.isRef : List Value)

lemma registrations_cons (v : Value) (vs : List Value) :
    registrations (v :: vs) = registrations [v] + registrations vs := by
  rw [registrations, registrations, registrations, Multiset.coe_add, ← List.filter_append]
  rfl

lemma registrations_perm {vs vs' : List Value} (perm : vs.Perm vs') :
    registrations vs = registrations vs' :=
  Multiset.coe_eq_coe.mpr (perm.filter _)

lemma registrations_append (vs vs' : List Value) :
    registrations (vs ++ vs') = registrations vs + registrations vs' := by
  simp [registrations]

namespace World

/-- One registration for each name and for each variable that is bound to a cell. -/
def tableRoots (w : World) : Multiset Value :=
  registrations (w.symbols.map fun e => .ref e.2) + registrations (w.globals.map Prod.snd)

def roots (w : World) : Multiset Value := w.heap.globalRoots

lemma roots_addRoot (w : World) (v : Value) :
    (w.addRoot v).roots = registrations [v] + w.roots := by
  change (((w.heap.addGlobalRoot v).globalRoots : List Value) : Multiset Value) = _
  rw [w.heap.globalRoots_addGlobalRoot, ← Multiset.coe_add]
  rfl

/-- What is registered is taken away once. -/
lemma roots_release {w : World} (reachable : w.heap.Reachable) {old : Option Value}
    (registered : registrations old.toList ≤ w.roots) :
    (w.release old).roots + registrations old.toList = w.roots := by
  cases old with
  | none => exact add_zero _
  | some v =>
    change ((w.heap.globalRoots.erase v : List Value) : Multiset Value) + registrations [v] = _
    cases ref : v.isRef with
    | true =>
      have single : registrations [v] = {v} := by simp [registrations, ref]
      rw [Option.toList_some, single, Multiset.singleton_le] at registered
      rw [single, ← Multiset.coe_erase, add_comm, Multiset.singleton_add]
      exact Multiset.cons_erase registered
    | false =>
      have absent : v ∉ w.heap.globalRoots := fun there => by
        simp [reachable.isRef_of_mem there] at ref
      have empty : registrations [v] = 0 := by simp [registrations, ref]
      rw [List.erase_of_not_mem absent, empty, add_zero]
      rfl

lemma tableRoots_enterSymbol (w : World) (name : String) (a : Address) :
    (w.enterSymbol name a).tableRoots = {.ref a} + w.tableRoots := by
  change registrations (.ref a :: w.symbols.map fun e => .ref e.2) + _ = _
  rw [registrations_cons, add_assoc]
  rfl

/-- The new value takes the place of the old one. -/
lemma tableRoots_enterGlobal (w : World) (name : String) (v : Value) :
    (w.enterGlobal name v).tableRoots + registrations (w.global? name).toList =
      w.tableRoots + registrations [v] := by
  have replaced : registrations ((rebind name v w.globals).map Prod.snd) +
      registrations (w.global? name).toList =
      registrations (w.globals.map Prod.snd) + registrations [v] := by
    rw [← registrations_append, ← registrations_append]
    apply registrations_perm
    cases bound : w.global? name with
    | none =>
      rw [rebind_of_none bound]
      simp
    | some old =>
      have perm := rebind_of_some v bound
      exact List.perm_append_comm.trans (perm.trans (List.perm_append_singleton v _).symm)
  change _ + registrations ((rebind name v w.globals).map Prod.snd) + _ = _
  rw [add_assoc, replaced, ← add_assoc]
  rfl

lemma lookup_rebind (name : String) (v : Value) (globals : List (String × Value)) :
    (rebind name v globals).lookup name = some v := by
  induction globals with
  | nil => simp [rebind]
  | cons e rest ih =>
    obtain ⟨n, old⟩ := e
    rw [rebind]
    by_cases same : n = name
    · rw [if_pos same]
      simp [same]
    · rw [if_neg same, List.lookup_cons, beq_eq_false_iff_ne.mpr (Ne.symm same)]
      exact ih

lemma mem_rebind {name : String} {v : Value} {e : String × Value} {globals : List (String × Value)}
    (mem : e ∈ rebind name v globals) : e ∈ globals ∨ e = (name, v) := by
  induction globals with
  | nil => exact .inr (List.mem_singleton.mp mem)
  | cons first rest ih =>
    rw [rebind] at mem
    split at mem
    · rename_i same
      rcases List.mem_cons.mp mem with new | old
      · exact .inr (same ▸ new)
      · exact .inl (List.mem_cons_of_mem _ old)
    · rcases List.mem_cons.mp mem with rfl | later
      · exact .inl List.mem_cons_self
      · exact (ih later).imp_left (List.mem_cons_of_mem _)

lemma nodup_rebind (name : String) (v : Value) {globals : List (String × Value)}
    (distinct : (globals.map Prod.fst).Nodup) :
    ((rebind name v globals).map Prod.fst).Nodup := by
  have keys : ∀ globals : List (String × Value), name ∈ globals.map Prod.fst →
      (rebind name v globals).map Prod.fst = globals.map Prod.fst := by
    intro globals bound
    induction globals with
    | nil => cases bound
    | cons e rest ih =>
      rw [rebind]
      by_cases same : e.1 = name
      · rw [if_pos same]
        rfl
      · rw [if_neg same]
        have later : name ∈ rest.map Prod.fst := by
          rcases List.mem_cons.mp bound with first | later
          · exact absurd first.symm same
          · exact later
        exact congrArg (e.1 :: ·) (ih later)
  by_cases bound : name ∈ globals.map Prod.fst
  · rw [keys globals bound]
    exact distinct
  · have unbound : globals.lookup name = none := by
      rw [List.lookup_eq_none_iff]
      intro e mem
      rw [bne_iff_ne]
      rintro rfl
      exact bound (List.mem_map_of_mem mem)
    rw [rebind_of_none unbound, List.map_append, List.map_singleton]
    exact distinct.append (List.nodup_singleton _) (List.disjoint_singleton.mpr bound)

end World

namespace Critical

/-- The variable is bound, and the registration of its value is missing. -/
def owed : Critical → Multiset Value
  | bound _ v _ | released _ v => registrations [v]
  | _ => 0

/-- A registration of the old value is left over, or that of a new cell is early. -/
def surplus : Critical → Multiset Value
  | bound _ _ old => registrations old.toList
  | rooted _ a => {.ref a}
  | _ => 0

def binding? : Critical → Option (String × Value)
  | bound name v _ | released name v => some (name, v)
  | _ => none

def naming? : Critical → Option String
  | rooted name _ => some name
  | _ => none

lemma owed_eq_zero {k : Critical} (idle : k.binding? = none) : k.owed = 0 := by
  cases k with
  | outside | rooted => rfl
  | bound | released => cases idle

lemma owed_eq {k : Critical} {name : String} {v : Value} (binds : k.binding? = some (name, v)) :
    k.owed = registrations [v] := by
  cases k with
  | outside | rooted => cases binds
  | bound | released =>
    cases binds
    rfl

end Critical

namespace MutatorSystem

variable {σ : Type} {c : Client σ} {held : σ → Nat} {fixed : List Value}

/-- The books of the global roots are in order. -/
structure Booked (c : Client σ) (fixed : List Value)
    (s : MutatorSystem Object Guarded (Caller σ)) : Prop where
  /-- Whoever binds a variable has the lock, and only one thread does; -/
  binders : s.total (fun t => (c.critical t.own).binding?.isSome.toNat) =
    s.shared.world.locks.globals.toNat
  /-- likewise for names. -/
  namers : s.total (fun t => (c.critical t.own).naming?.isSome.toNat) =
    s.shared.world.locks.symbols.toNat
  balance : s.shared.guardedWorld.roots + s.total (fun t => (c.critical t.own).owed) =
    fixed + s.shared.guardedWorld.tableRoots + s.total fun t => (c.critical t.own).surplus
  current : ∀ (i : Nat) t name v, s.threads[i]? = some t →
    (c.critical t.own).binding? = some (name, v) → s.shared.guardedWorld.global? name = some v
  absent : ∀ (i : Nat) t name, s.threads[i]? = some t →
    (c.critical t.own).naming? = some name → s.shared.guardedWorld.symbol? name = none
  named : ∀ (i : Nat) t name a, s.threads[i]? = some t → c.cellFor? t.own = some (name, a) →
    s.shared.heap.payload? a = some (.symbol name)
  cells : ∀ name a, (name, a) ∈ s.shared.guardedWorld.symbols →
    s.shared.heap.payload? a = some (.symbol name)
  names : (s.shared.guardedWorld.symbols.map Prod.fst).Nodup
  bindings : (s.shared.guardedWorld.globals.map Prod.fst).Nodup

section Steps

variable {s : MutatorSystem Object Guarded (Caller σ)} {i : Nat}
  {t t' : MutatorThread Object (Caller σ)} {g : Common Object Guarded}

/-- If a thread has its lock, no other thread does. -/
lemma total_le_one {f : Caller σ → Bool} {taken : Bool}
    (locked : s.total (fun t => (f t.own).toNat) = taken.toNat) (here : s.threads[i]? = some t)
    (has : f t.own = true) {j : Nat} {u : MutatorThread Object (Caller σ)} (other : i ≠ j)
    (there : s.threads[j]? = some u) : f u.own = false := by
  have entry : ∀ {k : Nat} {v : MutatorThread Object (Caller σ)}, s.threads[k]? = some v →
      (s.threads.toList.map fun t => (f t.own).toNat)[k]? = some (f v.own).toNat := by
    intro k v at_k
    rw [List.getElem?_map, Array.getElem?_toList, at_k]
    rfl
  have le : s.total (fun t => (f t.own).toNat) ≤ (f t.own).toNat := by
    rw [locked, has]
    exact Bool.toNat_le taken
  have zero := eq_zero_of_sum_le (entry here) le (entry there) other
  cases free : f u.own with
  | false => rfl
  | true =>
    rw [free] at zero
    cases zero

/-- As long as a lock is free, no thread has it. -/
lemma eq_false_of_free {f : Caller σ → Bool}
    (free : s.total (fun t => (f t.own).toNat) = 0) (here : s.threads[i]? = some t) :
    f t.own = false := by
  have bound := le_total (fun t => (f t.own).toNat) here
  rw [free] at bound
  cases has : f t.own with
  | false => rfl
  | true =>
    rw [has] at bound
    cases bound

/-- A change keeps the balance if it is balanced by itself. -/
lemma balance_changed {R R' T T' o o' B B' U U' u u' F : Multiset Value}
    (balance : R + T = F + B + U) (owed : T' + o = T + o') (surplus : U' + u = U + u')
    (change : R' + o' + B + u = R + o + B' + u') : R' + T' = F + B' + U' := by
  ext v
  have balance := congrArg (Multiset.count v) balance
  have owed := congrArg (Multiset.count v) owed
  have surplus := congrArg (Multiset.count v) surplus
  have change := congrArg (Multiset.count v) change
  simp only [Multiset.count_add] at *
  omega

/-- What a change has to keep in order. -/
structure KeepsBooks (c : Client σ) (w : World) (l : Locks) (t t' : Caller σ) (w' : World)
    (l' : Locks) : Prop where
  binder : l'.globals.toNat + (c.critical t).binding?.isSome.toNat =
    l.globals.toNat + (c.critical t').binding?.isSome.toNat
  namer : l'.symbols.toNat + (c.critical t).naming?.isSome.toNat =
    l.symbols.toNat + (c.critical t').naming?.isSome.toNat
  balance : w'.roots + (c.critical t').owed + w.tableRoots + (c.critical t).surplus =
    w.roots + (c.critical t).owed + w'.tableRoots + (c.critical t').surplus
  globals : w'.globals = w.globals ∨ l.globals = false
  symbols : w'.symbols = w.symbols ∨ (c.critical t).naming?.isSome
  current : ∀ name v, (c.critical t').binding? = some (name, v) → w'.global? name = some v
  absent : ∀ name, (c.critical t').naming? = some name → w'.symbol? name = none
  named : ∀ name a, c.cellFor? t' = some (name, a) → w'.heap.payload? a = some (.symbol name)
  kept : ∀ name a, w.heap.payload? a = some (.symbol name) →
    w'.heap.payload? a = some (.symbol name)
  cells : ∀ name a, (name, a) ∈ w'.symbols → w'.heap.payload? a = some (.symbol name)
  names : (w'.symbols.map Prod.fst).Nodup
  bindings : (w'.globals.map Prod.fst).Nodup

lemma Booked.changed (booked : s.Booked c fixed) (here : s.threads[i]? = some t)
    (keeps : KeepsBooks c s.shared.guardedWorld s.shared.world.locks t.own t'.own
      g.shared.guardedWorld g.shared.world.locks) : (s.changed i g t').Booked c fixed := by
  constructor
  · have sums := total_changed (fun t => (c.critical t.own).binding?.isSome.toNat) g t' here
    have lock := keeps.binder
    have before := booked.binders
    change _ = g.shared.world.locks.globals.toNat
    omega
  · have sums := total_changed (fun t => (c.critical t.own).naming?.isSome.toNat) g t' here
    have lock := keeps.namer
    have before := booked.namers
    change _ = g.shared.world.locks.symbols.toNat
    omega
  · exact balance_changed booked.balance
      (total_changed (fun t => (c.critical t.own).owed) g t' here)
      (total_changed (fun t => (c.critical t.own).surplus) g t' here) keeps.balance
  · intro j u name v there binds
    rw [getElem?_changed here] at there
    split at there
    · obtain rfl := Option.some.inj there
      exact keeps.current name v binds
    · rcases keeps.globals with same | free
      · change g.shared.guardedWorld.globals.lookup name = some v
        rw [same]
        exact booked.current j u name v there binds
      · have none_binds := booked.binders
        rw [free] at none_binds
        have idle := eq_false_of_free (f := fun t => (c.critical t).binding?.isSome) none_binds there
        rw [binds] at idle
        cases idle
  · intro j u name there names
    rw [getElem?_changed here] at there
    split at there
    · obtain rfl := Option.some.inj there
      exact keeps.absent name names
    · rename_i other
      rcases keeps.symbols with same | has
      · change g.shared.guardedWorld.symbols.lookup name = none
        rw [same]
        exact booked.absent j u name there names
      · have idle := total_le_one (f := fun t => (c.critical t).naming?.isSome) booked.namers here
          has other there
        rw [names] at idle
        cases idle
  · intro j u name a there cell
    rw [getElem?_changed here] at there
    split at there
    · obtain rfl := Option.some.inj there
      exact keeps.named name a cell
    · exact keeps.kept name a (booked.named j u name a there cell)
  · exact keeps.cells
  · exact keeps.names
  · exact keeps.bindings

/-- A change that concerns neither the tables nor the locks. -/
lemma Booked.keepsBooks (booked : s.Booked c fixed) {w' : World} {t' : Caller σ}
    (critical : c.critical t' = c.critical t.own) (here : s.threads[i]? = some t)
    (symbols : w'.symbols = s.shared.guardedWorld.symbols)
    (globals : w'.globals = s.shared.guardedWorld.globals)
    (roots : w'.heap.globalRoots = s.shared.heap.globalRoots)
    (named : ∀ name a, c.cellFor? t' = some (name, a) → w'.heap.payload? a = some (.symbol name))
    (kept : ∀ name a, s.shared.heap.payload? a = some (.symbol name) →
      w'.heap.payload? a = some (.symbol name)) :
    KeepsBooks c s.shared.guardedWorld s.shared.world.locks t.own t' w' s.shared.world.locks := by
  constructor
  · rw [critical]
  · rw [critical]
  · have roots' : w'.roots = s.shared.guardedWorld.roots :=
      congrArg (fun r : List Value => (r : Multiset Value)) roots
    rw [critical, roots', World.tableRoots, World.tableRoots, symbols, globals]
  · exact .inl globals
  · exact .inl symbols
  · intro name v binds
    rw [World.global?, globals]
    exact booked.current i t name v here (critical ▸ binds)
  · intro name names
    rw [World.symbol?, symbols]
    exact booked.absent i t name here (critical ▸ names)
  · exact named
  · exact kept
  · intro name a entry
    rw [symbols] at entry
    exact kept name a (booked.cells name a entry)
  · rw [symbols]
    exact booked.names
  · rw [globals]
    exact booked.bindings

/-- The lock of the variables is taken, the value entered. -/
lemma Booked.keepsBooks_bind (booked : s.Booked c fixed) {name : String} {v : Value}
    (asked : c.request t.own.own = .setGlobal name v) (out : c.critical t.own = .outside)
    (free : s.shared.world.locks.globals = false) :
    KeepsBooks c s.shared.guardedWorld s.shared.world.locks t.own
      { t.own with task := .bound (s.shared.guardedWorld.global? name) }
      (s.shared.guardedWorld.enterGlobal name v) { s.shared.world.locks with globals := true } := by
  have after : c.critical { t.own with task := .bound (s.shared.guardedWorld.global? name) } =
      .bound name v (s.shared.guardedWorld.global? name) := by simp only [Client.critical, asked]
  constructor
  · rw [after, out, free]
    rfl
  · rw [after, out]
    rfl
  · rw [after, out]
    have replaced := s.shared.guardedWorld.tableRoots_enterGlobal name v
    change s.shared.guardedWorld.roots + registrations [v] + s.shared.guardedWorld.tableRoots + 0 =
      s.shared.guardedWorld.roots + 0 + _ + registrations _
    rw [add_zero, add_zero, add_assoc, add_assoc, replaced, add_comm (registrations [v])]
  · exact .inr free
  · exact .inl rfl
  · intro name' v' binds
    rw [after] at binds
    cases binds
    exact World.lookup_rebind name v _
  · intro name' names
    rw [after] at names
    cases names
  · intro name' a cell
    simp only [Client.cellFor?, asked] at cell
    cases cell
  · exact fun name' a here => here
  · exact booked.cells
  · exact booked.names
  · exact World.nodup_rebind name v booked.bindings

/-- While one thread binds a variable no other does. -/
lemma Booked.binder_unique (booked : s.Booked c fixed) (here : s.threads[i]? = some t)
    {b : String × Value} (binds : (c.critical t.own).binding? = some b) {j : Nat}
    {u : MutatorThread Object (Caller σ)} (other : i ≠ j) (there : s.threads[j]? = some u) :
    (c.critical u.own).binding? = none := by
  have idle := total_le_one (f := fun t => (c.critical t).binding?.isSome) booked.binders here
    (by rw [binds]; rfl) other there
  exact Option.isNone_iff_eq_none.mp (by simpa using idle)

/-- All that is owed is the registration of the value of that variable. -/
lemma Booked.owed_eq (booked : s.Booked c fixed) (here : s.threads[i]? = some t) {name : String}
    {v : Value} (binds : (c.critical t.own).binding? = some (name, v)) :
    s.total (fun t => (c.critical t.own).owed) = registrations [v] := by
  refine sum_eq_of_others_zero (i := i) ?_ ?_
  · rw [List.getElem?_map, Array.getElem?_toList, here, Option.map_some, Critical.owed_eq binds]
  · intro j y other at_j
    rw [List.getElem?_map, Array.getElem?_toList] at at_j
    obtain ⟨u, there, rfl⟩ := Option.map_eq_some_iff.mp at_j
    exact Critical.owed_eq_zero (booked.binder_unique here binds other there)

/-- A binding thread has registered the old value, as nobody else can have taken it away. -/
lemma Booked.registered (booked : s.Booked c fixed) (here : s.threads[i]? = some t) {name : String}
    {v : Value} {old : Option Value} (bound : c.critical t.own = .bound name v old) :
    registrations old.toList ≤ s.shared.guardedWorld.roots := by
  have binds : (c.critical t.own).binding? = some (name, v) := by rw [bound]; rfl
  have owed := booked.owed_eq here binds
  have current : registrations [v] ≤ s.shared.guardedWorld.tableRoots := by
    have entry := World.mem_of_global? (booked.current i t name v here binds)
    have mem : v ∈ s.shared.guardedWorld.globals.map Prod.snd := List.mem_map_of_mem entry
    have sub : [v].Sublist (s.shared.guardedWorld.globals.map Prod.snd) :=
      List.singleton_sublist.mpr mem
    exact (Multiset.coe_le.mpr (sub.filter _).subperm).trans (Multiset.le_add_left _ _)
  have surplus : registrations old.toList ≤ s.total fun t => (c.critical t.own).surplus := by
    have sums := total_changed (fun t => (c.critical t.own).surplus) s.common
      ⟨⟨t.own.own, .start⟩, .between⟩ here
    have idle : (c.critical ⟨t.own.own, .start⟩).surplus = 0 := by
      rw [Client.critical]
      cases c.request t.own.own <;> rfl
    rw [idle, add_zero, bound] at sums
    rw [← sums]
    exact Multiset.le_add_left _ _
  rw [Multiset.le_iff_count]
  intro u
  have balance := congrArg (Multiset.count u) booked.balance
  have current := Multiset.le_iff_count.mp current u
  have surplus := Multiset.le_iff_count.mp surplus u
  simp only [owed, Multiset.count_add] at balance
  omega

lemma Booked.keepsBooks_release (booked : s.Booked c fixed) (reachable : s.shared.heap.Reachable)
    (here : s.threads[i]? = some t) {name : String} {v : Value} {old : Option Value}
    (asked : c.request t.own.own = .setGlobal name v) (bound : t.own.task = .bound old) :
    KeepsBooks c s.shared.guardedWorld s.shared.world.locks t.own { t.own with task := .released }
      (s.shared.guardedWorld.release old) s.shared.world.locks := by
  have before : c.critical t.own = .bound name v old := by simp only [Client.critical, asked, bound]
  have after : c.critical { t.own with task := .released } = .released name v := by
    simp only [Client.critical, asked]
  have frame : (s.shared.guardedWorld.release old).symbols = s.shared.guardedWorld.symbols ∧
      (s.shared.guardedWorld.release old).globals = s.shared.guardedWorld.globals ∧
      ∀ a, (s.shared.guardedWorld.release old).heap.payload? a = s.shared.heap.payload? a := by
    cases old with
    | none => exact ⟨rfl, rfl, fun _ => rfl⟩
    | some u => exact ⟨rfl, rfl, fun _ => rfl⟩
  obtain ⟨symbols, globals, payloads⟩ := frame
  constructor
  · rw [before, after]
    rfl
  · rw [before, after]
    rfl
  · have taken := World.roots_release reachable (booked.registered here before)
    have tables : (s.shared.guardedWorld.release old).tableRoots =
        s.shared.guardedWorld.tableRoots := by
      rw [World.tableRoots, World.tableRoots, symbols, globals]
    rw [before, after, tables]
    change _ + registrations [v] + _ + registrations old.toList = _ + registrations [v] + _ + 0
    rw [← taken]
    abel
  · exact .inl globals
  · exact .inl symbols
  · intro name' v' binds
    rw [after] at binds
    cases binds
    rw [World.global?, globals]
    exact booked.current i t name v here (by rw [before]; rfl)
  · intro name' names
    rw [after] at names
    cases names
  · intro name' a cell
    simp only [Client.cellFor?, asked] at cell
    cases cell
  · exact fun name' a there => (payloads a).trans there
  · intro name' a entry
    rw [symbols] at entry
    exact (payloads a).trans (booked.cells name' a entry)
  · rw [symbols]
    exact booked.names
  · rw [globals]
    exact booked.bindings

/-- The new value is registered and the lock given back. -/
lemma Booked.keepsBooks_enroll (booked : s.Booked c fixed) (here : s.threads[i]? = some t)
    {name : String} {v : Value} (asked : c.request t.own.own = .setGlobal name v)
    (released : t.own.task = .released) :
    KeepsBooks c s.shared.guardedWorld s.shared.world.locks t.own (c.replied t.own .done)
      (s.shared.guardedWorld.addRoot v) { s.shared.world.locks with globals := false } := by
  have before : c.critical t.own = .released name v := by
    simp only [Client.critical, asked, released]
  have after : c.critical (c.replied t.own .done) = .outside := Client.critical_replied
  have payloads := s.shared.heap.payload?_addGlobalRoot v
  constructor
  · have own := le_total (fun t => (c.critical t.own).binding?.isSome.toNat) here
    have bound := Bool.toNat_le s.shared.world.locks.globals
    rw [booked.binders, before] at own
    rw [before, after]
    change 1 ≤ _ at own
    change 0 + 1 = _ + 0
    omega
  · rw [before, after]
    rfl
  · rw [before, after, World.roots_addRoot]
    change registrations [v] + _ + 0 + _ + 0 = _ + registrations [v] + _ + 0
    abel
  · exact .inl rfl
  · exact .inl rfl
  · intro name' v' binds
    rw [after] at binds
    cases binds
  · intro name' names
    rw [after] at names
    cases names
  · intro name' a cell
    rw [Client.cellFor?_replied] at cell
    cases cell
  · exact fun name' a there => (payloads a).trans there
  · exact fun name' a entry => (payloads a).trans (booked.cells name' a entry)
  · exact booked.names
  · exact booked.bindings

/-- The lock of the table is taken, and the fresh cell registered. -/
lemma Booked.keepsBooks_root (booked : s.Booked c fixed) (here : s.threads[i]? = some t)
    {name : String} {a : Address} (asked : c.request t.own.own = .intern name)
    (fresh : t.own.task = .fresh a) (free : s.shared.world.locks.symbols = false)
    (absent : s.shared.guardedWorld.symbol? name = none) :
    KeepsBooks c s.shared.guardedWorld s.shared.world.locks t.own { t.own with task := .rooted a }
      (s.shared.guardedWorld.addRoot (.ref a)) { s.shared.world.locks with symbols := true } := by
  have before : c.critical t.own = .outside := by simp only [Client.critical, asked, fresh]
  have after : c.critical { t.own with task := .rooted a } = .rooted name a := by
    simp only [Client.critical, asked]
  have cell_before : c.cellFor? t.own = some (name, a) := by simp only [Client.cellFor?, asked, fresh]
  have cell_after : c.cellFor? { t.own with task := .rooted a } = some (name, a) := by
    simp only [Client.cellFor?, asked]
  have payloads := s.shared.heap.payload?_addGlobalRoot (.ref a)
  constructor
  · rw [before, after]
    rfl
  · rw [before, after, free]
    rfl
  · rw [before, after, World.roots_addRoot]
    change ({.ref a} : Multiset Value) + _ + 0 + _ + 0 = _ + 0 + _ + ({.ref a} : Multiset Value)
    abel
  · exact .inl rfl
  · exact .inl rfl
  · intro name' v binds
    rw [after] at binds
    cases binds
  · intro name' names
    rw [after] at names
    cases names
    exact absent
  · intro name' b cell
    rw [cell_after] at cell
    cases cell
    exact (payloads a).trans (booked.named i t name a here cell_before)
  · exact fun name' b there => (payloads b).trans there
  · exact fun name' b entry => (payloads b).trans (booked.cells name' b entry)
  · exact booked.names
  · exact booked.bindings

/-- The registered cell is entered, and the lock given back. -/
lemma Booked.keepsBooks_enter (booked : s.Booked c fixed) (here : s.threads[i]? = some t)
    {name : String} {a : Address} (asked : c.request t.own.own = .intern name)
    (rooted : t.own.task = .rooted a) :
    KeepsBooks c s.shared.guardedWorld s.shared.world.locks t.own (c.replied t.own (.cell a))
      (s.shared.guardedWorld.enterSymbol name a) { s.shared.world.locks with symbols := false } := by
  have before : c.critical t.own = .rooted name a := by simp only [Client.critical, asked, rooted]
  have after : c.critical (c.replied t.own (.cell a)) = .outside := Client.critical_replied
  have payload : s.shared.heap.payload? a = some (.symbol name) :=
    booked.named i t name a here (by simp only [Client.cellFor?, asked, rooted])
  have absent := booked.absent i t name here (by rw [before]; rfl)
  constructor
  · rw [before, after]
    rfl
  · have own := le_total (fun t => (c.critical t.own).naming?.isSome.toNat) here
    have bound := Bool.toNat_le s.shared.world.locks.symbols
    rw [booked.namers, before] at own
    rw [before, after]
    change 1 ≤ _ at own
    change 0 + 1 = _ + 0
    omega
  · rw [before, after, World.tableRoots_enterSymbol]
    change s.shared.guardedWorld.roots + 0 + _ + ({.ref a} : Multiset Value) =
      s.shared.guardedWorld.roots + 0 + (({.ref a} : Multiset Value) + _) + 0
    abel
  · exact .inl rfl
  · exact .inr (by rw [before]; rfl)
  · intro name' v binds
    rw [after] at binds
    cases binds
  · intro name' names
    rw [after] at names
    cases names
  · intro name' b cell
    rw [Client.cellFor?_replied] at cell
    cases cell
  · exact fun name' b there => there
  · intro name' b entry
    rcases List.mem_cons.mp entry with new | old
    · cases new
      exact payload
    · exact booked.cells name' b old
  · refine List.nodup_cons.mpr ⟨fun mem => ?_, booked.names⟩
    obtain ⟨e, entry, same⟩ := List.mem_map.mp mem
    have other := List.lookup_eq_none_iff.mp absent e entry
    rw [bne_iff_ne] at other
    exact other same.symm
  · exact booked.bindings

/-- The books are in order after every step that is no collection. -/
lemma Booked.strides (booked : s.Booked c fixed) (lawful : c.Lawful held)
    (reachable : s.shared.heap.Reachable) (here : s.threads[i]? = some t)
    (strides : c.Strides s.shared.guardedWorld s.shared.world.locks t.own t'.own
      g.shared.guardedWorld g.shared.world.locks) : (s.changed i g t').Booked c fixed := by
  have sound := reachable.sound
  have own_cell : ∀ name a, c.cellFor? t.own = some (name, a) →
      s.shared.heap.payload? a = some (.symbol name) := fun name a => booked.named i t name a here
  have no_cell : ∀ {t : Caller σ} {reply : Reply} {h : Heap Object} name a,
      c.cellFor? (c.replied t reply) = some (name, a) → h.payload? a = some (.symbol name) := by
    intro t reply h name a cell
    rw [Client.cellFor?_replied] at cell
    cases cell
  refine booked.changed here ?_
  generalize g.shared.guardedWorld = w', g.shared.world.locks = l', t'.own = u at strides
  cases strides with
  | stay => exact booked.keepsBooks rfl here rfl rfl rfl own_cell fun _ _ there => there
  | room made =>
    have payloads := sound.cells_of_room made
    exact booked.keepsBooks rfl here rfl rfl (Heap.globalRoots_of_room made)
      (fun name a cell => (payloads a).2.trans (own_cell name a cell))
      fun name a there => (payloads a).2.trans there
  | reply out =>
    exact booked.keepsBooks (Client.critical_replied.trans out.symm) here rfl rfl rfl no_cell
      fun _ _ there => there
  | miss asked out =>
    refine booked.keepsBooks ?_ here rfl rfl rfl ?_ fun _ _ there => there
    · rw [out]
      simp only [Client.critical, asked]
    · intro name a cell
      simp only [Client.cellFor?, asked] at cell
      cases cell
  | @allocate o k asked fits =>
    refine booked.keepsBooks ?_ here rfl rfl (Heap.allocateIn_frame _ k o).1 no_cell
      fun name a there => sound.payload?_allocateIn fits there
    rw [Client.critical_replied]
    simp only [Client.critical, asked]
  | @make name k asked missed fits =>
    obtain ⟨b, ok, _, _, placed, _⟩ :=
      sound.allocateIn_cells (Heap.classOf_lt sound fits) (.symbol name)
    change KeepsBooks _ _ _ _ (c.supplied t.own (s.shared.heap.allocateIn k (.symbol name)).1) _ _
    rw [ok]
    refine booked.keepsBooks ?_ here rfl rfl (Heap.allocateIn_frame _ k _).1 ?_
      fun name a there => sound.payload?_allocateIn fits there
    · simp only [Client.supplied, Client.critical, asked, missed]
    · intro name' a cell
      simp only [Client.supplied, Client.cellFor?, asked] at cell
      cases cell
      exact placed
  | @modify x f asked =>
    refine booked.keepsBooks ?_ here rfl rfl (s.shared.heap.modifyPayload_frame x f).2.1 no_cell ?_
    · rw [Client.critical_replied]
      simp only [Client.critical, asked]
    · intro name a there
      have after := sound.payload?_modifyPayload x f a
      split at after
      · rw [there, Option.map_some, lawful.symbols t.own.own x f asked name] at after
        exact after
      · exact after.trans there
  | bind asked out free => exact booked.keepsBooks_bind asked out free
  | release asked bound => exact booked.keepsBooks_release reachable here asked bound
  | enroll asked released => exact booked.keepsBooks_enroll here asked released
  | root asked fresh free absent => exact booked.keepsBooks_root here asked fresh free absent
  | enter asked rooted => exact booked.keepsBooks_enter here asked rooted

end Steps

end MutatorSystem

end CellMachine
