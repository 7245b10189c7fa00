import CellMachine.Machine.Keywords
import CellMachine.Proofs.Machine.ReachedWorlds

/-!
# Ordered hashes

A hash has one entry for each key that was ever inserted, in the order in which the keys came
first, with the value that came last. Keys are told apart by identity: a double by its bits, a
reference by its address. A symbol is found by its name as well as by its address, since the
table has one cell for each name.
-/

namespace CellMachine

namespace Entries

variable {es : Entries} {ps qs : List (Value × Value)} {k v : Value}

lemma ofList_append (ps qs : List (Value × Value)) :
    ofList (ps ++ qs) = qs.foldl (fun es p => es.insert p.1 p.2) (ofList ps) :=
  List.foldl_append

/-- What is inserted last is inserted into what was there. -/
lemma ofList_concat (ps : List (Value × Value)) (p : Value × Value) :
    ofList (ps ++ [p]) = insert p.1 p.2 (ofList ps) := ofList_append ps [p]

lemma nodup_keys_ofList (ps : List (Value × Value)) : (ofList ps).keys.Nodup := by
  induction ps using List.reverseRecOn with
  | nil => exact List.nodup_nil
  | append_singleton ps p ih =>
    rw [ofList_concat]
    exact nodup_keys_insert ih p.1 p.2

lemma mem_keys_ofList (ps : List (Value × Value)) (k : Value) :
    k ∈ (ofList ps).keys ↔ k ∈ ps.map Prod.fst := by
  induction ps using List.reverseRecOn with
  | nil => rfl
  | append_singleton ps p ih =>
    rw [ofList_concat, keys_insert, List.map_append, List.mem_append, ← ih]
    split
    · rename_i there
      refine ⟨.inl, fun mem => mem.elim id fun last => ?_⟩
      rwa [List.mem_singleton.mp last]
    · exact List.mem_append

/-- Keys stand in the order in which they came first. -/
lemma pairwise_keys_ofList (ps : List (Value × Value)) :
    (ofList ps).keys.Pairwise fun k k' =>
      (ps.map Prod.fst).idxOf k < (ps.map Prod.fst).idxOf k' := by
  induction ps using List.reverseRecOn with
  | nil => exact List.Pairwise.nil
  | append_singleton ps p ih =>
    have old : ∀ k ∈ (ofList ps).keys, ((ps ++ [p]).map Prod.fst).idxOf k =
        (ps.map Prod.fst).idxOf k := by
      intro k mem
      rw [List.map_append, List.idxOf_append_of_mem ((mem_keys_ofList ps k).mp mem)]
    have olds : (ofList ps).keys.Pairwise fun k k' =>
        ((ps ++ [p]).map Prod.fst).idxOf k < ((ps ++ [p]).map Prod.fst).idxOf k' := by
      refine ih.imp_of_mem fun here there before => ?_
      rwa [old _ here, old _ there]
    rw [ofList_concat, keys_insert]
    split
    · exact olds
    · rename_i new
      refine List.pairwise_append.mpr ⟨olds, List.pairwise_singleton _ _, fun k mem k' last => ?_⟩
      rw [List.mem_singleton.mp last, old k mem, List.map_append,
        List.idxOf_append_of_notMem fun there => new ((mem_keys_ofList ps p.1).mpr there)]
      exact Nat.lt_add_right _ (List.idxOf_lt_length_of_mem ((mem_keys_ofList ps k).mp mem))

/-- The value of a key is the one that came last. -/
lemma get?_ofList (ps : List (Value × Value)) (k : Value) :
    get? k (ofList ps) = ps.reverse.lookup k := by
  induction ps using List.reverseRecOn with
  | nil => rfl
  | append_singleton ps p ih =>
    rw [ofList_concat, List.reverse_append, List.reverse_singleton, List.singleton_append,
      List.lookup_cons]
    by_cases same : k = p.1
    · rw [same, get?_insert_self, beq_self_eq_true]
    · rw [get?_insert_of_ne same, beq_false_of_ne same, ih]

lemma get?_eq_none_iff (es : Entries) (k : Value) : get? k es = none ↔ k ∉ es.keys := by
  induction es with
  | nil => exact ⟨fun _ => List.not_mem_nil, fun _ => rfl⟩
  | cons e rest ih =>
    rw [get?, keys, List.map_cons, List.mem_cons, not_or]
    split
    · rename_i same
      exact ⟨(by cases ·), fun absent => absurd same.symm absent.1⟩
    · rename_i other
      rw [ih]
      exact ⟨fun absent => ⟨Ne.symm other, absent⟩, fun absent => absent.2⟩

/-- With one entry for each key, the value of a key is that of its entry. -/
lemma get?_eq_some_iff (distinct : es.keys.Nodup) : get? k es = some v ↔ (k, v) ∈ es := by
  induction es with
  | nil => exact ⟨nofun, nofun⟩
  | cons e rest ih =>
    obtain ⟨absent, distinct⟩ := List.nodup_cons.mp distinct
    rw [get?, List.mem_cons, Prod.ext_iff]
    split
    · rename_i same
      subst same
      refine ⟨fun here => .inl ⟨rfl, (Option.some.inj here).symm⟩, ?_⟩
      rintro (here | later)
      · exact congrArg some here.2.symm
      · exact absurd (List.mem_map_of_mem later) absent
    · rename_i other
      rw [ih distinct]
      exact ⟨.inr, fun here => here.elim (fun same => absurd same.1.symm other) id⟩

/-- What a sequence of insertions comes to. -/
structure FirstInFirst (ps : List (Value × Value)) : Prop where
  distinct : (ofList ps).keys.Nodup
  inserted : ∀ k, k ∈ (ofList ps).keys ↔ k ∈ ps.map Prod.fst
  order : (ofList ps).keys.Pairwise fun k k' =>
    (ps.map Prod.fst).idxOf k < (ps.map Prod.fst).idxOf k'
  last : ∀ k, get? k (ofList ps) = ps.reverse.lookup k
  never : ∀ k, get? k (ofList ps) = none ↔ k ∉ ps.map Prod.fst
  /-- It does not matter how many of the insertions were made when the hash was new. -/
  insertions : ∀ qs : List (Value × Value), qs.foldl (fun o q => o.insert q.1 q.2)
    (Object.hash (ofList ps)) = .hash (ofList (ps ++ qs))

lemma firstInFirst (ps : List (Value × Value)) : FirstInFirst ps := by
  constructor
  · exact nodup_keys_ofList ps
  · exact mem_keys_ofList ps
  · exact pairwise_keys_ofList ps
  · exact get?_ofList ps
  · intro k
    rw [get?_eq_none_iff, mem_keys_ofList]
  · intro qs
    induction qs generalizing ps with
    | nil => rw [List.append_nil, List.foldl_nil]
    | cons q qs ih =>
      rw [List.foldl_cons, Object.insert, ← ofList_concat, ih, List.append_assoc]
      rfl

end Entries

namespace Machine

variable {σ : Type} {m : Machine σ} {es : Entries}

/-- All keys of a hash that are symbols come from the table. -/
def KeysInterned (m : Machine σ) (es : Entries) : Prop :=
  ∀ k ∈ es.keys, ∀ name, m.symbolName? k = some name → ∃ e ∈ m.world.symbols, k = .ref e.2

/-- A hash whose symbols come from the table is searched for a name as for the symbol. -/
structure NamesAgree (m : Machine σ) (es : Entries) : Prop where
  named : ∀ name, es.named? m.symbolName? name =
    (m.world.symbol? name).bind fun s => Entries.get? (.ref s) es
  absent : ∀ name, (∀ s, m.world.symbol? name = some s → .ref s ∉ es.keys) →
    es.named? m.symbolName? name = none

lemma symbolName?_of_payload? {s : Address} {name : String}
    (here : m.world.heap.payload? s = some (.symbol name)) :
    m.symbolName? (.ref s) = some name := by
  rw [symbolName?, object?_of_payload? here]

lemma namesAgree (reached : m.Reached) (distinct : es.keys.Nodup) (interned : m.KeysInterned es) :
    m.NamesAgree es := by
  obtain ⟨extra, orderly⟩ := reached.orderly
  have table := orderly.interned
  -- a key that has the name of an entry is the cell of that entry, the only one of its name
  have key : ∀ e ∈ es, ∀ name, m.symbolName? e.1 = some name →
      ∃ s, m.world.symbol? name = some s ∧ e.1 = .ref s := by
    intro e mem name named
    obtain ⟨⟨name', s⟩, entry, same⟩ := interned e.1 (List.mem_map_of_mem mem) name named
    have holds := symbolName?_of_payload? (m := m) (table.cells name' s entry)
    rw [same, holds] at named
    obtain rfl := Option.some.inj named
    exact ⟨s, table.symbol?_eq_some_iff.mpr entry, same⟩
  have found : ∀ name v, es.named? m.symbolName? name = some v ↔
      ∃ s, m.world.symbol? name = some s ∧ Entries.get? (.ref s) es = some v := by
    intro name v
    rw [Entries.named?, Option.map_eq_some_iff]
    constructor
    · rintro ⟨e, here, rfl⟩
      have mem := List.mem_of_find?_eq_some here
      obtain ⟨s, entry, same⟩ := key e mem name (by simpa using List.find?_some here)
      refine ⟨s, entry, (Entries.get?_eq_some_iff distinct).mpr ?_⟩
      rwa [← same]
    · rintro ⟨s, entry, here⟩
      have mem := (Entries.get?_eq_some_iff distinct).mp here
      have holds := symbolName?_of_payload? (m := m)
        (table.cells name s (table.symbol?_eq_some_iff.mp entry))
      obtain ⟨e, first⟩ : ∃ e, es.find? (fun e => m.symbolName? e.1 == some name) = some e :=
        Option.isSome_iff_exists.mp (List.find?_isSome.mpr ⟨_, mem, by simpa using holds⟩)
      have mem' := List.mem_of_find?_eq_some first
      obtain ⟨s', entry', same⟩ := key e mem' name (by simpa using List.find?_some first)
      obtain rfl := Option.some.inj (entry.symm.trans entry')
      refine ⟨e, first, ?_⟩
      have entry : (Value.ref s, e.2) ∈ es := by rwa [← same]
      have here' := (Entries.get?_eq_some_iff distinct).mpr entry
      exact Option.some.inj (here'.symm.trans here)
  have named : ∀ name, es.named? m.symbolName? name =
      (m.world.symbol? name).bind fun s => Entries.get? (.ref s) es := by
    intro name
    refine Option.ext fun v => ?_
    rw [found, Option.bind_eq_some_iff]
  refine ⟨named, fun name absent => ?_⟩
  rw [named, Option.bind_eq_none_iff]
  exact fun s entry => (Entries.get?_eq_none_iff es _).mpr (absent s entry)

/-- Hashes keep one entry for each key in the order of first insertion, and in all machines that
are got into, a name is looked up as its symbol. -/
theorem ordered_hashes : (∀ ps, Entries.FirstInFirst ps) ∧
    ∀ (σ : Type) (m : Machine σ) (a : Address) (es : Entries), m.Reached →
      m.object? a = some (.hash es) →
      (∃ ps, es = Entries.ofList ps) ∧ (m.KeysInterned es → m.NamesAgree es) := by
  refine ⟨Entries.firstInFirst, fun σ m a es reached here => ?_⟩
  obtain ⟨ps, rfl⟩ := reached.formed here
  exact ⟨⟨ps, rfl⟩, namesAgree reached (Entries.nodup_keys_ofList ps)⟩

/-- The first name that is interned in a new world. -/
def nameCell : Address := ((Client.raceWorld.place [] (.symbol "size")).1.toOption).getD default

def namedWorld : World := ((Client.raceWorld.place [] (.symbol "size")).2.publish "size" nameCell).2

/-- Zero and minus zero are keys apart from each other. -/
def zeros : List (Value × Value) :=
  [(.double ⟨0⟩, .smallInt 1), (.ref nameCell, .smallInt 2),
    (.double ⟨0x8000000000000000⟩, .smallInt 3), (.ref nameCell, .smallInt 4),
    (.double ⟨0⟩, .smallInt 5)]

def zerosCell : Address :=
  ((namedWorld.place [] (.hash (Entries.ofList zeros))).1.toOption).getD default

def zerosWorld : World := (namedWorld.place [] (.hash (Entries.ofList zeros))).2

def withZeros : Machine Unit := standing zerosWorld #[] ()

lemma arises_zerosWorld : zerosWorld.Arises [] := by
  have new : Client.raceWorld.Arises [] := .create (eq_ok_get Client.made_raceSettings)
  have here : (Client.raceWorld.place [] (.symbol "size")).2.heap.payload? nameCell =
      some (.symbol "size") := by
    decide +kernel
  have named : namedWorld.Arises [] :=
    (new.change (.place [] (.of_hash? rfl))).change (.publish here)
  have formed : (Object.hash (Entries.ofList zeros)).Formed := by
    rintro es same
    exact ⟨zeros, (Object.hash.inj same).symm⟩
  have placed := named.change (.place [] formed)
  rwa [zerosWorld]

/-- The name is found, and so is its symbol; another name is absent. -/
theorem ordered_hashes_zeros : Entries.FirstInFirst zeros ∧
    withZeros.Reached ∧ withZeros.object? zerosCell = some (.hash (Entries.ofList zeros)) ∧
    withZeros.KeysInterned (Entries.ofList zeros) ∧ withZeros.NamesAgree (Entries.ofList zeros) ∧
    Entries.ofList zeros = [(.double ⟨0⟩, .smallInt 5), (.ref nameCell, .smallInt 4),
      (.double ⟨0x8000000000000000⟩, .smallInt 3)] ∧
    (Entries.ofList zeros).named? withZeros.symbolName? "size" = some (.smallInt 4) ∧
    (Entries.ofList zeros).named? withZeros.symbolName? "length" = none := by
  obtain ⟨first, agree⟩ := ordered_hashes
  have here : withZeros.object? zerosCell = some (.hash (Entries.ofList zeros)) := by decide +kernel
  have symbols : withZeros.world.symbols = [("size", nameCell)] := by decide +kernel
  have entries : Entries.ofList zeros = [(.double ⟨0⟩, .smallInt 5), (.ref nameCell, .smallInt 4),
      (.double ⟨0x8000000000000000⟩, .smallInt 3)] := by decide +kernel
  have reached : withZeros.Reached := reached_standing arises_zerosWorld #[] ()
  have unnamed : ∀ d, withZeros.symbolName? (.double d) = none := fun _ => rfl
  have interned : withZeros.KeysInterned (Entries.ofList zeros) := by
    intro k mem name named
    rw [symbols]
    refine ⟨_, List.mem_singleton_self _, ?_⟩
    simp only [entries, Entries.keys, List.map_cons, List.map_nil, List.mem_cons, List.not_mem_nil,
      or_false] at mem
    rcases mem with rfl | rfl | rfl
    · rw [unnamed] at named
      cases named
    · dsimp only
    · rw [unnamed] at named
      cases named
  refine ⟨first zeros, reached, here, interned,
    (agree Unit withZeros zerosCell _ reached here).2 interned, entries, ?_, ?_⟩
  · decide +kernel
  · decide +kernel

end Machine

end CellMachine
