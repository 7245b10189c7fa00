import CellMachine.Proofs.Machine.OrderedHashes
import CellMachine.Proofs.Machine.Texts

/-!
# Checking keywords and taking them out

A call that declares its keywords looks into the hash at the end of its window in three ways:
it asks for a keyword by name, it takes out those that it has not declared, and it checks what
it was passed. All three see the same entries, and a key counts for a name if it is a symbol of
that name. So the check finds fault with just those names that are not there and with just
those keys that would be taken out.

The check names unknown keys by their texts. A key that holds itself has none, and the check
comes to no answer then.
-/

namespace CellMachine

namespace Entries

lemma insert_of_notMem {k : Value} {es : Entries} (new : k ∉ es.keys) (v : Value) :
    insert k v es = es ++ [(k, v)] := by
  induction es with
  | nil => rfl
  | cons e rest ih =>
    rw [keys, List.map_cons, List.mem_cons, not_or] at new
    rw [insert, if_neg (Ne.symm new.1), ih new.2]
    rfl

/-- Inserting entries with different keys one after the other changes nothing. -/
lemma ofList_of_nodup {ps : List (Value × Value)} (distinct : (keys ps).Nodup) : ofList ps = ps := by
  induction ps using List.reverseRecOn with
  | nil => rfl
  | append_singleton ps p ih =>
    rw [keys, List.map_append, List.nodup_append] at distinct
    have new : p.1 ∉ keys ps := fun mem => distinct.2.2 p.1 mem p.1 (List.mem_singleton_self _) rfl
    rw [ofList_concat, ih distinct.1, insert_of_notMem new]

end Entries

namespace Machine

variable {σ : Type} {m : Machine σ} {w : Window} {required optional : List String}

/-- The entries of a window's last value, if the window is flagged and the value is a hash. -/
def keywordsOf (m : Machine σ) (w : Window) : Entries :=
  if w.hasKeywords ∧ 0 < w.size then
    (((m.thread.stack[w.stop - 1]?.bind Value.cell?).bind m.object?).bind Object.hash?).getD []
  else []

/-- There is a keyword of that name. -/
def IsPassed (m : Machine σ) (w : Window) (name : String) : Prop :=
  ∃ e ∈ m.keywordsOf w, m.symbolName? e.1 = some name

instance (name : String) : Decidable (m.IsPassed w name) :=
  inferInstanceAs (Decidable (∃ e ∈ m.keywordsOf w, m.symbolName? e.1 = some name))

/-- The key has none of the names. -/
def IsUnlisted (m : Machine σ) (listed : List String) (e : Value × Value) : Prop :=
  ∀ name ∈ listed, m.symbolName? e.1 ≠ some name

instance (listed : List String) : DecidablePred (m.IsUnlisted listed) := fun e =>
  inferInstanceAs (Decidable (∀ name ∈ listed, m.symbolName? e.1 ≠ some name))

def leftOver (m : Machine σ) (w : Window) (listed : List String) : Entries :=
  (m.keywordsOf w).filter fun e => m.IsUnlisted listed e

def absent (m : Machine σ) (w : Window) (required : List String) : List String :=
  required.filter fun name => ¬ m.IsPassed w name

/-- What a check comes to. -/
inductive Judged (m : Machine σ) (w : Window) (required optional : List String) :
    OtherKeywords → Except Halt Unit → Prop where
  | refused (some_passed : m.keywordsOf w ≠ []) :
      Judged m w required optional .forbidden (.error (.error .keywordsRefused))
  | missing {others : OtherKeywords} (allowed : others = .forbidden → m.keywordsOf w = [])
      (incomplete : m.absent w required ≠ []) :
      Judged m w required optional others
        (.error (.error (.missingKeywords (m.absent w required))))
  | unknown {texts : List String} (complete : m.absent w required = [])
      (left : m.leftOver w (required ++ optional) ≠ [])
      (shown : List.Forall₂ (fun e text => m.inspect? e.1 = some text)
        (m.leftOver w (required ++ optional)) texts) :
      Judged m w required optional .unknown (.error (.error (.unknownKeywords texts)))
  /-- The text of a key that leads to itself has no end. -/
  | endless (complete : m.absent w required = []) {e : Value × Value}
      (left : e ∈ m.leftOver w (required ++ optional)) (endless : IsEndless m.object? e.1) :
      Judged m w required optional .unknown (.error .exhausted)
  | passed {others : OtherKeywords} (allowed : others = .forbidden → m.keywordsOf w = [])
      (complete : m.absent w required = [])
      (known : others = .unknown → m.leftOver w (required ++ optional) = []) :
      Judged m w required optional others (.ok ())

lemma absent_eq_nil_iff : m.absent w required = [] ↔ ∀ name ∈ required, m.IsPassed w name := by
  simp [absent]

lemma keywordHash?_eq (inside : w.hasKeywords = true → w.stop ≤ m.thread.stack.size) :
    w.keywordHash? m.thread.stack =
      .ok (if w.hasKeywords ∧ 0 < w.size then m.thread.stack[w.stop - 1]?.bind Value.cell?
        else none) := by
  rw [Window.keywordHash?]
  split
  · rename_i flagged
    rw [Window.last?]
    split
    · rename_i empty
      rw [if_neg (by omega)]
      rfl
    · rename_i some_left
      have bound := inside flagged
      rw [Window.stop] at bound ⊢
      have last : w.start + (w.size - 1) = w.start + w.size - 1 := by omega
      rw [if_pos ⟨flagged, by omega⟩, Window.get, if_pos (by omega), Window.element, last,
        Array.getElem?_eq_getElem (by omega)]
      rfl
  · rename_i plain
    rw [if_neg fun both => plain both.1]

lemma run_keywords (inside : w.hasKeywords = true → w.stop ≤ m.thread.stack.size) :
    (VM.keywords w).run m = (.ok (m.keywordsOf w), m) := by
  have entries : ∀ hash, (VM.entriesOf hash : VM σ Entries).run m =
      (.ok (((hash.bind m.object?).bind Object.hash?).getD []), m) := by
    intro hash
    cases hash with
    | none => rfl
    | some a =>
      have found : (VM.object? a).run m = (.ok (m.object? a), m) := rfl
      rw [VM.entriesOf, VM.run_bind_ok found]
      cases here : m.object? a with
      | none => simp [here]
      | some o => cases o <;> simp [here, Object.hash?]
  have hash : (VM.readStack w.keywordHash?).run m = (.ok (if w.hasKeywords ∧ 0 < w.size then
      m.thread.stack[w.stop - 1]?.bind Value.cell? else none), m) := by
    rw [VM.run_readStack, keywordHash?_eq inside]
    rfl
  rw [VM.keywords, VM.run_bind_ok hash, entries, keywordsOf]
  split
  · rfl
  · rfl

/-- A keyword that is asked for by its name is found just if it is passed. -/
lemma run_keyword? (inside : w.hasKeywords = true → w.stop ≤ m.thread.stack.size)
    (name : String) : ∃ found, (VM.keyword? w name).run m = (.ok found, m) ∧
      (found.isSome = true ↔ m.IsPassed w name) := by
  refine ⟨(m.keywordsOf w).named? m.symbolName? name, VM.run_bind_ok (run_keywords inside), ?_⟩
  rw [Entries.named?, Option.isSome_map, List.find?_isSome]
  simp [IsPassed]

lemma except_eq_leftOver (listed : List String) :
    (m.keywordsOf w).except m.symbolName? listed = m.leftOver w listed := by
  refine List.filter_congr fun e _ => ?_
  rw [Bool.eq_iff_iff, decide_eq_true_iff]
  simp [Entries.isListed, IsUnlisted]

/-- The first of the possible faults, as the entries show it. -/
lemma fault?_eq (others : OtherKeywords) :
    (m.keywordsOf w).fault? m.symbolName? required optional others =
      if others = .forbidden ∧ m.keywordsOf w ≠ [] then some .forbidden
      else if m.absent w required ≠ [] then some (.missing (m.absent w required))
      else if others = .unknown ∧ m.leftOver w (required ++ optional) ≠ [] then
        some (.unknown (m.leftOver w (required ++ optional)).keys)
      else none := by
  have missing : (required.filter fun name =>
      !(m.keywordsOf w).any fun e => m.symbolName? e.1 == some name) = m.absent w required := by
    refine List.filter_congr fun name _ => ?_
    rw [Bool.eq_iff_iff, decide_eq_true_iff]
    simp [IsPassed]
  have keys : (m.leftOver w (required ++ optional)).keys ≠ [] ↔
      m.leftOver w (required ++ optional) ≠ [] := not_congr List.map_eq_nil_iff
  rw [Entries.fault?, missing, except_eq_leftOver]
  simp only [keys]

/-- Values are shown one after the other, up to the first that has no text. -/
lemma run_inspects (sound : m.world.heap.Sound) (es : Entries) :
    (∃ texts, (es.keys.mapM VM.inspect : VM σ (List String)).run m = (.ok texts, m) ∧
      List.Forall₂ (fun e text => m.inspect? e.1 = some text) es texts) ∨
    (∃ e ∈ es, IsEndless m.object? e.1) ∧
      (es.keys.mapM VM.inspect : VM σ (List String)).run m = (.error .exhausted, m) := by
  induction es with
  | nil => exact .inl ⟨[], rfl, .nil⟩
  | cons e es ih =>
    rw [Entries.keys, List.map_cons, List.mapM_cons]
    cases shown : m.inspect? e.1 with
    | none =>
      have halted : (VM.inspect e.1 : VM σ String).run m = (.error .exhausted, m) := by
        change (VM.orExhausted (m.inspect? e.1)).run m = _
        rw [shown]
        rfl
      have endless := isEndless_of_inspect? sound shown
      exact .inr ⟨⟨e, List.mem_cons_self, endless⟩, VM.run_bind_error halted⟩
    | some text =>
      have done : (VM.inspect e.1 : VM σ String).run m = (.ok text, m) := by
        change (VM.orExhausted (m.inspect? e.1)).run m = _
        rw [shown]
        rfl
      rw [VM.run_bind_ok done]
      rcases ih with ⟨texts, rest, all⟩ | ⟨⟨e', mem, endless⟩, rest⟩
      · exact .inl ⟨text :: texts, VM.run_bind_ok rest, .cons shown all⟩
      · exact .inr ⟨⟨e', List.mem_cons_of_mem _ mem, endless⟩, VM.run_bind_error rest⟩

/-- A check changes nothing, and its outcome is what the entries deserve. -/
lemma run_checkKeywords (sound : m.world.heap.Sound)
    (inside : w.hasKeywords = true → w.stop ≤ m.thread.stack.size)
    (required optional : List String) (others : OtherKeywords) :
    ∃ r, (VM.checkKeywords w required optional others).run m = (r, m) ∧
      m.Judged w required optional others r := by
  rw [VM.checkKeywords, VM.run_bind_ok (run_keywords inside), VM.run_bind_ok (VM.run_read _ m),
    fault?_eq]
  by_cases refused : others = .forbidden ∧ m.keywordsOf w ≠ []
  · obtain ⟨rfl, some_passed⟩ := refused
    rw [if_pos ⟨rfl, some_passed⟩]
    exact ⟨_, rfl, .refused some_passed⟩
  rw [if_neg refused]
  have allowed : others = .forbidden → m.keywordsOf w = [] := by
    intro forbids
    by_contra some_passed
    exact refused ⟨forbids, some_passed⟩
  by_cases complete : m.absent w required = []
  swap
  · rw [if_pos complete]
    exact ⟨_, rfl, .missing allowed complete⟩
  rw [if_neg (not_not.mpr complete)]
  by_cases unknown : others = .unknown ∧ m.leftOver w (required ++ optional) ≠ []
  · obtain ⟨rfl, left⟩ := unknown
    rw [if_pos ⟨rfl, left⟩]
    dsimp only
    rcases run_inspects sound (m.leftOver w (required ++ optional)) with
      ⟨texts, shows, shown⟩ | ⟨⟨e, mem, endless⟩, halts⟩
    · exact ⟨_, VM.run_bind_ok shows, .unknown complete left shown⟩
    · exact ⟨_, VM.run_bind_error halts, .endless complete mem endless⟩
  · rw [if_neg unknown]
    refine ⟨_, rfl, .passed allowed complete fun asks => ?_⟩
    by_contra left
    exact unknown ⟨asks, left⟩

/-- When a check succeeds. -/
lemma Judged.ok_iff {others : OtherKeywords} {r : Except Halt Unit}
    (judged : m.Judged w required optional others r) :
    r = .ok () ↔ (others = .forbidden → m.keywordsOf w = []) ∧ m.absent w required = [] ∧
      (others = .unknown → m.leftOver w (required ++ optional) = []) := by
  cases judged with
  | refused some_passed => exact ⟨nofun, fun holds => absurd (holds.1 rfl) some_passed⟩
  | missing allowed incomplete => exact ⟨nofun, fun holds => absurd holds.2.1 incomplete⟩
  | unknown complete left shown => exact ⟨nofun, fun holds => absurd (holds.2.2 rfl) left⟩
  | endless complete left endless =>
    exact ⟨nofun, fun holds => absurd (holds.2.2 rfl) (List.ne_nil_of_mem left)⟩
  | passed allowed complete known => exact ⟨fun _ => ⟨allowed, complete, known⟩, fun _ => rfl⟩

/-- All errors of a check are of one kind. -/
lemma Judged.kind {others : OtherKeywords} {r : Except Halt Unit} {e : CallError}
    (judged : m.Judged w required optional others r) (failed : r = .error (.error e)) :
    e.kind = .argument := by
  cases judged with
  | passed => cases failed
  | endless => cases failed
  | _ =>
    obtain rfl := Halt.error.inj (Except.error.inj failed)
    rfl

/-- A new hash of the entries that are left over, and nothing else has changed for the thread. -/
structure SetAside (m : Machine σ) (w : Window) (listed : List String) (a : Address)
    (m' : Machine σ) : Prop where
  rest : m'.object? a = some (.hash (m.leftOver w listed))
  thread : m'.thread = m.thread
  waiting : m'.waiting = m.waiting
  host : m'.host = m.host
  /-- What the stack refers to is what it was, the hash of the window too. -/
  pushed : ∀ x, .ref x ∈ m.thread.stack → (m.object? x).isSome →
    x ≠ a ∧ m'.object? x = m.object? x

/-- A machine that is got into has different keys in each hash. -/
lemma Reached.nodup_keysOf (reached : m.Reached) (w : Window) : (m.keywordsOf w).keys.Nodup := by
  rw [keywordsOf]
  split
  · cases found : ((m.thread.stack[w.stop - 1]?.bind Value.cell?).bind m.object?).bind
        Object.hash? with
    | none => exact List.nodup_nil
    | some es =>
      obtain ⟨o, there, hash⟩ := Option.bind_eq_some_iff.mp found
      obtain ⟨a, _, here⟩ := Option.bind_eq_some_iff.mp there
      cases o with
      | hash entries =>
        obtain ⟨ps, rfl⟩ := reached.formed here
        obtain rfl := Option.some.inj hash
        exact Entries.nodup_keys_ofList ps
      | _ => cases hash
  · exact List.nodup_nil

/-- A new hash fits if any hash does. -/
lemma exists_classOf_hash {h : Heap Object} (fits : ∃ c, h.classOf (.hash []) = .ok c)
    (es : Entries) : ∃ c, h.classOf (.hash es) = .ok c := by
  have same : (Object.hash es).size ≤ (Object.hash []).size := le_rfl
  exact Heap.exists_classOf_of_le same fits

lemma run_otherKeywords (reached : m.Reached) (fits : ∃ c, m.world.heap.classOf (.hash []) = .ok c)
    (inside : w.hasKeywords = true → w.stop ≤ m.thread.stack.size) (listed : List String) :
    ∃ a m', (VM.otherKeywords w listed).run m = (.ok a, m') ∧ m.SetAside w listed a m' := by
  obtain ⟨extra, orderly⟩ := reached.orderly
  have distinct : (m.leftOver w listed).keys.Nodup :=
    (reached.nodup_keysOf w).sublist (List.filter_sublist.map _)
  obtain ⟨a, m', ran, allocates⟩ := allocates orderly.sound
    (exists_classOf_hash fits (m.leftOver w listed))
  refine ⟨a, m', ?_, object?_of_payload? allocates.here, allocates.thread, allocates.waiting,
    allocates.host, fun x pushed here => (allocates.holds (holds_of_mem_stack pushed here)).2⟩
  rw [VM.otherKeywords, VM.run_bind_ok (run_keywords inside), VM.run_bind_ok (VM.run_read _ m),
    except_eq_leftOver, Entries.ofList_of_nodup distinct]
  exact ran

/-- The keyword is found by its name. -/
def HasKeyword (m : Machine σ) (w : Window) (name : String) : Prop :=
  ∃ v, (VM.keyword? w name).run m = (.ok (some v), m)

/-- Asking, taking out and checking see the same keywords. -/
structure KeywordsAgree (m : Machine σ) (w : Window) : Prop where
  asked : ∀ name, ∃ found, (VM.keyword? w name).run m = (.ok found, m) ∧
    (found.isSome = true ↔ m.IsPassed w name)
  setAside : ∀ listed, ∃ a m', (VM.otherKeywords w listed).run m = (.ok a, m') ∧
    m.SetAside w listed a m'
  checked : ∀ required optional others, ∃ r,
    (VM.checkKeywords w required optional others).run m = (r, m) ∧
      m.Judged w required optional others r ∧
      ∀ e, r = .error (.error e) → e.kind = .argument
  /-- A check that allows no other keywords succeeds if the required ones are found and nothing
  is left to be taken out. -/
  unknown : ∀ required optional,
    (VM.checkKeywords w required optional .unknown).run m = (.ok (), m) ↔
      (∀ name ∈ required, m.HasKeyword w name) ∧
      ∃ a m', (VM.otherKeywords w (required ++ optional)).run m = (.ok a, m') ∧
        m'.object? a = some (.hash [])
  collected : ∀ required optional,
    (VM.checkKeywords w required optional .collected).run m = (.ok (), m) ↔
      ∀ name ∈ required, m.HasKeyword w name
  forbidden : ∀ required optional,
    (VM.checkKeywords w required optional .forbidden).run m = (.ok (), m) ↔
      m.keywordsOf w = [] ∧ required = []

/-- In all machines that are got into, the check of a window's keywords agrees with what is
found by name and with what is taken out. -/
theorem keywords_agree (reached : m.Reached) (fits : ∃ c, m.world.heap.classOf (.hash []) = .ok c)
    (inside : w.hasKeywords = true → w.stop ≤ m.thread.stack.size) : m.KeywordsAgree w := by
  obtain ⟨extra, orderly⟩ := reached.orderly
  have checked := run_checkKeywords (w := w) orderly.sound inside
  have asked := run_keyword? (w := w) inside
  have setAside := run_otherKeywords (w := w) reached fits inside
  have found : ∀ name, m.HasKeyword w name ↔ m.IsPassed w name := by
    intro name
    obtain ⟨found, ran, iff⟩ := asked name
    rw [HasKeyword, ran, ← iff, Option.isSome_iff_exists]
    simp
  have complete : ∀ required, m.absent w required = [] ↔ ∀ name ∈ required, m.HasKeyword w name := by
    intro required
    rw [absent_eq_nil_iff]
    exact forall₂_congr fun name _ => (found name).symm
  have succeeds : ∀ required optional others,
      (VM.checkKeywords w required optional others).run m = (.ok (), m) ↔
        (others = .forbidden → m.keywordsOf w = []) ∧
        (∀ name ∈ required, m.HasKeyword w name) ∧
        (others = .unknown → m.leftOver w (required ++ optional) = []) := by
    intro required optional others
    obtain ⟨r, ran, judged⟩ := checked required optional others
    rw [ran, ← complete, ← judged.ok_iff]
    simp
  constructor
  · exact asked
  · exact setAside
  · intro required optional others
    obtain ⟨r, ran, judged⟩ := checked required optional others
    exact ⟨r, ran, judged, fun e => judged.kind⟩
  · intro required optional
    obtain ⟨a, m', ran, aside⟩ := setAside (required ++ optional)
    have empty : (∃ a m', (VM.otherKeywords w (required ++ optional)).run m = (.ok a, m') ∧
        m'.object? a = some (.hash [])) ↔ m.leftOver w (required ++ optional) = [] := by
      rw [ran]
      simp [aside.rest]
    rw [succeeds, empty]
    simp
  · intro required optional
    rw [succeeds]
    simp
  · intro required optional
    rw [succeeds]
    constructor
    · rintro ⟨none_passed, all, _⟩
      have empty := none_passed rfl
      refine ⟨empty, List.eq_nil_iff_forall_not_mem.mpr fun name mem => ?_⟩
      obtain ⟨e, inside, _⟩ := (found name).mp (all name mem)
      rw [empty] at inside
      cases inside
    · rintro ⟨empty, rfl⟩
      exact ⟨fun _ => empty, fun name mem => absurd mem List.not_mem_nil, nofun⟩

def ringCell : Address :=
  ((Client.raceWorld.place [] (.array #[.smallInt 1])).1.toOption).getD default

/-- A new world with an array of one and of the array itself. -/
def ringWorld : World :=
  (Client.raceWorld.place [] (.array #[.smallInt 1])).2.modifyObject ringCell
    (Edit.push (.ref ringCell)).apply

def ringEntries : Entries := Entries.ofList [(.ref ringCell, .smallInt 1)]

def ringHash : Address := ((ringWorld.place [] (.hash ringEntries)).1.toOption).getD default

def ringHashWorld : World := (ringWorld.place [] (.hash ringEntries)).2

/-- A hash with that array for a key has been pushed as keywords. -/
def ringPushed : Machine Unit := standing ringHashWorld #[.ref ringHash] ()

lemma arises_ringHashWorld : ringHashWorld.Arises [] := by
  have new : Client.raceWorld.Arises [] := .create (eq_ok_get Client.made_raceSettings)
  have ring : ringWorld.Arises [] :=
    (new.change (.place [] (.of_hash? rfl))).change (.modify ringCell (Object.gentle_edit _))
  have formed : (Object.hash ringEntries).Formed := by
    rintro es same
    exact ⟨[(.ref ringCell, .smallInt 1)], (Object.hash.inj same).symm⟩
  have placed := ring.change (.place [] formed)
  rwa [ringHashWorld]

/-- The key is left over, but the check has no text to name it by. -/
theorem keywords_agree_ring : ringPushed.Reached ∧
    (∃ c, ringPushed.world.heap.classOf (.hash []) = .ok c) ∧
    (Window.fresh 0 1 true).stop ≤ ringPushed.thread.stack.size ∧
    ringPushed.KeywordsAgree (.fresh 0 1 true) ∧
    ringPushed.leftOver (.fresh 0 1 true) [] = [(.ref ringCell, .smallInt 1)] ∧
    ((VM.checkKeywords (.fresh 0 1 true) [] [] .unknown).run ringPushed).1 = .error .exhausted := by
  have reached : ringPushed.Reached := reached_standing arises_ringHashWorld _ _
  have fits : ∃ c, ringPushed.world.heap.classOf (.hash []) = .ok c := ⟨0, by decide +kernel⟩
  refine ⟨reached, fits, le_rfl, keywords_agree reached fits fun _ => le_rfl, ?_, ?_⟩
  · decide +kernel
  · decide +kernel

end Machine

end CellMachine
