import CellMachine.Machine.Inspect
import CellMachine.Proofs.Heap.Residents
import CellMachine.Proofs.Machine.Allocation

/-!
# Which values have a text

An array or a hash is shown with the texts of what it holds, and nothing looks out for an object
that is being shown already. So a value has a text just if none of what it holds, directly or
through other arrays and hashes, is missing or holds itself. The fuel does not matter for this: no
chain of objects without a repetition is longer than there are cells, so that a value that has no
text with the fuel for all cells has none with any fuel.
-/

namespace CellMachine

open Relation (ReflTransGen TransGen)

namespace Object

/-- The values whose texts an object is shown with. -/
def shownParts : Object → List Value
  | array items => items.toList
  | hash entries => entries.flatMap fun e => [e.1, e.2]
  | _ => []

end Object

section Descent

variable (object? : Address → Option Object)

/-- The values that the text of a value is made of. -/
def partsOf : Value → List Value
  | .ref a => ((object? a).map Object.shownParts).getD []
  | _ => []

/-- A reference to no object. -/
def IsMissing (v : Value) : Prop := ∃ a, v = .ref a ∧ object? a = none

/-- The second value is among what the first one is shown with. -/
def Shows (v u : Value) : Prop := u ∈ partsOf object? v

/-- Showing the value leads to a missing object, or to one that shows itself. -/
def IsEndless (v : Value) : Prop :=
  ∃ u, ReflTransGen (Shows object?) v u ∧ (IsMissing object? u ∨ TransGen (Shows object?) u u)

end Descent

variable {object? : Address → Option Object} {v u : Value} {fuel : Nat}

lemma isSome_mapM {α β : Type} (f : α → Option β) (l : List α) :
    (l.mapM f).isSome ↔ ∀ a ∈ l, (f a).isSome := by
  induction l with
  | nil => simp
  | cons a l ih =>
    rw [List.forall_mem_cons, ← ih, List.mapM_cons]
    cases f a <;> cases l.mapM f <;> simp

lemma inspectWith_array {a : Address} {items : Array Value} (here : object? a = some (.array items)) :
    inspectWith object? (fuel + 1) (.ref a) =
      (items.toList.mapM (inspectWith object? fuel)).map (bracketed "[" "]") := by
  rw [inspectWith, here, Option.map_eq_bind]
  rfl

/-- The text of one entry of a hash. -/
def entryText (text : Value → Option String) (e : Value × Value) : Option String :=
  do return (← text e.1) ++ "=>" ++ (← text e.2)

lemma isSome_entryText (text : Value → Option String) (e : Value × Value) :
    (entryText text e).isSome ↔ ∀ u ∈ [e.1, e.2], (text u).isSome := by
  rw [entryText, List.forall_mem_cons, List.forall_mem_singleton]
  cases text e.1 <;> cases text e.2 <;> simp

lemma inspectWith_hash {a : Address} {entries : List (Value × Value)}
    (here : object? a = some (.hash entries)) :
    inspectWith object? (fuel + 1) (.ref a) =
      (entries.mapM (entryText (inspectWith object? fuel))).map (bracketed "\x7b" "\x7d") := by
  rw [inspectWith, here, Option.map_eq_bind]
  rfl

/-- There is a text with one more level of fuel if all parts have one. -/
lemma isSome_inspectWith_succ : (inspectWith object? (fuel + 1) v).isSome ↔
    ¬ IsMissing object? v ∧ ∀ u ∈ partsOf object? v, (inspectWith object? fuel u).isSome := by
  cases v with
  | smallInt n => simp [inspectWith, IsMissing, partsOf]
  | double d => simp [inspectWith, IsMissing, partsOf]
  | ref a =>
    cases here : object? a with
    | none => simp [inspectWith, IsMissing, here]
    | some o =>
      have present : ¬ IsMissing object? (.ref a) := by simp [IsMissing, here]
      have parts : partsOf object? (.ref a) = o.shownParts := by simp [partsOf, here]
      rw [parts]
      cases o with
      | array items =>
        rw [inspectWith_array here, Option.isSome_map, isSome_mapM]
        exact ⟨fun shown => ⟨present, shown⟩, And.right⟩
      | hash entries =>
        rw [inspectWith_hash here, Option.isSome_map, isSome_mapM, Object.shownParts,
          List.forall_mem_flatMap]
        simp only [isSome_entryText]
        exact ⟨fun shown => ⟨present, shown⟩, And.right⟩
      | _ => simp [inspectWith, here, Object.shownParts, present]

lemma mapM_eq_some_of_imp {α β : Type} {f g : α → Option β} {l : List α} {r : List β}
    (imp : ∀ a ∈ l, ∀ b, f a = some b → g a = some b) (same : l.mapM f = some r) :
    l.mapM g = some r := by
  induction l generalizing r with
  | nil => exact same
  | cons a l ih =>
    simp only [List.mapM_cons, Option.bind_eq_bind, Option.bind_eq_some_iff] at same ⊢
    obtain ⟨b, head, rest, tail, last⟩ := same
    exact ⟨b, imp a List.mem_cons_self b head, rest,
      ih (fun a mem => imp a (List.mem_cons_of_mem _ mem)) tail, last⟩

lemma entryText_of_imp {f g : Value → Option String} (imp : ∀ v text, f v = some text →
    g v = some text) (e : Value × Value) (text : String) (shown : entryText f e = some text) :
    entryText g e = some text := by
  simp only [entryText, Option.bind_eq_bind, Option.bind_eq_some_iff] at shown ⊢
  obtain ⟨key, first, value, second, joined⟩ := shown
  exact ⟨key, imp _ _ first, value, imp _ _ second, joined⟩

/-- More fuel changes no text. -/
lemma inspectWith_succ {text : String} (shown : inspectWith object? fuel v = some text) :
    inspectWith object? (fuel + 1) v = some text := by
  induction fuel generalizing v text with
  | zero =>
    cases v with
    | ref a => cases shown
    | _ => exact shown
  | succ fuel ih =>
    cases v with
    | ref a =>
      cases here : object? a with
      | none => simp [inspectWith, here] at shown
      | some o =>
        cases o with
        | array items =>
          rw [inspectWith_array here, Option.map_eq_some_iff] at shown ⊢
          obtain ⟨texts, items_shown, joined⟩ := shown
          exact ⟨texts, mapM_eq_some_of_imp (fun _ _ _ => ih) items_shown, joined⟩
        | hash entries =>
          rw [inspectWith_hash here, Option.map_eq_some_iff] at shown ⊢
          obtain ⟨texts, entries_shown, joined⟩ := shown
          refine ⟨texts, mapM_eq_some_of_imp (fun e _ => ?_) entries_shown, joined⟩
          exact entryText_of_imp (fun _ _ => ih) e
        | _ =>
          rw [← shown]
          simp [inspectWith, here]
    | _ => exact shown

lemma inspectWith_of_le {fuel' : Nat} (enough : fuel ≤ fuel') {text : String}
    (shown : inspectWith object? fuel v = some text) : inspectWith object? fuel' v = some text := by
  induction enough with
  | refl => exact shown
  | step _ ih => exact inspectWith_succ ih

/-- An endless value is missing or has an endless part. -/
lemma IsEndless.missing_or_part (endless : IsEndless object? v) :
    IsMissing object? v ∨ ∃ u ∈ partsOf object? v, IsEndless object? u := by
  obtain ⟨u, leads, ends⟩ := endless
  rcases leads.cases_head with rfl | ⟨w, part, rest⟩
  · rcases ends with missing | turns
    · exact .inl missing
    · obtain ⟨w, part, back⟩ := TransGen.head'_iff.mp turns
      exact .inr ⟨w, part, v, back, .inr turns⟩
  · exact .inr ⟨w, part, u, rest, ends⟩

lemma IsEndless.of_part (part : Shows object? v u) (endless : IsEndless object? u) :
    IsEndless object? v := by
  obtain ⟨w, leads, ends⟩ := endless
  exact ⟨w, .head part leads, ends⟩

/-- No fuel is enough for it. -/
lemma IsEndless.inspectWith_eq_none (endless : IsEndless object? v) (fuel : Nat) :
    inspectWith object? fuel v = none := by
  cases v with
  | ref a =>
    induction fuel generalizing a with
    | zero => rfl
    | succ fuel ih =>
      rw [← Option.not_isSome_iff_eq_none, isSome_inspectWith_succ]
      rintro ⟨present, shown⟩
      obtain ⟨u, part, below⟩ := endless.missing_or_part.resolve_left present
      have some_left := shown u part
      cases u with
      | ref b =>
        rw [ih b below] at some_left
        cases some_left
      | _ =>
        rcases below.missing_or_part with ⟨_, same, _⟩ | ⟨_, inside, _⟩
        · cases same
        · cases inside
  | _ =>
    rcases endless.missing_or_part with ⟨_, same, _⟩ | ⟨_, inside, _⟩
    · cases same
    · cases inside

/-- Where the fuel runs out there is a chain of objects as long as the fuel. -/
lemma exists_chain (runs_out : inspectWith object? fuel v = none) :
    IsEndless object? v ∨ ∃ chain : List Address, chain.length = fuel ∧
      (∀ a ∈ chain, (object? a).isSome ∧ ReflTransGen (Shows object?) v (.ref a)) ∧
      chain.Pairwise fun a b => TransGen (Shows object?) (.ref a) (.ref b) := by
  induction fuel generalizing v with
  | zero => exact .inr ⟨[], rfl, by simp, .nil⟩
  | succ fuel ih =>
    have stuck : ¬ (inspectWith object? (fuel + 1) v).isSome := by simp [runs_out]
    rw [isSome_inspectWith_succ] at stuck
    by_cases missing : IsMissing object? v
    · exact .inl ⟨v, .refl, .inl missing⟩
    simp only [missing, not_false_eq_true, true_and, not_forall, Option.not_isSome_iff_eq_none]
      at stuck
    obtain ⟨u, part, none_left⟩ := stuck
    rcases ih none_left with endless | ⟨chain, length, onWay, ordered⟩
    · exact .inl (endless.of_part part)
    · cases v with
      | ref a =>
        refine .inr ⟨a :: chain, congrArg (· + 1) length, ?_, ?_⟩
        · refine List.forall_mem_cons.mpr ⟨⟨?_, .refl⟩, fun b mem => ?_⟩
          · rw [Option.isSome_iff_ne_none]
            exact fun nothing => missing ⟨a, rfl, nothing⟩
          · exact ⟨(onWay b mem).1, .head part (onWay b mem).2⟩
        · exact List.pairwise_cons.mpr ⟨fun b mem => .head' part (onWay b mem).2, ordered⟩
      | _ => cases part

/-- A value without a text is endless if there is more fuel than there are objects. -/
lemma isEndless_of_eq_none {known : List Address} (complete : ∀ a, (object? a).isSome → a ∈ known)
    (enough : known.length < fuel) (runs_out : inspectWith object? fuel v = none) :
    IsEndless object? v := by
  rcases exists_chain runs_out with endless | ⟨chain, length, onWay, ordered⟩
  · exact endless
  by_contra ends
  have distinct : chain.Nodup := by
    refine ordered.imp_of_mem fun {a b} mem _ later same => ?_
    subst same
    exact ends ⟨.ref a, (onWay a mem).2, .inr later⟩
  have few := (distinct.subperm fun a mem => complete a (onWay a mem).1).length_le
  omega

namespace Machine

variable {σ : Type} {m : Machine σ}

/-- What lives on the heap or on the thread's stack. -/
def known (m : Machine σ) : List Address :=
  m.world.heap.residents ++ (List.range m.thread.transients.size).map .stack

lemma mem_known (sound : m.world.heap.Sound) {a : Address} (here : (m.object? a).isSome) :
    a ∈ m.known := by
  rw [object?, Option.isSome_map] at here
  cases a with
  | memory word =>
    refine List.mem_append_left _ (sound.mem_residents.mpr ?_)
    obtain ⟨c, there⟩ := Option.isSome_iff_exists.mp here
    obtain ⟨s, spot, _⟩ := Option.bind_eq_some_iff.mp there
    rw [Heap.isLive, spot]
    rfl
  | stack n =>
    refine List.mem_append_right _ (List.mem_map.mpr ⟨n, List.mem_range.mpr ?_, rfl⟩)
    obtain ⟨c, there⟩ := Option.isSome_iff_exists.mp here
    exact (Array.getElem?_eq_some_iff.mp there).1

lemma length_known (sound : m.world.heap.Sound) :
    m.known.length = m.world.heap.liveCells + m.thread.transients.size := by
  rw [known, List.length_append, sound.length_residents, List.length_map, List.length_range]

lemma isEndless_of_inspect? (sound : m.world.heap.Sound) {v : Value} (nothing : m.inspect? v = none) :
    IsEndless m.object? v :=
  isEndless_of_eq_none (fun _ => mem_known sound) (by rw [length_known sound]; omega) nothing

/-- A text that any fuel gives is the text of the value. -/
lemma inspect?_of_inspectWith (sound : m.world.heap.Sound) {v : Value} {fuel : Nat} {text : String}
    (shown : inspectWith m.object? fuel v = some text) : m.inspect? v = some text := by
  cases here : m.inspect? v with
  | none =>
    rw [(isEndless_of_inspect? sound here).inspectWith_eq_none] at shown
    cases shown
  | some other =>
    -- both texts are the one that the larger fuel gives
    have own := inspectWith_of_le (Nat.le_max_right fuel _) here
    exact own.symm.trans (inspectWith_of_le (Nat.le_max_left fuel _) shown)

/-- A value has a text just if showing it comes to an end, and the text does not depend on how
deep the recursion may go. -/
structure InspectsExactly (m : Machine σ) (v : Value) : Prop where
  ends : (m.inspect? v).isSome ↔ ¬ IsEndless m.object? v
  unlimited : ∀ text, m.inspect? v = some text ↔ ∃ fuel, inspectWith m.object? fuel v = some text

/-- Values that neither lead to themselves nor to a missing object are shown, and no others. -/
theorem inspectsExactly (sound : m.world.heap.Sound) (v : Value) : m.InspectsExactly v := by
  constructor
  · constructor
    · intro shown endless
      rw [inspect?, endless.inspectWith_eq_none] at shown
      cases shown
    · intro ends
      exact Option.isSome_iff_ne_none.mpr fun nothing => ends (isEndless_of_inspect? sound nothing)
  · exact fun text => ⟨fun shown => ⟨_, shown⟩, fun ⟨_, shown⟩ => inspect?_of_inspectWith sound shown⟩

/-- A heap with one array, whose items are a number and the array. -/
def selfHeld : Heap Object :=
  let h := ((Heap.oneClass : Heap Object).allocateIn 0 (.array #[.smallInt 1])).2
  let s : Spot := ⟨0, ⟨0, 0⟩⟩
  let own := h.addressOf s
  h.modifyAt s fun c => { c with payload := c.payload.push (.ref own) }

lemma reachable_selfHeld : selfHeld.Reachable :=
  (Heap.reachable_oneClass.step (.mutation (.claim _ (by decide)))).step
    (.mutation (.touch (.edit _ _ _)))

/-- Where the array lives. -/
def selfHeldCell : Address := selfHeld.addressOf ⟨0, ⟨0, 0⟩⟩

def selfHolding : Machine Unit where
  world := { signalled.world with heap := selfHeld }
  thread := .start ⟨0⟩ "main"
  waiting := []
  host := ()

/-- The array has no text, however deep the recursion may go. -/
theorem inspectsExactly_selfHolding : selfHolding.world.heap.Sound ∧
    selfHolding.InspectsExactly (.ref selfHeldCell) ∧
    ∀ fuel, inspectWith selfHolding.object? fuel (.ref selfHeldCell) = none := by
  have sound := reachable_selfHeld.sound
  have exact_ := inspectsExactly (m := selfHolding) sound (.ref selfHeldCell)
  have shows : Shows selfHolding.object? (.ref selfHeldCell) (.ref selfHeldCell) := by
    rw [Shows]
    decide +kernel
  have endless : IsEndless selfHolding.object? (.ref selfHeldCell) :=
    ⟨_, .refl, .inr (.single shows)⟩
  refine ⟨sound, exact_, fun fuel => ?_⟩
  cases here : inspectWith selfHolding.object? fuel (.ref selfHeldCell) with
  | none => rfl
  | some text =>
    have shown := (exact_.unlimited text).mpr ⟨fuel, here⟩
    exact absurd endless (exact_.ends.mp (shown ▸ rfl))

end Machine

end CellMachine
