import CellMachine.Proofs.Machine.StackDiscipline

/-!
# The list that a window stands for

What a window stands for is plain data: a list of positional values and perhaps a keyword
hash. On such data every operation has an obvious meaning. A window that holds some data is
read as they are, and every taking answers as they do and leaves what they leave.
-/

namespace CellMachine

/-- The arguments of a call, as the call sees them. -/
structure Arguments where
  positional : List Value
  keywords : Option Address
deriving DecidableEq, Repr

namespace Arguments

/-- All values, the keyword hash last. -/
def all (a : Arguments) : List Value := a.positional ++ (a.keywords.map Value.ref).toList

/-- All values, with or without the keyword hash. -/
def seen (a : Arguments) (withKeywords : Bool) : List Value :=
  if withKeywords then a.all else a.positional

def shift (withKeywords : Bool) (a : Arguments) : Except Fault Value × Arguments :=
  match a.positional, a.keywords with
  | v :: rest, _ => (.ok v, { a with positional := rest })
  | [], some hash =>
    if withKeywords then (.ok (.ref hash), ⟨[], none⟩) else (.error .exhaustedShift, a)
  | [], none => (.error .exhaustedShift, a)

def popPositional (a : Arguments) : Except Fault Value × Arguments :=
  match a.positional.getLast? with
  | some v => (.ok v, { a with positional := a.positional.dropLast })
  | none => (.error .exhaustedPop, a)

def pop (withKeywords : Bool) (a : Arguments) : Except Fault Value × Arguments :=
  match a.keywords with
  | some hash =>
    if withKeywords then (.ok (.ref hash), { a with keywords := none }) else a.popPositional
  | none => a.popPositional

def popKeywords (a : Arguments) : Arguments := { a with keywords := none }

def popEmptyKeywords (isEmptyHash : Address → Bool) (a : Arguments) : Arguments :=
  { a with keywords := a.keywords.filter fun hash => !isEmptyHash hash }

def take (a : Arguments) : Taking → Except Fault (Option Value) × Arguments
  | .shift withKeywords => (a.shift withKeywords).map (fun r => r.map some) id
  | .pop withKeywords => (a.pop withKeywords).map (fun r => r.map some) id
  | .popKeywords => (.ok (a.keywords.map Value.ref), a.popKeywords)
  | .popEmptyKeywords isEmptyHash => (.ok none, a.popEmptyKeywords isEmptyHash)

end Arguments

namespace Window

variable {w : Window} {stack stack' : Array Value} {a : Arguments}

/-- The window holds these arguments, in order and at its place of the stack. -/
structure Holds (w : Window) (stack : Array Value) (a : Arguments) : Prop where
  size : w.size = a.all.length
  inside : w.stop ≤ stack.size
  value : ∀ i v, a.all[i]? = some v → stack[w.start + i]? = some v
  flag : w.hasKeywords = a.keywords.isSome

/-- What lies outside of the window does not matter to it. -/
lemma Holds.congr (holds : w.Holds stack a) (inside : w.stop ≤ stack'.size)
    (same : ∀ k, w.start ≤ k → k < w.stop → stack'[k]? = stack[k]?) : w.Holds stack' a := by
  refine ⟨holds.size, inside, fun i v here => ?_, holds.flag⟩
  have bound : i < w.size := by
    rw [holds.size]
    exact (List.getElem?_eq_some_iff.mp here).1
  rw [same _ (Nat.le_add_right _ _) (by simp only [stop]; omega)]
  exact holds.value i v here

lemma Holds.length_positional (holds : w.Holds stack a) :
    a.positional.length + (if w.hasKeywords then 1 else 0) = w.size := by
  rw [holds.size, holds.flag, Arguments.all, List.length_append]
  cases a.keywords <;> rfl

lemma Holds.count_eq (holds : w.Holds stack a) (withKeywords : Bool) :
    w.count withKeywords = (a.seen withKeywords).length := by
  have positional := holds.length_positional
  cases flag : w.hasKeywords with
  | false =>
    rw [flag] at positional
    cases withKeywords with
    | false => rw [count, flag]; exact positional.symm
    | true => rw [count, flag]; exact holds.size
  | true =>
    rw [flag] at positional
    cases withKeywords with
    | false => rw [count, flag]; exact Nat.sub_eq_of_eq_add positional.symm
    | true => rw [count, flag]; exact holds.size

lemma element_of_getElem? {i : Nat} {v : Value} (here : stack[i]? = some v) :
    element stack i = .ok v := by
  rw [element, here]

lemma Holds.element (holds : w.Holds stack a) {i : Nat} {v : Value} (here : a.all[i]? = some v) :
    element stack (w.start + i) = .ok v :=
  element_of_getElem? (holds.value i v here)

/-- Values that stand in a row on the stack are read as a slice. -/
lemma slice_of_getElem? {first : Nat} {l : List Value} (inside : first + l.length ≤ stack.size)
    (here : ∀ i v, l[i]? = some v → stack[first + i]? = some v) :
    slice stack first (first + l.length) = .ok l := by
  rw [slice, if_pos ⟨Nat.le_add_right _ _, inside⟩]
  congr 1
  apply List.ext_getElem?
  intro i
  rw [Array.getElem?_toList, Array.getElem?_extract]
  cases found : l[i]? with
  | none =>
    have past := List.getElem?_eq_none_iff.mp found
    rw [if_neg (by omega)]
  | some v =>
    have bound := (List.getElem?_eq_some_iff.mp found).1
    rw [if_pos (by omega)]
    exact here i v found

lemma seen_getElem? {withKeywords : Bool} {i : Nat} {v : Value}
    (here : (a.seen withKeywords)[i]? = some v) : a.all[i]? = some v := by
  cases withKeywords with
  | true => exact here
  | false =>
    have bound : i < a.positional.length := (List.getElem?_eq_some_iff.mp here).1
    rw [Arguments.all, List.getElem?_append_left bound]
    exact here

lemma Holds.length_seen_le (holds : w.Holds stack a) (withKeywords : Bool) :
    (a.seen withKeywords).length ≤ w.size := by
  rw [← holds.count_eq]
  exact w.count_le_size withKeywords

/-- Every reader of the window answers as its list does. -/
structure ReadsAs (w : Window) (stack : Array Value) (a : Arguments) : Prop where
  count : ∀ withKeywords, w.count withKeywords = (a.seen withKeywords).length
  isEmpty : w.isEmpty = a.all.isEmpty
  hasKeywords : w.hasKeywords = a.keywords.isSome
  get : ∀ i, w.get i stack =
    match a.all[i]? with
    | some v => .ok v
    | none => .error (.indexOutside i a.all.length)
  required : ∀ i, w.required i stack =
    match a.all[i]? with
    | some v => .ok (.ok v)
    | none => .ok (.error (.wrongCount a.all.length (.atLeast (i + 1)) []))
  getD : ∀ i default, w.getD i default stack = .ok (a.all[i]?.getD default)
  positional : ∀ i, w.positional? i stack = .ok a.positional[i]?
  first : w.first? stack = .ok a.all.head?
  last : w.last? stack = .ok a.all.getLast?
  values : ∀ withKeywords, w.values withKeywords stack = .ok (a.seen withKeywords)
  keywordHash : w.keywordHash? stack = .ok a.keywords

lemma Holds.get_eq (holds : w.Holds stack a) {i : Nat} {v : Value} (here : a.all[i]? = some v) :
    w.get i stack = .ok v := by
  rw [get, if_pos (holds.size ▸ (List.getElem?_eq_some_iff.mp here).1)]
  exact holds.element here

lemma Holds.past (holds : w.Holds stack a) {i : Nat} (outside : a.all[i]? = none) :
    ¬ i < w.size := by
  rw [holds.size]
  exact Nat.not_lt.mpr (List.getElem?_eq_none_iff.mp outside)

lemma Holds.bound (holds : w.Holds stack a) {i : Nat} {v : Value} (here : a.all[i]? = some v) :
    i < w.size := by
  rw [holds.size]
  exact (List.getElem?_eq_some_iff.mp here).1

lemma Holds.last?_eq (holds : w.Holds stack a) : w.last? stack = .ok a.all.getLast? := by
  rw [last?]
  split
  · rename_i empty
    rw [holds.size, List.length_eq_zero_iff] at empty
    rw [empty]
    rfl
  · rename_i nonempty
    rw [holds.size, List.length_eq_zero_iff] at nonempty
    have here := List.getLast?_eq_some_getLast nonempty
    rw [List.getLast?_eq_getElem?, ← holds.size] at here
    rw [holds.get_eq here, List.getLast?_eq_some_getLast nonempty]
    rfl

lemma getLast?_all_of_keywords {hash : Address} (keywords : a.keywords = some hash) :
    a.all.getLast? = some (.ref hash) := by
  simp [Arguments.all, keywords]

lemma Holds.keywordHash?_eq (holds : w.Holds stack a) : w.keywordHash? stack = .ok a.keywords := by
  rw [keywordHash?, holds.flag, holds.last?_eq]
  cases keywords : a.keywords with
  | none => rfl
  | some hash =>
    rw [getLast?_all_of_keywords keywords]
    rfl

lemma Holds.readsAs (holds : w.Holds stack a) : w.ReadsAs stack a := by
  constructor
  · exact holds.count_eq
  · rw [Window.isEmpty, holds.size]
    cases a.all <;> rfl
  · exact holds.flag
  · intro i
    cases here : a.all[i]? with
    | some v => exact holds.get_eq here
    | none => rw [Window.get, if_neg (holds.past here), holds.size]
  · intro i
    cases here : a.all[i]? with
    | some v =>
      rw [Window.required, if_pos (holds.bound here), holds.get_eq here]
      rfl
    | none => rw [Window.required, if_neg (holds.past here), missing, holds.size]
  · intro i default
    cases here : a.all[i]? with
    | some v =>
      rw [Window.getD, if_pos (holds.bound here), holds.get_eq here]
      rfl
    | none =>
      rw [Window.getD, if_neg (holds.past here)]
      rfl
  · intro i
    have length : w.count false = a.positional.length := holds.count_eq false
    rw [positional?, length]
    split
    · rename_i inside
      have here : (a.seen false)[i]? = some a.positional[i] := List.getElem?_eq_getElem inside
      rw [holds.get_eq (seen_getElem? here), List.getElem?_eq_getElem inside]
      rfl
    · rename_i outside
      rw [List.getElem?_eq_none (Nat.le_of_not_lt outside)]
  · rw [first?]
    split
    · rename_i empty
      rw [holds.size, List.length_eq_zero_iff] at empty
      rw [empty]
      rfl
    · rename_i nonempty
      rw [holds.size, List.length_eq_zero_iff] at nonempty
      obtain ⟨v, rest, all⟩ := List.exists_cons_of_ne_nil nonempty
      rw [holds.get_eq (show a.all[0]? = some v by rw [all]; rfl), all]
      rfl
  · exact holds.last?_eq
  · intro withKeywords
    have length := holds.length_seen_le withKeywords
    have inside := holds.inside
    rw [Window.values, holds.count_eq]
    refine slice_of_getElem? ?_ fun i v here => holds.value i v (seen_getElem? here)
    simp only [stop] at inside
    omega
  · exact holds.keywordHash?_eq

/-- The hash stays flagged as long as a value is left. -/
lemma Holds.narrowFront (holds : w.Holds stack a) {b : Arguments} {v : Value}
    (all : a.all = v :: b.all) (flag : b.keywords.isSome = (a.keywords.isSome && !b.all.isEmpty)) :
    w.narrowFront.Holds stack b := by
  have size := holds.size
  have inside := holds.inside
  rw [all, List.length_cons] at size
  simp only [stop] at inside
  constructor
  · simp only [Window.narrowFront]
    omega
  · simp only [Window.narrowFront, stop]
    omega
  · intro i u here
    have next := holds.value (i + 1) u (by rw [all]; exact here)
    rwa [← Nat.add_assoc, Nat.add_right_comm] at next
  · have some_left : (w.size != 1) = !b.all.isEmpty := by
      rw [size]
      cases b.all <;> simp
    rw [flag, ← some_left, ← holds.flag]
    rfl

lemma Holds.popLast (holds : w.Holds stack a) {b : Arguments} {v : Value}
    (all : a.all = b.all ++ [v]) (keywords : b.keywords = none) :
    (w.popLast stack).1 = .ok v ∧ (w.popLast stack).2.Holds stack b := by
  have size := holds.size
  have inside := holds.inside
  rw [all, List.length_append, List.length_singleton] at size
  simp only [stop] at inside
  have place : w.stop - 1 = w.start + b.all.length := by
    simp only [stop]
    omega
  constructor
  · rw [Window.popLast, place]
    exact holds.element (by rw [all, List.getElem?_concat_length])
  · constructor
    · simp only [Window.popLast]
      omega
    · simp only [Window.popLast, stop]
      omega
    · intro i u here
      refine holds.value i u ?_
      rw [all, List.getElem?_append_left (List.getElem?_eq_some_iff.mp here).1]
      exact here
    · rw [keywords]
      rfl

/-- Taking the hash itself. -/
lemma Holds.popHash (holds : w.Holds stack a) {hash : Address} (keywords : a.keywords = some hash) :
    (w.popLast stack).1 = .ok (.ref hash) ∧
      (w.popLast stack).2.Holds stack { a with keywords := none } := by
  refine holds.popLast ?_ rfl
  simp [Arguments.all, keywords]

/-- The hash moves down into the place of the value that is taken. -/
lemma Holds.popPositional (holds : w.Holds stack a) {rest : List Value} {v : Value} {hash : Address}
    (positional : a.positional = rest ++ [v]) (keywords : a.keywords = some hash) :
    (w.popPositional stack).1 = .ok v ∧
      (w.popPositional stack).2.1.Holds (w.popPositional stack).2.2
        { a with positional := rest } := by
  have all : a.all = rest ++ [v, .ref hash] := by
    simp [Arguments.all, positional, keywords]
  have size : w.size = rest.length + 2 := by
    rw [holds.size, all, List.length_append]
    rfl
  have inside := holds.inside
  have taken : w.stop - 2 = w.start + rest.length := by
    simp only [stop]
    omega
  have last : w.stop - 1 = w.start + (rest.length + 1) := by
    simp only [stop]
    omega
  have value := holds.element (i := rest.length) (v := v) (by simp [all])
  have moved := holds.element (i := rest.length + 1) (v := .ref hash) (by simp [all])
  simp only [Window.popPositional, taken, last, value, moved, true_and]
  simp only [stop] at inside
  constructor
  · simp [Arguments.all, keywords, size]
  · rw [Array.set!_eq_setIfInBounds, Array.size_setIfInBounds]
    exact le_trans (Nat.add_le_add_left (Nat.sub_le _ _) _) inside
  · intro i u here
    have left : Arguments.all { a with positional := rest } = rest ++ [.ref hash] := by
      simp [Arguments.all, keywords]
    rw [left] at here
    change (stack.set! (w.start + rest.length) (.ref hash))[w.start + i]? = some u
    rw [Array.set!_eq_setIfInBounds, Array.getElem?_setIfInBounds]
    by_cases end_place : i = rest.length
    · subst end_place
      rw [List.getElem?_concat_length] at here
      rw [if_pos rfl, if_pos (by omega), here]
    · have before : i < rest.length := by
        have bound := (List.getElem?_eq_some_iff.mp here).1
        rw [List.length_append, List.length_singleton] at bound
        omega
      rw [if_neg (by omega)]
      refine holds.value i u ?_
      rw [List.getElem?_append_left before] at here
      rw [all, List.getElem?_append_left before]
      exact here
  · exact holds.flag

lemma Holds.shift (holds : w.Holds stack a) (withKeywords : Bool) :
    (w.shift withKeywords stack).1 = (a.shift withKeywords).1 ∧
      (w.shift withKeywords stack).2.Holds stack (a.shift withKeywords).2 := by
  have exhausted (nothing : (a.seen withKeywords).length = 0) :
      w.shift withKeywords stack = (.error .exhaustedShift, w) := by
    rw [Window.shift, holds.count_eq, if_pos nothing]
  have taken {v : Value} (l : List Value) (all : a.all = v :: l)
      (some_left : (a.seen withKeywords).length ≠ 0) :
      w.shift withKeywords stack = (.ok v, w.narrowFront) := by
    have value : Window.element stack w.start = .ok v :=
      holds.element (i := 0) (by rw [all]; rfl)
    rw [Window.shift, holds.count_eq, if_neg some_left, value]
  obtain ⟨positional, keywords⟩ := a
  cases positional with
  | cons v rest =>
    rw [taken (Arguments.all ⟨rest, keywords⟩) rfl
      (by cases withKeywords <;> simp [Arguments.seen, Arguments.all])]
    have flag : keywords.isSome =
        (keywords.isSome && !(Arguments.all ⟨rest, keywords⟩).isEmpty) := by
      cases keywords <;> simp [Arguments.all]
    exact ⟨rfl, holds.narrowFront rfl flag⟩
  | nil =>
    cases keywords with
    | none =>
      rw [exhausted (by cases withKeywords <;> rfl)]
      exact ⟨rfl, holds⟩
    | some hash =>
      cases withKeywords with
      | false =>
        rw [exhausted rfl]
        exact ⟨rfl, holds⟩
      | true =>
        rw [taken [] rfl (by simp [Arguments.seen, Arguments.all])]
        exact ⟨rfl, holds.narrowFront rfl rfl⟩

lemma Holds.pop (holds : w.Holds stack a) (withKeywords : Bool) :
    (w.pop withKeywords stack).1 = (a.pop withKeywords).1 ∧
      (w.pop withKeywords stack).2.1.Holds (w.pop withKeywords stack).2.2
        (a.pop withKeywords).2 := by
  have exhausted (nothing : (a.seen withKeywords).length = 0) :
      w.pop withKeywords stack = (.error .exhaustedPop, w, stack) := by
    rw [Window.pop, holds.count_eq, if_pos nothing]
  have from_end (some_left : (a.seen withKeywords).length ≠ 0)
      (visible : (a.keywords.isSome && !withKeywords) = false) :
      w.pop withKeywords stack = ((w.popLast stack).1, (w.popLast stack).2, stack) := by
    rw [Window.pop, holds.count_eq, if_neg some_left, holds.flag, visible]
    rfl
  have past_hash (some_left : (a.seen withKeywords).length ≠ 0)
      (hidden : (a.keywords.isSome && !withKeywords) = true) :
      w.pop withKeywords stack = w.popPositional stack := by
    rw [Window.pop, holds.count_eq, if_neg some_left, holds.flag, hidden]
    rfl
  obtain ⟨positional, keywords⟩ := a
  cases keywords with
  | none =>
    rcases List.eq_nil_or_concat positional with rfl | ⟨rest, v, rfl⟩
    · rw [exhausted (by cases withKeywords <;> rfl)]
      exact ⟨rfl, holds⟩
    · rw [from_end (by cases withKeywords <;> simp [Arguments.seen, Arguments.all]) rfl]
      have taken := holds.popLast (b := ⟨rest, none⟩) (v := v) (by simp [Arguments.all]) rfl
      simpa [Arguments.pop, Arguments.popPositional] using taken
  | some hash =>
    cases withKeywords with
    | true =>
      rw [from_end (by simp [Arguments.seen, Arguments.all]) rfl]
      exact holds.popHash rfl
    | false =>
      rcases List.eq_nil_or_concat positional with rfl | ⟨rest, v, rfl⟩
      · rw [exhausted rfl]
        exact ⟨rfl, holds⟩
      · rw [past_hash (by simp [Arguments.seen]) rfl]
        have taken := holds.popPositional (List.concat_eq_append) rfl
        simpa [Arguments.pop, Arguments.popPositional] using taken

lemma Holds.popKeywords (holds : w.Holds stack a) :
    (w.popKeywords stack).1 = .ok a.keywords ∧
      (w.popKeywords stack).2.Holds stack a.popKeywords := by
  rw [Window.popKeywords, holds.keywordHash?_eq]
  cases keywords : a.keywords with
  | none =>
    have same : a.popKeywords = a := by
      rw [Arguments.popKeywords, ← keywords]
    exact ⟨rfl, same.symm ▸ holds⟩
  | some hash => exact ⟨rfl, (holds.popHash keywords).2⟩

lemma Holds.popEmptyKeywords (holds : w.Holds stack a) (isEmptyHash : Address → Bool) :
    (w.popEmptyKeywords isEmptyHash stack).1 = .ok () ∧
      (w.popEmptyKeywords isEmptyHash stack).2.Holds stack (a.popEmptyKeywords isEmptyHash) := by
  have stays (kept : a.keywords.filter (fun hash => !isEmptyHash hash) = a.keywords) :
      w.Holds stack (a.popEmptyKeywords isEmptyHash) := by
    rw [Arguments.popEmptyKeywords, kept]
    exact holds
  rw [Window.popEmptyKeywords, holds.keywordHash?_eq]
  cases keywords : a.keywords with
  | none => exact ⟨rfl, stays (by rw [keywords]; rfl)⟩
  | some hash =>
    refine ⟨rfl, ?_⟩
    by_cases empty : isEmptyHash hash
    · simp only [empty, if_true, Arguments.popEmptyKeywords, keywords]
      simpa [Option.filter_some, empty] using (holds.popHash keywords).2
    · simp only [empty]
      exact stays (by simp [keywords, Option.filter_some, empty])

/-- Every taking answers as the list does and leaves what the list leaves. -/
lemma Holds.take (holds : w.Holds stack a) (t : Taking) :
    (t.from w stack).1 = (a.take t).1 ∧
      (t.from w stack).2.1.Holds (t.from w stack).2.2 (a.take t).2 := by
  cases t with
  | shift withKeywords =>
    obtain ⟨answer, left⟩ := holds.shift withKeywords
    exact ⟨congrArg (Except.map some) answer, left⟩
  | pop withKeywords =>
    obtain ⟨answer, left⟩ := holds.pop withKeywords
    exact ⟨congrArg (Except.map some) answer, left⟩
  | popKeywords =>
    obtain ⟨answer, left⟩ := holds.popKeywords
    exact ⟨congrArg (Except.map fun hash : Option Address => hash.map Value.ref) answer, left⟩
  | popEmptyKeywords isEmptyHash =>
    obtain ⟨answer, left⟩ := holds.popEmptyKeywords isEmptyHash
    exact ⟨congrArg (Except.map fun _ => none) answer, left⟩

lemma size_append (stack : Array Value) (values : List Value) :
    (stack ++ values).size = stack.size + values.length := by
  rw [← Array.length_toList, Array.toList_appendList, List.length_append, Array.length_toList]

lemma getElem?_append (stack : Array Value) (values : List Value) (i : Nat) :
    (stack ++ values)[i]? = if i < stack.size then stack[i]? else values[i - stack.size]? := by
  rw [← Array.getElem?_toList, Array.toList_appendList, List.getElem?_append, Array.length_toList,
    Array.getElem?_toList]

lemma getElem?_release (w : Window) (stack : Array Value) {i : Nat} (below : i < w.origin) :
    (w.release stack)[i]? = stack[i]? := by
  rw [← Array.getElem?_toList, release, Array.toList_shrink, List.getElem?_take_of_lt below,
    Array.getElem?_toList]

lemma holds_fresh (a : Arguments) (stack : Array Value) :
    (fresh stack.size a.all.length a.keywords.isSome).Holds (stack ++ a.all) a := by
  refine ⟨rfl, (size_append stack a.all).ge, fun i v here => ?_, rfl⟩
  change (stack ++ a.all)[stack.size + i]? = some v
  rw [getElem?_append, if_neg (Nat.not_lt.mpr (Nat.le_add_right _ _)), Nat.add_sub_cancel_left]
  exact here

lemma Holds.copy_eq (holds : w.Holds stack a) :
    w.copy stack = (.ok (fresh stack.size a.all.length a.keywords.isSome), stack ++ a.all) := by
  have all : slice stack w.start w.stop = .ok a.all := by
    have stop_eq : w.stop = w.start + a.all.length := by rw [stop, holds.size]
    rw [stop_eq]
    exact slice_of_getElem? (stop_eq ▸ holds.inside) holds.value
  rw [copy, all, holds.size, holds.flag]

end Window

lemma Arguments.keywords_take (a : Arguments) (t : Taking) :
    (a.take t).2.keywords = none ∨ (a.take t).2.keywords = a.keywords := by
  obtain ⟨positional, keywords⟩ := a
  cases t with
  | shift withKeywords =>
    cases positional <;> cases keywords <;> cases withKeywords <;>
      simp [Arguments.take, Arguments.shift]
  | pop withKeywords =>
    have kept : ((Arguments.mk positional keywords).popPositional).2.keywords = keywords := by
      rw [Arguments.popPositional]
      split <;> rfl
    cases keywords <;> cases withKeywords <;>
      simp [Arguments.take, Arguments.pop, kept]
  | popKeywords => exact .inl rfl
  | popEmptyKeywords isEmptyHash =>
    cases keywords with
    | none => exact .inl rfl
    | some hash =>
      by_cases empty : isEmptyHash hash <;>
        simp [Arguments.take, Arguments.popEmptyKeywords, Option.filter_some, empty]

end CellMachine
