import CellMachine.Proofs.Machine.Arguments

/-!
# Argument windows as private lists

Windows that lie on one stack, and whose lifetimes nest, are run beside as many lists that
know nothing of each other. What is seen of a window is what its own list says, whatever is
done with the others: copies and older windows share the stack, and one of the takings
writes to it, but only ever inside of its own window.
-/

namespace CellMachine

/-- What is done with windows on one stack, the newest of which is the first. -/
inductive WindowAct where
  | push (arguments : Arguments)
  /-- Opens a copy of a window; of one that is not there, an empty window. -/
  | copy (i : Nat)
  | take (i : Nat) (t : Taking)
  /-- Releases the newest window. -/
  | release

/-- Where the window at a place is afterwards, unless the act is about that window. -/
def WindowAct.moves (j : Nat) : WindowAct → Option Nat
  | push _ => some (j + 1)
  | copy _ => some (j + 1)
  | take i _ => if i = j then none else some j
  | release => if j = 0 then none else some (j - 1)

/-- Answers of acts one after the other, and the last state. -/
def answersOf {σ : Type} (act : σ → WindowAct → Except Fault (Option Value) × σ) :
    σ → List WindowAct → List (Except Fault (Option Value)) × σ
  | s, [] => ([], s)
  | s, a :: rest =>
    let (answer, s) := act s a
    let (answers, s) := answersOf act s rest
    (answer :: answers, s)

/-- Windows on a stack, the newest first. -/
structure WindowPile where
  windows : List Window
  stack : Array Value

namespace WindowPile

def push (p : WindowPile) (values : List Value) (hasKeywords : Bool) : WindowPile :=
  let (w, stack) := Window.push values hasKeywords p.stack
  ⟨w :: p.windows, stack⟩

def act (p : WindowPile) : WindowAct → Except Fault (Option Value) × WindowPile
  | .push a => (.ok none, p.push a.all a.keywords.isSome)
  | .copy i =>
    match p.windows[i]? with
    | some w =>
      match w.copy p.stack with
      | (.ok w, stack) => (.ok none, ⟨w :: p.windows, stack⟩)
      | (.error f, stack) => (.error f, ⟨p.windows, stack⟩)
    | none => (.ok none, p.push [] false)
  | .take i t =>
    match p.windows[i]? with
    | some w =>
      let (answer, w, stack) := t.from w p.stack
      (answer, ⟨p.windows.set i w, stack⟩)
    | none => (.ok none, p)
  | .release =>
    match p.windows with
    | w :: rest => (.ok none, ⟨rest, w.release p.stack⟩)
    | [] => (.ok none, p)

end WindowPile

/-- A private list, with what it was when its window was opened. -/
structure PrivateList where
  opened : Arguments
  now : Arguments

namespace PrivateList

def fresh (a : Arguments) : PrivateList := ⟨a, a⟩

/-- The acts on lists that know nothing of each other. -/
def act (ls : List PrivateList) : WindowAct → Except Fault (Option Value) × List PrivateList
  | .push a => (.ok none, fresh a :: ls)
  | .copy i => (.ok none, fresh ((ls[i]?.map PrivateList.now).getD ⟨[], none⟩) :: ls)
  | .take i t =>
    match ls[i]? with
    | some l => ((l.now.take t).1, ls.set i { l with now := (l.now.take t).2 })
    | none => (.ok none, ls)
  | .release => (.ok none, ls.tail)

end PrivateList

open Window in
/-- Each window of the pile holds what its list says, and they are nested above `base`. -/
structure WindowPile.Models (base : Nat) (p : WindowPile) (ls : List PrivateList) : Prop where
  nested : Nested base p.windows p.stack.size
  count : p.windows.length = ls.length
  holds : ∀ (i : Nat) w l, p.windows[i]? = some w → ls[i]? = some l → w.Holds p.stack l.now
  original : ∀ l ∈ ls, l.now.keywords = none ∨ l.now.keywords = l.opened.keywords

namespace WindowPile.Models

open Window

variable {base : Nat} {p : WindowPile} {ls : List PrivateList}

lemma list_of (models : p.Models base ls) {i : Nat} {w : Window} (here : p.windows[i]? = some w) :
    ∃ l, ls[i]? = some l ∧ w.Holds p.stack l.now := by
  have bound := models.count ▸ (List.getElem?_eq_some_iff.mp here).1
  exact ⟨ls[i], List.getElem?_eq_getElem bound,
    models.holds i w _ here (List.getElem?_eq_getElem bound)⟩

lemma missing (models : p.Models base ls) {i : Nat} (outside : p.windows[i]? = none) :
    ls[i]? = none := by
  rw [List.getElem?_eq_none_iff] at outside ⊢
  exact models.count ▸ outside

lemma push (models : p.Models base ls) (a : Arguments) :
    (p.push a.all a.keywords.isSome).Models base (.fresh a :: ls) := by
  constructor
  · exact (topmost_fresh p.stack a.all a.keywords.isSome).nested models.nested
  · simp [WindowPile.push, models.count]
  · intro i w l hw hl
    cases i with
    | zero =>
      obtain rfl := Option.some.inj hw
      obtain rfl := Option.some.inj hl
      exact holds_fresh a p.stack
    | succ i =>
      have held := models.holds i w l hw hl
      have inside := held.inside
      have room : w.stop ≤ (p.stack ++ a.all).size := by
        rw [size_append]
        omega
      refine held.congr room fun k _ below => ?_
      change (p.stack ++ a.all)[k]? = p.stack[k]?
      rw [getElem?_append, if_pos (lt_of_lt_of_le below inside)]
  · intro l hl
    rcases List.mem_cons.mp hl with rfl | hl
    · exact .inr rfl
    · exact models.original l hl

lemma take (models : p.Models base ls) {i : Nat} {w : Window} {l : PrivateList}
    (hw : p.windows[i]? = some w) (hl : ls[i]? = some l) (t : Taking) :
    (⟨p.windows.set i (t.from w p.stack).2.1, (t.from w p.stack).2.2⟩ : WindowPile).Models base
      (ls.set i { l with now := (l.now.take t).2 }) := by
  obtain ⟨narrows, size, _⟩ := narrows_from w p.stack t
  have taken := ((models.holds i w l hw hl).take t).2
  constructor
  · rw [size]
    exact models.nested.set hw narrows
  · simp [models.count]
  · intro j v k hv hk
    rw [List.getElem?_set] at hv hk
    split at hv
    · rename_i here
      subst here
      have bound := (List.getElem?_eq_some_iff.mp hw).1
      have bound' := (List.getElem?_eq_some_iff.mp hl).1
      rw [if_pos bound] at hv
      rw [if_pos rfl, if_pos bound'] at hk
      obtain rfl := Option.some.inj hv
      obtain rfl := Option.some.inj hk
      exact taken
    · rename_i other
      rw [if_neg other] at hk
      have held := models.holds j v k hv hk
      refine held.congr (size ▸ held.inside) fun place above below => ?_
      refine getElem?_from w p.stack t ?_
      rcases Nat.lt_or_gt_of_ne other with order | order
      · exact .inl (lt_of_lt_of_le below (models.nested.apart hw hv order))
      · exact .inr ((models.nested.apart hv hw order).trans above)
  · intro k hk
    rcases List.mem_or_eq_of_mem_set hk with old | rfl
    · exact models.original k old
    · rcases l.now.keywords_take t with none_left | same
      · exact .inl none_left
      · have before := models.original l (List.mem_of_getElem? hl)
        change (l.now.take t).2.keywords = none ∨ (l.now.take t).2.keywords = l.opened.keywords
        rw [same]
        exact before

lemma release {w : Window} {rest : List Window} {stack : Array Value}
    (models : (⟨w :: rest, stack⟩ : WindowPile).Models base ls) :
    (⟨rest, w.release stack⟩ : WindowPile).Models base ls.tail := by
  have cut : (w.release stack).size = w.origin := by
    have le := models.nested.topmost.le_size
    rw [Window.release, Array.size_shrink]
    simp only at le
    omega
  constructor
  · rw [cut]
    exact models.nested.tail
  · have count := models.count
    simp only [List.length_cons, List.length_tail] at count ⊢
    omega
  · intro i v l hv hl
    rw [List.getElem?_tail] at hl
    have held := models.holds (i + 1) v l hv hl
    have below := models.nested.tail.stop_le hv
    exact held.congr (by rw [cut]; exact below) fun k _ inside =>
      getElem?_release w stack (lt_of_lt_of_le inside below)
  · exact fun l hl => models.original l (List.mem_of_mem_tail hl)

/-- One act on the windows is the same act on the lists. -/
lemma act (models : p.Models base ls) (a : WindowAct) :
    (p.act a).1 = (PrivateList.act ls a).1 ∧
      (p.act a).2.Models base (PrivateList.act ls a).2 := by
  cases a with
  | push arguments => exact ⟨rfl, models.push arguments⟩
  | copy i =>
    cases hw : p.windows[i]? with
    | none =>
      have pushed := models.push ⟨[], none⟩
      simp only [WindowPile.act, PrivateList.act, hw, models.missing hw]
      exact ⟨trivial, pushed⟩
    | some w =>
      obtain ⟨l, hl, held⟩ := models.list_of hw
      have pushed := models.push l.now
      simp only [WindowPile.act, PrivateList.act, hw, hl, held.copy_eq]
      exact ⟨trivial, pushed⟩
  | take i t =>
    cases hw : p.windows[i]? with
    | none =>
      simp only [WindowPile.act, PrivateList.act, hw, models.missing hw]
      exact ⟨trivial, models⟩
    | some w =>
      obtain ⟨l, hl, held⟩ := models.list_of hw
      simp only [WindowPile.act, PrivateList.act, hw, hl]
      exact ⟨(held.take t).1, models.take hw hl t⟩
  | release =>
    obtain ⟨windows, stack⟩ := p
    cases windows with
    | nil =>
      have empty : ls = [] := List.length_eq_zero_iff.mp models.count.symm
      subst empty
      exact ⟨rfl, models⟩
    | cons w rest => exact ⟨rfl, models.release⟩

lemma answersOf (models : p.Models base ls) (acts : List WindowAct) :
    (CellMachine.answersOf WindowPile.act p acts).1 =
        (CellMachine.answersOf PrivateList.act ls acts).1 ∧
      (CellMachine.answersOf WindowPile.act p acts).2.Models base
        (CellMachine.answersOf PrivateList.act ls acts).2 := by
  induction acts generalizing p ls with
  | nil => exact ⟨rfl, models⟩
  | cons a rest ih =>
    obtain ⟨answer, after⟩ := models.act a
    obtain ⟨answers, last⟩ := ih after
    exact ⟨by simp only [CellMachine.answersOf, answer, answers], last⟩

end WindowPile.Models

lemma PrivateList.getElem?_act (ls : List PrivateList) {a : WindowAct} {j k : Nat} {l : PrivateList}
    (moves : a.moves j = some k) (here : ls[j]? = some l) : (act ls a).2[k]? = some l := by
  cases a with
  | push arguments =>
    obtain rfl := Option.some.inj moves
    exact here
  | copy i =>
    obtain rfl := Option.some.inj moves
    exact here
  | take i t =>
    simp only [WindowAct.moves] at moves
    split at moves
    · cases moves
    · rename_i other
      obtain rfl := Option.some.inj moves
      rw [act]
      split
      · exact (List.getElem?_set_ne other).trans here
      · exact here
  | release =>
    simp only [WindowAct.moves] at moves
    split at moves
    · cases moves
    · rename_i below
      obtain rfl := Option.some.inj moves
      change ls.tail[j - 1]? = some l
      rw [List.getElem?_tail, Nat.sub_add_cancel (Nat.pos_of_ne_zero below)]
      exact here

/-- A window that an act is not about stays where it is, with all its fields. -/
lemma WindowPile.Models.getElem?_act {base : Nat} {p : WindowPile} {ls : List PrivateList}
    (models : p.Models base ls) {a : WindowAct} {j k : Nat} {w : Window}
    (moves : a.moves j = some k) (here : p.windows[j]? = some w) :
    (p.act a).2.windows[k]? = some w := by
  cases a with
  | push arguments =>
    obtain rfl := Option.some.inj moves
    exact here
  | copy i =>
    obtain rfl := Option.some.inj moves
    rw [WindowPile.act]
    cases hw : p.windows[i]? with
    | none => exact here
    | some v =>
      obtain ⟨l, _, held⟩ := models.list_of hw
      simp only [held.copy_eq]
      exact here
  | take i t =>
    simp only [WindowAct.moves] at moves
    split at moves
    · cases moves
    · rename_i other
      obtain rfl := Option.some.inj moves
      rw [WindowPile.act]
      split
      · exact (List.getElem?_set_ne other).trans here
      · exact here
  | release =>
    simp only [WindowAct.moves] at moves
    split at moves
    · cases moves
    · rename_i below
      obtain rfl := Option.some.inj moves
      obtain ⟨windows, stack⟩ := p
      cases windows with
      | nil => cases here
      | cons v rest =>
        rw [← Nat.sub_add_cancel (Nat.pos_of_ne_zero below)] at here
        exact here

/-- A window is all that its list says, and its flag speaks of the hash it was opened with. -/
structure Window.IsPrivate (w : Window) (stack : Array Value) (l : PrivateList) : Prop where
  reads : w.ReadsAs stack l.now
  /-- The flag is never set on an empty window, nor in front of another hash. -/
  flag : w.hasKeywords = true → 0 < w.size ∧ ∃ hash, l.opened.keywords = some hash ∧
    w.last? stack = .ok (some (.ref hash))
  /-- Leaving out the hash never goes below zero. -/
  count : w.count false + (if w.hasKeywords then 1 else 0) = w.size

/-- What is seen of windows on one stack. -/
structure WindowPile.IsPrivate (p : WindowPile) (ls : List PrivateList) : Prop where
  count : p.windows.length = ls.length
  windows : ∀ (i : Nat) w l, p.windows[i]? = some w → ls[i]? = some l → w.IsPrivate p.stack l
  /-- An act on one window changes nothing in another, a copy of it included. -/
  isolated : ∀ (a : WindowAct) j k w, a.moves j = some k → p.windows[j]? = some w →
    (p.act a).2.windows[k]? = some w ∧
      w.values true (p.act a).2.stack = w.values true p.stack

lemma WindowPile.Models.isPrivate_window {base : Nat} {p : WindowPile} {ls : List PrivateList}
    (models : p.Models base ls) {i : Nat} {w : Window} {l : PrivateList}
    (hw : p.windows[i]? = some w) (hl : ls[i]? = some l) : w.IsPrivate p.stack l := by
  have held := models.holds i w l hw hl
  have reads := held.readsAs
  refine ⟨reads, fun flagged => ?_, ?_⟩
  · obtain ⟨hash, keywords⟩ := Option.isSome_iff_exists.mp (held.flag ▸ flagged)
    have opened : l.opened.keywords = some hash := by
      rcases models.original l (List.mem_of_getElem? hl) with none_left | same
      · rw [keywords] at none_left
        cases none_left
      · rw [← same, keywords]
    refine ⟨?_, hash, opened, ?_⟩
    · have positional := held.length_positional
      rw [if_pos flagged] at positional
      omega
    · rw [reads.last, Window.getLast?_all_of_keywords keywords]
  · rw [reads.count false]
    exact held.length_positional

lemma WindowPile.Models.isPrivate {base : Nat} {p : WindowPile} {ls : List PrivateList}
    (models : p.Models base ls) : p.IsPrivate ls := by
  refine ⟨models.count, fun i w l hw hl => models.isPrivate_window hw hl, ?_⟩
  intro a j k w moves here
  obtain ⟨l, hl, before⟩ := models.list_of here
  have there := models.getElem?_act moves here
  have after := (models.act a).2.holds k w l there (PrivateList.getElem?_act ls moves hl)
  exact ⟨there, (after.readsAs.values true).trans (before.readsAs.values true).symm⟩

/-- Whatever is done with windows on a stack, the answers are those of private lists, and so
is all that is seen of the windows. -/
theorem isPrivate_answersOf (stack : Array Value) (acts : List WindowAct) :
    (answersOf WindowPile.act ⟨[], stack⟩ acts).1 = (answersOf PrivateList.act [] acts).1 ∧
      (answersOf WindowPile.act ⟨[], stack⟩ acts).2.IsPrivate
        (answersOf PrivateList.act [] acts).2 := by
  have start : (⟨[], stack⟩ : WindowPile).Models stack.size [] :=
    ⟨.empty, rfl, fun _ _ _ h => (by cases h), fun _ h => (by cases h)⟩
  obtain ⟨answers, last⟩ := start.answersOf acts
  exact ⟨answers, last.isPrivate⟩

/-- A copy does not see what is taken from its original, nor the hash that moves there. -/
example : (answersOf WindowPile.act ⟨[], #[.smallInt 7]⟩
    [.push ⟨[.smallInt 1, .smallInt 2], some (.memory 160)⟩, .copy 0, .take 1 (.pop false),
      .take 0 (.pop false), .take 0 (.pop true), .take 1 (.shift true)]).1 =
    [.ok none, .ok none, .ok (some (.smallInt 2)), .ok (some (.smallInt 2)),
      .ok (some (.ref (.memory 160))), .ok (some (.smallInt 1))] := by
  rfl

end CellMachine
