import CellMachine.Proofs.Heap.Dangling
import CellMachine.Proofs.Machine.PrivateLists

/-!
# Values that were taken from a window

Taking a value narrows its window and moves no data, so that a value that was taken stays on the
stack, and among the roots of its thread, until the window is released. There is one exception. A
value that is popped from in front of the keyword hash is written over by the hash, which moves
down into its slot. Here the slots of all windows on a stack are told for any sequence of acts:
besides the hash they hold what the window was opened with, less the values popped past the hash.
-/

namespace CellMachine

/-- The taking pops a value from in front of the keyword hash. -/
def Arguments.passes (a : Arguments) : Taking → Bool
  | .pop false => a.keywords.isSome && !a.positional.isEmpty
  | _ => false

/-- A private list, and how many of its values were popped past the keyword hash. -/
structure SlotList where
  list : PrivateList
  past : Nat

namespace SlotList

def fresh (a : Arguments) : SlotList := ⟨.fresh a, 0⟩

def take (l : SlotList) (t : Taking) : SlotList where
  list := { l.list with now := (l.list.now.take t).2 }
  past := l.past + if l.list.now.passes t then 1 else 0

def act (ls : List SlotList) : WindowAct → List SlotList
  | .push a => fresh a :: ls
  | .copy i => fresh (((ls.map SlotList.list)[i]?.map PrivateList.now).getD ⟨[], none⟩) :: ls
  | .take i t =>
    match ls[i]? with
    | some l => ls.set i (l.take t)
    | none => ls
  | .release => ls.tail

/-- The positional values that were not popped past the hash. -/
def kept (l : SlotList) : List Value :=
  l.list.opened.positional.take (l.list.opened.positional.length - l.past)

/-- The positional values that were. -/
def passed (l : SlotList) : List Value :=
  l.list.opened.positional.drop (l.list.opened.positional.length - l.past)

/-- What the slots of the window hold. -/
def slots (l : SlotList) : List Value :=
  l.kept ++ ((l.list.opened.keywords.map fun hash => List.replicate (l.past + 1) (.ref hash)).getD [])

lemma map_list_act (ls : List SlotList) (a : WindowAct) :
    (act ls a).map SlotList.list = (PrivateList.act (ls.map SlotList.list) a).2 := by
  cases a with
  | push a => rfl
  | copy i => rfl
  | take i t =>
    simp only [act, PrivateList.act, List.getElem?_map]
    cases here : ls[i]? with
    | none => rfl
    | some l => exact List.map_set
  | release => exact List.map_tail

lemma kept_append_passed (l : SlotList) : l.kept ++ l.passed = l.list.opened.positional :=
  List.take_append_drop _ _

lemma slots_fresh (a : Arguments) : (fresh a).slots = a.all := by
  obtain ⟨positional, keywords⟩ := a
  cases keywords <;> simp [slots, kept, fresh, PrivateList.fresh, Arguments.all]

/-- The values come first, and the hash fills what is left. -/
lemma getElem?_slots {l : SlotList} {hash : Address} (keywords : l.list.opened.keywords = some hash)
    (within : l.past ≤ l.list.opened.positional.length) (i : Nat) : l.slots[i]? =
      if i + l.past < l.list.opened.positional.length then l.list.opened.positional[i]?
      else if i ≤ l.list.opened.positional.length then some (.ref hash) else none := by
  have length : l.kept.length = l.list.opened.positional.length - l.past := by
    rw [kept, List.length_take]
    omega
  rw [slots, keywords, Option.map_some, Option.getD_some, List.getElem?_append, length]
  by_cases low : i + l.past < l.list.opened.positional.length
  · rw [if_pos (by omega), if_pos low, kept, List.getElem?_take_of_lt (by omega)]
  · rw [if_neg (by omega), if_neg low, List.getElem?_replicate]
    by_cases high : i ≤ l.list.opened.positional.length
    · rw [if_pos (by omega), if_pos high]
    · rw [if_neg (by omega), if_neg high]

end SlotList

namespace Window

variable {w w' : Window} {ws : List Window} {stack stack' : Array Value} {l : SlotList}
  {base top : Nat}

lemma Nested.slots_le (nested : Nested base ws top) {i : Nat} (here : ws[i]? = some w) :
    w.origin ≤ w.start ∧ w.stop ≤ w.origin + w.openedSize ∧ w.origin + w.openedSize ≤ top := by
  induction nested generalizing i with
  | empty => cases here
  | opened below front back ih =>
    cases i with
    | zero =>
      obtain rfl := Option.some.inj here
      exact ⟨front, back, le_rfl⟩
    | succ i =>
      obtain ⟨start, stop, lower⟩ := ih here
      exact ⟨start, stop, by omega⟩

/-- The slots of an older window end where those of a newer one start, or before. -/
lemma Nested.slots_apart (nested : Nested base ws top) {i j : Nat} {v : Window}
    (newer : ws[i]? = some v) (older : ws[j]? = some w) (order : i < j) :
    w.origin + w.openedSize ≤ v.origin := by
  induction nested generalizing i j with
  | empty => cases newer
  | opened below front back ih =>
    obtain ⟨j, rfl⟩ := Nat.exists_eq_succ_of_ne_zero (Nat.ne_of_gt (Nat.zero_lt_of_lt order))
    cases i with
    | zero =>
      obtain rfl := Option.some.inj newer
      exact (below.slots_le older).2.2
    | succ i => exact ih newer older (Nat.lt_of_succ_lt_succ order)

/-- The slots of the window hold what the list says. -/
structure Fills (l : SlotList) (w : Window) (stack : Array Value) : Prop where
  size : w.openedSize = l.list.opened.all.length
  within : l.past ≤ l.list.opened.positional.length
  plain : l.list.opened.keywords = none → l.past = 0
  slot : ∀ i < w.openedSize, stack[w.origin + i]? = l.slots[i]?
  /-- The hash is in front of the slots that it was moved down from. -/
  hash : w.hasKeywords → w.stop + l.past = w.origin + w.openedSize

lemma Fills.congr (fills : Fills l w stack)
    (same : ∀ k, w.origin ≤ k → k < w.origin + w.openedSize → stack'[k]? = stack[k]?) :
    Fills l w stack' := by
  refine ⟨fills.size, fills.within, fills.plain, fun i inside => ?_, fills.hash⟩
  rw [same _ (Nat.le_add_right _ _) (Nat.add_lt_add_left inside _)]
  exact fills.slot i inside

lemma fills_fresh (a : Arguments) (stack : Array Value) :
    Fills (.fresh a) (fresh stack.size a.all.length a.keywords.isSome) (stack ++ a.all) := by
  refine ⟨rfl, Nat.zero_le _, fun _ => rfl, fun i inside => ?_, fun _ => rfl⟩
  change (stack ++ a.all)[stack.size + i]? = _
  rw [SlotList.slots_fresh, getElem?_append, if_neg (Nat.not_lt.mpr (Nat.le_add_right _ _)),
    Nat.add_sub_cancel_left]

/-- The window is narrowed and nothing is written; a hash that is left stays where it is. -/
structure Spares (w w' : Window) : Prop where
  origin : w'.origin = w.origin
  openedSize : w'.openedSize = w.openedSize
  hash : w'.hasKeywords → w.hasKeywords ∧ w'.stop = w.stop

lemma Spares.refl (w : Window) : w.Spares w := ⟨rfl, rfl, fun flagged => ⟨flagged, rfl⟩⟩

lemma spares_popLast (w : Window) (stack : Array Value) : w.Spares (w.popLast stack).2 :=
  ⟨rfl, rfl, fun flagged => nomatch flagged⟩

lemma spares_shift (w : Window) (withKeywords : Bool) (stack : Array Value) :
    w.Spares (w.shift withKeywords stack).2 := by
  have size := w.count_le_size withKeywords
  rw [shift]
  split
  · exact .refl w
  split
  · refine ⟨rfl, rfl, fun flagged => ?_⟩
    simp only [narrowFront, Bool.and_eq_true] at flagged
    refine ⟨flagged.1, ?_⟩
    simp only [stop, narrowFront]
    omega
  · exact .refl w

lemma spares_popKeywords (w : Window) (stack : Array Value) :
    w.Spares (w.popKeywords stack).2 := by
  rw [popKeywords]
  split
  · exact spares_popLast w stack
  · exact .refl w

lemma spares_popEmptyKeywords (w : Window) (isEmptyHash : Address → Bool) (stack : Array Value) :
    w.Spares (w.popEmptyKeywords isEmptyHash stack).2 := by
  rw [popEmptyKeywords]
  split
  · dsimp only
    split
    · exact spares_popLast w stack
    · exact .refl w
  · exact .refl w
  · exact .refl w

/-- A taking that does not pop past the hash writes nothing. -/
lemma Holds.spares {a : Arguments} (holds : w.Holds stack a) {t : Taking}
    (stays : a.passes t = false) :
    w.Spares (t.from w stack).2.1 ∧ (t.from w stack).2.2 = stack := by
  cases t with
  | shift withKeywords => exact ⟨spares_shift w withKeywords stack, rfl⟩
  | popKeywords => exact ⟨spares_popKeywords w stack, rfl⟩
  | popEmptyKeywords isEmptyHash => exact ⟨spares_popEmptyKeywords w isEmptyHash stack, rfl⟩
  | pop withKeywords =>
    simp only [Taking.from, Window.pop]
    split
    · exact ⟨.refl w, rfl⟩
    split
    · rename_i some_left hidden
      rw [holds.count_eq] at some_left
      simp only [Bool.and_eq_true, Bool.not_eq_true', holds.flag] at hidden
      obtain ⟨flagged, rfl⟩ := hidden
      simp only [Arguments.passes, flagged, Bool.true_and, Bool.not_eq_false',
        List.isEmpty_iff] at stays
      exact absurd (congrArg List.length stays) some_left
    · exact ⟨spares_popLast w stack, rfl⟩

lemma Fills.spared (fills : Fills l w stack) (spares : w.Spares w') (now : Arguments) :
    Fills ⟨{ l.list with now }, l.past⟩ w' stack := by
  refine ⟨spares.openedSize.trans fills.size, fills.within, fills.plain, fun i inside => ?_, ?_⟩
  · rw [spares.origin]
    exact fills.slot i (spares.openedSize ▸ inside)
  · intro flagged
    obtain ⟨before, same⟩ := spares.hash flagged
    rw [same, spares.origin, spares.openedSize]
    exact fills.hash before

/-- The hash is written where the popped value stood. -/
lemma Holds.pop_passes {a : Arguments} (holds : w.Holds stack a) {t : Taking}
    (passes : a.passes t = true) : ∃ hash, a.keywords = some hash ∧ 2 ≤ w.size ∧
      (t.from w stack).2 = ({ w with size := w.size - 1 }, stack.set! (w.stop - 2) (.ref hash)) := by
  obtain ⟨positional, keywords⟩ := a
  cases t with
  | pop withKeywords =>
    cases withKeywords with
    | true => cases passes
    | false =>
      simp only [Arguments.passes, Bool.and_eq_true, Option.isSome_iff_exists,
        Bool.not_eq_true', List.isEmpty_eq_false_iff] at passes
      obtain ⟨⟨hash, rfl⟩, some_left⟩ := passes
      obtain ⟨rest, v, rfl⟩ := (List.eq_nil_or_concat positional).resolve_left some_left
      have all : Arguments.all ⟨rest.concat v, some hash⟩ = rest ++ [v, .ref hash] := by
        simp [Arguments.all]
      have size : w.size = rest.length + 2 := by
        rw [holds.size, all, List.length_append]
        rfl
      have value := holds.element (i := rest.length) (v := v) (by rw [all]; simp)
      have moved := holds.element (i := rest.length + 1) (v := .ref hash) (by rw [all]; simp)
      have taken : w.stop - 2 = w.start + rest.length := by
        simp only [stop]
        omega
      have last : w.stop - 1 = w.start + (rest.length + 1) := by
        simp only [stop]
        omega
      refine ⟨hash, rfl, by omega, ?_⟩
      rw [Taking.from, Window.pop, holds.count_eq, if_neg (by simp [Arguments.seen]), holds.flag]
      simp only [Option.isSome_some, Bool.not_false, Bool.and_self, if_true, Window.popPositional,
        taken, last, value, moved, holds.flag]
  | _ => cases passes

/-- A value that is popped from in front of the hash is written over by it. -/
lemma Fills.passed (fills : Fills l w stack) (holds : w.Holds stack l.list.now) {t : Taking}
    (original : l.list.now.keywords = none ∨ l.list.now.keywords = l.list.opened.keywords)
    (front : w.origin ≤ w.start) (passes : l.list.now.passes t = true) :
    Fills (l.take t) (t.from w stack).2.1 (t.from w stack).2.2 := by
  obtain ⟨hash, keywords, size, taken⟩ := holds.pop_passes passes
  have opened : l.list.opened.keywords = some hash := by
    rcases original with none_left | same
    · rw [keywords] at none_left
      cases none_left
    · rw [← same, keywords]
  have flagged : w.hasKeywords := by rw [holds.flag, keywords]; rfl
  have total : w.openedSize = l.list.opened.positional.length + 1 := by
    rw [fills.size, Arguments.all, opened, List.length_append]
    rfl
  have behind := fills.hash flagged
  have inside := holds.inside
  simp only [stop] at behind inside
  have past : (l.take t).past = l.past + 1 := by rw [SlotList.take, if_pos passes]
  have within : (l.take t).past ≤ (l.take t).list.opened.positional.length := by
    change _ ≤ l.list.opened.positional.length
    omega
  rw [taken]
  refine ⟨fills.size, within, fun bare => ?_, fun i below => ?_, fun _ => ?_⟩
  · change l.list.opened.keywords = none at bare
    rw [opened] at bare
    cases bare
  · change (stack.set! (w.stop - 2) (.ref hash))[w.origin + i]? = _
    have before := fills.slot i below
    rw [SlotList.getElem?_slots opened fills.within] at before
    rw [SlotList.getElem?_slots (l := l.take t) opened within, past]
    change _ = if i + (l.past + 1) < l.list.opened.positional.length then
      l.list.opened.positional[i]?
      else if i ≤ l.list.opened.positional.length then some (.ref hash) else none
    change i < w.openedSize at below
    simp only [stop]
    rw [Array.set!_eq_setIfInBounds, Array.getElem?_setIfInBounds]
    by_cases here : i + (l.past + 1) = l.list.opened.positional.length
    · rw [if_pos (by omega), if_pos (by omega), if_neg (by omega), if_pos (by omega)]
    · rw [if_neg (by omega), before]
      by_cases low : i + l.past < l.list.opened.positional.length
      · rw [if_pos low, if_pos (by omega)]
      · have lower : ¬ i + (l.past + 1) < l.list.opened.positional.length := by omega
        rw [if_neg low, if_neg lower]
  · change w.start + (w.size - 1) + (l.take t).past = w.origin + w.openedSize
    omega

end Window

open Window in
/-- Each window of the pile holds what its list says, and so do its slots. -/
structure WindowPile.Stores (base : Nat) (p : WindowPile) (ls : List SlotList) : Prop where
  models : p.Models base (ls.map SlotList.list)
  fills : ∀ (i : Nat) w l, p.windows[i]? = some w → ls[i]? = some l → Fills l w p.stack

namespace WindowPile.Stores

open Window

variable {base : Nat} {p : WindowPile} {ls : List SlotList}

lemma list_of (stores : p.Stores base ls) {i : Nat} {w : Window} (here : p.windows[i]? = some w) :
    ∃ l, ls[i]? = some l ∧ w.Holds p.stack l.list.now := by
  obtain ⟨_, listed, holds⟩ := stores.models.list_of here
  rw [List.getElem?_map] at listed
  obtain ⟨l, there, rfl⟩ := Option.map_eq_some_iff.mp listed
  exact ⟨l, there, holds⟩

lemma fills_push (stores : p.Stores base ls) (a : Arguments) (i : Nat) (w : Window) (l : SlotList)
    (hw : (p.push a.all a.keywords.isSome).windows[i]? = some w)
    (hl : (SlotList.fresh a :: ls)[i]? = some l) :
    Fills l w (p.push a.all a.keywords.isSome).stack := by
  cases i with
  | zero =>
    obtain rfl := Option.some.inj hw
    obtain rfl := Option.some.inj hl
    exact fills_fresh a p.stack
  | succ i =>
    have inside := (stores.models.nested.slots_le hw).2.2
    refine (stores.fills i w l hw hl).congr fun k _ below => ?_
    change (p.stack ++ a.all)[k]? = p.stack[k]?
    rw [getElem?_append, if_pos (lt_of_lt_of_le below inside)]

lemma fills_take (stores : p.Stores base ls) {i : Nat} {w : Window} {l : SlotList}
    (hw : p.windows[i]? = some w) (hl : ls[i]? = some l) (t : Taking) (j : Nat) (v : Window)
    (k : SlotList) (hv : (p.windows.set i (t.from w p.stack).2.1)[j]? = some v)
    (hk : (ls.set i (l.take t))[j]? = some k) : Fills k v (t.from w p.stack).2.2 := by
  have listed : (ls.map SlotList.list)[i]? = some l.list := by rw [List.getElem?_map, hl]; rfl
  have holds := stores.models.holds i w l.list hw listed
  have fills := stores.fills i w l hw hl
  obtain ⟨front, back, _⟩ := stores.models.nested.slots_le hw
  rw [List.getElem?_set] at hv hk
  split at hv
  · rename_i here
    subst here
    rw [if_pos (List.getElem?_eq_some_iff.mp hw).1] at hv
    rw [if_pos rfl, if_pos (List.getElem?_eq_some_iff.mp hl).1] at hk
    obtain rfl := Option.some.inj hv
    obtain rfl := Option.some.inj hk
    cases passes : l.list.now.passes t with
    | true =>
      exact fills.passed holds (stores.models.original _ (List.mem_of_getElem? listed)) front passes
    | false =>
      obtain ⟨spares, same⟩ := holds.spares passes
      have unchanged : l.take t = ⟨{ l.list with now := (l.list.now.take t).2 }, l.past⟩ := by
        rw [SlotList.take, passes]
        rfl
      rw [same, unchanged]
      exact fills.spared spares _
  · rename_i other
    rw [if_neg other] at hk
    refine (stores.fills j v k hv hk).congr fun place above below => getElem?_from w p.stack t ?_
    rcases Nat.lt_or_gt_of_ne other with order | order
    · have apart := stores.models.nested.slots_apart hw hv order
      exact .inl (by omega)
    · have apart := stores.models.nested.slots_apart hv hw order
      exact .inr (by omega)

lemma fills_release {w : Window} {rest : List Window} {stack : Array Value}
    (stores : (⟨w :: rest, stack⟩ : WindowPile).Stores base ls) (i : Nat) (v : Window)
    (l : SlotList) (hv : rest[i]? = some v) (hl : ls.tail[i]? = some l) :
    Fills l v (w.release stack) := by
  rw [List.getElem?_tail] at hl
  have apart := stores.models.nested.slots_apart (i := 0) (j := i + 1) rfl hv (Nat.succ_pos i)
  exact (stores.fills (i + 1) v l hv hl).congr fun k _ below =>
    getElem?_release w stack (lt_of_lt_of_le below apart)

/-- Each act on the windows is the same act on the slots. -/
lemma act (stores : p.Stores base ls) (a : WindowAct) :
    (p.act a).2.Stores base (SlotList.act ls a) := by
  refine ⟨SlotList.map_list_act ls a ▸ (stores.models.act a).2, ?_⟩
  cases a with
  | push arguments => exact stores.fills_push arguments
  | copy i =>
    cases hw : p.windows[i]? with
    | none =>
      have missing := stores.models.missing hw
      simp only [WindowPile.act, SlotList.act, hw, missing]
      exact stores.fills_push ⟨[], none⟩
    | some w =>
      obtain ⟨l, hl, holds⟩ := stores.list_of hw
      simp only [WindowPile.act, SlotList.act, hw, hl, holds.copy_eq, List.getElem?_map]
      exact stores.fills_push l.list.now
  | take i t =>
    cases hw : p.windows[i]? with
    | none =>
      have missing := stores.models.missing hw
      rw [List.getElem?_map, Option.map_eq_none_iff] at missing
      simp only [WindowPile.act, SlotList.act, hw, missing]
      exact stores.fills
    | some w =>
      obtain ⟨l, hl, _⟩ := stores.list_of hw
      simp only [WindowPile.act, SlotList.act, hw, hl]
      exact stores.fills_take hw hl t
  | release =>
    obtain ⟨windows, stack⟩ := p
    cases windows with
    | nil =>
      intro i w l hw
      cases hw
    | cons w rest => exact stores.fills_release

lemma answersOf (stores : p.Stores base ls) (acts : List WindowAct) :
    (CellMachine.answersOf WindowPile.act p acts).2.Stores base
      (acts.foldl SlotList.act ls) := by
  induction acts generalizing p ls with
  | nil => exact stores
  | cons a rest ih => exact ih (stores.act a)

end WindowPile.Stores

/-- What is left of the values that a window was opened with while it is not released. -/
structure Window.KeepsRooted (w : Window) (stack : Array Value) (l : SlotList) : Prop where
  opened : l.list.opened.positional = l.kept ++ l.passed
  /-- The slots hold the values that were not popped past the hash, and the hash for the others. -/
  slot : ∀ i < w.openedSize, stack[w.origin + i]? = l.slots[i]?
  /-- No hash, no loss. -/
  plain : l.list.opened.keywords = none → l.passed = []
  rooted : ∀ v ∈ l.kept ++ (l.list.opened.keywords.map Value.ref).toList, v ∈ stack
  /-- A collection that is told the stack frees none of the values that are left. -/
  survives : ∀ (h : Heap Object) inputs, h.Sound → references stack.toList ∈ inputs → ∀ x,
    .ref x ∈ l.kept ++ (l.list.opened.keywords.map Value.ref).toList →
    ((h.collect inputs).2.isLive x ↔ h.isLive x)

lemma SlotList.mem_slots {l : SlotList} {v : Value}
    (left : v ∈ l.kept ++ (l.list.opened.keywords.map Value.ref).toList) : v ∈ l.slots := by
  rw [slots]
  cases keywords : l.list.opened.keywords with
  | none => simpa [keywords] using left
  | some hash => simpa [keywords] using left

lemma Window.Fills.keepsRooted {w : Window} {stack : Array Value} {l : SlotList}
    (fills : w.Fills l stack) : w.KeepsRooted stack l := by
  have length : l.slots.length = w.openedSize := by
    rw [fills.size, SlotList.slots, SlotList.kept, Arguments.all]
    have within := fills.within
    cases keywords : l.list.opened.keywords with
    | none => simp [fills.plain keywords]
    | some hash =>
      simp only [Option.map_some, Option.getD_some, Option.toList_some, List.length_append,
        List.length_take, List.length_replicate, List.length_singleton]
      omega
  have rooted v (left : v ∈ l.kept ++ (l.list.opened.keywords.map Value.ref).toList) :
      v ∈ stack := by
    obtain ⟨i, here⟩ := List.getElem?_of_mem (SlotList.mem_slots left)
    have inside := (List.getElem?_eq_some_iff.mp here).1
    exact Array.mem_of_getElem? ((fills.slot i (length ▸ inside)).trans here)
  refine ⟨l.kept_append_passed.symm, fills.slot, fun bare => ?_, rooted, ?_⟩
  · rw [SlotList.passed, fills.plain bare, Nat.sub_zero, List.drop_length]
  · intro h inputs sound told x left
    refine sound.isLive_collect_iff ⟨_, told, ?_⟩
    exact List.mem_filterMap.mpr ⟨_, Array.mem_toList_iff.mpr (rooted _ left), rfl⟩

/-- Whatever is done with windows on a stack, of the values that a window was opened with all
are on the stack until it is released, less those that were popped from in front of a keyword
hash; and these are exactly the ones that the hash has been written over. -/
theorem keepsRooted_answersOf (stack : Array Value) (acts : List WindowAct) (i : Nat) :
    let p := (answersOf WindowPile.act ⟨[], stack⟩ acts).2
    match p.windows[i]?, (acts.foldl SlotList.act [])[i]? with
    | some w, some l => w.KeepsRooted p.stack l
    | none, none => True
    | _, _ => False := by
  intro p
  have start : (⟨[], stack⟩ : WindowPile).Stores stack.size [] :=
    ⟨⟨.empty, rfl, fun _ _ _ h => (by cases h), fun _ h => (by cases h)⟩, fun _ _ _ h => (by cases h)⟩
  have stores := start.answersOf acts
  cases hw : p.windows[i]? with
  | none =>
    have missing := stores.models.missing hw
    rw [List.getElem?_map, Option.map_eq_none_iff] at missing
    rw [missing]
    trivial
  | some w =>
    obtain ⟨l, hl, _⟩ := stores.list_of hw
    rw [hl]
    exact (stores.fills i w l hw hl).keepsRooted

/-- The value that was popped is not on the stack any more, and the hash is there twice. -/
example : (answersOf WindowPile.act ⟨[], #[]⟩
    [.push ⟨[.ref (.memory 320)], some (.memory 160)⟩, .take 0 (.pop false)]).2.stack =
    #[.ref (.memory 160), .ref (.memory 160)] := by
  rfl

end CellMachine
