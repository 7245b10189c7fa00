import Mathlib

/-!
# Counting

How a sum over a list or a count of numbers changes when one entry does.
-/

namespace CellMachine

/-- Changing a predicate from false to true at one place adds one to its count. -/
lemma countP_range_update {p q : Nat → Bool} {n i : Nat} (hi : i < n) (hp : p i = false)
    (hq : q i = true) (same : ∀ j, j ≠ i → p j = q j) :
    (List.range n).countP q = (List.range n).countP p + 1 := by
  induction n with
  | zero => omega
  | succ n ih =>
    rw [List.range_succ, List.countP_append, List.countP_append]
    by_cases last : i = n
    · subst last
      have below : (List.range i).countP q = (List.range i).countP p := by
        apply List.countP_congr
        intro j hj
        rw [same j (by have := List.mem_range.mp hj; omega)]
      simp [below, hp, hq]
    · have step := ih (by omega)
      have top : p n = q n := same n (Ne.symm last)
      simp only [List.countP_cons, List.countP_nil, top]
      omega

/-- A sum in which one entry is changed. -/
lemma sum_map_modify {β M : Type*} [AddCommMonoid M] (g : β → M) (f : β → β) {l : List β}
    {k : Nat} {b : β} (h : l[k]? = some b) :
    ((l.modify k f).map g).sum + g b = (l.map g).sum + g (f b) := by
  induction l generalizing k with
  | nil => cases h
  | cons x l ih =>
    cases k with
    | zero =>
      have same : x = b := Option.some.inj h
      subst same
      simp only [List.modify_zero_cons, List.map_cons, List.sum_cons]
      rw [add_right_comm, add_comm (g (f x)), add_right_comm]
    | succ k =>
      have tail := ih (k := k) (by simpa using h)
      simp only [List.modify_succ_cons, List.map_cons, List.sum_cons]
      rw [add_assoc, tail, add_assoc]

/-- If one entry is as large as the sum, all others are zero. -/
lemma eq_zero_of_sum_le {l : List Nat} {i j n m : Nat} (at_i : l[i]? = some n) (le : l.sum ≤ n)
    (at_j : l[j]? = some m) (other : i ≠ j) : m = 0 := by
  have without := sum_map_modify (fun k => k) (fun _ => 0) at_i
  have still : (l.modify i fun _ => 0)[j]? = some m := by
    simp [other, at_j]
  have bound : m ≤ (l.modify i fun _ => 0).sum :=
    List.single_le_sum (fun _ _ => Nat.zero_le _) m (List.mem_of_getElem? still)
  simp only [List.map_id'] at without
  omega

/-- If all other entries are zero, the sum is the one entry. -/
lemma sum_eq_of_others_zero {M : Type*} [AddCommMonoid M] {l : List M} {i : Nat} {x : M}
    (at_i : l[i]? = some x) (others : ∀ (j : Nat) y, i ≠ j → l[j]? = some y → y = 0) :
    l.sum = x := by
  have without := sum_map_modify (fun y => y) (fun _ => 0) at_i
  have zeros : (l.modify i fun _ => 0).sum = 0 := by
    apply List.sum_eq_zero
    intro y mem
    obtain ⟨j, at_j⟩ := List.mem_iff_getElem?.mp mem
    by_cases same : i = j
    · subst same
      simpa [at_i, eq_comm] using at_j
    · simp only [List.getElem?_modify, same, if_false, Option.map_eq_map, Option.map_id'] at at_j
      exact others j y same at_j
  simp only [List.map_id', zeros, zero_add, add_zero] at without
  exact without.symm

/-- Reading a list entry by entry. -/
lemma map_range_getElem? {β γ : Type*} (l : List β) (g : β → γ) (z : γ) :
    (List.range l.length).map (fun i => (l[i]?.map g).getD z) = l.map g := by
  apply List.ext_getElem
  · simp
  · intro i h₁ h₂
    have hi : i < l.length := by simpa using h₂
    simp [hi]

/-- The items of all entries, each with the position of its entry. -/
def tagged {β γ : Type*} (xs : Array β) (items : β → List γ) : List (Nat × γ) :=
  (List.range xs.size).flatMap fun i => (((xs[i]?).map items).getD []).map (Prod.mk i)

lemma mem_tagged {β γ : Type*} {xs : Array β} {items : β → List γ} {i : Nat} {y : γ} :
    (i, y) ∈ tagged xs items ↔ ∃ b, xs[i]? = some b ∧ y ∈ items b := by
  simp only [tagged, List.mem_flatMap, List.mem_range, List.mem_map, Prod.mk.injEq]
  constructor
  · rintro ⟨j, hj, z, hz, rfl, rfl⟩
    exact ⟨xs[j], Array.getElem?_eq_getElem hj, by simpa [hj] using hz⟩
  · rintro ⟨b, hb, hy⟩
    exact ⟨i, (Array.getElem?_eq_some_iff.mp hb).1, y, by simpa [hb] using hy, rfl, rfl⟩

lemma nodup_tagged {β γ : Type*} (xs : Array β) {items : β → List γ}
    (distinct : ∀ b, (items b).Nodup) : (tagged xs items).Nodup := by
  rw [tagged, List.nodup_flatMap]
  constructor
  · intro i _
    refine List.Nodup.map (fun _ _ eq => (Prod.mk.inj eq).2) ?_
    cases xs[i]? with
    | none => exact List.nodup_nil
    | some b => exact distinct b
  · refine List.nodup_range.imp ?_
    intro i j ne
    rw [Function.onFun, List.disjoint_left]
    intro p hi hj
    obtain ⟨_, _, eqi⟩ := List.mem_map.mp hi
    obtain ⟨_, _, eqj⟩ := List.mem_map.mp hj
    exact ne ((congrArg Prod.fst eqi).trans (congrArg Prod.fst eqj).symm)

lemma length_tagged {β γ : Type*} (xs : Array β) (items : β → List γ) :
    (tagged xs items).length = (xs.toList.map fun b => (items b).length).sum := by
  rw [tagged, List.length_flatMap, ← map_range_getElem? xs.toList (fun b => (items b).length) 0]
  congr 1
  simp only [Array.length_toList, Array.getElem?_toList, List.length_map]
  apply List.map_congr_left
  intro i _
  cases xs[i]? <;> rfl

/-- Collecting something from every item, entry by entry. -/
lemma filterMap_tagged {β γ δ : Type*} (xs : Array β) (items : β → List γ) (f : Nat × γ → Option δ)
    (g : β → γ → Option δ) (same : ∀ i b, xs[i]? = some b → ∀ y, f (i, y) = g b y) :
    (tagged xs items).filterMap f = xs.toList.flatMap fun b => (items b).filterMap (g b) := by
  have entries := map_range_getElem? xs.toList (fun b => (items b).filterMap (g b)) []
  rw [tagged, List.filterMap_flatMap, List.flatMap_def, List.flatMap_def, ← entries]
  congr 1
  simp only [Array.length_toList, Array.getElem?_toList]
  apply List.map_congr_left
  intro i _
  cases hb : xs[i]? with
  | none => rfl
  | some b =>
    simp only [Option.map_some, Option.getD_some, List.filterMap_map]
    exact List.filterMap_congr fun y _ => same i b hb y

/-- Weights that are pointwise no larger and add up to the same are the same. -/
lemma eq_of_sum_eq {β : Type*} {v w : β → Nat} {l : List β} (le : ∀ x ∈ l, v x ≤ w x)
    (total : (l.map v).sum = (l.map w).sum) : ∀ x ∈ l, v x = w x := by
  induction l with
  | nil => simp
  | cons x l ih =>
    have tail : (l.map v).sum ≤ (l.map w).sum :=
      List.sum_le_sum fun y hy => le y (List.mem_cons_of_mem x hy)
    have own := le x List.mem_cons_self
    simp only [List.map_cons, List.sum_cons] at total
    intro y hy
    rcases List.mem_cons.mp hy with rfl | hy
    · omega
    · exact ih (fun y hy => le y (List.mem_cons_of_mem x hy)) (by omega) y hy

/-- Adding up what some elements contribute. -/
lemma sum_map_toMultiset {β γ : Type*} (f : β → Option γ) (l : List β) :
    (l.map fun x => ((f x).toList : Multiset γ)).sum = (l.filterMap f : Multiset γ) := by
  induction l with
  | nil => rfl
  | cons x l ih =>
    rw [List.map_cons, List.sum_cons, ih]
    cases hx : f x with
    | none => simp [hx]
    | some y =>
      rw [List.filterMap_cons_some hx]
      rfl

end CellMachine
