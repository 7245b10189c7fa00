import CellMachine.Proofs.Heap.Reachability

/-!
# Marking

The work list is split from the cells that were visited before. Together they are
exactly the marked cells, each stands there once, and all are reached from the roots.
Every cell that a visited cell leads to is marked as well. So when the work list is
empty, the marked cells are the reached ones, and since each round visits another cell
there are no more rounds than cells.
-/

namespace CellMachine

namespace Marking

variable {α : Type} [Payload α]

omit [Payload α] in
lemma known_mono (visited : List Spot) {pending pending' : List Spot}
    (grows : pending ⊆ pending') : visited ++ pending ⊆ visited ++ pending' :=
  List.append_subset.mpr
    ⟨List.subset_append_left _ _, fun _ hs => List.mem_append_right _ (grows hs)⟩

/-- What holds while a heap without marks is being marked. -/
structure Holds (h : Heap α) (roots : Set Address) (visited : List Spot) (m : Marking α) :
    Prop where
  sound : h.Sound
  clean : ∀ s c, h.cellAt? s = some c → c.isMarked = false
  soundHeap : m.heap.Sound
  layout : m.heap.layout = h.layout
  marks : ∀ s, m.heap.cellAt? s =
    (h.cellAt? s).map fun c => if s ∈ visited ++ m.pending then c.mark else c
  distinct : (visited ++ m.pending).Nodup
  used : ∀ s ∈ visited ++ m.pending, (h.cellAt? s).isSome
  reached : ∀ s ∈ visited ++ m.pending, h.Reaches roots (h.addressOf s)
  counted : m.marked = (visited ++ m.pending).length
  /-- Only cells change. -/
  frame : ∃ allocators, m.heap = { h with allocators }

namespace Holds

variable {h : Heap α} {roots : Set Address} {visited : List Spot} {m : Marking α}

lemma samePayloads (holds : Holds h roots visited m) : h.SamePayloads m.heap := by
  constructor
  · exact holds.layout
  · intro s
    rw [holds.marks s, Option.map_map]
    congr 1
    funext c
    by_cases known : s ∈ visited ++ m.pending
    · simp [known]
    · simp [known]

lemma isMarked_iff (holds : Holds h roots visited m) {s : Spot} {c : Cell α}
    (here : m.heap.cellAt? s = some c) : c.isMarked ↔ s ∈ visited ++ m.pending := by
  rw [holds.marks s, Option.map_eq_some_iff] at here
  obtain ⟨c₀, h₀, rfl⟩ := here
  by_cases known : s ∈ visited ++ m.pending
  · simp [known, Cell.isMarked_mark]
  · simp [known, holds.clean s c₀ h₀]

/-- Reaching a cell makes it known and forgets none. -/
lemma reach (holds : Holds h roots visited m) {s : Spot} (used : (h.cellAt? s).isSome)
    (reached : h.Reaches roots (h.addressOf s)) :
    Holds h roots visited (m.reach s) ∧ s ∈ visited ++ (m.reach s).pending ∧
      m.pending ⊆ (m.reach s).pending := by
  have same := holds.samePayloads.isSome s
  obtain ⟨c, hc⟩ := Option.isSome_iff_exists.mp (same.trans used)
  by_cases known : s ∈ visited ++ m.pending
  · have marked := (holds.isMarked_iff hc).mpr known
    have skip : m.reach s = m := by simp [Marking.reach, hc, marked]
    rw [skip]
    exact ⟨holds, known, fun _ ht => ht⟩
  · have unmarked : c.isMarked = false := by
      simpa using mt (holds.isMarked_iff hc).mp known
    have take : m.reach s = { m with
        heap := m.heap.modifyAt s Cell.mark
        pending := s :: m.pending
        marked := m.marked + 1 } := by
      simp [Marking.reach, hc, unmarked]
    have shuffle : (visited ++ s :: m.pending).Perm (s :: (visited ++ m.pending)) :=
      List.perm_middle
    rw [take]
    refine ⟨?_, by simp, List.subset_cons_self _ _⟩
    constructor
    · exact holds.sound
    · exact holds.clean
    · exact holds.soundHeap.modifyAt s Cell.mark
    · exact (Heap.layout_modifyAt ..).trans holds.layout
    · intro t
      rw [Heap.cellAt?_modifyAt, holds.marks t]
      by_cases eq : s = t
      · subst eq
        cases h.cellAt? s <;> simp [known]
      · have other : t ≠ s := fun h => eq h.symm
        simp [eq, other]
    · exact shuffle.nodup_iff.mpr (List.nodup_cons.mpr ⟨known, holds.distinct⟩)
    · intro t ht
      rcases List.mem_cons.mp (shuffle.mem_iff.mp ht) with rfl | old
      · exact used
      · exact holds.used t old
    · intro t ht
      rcases List.mem_cons.mp (shuffle.mem_iff.mp ht) with rfl | old
      · exact reached
      · exact holds.reached t old
    · rw [shuffle.length_eq, List.length_cons, holds.counted]
    · obtain ⟨allocators, eq⟩ := holds.frame
      exact ⟨_, by rw [Heap.modifyAt, eq]⟩

/-- Roots are counted beside the marks. -/
lemma count (holds : Holds h roots visited m) (n : Nat) :
    Holds h roots visited { m with roots := n } :=
  ⟨holds.sound, holds.clean, holds.soundHeap, holds.layout, holds.marks, holds.distinct,
    holds.used, holds.reached, holds.counted, holds.frame⟩

/-- A visited cell leaves the work list. -/
lemma visit (holds : Holds h roots visited m) {s : Spot} {rest : List Spot}
    (next : m.pending = s :: rest) :
    Holds h roots (s :: visited) { m with pending := rest } := by
  have shuffle : (s :: visited ++ rest).Perm (visited ++ m.pending) := by
    rw [next]
    exact List.perm_middle.symm
  constructor
  · exact holds.sound
  · exact holds.clean
  · exact holds.soundHeap
  · exact holds.layout
  · intro t
    rw [holds.marks t]
    simp only [shuffle.mem_iff]
  · exact shuffle.nodup_iff.mpr holds.distinct
  · intro t ht
    exact holds.used t (shuffle.mem_iff.mp ht)
  · intro t ht
    exact holds.reached t (shuffle.mem_iff.mp ht)
  · rw [shuffle.length_eq]
    exact holds.counted
  · exact holds.frame

end Holds

variable {h : Heap α} {roots : Set Address} {visited : List Spot} {m : Marking α}

/-- The starting point: nothing is marked, nothing known. -/
lemma holds_start (sound : h.Sound) (roots : Set Address) :
    Holds h.unmarkAll roots [] (start h.unmarkAll) := by
  constructor
  · exact sound.unmarkAll
  · intro s c hc
    rw [Heap.cellAt?_unmarkAll, Option.map_eq_some_iff] at hc
    obtain ⟨c₀, _, rfl⟩ := hc
    exact c₀.isMarked_unmark
  · exact sound.unmarkAll
  · rfl
  · intro s
    exact Option.map_id'.symm
  · exact List.nodup_nil
  · intro s hs
    cases hs
  · intro s hs
    cases hs
  · rfl
  · exact ⟨_, rfl⟩

/-- A submitted word that resolves makes its cell known; any other word is passed over. -/
lemma Holds.candidate (holds : Holds h roots visited m) {word : Address} (mem : word ∈ roots) :
    Holds h roots visited (m.candidate word) ∧ m.pending ⊆ (m.candidate word).pending ∧
      ∀ s, h.resolve? word = some s → s ∈ visited ++ (m.candidate word).pending := by
  have resolve := holds.samePayloads.resolve? holds.sound holds.soundHeap word
  cases hit : h.resolve? word with
  | none =>
    have skip : m.candidate word = m := by simp only [Marking.candidate, resolve, hit]
    rw [skip]
    exact ⟨holds, fun _ hs => hs, fun s hs => by cases hs⟩
  | some s =>
    have take : m.candidate word = { m with roots := m.roots + 1 }.reach s := by
      simp only [Marking.candidate, resolve, hit]
    have used : (h.cellAt? s).isSome := holds.sound.resolve?_cellAt? hit
    have reached : h.Reaches roots (h.addressOf s) := .root mem (by rw [Heap.cellFor?, hit]; rfl)
    obtain ⟨holds', known, grows⟩ := (holds.count (m.roots + 1)).reach used reached
    rw [take]
    refine ⟨holds', grows, ?_⟩
    rintro _ ⟨⟩
    exact known

lemma Holds.candidates (words : List Address) (within : ∀ w ∈ words, w ∈ roots) {m : Marking α}
    (holds : Holds h roots visited m) :
    Holds h roots visited (words.foldl Marking.candidate m) ∧
      m.pending ⊆ (words.foldl Marking.candidate m).pending ∧
      ∀ w ∈ words, ∀ s, h.resolve? w = some s →
        s ∈ visited ++ (words.foldl Marking.candidate m).pending := by
  induction words generalizing m with
  | nil => exact ⟨holds, fun _ hs => hs, fun w hw => by cases hw⟩
  | cons word words ih =>
    obtain ⟨first, grows, known⟩ := holds.candidate (within word List.mem_cons_self)
    obtain ⟨last, grows', known'⟩ := ih (fun w hw => within w (List.mem_cons_of_mem _ hw)) first
    refine ⟨last, fun s hs => grows' (grows hs), ?_⟩
    intro w hw s hs
    rcases List.mem_cons.mp hw with rfl | hw
    · exact known_mono visited grows' (known s hs)
    · exact known' w hw s hs

/-- Every live cell that a value of the list refers to is known. -/
def Covers (h : Heap α) (values : List Value) (known : List Spot) : Prop :=
  ∀ x, Value.ref x ∈ values → ∀ t, h.spot? x = some t → t ∈ known

/-- Every visited cell leads to known cells only. -/
def Closed (h : Heap α) (visited : List Spot) (m : Marking α) : Prop :=
  ∀ s ∈ visited, ∀ c, h.cellAt? s = some c →
    Covers h (Payload.children c.payload) (visited ++ m.pending)

omit [Payload α] in
lemma Covers.mono {values : List Value} {known known' : List Spot}
    (covers : Covers h values known) (grows : known ⊆ known') : Covers h values known' :=
  fun x hx t ht => grows (covers x hx t ht)

/-- Following an edge of a reached cell. -/
lemma Holds.edge (holds : Holds h roots visited m) {v : Value}
    (reached : ∀ x, v = .ref x → h.isLive x → h.Reaches roots x) :
    Holds h roots visited (m.edge v) ∧ m.pending ⊆ (m.edge v).pending ∧
      Covers h [v] (visited ++ (m.edge v).pending) := by
  cases v with
  | smallInt n => exact ⟨holds, fun _ hs => hs, fun x hx => by simp at hx⟩
  | double d => exact ⟨holds, fun _ hs => hs, fun x hx => by simp at hx⟩
  | ref x =>
    have found := holds.samePayloads.spot? holds.sound holds.soundHeap x
    cases hit : h.spot? x with
    | none =>
      have skip : m.edge (.ref x) = m := by simp only [Marking.edge, found, hit]
      rw [skip]
      refine ⟨holds, fun _ hs => hs, ?_⟩
      intro y hy t ht
      obtain rfl : y = x := by simpa using hy
      rw [hit] at ht
      cases ht
    | some s =>
      have take : m.edge (.ref x) = m.reach s := by simp only [Marking.edge, found, hit]
      obtain ⟨used, here⟩ := holds.sound.spot?_eq_some_iff.mp hit
      have live : h.isLive x := by simp [Heap.isLive, hit]
      obtain ⟨holds', known, grows⟩ := holds.reach used (here ▸ reached x rfl live)
      rw [take]
      refine ⟨holds', grows, ?_⟩
      intro y hy t ht
      obtain rfl : y = x := by simpa using hy
      obtain rfl : s = t := Option.some.inj (hit.symm.trans ht)
      exact known

lemma Holds.edges (values : List Value)
    (reached : ∀ x, .ref x ∈ values → h.isLive x → h.Reaches roots x) {m : Marking α}
    (holds : Holds h roots visited m) :
    Holds h roots visited (values.foldl Marking.edge m) ∧
      m.pending ⊆ (values.foldl Marking.edge m).pending ∧
      Covers h values (visited ++ (values.foldl Marking.edge m).pending) := by
  induction values generalizing m with
  | nil => exact ⟨holds, fun _ hs => hs, fun x hx => by cases hx⟩
  | cons v values ih =>
    have own : ∀ x, v = .ref x → h.isLive x → h.Reaches roots x :=
      fun x hv live => reached x (hv ▸ List.mem_cons_self) live
    have rest : ∀ x, .ref x ∈ values → h.isLive x → h.Reaches roots x :=
      fun x hx live => reached x (List.mem_cons_of_mem _ hx) live
    obtain ⟨first, grows, covers⟩ := holds.edge own
    obtain ⟨last, grows', covers'⟩ := ih rest first
    refine ⟨last, fun s hs => grows' (grows hs), ?_⟩
    intro x hx t ht
    rcases List.mem_cons.mp hx with rfl | hx
    · exact known_mono visited grows' (covers x List.mem_cons_self t ht)
    · exact covers' x hx t ht

/-- One round: a cell leaves the work list, its edges enter. -/
lemma Holds.round (holds : Holds h roots visited m) (closed : Closed h visited m) {s : Spot}
    {rest : List Spot} (next : m.pending = s :: rest) :
    Holds h roots (s :: visited) ((m.children s).foldl Marking.edge { m with pending := rest }) ∧
      Closed h (s :: visited) ((m.children s).foldl Marking.edge { m with pending := rest }) ∧
      visited ++ m.pending ⊆
        s :: visited ++ ((m.children s).foldl Marking.edge { m with pending := rest }).pending := by
  have known : s ∈ visited ++ m.pending := by simp [next]
  have used := holds.used s known
  obtain ⟨c, hc⟩ := Option.isSome_iff_exists.mp used
  have children : m.children s = Payload.children c.payload := by
    have same := holds.samePayloads.payload s
    rw [hc] at same
    obtain ⟨c', hc', eq⟩ := Option.map_eq_some_iff.mp same
    simp [Marking.children, hc', eq]
  have reached : ∀ x, .ref x ∈ m.children s → h.isLive x → h.Reaches roots x := by
    intro x hx live
    have payload : h.payload? (h.addressOf s) = some c.payload := by
      rw [Heap.payload?, holds.sound.cell?_addressOf used, hc]
      rfl
    exact .edge (holds.reached s known) payload (children ▸ hx) live
  obtain ⟨holds', grows, covers⟩ := (holds.visit next).edges (m.children s) reached
  have keeps : visited ++ m.pending ⊆
      s :: visited ++ ((m.children s).foldl Marking.edge { m with pending := rest }).pending := by
    intro t ht
    rw [next] at ht
    have moved : t ∈ s :: visited ++ rest := List.perm_middle.mem_iff.mp ht
    exact known_mono (s :: visited) grows moved
  refine ⟨holds', ?_, keeps⟩
  intro t ht k hk
  rcases List.mem_cons.mp ht with rfl | ht
  · obtain rfl : c = k := Option.some.inj (hc.symm.trans hk)
    exact children ▸ covers
  · exact (closed t ht k hk).mono keeps

/-- With enough fuel the work list is drained, and all that was known stays known. -/
lemma Holds.drain (fuel : Nat) {visited : List Spot} {m : Marking α}
    (holds : Holds h roots visited m) (closed : Closed h visited m)
    (enough : h.spots.length < fuel + visited.length) :
    ∃ all, Holds h roots all (drain fuel m) ∧ Closed h all (drain fuel m) ∧
      (drain fuel m).pending = [] ∧ visited ++ m.pending ⊆ all := by
  induction fuel generalizing visited m with
  | zero =>
    have distinct := holds.distinct.of_append_left
    have used : ∀ s ∈ visited, (h.cellAt? s).isSome :=
      fun s hs => holds.used s (List.mem_append_left _ hs)
    have bound := holds.sound.length_le_spots distinct used
    omega
  | succ fuel ih =>
    cases next : m.pending with
    | nil =>
      have stop : Marking.drain (fuel + 1) m = m := by simp only [Marking.drain, next]
      rw [stop]
      exact ⟨visited, holds, closed, next, by simp⟩
    | cons s rest =>
      have go : Marking.drain (fuel + 1) m =
          Marking.drain fuel ((m.children s).foldl Marking.edge { m with pending := rest }) := by
        simp only [Marking.drain, next]
      obtain ⟨holds', closed', keeps⟩ := holds.round closed next
      have enough' : h.spots.length < fuel + (s :: visited).length := by
        rw [List.length_cons]
        omega
      obtain ⟨all, last, closed_all, empty, keeps'⟩ := ih holds' closed' enough'
      rw [go, ← next]
      exact ⟨all, last, closed_all, empty, fun t ht => keeps' (keeps ht)⟩

/-- As many rounds as there are slots are enough. -/
lemma Holds.finish (holds : Holds h roots [] m) :
    ∃ all, Holds h roots all m.finish ∧ Closed h all m.finish ∧ m.finish.pending = [] ∧
      m.pending ⊆ all := by
  have used : ∀ s ∈ h.spots, (m.heap.cellAt? s).isSome := by
    intro s hs
    rw [holds.samePayloads.isSome]
    exact holds.sound.mem_spots.mp hs
  have within := holds.soundHeap.length_le_spots h.nodup_spots used
  have slots := holds.soundHeap.freeCells_add_spots
  exact holds.drain (m.heap.totalCells + 1) (fun s hs => by cases hs) (by rw [List.length_nil]; omega)

end Marking

end CellMachine
