import CellMachine.Proofs.Heap.Growth
import CellMachine.Proofs.Threads.Beats
import CellMachine.Proofs.Threads.Pending

/-!
# Counting the live cells

The cells in use are counted as all cells less the free ones. Each of the two numbers is a sum
over the classes, and every class is looked at by itself: first the totals are read, then what is
free. Between two looks other threads allocate, add blocks and collect. Blocks never go, so that
only growth between the two looks at a class leads the numbers apart. If it makes more cells than
are in use, more cells are found free than there were.
-/

namespace CellMachine

namespace Heap

variable {α : Type} {h h' : Heap α} {c : Nat}

def totalIn (h : Heap α) (c : Nat) : Nat :=
  ((h.allocators[c]?).map Allocator.totalCells).getD 0

def freeIn (h : Heap α) (c : Nat) : Nat :=
  ((h.allocators[c]?).map Allocator.freeCells).getD 0

lemma totalIn_of_some {a : Allocator α} (here : h.allocators[c]? = some a) :
    h.totalIn c = a.totalCells := by rw [totalIn, here]; rfl

lemma freeIn_of_some {a : Allocator α} (here : h.allocators[c]? = some a) :
    h.freeIn c = a.freeCells := by rw [freeIn, here]; rfl

lemma Sound.freeIn_add_liveIn (sound : h.Sound) (c : Nat) :
    h.freeIn c + h.liveIn c = h.totalIn c := by
  rw [freeIn, liveIn, totalIn]
  cases here : h.allocators[c]? with
  | none => rfl
  | some a => exact Nat.add_sub_cancel' (sound.allocator c a here).freeCells_le

/-- The heap later: the same classes, with the blocks that they had and perhaps more. -/
structure Grows (h h' : Heap α) : Prop where
  layout : h'.layout = h.layout
  blocks : ∀ c, h.blockCount c ≤ h'.blockCount c

namespace Grows

lemma refl (h : Heap α) : h.Grows h := ⟨rfl, fun _ => le_rfl⟩

lemma trans {h'' : Heap α} (first : h.Grows h') (second : h'.Grows h'') : h.Grows h'' :=
  ⟨second.layout.trans first.layout, fun c => (first.blocks c).trans (second.blocks c)⟩

lemma totalIn_eq (grows : h.Grows h') {a : Allocator α} (here : h.allocators[c]? = some a) :
    h'.totalIn c = h'.blockCount c * a.cellsPerBlock := by
  obtain ⟨a', here', size⟩ := exists_of_layout grows.layout here
  rw [totalIn_of_some here', blockCount_of_some here', Allocator.totalCells, Allocator.cellsPerBlock,
    Allocator.cellsPerBlock, size]

lemma totalIn_le (grows : h.Grows h') (c : Nat) : h.totalIn c ≤ h'.totalIn c := by
  cases here : h.allocators[c]? with
  | none =>
    rw [totalIn, here]
    exact Nat.zero_le _
  | some a =>
    rw [(refl h).totalIn_eq here, grows.totalIn_eq here]
    exact Nat.mul_le_mul_right _ (grows.blocks c)

/-- The cells of a class are more just if its blocks are. -/
lemma totalIn_congr (grows : h.Grows h') (same : h'.blockCount c = h.blockCount c) :
    h'.totalIn c = h.totalIn c := by
  cases here : h.allocators[c]? with
  | none =>
    have beyond : h'.allocators[c]? = none := by
      have same := congrArg (·[c]?) grows.layout
      simpa [Heap.layout, here] using same
    rw [totalIn, totalIn, here, beyond]
  | some a => rw [(refl h).totalIn_eq here, grows.totalIn_eq here, same]

lemma of_modifyClass (h : Heap α) (c : Nat) {f : Allocator α → Allocator α}
    (keeps : ∀ a : Allocator α, a.Keeps (f a)) : h.Grows (h.modifyClass c f) := by
  refine ⟨layout_modifyClass h c fun a => ⟨(keeps a).cellSize, (keeps a).place⟩, fun d => ?_⟩
  rw [blockCount, blockCount, getElem?_modifyClass]
  cases h.allocators[d]? with
  | none => rfl
  | some a =>
    by_cases same : c = d
    · rw [if_pos same]
      exact (keeps a).blocks
    · rw [if_neg same]
      rfl

end Grows

lemma Touch.grows (change : Touch h h') : h.Grows h' := by
  cases change with
  | edit s f => exact .of_modifyClass h s.sizeClass fun a => a.keeps_modifyCell s.slot f
  | addRoot v =>
    rw [addGlobalRoot]
    split
    · exact ⟨rfl, fun _ => le_rfl⟩
    · exact .refl h
  | _ => exact ⟨rfl, fun _ => le_rfl⟩

variable [Payload α]

lemma Mutation.grows (change : Mutation h h') : h.Grows h' := by
  cases change with
  | touch change => exact change.grows
  | prewarm c => exact .of_modifyClass h c fun a => a.keeps_addBlocks _
  | grow c => exact .of_modifyClass h c fun a => a.keeps_growTo _
  | @claim c payload fits =>
    have room : h.Grows (h.modifyClass c Allocator.ensureRoom) :=
      .of_modifyClass h c Allocator.keeps_ensureRoom
    rw [allocateIn]
    split
    · exact room.trans (.of_modifyClass _ _ fun a => a.keeps_fill _ _)
    · exact room
  | offerInOrder c order =>
    refine .of_modifyClass h c fun a => ?_
    split
    · exact ⟨rfl, rfl, le_rfl⟩
    · exact .refl a

lemma grows_of_mutations (changes : Relation.ReflTransGen Mutation h h') : h.Grows h' := by
  induction changes with
  | refl => exact .refl h
  | tail _ change ih => exact ih.trans change.grows

lemma Sound.grows_runCycle (sound : h.Sound) (inputs : List RootSet) :
    h.Grows (h.runCycle inputs) :=
  ⟨sound.layout_runCycle inputs, fun c => (congrFun (blockCount_runCycle h inputs) c).ge⟩

end Heap

/-- A subtraction of numbers without sign: there is nothing that more could be taken from. -/
def difference? (total free : Nat) : Option Nat :=
  if free ≤ total then some (total - free) else none

lemma difference?_congr {a b c d : Nat} (balance : a + d = b + c) :
    difference? a b = difference? c d := by
  rw [difference?, difference?]
  split
  · rw [if_pos (by omega)]
    congr 1
    omega
  · rw [if_neg (by omega)]

/-- What a thread that counts has read so far, class by class. -/
structure Reading where
  totals : List Nat
  frees : List Nat

namespace Reading

def empty : Reading := ⟨[], []⟩

/-- All cells less the free ones. -/
def live? (r : Reading) : Option Nat := difference? r.totals.sum r.frees.sum

/-- One look at one class: at its total, or at its free cells once all totals are known. There is
nothing left to look at when both are known of every class. -/
def look? {α : Type} (r : Reading) (h : Heap α) : Option Reading :=
  match h.allocators[r.totals.length]? with
  | some a => some { r with totals := r.totals ++ [a.totalCells] }
  | none =>
    (h.allocators[r.frees.length]?).map fun a => { r with frees := r.frees ++ [a.freeCells] }

/-- Each of the classes has been looked at twice. -/
def Complete (r : Reading) (classes : Nat) : Prop :=
  r.totals.length = classes ∧ r.frees.length = classes

end Reading

/-- A thread that counts live cells now and then. -/
structure Counter (σ : Type) where
  own : σ
  reading : Reading

namespace Counter

variable {α σ : Type}

/-- The next look of a call, or its end. -/
def look (t : Counter σ) (next : Option Nat → σ) (h : Heap α) : Counter σ :=
  match t.reading.look? h with
  | some r => { t with reading := r }
  | none => ⟨next t.reading.live?, .empty⟩

end Counter

variable {α ω σ : Type}

/-- The same move of a thread whose state has a further part. -/
def Move.map {τ : Type} (f : σ → τ) : Move α ω σ → Move α ω τ
  | halt => .halt
  | register next => .register (f next)
  | allocate payload next => .allocate payload fun result => f (next result)
  | collect next => .collect fun ran => f (next ran)
  | safepoint next => .safepoint (f next)
  | update act => .update fun shared => (f (act shared).1, (act shared).2)
  | deregister next => .deregister (f next)

/-- The program whose threads count the live cells where `asks` says so, and go on with what they
are told. -/
def Program.counting (p : Program α ω σ) (asks : σ → Option (Option Nat → σ)) :
    Program α ω (Counter σ) where
  roots t := p.roots t.own
  move t :=
    match asks t.own with
    | some next => .update fun shared => (t.look next shared.heap, shared)
    | none => (p.move t.own).map fun own => ⟨own, .empty⟩

section Moves

variable {p : Program α ω σ} {asks : σ → Option (Option Nat → σ)} {t : Counter σ}

lemma Program.counting_move_of_some {next : Option Nat → σ} (asked : asks t.own = some next) :
    (p.counting asks).move t = .update fun shared => (t.look next shared.heap, shared) := by
  simp only [Program.counting, asked]

lemma Program.counting_move_of_none (silent : asks t.own = none) :
    (p.counting asks).move t = (p.move t.own).map fun own => ⟨own, .empty⟩ := by
  simp only [Program.counting, silent]

/-- A thread looks at its next class or does what it would do otherwise. -/
lemma Program.counting_cases {move : Move α ω (Counter σ)} (moves : (p.counting asks).move t = move) :
    (∃ next, asks t.own = some next ∧
      (Move.update fun shared => (t.look next shared.heap, shared)) = move) ∨
    ((p.move t.own).map fun own => ⟨own, .empty⟩) = move := by
  cases asked : asks t.own with
  | some next => exact .inl ⟨next, rfl, counting_move_of_some asked ▸ moves⟩
  | none => exact .inr (counting_move_of_none asked ▸ moves)

end Moves

variable {p : Program α ω σ} {asks : σ → Option (Option Nat → σ)} {held : σ → Nat}

/-- Counting takes no registration and gives none up. -/
lemma Program.Lawful.counting (lawful : p.Lawful held)
    (keeps : ∀ own next, asks own = some next → ∀ live, held (next live) = held own) :
    (p.counting asks).Lawful fun t => held t.own := by
  constructor
  · intro t next move
    obtain ⟨_, _, same⟩ | same := counting_cases move
    · cases same
    · cases real : p.move t.own <;> rw [real] at same <;> cases same
      exact lawful.register _ _ real
  · intro t payload next move
    obtain ⟨_, _, same⟩ | same := counting_cases move
    · cases same
    · cases real : p.move t.own <;> rw [real] at same <;> cases same
      exact lawful.allocate _ _ _ real
  · intro t next move
    obtain ⟨_, _, same⟩ | same := counting_cases move
    · cases same
    · cases real : p.move t.own <;> rw [real] at same <;> cases same
      exact lawful.collect _ _ real
  · intro t next move
    obtain ⟨_, _, same⟩ | same := counting_cases move
    · cases same
    · cases real : p.move t.own <;> rw [real] at same <;> cases same
      exact lawful.safepoint _ _ real
  · intro t act move shared
    obtain ⟨next, asked, same⟩ | same := counting_cases move
    · cases same
      refine ⟨?_, .refl⟩
      change held (t.look next shared.heap).own = held t.own
      rw [Counter.look]
      split
      · rfl
      · exact keeps _ next asked _
    · cases real : p.move t.own <;> rw [real] at same <;> cases same
      exact lawful.update _ _ real shared
  · intro t next move
    obtain ⟨_, _, same⟩ | same := counting_cases move
    · cases same
    · cases real : p.move t.own <;> rw [real] at same <;> cases same
      exact lawful.deregister _ _ real

variable [Payload α]

/-- What a step of a thread does to its reading: nothing, or it is in no call afterwards, or it was
a look. -/
lemma Beat.reading_cases {shared shared' : Shared α ω} {t t' : Counter σ}
    (beat : Beat (p.counting asks) shared t t' shared') :
    t' = t ∨ t'.reading = .empty ∨
      ∃ r, t.reading.look? shared.heap = some r ∧ t' = ⟨t.own, r⟩ := by
  cases beat with
  | stay => exact .inl rfl
  | room => exact .inl rfl
  | @update act move =>
    obtain ⟨next, _, same⟩ | same := Program.counting_cases move
    · cases same
      cases looked : t.reading.look? shared.heap with
      | some r => exact .inr (.inr ⟨r, rfl, by simp only [Counter.look, looked]⟩)
      | none => exact .inr (.inl (by simp only [Counter.look, looked]))
    · cases real : p.move t.own <;> rw [real] at same <;> cases same
      exact .inr (.inl rfl)
  | claim move =>
    obtain ⟨_, _, same⟩ | same := Program.counting_cases move
    · cases same
    · cases real : p.move t.own <;> rw [real] at same <;> cases same
      exact .inr (.inl rfl)
  | refuse move =>
    obtain ⟨_, _, same⟩ | same := Program.counting_cases move
    · cases same
    · cases real : p.move t.own <;> rw [real] at same <;> cases same
      exact .inr (.inl rfl)
  | answer ends =>
    right
    left
    cases asked : asks t.own with
    | some next =>
      rw [Program.counting_move_of_some asked] at ends
      exact ends.elim
    | none =>
      rw [Program.counting_move_of_none asked] at ends
      cases real : p.move t.own with
      | collect next =>
        rw [real] at ends
        obtain ⟨ran, rfl⟩ := ends
        rfl
      | register | safepoint | deregister =>
        rw [real] at ends
        cases ends
        rfl
      | halt | allocate | update =>
        rw [real] at ends
        exact ends.elim

namespace MutatorSystem

variable {s : MutatorSystem α ω σ} {schedule : Nat → Nat}

/-- No block goes in a step of a run. -/
lemma Starts.grows (starts : s.Starts p held) (schedule : Nat → Nat) (n : Nat) :
    (s.run p schedule n).shared.heap.Grows (s.run p schedule (n + 1)).shared.heap := by
  obtain ⟨phase, inv⟩ := starts.rendezvous schedule n
  rcases inv.step_cases starts.lawful (schedule n) with same | ⟨t, g, t', here, change, _, eq⟩
  · rw [run, same]
    exact .refl _
  · rw [run, eq]
    change Heap.Grows _ g.shared.heap
    cases change with
    | outside _ _ _ mutations => exact Heap.grows_of_mutations mutations
    | collect => exact inv.heap.sound.grows_runCycle _
    | _ => exact .refl _

lemma Starts.grows_of_le (starts : s.Starts p held) (schedule : Nat → Nat) {m n : Nat}
    (later : m ≤ n) :
    (s.run p schedule m).shared.heap.Grows (s.run p schedule n).shared.heap := by
  induction n, later using Nat.le_induction with
  | base => exact .refl _
  | succ n _ ih => exact ih.trans (starts.grows schedule n)

end MutatorSystem

/-- Threads on a reachable heap, none of them registered or in the middle of a call. Counting takes
no registration and gives none up. -/
structure MutatorSystem.OpensCounting (p : Program α ω σ) (asks : σ → Option (Option Nat → σ))
    (held : σ → Nat) (s : MutatorSystem α ω (Counter σ)) : Prop where
  lawful : p.Lawful held
  keeps : ∀ own next, asks own = some next → ∀ live, held (next live) = held own
  start : ∃ (h : Heap α) (world : ω) (threads : List σ), h.Reachable ∧
    (∀ own ∈ threads, held own = 0) ∧
    s = .start h world (threads.map fun own => ⟨own, .empty⟩)

namespace MutatorSystem

variable {s : MutatorSystem α ω (Counter σ)} {schedule : Nat → Nat} {n i : Nat} {t : Counter σ}
  {first last : Nat → Nat}

/-- The heap at a moment of a run. -/
def heapAt (p : Program α ω σ) (asks : σ → Option (Option Nat → σ)) (schedule : Nat → Nat)
    (s : MutatorSystem α ω (Counter σ)) (m : Nat) : Heap α :=
  (s.run (p.counting asks) schedule m).shared.heap

/-- At this moment it is the turn of the thread, and this is its state. -/
def TurnOf (p : Program α ω σ) (asks : σ → Option (Option Nat → σ)) (schedule : Nat → Nat)
    (s : MutatorSystem α ω (Counter σ)) (m i : Nat) (t : Counter σ) : Prop :=
  schedule m = i ∧ ∃ stage, (s.run (p.counting asks) schedule m).threads[i]? = some ⟨t, stage⟩

/-- Every number that the thread has read so far was right at the moment when it looked: at
`first c` it looked at the total of the class `c`, at `last c` at what is free in it. -/
structure HasRead (p : Program α ω σ) (asks : σ → Option (Option Nat → σ)) (schedule : Nat → Nat)
    (s : MutatorSystem α ω (Counter σ)) (n i : Nat) (t : Counter σ) (first last : Nat → Nat) :
    Prop where
  total : ∀ c v, t.reading.totals[c]? = some v → first c < n ∧
    s.TurnOf p asks schedule (first c) i ⟨t.own, ⟨t.reading.totals.take c, []⟩⟩ ∧
    v = (s.heapAt p asks schedule (first c)).totalIn c
  free : ∀ d v, t.reading.frees[d]? = some v → last d < n ∧
    s.TurnOf p asks schedule (last d) i ⟨t.own, ⟨t.reading.totals, t.reading.frees.take d⟩⟩ ∧
    v = (s.heapAt p asks schedule (last d)).freeIn d
  /-- All totals are read before anything free is. -/
  order : ∀ c d, c < t.reading.totals.length → d < t.reading.frees.length → first c < last d
  totals_first : t.reading.frees ≠ [] → t.reading.totals.length = s.shared.heap.allocators.size
  within : t.reading.totals.length ≤ s.shared.heap.allocators.size

lemma hasRead_of_empty (empty : t.reading = .empty) (first last : Nat → Nat) :
    s.HasRead p asks schedule n i t first last := by
  obtain ⟨own, reading⟩ := t
  obtain rfl : reading = .empty := empty
  constructor
  · exact fun c v here => nomatch here
  · exact fun c v here => nomatch here
  · exact fun c d below => absurd below (Nat.not_lt_zero c)
  · exact fun some_free => absurd rfl some_free
  · exact Nat.zero_le _

lemma HasRead.succ (read : s.HasRead p asks schedule n i t first last) :
    s.HasRead p asks schedule (n + 1) i t first last := by
  constructor
  · intro c v here
    obtain ⟨before, rest⟩ := read.total c v here
    exact ⟨Nat.lt_succ_of_lt before, rest⟩
  · intro d v here
    obtain ⟨before, rest⟩ := read.free d v here
    exact ⟨Nat.lt_succ_of_lt before, rest⟩
  · exact read.order
  · exact read.totals_first
  · exact read.within

/-- An entry of a list that has got one more is an old one or the new one. -/
lemma getElem?_concat_cases {l : List Nat} {x v c : Nat} (here : (l ++ [x])[c]? = some v) :
    c < l.length ∧ l[c]? = some v ∨ c = l.length ∧ v = x := by
  rcases lt_trichotomy c l.length with below | rfl | above
  · exact .inl ⟨below, List.getElem?_append_left below ▸ here⟩
  · rw [List.getElem?_concat_length] at here
    exact .inr ⟨rfl, (Option.some.inj here).symm⟩
  · rw [List.getElem?_eq_none (by rw [List.length_append, List.length_singleton]; omega)] at here
    cases here

/-- A look adds one number, which is right at this moment. -/
lemma HasRead.look (read : s.HasRead p asks schedule n i t first last)
    (turn : s.TurnOf p asks schedule n i t) {r : Reading}
    (classes : (s.heapAt p asks schedule n).allocators.size = s.shared.heap.allocators.size)
    (looked : t.reading.look? (s.heapAt p asks schedule n) = some r) :
    ∃ first' last', s.HasRead p asks schedule (n + 1) i ⟨t.own, r⟩ first' last' := by
  obtain ⟨own, totals, frees⟩ := t
  rw [Reading.look?] at looked
  dsimp only at looked
  split at looked
  · rename_i a here
    cases looked
    have below := (Array.getElem?_eq_some_iff.mp here).1
    obtain rfl : frees = [] := by
      by_contra some_free
      have all := read.totals_first some_free
      dsimp only at all
      omega
    refine ⟨Function.update first totals.length n, last, ?_, ?_, ?_, ?_, ?_⟩
    · intro c v there
      rcases getElem?_concat_cases there with ⟨old, there⟩ | ⟨rfl, rfl⟩
      · obtain ⟨before, turn, right⟩ := read.total c v there
        rw [Function.update_of_ne old.ne, List.take_append_of_le_length old.le]
        exact ⟨Nat.lt_succ_of_lt before, turn, right⟩
      · rw [Function.update_self, List.take_left]
        exact ⟨Nat.lt_succ_self n, turn, (Heap.totalIn_of_some here).symm⟩
    · exact fun d v there => nomatch there
    · exact fun c d _ below => absurd below (Nat.not_lt_zero d)
    · exact fun some_free => absurd rfl some_free
    · change (totals ++ [a.totalCells]).length ≤ _
      rw [List.length_append, List.length_singleton]
      omega
  · rename_i beyond
    obtain ⟨a, here, rfl⟩ := Option.map_eq_some_iff.mp looked
    have all : totals.length = s.shared.heap.allocators.size :=
      le_antisymm read.within (classes ▸ Array.getElem?_eq_none_iff.mp beyond)
    refine ⟨first, Function.update last frees.length n, ?_, ?_, ?_, fun _ => all, all.le⟩
    · intro c v there
      obtain ⟨before, rest⟩ := read.total c v there
      exact ⟨Nat.lt_succ_of_lt before, rest⟩
    · intro d v there
      rcases getElem?_concat_cases there with ⟨old, there⟩ | ⟨rfl, rfl⟩
      · obtain ⟨before, turn, right⟩ := read.free d v there
        rw [Function.update_of_ne old.ne]
        change _ ∧ s.TurnOf p asks schedule _ i ⟨own, ⟨totals, (frees ++ [a.freeCells]).take d⟩⟩ ∧ _
        rw [List.take_append_of_le_length old.le]
        exact ⟨Nat.lt_succ_of_lt before, turn, right⟩
      · rw [Function.update_self]
        change _ ∧ s.TurnOf p asks schedule _ i
          ⟨own, ⟨totals, (frees ++ [a.freeCells]).take frees.length⟩⟩ ∧ _
        rw [List.take_left]
        exact ⟨Nat.lt_succ_self n, turn, (Heap.freeIn_of_some here).symm⟩
    · intro c d total_below free_below
      rw [List.length_append, List.length_singleton] at free_below
      by_cases same : d = frees.length
      · subst same
        rw [Function.update_self]
        exact (read.total c _ (List.getElem?_eq_getElem total_below)).1
      · rw [Function.update_of_ne same]
        exact read.order c d total_below (by dsimp only; omega)

namespace OpensCounting

lemma starts (opens : s.OpensCounting p asks held) :
    s.Starts (p.counting asks) fun t => held t.own := by
  obtain ⟨h, world, threads, reachable, unregistered, rfl⟩ := opens.start
  refine ⟨opens.lawful.counting opens.keeps, h, world, _, reachable, ?_, rfl⟩
  intro t mem
  obtain ⟨own, there, rfl⟩ := List.mem_map.mp mem
  exact unregistered own there

lemma sound (opens : s.OpensCounting p asks held) (schedule : Nat → Nat) (n : Nat) :
    (s.heapAt p asks schedule n).Sound :=
  (opens.starts.rendezvous schedule n).choose_spec.heap.sound

lemma classes (opens : s.OpensCounting p asks held) (schedule : Nat → Nat) (n : Nat) :
    (s.heapAt p asks schedule n).allocators.size = s.shared.heap.allocators.size := by
  have grows := opens.starts.grows_of_le schedule (Nat.zero_le n)
  have same := congrArg Array.size grows.layout
  rwa [Heap.layout, Heap.layout, Array.size_map, Array.size_map] at same

lemma grows (opens : s.OpensCounting p asks held) (schedule : Nat → Nat) {m n : Nat}
    (later : m ≤ n) : (s.heapAt p asks schedule m).Grows (s.heapAt p asks schedule n) :=
  opens.starts.grows_of_le schedule later

/-- What a thread has read is right, after any number of steps. -/
lemma hasRead (opens : s.OpensCounting p asks held) (schedule : Nat → Nat) (n : Nat) :
    ∀ (i : Nat) t stage, (s.run (p.counting asks) schedule n).threads[i]? = some ⟨t, stage⟩ →
      ∃ first last, s.HasRead p asks schedule n i t first last := by
  induction n with
  | zero =>
    intro i t stage here
    obtain ⟨h, world, threads, _, _, rfl⟩ := opens.start
    rw [run, Rendezvous.getElem?_start, List.getElem?_map] at here
    simp only [Option.map_map, Option.map_eq_some_iff] at here
    obtain ⟨own, _, same⟩ := here
    cases same
    exact ⟨id, id, hasRead_of_empty rfl id id⟩
  | succ n ih =>
    intro i t stage there
    have still : ∀ stage', (s.run (p.counting asks) schedule n).threads[i]? = some ⟨t, stage'⟩ →
        ∃ first last, s.HasRead p asks schedule (n + 1) i t first last := by
      intro stage' here
      obtain ⟨first, last, read⟩ := ih i t stage' here
      exact ⟨first, last, read.succ⟩
    by_cases turn : schedule n = i
    · subst turn
      by_cases collects : (s.run (p.counting asks) schedule n).Collects (schedule n)
      · obtain ⟨⟨u, stage'⟩, g, u', here, own, _, _, eq⟩ :=
          step_of_collects (p := p.counting asks) collects
        rw [run, eq, getElem?_changed here, if_pos rfl] at there
        cases there
        cases own
        exact still _ here
      · rcases opens.starts.beats collects with same | ⟨⟨u, stage'⟩, g, u', here, beat, eq⟩
        · exact still stage (same ▸ there)
        · rw [eq, getElem?_changed here, if_pos rfl] at there
          cases there
          rcases beat.reading_cases with rfl | empty | ⟨r, looked, rfl⟩
          · exact still _ here
          · exact ⟨id, id, hasRead_of_empty empty id id⟩
          · obtain ⟨first, last, read⟩ := ih _ _ _ here
            exact read.look ⟨rfl, _, here⟩ (opens.classes schedule n) looked
    · exact still stage (opens.starts.getElem?_run_succ turn ▸ there)

end OpensCounting

/-- The cells of the blocks that a class has got between the two looks at it. -/
def added (p : Program α ω σ) (asks : σ → Option (Option Nat → σ)) (schedule : Nat → Nat)
    (s : MutatorSystem α ω (Counter σ)) (first last : Nat → Nat) (c : Nat) : Nat :=
  (s.heapAt p asks schedule (last c)).totalIn c - (s.heapAt p asks schedule (first c)).totalIn c

/-- The sum over all classes. -/
def overClasses (s : MutatorSystem α ω (Counter σ)) (f : Nat → Nat) : Nat :=
  ((List.range s.shared.heap.allocators.size).map f).sum

omit [Payload α] in
lemma sum_eq_overClasses {l : List Nat} {f : Nat → Nat}
    (all : l.length = s.shared.heap.allocators.size) (each : ∀ c v, l[c]? = some v → v = f c) :
    l.sum = s.overClasses f := by
  have same : l = (List.range s.shared.heap.allocators.size).map f := by
    apply List.ext_getElem (by rw [List.length_map, List.length_range, all])
    intro c below _
    rw [List.getElem_map, List.getElem_range]
    exact each c _ (List.getElem?_eq_getElem below)
  rw [same, overClasses]

/-- The totals and what the classes got afterwards are what was found free and what was in use
then. -/
lemma HasRead.balance (read : s.HasRead p asks schedule n i t first last)
    (opens : s.OpensCounting p asks held)
    (complete : t.reading.Complete s.shared.heap.allocators.size) :
    t.reading.totals.sum + s.overClasses (s.added p asks schedule first last) =
      t.reading.frees.sum +
        s.overClasses fun c => (s.heapAt p asks schedule (last c)).liveIn c := by
  have each : ∀ c ∈ List.range s.shared.heap.allocators.size,
      (s.heapAt p asks schedule (first c)).totalIn c + s.added p asks schedule first last c =
        (s.heapAt p asks schedule (last c)).freeIn c +
          (s.heapAt p asks schedule (last c)).liveIn c := by
    intro c mem
    have below := List.mem_range.mp mem
    have earlier := read.order c c (complete.1 ▸ below) (complete.2 ▸ below)
    have grows := opens.grows schedule earlier.le
    rw [(opens.sound schedule (last c)).freeIn_add_liveIn c]
    exact Nat.add_sub_cancel' (grows.totalIn_le c)
  rw [sum_eq_overClasses complete.1 fun c v here => (read.total c v here).2.2,
    sum_eq_overClasses complete.2 fun c v here => (read.free c v here).2.2]
  simp only [overClasses]
  rw [← List.sum_map_add, ← List.sum_map_add, List.map_congr_left each]

/-- What comes of the calls that count the live cells in a run. -/
structure CountsCells (p : Program α ω σ) (asks : σ → Option (Option Nat → σ))
    (schedule : Nat → Nat) (s : MutatorSystem α ω (Counter σ)) : Prop where
  /-- Every number that a thread has read was right when it looked. -/
  read : ∀ (n i : Nat) t stage,
    (s.run (p.counting asks) schedule n).threads[i]? = some ⟨t, stage⟩ →
      ∃ first last, s.HasRead p asks schedule n i t first last
  /-- A thread that has looked at everything goes on with its answer. -/
  ends : ∀ (n i : Nat) t stage next,
    (s.run (p.counting asks) schedule n).threads[i]? = some ⟨t, stage⟩ → schedule n = i →
      asks t.own = some next → t.reading.Complete s.shared.heap.allocators.size →
      (s.run (p.counting asks) schedule (n + 1)).threads[i]? =
        some ⟨⟨next t.reading.live?, .empty⟩, .between⟩
  /-- The answer is the number of cells that were in use when the free ones were read, less the
  cells that came between the two looks. If more came than were in use there is none. -/
  answer : ∀ n i t first last, s.HasRead p asks schedule n i t first last →
    t.reading.Complete s.shared.heap.allocators.size →
    t.reading.live? = difference?
      (s.overClasses fun c => (s.heapAt p asks schedule (last c)).liveIn c)
      (s.overClasses (s.added p asks schedule first last))
  /-- If no class grows between the two looks at it, the answer is what was in use. -/
  steady : ∀ n i t first last, s.HasRead p asks schedule n i t first last →
    t.reading.Complete s.shared.heap.allocators.size →
    (∀ c < s.shared.heap.allocators.size, (s.heapAt p asks schedule (last c)).blockCount c =
      (s.heapAt p asks schedule (first c)).blockCount c) →
    t.reading.live? =
      some (s.overClasses fun c => (s.heapAt p asks schedule (last c)).liveIn c)
  /-- Whoever looks at all classes at once finds no more free cells than cells. -/
  at_once : ∀ n, (s.heapAt p asks schedule n).freeCells ≤ (s.heapAt p asks schedule n).totalCells

/-- However the looks of the threads that count are interleaved with allocations, growth and
collections: what is counted is wrong by what the classes grow between two looks, and by nothing
else. -/
theorem countsCells (opens : s.OpensCounting p asks held) (schedule : Nat → Nat) :
    s.CountsCells p asks schedule := by
  constructor
  · exact opens.hasRead schedule
  · rintro n i t stage next here rfl asked complete
    have move := Program.counting_move_of_some (p := p) asked
    obtain rfl := (opens.starts.follows schedule n _ _ here).eq_between move
    have finished : t.reading.look? (s.heapAt p asks schedule n) = none := by
      have none_left := Array.getElem?_eq_none (opens.classes schedule n).le
      rw [Reading.look?, complete.1, complete.2, none_left]
      rfl
    rw [run, step_of_update here move, getElem?_changed here, if_pos rfl]
    change some (⟨t.look next (s.heapAt p asks schedule n), .between⟩ : MutatorThread α (Counter σ)) = _
    rw [Counter.look, finished]
  · exact fun n i t first last read complete => difference?_congr (read.balance opens complete)
  · intro n i t first last read complete same
    have nothing : s.overClasses (s.added p asks schedule first last) = 0 := by
      refine List.sum_eq_zero fun k mem => ?_
      obtain ⟨c, there, rfl⟩ := List.mem_map.mp mem
      have below := List.mem_range.mp there
      have earlier := read.order c c (complete.1 ▸ below) (complete.2 ▸ below)
      have grows := opens.grows schedule earlier.le
      rw [added, grows.totalIn_congr (same c below), Nat.sub_self]
    rw [Reading.live?, difference?_congr (read.balance opens complete), nothing]
    rfl
  · exact fun n => (opens.sound schedule n).freeCells_add_spots ▸ Nat.le_add_right _ _

/-- The thread that starts with 0 counts the live cells and ends with 1, or with 2 if there is no
answer. The thread that starts with 3 allocates one node. -/
def census : Program Node Unit Nat where
  roots _ := []
  move
    | 3 => .register 4
    | 4 => .allocate ⟨1, "node", 8, 8, []⟩ fun _ => 5
    | 5 => .deregister 6
    | _ => .halt

def censusHeld : Nat → Nat
  | 4 | 5 => 1
  | _ => 0

def censusAsks : Nat → Option (Option Nat → Nat)
  | 0 => some fun live => if live.isSome then 1 else 2
  | _ => none

lemma lawful_census : census.Lawful censusHeld := by
  constructor
  · intro own next move
    match own with
    | 3 =>
      cases move
      rfl
    | 0 | 1 | 2 | 4 | 5 | _ + 6 => cases move
  · intro own payload next move
    match own with
    | 4 =>
      cases move
      exact ⟨by decide, fun _ => rfl⟩
    | 0 | 1 | 2 | 3 | 5 | _ + 6 => cases move
  · intro own next move
    match own with
    | 0 | 1 | 2 | 3 | 4 | 5 | _ + 6 => cases move
  · intro own next move
    match own with
    | 0 | 1 | 2 | 3 | 4 | 5 | _ + 6 => cases move
  · intro own act move
    match own with
    | 0 | 1 | 2 | 3 | 4 | 5 | _ + 6 => cases move
  · intro own next move
    match own with
    | 5 =>
      cases move
      rfl
    | 0 | 1 | 2 | 3 | 4 | _ + 6 => cases move

def censusTakers : MutatorSystem Node Unit (Counter Nat) :=
  .start Heap.oneClass () [⟨0, .empty⟩, ⟨3, .empty⟩]

lemma opens_censusTakers : censusTakers.OpensCounting census censusAsks censusHeld := by
  refine ⟨lawful_census, ?_, Heap.oneClass, (), [0, 3], Heap.reachable_oneClass, by decide, rfl⟩
  intro own next asked live
  match own with
  | 0 =>
    cases asked
    cases live <;> rfl
  | _ + 1 => cases asked

/-- The first thread looks at the total, then the second gives the class its first blocks, and then
the first looks at what is free. -/
def overtaking (n : Nat) : Nat := [0, 1, 1, 1, 0, 0].getD n 0

set_option maxRecDepth 10000 in
/-- The class had no cell when its total was read, and has a free one when the free cells are. -/
theorem countsCells_overtaking : censusTakers.OpensCounting census censusAsks censusHeld ∧
    censusTakers.CountsCells census censusAsks overtaking ∧
    (censusTakers.run (census.counting censusAsks) overtaking 6).threads[0]? =
      some ⟨⟨2, .empty⟩, .between⟩ := by
  have counts := countsCells opens_censusTakers overtaking
  have reading : (censusTakers.run (census.counting censusAsks) overtaking 5).threads[0]? =
      some ⟨⟨0, ⟨[0], [2036]⟩⟩, .between⟩ := rfl
  have ends := counts.ends 5 0 _ _ _ reading rfl rfl ⟨rfl, rfl⟩
  exact ⟨opens_censusTakers, counts, ends⟩

end MutatorSystem

end CellMachine
