import CellMachine.Machine.Basic
import CellMachine.Proofs.Heap.Residents
import CellMachine.Proofs.Machine.SymbolTable
import CellMachine.Proofs.Threads.InternClients

/-!
# What a thread knows of the world

A thread knows facts: what lives at an address, which cell a name has and what a global variable
is bound to. Other threads do not make such facts false, but a cycle may: after it the thread
knows of the cells that its roots, the names and the global variables lead to, as far as it knew
the way.
-/

namespace CellMachine

/-- Something that can be known of the world. -/
inductive Fact where
  | cell (a : Address) (o : Object)
  | name (s : String) (a : Address)
  | global (s : String) (v : Option Value)

def Fact.Holds (w : World) : Fact → Prop
  | cell a o => w.heap.payload? a = some o
  | name s a => w.symbol? s = some a
  | global s v => w.global? s = v

abbrev Knowledge := Set Fact

namespace Knowledge

variable {K K' : Knowledge} {roots roots' : List Value} {a : Address} {o : Object}

/-- The roots, a name or a global variable lead to the cell, on a way that is known. -/
inductive Anchors (K : Knowledge) (roots : List Value) : Address → Prop where
  | root {a : Address} (mem : .ref a ∈ roots) : Anchors K roots a
  | name {s : String} {a : Address} (mem : .name s a ∈ K) : Anchors K roots a
  | global {s : String} {a : Address} (mem : .global s (some (.ref a)) ∈ K) : Anchors K roots a
  | child {a b : Address} {o : Object} (start : Anchors K roots a) (here : .cell a o ∈ K)
      (child : .ref b ∈ o.children) : Anchors K roots b

/-- What is still known after a cycle. -/
def kept (K : Knowledge) (roots : List Value) : Knowledge :=
  { f ∈ K | ∀ a o, f = .cell a o → K.Anchors roots a }

lemma kept_subset (K : Knowledge) (roots : List Value) : K.kept roots ⊆ K := fun _ mem => mem.1

lemma cell_mem_kept (here : .cell a o ∈ K) (anchored : K.Anchors roots a) :
    .cell a o ∈ K.kept roots := by
  refine ⟨here, fun a' o' same => ?_⟩
  cases same
  exact anchored

lemma name_mem_kept {s : String} (here : .name s a ∈ K) : .name s a ∈ K.kept roots :=
  ⟨here, fun _ _ => nofun⟩

lemma global_mem_kept {s : String} {v : Option Value} (here : .global s v ∈ K) :
    .global s v ∈ K.kept roots :=
  ⟨here, fun _ _ => nofun⟩

/-- A way stays known if the facts on it do. -/
lemma Anchors.of_kept (anchored : K.Anchors roots a) (sub : K.kept roots ⊆ K')
    (more : roots ⊆ roots') : K'.Anchors roots' a := by
  induction anchored with
  | root mem => exact .root (more mem)
  | name mem => exact .name (sub (name_mem_kept mem))
  | global mem => exact .global (sub (global_mem_kept mem))
  | child start here child ih => exact .child ih (sub (cell_mem_kept here start)) child

/-- What one cycle keeps is also kept by a second that has at least its roots. -/
lemma kept_subset_kept (sub : K.kept roots ⊆ K') (more : roots ⊆ roots') :
    K.kept roots ⊆ K'.kept roots' := by
  intro f mem
  refine ⟨sub mem, fun a o same => ?_⟩
  exact (mem.2 a o same).of_kept sub more

lemma kept_mono (sub : K ⊆ K') (roots : List Value) : K.kept roots ⊆ K'.kept roots :=
  kept_subset_kept ((K.kept_subset roots).trans sub) (List.Subset.refl _)

/-- What is known after the payload at an address has been replaced. -/
def put (K : Knowledge) (a : Address) (o : Object) : Knowledge :=
  insert (.cell a o) { f ∈ K | ∀ o', f ≠ .cell a o' }

/-- What is known after a global variable has been bound. -/
def bind (K : Knowledge) (s : String) (v : Value) : Knowledge :=
  insert (.global s (some v)) { f ∈ K | ∀ u, f ≠ .global s u }

/-- All known cells have one payload. -/
def Consistent (K : Knowledge) : Prop :=
  ∀ a o o', .cell a o ∈ K → .cell a o' ∈ K → o = o'

lemma Consistent.mono (consistent : K'.Consistent) (sub : K ⊆ K') : K.Consistent :=
  fun a o o' here here' => consistent a o o' (sub here) (sub here')

/-- All known cells are anchored. -/
def Closed (K : Knowledge) (roots : List Value) : Prop := ∀ a o, .cell a o ∈ K → K.Anchors roots a

lemma Anchors.mono (anchored : K.Anchors roots a) (sub : K ⊆ K') (more : roots ⊆ roots') :
    K'.Anchors roots' a :=
  anchored.of_kept ((K.kept_subset roots).trans sub) more

/-- The children of a replaced object are still found if the new one has them all. -/
lemma Anchors.put {o' : Object} (anchored : K.Anchors roots a) {b : Address}
    (consistent : K.Consistent) (here : .cell b o ∈ K)
    (more : ∀ c, .ref c ∈ o.children → .ref c ∈ o'.children) : (K.put b o').Anchors roots a := by
  induction anchored with
  | root mem => exact .root mem
  | name mem => exact .name (.inr ⟨mem, fun _ => nofun⟩)
  | global mem => exact .global (.inr ⟨mem, fun _ => nofun⟩)
  | @child x c p start there child ih =>
    by_cases same : x = b
    · subst same
      obtain rfl := consistent x p o there here
      exact .child ih (Set.mem_insert _ _) (more _ child)
    · refine .child ih (.inr ⟨there, fun q eq => same ?_⟩) child
      cases eq
      rfl

namespace Closed

lemma subset_kept (closed : K.Closed roots) (more : roots ⊆ roots') : K ⊆ K.kept roots' := by
  intro f mem
  refine ⟨mem, fun a o same => ?_⟩
  subst same
  exact (closed a o mem).mono subset_rfl more

lemma more (closed : K.Closed roots) (more : roots ⊆ roots') : K.Closed roots' :=
  fun a o mem => (closed a o mem).mono subset_rfl more

lemma empty (roots : List Value) : Closed ∅ roots := fun _ _ mem => absurd mem (Set.notMem_empty _)

/-- One more cell is known. -/
lemma insert (closed : K.Closed roots) (o : Object)
    (anchored : Anchors (Insert.insert (.cell a o) K) roots a) :
    Closed (Insert.insert (.cell a o) K) roots := by
  rintro x p (same | mem)
  · cases same
    exact anchored
  · exact (closed x p mem).mono (Set.subset_insert _ _) (List.Subset.refl _)

lemma rooted (closed : K.Closed roots) (mem : .ref a ∈ roots) (o : Object) :
    Closed (Insert.insert (.cell a o) K) roots := closed.insert o (.root mem)

lemma named (closed : K.Closed roots) (s : String) (a : Address) (o : Object) :
    Closed (Insert.insert (.name s a) (Insert.insert (.cell a o) K)) roots := by
  rintro x p (same | same | mem)
  · cases same
  · cases same
    exact .name (Set.mem_insert _ _)
  · refine (closed x p mem).mono ?_ (List.Subset.refl _)
    exact (Set.subset_insert _ _).trans (Set.subset_insert _ _)

lemma put (closed : K.Closed roots) (consistent : K.Consistent) (here : .cell a o ∈ K)
    {o' : Object} (more : ∀ c, .ref c ∈ o.children → .ref c ∈ o'.children) :
    (K.put a o').Closed roots := by
  rintro x p (same | ⟨mem, _⟩)
  · cases same
    exact (closed a o here).put consistent here more
  · exact (closed x p mem).put consistent here more

/-- A new cell is anchored as soon as a known array has it. -/
lemma append (closed : K.Closed roots) {v : Address} {x : Object}
    (consistent : Consistent (Insert.insert (.cell v x) K)) {items : Array Value}
    (here : .cell a (.array items) ∈ K) :
    (Knowledge.put (Insert.insert (.cell v x) K) a (.array (items.push (.ref v)))).Closed roots := by
  have sub : K ⊆ Insert.insert (.cell v x) K := Set.subset_insert _ _
  have anchors : ∀ b, K.Anchors roots b →
      (Knowledge.put (Insert.insert (.cell v x) K) a (.array (items.push (.ref v)))).Anchors roots b := by
    intro b anchored
    refine (anchored.mono sub (List.Subset.refl _)).put consistent (sub here) fun c child => ?_
    change Value.ref c ∈ (items.push (.ref v)).toList
    rw [Array.toList_push]
    exact List.mem_append_left _ child
  rintro y p (same | ⟨same | mem, _⟩)
  · cases same
    exact anchors _ (closed a _ here)
  · cases same
    refine .child (anchors _ (closed a _ here)) (Set.mem_insert _ _) ?_
    change Value.ref v ∈ (items.push (.ref v)).toList
    rw [Array.toList_push]
    exact List.mem_append_right _ (List.mem_singleton_self _)
  · exact anchors _ (closed y p mem)

/-- A new cell is anchored as soon as a global variable is bound to it. -/
lemma bind (closed : K.Closed roots) {s : String} (free : ∀ v, .global s v ∉ K) (a : Address)
    (o : Object) : (Knowledge.bind (Insert.insert (.cell a o) K) s (.ref a)).Closed roots := by
  have sub : K ⊆ Knowledge.bind (Insert.insert (.cell a o) K) s (.ref a) := by
    intro f mem
    refine .inr ⟨.inr mem, fun u same => ?_⟩
    subst same
    exact free u mem
  rintro x p (same | ⟨same | mem, _⟩)
  · cases same
  · cases same
    exact .global (Set.mem_insert _ _)
  · exact (closed x p mem).mono sub (List.Subset.refl _)

end Closed

end Knowledge

/-- Something that no thread changes: a name or a singleton. -/
def Object.IsFixed : Object → Prop
  | .symbol _ | .nilObject | .trueObject | .falseObject => True
  | _ => False

namespace World

/-- All that is known is so. -/
def Bears (w : World) (K : Knowledge) : Prop := ∀ f ∈ K, f.Holds w

/-- The world of the machine while no signal is pending: the singletons are in their places and
rooted for good, and so are the cells of names. -/
structure Steady (ss : Singletons) (w : World) : Prop where
  reachable : w.heap.Reachable
  classes : w.heap.settings.sizeClasses = Settings.standard.sizeClasses
  singletons : w.singletons = ss
  cells : w.heap.payload? ss.nilCell = some .nilObject ∧
    w.heap.payload? ss.trueCell = some .trueObject ∧
    w.heap.payload? ss.falseCell = some .falseObject
  interned : ∃ fixed, w.Interned fixed ∧ .ref ss.nilCell ∈ fixed ∧ .ref ss.trueCell ∈ fixed ∧
    .ref ss.falseCell ∈ fixed
  quiet : w.signals.interrupt = false ∧ w.signals.collection = false

variable {w w' : World} {ss : Singletons} {K K' : Knowledge} {roots : List Value}

lemma Bears.mono (bears : w.Bears K') (sub : K ⊆ K') : w.Bears K := fun f mem => bears f (sub mem)

lemma Bears.consistent (bears : w.Bears K) : K.Consistent := by
  intro a o o' here here'
  exact Option.some.inj ((bears _ here).symm.trans (bears _ here'))

lemma Bears.isLive (bears : w.Bears K) {a : Address} {o : Object} (here : .cell a o ∈ K) :
    w.heap.isLive a := Heap.isLive_of_payload? (bears _ here)

/-- Where payloads, names and global variables stay, all facts do. -/
lemma Bears.congr (bears : w.Bears K)
    (payload : ∀ a o, w.heap.payload? a = some o → w'.heap.payload? a = some o)
    (symbols : w'.symbols = w.symbols) (globals : w'.globals = w.globals) : w'.Bears K := by
  intro f mem
  have held := bears f mem
  cases f with
  | cell a o => exact payload a o held
  | name s a =>
    rw [Fact.Holds, symbol?, symbols]
    exact held
  | global s v =>
    rw [Fact.Holds, global?, globals]
    exact held

namespace Steady

/-- A change of the heap that keeps its global roots, and the names and singletons among them. -/
lemma heap {h : Heap Object} (steady : w.Steady ss) (reachable : h.Reachable)
    (settings : h.settings = w.heap.settings) (globals : h.globalRoots = w.heap.globalRoots)
    (payload : ∀ a o, .ref a ∈ w.heap.globalRoots → o.IsFixed → w.heap.payload? a = some o →
      h.payload? a = some o) : ({ w with heap := h } : World).Steady ss := by
  obtain ⟨fixed, interned, isNil, isTrue, isFalse⟩ := steady.interned
  have rooted : ∀ a, .ref a ∈ fixed → .ref a ∈ w.heap.globalRoots := fun a mem =>
    interned.rooted.mem_iff.mpr (List.mem_append_left _ (List.mem_append_left _ mem))
  refine ⟨reachable, settings ▸ steady.classes, steady.singletons, ⟨?_, ?_, ?_⟩,
    ⟨fixed, ?_, isNil, isTrue, isFalse⟩, steady.quiet⟩
  · exact payload _ _ (rooted _ isNil) trivial steady.cells.1
  · exact payload _ _ (rooted _ isTrue) trivial steady.cells.2.1
  · exact payload _ _ (rooted _ isFalse) trivial steady.cells.2.2
  · refine interned.congr rfl rfl globals fun name a entry => ?_
    exact payload _ _ (interned.mem_globalRoots entry) trivial (interned.cells name a entry)

lemma room {h : Heap Object} {c : Nat} (steady : w.Steady ss)
    (made : h = w.heap.prewarm c ∨ h = w.heap.grow c) : ({ w with heap := h } : World).Steady ss := by
  have cells := steady.reachable.sound.cells_of_room made
  refine steady.heap ?_ ?_ (Heap.globalRoots_of_room made)
    fun a o _ _ here => (cells a).2.trans here
  · rcases made with rfl | rfl
    · exact steady.reachable.step (.mutation (.prewarm _ c))
    · exact steady.reachable.step (.mutation (.grow _ c))
  · rcases made with rfl | rfl
    · rfl
    · rfl

/-- Every object has a size class. -/
lemma exists_classOf (steady : w.Steady ss) (o : Object) : ∃ c, w.heap.classOf o = .ok c := by
  simp only [Heap.classOf, Heap.bytesFor, Settings.classFor?, steady.classes]
  cases o <;> exact ⟨_, rfl⟩

lemma claim {o : Object} {c : Nat} (steady : w.Steady ss) (fits : w.heap.classOf o = .ok c) :
    ({ w with heap := (w.heap.allocateIn c o).2 } : World).Steady ss :=
  steady.heap (steady.reachable.step (.mutation (.claim _ fits)))
    (Heap.Mutation.settings (.claim _ fits)) (w.heap.allocateIn_frame c o).1
    fun _ _ _ _ here => steady.reachable.sound.payload?_allocateIn fits here

lemma cycle (steady : w.Steady ss) (inputs : List RootSet) :
    ({ w with heap := w.heap.runCycle inputs } : World).Steady ss := by
  have sound := steady.reachable.sound
  obtain ⟨_, _, _, frame⟩ := sound.runCycle_frame inputs
  refine steady.heap (steady.reachable.step (.cycle _ inputs)) (by rw [frame]) (by rw [frame]) ?_
  intro a o mem _ here
  have live := Heap.isLive_of_payload? here
  exact (sound.payload?_runCycle_of_reaches (.root (.inr mem) (Heap.cellFor?_of_isLive live))).trans here

end Steady

lemma Bears.room {h : Heap Object} {c : Nat} (bears : w.Bears K) (sound : w.heap.Sound)
    (made : h = w.heap.prewarm c ∨ h = w.heap.grow c) : ({ w with heap := h } : World).Bears K :=
  bears.congr (fun a _ here => (sound.cells_of_room made a).2.trans here) rfl rfl

/-- A thread knows what it has just allocated. -/
lemma Bears.claim {o : Object} {c : Nat} (bears : w.Bears K) (sound : w.heap.Sound)
    (fits : w.heap.classOf o = .ok c) : ∃ a, (w.heap.allocateIn c o).1 = .ok a ∧
      (∀ o', .cell a o' ∉ K) ∧
      ({ w with heap := (w.heap.allocateIn c o).2 } : World).Bears (insert (.cell a o) K) := by
  obtain ⟨a, ok, _, free, placed, _⟩ := sound.allocateIn_cells (Heap.classOf_lt sound fits) o
  refine ⟨a, ok, fun o' known => free (bears.isLive known), ?_⟩
  rintro f (rfl | mem)
  · exact placed
  · have all : ({ w with heap := (w.heap.allocateIn c o).2 } : World).Bears K :=
      bears.congr (fun _ _ here => sound.payload?_allocateIn fits here) rfl rfl
    exact all f mem

/-- The cells that are known to be anchored are reached. -/
lemma Bears.reaches {words : Set Address} (bears : w.Bears K) (steady : w.Steady ss)
    (submitted : ∀ a, .ref a ∈ roots → a ∈ words)
    (globals : ∀ a, .ref a ∈ w.heap.globalRoots → a ∈ words) {a : Address}
    (anchored : K.Anchors roots a) (live : w.heap.isLive a) : w.heap.Reaches words a := by
  obtain ⟨fixed, interned, _⟩ := steady.interned
  induction anchored with
  | root mem => exact .root (submitted _ mem) (Heap.cellFor?_of_isLive live)
  | name mem =>
    have entry := interned.symbol?_eq_some_iff.mp (bears _ mem)
    exact .root (globals _ (interned.mem_globalRoots entry)) (Heap.cellFor?_of_isLive live)
  | @global s a mem =>
    have bound := mem_of_global? (bears _ mem)
    have rooted : .ref a ∈ w.heap.globalRoots := interned.rooted.mem_iff.mpr
      (List.mem_append_right _ (List.mem_filter.mpr ⟨List.mem_map_of_mem bound, rfl⟩))
    exact .root (globals _ rooted) (Heap.cellFor?_of_isLive live)
  | child start here child ih => exact .edge (ih (bears.isLive here)) (bears _ here) child live

lemma Bears.cycle {inputs : List RootSet} (bears : w.Bears K) (steady : w.Steady ss)
    (submitted : ∀ a, .ref a ∈ roots → a ∈ w.heap.cycleRoots inputs) :
    ({ w with heap := w.heap.runCycle inputs } : World).Bears (K.kept roots) := by
  intro f mem
  have held := bears f mem.1
  cases f with
  | cell a o =>
    have reached := bears.reaches steady submitted (fun _ => .inr) (mem.2 a o rfl)
      (bears.isLive mem.1)
    exact (steady.reachable.sound.payload?_runCycle_of_reaches reached).trans held
  | name s a => exact held
  | global s v => exact held

variable {a : Address} {o : Object}

lemma payload?_modifyObject (steady : w.Steady ss) (f : Object → Object) (x : Address) :
    (w.modifyObject a f).heap.payload? x =
      if a = x then (w.heap.payload? x).map f else w.heap.payload? x :=
  steady.reachable.sound.payload?_modifyPayload a f x

lemma Steady.modifyObject (steady : w.Steady ss) (here : w.heap.payload? a = some o)
    (free : ¬ o.IsFixed) (f : Object → Object) : (w.modifyObject a f).Steady ss := by
  have frame := w.heap.modifyPayload_frame a f
  refine steady.heap (steady.reachable.mutations ?_) frame.1 frame.2.1 ?_
  · exact (Heap.touches_modifyPayload w.heap a f).lift id fun _ _ touch => .touch touch
  · intro x o' _ isFixed there
    refine (payload?_modifyObject steady f x).trans ?_
    rw [if_neg, there]
    rintro rfl
    rw [here] at there
    exact free (Option.some.inj there ▸ isFixed)

lemma Bears.modifyObject (bears : w.Bears K) (steady : w.Steady ss) (here : .cell a o ∈ K)
    (f : Object → Object) : (w.modifyObject a f).Bears (K.put a (f o)) := by
  rintro g (rfl | ⟨mem, other⟩)
  · rw [Fact.Holds, payload?_modifyObject steady, if_pos rfl, bears _ here]
    rfl
  · have held := bears g mem
    cases g with
    | cell x o' =>
      rw [Fact.Holds, payload?_modifyObject steady]
      split
      · rename_i same
        exact absurd rfl (same ▸ other o')
      · exact held
    | name s x => exact held
    | global s v => exact held

/-- A global variable is bound to its new value, all others stay. -/
lemma global?_setGlobal (w : World) (name n : String) (v : Value) :
    (w.setGlobal name v).global? n = if n = name then some v else w.global? n := by
  have lookup : ∀ globals : List (String × Value), (rebind name v globals).lookup n =
      if n = name then some v else globals.lookup n := by
    intro globals
    induction globals with
    | nil =>
      by_cases same : n = name
      · simp [rebind, same]
      · simp [rebind, List.lookup_cons, same, beq_false_of_ne same]
    | cons e rest ih =>
      obtain ⟨k, u⟩ := e
      rw [rebind]
      split
      · rename_i here
        subst here
        by_cases same : n = k
        · simp [same]
        · simp [List.lookup_cons, same, beq_false_of_ne same]
      · rename_i other
        rw [List.lookup_cons, List.lookup_cons, ih]
        by_cases here : n = k
        · subst here
          simp [other]
        · simp [beq_false_of_ne here]
  rw [setGlobal]
  cases w.global? name <;> exact lookup w.globals

/-- A change of global roots and of what is registered. -/
lemma Steady.touched (steady : w.Steady ss)
    (touches : Relation.ReflTransGen Heap.Touch w.heap w'.heap)
    (singletons : w'.singletons = w.singletons) (signals : w'.signals = w.signals)
    (payload : ∀ x, w'.heap.payload? x = w.heap.payload? x)
    (interned : ∀ fixed, w.Interned fixed → w'.Interned fixed) : w'.Steady ss := by
  have mutations : Relation.ReflTransGen Heap.Mutation w.heap w'.heap :=
    touches.lift id fun _ _ touch => .touch touch
  obtain ⟨fixed, before, rooted⟩ := steady.interned
  constructor
  · exact steady.reachable.mutations mutations
  · rw [Heap.settings_of_mutations mutations]
    exact steady.classes
  · exact singletons.trans steady.singletons
  · rw [payload, payload, payload]
    exact steady.cells
  · exact ⟨fixed, interned fixed before, rooted⟩
  · rw [signals]
    exact steady.quiet

lemma Steady.setGlobal (steady : w.Steady ss) (name : String) (v : Value) :
    (w.setGlobal name v).Steady ss := by
  refine steady.touched (Client.touches_setGlobal w name v) ?_ ?_
    (fun x => (w.setGlobal_frame name v x).1) fun _ interned =>
      interned.setGlobal steady.reachable name v
  all_goals
    rw [World.setGlobal]
    cases w.global? name <;> rfl

lemma Bears.setGlobal (bears : w.Bears K) (name : String) (v : Value) :
    (w.setGlobal name v).Bears (K.bind name v) := by
  rintro g (rfl | ⟨mem, other⟩)
  · rw [Fact.Holds, global?_setGlobal, if_pos rfl]
  · have held := bears g mem
    cases g with
    | cell a o => exact (w.setGlobal_frame name v a).1.trans held
    | name s a =>
      rw [Fact.Holds, symbol?, (w.setGlobal_frame name v a).2]
      exact held
    | global s u =>
      rw [Fact.Holds, global?_setGlobal, if_neg]
      · exact held
      · rintro rfl
        exact other u rfl

lemma Steady.publish (steady : w.Steady ss) {name : String}
    (here : w.heap.payload? a = some (.symbol name)) : (w.publish name a).2.Steady ss := by
  refine steady.touched (Client.touches_publish w name a) ?_ ?_ (w.payload?_publish name a)
    fun _ interned => interned.publish here
  all_goals
    rw [World.publish]
    cases w.symbol? name <;> rfl

/-- The cell of a name. -/
lemma Steady.payload?_of_symbol? (steady : w.Steady ss) {name : String}
    (here : w.symbol? name = some a) : w.heap.payload? a = some (.symbol name) := by
  obtain ⟨fixed, interned, _⟩ := steady.interned
  exact interned.cells name a (interned.symbol?_eq_some_iff.mp here)

lemma symbol?_publish (w : World) (name : String) (x : Address) :
    (w.publish name x).2.symbol? name = some (w.publish name x).1 := by
  rw [World.publish]
  cases found : w.symbol? name with
  | some b => exact found
  | none => simp [symbol?]

lemma Bears.publish (bears : w.Bears K) (name : String) (x : Address) :
    (w.publish name x).2.Bears K := by
  intro f mem
  have held := bears f mem
  cases f with
  | cell b o => exact (w.payload?_publish name x b).trans held
  | global s v =>
    rw [World.publish]
    cases w.symbol? name <;> exact held
  | name s b =>
    rw [World.publish]
    cases found : w.symbol? name with
    | some c => exact held
    | none =>
      have other : s ≠ name := by
        rintro rfl
        rw [Fact.Holds, found] at held
        cases held
      change ((name, x) :: w.symbols).lookup s = some b
      rw [List.lookup_cons, beq_false_of_ne other]
      exact held

end World

namespace Machine

variable {σ : Type} {m : Machine σ} {a : Address} {o : Object}

/-- What a thread finds at an address of the heap. -/
lemma object?_of_payload? (here : m.world.heap.payload? a = some o) : m.object? a = some o := by
  cases a with
  | memory word => exact here
  | stack n => cases here

end Machine

end CellMachine
