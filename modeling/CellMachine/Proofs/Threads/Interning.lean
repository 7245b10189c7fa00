import CellMachine.Proofs.Machine.SymbolTable
import CellMachine.Proofs.Threads.InternClients

/-!
# Interning step by step

A fresh cell is known to the thread that allocated it and to no other, and no cycle runs while
a thread holds one. The table grows by the cells that are published, and a cell in it stays.
A cell that comes too late is lost: it is neither in the table nor with a thread, and so in no
reply.
-/

namespace CellMachine

variable {σ : Type} {c : Client σ} {held : σ → Nat} {fixed : List Value}

namespace Client.Turn

variable {w w' : World} {t t' : Interner σ}

/-- A symbol stays what it is. -/
lemma payload?_symbol (turn : c.Turn w t t' w') (lawful : c.Lawful held) (sound : w.heap.Sound)
    {a : Address} {name : String} (here : w.heap.payload? a = some (.symbol name)) :
    w'.heap.payload? a = some (.symbol name) := by
  cases turn with
  | room made => exact (sound.cells_of_room made a).2.trans here
  | allocate _ fits => exact sound.payload?_allocateIn fits here
  | setGlobal => exact (w.setGlobal_frame _ _ a).1.trans here
  | @modify x f asked =>
    have after := sound.payload?_modifyPayload x f a
    split at after
    · rw [here, Option.map_some, lawful.symbols t.own x f asked name] at after
      exact after
    · exact after.trans here
  | make _ _ fits => exact sound.payload?_allocateIn fits here
  | publish => exact (w.payload?_publish _ _ a).trans here
  | _ => exact here

/-- The table changes only when a fresh cell is published. -/
lemma symbols_cases (turn : c.Turn w t t' w') : w'.symbols = w.symbols ∨
    ∃ name x, c.request t.own = .intern name ∧ t.progress = .fresh x ∧ w.symbol? name = none ∧
      w'.symbols = (name, x) :: w.symbols := by
  cases turn with
  | setGlobal => exact .inl (w.setGlobal_frame _ _ default).2
  | @publish name x asked fresh =>
    rw [World.publish]
    cases found : w.symbol? name with
    | some b => exact .inl rfl
    | none => exact .inr ⟨name, x, asked, fresh, found, rfl⟩
  | _ => exact .inl rfl

/-- The table is in order after the step. -/
lemma interned (turn : c.Turn w t t' w') (lawful : c.Lawful held) (reachable : w.heap.Reachable)
    (before : w.Interned fixed)
    (named : ∀ x name, t.progress = .fresh x → c.request t.own = .intern name →
      w.heap.payload? x = some (.symbol name)) : w'.Interned fixed := by
  have cells : ∀ name a, (name, a) ∈ w.symbols → w'.heap.payload? a = some (.symbol name) :=
    fun name a entry => turn.payload?_symbol lawful reachable.sound (before.cells name a entry)
  cases turn with
  | room made => exact before.congr rfl rfl (Heap.globalRoots_of_room made) cells
  | @allocate o k => exact before.congr rfl rfl (w.heap.allocateIn_frame k o).1 cells
  | setGlobal => exact before.setGlobal reachable _ _
  | @modify x f => exact before.congr rfl rfl (w.heap.modifyPayload_frame x f).2.1 cells
  | @make name k => exact before.congr rfl rfl (w.heap.allocateIn_frame k _).1 cells
  | publish asked fresh => exact before.publish (named _ _ fresh asked)
  | _ => exact before

/-- A thread comes by a fresh cell only by an allocation. -/
lemma fresh (turn : c.Turn w t t' w') (sound : w.heap.Sound) {x : Address}
    (fresh : t'.progress = .fresh x) : w'.symbols = w.symbols ∧ (t' = t ∨ ¬ w.heap.isLive x ∧
      ∃ name, c.request t'.own = .intern name ∧ w'.heap.payload? x = some (.symbol name)) := by
  cases turn with
  | stay => exact ⟨rfl, .inl rfl⟩
  | room => exact ⟨rfl, .inl rfl⟩
  | @find name asked =>
    cases hit : w.symbol? name with
    | none =>
      rw [hit] at fresh
      cases fresh
    | some a =>
      rw [hit] at fresh
      cases fresh
  | @make name k asked _ fits =>
    obtain ⟨b, ok, _, free, placed, _⟩ :=
      sound.allocateIn_cells (Heap.classOf_lt sound fits) (.symbol name)
    rw [ok] at fresh ⊢
    obtain rfl : b = x := by cases fresh; rfl
    exact ⟨rfl, .inr ⟨free, name, asked, placed⟩⟩
  | _ => cases fresh

end Client.Turn

namespace MutatorSystem

/-- The thread has a fresh cell that it is about to publish. -/
def Holds (s : MutatorSystem Object Surroundings (Interner σ)) (i : Nat) (own : σ) (x : Address) :
    Prop :=
  ∃ stage, s.threads[i]? = some ⟨⟨own, .fresh x⟩, stage⟩

/-- The table is in order, and no fresh cell is in it or with two threads. -/
structure Orderly (c : Client σ) (fixed : List Value)
    (s : MutatorSystem Object Surroundings (Interner σ)) : Prop where
  table : s.shared.toWorld.Interned fixed
  named : ∀ i own x, s.Holds i own x → ∃ name, c.request own = .intern name ∧
    s.shared.heap.payload? x = some (.symbol name)
  unpublished : ∀ i own x, s.Holds i own x → ∀ e ∈ s.shared.toWorld.symbols, e.2 ≠ x
  apart : ∀ i j own own' x, s.Holds i own x → s.Holds j own' x → i = j

variable {s : MutatorSystem Object Surroundings (Interner σ)} {i j : Nat}
  {t t' : MutatorThread Object (Interner σ)} {g : Common Object Surroundings}

/-- Whoever holds a fresh cell after a step has held it before, or has just been given it. -/
lemma holds_turn (sound : s.shared.heap.Sound) (here : s.threads[i]? = some t)
    (turn : c.Turn s.shared.toWorld t.own t'.own g.shared.toWorld) {own : σ} {x : Address}
    (holds : (s.changed i g t').Holds j own x) :
    s.Holds j own x ∧ (j = i → g.shared.toWorld.symbols = s.shared.toWorld.symbols) ∨
      j = i ∧ g.shared.toWorld.symbols = s.shared.toWorld.symbols ∧ ¬ s.shared.heap.isLive x ∧
        ∃ name, c.request own = .intern name ∧
          g.shared.heap.payload? x = some (.symbol name) := by
  obtain ⟨stage, there⟩ := holds
  rw [getElem?_changed here] at there
  split at there
  · rename_i mover
    have new : t'.own = ⟨own, .fresh x⟩ := by rw [Option.some.inj there]
    have fresh : t'.own.progress = .fresh x := by rw [new]
    obtain ⟨symbols, same | made⟩ := turn.fresh sound fresh
    · rw [same] at new
      exact .inl ⟨⟨t.stage, by rw [← mover, here, ← new]⟩, fun _ => symbols⟩
    · rw [new] at made
      exact .inr ⟨mover.symm, symbols, made⟩
  · rename_i other
    exact .inl ⟨⟨stage, there⟩, fun same => absurd same.symm other⟩

lemma holds_of_same (here : s.threads[i]? = some t) (same : t'.own = t.own) {own : σ} {x : Address}
    (holds : (s.changed i g t').Holds j own x) : s.Holds j own x := by
  obtain ⟨stage, there⟩ := holds
  rw [getElem?_changed here] at there
  split at there
  · rename_i mover
    have new : t'.own = ⟨own, .fresh x⟩ := by rw [Option.some.inj there]
    rw [same] at new
    exact ⟨t.stage, by rw [← mover, here, ← new]⟩
  · exact ⟨stage, there⟩

lemma holds_mover (here : s.threads[i]? = some t) {x : Address}
    (fresh : t.own.progress = .fresh x) : s.Holds i t.own.own x :=
  ⟨t.stage, by rw [here, ← fresh]⟩

/-- A cell that a thread holds has its slot, so no thread can be given it. -/
lemma Orderly.isLive (orderly : s.Orderly c fixed) {own : σ} {x : Address}
    (holds : s.Holds j own x) : s.shared.heap.isLive x := by
  obtain ⟨name, _, payload⟩ := orderly.named j own x holds
  exact Heap.isLive_of_payload? payload

lemma Orderly.isLive_entry (orderly : s.Orderly c fixed) {e : String × Address}
    (entry : e ∈ s.shared.toWorld.symbols) : s.shared.heap.isLive e.2 :=
  Heap.isLive_of_payload? (orderly.table.cells e.1 e.2 entry)

lemma Orderly.turn (orderly : s.Orderly c fixed) (lawful : c.Lawful held)
    (reachable : s.shared.heap.Reachable) (here : s.threads[i]? = some t)
    (turn : c.Turn s.shared.toWorld t.own t'.own g.shared.toWorld) :
    (s.changed i g t').Orderly c fixed := by
  constructor
  · refine turn.interned lawful reachable orderly.table fun x name fresh asked => ?_
    obtain ⟨name', asked', payload⟩ := orderly.named i _ x (holds_mover here fresh)
    cases asked.symm.trans asked'
    exact payload
  · intro j own x holds
    rcases holds_turn reachable.sound here turn holds with ⟨old, _⟩ | ⟨_, _, _, made⟩
    · obtain ⟨name, asked, payload⟩ := orderly.named j own x old
      exact ⟨name, asked, turn.payload?_symbol lawful reachable.sound payload⟩
    · exact made
  · intro j own x holds e entry same
    change e ∈ g.shared.toWorld.symbols at entry
    rcases holds_turn reachable.sound here turn holds with ⟨old, idle⟩ | ⟨_, symbols, free, _⟩
    · rcases turn.symbols_cases with symbols | ⟨name, y, _, fresh, _, symbols⟩
      · rw [symbols] at entry
        exact orderly.unpublished j own x old e entry same
      · rw [symbols] at entry idle
        rcases List.mem_cons.mp entry with published | earlier
        · have same_thread : j = i := by
            refine orderly.apart j i own t.own.own x old ?_
            rw [← same, published]
            exact holds_mover here fresh
          exact List.cons_ne_self _ _ (idle same_thread)
        · exact orderly.unpublished j own x old e earlier same
    · rw [symbols] at entry
      rw [← same] at free
      exact free (orderly.isLive_entry entry)
  · intro j k own own' x first second
    rcases holds_turn reachable.sound here turn first with ⟨old, _⟩ | ⟨j_eq, _, free, _⟩
    · rcases holds_turn reachable.sound here turn second with ⟨old', _⟩ | ⟨_, _, free, _⟩
      · exact orderly.apart j k own own' x old old'
      · exact absurd (orderly.isLive old) free
    · rcases holds_turn reachable.sound here turn second with ⟨old', _⟩ | ⟨k_eq, _⟩
      · exact absurd (orderly.isLive old') free
      · rw [j_eq, k_eq]

/-- A cycle keeps the table in order; at that time no thread holds a fresh cell. -/
lemma Orderly.cycle (orderly : s.Orderly c fixed) (sound : s.shared.heap.Sound)
    (here : s.threads[i]? = some t) (same : t'.own = t.own)
    (none_holds : ∀ j own x, ¬ s.Holds j own x) {inputs : List RootSet}
    (shared : g.shared = { s.shared with heap := s.shared.heap.runCycle inputs }) :
    (s.changed i g t').Orderly c fixed := by
  have none_left : ∀ j own x, ¬ (s.changed i g t').Holds j own x :=
    fun j own x holds => none_holds j own x (holds_of_same here same holds)
  have table : (s.changed i g t').shared.toWorld =
      { s.shared.toWorld with heap := s.shared.heap.runCycle inputs } := by
    change g.shared.toWorld = _
    rw [shared]
    rfl
  obtain ⟨_, _, _, frame⟩ := sound.runCycle_frame inputs
  have roots : (s.shared.heap.runCycle inputs).globalRoots = s.shared.heap.globalRoots := by
    rw [frame]
  constructor
  · rw [table]
    refine orderly.table.congr rfl rfl roots fun name a entry => ?_
    have live := orderly.isLive_entry entry
    have reached : s.shared.heap.Reaches (s.shared.heap.cycleRoots inputs) a :=
      .root (.inr (orderly.table.mem_globalRoots entry)) (Heap.cellFor?_of_isLive live)
    exact (sound.payload?_runCycle_of_reaches reached).trans (orderly.table.cells name a entry)
  · exact fun j own x holds => absurd holds (none_left j own x)
  · exact fun j own x holds => absurd holds (none_left j own x)
  · exact fun j k own own' x holds => absurd holds (none_left j own x)

end MutatorSystem

/-- Threads without registrations that share a blank world. -/
structure Client.Begins (c : Client σ) (held : σ → Nat)
    (s : MutatorSystem Object Surroundings (Interner σ)) : Prop where
  lawful : c.Lawful held
  start : ∃ (w : World) (threads : List σ), w.Blank ∧ (∀ own ∈ threads, held own = 0) ∧
    s = .start w.heap w.shared.world (threads.map fun own => ⟨own, .start⟩)

namespace Client.Begins

open MutatorSystem

variable {s : MutatorSystem Object Surroundings (Interner σ)} {schedule : Nat → Nat} {n : Nat}

lemma starts (begins : c.Begins held s) : s.Starts c.program fun t => held t.own := by
  obtain ⟨w, threads, blank, unregistered, eq⟩ := begins.start
  refine ⟨begins.lawful.program, w.heap, _, _, blank.reachable, fun t mem => ?_, eq⟩
  obtain ⟨own, mem', rfl⟩ := List.mem_map.mp mem
  exact unregistered own mem'

lemma reachable (begins : c.Begins held s) (schedule : Nat → Nat) (n : Nat) :
    (s.run c.program schedule n).shared.heap.Reachable := by
  obtain ⟨phase, inv⟩ := begins.starts.rendezvous schedule n
  exact inv.heap

/-- A thread that collects meets all registered threads, and none of them is about to publish
a cell. -/
lemma not_holds (begins : c.Begins held s)
    (orderly : (s.run c.program schedule n).Orderly c fixed)
    (collects : (s.run c.program schedule n).Collects (schedule n)) (j : Nat) (own : σ)
    (x : Address) : ¬ (s.run c.program schedule n).Holds j own x := by
  intro holds
  obtain ⟨name, asked, _⟩ := orderly.named j own x holds
  obtain ⟨stage, there⟩ := holds
  obtain ⟨_, _, _, here⟩ := collects
  obtain ⟨phase, inv⟩ := begins.starts.rendezvous schedule n
  obtain rfl := inv.assembled_of_collecting here
  have registered : 0 < held own := begins.lawful.registered own (by rw [asked]; trivial)
  obtain ⟨e, inside⟩ := (inv.registered_iff there).mp registered
  have follows := begins.starts.follows schedule n j _ there e.move (Stage.move?_of_errand inside)
  have made := c.makes ⟨own, .fresh x⟩
  rw [follows] at made
  generalize eq : e.move = move at made
  cases made with
  | publish => exact Errand.move_ne_update e _ eq
  | find => exact Errand.move_ne_update e _ eq
  | make _ missed => cases missed
  | _ here => cases asked.symm.trans here

lemma orderly_start (begins : c.Begins held s) : s.Orderly c s.shared.heap.globalRoots := by
  obtain ⟨w, threads, blank, _, rfl⟩ := begins.start
  have none_holds : ∀ j own x, ¬ (MutatorSystem.start w.heap w.shared.world
      (threads.map fun own => (⟨own, .start⟩ : Interner σ))).Holds j own x := by
    rintro j own x ⟨stage, there⟩
    rw [Rendezvous.getElem?_start] at there
    obtain ⟨t, mem, eq⟩ := Option.map_eq_some_iff.mp there
    obtain ⟨own', _, rfl⟩ := List.mem_map.mp (List.mem_of_getElem? mem)
    cases eq
  constructor
  · constructor
    · change (w.symbols.map Prod.fst).Nodup
      rw [blank.symbols]
      exact .nil
    · change ∀ name a, (name, a) ∈ w.symbols → _
      rw [blank.symbols]
      exact fun name a entry => by cases entry
    · change w.heap.globalRoots.Perm (w.heap.globalRoots ++ w.symbols.map (fun e => .ref e.2) ++
        (w.globals.map Prod.snd).filter Value.isRef)
      rw [blank.symbols, blank.globals]
      simp
  · exact fun j own x holds => absurd holds (none_holds j own x)
  · exact fun j own x holds => absurd holds (none_holds j own x)
  · exact fun j k own own' x holds => absurd holds (none_holds j own x)

/-- A step that is no collection leaves the system alone or is a turn of the thread. -/
lemma turns (begins : c.Begins held s)
    (other : ¬ (s.run c.program schedule n).Collects (schedule n)) :
    s.run c.program schedule (n + 1) = s.run c.program schedule n ∨
      ∃ t g t', (s.run c.program schedule n).threads[schedule n]? = some t ∧
        c.Turn (s.run c.program schedule n).shared.toWorld t.own t'.own g.shared.toWorld ∧
        s.run c.program schedule (n + 1) =
          (s.run c.program schedule n).changed (schedule n) g t' := by
  rcases begins.starts.beats other with same | ⟨t, g, t', here, beat, eq⟩
  · exact .inl same
  · exact .inr ⟨t, g, t', here, turn_of_beat beat, eq⟩

lemma orderly (begins : c.Begins held s) (schedule : Nat → Nat) (n : Nat) :
    (s.run c.program schedule n).Orderly c s.shared.heap.globalRoots := by
  induction n with
  | zero => exact begins.orderly_start
  | succ n ih =>
    have reachable := begins.reachable schedule n
    by_cases collects : (s.run c.program schedule n).Collects (schedule n)
    · have none_holds := begins.not_holds ih collects
      obtain ⟨t, g, t', here, same, _, shared, eq⟩ := step_of_collects (p := c.program) collects
      rw [run, eq]
      exact ih.cycle reachable.sound here same none_holds shared
    · rcases begins.turns collects with same | ⟨t, g, t', here, turn, eq⟩
      · rw [same]
        exact ih
      · rw [eq]
        exact ih.turn begins.lawful reachable here turn

end Client.Begins

namespace MutatorSystem

/-- The next step of the thread ends its call: the cell is the one for the name. -/
inductive Interns (c : Client σ) (s : MutatorSystem Object Surroundings (Interner σ)) (i : Nat) :
    String → Address → Prop where
  | found {own : σ} {name : String} {a : Address}
      (here : s.threads[i]? = some ⟨⟨own, .start⟩, .between⟩) (asked : c.request own = .intern name)
      (hit : s.shared.toWorld.symbol? name = some a) : Interns c s i name a
  | published {own : σ} {name : String} {x : Address}
      (here : s.threads[i]? = some ⟨⟨own, .fresh x⟩, .between⟩)
      (asked : c.request own = .intern name) :
      Interns c s i name (s.shared.toWorld.publish name x).1

/-- The next step of the thread finds that another one was faster. -/
def Loses (c : Client σ) (s : MutatorSystem Object Surroundings (Interner σ)) (i : Nat)
    (name : String) (x : Address) : Prop :=
  ∃ own, s.threads[i]? = some ⟨⟨own, .fresh x⟩, .between⟩ ∧ c.request own = .intern name ∧
    s.shared.toWorld.symbol? name ≠ none

/-- Whether the thread loses, as a computation. -/
def loses? (c : Client σ) (s : MutatorSystem Object Surroundings (Interner σ)) (i : Nat)
    (name : String) (x : Address) : Bool :=
  match s.threads[i]? with
  | some ⟨⟨own, .fresh y⟩, .between⟩ =>
    match c.request own with
    | .intern asked => asked == name && y == x && (s.shared.toWorld.symbol? name).isSome
    | _ => false
  | _ => false

lemma loses_iff {s : MutatorSystem Object Surroundings (Interner σ)} {i : Nat} {name : String}
    {x : Address} : s.Loses c i name x ↔ loses? c s i name x = true := by
  rw [Loses, loses?]
  constructor
  · rintro ⟨own, here, asked, taken⟩
    rw [here]
    dsimp only
    rw [asked]
    simpa [Option.isSome_iff_ne_none] using taken
  · intro loses
    split at loses
    · rename_i own y here
      split at loses
      · rename_i name' asked
        simp only [Bool.and_eq_true, beq_iff_eq] at loses
        obtain ⟨⟨rfl, rfl⟩, taken⟩ := loses
        exact ⟨own, here, asked, Option.isSome_iff_ne_none.mp taken⟩
      · cases loses
    · cases loses

instance (s : MutatorSystem Object Surroundings (Interner σ)) (i : Nat) (name : String)
    (x : Address) : Decidable (s.Loses c i name x) :=
  decidable_of_iff _ loses_iff.symm

variable {s : MutatorSystem Object Surroundings (Interner σ)} {i : Nat} {name : String}
  {a x : Address}

/-- The thread has its reply, and the table has the entry. -/
lemma Interns.step (interns : s.Interns c i name a) (interned : s.shared.toWorld.Interned fixed) :
    (∃ own, c.request own = .intern name ∧ (s.step c.program i).threads[i]? =
      some ⟨⟨c.resume own (.cell a), .start⟩, .between⟩) ∧
      (name, a) ∈ (s.step c.program i).shared.toWorld.symbols := by
  cases interns with
  | @found own _ _ here asked hit =>
    rw [step_of_update here (Client.move_find asked)]
    refine ⟨⟨own, asked, ?_⟩, interned.symbol?_eq_some_iff.mp hit⟩
    rw [getElem?_changed here, if_pos rfl, Client.onWorld, hit]
    rfl
  | @published own _ x here asked =>
    rw [step_of_update here (Client.move_publish asked x)]
    refine ⟨⟨own, asked, ?_⟩, interned.mem_publish name x⟩
    rw [getElem?_changed here, if_pos rfl]
    rfl

/-- The cell is lost: it holds a name, but neither the table nor any thread knows it. -/
structure Lost (s : MutatorSystem Object Surroundings (Interner σ)) (x : Address) : Prop where
  symbol : ∃ name, s.shared.heap.payload? x = some (.symbol name)
  unpublished : ∀ e ∈ s.shared.toWorld.symbols, e.2 ≠ x
  unheld : ∀ j own, ¬ s.Holds j own x

lemma Lost.isLive (lost : s.Lost x) : s.shared.heap.isLive x := by
  obtain ⟨name, payload⟩ := lost.symbol
  exact Heap.isLive_of_payload? payload

/-- No call returns a cell that is lost. -/
lemma Lost.not_interns (lost : s.Lost x) (interned : s.shared.toWorld.Interned fixed) (i : Nat)
    (name : String) : ¬ s.Interns c i name x := by
  intro interns
  generalize same : x = y at interns
  cases interns with
  | found here asked hit =>
    exact lost.unpublished _ (interned.symbol?_eq_some_iff.mp hit) same.symm
  | @published own _ z here asked =>
    rw [World.publish] at same
    cases found : s.shared.toWorld.symbol? name with
    | none =>
      rw [found] at same
      exact lost.unheld i own ⟨.between, same ▸ here⟩
    | some b =>
      rw [found] at same
      exact lost.unpublished _ (interned.symbol?_eq_some_iff.mp found) same.symm

/-- The cell of the thread that loses is lost. -/
lemma Loses.lost (loses : s.Loses c i name x) (orderly : s.Orderly c fixed) :
    (s.step c.program i).Lost x := by
  obtain ⟨own, here, asked, taken⟩ := loses
  obtain ⟨b, found⟩ := Option.ne_none_iff_exists'.mp taken
  have holds : s.Holds i own x := ⟨_, here⟩
  obtain ⟨name', asked', payload⟩ := orderly.named i own x holds
  have world : (s.shared.toWorld.publish name x).2 = s.shared.toWorld := by
    rw [World.publish, found]
  have eq := step_of_update here (Client.move_publish asked x)
  rw [Client.onWorld, world] at eq
  rw [eq]
  refine ⟨⟨name', payload⟩, orderly.unpublished i own x holds, ?_⟩
  rintro j own' ⟨stage, there⟩
  rw [getElem?_changed here] at there
  split at there
  · cases there
  · rename_i other
    exact other (orderly.apart i j own own' x holds ⟨stage, there⟩)

/-- A lost cell stays lost, -/
lemma Lost.turn {t t' : MutatorThread Object (Interner σ)} {g : Common Object Surroundings}
    (lost : s.Lost x) (lawful : c.Lawful held) (sound : s.shared.heap.Sound)
    (here : s.threads[i]? = some t)
    (turn : c.Turn s.shared.toWorld t.own t'.own g.shared.toWorld) : (s.changed i g t').Lost x := by
  obtain ⟨name, payload⟩ := lost.symbol
  refine ⟨⟨name, turn.payload?_symbol lawful sound payload⟩, ?_, ?_⟩
  · intro e entry same
    change e ∈ g.shared.toWorld.symbols at entry
    rcases turn.symbols_cases with symbols | ⟨name, y, _, fresh, _, symbols⟩
    · rw [symbols] at entry
      exact lost.unpublished e entry same
    · rw [symbols] at entry
      rcases List.mem_cons.mp entry with published | earlier
      · obtain rfl : y = x := by rw [← same, published]
        exact lost.unheld i _ (holds_mover here fresh)
      · exact lost.unpublished e earlier same
  · intro j own holds
    rcases holds_turn sound here turn holds with ⟨old, _⟩ | ⟨_, _, free, _⟩
    · exact lost.unheld j own old
    · exact free (Heap.isLive_of_payload? payload)

/-- also through a cycle that does not free it. -/
lemma Lost.cycle {t t' : MutatorThread Object (Interner σ)} {g : Common Object Surroundings}
    (lost : s.Lost x) (sound : s.shared.heap.Sound) (here : s.threads[i]? = some t)
    (same : t'.own = t.own) {inputs : List RootSet}
    (shared : g.shared = { s.shared with heap := s.shared.heap.runCycle inputs })
    (live : g.shared.heap.isLive x) : (s.changed i g t').Lost x := by
  obtain ⟨name, payload⟩ := lost.symbol
  rw [shared] at live
  refine ⟨⟨name, ?_⟩, ?_, fun j own holds => lost.unheld j own (holds_of_same here same holds)⟩
  · change g.shared.heap.payload? x = _
    rw [shared]
    exact (sound.payload?_runCycle_of_reaches (sound.isLive_runCycle_iff.mp live)).trans payload
  · change ∀ e ∈ g.shared.toWorld.symbols, _
    rw [shared]
    exact lost.unpublished

end MutatorSystem

namespace Client.Begins

open MutatorSystem

variable {s : MutatorSystem Object Surroundings (Interner σ)} {schedule : Nat → Nat} {m n : Nat}
  {name : String} {a x : Address}

lemma entries_succ (begins : c.Begins held s) (schedule : Nat → Nat) (n : Nat) :
    (s.run c.program schedule (n + 1)).shared.toWorld.symbols =
        (s.run c.program schedule n).shared.toWorld.symbols ∨
      ∃ name x, (s.run c.program schedule n).Interns c (schedule n) name x ∧
        (s.run c.program schedule (n + 1)).shared.toWorld.symbols =
          (name, x) :: (s.run c.program schedule n).shared.toWorld.symbols := by
  by_cases collects : (s.run c.program schedule n).Collects (schedule n)
  · obtain ⟨t, g, t', _, _, _, shared, eq⟩ := step_of_collects (p := c.program) collects
    left
    rw [run, eq]
    change g.shared.toWorld.symbols = _
    rw [shared]
    rfl
  · rcases begins.turns collects with same | ⟨t, g, t', here, turn, eq⟩
    · exact .inl (by rw [same])
    · rw [eq]
      rcases turn.symbols_cases with symbols | ⟨name, x, asked, fresh, absent, symbols⟩
      · exact .inl symbols
      · refine .inr ⟨name, x, ?_, symbols⟩
        obtain ⟨⟨own, progress⟩, stage⟩ := t
        obtain rfl : progress = .fresh x := fresh
        have follows := begins.starts.follows schedule n _ _ here
        obtain rfl := follows.eq_between (move_publish asked x)
        have cell : ((s.run c.program schedule n).shared.toWorld.publish name x).1 = x := by
          rw [World.publish, absent]
        have interns := Interns.published here asked
        rwa [cell] at interns

lemma entries_mono (begins : c.Begins held s) (schedule : Nat → Nat) (later : m ≤ n)
    (entry : (name, a) ∈ (s.run c.program schedule m).shared.toWorld.symbols) :
    (name, a) ∈ (s.run c.program schedule n).shared.toWorld.symbols := by
  induction n, later using Nat.le_induction with
  | base => exact entry
  | succ n _ ih =>
    rcases begins.entries_succ schedule n with same | ⟨name', x, _, more⟩
    · rw [same]
      exact ih
    · rw [more]
      exact List.mem_cons_of_mem _ ih

lemma entry_of_interns (begins : c.Begins held s)
    (interns : (s.run c.program schedule m).Interns c (schedule m) name a) (later : m < n) :
    (name, a) ∈ (s.run c.program schedule n).shared.toWorld.symbols :=
  begins.entries_mono schedule later (interns.step (begins.orderly schedule m).table).2

/-- The table consists of what calls have returned. -/
lemma entry_iff (begins : c.Begins held s) (schedule : Nat → Nat) (n : Nat) (name : String)
    (a : Address) : (name, a) ∈ (s.run c.program schedule n).shared.toWorld.symbols ↔
      ∃ m < n, (s.run c.program schedule m).Interns c (schedule m) name a := by
  constructor
  · induction n with
    | zero =>
      intro entry
      obtain ⟨w, threads, blank, _, rfl⟩ := begins.start
      have none_there : w.symbols = [] := blank.symbols
      change (name, a) ∈ w.symbols at entry
      rw [none_there] at entry
      cases entry
    | succ n ih =>
      intro entry
      have earlier : (name, a) ∈ (s.run c.program schedule n).shared.toWorld.symbols →
          ∃ m < n + 1, (s.run c.program schedule m).Interns c (schedule m) name a := by
        intro old
        obtain ⟨m, before, interns⟩ := ih old
        exact ⟨m, before.trans n.lt_succ_self, interns⟩
      rcases begins.entries_succ schedule n with same | ⟨name', x, interns, more⟩
      · rw [same] at entry
        exact earlier entry
      · rw [more] at entry
        rcases List.mem_cons.mp entry with new | old
        · cases new
          exact ⟨n, n.lt_succ_self, interns⟩
        · exact earlier old
  · rintro ⟨m, before, interns⟩
    exact begins.entry_of_interns interns before

lemma lost_succ (begins : c.Begins held s) (lost : (s.run c.program schedule n).Lost x)
    (live : (s.run c.program schedule (n + 1)).shared.heap.isLive x) :
    (s.run c.program schedule (n + 1)).Lost x := by
  have sound := (begins.reachable schedule n).sound
  by_cases collects : (s.run c.program schedule n).Collects (schedule n)
  · obtain ⟨t, g, t', here, same, _, shared, eq⟩ := step_of_collects (p := c.program) collects
    rw [run, eq] at live ⊢
    exact lost.cycle sound here same shared live
  · rcases begins.turns collects with same | ⟨t, g, t', here, turn, eq⟩
    · rw [same]
      exact lost
    · rw [eq]
      exact lost.turn begins.lawful sound here turn

lemma lost_run (begins : c.Begins held s) (lost : (s.run c.program schedule n).Lost x)
    (later : n ≤ m)
    (live : ∀ k, n < k → k ≤ m → (s.run c.program schedule k).shared.heap.isLive x) :
    (s.run c.program schedule m).Lost x := by
  induction m, later using Nat.le_induction with
  | base => exact lost
  | succ m later ih =>
    have before := ih fun k after earlier => live k after (earlier.trans m.le_succ)
    exact begins.lost_succ before (live (m + 1) (Nat.lt_succ_of_le later) le_rfl)

/-- The cell of a thread that loses is in no reply, before or after, until it is freed. -/
lemma not_interns_of_loses (begins : c.Begins held s)
    (loses : (s.run c.program schedule n).Loses c (schedule n) name x) (name' : String)
    (live : ∀ k, n < k → k ≤ m → (s.run c.program schedule k).shared.heap.isLive x) :
    ¬ (s.run c.program schedule m).Interns c (schedule m) name' x := by
  intro interns
  have lost : (s.run c.program schedule (n + 1)).Lost x := loses.lost (begins.orderly schedule n)
  rcases Nat.lt_or_ge m n with before | after
  · obtain ⟨own, here, _⟩ := loses
    have entry := begins.entry_of_interns interns before
    exact (begins.orderly schedule n).unpublished _ own x ⟨_, here⟩ _ entry rfl
  · rcases Nat.eq_or_lt_of_le after with rfl | later
    · have entry := begins.entry_of_interns interns (Nat.lt_succ_self n)
      exact lost.unpublished _ entry rfl
    · have still := begins.lost_run lost later fun k after => live k (Nat.lt_of_succ_lt after)
      exact still.not_interns (begins.orderly schedule m).table _ _ interns

end Client.Begins

end CellMachine
