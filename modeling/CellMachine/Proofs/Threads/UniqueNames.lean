import CellMachine.Proofs.Threads.LateCells

/-!
# One cell for each name

The threads of a machine intern names, bind global variables and collect as they like. Each
name has one cell from its first call on: every call for it returns that cell, and no call for
another name does.
-/

namespace CellMachine

variable {σ : Type} {c : Client σ} {held : σ → Nat}

namespace Client

open MutatorSystem

/-- Names have one cell each, whatever the threads do and however they are interleaved. -/
structure InternsUniquely (c : Client σ) (held : σ → Nat) (schedule : Nat → Nat)
    (s : MutatorSystem Object Surroundings (Interner σ)) : Prop where
  /-- A call that ends with a cell has that cell as its reply. -/
  replies : ∀ n name a, (s.run c.program schedule n).Interns c (schedule n) name a →
    ∃ own, c.request own = .intern name ∧
      (s.run c.program schedule (n + 1)).threads[schedule n]? =
        some ⟨⟨c.resume own (.cell a), .start⟩, .between⟩
  /-- Two calls return the same cell if their names are equal, and only then. -/
  same_cell_iff : ∀ m n name name' a a',
    (s.run c.program schedule m).Interns c (schedule m) name a →
    (s.run c.program schedule n).Interns c (schedule n) name' a' → (a = a' ↔ name = name')
  /-- A cell that was returned is a symbol with that name from then on. -/
  stays : ∀ m n name a, (s.run c.program schedule m).Interns c (schedule m) name a → m < n →
    (s.run c.program schedule n).shared.heap.isLive a ∧
      (s.run c.program schedule n).shared.heap.payload? a = some (.symbol name)
  /-- The table has one entry for each name, -/
  one_entry : ∀ n, ((s.run c.program schedule n).shared.toWorld.symbols.map Prod.fst).Nodup
  /-- with the cell that the calls return, -/
  entry_iff : ∀ n name a, (name, a) ∈ (s.run c.program schedule n).shared.toWorld.symbols ↔
    ∃ m < n, (s.run c.program schedule m).Interns c (schedule m) name a
  /-- and one global root for each of these cells. -/
  rooted : ∀ n, (s.run c.program schedule n).shared.heap.globalRoots.Perm
    (s.shared.heap.globalRoots ++
      (s.run c.program schedule n).shared.toWorld.symbols.map (fun e => .ref e.2) ++
      ((s.run c.program schedule n).shared.toWorld.globals.map Prod.snd).filter Value.isRef)
  /-- The cell of a thread that loses is in no reply before, or after as long as it lives. -/
  late : ∀ n name x, (s.run c.program schedule n).Loses c (schedule n) name x →
    ∀ m name', (∀ k, n < k → k ≤ m → (s.run c.program schedule k).shared.heap.isLive x) →
      ¬ (s.run c.program schedule m).Interns c (schedule m) name' x
  /-- If the threads use what they were given and nothing else, the next cycle frees it. -/
  freed : c.Honest held → ∀ n name x,
    (s.run c.program schedule n).Loses c (schedule n) name x → ∀ m, n < m →
    (∀ k, n < k → k < m → ¬ (s.run c.program schedule k).Collects (schedule k)) →
      (s.run c.program schedule m).shared.heap.isLive x ∧
        ((s.run c.program schedule m).Collects (schedule m) →
          ¬ (s.run c.program schedule (m + 1)).shared.heap.isLive x)

/-- Interning is unique: for any number of threads, any lawful programs and any schedule. -/
theorem internsUniquely {s : MutatorSystem Object Surroundings (Interner σ)}
    (begins : c.Begins held s) (schedule : Nat → Nat) : c.InternsUniquely held schedule s := by
  constructor
  · exact fun n name a interns => (interns.step (begins.orderly schedule n).table).1
  · intro m n name name' a a' first second
    have table := (begins.orderly schedule (max m n + 1)).table
    have entry := begins.entry_of_interns first (Nat.lt_succ_of_le (Nat.le_max_left m n))
    have entry' := begins.entry_of_interns second (Nat.lt_succ_of_le (Nat.le_max_right m n))
    constructor
    · rintro rfl
      exact table.name_unique entry entry'
    · rintro rfl
      exact table.address_unique entry entry'
  · intro m n name a interns later
    have entry := begins.entry_of_interns interns later
    exact ⟨(begins.orderly schedule n).isLive_entry entry,
      (begins.orderly schedule n).table.cells name a entry⟩
  · exact fun n => (begins.orderly schedule n).table.unique
  · exact fun n name a => begins.entry_iff schedule n name a
  · exact fun n => (begins.orderly schedule n).table.rooted
  · exact fun n name x loses m name' live => begins.not_interns_of_loses loses name' live
  · exact fun honest n name x loses m later first =>
      begins.freed_of_loses honest loses later first

/-- A thread that interns a name and then collects. The number says how far it is; while it
collects it reports the cell. -/
def racer : Client (Nat × List Value) where
  roots own := if own.1 = 2 then own.2 else []
  request own :=
    match own.1 with
    | 0 => .register
    | 1 => .intern "shared"
    | 2 => .collect
    | 3 => .deregister
    | _ => .halt
  resume own reply :=
    (min (own.1 + 1) 4,
      match reply with
      | .cell a => [.ref a]
      | _ => [])

def racerHeld (own : Nat × List Value) : Nat :=
  match own.1 with
  | 1 | 2 | 3 => 1
  | _ => 0

lemma lawful_racer : racer.Lawful racerHeld := by
  constructor
  · rintro ⟨k, vs⟩ needs
    match k with
    | 1 | 2 => exact Nat.one_pos
    | 0 | 3 | _ + 4 => cases needs
  · rintro ⟨k, vs⟩ reply
    match k with
    | 0 | 1 | 2 | 3 => rfl
    | k + 4 =>
      have last : min (k + 4 + 1) 4 = 4 := by omega
      simp only [racer, racerHeld, last, Request.lost, Request.gained]
  · rintro ⟨k, vs⟩ a f asked
    match k with
    | 0 | 1 | 2 | 3 | _ + 4 => cases asked

lemma honest_racer : racer.Honest racerHeld := by
  constructor
  · rintro ⟨k, vs⟩ unregistered a
    match k with
    | 0 | 1 | 3 | _ + 4 => exact List.not_mem_nil
    | 2 => cases unregistered
  · rintro ⟨k, vs⟩ leaving a
    match k with
    | 3 => exact List.not_mem_nil
    | 0 | 1 | 2 | _ + 4 => cases leaving
  · rintro ⟨k, vs⟩ reply a mem
    right
    match k with
    | 1 =>
      cases reply with
      | cell b => exact List.mem_singleton.mp mem
      | _ => cases mem
    | 0 | 2 | 3 => cases mem
    | k + 4 =>
      have last : ¬ min (k + 4 + 1) 4 = 2 := by omega
      simp only [racer, last, if_false] at mem
      cases mem
  · rintro ⟨k, vs⟩ o asked
    match k with
    | 0 | 1 | 2 | 3 | _ + 4 => cases asked
  · rintro ⟨k, vs⟩ name a asked
    match k with
    | 0 | 1 | 2 | 3 | _ + 4 => cases asked
  · rintro ⟨k, vs⟩ x f asked
    match k with
    | 0 | 1 | 2 | 3 | _ + 4 => cases asked

/-- One size class, whose blocks hold eight cells. -/
def raceSettings : Settings := { Settings.standard with sizeClasses := [4064], initialBlocks := 1 }

lemma made_raceSettings : (World.create raceSettings).toOption.isSome = true := by decide +kernel

/-- The world of a new machine. -/
def raceWorld : World := (World.create raceSettings).toOption.get made_raceSettings

lemma blank_raceWorld : raceWorld.Blank := World.blank_of_create (eq_ok_get made_raceSettings)

def racers : MutatorSystem Object Surroundings (Interner (Nat × List Value)) :=
  .start raceWorld.heap raceWorld.shared.world
    ([(0, []), (0, [])].map fun own => ⟨own, .start⟩)

/-- Both threads allocate a cell for the name, the first one publishes its cell, and then both
take part in a cycle. -/
def race (n : Nat) : Nat :=
  [0, 1, 0, 1, 0, 0, 0, 1, 1, 1, 0, 1, 0, 0, 1, 1, 0, 0, 1, 1, 0, 1, 0, 0].getD n 0

lemma begins_racers : racer.Begins racerHeld racers :=
  ⟨lawful_racer, raceWorld, [(0, []), (0, [])], blank_raceWorld, by simp [racerHeld], rfl⟩

/-- The cell of the second thread. -/
def lateCell : Address := raceWorld.heap.addressOf ⟨0, ⟨0, 4⟩⟩

/-- The second thread loses in the twelfth step, and the cycle in the twenty-fourth frees its
cell. -/
theorem internsUniquely_racers : racer.Begins racerHeld racers ∧ racer.Honest racerHeld ∧
    racer.InternsUniquely racerHeld race racers ∧
    (racers.run racer.program race 11).Loses racer 1 "shared" lateCell ∧
    (racers.run racer.program race 23).shared.heap.isLive lateCell ∧
    ¬ (racers.run racer.program race (23 + 1)).shared.heap.isLive lateCell := by
  have unique := internsUniquely begins_racers race
  have loses : (racers.run racer.program race 11).Loses racer 1 "shared" lateCell := by
    decide +kernel
  have quiet : ∀ k < 23, 11 < k → ¬ (racers.run racer.program race k).Collects (race k) := by
    decide +kernel
  have collects : (racers.run racer.program race 23).Collects (race 23) := by decide +kernel
  have freed := unique.freed honest_racer 11 "shared" lateCell loses 23 (by decide)
    fun k after before => quiet k before after
  exact ⟨begins_racers, honest_racer, unique, loses, freed.1, freed.2 collects⟩

end Client

end CellMachine
