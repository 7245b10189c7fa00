import CellMachine.Proofs.Heap.Dangling
import CellMachine.Proofs.Heap.Residents

/-!
# The balance of a heap

A thread works on a heap until the heap is dropped. Each payload that got a cell is then
dropped once, by the sweep that freed its cell or with the heap, however often the slots
were reused. On the way the allocations, the live cells and the counts of the collector add
up. Nothing is asked of the thread here: it may also keep references to cells that are gone.
-/

namespace CellMachine

/-- What is done with a heap in its life. -/
inductive LifeOp (α : Type) where
  | use (op : HeapOp α)
  /-- Frees every cell, whatever the roots. -/
  | collectAll

namespace Heap

variable {α : Type}

/-- The second heap has the cells of the first and new ones for some payloads. The payloads
themselves may have been changed in a way that the key does not show. -/
structure Gains {κ : Type} (key : α → κ) (h h' : Heap α) (new : List α) : Prop where
  sound : h'.Sound
  remains : (h'.remains.map key).Perm ((new ++ h.remains).map key)
  dropped : h'.dropped = h.dropped
  stats : h'.stats = h.stats

variable {κ : Type} {key : α → κ}

lemma Sound.gains_none {h h' : Heap α} (sound : h.Sound) (settings : h'.settings = h.settings)
    (allocators : h'.allocators = h.allocators) (dropped : h'.dropped = h.dropped)
    (stats : h'.stats = h.stats) : h.Gains key h' [] := by
  refine ⟨sound.congr settings allocators, ?_, dropped, stats⟩
  rw [List.nil_append, Heap.remains, Heap.remains, cells, cells, allocators]

lemma Sound.gains_grow {h : Heap α} (sound : h.Sound) (c : Nat) :
    h.Gains key (h.grow c) [] := by
  have same := ((sound.loses_grow c).remains sound).symm
  rw [List.filterMap_nil, List.append_nil] at same
  exact ⟨sound.grow c, same.map key, rfl, rfl⟩

lemma Sound.gains_edit {h : Heap α} (sound : h.Sound) (a : Address) {f : α → α}
    (keeps : ∀ payload, key (f payload) = key payload) :
    h.Gains key (h.modifyPayload a f) [] := by
  have sound' := sound.modifyPayload a f
  have addresses : (h.modifyPayload a f).residents.Perm h.residents :=
    sound'.perm_residents sound.nodup_residents fun x => by
      rw [sound.mem_residents, sound.isLive_modifyPayload]
  have each : ∀ x, ((h.modifyPayload a f).payload? x).map key = (h.payload? x).map key := by
    intro x
    rw [sound.payload?_modifyPayload]
    split
    · rw [Option.map_map]
      exact congrArg (Option.map · _) (funext keeps)
    · rfl
  refine ⟨sound', ?_, (h.modifyPayload_frame a f).2.2, ?_⟩
  · rw [List.nil_append, sound'.remains_eq, sound.remains_eq, List.map_filterMap,
      List.map_filterMap]
    exact (addresses.filterMap _).trans (.of_eq (List.filterMap_congr fun x _ => each x))
  · rw [Heap.modifyPayload]
    split
    · rfl
    · rfl

/-- Taking a slot for a payload. -/
lemma Sound.gains_allocateIn {h : Heap α} (sound : h.Sound) {c : Nat}
    (hc : c < h.allocators.size) (payload : α) :
    h.Gains key (h.allocateIn c payload).2 [payload] := by
  obtain ⟨a, _, sound', clear, here, rest⟩ := sound.allocateIn_cells hc payload
  have addresses : (h.allocateIn c payload).2.residents.Perm (a :: h.residents) := by
    refine sound'.perm_residents ?_ fun x => ?_
    · exact List.nodup_cons.mpr ⟨fun mem => clear (sound.mem_residents.mp mem),
        sound.nodup_residents⟩
    · rw [List.mem_cons, sound.mem_residents]
      by_cases new : x = a
      · simp [new, isLive_of_payload? here]
      · rw [isLive, isLive, (rest x new).1]
        simp [new]
  have old : h.residents.filterMap (h.allocateIn c payload).2.payload? =
      h.residents.filterMap h.payload? := by
    refine List.filterMap_congr fun x mem => (rest x ?_).2
    rintro rfl
    exact clear (sound.mem_residents.mp mem)
  refine ⟨sound', ?_, (h.allocateIn_frame c payload).2, ?_⟩
  · refine List.Perm.map key ?_
    rw [sound'.remains_eq, sound.remains_eq, ← old]
    refine (addresses.filterMap _).trans (.of_eq ?_)
    rw [List.filterMap_cons_some here]
    rfl
  · rw [allocateIn]
    split
    · rfl
    · rfl

variable [Payload α]

/-- What a cycle has counted is right. -/
structure CycleBooks (h : Heap α) (inputs : List RootSet) : Prop where
  marked : (h.runCycle inputs).stats.last.marked = (h.runCycle inputs).liveCells
  freed : (h.runCycle inputs).stats.last.marked + (h.runCycle inputs).stats.last.freed =
    h.liveCells
  /-- Submitted words and registrations of global roots that resolve to a cell. -/
  roots : (h.runCycle inputs).stats.last.roots =
    (h.rootWords inputs).countP fun w => (h.cellFor? w).isSome
  total : (h.runCycle inputs).stats.cellsFreed =
    h.stats.cellsFreed + (h.runCycle inputs).stats.last.freed
  cycles : (h.runCycle inputs).stats.cycles = h.stats.cycles + 1

lemma Sound.cycleBooks {h : Heap α} (sound : h.Sound) (inputs : List RootSet) :
    h.CycleBooks inputs := by
  constructor
  · exact sound.marked_runCycle inputs
  · rw [sound.marked_runCycle, sound.freed_runCycle, (sound.loses_runCycle inputs).liveCells sound]
  · exact sound.roots_runCycle inputs
  · exact (sound.totals_runCycle inputs).2
  · exact (sound.totals_runCycle inputs).1

/-- Making room frees what a cycle frees if it runs one, and nothing otherwise. -/
lemma Sound.makeRoom_cases {h : Heap α} (sound : h.Sound) (c : Nat) (threads : List (Array Value))
    (payload : α) :
    (h.pressure c = .short ∧
      h.Loses (h.makeRoom c threads payload)
        (h.unreached (rootSets threads (Payload.children payload))) ∧
      (h.makeRoom c threads payload).stats =
        (h.runCycle (rootSets threads (Payload.children payload))).stats) ∨
    (h.pressure c ≠ .short ∧ h.Loses (h.makeRoom c threads payload) [] ∧
      (h.makeRoom c threads payload).stats = h.stats) := by
  rw [makeRoom]
  cases pressed : h.pressure c with
  | prepared => exact .inr ⟨by decide, sound.loses_prewarm c, rfl⟩
  | relaxed => exact .inr ⟨by decide, sound.loses_none sound rfl (fun _ => rfl) rfl, rfl⟩
  | short =>
    have enabled : h.gcEnabled = true := by
      rw [pressure] at pressed
      split at pressed
      · cases pressed
      · rename_i on
        simpa using on
    refine .inl ⟨rfl, ?_⟩
    simp only [Heap.collect, enabled, if_true]
    exact ⟨(sound.loses_runCycle _).then_none ((sound.runCycle _).loses_grow c), rfl⟩

end Heap

namespace HeapUser

variable {α : Type} [Payload α]

def after (u : HeapUser α) : LifeOp α → HeapUser α
  | .use op => u.perform op
  | .collectAll => { u with heap := u.heap.collectAll.2 }

/-- After so many operations. -/
def life (u : HeapUser α) (ops : Nat → LifeOp α) : Nat → HeapUser α
  | 0 => u
  | n + 1 => (life u ops n).after (ops n)

/-- The payload that an operation gives a cell to. -/
def settled (u : HeapUser α) : LifeOp α → List α
  | .use (.allocate payload others) =>
    if (u.made? (.allocate payload others)).isSome then [payload] else []
  | _ => []

/-- What a final sweep answers, which no statistics mention. -/
def answered (u : HeapUser α) : LifeOp α → Nat
  | .collectAll => u.heap.collectAll.1
  | .use _ => 0

/-- The operation frees the cell at an address. -/
def Clears (u : HeapUser α) (a : Address) : LifeOp α → Prop
  | .use op => u.heap.isLive a ∧ u.Frees op a
  | .collectAll => u.heap.isLive a

/-- All payloads that the first operations gave cells to, the latest first. -/
def settledBy (u : HeapUser α) (ops : Nat → LifeOp α) : Nat → List α
  | 0 => []
  | n + 1 => (u.life ops n).settled (ops n) ++ settledBy u ops n

/-- All that the final sweeps among the first operations answered. -/
def answeredBy (u : HeapUser α) (ops : Nat → LifeOp α) : Nat → Nat
  | 0 => 0
  | n + 1 => (u.life ops n).answered (ops n) + answeredBy u ops n

variable {u : HeapUser α} {κ : Type} {key : α → κ}

/-- An operation first frees some cells, in a cycle or in a final sweep, and then fills one at
most. -/
structure Moves (key : α → κ) (u : HeapUser α) (op : LifeOp α) (gone : List Address)
    (room : Heap α) : Prop where
  loses : u.heap.Loses room gone
  clears : ∀ a, a ∈ gone ↔ u.Clears a op
  collects : ∀ o, op = .use o → u.Collects o →
    room.stats = (u.heap.runCycle (u.submits o)).stats
  idle : (∀ o, op = .use o → ¬ u.Collects o) → room.stats = u.heap.stats
  gains : room.Gains key (u.after op).heap (u.settled op)

/-- An operation that runs no cycle. -/
lemma moves_idle {op : HeapOp α} {room : Heap α} (idle : ¬ u.Collects op)
    (loses : u.heap.Loses room []) (stats : room.stats = u.heap.stats)
    (gains : room.Gains key (u.perform op).heap (u.settled (.use op))) :
    u.Moves key (.use op) [] room := by
  constructor
  · exact loses
  · intro a
    simp [Clears, Frees, idle]
  · rintro _ ⟨⟩ collects
    exact absurd collects idle
  · exact fun _ => stats
  · exact gains

/-- An operation that runs a cycle. -/
lemma moves_collecting (sound : u.heap.Sound) {op : HeapOp α} {room : Heap α}
    (collects : u.Collects op) (loses : u.heap.Loses room (u.heap.unreached (u.submits op)))
    (stats : room.stats = (u.heap.runCycle (u.submits op)).stats)
    (gains : room.Gains key (u.perform op).heap (u.settled (.use op))) :
    u.Moves key (.use op) (u.heap.unreached (u.submits op)) room := by
  constructor
  · exact loses
  · intro a
    rw [sound.mem_unreached]
    exact and_congr_right fun _ => (and_iff_right collects).symm
  · rintro _ ⟨⟩ _
    exact stats
  · exact fun idle => absurd collects (idle op rfl)
  · exact gains

/-- A payload that has a class gets a cell. -/
lemma settled_allocate (sound : u.heap.Sound) {payload : α} {c : Nat}
    (fits : u.heap.classOf payload = .ok c) (others : List (Array Value)) :
    u.settled (.use (.allocate payload others)) = [payload] := by
  obtain ⟨a, ok, _⟩ := sound.allocate_spec fits (u.roots :: others)
  rw [settled, made?, ok]
  rfl

lemma moves_allocate (sound : u.heap.Sound) (payload : α) (others : List (Array Value)) :
    ∃ gone room, u.Moves key (.use (.allocate payload others)) gone room := by
  cases fits : u.heap.classOf payload with
  | error f =>
    obtain ⟨made, same⟩ := perform_allocate_of_error fits others
    refine ⟨[], u.heap, moves_idle ?_ (sound.loses_none sound rfl (fun _ => rfl) rfl) rfl ?_⟩
    · rintro ⟨c, fits', _⟩
      rw [fits] at fits'
      cases fits'
    · rw [same, settled, made]
      exact sound.gains_none rfl rfl rfl rfl
  | ok c =>
    have rooms := sound.makeRoom_cases c (u.roots :: others) payload
    have layout := (sound.makeRoom_spec c (u.roots :: others) payload).2.1
    have gains (soundRoom : (u.heap.makeRoom c (u.roots :: others) payload).Sound) :
        (u.heap.makeRoom c (u.roots :: others) payload).Gains key
          (u.perform (.allocate payload others)).heap
          (u.settled (.use (.allocate payload others))) := by
      have hc : c < (u.heap.makeRoom c (u.roots :: others) payload).allocators.size :=
        Heap.size_of_layout layout ▸ Heap.classOf_lt sound fits
      rw [perform_allocate_of_ok fits, settled_allocate sound fits]
      exact soundRoom.gains_allocateIn hc payload
    rcases rooms with ⟨short, loses, stats⟩ | ⟨relaxed, loses, stats⟩
    · have collects : u.Collects (.allocate payload others) := ⟨c, fits, short⟩
      exact ⟨_, _, moves_collecting sound collects loses stats (gains loses.sound)⟩
    · refine ⟨_, _, moves_idle ?_ loses stats (gains loses.sound)⟩
      rintro ⟨d, fits', short⟩
      obtain rfl : c = d := Except.ok.inj (fits.symm.trans fits')
      exact relaxed short

/-- Every operation frees some cells and fills one at most. -/
lemma moves (key : α → κ) (sound : u.heap.Sound) (op : LifeOp α)
    (keeps : ∀ a f, op = .use (.edit a f) → ∀ payload, key (f payload) = key payload) :
    ∃ gone room, u.Moves key op gone room := by
  cases op with
  | collectAll =>
    obtain ⟨loses, _⟩ := sound.loses_collectAll
    exact ⟨_, _, loses, fun a => sound.mem_residents, nofun, fun _ => rfl,
      loses.sound.gains_none rfl rfl rfl rfl⟩
  | use op =>
    have still : ∀ {heap : Heap α}, heap.settings = u.heap.settings →
        heap.allocators = u.heap.allocators → heap.dropped = u.heap.dropped →
        heap.stats = u.heap.stats → u.heap.Gains key heap [] := sound.gains_none
    have unmoved := sound.loses_none sound rfl (fun _ => rfl) rfl
    cases op with
    | allocate payload others => exact moves_allocate sound payload others
    | edit a f => exact ⟨_, _, moves_idle id unmoved rfl (sound.gains_edit a (keeps a f rfl))⟩
    | collect others =>
      by_cases enabled : u.heap.gcEnabled
      · have heap : (u.perform (.collect others)).heap =
            u.heap.runCycle (u.submits (.collect others)) := by
          rw [HeapUser.perform, Heap.collect, if_pos enabled]
          rfl
        have loses := sound.loses_runCycle (u.submits (.collect others))
        refine ⟨_, _, moves_collecting sound enabled loses rfl ?_⟩
        rw [heap]
        exact loses.sound.gains_none rfl rfl rfl rfl
      · have heap : (u.perform (.collect others)).heap = u.heap := by
          rw [HeapUser.perform, Heap.collect, if_neg enabled]
        refine ⟨_, _, moves_idle enabled unmoved rfl ?_⟩
        rw [heap]
        exact still rfl rfl rfl rfl
    | grow c => exact ⟨_, _, moves_idle id unmoved rfl (sound.gains_grow c)⟩
    | addGlobalRoot v =>
      obtain ⟨settings, allocators, dropped⟩ := u.heap.addGlobalRoot_frame v
      refine ⟨_, _, moves_idle id unmoved rfl (still settings allocators dropped ?_)⟩
      rw [HeapUser.perform, Heap.addGlobalRoot]
      split
      · rfl
      · rfl
    | setRoots roots => exact ⟨_, _, moves_idle id unmoved rfl (still rfl rfl rfl rfl)⟩
    | removeGlobalRoot v => exact ⟨_, _, moves_idle id unmoved rfl (still rfl rfl rfl rfl)⟩
    | enable => exact ⟨_, _, moves_idle id unmoved rfl (still rfl rfl rfl rfl)⟩
    | disable => exact ⟨_, _, moves_idle id unmoved rfl (still rfl rfl rfl rfl)⟩

/-- The freed cells are counted by the statistics, or by the answer of a final sweep. -/
lemma Moves.counts {op : LifeOp α} {gone : List Address} {room : Heap α}
    (moves : u.Moves key op gone room) (sound : u.heap.Sound) :
    room.stats.cellsFreed + u.answered op = u.heap.stats.cellsFreed + gone.length := by
  cases op with
  | collectAll =>
    have all := sound.perm_residents moves.loses.distinct moves.clears
    rw [moves.idle nofun, answered, sound.loses_collectAll.2, ← all.length_eq,
      sound.length_residents]
  | use op =>
    by_cases collects : u.Collects op
    · have unreached : gone.Perm (u.heap.unreached (u.submits op)) := by
        refine (List.perm_ext_iff_of_nodup moves.loses.distinct sound.nodup_unreached).mpr ?_
        intro a
        rw [moves.clears, sound.mem_unreached]
        exact and_congr_right fun _ => and_iff_right collects
      rw [moves.collects op rfl collects, (sound.totals_runCycle _).2, sound.freed_runCycle,
        unreached.length_eq]
      rfl
    · have none_gone : gone = [] := List.eq_nil_iff_forall_not_mem.mpr fun a lost =>
        collects ((moves.clears a).mp lost).2.1
      rw [moves.idle (by rintro _ ⟨⟩; exact collects), none_gone]
      rfl

/-- What has been dropped and what is left is what has got a cell, and of the dropped payloads
the statistics and the answers of final sweeps give the number. -/
structure Ledger (key : α → κ) (u : HeapUser α) (settled : List α) (answered : Nat) :
    Prop where
  sound : u.heap.Sound
  payloads : ((u.heap.dropped ++ u.heap.remains).map key).Perm (settled.map key)
  dropped : u.heap.dropped.length = u.heap.stats.cellsFreed + answered

lemma Moves.ledger {op : LifeOp α} {gone : List Address} {room : Heap α} {old : List α}
    {sum : Nat} (moves : u.Moves key op gone room) (ledger : u.Ledger key old sum) :
    (u.after op).Ledger key (u.settled op ++ old) (u.answered op + sum) := by
  obtain ⟨lost, payloads, dropped⟩ := moves.loses.dropped
  constructor
  · exact moves.gains.sound
  · have before := (moves.loses.remains ledger.sound).map key
    have gained := moves.gains.remains
    have known := ledger.payloads
    have here := payloads.map key
    rw [moves.gains.dropped, dropped]
    simp only [List.map_append, ← Multiset.coe_eq_coe, ← Multiset.coe_add]
      at before gained known here ⊢
    rw [gained, here, ← known, before]
    abel
  · have count := payloads.length_eq
    have counted := ledger.dropped
    have stats := moves.counts ledger.sound
    rw [ledger.sound.length_payloads moves.loses.resident] at count
    rw [moves.gains.dropped, dropped, List.length_append, moves.gains.stats]
    omega

lemma Ledger.life {ops : Nat → LifeOp α} (start : u.Ledger key [] 0)
    (keeps : ∀ n a f, ops n = .use (.edit a f) → ∀ payload, key (f payload) = key payload)
    (n : Nat) : (u.life ops n).Ledger key (u.settledBy ops n) (u.answeredBy ops n) := by
  induction n with
  | zero => exact start
  | succ n ih =>
    obtain ⟨gone, room, moved⟩ := moves key ih.sound (ops n) (keeps n)
    exact moved.ledger ih

lemma Fresh.ledger (fresh : u.Fresh) (key : α → κ) : u.Ledger key [] 0 := by
  have tidy := fresh.tidy
  obtain ⟨place, settings, apart, made, _⟩ := fresh
  have remains := tidy.sound.remains_eq_nil (Heap.not_isLive_createAt apart made)
  have start : u.heap.dropped = [] ∧ u.heap.stats.cellsFreed = 0 := by
    rw [Heap.createAt] at made
    split at made
    · cases made
    · rw [← Except.ok.inj made]
      exact ⟨rfl, rfl⟩
  refine ⟨tidy.sound, ?_, ?_⟩
  · rw [start.1, remains]
    exact .refl _
  · rw [start.1, start.2]
    rfl

/-- What is true of the books at every moment of a heap's life. -/
structure Balanced (key : α → κ) (u : HeapUser α) (ops : Nat → LifeOp α) : Prop where
  /-- Each payload that got a cell has been dropped or goes with the heap, and that once. -/
  once : ∀ n, (((u.life ops n).heap.dropped ++ (u.life ops n).heap.remains).map key).Perm
    ((u.settledBy ops n).map key)
  /-- An operation drops what the cells hold that it frees. -/
  drops : ∀ n, ∃ (gone : List Address) (lost : List α), gone.Nodup ∧
    (∀ a, a ∈ gone ↔ (u.life ops n).Clears a (ops n)) ∧
    lost.Perm (gone.filterMap (u.life ops n).heap.payload?) ∧
    (u.life ops (n + 1)).heap.dropped = lost ++ (u.life ops n).heap.dropped
  settled : ∀ n, (u.settledBy ops n).length =
    (u.life ops n).heap.liveCells + (u.life ops n).heap.stats.cellsFreed + u.answeredBy ops n
  cycle : ∀ n inputs, (u.life ops n).heap.CycleBooks inputs
  /-- The statistics are those of the cycle that an operation runs, if it runs one. -/
  collects : ∀ n o, ops n = .use o → (u.life ops n).Collects o →
    (u.life ops (n + 1)).heap.stats =
      ((u.life ops n).heap.runCycle ((u.life ops n).submits o)).stats
  idle : ∀ n, (∀ o, ops n = .use o → ¬ (u.life ops n).Collects o) →
    (u.life ops (n + 1)).heap.stats = (u.life ops n).heap.stats
  census : ∀ n, ((u.life ops n).heap.census.map Prod.snd).sum = (u.life ops n).heap.liveCells
  /-- The addresses that are accepted as live are starts of slots, one for each live cell. -/
  live : ∀ n, ∃ slots : List Spot, (slots.map (u.life ops n).heap.addressOf).Nodup ∧
    (∀ a, a ∈ slots.map (u.life ops n).heap.addressOf ↔ (u.life ops n).heap.isLive a) ∧
    slots.length = (u.life ops n).heap.liveCells
  /-- The subtraction that gives the number of live cells loses nothing. -/
  cells : ∀ n, (u.life ops n).heap.liveCells + (u.life ops n).heap.freeCells =
    (u.life ops n).heap.totalCells

/-- The books of a heap balance all its life, whatever its settings and whatever is done with
it, for every name of payloads that no edit changes. -/
theorem balanced (fresh : u.Fresh) {ops : Nat → LifeOp α}
    (keeps : ∀ n a f, ops n = .use (.edit a f) → ∀ payload, key (f payload) = key payload) :
    u.Balanced key ops := by
  have ledger := fun n => (fresh.ledger key).life keeps n
  have moved := fun n => moves key (ledger n).sound (ops n) (keeps n)
  constructor
  · exact fun n => (ledger n).payloads
  · intro n
    obtain ⟨gone, room, moves⟩ := moved n
    obtain ⟨lost, payloads, dropped⟩ := moves.loses.dropped
    exact ⟨gone, lost, moves.loses.distinct, moves.clears, payloads,
      moves.gains.dropped.trans dropped⟩
  · intro n
    have total := (ledger n).payloads.length_eq
    have dropped := (ledger n).dropped
    rw [List.length_map, List.length_map, List.length_append, (ledger n).sound.length_remains]
      at total
    omega
  · exact fun n inputs => (ledger n).sound.cycleBooks inputs
  · intro n o op collects
    obtain ⟨gone, room, moves⟩ := moved n
    exact moves.gains.stats.trans (moves.collects o op collects)
  · intro n none_run
    obtain ⟨gone, room, moves⟩ := moved n
    exact moves.gains.stats.trans (moves.idle none_run)
  · exact fun n => (ledger n).sound.sum_census
  · intro n
    have sound := (ledger n).sound
    refine ⟨(u.life ops n).heap.spots, sound.nodup_residents, fun a => sound.mem_residents, ?_⟩
    rw [← sound.length_residents, Heap.residents, List.length_map]
  · intro n
    have books := (ledger n).sound.freeCells_add_spots
    rw [Heap.liveCells]
    omega

/-- The knot is tied and freed, another node takes one of its slots, and at last all is swept. -/
def knotAndHeir (n : Nat) : LifeOp Node :=
  if n < 6 then .use (knot n)
  else if n = 6 then .use (.allocate ⟨2, "heir", 8, 8, []⟩ [])
  else .collectAll

lemma id_knotAndHeir (n : Nat) (a : Address) (f : Node → Node)
    (op : knotAndHeir n = .use (.edit a f)) (node : Node) : (f node).id = node.id := by
  by_cases early : n < 6
  · rw [knotAndHeir, if_pos early] at op
    interval_cases n <;> cases op
    rfl
  · rw [knotAndHeir, if_neg early] at op
    split at op <;> cases op

lemma sound_knotAndHeir (n : Nat) : (newcomer.life knotAndHeir n).heap.Sound :=
  ((fresh_newcomer.ledger Node.id).life id_knotAndHeir n).sound

lemma settledBy_knotAndHeir : newcomer.settledBy knotAndHeir 8 =
    [⟨2, "heir", 8, 8, []⟩, ⟨1, "node", 8, 8, [.ref (cellOf 0)]⟩, ⟨0, "node", 8, 8, []⟩] := by
  have first : newcomer.settled (knotAndHeir 0) = [⟨0, "node", 8, 8, []⟩] :=
    settled_allocate (sound_knotAndHeir 0) (c := 0) (by decide +kernel) []
  have second : (newcomer.life knotAndHeir 2).settled (knotAndHeir 2) =
      [⟨1, "node", 8, 8, [.ref (cellOf 0)]⟩] :=
    settled_allocate (sound_knotAndHeir 2) (c := 0) (by decide +kernel) []
  have heir : (newcomer.life knotAndHeir 6).settled (knotAndHeir 6) = [⟨2, "heir", 8, 8, []⟩] :=
    settled_allocate (sound_knotAndHeir 6) (c := 0) (by decide +kernel) []
  change [] ++ ((newcomer.life knotAndHeir 6).settled (knotAndHeir 6) ++ ([] ++ ([] ++ ([] ++
    ((newcomer.life knotAndHeir 2).settled (knotAndHeir 2) ++ ([] ++
    (newcomer.settled (knotAndHeir 0) ++ []))))))) = _
  rw [first, second, heir]
  rfl

/-- Two nodes are dropped by a cycle and one by a final sweep. -/
theorem balanced_knotAndHeir : newcomer.Fresh ∧
    (∀ n a f, knotAndHeir n = .use (.edit a f) → ∀ node : Node, (f node).id = node.id) ∧
    newcomer.Balanced Node.id knotAndHeir ∧
    ((newcomer.life knotAndHeir 8).heap.dropped.map Node.id).Perm [0, 1, 2] := by
  have books := balanced fresh_newcomer id_knotAndHeir
  have swept : (newcomer.life knotAndHeir 8).heap.remains = [] :=
    (sound_knotAndHeir 8).remains_eq_nil (sound_knotAndHeir 7).not_isLive_collectAll
  have once := books.once 8
  rw [swept, List.append_nil, settledBy_knotAndHeir] at once
  exact ⟨fresh_newcomer, id_knotAndHeir, books, once.trans (by decide)⟩

end HeapUser

end CellMachine
