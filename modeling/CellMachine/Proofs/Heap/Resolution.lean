import CellMachine.Proofs.Heap.Payloads

/-!
# Which cell a word points into

The cells of a heap are put on record when they are allocated, each with the bytes of its slot,
and struck off when a cycle frees them. Resolving a word by division, by ownership of its block and
by the bitmap agrees with this record at every word: a word in the slot of a cell on record
resolves to that cell, and all others, those in a block's header, behind its last slot, in a free
slot or in no block, resolve to nothing.
-/

namespace CellMachine

/-- A cell that was allocated and not freed since: where its slot starts, and its length. -/
structure Tenant where
  start : Nat
  bytes : Nat
deriving DecidableEq, Repr

namespace Tenant

def address (t : Tenant) : Address := .memory t.start

/-- The word lies in the cell's slot. -/
def Holds (t : Tenant) (w : Nat) : Prop := t.start ≤ w ∧ w < t.start + t.bytes

end Tenant

namespace Heap

variable {α : Type} {h h' : Heap α} {tenants : Set Tenant} {w : Nat}

/-- A heap that can be reached, and the cells that were allocated on the way and not freed. A cell
goes on record under the address that its allocation gave, with the size of its class. -/
inductive Tenanted [Payload α] : Heap α → Set Tenant → Prop where
  | create {place : Nat → Nat → Nat} {s : Settings} {h : Heap α}
      (apart : Apart place s.sizeClasses.length) (made : createAt place s = .ok h) : Tenanted h ∅
  | touch {h h' : Heap α} {tenants : Set Tenant} (before : Tenanted h tenants)
      (change : Touch h h') : Tenanted h' tenants
  | prewarm {h : Heap α} {tenants : Set Tenant} (before : Tenanted h tenants) (c : Nat) :
      Tenanted (h.prewarm c) tenants
  | grow {h : Heap α} {tenants : Set Tenant} (before : Tenanted h tenants) (c : Nat) :
      Tenanted (h.grow c) tenants
  | offerInOrder {h : Heap α} {tenants : Set Tenant} (before : Tenanted h tenants) (c : Nat)
      (order : List Nat) : Tenanted (h.offerInOrder c order) tenants
  | claim {h : Heap α} {tenants : Set Tenant} (before : Tenanted h tenants) {payload : α}
      {c bytes w : Nat} (fits : h.classOf payload = .ok c)
      (size : h.settings.sizeClasses[c]? = some bytes)
      (given : (h.allocateIn c payload).1 = .ok (.memory w)) :
      Tenanted (h.allocateIn c payload).2 (insert ⟨w, bytes⟩ tenants)
  | cycle {h : Heap α} {tenants : Set Tenant} (before : Tenanted h tenants)
      (inputs : List RootSet) :
      Tenanted (h.runCycle inputs) {t ∈ tenants | t.address ∉ h.unreached inputs}
  | dropAll {h : Heap α} {tenants : Set Tenant} (before : Tenanted h tenants) :
      Tenanted h.collectAll.2 ∅

/-- The cell lives in the slot. -/
def TenantAt (h : Heap α) (s : Spot) (t : Tenant) : Prop :=
  (h.cellAt? s).isSome ∧ h.addressOf s = t.address ∧
    h.settings.sizeClasses[s.sizeClass]? = some t.bytes

/-- The record is right: it names the cells in the slots that are in use, and no others. -/
structure Records (h : Heap α) (tenants : Set Tenant) : Prop where
  sound : h.Sound
  mem_iff : ∀ t, t ∈ tenants ↔ ∃ s, h.TenantAt s t

/-- Addresses and sizes stay, so the record is right as long as the same slots are in use. -/
lemma Records.congr (records : h.Records tenants) (sound : h'.Sound)
    (settings : h'.settings = h.settings) (layout : h'.layout = h.layout)
    (used : ∀ s, (h'.cellAt? s).isSome = (h.cellAt? s).isSome) : h'.Records tenants := by
  refine ⟨sound, fun t => ?_⟩
  rw [records.mem_iff]
  apply exists_congr
  intro s
  rw [TenantAt, TenantAt, used s, addressOf_congr layout, settings]

lemma Records.touch (records : h.Records tenants) (change : Touch h h') : h'.Records tenants := by
  have sound := records.sound.touch change
  cases change with
  | edit s f =>
    refine records.congr sound rfl (layout_modifyAt h s f) fun t => ?_
    rw [cellAt?_modifyAt]
    split
    · simp
    · rfl
  | addRoot v =>
    rw [addGlobalRoot] at sound ⊢
    split at sound
    · rename_i isRef
      rw [if_pos isRef]
      exact records.congr sound rfl rfl fun _ => rfl
    · rename_i inline
      rwa [if_neg inline]
  | removeRoot v => exact records.congr sound rfl rfl fun _ => rfl
  | enable => exact records.congr sound rfl rfl fun _ => rfl
  | disable => exact records.congr sound rfl rfl fun _ => rfl
  | atExit on => exact records.congr sound rfl rfl fun _ => rfl

variable [Payload α]

/-- An allocation puts one cell on record, under the address it answers with. -/
lemma Records.claim (records : h.Records tenants) {payload : α} {c bytes : Nat}
    (fits : h.classOf payload = .ok c) (size : h.settings.sizeClasses[c]? = some bytes)
    (given : (h.allocateIn c payload).1 = .ok (.memory w)) :
    (h.allocateIn c payload).2.Records (insert ⟨w, bytes⟩ tenants) := by
  have class_lt := classOf_lt records.sound fits
  obtain ⟨s, rfl, free, answer, sound, layout, cells⟩ :=
    records.sound.allocateIn_spec class_lt payload
  have settings := (Mutation.claim h fits).settings
  have start : h.addressOf s = .memory w := Except.ok.inj (answer.symm.trans given)
  refine ⟨sound, fun t => ?_⟩
  rw [Set.mem_insert_iff, records.mem_iff]
  constructor
  · rintro (rfl | ⟨s', used, here, long⟩)
    · refine ⟨s, by simp [cells], ?_, settings ▸ size⟩
      exact (addressOf_congr layout s).trans start
    · have other : s ≠ s' := by
        rintro rfl
        simp [free] at used
      refine ⟨s', ?_, (addressOf_congr layout s').trans here, settings ▸ long⟩
      rwa [cells, if_neg other]
  · rintro ⟨s', used, here, long⟩
    rw [addressOf_congr layout] at here
    rw [settings] at long
    by_cases same : s = s'
    · subst same
      left
      obtain ⟨start', bytes'⟩ := t
      rw [start] at here
      rw [size] at long
      cases here
      cases long
      rfl
    · right
      rw [cells, if_neg same] at used
      exact ⟨s', used, here, long⟩

/-- A cycle strikes off the cells that it frees. -/
lemma Records.cycle (records : h.Records tenants) (inputs : List RootSet) :
    (h.runCycle inputs).Records {t ∈ tenants | t.address ∉ h.unreached inputs} := by
  have sound := records.sound
  obtain ⟨_, _, _, frame⟩ := sound.runCycle_frame inputs
  have settings : (h.runCycle inputs).settings = h.settings := by rw [frame]
  have address := addressOf_congr (sound.layout_runCycle inputs)
  have used : ∀ s, ((h.runCycle inputs).cellAt? s).isSome ↔
      (h.cellAt? s).isSome ∧ h.addressOf s ∉ h.unreached inputs := by
    intro s
    rw [sound.mem_unreached, sound.isLive_iff]
    by_cases reached : h.Reaches (h.cycleRoots inputs) (h.addressOf s)
    · simp [sound.cellAt?_runCycle_of_reaches reached, reached]
    · simp only [sound.cellAt?_runCycle_of_not_reaches reached, reached, not_false_eq_true,
        and_true]
      constructor
      · rintro ⟨⟩
      · rintro ⟨here, spared⟩
        exact absurd ⟨s, here, rfl⟩ spared
  refine ⟨sound.runCycle inputs, fun t => ?_⟩
  constructor
  · rintro ⟨mem, spared⟩
    obtain ⟨s, here, start, long⟩ := (records.mem_iff t).mp mem
    refine ⟨s, (used s).mpr ⟨here, start ▸ spared⟩, (address s).trans start, ?_⟩
    rwa [settings]
  · rintro ⟨s, here, start, long⟩
    rw [address] at start
    rw [settings] at long
    obtain ⟨before, spared⟩ := (used s).mp here
    exact ⟨(records.mem_iff t).mpr ⟨s, before, start, long⟩, start ▸ spared⟩

/-- The record is right in every heap that can be reached. -/
lemma Tenanted.records (history : h.Tenanted tenants) : h.Records tenants := by
  induction history with
  | create apart made =>
    have sound := sound_createAt apart made
    refine ⟨sound, fun t => ⟨False.elim, ?_⟩⟩
    rintro ⟨s, used, _⟩
    exact not_isLive_createAt apart made _ (sound.isLive_iff.mpr ⟨s, used, rfl⟩)
  | touch _ change ih => exact ih.touch change
  | prewarm _ c ih =>
    exact ih.congr (ih.sound.prewarm c) rfl (layout_prewarm _ c) (by simp)
  | grow _ c ih => exact ih.congr (ih.sound.grow c) rfl (layout_grow _ c) (by simp)
  | offerInOrder _ c order ih =>
    refine ih.congr (ih.sound.offerInOrder c order) rfl (layout_offerInOrder _ c order) fun s => ?_
    rw [cellAt?_offerInOrder]
  | claim _ fits size given ih => exact ih.claim fits size given
  | cycle _ inputs ih => exact ih.cycle inputs
  | dropAll _ ih =>
    rename_i h _ _
    have empty : ∀ s, h.collectAll.2.cellAt? s = none := by
      intro s
      change h.unmarkAll.sweep.cellAt? s = none
      rw [ih.sound.unmarkAll.cellAt?_sweep, cellAt?_unmarkAll]
      cases h.cellAt? s <;> simp [Option.filter, Cell.isMarked_unmark]
    refine ⟨ih.sound.unmarkAll.sweep, fun t => ?_⟩
    simp [TenantAt, empty]

/-- Every heap that can be reached has such a history. -/
lemma Reachable.exists_tenanted (reachable : h.Reachable) : ∃ tenants, h.Tenanted tenants := by
  induction reachable with
  | create apart made => exact ⟨∅, .create apart made⟩
  | step before change ih =>
    obtain ⟨tenants, history⟩ := ih
    cases change with
    | cycle inputs => exact ⟨_, history.cycle inputs⟩
    | dropAll => exact ⟨∅, history.dropAll⟩
    | mutation change =>
      cases change with
      | touch change => exact ⟨_, history.touch change⟩
      | prewarm c => exact ⟨_, history.prewarm c⟩
      | grow c => exact ⟨_, history.grow c⟩
      | offerInOrder c order => exact ⟨_, history.offerInOrder c order⟩
      | @claim c payload fits =>
        have sound := before.sound
        have class_lt := classOf_lt sound fits
        obtain ⟨s, rfl, _, answer, _⟩ := sound.allocateIn_spec class_lt payload
        have here := Array.getElem?_eq_getElem class_lt
        rw [addressOf_eq here] at answer
        have size := (sound.sizes s.sizeClass).symm
        rw [here, Option.map_some] at size
        exact ⟨_, history.claim fits size answer⟩

omit [Payload α]

/-- The slot of a cell on record covers the words that the record says. -/
lemma Records.covers_iff (records : h.Records tenants) {s : Spot} :
    h.Covers s w ↔ ∃ t, h.TenantAt s t ∧ t.Holds w := by
  constructor
  · rintro ⟨a, here, used, low, high⟩
    have size := records.sound.sizes s.sizeClass
    rw [here, Option.map_some] at size
    refine ⟨⟨a.wordOf s.slot, a.cellSize⟩, ⟨?_, addressOf_eq here, size.symm⟩, low, high⟩
    simpa [cellAt?, here] using used
  · rintro ⟨t, ⟨used, start, long⟩, low, high⟩
    obtain ⟨c, hc⟩ := Option.isSome_iff_exists.mp used
    obtain ⟨a, here, cell⟩ := cellAt?_eq_some_iff.mp hc
    have size := records.sound.sizes s.sizeClass
    rw [here, long, Option.map_some] at size
    rw [addressOf_eq here] at start
    have start : a.wordOf s.slot = t.start := Address.memory.inj start
    have size : a.cellSize = t.bytes := Option.some.inj size
    refine ⟨a, here, by simp [cell], ?_, ?_⟩
    · omega
    · omega

lemma Records.cellFor?_eq_some_iff (records : h.Records tenants) {x : Address} :
    h.cellFor? (.memory w) = some x ↔ ∃ t ∈ tenants, t.Holds w ∧ t.address = x := by
  have resolves : ∀ s, h.resolve? (.memory w) = some s ↔ h.Covers s w :=
    fun s => records.sound.resolveWord?_eq_some_iff
  rw [cellFor?, Option.map_eq_some_iff]
  constructor
  · rintro ⟨s, hit, rfl⟩
    obtain ⟨t, here, holds⟩ := records.covers_iff.mp ((resolves s).mp hit)
    exact ⟨t, (records.mem_iff t).mpr ⟨s, here⟩, holds, here.2.1.symm⟩
  · rintro ⟨t, mem, holds, rfl⟩
    obtain ⟨s, here⟩ := (records.mem_iff t).mp mem
    exact ⟨s, (resolves s).mpr (records.covers_iff.mpr ⟨t, here, holds⟩), here.2.1⟩

/-- No word lies in the slots of two cells. -/
lemma Records.holds_unique (records : h.Records tenants) {t u : Tenant} (ht : t ∈ tenants)
    (hu : u ∈ tenants) (in_t : t.Holds w) (in_u : u.Holds w) : t = u := by
  obtain ⟨s, at_t⟩ := (records.mem_iff t).mp ht
  obtain ⟨s', at_u⟩ := (records.mem_iff u).mp hu
  obtain rfl := records.sound.covers_unique (records.covers_iff.mpr ⟨t, at_t, in_t⟩)
    (records.covers_iff.mpr ⟨u, at_u, in_u⟩)
  obtain ⟨_, start, long⟩ := at_t
  obtain ⟨_, start', long'⟩ := at_u
  obtain ⟨_, _⟩ := t
  obtain ⟨_, _⟩ := u
  cases start.symm.trans start'
  cases long.symm.trans long'
  rfl

lemma Records.isLive_iff (records : h.Records tenants) {x : Address} :
    h.isLive x ↔ ∃ t ∈ tenants, t.address = x := by
  rw [records.sound.isLive_iff]
  constructor
  · rintro ⟨s, used, rfl⟩
    obtain ⟨c, hc⟩ := Option.isSome_iff_exists.mp used
    obtain ⟨a, here, _⟩ := cellAt?_eq_some_iff.mp hc
    have size := records.sound.sizes s.sizeClass
    rw [here, Option.map_some] at size
    have start := addressOf_eq here
    exact ⟨⟨a.wordOf s.slot, a.cellSize⟩, (records.mem_iff _).mpr ⟨s, used, start, size.symm⟩,
      start.symm⟩
  · rintro ⟨t, mem, rfl⟩
    obtain ⟨s, used, start, _⟩ := (records.mem_iff t).mp mem
    exact ⟨s, used, start⟩

/-- The word lies in a block of a class. -/
def InBlock (h : Heap α) (c : Nat) (a : Allocator α) (i w : Nat) : Prop :=
  h.allocators[c]? = some a ∧ i < a.blockCount ∧ a.place i = w / blockSize

/-- The places in memory that belong to no cell. -/
inductive Vacant (h : Heap α) (w : Nat) : Prop where
  /-- Outside all blocks of the heap. -/
  | foreign (outside : ∀ c a i, ¬ h.InBlock c a i w)
  | header {c : Nat} {a : Allocator α} {i : Nat} (inside : h.InBlock c a i w)
      (before : w % blockSize < blockHeader)
  /-- Behind the last slot of a block. -/
  | slack {c : Nat} {a : Allocator α} {i : Nat} (inside : h.InBlock c a i w)
      (behind : blockHeader + a.cellsPerBlock * a.cellSize ≤ w % blockSize)
  | freeSlot {c : Nat} {a : Allocator α} {i k : Nat} (inside : h.InBlock c a i w)
      (bound : k < a.cellsPerBlock) (free : a.cell? ⟨i, k⟩ = none)
      (low : blockHeader + k * a.cellSize ≤ w % blockSize)
      (high : w % blockSize < blockHeader + (k + 1) * a.cellSize)

/-- A word in a cell is found in the block of the cell, at the bytes of its slot. -/
lemma Sound.of_covers (sound : h.Sound) {s : Spot} (covers : h.Covers s w) :
    ∃ a, h.InBlock s.sizeClass a s.slot.block w ∧ (a.cell? s.slot).isSome ∧
      s.slot.index < a.cellsPerBlock ∧ blockHeader + s.slot.index * a.cellSize ≤ w % blockSize ∧
      w % blockSize < blockHeader + (s.slot.index + 1) * a.cellSize := by
  obtain ⟨a, here, used, low, high⟩ := covers
  have sound_a := sound.allocator _ a here
  obtain ⟨place, offset_low, offset_high⟩ := sound_a.word_split used low high
  obtain ⟨b, hb, sound_b, size, in_use⟩ := sound_a.block_of_cell used
  have bound := sound_b.used_lt _ in_use
  rw [Block.totalCount, size] at bound
  exact ⟨a, ⟨here, (Array.getElem?_eq_some_iff.mp hb).1, place.symm⟩, used, bound, offset_low,
    offset_high⟩

/-- A word in a slot of a block is covered as soon as the slot is in use. -/
lemma covers_of_inBlock {c i k : Nat} {a : Allocator α} (inside : h.InBlock c a i w)
    (used : (a.cell? ⟨i, k⟩).isSome) (low : blockHeader + k * a.cellSize ≤ w % blockSize)
    (high : w % blockSize < blockHeader + (k + 1) * a.cellSize) : h.Covers ⟨c, ⟨i, k⟩⟩ w := by
  obtain ⟨here, _, place⟩ := inside
  have split := Nat.div_add_mod w blockSize
  rw [← place, Nat.mul_comm] at split
  rw [Nat.succ_mul] at high
  refine ⟨a, here, used, ?_, ?_⟩
  · change a.place i * blockSize + blockHeader + k * a.cellSize ≤ w
    omega
  · change w < a.place i * blockSize + blockHeader + k * a.cellSize + a.cellSize
    omega

/-- A word lies in one block at most. -/
lemma Sound.inBlock_unique (sound : h.Sound) {c d i j : Nat} {a b : Allocator α}
    (ha : h.InBlock c a i w) (hb : h.InBlock d b j w) : c = d ∧ a = b ∧ i = j := by
  obtain ⟨here, _, place⟩ := ha
  obtain ⟨here', _, place'⟩ := hb
  obtain ⟨rfl, rfl⟩ := sound.apart c a d b here here' i j (place.trans place'.symm)
  exact ⟨rfl, Option.some.inj (here.symm.trans here'), rfl⟩

lemma Sound.not_covers_of_vacant (sound : h.Sound) (vacant : h.Vacant w) (s : Spot) :
    ¬ h.Covers s w := by
  intro covers
  obtain ⟨a, inside, used, bound, low, high⟩ := sound.of_covers covers
  cases vacant with
  | foreign outside => exact outside _ _ _ inside
  | header inside' before => omega
  | slack inside' behind =>
    obtain ⟨-, rfl, -⟩ := sound.inBlock_unique inside inside'
    have last : (s.slot.index + 1) * a.cellSize ≤ a.cellsPerBlock * a.cellSize :=
      Nat.mul_le_mul_right _ bound
    omega
  | @freeSlot c a' i k inside' bound' free low' high' =>
    obtain ⟨-, rfl, rfl⟩ := sound.inBlock_unique inside inside'
    have below : s.slot.index * a.cellSize < (k + 1) * a.cellSize := by omega
    have above : k * a.cellSize < (s.slot.index + 1) * a.cellSize := by omega
    have le := Nat.lt_of_mul_lt_mul_right below
    have ge := Nat.lt_of_mul_lt_mul_right above
    have index : s.slot.index = k := by omega
    rw [← index] at free
    simp [free] at used

lemma Sound.vacant_of_not_covers (sound : h.Sound) (missed : ∀ s, ¬ h.Covers s w) :
    h.Vacant w := by
  by_cases owned : ∃ c a i, h.InBlock c a i w
  · obtain ⟨c, a, i, inside⟩ := owned
    have size := (sound.allocator c a inside.1).cellSize_pos
    by_cases before : w % blockSize < blockHeader
    · exact .header inside before
    by_cases behind : blockHeader + a.cellsPerBlock * a.cellSize ≤ w % blockSize
    · exact .slack inside behind
    -- the slot that the offset falls into
    have low := Nat.div_mul_le_self (w % blockSize - blockHeader) a.cellSize
    have high := Nat.lt_mul_div_succ (w % blockSize - blockHeader) size
    rw [Nat.mul_comm] at high
    have bound : (w % blockSize - blockHeader) / a.cellSize < a.cellsPerBlock := by
      apply Nat.div_lt_of_lt_mul
      rw [Nat.mul_comm]
      omega
    refine .freeSlot (k := (w % blockSize - blockHeader) / a.cellSize) inside bound ?_ (by omega)
      (by omega)
    by_contra used
    refine missed ⟨c, ⟨i, _⟩⟩ (covers_of_inBlock inside (Option.isSome_iff_ne_none.mpr used) ?_ ?_)
    · omega
    · omega
  · push Not at owned
    exact .foreign owned

lemma Sound.cellFor?_eq_none_iff (sound : h.Sound) :
    h.cellFor? (.memory w) = none ↔ h.Vacant w := by
  have resolves : h.cellFor? (.memory w) = none ↔ ∀ s, ¬ h.Covers s w := by
    rw [cellFor?, Option.map_eq_none_iff, Option.eq_none_iff_forall_ne_some]
    exact forall_congr' fun s => not_congr sound.resolveWord?_eq_some_iff
  rw [resolves]
  exact ⟨sound.vacant_of_not_covers, sound.not_covers_of_vacant⟩

/-- Clearing the low bits comes to the same as dividing. -/
lemma toNat_blockStart (word : UInt64) :
    (Allocator.blockStart word).toNat = word.toNat / blockSize * blockSize := by
  have mask : (~~~(UInt64.ofNat blockSize - 1)).toNat = 2 ^ 64 - (2 ^ 15 - 1 + 1) := by decide
  have cleared : word.toNat / blockSize * blockSize = word.toNat >>> 15 <<< 15 := by
    rw [Nat.shiftLeft_eq, Nat.shiftRight_eq_div_pow]
    rfl
  rw [Allocator.blockStart, UInt64.toNat_and, mask, cleared]
  apply Nat.eq_of_testBit_eq
  intro i
  rw [Nat.testBit_and, Nat.testBit_two_pow_sub_succ (by decide), Nat.testBit_two_pow_sub_one,
    Nat.testBit_shiftLeft, Nat.testBit_shiftRight]
  by_cases low : i < 15
  · simp [low]
  · have high : 15 ≤ i := not_lt.mp low
    rw [Nat.add_sub_cancel' high]
    by_cases short : i < 64
    · simp [low, high, short]
    · have clear : word.toNat.testBit i = false :=
        Nat.testBit_lt_two_pow
          (word.toNat_lt.trans_le (Nat.pow_le_pow_right Nat.two_pos (not_lt.mp short)))
      simp [clear]

/-- The block of a word is the one that starts at the word without its low bits. -/
lemma Sound.blockOf?_eq_some_iff (sound : h.Sound) {c i : Nat} {a : Allocator α}
    (here : h.allocators[c]? = some a) (word : UInt64) : a.blockOf? word.toNat = some i ↔
      i < a.blockCount ∧ a.place i * blockSize = (Allocator.blockStart word).toNat := by
  have apart : ∀ j k, a.place j = a.place k → j = k :=
    fun j k eq => (sound.apart c a c a here here j k eq).2
  rw [Allocator.blockOf?_eq_some_iff apart, toNat_blockStart, Nat.mul_left_inj (by decide)]

/-- The cells on record that the words of a list point into, word by word. -/
inductive Identifies (tenants : Set Tenant) : List Address → List Address → Prop where
  | nil : Identifies tenants [] []
  | hit {t : Tenant} {w : Nat} {words cells : List Address} (mem : t ∈ tenants)
      (holds : t.Holds w) (rest : Identifies tenants words cells) :
      Identifies tenants (.memory w :: words) (t.address :: cells)
  | miss {w : Nat} {words cells : List Address} (outside : ∀ t ∈ tenants, ¬ t.Holds w)
      (rest : Identifies tenants words cells) : Identifies tenants (.memory w :: words) cells
  | stack {depth : Nat} {words cells : List Address} (rest : Identifies tenants words cells) :
      Identifies tenants (.stack depth :: words) cells

lemma Records.identifies (records : h.Records tenants) (words : List Address) :
    Identifies tenants words (h.identify words) := by
  induction words with
  | nil => exact .nil
  | cons word words ih =>
    cases word with
    | stack depth => exact .stack ih
    | memory w =>
      cases hit : h.cellFor? (.memory w) with
      | some x =>
        obtain ⟨t, mem, holds, rfl⟩ := records.cellFor?_eq_some_iff.mp hit
        rw [identify, List.filterMap_cons_some hit]
        exact .hit mem holds ih
      | none =>
        rw [identify, List.filterMap_cons_none hit]
        refine .miss (fun t mem holds => ?_) ih
        have found := records.cellFor?_eq_some_iff.mpr ⟨t, mem, holds, rfl⟩
        rw [hit] at found
        cases found

/-- Resolution by address agrees with a record of the heap's cells. -/
structure ResolvesExactly (h : Heap α) (tenants : Set Tenant) : Prop where
  /-- A word resolves to a cell exactly if the cell is on record and the word lies in its slot. -/
  cellFor_iff : ∀ w x, h.cellFor? (.memory w) = some x ↔ ∃ t ∈ tenants, t.Holds w ∧ t.address = x
  /-- The cells on record have slots of their own. -/
  apart : ∀ w, ∀ t ∈ tenants, ∀ u ∈ tenants, t.Holds w → u.Holds w → t = u
  /-- What resolves to nothing: words of no block, of a header, behind the last slot and in free
  slots. -/
  none_iff : ∀ w, h.cellFor? (.memory w) = none ↔ h.Vacant w
  null : h.cellFor? (.memory 0) = none
  /-- The largest word of the machine lies in no block, as the end of a block is an address too. -/
  maximal : (∀ (c : Nat) (a : Allocator α) (i : Nat), h.allocators[c]? = some a → i < a.blockCount →
    (a.place i + 1) * blockSize < 2 ^ 64) → h.cellFor? (.memory (2 ^ 64 - 1)) = none
  stack : ∀ depth, h.cellFor? (.stack depth) = none
  /-- The block that a word is looked up in starts where the low bits of the word are cleared. -/
  masked : ∀ (w : UInt64) (c : Nat) (a : Allocator α) (i : Nat), h.allocators[c]? = some a →
    (a.blockOf? w.toNat = some i ↔
      i < a.blockCount ∧ a.place i * blockSize = (Allocator.blockStart w).toNat)
  /-- One class at most resolves a word, to one slot. -/
  one_class : ∀ (w c d : Nat) a b s t, h.allocators[c]? = some a → h.allocators[d]? = some b →
    a.resolve? w = some s → b.resolve? w = some t → c = d ∧ s = t
  /-- In which order the classes are asked does not matter. -/
  any_order : ∀ w order, order.Perm (List.range h.allocators.size) →
    h.resolveAlong order w = h.resolve? (.memory w)
  /-- Live are the addresses of the cells on record. -/
  isLive_iff : ∀ x, h.isLive x ↔ ∃ t ∈ tenants, t.address = x
  /-- A list of words is resolved word by word, in order. -/
  identify : ∀ words, h.identify words = words.filterMap h.cellFor? ∧
    Identifies tenants words (h.identify words)

lemma Sound.one_class (sound : h.Sound) {c d : Nat} {a b : Allocator α} {s t : Slot}
    (ha : h.allocators[c]? = some a) (hb : h.allocators[d]? = some b) (hs : a.resolve? w = some s)
    (ht : b.resolve? w = some t) : c = d ∧ s = t := by
  have covers : ∀ {e : Nat} {x : Allocator α} {r : Slot}, h.allocators[e]? = some x →
      x.resolve? w = some r → h.Covers ⟨e, r⟩ w := by
    intro e x r here hit
    have apart : ∀ i j, x.place i = x.place j → i = j :=
      fun i j eq => (sound.apart e x e x here here i j eq).2
    exact ⟨x, here, ((sound.allocator e x here).resolve?_eq_some_iff apart).mp hit⟩
  have same := sound.covers_unique (covers ha hs) (covers hb ht)
  exact ⟨congrArg Spot.sizeClass same, congrArg Spot.slot same⟩

/-- Every heap that can be reached has a record of its cells, and resolution agrees with it at
every word. -/
theorem resolvesExactly [Payload α] (reachable : h.Reachable) :
    (∃ tenants, h.Tenanted tenants) ∧
      ∀ tenants, h.Tenanted tenants → h.ResolvesExactly tenants := by
  refine ⟨reachable.exists_tenanted, fun tenants history => ?_⟩
  have records := history.records
  have sound := records.sound
  constructor
  · exact fun w x => records.cellFor?_eq_some_iff
  · exact fun w t ht u hu => records.holds_unique ht hu
  · exact fun w => sound.cellFor?_eq_none_iff
  · apply sound.cellFor?_eq_none_iff.mpr
    by_cases owned : ∃ c a i, h.InBlock c a i 0
    · obtain ⟨c, a, i, inside⟩ := owned
      exact .header inside (by decide)
    · push Not at owned
      exact .foreign owned
  · intro ends
    apply sound.cellFor?_eq_none_iff.mpr
    refine .foreign fun c a i inside => ?_
    obtain ⟨here, owned, place⟩ := inside
    have last := ends c a i here owned
    rw [place] at last
    exact absurd last (by decide)
  · exact fun depth => rfl
  · exact fun w c a i here => sound.blockOf?_eq_some_iff here w
  · exact fun w c d a b s t ha hb hs ht => sound.one_class ha hb hs ht
  · intro w order all
    apply Option.ext
    intro s
    have asked : ∀ c < h.allocators.size, c ∈ order :=
      fun c range => all.mem_iff.mpr (List.mem_range.mpr range)
    exact (sound.resolveAlong_eq_some_iff asked).trans sound.resolveWord?_eq_some_iff.symm
  · exact fun x => records.isLive_iff
  · exact fun words => ⟨rfl, records.identifies words⟩

/-- The one cell of a heap: its last byte resolves to it and the byte behind it to nothing, so it
is on record with a slot of sixty-four bytes. -/
theorem resolvesExactly_selfLoop : selfLoop.Reachable ∧
    selfLoop.cellFor? (.memory (0x80000000 * 32768 + 223)) =
      some (.memory (0x80000000 * 32768 + 160)) ∧
    selfLoop.cellFor? (.memory (0x80000000 * 32768 + 224)) = none ∧
    ∃ tenants, selfLoop.Tenanted tenants ∧ selfLoop.ResolvesExactly tenants ∧
      ⟨0x80000000 * 32768 + 160, 64⟩ ∈ tenants := by
  have last : selfLoop.cellFor? (.memory (0x80000000 * 32768 + 223)) =
      some (.memory (0x80000000 * 32768 + 160)) := by decide +kernel
  have next : selfLoop.cellFor? (.memory (0x80000000 * 32768 + 224)) = none := by decide +kernel
  obtain ⟨⟨tenants, history⟩, exact_⟩ := resolvesExactly reachable_selfLoop
  have resolves := exact_ tenants history
  refine ⟨reachable_selfLoop, last, next, tenants, history, resolves, ?_⟩
  obtain ⟨⟨start, bytes⟩, mem, ⟨_, reaches⟩, address⟩ := (resolves.cellFor_iff _ _).mp last
  obtain rfl : start = 0x80000000 * 32768 + 160 := Address.memory.inj address
  have long : bytes = 64 := by
    by_contra other
    have hit := (resolves.cellFor_iff (0x80000000 * 32768 + 224) _).mpr
      ⟨_, mem, ⟨by simp only; omega, by simp only at reaches ⊢; omega⟩, rfl⟩
    rw [next] at hit
    cases hit
  rwa [long] at mem

end Heap

end CellMachine
