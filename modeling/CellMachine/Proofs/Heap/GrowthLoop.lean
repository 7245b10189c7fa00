import CellMachine.Proofs.Heap.SoundLayout

/-!
# The loop that grows an allocator

An allocator grows to a percentage block by block, and before each block it looks whether the
percentage is free by now. This is a loop whose rounds nothing bounds; `growTo` runs it with more
rounds than it can need. Here the loop is a relation between where it starts and where it ends. For
every target below a hundred it ends, with the fewest blocks that are enough, and it leaves alone
whatever was in the allocator. To a hundred it goes on for ever as long as one cell is in use.
-/

namespace CellMachine

/-- So many blocks are enough for a percentage to be free beside the live cells; without a block
nothing is free. -/
def Suffices (perBlock live percent blocks : Nat) : Prop :=
  if blocks = 0 then percent = 0
  else percent ≤ (blocks * perBlock - live) * 100 / (blocks * perBlock)

lemma suffices_iff {perBlock live percent blocks : Nat} (pos : 0 < perBlock) :
    Suffices perBlock live percent blocks ↔ percent ≤ percentIn perBlock live blocks := by
  rcases Nat.eq_zero_or_pos blocks with rfl | some_block
  · rw [Suffices, if_pos rfl, percentIn, percentFree, Nat.zero_mul, if_pos rfl, Nat.le_zero]
  · have total : 0 < blocks * perBlock := Nat.mul_pos some_block pos
    rw [Suffices, if_neg (Nat.ne_of_gt some_block), percentIn, percentFree,
      if_neg (Nat.ne_of_gt total)]

namespace Allocator

variable {α : Type} {a a' : Allocator α} {percent : Nat}

/-- The loop, begun with one allocator, ends with another. -/
inductive GrowsUntil (percent : Nat) : Allocator α → Allocator α → Prop where
  | reached {a : Allocator α} (enough : percent ≤ a.percentage) : GrowsUntil percent a a
  | round {a a' : Allocator α} (short : a.percentage < percent)
      (rest : GrowsUntil percent a.addBlock a') : GrowsUntil percent a a'

/-- What growing to a percentage comes to. -/
structure GrowsLeast (a : Allocator α) (percent : Nat) : Prop where
  /-- The loop ends, and nowhere else. -/
  ends : ∀ a', GrowsUntil percent a a' ↔ a' = a.growTo percent
  /-- It ends with the fewest blocks that are enough. -/
  least : IsLeast { b | a.blockCount ≤ b ∧
    Suffices a.cellsPerBlock a.usedSlots.length percent b } (a.growTo percent).blockCount
  /-- All it does is to add them. -/
  added : a.growTo percent = a.addBlocks ((a.growTo percent).blockCount - a.blockCount)
  blocks : ∀ i < a.blockCount, (a.growTo percent).blocks[i]? = a.blocks[i]?
  cells : ∀ s, (a.growTo percent).cell? s = a.cell? s
  words : ∀ s, (a.growTo percent).wordOf s = a.wordOf s

/-- The test decides each round, so that the loop has at most one end. -/
lemma GrowsUntil.unique {b c : Allocator α} (first : GrowsUntil percent a b)
    (second : GrowsUntil percent a c) : b = c := by
  induction first with
  | reached enough =>
    cases second with
    | reached _ => rfl
    | round short _ => exact absurd enough (Nat.not_le.mpr short)
  | round short _ ih =>
    cases second with
    | reached enough => exact absurd enough (Nat.not_le.mpr short)
    | round _ rest => exact ih rest

/-- Rounds that are counted are rounds of the loop, if they were enough. -/
lemma growsUntil_growBy (fuel : Nat) {a : Allocator α}
    (enough : percent ≤ (a.growBy percent fuel).percentage) :
    GrowsUntil percent a (a.growBy percent fuel) := by
  induction fuel generalizing a with
  | zero => exact .reached enough
  | succ fuel ih =>
    rw [growBy] at enough ⊢
    split at enough
    · rename_i short
      rw [if_pos short]
      exact .round short (ih enough)
    · rename_i long
      rw [if_neg long]
      exact .reached enough

lemma Sound.growsUntil_iff (sound : a.Sound) (below : percent < 100) :
    GrowsUntil percent a a' ↔ a' = a.growTo percent := by
  have grown : GrowsUntil percent a (a.growTo percent) :=
    growsUntil_growBy _ (sound.percentage_growTo below)
  constructor
  · exact fun ended => ended.unique grown
  · rintro rfl
    exact grown

/-- With a cell in use some of the cells are not free, however many there are. -/
lemma Sound.percentage_lt_hundred (sound : a.Sound) (live : 0 < a.liveCells) :
    a.percentage < 100 := by
  have within := sound.freeCells_le
  rw [liveCells] at live
  have total : 0 < a.totalCells := by omega
  rw [percentage, percentFree, if_neg (Nat.ne_of_gt total), Nat.div_lt_iff_lt_mul total]
  omega

/-- With a cell in use, the targets below a hundred are those for which the loop ends. -/
theorem Sound.growsUntil_ends_iff (sound : a.Sound) (live : 0 < a.liveCells) :
    (∃ a', GrowsUntil percent a a') ↔ percent < 100 := by
  constructor
  · rintro ⟨a', ended⟩
    induction ended with
    | reached enough => exact lt_of_le_of_lt enough (sound.percentage_lt_hundred live)
    | round _ _ ih => exact ih sound.addBlock (sound.liveCells_addBlock.symm ▸ live)
  · exact fun below => ⟨_, (sound.growsUntil_iff below).mpr rfl⟩

lemma getElem?_blocks_addBlocks (n : Nat) {a : Allocator α} {i : Nat} (old : i < a.blockCount) :
    (a.addBlocks n).blocks[i]? = a.blocks[i]? := by
  induction n generalizing a with
  | zero => rfl
  | succ n ih =>
    have still : i < a.addBlock.blockCount := by rw [blockCount_addBlock]; omega
    have other : i ≠ a.blocks.size := Nat.ne_of_lt old
    rw [addBlocks, ih still, getElem?_blocks_addBlock, if_neg other]

lemma wordOf_addBlocks (n : Nat) (a : Allocator α) (s : Slot) :
    (a.addBlocks n).wordOf s = a.wordOf s := by
  rw [wordOf, wordOf, place_addBlocks, cellSize_addBlocks]

lemma Sound.liveCells_eq_length (sound : a.Sound) : a.liveCells = a.usedSlots.length := by
  have books := sound.freeCells_add_usedSlots
  rw [liveCells]
  omega

/-- What is enough for a percentage is said by the percentage after so many blocks are added. -/
lemma Sound.suffices_iff (sound : a.Sound) (n : Nat) :
    Suffices a.cellsPerBlock a.usedSlots.length percent (a.blockCount + n) ↔
      percent ≤ (a.addBlocks n).percentage := by
  have pos : 0 < a.cellsPerBlock := sound.cellsPerBlock_pos
  rw [CellMachine.suffices_iff pos, sound.percentage_addBlocks, sound.liveCells_eq_length]

lemma Sound.growsLeast (sound : a.Sound) (below : percent < 100) : a.GrowsLeast percent := by
  obtain ⟨n, grown, enough, short⟩ := sound.exists_growTo_eq_addBlocks below
  have count : (a.growTo percent).blockCount = a.blockCount + n := by
    rw [grown, blockCount_addBlocks]
  constructor
  · exact fun a' => sound.growsUntil_iff below
  · rw [count]
    constructor
    · exact ⟨Nat.le_add_right _ n, (sound.suffices_iff n).mpr enough⟩
    · rintro b ⟨old, suffices_b⟩
      obtain ⟨m, rfl⟩ := Nat.exists_eq_add_of_le old
      -- With fewer blocks the loop made its test and missed the percentage.
      by_contra fewer
      have missed := short m (by omega)
      exact absurd ((sound.suffices_iff m).mp suffices_b) (Nat.not_le.mpr missed)
  · rw [count, Nat.add_sub_cancel_left, grown]
  · rw [grown]
    exact fun i old => getElem?_blocks_addBlocks n old
  · rw [grown]
    exact fun s => cell?_addBlocks n a s
  · rw [grown]
    exact fun s => wordOf_addBlocks n a s

/-- Whatever was done with an allocator, growing it to a percentage below a hundred ends with the
fewest blocks that are enough. -/
theorem growsLeast_run {cellSize : Nat} (valid : Settings.classFault? cellSize = none)
    (place : Nat → Nat) (ops : List (AllocatorOp α)) :
    ∃ a, (create cellSize place).run ops = some a ∧ ∀ percent < 100, a.GrowsLeast percent := by
  obtain ⟨a, ran, sound, _⟩ := (sound_create (α := α) valid place).run ops
  exact ⟨a, ran, fun percent below => sound.growsLeast below⟩

/-- Two blocks of eight cells that are all in use need two more for half to be free. -/
theorem growsLeast_run_full :
    Settings.classFault? 4064 = none ∧
      ∃ a, (create 4064 id : Allocator Nat).run (.replicate 16 (.allocate (.fresh 1))) = some a ∧
        a.GrowsLeast 50 ∧ a.blockCount = 2 ∧ (a.growTo 50).blockCount = 4 := by
  have valid : Settings.classFault? 4064 = none := by decide
  obtain ⟨a, ran, grows⟩ := growsLeast_run (α := Nat) valid id
    (.replicate 16 (.allocate (.fresh 1)))
  have counts : ((create 4064 id : Allocator Nat).run (.replicate 16 (.allocate (.fresh 1)))).map
      (fun a => (a.blockCount, (a.growTo 50).blockCount)) = some (2, 4) := by decide +kernel
  rw [ran, Option.map_some, Option.some.injEq, Prod.mk.injEq] at counts
  exact ⟨valid, a, ran, grows 50 (by decide), counts⟩

end Allocator

end CellMachine
