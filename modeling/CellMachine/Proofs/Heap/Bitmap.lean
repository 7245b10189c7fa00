import CellMachine.Proofs.Heap.SoundLayout

/-!
# The bitmap of a block in words

A block knows of its slots by sixteen words of sixty-four bits, a count of the free ones and the
number of the first word that may have a clear bit. An allocation looks at whole words: it passes
over the full ones and takes the lowest clear bit of the first other word, unless that bit is past
the last slot. Here the operations of a block are told by what they do to these words.
-/

namespace CellMachine

/-- Words in a bitmap. -/
def bitmapWords : Nat := bitmapBits / wordBits

structure Bitmap where
  totalCount : Nat
  freeCount : Nat
  nextFreeWord : Nat
  used : Vector (BitVec wordBits) bitmapWords
deriving DecidableEq

namespace Bitmap

variable {m m' : Bitmap} {i j w : Nat}

def word (m : Bitmap) (w : Nat) : BitVec wordBits := m.used[w]?.getD 0

/-- The bit of a slot. -/
def bit (m : Bitmap) (index : Nat) : Bool :=
  (m.word (bitPlace index).1).getLsbD (bitPlace index).2

def setWord (m : Bitmap) (w : Nat) (word : BitVec wordBits) : Bitmap :=
  { m with used := m.used.setIfInBounds w word }

/-- The number of set bits at the low end of a word. -/
def lowestClear (word : BitVec wordBits) : Nat := (~~~word).ctz.toNat

/-- Looks for a clear bit in `n` words from word `w` on. -/
def scan (m : Bitmap) : Nat → Nat → Option Nat
  | 0, _ => none
  | n + 1, w =>
    if m.word w = BitVec.allOnes wordBits then m.scan n (w + 1)
    else
      let index := wordBits * w + lowestClear (m.word w)
      if m.totalCount ≤ index then none else some index

/-- The slot the next allocation claims. -/
def next? (m : Bitmap) : Option Nat :=
  m.scan ((m.totalCount + wordBits - 1) / wordBits - m.nextFreeWord) m.nextFreeWord

/-- Sets the bit of a slot. -/
def claim (m : Bitmap) (index : Nat) : Bitmap :=
  let (w, k) := bitPlace index
  { m.setWord w (m.word w ||| BitVec.twoPow wordBits k) with
    freeCount := m.freeCount - 1
    nextFreeWord := w }

/-- Clears the bit of a slot. -/
def release (m : Bitmap) (index : Nat) : Bitmap :=
  let (w, k) := bitPlace index
  { m.setWord w (m.word w &&& ~~~BitVec.twoPow wordBits k) with
    freeCount := m.freeCount + 1
    nextFreeWord := min m.nextFreeWord w }

/-- Releases each used slot that is not marked, lowest first. -/
def sweep (m : Bitmap) (isMarked : Nat → Bool) : Bitmap :=
  (List.range m.totalCount).foldl
    (fun m i => if m.bit i && !isMarked i then m.release i else m) m

lemma bit_eq (m : Bitmap) (i : Nat) :
    m.bit i = (m.word (i / wordBits)).getLsbD (i % wordBits) := rfl

lemma word_eq_getElem (m : Bitmap) (inside : w < bitmapWords) : m.word w = m.used[w] := by
  rw [word, Vector.getElem?_eq_getElem inside, Option.getD_some]

/-- Counters and bits are all that there is to a bitmap. -/
lemma eq_of_bits (total : m.totalCount = m'.totalCount) (free : m.freeCount = m'.freeCount)
    (next : m.nextFreeWord = m'.nextFreeWord) (bits : ∀ i, m.bit i = m'.bit i) : m = m' := by
  have words : m.used = m'.used := by
    apply Vector.ext
    intro w inside
    rw [← m.word_eq_getElem inside, ← m'.word_eq_getElem inside]
    apply BitVec.eq_of_getLsbD_eq
    intro k range
    have here := bits (wordBits * w + k)
    have quotient : (wordBits * w + k) / wordBits = w := by
      rw [Nat.mul_add_div (by decide), Nat.div_eq_of_lt range, Nat.add_zero]
    have rest : (wordBits * w + k) % wordBits = k := by
      rw [Nat.mul_add_mod, Nat.mod_eq_of_lt range]
    rwa [bit_eq, bit_eq, quotient, rest] at here
  cases m
  cases m'
  exact Bitmap.mk.injEq .. ▸ ⟨total, free, next, words⟩

lemma word_setWord (inside : w < bitmapWords) (new : BitVec wordBits) (v : Nat) :
    (m.setWord w new).word v = if w = v then new else m.word v := by
  rw [word, setWord, Vector.getElem?_setIfInBounds]
  by_cases same : w = v
  · rw [if_pos same, if_pos same, if_pos inside, Option.getD_some]
  · rw [if_neg same, if_neg same, word]

/-- Changing the word of a slot in one bit. -/
lemma bit_setWord (inside : i < bitmapBits) {new : BitVec wordBits} {b : Bool}
    (bits : ∀ k < wordBits, new.getLsbD k =
      if i % wordBits = k then b else (m.word (i / wordBits)).getLsbD k) (j : Nat) :
    (m.setWord (i / wordBits) new).bit j = if i = j then b else m.bit j := by
  have place : i / wordBits < bitmapWords := by
    rw [bitmapBits] at inside
    rw [bitmapWords, bitmapBits, wordBits]
    omega
  rw [bit_eq, bit_eq, word_setWord place]
  by_cases word : i / wordBits = j / wordBits
  · rw [if_pos word, bits _ (Nat.mod_lt j (by decide)), word]
    by_cases same : i = j
    · rw [if_pos same, if_pos (by rw [same])]
    · have apart : i % wordBits ≠ j % wordBits :=
        fun rest => same (bitPlace_injective (Prod.ext word rest))
      rw [if_neg same, if_neg apart]
  · have apart : i ≠ j := fun same => word (by rw [same])
    rw [if_neg word, if_neg apart]

lemma bit_claim (inside : i < bitmapBits) (j : Nat) :
    (m.claim i).bit j = if i = j then true else m.bit j := by
  refine bit_setWord inside (fun k range => ?_) j
  rw [BitVec.getLsbD_or, BitVec.getLsbD_twoPow]
  by_cases here : i % wordBits = k
  · simp [here, range]
  · simp [here]

lemma bit_release (inside : i < bitmapBits) (j : Nat) :
    (m.release i).bit j = if i = j then false else m.bit j := by
  refine bit_setWord inside (fun k range => ?_) j
  rw [BitVec.getLsbD_and, BitVec.getLsbD_not, BitVec.getLsbD_twoPow]
  by_cases here : i % wordBits = k
  · simp [here, range]
  · simp [here, range]

section LowestClear

variable {word : BitVec wordBits}

lemma not_ne_zero (some_clear : word ≠ BitVec.allOnes wordBits) : ~~~word ≠ 0 := by
  intro none_clear
  apply some_clear
  rw [← BitVec.not_not (b := word), none_clear]
  rfl

lemma lowestClear_lt (some_clear : word ≠ BitVec.allOnes wordBits) :
    lowestClear word < wordBits := by
  have width : ((wordBits : Nat) : BitVec wordBits).toNat = wordBits := by decide
  have lt := BitVec.lt_def.mp (BitVec.ctz_lt_iff_ne_zero.mpr (not_ne_zero some_clear))
  rwa [width] at lt

lemma getLsbD_lowestClear (some_clear : word ≠ BitVec.allOnes wordBits) :
    word.getLsbD (lowestClear word) = false := by
  have set := BitVec.getLsbD_true_ctz_of_ne_zero (not_ne_zero some_clear)
  rw [BitVec.getLsbD_not, Bool.and_eq_true, Bool.not_eq_true'] at set
  exact set.2

lemma getLsbD_of_lt_lowestClear {k : Nat} (some_clear : word ≠ BitVec.allOnes wordBits)
    (below : k < lowestClear word) : word.getLsbD k = true := by
  have clear := BitVec.getLsbD_false_of_lt_ctz below
  have range : k < wordBits := below.trans (lowestClear_lt some_clear)
  rw [BitVec.getLsbD_not] at clear
  simpa [range] using clear

example : lowestClear 0b10110111 = 3 := by cbv

end LowestClear

end Bitmap

namespace Block

variable {α : Type} {b : Block α} {i : Nat}

/-- What a block keeps beside its cells: the uses of its slots, word by word, and its counters. -/
def bitmap (b : Block α) : Bitmap where
  totalCount := b.totalCount
  freeCount := b.freeCount
  nextFreeWord := b.nextFreeWord
  used := .ofFn fun w => .ofFnLE fun k => b.isUsed (wordBits * w + k)

lemma isUsed_of_le (past : bitmapBits ≤ i) : b.isUsed i = false := by
  have outside : b.slots[i]? = none := Vector.getElem?_eq_none past
  rw [isUsed_eq, cell?, outside]
  rfl

lemma getLsbD_word_bitmap (b : Block α) (w : Nat) {k : Nat} (range : k < wordBits) :
    (b.bitmap.word w).getLsbD k = b.isUsed (wordBits * w + k) := by
  rw [Bitmap.word, bitmap, Vector.getElem?_ofFn]
  by_cases inside : w < bitmapWords
  · rw [dif_pos inside, Option.getD_some, BitVec.getLsbD_ofFnLE, dif_pos range]
  · have past : bitmapBits ≤ wordBits * w + k := by
      rw [bitmapWords, bitmapBits, wordBits] at inside
      rw [bitmapBits, wordBits]
      omega
    rw [dif_neg inside, Option.getD_none, isUsed_of_le past]
    exact BitVec.getLsbD_zero

@[simp] lemma bit_bitmap (b : Block α) (i : Nat) : b.bitmap.bit i = b.isUsed i := by
  rw [Bitmap.bit_eq, b.getLsbD_word_bitmap _ (Nat.mod_lt i (by decide)), Nat.div_add_mod]

/-- A word is full if its slots are in use. -/
lemma word_bitmap_eq_allOnes_iff (b : Block α) (w : Nat) :
    b.bitmap.word w = BitVec.allOnes wordBits ↔ ∀ k < wordBits, b.isUsed (wordBits * w + k) := by
  constructor
  · intro full k range
    rw [← b.getLsbD_word_bitmap w range, full, BitVec.getLsbD_allOnes]
    exact decide_eq_true range
  · intro full
    apply BitVec.eq_of_getLsbD_eq
    intro k range
    rw [b.getLsbD_word_bitmap w range, full k range, BitVec.getLsbD_allOnes]
    exact (decide_eq_true range).symm

/-- A scan passes over slots that are in use. -/
lemma firstClear_of_used (n : Nat) {k start : Nat} (used : ∀ j < k, b.isUsed (start + j)) :
    b.firstClear (k + n) start = b.firstClear n (start + k) := by
  induction k generalizing start with
  | zero => rw [Nat.zero_add, Nat.add_zero]
  | succ k ih =>
    have first : b.isUsed start := used 0 (Nat.succ_pos k)
    have rest : ∀ j < k, b.isUsed (start + 1 + j) := by
      intro j before
      rw [Nat.add_assoc, Nat.add_comm 1 j]
      exact used (j + 1) (by omega)
    rw [Nat.add_right_comm, firstClear, if_pos first, ih rest, Nat.add_assoc, Nat.add_comm 1 k]

/-- The scan of whole words finds what a scan of all their bits finds. -/
lemma scan_bitmap (b : Block α) (n w : Nat) :
    b.bitmap.scan n w =
      (b.firstClear (wordBits * n) (wordBits * w)).filter (· < b.totalCount) := by
  induction n generalizing w with
  | zero => rfl
  | succ n ih =>
    rw [Bitmap.scan]
    by_cases full : b.bitmap.word w = BitVec.allOnes wordBits
    · have used := (b.word_bitmap_eq_allOnes_iff w).mp full
      rw [if_pos full, ih, Nat.mul_succ, Nat.mul_succ, Nat.add_comm (wordBits * n),
        firstClear_of_used _ used]
    · have range := Bitmap.lowestClear_lt full
      have found : b.firstClear (wordBits * (n + 1)) (wordBits * w) =
          some (wordBits * w + Bitmap.lowestClear (b.bitmap.word w)) := by
        refine b.firstClear_eq_some_iff.mpr ⟨Nat.le_add_right _ _, ?_, ?_, ?_⟩
        · rw [Nat.mul_succ]
          omega
        · rw [← b.getLsbD_word_bitmap w range]
          exact Bitmap.getLsbD_lowestClear full
        · intro j least before
          obtain ⟨k, rfl⟩ := Nat.exists_eq_add_of_le least
          rw [← b.getLsbD_word_bitmap w (by omega)]
          exact Bitmap.getLsbD_of_lt_lowestClear full (by omega)
      rw [if_neg full, found, Option.filter_some]
      change (if b.totalCount ≤ _ then none else _) = _
      by_cases past : b.totalCount ≤ wordBits * w + Bitmap.lowestClear (b.bitmap.word w)
      · rw [if_pos past, if_neg (by simpa using past)]
      · rw [if_neg past, if_pos (by simpa using past)]

/-- An allocation claims the slot that the scan of the words finds. -/
lemma next?_bitmap (b : Block α) : b.bitmap.next? = b.nextSlot? := by
  rw [Bitmap.next?, scan_bitmap, Nat.mul_sub]
  rfl

lemma bitmap_fill (inside : i < bitmapBits) (c : Cell α) :
    (b.fill i c).bitmap = b.bitmap.claim i := by
  refine Bitmap.eq_of_bits rfl rfl rfl fun j => ?_
  rw [bit_bitmap, isUsed_fill b inside, Bitmap.bit_claim inside, bit_bitmap]

lemma bitmap_release (inside : i < bitmapBits) : (b.release i).bitmap = b.bitmap.release i := by
  refine Bitmap.eq_of_bits rfl rfl rfl fun j => ?_
  rw [bit_bitmap, isUsed_release, Bitmap.bit_release inside, bit_bitmap]

/-- Marks are in the cells and not in the bitmap. -/
lemma bitmap_modifyCell (b : Block α) (i : Nat) (f : Cell α → Cell α) :
    (b.modifyCell i f).bitmap = b.bitmap := by
  refine Bitmap.eq_of_bits rfl rfl rfl fun j => ?_
  rw [bit_bitmap, isUsed_modifyCell, bit_bitmap]

lemma bitmap_unmarkAll (b : Block α) : b.unmarkAll.bitmap = b.bitmap := by
  refine Bitmap.eq_of_bits rfl rfl rfl fun j => ?_
  rw [bit_bitmap, isUsed_unmarkAll, bit_bitmap]

/-- Looking at each slot when its turn comes releases those that were to be released at the start:
no release changes the use of a slot whose turn is still to come. -/
lemma bitmap_foldl_release (isMarked : Nat → Bool) {l : List Nat} (distinct : l.Nodup)
    (inside : ∀ i ∈ l, i < bitmapBits) (b : Block α) :
    ((l.filter fun i => b.isUsed i && !isMarked i).foldl release b).bitmap =
      l.foldl (fun m i => if m.bit i && !isMarked i then m.release i else m) b.bitmap := by
  induction l generalizing b with
  | nil => rfl
  | cons i l ih =>
    rw [List.nodup_cons] at distinct
    have tail := ih distinct.2 fun j mem => inside j (List.mem_cons_of_mem i mem)
    rw [List.foldl_cons, List.filter_cons, bit_bitmap]
    by_cases taken : (b.isUsed i && !isMarked i) = true
    · have later : (l.filter fun j => b.isUsed j && !isMarked j) =
          l.filter fun j => (b.release i).isUsed j && !isMarked j := by
        apply List.filter_congr
        intro j mem
        have other : i ≠ j := fun same => distinct.1 (same ▸ mem)
        rw [isUsed_release, if_neg other]
      rw [if_pos taken, if_pos taken, List.foldl_cons, later, tail,
        bitmap_release (inside i List.mem_cons_self)]
    · rw [if_neg taken, if_neg taken, tail]

lemma bitmap_sweep (fits : b.totalCount ≤ bitmapBits) :
    b.sweep.bitmap = b.bitmap.sweep b.isMarked := by
  have inside : ∀ i ∈ List.range b.totalCount, i < bitmapBits :=
    fun i mem => lt_of_lt_of_le (List.mem_range.mp mem) fits
  have doomed : b.doomed = (List.range b.totalCount).filter
      fun i => b.isUsed i && !b.isMarked i := by
    rw [Block.doomed, usedSlots, List.filter_filter]
    exact List.filter_congr fun i _ => Bool.and_comm _ _
  rw [sweep, doomed, bitmap_foldl_release b.isMarked List.nodup_range inside]
  rfl

end Block

end CellMachine
