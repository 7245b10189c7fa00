import CellMachine.Proofs.Counting
import CellMachine.Threads.GcWord

/-!
# The fields of the packed word

Packing fields that fit their widths loses nothing, and every word holds fields that fit.
So each operation on the word is described by what it does to the three fields that
matter: whether a cycle is requested, how many participants have not left it, and how
many threads are registered.
-/

namespace CellMachine

/-- The fields fit the bits that are set aside for them. -/
structure GcFields.Fits (f : GcFields) : Prop where
  epoch : f.epoch.toNat < 2 ^ 15
  participants : f.participants.toNat < 2 ^ 24
  threads : f.threads.toNat < 2 ^ 24

namespace GcWord

lemma toNat_epoch (w : GcWord) : w.unpack.epoch.toNat = w.bits.toNat / 2 ^ 1 % 2 ^ 15 := by
  rw [unpack, epochMask, UInt64.toNat_and, UInt64.toNat_shiftRight]
  exact (Nat.and_two_pow_sub_one_eq_mod _ 15).trans (by rw [Nat.shiftRight_eq_div_pow]; rfl)

lemma toNat_participants (w : GcWord) :
    w.unpack.participants.toNat = w.bits.toNat / 2 ^ 16 % 2 ^ 24 := by
  rw [unpack, countMask, UInt64.toNat_and, UInt64.toNat_shiftRight]
  exact (Nat.and_two_pow_sub_one_eq_mod _ 24).trans (by rw [Nat.shiftRight_eq_div_pow]; rfl)

lemma toNat_threads (w : GcWord) : w.unpack.threads.toNat = w.bits.toNat / 2 ^ 40 % 2 ^ 24 := by
  rw [unpack, countMask, UInt64.toNat_and, UInt64.toNat_shiftRight]
  exact (Nat.and_two_pow_sub_one_eq_mod _ 24).trans (by rw [Nat.shiftRight_eq_div_pow]; rfl)

lemma requested_iff (w : GcWord) : w.unpack.requested ↔ w.bits.toNat % 2 = 1 := by
  have bit : (w.bits &&& 1).toNat = w.bits.toNat % 2 := by
    rw [UInt64.toNat_and]
    exact Nat.and_two_pow_sub_one_eq_mod _ 1
  rw [unpack, bne_iff_ne, ne_eq, ← UInt64.toNat_inj, bit]
  change ¬ w.bits.toNat % 2 = 0 ↔ _
  omega

lemma unpack_fits (w : GcWord) : w.unpack.Fits := by
  constructor
  · rw [toNat_epoch]
    exact Nat.mod_lt _ (by decide)
  · rw [toNat_participants]
    exact Nat.mod_lt _ (by decide)
  · rw [toNat_threads]
    exact Nat.mod_lt _ (by decide)

lemma toNat_shiftLeft {x : UInt64} {k : Nat} (hk : k < 64) (small : x.toNat < 2 ^ (64 - k)) :
    (x <<< UInt64.ofNat k).toNat = 2 ^ k * x.toNat := by
  have amount : (UInt64.ofNat k).toNat % 64 = k := by
    rw [UInt64.toNat_ofNat']
    omega
  have room : x.toNat * 2 ^ k < 2 ^ 64 := by
    have split : (2 : Nat) ^ 64 = 2 ^ (64 - k) * 2 ^ k := by
      rw [← Nat.pow_add]
      congr 1
      omega
    rw [split]
    exact Nat.mul_lt_mul_of_pos_right small (Nat.two_pow_pos k)
  rw [UInt64.toNat_shiftLeft, amount, Nat.shiftLeft_eq, Nat.mod_eq_of_lt room, Nat.mul_comm]

/-- The fields lie side by side. -/
lemma toNat_pack {f : GcFields} (fits : f.Fits) : (pack f).bits.toNat =
    2 ^ 40 * f.threads.toNat + (2 ^ 16 * f.participants.toNat +
      (2 ^ 1 * f.epoch.toNat + f.requested.toNat)) := by
  obtain ⟨epoch, participants, threads⟩ := fits
  have bit : f.requested.toNat < 2 ^ 1 := by cases f.requested <;> decide
  have flag : f.requested.toUInt64.toNat = f.requested.toNat := by cases f.requested <;> rfl
  have shifted₁ : (f.epoch <<< 1).toNat = 2 ^ 1 * f.epoch.toNat :=
    toNat_shiftLeft (by decide) (epoch.trans (by decide))
  have shifted₁₆ : (f.participants <<< 16).toNat = 2 ^ 16 * f.participants.toNat :=
    toNat_shiftLeft (by decide) (participants.trans (by decide))
  have shifted₄₀ : (f.threads <<< 40).toNat = 2 ^ 40 * f.threads.toNat :=
    toNat_shiftLeft (by decide) threads
  rw [Nat.two_pow_add_eq_or_of_lt (by omega), Nat.two_pow_add_eq_or_of_lt (by omega),
    Nat.two_pow_add_eq_or_of_lt bit]
  simp only [pack, UInt64.toNat_or, flag, shifted₁, shifted₁₆, shifted₄₀]
  simp only [Nat.or_comm]

lemma unpack_pack {f : GcFields} (fits : f.Fits) : (pack f).unpack = f := by
  have bits := toNat_pack fits
  obtain ⟨epoch, participants, threads⟩ := fits
  have bit : f.requested.toNat < 2 := by cases f.requested <;> decide
  have requested : (pack f).unpack.requested = f.requested := by
    rw [Bool.eq_iff_iff, requested_iff, bits]
    cases h : f.requested
    · rw [h] at bit
      simp
      omega
    · simp
      omega
  have same_epoch : (pack f).unpack.epoch = f.epoch := by
    rw [← UInt64.toNat_inj, toNat_epoch, bits]
    omega
  have same_participants : (pack f).unpack.participants = f.participants := by
    rw [← UInt64.toNat_inj, toNat_participants, bits]
    omega
  have same_threads : (pack f).unpack.threads = f.threads := by
    rw [← UInt64.toNat_inj, toNat_threads, bits]
    omega
  calc (pack f).unpack
      = ⟨(pack f).unpack.requested, (pack f).unpack.epoch, (pack f).unpack.participants,
          (pack f).unpack.threads⟩ := rfl
    _ = f := by rw [requested, same_epoch, same_participants, same_threads]

/-- How many participants have not left the cycle. -/
def remaining (w : GcWord) : Nat := w.participants.toNat

/-- How many threads are registered. -/
def registered (w : GcWord) : Nat := w.threads.toNat

lemma remaining_eq_zero_iff {w : GcWord} : w.remaining = 0 ↔ w.unpack.participants = 0 :=
  UInt64.toNat_inj (b := 0)

lemma initial_fields : initial.isRequested = false ∧ initial.remaining = 0 ∧
    initial.registered = 0 := by decide +kernel

/-- The three fields of a word that was packed. -/
lemma fields_pack {f : GcFields} (fits : f.Fits) : (pack f).isRequested = f.requested ∧
    (pack f).remaining = f.participants.toNat ∧ (pack f).registered = f.threads.toNat := by
  rw [isRequested, remaining, participants, registered, threads, unpack_pack fits]
  exact ⟨rfl, rfl, rfl⟩

lemma toNat_countMask : countMask.toNat = 2 ^ 24 - 1 := by decide

/-- A field has one added to it without wrapping around. -/
lemma toNat_add_one {x : UInt64} (small : x.toNat < 2 ^ 24) : (x + 1).toNat = x.toNat + 1 := by
  rw [UInt64.toNat_add]
  exact Nat.mod_eq_of_lt (by change _ + 1 < _; omega)

lemma toNat_sub_one {x : UInt64} (some_left : x.toNat ≠ 0) : (x - 1).toNat = x.toNat - 1 :=
  UInt64.toNat_sub_of_le _ _ (UInt64.le_iff_toNat_le.mpr (Nat.one_le_iff_ne_zero.mpr some_left))

/-- A thread registers only between cycles that all have left. -/
lemma register_spec {w w' : GcWord} (ok : w.register = .ok w') :
    w.isRequested = false ∧ w.remaining = 0 ∧ w'.isRequested = false ∧ w'.remaining = 0 ∧
      w'.registered = w.registered + 1 := by
  obtain ⟨epoch, participants, threads⟩ := w.unpack_fits
  have next : (w.unpack.threads + 1).toNat = w.unpack.threads.toNat + 1 := toNat_add_one threads
  simp only [register] at ok
  split at ok
  · cases ok
  rename_i free
  split at ok
  · cases ok
  rename_i room
  obtain rfl := Except.ok.inj ok
  have requested : w.unpack.requested = false := by
    cases h : w.unpack.requested <;> simp_all
  have none_left : w.unpack.participants = 0 := by
    simpa [requested] using free
  have fits : w.unpack.threads.toNat + 1 < 2 ^ 24 := by
    have := UInt64.not_lt.mp room
    rw [UInt64.le_iff_toNat_le, next, toNat_countMask] at this
    omega
  obtain ⟨h₁, h₂, h₃⟩ := fields_pack (f := { w.unpack with threads := w.unpack.threads + 1 })
    ⟨epoch, participants, by rw [next]; exact fits⟩
  refine ⟨requested, remaining_eq_zero_iff.mpr none_left, h₁.trans requested, ?_, h₃.trans next⟩
  rw [h₂]
  exact remaining_eq_zero_iff.mpr none_left

/-- A thread deregisters only while no cycle is requested. -/
lemma deregister_spec {w w' : GcWord} {done : Bool} (ok : w.deregister = .ok (done, w')) :
    done = !w.isRequested ∧ (done = true → w'.isRequested = false ∧
      w'.remaining = w.remaining ∧ w'.registered + 1 = w.registered) := by
  obtain ⟨epoch, participants, threads⟩ := w.unpack_fits
  simp only [deregister] at ok
  split at ok
  · rename_i requested
    obtain ⟨rfl, rfl⟩ := Prod.mk.inj (Except.ok.inj ok)
    refine ⟨?_, nofun⟩
    simp [isRequested, requested]
  rename_i free
  split at ok
  · cases ok
  rename_i some_left
  obtain ⟨rfl, rfl⟩ := Prod.mk.inj (Except.ok.inj ok)
  have requested : w.unpack.requested = false := by simpa using free
  have positive : w.unpack.threads.toNat ≠ 0 := fun zero => some_left (UInt64.toNat_inj.mp zero)
  have next : (w.unpack.threads - 1).toNat = w.unpack.threads.toNat - 1 := toNat_sub_one positive
  obtain ⟨h₁, h₂, h₃⟩ := fields_pack (f := { w.unpack with threads := w.unpack.threads - 1 })
    ⟨epoch, participants, by rw [next]; omega⟩
  refine ⟨by simp [isRequested, requested], fun _ => ⟨h₁.trans requested, h₂, ?_⟩⟩
  rw [h₃, next, registered, GcWord.threads]
  omega

/-- An election starts a cycle of all registered threads, once all have left the last one;
while a cycle is requested it changes nothing. -/
lemma start_spec {w w' : GcWord} {e : Election} (ok : w.start = .ok (e, w')) :
    (w.isRequested = true ∧ e.coordinator = false ∧ w' = w) ∨
    (w.isRequested = false ∧ w.remaining = 0 ∧ e.coordinator = true ∧ w'.isRequested = true ∧
      w'.remaining = w.registered ∧ w'.registered = w.registered) := by
  obtain ⟨_, _, threads⟩ := w.unpack_fits
  simp only [start] at ok
  split at ok
  · rename_i requested
    obtain ⟨rfl, rfl⟩ := Prod.mk.inj (Except.ok.inj ok)
    exact .inl ⟨requested, rfl, rfl⟩
  rename_i free
  split at ok
  · cases ok
  rename_i all_left
  obtain ⟨rfl, rfl⟩ := Prod.mk.inj (Except.ok.inj ok)
  have requested : w.unpack.requested = false := by simpa using free
  have none_left : w.unpack.participants = 0 := by simpa using all_left
  have masked : ((w.unpack.epoch + 1) &&& epochMask).toNat < 2 ^ 15 := by
    rw [UInt64.toNat_and]
    exact Nat.lt_of_le_of_lt Nat.and_le_right (by decide)
  obtain ⟨h₁, h₂, h₃⟩ := fields_pack
    (f := ⟨true, (w.unpack.epoch + 1) &&& epochMask, w.unpack.threads, w.unpack.threads⟩)
    ⟨masked, threads, threads⟩
  exact .inr ⟨requested, remaining_eq_zero_iff.mpr none_left, rfl, h₁, h₂, h₃⟩

lemma finish_spec {w : GcWord} (requested : w.isRequested = true) : w.finish.isRequested = false ∧
    w.finish.remaining = w.remaining ∧ w.finish.registered = w.registered := by
  obtain ⟨epoch, participants, threads⟩ := w.unpack_fits
  have ends : w.finish = pack { w.unpack with requested := false } := by
    simp only [finish]
    exact if_pos requested
  rw [ends]
  exact fields_pack (f := { w.unpack with requested := false }) ⟨epoch, participants, threads⟩

/-- The end of a cycle requests none. -/
lemma isRequested_of_finish {w : GcWord} (requested : w.finish.isRequested = true) :
    w.isRequested = true := by
  by_contra idle
  have same : w.finish = w := by
    simp only [finish]
    exact if_neg idle
  exact idle (same ▸ requested)

lemma depart_spec {w w' : GcWord} (ok : w.depart = .ok w') : w'.isRequested = w.isRequested ∧
    w'.remaining + 1 = w.remaining ∧ w'.registered = w.registered := by
  obtain ⟨epoch, participants, threads⟩ := w.unpack_fits
  simp only [depart] at ok
  split at ok
  · cases ok
  rename_i some_left
  obtain rfl := Except.ok.inj ok
  have positive : w.unpack.participants.toNat ≠ 0 :=
    fun zero => some_left (UInt64.toNat_inj.mp zero)
  have next : (w.unpack.participants - 1).toNat = w.unpack.participants.toNat - 1 :=
    toNat_sub_one positive
  obtain ⟨h₁, h₂, h₃⟩ := fields_pack
    (f := { w.unpack with participants := w.unpack.participants - 1 })
    ⟨epoch, by rw [next]; omega, threads⟩
  refine ⟨h₁, ?_, h₃⟩
  rw [h₂, next, remaining, GcWord.participants]
  omega

/-- A thread is kept from registering by a cycle, or by the number of threads. -/
lemma register_refused {w : GcWord} {hold : GcHold} (refused : w.register = .error hold) :
    (hold = .blocked ∧ (w.isRequested = true ∨ w.remaining ≠ 0)) ∨
      (hold = .threadOverflow ∧ w.registered + 1 = 2 ^ 24) := by
  have threads := w.unpack_fits.threads
  have next : (w.unpack.threads + 1).toNat = w.unpack.threads.toNat + 1 := toNat_add_one threads
  simp only [register] at refused
  split at refused
  · rename_i busy
    obtain rfl := Except.error.inj refused
    refine .inl ⟨rfl, ?_⟩
    by_cases requested : w.isRequested = true
    · exact .inl requested
    · refine .inr fun none_left => ?_
      rw [remaining_eq_zero_iff] at none_left
      rw [isRequested] at requested
      simp [requested, none_left] at busy
  · split at refused
    · rename_i full
      obtain rfl := Except.error.inj refused
      rw [UInt64.lt_iff_toNat_lt, next, toNat_countMask] at full
      refine .inr ⟨rfl, ?_⟩
      rw [registered, GcWord.threads]
      omega
    · cases refused

lemma deregister_refused {w : GcWord} {hold : GcHold} (refused : w.deregister = .error hold) :
    w.isRequested = false ∧ w.registered = 0 := by
  simp only [deregister] at refused
  split at refused
  · cases refused
  rename_i idle
  split at refused
  · rename_i none_there
    refine ⟨Bool.eq_false_iff.mpr idle, ?_⟩
    rw [registered, GcWord.threads, none_there]
    rfl
  · cases refused

/-- Only a cycle that some have not left keeps another from being started. -/
lemma start_refused {w : GcWord} {hold : GcHold} (refused : w.start = .error hold) :
    hold = .blocked ∧ w.isRequested = false ∧ w.remaining ≠ 0 := by
  simp only [start] at refused
  split at refused
  · cases refused
  rename_i idle
  split at refused
  · rename_i some_left
    refine ⟨(Except.error.inj refused).symm, Bool.eq_false_iff.mpr idle, fun none_left => ?_⟩
    rw [remaining_eq_zero_iff] at none_left
    simp [none_left] at some_left
  · cases refused

lemma depart_refused {w : GcWord} {hold : GcHold} (refused : w.depart = .error hold) :
    w.remaining = 0 := by
  simp only [depart] at refused
  split at refused
  · rename_i none_left
    exact remaining_eq_zero_iff.mpr none_left
  · cases refused

lemma activeParticipants?_eq_some_iff {w : GcWord} {n : UInt64} :
    w.activeParticipants? = some n ↔ w.isRequested = true ∧ w.participants = n := by
  rw [activeParticipants?]
  split
  · simp [*]
  · simp [*]

lemma activeParticipants?_eq_none_iff {w : GcWord} :
    w.activeParticipants? = none ↔ w.isRequested = false := by
  rw [activeParticipants?]
  split
  · simp [*]
  · simp [*]

end GcWord

end CellMachine
