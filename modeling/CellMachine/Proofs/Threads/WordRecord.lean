import CellMachine.Proofs.Threads.Word

/-!
# The word as a record

Threads share one packed word, but what they mean by it is a record of four fields: whether a
cycle is requested, how many cycles there were, how many participants the last one still has and
how many threads there are. Here the operations on the word are those on the record, with the
number of the cycle cut to fifteen bits, whatever is done in whatever order. A count that would
leave its bits is refused, and what is refused changes nothing.

The word does not know its threads. If each of them leaves a cycle it takes part in once, and
before it deregisters, then the counts are those of sets of threads and never run below zero.
-/

namespace CellMachine

/-- What a thread asks of the word. -/
inductive GcOp where
  | register
  | deregister
  | start
  | finish
  | depart
deriving DecidableEq, Repr

/-- What it is told. -/
inductive GcAnswer where
  | done
  | deregistered (gone : Bool)
  | elected (coordinator : Bool) (epoch participants : Nat)
  | held (why : GcHold)
deriving DecidableEq, Repr

/-- The operation did not take place. -/
def GcAnswer.Failed : GcAnswer → Prop
  | held _ => True
  | deregistered gone => gone = false
  | elected coordinator _ _ => coordinator = false
  | done => False

/-- The word with its fields apart, as numbers. -/
structure GcRecord where
  requested : Bool
  /-- How many cycles were started so far. -/
  cycles : Nat
  participants : Nat
  threads : Nat
deriving DecidableEq, Repr

namespace GcRecord

def initial : GcRecord := ⟨false, 0, 0, 0⟩

def mostThreads : Nat := 2 ^ 24 - 1

def epoch (r : GcRecord) : Nat := r.cycles % 2 ^ 15

/-- The fields side by side, as one number. -/
def packed (r : GcRecord) : Nat :=
  r.requested.toNat + 2 * r.epoch + 2 ^ 16 * r.participants + 2 ^ 40 * r.threads

def perform (r : GcRecord) : GcOp → GcAnswer × GcRecord
  | .register =>
    if r.requested ∨ r.participants ≠ 0 then (.held .blocked, r)
    else if r.threads = mostThreads then (.held .threadOverflow, r)
    else (.done, { r with threads := r.threads + 1 })
  | .deregister =>
    if r.requested then (.deregistered false, r)
    else if r.threads = 0 then (.held .threadUnderflow, r)
    else (.deregistered true, { r with threads := r.threads - 1 })
  | .start =>
    if r.requested then (.elected false r.epoch r.participants, r)
    else if r.participants ≠ 0 then (.held .blocked, r)
    else
      let begun := { r with requested := true, cycles := r.cycles + 1, participants := r.threads }
      (.elected true begun.epoch begun.participants, begun)
  | .finish => (.done, { r with requested := false })
  | .depart =>
    if r.participants = 0 then (.held .participantUnderflow, r)
    else (.done, { r with participants := r.participants - 1 })

def run (r : GcRecord) (ops : List GcOp) : GcRecord :=
  ops.foldl (fun r op => (r.perform op).2) r

lemma perform_of_failed {r : GcRecord} {op : GcOp} (failed : (r.perform op).1.Failed) :
    (r.perform op).2 = r := by
  cases op with
  | register =>
    simp only [perform] at failed ⊢
    split_ifs at failed ⊢
    · rfl
    · rfl
    · cases failed
  | deregister =>
    simp only [perform] at failed ⊢
    split_ifs at failed ⊢
    · rfl
    · rfl
    · cases failed
  | start =>
    simp only [perform] at failed ⊢
    split_ifs at failed ⊢
    · rfl
    · rfl
    · cases failed
  | finish => cases failed
  | depart =>
    simp only [perform] at failed ⊢
    split_ifs at failed ⊢
    · rfl
    · cases failed

/-- A cycle that all of so many threads take part in and leave. -/
def wholeCycle (threads : Nat) : List GcOp :=
  .start :: .finish :: List.replicate threads .depart

/-- So many cycles of so many threads that have registered. -/
def wholeCycles (threads cycles : Nat) : List GcOp :=
  List.replicate threads .register ++ (List.replicate cycles (wholeCycle threads)).flatten

lemma run_append (r : GcRecord) (ops ops' : List GcOp) :
    r.run (ops ++ ops') = (r.run ops).run ops' :=
  List.foldl_append

lemma run_register {n t : Nat} (fits : t + n ≤ mostThreads) :
    (⟨false, 0, 0, t⟩ : GcRecord).run (List.replicate n .register) = ⟨false, 0, 0, t + n⟩ := by
  induction n generalizing t with
  | zero => rfl
  | succ n ih =>
    have room : t ≠ mostThreads := by omega
    have step : ((⟨false, 0, 0, t⟩ : GcRecord).perform .register).2 = ⟨false, 0, 0, t + 1⟩ := by
      simp [perform, room]
    rw [List.replicate_succ, run, List.foldl_cons, step]
    exact (ih (by omega)).trans (by rw [Nat.add_right_comm, Nat.add_assoc])

lemma run_depart (c t n : Nat) :
    (⟨false, c, n, t⟩ : GcRecord).run (List.replicate n .depart) = ⟨false, c, 0, t⟩ := by
  induction n with
  | zero => rfl
  | succ n ih =>
    rw [List.replicate_succ, run, List.foldl_cons]
    exact ih

lemma run_wholeCycle (c t : Nat) :
    (⟨false, c, 0, t⟩ : GcRecord).run (wholeCycle t) = ⟨false, c + 1, 0, t⟩ :=
  run_depart (c + 1) t t

/-- Threads may be as many as the count can hold, and cycles as many as anyone likes. -/
lemma run_wholeCycles {threads : Nat} (fits : threads ≤ mostThreads) (cycles : Nat) :
    initial.run (wholeCycles threads cycles) = ⟨false, cycles, 0, threads⟩ := by
  have joined : initial.run (List.replicate threads .register) = ⟨false, 0, 0, threads⟩ := by
    have all := run_register (t := 0) (n := threads) (by omega)
    rwa [Nat.zero_add] at all
  have turned : ∀ c, (⟨false, c, 0, threads⟩ : GcRecord).run
      (List.replicate cycles (wholeCycle threads)).flatten = ⟨false, c + cycles, 0, threads⟩ := by
    induction cycles with
    | zero => exact fun c => rfl
    | succ n ih =>
      intro c
      rw [List.replicate_succ, List.flatten_cons, run_append, run_wholeCycle, ih,
        Nat.add_right_comm, Nat.add_assoc]
  rw [wholeCycles, run_append, joined, turned, Nat.zero_add]

end GcRecord

namespace GcWord

variable {w : GcWord} {r : GcRecord}

def perform (w : GcWord) : GcOp → GcAnswer × GcWord
  | .register =>
    match w.register with
    | .ok w' => (.done, w')
    | .error why => (.held why, w)
  | .deregister =>
    match w.deregister with
    | .ok (gone, w') => (.deregistered gone, w')
    | .error why => (.held why, w)
  | .start =>
    match w.start with
    | .ok (e, w') => (.elected e.coordinator e.epoch.toNat e.participants.toNat, w')
    | .error why => (.held why, w)
  | .finish => (.done, w.finish)
  | .depart =>
    match w.depart with
    | .ok w' => (.done, w')
    | .error why => (.held why, w)

def run (w : GcWord) (ops : List GcOp) : GcWord := ops.foldl (fun w op => (w.perform op).2) w

/-- The fields of the word are those of the record. -/
structure Packs (w : GcWord) (r : GcRecord) : Prop where
  requested : w.unpack.requested = r.requested
  epoch : w.unpack.epoch.toNat = r.epoch
  participants : w.unpack.participants.toNat = r.participants
  threads : w.unpack.threads.toNat = r.threads

/-- Both answer alike and end with the same fields. -/
structure Agree (x : GcAnswer × GcWord) (y : GcAnswer × GcRecord) : Prop where
  answer : x.1 = y.1
  packs : x.2.Packs y.2

lemma packs_initial : initial.Packs .initial := by
  constructor <;> decide +kernel

lemma packs_pack {f : GcFields} (requested : f.requested = r.requested)
    (epoch : f.epoch.toNat = r.epoch) (participants : f.participants.toNat = r.participants)
    (threads : f.threads.toNat = r.threads) (fits : f.Fits) : (pack f).Packs r := by
  constructor
  · rwa [unpack_pack fits]
  · rwa [unpack_pack fits]
  · rwa [unpack_pack fits]
  · rwa [unpack_pack fits]

/-- The four fields leave no bit of the word out. -/
lemma Packs.bits (packs : w.Packs r) : w.bits.toNat = r.packed := by
  have flag : r.requested.toNat = w.bits.toNat % 2 := by
    have odd := requested_iff w
    rw [packs.requested] at odd
    cases asked : r.requested with
    | false =>
      have even : ¬ w.bits.toNat % 2 = 1 := fun one => by cases asked.symm.trans (odd.mpr one)
      rw [Bool.toNat_false]
      omega
    | true => exact (odd.mp asked).symm
  have size : w.bits.toNat < 2 ^ 64 := w.bits.toNat_lt
  rw [GcRecord.packed, ← packs.epoch, ← packs.participants, ← packs.threads, toNat_epoch,
    toNat_participants, toNat_threads, flag]
  omega

lemma Packs.unique {w' : GcWord} (packs : w.Packs r) (packs' : w'.Packs r) : w = w' := by
  have bits : w.bits = w'.bits := UInt64.toNat_inj.mp (packs.bits.trans packs'.bits.symm)
  cases w
  cases w'
  exact congrArg GcWord.mk bits

namespace Packs

lemma participants_eq_zero_iff (packs : w.Packs r) :
    w.unpack.participants = 0 ↔ r.participants = 0 := by
  rw [← UInt64.toNat_inj, packs.participants]
  rfl

lemma threads_eq_zero_iff (packs : w.Packs r) : w.unpack.threads = 0 ↔ r.threads = 0 := by
  rw [← UInt64.toNat_inj, packs.threads]
  rfl

lemma busy_iff (packs : w.Packs r) :
    (w.unpack.requested || w.unpack.participants != 0) = true ↔
      r.requested ∨ r.participants ≠ 0 := by
  rw [Bool.or_eq_true, bne_iff_ne, packs.requested, ne_eq, packs.participants_eq_zero_iff]

lemma register (packs : w.Packs r) : Agree (w.perform .register) (r.perform .register) := by
  have fits := w.unpack_fits
  have room : r.threads < 2 ^ 24 := packs.threads ▸ fits.threads
  have next : (w.unpack.threads + 1).toNat = r.threads + 1 := by
    rw [toNat_add_one fits.threads, packs.threads]
  have full_iff : countMask < w.unpack.threads + 1 ↔ r.threads = GcRecord.mostThreads := by
    rw [UInt64.lt_iff_toNat_lt, next, toNat_countMask, GcRecord.mostThreads]
    omega
  simp only [GcWord.perform, GcRecord.perform, GcWord.register, packs.busy_iff, full_iff]
  by_cases busy : r.requested ∨ r.participants ≠ 0
  · rw [if_pos busy, if_pos busy]
    exact ⟨rfl, packs⟩
  rw [if_neg busy, if_neg busy]
  by_cases full : r.threads = GcRecord.mostThreads
  · rw [if_pos full, if_pos full]
    exact ⟨rfl, packs⟩
  rw [if_neg full, if_neg full]
  refine ⟨rfl, packs_pack packs.requested packs.epoch packs.participants next ?_⟩
  refine ⟨fits.epoch, fits.participants, ?_⟩
  rw [GcRecord.mostThreads] at full
  rw [next]
  omega

lemma deregister (packs : w.Packs r) :
    Agree (w.perform .deregister) (r.perform .deregister) := by
  have fits := w.unpack_fits
  have same := packs.requested
  simp only [GcWord.perform, GcRecord.perform, GcWord.deregister, packs.threads_eq_zero_iff]
  by_cases requested : r.requested = true
  · rw [if_pos requested, if_pos (same.trans requested)]
    exact ⟨rfl, packs⟩
  rw [if_neg requested, if_neg (same ▸ requested)]
  by_cases none_there : r.threads = 0
  · rw [if_pos none_there, if_pos none_there]
    exact ⟨rfl, packs⟩
  rw [if_neg none_there, if_neg none_there]
  have fewer : (w.unpack.threads - 1).toNat = r.threads - 1 := by
    rw [← packs.threads] at none_there ⊢
    exact toNat_sub_one none_there
  refine ⟨rfl, packs_pack same packs.epoch packs.participants fewer ?_⟩
  refine ⟨fits.epoch, fits.participants, ?_⟩
  have room := fits.threads
  rw [packs.threads] at room
  rw [fewer]
  omega

lemma start (packs : w.Packs r) : Agree (w.perform .start) (r.perform .start) := by
  have fits := w.unpack_fits
  have none_left := packs.participants_eq_zero_iff
  simp only [GcWord.perform, GcRecord.perform, GcWord.start, packs.requested, bne_iff_ne, ne_eq,
    none_left]
  by_cases requested : r.requested = true
  · rw [if_pos requested, if_pos requested]
    refine ⟨?_, packs⟩
    change GcAnswer.elected false w.unpack.epoch.toNat w.unpack.participants.toNat = _
    rw [packs.epoch, packs.participants]
  rw [if_neg requested, if_neg requested]
  by_cases some_left : ¬ r.participants = 0
  · rw [if_pos some_left, if_pos some_left]
    exact ⟨rfl, packs⟩
  rw [if_neg some_left, if_neg some_left]
  -- The mask cuts the next number where it would reach the bits of the participants.
  have next : ((w.unpack.epoch + 1) &&& epochMask).toNat = (r.cycles + 1) % 2 ^ 15 := by
    have sum : (w.unpack.epoch + 1).toNat = w.unpack.epoch.toNat + 1 :=
      toNat_add_one (fits.epoch.trans (by decide))
    rw [UInt64.toNat_and, sum, packs.epoch, GcRecord.epoch]
    exact (Nat.and_two_pow_sub_one_eq_mod _ 15).trans (by omega)
  refine ⟨?_, packs_pack rfl next packs.threads packs.threads ?_⟩
  · change GcAnswer.elected true (w.unpack.epoch + 1 &&& epochMask).toNat w.unpack.threads.toNat = _
    rw [next, packs.threads]
    rfl
  · refine ⟨?_, fits.threads, fits.threads⟩
    rw [next]
    exact Nat.mod_lt _ (by decide)

lemma finish (packs : w.Packs r) : Agree (w.perform .finish) (r.perform .finish) := by
  refine ⟨rfl, ?_⟩
  simp only [GcWord.perform, GcRecord.perform, GcWord.finish]
  by_cases requested : w.unpack.requested = true
  · rw [if_pos requested]
    exact packs_pack rfl packs.epoch packs.participants packs.threads
      ⟨w.unpack_fits.epoch, w.unpack_fits.participants, w.unpack_fits.threads⟩
  · rw [if_neg requested]
    exact ⟨Bool.eq_false_iff.mpr requested, packs.epoch, packs.participants, packs.threads⟩

lemma depart (packs : w.Packs r) : Agree (w.perform .depart) (r.perform .depart) := by
  have fits := w.unpack_fits
  simp only [GcWord.perform, GcRecord.perform, GcWord.depart, packs.participants_eq_zero_iff]
  by_cases none_left : r.participants = 0
  · rw [if_pos none_left, if_pos none_left]
    exact ⟨rfl, packs⟩
  rw [if_neg none_left, if_neg none_left]
  have fewer : (w.unpack.participants - 1).toNat = r.participants - 1 := by
    rw [← packs.participants] at none_left ⊢
    exact toNat_sub_one none_left
  refine ⟨rfl, packs_pack packs.requested packs.epoch fewer packs.threads ?_⟩
  refine ⟨fits.epoch, ?_, fits.threads⟩
  have room := fits.participants
  rw [packs.participants] at room
  rw [fewer]
  omega

lemma perform (packs : w.Packs r) (op : GcOp) : Agree (w.perform op) (r.perform op) := by
  cases op with
  | register => exact packs.register
  | deregister => exact packs.deregister
  | start => exact packs.start
  | finish => exact packs.finish
  | depart => exact packs.depart

lemma run (packs : w.Packs r) (ops : List GcOp) : (w.run ops).Packs (r.run ops) := by
  induction ops generalizing w r with
  | nil => exact packs
  | cons op ops ih => exact ih (packs.perform op).packs

/-- What fails changes nothing, not even how the fields are stored. -/
lemma perform_of_failed (packs : w.Packs r) {op : GcOp} (failed : (w.perform op).1.Failed) :
    (w.perform op).2 = w := by
  have agree := packs.perform op
  rw [agree.answer] at failed
  have kept := agree.packs
  rw [GcRecord.perform_of_failed failed] at kept
  exact kept.unique packs

end Packs

end GcWord

/-- Which threads are registered, and which of them have yet to leave the cycle that they take
part in. -/
structure Muster where
  registered : Finset Nat
  due : Finset Nat

namespace Muster

variable {m : Muster} {r : GcRecord} {thread : Nat} {op : GcOp}

/-- What a thread may ask. It may try to deregister while a cycle is requested, in vain. -/
def Permits (m : Muster) (requested : Bool) (thread : Nat) : GcOp → Prop
  | .register => thread ∉ m.registered
  | .deregister => thread ∈ m.registered ∧ (requested = false → thread ∉ m.due)
  | .start => True
  | .finish => True
  | .depart => thread ∈ m.due

/-- The threads after one was answered. -/
def after (m : Muster) (thread : Nat) : GcOp → GcAnswer → Muster
  | .register, .done => { m with registered := insert thread m.registered }
  | .deregister, .deregistered true => { m with registered := m.registered.erase thread }
  | .start, .elected true _ _ => { m with due := m.registered }
  | .depart, .done => { m with due := m.due.erase thread }
  | _, _ => m

/-- The counts are those of the threads. -/
structure Counts (m : Muster) (r : GcRecord) : Prop where
  due_subset : m.due ⊆ m.registered
  participants : r.participants = m.due.card
  threads : r.threads = m.registered.card

lemma Counts.participants_le (counts : m.Counts r) : r.participants ≤ r.threads := by
  rw [counts.participants, counts.threads]
  exact Finset.card_le_card counts.due_subset

/-- Who has to leave or to deregister is counted. -/
lemma Counts.held (counts : m.Counts r) (permitted : m.Permits r.requested thread op) {why : GcHold}
    (held : (r.perform op).1 = .held why) : why = .blocked ∨ why = .threadOverflow := by
  cases op with
  | register =>
    simp only [GcRecord.perform] at held
    split at held
    · exact .inl (GcAnswer.held.inj held).symm
    split at held
    · exact .inr (GcAnswer.held.inj held).symm
    · cases held
  | deregister =>
    have some_there : m.registered.card ≠ 0 := Finset.card_ne_zero_of_mem permitted.1
    simp only [GcRecord.perform] at held
    split at held
    · cases held
    split at held
    · rename_i none_there
      exact absurd (counts.threads.symm.trans none_there) some_there
    · cases held
  | start =>
    simp only [GcRecord.perform] at held
    split at held
    · cases held
    split at held
    · exact .inl (GcAnswer.held.inj held).symm
    · cases held
  | finish => cases held
  | depart =>
    have some_due : m.due.card ≠ 0 := Finset.card_ne_zero_of_mem permitted
    simp only [GcRecord.perform] at held
    split at held
    · rename_i none_left
      exact absurd (counts.participants.symm.trans none_left) some_due
    · cases held

lemma Counts.perform (counts : m.Counts r) (permitted : m.Permits r.requested thread op) :
    (m.after thread op (r.perform op).1).Counts (r.perform op).2 := by
  obtain ⟨due_subset, participants, threads⟩ := counts
  cases op with
  | register =>
    simp only [GcRecord.perform]
    split
    · exact ⟨due_subset, participants, threads⟩
    split
    · exact ⟨due_subset, participants, threads⟩
    · refine ⟨due_subset.trans (Finset.subset_insert thread _), participants, ?_⟩
      simp only [after, threads]
      exact (Finset.card_insert_of_notMem permitted).symm
  | deregister =>
    obtain ⟨there, left⟩ := permitted
    simp only [GcRecord.perform]
    split
    · exact ⟨due_subset, participants, threads⟩
    rename_i idle
    split
    · exact ⟨due_subset, participants, threads⟩
    · have not_due := left (Bool.eq_false_iff.mpr idle)
      refine ⟨fun other due => ?_, participants, ?_⟩
      · refine Finset.mem_erase.mpr ⟨?_, due_subset due⟩
        rintro rfl
        exact not_due due
      · simp only [after, threads]
        exact (Finset.card_erase_of_mem there).symm
  | start =>
    simp only [GcRecord.perform]
    split
    · exact ⟨due_subset, participants, threads⟩
    split
    · exact ⟨due_subset, participants, threads⟩
    · exact ⟨subset_rfl, threads, threads⟩
  | finish => exact ⟨due_subset, participants, threads⟩
  | depart =>
    simp only [GcRecord.perform]
    split
    · exact ⟨due_subset, participants, threads⟩
    · refine ⟨(Finset.erase_subset thread _).trans due_subset, ?_, threads⟩
      simp only [after, participants]
      exact (Finset.card_erase_of_mem permitted).symm

end Muster

namespace GcWord

/-- The words that come about while every participant leaves a cycle once, and before it
deregisters. -/
inductive Orderly : GcWord → Muster → Prop where
  | initial : Orderly initial ⟨∅, ∅⟩
  | step {w : GcWord} {m : Muster} (before : Orderly w m) {thread : Nat} {op : GcOp}
      (permitted : m.Permits w.isRequested thread op) :
      Orderly (w.perform op).2 (m.after thread op (w.perform op).1)

lemma Orderly.counts {w : GcWord} {m : Muster} (orderly : Orderly w m) :
    ∃ r, w.Packs r ∧ m.Counts r := by
  induction orderly with
  | initial => exact ⟨.initial, packs_initial, subset_rfl, rfl, rfl⟩
  | @step w m before thread op permitted ih =>
    obtain ⟨r, packs, counts⟩ := ih
    have agree := packs.perform op
    rw [isRequested, packs.requested] at permitted
    refine ⟨_, agree.packs, ?_⟩
    rw [agree.answer]
    exact counts.perform permitted

/-- The word does what the record does. -/
structure RefinesRecord : Prop where
  packs : ∀ ops, (initial.run ops).Packs (GcRecord.initial.run ops)
  answers : ∀ ops op,
    ((initial.run ops).perform op).1 = ((GcRecord.initial.run ops).perform op).1
  /-- No field reaches into another. -/
  bits : ∀ ops, (initial.run ops).bits.toNat = (GcRecord.initial.run ops).packed
  failed : ∀ ops op, ((initial.run ops).perform op).1.Failed →
    ((initial.run ops).perform op).2 = initial.run ops
  /-- The number of the cycle wraps around, and nothing else is moved. -/
  wraps : ∀ threads ≤ GcRecord.mostThreads, ∀ cycles,
    (initial.run (GcRecord.wholeCycles threads cycles)).bits.toNat =
      2 * (cycles % 2 ^ 15) + 2 ^ 40 * threads
  /-- With as many threads as can be counted, no further one gets in. -/
  full : ∀ cycles,
    ((initial.run (GcRecord.wholeCycles GcRecord.mostThreads cycles)).perform .register).1 =
      .held .threadOverflow
  participants_le : ∀ w m, Orderly w m → w.remaining ≤ w.registered
  /-- No count runs below zero. -/
  held : ∀ w m, Orderly w m → ∀ thread op, m.Permits w.isRequested thread op → ∀ why,
    (w.perform op).1 = .held why → why = .blocked ∨ why = .threadOverflow

theorem refinesRecord : RefinesRecord := by
  have same := fun ops => packs_initial.run ops
  constructor
  · exact same
  · exact fun ops op => ((same ops).perform op).answer
  · exact fun ops => (same ops).bits
  · exact fun ops op => (same ops).perform_of_failed
  · intro threads fits cycles
    rw [(same _).bits, GcRecord.run_wholeCycles fits, GcRecord.packed, GcRecord.epoch]
    simp
  · intro cycles
    rw [((same _).perform .register).answer, GcRecord.run_wholeCycles le_rfl]
    simp [GcRecord.perform]
  · intro w m orderly
    obtain ⟨r, packs, counts⟩ := orderly.counts
    rw [remaining, registered, GcWord.participants, GcWord.threads, packs.participants,
      packs.threads]
    exact counts.participants_le
  · intro w m orderly thread op permitted why held
    obtain ⟨r, packs, counts⟩ := orderly.counts
    rw [isRequested, packs.requested] at permitted
    rw [(packs.perform op).answer] at held
    exact counts.held permitted held

end GcWord

end CellMachine
