import CellMachine.Proofs.Counting
import CellMachine.Proofs.Threads.Fairness
import CellMachine.Threads.Barrier

/-!
# The barrier separates phases

Let the flips of the sense be numbered. A thread that waits for the next flip has entered one
wait more than there were flips; every other thread has entered as many. So nobody is more than
one wait ahead of anybody, and the flip that ends a wait is seen by all who waited for it before
the next one can take place.
-/

namespace CellMachine

namespace CountingStage

/-- It calls the first or the second wait of its phase. -/
def calling : Bool → CountingStage
  | false => arriving
  | true => arrivingAgain

def parked : Bool → Bool → CountingStage
  | false, found => waiting found
  | true, found => waitingAgain found

/-- It has returned from the wait. -/
def past : Bool → CountingStage
  | false => reading
  | true => adding

/-- The sense that a thread waits out. -/
def found? : CountingStage → Option Bool
  | waiting found | waitingAgain found => some found
  | _ => none

def isCalling : CountingStage → Bool
  | arriving | arrivingAgain => true
  | _ => false

/-- It is about to wait or waits. -/
def isAtWait (stage : CountingStage) : Bool := stage.isCalling || stage.found?.isSome

/-- It has read the counter in this phase. -/
def isSecond : CountingStage → Bool
  | arrivingAgain | waitingAgain _ => true
  | _ => false

end CountingStage

namespace CountingThread

/-- How many waits the thread has returned from. -/
def left (t : CountingThread) : Nat :=
  match t.stage with
  | .adding | .arriving | .waiting _ => 2 * t.seen.length
  | .reading => 2 * t.seen.length + 1
  | .arrivingAgain | .waitingAgain _ => 2 * t.seen.length - 1

/-- How many waits it has entered. -/
def entered (t : CountingThread) : Nat := t.left + t.stage.found?.isSome.toNat

/-- How often it has added one. -/
def added (t : CountingThread) : Nat :=
  match t.stage with
  | .arriving | .waiting _ | .reading => t.seen.length + 1
  | _ => t.seen.length

/-- Steps that are left to it at most. -/
def work (phases : Nat) (t : CountingThread) : Nat :=
  7 * (phases - t.added) +
    match t.stage with
    | .adding => 0
    | .arriving => 6
    | .waiting _ => 5
    | .reading => 4
    | .arrivingAgain => 3
    | .waitingAgain _ => 2

/-- Where a thread can stand after that many flips, and what it has read by then. -/
structure At (size phases flips : Nat) (t : CountingThread) : Prop where
  place : t.left = flips ∨ t.stage.found?.isSome ∧ t.left + 1 = flips
  found : ∀ found, t.stage.found? = some found → found = t.left.bodd
  second : t.stage.isSecond → t.seen ≠ []
  bound : t.added ≤ phases
  reads : ∀ p v, t.seen.reverse[p]? = some v → v = size * (p + 1)

end CountingThread

/-- What one step does to the thread that takes it, the barrier and the counter. -/
inductive Counts (phases parties : Nat) (b : Barrier) (counter : Nat) :
    CountingThread → Barrier → Nat → CountingThread → Prop where
  | add {seen : List Nat} (more : seen.length < phases) :
      Counts phases parties b counter ⟨.adding, seen⟩ b (counter + 1) ⟨.arriving, seen⟩
  | last {again : Bool} {seen : List Nat} (last : b.arrived + 1 = parties) :
      Counts phases parties b counter ⟨.calling again, seen⟩ ⟨0, !b.sense⟩ counter
        ⟨.past again, seen⟩
  | park {again : Bool} {seen : List Nat} (more : b.arrived + 1 ≠ parties) :
      Counts phases parties b counter ⟨.calling again, seen⟩ ⟨b.arrived + 1, b.sense⟩ counter
        ⟨.parked again b.sense, seen⟩
  | pass {again found : Bool} {seen : List Nat} (free : found = !b.sense) :
      Counts phases parties b counter ⟨.parked again found, seen⟩ b counter ⟨.past again, seen⟩
  | read {seen : List Nat} :
      Counts phases parties b counter ⟨.reading, seen⟩ b counter ⟨.arrivingAgain, counter :: seen⟩

/-- A thread that cannot move: it is through, or it waits for the next flip. -/
def CountingThread.Held (phases : Nat) (sense : Bool) (t : CountingThread) : Prop :=
  t.stage = .adding ∧ phases ≤ t.seen.length ∨ t.stage.found? = some sense

lemma CountingThread.Held.isCalling_eq {phases : Nat} {sense : Bool} {t : CountingThread}
    (held : t.Held phases sense) : t.stage.isCalling = false := by
  obtain ⟨stage, seen⟩ := t
  rcases held with ⟨through, _⟩ | waits
  · obtain rfl : stage = .adding := through
    rfl
  · cases stage with
    | arriving | arrivingAgain => cases waits
    | _ => rfl

namespace CountingSystem

variable {s : CountingSystem} {i : Nat} {t t' : CountingThread} {b : Barrier} {counter : Nat}

/-- The system after a step that one thread has taken. -/
def changed (s : CountingSystem) (thread : Nat) (b : Barrier) (counter : Nat) (t : CountingThread) :
    CountingSystem :=
  ⟨b, counter, s.phases, s.threads.modify thread fun _ => t⟩

lemma modify_eq (here : s.threads[i]? = some t) (f : CountingThread → CountingThread) :
    s.threads.modify i f = s.threads.modify i fun _ => f t := by
  apply Array.ext_getElem?
  intro j
  rw [Array.getElem?_modify, Array.getElem?_modify]
  by_cases same : i = j
  · subst same
    simp [here]
  · simp [same]

lemma setStage_eq (here : s.threads[i]? = some t) (stage : CountingStage) :
    s.setStage i stage = s.changed i s.barrier s.counter { t with stage } := by
  rw [setStage, modify_eq here]
  rfl

lemma arrive_cases (again : Bool) {seen : List Nat}
    (here : s.threads[i]? = some ⟨.calling again, seen⟩) :
    ∃ b t', Counts s.phases s.threads.size s.barrier s.counter ⟨.calling again, seen⟩ b s.counter t' ∧
      s.arrive i (.past again) (.parked again) = s.changed i b s.counter t' := by
  rw [arrive, Barrier.arrive]
  by_cases last : s.barrier.arrived + 1 = s.threads.size
  · rw [if_pos last]
    exact ⟨_, _, .last last, setStage_eq (s := { s with barrier := ⟨0, !s.barrier.sense⟩ }) here _⟩
  · rw [if_neg last]
    exact ⟨_, _, .park last, setStage_eq
      (s := { s with barrier := ⟨s.barrier.arrived + 1, s.barrier.sense⟩ }) here _⟩

lemma wait_cases (again : Bool) {found : Bool} {seen : List Nat}
    (here : s.threads[i]? = some ⟨.parked again found, seen⟩) :
    found = s.barrier.sense ∧
        (if s.barrier.passable found then s.setStage i (.past again) else s) = s ∨
      ∃ t', Counts s.phases s.threads.size s.barrier s.counter ⟨.parked again found, seen⟩
          s.barrier s.counter t' ∧
        (if s.barrier.passable found then s.setStage i (.past again) else s) =
          s.changed i s.barrier s.counter t' := by
  by_cases same : found = s.barrier.sense
  · exact .inl ⟨same, by simp [Barrier.passable, same]⟩
  · have free : s.barrier.passable found = true := by
      rw [Barrier.passable, bne_iff_ne]
      exact Ne.symm same
    have other : found = !s.barrier.sense := by
      revert same
      cases found <;> cases s.barrier.sense <;> decide
    rw [if_pos free]
    exact .inr ⟨_, .pass other, setStage_eq here _⟩

/-- A step does nothing, as the thread cannot move, or it makes one of the changes. -/
lemma step_cases (here : s.threads[i]? = some t) :
    t.Held s.phases s.barrier.sense ∧ s.step i = s ∨
      ∃ b counter t', Counts s.phases s.threads.size s.barrier s.counter t b counter t' ∧
        s.step i = s.changed i b counter t' := by
  obtain ⟨stage, seen⟩ := t
  rw [step, here]
  cases stage with
  | adding =>
    dsimp only
    split
    · rename_i more
      exact .inr ⟨_, _, _, .add more,
        setStage_eq (s := { s with counter := s.counter + 1 }) here .arriving⟩
    · rename_i through
      exact .inl ⟨.inl ⟨rfl, not_lt.mp through⟩, rfl⟩
  | arriving =>
    obtain ⟨b, t', counts, eq⟩ := arrive_cases false here
    exact .inr ⟨b, _, t', counts, eq⟩
  | waiting found =>
    rcases wait_cases false here with ⟨same, eq⟩ | ⟨t', counts, eq⟩
    · exact .inl ⟨.inr (congrArg some same), eq⟩
    · exact .inr ⟨_, _, t', counts, eq⟩
  | reading =>
    refine .inr ⟨_, _, _, .read, ?_⟩
    dsimp only
    rw [modify_eq here]
    rfl
  | arrivingAgain =>
    obtain ⟨b, t', counts, eq⟩ := arrive_cases true here
    exact .inr ⟨b, _, t', counts, eq⟩
  | waitingAgain found =>
    rcases wait_cases true here with ⟨same, eq⟩ | ⟨t', counts, eq⟩
    · exact .inl ⟨.inr (congrArg some same), eq⟩
    · exact .inr ⟨_, _, t', counts, eq⟩

lemma getElem?_changed (here : s.threads[i]? = some t) (j : Nat) :
    (s.changed i b counter t').threads[j]? = if i = j then some t' else s.threads[j]? := by
  rw [changed, Array.getElem?_modify]
  by_cases same : i = j
  · subst same
    simp [here]
  · simp [same]

lemma size_changed : (s.changed i b counter t').threads.size = s.threads.size := by
  simp [changed]

/-- A sum over all threads. -/
def total (s : CountingSystem) (w : CountingThread → Nat) : Nat := (s.threads.toList.map w).sum

lemma total_changed (b : Barrier) (counter : Nat) (t' : CountingThread) (w : CountingThread → Nat)
    (here : s.threads[i]? = some t) :
    (s.changed i b counter t').total w + w t = s.total w + w t' := by
  rw [← Array.getElem?_toList] at here
  rw [total, total, changed, Array.toList_modify]
  exact sum_map_modify w (fun _ => t') here

lemma mem_threads : t ∈ s.threads.toList ↔ ∃ j : Nat, s.threads[j]? = some t := by
  rw [List.mem_iff_getElem?]
  simp only [Array.getElem?_toList]

/-- How many threads wait for the next flip. -/
def waitingFor (s : CountingSystem) (sense : Bool) : Nat :=
  s.total fun t => (t.stage.found? == some sense).toNat

/-- If as many threads wait as there are, all do. -/
lemma all_waiting {sense : Bool} (all : s.waitingFor sense = s.threads.size)
    (here : s.threads[i]? = some t) : t.stage.found? = some sense := by
  have le : ∀ u ∈ s.threads.toList, (u.stage.found? == some sense).toNat ≤ 1 :=
    fun u _ => Bool.toNat_le _
  have ones : (s.threads.toList.map fun _ => 1).sum = s.threads.size := by simp
  have each := eq_of_sum_eq le (all.trans ones.symm) t (mem_threads.mpr ⟨i, here⟩)
  cases same : t.stage.found? == some sense with
  | true => simpa using same
  | false =>
    rw [same] at each
    cases each

/-- After that many flips the barrier and the counter agree with where the threads stand. -/
structure InStep (flips : Nat) (s : CountingSystem) : Prop where
  sense : s.barrier.sense = flips.bodd
  places : ∀ (i : Nat) t, s.threads[i]? = some t → t.At s.threads.size s.phases flips
  arrived : s.waitingFor s.barrier.sense = s.barrier.arrived
  room : 0 < s.threads.size → s.barrier.arrived < s.threads.size
  counter : s.total CountingThread.added = s.counter

end CountingSystem

open CountingSystem

namespace CountingThread.At

variable {size phases flips : Nat} {t : CountingThread} {again found : Bool} {seen : List Nat}

/-- A thread that waits for the next flip has left as many waits as there were flips. -/
lemma left_of_found (place : t.At size phases flips) (waits : t.stage.found? = some flips.bodd) :
    t.left = flips := by
  rcases place.place with same | ⟨_, before⟩
  · exact same
  · have parity := place.found _ waits
    rw [← before, Nat.bodd_succ] at parity
    cases h : t.left.bodd <;> rw [h] at parity <;> cases parity

lemma left_calling (place : CountingThread.At size phases flips ⟨.calling again, seen⟩) :
    CountingThread.left ⟨.calling again, seen⟩ = flips := by
  rcases place.place with same | ⟨waits, _⟩
  · exact same
  · cases again <;> cases waits

/-- Returning from a wait. -/
lemma left_past (second : again = true → seen ≠ []) :
    CountingThread.left ⟨.past again, seen⟩ = CountingThread.left ⟨.calling again, seen⟩ + 1 := by
  cases again with
  | false => rfl
  | true =>
    have := List.length_pos_iff.mpr (second rfl)
    change 2 * seen.length = 2 * seen.length - 1 + 1
    omega

lemma second_calling (place : CountingThread.At size phases flips ⟨.calling again, seen⟩) :
    again = true → seen ≠ [] := by
  rintro rfl
  exact place.second rfl

lemma second_parked (place : CountingThread.At size phases flips ⟨.parked again found, seen⟩) :
    again = true → seen ≠ [] := by
  rintro rfl
  exact place.second rfl

lemma past (left : CountingThread.left ⟨.past again, seen⟩ = flips)
    (bound : CountingThread.added ⟨.calling again, seen⟩ ≤ phases)
    (reads : ∀ p v, seen.reverse[p]? = some v → v = size * (p + 1)) :
    CountingThread.At size phases flips ⟨.past again, seen⟩ := by
  refine ⟨.inl left, ?_, ?_, ?_, reads⟩
  · cases again <;> exact fun _ waits => by cases waits
  · cases again <;> exact fun second => by cases second
  · cases again <;> exact bound

/-- While all threads are in the middle of a phase, each has added one for it. -/
lemma added_eq {p : Nat} (place : t.At size phases (2 * p + 1)) : t.added = p + 1 := by
  obtain ⟨stage, seen⟩ := t
  have second := place.second
  have parity := place.place
  have nonempty : seen ≠ [] → 0 < seen.length := List.length_pos_iff.mpr
  cases stage <;>
    simp only [left, added, CountingStage.found?, CountingStage.isSecond, Option.isSome_none,
      Option.isSome_some, Bool.false_eq_true, false_and, true_and, or_false, forall_const] at * <;>
    first
    | omega
    | have := nonempty second
      omega

end CountingThread.At

namespace CountingSystem.InStep

variable {flips : Nat} {s : CountingSystem} {i : Nat} {t t' : CountingThread} {b : Barrier}
  {counter : Nat}

/-- A thread moves and the sense stays. -/
lemma same (inv : InStep flips s) (here : s.threads[i]? = some t)
    (sense : b.sense = s.barrier.sense) (place : t'.At s.threads.size s.phases flips)
    (arrived : b.arrived + (t.stage.found? == some s.barrier.sense).toNat =
      s.barrier.arrived + (t'.stage.found? == some s.barrier.sense).toNat)
    (room : b.arrived < s.threads.size) (added : counter + t.added = s.counter + t'.added) :
    InStep flips (s.changed i b counter t') := by
  constructor
  · exact sense.trans inv.sense
  · intro j u hu
    rw [size_changed]
    rw [getElem?_changed here] at hu
    split at hu
    · obtain rfl := Option.some.inj hu
      exact place
    · exact inv.places j u hu
  · change (s.changed i b counter t').waitingFor b.sense = b.arrived
    rw [sense]
    have all := total_changed b counter t'
      (fun t => (t.stage.found? == some s.barrier.sense).toNat) here
    have before := inv.arrived
    rw [waitingFor] at before ⊢
    omega
  · rw [size_changed]
    exact fun _ => room
  · have all := total_changed b counter t' CountingThread.added here
    have before := inv.counter
    change _ = counter
    omega

lemma size_pos (here : s.threads[i]? = some t) : 0 < s.threads.size :=
  Nat.zero_lt_of_lt (Array.getElem?_eq_some_iff.mp here).1

/-- The last arrival flips the sense; all others wait for that. -/
lemma flip {again : Bool} {seen : List Nat} (inv : InStep flips s)
    (here : s.threads[i]? = some ⟨.calling again, seen⟩)
    (last : s.barrier.arrived + 1 = s.threads.size) :
    InStep (flips + 1) (s.changed i ⟨0, !s.barrier.sense⟩ s.counter ⟨.past again, seen⟩) ∧
      ∀ (j : Nat) u, j ≠ i → s.threads[j]? = some u → u.stage.found? = some s.barrier.sense := by
  have own := inv.places i _ here
  have left := own.left_calling
  have own_second := own.second_calling
  have silent : CountingStage.found? (.calling again) = none := by cases again <;> rfl
  have others : ∀ (j : Nat) u, j ≠ i → s.threads[j]? = some u →
      u.stage.found? = some s.barrier.sense := by
    intro j u other hu
    -- with the mover parked as well, all would wait
    have full := total_changed s.barrier s.counter ⟨.parked again s.barrier.sense, seen⟩
      (fun t => (t.stage.found? == some s.barrier.sense).toNat) here
    have now : CountingStage.found? (.parked again s.barrier.sense) = some s.barrier.sense := by
      cases again <;> rfl
    have before := inv.arrived
    rw [waitingFor] at before
    simp only [silent, now, before] at full
    refine all_waiting (s := s.changed i s.barrier s.counter ⟨.parked again s.barrier.sense, seen⟩)
      ?_ (i := j) (by rw [getElem?_changed here, if_neg (Ne.symm other), hu])
    rw [waitingFor, size_changed, ← last]
    simpa using full
  refine ⟨?_, others⟩
  have places : ∀ (j : Nat) u,
      (s.changed i ⟨0, !s.barrier.sense⟩ s.counter ⟨.past again, seen⟩).threads[j]? = some u →
      u.At s.threads.size s.phases (flips + 1) ∧ (u.stage.found? == some !s.barrier.sense) = false := by
    intro j u hu
    rw [getElem?_changed here] at hu
    split at hu
    · obtain rfl := Option.some.inj hu
      refine ⟨.past ?_ own.bound own.reads, ?_⟩
      · rw [CountingThread.At.left_past own_second, left]
      · cases again <;> rfl
    · rename_i other
      have waits := others j u (Ne.symm other) hu
      have old := inv.places j u hu
      refine ⟨⟨.inr ⟨by rw [waits]; rfl, ?_⟩, old.found, old.second, old.bound, old.reads⟩, ?_⟩
      · rw [old.left_of_found (by rw [waits, inv.sense])]
      · rw [waits]
        cases s.barrier.sense <;> rfl
  constructor
  · change (!s.barrier.sense) = (flips + 1).bodd
    rw [inv.sense, Nat.bodd_succ]
  · intro j u hu
    rw [size_changed]
    exact (places j u hu).1
  · change (s.changed i _ s.counter _).waitingFor (!s.barrier.sense) = 0
    rw [waitingFor, total, List.sum_eq_zero_iff]
    intro w mem
    obtain ⟨u, mem', rfl⟩ := List.mem_map.mp mem
    obtain ⟨j, hj⟩ := mem_threads.mp mem'
    rw [(places j u hj).2]
    rfl
  · rw [size_changed]
    exact fun positive => positive
  · have all := total_changed ⟨0, !s.barrier.sense⟩ s.counter ⟨.past again, seen⟩ CountingThread.added here
    have same : CountingThread.added ⟨.past again, seen⟩ =
        CountingThread.added ⟨.calling again, seen⟩ := by cases again <;> rfl
    rw [same] at all
    exact (Nat.add_right_cancel all).trans inv.counter

/-- A thread that reads finds what all have added by then. -/
lemma read {seen : List Nat} (inv : InStep flips s) (here : s.threads[i]? = some ⟨.reading, seen⟩) :
    s.counter = s.threads.size * (seen.length + 1) := by
  have own := inv.places i _ here
  have flips_eq : flips = 2 * seen.length + 1 := by
    rcases own.place with same | ⟨waits, _⟩
    · exact same.symm
    · cases waits
  subst flips_eq
  have each : ∀ w ∈ s.threads.toList.map CountingThread.added, w = seen.length + 1 := by
    intro w mem
    obtain ⟨u, mem', rfl⟩ := List.mem_map.mp mem
    obtain ⟨j, hj⟩ := mem_threads.mp mem'
    exact (inv.places j u hj).added_eq
  rw [← inv.counter, total, List.sum_eq_card_nsmul _ _ each]
  simp

/-- A step keeps the books, and counts a flip if there is one. -/
lemma counts (inv : InStep flips s) (here : s.threads[i]? = some t)
    (counts : Counts s.phases s.threads.size s.barrier s.counter t b counter t') :
    InStep (if b.sense = s.barrier.sense then flips else flips + 1) (s.changed i b counter t') := by
  have own := inv.places i _ here
  have room := inv.room (size_pos here)
  cases counts with
  | @add seen more =>
    rw [if_pos rfl]
    exact inv.same here rfl ⟨own.place, own.found, nofun, more, own.reads⟩ rfl room
      (Nat.add_right_comm ..)
  | @last again seen last =>
    rw [if_neg (by cases s.barrier.sense <;> decide)]
    exact (inv.flip here last).1
  | @park again seen more =>
    have left := own.left_calling
    have silent : CountingStage.found? (.calling again) = none := by cases again <;> rfl
    have now : CountingStage.found? (.parked again s.barrier.sense) = some s.barrier.sense := by
      cases again <;> rfl
    have same_left : CountingThread.left ⟨.parked again s.barrier.sense, seen⟩ = flips := by
      cases again <;> exact left
    rw [if_pos rfl]
    refine inv.same here rfl ⟨.inl same_left, fun found waits => ?_, fun second => ?_, ?_, own.reads⟩
      ?_ (by change s.barrier.arrived + 1 < _; omega) ?_
    · rw [same_left, ← inv.sense]
      exact Option.some.inj (waits.symm.trans now)
    · cases again
      · cases second
      · exact own.second_calling rfl
    · cases again <;> exact own.bound
    · simp [silent, now]
    · cases again <;> rfl
  | @pass again found seen free =>
    have waits : CountingStage.found? (.parked again found) = some found := by cases again <;> rfl
    have gone : CountingStage.found? (.past again) = none := by cases again <;> rfl
    have left : CountingThread.left ⟨.parked again found, seen⟩ =
        CountingThread.left ⟨.calling again, seen⟩ := by cases again <;> rfl
    have before : CountingThread.left ⟨.parked again found, seen⟩ + 1 = flips := by
      rcases own.place with same | ⟨_, before⟩
      · have parity := own.found found waits
        rw [same, ← inv.sense, free] at parity
        cases h : s.barrier.sense <;> rw [h] at parity <;> cases parity
      · exact before
    rw [if_pos rfl]
    refine inv.same here rfl (.past ?_ ?_ own.reads) ?_ room ?_
    · rw [CountingThread.At.left_past own.second_parked, ← left, before]
    · have bound := own.bound
      cases again <;> exact bound
    · rw [waits, gone, free]
      cases s.barrier.sense <;> rfl
    · cases again <;> rfl
  | @read seen =>
    rw [if_pos rfl]
    have value := inv.read here
    have place : CountingThread.left ⟨.arrivingAgain, s.counter :: seen⟩ = flips := by
      rcases own.place with same | ⟨waits, _⟩
      · exact same
      · cases waits
    refine inv.same here rfl ⟨.inl place, nofun, fun _ => List.cons_ne_nil _ _, own.bound, ?_⟩ rfl
      room rfl
    intro p v at_p
    rw [List.reverse_cons, List.getElem?_append] at at_p
    split at at_p
    · exact own.reads p v at_p
    · rename_i beyond
      have first : p = seen.length := by
        obtain ⟨bound, _⟩ := List.getElem?_eq_some_iff.mp at_p
        simp at bound beyond
        omega
      subst first
      simp at at_p
      rw [← at_p, value]

/-- A step leaves the system alone or is one of the changes, and the books are kept. -/
lemma step (inv : InStep flips s) (i : Nat) :
    InStep (if (s.step i).barrier.sense = s.barrier.sense then flips else flips + 1) (s.step i) := by
  cases here : s.threads[i]? with
  | none =>
    have still : s.step i = s := by rw [CountingSystem.step, here]
    rw [still, if_pos rfl]
    exact inv
  | some t =>
    rcases step_cases here with ⟨_, still⟩ | ⟨b, counter, t', change, eq⟩
    · rw [still, if_pos rfl]
      exact inv
    · rw [eq]
      exact inv.counts here change

lemma start (threads phases : Nat) : InStep 0 (CountingSystem.start threads phases) := by
  have each : ∀ (j : Nat) u, (CountingSystem.start threads phases).threads[j]? = some u →
      u = ⟨.adding, []⟩ := by
    intro j u hu
    rw [CountingSystem.start, Array.getElem?_replicate] at hu
    split at hu
    · exact (Option.some.inj hu).symm
    · cases hu
  constructor
  · rfl
  · intro j u hu
    rw [each j u hu]
    exact ⟨.inl rfl, nofun, nofun, Nat.zero_le _, nofun⟩
  · simp [waitingFor, total, CountingSystem.start, CountingStage.found?, Barrier.initial]
  · exact fun positive => positive
  · simp [total, CountingSystem.start, CountingThread.added]

/-- Every change is a step towards the end. -/
lemma work_lt (inv : InStep flips s) (here : s.threads[i]? = some t)
    (change : Counts s.phases s.threads.size s.barrier s.counter t b counter t') :
    t'.work s.phases < t.work s.phases := by
  have second := (inv.places i t here).second
  have bound := (inv.places i t here).bound
  cases change with
  | add more =>
    simp only [CountingThread.work, CountingThread.added]
    omega
  | @last again => cases again <;> simp [CountingThread.work, CountingThread.added,
      CountingStage.calling, CountingStage.past]
  | @park again => cases again <;> simp [CountingThread.work, CountingThread.added,
      CountingStage.calling, CountingStage.parked]
  | @pass again => cases again <;> simp [CountingThread.work, CountingThread.added,
      CountingStage.parked, CountingStage.past]
  | read => simp [CountingThread.work, CountingThread.added]

/-- They do not all wait for the next flip. -/
lemma not_all_waiting (inv : InStep flips s) (here : s.threads[i]? = some t) :
    ¬ ∀ (j : Nat) u, s.threads[j]? = some u → u.stage.found? = some s.barrier.sense := by
  intro all
  have full : s.waitingFor s.barrier.sense = s.threads.size := by
    have ones : s.threads.toList.map (fun u => (u.stage.found? == some s.barrier.sense).toNat) =
        s.threads.toList.map fun _ => 1 := by
      apply List.map_congr_left
      intro u mem
      obtain ⟨j, hj⟩ := mem_threads.mp mem
      simp [all j u hj]
    rw [waitingFor, total, ones]
    simp
  have room := inv.room (size_pos here)
  rw [← inv.arrived, full] at room
  exact lt_irrefl _ room

/-- A thread that is through has left an even number of waits, and nobody can be ahead of it. -/
lemma waits_of_held (inv : InStep flips s) (here : s.threads[i]? = some t)
    (waits : t.stage.found? = some s.barrier.sense) {j : Nat} {u : CountingThread}
    (there : s.threads[j]? = some u) (held : u.Held s.phases s.barrier.sense) :
    u.stage.found? = some s.barrier.sense := by
  rcases held with ⟨through, done⟩ | waits'
  · exfalso
    have left := (inv.places i t here).left_of_found (inv.sense ▸ waits)
    have bound := (inv.places i t here).bound
    have nonempty := (inv.places i t here).second
    obtain ⟨stage, seen⟩ := u
    obtain rfl : stage = .adding := through
    have same : 2 * seen.length = flips := by
      rcases (inv.places j _ there).place with same | ⟨waits', _⟩
      · exact same
      · cases waits'
    have limit : seen.length ≤ s.phases := (inv.places j _ there).bound
    obtain ⟨stage, seen'⟩ := t
    cases stage with
    | waiting found =>
      simp only [CountingThread.left, CountingThread.added] at left bound done
      omega
    | waitingAgain found =>
      have positive := List.length_pos_iff.mpr (nonempty rfl)
      simp only [CountingThread.left] at left positive
      omega
    | _ => cases waits
  · exact waits'

/-- As long as a thread is not through, some thread can move. -/
lemma exists_free (inv : InStep flips s) (unfinished : s.finished ≠ true) :
    ∃ (i : Nat) (t : CountingThread), s.threads[i]? = some t ∧ ¬ t.Held s.phases s.barrier.sense := by
  by_contra none_free
  push Not at none_free
  apply unfinished
  rw [CountingSystem.finished, Array.all_eq_true']
  intro t mem
  obtain ⟨i, here⟩ := mem_threads.mp (Array.mem_toList_iff.mpr mem)
  rcases none_free i t here with ⟨stage, done⟩ | waits
  · simp [stage, done]
  · exact absurd (fun j u there => inv.waits_of_held here waits there (none_free j u there))
      (inv.not_all_waiting here)

/-- A step that does anything lowers what is left to all of them. -/
lemma same_or_total_lt (inv : InStep flips s) (i : Nat) : s.step i = s ∨
    (s.step i).total (CountingThread.work s.phases) < s.total (CountingThread.work s.phases) := by
  cases here : s.threads[i]? with
  | none => exact .inl (by rw [CountingSystem.step, here])
  | some t =>
    rcases step_cases here with ⟨_, still⟩ | ⟨b, counter, t', change, eq⟩
    · exact .inl still
    · have less := inv.work_lt here change
      have sums := total_changed b counter t'
        (CountingThread.work s.phases) here
      rw [eq]
      exact .inr (by omega)

lemma step_ne (inv : InStep flips s) (here : s.threads[i]? = some t)
    (free : ¬ t.Held s.phases s.barrier.sense) : s.step i ≠ s := by
  rcases step_cases here with ⟨held, _⟩ | ⟨b, counter, t', change, eq⟩
  · exact absurd held free
  · intro still
    have less := inv.work_lt here change
    have there : (s.step i).threads[i]? = some t' := by rw [eq, getElem?_changed here, if_pos rfl]
    rw [still, here] at there
    exact lt_irrefl _ (Option.some.inj there ▸ less)

/-- Whoever waits when the sense flips waits for that. -/
lemma found_of_flip (inv : InStep flips s) (flipped : (s.step i).barrier.sense ≠ s.barrier.sense)
    {j : Nat} {u : CountingThread} {found : Bool} (there : s.threads[j]? = some u)
    (waits : u.stage.found? = some found) : found = s.barrier.sense := by
  cases here : s.threads[i]? with
  | none => exact absurd (by rw [CountingSystem.step, here]) flipped
  | some t =>
    rcases step_cases here with ⟨_, still⟩ | ⟨b, counter, t', change, eq⟩
    · exact absurd (by rw [still]) flipped
    · rw [eq] at flipped
      cases change with
      | @last again seen last =>
        by_cases mover : j = i
        · subst mover
          obtain rfl := Option.some.inj (here.symm.trans there)
          cases again <;> cases waits
        · exact Option.some.inj (waits.symm.trans ((inv.flip here last).2 j u mover there))
      | _ => exact absurd rfl flipped

lemma reads_of_finished (inv : InStep flips s) (finished : s.finished)
    (here : s.threads[i]? = some t) :
    t.seen.reverse = (List.range s.phases).map fun p => s.threads.size * (p + 1) := by
  rw [CountingSystem.finished, Array.all_eq_true'] at finished
  have through := finished t (Array.mem_of_getElem? here)
  rw [Bool.and_eq_true, beq_iff_eq, decide_eq_true_iff] at through
  have place := inv.places i t here
  have length : t.seen.length = s.phases := by
    have bound := place.bound
    rw [CountingThread.added, through.1] at bound
    exact le_antisymm bound through.2
  apply List.ext_getElem?
  intro p
  cases read : t.seen.reverse[p]? with
  | none =>
    rw [List.getElem?_eq_none_iff, List.length_reverse, length] at read
    simp [read]
  | some v =>
    have bound := (List.getElem?_eq_some_iff.mp read).1
    rw [List.length_reverse, length] at bound
    rw [place.reads p v read]
    simp [bound]

end CountingSystem.InStep

namespace Counts

variable {phases parties counter counter' : Nat} {b b' : Barrier} {t t' : CountingThread}

/-- A step from a call enters a wait, and no other step does. -/
lemma entered (counts : Counts phases parties b counter t b' counter' t')
    (second : t.stage.isSecond → t.seen ≠ []) :
    t'.entered = t.entered + t.stage.isCalling.toNat := by
  cases counts with
  | add | read => rfl
  | @last again seen =>
    rw [CountingThread.entered, CountingThread.At.left_past fun h => second (by rw [h]; rfl)]
    cases again <;> rfl
  | @park again => cases again <;> rfl
  | @pass again found seen =>
    rw [CountingThread.entered, CountingThread.At.left_past fun h => second (by rw [h]; rfl)]
    cases again <;> rfl

/-- A thread returns from a wait when it was in one, or was about to enter it, and is not any more. -/
lemma left (counts : Counts phases parties b counter t b' counter' t')
    (second : t.stage.isSecond → t.seen ≠ []) :
    t'.left = t.left + (t.stage.isAtWait && !t'.stage.isAtWait).toNat := by
  cases counts with
  | add | read => rfl
  | @last again seen =>
    rw [CountingThread.At.left_past fun h => second (by rw [h]; rfl)]
    cases again <;> rfl
  | @park again => cases again <;> rfl
  | @pass again found seen =>
    rw [CountingThread.At.left_past fun h => second (by rw [h]; rfl)]
    cases again <;> rfl

end Counts

namespace CountingSystem

variable {s : CountingSystem} {i j : Nat} {t : CountingThread}

/-- The system after that many turns of an unending schedule. -/
def run (schedule : Nat → Nat) (s : CountingSystem) : Nat → CountingSystem
  | 0 => s
  | n + 1 => (run schedule s n).step (schedule n)

/-- The thread is about to call `wait`. -/
def isCalling (s : CountingSystem) (thread : Nat) : Bool :=
  s.threads[thread]?.any fun t => t.stage.isCalling

/-- The thread is about to call `wait` or is inside of it. -/
def isAtWait (s : CountingSystem) (thread : Nat) : Bool :=
  s.threads[thread]?.any fun t => t.stage.isAtWait

/-- The thread is inside of `wait`. -/
def isInWait (s : CountingSystem) (thread : Nat) : Bool :=
  s.threads[thread]?.any fun t => t.stage.found?.isSome

/-- How many waits a thread has entered in that many turns. -/
def entries (schedule : Nat → Nat) (s : CountingSystem) (thread : Nat) : Nat → Nat
  | 0 => 0
  | n + 1 => entries schedule s thread n +
      (schedule n == thread && (s.run schedule n).isCalling thread).toNat

/-- How many waits it has returned from. -/
def returns (schedule : Nat → Nat) (s : CountingSystem) (thread : Nat) : Nat → Nat
  | 0 => 0
  | n + 1 => returns schedule s thread n +
      ((s.run schedule n).isAtWait thread && !(s.run schedule (n + 1)).isAtWait thread).toNat

/-- The barrier keeps the phases of all threads apart. -/
structure SeparatesPhases (threads phases : Nat) (schedule : Nat → Nat) : Prop where
  /-- Nobody has returned from more waits than everybody has entered. -/
  together : ∀ n, ∀ i < threads, ∀ j < threads,
    returns schedule (start threads phases) i n ≤ entries schedule (start threads phases) j n
  /-- What is read in a phase is what all threads have added up to then. -/
  reads : ∀ n (i : Nat) t, ((start threads phases).run schedule n).threads[i]? = some t →
    ∀ p v, t.seen.reverse[p]? = some v → v = threads * (p + 1)
  /-- When the sense flips, nobody has still to see that it flipped before. -/
  flips : ∀ n, ((start threads phases).run schedule (n + 1)).barrier.sense ≠
      ((start threads phases).run schedule n).barrier.sense →
    ∀ (i : Nat) t found, ((start threads phases).run schedule n).threads[i]? = some t →
      t.stage.found? = some found → found = ((start threads phases).run schedule n).barrier.sense
  /-- Once all have entered the wait that a thread is in, its next turn lets it return. -/
  unstranded : ∀ n, ((start threads phases).run schedule n).isInWait (schedule n) →
    (∀ j < threads, entries schedule (start threads phases) (schedule n) n ≤
      entries schedule (start threads phases) j n) →
    ((start threads phases).run schedule (n + 1)).isAtWait (schedule n) = false
  /-- If every thread gets its turns, all get through all phases. -/
  finishes : Fair threads schedule → ∃ n, ((start threads phases).run schedule n).finished
  completed : ∀ n, ((start threads phases).run schedule n).finished →
    ∀ (i : Nat) t, ((start threads phases).run schedule n).threads[i]? = some t →
      t.seen.reverse = (List.range phases).map fun p => threads * (p + 1)

lemma size_step (s : CountingSystem) (i : Nat) :
    (s.step i).threads.size = s.threads.size ∧ (s.step i).phases = s.phases := by
  cases here : s.threads[i]? with
  | none => rw [step, here]; exact ⟨rfl, rfl⟩
  | some t =>
    rcases step_cases here with ⟨_, still⟩ | ⟨b, counter, t', _, eq⟩
    · rw [still]
      exact ⟨rfl, rfl⟩
    · rw [eq]
      exact ⟨size_changed, rfl⟩

section Runs

variable (threads phases : Nat) (schedule : Nat → Nat)

lemma size_run (n : Nat) : ((start threads phases).run schedule n).threads.size = threads ∧
    ((start threads phases).run schedule n).phases = phases := by
  induction n with
  | zero => exact ⟨Array.size_replicate, rfl⟩
  | succ n ih =>
    have step := size_step ((start threads phases).run schedule n) (schedule n)
    exact ⟨step.1.trans ih.1, step.2.trans ih.2⟩

lemma inStep_run (n : Nat) : ∃ flips, InStep flips ((start threads phases).run schedule n) := by
  induction n with
  | zero => exact ⟨0, .start threads phases⟩
  | succ n ih =>
    obtain ⟨flips, inv⟩ := ih
    exact ⟨_, inv.step (schedule n)⟩

/-- The two counts can be read off where the thread stands. -/
lemma counts_run (n : Nat) : ∀ (i : Nat) t,
    ((start threads phases).run schedule n).threads[i]? = some t →
      entries schedule (start threads phases) i n = t.entered ∧
      returns schedule (start threads phases) i n = t.left := by
  induction n with
  | zero =>
    intro i t here
    rw [run, start, Array.getElem?_replicate] at here
    split at here
    · obtain rfl := Option.some.inj here
      exact ⟨rfl, rfl⟩
    · cases here
  | succ n ih =>
    intro i t' here'
    obtain ⟨flips, inv⟩ := inStep_run threads phases schedule n
    rw [entries, returns, isAtWait, isAtWait, isCalling, here']
    cases mover : ((start threads phases).run schedule n).threads[schedule n]? with
    | none =>
      have still : (start threads phases).run schedule (n + 1) =
          (start threads phases).run schedule n := by rw [run, step, mover]
      rw [still] at here'
      obtain ⟨entered, left⟩ := ih i t' here'
      have other : schedule n ≠ i := by
        rintro rfl
        rw [here'] at mover
        cases mover
      simp [here', entered, left, other]
    | some t =>
      rcases step_cases mover with ⟨held, still⟩ | ⟨b, counter, u, change, eq⟩
      · rw [run, still] at here'
        obtain ⟨entered, left⟩ := ih i t' here'
        have silent : (schedule n == i && t'.stage.isCalling) = false := by
          by_cases same : schedule n = i
          · subst same
            obtain rfl := Option.some.inj (mover.symm.trans here')
            rw [held.isCalling_eq, Bool.and_false]
          · simp [same]
        simp [here', entered, left, silent]
      · rw [run, eq, getElem?_changed mover] at here'
        split at here'
        · rename_i same
          obtain rfl := Option.some.inj here'
          rw [same] at mover ⊢
          obtain ⟨entered, left⟩ := ih i t mover
          have second := (inv.places i t mover).second
          rw [entered, left, change.entered second, change.left second]
          simp [mover]
        · rename_i other
          obtain ⟨entered, left⟩ := ih i t' here'
          simp [here', entered, left, other]

end Runs

namespace InStep

variable {flips : Nat}

lemma left_le (inv : InStep flips s) (here : s.threads[i]? = some t) : t.left ≤ flips := by
  rcases (inv.places i t here).place with same | ⟨_, before⟩ <;> omega

lemma le_entered (inv : InStep flips s) (here : s.threads[i]? = some t) : flips ≤ t.entered := by
  rw [CountingThread.entered]
  rcases (inv.places i t here).place with same | ⟨waits, before⟩
  · omega
  · rw [waits, Bool.toNat_true]
    exact before.ge

/-- A thread that has entered more waits than there were flips waits for the next one. -/
lemma waits_of_lt (inv : InStep flips s) (here : s.threads[i]? = some t)
    (more : flips < t.entered) : t.stage.found? = some s.barrier.sense := by
  have place := inv.places i t here
  rw [CountingThread.entered] at more
  cases waits : t.stage.found? with
  | none =>
    rw [waits, Option.isSome_none, Bool.toNat_false] at more
    exact absurd (inv.left_le here) (not_le.mpr more)
  | some found =>
    rw [waits, Option.isSome_some, Bool.toNat_true] at more
    have left : t.left = flips := by
      have := inv.left_le here
      omega
    rw [place.found found waits, inv.sense, left]

/-- A waiter of a wait that all have entered is free to go. -/
lemma leaves (inv : InStep flips s) (here : s.threads[i]? = some t)
    (waits : t.stage.found?.isSome)
    (all : ∀ (j : Nat) u, s.threads[j]? = some u → t.entered ≤ u.entered) :
    (s.step i).isAtWait i = false := by
  have free : t.stage.found? ≠ some s.barrier.sense := by
    intro own
    -- otherwise all would wait for the next flip, and nobody would be left to make it
    have more : flips < t.entered := by
      have parity := (inv.places i t here).left_of_found (inv.sense ▸ own)
      rw [CountingThread.entered, parity, waits, Bool.toNat_true]
      exact Nat.lt_succ_self flips
    exact inv.not_all_waiting here fun j u there => inv.waits_of_lt there (more.trans_le (all j u there))
  rcases step_cases here with ⟨(⟨stage, _⟩ | own), _⟩ | ⟨b, counter, t', change, eq⟩
  · rw [stage] at waits
    cases waits
  · exact absurd own free
  · rw [isAtWait, eq, getElem?_changed here, if_pos rfl]
    cases change with
    | add | read => cases waits
    | @last again => cases again <;> cases waits
    | @park again => cases again <;> cases waits
    | @pass again => cases again <;> rfl

end InStep

/-- The barrier separates phases, whatever the number of threads and phases and the order of
the steps. -/
theorem separatesPhases (threads phases : Nat) (schedule : Nat → Nat) :
    SeparatesPhases threads phases schedule := by
  have sizes := size_run threads phases schedule
  have known : ∀ n, ∀ i < threads, ∃ t,
      ((start threads phases).run schedule n).threads[i]? = some t := by
    intro n i bound
    exact ⟨_, Array.getElem?_eq_getElem ((sizes n).1.symm ▸ bound)⟩
  constructor
  · intro n i hi j hj
    obtain ⟨flips, inv⟩ := inStep_run threads phases schedule n
    obtain ⟨t, here⟩ := known n i hi
    obtain ⟨u, there⟩ := known n j hj
    rw [(counts_run threads phases schedule n i t here).2,
      (counts_run threads phases schedule n j u there).1]
    exact (inv.left_le here).trans (inv.le_entered there)
  · intro n i t here
    obtain ⟨flips, inv⟩ := inStep_run threads phases schedule n
    have reads := (inv.places i t here).reads
    rwa [(sizes n).1] at reads
  · intro n flipped i t found here waits
    obtain ⟨flips, inv⟩ := inStep_run threads phases schedule n
    rw [run] at flipped
    exact inv.found_of_flip flipped here waits
  · intro n inside all
    obtain ⟨flips, inv⟩ := inStep_run threads phases schedule n
    rw [isInWait, Option.any_eq_true] at inside
    obtain ⟨t, here, waits⟩ := inside
    refine inv.leaves here waits fun j u there => ?_
    have bound : j < threads := (sizes n).1 ▸ (Array.getElem?_eq_some_iff.mp there).1
    rw [← (counts_run threads phases schedule n _ t here).1,
      ← (counts_run threads phases schedule n j u there).1]
    exact all j bound
  · intro fair
    have next : ∀ n, (start threads phases).run schedule (n + 1) =
        step (schedule n) ((start threads phases).run schedule n) := fun n => rfl
    refine fair.reaches next (fun s => s.total (CountingThread.work phases)) (fun n => ?_)
      fun n unfinished => ?_
    · obtain ⟨flips, inv⟩ := inStep_run threads phases schedule n
      have lowers := inv.same_or_total_lt (schedule n)
      rwa [(sizes n).2] at lowers
    · obtain ⟨flips, inv⟩ := inStep_run threads phases schedule n
      obtain ⟨i, t, here, free⟩ := inv.exists_free unfinished
      exact ⟨i, (sizes n).1 ▸ (Array.getElem?_eq_some_iff.mp here).1, inv.step_ne here free⟩
  · intro n finished i t here
    obtain ⟨flips, inv⟩ := inStep_run threads phases schedule n
    have values := inv.reads_of_finished finished here
    rwa [(sizes n).1, (sizes n).2] at values

end CountingSystem

end CellMachine
