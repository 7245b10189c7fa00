import CellMachine.Proofs.Threads.Changes

/-!
# The rendezvous

Between cycles some threads may still be on their way out of the last one. While threads
gather, the requested cycle waits for every registered thread to arrive at the first
barrier. Once they are assembled, each of them stands between the two barriers until the
last one arrives at the second. In all three phases the packed word, the barrier and the
submitted root sets are accounted for by where the threads stand.
-/

namespace CellMachine

variable {α ω σ : Type}

namespace Stage

def inRendezvous (stage : Stage α σ) : Bool := stage.errand?.isSome

/-- It was elected and has not ended the cycle. -/
def isCoordinator : Stage α σ → Bool
  | joining c _ | submitting c _ _ | arriving c _ _ | waiting _ c _ _ => c
  | collecting _ _ | finishing _ _ => true
  | _ => false

/-- It was elected and has not collected. -/
def isScanner : Stage α σ → Bool
  | joining c _ | submitting c _ _ | arriving c _ _ | waiting _ c _ _ => c
  | collecting _ _ => true
  | _ => false

/-- It waits at a barrier for this sense to change. -/
def isParked (sense : Bool) : Stage α σ → Bool
  | waiting found _ _ _ | waitingToLeave found _ => found == sense
  | _ => false

/-- It has submitted its root set. -/
def hasSubmitted : Stage α σ → Bool
  | joining _ _ | submitting _ _ _ => false
  | stage => stage.inRendezvous

end Stage

/-- How far the threads are with a cycle. -/
inductive Phase where
  /-- No cycle is requested; some threads may not have left the last one. -/
  | apart
  | gathering
  /-- All have arrived at the first barrier, and not all at the second. -/
  | assembled
deriving DecidableEq

/-- Which places in the rendezvous a thread may have, by the sense of the barrier and the
number of participants. Outside the rendezvous every place will do. -/
def Stage.Admits (phase : Phase) (sense : Bool) (n : Nat) (stage : Stage α σ) : Prop :=
  match phase, stage with
  | .apart, .waitingToLeave found _ => found = !sense
  | .apart, .departing _ => True
  | .gathering, .joining _ _ => True
  | .gathering, .submitting _ parties _ => parties = n
  | .gathering, .arriving _ parties _ => parties = n
  | .gathering, .waiting found _ parties _ => found = sense ∧ parties = n
  | .assembled, .waiting found _ parties _ => found = !sense ∧ parties = n
  | .assembled, .collecting parties _ => parties = n
  | .assembled, .finishing parties _ => parties = n
  | .assembled, .leaving parties _ => parties = n
  | .assembled, .waitingToLeave found _ => found = sense
  | _, stage => stage.inRendezvous = false

namespace MutatorSystem

/-- A sum over all threads. -/
def total {M : Type*} [AddCommMonoid M] (s : MutatorSystem α ω σ) (w : MutatorThread α σ → M) : M :=
  (s.threads.toList.map w).sum

/-- How many threads stand at such a place. -/
def count (s : MutatorSystem α ω σ) (f : Stage α σ → Bool) : Nat :=
  s.total fun t => (f t.stage).toNat

end MutatorSystem

variable [Payload α]

/-- The root set that a thread has submitted for the running cycle. -/
def submitted (p : Program α ω σ) (t : MutatorThread α σ) : Multiset RootSet :=
  match t.stage.errand? with
  | some e => if t.stage.hasSubmitted then {e.rootSet p t.own} else 0
  | none => 0

/-- The words and the barrier agree with where the threads stand. -/
structure Rendezvous (p : Program α ω σ) (held : σ → Nat) (phase : Phase)
    (s : MutatorSystem α ω σ) : Prop where
  heap : s.shared.heap.Reachable
  sane : ∀ (i : Nat) t, s.threads[i]? = some t → t.Sane held s.shared.heap
  stages : ∀ (i : Nat) t, s.threads[i]? = some t →
    t.stage.Admits phase s.barrier.sense s.word.remaining
  registered : s.total (fun t => held t.own) = s.word.registered
  coordinators : s.count Stage.isCoordinator = s.word.isRequested.toNat
  arrived : s.count (Stage.isParked s.barrier.sense) = s.barrier.arrived
  remaining : s.word.remaining =
    if phase = .apart then s.count Stage.inRendezvous else s.total fun t => held t.own
  idle : phase = .apart → s.word.isRequested = false
  gathering : phase = .gathering → s.count Stage.isScanner = 1
  /-- Every registered thread has one registration and stands between the barriers. -/
  assembled : phase = .assembled → 0 < s.word.remaining ∧
    ∀ (i : Nat) t, s.threads[i]? = some t → held t.own = t.stage.inRendezvous.toNat
  scanned : s.count Stage.isScanner = 0 → s.inputs = []
  unscanned : s.count Stage.isScanner ≠ 0 →
    (s.inputs : Multiset RootSet) = s.total (submitted p)

namespace MutatorSystem

section Sums

variable {s : MutatorSystem α ω σ} {i : Nat} {g : Common α ω} {t t' : MutatorThread α σ}

omit [Payload α] in
lemma getElem?_changed (here : s.threads[i]? = some t) (j : Nat) :
    (s.changed i g t').threads[j]? = if i = j then some t' else s.threads[j]? := by
  rw [changed, Array.getElem?_modify]
  by_cases same : i = j
  · subst same
    simp [here]
  · simp [same]

omit [Payload α] in
/-- What holds of all threads and of the new one holds of all threads after the change. -/
lemma forall_changed {P : MutatorThread α σ → Prop} (here : s.threads[i]? = some t) (new : P t')
    (old : ∀ (j : Nat) u, s.threads[j]? = some u → P u) (j : Nat) (u : MutatorThread α σ)
    (at_j : (s.changed i g t').threads[j]? = some u) : P u := by
  rw [getElem?_changed here] at at_j
  split at at_j
  · obtain rfl := Option.some.inj at_j
    exact new
  · exact old j u at_j

omit [Payload α] in
lemma total_changed {M : Type*} [AddCommMonoid M] (w : MutatorThread α σ → M) (g : Common α ω)
    (t' : MutatorThread α σ) (here : s.threads[i]? = some t) :
    (s.changed i g t').total w + w t = s.total w + w t' := by
  rw [← Array.getElem?_toList] at here
  rw [total, total, changed, Array.toList_modify]
  exact sum_map_modify w (fun _ => t') here

omit [Payload α] in
lemma count_changed (f : Stage α σ → Bool) (g : Common α ω) (t' : MutatorThread α σ)
    (here : s.threads[i]? = some t) :
    (s.changed i g t').count f + (f t.stage).toNat = s.count f + (f t'.stage).toNat :=
  total_changed _ g t' here

omit [Payload α] in
lemma mem_threads {u : MutatorThread α σ} :
    u ∈ s.threads.toList ↔ ∃ j : Nat, s.threads[j]? = some u := by
  rw [List.mem_iff_getElem?]
  simp only [Array.getElem?_toList]

omit [Payload α] in
lemma total_congr {M : Type*} [AddCommMonoid M] {v w : MutatorThread α σ → M}
    (same : ∀ (j : Nat) u, s.threads[j]? = some u → v u = w u) : s.total v = s.total w := by
  rw [total, total]
  congr 1
  apply List.map_congr_left
  intro u hu
  obtain ⟨j, hj⟩ := mem_threads.mp hu
  exact same j u hj

omit [Payload α] in
lemma total_eq_zero {M : Type*} [AddCommMonoid M] {w : MutatorThread α σ → M}
    (zero : ∀ (j : Nat) u, s.threads[j]? = some u → w u = 0) : s.total w = 0 := by
  have same : s.total w = s.total fun _ => 0 := total_congr zero
  rw [same, total]
  simp

omit [Payload α] in
lemma le_total (w : MutatorThread α σ → Nat) (here : s.threads[i]? = some t) : w t ≤ s.total w :=
  List.single_le_sum (fun _ _ => Nat.zero_le _) _
    (List.mem_map.mpr ⟨t, mem_threads.mpr ⟨i, here⟩, rfl⟩)

omit [Payload α] in
/-- If no thread stands there, this one does not. -/
lemma eq_false_of_count_eq_zero {f : Stage α σ → Bool} (none_there : s.count f = 0)
    (here : s.threads[i]? = some t) : f t.stage = false := by
  have bound := le_total (fun t => (f t.stage).toNat) here
  rw [count] at none_there
  cases h : f t.stage with
  | false => rfl
  | true =>
    simp only [h, Bool.toNat_true] at bound
    omega

omit [Payload α] in
/-- If as many threads stand there as registrations are held, each of them holding one,
then nobody else holds any. -/
lemma held_eq_of_total_eq {held : σ → Nat} {f : Stage α σ → Bool}
    (heavy : ∀ (j : Nat) u, s.threads[j]? = some u → f u.stage = true → 0 < held u.own)
    (same : s.count f = s.total fun t => held t.own) (j : Nat) (u : MutatorThread α σ)
    (here : s.threads[j]? = some u) : held u.own = (f u.stage).toNat := by
  have le : ∀ u ∈ s.threads.toList, (f u.stage).toNat ≤ held u.own := by
    intro u hu
    obtain ⟨k, hk⟩ := mem_threads.mp hu
    cases h : f u.stage with
    | false => exact Nat.zero_le _
    | true => exact heavy k u hk h
  exact (eq_of_sum_eq le same u (mem_threads.mpr ⟨j, here⟩)).symm

omit [Payload α] in
lemma count_isScanner_le (s : MutatorSystem α ω σ) :
    s.count Stage.isScanner ≤ s.count Stage.isCoordinator := by
  apply List.sum_le_sum
  intro u _
  obtain ⟨own, stage⟩ := u
  cases stage <;> simp [Stage.isScanner, Stage.isCoordinator]

end Sums

end MutatorSystem

end CellMachine
