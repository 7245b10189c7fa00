import CellMachine.Proofs.Threads.Progress

/-!
# Coming to rest

The measure reaches a least value, and from then on, under a fair schedule, every thread waits or
polls. If a cycle were requested then, all registered threads would have arrived at its barrier;
but the last arrival is never counted, it opens the barrier.
-/

namespace CellMachine

variable {α ω σ W : Type} [Payload α] [PartialOrder W] {p : Program α ω σ} {held : σ → Nat}
  {rank : σ → W} {phase : Phase} {s : MutatorSystem α ω σ} {i : Nat} {g : Common α ω}
  {t t' : MutatorThread α σ}

namespace MutatorSystem

/-- The ranks of all threads. -/
def ranks (rank : σ → W) (s : MutatorSystem α ω σ) : Multiset W := s.total fun t => {rank t.own}

/-- The calls that the threads have ahead, and what is left to do in their present ones. -/
def unrest (rank : σ → W) (s : MutatorSystem α ω σ) : Multiset W × Nat :=
  (s.ranks rank,
    (10 * s.threads.size + 1) * s.total (fun t => t.stage.work) +
      s.total fun t => t.stage.distance s.word.isRequested)

/-- There is less unrest. -/
def Calmer (rank : σ → W) (s s' : MutatorSystem α ω σ) : Prop :=
  Prod.Lex Multiset.IsDershowitzMannaLT (· < ·) (s.unrest rank) (s'.unrest rank)

omit [Payload α] in
lemma wellFounded_calmer [WellFoundedLT W] (rank : σ → W) :
    WellFounded (Calmer (α := α) (ω := ω) rank) :=
  InvImage.wf (fun s : MutatorSystem α ω σ => s.unrest rank)
    (Multiset.wellFounded_isDershowitzMannaLT.prod_lex wellFounded_lt)

omit [Payload α] in
lemma total_mono {v w : MutatorThread α σ → Nat} (le : ∀ t, v t ≤ w t) : s.total v ≤ s.total w :=
  List.sum_le_sum fun t _ => le t

omit [Payload α] in
lemma total_le_size {w : MutatorThread α σ → Nat} {bound : Nat} (le : ∀ t, w t ≤ bound) :
    s.total w ≤ bound * s.threads.size := by
  have sum := List.sum_le_card_nsmul (s.threads.toList.map w) bound fun x mem => by
    obtain ⟨t, _, rfl⟩ := List.mem_map.mp mem
    exact le t
  rwa [List.length_map, Array.length_toList, smul_eq_mul, Nat.mul_comm] at sum

omit [Payload α] in
lemma size_changed : (s.changed i g t').threads.size = s.threads.size := Array.size_modify

omit [Payload α] [PartialOrder W] in
lemma ranks_changed (rank : σ → W) (g : Common α ω) (t' : MutatorThread α σ)
    (here : s.threads[i]? = some t) :
    (s.changed i g t').ranks rank + {rank t.own} = s.ranks rank + {rank t'.own} :=
  total_changed (fun u => {rank u.own}) g t' here

omit [Payload α] in
/-- One of the ranks falls. -/
lemma ranks_lt (g : Common α ω) (here : s.threads[i]? = some t) (less : rank t'.own < rank t.own) :
    ((s.changed i g t').ranks rank).IsDershowitzMannaLT (s.ranks rank) := by
  have balance := ranks_changed rank g t' here
  have mem : rank t.own ∈ s.ranks rank := by
    have there : rank t.own ∈ s.ranks rank + {rank t'.own} :=
      balance ▸ Multiset.mem_add.mpr (.inr (Multiset.mem_singleton_self _))
    rcases Multiset.mem_add.mp there with old | new
    · exact old
    · rw [Multiset.mem_singleton.mp new] at less
      exact absurd less (lt_irrefl _)
  obtain ⟨others, split⟩ := Multiset.exists_cons_of_mem mem
  have after : (s.changed i g t').ranks rank = others + {rank t'.own} := by
    refine add_right_cancel (b := {rank t.own}) (balance.trans ?_)
    rw [split, ← Multiset.singleton_add]
    abel
  refine ⟨others, {rank t'.own}, {rank t.own}, Multiset.singleton_ne_zero _, after, ?_, ?_⟩
  · rw [split, ← Multiset.singleton_add, add_comm]
  · rintro y new
    rw [Multiset.mem_singleton.mp new]
    exact ⟨_, Multiset.mem_singleton_self _, less⟩

omit [Payload α] [PartialOrder W] in
lemma ranks_eq (g : Common α ω) (here : s.threads[i]? = some t) (same : rank t'.own = rank t.own) :
    (s.changed i g t').ranks rank = s.ranks rank := by
  have balance := ranks_changed rank g t' here
  rw [same] at balance
  exact add_right_cancel balance

omit [Payload α] in
/-- If a thread has less to do, so have all together. -/
lemma calmer_of_advances (here : s.threads[i]? = some t)
    (advances : Advances rank s.common t g t') : Calmer rank (s.changed i g t') s := by
  rcases advances with less | ⟨same, advances⟩
  · exact .left _ _ (ranks_lt g here less)
  have work := total_changed (fun u => u.stage.work) g t' here
  have bound : (s.changed i g t').total (fun u => u.stage.distance g.word.isRequested) ≤
      10 * s.threads.size := by
    have all := total_le_size (s := s.changed i g t') fun u => u.stage.distance_le g.word.isRequested
    rwa [size_changed] at all
  rw [Calmer, unrest, unrest, ranks_eq g here same]
  refine .right _ ?_
  change (10 * (s.changed i g t').threads.size + 1) * _ +
    (s.changed i g t').total (fun u => u.stage.distance g.word.isRequested) <
      (10 * s.threads.size + 1) * _ + _
  rw [size_changed]
  rcases advances with less | ⟨le, nearer, requested⟩
  · have fewer : (s.changed i g t').total (fun u => u.stage.work) + 1 ≤
        s.total fun u => u.stage.work := by omega
    have product := Nat.mul_le_mul_left (10 * s.threads.size + 1) fewer
    rw [Nat.mul_add_one] at product
    omega
  · have distance := total_changed (fun u => u.stage.distance s.word.isRequested) g t' here
    have others : (s.changed i g t').total (fun u => u.stage.distance g.word.isRequested) ≤
        (s.changed i g t').total fun u => u.stage.distance s.word.isRequested :=
      total_mono fun u => u.stage.distance_mono requested
    have fewer : (s.changed i g t').total (fun u => u.stage.work) ≤
        s.total fun u => u.stage.work := by omega
    have product := Nat.mul_le_mul_left (10 * s.threads.size + 1) fewer
    change t'.stage.distance s.word.isRequested < t.stage.distance s.word.isRequested at nearer
    omega

omit [Payload α] [PartialOrder W] in
/-- A poll leaves as much to do as before. -/
lemma unrest_polls {shared : Shared α ω} (here : s.threads[i]? = some t)
    (polls : t.Polls p rank s.word s.shared t') :
    (s.changed i { s.common with shared } t').unrest rank = s.unrest rank := by
  obtain ⟨own, stage⟩ := t
  obtain ⟨own', stage'⟩ := t'
  obtain ⟨rfl, rfl, same, _⟩ := polls
  have work := total_changed (fun u => u.stage.work) { s.common with shared } ⟨own', .between⟩ here
  have distance := total_changed (fun u => u.stage.distance s.word.isRequested)
    { s.common with shared } ⟨own', .between⟩ here
  rw [unrest, unrest, size_changed, ranks_eq _ here same, Nat.add_right_cancel work]
  exact congrArg _ (congrArg _ (Nat.add_right_cancel distance))

end MutatorSystem

namespace Rendezvous

open MutatorSystem

/-- Between cycles nobody waits at the barrier. -/
lemma arrived_eq_zero (inv : Rendezvous p held .apart s) : s.barrier.arrived = 0 := by
  rw [← inv.arrived]
  exact total_eq_zero fun j u there =>
    congrArg Bool.toNat (Stage.idle_of_admits_apart (inv.stages j u there)).2.2

lemma arrived_of_idle (inv : Rendezvous p held phase s) (idle : s.word.isRequested = false)
    (none_left : s.word.remaining = 0) : s.barrier.arrived = 0 := by
  obtain rfl := inv.phase_of_idle idle none_left
  exact inv.arrived_eq_zero

lemma remaining_pos (inv : Rendezvous p held phase s) (busy : phase ≠ .apart)
    (here : s.threads[i]? = some t) (registered : 0 < held t.own) : 0 < s.word.remaining := by
  rw [inv.remaining, if_neg busy]
  exact registered.trans_le (le_total (fun u => held u.own) here)

/-- The last of the participants does not wait. -/
lemma unfilled_change (inv : Rendezvous p held phase s) (here : s.threads[i]? = some t)
    (change : Change p held s.common t g t')
    (unfilled : s.barrier.arrived = 0 ∨ s.barrier.arrived < s.word.remaining) :
    g.barrier.arrived = 0 ∨ g.barrier.arrived < g.word.remaining := by
  have more : ∀ {n : Nat}, phase ≠ .apart → s.barrier.arrived + 1 ≠ n → n = s.word.remaining →
      0 < held t.own → s.barrier.arrived + 1 < s.word.remaining := by
    intro n busy more parties registered
    have some_left := inv.remaining_pos busy here registered
    omega
  cases change with
  | register _ ok =>
    obtain ⟨idle, none_left, _⟩ := GcWord.register_spec ok
    exact .inl (inv.arrived_of_idle idle none_left)
  | deregister _ ok =>
    have same := ((GcWord.deregister_spec ok).2 rfl).2.1
    exact unfilled.imp_right fun less => Nat.lt_of_lt_of_eq less same.symm
  | elect _ ok =>
    rcases GcWord.start_spec ok with ⟨_, _, rfl⟩ | ⟨idle, none_left, _⟩
    · exact unfilled
    · exact .inl (inv.arrived_of_idle idle none_left)
  | finish =>
    have same := (GcWord.finish_spec (inv.requested_of_coordinator here rfl)).2.1
    exact unfilled.imp_right fun less => Nat.lt_of_lt_of_eq less same.symm
  | depart =>
    have place := inv.stages i _ here
    have now : phase = .apart := by cases phase <;> first | rfl | cases place
    subst now
    exact .inl inv.arrived_eq_zero
  | arriveLast => exact .inl rfl
  | leaveLast => exact .inl rfl
  | arrive other =>
    have place := inv.stages i _ here
    have now : phase = .gathering := by cases phase <;> first | rfl | cases place
    subst now
    exact .inr (more nofun other place ((inv.sane i _ here).of_errand rfl).1)
  | leave other =>
    have place := inv.stages i _ here
    have now : phase = .assembled := by cases phase <;> first | rfl | cases place
    subst now
    exact .inr (more nofun other place ((inv.sane i _ here).of_errand rfl).1)
  | _ => exact unfilled

end Rendezvous

namespace MutatorSystem

variable {schedule : Nat → Nat} {n : Nat}

lemma Starts.size_run (starts : s.Starts p held) (schedule : Nat → Nat) (n : Nat) :
    (s.run p schedule n).threads.size = s.threads.size := by
  induction n with
  | zero => rfl
  | succ n ih =>
    obtain ⟨phase, inv⟩ := starts.rendezvous schedule n
    rcases inv.step_cases starts.lawful (schedule n) with same | ⟨t, g, t', _, _, _, eq⟩
    · rw [run, same]
      exact ih
    · rw [run, eq, size_changed]
      exact ih

lemma Starts.unfilled (starts : s.Starts p held) (schedule : Nat → Nat) (n : Nat) :
    (s.run p schedule n).barrier.arrived = 0 ∨
      (s.run p schedule n).barrier.arrived < (s.run p schedule n).word.remaining := by
  induction n with
  | zero =>
    obtain ⟨_, _, _, _, _, rfl⟩ := starts.start
    exact .inl rfl
  | succ n ih =>
    obtain ⟨phase, inv⟩ := starts.rendezvous schedule n
    rcases inv.step_cases starts.lawful (schedule n) with same | ⟨t, g, t', here, change, _, eq⟩
    · rw [run, same]
      exact ih
    · rw [run, eq]
      exact inv.unfilled_change here change ih

/-- From this time on the measure falls no more. -/
def Settled (p : Program α ω σ) (rank : σ → W) (schedule : Nat → Nat) (s : MutatorSystem α ω σ)
    (n : Nat) : Prop :=
  ∀ m, n ≤ m → (s.run p schedule m).unrest rank = (s.run p schedule n).unrest rank

lemma Starts.turn (starts : s.Starts p held) (progress : p.Progresses held rank)
    (here : (s.run p schedule n).threads[schedule n]? = some t) :
    (s.run p schedule n).Turn p rank (schedule n) t (s.run p schedule (n + 1)) := by
  obtain ⟨phase, inv⟩ := starts.rendezvous schedule n
  refine turn_step progress here (starts.follows schedule n _ t here) ?_
  rintro e departs
  have place := inv.stages _ t here
  rw [departs] at place
  have now : phase = .apart := by cases phase <;> first | rfl | cases place
  exact inv.idle now

/-- The measure stays or falls. -/
lemma Starts.calmer_or_eq (starts : s.Starts p held) (progress : p.Progresses held rank) (n : Nat) :
    Calmer rank (s.run p schedule (n + 1)) (s.run p schedule n) ∨
      (s.run p schedule (n + 1)).unrest rank = (s.run p schedule n).unrest rank := by
  cases here : (s.run p schedule n).threads[schedule n]? with
  | none =>
    right
    rw [run, step_of_none here]
  | some t =>
    have turn := starts.turn progress here
    generalize s.run p schedule (n + 1) = after at turn
    cases turn with
    | stays => exact .inr rfl
    | polls polls => exact .inr (unrest_polls here polls)
    | advances advances => exact .inl (calmer_of_advances here advances)

lemma Starts.exists_settled [WellFoundedLT W] (starts : s.Starts p held)
    (progress : p.Progresses held rank) (schedule : Nat → Nat) :
    ∃ n, s.Settled p rank schedule n := by
  obtain ⟨_, ⟨n, rfl⟩, least⟩ := (wellFounded_calmer rank).has_min
    (Set.range fun n => s.run p schedule n) (Set.range_nonempty _)
  refine ⟨n, fun m later => ?_⟩
  induction m, later using Nat.le_induction with
  | base => rfl
  | succ m _ ih =>
    refine ((starts.calmer_or_eq progress m).resolve_left fun calmer => ?_).trans ih
    refine least _ ⟨m + 1, rfl⟩ ?_
    rw [Calmer] at calmer ⊢
    rwa [ih] at calmer

/-- A step at rest: nothing happens, or a thread polls. -/
lemma Settled.step_cases [WellFoundedLT W] (settled : s.Settled p rank schedule n)
    (starts : s.Starts p held) (progress : p.Progresses held rank) {m : Nat} (later : n ≤ m)
    (here : (s.run p schedule m).threads[schedule m]? = some t) :
    (t.Stays p (s.run p schedule m).word (s.run p schedule m).barrier.sense ∧
        s.run p schedule (m + 1) = s.run p schedule m) ∨
      ∃ shared t', t.Polls p rank (s.run p schedule m).word (s.run p schedule m).shared t' ∧
        s.run p schedule (m + 1) =
          (s.run p schedule m).changed (schedule m) { (s.run p schedule m).common with shared } t' := by
  have turn := starts.turn progress here
  generalize after_eq : s.run p schedule (m + 1) = after at turn
  cases turn with
  | stays stays => exact .inl ⟨stays, rfl⟩
  | polls polls => exact .inr ⟨_, _, polls, rfl⟩
  | advances advances =>
    have calmer := calmer_of_advances here advances
    rw [← after_eq, Calmer, settled (m + 1) (Nat.le_succ_of_le later), ← settled m later] at calmer
    exact absurd calmer ((wellFounded_calmer rank).irrefl.irrefl _)

/-- At rest neither the word nor the barrier changes, and nothing of a thread that has no turn. -/
lemma Settled.unchanged [WellFoundedLT W] (settled : s.Settled p rank schedule n)
    (starts : s.Starts p held) (progress : p.Progresses held rank) {m : Nat} (later : n ≤ m) :
    (s.run p schedule m).word = (s.run p schedule n).word ∧
      (s.run p schedule m).barrier = (s.run p schedule n).barrier ∧
      ∀ i, (∀ l, n ≤ l → l < m → schedule l ≠ i) →
        (s.run p schedule m).threads[i]? = (s.run p schedule n).threads[i]? := by
  induction m, later using Nat.le_induction with
  | base => exact ⟨rfl, rfl, fun _ _ => rfl⟩
  | succ m later ih =>
    obtain ⟨word, barrier, threads⟩ := ih
    have others : ∀ i, (∀ l, n ≤ l → l < m + 1 → schedule l ≠ i) →
        (s.run p schedule m).threads[i]? = (s.run p schedule n).threads[i]? := fun i no_turn =>
      threads i fun l lower upper => no_turn l lower (Nat.lt_succ_of_lt upper)
    cases here : (s.run p schedule m).threads[schedule m]? with
    | none =>
      rw [run, step_of_none here]
      exact ⟨word, barrier, others⟩
    | some t =>
      rcases settled.step_cases starts progress later here with ⟨_, same⟩ | ⟨_, t', _, eq⟩
      · rw [same]
        exact ⟨word, barrier, others⟩
      · rw [eq]
        refine ⟨word, barrier, fun i no_turn => ?_⟩
        rw [getElem?_changed here, if_neg (no_turn m later m.lt_succ_self)]
        exact others i no_turn

omit [PartialOrder W] in
lemma Settled.later (settled : s.Settled p rank schedule n) {m : Nat} (later : n ≤ m) :
    s.Settled p rank schedule m :=
  fun l latest => (settled l (later.trans latest)).trans (settled m later).symm

/-- The thread will poll at its next turn. -/
def PollsNext (p : Program α ω σ) (rank : σ → W) (schedule : Nat → Nat) (s : MutatorSystem α ω σ)
    (n i : Nat) (t : MutatorThread α σ) : Prop :=
  ∃ m t', n ≤ m ∧ t.Polls p rank (s.run p schedule n).word (s.run p schedule m).shared t' ∧
    (s.run p schedule (m + 1)).threads[i]? = some t'

/-- At rest a thread stays where it is, or polls at its next turn. -/
lemma Settled.stays_or_polls [WellFoundedLT W] (settled : s.Settled p rank schedule n)
    (starts : s.Starts p held) (progress : p.Progresses held rank)
    (fair : Fair s.threads.size schedule)
    (here : (s.run p schedule n).threads[i]? = some t) :
    t.Stays p (s.run p schedule n).word (s.run p schedule n).barrier.sense ∨
      s.PollsNext p rank schedule n i t := by
  have known : i < s.threads.size := by
    rw [← starts.size_run schedule n]
    exact (Array.getElem?_eq_some_iff.mp here).1
  -- until its next turn the thread stands where it stands now
  obtain ⟨m, later, turn, before⟩ := fair.exists_next known n
  obtain ⟨word, barrier, threads⟩ := settled.unchanged starts progress later
  have there := (threads i before).trans here
  subst turn
  rcases settled.step_cases starts progress later there with ⟨stays, _⟩ | ⟨_, t', polls, eq⟩
  · rw [word, barrier] at stays
    exact .inl stays
  · rw [word] at polls
    refine .inr ⟨m, t', later, polls, ?_⟩
    rw [eq, getElem?_changed there, if_pos rfl]

/-- While a cycle is requested nobody polls. -/
lemma Settled.stays_of_requested [WellFoundedLT W] (settled : s.Settled p rank schedule n)
    (starts : s.Starts p held) (progress : p.Progresses held rank)
    (fair : Fair s.threads.size schedule)
    (requested : (s.run p schedule n).word.isRequested = true)
    (here : (s.run p schedule n).threads[i]? = some t) :
    t.Stays p (s.run p schedule n).word (s.run p schedule n).barrier.sense := by
  refine (settled.stays_or_polls starts progress fair here).resolve_right ?_
  rintro ⟨m, ⟨own', stage'⟩, later, ⟨_, between, _, how⟩, there⟩
  obtain rfl : stage' = .between := between
  rcases how with ⟨_, idle⟩ | ⟨_, next, _, _, safepoint⟩
  · rw [requested] at idle
    cases idle
  · have after := Nat.le_succ_of_le later
    have word := (settled.unchanged starts progress after).1
    change p.move own' = .safepoint next at safepoint
    rcases (settled.later after).stays_or_polls starts progress fair there with
      stays | ⟨_, _, _, ⟨_, _, _, again⟩, _⟩
    · rcases stays with ⟨_, halt⟩ | ⟨_, _, register, _⟩
      · rw [safepoint] at halt
        cases halt
      · rw [safepoint] at register
        cases register
    · rcases again with ⟨_, idle⟩ | ⟨_, _, update, _⟩
      · rw [word, requested] at idle
        cases idle
      · rw [safepoint] at update
        cases update

end MutatorSystem

namespace Rendezvous

open MutatorSystem

omit [Payload α] in
/-- Inside the rendezvous a thread waits at a barrier, if it is not about to leave. -/
lemma parked_of_stays {word : GcWord} {sense : Bool} {e : Errand α σ}
    (stays : t.Stays p word sense) (inside : t.stage.errand? = some e)
    (some_left : word.remaining ≠ 0) : t.stage.isParked sense = true := by
  obtain ⟨hold, refused⟩ := stays.refused fun between => by rw [between] at inside; cases inside
  obtain ⟨own, stage⟩ := t
  cases stage with
  | waiting found c n e =>
    obtain ⟨_, rfl⟩ : hold = .blocked ∧ found = sense := refused
    exact beq_self_eq_true _
  | waitingToLeave found e =>
    obtain ⟨_, rfl⟩ : hold = .blocked ∧ found = sense := refused
    exact beq_self_eq_true _
  | departing e => exact absurd (GcWord.depart_refused refused) some_left
  | between => cases inside
  | electing => cases inside
  | deregistering => cases inside
  | _ => exact refused.elim

omit [Payload α] in
/-- While a cycle is requested, a registered thread that stays does so at a barrier. -/
lemma parked_of_requested (lawful : p.Lawful held) (progress : p.Progresses held rank)
    (requested : s.word.isRequested = true) (some_left : s.word.remaining ≠ 0)
    (stays : t.Stays p s.word s.barrier.sense) (registered : 0 < held t.own) :
    t.stage.isParked s.barrier.sense = true := by
  obtain ⟨own, stage⟩ := t
  change 0 < held own at registered
  cases stage with
  | between =>
    rcases stays with ⟨_, halt⟩ | ⟨_, next, register, _⟩
    · rw [progress.halt own halt] at registered
      cases registered
    · have gains := lawful.register own next register
      have single := progress.single next
      omega
  | electing e =>
    obtain ⟨hold, refused⟩ := stays.refused nofun
    rw [(GcWord.start_refused refused).2.1] at requested
    cases requested
  | deregistering next =>
    obtain ⟨hold, refused⟩ := stays.refused nofun
    rw [(GcWord.deregister_refused refused).1] at requested
    cases requested
  | pressing => exact (stays.refused nofun).choose_spec.elim
  | growing => exact (stays.refused nofun).choose_spec.elim
  | claiming => exact (stays.refused nofun).choose_spec.elim
  | _ => exact parked_of_stays stays rfl some_left

/-- A registered thread can be taken off the count. -/
lemma registered_ne_zero (inv : Rendezvous p held phase s) (here : s.threads[i]? = some t)
    (registered : 0 < held t.own) : s.word.registered ≠ 0 := by
  have counted := le_total (fun u => held u.own) here
  rw [inv.registered] at counted
  change held t.own ≤ _ at counted
  omega

/-- A step is refused because of another thread, unless no more threads can be counted. -/
lemma refused_cases (inv : Rendezvous p held phase s) {hold : GcHold}
    (here : s.threads[i]? = some t) (refused : t.Refused p s.word s.barrier.sense hold) :
    hold = .blocked ∨ (hold = .threadOverflow ∧ s.word.registered + 1 = 2 ^ 24 ∧
      ∃ next, p.move t.own = .register next) := by
  have sane := inv.sane i t here
  obtain ⟨own, stage⟩ := t
  cases stage with
  | between =>
    obtain ⟨next, register, refused⟩ := refused
    exact (GcWord.register_refused refused).imp And.left
      fun ⟨overflow, full⟩ => ⟨overflow, full, next, register⟩
  | electing e => exact .inl (GcWord.start_refused refused).1
  | waiting found c n e => exact .inl refused.1
  | waitingToLeave found e => exact .inl refused.1
  | departing e =>
    have place := inv.stages i _ here
    cases phase with
    | apart => cases inv.all_out (GcWord.depart_refused refused) i _ here
    | gathering => cases place
    | assembled => cases place
  | deregistering next =>
    have loses : held next + 1 = held own := sane
    exact absurd (GcWord.deregister_refused refused).2
      (inv.registered_ne_zero here (loses ▸ Nat.succ_pos _))
  | _ => exact refused.elim

/-- Somebody takes part in a cycle. -/
lemma some_left (inv : Rendezvous p held phase s) (busy : phase ≠ .apart) :
    s.word.remaining ≠ 0 := by
  cases phase with
  | apart => exact absurd rfl busy
  | assembled => exact (inv.assembled rfl).1.ne'
  | gathering =>
    intro none_left
    have scanners := inv.gathering rfl
    have nobody : s.count Stage.isScanner = 0 := by
      refine total_eq_zero fun j u there => ?_
      have out : u.stage.inRendezvous = false := by
        by_contra inside
        have registered := registered_of_inRendezvous (inv.sane j u there) (Bool.not_eq_false _ ▸ inside)
        have positive := inv.remaining_pos nofun there registered
        omega
      rw [(Stage.idle_of_errand?_eq_none (Stage.errand?_eq_none_of_inRendezvous out)).2.2.1]
      rfl
    omega

/-- Somebody who takes part has not arrived yet. -/
lemma not_all_parked (inv : Rendezvous p held phase s) (busy : phase ≠ .apart)
    (single : ∀ own, held own ≤ 1)
    (unfilled : s.barrier.arrived = 0 ∨ s.barrier.arrived < s.word.remaining) :
    ¬ ∀ (j : Nat) u, s.threads[j]? = some u → 0 < held u.own →
      u.stage.isParked s.barrier.sense = true := by
  intro all
  have some_left := inv.some_left busy
  have everyone : s.total (fun t => held t.own) = s.count (Stage.isParked s.barrier.sense) := by
    refine total_congr fun j u there => ?_
    have at_most := single u.own
    cases parked : u.stage.isParked s.barrier.sense with
    | false =>
      by_contra registered
      rw [all j u there (Nat.pos_of_ne_zero registered)] at parked
      cases parked
    | true =>
      have inside : u.stage.inRendezvous = true := by
        by_contra out
        have idle := Stage.idle_of_errand?_eq_none
          (Stage.errand?_eq_none_of_inRendezvous (Bool.eq_false_iff.mpr out))
        rw [idle.2.2.2] at parked
        cases parked
      have registered := registered_of_inRendezvous (inv.sane j u there) inside
      exact Nat.le_antisymm at_most registered
  have remaining := inv.remaining
  rw [if_neg busy, everyone, inv.arrived] at remaining
  omega

end Rendezvous

namespace MutatorSystem

/-- A thread that is not registered leaves room for its registration. -/
lemma Starts.registered_lt (starts : s.Starts p held) (single : ∀ own, held own ≤ 1)
    (here : (s.run p schedule n).threads[i]? = some t) (unregistered : held t.own = 0) :
    (s.run p schedule n).word.registered < s.threads.size := by
  obtain ⟨phase, inv⟩ := starts.rendezvous schedule n
  have fewer : (s.run p schedule n).total (fun t => held t.own) <
      (s.run p schedule n).total fun _ => 1 :=
    List.sum_lt_sum _ _ (fun u _ => single u.own)
      ⟨t, mem_threads.mpr ⟨i, here⟩, by rw [unregistered]; decide⟩
  rwa [inv.registered, total, List.map_const', List.sum_replicate, Array.length_toList,
    starts.size_run, smul_eq_mul, Nat.mul_one] at fewer

/-- Threads that can be counted do not fail at a count. -/
theorem Starts.failure?_eq_none (starts : s.Starts p held)
    (single : ∀ own, held own ≤ 1) (few : s.threads.size < 2 ^ 24) (schedule : Nat → Nat)
    (n i : Nat) : (s.run p schedule n).failure? p i = none := by
  obtain ⟨phase, inv⟩ := starts.rendezvous schedule n
  cases here : (s.run p schedule n).threads[i]? with
  | none => rw [failure?, attempt, here]
  | some t =>
    rw [Option.eq_none_iff_forall_ne_some]
    intro text fails
    obtain ⟨hold, refused, reported⟩ := exists_refused_of_failure? here fails
    rcases inv.refused_cases here refused with rfl | ⟨_, full, next, register⟩
    · cases reported
    · have gains := starts.lawful.register t.own next register
      have at_most := single next
      have room := starts.registered_lt single here (by omega)
      omega

/-- No cycle is going on, and every thread has come to its end, is one too many, or polls. -/
structure AtRest (p : Program α ω σ) (rank : σ → W) (schedule : Nat → Nat)
    (s : MutatorSystem α ω σ) (n : Nat) : Prop where
  idle : (s.run p schedule n).word.isRequested = false
  left : (s.run p schedule n).word.remaining = 0
  threads : ∀ (i : Nat) t, (s.run p schedule n).threads[i]? = some t → t.stage = .between ∧
    (p.move t.own = .halt ∨
      (∃ next, p.move t.own = .register next ∧
        (s.run p schedule n).word.registered + 1 = 2 ^ 24) ∨
      s.PollsNext p rank schedule n i t)

variable [WellFoundedLT W]

lemma Settled.apart (settled : s.Settled p rank schedule n) (starts : s.Starts p held)
    (progress : p.Progresses held rank) (fair : Fair s.threads.size schedule) :
    Rendezvous p held .apart (s.run p schedule n) := by
  obtain ⟨phase, inv⟩ := starts.rendezvous schedule n
  have not_full := fun busy => inv.not_all_parked busy progress.single (starts.unfilled schedule n)
  cases phase with
  | apart => exact inv
  | gathering =>
    refine absurd (fun j u there registered => ?_) (not_full nofun)
    have stays := settled.stays_of_requested starts progress fair inv.requested there
    exact Rendezvous.parked_of_requested starts.lawful progress inv.requested
      (inv.some_left nofun) stays registered
  | assembled =>
    refine absurd (fun j u there registered => ?_) (not_full nofun)
    obtain ⟨e, inside⟩ := (inv.registered_iff there).mp registered
    rcases settled.stays_or_polls starts progress fair there with stays |
      ⟨_, _, _, ⟨between, _⟩, _⟩
    · exact Rendezvous.parked_of_stays stays inside (inv.some_left nofun)
    · rw [between] at inside
      cases inside

lemma Settled.atRest (settled : s.Settled p rank schedule n) (starts : s.Starts p held)
    (progress : p.Progresses held rank) (fair : Fair s.threads.size schedule) :
    s.AtRest p rank schedule n := by
  have inv := settled.apart starts progress fair
  have all_out : ∀ (j : Nat) u, (s.run p schedule n).threads[j]? = some u →
      u.stage.inRendezvous = false := by
    intro j u there
    by_contra inside
    obtain ⟨e, inside'⟩ := Option.isSome_iff_exists.mp (Bool.not_eq_false _ ▸ inside)
    have some_left : (s.run p schedule n).word.remaining ≠ 0 := by
      intro none_left
      rw [inv.all_out none_left j u there] at inside'
      cases inside'
    rcases settled.stays_or_polls starts progress fair there with stays |
      ⟨_, _, _, ⟨between, _⟩, _⟩
    · have parked := Rendezvous.parked_of_stays stays inside' some_left
      rw [(Stage.idle_of_admits_apart (inv.stages j u there)).2.2] at parked
      cases parked
    · rw [between] at inside'
      cases inside'
  have left : (s.run p schedule n).word.remaining = 0 := by
    rw [inv.remaining, if_pos rfl]
    exact total_eq_zero fun j u there => congrArg Bool.toNat (all_out j u there)
  refine ⟨inv.idle rfl, left, fun i t here => ?_⟩
  rcases settled.stays_or_polls starts progress fair here with stays | ⟨m, t', later, polls, there⟩
  · obtain ⟨own, stage⟩ := t
    have out := all_out i _ here
    cases stage with
    | between =>
      refine ⟨rfl, stays.imp And.right fun ⟨hold, next, register, refused⟩ =>
        .inl ⟨next, register, ?_⟩⟩
      rcases GcWord.register_refused refused with ⟨_, requested | some_left⟩ | ⟨_, full⟩
      · rw [inv.idle rfl] at requested
        cases requested
      · exact absurd left some_left
      · exact full
    | electing e =>
      obtain ⟨hold, refused⟩ := stays.refused nofun
      exact absurd left (GcWord.start_refused refused).2.2
    | deregistering next =>
      obtain ⟨hold, refused⟩ := stays.refused nofun
      have loses : held next + 1 = held own := inv.sane i _ here
      exact absurd (GcWord.deregister_refused refused).2
        (inv.registered_ne_zero here (loses ▸ Nat.succ_pos _))
    | pressing => exact (stays.refused nofun).choose_spec.elim
    | growing => exact (stays.refused nofun).choose_spec.elim
    | claiming => exact (stays.refused nofun).choose_spec.elim
    | _ => cases out
  · exact ⟨polls.1, .inr (.inr ⟨m, t', later, polls, there⟩)⟩

/-- Under a fair schedule the threads come to rest for good. -/
theorem Starts.comesToRest (starts : s.Starts p held) (progress : p.Progresses held rank)
    (fair : Fair s.threads.size schedule) :
    ∃ n, ∀ m, n ≤ m → s.AtRest p rank schedule m := by
  obtain ⟨n, settled⟩ := starts.exists_settled progress schedule
  exact ⟨n, fun m later => (settled.later later).atRest starts progress fair⟩

end MutatorSystem

end CellMachine
