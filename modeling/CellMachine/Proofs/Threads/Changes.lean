import CellMachine.Proofs.Heap.Reachable
import CellMachine.Proofs.Threads.Transitions

/-!
# Changes of a lawful program

A program is lawful if each thread uses the heap only through registrations it holds:
it registers before it allocates, collects, polls or deregisters. Between these calls it
changes edges, flags, global roots and switches as it likes. Of the transitions of a lawful
program only those of the rendezvous are told apart: all that happens outside of it is one
change, which frees no cell.
-/

namespace CellMachine

variable {α ω σ : Type} [Payload α]

/-- The number of registrations that a thread holds follows its calls. -/
structure Program.Lawful (p : Program α ω σ) (held : σ → Nat) : Prop where
  register : ∀ own next, p.move own = .register next → held next = held own + 1
  allocate : ∀ own payload next, p.move own = .allocate payload next →
    0 < held own ∧ ∀ result, held (next result) = held own
  collect : ∀ own next, p.move own = .collect next →
    0 < held own ∧ ∀ done, held (next done) = held own
  safepoint : ∀ own next, p.move own = .safepoint next → 0 < held own ∧ held next = held own
  update : ∀ own act, p.move own = .update act → ∀ shared,
    held (act shared).1 = held own ∧
    Relation.ReflTransGen Heap.Touch shared.heap (act shared).2.heap
  deregister : ∀ own next, p.move own = .deregister next → held next + 1 = held own

namespace Errand

/-- The call that led here will keep or give up registrations as it should. -/
def Sane (held : σ → Nat) (h : Heap α) (own : σ) : Errand α σ → Prop
  | safepoint next => held next = held own
  | beforeAllocation _ next => ∀ result, held (next result) = held own
  | shortage c payload next =>
    h.classOf payload = .ok c ∧ ∀ result, held (next result) = held own
  | collection next => ∀ done, held (next done) = held own
  | departure next => held next + 1 = held own

end Errand

/-- A thread is in the middle of a call only with a registration, and the call will keep or
give up registrations as it should. -/
def MutatorThread.Sane (held : σ → Nat) (h : Heap α) : MutatorThread α σ → Prop
  | ⟨_, .between⟩ => True
  | ⟨own, .pressing _ next⟩ => 0 < held own ∧ ∀ result, held (next result) = held own
  | ⟨own, .growing c payload next⟩ | ⟨own, .claiming c payload next⟩ =>
    0 < held own ∧ h.classOf payload = .ok c ∧ ∀ result, held (next result) = held own
  | ⟨own, .deregistering next⟩ => held next + 1 = held own
  | ⟨own, .electing e⟩ | ⟨own, .joining _ e⟩ | ⟨own, .submitting _ _ e⟩ | ⟨own, .arriving _ _ e⟩
  | ⟨own, .waiting _ _ _ e⟩ | ⟨own, .collecting _ e⟩ | ⟨own, .finishing _ e⟩
  | ⟨own, .leaving _ e⟩ | ⟨own, .waitingToLeave _ e⟩ | ⟨own, .departing e⟩ =>
    0 < held own ∧ e.Sane held h own

lemma Errand.Sane.congr {held : σ → Nat} {h h' : Heap α} (same : h'.settings = h.settings)
    {own : σ} {e : Errand α σ} (sane : e.Sane held h own) : e.Sane held h' own := by
  cases e with
  | shortage c payload next => exact ⟨(Heap.classOf_congr same payload).trans sane.1, sane.2⟩
  | _ => exact sane

lemma MutatorThread.Sane.congr {held : σ → Nat} {h h' : Heap α} (same : h'.settings = h.settings)
    {t : MutatorThread α σ} (sane : t.Sane held h) : t.Sane held h' := by
  obtain ⟨own, stage⟩ := t
  cases stage with
  | between => exact sane
  | pressing => exact sane
  | deregistering => exact sane
  | growing c payload =>
    exact ⟨sane.1, (Heap.classOf_congr same payload).trans sane.2.1, sane.2.2⟩
  | claiming c payload =>
    exact ⟨sane.1, (Heap.classOf_congr same payload).trans sane.2.1, sane.2.2⟩
  | _ => exact ⟨sane.1, sane.2.congr same⟩

/-- A thread in the rendezvous holds a registration. -/
lemma MutatorThread.Sane.of_errand {held : σ → Nat} {h : Heap α} {own : σ} {stage : Stage α σ}
    {e : Errand α σ} (sane : MutatorThread.Sane held h ⟨own, stage⟩) (here : stage.errand? = some e) :
    0 < held own ∧ e.Sane held h own := by
  cases stage <;> cases here <;> exact sane

lemma Errand.sane_after {held : σ → Nat} {h : Heap α} {own : σ} {e : Errand α σ}
    (registered : 0 < held own) (sane : e.Sane held h own) :
    (e.after own).Sane held h ∧ held (e.after own).own = held own ∧
      (e.after own).stage.errand? = none := by
  cases e with
  | safepoint next => exact ⟨trivial, sane, rfl⟩
  | beforeAllocation payload next => exact ⟨⟨registered, sane⟩, rfl, rfl⟩
  | shortage c payload next => exact ⟨⟨registered, sane⟩, rfl, rfl⟩
  | collection next => exact ⟨trivial, sane true, rfl⟩
  | departure next => exact ⟨sane, rfl, rfl⟩

/-- A thread that goes on without a collection goes on as it would after one. -/
lemma Errand.sane_forgone {held : σ → Nat} {h : Heap α} {own : σ} {e : Errand α σ}
    (registered : 0 < held own) (sane : e.Sane held h own) :
    (e.forgone own).Sane held h ∧ held (e.forgone own).own = held own ∧
      (e.forgone own).stage.errand? = none := by
  cases e with
  | collection next => exact ⟨trivial, sane false, rfl⟩
  | safepoint next => exact sane_after (e := .safepoint next) registered sane
  | beforeAllocation payload next =>
    exact sane_after (e := .beforeAllocation payload next) registered sane
  | shortage c payload next => exact sane_after (e := .shortage c payload next) registered sane
  | departure next => exact sane_after (e := .departure next) registered sane

/-- What one step does to the moving thread and to what the threads have in common. -/
inductive Change (p : Program α ω σ) (held : σ → Nat) :
    Common α ω → MutatorThread α σ → Common α ω → MutatorThread α σ → Prop where
  /-- Outside the rendezvous; no cell is freed. -/
  | outside {g : Common α ω} {t t' : MutatorThread α σ} {shared : Shared α ω}
      (before : t.stage.errand? = none) (after : t'.stage.errand? = none)
      (same : held t'.own = held t.own)
      (mutations : Relation.ReflTransGen Heap.Mutation g.shared.heap shared.heap) :
      Change p held g t { g with shared } t'
  | register {g : Common α ω} {own next : σ} {word : GcWord} (gains : held next = held own + 1)
      (ok : g.word.register = .ok word) :
      Change p held g ⟨own, .between⟩ { g with word } ⟨next, .between⟩
  | deregister {g : Common α ω} {own next : σ} {word : GcWord} (loses : held next + 1 = held own)
      (ok : g.word.deregister = .ok (true, word)) :
      Change p held g ⟨own, .deregistering next⟩ { g with word } ⟨next, .between⟩
  | join {g : Common α ω} {own : σ} {stage : Stage α σ} {e : Errand α σ}
      (before : stage.errand? = none) (registered : 0 < held own)
      (requested : g.word.isRequested = true) :
      Change p held g ⟨own, stage⟩ g ⟨own, .joining false e⟩
  | elect {g : Common α ω} {own : σ} {e : Errand α σ} {election : Election} {word : GcWord}
      (registered : 0 < held own) (ok : g.word.start = .ok (election, word)) :
      Change p held g ⟨own, .electing e⟩ { g with word } ⟨own, .joining election.coordinator e⟩
  | prepare {g : Common α ω} {own : σ} {c : Bool} {e : Errand α σ} {parties : UInt64}
      (active : g.word.activeParticipants? = some parties) :
      Change p held g ⟨own, .joining c e⟩ g ⟨own, .submitting c parties.toNat e⟩
  /-- The cycle is over before the thread has joined it. -/
  | skip {g : Common α ω} {own : σ} {c : Bool} {e : Errand α σ}
      (idle : g.word.activeParticipants? = none) :
      Change p held g ⟨own, .joining c e⟩ g (e.after own)
  | submit {g : Common α ω} {own : σ} {c : Bool} {n : Nat} {e : Errand α σ} :
      Change p held g ⟨own, .submitting c n e⟩ { g with inputs := e.rootSet p own :: g.inputs }
        ⟨own, .arriving c n e⟩
  | arriveLast {g : Common α ω} {own : σ} {c : Bool} {n : Nat} {e : Errand α σ}
      (last : g.barrier.arrived + 1 = n) :
      Change p held g ⟨own, .arriving c n e⟩ { g with barrier := ⟨0, !g.barrier.sense⟩ }
        ⟨own, .passed c n e⟩
  | arrive {g : Common α ω} {own : σ} {c : Bool} {n : Nat} {e : Errand α σ}
      (more : g.barrier.arrived + 1 ≠ n) :
      Change p held g ⟨own, .arriving c n e⟩
        { g with barrier := ⟨g.barrier.arrived + 1, g.barrier.sense⟩ }
        ⟨own, .waiting g.barrier.sense c n e⟩
  | pass {g : Common α ω} {own : σ} {found c : Bool} {n : Nat} {e : Errand α σ}
      (free : found = !g.barrier.sense) :
      Change p held g ⟨own, .waiting found c n e⟩ g ⟨own, .passed c n e⟩
  | collect {g : Common α ω} {own : σ} {n : Nat} {e : Errand α σ} :
      Change p held g ⟨own, .collecting n e⟩
        { g with
          shared := { g.shared with heap := g.shared.heap.runCycle g.inputs.reverse }
          inputs := [] }
        ⟨own, .finishing n e⟩
  | finish {g : Common α ω} {own : σ} {n : Nat} {e : Errand α σ} :
      Change p held g ⟨own, .finishing n e⟩ { g with word := g.word.finish } ⟨own, .leaving n e⟩
  | leaveLast {g : Common α ω} {own : σ} {n : Nat} {e : Errand α σ}
      (last : g.barrier.arrived + 1 = n) :
      Change p held g ⟨own, .leaving n e⟩ { g with barrier := ⟨0, !g.barrier.sense⟩ }
        ⟨own, .departing e⟩
  | leave {g : Common α ω} {own : σ} {n : Nat} {e : Errand α σ}
      (more : g.barrier.arrived + 1 ≠ n) :
      Change p held g ⟨own, .leaving n e⟩
        { g with barrier := ⟨g.barrier.arrived + 1, g.barrier.sense⟩ }
        ⟨own, .waitingToLeave g.barrier.sense e⟩
  | passOut {g : Common α ω} {own : σ} {found : Bool} {e : Errand α σ}
      (free : found = !g.barrier.sense) :
      Change p held g ⟨own, .waitingToLeave found e⟩ g ⟨own, .departing e⟩
  | depart {g : Common α ω} {own : σ} {e : Errand α σ} {word : GcWord}
      (ok : g.word.depart = .ok word) :
      Change p held g ⟨own, .departing e⟩ { g with word } (e.after own)

namespace Transition

variable {p : Program α ω σ} {held : σ → Nat} {g g' : Common α ω} {t t' : MutatorThread α σ}

lemma sane_passed {h : Heap α} {own : σ} {c : Bool} {n : Nat} {e : Errand α σ}
    (sane : 0 < held own ∧ e.Sane held h own) :
    MutatorThread.Sane held h ⟨own, .passed c n e⟩ := by
  cases c with
  | true => exact sane
  | false => exact sane

/-- The calls of a lawful program are sane, and they stay so. -/
lemma sane (transition : Transition p g t g' t') (lawful : p.Lawful held)
    (sound : g.shared.heap.Sound) (sane : t.Sane held g.shared.heap) :
    t'.Sane held g'.shared.heap := by
  cases transition with
  | register => trivial
  | refuse => trivial
  | allocate move => exact lawful.allocate _ _ _ move
  | allocateLater move => exact lawful.allocate _ _ _ move
  | demand move => exact lawful.collect _ _ move
  | poll => trivial
  | stop move => exact lawful.safepoint _ _ move
  | update => trivial
  | resign move => exact lawful.deregister _ _ move
  | fault => trivial
  | @prewarm own payload next c fits =>
    have mutation : Heap.Mutation g.shared.heap (g.shared.heap.prewarm c) := .prewarm _ c
    exact ⟨sane.1, (Heap.classOf_congr mutation.settings payload).trans fits, sane.2⟩
  | suffice fits => exact ⟨sane.1, fits, sane.2⟩
  | runShort fits => exact ⟨sane.1, fits, sane.2⟩
  | forgo => exact (Errand.sane_forgone sane.1 sane.2).1
  | elect => exact sane
  | prepare => exact sane
  | skip => exact (Errand.sane_after sane.1 sane.2).1
  | submit => exact sane
  | arriveLast => exact sane_passed sane
  | arrive => exact sane
  | pass => exact sane_passed sane
  | collect =>
    obtain ⟨_, _, _, frame⟩ := sound.runCycle_frame g.inputs.reverse
    have same : (g.shared.heap.runCycle g.inputs.reverse).settings = g.shared.heap.settings := by
      rw [frame]
    exact ⟨sane.1, sane.2.congr same⟩
  | finish => exact sane
  | leaveLast => exact sane
  | leave => exact sane
  | passOut => exact sane
  | depart => exact (Errand.sane_after sane.1 sane.2).1
  | @grow own c payload =>
    have mutation : Heap.Mutation g.shared.heap (g.shared.heap.grow c) := .grow _ c
    exact ⟨sane.1, (Heap.classOf_congr mutation.settings payload).trans sane.2.1, sane.2.2⟩
  | claim => trivial
  | deregister => trivial
  | @stay own next =>
    have loses : held next + 1 = held own := sane
    exact ⟨by omega, loses⟩

/-- A transition of a lawful program is one lawful change. -/
lemma change (transition : Transition p g t g' t') (lawful : p.Lawful held)
    (sane : t.Sane held g.shared.heap) : Change p held g t g' t' := by
  cases transition with
  | register move ok => exact .register (lawful.register _ _ move) ok
  | refuse move => exact .outside rfl rfl ((lawful.allocate _ _ _ move).2 _) .refl
  | allocate => exact .outside rfl rfl rfl .refl
  | allocateLater move requested => exact .join rfl (lawful.allocate _ _ _ move).1 requested
  | demand => exact .outside rfl rfl rfl .refl
  | poll move => exact .outside rfl rfl (lawful.safepoint _ _ move).2 .refl
  | stop move requested => exact .join rfl (lawful.safepoint _ _ move).1 requested
  | update move =>
    obtain ⟨keeps, touches⟩ := lawful.update _ _ move g.shared
    have mutations := Relation.ReflTransGen.mono (fun _ _ touch => Heap.Mutation.touch touch) _ _ touches
    exact .outside rfl rfl keeps mutations
  | resign => exact .outside rfl rfl rfl .refl
  | fault => exact .outside rfl rfl (sane.2 _) .refl
  | prewarm => exact .outside rfl rfl rfl (.single (.prewarm _ _))
  | suffice => exact .outside rfl rfl rfl .refl
  | runShort => exact .outside rfl rfl rfl .refl
  | forgo =>
    obtain ⟨_, same, out⟩ := Errand.sane_forgone sane.1 sane.2
    exact .outside rfl out same .refl
  | elect _ ok => exact .elect sane.1 ok
  | prepare active => exact .prepare active
  | skip idle => exact .skip idle
  | submit => exact .submit
  | arriveLast last => exact .arriveLast last
  | arrive more => exact .arrive more
  | pass free => exact .pass free
  | collect => exact .collect
  | finish => exact .finish
  | leaveLast last => exact .leaveLast last
  | leave more => exact .leave more
  | passOut free => exact .passOut free
  | depart ok => exact .depart ok
  | grow => exact .outside rfl rfl rfl (.single (.grow _ _))
  | claim => exact .outside rfl rfl (sane.2.2 _) (.single (.claim _ sane.2.1))
  | deregister ok => exact .deregister sane ok
  | @stay own next requested =>
    have loses : held next + 1 = held own := sane
    exact .join rfl (by omega) requested

end Transition

namespace MutatorSystem

/-- The step leaves the system alone, or one lawful change comes of it. -/
def Moves (p : Program α ω σ) (held : σ → Nat) (s : MutatorSystem α ω σ) (i : Nat)
    (t : MutatorThread α σ) (s' : MutatorSystem α ω σ) : Prop :=
  s' = s ∨ ∃ g t', Change p held s.common t g t' ∧ t'.Sane held g.shared.heap ∧
    s' = s.changed i g t'

/-- What a step of a thread of a lawful program can do. -/
lemma moves_step {p : Program α ω σ} {held : σ → Nat} (lawful : p.Lawful held)
    {s : MutatorSystem α ω σ} (sound : s.shared.heap.Sound) {i : Nat} {t : MutatorThread α σ}
    (here : s.threads[i]? = some t) (sane : t.Sane held s.shared.heap) :
    s.Moves p held i t (s.step p i) := by
  rcases takes_step (p := p) here with ⟨_, same⟩ | ⟨g, t', transition, eq⟩
  · exact .inl same
  · exact .inr ⟨g, t', transition.change lawful sane, transition.sane lawful sound sane, eq⟩

end MutatorSystem

end CellMachine
