import CellMachine.Machine.Computation
import CellMachine.Proofs.Threads.Pending

/-!
# Allocation of objects

A machine first takes the collection that a signal has asked for, with the argument stacks
as its roots, and then allocates from the heap, whose own collections count the values of
the object among the roots. The cells that the object refers to are kept by the latter; the
former drops those that neither the stacks nor the global roots lead to.
-/

namespace CellMachine

namespace World

variable {w : World}

/-- A collection that a signal has asked for comes before an allocation. -/
def collectsFirst (w : World) : Bool :=
  w.signals.installed && w.signals.collection && w.heap.gcEnabled

/-- What the stacks and the global roots lead to. -/
def ReachesFrom (argStacks : Stacks) (w : World) (x : Address) : Prop :=
  w.heap.Reaches (w.heap.cycleRoots (argStacks.map fun vs => references vs.toList)) x

/-- The heap after the collection that a signal has asked for. -/
def polledHeap (argStacks : Stacks) (w : World) : Heap Object :=
  if w.collectsFirst then w.heap.runCycle (argStacks.map fun vs => references vs.toList) else w.heap

/-- An allocation is the heap's own allocation, after the collection if there is one. -/
lemma allocate_eq (argStacks : Stacks) (o : Object) (w : World) :
    (w.allocate argStacks o).1 = ((w.polledHeap argStacks).allocate argStacks o).1 ∧
      (w.allocate argStacks o).2.heap = ((w.polledHeap argStacks).allocate argStacks o).2 := by
  obtain ⟨heap, singletons, symbols, globals, ⟨interrupt, collection, installed⟩, nextFrame⟩ := w
  cases installed with
  | false => exact ⟨rfl, rfl⟩
  | true =>
    cases collection with
    | false => exact ⟨rfl, rfl⟩
    | true =>
      rw [polledHeap, collectsFirst, allocate]
      simp only [pollCollection, takeCollection, collect, place, onHeap, Heap.collect,
        Bool.true_and, if_true]
      split
      · exact ⟨rfl, rfl⟩
      · exact ⟨rfl, rfl⟩

lemma sound_polledHeap (sound : w.heap.Sound) (argStacks : Stacks) : (w.polledHeap argStacks).Sound := by
  rw [polledHeap]
  split
  · exact sound.runCycle _
  · exact sound

lemma classOf_polledHeap (sound : w.heap.Sound) (argStacks : Stacks) (o : Object) :
    (w.polledHeap argStacks).classOf o = w.heap.classOf o := by
  rw [polledHeap]
  split
  · obtain ⟨_, _, _, frame⟩ := sound.runCycle_frame (argStacks.map fun vs => references vs.toList)
    have same : (w.heap.runCycle (argStacks.map fun vs => references vs.toList)).settings =
        w.heap.settings := by
      rw [frame]
    exact Heap.classOf_congr same o
  · rfl

/-- What is live after the collection that a signal has asked for. -/
lemma isLive_polledHeap_iff (sound : w.heap.Sound) {argStacks : Stacks} {x : Address}
    (live : w.heap.isLive x) :
    (w.polledHeap argStacks).isLive x ↔ (w.collectsFirst → w.ReachesFrom argStacks x) := by
  rw [polledHeap]
  split
  · rename_i first
    rw [sound.isLive_runCycle_iff]
    exact ⟨fun reached _ => reached, fun reaches => reaches first⟩
  · rename_i not_first
    exact ⟨fun _ first => absurd first not_first, fun _ => live⟩

end World

namespace Machine

variable {σ : Type} {m : Machine σ} {o : Object}

/-- An allocation returns the address of a cell with the object if it fits a class, and its
child is still there unless a collection comes first whose roots do not lead to it. The
object's own cell may be that of the child, taken again. -/
structure AllocatesExactly (m : Machine σ) (o : Object) : Prop where
  returns : (∃ a m', (VM.allocate o).run m = (.ok a, m')) ↔ ∃ c, m.world.heap.classOf o = .ok c
  placed : ∀ a m', (VM.allocate o).run m = (.ok a, m') → m'.world.heap.payload? a = some o
  children : ∀ a m', (VM.allocate o).run m = (.ok a, m') → ∀ x, Value.ref x ∈ Payload.children o →
    m.world.heap.isLive x → ((x ≠ a ∧ m'.world.heap.isLive x) ↔
      (m.world.collectsFirst → m.world.ReachesFrom m.argStacks x))

lemma run_allocate (m : Machine σ) (o : Object) :
    (VM.allocate o).run m =
      match (m.world.allocate m.argStacks o).1 with
      | .ok a => (.ok a, { m with world := (m.world.allocate m.argStacks o).2 })
      | .error f => (.error (.fault (.heap f)), { m with world := (m.world.allocate m.argStacks o).2 }) := by
  rw [VM.allocate, VM.run_bind, VM.run_inWorld]
  dsimp only
  cases (m.world.allocate m.argStacks o).1 with
  | ok a => rfl
  | error f => rfl

lemma run_allocate_of_error (sound : m.world.heap.Sound) {f : HeapFault}
    (unfit : m.world.heap.classOf o = .error f) :
    ∃ m', (VM.allocate o).run m = (.error (.fault (.heap f)), m') := by
  have unfit' := (World.classOf_polledHeap sound m.argStacks o).trans unfit
  have failed : (m.world.allocate m.argStacks o).1 = .error f := by
    rw [(World.allocate_eq m.argStacks o m.world).1, Heap.allocate, unfit']
  rw [run_allocate, failed]
  exact ⟨_, rfl⟩

lemma run_allocate_of_ok (sound : m.world.heap.Sound) {c : Nat}
    (fits : m.world.heap.classOf o = .ok c) :
    ∃ a m', (VM.allocate o).run m = (.ok a, m') ∧ m'.world.heap.payload? a = some o ∧
      ∀ x, Value.ref x ∈ Payload.children o → m.world.heap.isLive x →
        ((x ≠ a ∧ m'.world.heap.isLive x) ↔
          (m.world.collectsFirst → m.world.ReachesFrom m.argStacks x)) := by
  have fits' := (World.classOf_polledHeap sound m.argStacks o).trans fits
  obtain ⟨result, heap⟩ := World.allocate_eq m.argStacks o m.world
  obtain ⟨a, ok, _, placed, live⟩ :=
    (World.sound_polledHeap sound m.argStacks).allocate_spec fits' m.argStacks
  rw [run_allocate, result, ok]
  refine ⟨a, _, rfl, ?_, fun x child alive => ?_⟩
  · rw [heap]
    exact placed
  · rw [heap, live x child]
    exact World.isLive_polledHeap_iff sound alive

lemma allocatesExactly (reachable : m.world.heap.Reachable) (o : Object) : m.AllocatesExactly o := by
  have sound := reachable.sound
  cases fits : m.world.heap.classOf o with
  | error f =>
    obtain ⟨m₁, failed⟩ := run_allocate_of_error sound fits
    have unreturned : ∀ a m', (VM.allocate o).run m ≠ (.ok a, m') := by
      intro a m' returned
      rw [failed] at returned
      cases returned
    constructor
    · constructor
      · rintro ⟨a, m', returned⟩
        exact absurd returned (unreturned a m')
      · rintro ⟨c, fit⟩
        rw [fits] at fit
        cases fit
    · exact fun a m' returned => absurd returned (unreturned a m')
    · exact fun a m' returned => absurd returned (unreturned a m')
  | ok c =>
    obtain ⟨a₁, m₁, ran, placed, live⟩ := run_allocate_of_ok sound fits
    constructor
    · exact ⟨fun _ => ⟨c, fits⟩, fun _ => ⟨a₁, m₁, ran⟩⟩
    · intro a m' returned
      obtain ⟨rfl, rfl⟩ : a₁ = a ∧ m₁ = m' := by simpa using ran.symm.trans returned
      exact placed
    · intro a m' returned
      obtain ⟨rfl, rfl⟩ : a₁ = a ∧ m₁ = m' := by simpa using ran.symm.trans returned
      exact live

/-- An object keeps its children through all collections that its allocation takes part in,
whichever threads share the heap, but for the one that a signal has asked for. That one keeps
those that the stacks and the global roots lead to. -/
theorem allocate_children_exact (reachable : m.world.heap.Reachable) (o : Object) :
    m.AllocatesExactly o ∧
      ∀ (ω τ : Type) (p : Program Object ω τ) (held : τ → Nat), p.Lawful held →
      ∀ (world : ω) (threads : List τ), (∀ own ∈ threads, held own = 0) →
      ∀ schedule, (MutatorSystem.start m.world.heap world threads).KeepsPending p schedule := by
  constructor
  · exact allocatesExactly reachable o
  · intro ω τ p held lawful world threads unregistered schedule
    have starts : (MutatorSystem.start m.world.heap world threads).Starts p held :=
      ⟨lawful, m.world.heap, world, threads, reachable, unregistered, rfl⟩
    exact starts.keepsPending schedule

/-- A heap with one integer that nothing refers to. -/
def lone : Heap Object := ((Heap.oneClass : Heap Object).allocateIn 0 (.integer 7)).2

def loneCell : Address := lone.addressOf ⟨0, ⟨0, 0⟩⟩

/-- An array of that integer. -/
def holder : Object := .array #[.ref loneCell]

lemma reachable_lone : lone.Reachable :=
  Heap.reachable_oneClass.step (.mutation (.claim _ (by decide)))

/-- A signal has asked for a collection. -/
def signalled : Machine Unit where
  world :=
    { heap := lone
      singletons := default
      symbols := []
      globals := []
      signals := ⟨false, true, true⟩
      nextFrame := 1 }
  thread := .start ⟨0⟩ "main"
  waiting := []
  host := ()

/-- How far a thread is that collects, or else allocates the array. -/
inductive Lending where
  | arrives (collects : Bool)
  | registered (collects : Bool)
  | done

def lender : Program Object Unit Lending where
  roots _ := []
  move
    | .arrives collects => .register (.registered collects)
    | .registered true => .collect fun _ => .done
    | .registered false => .allocate holder fun _ => .done
    | .done => .halt

def lenderHeld : Lending → Nat
  | .arrives _ => 0
  | _ => 1

lemma lawful_lender : lender.Lawful lenderHeld := by
  constructor
  · rintro (collects | (_ | _) | _) next move <;> cases move
    rfl
  · rintro (collects | (_ | _) | _) payload next move <;> cases move
    exact ⟨by decide, fun _ => rfl⟩
  · rintro (collects | (_ | _) | _) next move <;> cases move
    exact ⟨by decide, fun _ => rfl⟩
  · rintro (collects | (_ | _) | _) next move <;> cases move
  · rintro (collects | (_ | _) | _) act move <;> cases move
  · rintro (collects | (_ | _) | _) next move <;> cases move

def lenders : MutatorSystem Object Unit Lending := .start lone () [.arrives true, .arrives false]

/-- The first thread is elected; the second meets the cycle when it is about to allocate. -/
def lending (n : Nat) : Nat :=
  [0, 1, 0, 0, 1, 1, 0, 1, 0, 1, 0, 1, 0, 0, 0, 0, 1, 1, 1, 1].getD n 0

/-- The allocation begins with the fifth step and is about to take its slot at the twentieth. -/
lemma allocates_lenders : ∀ l < 19, 4 < l → ((lenders.run lender lending l).threads[1]?.all
    fun t => t.stage.allocation?.isSome) = true := by
  decide +kernel

/-- The integer survives a cycle that the allocating thread takes part in, but not the one
that a signal has asked for: then the array takes its place. -/
theorem allocate_children_exact_lone :
    (signalled.world.heap.Reachable ∧ signalled.AllocatesExactly holder ∧
      signalled.world.heap.isLive loneCell ∧
      ∃ a m', (VM.allocate holder).run signalled = (.ok a, m') ∧
        ¬ (loneCell ≠ a ∧ m'.world.heap.isLive loneCell)) ∧
    (lender.Lawful lenderHeld ∧ lenders.KeepsPending lender lending ∧
      (lenders.run lender lending 12).Collects (lending 12) ∧
      (lenders.run lender lending 19).shared.heap.isLive loneCell) := by
  obtain ⟨exact_, keeps⟩ := allocate_children_exact (m := signalled) reachable_lone holder
  have live : lone.isLive loneCell := by decide +kernel
  have child : Value.ref loneCell ∈ Payload.children holder := List.mem_singleton_self _
  constructor
  · obtain ⟨a, m', returned⟩ := exact_.returns.mpr ⟨0, by decide⟩
    have blind : ∀ w ∈ lone.cycleRoots [[]], lone.cellFor? w = none := by
      rintro w (⟨roots, hroots, hw⟩ | global)
      · obtain rfl := List.mem_singleton.mp hroots
        cases hw
      · cases global
    refine ⟨reachable_lone, exact_, live, a, m', returned, fun kept => ?_⟩
    exact Heap.not_reaches blind _ ((exact_.children a m' returned _ child live).mp kept rfl)
  · have pending : lenders.KeepsPending lender lending :=
      keeps Unit Lending lender lenderHeld lawful_lender () _ (by simp [lenderHeld]) lending
    have began : (lenders.run lender lending 4).threads[1]? = some ⟨.registered false, .between⟩ :=
      rfl
    have collects : (lenders.run lender lending 12).Collects (lending 12) := ⟨_, _, _, rfl⟩
    refine ⟨lawful_lender, pending, collects,
      (pending 4 _ holder _ began rfl 19 (by decide) ?_).2 _ child live⟩
    intro l after before t here between
    have inside := allocates_lenders l before after
    change (lenders.run lender lending l).threads[1]? = some t at here
    rw [here, Option.all_some, between] at inside
    cases inside

end Machine

end CellMachine
