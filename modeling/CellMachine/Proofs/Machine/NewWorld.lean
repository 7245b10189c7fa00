import CellMachine.Machine.World
import CellMachine.Proofs.Heap.Dangling

/-!
# A new world

A machine begins with three rooted cells. Nothing is interned and no global variable is bound.
-/

namespace CellMachine

lemma ok_of_bind {ε β γ : Type} {x : Except ε β} {f : β → Except ε γ} {z : γ}
    (done : x >>= f = .ok z) : ∃ y, x = .ok y ∧ f y = .ok z := by
  cases x with
  | error e => cases done
  | ok y => exact ⟨y, rfl, done⟩

lemma eq_ok_get {ε β : Type} {x : Except ε β} (made : x.toOption.isSome = true) :
    x = .ok (x.toOption.get made) := by
  cases x with
  | error e => cases made
  | ok y => rfl

namespace World

/-- How a world is made. -/
lemma create_spec {settings : Settings} {w : World} (made : World.create settings = .ok w) :
    ∃ empty nilCell one trueCell two falseCell heap, Heap.create settings = .ok empty ∧
      rooted empty .nilObject = .ok (nilCell, one) ∧ rooted one .trueObject = .ok (trueCell, two) ∧
      rooted two .falseObject = .ok (falseCell, heap) ∧
      w = ⟨heap, ⟨nilCell, trueCell, falseCell⟩, [], [], ⟨false, false, false⟩, 1⟩ := by
  obtain ⟨empty, created, made⟩ := ok_of_bind made
  obtain ⟨⟨nilCell, one⟩, first, made⟩ := ok_of_bind made
  obtain ⟨⟨trueCell, two⟩, second, made⟩ := ok_of_bind made
  obtain ⟨⟨falseCell, heap⟩, third, made⟩ := ok_of_bind made
  exact ⟨empty, nilCell, one, trueCell, two, falseCell, heap, created, first, second, third,
    (Except.ok.inj made).symm⟩

/-- The value lies in a global root or in a cell. -/
def Stores (w : World) (v : Value) : Prop :=
  v ∈ w.heap.globalRoots ∨ ∃ a o, w.heap.payload? a = some o ∧ v ∈ o.children

/-- Nothing is interned and no global variable is bound, and the heap has no dangling
reference. -/
structure Blank (w : World) : Prop where
  reachable : w.heap.Reachable
  symbols : w.symbols = []
  globals : w.globals = []
  stored : ∀ a, w.Stores (.ref a) → w.heap.isLive a

/-- A heap that a program may have made, without dangling references. -/
structure Unbroken (h : Heap Object) : Prop where
  reachable : h.Reachable
  tidy : (⟨h, #[]⟩ : HeapUser Object).Tidy

lemma Unbroken.rooted {h h' : Heap Object} {o : Object} {a : Address} (unbroken : Unbroken h)
    (leaf : o.children = []) (made : World.rooted h o = .ok (a, h')) : Unbroken h' := by
  let u : HeapUser Object := ⟨h, #[]⟩
  have reachable := unbroken.reachable.allocate [] o
  have tidy : (u.perform (.allocate o [])).Tidy := by
    refine unbroken.tidy.perform ?_
    change h.AllLive o.children
    rw [leaf]
    exact fun x mem => by cases mem
  rw [World.rooted] at made
  cases ran : h.allocate [] o with
  | mk result after =>
    rw [ran] at made reachable
    have heap : (u.perform (.allocate o [])).heap = after := congrArg Prod.snd ran
    cases result with
    | error f => cases made
    | ok b =>
      cases made
      have answer : u.made? (.allocate o []) = some a := by
        change (h.allocate [] o).1.toOption = _
        rw [ran]
        rfl
      have live := Heap.isLive_of_payload? (unbroken.tidy.made_spec answer).1
      refine ⟨reachable.step (.mutation (.touch (.addRoot after (.ref a)))), ?_⟩
      rw [← heap] at *
      have stores : (u.perform (.allocate o [])).StoresLive (.addGlobalRoot (.ref a)) := by
        intro x mem
        cases List.mem_singleton.mp mem
        exact live
      exact tidy.perform stores

lemma Unbroken.create {settings : Settings} {h : Heap Object}
    (made : Heap.create settings = .ok h) : Unbroken h := by
  have apart := apart_scatteredBlocks settings.sizeClasses.length
  have fresh : (⟨h, #[]⟩ : HeapUser Object).Fresh := ⟨_, settings, apart, made, rfl⟩
  exact ⟨.create apart made, fresh.tidy⟩

lemma blank_of_create {settings : Settings} {w : World} (made : World.create settings = .ok w) :
    w.Blank := by
  obtain ⟨empty, _, one, _, two, _, heap, created, first, second, third, rfl⟩ := create_spec made
  have unbroken : Unbroken heap :=
    (((Unbroken.create created).rooted rfl first).rooted rfl second).rooted rfl third
  refine ⟨unbroken.reachable, rfl, rfl, ?_⟩
  rintro a (global | ⟨b, o, here, child⟩)
  · exact unbroken.tidy.globals a global
  · exact unbroken.tidy.edges b o here a child

end World

end CellMachine
