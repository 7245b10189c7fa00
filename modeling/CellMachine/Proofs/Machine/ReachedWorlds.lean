import CellMachine.Proofs.Machine.Bodies
import CellMachine.Proofs.Machine.FastPath
import CellMachine.Proofs.Machine.Survival
import CellMachine.Proofs.Threads.GlobalRoots
import CellMachine.Proofs.Workload.Knowledge

/-!
# Reached worlds

The worlds that a machine gets into: it starts with a new one, and each change afterwards is
one of those below, on behalf of any thread. Roots that the program registers itself are
counted apart from those of names and global variables, and only these are removed by it.

In all these worlds every object has a size class, the entries of every hash come from
insertions, the singletons are in their places and the table of names is in order.
-/

namespace CellMachine

namespace Object

/-- The entries of a hash come from insertions into an empty one. -/
def Formed (o : Object) : Prop := ∀ es, o = .hash es → ∃ ps, es = Entries.ofList ps

lemma Formed.of_hash? {o : Object} (other : o.hash? = none) : o.Formed := by
  rintro es rfl
  cases other

/-- A change that a program makes to an object, or a call to a block. -/
structure Gentle (f : Object → Object) : Prop where
  size : ∀ o, (f o).size = o.size
  formed : ∀ o : Object, o.Formed → (f o).Formed
  fixed : ∀ o : Object, o.IsFixed → f o = o

lemma gentle_edit (e : Edit) : Gentle e.apply := by
  constructor
  · intro o
    cases e <;> cases o <;> rfl
  · intro o formed es same
    cases e with
    | insert k v =>
      cases o with
      | hash entries =>
        obtain ⟨ps, rfl⟩ := formed entries rfl
        refine ⟨ps ++ [(k, v)], ?_⟩
        rw [← Object.hash.inj same, Entries.ofList, Entries.ofList, List.foldl_append]
        rfl
      | _ => cases same
    | _ =>
      cases o with
      | hash entries => exact formed es same
      | _ => cases same
  · intro o fixed
    cases o with
    | symbol name => cases e <;> rfl
    | nilObject => cases e <;> rfl
    | trueObject => cases e <;> rfl
    | falseObject => cases e <;> rfl
    | _ => cases fixed

end Object

namespace World

/-- One change of a world, and of the roots that the program has registered itself. -/
inductive Change (w : World) (extra : List Value) : World → List Value → Prop where
  | place (argStacks : Stacks) {o : Object} (formed : o.Formed) :
      Change w extra (w.place argStacks o).2 extra
  | collect (argStacks : Stacks) : Change w extra (w.collect argStacks).2 extra
  | modify (a : Address) {f : Object → Object} (gentle : Object.Gentle f) :
      Change w extra (w.modifyObject a f) extra
  | switch (on : Bool) :
      Change w extra (w.onHeap fun h => ((), if on then h.enable else h.disable)).2 extra
  | addRoot (v : Value) : Change w extra (w.addRoot v) ([v].filter Value.isRef ++ extra)
  | removeRoot {v : Value} (registered : v ∈ extra) :
      Change w extra (w.removeRoot v) (extra.erase v)
  | publish {name : String} {a : Address} (here : w.heap.payload? a = some (.symbol name)) :
      Change w extra (w.publish name a).2 extra
  | setGlobal (name : String) (v : Value) : Change w extra (w.setGlobal name v) extra
  | signals (signals : Signals) : Change w extra { w with signals } extra
  | freshFrame : Change w extra w.freshFrame.2 extra

/-- A world that a machine gets into, with the roots that the program has registered. -/
inductive Arises : World → List Value → Prop where
  | create {s : Settings} {w : World} (made : World.create s = .ok w) : Arises w []
  | change {w w' : World} {extra extra' : List Value} (before : Arises w extra)
      (change : w.Change extra w' extra') : Arises w' extra'

end World

namespace Heap

variable {h h' : Heap Object} {o : Object} {made : Set Object}

lemma exists_classOf_of_le {o' : Object} (le : o.size ≤ o'.size)
    (fits : ∃ c, h.classOf o' = .ok c) : ∃ c, h.classOf o = .ok c := by
  have aligned : ∀ o : Object, ¬ cellAlign < Payload.align o :=
    fun _ => (by decide : ¬ cellAlign < 8)
  obtain ⟨c, fits⟩ := fits
  simp only [classOf, Settings.classFor?] at fits ⊢
  rw [if_neg (aligned _)] at fits ⊢
  cases found : h.settings.sizeClasses.findIdx? (bytesFor o ≤ ·) with
  | some c => exact ⟨c, rfl⟩
  | none =>
    rw [List.findIdx?_eq_none_iff] at found
    have none' : h.settings.sizeClasses.findIdx? (bytesFor o' ≤ ·) = none := by
      rw [List.findIdx?_eq_none_iff]
      intro size mem
      have short := found size mem
      have le : bytesFor o ≤ bytesFor o' := Nat.add_le_add_left le cellHeader
      rw [decide_eq_false_iff_not] at short ⊢
      omega
    rw [none'] at fits
    cases fits

/-- Every object has a size class, and the entries of every hash come from insertions. -/
structure Furnished (h : Heap Object) : Prop where
  reachable : h.Reachable
  sized : ∀ a o, h.payload? a = some o → ∃ c, h.classOf o = .ok c
  formed : ∀ a o, h.payload? a = some o → o.Formed

namespace Furnished

/-- All that is new in a heap is furnished as the rest. -/
lemma preserves {vs : List Value} (furnished : h.Furnished) (reachable : h'.Reachable)
    (preserves : h.Preserves h' vs made)
    (new : ∀ o ∈ made, o.Formed ∧ ∃ c, h.classOf o = .ok c) : h'.Furnished := by
  refine ⟨reachable, fun a o here => ?_, fun a o here => ?_⟩
  · rw [classOf_congr preserves.settings]
    rcases preserves.origin a o here with old | fresh
    · exact furnished.sized a o old
    · exact (new o fresh).2
  · rcases preserves.origin a o here with old | fresh
    · exact furnished.formed a o old
    · exact (new o fresh).1

/-- So is what has been changed gently. -/
lemma modify (furnished : h.Furnished) (a : Address) {f : Object → Object}
    (gentle : Object.Gentle f) : (h.modifyPayload a f).Furnished := by
  have touched := (h.touches_modifyPayload a f).lift id fun _ _ touch => Mutation.touch touch
  have each : ∀ x o', (h.modifyPayload a f).payload? x = some o' →
      ∃ o, h.payload? x = some o ∧ (o' = o ∨ o' = f o) := by
    intro x o' here
    rw [furnished.reachable.sound.payload?_modifyPayload] at here
    split at here
    · obtain ⟨o, old, rfl⟩ := Option.map_eq_some_iff.mp here
      exact ⟨o, old, .inr rfl⟩
    · exact ⟨o', here, .inl rfl⟩
  refine ⟨furnished.reachable.mutations touched, fun x o' here => ?_, fun x o' here => ?_⟩
  · obtain ⟨o, old, same | same⟩ := each x o' here
    · rw [classOf_congr (h.modifyPayload_frame a f).1, same]
      exact furnished.sized x o old
    · rw [classOf_congr (h.modifyPayload_frame a f).1, same]
      exact exists_classOf_of_le (gentle.size o).le (furnished.sized x o old)
  · obtain ⟨o, old, rfl | rfl⟩ := each x o' here
    · exact furnished.formed x o' old
    · exact gentle.formed o (furnished.formed x o old)

/-- Nothing changes with the cells. -/
lemma touch (furnished : h.Furnished) (touches : Relation.ReflTransGen Touch h h')
    (payload : ∀ a, h'.payload? a = h.payload? a) : h'.Furnished := by
  have mutations : Relation.ReflTransGen Mutation h h' :=
    touches.lift id fun _ _ touch => .touch touch
  refine ⟨furnished.reachable.mutations mutations, fun a o here => ?_, fun a o here => ?_⟩
  · rw [classOf_congr (settings_of_mutations mutations)]
    exact furnished.sized a o ((payload a).symm.trans here)
  · exact furnished.formed a o ((payload a).symm.trans here)

end Furnished

/-- The object of an allocation has a class, or nothing is new. -/
lemma Sound.preserves_place (sound : h.Sound) (threads : List (Array Value)) (o : Object) :
    ∃ made : Set Object, h.Preserves (h.allocate threads o).2 (h.held threads) made ∧
      ∀ o' ∈ made, o' = o ∧ ∃ c, h.classOf o = .ok c := by
  cases fits : h.classOf o with
  | ok c =>
    refine ⟨{o}, (sound.preserves_allocate threads o).1, fun o' mem => ⟨mem, c, rfl⟩⟩
  | error f =>
    refine ⟨∅, ?_, fun o' mem => absurd mem (Set.notMem_empty o')⟩
    rw [Heap.allocate, fits]
    exact sound.preserves_refl _ _

end Heap

namespace World

/-- What holds in each world that a machine gets into. -/
structure Orderly (w : World) (extra : List Value) : Prop where
  furnished : w.heap.Furnished
  singletons : w.heap.payload? w.singletons.nilCell = some .nilObject ∧
    w.heap.payload? w.singletons.trueCell = some .trueObject ∧
    w.heap.payload? w.singletons.falseCell = some .falseObject
  interned : w.Interned (extra ++ w.singletonRoots)

namespace Orderly

variable {w w' : World} {extra extra' : List Value}

lemma sound (orderly : w.Orderly extra) : w.heap.Sound := orderly.furnished.reachable.sound

lemma mem_globalRoots (orderly : w.Orderly extra) {v : Value} (mem : v ∈ w.singletonRoots) :
    v ∈ w.heap.globalRoots :=
  orderly.interned.rooted.mem_iff.mpr (List.mem_append_left _ (List.mem_append_left _
    (List.mem_append_right _ mem)))

/-- A change of the heap that keeps its global roots, and the names and singletons among them. -/
lemma heap {h : Heap Object} (orderly : w.Orderly extra) (furnished : h.Furnished)
    (globals : h.globalRoots = w.heap.globalRoots)
    (payload : ∀ a o, .ref a ∈ w.heap.globalRoots → o.IsFixed → w.heap.payload? a = some o →
      h.payload? a = some o) : ({ w with heap := h } : World).Orderly extra := by
  obtain ⟨isNil, isTrue, isFalse⟩ := orderly.singletons
  refine ⟨furnished, ⟨?_, ?_, ?_⟩, ?_⟩
  · exact payload _ _ (orderly.mem_globalRoots (by simp [singletonRoots, Singletons.nil])) trivial
      isNil
  · exact payload _ _ (orderly.mem_globalRoots (by simp [singletonRoots, Singletons.ofBool])) trivial
      isTrue
  · exact payload _ _ (orderly.mem_globalRoots (by simp [singletonRoots, Singletons.ofBool])) trivial
      isFalse
  · refine orderly.interned.congr rfl rfl globals fun name a entry => ?_
    exact payload _ _ (orderly.interned.mem_globalRoots entry) trivial
      (orderly.interned.cells name a entry)

lemma preserves {h : Heap Object} {vs : List Value} {made : Set Object}
    (orderly : w.Orderly extra) (reachable : h.Reachable)
    (preserves : w.heap.Preserves h vs made) (rooted : w.heap.globalRoots ⊆ vs)
    (new : ∀ o ∈ made, o.Formed ∧ ∃ c, w.heap.classOf o = .ok c) :
    ({ w with heap := h } : World).Orderly extra := by
  refine orderly.heap (orderly.furnished.preserves reachable preserves new) preserves.globalRoots ?_
  intro a o mem _ here
  have kept : w.heap.Kept vs a := .value (rooted mem) (Heap.isLive_of_payload? here)
  exact (preserves.payload a kept).trans here

/-- A change of the global roots and of what is registered. -/
lemma touched (orderly : w.Orderly extra)
    (touches : Relation.ReflTransGen Heap.Touch w.heap w'.heap)
    (singletons : w'.singletons = w.singletons)
    (payload : ∀ x, w'.heap.payload? x = w.heap.payload? x)
    (interned : w'.Interned (extra' ++ w.singletonRoots)) : w'.Orderly extra' := by
  refine ⟨orderly.furnished.touch touches payload, ?_, ?_⟩
  · rw [singletons, payload, payload, payload]
    exact orderly.singletons
  · rw [singletonRoots, singletons]
    exact interned

/-- What one change preserves. -/
lemma change (orderly : w.Orderly extra) (change : w.Change extra w' extra') :
    w'.Orderly extra' := by
  have sound := orderly.sound
  cases change with
  | @place argStacks o formed =>
    obtain ⟨made, preserves, new⟩ := sound.preserves_place argStacks o
    have reachable := orderly.furnished.reachable.allocate argStacks o
    refine orderly.preserves reachable preserves (List.subset_append_right _ _) fun o' mem => ?_
    obtain ⟨rfl, fits⟩ := new o' mem
    exact ⟨formed, fits⟩
  | collect argStacks =>
    have submitted : ∀ a, .ref a ∈ w.heap.held argStacks →
        a ∈ w.heap.cycleRoots (argStacks.map fun vs => references vs.toList) := fun a mem =>
      Heap.mem_cycleRoots_of_held
        (fun stack own b there => ⟨_, List.mem_map_of_mem own, mem_references.mpr there⟩) mem
    have preserves := sound.preserves_collect submitted ∅
    have reachable : (w.heap.collect (argStacks.map fun vs => references vs.toList)).2.Reachable :=
      orderly.furnished.reachable.collect _
    exact orderly.preserves reachable preserves (List.subset_append_right _ _)
      fun o mem => absurd mem (Set.notMem_empty o)
  | @modify a f gentle =>
    refine orderly.heap (orderly.furnished.modify a gentle) (w.heap.modifyPayload_frame a f).2.1 ?_
    intro x o _ fixed here
    rw [sound.payload?_modifyPayload, here]
    split
    · exact congrArg some (gentle.fixed o fixed)
    · rfl
  | switch on =>
    have touches : Heap.Touch w.heap (if on then w.heap.enable else w.heap.disable) := by
      cases on with
      | true => exact .enable _
      | false => exact .disable _
    refine orderly.touched (.single touches) rfl (fun x => ?_) (orderly.interned.congr rfl rfl ?_ ?_)
    · cases on with
      | true => exact (Heap.cells_congr rfl x).2
      | false => exact (Heap.cells_congr rfl x).2
    · cases on <;> rfl
    · intro name a entry
      have here := orderly.interned.cells name a entry
      cases on with
      | true => exact (Heap.cells_congr rfl a).2.trans here
      | false => exact (Heap.cells_congr rfl a).2.trans here
  | addRoot v =>
    have payload := w.heap.payload?_addGlobalRoot v
    refine orderly.touched (.single (.addRoot _ v)) rfl payload ⟨orderly.interned.unique, ?_, ?_⟩
    · exact fun name a entry => (payload a).trans (orderly.interned.cells name a entry)
    · change (w.heap.addGlobalRoot v).globalRoots.Perm ([v].filter Value.isRef ++ extra ++
        w.singletonRoots ++ w.symbols.map (fun e => .ref e.2) ++
          (w.globals.map Prod.snd).filter Value.isRef)
      rw [Heap.globalRoots_addGlobalRoot]
      simpa only [List.append_assoc] using
        orderly.interned.rooted.append_left ([v].filter Value.isRef)
  | @removeRoot v registered =>
    have payload : ∀ a, (w.removeRoot v).heap.payload? a = w.heap.payload? a :=
      fun a => (Heap.cells_congr rfl a).2
    refine orderly.touched (.single (.removeRoot _ v)) rfl payload ⟨orderly.interned.unique, ?_, ?_⟩
    · exact fun name a entry => (payload a).trans (orderly.interned.cells name a entry)
    · have removed := orderly.interned.rooted.erase v
      rw [List.append_assoc, List.append_assoc, List.erase_append_left _ registered] at removed
      change (w.heap.globalRoots.erase v).Perm (extra.erase v ++ w.singletonRoots ++
        w.symbols.map (fun e => .ref e.2) ++ (w.globals.map Prod.snd).filter Value.isRef)
      simpa only [List.append_assoc] using removed
  | @publish name a here =>
    refine orderly.touched (Client.touches_publish w name a) ?_ (w.payload?_publish name a)
      (orderly.interned.publish here)
    rw [World.publish]
    cases w.symbol? name <;> rfl
  | setGlobal name v =>
    refine orderly.touched (Client.touches_setGlobal w name v) ?_
      (fun x => (w.setGlobal_frame name v x).1)
      (orderly.interned.setGlobal orderly.furnished.reachable name v)
    rw [World.setGlobal]
    cases w.global? name <;> rfl
  | signals signals =>
    exact ⟨orderly.furnished, orderly.singletons,
      orderly.interned.congr rfl rfl rfl orderly.interned.cells⟩
  | freshFrame =>
    exact ⟨orderly.furnished, orderly.singletons,
      orderly.interned.congr rfl rfl rfl orderly.interned.cells⟩

end Orderly

/-- A heap with some objects rooted for good. -/
structure Roots (h : Heap Object) (rooted : List (Address × Object)) : Prop where
  furnished : h.Furnished
  globals : h.globalRoots = rooted.map fun e => .ref e.1
  cells : ∀ e ∈ rooted, h.payload? e.1 = some e.2

lemma Roots.rooted {h h' : Heap Object} {rooted : List (Address × Object)} {o : Object} {a : Address}
    (roots : Roots h rooted) (formed : o.Formed) (made : World.rooted h o = .ok (a, h')) :
    Roots h' ((a, o) :: rooted) := by
  have sound := roots.furnished.reachable.sound
  obtain ⟨new, preserves, only⟩ := sound.preserves_place [] o
  have reachable := roots.furnished.reachable.allocate [] o
  rw [World.rooted] at made
  split at made
  · rename_i b after ran
    cases made
    rw [ran] at preserves reachable
    have fits : ∃ c, h.classOf o = .ok c := by
      cases fits : h.classOf o with
      | ok c => exact ⟨c, rfl⟩
      | error f =>
        rw [Heap.allocate, fits] at ran
        cases ran
    obtain ⟨c, fits⟩ := fits
    have placed : after.payload? a = some o := by
      obtain ⟨b, ok, _, here, _⟩ := sound.allocate_spec fits []
      rw [ran] at ok here
      cases ok
      exact here
    have payload := after.payload?_addGlobalRoot (.ref a)
    refine ⟨Heap.Furnished.touch ?_ (.single (.addRoot after (.ref a))) payload, ?_, ?_⟩
    · refine roots.furnished.preserves reachable preserves fun o' mem => ?_
      obtain ⟨rfl, fits⟩ := only o' mem
      exact ⟨formed, fits⟩
    · rw [Heap.globalRoots_addGlobalRoot, preserves.globalRoots, roots.globals]
      rfl
    · rintro e (_ | ⟨_, mem⟩)
      · exact (payload a).trans placed
      · have listed : Value.ref e.1 ∈ h.held [] := by
          rw [Heap.held, roots.globals]
          exact List.mem_map_of_mem (f := fun e : Address × Object => Value.ref e.1) mem
        have kept : h.Kept (h.held []) e.1 :=
          .value listed (Heap.isLive_of_payload? (roots.cells e mem))
        exact (payload e.1).trans ((preserves.payload _ kept).trans (roots.cells e mem))
  · cases made

lemma orderly_create {settings : Settings} {w : World} (made : World.create settings = .ok w) :
    w.Orderly [] := by
  obtain ⟨empty, nilCell, one, trueCell, two, falseCell, heap, created, first, second, third, rfl⟩ :=
    create_spec made
  have apart := apart_scatteredBlocks settings.sizeClasses.length
  have clear : ∀ a o, empty.payload? a ≠ some o := fun a o here =>
    Heap.not_isLive_createAt apart created a (Heap.isLive_of_payload? here)
  have roots : Roots empty [] := by
    refine ⟨⟨.create apart created, fun a o here => absurd here (clear a o),
      fun a o here => absurd here (clear a o)⟩, Heap.globalRoots_create created,
      fun e mem => by cases mem⟩
  have roots : Roots heap
      [(falseCell, .falseObject), (trueCell, .trueObject), (nilCell, .nilObject)] :=
    ((roots.rooted (.of_hash? rfl) first).rooted (.of_hash? rfl) second).rooted (.of_hash? rfl) third
  refine ⟨roots.furnished, ⟨roots.cells (nilCell, .nilObject) (by simp),
    roots.cells (trueCell, .trueObject) (by simp), roots.cells (falseCell, .falseObject) (by simp)⟩,
    ⟨List.nodup_nil, fun name a => nofun, ?_⟩⟩
  change heap.globalRoots.Perm _
  rw [roots.globals]
  exact List.reverse_perm [Value.ref nilCell, .ref trueCell, .ref falseCell]

namespace Arises

variable {w : World} {extra : List Value}

/-- What all changes preserve. -/
lemma orderly (arises : w.Arises extra) : w.Orderly extra := by
  induction arises with
  | create made => exact orderly_create made
  | change before change ih => exact ih.change change

/-- An allocation of the machine is a few changes. -/
lemma allocate (arises : w.Arises extra) (argStacks : Stacks) {o : Object} (formed : o.Formed) :
    (w.allocate argStacks o).2.Arises extra := by
  have polled : w.pollCollection.2.Arises extra := by
    rw [pollCollection]
    split
    · exact arises.change (.signals { w.signals with collection := false })
    · exact arises
  rw [World.allocate]
  dsimp only
  split
  · exact (polled.change (.collect argStacks)).change (.place argStacks formed)
  · exact polled.change (.place argStacks formed)

end Arises

end World

namespace Machine

variable {σ : Type} {m : Machine σ}

/-- A machine that is got into: its world arises, and its transient cells hold numbers. -/
structure Reached (m : Machine σ) : Prop where
  world : ∃ extra, m.world.Arises extra
  transients : ∀ (i : Nat) c, m.thread.transients[i]? = some c →
    ∃ x : Numeric, c = Cell.transient x.object

lemma Reached.orderly (reached : m.Reached) : ∃ extra, m.world.Orderly extra := by
  obtain ⟨extra, arises⟩ := reached.world
  exact ⟨extra, arises.orderly⟩

lemma reached_create {settings : Settings} {file : String} {host : σ}
    (made : Machine.create settings file host = .ok m) : m.Reached := by
  obtain ⟨w, created, same⟩ := ok_of_bind made
  obtain rfl := Except.ok.inj same
  refine ⟨⟨[], World.Arises.change (.create created) .freshFrame⟩, fun i c there => ?_⟩
  cases there

/-- A thread that has pushed some values in a world and has done nothing else. -/
def standing (w : World) (stack : Array Value) (host : σ) : Machine σ :=
  ⟨w, { ThreadState.start ⟨0⟩ "main" with stack }, [], host⟩

lemma reached_standing {w : World} {extra : List Value} (arises : w.Arises extra)
    (stack : Array Value) (host : σ) : (standing w stack host).Reached := by
  refine ⟨⟨extra, arises⟩, fun i c there => ?_⟩
  rw [standing, ThreadState.start, Array.getElem?_empty] at there
  cases there

/-- An object that is found in a machine lives in its heap unless it is a number. -/
lemma Reached.payload?_of_object? (reached : m.Reached) {a : Address} {o : Object}
    (here : m.object? a = some o) (other : ∀ x : Numeric, o ≠ x.object) :
    m.world.heap.payload? a = some o := by
  cases a with
  | memory word => exact here
  | stack i =>
    obtain ⟨c, there, holds⟩ := Option.map_eq_some_iff.mp here
    obtain ⟨x, rfl⟩ := reached.transients i c there
    exact absurd holds.symm (other x)

/-- The entries of a hash come from insertions. -/
lemma Reached.formed (reached : m.Reached) {a : Address} {es : Entries}
    (here : m.object? a = some (.hash es)) : ∃ ps, es = Entries.ofList ps := by
  obtain ⟨extra, orderly⟩ := reached.orderly
  have there := reached.payload?_of_object? here fun x => by cases x <;> nofun
  exact orderly.furnished.formed a _ there es rfl

end Machine

end CellMachine
