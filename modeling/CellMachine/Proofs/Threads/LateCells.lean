import CellMachine.Proofs.Threads.Interning

/-!
# Cells that come too late

If the threads use no reference that they were not given, then no reference dangles, and
nothing refers to a fresh cell before it is published. So nothing ever refers to the cell of
a thread that loses, and the next cycle frees it.
-/

namespace CellMachine

variable {σ : Type} {c : Client σ} {held : σ → Nat} {fixed : List Value}

namespace World

variable {w : World} {u : Value}

/-- A new cell stores what its object refers to. -/
lemma Stores.allocateIn {o : Object} {k : Nat} (sound : w.heap.Sound)
    (fits : w.heap.classOf o = .ok k)
    (after : World.Stores { w with heap := (w.heap.allocateIn k o).2 } u) :
    w.Stores u ∨ u ∈ o.children := by
  obtain ⟨b, _, _, _, placed, others⟩ := sound.allocateIn_cells (Heap.classOf_lt sound fits) o
  rcases after with root | ⟨b', o', here, child⟩
  · exact .inl (.inl ((w.heap.allocateIn_frame k o).1 ▸ root))
  · by_cases new : b' = b
    · rw [new] at here
      obtain rfl := Option.some.inj (placed.symm.trans here)
      exact .inr child
    · exact .inl (.inr ⟨b', o', (others b' new).2 ▸ here, child⟩)

end World

namespace Client

variable {w w' : World} {t t' : Interner σ} {a : Address}

/-- The thread publishes its fresh cell, as no other thread was faster. -/
def Wins (c : Client σ) (w : World) (t : Interner σ) (a : Address) : Prop :=
  ∃ name, c.request t.own = .intern name ∧ t.progress = .fresh a ∧ w.symbol? name = none

namespace Turn

/-- What is stored after a step was stored before, or the thread had it. -/
lemma stores (turn : c.Turn w t t' w') (honest : c.Honest held) (sound : w.heap.Sound)
    (after : w'.Stores (.ref a)) :
    w.Stores (.ref a) ∨ .ref a ∈ c.roots t.own ∨ c.Wins w t a ∧ t'.progress = .start := by
  cases turn with
  | room made =>
    left
    rcases after with root | ⟨b, o, here, child⟩
    · exact .inl (Heap.globalRoots_of_room made ▸ root)
    · exact .inr ⟨b, o, (sound.cells_of_room made b).2 ▸ here, child⟩
  | @allocate o k asked fits =>
    rcases after.allocateIn sound fits with old | child
    · exact .inl old
    · exact .inr (.inl (honest.allocates t.own o asked a child))
  | @setGlobal name v asked =>
    rcases after with root | ⟨b, o, here, child⟩
    · rcases World.mem_globalRoots_setGlobal root with old | rfl
      · exact .inl (.inl old)
      · exact .inr (.inl (honest.binds t.own name a asked))
    · exact .inl (.inr ⟨b, o, (w.setGlobal_frame name v b).1 ▸ here, child⟩)
  | @modify x f asked =>
    rcases after with root | ⟨b, o, here, child⟩
    · exact .inl (.inl ((w.heap.modifyPayload_frame x f).2.1 ▸ root))
    · have edited := (sound.payload?_modifyPayload x f b).symm.trans here
      split at edited
      · obtain ⟨old, before, rfl⟩ := Option.map_eq_some_iff.mp edited
        rcases honest.modifies t.own x f asked old a child with stays | given
        · exact .inl (.inr ⟨b, old, before, stays⟩)
        · exact .inr (.inl given)
      · exact .inl (.inr ⟨b, o, edited, child⟩)
  | make _ _ fits =>
    rcases after.allocateIn sound fits with old | child
    · exact .inl old
    · cases child
  | @publish name x asked fresh =>
    rcases after with root | ⟨b, o, here, child⟩
    · rcases World.mem_globalRoots_publish root with old | ⟨same, absent⟩
      · exact .inl (.inl old)
      · cases same
        exact .inr (.inr ⟨⟨name, asked, fresh, absent⟩, rfl⟩)
    · exact .inl (.inr ⟨b, o, w.payload?_publish name x b ▸ here, child⟩)
  | _ => exact .inl after

/-- A step goes on without a reply, or what the reply offers was stored, or is the thread's
own cell that it publishes, or is new. -/
lemma offers (turn : c.Turn w t t' w') (sound : w.heap.Sound) (interned : w.Interned fixed) :
    t'.own = t.own ∨ ∃ reply, t' = c.answered t reply ∧ ∀ a, reply.Offers (.ref a) →
      w.Stores (.ref a) ∨ c.Wins w t a ∨ ¬ w.heap.isLive a ∧ w'.heap.isLive a := by
  have entry : ∀ {name b}, w.symbol? name = some b → w.Stores (.ref b) := fun hit =>
    .inl (interned.mem_globalRoots (interned.symbol?_eq_some_iff.mp hit))
  cases turn with
  | stay => exact .inl rfl
  | room => exact .inl rfl
  | plain plain => exact .inr ⟨_, rfl, fun a offered => absurd offered (plain _)⟩
  | look => exact .inr ⟨_, rfl, fun a offered => .inl offered⟩
  | @allocate o k _ fits =>
    obtain ⟨b, ok, _, free, placed, _⟩ := sound.allocateIn_cells (Heap.classOf_lt sound fits) o
    refine .inr ⟨_, rfl, fun a offered => .inr (.inr ?_)⟩
    rw [ok] at offered
    obtain rfl := Value.ref.inj offered
    exact ⟨free, Heap.isLive_of_payload? placed⟩
  | setGlobal => exact .inr ⟨_, rfl, fun a offered => offered.elim⟩
  | modify => exact .inr ⟨_, rfl, fun a offered => offered.elim⟩
  | @find name =>
    cases hit : w.symbol? name with
    | none => exact .inl rfl
    | some b =>
      refine .inr ⟨_, rfl, fun a offered => .inl ?_⟩
      obtain rfl := Value.ref.inj offered
      exact entry hit
  | @make name k _ _ fits =>
    obtain ⟨b, ok, _⟩ := sound.allocateIn_cells (Heap.classOf_lt sound fits) (.symbol name)
    rw [ok]
    exact .inl rfl
  | @publish name x asked fresh =>
    refine .inr ⟨_, rfl, fun a offered => ?_⟩
    have same : a = (w.publish name x).1 := Value.ref.inj offered
    rw [World.publish] at same
    cases hit : w.symbol? name with
    | none =>
      rw [hit] at same
      exact .inr (.inl ⟨name, asked, same ▸ fresh, hit⟩)
    | some b =>
      rw [hit] at same
      exact .inl (same ▸ entry hit)

/-- What a thread reports after a step it had before, or it was stored, or its cell is new. -/
lemma roots (turn : c.Turn w t t' w') (honest : c.Honest held) (sound : w.heap.Sound)
    (interned : w.Interned fixed) (after : .ref a ∈ c.roots t'.own) :
    w.Stores (.ref a) ∨ .ref a ∈ c.roots t.own ∨ c.Wins w t a ∧ t'.progress = .start ∨
      ¬ w.heap.isLive a ∧ w'.heap.isLive a ∧ t'.progress = .start := by
  rcases turn.offers sound interned with same | ⟨reply, rfl, known⟩
  · exact .inr (.inl (same ▸ after))
  · rcases honest.given t.own reply a after with old | offered
    · exact .inr (.inl old)
    · rcases known a offered with stored | wins | ⟨free, live⟩
      · exact .inl stored
      · exact .inr (.inr (.inl ⟨wins, rfl⟩))
      · exact .inr (.inr (.inr ⟨free, live, rfl⟩))

end Turn

end Client

namespace MutatorSystem

variable {s : MutatorSystem Object Surroundings (Interner σ)} {i j : Nat}
  {t t' : MutatorThread Object (Interner σ)} {g : Common Object Surroundings} {a x : Address}

/-- A global root, a cell or a thread refers to the address. -/
def Mentions (c : Client σ) (s : MutatorSystem Object Surroundings (Interner σ)) (a : Address) :
    Prop :=
  s.shared.toWorld.Stores (.ref a) ∨
    ∃ (i : Nat) (t : MutatorThread Object (Interner σ)), s.threads[i]? = some t ∧
      .ref a ∈ c.roots t.own.own

/-- No reference dangles, and nothing refers to a fresh cell. -/
structure Discreet (c : Client σ) (s : MutatorSystem Object Surroundings (Interner σ)) : Prop where
  live : ∀ a, s.Mentions c a → s.shared.heap.isLive a
  secret : ∀ i own x, s.Holds i own x → ¬ s.Mentions c x

/-- What is referred to after a step was referred to before, or is a new cell, or has been
published by the thread. -/
lemma mentions_turn (honest : c.Honest held) (orderly : s.Orderly c fixed)
    (sound : s.shared.heap.Sound) (here : s.threads[i]? = some t)
    (turn : c.Turn s.shared.toWorld t.own t'.own g.shared.toWorld)
    (after : (s.changed i g t').Mentions c a) :
    s.Mentions c a ∨ c.Wins s.shared.toWorld t.own a ∧ t'.own.progress = .start ∨
      ¬ s.shared.heap.isLive a ∧ g.shared.heap.isLive a ∧ t'.own.progress = .start := by
  have own : .ref a ∈ c.roots t.own.own → s.Mentions c a := fun mem => .inr ⟨i, t, here, mem⟩
  rcases after with stored | ⟨j, u, there, mem⟩
  · rcases turn.stores honest sound stored with old | mem | won
    · exact .inl (.inl old)
    · exact .inl (own mem)
    · exact .inr (.inl won)
  · rw [getElem?_changed here] at there
    split at there
    · obtain rfl := Option.some.inj there
      rcases turn.roots honest sound orderly.table mem with old | old | won | new
      · exact .inl (.inl old)
      · exact .inl (own old)
      · exact .inr (.inl won)
      · exact .inr (.inr new)
    · exact .inl (.inr ⟨j, u, there, mem⟩)

lemma progress_of_holds {own : σ} (here : s.threads[i]? = some t)
    (holds : (s.changed i g t').Holds i own x) : t'.own.progress = .fresh x := by
  obtain ⟨stage, there⟩ := holds
  rw [getElem?_changed here, if_pos rfl] at there
  rw [Option.some.inj there]

lemma holds_of_wins (here : s.threads[i]? = some t) (wins : c.Wins s.shared.toWorld t.own x) :
    s.Holds i t.own.own x := by
  obtain ⟨name, _, fresh, _⟩ := wins
  exact holds_mover here fresh

lemma Discreet.turn (discreet : s.Discreet c) (honest : c.Honest held)
    (orderly : s.Orderly c fixed) (sound : s.shared.heap.Sound) (here : s.threads[i]? = some t)
    (turn : c.Turn s.shared.toWorld t.own t'.own g.shared.toWorld)
    (kept : ∀ a, s.shared.heap.isLive a → g.shared.heap.isLive a) :
    (s.changed i g t').Discreet c := by
  constructor
  · intro a after
    rcases mentions_turn honest orderly sound here turn after with old | ⟨wins, _⟩ | ⟨_, live, _⟩
    · exact kept a (discreet.live a old)
    · exact kept a (orderly.isLive (holds_of_wins here wins))
    · exact live
  · intro j own x holds after
    have mentions := mentions_turn honest orderly sound here turn after
    -- in both other cases the moving thread has its reply and holds nothing any more
    have idle : j = i → t'.own.progress ≠ .start := by
      rintro rfl start
      have fresh := progress_of_holds here holds
      rw [start] at fresh
      cases fresh
    rcases holds_turn sound here turn holds with ⟨old, _⟩ | ⟨mover, _, free, _⟩
    · rcases mentions with before | ⟨wins, start⟩ | ⟨new, _⟩
      · exact discreet.secret j own x old before
      · exact idle (orderly.apart j i own _ x old (holds_of_wins here wins)) start
      · exact new (orderly.isLive old)
    · rcases mentions with before | ⟨_, start⟩ | ⟨_, _, start⟩
      · exact free (discreet.live x before)
      · exact idle mover start
      · exact idle mover start

end MutatorSystem

lemma Errand.mem_rootSet_cases {α ω σ : Type} [Payload α] {p : Program α ω σ} {own : σ}
    {e : Errand α σ} {w : Address} (mem : w ∈ e.rootSet p own) :
    .ref w ∈ p.roots own ∨ .ref w ∈ e.pending := by
  cases e with
  | departure => cases mem
  | _ => exact (List.mem_append.mp mem).imp mem_references.mp mem_references.mp

/-- What a thread submits, it reports; the object that it allocates refers to nothing else. -/
lemma Client.Honest.mem_roots (honest : c.Honest held) {t : Interner σ}
    {e : Errand Object (Interner σ)} (follows : c.program.move t = e.move) {w : Address}
    (mem : w ∈ e.rootSet c.program t) : .ref w ∈ c.roots t.own := by
  have child : ∀ {o : Object} {next : Except HeapFault Address → Interner σ},
      c.program.move t = .allocate o next → .ref w ∈ o.children → .ref w ∈ c.roots t.own := by
    intro o next move child
    have made := c.makes t
    rw [move] at made
    cases made with
    | allocate asked => exact honest.allocates t.own o asked w child
    | make => cases child
  rcases Errand.mem_rootSet_cases mem with root | pending
  · exact root
  · cases e with
    | beforeAllocation o next => exact child follows pending
    | shortage k o next => exact child follows pending
    | _ => cases pending

/-- A thread in the rendezvous submits all that it reports. -/
lemma Client.Honest.mem_rootSet (honest : c.Honest held) {t : Interner σ}
    {e : Errand Object (Interner σ)} (follows : c.program.move t = e.move) {w : Address}
    (mem : .ref w ∈ c.roots t.own) : w ∈ e.rootSet c.program t := by
  cases e with
  | departure next =>
    have made := c.makes t
    rw [follows] at made
    cases made with
    | deregister asked => exact absurd mem (honest.leaving t.own asked w)
  | _ => exact List.mem_append_left _ (mem_references.mpr mem)

namespace Client.Begins

open MutatorSystem

variable {s : MutatorSystem Object Surroundings (Interner σ)} {schedule : Nat → Nat} {m n : Nat}
  {name : String} {a x : Address}

/-- A cycle starts from words that something refers to. -/
lemma mentions_of_root (begins : c.Begins held s) (honest : c.Honest held)
    (collects : (s.run c.program schedule n).Collects (schedule n))
    (root : a ∈ (s.run c.program schedule n).shared.heap.cycleRoots
      (s.run c.program schedule n).inputs.reverse) :
    (s.run c.program schedule n).Mentions c a := by
  obtain ⟨_, _, _, here⟩ := collects
  obtain ⟨phase, inv⟩ := begins.starts.rendezvous schedule n
  obtain rfl := inv.assembled_of_collecting here
  have perm := inv.inputs_perm (Rendezvous.unscanned_of_collecting here)
  rcases root with ⟨roots, submitted, mem⟩ | global
  · have sent := perm.mem_iff.mp (List.mem_reverse.mp submitted)
    obtain ⟨t, there, some_e⟩ := List.mem_filterMap.mp sent
    obtain ⟨e, inside, rfl⟩ := Option.map_eq_some_iff.mp some_e
    obtain ⟨j, at_j⟩ := mem_threads.mp there
    have follows := begins.starts.follows schedule n j t at_j _ (Stage.move?_of_errand inside)
    exact .inr ⟨j, t, at_j, honest.mem_roots follows mem⟩
  · exact .inl (.inl global)

/-- A cycle starts from all words that threads report. -/
lemma root_of_reported (begins : c.Begins held s) (honest : c.Honest held)
    (collects : (s.run c.program schedule n).Collects (schedule n)) {j : Nat}
    {t : MutatorThread Object (Interner σ)}
    (there : (s.run c.program schedule n).threads[j]? = some t)
    (mem : .ref a ∈ c.roots t.own.own) :
    a ∈ (s.run c.program schedule n).shared.heap.cycleRoots
      (s.run c.program schedule n).inputs.reverse := by
  obtain ⟨_, _, _, here⟩ := collects
  obtain ⟨phase, inv⟩ := begins.starts.rendezvous schedule n
  obtain rfl := inv.assembled_of_collecting here
  have perm := inv.inputs_perm (Rendezvous.unscanned_of_collecting here)
  have registered : 0 < held t.own.own := by
    rw [Nat.pos_iff_ne_zero]
    exact fun none_held => honest.outside _ none_held a mem
  obtain ⟨e, inside⟩ := (inv.registered_iff there).mp registered
  have follows := begins.starts.follows schedule n j t there _ (Stage.move?_of_errand inside)
  have sent := Rendezvous.mem_rootSets (p := c.program) ⟨t.stage, there, inside⟩
  exact .inl ⟨_, List.mem_reverse.mpr (perm.mem_iff.mpr sent), honest.mem_rootSet follows mem⟩

/-- What a cycle reaches, something refers to. -/
lemma mentions_of_reaches (begins : c.Begins held s) (honest : c.Honest held)
    (discreet : (s.run c.program schedule n).Discreet c)
    (collects : (s.run c.program schedule n).Collects (schedule n))
    (reached : (s.run c.program schedule n).shared.heap.Reaches
      ((s.run c.program schedule n).shared.heap.cycleRoots
        (s.run c.program schedule n).inputs.reverse) a) :
    (s.run c.program schedule n).Mentions c a := by
  cases reached with
  | @root word _ mem hit =>
    have mentions := begins.mentions_of_root honest collects mem
    have own_start := Heap.cellFor?_of_isLive (discreet.live word mentions)
    obtain rfl := Option.some.inj (own_start.symm.trans hit)
    exact mentions
  | edge _ here child _ => exact .inl (.inr ⟨_, _, here, child⟩)

lemma discreet_cycle (begins : c.Begins held s) (honest : c.Honest held)
    (discreet : (s.run c.program schedule n).Discreet c)
    (collects : (s.run c.program schedule n).Collects (schedule n)) :
    (s.run c.program schedule (n + 1)).Discreet c := by
  have orderly := begins.orderly schedule n
  have sound := (begins.reachable schedule n).sound
  have none_holds := begins.not_holds orderly collects
  obtain ⟨t, g, t', here, same, _, shared, eq⟩ := step_of_collects (p := c.program) collects
  obtain ⟨_, _, _, frame⟩ := sound.runCycle_frame (s.run c.program schedule n).inputs.reverse
  rw [run, eq]
  constructor
  · intro a after
    change g.shared.heap.isLive a
    rw [shared]
    rcases after with stored | ⟨j, u, there, mem⟩
    · change g.shared.toWorld.Stores (.ref a) at stored
      rw [shared] at stored
      rcases stored with global | ⟨b, o, left, child⟩
      · have before : .ref a ∈ (s.run c.program schedule n).shared.heap.globalRoots := by
          change _ ∈ (Heap.runCycle _ _).globalRoots at global
          rwa [frame] at global
        have live := discreet.live a (.inl (.inl before))
        exact sound.isLive_runCycle_iff.mpr (.root (.inr before) (Heap.cellFor?_of_isLive live))
      · have reached := sound.isLive_runCycle_iff.mp (Heap.isLive_of_payload? left)
        have before := (sound.payload?_runCycle_of_reaches reached).symm.trans left
        exact (sound.isLive_of_edge left child).mpr
          (discreet.live a (.inl (.inr ⟨b, o, before, child⟩)))
    · have reported : ∃ (k : Nat) (v : MutatorThread Object (Interner σ)),
          (s.run c.program schedule n).threads[k]? = some v ∧ .ref a ∈ c.roots v.own.own := by
        rw [getElem?_changed here] at there
        split at there
        · obtain rfl := Option.some.inj there
          exact ⟨_, t, here, same ▸ mem⟩
        · exact ⟨j, u, there, mem⟩
      obtain ⟨k, v, there, mem⟩ := reported
      have live := discreet.live a (.inr ⟨k, v, there, mem⟩)
      exact sound.isLive_runCycle_iff.mpr
        (.root (begins.root_of_reported honest collects there mem) (Heap.cellFor?_of_isLive live))
  · exact fun j own x holds => absurd (holds_of_same here same holds) (none_holds j own x)

lemma discreet (begins : c.Begins held s) (honest : c.Honest held) (schedule : Nat → Nat)
    (n : Nat) : (s.run c.program schedule n).Discreet c := by
  induction n with
  | zero =>
    obtain ⟨w, threads, blank, unregistered, rfl⟩ := begins.start
    have started : ∀ (j : Nat) t, (MutatorSystem.start w.heap w.shared.world
        (threads.map fun own => (⟨own, .start⟩ : Interner σ))).threads[j]? = some t →
        ∃ own ∈ threads, t = ⟨⟨own, .start⟩, .between⟩ := by
      intro j t there
      rw [Rendezvous.getElem?_start] at there
      obtain ⟨u, mem, rfl⟩ := Option.map_eq_some_iff.mp there
      obtain ⟨own, mem', rfl⟩ := List.mem_map.mp (List.mem_of_getElem? mem)
      exact ⟨own, mem', rfl⟩
    constructor
    · rintro a (stored | ⟨j, t, there, mem⟩)
      · exact blank.stored a stored
      · obtain ⟨own, mem', rfl⟩ := started j t there
        exact absurd mem (honest.outside own (unregistered own mem') a)
    · rintro j own x ⟨stage, there⟩
      obtain ⟨own', _, eq⟩ := started j _ there
      cases eq
  | succ n ih =>
    by_cases collects : (s.run c.program schedule n).Collects (schedule n)
    · exact begins.discreet_cycle honest ih collects
    · rcases begins.turns collects with same | ⟨t, g, t', here, turn, eq⟩
      · rw [same]
        exact ih
      · have kept : ∀ a, (s.run c.program schedule n).shared.heap.isLive a →
            g.shared.heap.isLive a := by
          intro a live
          have still := begins.starts.kept collects live
          rwa [eq] at still
        rw [eq]
        exact ih.turn honest (begins.orderly schedule n) (begins.reachable schedule n).sound here
          turn kept

/-- Nothing refers to the cell of a thread that has just lost. -/
lemma unmentioned_of_loses (begins : c.Begins held s) (honest : c.Honest held)
    (loses : (s.run c.program schedule n).Loses c (schedule n) name x) :
    ¬ (s.run c.program schedule (n + 1)).Mentions c x := by
  intro after
  have orderly := begins.orderly schedule n
  obtain ⟨own, here, asked, taken⟩ := loses
  have holds : (s.run c.program schedule n).Holds (schedule n) own x := ⟨_, here⟩
  have secret := (begins.discreet honest schedule n).secret _ own x holds
  have collects : ¬ (s.run c.program schedule n).Collects (schedule n) := by
    rintro ⟨_, _, _, other⟩
    cases here.symm.trans other
  rcases begins.turns collects with same | ⟨t, g, t', there, turn, eq⟩
  · rw [same] at after
    exact secret after
  · rw [eq] at after
    have sound := (begins.reachable schedule n).sound
    rcases mentions_turn honest orderly sound there turn after with old | ⟨wins, _⟩ | ⟨new, _⟩
    · exact secret old
    · obtain ⟨name', asked', _, absent⟩ := wins
      cases here.symm.trans there
      cases asked.symm.trans asked'
      exact taken absent
    · exact new (orderly.isLive holds)

/-- No step but a cycle makes anything refer to a lost cell. -/
lemma unmentioned_succ (begins : c.Begins held s) (honest : c.Honest held)
    (other : ¬ (s.run c.program schedule n).Collects (schedule n))
    (lost : (s.run c.program schedule n).Lost x)
    (before : ¬ (s.run c.program schedule n).Mentions c x) :
    ¬ (s.run c.program schedule (n + 1)).Mentions c x := by
  intro after
  rcases begins.turns other with same | ⟨t, g, t', here, turn, eq⟩
  · rw [same] at after
    exact before after
  · rw [eq] at after
    have sound := (begins.reachable schedule n).sound
    have orderly := begins.orderly schedule n
    rcases mentions_turn honest orderly sound here turn after with old | ⟨wins, _⟩ | ⟨new, _⟩
    · exact before old
    · exact lost.unheld _ _ (holds_of_wins here wins)
    · exact new lost.isLive

/-- The cell of a thread that loses lives until the next cycle, and that one frees it. -/
lemma freed_of_loses (begins : c.Begins held s) (honest : c.Honest held)
    (loses : (s.run c.program schedule n).Loses c (schedule n) name x) (later : n < m)
    (first : ∀ k, n < k → k < m → ¬ (s.run c.program schedule k).Collects (schedule k)) :
    (s.run c.program schedule m).shared.heap.isLive x ∧
      ((s.run c.program schedule m).Collects (schedule m) →
        ¬ (s.run c.program schedule (m + 1)).shared.heap.isLive x) := by
  have idle : (s.run c.program schedule m).Lost x ∧
      ¬ (s.run c.program schedule m).Mentions c x := by
    induction m, later using Nat.le_induction with
    | base =>
      exact ⟨loses.lost (begins.orderly schedule n), begins.unmentioned_of_loses honest loses⟩
    | succ m after ih =>
      obtain ⟨lost, unmentioned⟩ := ih fun k hk before => first k hk (before.trans m.lt_succ_self)
      have other := first m after m.lt_succ_self
      have live := begins.starts.kept other lost.isLive
      exact ⟨begins.lost_succ lost live, begins.unmentioned_succ honest other lost unmentioned⟩
  refine ⟨idle.1.isLive, fun collects live => idle.2 ?_⟩
  rw [run_collects collects] at live
  have sound := (begins.reachable schedule m).sound
  exact begins.mentions_of_reaches honest (begins.discreet honest schedule m) collects
    (sound.isLive_runCycle_iff.mp live)

end Client.Begins

end CellMachine
