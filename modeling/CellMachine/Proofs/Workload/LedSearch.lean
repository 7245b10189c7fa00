import CellMachine.Proofs.Workload.LedNumbers

/-!
# Where the search leads

An array is built from new cells one by one, and a block is called with its items until it breaks.
What the search needs is held on the stack: the array as the receiver of the loop, the scope and
the block in a window of their own. The scope changes with every visit, and what it holds does not
matter.
-/

namespace CellMachine

namespace Knowledge

variable {K K' F : Knowledge} {roots : List Value} {a : Address} {o : Object}

/-- The values are cells with these objects, and none of them is the cell they are held in. -/
def Items (K : Knowledge) (a : Address) (values : List Value) (objects : List Object) : Prop :=
  List.Forall₂ (fun v o => ∃ x, v = .ref x ∧ x ≠ a ∧ .cell x o ∈ K) values objects

/-- The cell is an array of cells with these objects. -/
def Lists (K : Knowledge) (a : Address) (objects : List Object) : Prop :=
  ∃ items : Array Value, .cell a (.array items) ∈ K ∧ K.Items a items.toList objects

lemma Items.mono {values : List Value} {objects : List Object} (known : K.Items a values objects)
    (sub : ∀ x o, x ≠ a → .cell x o ∈ K → .cell x o ∈ K') : K'.Items a values objects :=
  List.Forall₂.imp (fun _ _ ⟨x, eq, other, here⟩ => ⟨x, eq, other, sub x _ other here⟩) known

lemma Lists.mono {objects : List Object} (lists : K.Lists a objects) (sub : K ⊆ K') :
    K'.Lists a objects := by
  obtain ⟨items, here, known⟩ := lists
  exact ⟨items, sub here, known.mono fun _ _ _ => (sub ·)⟩

lemma cell_mem_put (a : Address) (o : Object) : .cell a o ∈ K.put a o := Set.mem_insert _ _

/-- Other cells stay known. -/
lemma mem_put_of_ne {x : Address} {p : Object} (here : .cell x p ∈ K) (other : x ≠ a) :
    .cell x p ∈ K.put a o := by
  refine .inr ⟨here, fun _ same => other ?_⟩
  cases same
  rfl

lemma subset_put (sub : F ⊆ K) (free : ∀ o', .cell a o' ∉ F) : F ⊆ K.put a o := by
  intro f mem
  refine .inr ⟨sub mem, fun o' same => ?_⟩
  subst same
  exact free o' mem

end Knowledge

namespace Terms

open Course Value

variable {β : Type} {t : Terms β} {th : ThreadState} {K F : Knowledge}

lemma leads_append {k : Except Halt Unit → Course Crew β} {a : Address} {o : Object}
    {objects : List Object} (owner : t.owner) (closed : K.Closed th.stack.toList) (sub : F ⊆ K)
    (free : ∀ o', .cell a o' ∉ F) (lists : K.Lists a objects)
    (rest : ∀ K', K'.Closed th.stack.toList → F ⊆ K' → K'.Lists a (objects ++ [o]) →
      t.Leads (k (.ok ())) th K') :
    t.Leads ((append a o).follow k) th K := by
  obtain ⟨items, here, known⟩ := lists
  rw [append, follow_bind]
  refine leads_new owner closed fun v fresh => ?_
  rw [either_ok]
  refine leads_modifyObject owner (.inr here) id fun consistent => ?_
  have new : v ≠ a := by
    rintro rfl
    exact fresh _ here
  have after := closed.append consistent here
  refine rest _ after ?_ ⟨items.push (.ref v), Knowledge.cell_mem_put _ _, ?_⟩
  · exact Knowledge.subset_put (sub.trans (Set.subset_insert _ _)) free
  · rw [Array.toList_push]
    refine List.rel_append (known.mono fun x p other mem => ?_)
      (.cons ⟨v, rfl, new, Knowledge.mem_put_of_ne (.inl rfl) new⟩ .nil)
    exact Knowledge.mem_put_of_ne (.inr mem) other

/-- One object after the other is added to the array. -/
lemma leads_appendEach {α : Type} {k : Except Halt Unit → Course Crew β} {a : Address}
    (objects : List Object) {l : List α} {f : α → Object} {g : α → Course Crew Unit}
    (appends : ∀ x, g x = append a (f x)) (owner : t.owner) (free : ∀ o', .cell a o' ∉ F)
    (rest : ∀ K', K'.Closed th.stack.toList → F ⊆ K' → K'.Lists a (objects ++ l.map f) →
      t.Leads (k (.ok ())) th K') (closed : K.Closed th.stack.toList) (sub : F ⊆ K)
    (lists : K.Lists a objects) : t.Leads ((forEach g l).follow k) th K := by
  induction l generalizing K objects with
  | nil => exact rest K closed sub (by simpa using lists)
  | cons x l ih =>
    rw [forEach, follow_bind, appends]
    refine leads_append owner closed sub free lists fun K₁ closed₁ sub₁ lists₁ => ?_
    rw [either_ok]
    refine ih _ (fun K' closed' sub' lists' => ?_) closed₁ sub₁ lists₁
    exact rest K' closed' sub' (by simpa using lists')

lemma leads_truthy_ofBool {k : Except Halt Bool → Course Crew β} {b : Bool}
    (rest : t.Leads (k (.ok b)) th K) :
    t.Leads ((truthy (t.singletons.ofBool b)).follow k) th K := by
  rw [truthy, follow_bind]
  refine leads_read fun m at_ => ?_
  obtain ⟨isNil, isTrue, isFalse⟩ := at_.steady.cells
  have notNil : ∀ c, t.singletons.ofBool c ≠ t.singletons.nil := by
    intro c same
    cases c with
    | true =>
      have same : t.singletons.trueCell = t.singletons.nilCell := Value.ref.inj same
      rw [← same, isTrue] at isNil
      cases isNil
    | false =>
      have same : t.singletons.falseCell = t.singletons.nilCell := Value.ref.inj same
      rw [← same, isFalse] at isNil
      cases isNil
  have apart : t.singletons.ofBool true ≠ t.singletons.ofBool false := by
    intro same
    have same : t.singletons.trueCell = t.singletons.falseCell := Value.ref.inj same
    rw [same, isFalse] at isTrue
    cases isTrue
  have truth : m.world.singletons.truthy (t.singletons.ofBool b) = b := by
    rw [at_.steady.singletons, Singletons.truthy]
    cases b with
    | true => simp [notNil, apart]
    | false => simp
  rw [either_ok, follow_pure, truth]
  exact rest

/-- A pair of a number and its square. -/
def pairOf (i : Nat) : Object := .array #[small i, small (i * i)]

/-- What the search keeps from one item to the next: what it knew before, and its block with the
scope, which is of no use to anybody else. -/
structure Searching (F : Knowledge) (s b : Address) (closure : BlockObject) (roots : List Value)
    (K : Knowledge) : Prop where
  closed : K.Closed roots
  sub : F ⊆ K
  apart : ∀ o, .cell s o ∉ F
  block : .cell b (.block closure) ∈ K
  other : b ≠ s
  visits : ∃ n, .cell s (.scope none #[.smallInt n]) ∈ K

variable {s b : Address} {closure : BlockObject} {stack : Array Value} {limit i : Nat}

lemma Searching.more {roots roots' : List Value} (searching : Searching F s b closure roots K)
    (more : roots ⊆ roots') : Searching F s b closure roots' K :=
  ⟨searching.closed.more more, searching.sub, searching.apart, searching.block, searching.other,
    searching.visits⟩

lemma Searching.put {roots : List Value} (searching : Searching F s b closure roots K)
    (consistent : K.Consistent) (n : Int64) :
    Searching F s b closure roots (K.put s (.scope none #[.smallInt n])) := by
  obtain ⟨_, here⟩ := searching.visits
  constructor
  · refine searching.closed.put consistent here fun c child => ?_
    simp [Object.children] at child
  · exact Knowledge.subset_put searching.sub searching.apart
  · exact searching.apart
  · exact Knowledge.mem_put_of_ne searching.block searching.other
  · exact searching.other
  · exact ⟨n, Knowledge.cell_mem_put _ _⟩

lemma leads_countVisit {k : Except Halt Unit → Course Crew β} {roots : List Value}
    (owner : t.owner) (outer : th.frame.outer = some s)
    (searching : Searching F s b closure roots K)
    (rest : ∀ K', Searching F s b closure roots K' → t.Leads (k (.ok ())) th K') :
    t.Leads (countVisit.follow k) th K := by
  obtain ⟨n, here⟩ := searching.visits
  rw [countVisit, follow_bind, leads_frame, either_ok, outer]
  simp only [follow_bind]
  refine leads_object? here ?_
  simp only [either_ok, Option.bind_some, Object.scope?, follow_bind]
  refine leads_nil ?_
  rw [either_ok]
  refine leads_modifyObject owner here id fun consistent => ?_
  exact rest _ (searching.put consistent (n + 1))

/-- The block breaks with the number if its square is above the limit. -/
def visited (caller : FrameId) (limit i : Nat) (ss : Singletons) : Except Halt Value :=
  if limit < i * i then .error (.error (.break caller (small i))) else .ok ss.nil

lemma leads_checkSquare {k : Except Halt Value → Course Crew β} {roots : List Value}
    {caller : FrameId} (owner : t.owner) (outer : th.frame.outer = some s)
    (target : th.frame.breakTarget = some caller)
    (passed : th.stack = stack ++ [small i, small (i * i)])
    (bounded : limit < 2 ^ 62) (fits : i * i < 2 ^ 62)
    (searching : Searching F s b closure roots K)
    (rest : ∀ K', Searching F s b closure roots K' →
      t.Leads (k (visited caller limit i t.singletons)) { th with stack } K') :
    t.Leads ((checkSquare (small limit) (.fresh stack.size 2 false)).follow k) th K := by
  have first : (Window.fresh stack.size 2 false).get 0 th.stack = .ok (small i) :=
    passed ▸ Window.get_fresh stack [small i, small (i * i)] false (i := 0) Nat.two_pos
  have second : (Window.fresh stack.size 2 false).get 1 th.stack = .ok (small (i * i)) :=
    passed ▸ Window.get_fresh stack [small i, small (i * i)] false (i := 1) Nat.one_lt_two
  have released : th.stack.shrink (Window.fresh stack.size 2 false).origin = stack :=
    passed ▸ Window.shrink_pushed stack _
  simp only [checkSquare, follow_ensuring, follow_bind]
  refine leads_countVisit owner outer searching fun K' searching' => ?_
  have rest := rest K' searching'
  simp only [either_ok, leads_readStack, first, second, mapError_ok]
  refine leads_lt bounded fits ?_
  rw [either_ok]
  refine leads_truthy_ofBool ?_
  by_cases above : limit < i * i
  · rw [visited, if_pos above] at rest
    simp only [either_ok, decide_eq_true above, if_true, follow_bind, breakWith, leads_frame, target,
      follow_pure, follow_raiseError, either_error, leads_releaseWindow, released]
    exact rest
  · rw [visited, if_neg above] at rest
    simp only [either_ok, decide_eq_false above, Bool.false_eq_true, if_false]
    refine leads_nil ?_
    rw [leads_releaseWindow, released]
    exact rest

/-- The block of the search while a call goes on with it. -/
def checking (s : Address) (limit : Nat) (caller : Option FrameId) : BlockObject :=
  ⟨Workload.checkBody, some s, small limit, some ⟨2, some 2⟩, caller⟩

lemma leads_yieldItem {k : Except Halt Unit → Course Crew β} {roots : List Value}
    {caller : FrameId} {x : Address} (owner : t.owner) (passed : th.frame.block = some b)
    (bounded : limit < 2 ^ 62) (fits : i * i < 2 ^ 62) (pair : .cell x (pairOf i) ∈ F)
    (within : roots ⊆ th.stack.toList)
    (searching : Searching F s b (checking s limit (some caller)) roots K)
    (rest : ∀ K', Searching F s b (checking s limit (some caller)) roots K' →
      t.Leads (k ((visited caller limit i t.singletons).map fun _ => ())) th K') :
    t.Leads ((yieldItem (.ref x)).follow k) th K := by
  obtain ⟨stack, transients, frame, callers⟩ := th
  rw [yieldItem, follow_bind, leads_pushWindow, either_ok, follow_bind]
  refine leads_yieldBlock passed searching.block ?_
  refine leads_callBlock (searching.closed.more ?_) rfl Nat.one_lt_two
    (Window.values_fresh stack [.ref x] true) (searching.sub pair) rfl fun id => ?_
  · rw [Array.toList_appendList]
    exact List.Subset.trans within (List.subset_append_left _ _)
  refine leads_checkSquare owner rfl rfl rfl bounded fits searching fun K' searching' => ?_
  have rest := rest K' searching'
  rw [leads_releaseWindow, leads_leave]
  change t.Leads _ ⟨Array.shrink (stack ++ [Value.ref x]) stack.size, transients, frame, callers⟩ K'
  rw [Window.shrink_pushed]
  cases outcome : visited caller limit i t.singletons with
  | ok v =>
    rw [outcome] at rest
    exact rest
  | error h =>
    rw [outcome] at rest
    exact rest

/-- The items are visited up to the first number whose square is above the limit. -/
lemma leads_forEach_yieldItem {k : Except Halt Unit → Course Crew β} {roots : List Value}
    {caller : FrameId} {found : Nat} {a : Address} {items : List Value} {numbers : List Nat}
    (owner : t.owner) (passed : th.frame.block = some b) (bounded : limit < 2 ^ 62)
    (fits : ∀ i ∈ numbers, i * i < 2 ^ 62) (pairs : F.Items a items (numbers.map pairOf))
    (within : roots ⊆ th.stack.toList) (finds : numbers.find? (limit < · ^ 2) = some found)
    (searching : Searching F s b (checking s limit (some caller)) roots K)
    (rest : ∀ K', Searching F s b (checking s limit (some caller)) roots K' →
      t.Leads (k (.error (.error (.break caller (small found))))) th K') :
    t.Leads ((forEach yieldItem items).follow k) th K := by
  induction numbers generalizing K items with
  | nil => cases finds
  | cons i numbers ih =>
    cases pairs with
    | cons first others =>
      obtain ⟨x, rfl, _, pair⟩ := first
      rw [forEach, follow_bind]
      refine leads_yieldItem owner passed bounded (fits i (List.mem_cons_self ..)) pair within
        searching fun K' searching' => ?_
      rw [List.find?_cons, Nat.pow_two] at finds
      by_cases above : limit < i * i
      · rw [decide_eq_true above] at finds
        cases finds
        rw [visited, if_pos above]
        exact rest K' searching'
      · rw [decide_eq_false above] at finds
        rw [visited, if_neg above]
        exact ih (fun j mem => fits j (List.mem_cons_of_mem _ mem)) others finds searching'

lemma leads_each {k : Except Halt Value → Course Crew β} {roots : List Value} {caller : FrameId}
    {found : Nat} {a : Address} {numbers : List Nat} (owner : t.owner)
    (passed : th.frame.block = some b) (bounded : limit < 2 ^ 62)
    (fits : ∀ i ∈ numbers, i * i < 2 ^ 62) (pairs : F.Lists a (numbers.map pairOf))
    (within : roots ⊆ th.stack.toList) (finds : numbers.find? (limit < · ^ 2) = some found)
    (searching : Searching F s b (checking s limit (some caller)) roots K)
    (rest : ∀ K', Searching F s b (checking s limit (some caller)) roots K' →
      t.Leads (k (.error (.error (.break caller (small found))))) th K') :
    t.Leads ((each (.ref a) (.fresh th.stack.size 0 false)).follow k) th K := by
  obtain ⟨items, here, pairs⟩ := pairs
  obtain ⟨stack, transients, frame, callers⟩ := th
  have expect : (Window.fresh stack.size 0 false).expect (.exactly 0) [] = .ok () := rfl
  simp only [each, follow_ensuring, follow_bind, follow_ofExcept, expect, mapError_ok, either_ok,
    arrayItems]
  refine leads_read_eq (a := some items) (fun m at_ => ?_) ?_
  · simp [Value.cell?, Machine.object?_of_payload? (at_.bears _ (searching.sub here)), Object.array?]
  simp only [either_ok, follow_bind]
  refine leads_forEach_yieldItem owner passed bounded fits pairs within finds searching
    fun K' searching' => ?_
  rw [either_error, leads_releaseWindow]
  have released : stack.shrink (Window.fresh stack.size 0 false).origin = stack := by
    simp [Window.fresh]
  exact released.symm ▸ rest K' searching'

lemma addPair_eq (p : Address) (i : Nat) : addPair p (.ofNat i) = append p (pairOf i) := by
  rw [addPair, ← Int64.ofNat_mul]
  rfl

/-- The call of the loop ends with the number that its block broke out with. -/
lemma leads_callEach {k : Except Halt Value → Course Crew β} {p : Address} {found : Nat}
    {numbers : List Nat} (owner : t.owner) (bounded : limit < 2 ^ 62)
    (fits : ∀ i ∈ numbers, i * i < 2 ^ 62) (pairs : F.Lists p (numbers.map pairOf))
    (finds : numbers.find? (limit < · ^ 2) = some found) (free : ∀ o', .cell b o' ∉ F)
    (searching : Searching F s b (checking s limit none) th.stack.toList K)
    (rest : t.Leads (k (.ok (small found))) th F) :
    t.Leads ((callMethod methods (Workload.methodOf "each" Workload.eachBody) (.ref p)
      (.fresh th.stack.size 0 false) (some b)).follow k) th K := by
  have ⟨items, here, _⟩ := pairs
  obtain ⟨stack, transients, frame, callers⟩ := th
  refine leads_callMethod fun id => leads_attached owner searching.block rfl fun consistent => ?_
  have closed : (K.put b (.block (checking s limit (some frame.id)))).Closed stack.toList :=
    searching.closed.put consistent searching.block fun _ child => child
  have attached : Searching F s b (checking s limit (some frame.id)) stack.toList
      (K.put b (.block (checking s limit (some frame.id)))) := by
    obtain ⟨n, visits⟩ := searching.visits
    exact ⟨closed, Knowledge.subset_put searching.sub free, searching.apart,
      Knowledge.cell_mem_put _ _, searching.other, n,
      Knowledge.mem_put_of_ne visits (Ne.symm searching.other)⟩
  refine leads_dispatch (o := .array items) rfl (fun m at_ => ?_) (by simp) (by simp) ?_
  · exact Machine.object?_of_payload? (at_.bears _ (attached.sub here))
  refine leads_each owner rfl bounded fits pairs (List.Subset.refl _) finds attached fun K' after => ?_
  refine leads_modifyObject owner after.block (by simp [Object.IsFixed]) fun _ => ?_
  rw [leads_leave, landed_break]
  exact rest.mono (Knowledge.subset_put after.sub free)

lemma leads_findSquareAbove {k : Except Halt Value → Course Crew β} (limit found : Nat)
    (owner : t.owner) (closed : K.Closed th.stack.toList) (bounded : limit < 2 ^ 62)
    (finds : (List.range 20).find? (limit < · ^ 2) = some found)
    (rest : t.Leads (k (.ok (small found))) th K) :
    t.Leads ((findSquareAbove (.ofNat limit)).follow k) th K := by
  obtain ⟨stack, transients, frame, callers⟩ := th
  rw [findSquareAbove, follow_bind]
  refine leads_new owner closed fun p fresh => ?_
  rw [either_ok, follow_bind, leads_pushWindow, either_ok, follow_ensuring, follow_bind]
  have pushed : (stack ++ [Value.ref p]).toList = stack.toList ++ [.ref p] :=
    Array.toList_appendList
  have rooted : Value.ref p ∈ (stack ++ [Value.ref p]).toList := by simp
  have closed₁ := (closed.more (pushed ▸ List.subset_append_left _ _)).rooted rooted (.array #[])
  refine leads_appendEach (F := K) (f := pairOf) [] (addPair_eq p) owner fresh
    (fun K₂ closed₂ sub₂ pairs => ?_) closed₁ (Set.subset_insert _ _)
    ⟨#[], Set.mem_insert _ _, .nil⟩
  rw [either_ok, follow_bind]
  refine leads_new owner closed₂ fun s apart => ?_
  rw [either_ok, follow_bind]
  refine leads_new_holding owner ?_ fun b free => ?_
  · exact (closed₂.more (List.subset_append_left _ _)).rooted
      (by simp [Object.children, BlockObject.closure]) _
  rw [either_ok, follow_bind, leads_pushWindow, either_ok, follow_ensuring, follow_bind]
  have self : (Window.fresh stack.size 1 false).get 0
      (stack ++ [Value.ref p] ++ [Value.ref s, Value.ref b]) = .ok (.ref p) :=
    Window.get_fresh_below stack [.ref p] _ false Nat.one_pos
  rw [leads_readStack]
  change t.Leads (either _ _ (Except.mapError Halt.fault (Window.get (.fresh stack.size 1 false) 0
    (stack ++ [Value.ref p] ++ [Value.ref s, Value.ref b])))) _ _
  rw [self, mapError_ok, either_ok, follow_bind, leads_pushWindow, either_ok]
  have other : b ≠ s := by
    rintro rfl
    exact free _ (Set.mem_insert _ _)
  refine leads_callEach (s := s) owner bounded (by decide) pairs finds
    (fun o' mem => free o' (.inr mem)) ?_ ?_
  · have more : (stack ++ [Value.ref p]).toList ⊆
        (stack ++ [Value.ref p] ++ [Value.ref s, Value.ref b]).toList := by
      have split : (stack ++ [Value.ref p] ++ [Value.ref s, Value.ref b]).toList =
          (stack ++ [Value.ref p]).toList ++ [.ref s, .ref b] := Array.toList_appendList
      rw [split]
      exact List.subset_append_left _ _
    have closed₃ := ((closed₂.more more).rooted (a := s) (by simp) (.scope none #[.smallInt 0])).rooted
      (a := b) (by simp) (.block (checking s limit none))
    exact ⟨closed₃, (Set.subset_insert _ _).trans (Set.subset_insert _ _), apart, .inl rfl, other, 0,
      .inr (.inl rfl)⟩
  · -- both windows are released, the newer one first
    rw [leads_releaseWindow, leads_releaseWindow]
    change t.Leads _ ⟨((stack ++ [Value.ref p] ++ [Value.ref s, Value.ref b]).shrink
      (stack ++ [Value.ref p]).size).shrink stack.size, transients, frame, callers⟩ K₂
    rw [Window.shrink_pushed, Window.shrink_pushed]
    exact rest.mono sub₂

end Terms

end CellMachine
