import CellMachine.Proofs.Machine.Arguments
import CellMachine.Proofs.Machine.ReachedWorlds
import CellMachine.Proofs.Machine.StackBelow

/-!
# The parameters of a block

A block with declared parameters is called with exactly these: what it is called with is spread
if it is a lone array, cut and filled up, and goes through an array in the heap to a window of
its own. The allocation of the array may collect, but what the caller holds is kept, and so is
all that is passed. The window that the block is called with stays on the stack until the body
ends. A block without declared parameters gets that window itself.
-/

namespace CellMachine

namespace BlockArity

variable {arity : BlockArity} {fill v : Value} {source : List Value}

/-- There is no maximum, or it is the minimum at least. -/
def Ordered (arity : BlockArity) : Prop := ∀ n, arity.max = some n → arity.min ≤ n

/-- At most as many values as the maximum, filled up to the minimum. -/
def fit (arity : BlockArity) (fill : Value) (source : List Value) : List Value :=
  (source.take (arity.max.getD source.length)).rightpad arity.min fill

lemma fitted_eq (arity : BlockArity) (fill : Value) (source : List Value) :
    Window.fitted arity.min arity.max fill source = arity.fit fill source := by
  rw [Window.fitted, fit, List.rightpad]
  cases arity.max with
  | none => rw [Option.getD_none, List.take_length, Option.map_none, Option.getD_none]
  | some n => rfl

lemma min_le_length_fit : arity.min ≤ (arity.fit fill source).length := by
  rw [fit, List.length_rightpad]
  exact le_max_left _ _

lemma length_fit_le (ordered : arity.Ordered) {n : Nat} (declared : arity.max = some n) :
    (arity.fit fill source).length ≤ n := by
  have least := ordered n declared
  rw [fit, List.length_rightpad, declared, Option.getD_some, List.length_take]
  omega

lemma mem_of_mem_fit (mem : v ∈ arity.fit fill source) : v ∈ source ∨ v = fill := by
  rcases List.mem_append.mp mem with cut | filled
  · exact .inl (List.mem_of_mem_take cut)
  · exact .inr (List.eq_of_mem_replicate filled)

end BlockArity

namespace Window

/-- All values of a window, the keyword hash among them. -/
def contents (w : Window) (stack : Array Value) : List Value := (stack.extract w.start w.stop).toList

lemma values_eq {w : Window} {stack : Array Value} (inside : w.stop ≤ stack.size) :
    w.values true stack = .ok (w.contents stack) := by
  have all : w.count true = w.size := by rw [count, Bool.not_true, Bool.and_false,
    if_neg Bool.false_ne_true]
  rw [values, all, slice, if_pos ⟨Nat.le_add_right _ _, inside⟩]
  rfl

lemma mem_of_mem_contents {w : Window} {stack : Array Value} {v : Value}
    (mem : v ∈ w.contents stack) : v ∈ stack := by
  rw [contents, Array.toList_extract] at mem
  exact Array.mem_toList_iff.mp (List.mem_of_mem_drop (List.mem_of_mem_take mem))

end Window

namespace Machine

variable {σ τ : Type} {m m' : Machine σ} {a : Address} {b : BlockObject} {arity : BlockArity}
  {w : Window} {arguments source : List Value} {block : Option Address}

/-- Parameters come from the elements of an array that is the only argument, if more than one
is declared, and else from the arguments. -/
inductive Source (m : Machine σ) (min : Nat) : List Value → List Value → Prop where
  | elements {a : Address} {items : Array Value} (several : 1 < min)
      (lone : m.object? a = some (.array items)) : Source m min [.ref a] items.toList
  | arguments {values : List Value}
      (other : 1 < min → ∀ a items, values = [.ref a] → m.object? a ≠ some (.array items)) :
      Source m min values values

/-- The value is inline, or it refers to an object. -/
def IsPresent (m : Machine σ) (v : Value) : Prop := ∀ x, v = .ref x → (m.object? x).isSome

lemma exists_source (m : Machine σ) (min : Nat) (values : List Value) :
    ∃ source, m.Source min values source := by
  by_cases spread : 1 < min ∧ ∃ a items, values = [.ref a] ∧ m.object? a = some (.array items)
  · obtain ⟨several, a, items, rfl, lone⟩ := spread
    exact ⟨_, .elements several lone⟩
  · refine ⟨values, .arguments fun several a items same lone => ?_⟩
    exact spread ⟨several, a, items, same, lone⟩

lemma Source.congr {min : Nat} (sourced : m.Source min arguments source)
    (same : ∀ x, m'.object? x = m.object? x) : m'.Source min arguments source := by
  cases sourced with
  | elements several lone => exact .elements several ((same _).trans lone)
  | arguments other =>
    exact .arguments fun several a items only lone =>
      other several a items only ((same a).symm.trans lone)

lemma Source.unique {min : Nat} {source' : List Value} (sourced : m.Source min arguments source)
    (sourced' : m.Source min arguments source') : source = source' := by
  cases sourced with
  | @elements a items several lone =>
    cases sourced' with
    | elements _ lone' => rw [Object.array.inj (Option.some.inj (lone.symm.trans lone'))]
    | arguments other => exact absurd lone (other several a items rfl)
  | arguments other =>
    cases sourced' with
    | elements several lone => exact absurd lone (other several _ _ rfl)
    | arguments _ => rfl

lemma run_parameters (inside : w.stop ≤ m.thread.stack.size)
    (sourced : m.Source arity.min (w.contents m.thread.stack) source) :
    (VM.parameters w arity.min arity.max true true).run m =
      (.ok (arity.fit m.world.singletons.nil source), m) := by
  have read : (VM.readStack (w.values true)).run m = (.ok (w.contents m.thread.stack), m) := by
    rw [VM.run_readStack, Window.values_eq inside]
    rfl
  rw [VM.parameters, VM.run_bind_ok read, ← BlockArity.fitted_eq]
  generalize w.contents m.thread.stack = values at sourced
  cases sourced with
  | @elements a items several lone =>
    have found : (VM.object? a).run m = (.ok (some (.array items)), m) := by
      rw [VM.object?, VM.run_read, lone]
    have spread : (true && decide (1 < arity.min)) = true := by
      rwa [Bool.true_and, decide_eq_true_iff]
    dsimp only
    rw [if_pos spread, VM.run_bind_ok found]
    rfl
  | arguments other =>
    split
    · rename_i a
      split
      · rename_i spread
        have several : 1 < arity.min := by rwa [Bool.true_and, decide_eq_true_iff] at spread
        have found : (VM.object? a).run m = (.ok (m.object? a), m) := rfl
        dsimp only
        rw [VM.run_bind_ok found]
        split
        · rename_i items lone
          exact absurd lone (other several a items rfl)
        · rfl
      · rfl
    · rfl

/-- The body of a block starts in the second machine with a window of the parameters, and that
is all there is to the call of the block. -/
structure PassesParameters (m : Machine σ) (b : BlockObject) (arity : BlockArity) (w : Window)
    (block : Option Address) (source params : List Value) (start : Machine σ) : Prop where
  sourced : m.Source arity.min (w.contents m.thread.stack) source
  fitted : params = arity.fit m.world.singletons.nil source
  least : arity.min ≤ params.length
  greatest : ∀ n, arity.max = some n → params.length ≤ n
  thread : start.thread = { (m.entered none b.scope block b.callingFrame).thread with
    stack := m.thread.stack ++ params }
  window : (Window.fresh m.thread.stack.size params.length false).Holds start.thread.stack
    ⟨params, none⟩
  reached : start.Reached
  kept : ∀ x, m.Holds x → m.Sustains start (.ref x)
  live : (∀ v ∈ source, m.IsPresent v) → ∀ v ∈ params, start.IsPresent v ∧ m.Sustains start v
  runs : ∀ run, (VM.callBlock run b w block).run m =
    let window := Window.fresh m.thread.stack.size params.length false
    let (r, after) := (run b.native b.receiver window block).run start
    (r, VM.leave (VM.released w after))

/-- What parameters come from is held by the argument stack, directly or through an array. -/
lemma holds_of_mem_source (reached : m.Reached)
    (sourced : m.Source arity.min (w.contents m.thread.stack) source) {x : Address}
    (mem : .ref x ∈ source) (there : (m.object? x).isSome) : m.Holds x := by
  generalize shown : w.contents m.thread.stack = values at sourced
  have pushed : ∀ v ∈ values, v ∈ m.thread.stack := by
    rw [← shown]
    exact fun v => Window.mem_of_mem_contents
  cases sourced with
  | @elements a items several lone =>
    have holds : m.Holds a :=
      holds_of_mem_stack (pushed _ (List.mem_singleton_self _)) (by rw [lone]; rfl)
    have here := reached.payload?_of_object? lone fun x => by cases x <;> nofun
    exact holds.child here mem there
  | arguments other => exact holds_of_mem_stack (pushed _ mem) there

lemma holds_nil {extra : List Value} (orderly : m.world.Orderly extra) :
    m.IsPresent m.world.singletons.nil ∧
      ∀ x, m.world.singletons.nil = .ref x → m.Holds x := by
  have here : (m.object? m.world.singletons.nilCell).isSome := by
    rw [object?_of_payload? orderly.singletons.1]
    rfl
  constructor
  · rintro x same
    obtain rfl := Value.ref.inj same
    exact here
  · rintro x same
    obtain rfl := Value.ref.inj same
    refine holds_of_mem_globalRoots (orderly.mem_globalRoots ?_) here
    simp [World.singletonRoots, Singletons.nil]

/-- All parameters are there if what they come from is, since what is held is kept. -/
lemma live_of_kept (reached : m.Reached)
    (sourced : m.Source arity.min (w.contents m.thread.stack) source)
    (kept : ∀ x, m.Holds x → m.Sustains m' (.ref x)) (present : ∀ v ∈ source, m.IsPresent v)
    {v : Value} (mem : v ∈ arity.fit m.world.singletons.nil source) :
    m'.IsPresent v ∧ m.Sustains m' v := by
  obtain ⟨extra, orderly⟩ := reached.orderly
  have held : m.IsPresent v ∧ ∀ x, v = .ref x → m.Holds x := by
    rcases BlockArity.mem_of_mem_fit mem with passed | rfl
    · refine ⟨present v passed, ?_⟩
      rintro x rfl
      exact holds_of_mem_source reached sourced passed (present _ passed x rfl)
    · exact holds_nil orderly
  have sustains : m.Sustains m' v := by
    rintro x o rfl there
    exact kept x (held.2 x rfl) x o rfl there
  refine ⟨?_, sustains⟩
  rintro x rfl
  obtain ⟨o, there⟩ := Option.isSome_iff_exists.mp (held.1 x rfl)
  rw [sustains x o rfl there]
  rfl

/-- The values have been put into a new array, and then on the stack. -/
structure Lays (m : Machine σ) (values : List Value) (start : Machine σ) : Prop where
  thread : start.thread = { m.thread with stack := m.thread.stack ++ values }
  world : start.world = (m.world.allocate m.argStacks (.array values.toArray)).2
  kept : ∀ x, m.Holds x → m.Sustains start (.ref x)
  runs : ∀ f : Window → VM σ Value, (do
    let _ ← VM.allocate (.array values.toArray)
    let w ← VM.pushWindow values false
    f w).run m = (f (.fresh m.thread.stack.size values.length false)).run start

lemma exists_lays (sound : m.world.heap.Sound) {values : List Value}
    (fits : ∃ c, m.world.heap.classOf (.array values.toArray) = .ok c) :
    ∃ start, m.Lays values start := by
  obtain ⟨array, after, allocated, allocates⟩ := m.allocates sound fits
  refine ⟨{ after with thread := { after.thread with stack := after.thread.stack ++ values } },
    ?_, allocates.world, fun x holds => ?_, fun f => ?_⟩
  · change { after.thread with stack := after.thread.stack ++ values } = _
    rw [allocates.thread]
  · have unchanged : m.Sustains after (.ref x) := by
      rintro y o same there
      obtain rfl := Value.ref.inj same
      exact (allocates.holds holds).2.2.trans there
    exact unchanged.trans (sustains_pushed after _ _)
  · rw [VM.run_bind_ok allocated, ← allocates.thread]
    rfl

lemma passesParameters (reached : m.Reached) (here : m.object? a = some (.block b))
    (inside : w.stop ≤ m.thread.stack.size) (declared : b.arity = some arity)
    (ordered : arity.Ordered) (block : Option Address) :
    ∃ source params start, m.PassesParameters b arity w block source params start := by
  obtain ⟨extra, arises⟩ := reached.world
  have orderly := arises.orderly
  let entered := m.entered none b.scope block b.callingFrame
  obtain ⟨source, sourced⟩ := m.exists_source arity.min (w.contents m.thread.stack)
  let params := arity.fit m.world.singletons.nil source
  have same : ∀ x, entered.object? x = m.object? x := fun x => by cases x <;> rfl
  have ran : (VM.parameters w arity.min arity.max true true).run entered = (.ok params, entered) :=
    run_parameters (m := entered) inside (sourced.congr same)
  have fits : ∃ c, entered.world.heap.classOf (.array params.toArray) = .ok c := by
    have there := reached.payload?_of_object? here fun x => by cases x <;> nofun
    have smaller : (Object.array params.toArray).size ≤ (Object.block b).size :=
      (by decide : 32 ≤ 72)
    exact Heap.exists_classOf_of_le smaller (orderly.furnished.sized a _ there)
  obtain ⟨start, lays⟩ := entered.exists_lays orderly.sound fits
  have kept : ∀ x, m.Holds x → m.Sustains start (.ref x) := fun x holds y o ref there =>
    lays.kept x holds y o ref ((same y).trans there)
  refine ⟨source, params, start, sourced, rfl, BlockArity.min_le_length_fit,
    fun n => BlockArity.length_fit_le ordered, lays.thread, ?_, ⟨⟨extra, ?_⟩, ?_⟩, kept,
    fun present v mem => live_of_kept reached sourced kept present mem, fun run => ?_⟩
  · have holds := Window.holds_fresh ⟨params, none⟩ m.thread.stack
    rw [Arguments.all, Option.map_none, Option.toList_none, List.append_nil] at holds
    rw [lays.thread]
    exact holds
  · rw [lays.world]
    exact (arises.change .freshFrame).allocate _ (.of_hash? rfl)
  · rw [lays.thread]
    exact reached.transients
  · rw [VM.callBlock, Situation.run_inFrame, declared, VM.run_ensuring, VM.run_bind_ok ran,
      lays.runs fun window => run b.native b.receiver window block]
    rfl

/-- Without declared parameters the body gets the window of the call. -/
structure Forwards (m : Machine σ) (b : BlockObject) (w : Window) (block : Option Address) :
    Prop where
  stack : (m.entered none b.scope block b.callingFrame).thread.stack = m.thread.stack
  objects : ∀ x, (m.entered none b.scope block b.callingFrame).object? x = m.object? x
  runs : ∀ run, (VM.callBlock run b w block).run m =
    let (r, after) := (run b.native b.receiver w block).run
      (m.entered none b.scope block b.callingFrame)
    (r, VM.leave after)

lemma forwards (m : Machine σ) (undeclared : b.arity = none) (w : Window) (block : Option Address) :
    m.Forwards b w block := by
  refine ⟨rfl, fun x => by cases x <;> rfl, fun run => ?_⟩
  rw [VM.callBlock, Situation.run_inFrame, undeclared]

/-- The stack of the first machine lies beneath the window all the time that a native body runs
with it, and it is what is left in the end. -/
structure LiesBeneath (m start : Machine (σ × τ)) (native : Native) (receiver : Value) (w : Window)
    (block : Option Address) : Prop where
  meanwhile : ∀ note table lost depth,
    (Body.runnerAt note (table.watchful m.thread.stack lost) depth native receiver w block).run
        start = (Body.runnerAt note table depth native receiver w block).run start
  after : ∀ note table depth,
    ((Body.runnerAt note table depth native receiver w block).run start).2.thread.stack =
      m.thread.stack

lemma liesBeneath {m start : Machine (σ × τ)} {params : List Value}
    (pushed : start.thread.stack = m.thread.stack ++ params) (native : Native) (receiver : Value)
    (block : Option Address) :
    m.LiesBeneath start native receiver (.fresh m.thread.stack.size params.length false) block := by
  have above := Window.above_fresh (Window.shrink_size m.thread.stack) params false
  constructor
  · intro note table lost depth
    exact (Body.agreeAbove_watchful note table m.thread.stack lost depth native receiver _ block _
      above start pushed).symm
  · intro note table depth
    have left : ((Body.runnerAt note table depth native receiver _ block).run start).2.thread.stack =
        (m.thread.stack ++ params).shrink m.thread.stack.size :=
      Body.cutsAll_runnerAt note table depth native receiver _ block _ above.toTopmost start pushed
    rwa [Window.shrink_append le_rfl, Window.shrink_size] at left

/-- A block that its caller holds is called with the window of the call, or else with the
parameters that it has declared, all of which are there when its body starts. -/
theorem block_parameters {m : Machine (σ × τ)} (reached : m.Reached)
    (here : m.object? a = some (.block b)) (holds : m.Holds a)
    (inside : w.stop ≤ m.thread.stack.size) (block : Option Address) :
    (b.arity = none → m.Forwards b w block) ∧
    ∀ arity, b.arity = some arity → arity.Ordered → ∃ source params start,
      m.PassesParameters b arity w block source params start ∧
      m.Sustains start (.ref a) ∧ m.Sustains start b.receiver ∧
      m.LiesBeneath start b.native b.receiver (.fresh m.thread.stack.size params.length false)
        block := by
  refine ⟨fun undeclared => forwards m undeclared w block, fun arity declared ordered => ?_⟩
  obtain ⟨source, params, start, passes⟩ :=
    passesParameters reached here inside declared ordered block
  have receiver : m.Sustains start b.receiver := by
    intro x o same there
    have held : m.Holds x := by
      refine holds.child (reached.payload?_of_object? here fun x => by cases x <;> nofun) ?_
        (by rw [there]; rfl)
      rw [← same]
      exact List.mem_append_right _ (List.mem_singleton_self _)
    exact passes.kept x held x o rfl there
  exact ⟨source, params, start, passes, passes.kept a holds, receiver,
    liesBeneath (congrArg ThreadState.stack passes.thread) b.native b.receiver block⟩

def wordCell : Address := ((Client.raceWorld.place [] (.string "word")).1.toOption).getD default

def wordWorld : World := (Client.raceWorld.place [] (.string "word")).2

def pairCell : Address :=
  ((wordWorld.place [] (.array #[.smallInt 1, .ref wordCell])).1.toOption).getD default

def pairWorld : World := (wordWorld.place [] (.array #[.smallInt 1, .ref wordCell])).2

def threeParameters : BlockObject := ⟨.body 0, none, .smallInt 0, some ⟨3, some 3⟩, none⟩

def threeCell : Address := ((pairWorld.place [] (.block threeParameters)).1.toOption).getD default

def threeWorld : World := (pairWorld.place [] (.block threeParameters)).2

/-- A block has been pushed and a pair for it, and a signal has asked for a collection. -/
def pairPushed : Machine (Unit × Unit) :=
  standing { threeWorld with signals := ⟨false, true, true⟩ } #[.ref threeCell, .ref pairCell]
    ((), ())

lemma arises_threeWorld : threeWorld.Arises [] := by
  have new : Client.raceWorld.Arises [] := .create (eq_ok_get Client.made_raceSettings)
  have word : wordWorld.Arises [] := new.change (.place [] (.of_hash? rfl))
  have pair : pairWorld.Arises [] := word.change (.place [] (.of_hash? rfl))
  have placed := pair.change (.place [] (o := .block threeParameters) (.of_hash? rfl))
  rwa [threeWorld]

/-- The pair is spread and a nil added, and the word of the pair outlives the collection. -/
theorem block_parameters_pair : pairPushed.Reached ∧
    pairPushed.object? threeCell = some (.block threeParameters) ∧ pairPushed.Holds threeCell ∧
    (Window.fresh 1 1 false).stop ≤ pairPushed.thread.stack.size ∧
    ∃ start, pairPushed.PassesParameters threeParameters ⟨3, some 3⟩ (.fresh 1 1 false) none
        [.smallInt 1, .ref wordCell] [.smallInt 1, .ref wordCell, pairPushed.world.singletons.nil]
        start ∧
      start.object? wordCell = some (.string "word") ∧
      pairPushed.LiesBeneath start (.body 0) (.smallInt 0) (.fresh 2 3 false) none := by
  have reached : pairPushed.Reached :=
    reached_standing (arises_threeWorld.change (.signals ⟨false, true, true⟩)) _ _
  have here : pairPushed.object? threeCell = some (.block threeParameters) := by decide +kernel
  have pair : pairPushed.object? pairCell = some (.array #[.smallInt 1, .ref wordCell]) := by
    decide +kernel
  have word : pairPushed.object? wordCell = some (.string "word") := by decide +kernel
  have holds : pairPushed.Holds threeCell := by
    refine holds_of_mem_stack ?_ (by rw [here]; rfl)
    exact Array.mem_toList_iff.mp List.mem_cons_self
  refine ⟨reached, here, holds, le_rfl, ?_⟩
  obtain ⟨_, parameters⟩ := block_parameters reached here holds (w := .fresh 1 1 false) le_rfl none
  have ordered : BlockArity.Ordered ⟨3, some 3⟩ := fun n same => (Option.some.inj same).le
  obtain ⟨source, params, start, passes, _, _, beneath⟩ := parameters ⟨3, some 3⟩ rfl ordered
  have elements : source = [.smallInt 1, .ref wordCell] :=
    passes.sourced.unique (.elements (by decide) pair)
  subst elements
  have all : params = [.smallInt 1, .ref wordCell, pairPushed.world.singletons.nil] := passes.fitted
  subst all
  have present : ∀ v ∈ [Value.smallInt 1, .ref wordCell], pairPushed.IsPresent v := by
    rintro v mem x rfl
    have same : x = wordCell := by simpa using mem
    rw [same, word]
    rfl
  have sustains := (passes.live present (.ref wordCell) (by simp)).2
  exact ⟨start, passes, sustains wordCell _ rfl word, beneath⟩

end Machine

end CellMachine
