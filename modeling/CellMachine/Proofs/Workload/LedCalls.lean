import CellMachine.Proofs.Machine.Calling
import CellMachine.Proofs.Workload.Terms

/-!
# Where calls lead

Rules for calls of methods and blocks. A thread that keeps to closed knowledge, in which all cells
are anchored, loses nothing of it when it takes a slot or waits. A call leads on from where its
body leads to, in a frame of its own.
-/

namespace CellMachine

/-- A computed value that needs no cell of its own. -/
def Computed.inline? (ss : Singletons) : Computed → Option Value
  | .integer n => Value.smallInt? n
  | .double d => some (.double d)
  | .truth b => some (ss.ofBool b)

section Outcomes

variable {ε ε' α : Type} (f : ε → ε')

@[simp] lemma mapError_ok (a : α) : (Except.ok a : Except ε α).mapError f = .ok a := rfl

@[simp] lemma mapError_error (e : ε) : (Except.error e : Except ε α).mapError f = .error (f e) :=
  rfl

end Outcomes

namespace Window

variable (stack : Array Value) (values : List Value)

lemma shrink_pushed : (stack ++ values).shrink stack.size = stack := by
  apply Array.ext'
  simp

lemma get_fresh (hasKeywords : Bool) {i : Nat} (known : i < values.length) :
    (fresh stack.size values.length hasKeywords).get i (stack ++ values) = .ok values[i] := by
  have here : (stack ++ values)[stack.size + i]? = some values[i] := by
    rw [← Array.getElem?_toList, Array.toList_appendList, List.getElem?_append_right (by simp)]
    simp [known]
  rw [get, fresh, if_pos known, element, here]

/-- What is pushed on top of a window does not matter to it. -/
lemma get_fresh_below (more : List Value) (hasKeywords : Bool) {i : Nat}
    (known : i < values.length) : (fresh stack.size values.length hasKeywords).get i
      (stack ++ values ++ more) = .ok values[i] := by
  have here : (stack ++ values ++ more)[stack.size + i]? = some values[i] := by
    rw [← Array.getElem?_toList, Array.toList_appendList, Array.toList_appendList,
      List.append_assoc, List.getElem?_append_right (by simp), List.getElem?_append_left (by simpa)]
    simp [known]
  rw [get, fresh, if_pos known, element, here]

lemma values_fresh (withKeywords : Bool) :
    (fresh stack.size values.length false).values withKeywords (stack ++ values) = .ok values := by
  have all : ((stack ++ values).extract stack.size (stack.size + values.length)).toList = values := by
    simp
  have size : (stack ++ values).size = stack.size + values.length := by
    have pushed : (stack ++ values).toList = stack.toList ++ values := Array.toList_appendList
    have length := congrArg List.length pushed
    rwa [List.length_append] at length
  have within : stack.size + values.length ≤ (stack ++ values).size := size.ge
  rw [Window.values, count, fresh, Bool.false_and, if_neg Bool.false_ne_true, slice,
    if_pos ⟨Nat.le_add_right _ _, within⟩, all]

end Window

@[simp] lemma landed_ok (id : FrameId) (v : Value) : landed id (.ok v) = .ok v := rfl

@[simp] lemma landed_break (id : FrameId) (v : Value) :
    landed id (.error (.error (.break id v))) = .ok v := if_pos rfl

namespace Course

variable {σ α β : Type}

@[simp] lemma follow_landing {k : Except Halt Value → Course σ β} (id : FrameId)
    (x : Course σ Value) : (landing id x).follow k = x.follow fun r => k (landed id r) := by
  simp only [landing, follow_bind, follow_outcome, either_ok]
  refine congrArg (Course.follow · x) (funext fun r => ?_)
  rcases r with (e | _ | _ | _) | _
  · cases e with
    | «break» target v =>
      simp only [landed]
      split <;> rfl
    | _ => rfl
  all_goals rfl

end Course

namespace Terms

open Course

variable {σ α β : Type} {t : Terms β} {th : ThreadState} {K : Knowledge}

section Closed

variable {k : Except Halt Address → Course σ β} {o : Object}

/-- A new cell, with what it holds among the roots while it is taken. -/
lemma leads_new_holding (owner : t.owner) (closed : K.Closed (th.stack.toList ++ o.children))
    (rest : ∀ a, (∀ o', .cell a o' ∉ K) → t.Leads (k (.ok a)) th (insert (.cell a o) K)) :
    t.Leads ((allocate o).follow k) th K := by
  have kept := closed.subset_kept (List.Subset.refl _)
  refine leads_allocate owner fun a fresh => ?_
  exact (rest a fun o' known => fresh o' (kept known)).mono (Set.insert_subset_insert kept)

lemma leads_new (owner : t.owner) (closed : K.Closed th.stack.toList)
    (rest : ∀ a, (∀ o', .cell a o' ∉ K) → t.Leads (k (.ok a)) th (insert (.cell a o) K)) :
    t.Leads ((allocate o).follow k) th K :=
  leads_new_holding owner (closed.more (List.subset_append_left _ _)) rest

lemma leads_garbage (closed : K.Closed th.stack.toList)
    (rest : ∀ a, t.Leads (k (.ok a)) th K) : t.Leads ((allocate o).follow k) th K :=
  leads_allocate_garbage fun a => (rest a).mono (closed.subset_kept (List.Subset.refl _))

lemma leads_name {k : Except Halt Value → Course σ β} {name : String} (owner : t.owner)
    (closed : K.Closed th.stack.toList) (rest : ∀ a K', K ⊆ K' → .cell a (.symbol name) ∈ K' →
      K'.Consistent → K'.Closed th.stack.toList → t.Leads (k (.ok (.ref a))) th K') :
    t.Leads ((symbol name).follow k) th K := by
  refine leads_symbol owner fun a K' eq consistent => ?_
  have less : insert (.name name a) (insert (.cell a (.symbol name)) K) ⊆ K' :=
    eq ▸ Set.insert_subset_insert (Set.insert_subset_insert
      (closed.subset_kept (List.Subset.refl _)))
  exact (rest a _ (fun _ => .inr ∘ .inr) (.inr (.inl rfl)) (consistent.mono less)
    (closed.named _ _ _)).mono less

lemma leads_join {k : Except Halt String → Course σ β} {worker : Nat} {r : Except Halt String}
    (answer : t.answer worker = some r) (closed : K.Closed th.stack.toList)
    (rest : t.Leads (k r) th K) : t.Leads (join worker k) th K :=
  ⟨r, answer, rest.mono (closed.subset_kept (List.Subset.refl _))⟩

end Closed

section Calls

variable {run : Course.Runner σ} {m : MethodObject} {receiver : Value} {w : Window}
  {block : Option Address} {k : Except Halt Value → Course σ β}

lemma leads_inFrame {k : Except Halt α → Course σ β} {method : Option String}
    {outer block : Option Address} {target : Option FrameId} {x : Course σ α}
    (rest : ∀ id, t.Leads (x.follow fun r => leave.follow fun _ => k r)
      (th.enter id method outer block target) K) :
    t.Leads ((inFrame method outer block target x).follow k) th K := by
  rw [inFrame, follow_bind]
  refine leads_freshFrame fun id => ?_
  rw [either_ok, follow_bind, leads_onThread, either_ok, follow_ensuring]
  exact rest id

lemma leads_callMethod (rest : ∀ id,
      t.Leads ((attached block th.frame.id (dispatch run m (m.receiver.getD receiver) w block)).follow
        fun r => leave.follow fun _ => k (landed th.frame.id r))
        (th.enter id (some m.name) m.scope block none) K) :
    t.Leads ((callMethod run m receiver w block).follow k) th K := by
  rw [callMethod, follow_bind]
  refine leads_pollInterrupt ?_
  rw [either_ok]
  simp only [Bool.false_eq_true, if_false, follow_bind, either_ok, leads_frame, follow_landing]
  exact leads_inFrame rest

/-- A block that no running call has been passed knows its calling frame for the length of the
call. -/
lemma leads_attached {a : Address} {b : BlockObject} {caller : FrameId} {x : Course σ Value}
    (owner : t.owner) (known : .cell a (.block b) ∈ K) (detached : b.callingFrame = none)
    (rest : K.Consistent → t.Leads (x.follow fun r =>
        (modifyObject a (Object.withCallingFrame none)).follow fun _ => k r) th
      (K.put a (.block { b with callingFrame := some caller }))) :
    t.Leads ((attached (some a) caller x).follow k) th K := by
  simp only [attached, isDetached, follow_bind]
  refine leads_object? known ?_
  simp only [either_ok, detached, Option.isNone_none, follow_pure, if_true, follow_bind]
  refine leads_modifyObject owner known id fun consistent => ?_
  rw [either_ok, follow_ensuring]
  exact rest consistent

/-- The receiver of a method that is not optimized stays what it is, unless it is a number. -/
lemma leads_dispatch {a : Address} {o : Object} (plain : m.optimized = false)
    (here : ∀ m : Machine σ, m.At t.singletons th K → m.object? a = some o)
    (noInteger : ∀ n, o ≠ .integer n) (noFloat : ∀ d, o ≠ .float d)
    (rest : t.Leads ((run m.native (.ref a) w block).follow k) th K) :
    t.Leads ((dispatch run m (.ref a) w block).follow k) th K := by
  simp only [dispatch, plain, Bool.false_eq_true, if_false, follow_bind, follow_onHalt, promote]
  refine leads_read fun m' at_ => ?_
  have found := here m' at_
  rw [Machine.object?, Option.map_eq_some_iff] at found
  obtain ⟨c, there, rfl⟩ := found
  have stays : ∀ x, m'.synthesized? (.ref a) = some x → x = c.payload := by
    intro x synthesized
    simp only [Machine.synthesized?, there, Option.filter, Option.map_eq_some_iff] at synthesized
    obtain ⟨c', picked, rfl⟩ := synthesized
    split at picked
    · cases picked
      rfl
    · cases picked
  cases found : m'.synthesized? (.ref a) with
  | none => exact rest
  | some x =>
    obtain rfl := stays x found
    cases held : c.payload with
    | integer n => exact absurd held (noInteger n)
    | float d => exact absurd held (noFloat d)
    | _ => simpa only [either_ok, held, follow_pure] using rest

/-- An optimized method gets an inline number in a transient cell. -/
lemma leads_dispatch_inline {n : Int64} {stack : Array Value} (optimized : m.optimized = true)
    (passed : th.stack = stack ++ [Value.smallInt n])
    (rest : t.Leads ((run m.native receiver (.fresh stack.size 1 false) block).follow
        fun r => popTransient.follow fun _ => k r)
      { th with
        stack := stack ++ [Value.ref (.stack th.transients.size)]
        transients := th.transients.push (Cell.transient (.integer n)) } K) :
    t.Leads ((dispatch run m receiver (.fresh stack.size 1 false) block).follow k) th K := by
  obtain ⟨_, transients, frame, callers⟩ := th
  subst passed
  have get : (Window.fresh stack.size 1 false).get 0 (stack ++ [Value.smallInt n]) =
      .ok (.smallInt n) := Window.get_fresh stack [.smallInt n] false Nat.one_pos
  have one : (Window.fresh stack.size 1 false).count true = 1 := rfl
  have released : (stack ++ [Value.smallInt n]).shrink (Window.fresh stack.size 1 false).origin =
      stack := Window.shrink_pushed stack _
  rw [dispatch, if_pos optimized, if_pos one]
  simp only [follow_bind, follow_onHalt, leads_readStack, get, mapError_ok, either_ok,
    leads_releaseWindow, released, runSynthesized, withTransient, leads_onThread, follow_ensuring]
  exact rest

/-- A block with parameters gets the items of an array that is its only argument. -/
lemma leads_callBlock {b : BlockObject} {min : Nat} {a : Address} {items : Array Value}
    (closed : K.Closed th.stack.toList) (arity : b.arity = some ⟨min, some min⟩) (several : 1 < min)
    (alone : w.values true th.stack = .ok [.ref a]) (here : .cell a (.array items) ∈ K)
    (fitting : items.size = min)
    (rest : ∀ id, t.Leads ((run b.native b.receiver (.fresh th.stack.size items.size false) block).follow
        fun r => (releaseWindow w).follow fun _ => leave.follow fun _ => k r)
      { th.enter id none b.scope block b.callingFrame with stack := th.stack ++ items.toList } K) :
    t.Leads ((callBlock run b w block).follow k) th K := by
  obtain ⟨stack, transients, frame, callers⟩ := th
  have all : Window.fitted min (some min) t.singletons.nil items.toList = items.toList := by
    simp [Window.fitted, ← fitting]
  rw [callBlock]
  refine leads_inFrame fun id => ?_
  simp only [arity, follow_ensuring, follow_bind, parameters, leads_readStack]
  rw [show (ThreadState.enter id none b.scope block b.callingFrame
    ⟨stack, transients, frame, callers⟩).stack = stack from rfl, alone]
  simp only [mapError_ok, either_ok, Bool.true_and, decide_eq_true several, if_true, follow_bind]
  refine leads_object? here ?_
  simp only [either_ok, follow_pure, follow_bind]
  refine leads_nil ?_
  simp only [either_ok, all]
  refine leads_garbage closed fun _ => ?_
  simp only [either_ok, leads_pushWindow]
  exact rest id

lemma leads_yieldBlock {a : Address} {b : BlockObject} (passed : th.frame.block = some a)
    (here : .cell a (.block b) ∈ K) (rest : t.Leads ((callBlock run b w none).follow k) th K) :
    t.Leads ((yieldBlock run w).follow k) th K := by
  rw [yieldBlock, follow_bind, leads_frame]
  simp only [either_ok, passed, follow_bind]
  exact leads_object? here rest

end Calls

@[simp] lemma leads_operand_int {k : Except Halt Operand → Course σ β} (n : Int64) :
    t.Leads ((operand (.smallInt n)).follow k) th K ↔
      t.Leads (k (.ok (.number (.integer n)))) th K := Iff.rfl

lemma leads_operand_transient {k : Except Halt Operand → Course σ β} {n : Nat} {i : Int64}
    (here : th.transients[n]? = some (Cell.transient (.integer i)))
    (rest : t.Leads (k (.ok (.number (.integer i)))) th K) :
    t.Leads ((operand (.ref (.stack n))).follow k) th K := by
  rw [operand, follow_bind]
  exact leads_object?_transient here rest

lemma leads_settle {k : Except Halt Value → Course σ β} {c : Computed} {v : Value}
    (inline : c.inline? t.singletons = some v)
    (rest : t.Leads (k (.ok v)) th K) : t.Leads ((settle c).follow k) th K := by
  cases c with
  | integer n =>
    rw [settle, integer, show Value.smallInt? n = some v from inline]
    exact rest
  | double d =>
    cases inline
    exact rest
  | truth b =>
    cases inline
    exact leads_ofBool rest

end Terms

end CellMachine
