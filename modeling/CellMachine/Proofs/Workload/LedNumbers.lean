import CellMachine.Proofs.Machine.FastPath
import CellMachine.Proofs.Workload.LedCalls
import CellMachine.Proofs.Workload.WorkloadCourses

/-!
# Where the arithmetic of the workload leads

On small numbers the primitives need no cells: the operand of a call lives on the thread's own
stack while the call goes on. So the sum loses nothing of what is anchored, whatever becomes of the
arrays it leaves behind, and the scaled sum is found by the names of its keywords.
-/

namespace CellMachine

namespace Value

/-- A number that is kept inline. -/
def small (n : Nat) : Value := .smallInt (.ofNat n)

lemma smallInt?_ofNat {n : Nat} (fits : n < 2 ^ 62) : smallInt? (.ofNat n) = some (small n) := by
  have exact_ : (Int64.ofNat n).toInt = n := Int64.toInt_ofNat_of_lt (by omega)
  have least : smallIntMin.toInt = -4611686018427387904 := by decide
  have greatest : smallIntMax.toInt = 4611686018427387903 := by decide
  refine if_pos ?_
  rw [Int64.le_iff_toInt_le, Int64.le_iff_toInt_le, exact_]
  omega

end Value

lemma Computed.exactly_ofNat {n : Nat} (fits : n < 2 ^ 62) :
    Computed.exactly n = .ok (.integer (.ofNat n)) := by
  have least : Int64.minValue.toInt = -9223372036854775808 := by decide
  have greatest : Int64.maxValue.toInt = 9223372036854775807 := by decide
  refine (if_pos ?_).trans ?_
  · omega
  · rw [Int64.ofInt_eq_ofNat]

namespace Primitive

variable {a b : Nat}

lemma apply_integerAdd (fits : a + b < 2 ^ 62) :
    integerAdd.apply (.number (.integer (.ofNat a))) (.number (.integer (.ofNat b))) =
      .ok (.integer (.ofNat (a + b))) := by
  change Computed.exactly ((Int64.ofNat a).toInt + (Int64.ofNat b).toInt) = _
  rw [Int64.toInt_ofNat_of_lt (by omega), Int64.toInt_ofNat_of_lt (by omega), ← Int.natCast_add]
  exact Computed.exactly_ofNat fits

lemma apply_integerMul (left : a < 2 ^ 62) (right : b < 2 ^ 62) (fits : a * b < 2 ^ 62) :
    integerMul.apply (.number (.integer (.ofNat a))) (.number (.integer (.ofNat b))) =
      .ok (.integer (.ofNat (a * b))) := by
  change Computed.exactly ((Int64.ofNat a).toInt * (Int64.ofNat b).toInt) = _
  rw [Int64.toInt_ofNat_of_lt (by omega), Int64.toInt_ofNat_of_lt (by omega), ← Int.natCast_mul]
  exact Computed.exactly_ofNat fits

lemma apply_integerLt (left : a < 2 ^ 62) (right : b < 2 ^ 62) :
    integerLt.apply (.number (.integer (.ofNat a))) (.number (.integer (.ofNat b))) =
      .ok (.truth (a < b)) := by
  change Except.ok (Computed.truth (Int64.ofNat a < Int64.ofNat b)) = _
  simp only [Int64.lt_iff_toInt_lt, Int64.toInt_ofNat_of_lt (show a < 2 ^ 63 by omega),
    Int64.toInt_ofNat_of_lt (show b < 2 ^ 63 by omega), Int.ofNat_lt]

end Primitive

namespace Terms

open Course Value

variable {β : Type} {t : Terms β} {th : ThreadState} {K : Knowledge}
  {k : Except Halt Value → Course Crew β}

lemma leads_runPrimitive {p : Primitive} {a b : Int64} {c : Computed} {v : Value}
    {stack : Array Value} {n : Nat}
    (computed : p.apply (.number (.integer a)) (.number (.integer b)) = .ok c)
    (inline : c.inline? t.singletons = some v)
    (passed : th.stack = stack ++ [Value.ref (.stack n)])
    (here : th.transients[n]? = some (Cell.transient (.integer b)))
    (rest : t.Leads (k (.ok v)) { th with stack } K) :
    t.Leads ((runPrimitive p (.smallInt a) (.fresh stack.size 1 false)).follow k) th K := by
  obtain ⟨compute, on, computed⟩ := ok_of_bind computed
  have get : (Window.fresh stack.size 1 false).get 0 th.stack = .ok (.ref (.stack n)) :=
    passed ▸ Window.get_fresh stack [Value.ref (.stack n)] false Nat.one_pos
  have expect : (Window.fresh stack.size 1 false).expect (.exactly 1) [] = .ok () := rfl
  simp only [runPrimitive, follow_ensuring, follow_bind, follow_ofExcept, expect, mapError_ok,
    either_ok, leads_operand_int, on, leads_readStack, get]
  refine leads_operand_transient here ?_
  simp only [either_ok, computed, mapError_ok]
  refine leads_settle inline ?_
  rw [leads_releaseWindow, passed]
  exact (Window.shrink_pushed stack _).symm ▸ rest

/-- A primitive on two inline numbers whose result is inline too. -/
lemma leads_callPrimitive {p : Primitive} {a b : Int64} {c : Computed} {v : Value}
    (computed : p.apply (.number (.integer a)) (.number (.integer b)) = .ok c)
    (inline : c.inline? t.singletons = some v) (rest : t.Leads (k (.ok v)) th K) :
    t.Leads ((callPrimitive p (.smallInt a) (.smallInt b)).follow k) th K := by
  obtain ⟨stack, transients, frame, callers⟩ := th
  simp only [callPrimitive, follow_bind, leads_pushWindow, either_ok]
  refine leads_callMethod fun id => ?_
  refine leads_dispatch_inline rfl rfl ?_
  refine leads_runPrimitive computed inline rfl Array.getElem?_push_size ?_
  change t.Leads _ ⟨_, (transients.push _).pop, _, _⟩ K
  rw [Array.pop_push]
  exact rest

variable {a b : Nat}

lemma leads_add (fits : a + b < 2 ^ 62) (rest : t.Leads (k (.ok (small (a + b)))) th K) :
    t.Leads ((callPrimitive .integerAdd (small a) (small b)).follow k) th K :=
  leads_callPrimitive (Primitive.apply_integerAdd fits) (smallInt?_ofNat fits) rest

lemma leads_mul (left : a < 2 ^ 62) (right : b < 2 ^ 62) (fits : a * b < 2 ^ 62)
    (rest : t.Leads (k (.ok (small (a * b)))) th K) :
    t.Leads ((callPrimitive .integerMul (small a) (small b)).follow k) th K :=
  leads_callPrimitive (Primitive.apply_integerMul left right fits) (smallInt?_ofNat fits) rest

lemma leads_lt (left : a < 2 ^ 62) (right : b < 2 ^ 62)
    (rest : t.Leads (k (.ok (t.singletons.ofBool (a < b)))) th K) :
    t.Leads ((callPrimitive .integerLt (small a) (small b)).follow k) th K :=
  leads_callPrimitive (Primitive.apply_integerLt left right) rfl rest

lemma leads_addStep (closed : K.Closed th.stack.toList) (fits : a + b < 2 ^ 62)
    (rest : t.Leads (k (.ok (small (a + b)))) th K) :
    t.Leads ((addStep (small a) (.ofNat b)).follow k) th K := by
  obtain ⟨stack, transients, frame, callers⟩ := th
  simp only [addStep, follow_bind, leads_pushWindow, either_ok, follow_ensuring, arrayOf,
    leads_readStack]
  have read : (Window.fresh stack.size [small a, .smallInt (.ofNat b)].length false).values true
      (stack ++ [small a, .smallInt (.ofNat b)]) = .ok [small a, .smallInt (.ofNat b)] :=
    Window.values_fresh stack _ true
  rw [read, mapError_ok, either_ok]
  refine leads_garbage (closed.more ?_) fun _ => ?_
  · rw [Array.toList_appendList]
    exact List.subset_append_left _ _
  refine leads_add fits ?_
  rw [leads_releaseWindow]
  exact (Window.shrink_pushed stack _).symm ▸ rest

/-- What remains of the sum is added to the sum of all smaller numbers. -/
lemma leads_sumFrom {n m i : Nat} (closed : K.Closed th.stack.toList) (ahead : i + m = n)
    (fits : n * (n - 1) / 2 < 2 ^ 62) (rest : t.Leads (k (.ok (small (n * (n - 1) / 2)))) th K) :
    t.Leads ((sumFrom m (.ofNat i) (small (i * (i - 1) / 2))).follow k) th K := by
  induction m generalizing i with
  | zero =>
    obtain rfl : i = n := ahead
    exact rest
  | succ m ih =>
    have next := Nat.triangle_succ i
    have below : (i + 1) * (i + 1 - 1) / 2 ≤ n * (n - 1) / 2 :=
      Nat.div_le_div_right (Nat.mul_le_mul (by omega) (by omega))
    have one : Int64.ofNat i + 1 = .ofNat (i + 1) := (Int64.ofNat_add i 1).symm
    rw [sumFrom, follow_bind]
    refine leads_addStep closed (by omega) ?_
    rw [either_ok, one, ← next]
    exact ih (by omega)

lemma leads_sumTo {n : Int64} {s : Nat} (closed : K.Closed th.stack.toList)
    (sum : s = n.toInt.toNat * (n.toInt.toNat - 1) / 2) (fits : s < 2 ^ 62)
    (rest : t.Leads (k (.ok (small s))) th K) : t.Leads ((sumTo n).follow k) th K := by
  subst sum
  exact leads_sumFrom (i := 0) closed (Nat.zero_add _) fits rest

lemma symbolName?_of_known {m : Machine Crew} (at_ : m.At t.singletons th K) {x : Address}
    {name : String} (known : .cell x (.symbol name) ∈ K) :
    m.symbolName? (.ref x) = some name := by
  rw [Machine.symbolName?, Machine.object?_of_payload? (at_.bears _ known)]

section Scale

variable {stack : Array Value} {v : Value} {f o h : Address}

/-- The window of a call with one value and keywords. -/
lemma leads_keywords {k : Except Halt Entries → Course Crew β} {es : Entries}
    (passed : th.stack = stack ++ [v, .ref h]) (here : .cell h (.hash es) ∈ K)
    (rest : t.Leads (k (.ok es)) th K) :
    t.Leads ((keywords (.fresh stack.size 2 true)).follow k) th K := by
  have last : (Window.fresh stack.size 2 true).get 1 (stack ++ [v, .ref h]) = .ok (.ref h) :=
    Window.get_fresh stack [v, .ref h] true (i := 1) Nat.one_lt_two
  have hash : (Window.fresh stack.size 2 true).keywordHash? th.stack = .ok (some h) := by
    rw [passed]
    change (fun v => v.bind Value.cell?) <$> (some <$> (Window.fresh stack.size 2 true).get 1 _) = _
    rw [last]
    rfl
  simp only [keywords, follow_bind, leads_readStack, hash, mapError_ok, either_ok, entriesOf]
  refine leads_object? here ?_
  exact rest

lemma leads_checkKeywords {k : Except Halt Unit → Course Crew β} {es : Entries}
    {required allowed : List String} {others : OtherKeywords}
    (passed : th.stack = stack ++ [v, .ref h]) (here : .cell h (.hash es) ∈ K)
    (accepted : ∀ m : Machine Crew, m.At t.singletons th K →
      es.fault? m.symbolName? required allowed others = none)
    (rest : t.Leads (k (.ok ())) th K) : t.Leads
      ((checkKeywords (.fresh stack.size 2 true) required allowed others).follow k) th K := by
  rw [checkKeywords, follow_bind]
  refine leads_keywords passed here ?_
  rw [either_ok, follow_bind]
  exact leads_read_eq accepted rest

lemma leads_keyword? {k : Except Halt (Option Value) → Course Crew β} {es : Entries}
    {name : String} {u : Value} (passed : th.stack = stack ++ [v, .ref h])
    (here : .cell h (.hash es) ∈ K) (named : ∀ m : Machine Crew, m.At t.singletons th K →
      es.named? m.symbolName? name = some u) (rest : t.Leads (k (.ok (some u))) th K) :
    t.Leads ((keyword? (.fresh stack.size 2 true) name).follow k) th K := by
  rw [keyword?, follow_bind]
  refine leads_keywords passed here ?_
  exact leads_read_eq named rest

variable (factor : .cell f (.symbol "factor") ∈ K) (offset : .cell o (.symbol "offset") ∈ K)

include factor offset

lemma leads_scale {s : Nat} (passed : th.stack = stack ++ [small s, .ref h])
    (here : .cell h (.hash [(.ref f, small 2), (.ref o, small 1)]) ∈ K) (fits : 2 * s + 1 < 2 ^ 62)
    (rest : t.Leads (k (.ok (small (2 * s + 1)))) { th with stack } K) :
    t.Leads ((scale (.fresh stack.size 2 true)).follow k) th K := by
  have expect : (Window.fresh stack.size 2 true).expect (.exactly 1) ["factor"] = .ok () := rfl
  have get : (Window.fresh stack.size 2 true).get 0 th.stack = .ok (small s) :=
    passed ▸ Window.get_fresh stack [small s, .ref h] true (i := 0) Nat.two_pos
  have released : th.stack.shrink (Window.fresh stack.size 2 true).origin = stack :=
    passed ▸ Window.shrink_pushed stack _
  have names : ∀ m : Machine Crew, m.At t.singletons th K →
      m.symbolName? (.ref f) = some "factor" ∧ m.symbolName? (.ref o) = some "offset" :=
    fun m at_ => ⟨symbolName?_of_known at_ factor, symbolName?_of_known at_ offset⟩
  simp only [scale, follow_ensuring, follow_bind, follow_ofExcept, expect, mapError_ok, either_ok]
  refine leads_checkKeywords passed here (fun m at_ => ?_) ?_
  · simp [Entries.fault?, Entries.except, Entries.isListed, Entries.keys, names m at_]
  simp only [either_ok, leads_readStack, get, mapError_ok, keyword, follow_bind]
  refine leads_keyword? (u := small 2) passed here (fun m at_ => ?_) ?_
  · simp [Entries.named?, names m at_]
  simp only [either_ok, follow_pure]
  refine leads_keyword? (u := small 1) passed here (fun m at_ => ?_) ?_
  · simp [Entries.named?, names m at_]
  rw [either_ok, Option.getD_some]
  refine leads_mul (by omega) (by omega) (by omega) ?_
  rw [either_ok]
  refine leads_add (by omega) ?_
  rw [leads_releaseWindow, released, Nat.mul_comm]
  exact rest

end Scale

lemma leads_callScale {s : Nat} (owner : t.owner) (closed : K.Closed th.stack.toList)
    (fits : 2 * s + 1 < 2 ^ 62) (rest : t.Leads (k (.ok (small (2 * s + 1)))) th K) :
    t.Leads ((callScale (small s)).follow k) th K := by
  obtain ⟨stack, transients, frame, callers⟩ := th
  rw [callScale, follow_bind]
  refine leads_name owner closed fun f K₁ sub₁ here₁ _ closed₁ => ?_
  rw [either_ok, follow_bind]
  refine leads_name owner closed₁ fun o K₂ sub₂ offset consistent closed₂ => ?_
  rw [either_ok, follow_bind]
  have factor : .cell f (.symbol "factor") ∈ K₂ := sub₂ here₁
  have apart : f ≠ o := by
    rintro rfl
    exact absurd (consistent _ _ _ factor offset) (by simp)
  have entries : Entries.ofList [(.ref f, .smallInt 2), (.ref o, .smallInt 1)] =
      [(.ref f, small 2), (.ref o, small 1)] := by
    simp [Entries.ofList, Entries.insert, apart, small]
  rw [entries]
  refine leads_new owner closed₂ fun h _ => ?_
  rw [either_ok, follow_bind]
  refine leads_nil ?_
  rw [either_ok, follow_bind, leads_pushWindow, either_ok]
  refine leads_callMethod fun id => ?_
  refine leads_dispatch (o := .nilObject) rfl (fun m at_ => ?_) (by simp) (by simp) ?_
  · exact Machine.object?_of_payload? at_.steady.cells.1
  refine leads_scale (.inr factor) (.inr offset) rfl (.inl rfl) fits ?_
  exact rest.mono ((sub₁.trans sub₂).trans (Set.subset_insert _ _))

/-- Without its keyword, the call is refused for the value that it lacks. -/
lemma leads_callWithoutArguments {k : Except Halt Unit → Course Crew β}
    (rest : t.Leads (k (.error (.error (.wrongCount 0 (.exactly 1) ["factor"])))) th K) :
    t.Leads (callWithoutArguments.follow k) th K := by
  obtain ⟨stack, transients, frame, callers⟩ := th
  have expect : (Window.fresh stack.size 0 false).expect (.exactly 1) ["factor"] =
      .error (.wrongCount 0 (.exactly 1) ["factor"]) := rfl
  rw [callWithoutArguments, follow_bind]
  refine leads_nil ?_
  rw [either_ok, follow_bind, leads_pushWindow, either_ok, follow_bind]
  refine leads_callMethod fun id => ?_
  refine leads_dispatch (o := .nilObject) rfl (fun m at_ => ?_) (by simp) (by simp) ?_
  · exact Machine.object?_of_payload? at_.steady.cells.1
  change t.Leads ((scale (.fresh stack.size 0 false)).follow _) _ _
  simp only [scale, follow_ensuring, follow_bind, follow_ofExcept, expect, mapError_error,
    either_error, leads_releaseWindow]
  change t.Leads _ ⟨(stack ++ ([] : List Value)).shrink stack.size, transients, frame, callers⟩ K
  rw [Window.shrink_pushed]
  exact rest

end Terms

end CellMachine
