import CellMachine.Proofs.Workload.ResultLine

/-!
# Where the main frame and its workers lead

The main frame keeps its results in one window while it joins its workers, and the texts that they
answer with in an array that the window holds. The values of the command line are kept by a global
variable from the start. So the line that is printed in the end is found from what is known alone,
and the values of the command line are still there.
-/

namespace CellMachine

namespace Workload

/-- The results or the error are printed first; lines about the heap may follow. -/
structure Printed.Reports (p : Printed) (o : Options) : Prop where
  status : p.status = if o.raise then 1 else 0
  errors : p.errors = if o.raise then [arityLine] else []
  output : ∃ more, p.output =
    (if o.raise then [] else [resultLine (sumBelow o.iterations) o.threads]) ++ more ∧
      (o.printStats = false → o.printObjects = false → more = [])

end Workload

namespace Terms

open Course Value

variable {β : Type} {t : Terms β} {th : ThreadState} {K F : Knowledge}

lemma leads_setGlobals {k : Except Halt Unit → Course Crew β} {program : String}
    {values : List String} (owner : t.owner) (rest : ∀ K', K'.Closed th.stack.toList →
      K'.HasArguments values → t.Leads (k (.ok ())) th K') :
    t.Leads ((setGlobals program values).follow k) th ∅ := by
  have closed : Knowledge.Closed ∅ th.stack.toList := Knowledge.Closed.empty _
  rw [setGlobals, follow_bind]
  refine leads_new owner closed fun e _ => ?_
  rw [either_ok, follow_bind]
  refine leads_setGlobal owner ?_
  rw [either_ok, follow_bind]
  have closed₁ := closed.bind (s := "$exe") (fun _ mem => absurd mem (Set.notMem_empty _)) e
    (.string program)
  refine leads_new owner closed₁ fun argv _ => ?_
  rw [either_ok, follow_bind]
  refine leads_setGlobal owner ?_
  rw [either_ok]
  have closed₂ := closed₁.bind (s := "ARGV") (by simp [Knowledge.bind]) argv (.array #[])
  -- what is known in between does not matter, but for the variable
  refine leads_appendEach (F := {.global "ARGV" (some (.ref argv))}) [] (fun _ => rfl)
    owner (by simp) (fun K' closed' sub' lists => ?_) closed₂ ?_ ?_
  · exact rest K' closed' ⟨argv, sub' rfl, lists⟩
  · exact Set.singleton_subset_iff.mpr (Set.mem_insert _ _)
  · exact ⟨#[], .inr ⟨.inl rfl, by simp⟩, .nil⟩

/-- One text after the other is added to the array. -/
lemma leads_joinWorkers {k : Except Halt Unit → Course Crew β} {a : Address} {text : String}
    {workers : List Nat} {n : Nat} (owner : t.owner)
    (answers : ∀ w ∈ workers, t.answer w = some (.ok text)) (free : ∀ o', .cell a o' ∉ F)
    (rest : ∀ K', K'.Closed th.stack.toList → F ⊆ K' →
      K'.Lists a (List.replicate (n + workers.length) (.string text)) → t.Leads (k (.ok ())) th K')
    (closed : K.Closed th.stack.toList) (sub : F ⊆ K)
    (lists : K.Lists a (List.replicate n (.string text))) :
    t.Leads ((joinWorkers a workers).follow k) th K := by
  induction workers generalizing K n with
  | nil => exact rest K closed sub lists
  | cons w workers ih =>
    rw [joinWorkers, follow_bind]
    refine leads_join (answers w (List.mem_cons_self ..)) closed ?_
    rw [follow_bind]
    refine leads_onHost fun _ => ?_
    rw [either_ok, follow_ofOutcome, either_ok, follow_bind]
    refine leads_append owner closed sub free lists fun K₁ closed₁ sub₁ lists₁ => ?_
    rw [either_ok]
    rw [← List.replicate_succ'] at lists₁
    refine ih (fun w' mem => answers w' (List.mem_cons_of_mem _ mem)) (fun K' closed' sub' all => ?_)
      closed₁ sub₁ lists₁
    refine rest K' closed' sub' ?_
    rwa [List.length_cons, ← Nat.add_assoc, Nat.add_right_comm]

lemma leads_resultHash {k : Except Halt Value → Course Crew β} {stack : Array Value}
    {r : Address} {sum threads : Nat} (owner : t.owner) (closed : K.Closed th.stack.toList)
    (passed : th.stack = stack ++ [small sum, small (2 * sum + 1), small 8, .ref r])
    (lists : K.Lists r (List.replicate threads (.string (toString sum))))
    (rest : ∀ h K', K ⊆ K' → K'.Results h r sum threads → t.Leads (k (.ok (.ref h))) th K') :
    t.Leads ((resultHash (.fresh stack.size 4 false)).follow k) th K := by
  have get : ∀ i (known : i < 4), (Window.fresh stack.size 4 false).get i th.stack =
      .ok [small sum, small (2 * sum + 1), small 8, .ref r][i] := fun i known =>
    passed ▸ Window.get_fresh stack [small sum, small (2 * sum + 1), small 8, .ref r] false known
  rw [resultHash, follow_bind]
  refine leads_name owner closed fun x₁ K₁ sub₁ here₁ _ closed₁ => ?_
  rw [either_ok, follow_bind]
  refine leads_name owner closed₁ fun x₂ K₂ sub₂ here₂ _ closed₂ => ?_
  rw [either_ok, follow_bind]
  refine leads_name owner closed₂ fun x₃ K₃ sub₃ here₃ _ closed₃ => ?_
  rw [either_ok, follow_bind]
  refine leads_name owner closed₃ fun x₄ K₄ sub₄ here₄ consistent closed₄ => ?_
  have all₁ : .cell x₁ (.symbol "sum") ∈ K₄ := sub₄ (sub₃ (sub₂ here₁))
  have all₂ : .cell x₂ (.symbol "scaled") ∈ K₄ := sub₄ (sub₃ here₂)
  have all₃ : .cell x₃ (.symbol "found") ∈ K₄ := sub₄ here₃
  -- one cell has one name
  have apart : ∀ {x y n m}, .cell x (.symbol n) ∈ K₄ → .cell y (.symbol m) ∈ K₄ → n ≠ m → x ≠ y := by
    rintro x y n m here there other rfl
    exact other (Object.symbol.inj (consistent _ _ _ here there))
  have entries : Entries.ofList [(.ref x₁, small sum), (.ref x₂, small (2 * sum + 1)),
      (.ref x₃, small 8), (.ref x₄, .ref r)] =
        [(.ref x₁, small sum), (.ref x₂, small (2 * sum + 1)), (.ref x₃, small 8),
          (.ref x₄, .ref r)] := by
    simp [Entries.ofList, Entries.insert, apart all₁ all₂ (by decide), apart all₁ all₃ (by decide),
      apart all₁ here₄ (by decide), apart all₂ all₃ (by decide), apart all₂ here₄ (by decide),
      apart all₃ here₄ (by decide)]
  simp only [either_ok, follow_bind, leads_readStack, get 0 (by decide), get 1 (by decide),
    get 2 (by decide), get 3 (by decide), mapError_ok]
  change t.Leads ((allocate (.hash (Entries.ofList [(.ref x₁, small sum),
    (.ref x₂, small (2 * sum + 1)), (.ref x₃, small 8), (.ref x₄, .ref r)]))).follow _) th K₄
  rw [entries]
  refine leads_new owner closed₄ fun h _ => ?_
  have sub : K ⊆ K₄ := ((sub₁.trans sub₂).trans sub₃).trans sub₄
  have more := Set.subset_insert (.cell h (.hash [(.ref x₁, small sum), (.ref x₂, small (2 * sum + 1)),
    (.ref x₃, small 8), (.ref x₄, .ref r)])) K₄
  refine rest h _ (sub.trans more) ⟨⟨_, .inl rfl, ?_⟩, lists.mono (sub.trans more)⟩
  exact .cons ⟨x₁, rfl, .inr all₁⟩ (.cons ⟨x₂, rfl, .inr all₂⟩
    (.cons ⟨x₃, rfl, .inr all₃⟩ (.cons ⟨x₄, rfl, .inr here₄⟩ .nil)))

/-- What the main frame comes to: the error that was asked for, or the hash of its results. -/
def MainEnds (o : Options) (r : Except Halt Value) (K : Knowledge) : Prop :=
  if o.raise then r = .error (.error Workload.arityError)
  else ∃ h a, r = .ok (.ref h) ∧ K.Results h a (Workload.sumBelow o.iterations) o.threads

lemma leads_mainFrame {k : Except Halt Value → Course Crew β} {o : Options} (owner : t.owner)
    (answers : ∀ w < o.threads, t.answer w = some (.ok (Workload.workerText o.iterations)))
    (fits : 2 * Workload.sumBelow o.iterations + 1 < 2 ^ 62) (closed : K.Closed th.stack.toList)
    (rest : ∀ r K', K ⊆ K' → MainEnds o r K' → t.Leads (k r) th K') :
    t.Leads ((mainFrame o).follow k) th K := by
  obtain ⟨stack, transients, frame, callers⟩ := th
  generalize sum_eq : Workload.sumBelow o.iterations = sum at fits
  rw [mainFrame, follow_bind, startWorkers]
  refine leads_onHost fun _ => ?_
  rw [either_ok, follow_bind]
  refine leads_sumTo closed sum_eq.symm (by omega) ?_
  rw [either_ok, follow_bind]
  refine leads_callScale owner closed fits ?_
  rw [either_ok, follow_bind]
  refine leads_findSquareAbove 50 8 owner closed (by decide) (by decide) ?_
  rw [either_ok, follow_bind]
  refine leads_new owner closed fun a fresh => ?_
  rw [either_ok, follow_bind, leads_pushWindow, either_ok, follow_ensuring, follow_bind]
  have pushed : (stack ++ [small sum, small (2 * sum + 1), small 8, .ref a]).toList =
      stack.toList ++ [small sum, small (2 * sum + 1), small 8, .ref a] := Array.toList_appendList
  have rooted : Value.ref a ∈ (stack ++ [small sum, small (2 * sum + 1), small 8, .ref a]).toList := by
    rw [pushed]
    simp
  have closed₁ := (closed.more (pushed ▸ List.subset_append_left _ _)).rooted rooted (.array #[])
  refine leads_joinWorkers (F := K) (n := 0) owner
    (fun w mem => answers w (List.mem_range.mp mem)) fresh (fun K' closed' sub' lists => ?_) closed₁
    (Set.subset_insert _ _) ⟨#[], Set.mem_insert _ _, .nil⟩
  rw [Nat.zero_add, List.length_range, Workload.workerText, sum_eq] at lists
  rw [either_ok]
  have released := Window.shrink_pushed stack [small sum, small (2 * sum + 1), small 8, .ref a]
  cases raise : o.raise with
  | true =>
    simp only [if_true, follow_bind]
    refine leads_callWithoutArguments ?_
    rw [either_error, leads_releaseWindow]
    change t.Leads _ ⟨Array.shrink _ stack.size, transients, frame, callers⟩ K'
    rw [released]
    refine rest _ K' sub' ?_
    rw [MainEnds, raise]
    rfl
  | false =>
    change t.Leads ((resultHash (.fresh stack.size 4 false)).follow _) _ K'
    refine leads_resultHash owner closed' rfl lists fun h K'' sub'' results => ?_
    rw [leads_releaseWindow]
    change t.Leads _ ⟨Array.shrink _ stack.size, transients, frame, callers⟩ K''
    rw [released]
    refine rest _ K'' (sub'.trans sub'') ?_
    rw [MainEnds, raise, sum_eq]
    exact ⟨h, a, rfl, results⟩

/-- The report of the main frame begins with its result or its error. -/
lemma leads_result {k : Except Halt Workload.Printed → Course Crew β} {o : Options}
    (owner : t.owner)
    (answers : ∀ w < o.threads, t.answer w = some (.ok (Workload.workerText o.iterations)))
    (fits : 2 * Workload.sumBelow o.iterations + 1 < 2 ^ 62) (closed : K.Closed th.stack.toList)
    (rest : ∀ p K', K ⊆ K' → (∀ more, (o.printStats = false → o.printObjects = false → more = []) →
      Workload.Printed.Reports { p with output := p.output ++ more } o) →
      t.Leads (k (.ok p)) th K') :
    t.Leads ((result (mainFrame o)).follow k) th K := by
  rw [result, follow_bind, follow_outcome]
  refine leads_mainFrame owner answers fits closed fun r K' sub ends => ?_
  rw [MainEnds] at ends
  rw [either_ok]
  split at ends
  · rename_i raise
    subst ends
    refine rest _ K' sub fun more none_left => ⟨?_, ?_, more, ?_, none_left⟩
    · rw [raise]
      rfl
    · rw [raise]
      rfl
    · rw [raise]
      rfl
  · rename_i raise
    obtain ⟨h, a, rfl, results⟩ := ends
    simp only [follow_bind, inspect]
    refine leads_read fun m at_ => ?_
    obtain ⟨text, shown, line⟩ := Option.map_eq_some_iff.mp (at_.inspect?_results results fits)
    rw [shown]
    have rest := rest ⟨0, ["=> " ++ text], []⟩ K' sub
    refine rest fun more none_left => ⟨?_, ?_, more, ?_, none_left⟩
    · rw [if_neg raise]
    · rw [if_neg raise]
    · rw [if_neg raise, ← line]

lemma leads_statsLines {k : Except Halt (List String) → Course Crew β}
    (rest : ∀ lines, t.Leads (k (.ok lines)) th K) : t.Leads (statsLines.follow k) th K := by
  rw [statsLines, follow_bind]
  exact leads_read fun _ _ => rest _

lemma leads_censusLines {k : Except Halt (List String) → Course Crew β}
    (rest : ∀ lines, t.Leads (k (.ok lines)) th K) : t.Leads (censusLines.follow k) th K :=
  leads_read fun _ _ => rest _

/-- There are no lines if none are asked for. -/
lemma leads_whether {shown : Bool} {lines : Course.Run (List String)}
    {k : List String → Course Crew β}
    (reads : ∀ l, (∀ ls, t.Leads (l (.ok ls)) th K) → t.Leads (lines.follow l) th K)
    (rest : ∀ ls, (shown = false → ls = []) → t.Leads (k ls) th K) :
    t.Leads (if shown = true then lines >>= k else pure [] >>= k) th K := by
  cases shown with
  | true => exact reads _ fun ls => rest ls (by simp)
  | false => exact rest [] fun _ => rfl

/-- The end of the report: the values of the command line are shown. -/
def showArguments (p : Workload.Printed) : Course.Run (Workload.Printed × String) := do
  let argv ← Course.inspect ((← Course.read fun m => m.world.global? "ARGV").getD (← Course.nil))
  return (p, argv)

lemma leads_showArguments {t : Terms (Workload.Printed × String)} {p : Workload.Printed}
    {values : List String} (known : K.HasArguments values)
    (rest : t.post (.ok (p, bracketed "[" "]" (values.map Text.quoted))) (K.kept [])) :
    t.Leads (showArguments p) th K := by
  obtain ⟨a, bound, lists⟩ := known
  change Terms.Leads _ ((Course.read _).follow _) _ _
  refine leads_read_eq (a := some (.ref a)) (fun m at_ => at_.bears _ bound) ?_
  change Terms.Leads _ (nil.follow _) _ _
  refine leads_nil ?_
  change Terms.Leads _ ((Course.inspect (.ref a)).follow _) _ _
  rw [Course.inspect, follow_bind]
  refine leads_read_eq (fun m at_ => at_.inspect?_strings lists) ?_
  exact rest

end Terms

open Course Terms

/-- What is asked of the main frame, which knows what its workers answer. -/
def mainTerms (ss : Singletons) (o : Options) : Terms (Workload.Printed × String) where
  singletons := ss
  answer w := if w < o.threads then some (.ok (Workload.workerText o.iterations)) else none
  owner := True
  post r K := ∃ printed, r = .ok (printed, bracketed "[" "]" (o.values.map Text.quoted)) ∧
    printed.Reports o ∧ K.HasArguments o.values
  post_mono := by
    rintro r K K' sub ⟨printed, eq, reports, known⟩
    exact ⟨printed, eq, reports, known.mono sub⟩

/-- What is asked of a worker, which knows nothing and changes nothing that is shared. -/
def workerTerms (ss : Singletons) (n : Int64) : Terms String where
  singletons := ss
  answer _ := none
  owner := False
  post r _ := r = .ok (Workload.workerText n)
  post_mono _ same := same

/-- The main frame prints its results or its error, and the values of the command line are there. -/
theorem leads_reportedMain (ss : Singletons) (program : String) {o : Options}
    (fits : 2 * Workload.sumBelow o.iterations + 1 < 2 ^ 62) (id : FrameId) (file : String) :
    (mainTerms ss o).Leads (reportedMain program o) (.start id file) ∅ := by
  change Terms.Leads _ ((setGlobals program o.values).follow _) _ _
  refine leads_setGlobals trivial fun K closed known => ?_
  change Terms.Leads _ ((result (mainFrame o)).follow _) _ _
  refine leads_result trivial (fun w mem => if_pos mem) fits closed fun p K' sub reports => ?_
  have known' := known.mono sub
  have last : ∀ stats objects : List String, (o.printStats = false → stats = []) →
      (o.printObjects = false → objects = []) → (mainTerms ss o).Leads
        (showArguments { p with output := p.output ++ stats ++ objects }) (.start id file) K' := by
    intro stats objects no_stats no_objects
    refine leads_showArguments known' ⟨_, rfl, ?_, known'.kept []⟩
    rw [List.append_assoc]
    refine reports (stats ++ objects) fun quiet none_shown => ?_
    rw [no_stats quiet, no_objects none_shown, List.append_nil]
  simp only [either_ok]
  refine leads_whether (fun _ => leads_statsLines) fun stats no_stats => ?_
  exact leads_whether (fun _ => leads_censusLines) fun objects => last stats objects no_stats

theorem leads_worker (ss : Singletons) {n : Int64} (fits : Workload.sumBelow n < 2 ^ 62)
    (id : FrameId) (file : String) :
    (workerTerms ss n).Leads (worker n) (.start id file) ∅ := by
  change Terms.Leads _ ((sumTo n).follow _) _ _
  refine leads_sumTo (s := Workload.sumBelow n) (Knowledge.Closed.empty _) rfl fits ?_
  change Terms.Leads _ ((read _).follow _) _ _
  refine leads_read fun m at_ => ?_
  rw [at_.inspect?_small fits]
  exact rfl

end CellMachine
