import CellMachine.Proofs.Machine.Texts
import CellMachine.Proofs.Workload.LedSearch

/-!
# The line of the results

What the main frame prints when it ends with its results, and what is known of the cells that the
line is made from: a hash from names to values, with an array of texts among them.
-/

namespace CellMachine

namespace Workload

/-- The sum that a number of iterations comes to. -/
def sumBelow (n : Int64) : Nat := n.toInt.toNat * (n.toInt.toNat - 1) / 2

/-- The text that a worker answers with. -/
def workerText (n : Int64) : String := toString (sumBelow n)

/-- The line of the results, with the same text from each of so many workers. -/
def resultLine (sum threads : Nat) : String :=
  "=> " ++ bracketed "\x7b" "\x7d" [":sum=>" ++ toString sum, ":scaled=>" ++ toString (2 * sum + 1),
    ":found=>8",
    ":workers=>" ++ bracketed "[" "]" (List.replicate threads ("\"" ++ toString sum ++ "\""))]

/-- What a call without its value is refused with. -/
def arityError : CallError := .wrongCount 0 (.exactly 1) ["factor"]

/-- The line of that error. -/
def arityLine : String := "main: " ++ arityError.message ++ " (" ++ arityError.kind.name ++ ")"

example : resultLine 10 2 =
    "=> \x7b:sum=>10, :scaled=>21, :found=>8, :workers=>[\"10\", \"10\"]\x7d" := by
  decide +kernel

example : arityLine = "main: wrong number of arguments (given 0, expected 1; " ++
    "required keyword: factor) (ArgumentError)" := by
  decide +kernel

end Workload

namespace Knowledge

variable {K K' : Knowledge} {a : Address} {objects : List Object} {entries : List (String × Value)}

/-- The cell is a hash from names to these values. -/
def Maps (K : Knowledge) (a : Address) (entries : List (String × Value)) : Prop :=
  ∃ es : Entries, .cell a (.hash es) ∈ K ∧
    List.Forall₂ (fun e n => ∃ x, e = (.ref x, n.2) ∧ .cell x (.symbol n.1) ∈ K) es entries

/-- A list that a global variable is bound to is known for good. -/
lemma Lists.kept {s : String} (lists : K.Lists a objects)
    (bound : .global s (some (.ref a)) ∈ K) (roots : List Value) :
    (K.kept roots).Lists a objects := by
  obtain ⟨items, here, known⟩ := lists
  have start : K.Anchors roots a := .global bound
  refine ⟨items, cell_mem_kept here start, ?_⟩
  have each : ∀ (vs : List Value) os, vs ⊆ items.toList → K.Items a vs os →
      (K.kept roots).Items a vs os := by
    intro vs os within listed
    induction listed with
    | nil => exact .nil
    | cons first rest ih =>
      obtain ⟨x, rfl, other, there⟩ := first
      have child : Value.ref x ∈ (Object.array items).children :=
        within (List.mem_cons_self ..)
      exact .cons ⟨x, rfl, other, cell_mem_kept there (.child start here child)⟩
        (ih (List.subset_of_cons_subset within))
  exact each _ _ (List.Subset.refl _) known

end Knowledge

namespace Text

lemma quoteChar_of_isDigit {c : Char} (digit : c.isDigit) : quoteChar c = [c] := by
  obtain ⟨least, greatest⟩ := Char.isDigit_iff_toNat.mp digit
  rw [← Char.ofNat_toNat c]
  generalize c.toNat = n at least greatest
  have low : 48 ≤ n := least
  have high : n ≤ 57 := greatest
  interval_cases n <;> decide +kernel

/-- A numeral needs no escapes. -/
lemma quoted_toString (n : Nat) : quoted (toString n) = "\"" ++ toString n ++ "\"" := by
  have digits : toString n = String.ofList (Nat.toDigits 10 n) := rfl
  have plain : (Nat.toDigits 10 n).flatMap quoteChar = Nat.toDigits 10 n := by
    have each : ∀ c ∈ Nat.toDigits 10 n, quoteChar c = [c] := fun c mem =>
      quoteChar_of_isDigit (Nat.isDigit_of_mem_toDigits (by decide) le_rfl mem)
    rw [List.flatMap_congr each, List.flatMap_singleton']
  rw [quoted, digits, String.toList_ofList, plain, List.cons_append, String.ofList_cons,
    String.ofList_append, String.append_assoc]
  rfl

end Text

lemma mapM_eq_some_of_forall₂ {α β : Type} {f : α → Option β} {l : List α} {r : List β}
    (each : List.Forall₂ (fun a b => f a = some b) l r) : l.mapM f = some r := by
  induction each with
  | nil => rfl
  | cons head tail ih => simp [List.mapM_cons, head, ih]

section Texts

variable {object? : Address → Option Object} {a : Address} {fuel : Nat}

lemma inspectWith_symbol {name : String} (here : object? a = some (.symbol name)) :
    inspectWith object? (fuel + 1) (.ref a) = some (":" ++ name) := by
  rw [inspectWith, here]
  rfl

lemma inspectWith_string {text : String} (here : object? a = some (.string text)) :
    inspectWith object? (fuel + 1) (.ref a) = some (Text.quoted text) := by
  rw [inspectWith, here]
  rfl

lemma inspectWith_small {n : Nat} (fits : n < 2 ^ 62) (fuel : Nat) :
    inspectWith object? fuel (.small n) = some (toString n) := by
  have exact_ : (Int64.ofNat n).toInt = n := Int64.toInt_ofNat_of_lt (by omega)
  have shown : inspectWith object? fuel (.small n) = some (toString (Int64.ofNat n).toInt) := by
    cases fuel <;> rfl
  rw [shown, exact_]
  rfl

/-- An array of strings, as it is shown. -/
lemma inspectWith_strings {K : Knowledge} {texts : List String}
    (known : ∀ x o, .cell x o ∈ K → object? x = some o) (lists : K.Lists a (texts.map .string)) :
    inspectWith object? (fuel + 2) (.ref a) = some (bracketed "[" "]" (texts.map Text.quoted)) := by
  obtain ⟨items, here, listed⟩ := lists
  rw [inspectWith_array (known a _ here), mapM_eq_some_of_forall₂ (r := texts.map Text.quoted)]
  · rfl
  · rw [Knowledge.Items, List.forall₂_map_right_iff] at listed
    rw [List.forall₂_map_right_iff]
    refine listed.imp ?_
    rintro _ text ⟨x, rfl, _, there⟩
    exact inspectWith_string (known x _ there)

/-- A hash from names, as it is shown. -/
lemma inspectWith_names (fuel : Nat) {K : Knowledge} {entries : List (String × Value)}
    {texts : List String}
    (known : ∀ x o, .cell x o ∈ K → object? x = some o) (maps : K.Maps a entries)
    (shown : List.Forall₂ (fun n text => (inspectWith object? (fuel + 1) n.2).map
      ((":" ++ n.1 ++ "=>") ++ ·) = some text) entries texts) :
    inspectWith object? (fuel + 2) (.ref a) = some (bracketed "\x7b" "\x7d" texts) := by
  obtain ⟨es, here, named⟩ := maps
  rw [inspectWith_hash (known a _ here), mapM_eq_some_of_forall₂ (r := texts)]
  · rfl
  · clear here
    induction named generalizing texts with
    | nil =>
      cases shown
      exact .nil
    | cons first _ ih =>
      obtain ⟨x, rfl, there⟩ := first
      cases shown with
      | cons head tail =>
        refine .cons ?_ (ih tail)
        rw [← head, entryText, inspectWith_symbol (known x _ there), Option.map_eq_bind]
        rfl

end Texts

namespace Knowledge

/-- The hash of the results of so many workers. -/
structure Results (K : Knowledge) (h r : Address) (sum threads : Nat) : Prop where
  hash : K.Maps h [("sum", .small sum), ("scaled", .small (2 * sum + 1)), ("found", .small 8),
    ("workers", .ref r)]
  workers : K.Lists r (List.replicate threads (.string (toString sum)))

/-- The global variable with the values of the command line. -/
def HasArguments (K : Knowledge) (values : List String) : Prop :=
  ∃ a, .global "ARGV" (some (.ref a)) ∈ K ∧ K.Lists a (values.map .string)

variable {K K' : Knowledge} {values : List String}

lemma HasArguments.mono (known : K.HasArguments values) (sub : K ⊆ K') :
    K'.HasArguments values := by
  obtain ⟨a, bound, lists⟩ := known
  exact ⟨a, sub bound, lists.mono sub⟩

lemma HasArguments.kept (known : K.HasArguments values) (roots : List Value) :
    (K.kept roots).HasArguments values := by
  obtain ⟨a, bound, lists⟩ := known
  exact ⟨a, global_mem_kept bound, lists.kept bound roots⟩

end Knowledge

namespace Machine

variable {σ : Type} {m : Machine σ} {ss : Singletons} {th : ThreadState} {K : Knowledge}

lemma At.inspect? (at_ : m.At ss th K) {v : Value} {text : String} (fuel : Nat)
    (shown : inspectWith m.object? fuel v = some text) : m.inspect? v = some text :=
  inspect?_of_inspectWith at_.steady.reachable.sound shown

lemma At.inspect?_small (at_ : m.At ss th K) {n : Nat} (fits : n < 2 ^ 62) :
    m.inspect? (.small n) = some (toString n) :=
  at_.inspect? 0 (inspectWith_small fits 0)

lemma At.inspect?_strings (at_ : m.At ss th K) {a : Address} {texts : List String}
    (lists : K.Lists a (texts.map .string)) :
    m.inspect? (.ref a) = some (bracketed "[" "]" (texts.map Text.quoted)) :=
  at_.inspect? 2 (inspectWith_strings (fun _ _ here => object?_of_payload? (at_.bears _ here)) lists)

/-- The results are shown as the line says. -/
lemma At.inspect?_results (at_ : m.At ss th K) {h r : Address} {sum threads : Nat}
    (results : K.Results h r sum threads) (fits : 2 * sum + 1 < 2 ^ 62) :
    ("=> " ++ ·) <$> m.inspect? (.ref h) = some (Workload.resultLine sum threads) := by
  have known : ∀ x o, .cell x o ∈ K → m.object? x = some o :=
    fun x o here => object?_of_payload? (at_.bears _ here)
  have workers : inspectWith m.object? 2 (.ref r) = some (bracketed "[" "]"
      (List.replicate threads ("\"" ++ toString sum ++ "\""))) := by
    have lists := results.workers
    rw [← List.map_replicate] at lists
    rw [inspectWith_strings known lists, List.map_replicate, Text.quoted_toString]
  rw [at_.inspect? 3 (inspectWith_names 1 known results.hash ?_)]
  · rfl
  · refine .cons ?_ (.cons ?_ (.cons ?_ (.cons ?_ .nil)))
    · rw [inspectWith_small (by omega)]
      rfl
    · rw [inspectWith_small fits]
      rfl
    · rw [inspectWith_small (by decide)]
      rfl
    · rw [workers]
      rfl

end Machine

end CellMachine
