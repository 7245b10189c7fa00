import CellMachine.Proofs.Workload.CallCourses
import CellMachine.Proofs.Workload.Knowledge

/-!
# Where a course leads

A course is judged on terms: what it is told of the outcomes of workers, whether it may change what
is shared, and what is asked of its outcome. It leads to what is asked of it, from the state of its
thread and from what is known of the world, if it does so however other threads change the world in
between. They leave what is known as it is, but whenever the thread takes a slot or waits there may
be a cycle, and then only what is anchored is still known.

The rules below go through a course from its front, each with the rest of the course as what
follows.
-/

namespace CellMachine

/-- The terms on which a course is run. -/
structure Terms (β : Type) where
  singletons : Singletons
  /-- The outcomes of workers that may be waited for. -/
  answer : Nat → Option (Except Halt String)
  /-- The thread may know cells, and may change what is shared. -/
  owner : Prop
  post : Except Halt β → Knowledge → Prop
  post_mono : ∀ {r K K'}, K ⊆ K' → post r K → post r K'

/-- The machine of a thread while no other thread runs. -/
structure Machine.At {σ : Type} (ss : Singletons) (th : ThreadState) (K : Knowledge)
    (m : Machine σ) : Prop where
  thread : m.thread = th
  steady : m.world.Steady ss
  bears : m.world.Bears K

/-- Nothing is shared but for signals and frames that differs. -/
structure World.SameCells (w w' : World) : Prop where
  heap : w'.heap = w.heap
  symbols : w'.symbols = w.symbols
  globals : w'.globals = w.globals

namespace Terms

variable {σ α β : Type} (t : Terms β)

/-- The course leads to what is asked of it. -/
def Leads : Course σ β → ThreadState → Knowledge → Prop
  | .done r, _, K => t.post r (K.kept [])
  | .own act next, th, K => Leads (next th) (act th) K
  | .host _ next, th, K => ∀ h, Leads (next h) th K
  | .step act _ next, th, K => ∀ m : Machine σ, m.At t.singletons th K → ∃ K',
      (act m.world).Steady t.singletons ∧ (act m.world).Bears K' ∧
        (t.owner ∨ K' ⊆ K ∧ m.world.SameCells (act m.world)) ∧ Leads (next m) th K'
  | .place o next, th, K => ∀ a, (∀ o', .cell a o' ∉ K.kept (th.stack.toList ++ o.children)) →
      ∃ K' ⊆ insert (.cell a o) (K.kept (th.stack.toList ++ o.children)),
        (t.owner ∨ K' ⊆ K) ∧ Leads (next (.ok a)) th K'
  | .collect next, th, K => ∀ ran, Leads (next ran) th (K.kept th.stack.toList)
  | .join worker next, th, K =>
    ∃ r, t.answer worker = some r ∧ Leads (next r) th (K.kept th.stack.toList)

variable {t} {th : ThreadState} {K K' : Knowledge} {k : Except Halt α → Course σ β}

/-- To know more does no harm. -/
lemma Leads.mono {c : Course σ β} (leads : t.Leads c th K) (sub : K ⊆ K') : t.Leads c th K' := by
  induction c generalizing th K K' with
  | done r => exact t.post_mono (Knowledge.kept_mono sub []) leads
  | own act next ih => exact ih _ leads sub
  | host act next ih => exact fun h => ih h (leads h) sub
  | step act tame next ih =>
    intro m at_
    obtain ⟨K₁, steady, bears, owns, rest⟩ := leads m ⟨at_.thread, at_.steady, at_.bears.mono sub⟩
    exact ⟨K₁, steady, bears, owns.imp_right fun same => ⟨same.1.trans sub, same.2⟩, rest⟩
  | place o next ih =>
    intro a fresh
    have more := Knowledge.kept_mono sub (th.stack.toList ++ o.children)
    obtain ⟨K₁, within, owns, rest⟩ := leads a fun o' mem => fresh o' (more mem)
    exact ⟨K₁, within.trans (Set.insert_subset_insert more), owns.imp_right (·.trans sub), rest⟩
  | collect next ih => exact fun ran => ih ran (leads ran) (Knowledge.kept_mono sub _)
  | join worker next ih =>
    obtain ⟨r, known, rest⟩ := leads
    exact ⟨r, known, ih r rest (Knowledge.kept_mono sub _)⟩

end Terms

namespace Course

variable {σ α β γ : Type} {k : Except Halt β → Course σ γ}

@[simp] lemma follow_done (r : Except Halt β) : (done r : Course σ β).follow k = k r := rfl

@[simp] lemma follow_pure (b : β) : (pure b : Course σ β).follow k = k (.ok b) := rfl

@[simp] lemma follow_follow (x : Course σ α) (l : Except Halt α → Course σ β) :
    (x.follow l).follow k = x.follow fun r => (l r).follow k := by
  induction x with
  | done r => rfl
  | own act next ih => simp only [follow, ih]
  | host act next ih => simp only [follow, ih]
  | step act tame next ih => simp only [follow, ih]
  | place o next ih => simp only [follow, ih]
  | collect next ih => simp only [follow, ih]
  | join worker next ih => simp only [follow, ih]

lemma follow_either (f : α → Course σ β) (g : Halt → Course σ β) (r : Except Halt α) :
    (either f g r).follow k = either (fun a => (f a).follow k) (fun h => (g h).follow k) r := by
  cases r <;> rfl

@[simp] lemma follow_bind (x : Course σ α) (f : α → Course σ β) : (x >>= f).follow k =
    x.follow (either (fun a => (f a).follow k) fun h => k (.error h)) := by
  change (x.follow _).follow k = _
  simp only [follow_follow, follow_either, follow_done]

@[simp] lemma follow_halt (h : Halt) : (halt h : Course σ β).follow k = k (.error h) := rfl

@[simp] lemma follow_raiseError (e : CallError) :
    (raiseError e : Course σ β).follow k = k (.error (.error e)) := rfl

@[simp] lemma follow_ofOutcome (r : Except Halt β) :
    (ofOutcome r : Course σ β).follow k = k r := rfl

@[simp] lemma follow_ofExcept (r : Except CallError β) :
    (ofExcept r : Course σ β).follow k = k (r.mapError .error) := by
  cases r <;> rfl

@[simp] lemma follow_ofFault (r : Except Fault β) :
    (ofFault r : Course σ β).follow k = k (r.mapError .fault) := by
  cases r <;> rfl

@[simp] lemma follow_ofHeap (r : Except HeapFault β) :
    (ofHeap r : Course σ β).follow k = k (r.mapError fun f => .fault (.heap f)) := by
  cases r <;> rfl

@[simp] lemma follow_outcome (x : Course σ α) (l : Except Halt (Except Halt α) → Course σ γ) :
    x.outcome.follow l = x.follow fun r => l (.ok r) := by
  rw [outcome, follow_follow]
  rfl

@[simp] lemma follow_ensuring (after : Course σ Unit) (x : Course σ β) :
    (ensuring after x).follow k = x.follow fun r => after.follow fun _ => k r := by
  simp [ensuring]

@[simp] lemma follow_onHalt (after : Course σ Unit) (x : Course σ β) :
    (onHalt after x).follow k = x.follow (either (fun b => k (.ok b)) fun h =>
      after.follow fun _ => k (.error h)) := by
  simp [onHalt, follow_either]

end Course

namespace Terms

open Course

variable {σ α β : Type} {t : Terms β} {th : ThreadState} {K : Knowledge}
  {k : Except Halt α → Course σ β}

@[simp] lemma leads_onThread (f : ThreadState → α × ThreadState) :
    t.Leads ((onThread f).follow k) th K ↔ t.Leads (k (.ok (f th).1)) (f th).2 K := Iff.rfl

@[simp] lemma leads_readThread (f : ThreadState → α) :
    t.Leads ((readThread f).follow k) th K ↔ t.Leads (k (.ok (f th))) th K := Iff.rfl

@[simp] lemma leads_readStack (f : Array Value → Except Fault α) :
    t.Leads ((readStack f).follow k) th K ↔ t.Leads (k ((f th.stack).mapError .fault)) th K := by
  simp [readStack]

@[simp] lemma leads_frame {k : Except Halt Frame → Course σ β} :
    t.Leads (frame.follow k) th K ↔ t.Leads (k (.ok th.frame)) th K := Iff.rfl

@[simp] lemma leads_pushWindow {k : Except Halt Window → Course σ β} (values : List Value)
    (hasKeywords : Bool) : t.Leads ((pushWindow values hasKeywords).follow k) th K ↔
      t.Leads (k (.ok (Window.fresh th.stack.size values.length hasKeywords)))
        { th with stack := th.stack ++ values } K := Iff.rfl

@[simp] lemma leads_releaseWindow {k : Except Halt Unit → Course σ β} (w : Window) :
    t.Leads ((releaseWindow w).follow k) th K ↔
      t.Leads (k (.ok ())) { th with stack := th.stack.shrink w.origin } K := Iff.rfl

@[simp] lemma leads_leave {k : Except Halt Unit → Course σ β} :
    t.Leads (leave.follow k) th K ↔ t.Leads (k (.ok ())) th.leave K := Iff.rfl

lemma leads_onHost {f : σ → α × σ} (rest : ∀ a, t.Leads (k (.ok a)) th K) :
    t.Leads ((onHost f).follow k) th K := fun h => rest (f h).1

lemma leads_read {f : Machine σ → α}
    (rest : ∀ m : Machine σ, m.At t.singletons th K → t.Leads (k (.ok (f m))) th K) :
    t.Leads ((read f).follow k) th K := fun m at_ =>
  ⟨K, at_.steady, at_.bears, .inr ⟨subset_rfl, rfl, rfl, rfl⟩, rest m at_⟩

/-- The course goes on with what the machine looks like on all occasions. -/
lemma leads_read_eq {f : Machine σ → α} {a : α}
    (eq : ∀ m : Machine σ, m.At t.singletons th K → f m = a)
    (rest : t.Leads (k (.ok a)) th K) : t.Leads ((read f).follow k) th K :=
  leads_read fun m at_ => (eq m at_).symm ▸ rest

lemma leads_singletons {k : Except Halt Singletons → Course σ β}
    (rest : t.Leads (k (.ok t.singletons)) th K) : t.Leads (Course.singletons.follow k) th K :=
  leads_read_eq (fun _ at_ => at_.steady.singletons) rest

lemma leads_nil {k : Except Halt Value → Course σ β}
    (rest : t.Leads (k (.ok t.singletons.nil)) th K) : t.Leads (nil.follow k) th K := by
  rw [nil, follow_bind]
  exact leads_singletons rest

lemma leads_ofBool {k : Except Halt Value → Course σ β} {b : Bool}
    (rest : t.Leads (k (.ok (t.singletons.ofBool b))) th K) : t.Leads ((ofBool b).follow k) th K := by
  rw [ofBool, follow_bind]
  exact leads_singletons rest

lemma leads_object? {k : Except Halt (Option Object) → Course σ β} {a : Address} {o : Object}
    (known : .cell a o ∈ K) (rest : t.Leads (k (.ok (some o))) th K) :
    t.Leads ((object? a).follow k) th K :=
  leads_read_eq (fun _ at_ => Machine.object?_of_payload? (at_.bears _ known)) rest

lemma leads_object?_transient {k : Except Halt (Option Object) → Course σ β} {n : Nat}
    {c : Cell Object} (here : th.transients[n]? = some c)
    (rest : t.Leads (k (.ok (some c.payload))) th K) :
    t.Leads ((object? (.stack n)).follow k) th K := by
  refine leads_read_eq (fun m at_ => ?_) rest
  rw [Machine.object?, Machine.cell?, at_.thread, here]
  rfl

/-- A step that leaves all cells where they are. -/
lemma leads_inWorld {f : World → α × World}
    {tame : ∀ w, Relation.ReflTransGen Heap.Touch w.heap (f w).2.heap}
    (same : ∀ w : World, w.Steady t.singletons → w.SameCells (f w).2 ∧
      (f w).2.singletons = w.singletons ∧ (f w).2.signals = w.signals)
    (rest : ∀ m : Machine σ, m.At t.singletons th K → t.Leads (k (.ok (f m.world).1)) th K) :
    t.Leads ((inWorld f tame).follow k) th K := by
  intro m at_
  obtain ⟨⟨heap, symbols, globals⟩, singletons, signals⟩ := same m.world at_.steady
  refine ⟨K, ?_, ?_, .inr ⟨subset_rfl, heap, symbols, globals⟩, rest m at_⟩
  · refine at_.steady.touched (tame m.world) singletons signals (fun x => by rw [heap]) ?_
    intro fixed interned
    exact interned.congr symbols globals (by rw [heap]) fun name a entry =>
      heap ▸ interned.cells name a entry
  · exact at_.bears.congr (fun a o here => heap ▸ here) symbols globals

lemma leads_freshFrame {k : Except Halt FrameId → Course σ β}
    {tame : ∀ w : World, Relation.ReflTransGen Heap.Touch w.heap w.freshFrame.2.heap}
    (rest : ∀ id, t.Leads (k (.ok id)) th K) :
    t.Leads ((inWorld World.freshFrame tame).follow k) th K :=
  leads_inWorld (fun _ _ => ⟨⟨rfl, rfl, rfl⟩, rfl, rfl⟩) fun _ _ => rest _

/-- No interrupt is pending. -/
lemma pollInterrupt_eq {w : World} {ss : Singletons} (steady : w.Steady ss) :
    w.pollInterrupt = (false, w) := by
  obtain ⟨heap, singletons, symbols, globals, ⟨interrupt, collection, installed⟩, next⟩ := w
  obtain rfl : interrupt = false := steady.quiet.1
  cases installed <;> rfl

/-- No collection is asked for. -/
lemma pollCollection_eq {w : World} {ss : Singletons} (steady : w.Steady ss) :
    w.pollCollection = (false, w) := by
  obtain ⟨heap, singletons, symbols, globals, ⟨interrupt, collection, installed⟩, next⟩ := w
  obtain rfl : collection = false := steady.quiet.2
  cases installed <;> rfl

lemma leads_pollInterrupt {k : Except Halt Bool → Course σ β}
    {tame : ∀ w : World, Relation.ReflTransGen Heap.Touch w.heap w.pollInterrupt.2.heap}
    (rest : t.Leads (k (.ok false)) th K) :
    t.Leads ((inWorld World.pollInterrupt tame).follow k) th K := by
  refine leads_inWorld (fun w steady => ?_) fun m at_ => ?_
  · rw [pollInterrupt_eq steady]
    exact ⟨⟨rfl, rfl, rfl⟩, rfl, rfl⟩
  · rwa [pollInterrupt_eq at_.steady]

lemma leads_pollCollection {k : Except Halt Bool → Course σ β}
    (rest : t.Leads (k (.ok false)) th K) : t.Leads (pollCollection.follow k) th K := by
  refine leads_inWorld (fun w steady => ?_) fun m at_ => ?_
  · rw [pollCollection_eq steady]
    exact ⟨⟨rfl, rfl, rfl⟩, rfl, rfl⟩
  · rwa [pollCollection_eq at_.steady]

lemma leads_modifyObject {k : Except Halt Unit → Course σ β} {a : Address} {o : Object}
    {f : Object → Object} (owner : t.owner) (known : .cell a o ∈ K) (free : ¬ o.IsFixed)
    (rest : K.Consistent → t.Leads (k (.ok ())) th (K.put a (f o))) :
    t.Leads ((modifyObject a f).follow k) th K := fun _ at_ =>
  ⟨K.put a (f o), at_.steady.modifyObject (at_.bears _ known) free f,
    at_.bears.modifyObject at_.steady known f, .inl owner, rest at_.bears.consistent⟩

lemma leads_setGlobal {k : Except Halt Unit → Course σ β} {name : String} {v : Value}
    (owner : t.owner) (rest : t.Leads (k (.ok ())) th (K.bind name v)) :
    t.Leads ((setGlobal name v).follow k) th K := fun _ at_ =>
  ⟨K.bind name v, at_.steady.setGlobal name v, at_.bears.setGlobal name v, .inl owner, rest⟩

lemma leads_place {k : Except Halt Address → Course σ β} {o : Object} (owner : t.owner)
    (rest : ∀ a, (∀ o', .cell a o' ∉ K.kept (th.stack.toList ++ o.children)) →
      t.Leads (k (.ok a)) th (insert (.cell a o) (K.kept (th.stack.toList ++ o.children)))) :
    t.Leads ((place o ofHeap).follow k) th K := fun a fresh =>
  ⟨_, subset_rfl, .inl owner, rest a fresh⟩

lemma leads_allocate {k : Except Halt Address → Course σ β} {o : Object} (owner : t.owner)
    (rest : ∀ a, (∀ o', .cell a o' ∉ K.kept (th.stack.toList ++ o.children)) →
      t.Leads (k (.ok a)) th (insert (.cell a o) (K.kept (th.stack.toList ++ o.children)))) :
    t.Leads ((allocate o).follow k) th K := by
  rw [allocate, follow_bind]
  exact leads_pollCollection (leads_place owner rest)

/-- What is allocated is of no use later. -/
lemma leads_allocate_garbage {k : Except Halt Address → Course σ β} {o : Object}
    (rest : ∀ a, t.Leads (k (.ok a)) th (K.kept th.stack.toList)) :
    t.Leads ((allocate o).follow k) th K := by
  rw [allocate, follow_bind]
  refine leads_pollCollection fun a _ => ?_
  have less := Knowledge.kept_subset_kept (K.kept_subset th.stack.toList)
    (List.subset_append_left _ o.children)
  exact ⟨K.kept th.stack.toList, less.trans (Set.subset_insert _ _), .inr (K.kept_subset _), rest a⟩

lemma leads_symbol {k : Except Halt Value → Course σ β} {name : String} (owner : t.owner)
    (rest : ∀ a (K' : Knowledge),
      K' = insert (.name name a) (insert (.cell a (.symbol name)) (K.kept th.stack.toList)) →
        K'.Consistent → t.Leads (k (.ok (.ref a))) th K') :
    t.Leads ((symbol name).follow k) th K := by
  rw [symbol, follow_bind]
  intro m at_
  cases found : m.world.symbol? name with
  | some a =>
    have bears : m.world.Bears (insert (.name name a) (insert (.cell a (.symbol name)) K)) := by
      rintro f (rfl | rfl | mem)
      · exact found
      · exact at_.steady.payload?_of_symbol? found
      · exact at_.bears f mem
    have less : insert (.name name a) (insert (.cell a (.symbol name)) (K.kept th.stack.toList)) ⊆
        insert (.name name a) (insert (.cell a (.symbol name)) K) :=
      Set.insert_subset_insert (Set.insert_subset_insert (K.kept_subset _))
    refine ⟨_, at_.steady, bears, .inl owner, ?_⟩
    simp only [found, follow_done, either_ok, follow_pure]
    exact (rest a _ rfl (bears.consistent.mono less)).mono less
  | none =>
    refine ⟨K, at_.steady, at_.bears, .inl owner, ?_⟩
    simp only [found, follow_done, either_ok, follow_bind]
    refine leads_place owner fun x _ => ?_
    rw [either_ok]
    intro m' at_'
    have here : m'.world.heap.payload? x = some (.symbol name) := at_'.bears _ (Set.mem_insert _ _)
    have steady := at_'.steady.publish here
    have published := at_'.bears.publish name x
    have bound := m'.world.symbol?_publish name x
    have bears : (m'.world.publish name x).2.Bears (insert (.name name (m'.world.publish name x).1)
        (insert (.cell (m'.world.publish name x).1 (.symbol name)) (K.kept th.stack.toList))) := by
      rintro f (rfl | rfl | mem)
      · exact bound
      · exact steady.payload?_of_symbol? bound
      · have less := Knowledge.kept_subset_kept (K.kept_subset th.stack.toList)
          (List.subset_append_left _ (Object.symbol name).children)
        exact published f (Set.mem_insert_of_mem _ (less mem))
    exact ⟨_, steady, bears, .inl owner, rest _ _ rfl bears.consistent⟩

end Terms

end CellMachine
