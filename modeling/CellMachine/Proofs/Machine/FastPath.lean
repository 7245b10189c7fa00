import CellMachine.Proofs.Heap.Dangling
import CellMachine.Proofs.Heap.Exactness
import CellMachine.Proofs.Machine.Allocation
import CellMachine.Proofs.Machine.Calling
import CellMachine.Proofs.Machine.StackDiscipline

/-!
# The fast path of numeric primitives

A primitive may get its operand in three ways: as an inline number that a call puts into a
cell on the thread's own stack, as a number in a cell of the heap, or as the inline number
itself. In all three it computes the same from the same operands, and the world is changed
by nothing but the box of a large result. The cell on the thread's stack is gone when the
call is over, and no collection ever takes notice of it.

Only a pending interrupt makes a difference: it is delivered instead of a call, but it does
not keep a primitive from being run directly.
-/

namespace CellMachine

/-- What a primitive makes of its operands. -/
def Primitive.apply (p : Primitive) (x y : Operand) : Except CallError Computed := do
  (← p.on x) y

namespace Numeric

/-- The number as a value of its own. -/
def inline : Numeric → Value
  | integer n => .smallInt n
  | double d => .double d

/-- The number as a cell holds it. -/
def object : Numeric → Object
  | integer n => .integer n
  | double d => .float d

end Numeric

namespace Machine

variable {σ : Type}

/-- What arithmetic sees of a value. -/
def operandOf (m : Machine σ) : Value → Operand
  | .smallInt n => .number (.integer n)
  | .double d => .number (.double d)
  | .ref a => ((m.object? a).map Operand.ofObject).getD (.other "")

/-- The window holds a single value and no keywords. -/
structure OnlyArgument (m : Machine σ) (w : Window) (v : Value) : Prop where
  size : w.size = 1
  plain : w.hasKeywords = false
  front : w.origin ≤ w.start
  here : m.thread.stack[w.start]? = some v

lemma OnlyArgument.count {m : Machine σ} {w : Window} {v : Value} (only : m.OnlyArgument w v)
    (withKeywords : Bool) : w.count withKeywords = 1 := by
  rw [Window.count, only.plain, only.size]
  rfl

lemma OnlyArgument.run_get {m : Machine σ} {w : Window} {v : Value} (only : m.OnlyArgument w v) :
    (VM.readStack (w.get 0)).run m = (.ok v, m) := by
  rw [VM.run_readStack, Window.get, only.size, if_pos Nat.one_pos, Window.element, Nat.add_zero,
    only.here]
  rfl

/-- The machine with another value in the first place of a window. -/
def withArgument (m : Machine σ) (w : Window) (v : Value) : Machine σ :=
  { m with thread := { m.thread with stack := m.thread.stack.setIfInBounds w.start v } }

end Machine

/-- The object as it is outside of all calls. -/
def Object.unattached (o : Object) : Object := o.withCallingFrame none

namespace World

/-- Nothing has changed but the flags of signals, the count of frames and the frames that
blocks know. -/
structure Undisturbed (w w' : World) : Prop where
  sound : w'.heap.Sound
  settings : w'.heap.settings = w.heap.settings
  payloads : ∀ a, (w'.heap.payload? a).map Object.unattached =
    (w.heap.payload? a).map Object.unattached
  globalRoots : w'.heap.globalRoots = w.heap.globalRoots
  singletons : w'.singletons = w.singletons
  symbols : w'.symbols = w.symbols
  globals : w'.globals = w.globals

variable {w w' w'' : World}

lemma Undisturbed.trans (first : w.Undisturbed w') (second : w'.Undisturbed w'') :
    w.Undisturbed w'' := by
  constructor
  · exact second.sound
  · exact second.settings.trans first.settings
  · exact fun a => (second.payloads a).trans (first.payloads a)
  · exact second.globalRoots.trans first.globalRoots
  · exact second.singletons.trans first.singletons
  · exact second.symbols.trans first.symbols
  · exact second.globals.trans first.globals

lemma undisturbed_refl (sound : w.heap.Sound) : w.Undisturbed w :=
  ⟨sound, rfl, fun _ => rfl, rfl, rfl, rfl, rfl⟩

lemma undisturbed_pollInterrupt (sound : w.heap.Sound) : w.Undisturbed w.pollInterrupt.2 := by
  rw [pollInterrupt]
  split
  · exact ⟨sound, rfl, fun _ => rfl, rfl, rfl, rfl, rfl⟩
  · exact undisturbed_refl sound

lemma undisturbed_withCallingFrame (sound : w.heap.Sound) (a : Address) (id : Option FrameId) :
    w.Undisturbed (w.modifyObject a (Object.withCallingFrame id)) := by
  obtain ⟨settings, globalRoots, _⟩ := w.heap.modifyPayload_frame a (Object.withCallingFrame id)
  refine ⟨sound.modifyPayload a _, settings, fun x => ?_, globalRoots, rfl, rfl, rfl⟩
  change ((w.heap.modifyPayload a _).payload? x).map _ = _
  rw [sound.payload?_modifyPayload]
  split
  · cases w.heap.payload? x with
    | none => rfl
    | some o => cases o <;> rfl
  · rfl

/-- An object that is no block is found where it was. -/
lemma Undisturbed.payload_eq (undisturbed : w.Undisturbed w') {a : Address} {o : Object}
    (here : w.heap.payload? a = some o) (plain : o.block? = none) :
    w'.heap.payload? a = some o := by
  have same := undisturbed.payloads a
  rw [here] at same
  obtain ⟨o', here', unattached⟩ := Option.map_eq_some_iff.mp same
  rw [here']
  cases o with
  | block b => cases plain
  | _ =>
    cases o' with
    | block b => cases unattached
    | _ => exact congrArg some unattached

/-- The world after a result was given a cell, if it needs one. -/
def boxed (argStacks : Stacks) (outcome : Except CallError Computed) (w : World) : World :=
  match outcome with
  | .ok (.integer n) =>
    if (Value.smallInt? n).isSome then w else (w.allocate argStacks (.integer n)).2
  | _ => w

/-- The outcome of arithmetic as the outcome of a computation. An integer is kept inline or
in a cell of its own, if the heap has cells of that size. -/
inductive Settled (w : World) : Except CallError Computed → Except Halt Value → World → Prop where
  | failed (e : CallError) (w' : World) : Settled w (.error e) (.error (.error e)) w'
  | double (d : Binary64) (w' : World) : Settled w (.ok (.double d)) (.ok (.double d)) w'
  | truth (b : Bool) (w' : World) : Settled w (.ok (.truth b)) (.ok (w.singletons.ofBool b)) w'
  | inline {n : Int64} {v : Value} (small : Value.smallInt? n = some v) (w' : World) :
      Settled w (.ok (.integer n)) (.ok v) w'
  | boxed {n : Int64} {a : Address} {w' : World} (large : Value.smallInt? n = none)
      (here : w'.heap.payload? a = some (.integer n)) :
      Settled w (.ok (.integer n)) (.ok (.ref a)) w'
  | unfit {n : Int64} {f : HeapFault} (large : Value.smallInt? n = none)
      (unfit : w.heap.classOf (.integer n) = .error f) (w' : World) :
      Settled w (.ok (.integer n)) (.error (.fault (.heap f))) w'

end World

namespace VM

variable {σ : Type} {m : Machine σ} {w : Window} {receiver argument : Value}

lemma run_operand (v : Value) (m : Machine σ) : (operand v).run m = (.ok (m.operandOf v), m) := by
  cases v with
  | _ => rfl

lemma settle_spec (sound : m.world.heap.Sound) (c : Computed) :
    m.world.Settled (.ok c) ((settle c).run m).1 ((settle c).run m).2.world ∧
      ((settle c).run m).2 = { m with world := m.world.boxed m.argStacks (.ok c) } := by
  cases c with
  | double d => exact ⟨.double d _, rfl⟩
  | truth b => exact ⟨.truth b _, rfl⟩
  | integer n =>
    cases small : Value.smallInt? n with
    | some v =>
      have kept : m.world.boxed m.argStacks (.ok (.integer n)) = m.world := by
        rw [World.boxed, small]
        rfl
      rw [settle, VM.integer, small, kept]
      exact ⟨.inline small _, rfl⟩
    | none =>
      have after : ((allocate (.integer n)).run m).2 =
          { m with world := m.world.boxed m.argStacks (.ok (.integer n)) } := by
        rw [Machine.run_allocate, World.boxed, small]
        split
        · rfl
        · rfl
      rw [settle, VM.integer, small]
      dsimp only
      cases fits : m.world.heap.classOf (.integer n) with
      | error f =>
        obtain ⟨m', failed⟩ := Machine.run_allocate_of_error sound fits
        rw [failed] at after
        rw [run_bind_error failed]
        exact ⟨.unfit small fits _, after⟩
      | ok c =>
        obtain ⟨a, m', ok, here, _⟩ := Machine.run_allocate_of_ok sound fits
        rw [ok] at after
        rw [run_bind_ok ok]
        exact ⟨.boxed small here, after⟩

/-- A primitive computes from what it finds, and releases its window. -/
lemma run_runPrimitive (only : m.OnlyArgument w argument) (p : Primitive) (receiver : Value) :
    (runPrimitive p receiver w).run m = (ensuring (released w) do
      settle (← ofExcept (p.apply (m.operandOf receiver) (m.operandOf argument)))).run m := by
  have expected : w.expect (.exactly 1) [] = .ok () := by
    rw [Window.expect, only.count]
    rfl
  have counted : ∀ rest : VM σ Value, (do
      ofExcept (w.expect (.exactly 1) [])
      rest).run m = rest.run m := by
    intro rest
    rw [expected]
    rfl
  rw [runPrimitive, run_ensuring, run_ensuring, counted, run_bind_ok (run_operand receiver m),
    Primitive.apply]
  cases p.on (m.operandOf receiver) with
  | error e => rfl
  | ok f =>
    have computes : (do
        let argument ← readStack (w.get 0)
        settle (← ofExcept (f (← operand argument)))).run m =
        (do settle (← ofExcept (f (m.operandOf argument)))).run m := by
      rw [run_bind_ok only.run_get, run_bind_ok (run_operand argument m)]
    exact congrArg (fun end_ => (end_.1, released w end_.2)) computes

lemma runPrimitive_spec (sound : m.world.heap.Sound) (only : m.OnlyArgument w argument)
    (p : Primitive) (receiver : Value) :
    m.world.Settled (p.apply (m.operandOf receiver) (m.operandOf argument))
        ((runPrimitive p receiver w).run m).1 ((runPrimitive p receiver w).run m).2.world ∧
      ((runPrimitive p receiver w).run m).2 = released w { m with
        world := m.world.boxed m.argStacks
          (p.apply (m.operandOf receiver) (m.operandOf argument)) } := by
  rw [run_runPrimitive only]
  cases p.apply (m.operandOf receiver) (m.operandOf argument) with
  | error e => exact ⟨.failed e _, rfl⟩
  | ok c =>
    obtain ⟨settled, after⟩ := settle_spec sound c
    exact ⟨settled, congrArg (released w) after⟩

end VM

namespace World

variable {w₀ w w' : World} {outcome : Except CallError Computed} {r : Except Halt Value}

/-- What the outcome means does not depend on what has not been disturbed. -/
lemma Settled.undisturbed (settled : w.Settled outcome r w') (before : w₀.Undisturbed w)
    {w'' : World} (after : w'.Undisturbed w'') : w₀.Settled outcome r w'' := by
  cases settled with
  | failed e => exact .failed e w''
  | double d => exact .double d w''
  | truth b =>
    rw [before.singletons]
    exact .truth b w''
  | inline small => exact .inline small w''
  | boxed large here => exact .boxed large (after.payload_eq here rfl)
  | unfit large unfit =>
    rw [Heap.classOf_congr before.settings] at unfit
    exact .unfit large unfit w''

end World

namespace Machine

variable {σ : Type} {m : Machine σ} {w : Window} {receiver : Value}
  {outcome : Except CallError Computed}

/-- The outcome of arithmetic has become that of a computation, and the world has changed by
the box of a large result at most. The window is released, and all else that belongs to the
thread is as it was. -/
structure Ran (m : Machine σ) (w : Window) (outcome : Except CallError Computed)
    (r : Except Halt Value) (m' : Machine σ) : Prop where
  settled : m.world.Settled outcome r m'.world
  world : ∃ before own others, m.world.Undisturbed before ∧
    (before.boxed (own :: others) outcome).Undisturbed m'.world
  thread : m'.thread = { m.thread with stack := m.thread.stack.shrink w.origin }
  waiting : m'.waiting = m.waiting

lemma sound_boxed {world : World} (sound : world.heap.Sound) (argStacks : Stacks)
    (outcome : Except CallError Computed) : (world.boxed argStacks outcome).heap.Sound := by
  unfold World.boxed
  split
  · split
    · exact sound
    · exact (World.follows_allocate sound argStacks (o := .integer _) rfl).heap.sound
  · exact sound

/-- The primitive is run directly. -/
lemma ran_direct (sound : m.world.heap.Sound) {argument : Value} (only : m.OnlyArgument w argument)
    (p : Primitive) (receiver : Value) :
    m.Ran w (p.apply (m.operandOf receiver) (m.operandOf argument))
      ((VM.runPrimitive p receiver w).run m).1 ((VM.runPrimitive p receiver w).run m).2 := by
  obtain ⟨settled, after⟩ := VM.runPrimitive_spec sound only p receiver
  refine ⟨settled, ⟨m.world, m.thread.stack, m.waiting, World.undisturbed_refl sound, ?_⟩, ?_, ?_⟩
  · rw [after]
    exact World.undisturbed_refl (sound_boxed sound m.argStacks _)
  · rw [after]
    rfl
  · rw [after]
    rfl

/-- It is enough to run it in a world that has not been disturbed, -/
lemma Ran.before {world : World} {r : Except Halt Value} {m' : Machine σ}
    (ran : Ran { m with world } w outcome r m') (undisturbed : m.world.Undisturbed world) :
    m.Ran w outcome r m' := by
  obtain ⟨before, own, others, first, second⟩ := ran.world
  have same := World.undisturbed_refl second.sound
  exact ⟨ran.settled.undisturbed undisturbed same,
    ⟨before, own, others, undisturbed.trans first, second⟩, ran.thread, ran.waiting⟩

/-- and not to disturb the world afterwards. -/
lemma Ran.after {world : World} {r : Except Halt Value} {m' : Machine σ}
    (ran : m.Ran w outcome r m') (sound : m.world.heap.Sound)
    (undisturbed : m'.world.Undisturbed world) :
    m.Ran w outcome r { m' with world } := by
  obtain ⟨before, own, others, first, second⟩ := ran.world
  exact ⟨ran.settled.undisturbed (World.undisturbed_refl sound) undisturbed,
    ⟨before, own, others, first, second.trans undisturbed⟩, ran.thread, ran.waiting⟩

/-- No primitive asks for a break. -/
lemma tameError_apply (p : Primitive) (x y : Operand) : VM.TameError (p.apply x y) := by
  obtain ⟨unfit, computes⟩ := VM.tameError_on p x
  rw [Primitive.apply]
  cases applied : p.on x with
  | error e =>
    rw [applied] at unfit
    exact fun target v same => unfit target v (congrArg _ (Except.error.inj same))
  | ok f => exact computes f applied y

lemma Ran.tame {r : Except Halt Value} {m' : Machine σ} (ran : m.Ran w outcome r m')
    (tame : VM.TameError outcome) : VM.Tame r := by
  cases ran.settled with
  | failed e =>
    intro target v same
    exact tame target v (congrArg _ (Halt.error.inj (Except.error.inj same)))
  | unfit => exact VM.tame_fault _
  | _ => exact VM.tame_ok _

/-- The machine in a frame of its own, in a world that has not been disturbed. -/
structure Inside (m m' : Machine σ) : Prop where
  world : m.world.Undisturbed m'.world
  stack : m'.thread.stack = m.thread.stack
  transients : m'.thread.transients = m.thread.transients
  waiting : m'.waiting = m.waiting

lemma Inside.onlyArgument {m' : Machine σ} (inside : m.Inside m') {v : Value}
    (only : m.OnlyArgument w v) : m'.OnlyArgument w v :=
  ⟨only.size, only.plain, only.front, inside.stack ▸ only.here⟩

lemma ofObject_unattached (o : Object) : Operand.ofObject o.unattached = Operand.ofObject o := by
  cases o with
  | _ => rfl

lemma Inside.operandOf {m' : Machine σ} (inside : m.Inside m') (v : Value) :
    m'.operandOf v = m.operandOf v := by
  cases v with
  | smallInt n => rfl
  | double d => rfl
  | ref a =>
    have same : (m'.object? a).map Object.unattached = (m.object? a).map Object.unattached := by
      cases a with
      | memory word => exact inside.world.payloads (.memory word)
      | stack n =>
        change ((m'.thread.transients[n]?).map Cell.payload).map _ = _
        rw [inside.transients]
        rfl
    have seen : ∀ o : Option Object, (o.map Object.unattached).map Operand.ofObject =
        o.map Operand.ofObject := by
      intro o
      cases o with
      | none => rfl
      | some o => exact congrArg some (ofObject_unattached o)
    change ((m'.object? a).map Operand.ofObject).getD _ =
      ((m.object? a).map Operand.ofObject).getD _
    rw [← seen, same, seen]

variable {run : Runner σ}

/-- A block may come to know a frame for the length of the call. -/
lemma ran_attached (sound : m.world.heap.Sound) {x : VM σ Value}
    (h : ∀ world, m.world.Undisturbed world → Ran { m with world } w outcome
      (x.run { m with world }).1 (x.run { m with world }).2) (block : Option Address)
    (caller : FrameId) :
    m.Ran w outcome ((VM.attached block caller x).run m).1
      ((VM.attached block caller x).run m).2 := by
  have plain := h m.world (World.undisturbed_refl sound)
  cases block with
  | none => exact plain
  | some a =>
    obtain ⟨b, seen⟩ := Situation.isDetached_run a m
    rw [VM.attached, VM.run_bind_ok seen]
    cases b with
    | false => exact plain
    | true =>
      have known := World.undisturbed_withCallingFrame sound a (some caller)
      have ran := (h _ known).before known
      obtain ⟨_, _, _, _, after⟩ := ran.world
      exact ran.after sound (World.undisturbed_withCallingFrame after.sound a none)

lemma run_callMethod (quiet : m.world.pollInterrupt.1 = false) (c : MethodObject) (receiver : Value)
    (w : Window) (block : Option Address) :
    (VM.callMethod run c receiver w block).run m =
      (VM.landing m.thread.frame.id <| VM.inFrame (some c.name) c.scope block none <|
        VM.attached block m.thread.frame.id <|
          VM.dispatch run c (c.receiver.getD receiver) w block).run
        { m with world := m.world.pollInterrupt.2 } := by
  have polled : (VM.inWorld fun _ world => world.pollInterrupt : VM σ Bool).run m =
      (.ok false, { m with world := m.world.pollInterrupt.2 }) := by
    rw [VM.run_inWorld, quiet]
  rw [VM.callMethod, VM.run_bind_ok polled]
  rfl

/-- What a call runs, it runs in a frame of its own. -/
lemma ran_callMethod (sound : m.world.heap.Sound) (quiet : m.world.pollInterrupt.1 = false)
    (tame : VM.TameError outcome) (c : MethodObject) (receiver : Value) (block : Option Address)
    (h : ∀ m', m.Inside m' → m'.Ran w outcome
      ((VM.dispatch run c (c.receiver.getD receiver) w block).run m').1
      ((VM.dispatch run c (c.receiver.getD receiver) w block).run m').2) :
    m.Ran w outcome ((VM.callMethod run c receiver w block).run m).1
      ((VM.callMethod run c receiver w block).run m).2 := by
  have polled := World.undisturbed_pollInterrupt sound
  rw [run_callMethod quiet, Situation.run_landing, Situation.run_inFrame]
  -- The frame that is entered has a number of its own, which is no matter here.
  have entered : m.world.Undisturbed (Machine.entered { m with world := m.world.pollInterrupt.2 }
      (some c.name) c.scope block none).world :=
    ⟨polled.sound, polled.settings, polled.payloads, polled.globalRoots, polled.singletons,
      polled.symbols, polled.globals⟩
  have ran := ran_attached entered.sound (fun world undisturbed =>
    h _ ⟨entered.trans undisturbed, rfl, rfl, rfl⟩) block m.thread.frame.id
  rw [landed_of_tame (ran.tame tame)]
  obtain ⟨before, own, others, first, second⟩ := ran.world
  refine ⟨ran.settled.undisturbed entered (World.undisturbed_refl second.sound),
    ⟨before, own, others, entered.trans first, second⟩, ?_, ran.waiting⟩
  exact congrArg ThreadState.leave ran.thread

/-- An optimized method looks at its argument. -/
lemma run_dispatch {c : MethodObject} (optimized : c.optimized) {argument : Value}
    (only : m.OnlyArgument w argument) (receiver : Value) (block : Option Address) :
    (VM.dispatch run c receiver w block).run m =
      (match argument with
      | .smallInt n => do
        VM.releaseWindow w
        VM.runSynthesized run c.native receiver (.integer n) block
      | .double d => do
        VM.releaseWindow w
        VM.runSynthesized run c.native receiver (.float d) block
      | .ref _ => run c.native receiver w block).run m := by
  have read : (VM.onHalt (VM.released w) (VM.readStack (w.get 0))).run m = (.ok argument, m) := by
    rw [VM.onHalt]
    dsimp only
    rw [only.run_get]
  rw [VM.dispatch, if_pos optimized, if_pos (only.count true)]
  cases argument with
  | _ => exact VM.run_bind_ok read

variable {p : Primitive}

/-- The machine with a number in a transient cell, which is the argument. -/
def synthesizing (m : Machine σ) (w : Window) (x : Numeric) : Machine σ :=
  { m with
    thread :=
      { m.thread with
        stack := (m.thread.stack.shrink w.origin) ++ [Value.ref (.stack m.thread.transients.size)]
        transients := m.thread.transients.push (Cell.transient x.object) } }

/-- The cell of the argument does not stand in the way of the receiver. -/
lemma operandOf_synthesizing (m : Machine σ) (w : Window) (x : Numeric) {receiver : Value}
    (other : receiver ≠ .ref (.stack m.thread.transients.size)) :
    (m.synthesizing w x).operandOf receiver = m.operandOf receiver := by
  cases receiver with
  | smallInt n => rfl
  | double d => rfl
  | ref a =>
    cases a with
    | memory word => rfl
    | stack n =>
      have ne : n ≠ m.thread.transients.size := fun same => other (by rw [same])
      change ((((m.thread.transients.push _)[n]?).map _).map _).getD _ = _
      rw [Array.getElem?_push, if_neg ne]
      rfl

lemma operandOf_synthesized (m : Machine σ) (w : Window) (x : Numeric) :
    (m.synthesizing w x).operandOf (.ref (.stack m.thread.transients.size)) = .number x := by
  change ((((m.thread.transients.push _)[m.thread.transients.size]?).map _).map _).getD _ = _
  rw [Array.getElem?_push_size]
  cases x with
  | _ => rfl

lemma run_synthesized (native : Native) (receiver : Value) (block : Option Address) (m : Machine σ)
    (w : Window) (x : Numeric) :
    (do
      VM.releaseWindow w
      VM.runSynthesized run native receiver x.object block).run m =
      (VM.ensuring VM.popTransient
        (run native receiver (.fresh (m.thread.stack.shrink w.origin).size 1 false) block)).run
        (m.synthesizing w x) := rfl

/-- On the fast path the primitive finds the number in the transient cell. -/
lemma ran_fast (runs : ∀ receiver w block, run (.primitive p) receiver w block =
      VM.runPrimitive p receiver w) (sound : m.world.heap.Sound) {x : Numeric}
    (only : m.OnlyArgument w x.inline)
    (other : receiver ≠ .ref (.stack m.thread.transients.size)) (block : Option Address) :
    m.Ran w (p.apply (m.operandOf receiver) (.number x))
      ((VM.dispatch run p.method receiver w block).run m).1
      ((VM.dispatch run p.method receiver w block).run m).2 := by
  have dispatched : (VM.dispatch run p.method receiver w block).run m =
      (VM.ensuring VM.popTransient (VM.runPrimitive p receiver
        (.fresh (m.thread.stack.shrink w.origin).size 1 false))).run (m.synthesizing w x) := by
    rw [← runs _ _ block, ← run_synthesized, run_dispatch rfl only]
    cases x with
    | _ => rfl
  have inside : (m.synthesizing w x).OnlyArgument
      (.fresh (m.thread.stack.shrink w.origin).size 1 false)
      (.ref (.stack m.thread.transients.size)) := by
    have last : ∀ (stack : Array Value) (v : Value), (stack ++ [v])[stack.size]? = some v := by
      intro stack v
      rw [← Array.getElem?_toList, Array.toList_appendList, ← Array.length_toList]
      exact List.getElem?_concat_length
    exact ⟨rfl, rfl, le_rfl, last _ _⟩
  have ran := ran_direct (m := m.synthesizing w x) sound inside p receiver
  rw [operandOf_synthesizing m w x other, operandOf_synthesized] at ran
  rw [dispatched, VM.run_ensuring]
  refine ⟨ran.settled, ran.world, ?_, ran.waiting⟩
  have popped := congrArg ThreadState.popTransient ran.thread
  refine popped.trans ?_
  have stack :
      ((m.thread.stack.shrink w.origin) ++ [Value.ref (.stack m.thread.transients.size)]).shrink
        (m.thread.stack.shrink w.origin).size = m.thread.stack.shrink w.origin := by
    rw [Window.shrink_append le_rfl, Window.shrink_size]
  change ThreadState.mk _ (m.thread.transients.push _).pop _ _ = _
  rw [Array.pop_push]
  exact congrArg (fun stack => { m.thread with stack }) stack

/-- A number in a cell of the heap is looked up where it is. -/
lemma ran_boxed (runs : ∀ receiver w block, run (.primitive p) receiver w block =
      VM.runPrimitive p receiver w) (sound : m.world.heap.Sound) {box : Address}
    (only : m.OnlyArgument w (.ref box)) (receiver : Value) (block : Option Address) :
    m.Ran w (p.apply (m.operandOf receiver) (m.operandOf (.ref box)))
      ((VM.dispatch run p.method receiver w block).run m).1
      ((VM.dispatch run p.method receiver w block).run m).2 := by
  have dispatched : (VM.dispatch run p.method receiver w block).run m =
      (VM.runPrimitive p receiver w).run m := by
    rw [run_dispatch rfl only, ← runs receiver w block]
    rfl
  rw [dispatched]
  exact ran_direct sound only p receiver

end Machine

/-- An allocation adds one payload and no global roots. -/
lemma Heap.Sound.allocate_adds {α : Type} [Payload α] {h : Heap α} (sound : h.Sound)
    (own : Array Value) (others : List (Array Value)) (payload : α) :
    (h.allocate (own :: others) payload).2.globalRoots = h.globalRoots ∧
      ∀ x o, (h.allocate (own :: others) payload).2.payload? x = some o →
        o = payload ∨ h.payload? x = some o := by
  rw [Heap.allocate]
  split
  · exact ⟨rfl, fun _ _ here => .inr here⟩
  · rename_i c fits
    have retains := sound.retains_makeRoom c own others payload
    have size := size_of_layout retains.layout
    obtain ⟨a, _, _, _, here, rest⟩ :=
      retains.sound.allocateIn_cells (size ▸ classOf_lt sound fits) payload
    refine ⟨(allocateIn_frame _ c payload).1.trans retains.globalRoots, fun x o there => ?_⟩
    by_cases new : x = a
    · rw [new, here] at there
      exact .inl (Option.some.inj there.symm)
    · rw [(rest x new).2] at there
      exact .inr ((retains.payload x (isLive_of_payload? there)).symm.trans there)

namespace World

lemma allocate_frame (argStacks : Stacks) (o : Object) (w : World) :
    (w.allocate argStacks o).2.singletons = w.singletons ∧
      (w.allocate argStacks o).2.symbols = w.symbols ∧
      (w.allocate argStacks o).2.globals = w.globals := by
  obtain ⟨heap, singletons, symbols, globals, ⟨interrupt, collection, installed⟩, nextFrame⟩ := w
  cases installed with
  | false => exact ⟨rfl, rfl, rfl⟩
  | true =>
    cases collection with
    | false => exact ⟨rfl, rfl, rfl⟩
    | true => exact ⟨rfl, rfl, rfl⟩

/-- The collection that a signal has asked for adds nothing. -/
lemma retains_polledHeap {w : World} (sound : w.heap.Sound) (argStacks : Stacks) :
    w.heap.Retains (w.polledHeap argStacks) [] := by
  rw [polledHeap]
  split
  · exact sound.retains_runCycle fun x mem => by cases mem
  · exact sound.retains_of_cells sound rfl rfl (fun _ => rfl) []

/-- Something in the world refers to the address. -/
inductive Mentions (w : World) (a : Address) : Prop where
  | cell {x : Address} {o : Object} (here : w.heap.payload? x = some o)
      (child : Value.ref a ∈ Payload.children o)
  | root (listed : Value.ref a ∈ w.heap.globalRoots)
  | global {name : String} (bound : (name, Value.ref a) ∈ w.globals)
  | symbol {name : String} (entered : (name, a) ∈ w.symbols)
  | singleton (known : Value.ref a ∈ [w.singletons.nil, w.singletons.ofBool true,
      w.singletons.ofBool false])

variable {w w' : World} {a : Address}

lemma children_unattached (o : Object) : Payload.children o.unattached = Payload.children o := by
  cases o with
  | _ => rfl

lemma Undisturbed.mentions (undisturbed : w.Undisturbed w') (mentions : w'.Mentions a) :
    w.Mentions a := by
  cases mentions with
  | @cell x o here child =>
    have same := undisturbed.payloads x
    rw [here] at same
    obtain ⟨o', here', unattached⟩ := Option.map_eq_some_iff.mp same.symm
    refine .cell here' ?_
    rwa [← children_unattached, unattached, children_unattached]
  | root listed => exact .root (undisturbed.globalRoots ▸ listed)
  | global bound => exact .global (undisturbed.globals ▸ bound)
  | symbol entered => exact .symbol (undisturbed.symbols ▸ entered)
  | singleton known => exact .singleton (undisturbed.singletons ▸ known)

/-- A box refers to nothing. -/
lemma mentions_boxed (sound : w.heap.Sound) (own : Array Value) (others : Stacks)
    (outcome : Except CallError Computed)
    (mentions : (w.boxed (own :: others) outcome).Mentions a) :
    w.Mentions a := by
  unfold World.boxed at mentions
  split at mentions
  · split at mentions
    · exact mentions
    · rename_i n _
      obtain ⟨singletons, symbols, globals⟩ := allocate_frame (own :: others) (.integer n) w
      have heap := (allocate_eq (own :: others) (.integer n) w).2
      have polled := retains_polledHeap sound (own :: others)
      obtain ⟨globalRoots, payloads⟩ := polled.sound.allocate_adds own others (.integer n)
      cases mentions with
      | cell here child =>
        rw [heap] at here
        rcases payloads _ _ here with rfl | there
        · cases child
        · exact .cell ((polled.payload _ (Heap.isLive_of_payload? there)).symm.trans there) child
      | root listed =>
        rw [heap, globalRoots, polled.globalRoots] at listed
        exact .root listed
      | global bound => exact .global (globals ▸ bound)
      | symbol entered => exact .symbol (symbols ▸ entered)
      | singleton known => exact .singleton (singletons ▸ known)
  · exact mentions

end World

namespace Machine

variable {σ : Type} {m m' : Machine σ} {w : Window} {a : Address}
  {outcome : Except CallError Computed} {r : Except Halt Value}

/-- Something that a computation can see refers to the address. -/
inductive Mentions (m : Machine σ) (a : Address) : Prop where
  | world (mentions : m.world.Mentions a)
  | stack {s : Array Value} (own : s ∈ m.argStacks) (pushed : Value.ref a ∈ s)
  | frame {f : Frame} (entered : f ∈ m.thread.frame :: m.thread.callers)
      (holds : f.block = some a ∨ f.outer = some a)

lemma Ran.mentions (ran : m.Ran w outcome r m') (mentions : m'.Mentions a) : m.Mentions a := by
  cases mentions with
  | world mentions =>
    obtain ⟨before, own, others, first, second⟩ := ran.world
    exact .world (first.mentions
      (World.mentions_boxed first.sound own others outcome (second.mentions mentions)))
  | @stack s own pushed =>
    rcases List.mem_cons.mp own with rfl | waits
    · rw [ran.thread] at pushed
      refine .stack (s := m.thread.stack) List.mem_cons_self ?_
      rw [← Array.mem_toList_iff, Array.toList_shrink] at pushed
      exact Array.mem_toList_iff.mp (List.mem_of_mem_take pushed)
    · exact .stack (List.mem_cons_of_mem _ (ran.waiting ▸ waits)) pushed
  | frame entered holds =>
    rw [ran.thread] at entered
    exact .frame entered holds

/-- No outcome is a reference to a place on the thread's stack that was not known before. -/
lemma Ran.result (ran : m.Ran w outcome r m') {n : Nat} (same : r = .ok (.ref (.stack n))) :
    m.Mentions (.stack n) := by
  cases ran.settled with
  | failed e => cases same
  | double d => cases same
  | unfit => cases same
  | truth b =>
    refine .world (.singleton ?_)
    rw [← Except.ok.inj same]
    cases b with
    | true => exact List.mem_cons_of_mem _ List.mem_cons_self
    | false => exact List.mem_cons_of_mem _ (List.mem_cons_of_mem _ List.mem_cons_self)
  | inline small =>
    obtain ⟨_, rfl⟩ := Value.smallInt?_eq_some_iff.mp small
    cases same
  | boxed large here =>
    obtain rfl := Value.ref.inj (Except.ok.inj same)
    cases here

/-- What remains of the cell at a place on the thread's stack. -/
structure Forgets (m : Machine σ) (n : Nat) (r : Except Halt Value) (m' : Machine σ) : Prop where
  /-- The cell is gone, -/
  gone : m'.cell? (.stack n) = none
  /-- the outcome and all that can be seen refer to it only if they could before, -/
  result : r = .ok (.ref (.stack n)) → m.Mentions (.stack n)
  mentions : m'.Mentions (.stack n) → m.Mentions (.stack n)
  /-- and the outcome is no break, so there is no value in it if it is an error. -/
  tame : VM.Tame r

/-- No collector resolves the address, marks a cell for it, as a root or along an edge, or has
a cell there to free. -/
structure Unseen (a : Address) : Prop where
  resolve : ∀ h : Heap Object, h.resolve? a = none ∧ h.cellFor? a = none
  mark : ∀ k : Marking Object, k.candidate a = k ∧ k.edge (.ref a) = k
  live : ∀ h : Heap Object, ¬ h.isLive a

lemma unseen_stack (n : Nat) : Unseen (.stack n) :=
  ⟨fun _ => ⟨rfl, rfl⟩, fun _ => ⟨rfl, rfl⟩,
    fun _ => by simp [Heap.isLive, Heap.spot?, Heap.resolve?]⟩

/-- Three ways to run a primitive on the same operands. -/
structure FastPath (m : Machine σ) (run : Runner σ) (p : Primitive) (receiver : Value) (w : Window)
    (x : Numeric) (box : Address) (block : Option Address) : Prop where
  /-- A pending interrupt is delivered instead of a call, whatever the argument is. -/
  interrupted : m.world.pollInterrupt.1 = true → ∀ argument,
    (VM.callMethod run p.method receiver w block).run (m.withArgument w argument) =
      (.error (.error .interrupt), VM.released w
        { m.withArgument w argument with world := m.world.pollInterrupt.2 })
  /-- Otherwise the outcome of a call with the inline argument -/
  inline : m.world.pollInterrupt.1 = false →
    m.Ran w (p.apply (m.operandOf receiver) (.number x))
      ((VM.callMethod run p.method receiver w block).run m).1
      ((VM.callMethod run p.method receiver w block).run m).2
  /-- and that of a call with the boxed argument -/
  boxed : m.world.pollInterrupt.1 = false →
    m.Ran w (p.apply (m.operandOf receiver) (.number x))
      ((VM.callMethod run p.method receiver w block).run (m.withArgument w (.ref box))).1
      ((VM.callMethod run p.method receiver w block).run (m.withArgument w (.ref box))).2
  /-- are those of the primitive itself, which no interrupt keeps from being run. -/
  direct : m.Ran w (p.apply (m.operandOf receiver) (.number x))
    ((VM.runPrimitive p receiver w).run m).1 ((VM.runPrimitive p receiver w).run m).2
  /-- The cell that the inline argument was given leaves no trace. -/
  forgets : m.world.pollInterrupt.1 = false → m.Forgets m.thread.transients.size
    ((VM.callMethod run p.method receiver w block).run m).1
    ((VM.callMethod run p.method receiver w block).run m).2
  unseen : Unseen (.stack m.thread.transients.size)

variable {run : Runner σ} {p : Primitive} {receiver : Value} {x : Numeric} {box : Address}

lemma run_interrupted (pending : m.world.pollInterrupt.1 = true) (c : MethodObject)
    (receiver : Value) (w : Window) (block : Option Address) :
    (VM.callMethod run c receiver w block).run m = (.error (.error .interrupt), VM.released w
      { m with world := m.world.pollInterrupt.2 }) := by
  have polled : (VM.inWorld fun _ world => world.pollInterrupt : VM σ Bool).run m =
      (.ok true, { m with world := m.world.pollInterrupt.2 }) := by
    rw [VM.run_inWorld, pending]
  rw [VM.callMethod, VM.run_bind_ok polled]
  rfl

/-- The transient cell of the argument is a place that is not in use yet. -/
lemma not_transient_of_isSome (known : ∀ a, receiver = .ref a → (m.object? a).isSome) :
    receiver ≠ .ref (.stack m.thread.transients.size) := by
  rintro rfl
  have here : ((m.thread.transients[m.thread.transients.size]?).map Cell.payload).isSome :=
    known _ rfl
  rw [Array.getElem?_size] at here
  cases here

lemma ran_inline (runs : ∀ receiver w block, run (.primitive p) receiver w block =
      VM.runPrimitive p receiver w) (sound : m.world.heap.Sound) (only : m.OnlyArgument w x.inline)
    (other : receiver ≠ .ref (.stack m.thread.transients.size)) (block : Option Address)
    (quiet : m.world.pollInterrupt.1 = false) :
    m.Ran w (p.apply (m.operandOf receiver) (.number x))
      ((VM.callMethod run p.method receiver w block).run m).1
      ((VM.callMethod run p.method receiver w block).run m).2 := by
  refine ran_callMethod sound quiet (tameError_apply p _ _) p.method receiver block
    fun m' inside => ?_
  have ran := ran_fast runs inside.world.sound (inside.onlyArgument only)
    (by rwa [inside.transients]) block
  rwa [inside.operandOf] at ran

/-- The boxed argument takes the place of the inline one. -/
lemma onlyArgument_withArgument {v : Value} (only : m.OnlyArgument w v) (v' : Value) :
    (m.withArgument w v').OnlyArgument w v' := by
  refine ⟨only.size, only.plain, only.front, ?_⟩
  obtain ⟨inside, _⟩ := Array.getElem?_eq_some_iff.mp only.here
  exact Array.getElem?_setIfInBounds_self_of_lt inside

lemma ran_withBox (runs : ∀ receiver w block, run (.primitive p) receiver w block =
      VM.runPrimitive p receiver w) (sound : m.world.heap.Sound) (only : m.OnlyArgument w x.inline)
    (holds : m.object? box = some x.object) (receiver : Value) (block : Option Address)
    (quiet : m.world.pollInterrupt.1 = false) :
    m.Ran w (p.apply (m.operandOf receiver) (.number x))
      ((VM.callMethod run p.method receiver w block).run (m.withArgument w (.ref box))).1
      ((VM.callMethod run p.method receiver w block).run (m.withArgument w (.ref box))).2 := by
  have operand : m.operandOf (.ref box) = .number x := by
    rw [operandOf, holds]
    cases x with
    | _ => rfl
  have only' := onlyArgument_withArgument only (.ref box)
  have ran : (m.withArgument w (.ref box)).Ran w (p.apply (m.operandOf receiver) (.number x))
      ((VM.callMethod run p.method receiver w block).run (m.withArgument w (.ref box))).1
      ((VM.callMethod run p.method receiver w block).run (m.withArgument w (.ref box))).2 := by
    refine ran_callMethod (m := m.withArgument w (.ref box)) sound quiet (tameError_apply p _ _)
      p.method receiver block fun m' inside => ?_
    have ran := ran_boxed runs inside.world.sound (inside.onlyArgument only') receiver block
    rw [inside.operandOf, inside.operandOf] at ran
    rw [← operand]
    exact ran
  refine ⟨ran.settled, ran.world, ran.thread.trans ?_, ran.waiting⟩
  have below : (m.thread.stack.setIfInBounds w.start (.ref box)).shrink w.origin =
      m.thread.stack.shrink w.origin := Window.shrink_set! only.front _
  exact congrArg (fun stack => { m.thread with stack }) below

/-- On all three ways a primitive computes the same, unless an interrupt comes first. -/
theorem fastPath (runs : ∀ receiver w block, run (.primitive p) receiver w block =
      VM.runPrimitive p receiver w) (reachable : m.world.heap.Reachable)
    (only : m.OnlyArgument w x.inline) (holds : m.object? box = some x.object)
    (known : ∀ a, receiver = .ref a → (m.object? a).isSome) (block : Option Address) :
    m.FastPath run p receiver w x box block := by
  have sound := reachable.sound
  have ran := ran_inline runs sound only (not_transient_of_isSome known) block
  constructor
  · exact fun pending argument => run_interrupted (m := m.withArgument w argument) pending
      p.method receiver w block
  · exact ran
  · exact ran_withBox runs sound only holds receiver block
  · have direct := ran_direct sound only p receiver
    cases x with
    | _ => exact direct
  · intro quiet
    refine ⟨?_, (ran quiet).result, (ran quiet).mentions, (ran quiet).tame (tameError_apply p _ _)⟩
    change (_ : ThreadState).transients[_]? = none
    rw [(ran quiet).thread]
    exact Array.getElem?_size
  · exact unseen_stack _

/-- Runs primitives alone. -/
def bare : Runner Unit := fun native receiver w _ =>
  match native with
  | .primitive p => VM.runPrimitive p receiver w
  | .body _ => VM.halt .exhausted

/-- An inline number has been pushed, and there is a cell with the same number. -/
def pushed (signals : Signals) : Machine Unit where
  world := { signalled.world with signals }
  thread := { ThreadState.start ⟨0⟩ "main" with stack := #[.smallInt 7] }
  waiting := []
  host := ()

/-- Without an interrupt, both calls yield the sum, -/
theorem fastPath_sum : (pushed default).OnlyArgument (.fresh 0 1 false) (.smallInt 7) ∧
    (pushed default).object? loneCell = some (.integer 7) ∧
    (pushed default).FastPath bare .integerAdd (.smallInt 40) (.fresh 0 1 false) (.integer 7)
      loneCell none ∧
    ((VM.callMethod bare Primitive.integerAdd.method (.smallInt 40) (.fresh 0 1 false) none).run
      (pushed default)).1 = .ok (.smallInt 47) := by
  have only : (pushed default).OnlyArgument (.fresh 0 1 false) (.smallInt 7) :=
    ⟨rfl, rfl, le_rfl, rfl⟩
  have holds : (pushed default).object? loneCell = some (.integer 7) := by decide +kernel
  refine ⟨only, holds, ?_, by decide +kernel⟩
  exact fastPath (x := .integer 7) (fun _ _ _ => rfl) reachable_lone only holds
    (fun a same => by cases same) none

/-- but one that is pending keeps the calls from the sum, and only these. -/
theorem call_interrupted :
    ((VM.callMethod bare Primitive.integerAdd.method (.smallInt 40) (.fresh 0 1 false) none).run
      (pushed ⟨true, false, true⟩)).1 = .error (.error .interrupt) ∧
    ((VM.runPrimitive .integerAdd (.smallInt 40) (.fresh 0 1 false)).run
      (pushed ⟨true, false, true⟩)).1 = .ok (.smallInt 47) := by
  decide +kernel

end Machine

end CellMachine
