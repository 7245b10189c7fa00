import CellMachine.Proofs.Machine.NewWorld
import CellMachine.Proofs.Threads.Beats

/-!
# Threads that intern names

The threads of a machine share its heap, its table of names and its global variables. A thread
that interns a name looks it up and, if it is not there, allocates a cell for it. Meanwhile
other threads run, intern names and collect. In the end the cell is published, unless another
thread was faster. The other calls of a thread are single steps or those of a mutator.
-/

namespace CellMachine

/-- What the threads of a machine share besides the heap. -/
structure Surroundings where
  singletons : Singletons
  symbols : List (String × Address)
  globals : List (String × Value)
  signals : Signals
  nextFrame : Nat

def World.shared (w : World) : Shared Object Surroundings :=
  ⟨w.heap, w.singletons, w.symbols, w.globals, w.signals, w.nextFrame⟩

def Shared.toWorld (s : Shared Object Surroundings) : World :=
  ⟨s.heap, s.world.singletons, s.world.symbols, s.world.globals, s.world.signals, s.world.nextFrame⟩

/-- What a thread does next. -/
inductive Request where
  | halt
  | register
  | deregister
  | safepoint
  | collect
  | allocate (o : Object)
  | intern (name : String)
  | setGlobal (name : String) (v : Value)
  /-- Changes what a cell holds. -/
  | modify (a : Address) (f : Object → Object)
  /-- Looks at all that is shared. -/
  | look

/-- What a thread gets for a request. -/
inductive Reply where
  | done
  | ran (collected : Bool)
  | cell (a : Address)
  | fault (f : HeapFault)
  | view (w : World)

/-- Programs of threads: what a thread reports as roots, what it asks for, and how it goes on
with the reply. -/
structure Client (σ : Type) where
  roots : σ → List Value
  request : σ → Request
  resume : σ → Reply → σ

namespace Request

/-- It takes a registration. -/
def NeedsMutator : Request → Prop
  | safepoint | collect | allocate _ | intern _ => True
  | _ => False

def gained : Request → Nat
  | register => 1
  | _ => 0

def lost : Request → Nat
  | deregister => 1
  | _ => 0

end Request

namespace Reply

def ofResult : Except HeapFault Address → Reply
  | .ok a => cell a
  | .error f => fault f

/-- The value is among those that a thread gets with the reply. -/
def Offers : Reply → Value → Prop
  | cell a, v => v = .ref a
  | view w, v => w.Stores v
  | _, _ => False

end Reply

namespace Client

variable {σ : Type}

/-- The threads count their registrations, and no thread changes a symbol. -/
structure Lawful (c : Client σ) (held : σ → Nat) : Prop where
  registered : ∀ own, (c.request own).NeedsMutator → 0 < held own
  counted : ∀ own reply,
    held (c.resume own reply) + (c.request own).lost = held own + (c.request own).gained
  symbols : ∀ own a f, c.request own = .modify a f → ∀ name, f (.symbol name) = .symbol name

/-- A thread reports and stores the references it was given, and no others. Before it registers
and when it deregisters it has none. -/
structure Honest (c : Client σ) (held : σ → Nat) : Prop where
  outside : ∀ own, held own = 0 → ∀ a, .ref a ∉ c.roots own
  leaving : ∀ own, c.request own = .deregister → ∀ a, .ref a ∉ c.roots own
  given : ∀ own reply a, .ref a ∈ c.roots (c.resume own reply) →
    .ref a ∈ c.roots own ∨ reply.Offers (.ref a)
  allocates : ∀ own o, c.request own = .allocate o → ∀ a, .ref a ∈ o.children →
    .ref a ∈ c.roots own
  binds : ∀ own name a, c.request own = .setGlobal name (.ref a) → .ref a ∈ c.roots own
  modifies : ∀ own x f, c.request own = .modify x f → ∀ o a, .ref a ∈ (f o).children →
    .ref a ∈ o.children ∨ .ref a ∈ c.roots own

end Client

/-- How far a thread is with the name that it interns. -/
inductive Progress where
  | start
  /-- It has not found the name. -/
  | missed
  /-- It has a cell for the name that no other thread knows. -/
  | fresh (a : Address)

structure Interner (σ : Type) where
  own : σ
  progress : Progress

namespace Client

variable {σ : Type} (c : Client σ)

/-- The thread has its reply. -/
def answered (t : Interner σ) (reply : Reply) : Interner σ := ⟨c.resume t.own reply, .start⟩

/-- The thread has looked a name up. -/
def found (t : Interner σ) : Option Address → Interner σ
  | some a => c.answered t (.cell a)
  | none => { t with progress := .missed }

/-- The thread has allocated a cell for a name. -/
def made (t : Interner σ) : Except HeapFault Address → Interner σ
  | .ok a => { t with progress := .fresh a }
  | .error f => c.answered t (.fault f)

/-- One step that no other thread can see in the middle. -/
def onWorld (f : World → Interner σ × World) (s : Shared Object Surroundings) :
    Interner σ × Shared Object Surroundings :=
  let (t, w) := f s.toWorld
  (t, w.shared)

def program : Program Object Surroundings (Interner σ) where
  roots t := c.roots t.own
  move t :=
    match c.request t.own with
    | .halt => .halt
    | .register => .register (c.answered t .done)
    | .deregister => .deregister (c.answered t .done)
    | .safepoint => .safepoint (c.answered t .done)
    | .collect => .collect fun collected => c.answered t (.ran collected)
    | .allocate o => .allocate o fun result => c.answered t (.ofResult result)
    | .setGlobal name v => .update <| onWorld fun w => (c.answered t .done, w.setGlobal name v)
    | .modify a f => .update <| onWorld fun w => (c.answered t .done, w.modifyObject a f)
    | .look => .update <| onWorld fun w => (c.answered t (.view w), w)
    | .intern name =>
      match t.progress with
      | .start => .update <| onWorld fun w => (c.found t (w.symbol? name), w)
      | .missed => .allocate (.symbol name) (c.made t)
      | .fresh a =>
        .update <| onWorld fun w => let (b, w) := w.publish name a; (c.answered t (.cell b), w)

variable {c} {held : σ → Nat}

lemma touches_publish (w : World) (name : String) (a : Address) :
    Relation.ReflTransGen Heap.Touch w.heap (w.publish name a).2.heap := by
  rw [World.publish]
  split
  · exact .refl
  · exact .single (.addRoot w.heap (.ref a))

lemma touches_setGlobal (w : World) (name : String) (v : Value) :
    Relation.ReflTransGen Heap.Touch w.heap (w.setGlobal name v).heap := by
  rw [World.setGlobal]
  cases w.global? name with
  | none => exact .single (.addRoot w.heap v)
  | some old => exact .tail (.single (.removeRoot w.heap old)) (.addRoot _ v)

/-- The number of registrations after a reply, for each kind of request. -/
lemma Lawful.held_answered (lawful : c.Lawful held) {t : Interner σ} {request : Request}
    (here : c.request t.own = request) (reply : Reply) :
    held (c.answered t reply).own + request.lost = held t.own + request.gained := by
  have counted := lawful.counted t.own reply
  rwa [here] at counted

lemma Lawful.held_found (lawful : c.Lawful held) {t : Interner σ} {name : String}
    (here : c.request t.own = .intern name) (hit : Option Address) :
    held (c.found t hit).own = held t.own := by
  cases hit with
  | none => rfl
  | some a => exact lawful.held_answered here _

lemma Lawful.held_made (lawful : c.Lawful held) {t : Interner σ} {name : String}
    (here : c.request t.own = .intern name) (result : Except HeapFault Address) :
    held (c.made t result).own = held t.own := by
  cases result with
  | ok a => rfl
  | error f => exact lawful.held_answered here _

/-- The moves of a thread, by what it asks for and how far it is. -/
inductive Makes (c : Client σ) (t : Interner σ) : Move Object Surroundings (Interner σ) → Prop where
  | halt (here : c.request t.own = .halt) : Makes c t .halt
  | register (here : c.request t.own = .register) : Makes c t (.register (c.answered t .done))
  | deregister (here : c.request t.own = .deregister) :
      Makes c t (.deregister (c.answered t .done))
  | safepoint (here : c.request t.own = .safepoint) : Makes c t (.safepoint (c.answered t .done))
  | collect (here : c.request t.own = .collect) :
      Makes c t (.collect fun collected => c.answered t (.ran collected))
  | allocate {o : Object} (here : c.request t.own = .allocate o) :
      Makes c t (.allocate o fun result => c.answered t (.ofResult result))
  | setGlobal {name : String} {v : Value} (here : c.request t.own = .setGlobal name v) :
      Makes c t (.update (onWorld fun w => (c.answered t .done, w.setGlobal name v)))
  | modify {a : Address} {f : Object → Object} (here : c.request t.own = .modify a f) :
      Makes c t (.update (onWorld fun w => (c.answered t .done, w.modifyObject a f)))
  | look (here : c.request t.own = .look) :
      Makes c t (.update (onWorld fun w => (c.answered t (.view w), w)))
  | find {name : String} (here : c.request t.own = .intern name) (start : t.progress = .start) :
      Makes c t (.update (onWorld fun w => (c.found t (w.symbol? name), w)))
  | make {name : String} (here : c.request t.own = .intern name) (missed : t.progress = .missed) :
      Makes c t (.allocate (.symbol name) (c.made t))
  | publish {name : String} {a : Address} (here : c.request t.own = .intern name)
      (fresh : t.progress = .fresh a) :
      Makes c t (.update (onWorld fun w =>
        let (b, w) := w.publish name a
        (c.answered t (.cell b), w)))

lemma makes (c : Client σ) (t : Interner σ) : c.Makes t (c.program.move t) := by
  obtain ⟨own, progress⟩ := t
  rw [program]
  dsimp only
  cases here : c.request own with
  | halt => exact .halt here
  | register => exact .register here
  | deregister => exact .deregister here
  | safepoint => exact .safepoint here
  | collect => exact .collect here
  | allocate o => exact .allocate here
  | setGlobal name v => exact .setGlobal here
  | modify a f => exact .modify here
  | look => exact .look here
  | intern name =>
    cases progress with
    | start => exact .find here rfl
    | missed => exact .make here rfl
    | fresh a => exact .publish here rfl

lemma move_find {own : σ} {name : String} (here : c.request own = .intern name) :
    c.program.move ⟨own, .start⟩ =
      .update (onWorld fun w => (c.found ⟨own, .start⟩ (w.symbol? name), w)) := by
  rw [program]
  dsimp only
  rw [here]

lemma move_publish {own : σ} {name : String} (here : c.request own = .intern name) (x : Address) :
    c.program.move ⟨own, .fresh x⟩ = .update (onWorld fun w =>
      (c.answered ⟨own, .fresh x⟩ (.cell (w.publish name x).1), (w.publish name x).2)) := by
  rw [program]
  dsimp only
  rw [here]

lemma Lawful.program (lawful : c.Lawful held) : c.program.Lawful fun t => held t.own := by
  have using_ : ∀ {t : Interner σ} {request : Request}, c.request t.own = request →
      request.NeedsMutator → 0 < held t.own := by
    intro t request here needs
    exact lawful.registered t.own (here ▸ needs)
  constructor
  · intro t next move
    have made := c.makes t
    rw [move] at made
    cases made with
    | register here => exact lawful.held_answered here .done
  · intro t payload next move
    have made := c.makes t
    rw [move] at made
    cases made with
    | allocate here => exact ⟨using_ here trivial, fun _ => lawful.held_answered here _⟩
    | make here => exact ⟨using_ here trivial, lawful.held_made here⟩
  · intro t next move
    have made := c.makes t
    rw [move] at made
    cases made with
    | collect here => exact ⟨using_ here trivial, fun _ => lawful.held_answered here _⟩
  · intro t next move
    have made := c.makes t
    rw [move] at made
    cases made with
    | safepoint here => exact ⟨using_ here trivial, lawful.held_answered here .done⟩
  · intro t act move s
    have made := c.makes t
    rw [move] at made
    cases made with
    | @setGlobal name v here =>
      exact ⟨lawful.held_answered here .done, touches_setGlobal s.toWorld name v⟩
    | @modify a f here =>
      exact ⟨lawful.held_answered here .done, Heap.touches_modifyPayload s.heap a f⟩
    | look here => exact ⟨lawful.held_answered here _, .refl⟩
    | find here => exact ⟨lawful.held_found here _, .refl⟩
    | @publish name a here =>
      exact ⟨lawful.held_answered here _, touches_publish s.toWorld name a⟩
  · intro t next move
    have made := c.makes t
    rw [move] at made
    cases made with
    | deregister here => exact lawful.held_answered here .done

/-- A step that is no collection, as it concerns the world and the thread that took it. -/
inductive Turn (c : Client σ) (w : World) (t : Interner σ) : Interner σ → World → Prop where
  | stay : Turn c w t t w
  | room {k : Nat} {heap : Heap Object} (made : heap = w.heap.prewarm k ∨ heap = w.heap.grow k) :
      Turn c w t t { w with heap }
  /-- The reply tells nothing of the heap. -/
  | plain {reply : Reply} (plain : ∀ v, ¬ reply.Offers v) : Turn c w t (c.answered t reply) w
  | look (here : c.request t.own = .look) : Turn c w t (c.answered t (.view w)) w
  | allocate {o : Object} {k : Nat} (here : c.request t.own = .allocate o)
      (fits : w.heap.classOf o = .ok k) :
      Turn c w t (c.answered t (.ofResult (w.heap.allocateIn k o).1))
        { w with heap := (w.heap.allocateIn k o).2 }
  | setGlobal {name : String} {v : Value} (here : c.request t.own = .setGlobal name v) :
      Turn c w t (c.answered t .done) (w.setGlobal name v)
  | modify {a : Address} {f : Object → Object} (here : c.request t.own = .modify a f) :
      Turn c w t (c.answered t .done) (w.modifyObject a f)
  | find {name : String} (here : c.request t.own = .intern name) (start : t.progress = .start) :
      Turn c w t (c.found t (w.symbol? name)) w
  | make {name : String} {k : Nat} (here : c.request t.own = .intern name)
      (missed : t.progress = .missed) (fits : w.heap.classOf (.symbol name) = .ok k) :
      Turn c w t (c.made t (w.heap.allocateIn k (.symbol name)).1)
        { w with heap := (w.heap.allocateIn k (.symbol name)).2 }
  | publish {name : String} {a : Address} (here : c.request t.own = .intern name)
      (fresh : t.progress = .fresh a) :
      Turn c w t (c.answered t (.cell (w.publish name a).1)) (w.publish name a).2

lemma turn_of_beat {s s' : Shared Object Surroundings} {t t' : Interner σ}
    (beat : Beat c.program s t t' s') : c.Turn s.toWorld t t' s'.toWorld := by
  have made := c.makes t
  cases beat with
  | stay => exact .stay
  | room made => exact .room made
  | update move =>
    rw [move] at made
    cases made with
    | setGlobal here => exact .setGlobal here
    | modify here => exact .modify here
    | look here => exact .look here
    | find here start => exact .find here start
    | publish here fresh => exact .publish here fresh
  | claim move fits =>
    rw [move] at made
    cases made with
    | allocate here => exact .allocate here fits
    | make here missed => exact .make here missed fits
  | refuse move fault =>
    rw [move] at made
    cases made with
    | allocate here => exact .plain fun _ offers => offers
    | make here missed => exact .plain fun _ offers => offers
  | answer ends =>
    generalize c.program.move t = move at made ends
    cases made with
    | register here =>
      obtain rfl := ends
      exact .plain fun _ offers => offers
    | deregister here =>
      obtain rfl := ends
      exact .plain fun _ offers => offers
    | safepoint here =>
      obtain rfl := ends
      exact .plain fun _ offers => offers
    | collect here =>
      obtain ⟨ran, rfl⟩ := ends
      exact .plain fun _ offers => offers
    | _ => cases ends

end Client

end CellMachine
