import CellMachine.Proofs.Threads.InternClients

/-!
# Calls in the middle

A call that binds a global variable takes the lock of the variables, enters the value, takes the
registration of the old value away and registers the new one. A call that interns a name takes
the lock of the table to look for the name, and again to register the fresh cell and to enter it.
Between these steps other threads run. A thread that finds a lock taken waits.
-/

namespace CellMachine

namespace World

/-- The value is bound to the name, and no registration is changed. -/
def enterGlobal (name : String) (v : Value) (w : World) : World :=
  { w with globals := rebind name v w.globals }

/-- Takes the registration of the old value away. -/
def release (old : Option Value) (w : World) : World :=
  match old with
  | some v => w.removeRoot v
  | none => w

def enterSymbol (name : String) (a : Address) (w : World) : World :=
  { w with symbols := (name, a) :: w.symbols }

/-- The steps of a call come to the same as the call. -/
lemma setGlobal_eq (w : World) (name : String) (v : Value) :
    ((w.enterGlobal name v).release (w.global? name)).addRoot v = w.setGlobal name v := by
  rw [setGlobal]
  cases w.global? name <;> rfl

lemma publish_eq (w : World) (name : String) (a : Address) (absent : w.symbol? name = none) :
    w.publish name a = (a, (w.addRoot (.ref a)).enterSymbol name a) := by
  rw [publish, absent]
  rfl

end World

/-- Which of the two locks are taken. -/
structure Locks where
  symbols : Bool
  globals : Bool

structure Guarded where
  surroundings : Surroundings
  locks : Locks

namespace Shared

def guardedWorld (s : Shared Object Guarded) : World :=
  Shared.toWorld ⟨s.heap, s.world.surroundings⟩

end Shared

def World.guarded (w : World) (locks : Locks) : Shared Object Guarded :=
  ⟨w.heap, ⟨w.shared.world, locks⟩⟩

/-- How far a thread is with its call. -/
inductive Task where
  | start
  /-- It has not found the name. -/
  | missed
  /-- It has a cell for the name that no other thread knows. -/
  | fresh (a : Address)
  /-- It has registered the cell. -/
  | rooted (a : Address)
  /-- It has bound the variable; this is what was bound to it before. -/
  | bound (old : Option Value)
  /-- The old value is not registered any more, and the new one not yet. -/
  | released

structure Caller (σ : Type) where
  own : σ
  task : Task

/-- What a thread does while it has a lock. -/
inductive Critical where
  | outside
  | bound (name : String) (v : Value) (old : Option Value)
  | released (name : String) (v : Value)
  | rooted (name : String) (a : Address)

namespace Client

variable {σ : Type} (c : Client σ)

def replied (t : Caller σ) (reply : Reply) : Caller σ := ⟨c.resume t.own reply, .start⟩

/-- The thread has allocated a cell for a name. -/
def supplied (t : Caller σ) : Except HeapFault Address → Caller σ
  | .ok a => { t with task := .fresh a }
  | .error f => c.replied t (.fault f)

/-- One step that no other thread can see in the middle. -/
def inWorld (f : World → Locks → Caller σ × World × Locks) (s : Shared Object Guarded) :
    Caller σ × Shared Object Guarded :=
  let (t, w, l) := f s.guardedWorld s.world.locks
  (t, w.guarded l)

def bindGlobal (t : Caller σ) (name : String) (v : Value) (w : World) (l : Locks) :
    Caller σ × World × Locks :=
  if l.globals then (t, w, l)
  else ({ t with task := .bound (w.global? name) }, w.enterGlobal name v, { l with globals := true })

def findName (t : Caller σ) (name : String) (w : World) (l : Locks) : Caller σ × World × Locks :=
  if l.symbols then (t, w, l)
  else
    match w.symbol? name with
    | some a => (c.replied t (.cell a), w, l)
    | none => ({ t with task := .missed }, w, l)

/-- Registers the fresh cell, unless another thread was faster. -/
def rootCell (t : Caller σ) (name : String) (a : Address) (w : World) (l : Locks) :
    Caller σ × World × Locks :=
  if l.symbols then (t, w, l)
  else
    match w.symbol? name with
    | some b => (c.replied t (.cell b), w, l)
    | none => ({ t with task := .rooted a }, w.addRoot (.ref a), { l with symbols := true })

/-- The program of a client whose calls other threads can see in the middle. -/
def stepwise : Program Object Guarded (Caller σ) where
  roots t := c.roots t.own
  move t :=
    match c.request t.own with
    | .halt => .halt
    | .register => .register (c.replied t .done)
    | .deregister => .deregister (c.replied t .done)
    | .safepoint => .safepoint (c.replied t .done)
    | .collect => .collect fun collected => c.replied t (.ran collected)
    | .allocate o => .allocate o fun result => c.replied t (.ofResult result)
    | .modify a f => .update <| inWorld fun w l => (c.replied t .done, w.modifyObject a f, l)
    | .look => .update <| inWorld fun w l => (c.replied t (.view w), w, l)
    | .setGlobal name v =>
      match t.task with
      | .bound old => .update <| inWorld fun w l => ({ t with task := .released }, w.release old, l)
      | .released =>
        .update <| inWorld fun w l => (c.replied t .done, w.addRoot v, { l with globals := false })
      | _ => .update <| inWorld <| bindGlobal t name v
    | .intern name =>
      match t.task with
      | .missed => .allocate (.symbol name) (c.supplied t)
      | .fresh a => .update <| inWorld <| c.rootCell t name a
      | .rooted a =>
        .update <| inWorld fun w l =>
          (c.replied t (.cell a), w.enterSymbol name a, { l with symbols := false })
      | _ => .update <| inWorld <| c.findName t name

def critical (t : Caller σ) : Critical :=
  match c.request t.own, t.task with
  | .setGlobal name v, .bound old => .bound name v old
  | .setGlobal name v, .released => .released name v
  | .intern name, .rooted a => .rooted name a
  | _, _ => .outside

/-- The cell that a thread is about to publish. -/
def cellFor? (t : Caller σ) : Option (String × Address) :=
  match c.request t.own, t.task with
  | .intern name, .fresh a => some (name, a)
  | .intern name, .rooted a => some (name, a)
  | _, _ => none

variable {c} {held : σ → Nat} {t : Caller σ} {reply : Reply}

lemma critical_replied : c.critical (c.replied t reply) = .outside := by
  rw [critical, replied]
  cases c.request (c.resume t.own reply) <;> rfl

lemma cellFor?_replied : c.cellFor? (c.replied t reply) = none := by
  rw [cellFor?, replied]
  cases c.request (c.resume t.own reply) <;> rfl

/-- The moves of a thread, by what it asks for and how far it is. -/
inductive Moves (c : Client σ) (t : Caller σ) : Move Object Guarded (Caller σ) → Prop where
  | halt (here : c.request t.own = .halt) : Moves c t .halt
  | register (here : c.request t.own = .register) : Moves c t (.register (c.replied t .done))
  | deregister (here : c.request t.own = .deregister) : Moves c t (.deregister (c.replied t .done))
  | safepoint (here : c.request t.own = .safepoint) : Moves c t (.safepoint (c.replied t .done))
  | collect (here : c.request t.own = .collect) :
      Moves c t (.collect fun collected => c.replied t (.ran collected))
  | allocate {o : Object} (here : c.request t.own = .allocate o) :
      Moves c t (.allocate o fun result => c.replied t (.ofResult result))
  | modify {a : Address} {f : Object → Object} (here : c.request t.own = .modify a f) :
      Moves c t (.update (inWorld fun w l => (c.replied t .done, w.modifyObject a f, l)))
  | look (here : c.request t.own = .look) :
      Moves c t (.update (inWorld fun w l => (c.replied t (.view w), w, l)))
  | bind {name : String} {v : Value} (here : c.request t.own = .setGlobal name v)
      (out : c.critical t = .outside) : Moves c t (.update (inWorld (bindGlobal t name v)))
  | release {name : String} {v : Value} {old : Option Value}
      (here : c.request t.own = .setGlobal name v) (bound : t.task = .bound old) :
      Moves c t (.update (inWorld fun w l => ({ t with task := .released }, w.release old, l)))
  | enroll {name : String} {v : Value} (here : c.request t.own = .setGlobal name v)
      (released : t.task = .released) : Moves c t (.update (inWorld fun w l =>
        (c.replied t .done, w.addRoot v, { l with globals := false })))
  | find {name : String} (here : c.request t.own = .intern name) (out : c.critical t = .outside) :
      Moves c t (.update (inWorld (c.findName t name)))
  | make {name : String} (here : c.request t.own = .intern name) (missed : t.task = .missed) :
      Moves c t (.allocate (.symbol name) (c.supplied t))
  | root {name : String} {a : Address} (here : c.request t.own = .intern name)
      (fresh : t.task = .fresh a) : Moves c t (.update (inWorld (c.rootCell t name a)))
  | enter {name : String} {a : Address} (here : c.request t.own = .intern name)
      (rooted : t.task = .rooted a) : Moves c t (.update (inWorld fun w l =>
        (c.replied t (.cell a), w.enterSymbol name a, { l with symbols := false })))

lemma moves (c : Client σ) (t : Caller σ) : c.Moves t (c.stepwise.move t) := by
  obtain ⟨own, task⟩ := t
  rw [stepwise]
  dsimp only
  cases here : c.request own with
  | halt => exact .halt here
  | register => exact .register here
  | deregister => exact .deregister here
  | safepoint => exact .safepoint here
  | collect => exact .collect here
  | allocate o => exact .allocate here
  | modify a f => exact .modify here
  | look => exact .look here
  | setGlobal name v =>
    cases task with
    | bound old => exact .release here rfl
    | released => exact .enroll here rfl
    | _ => exact .bind here (by simp only [critical, here])
  | intern name =>
    cases task with
    | missed => exact .make here rfl
    | fresh a => exact .root here rfl
    | rooted a => exact .enter here rfl
    | _ => exact .find here (by simp only [critical, here])

/-- The number of registrations after a reply, for each kind of request. -/
lemma Lawful.held_replied (lawful : c.Lawful held) {request : Request}
    (here : c.request t.own = request) (reply : Reply) :
    held (c.replied t reply).own + request.lost = held t.own + request.gained := by
  have counted := lawful.counted t.own reply
  rwa [here] at counted

lemma Lawful.held_supplied (lawful : c.Lawful held) {name : String}
    (here : c.request t.own = .intern name) (result : Except HeapFault Address) :
    held (c.supplied t result).own = held t.own := by
  cases result with
  | ok a => rfl
  | error f => exact lawful.held_replied here _

lemma touches_release (w : World) (old : Option Value) :
    Relation.ReflTransGen Heap.Touch w.heap (w.release old).heap := by
  cases old with
  | none => exact .refl
  | some v => exact .single (.removeRoot w.heap v)

lemma Lawful.stepwise (lawful : c.Lawful held) : c.stepwise.Lawful fun t => held t.own := by
  have using_ : ∀ {t : Caller σ} {request : Request}, c.request t.own = request →
      request.NeedsMutator → 0 < held t.own := by
    intro t request here needs
    exact lawful.registered t.own (here ▸ needs)
  constructor
  · intro t next move
    have moves := c.moves t
    rw [move] at moves
    cases moves with
    | register here => exact lawful.held_replied here .done
  · intro t payload next move
    have moves := c.moves t
    rw [move] at moves
    cases moves with
    | allocate here => exact ⟨using_ here trivial, fun _ => lawful.held_replied here _⟩
    | make here => exact ⟨using_ here trivial, lawful.held_supplied here⟩
  · intro t next move
    have moves := c.moves t
    rw [move] at moves
    cases moves with
    | collect here => exact ⟨using_ here trivial, fun _ => lawful.held_replied here _⟩
  · intro t next move
    have moves := c.moves t
    rw [move] at moves
    cases moves with
    | safepoint here => exact ⟨using_ here trivial, lawful.held_replied here .done⟩
  · intro t act move s
    have moves := c.moves t
    rw [move] at moves
    cases moves with
    | @modify a f here =>
      exact ⟨lawful.held_replied here .done, Heap.touches_modifyPayload s.heap a f⟩
    | look here => exact ⟨lawful.held_replied here _, .refl⟩
    | @bind name v here =>
      change held (bindGlobal t name v s.guardedWorld s.world.locks).1.own = _ ∧
        Relation.ReflTransGen _ _ (bindGlobal t name v s.guardedWorld s.world.locks).2.1.heap
      rw [bindGlobal]
      split
      · exact ⟨rfl, .refl⟩
      · exact ⟨rfl, .refl⟩
    | @release name v old here => exact ⟨rfl, touches_release s.guardedWorld old⟩
    | @enroll name v here => exact ⟨lawful.held_replied here .done, .single (.addRoot s.heap v)⟩
    | @find name here =>
      change held (c.findName t name s.guardedWorld s.world.locks).1.own = _ ∧
        Relation.ReflTransGen _ _ (c.findName t name s.guardedWorld s.world.locks).2.1.heap
      rw [findName]
      split
      · exact ⟨rfl, .refl⟩
      · split
        · exact ⟨lawful.held_replied here _, .refl⟩
        · exact ⟨rfl, .refl⟩
    | @root name a here =>
      change held (c.rootCell t name a s.guardedWorld s.world.locks).1.own = _ ∧
        Relation.ReflTransGen _ _ (c.rootCell t name a s.guardedWorld s.world.locks).2.1.heap
      rw [rootCell]
      split
      · exact ⟨rfl, .refl⟩
      · split
        · exact ⟨lawful.held_replied here _, .refl⟩
        · exact ⟨rfl, .single (.addRoot s.heap (.ref a))⟩
    | enter here => exact ⟨lawful.held_replied here _, .refl⟩
  · intro t next move
    have moves := c.moves t
    rw [move] at moves
    cases moves with
    | deregister here => exact lawful.held_replied here .done

/-- A step that is no collection, as it concerns the world, the locks and the thread that took
it. -/
inductive Strides (c : Client σ) (w : World) (l : Locks) (t : Caller σ) :
    Caller σ → World → Locks → Prop where
  | stay : Strides c w l t t w l
  | room {k : Nat} {heap : Heap Object} (made : heap = w.heap.prewarm k ∨ heap = w.heap.grow k) :
      Strides c w l t t { w with heap } l
  /-- The thread has its reply. -/
  | reply {reply : Reply} (out : c.critical t = .outside) : Strides c w l t (c.replied t reply) w l
  | miss {name : String} (here : c.request t.own = .intern name) (out : c.critical t = .outside) :
      Strides c w l t { t with task := .missed } w l
  | allocate {o : Object} {k : Nat} (here : c.request t.own = .allocate o)
      (fits : w.heap.classOf o = .ok k) :
      Strides c w l t (c.replied t (.ofResult (w.heap.allocateIn k o).1))
        { w with heap := (w.heap.allocateIn k o).2 } l
  | make {name : String} {k : Nat} (here : c.request t.own = .intern name)
      (missed : t.task = .missed) (fits : w.heap.classOf (.symbol name) = .ok k) :
      Strides c w l t (c.supplied t (w.heap.allocateIn k (.symbol name)).1)
        { w with heap := (w.heap.allocateIn k (.symbol name)).2 } l
  | modify {a : Address} {f : Object → Object} (here : c.request t.own = .modify a f) :
      Strides c w l t (c.replied t .done) (w.modifyObject a f) l
  | bind {name : String} {v : Value} (here : c.request t.own = .setGlobal name v)
      (out : c.critical t = .outside) (free : l.globals = false) :
      Strides c w l t { t with task := .bound (w.global? name) } (w.enterGlobal name v)
        { l with globals := true }
  | release {name : String} {v : Value} {old : Option Value}
      (here : c.request t.own = .setGlobal name v) (bound : t.task = .bound old) :
      Strides c w l t { t with task := .released } (w.release old) l
  | enroll {name : String} {v : Value} (here : c.request t.own = .setGlobal name v)
      (released : t.task = .released) :
      Strides c w l t (c.replied t .done) (w.addRoot v) { l with globals := false }
  | root {name : String} {a : Address} (here : c.request t.own = .intern name)
      (fresh : t.task = .fresh a) (free : l.symbols = false) (absent : w.symbol? name = none) :
      Strides c w l t { t with task := .rooted a } (w.addRoot (.ref a)) { l with symbols := true }
  | enter {name : String} {a : Address} (here : c.request t.own = .intern name)
      (rooted : t.task = .rooted a) :
      Strides c w l t (c.replied t (.cell a)) (w.enterSymbol name a) { l with symbols := false }

lemma strides_bindGlobal {w : World} {l : Locks} {name : String} {v : Value}
    (here : c.request t.own = .setGlobal name v) (out : c.critical t = .outside) :
    c.Strides w l t (bindGlobal t name v w l).1 (bindGlobal t name v w l).2.1
      (bindGlobal t name v w l).2.2 := by
  rw [bindGlobal]
  split
  · exact .stay
  · rename_i free
    exact .bind here out (Bool.eq_false_iff.mpr free)

lemma strides_findName {w : World} {l : Locks} {name : String}
    (here : c.request t.own = .intern name) (out : c.critical t = .outside) :
    c.Strides w l t (c.findName t name w l).1 (c.findName t name w l).2.1
      (c.findName t name w l).2.2 := by
  rw [findName]
  split
  · exact .stay
  · split
    · exact .reply out
    · exact .miss here out

lemma strides_rootCell {w : World} {l : Locks} {name : String} {a : Address}
    (here : c.request t.own = .intern name) (fresh : t.task = .fresh a) :
    c.Strides w l t (c.rootCell t name a w l).1 (c.rootCell t name a w l).2.1
      (c.rootCell t name a w l).2.2 := by
  rw [rootCell]
  split
  · exact .stay
  · rename_i free
    split
    · exact .reply (by rw [critical, here, fresh])
    · rename_i absent
      exact .root here fresh (Bool.eq_false_iff.mpr free) absent

lemma strides_of_beat {s s' : Shared Object Guarded} {t t' : Caller σ}
    (beat : Beat c.stepwise s t t' s') :
    c.Strides s.guardedWorld s.world.locks t t' s'.guardedWorld s'.world.locks := by
  have moves := c.moves t
  have out : ∀ {request}, c.request t.own = request → (∀ name v, request ≠ .setGlobal name v) →
      (∀ name, request ≠ .intern name) → c.critical t = .outside := by
    rintro request here no_binding no_name
    rw [critical, here]
    cases request with
    | setGlobal name v => exact absurd rfl (no_binding name v)
    | intern name => exact absurd rfl (no_name name)
    | _ => rfl
  cases beat with
  | stay => exact .stay
  | room made => exact .room made
  | update move =>
    rw [move] at moves
    cases moves with
    | modify here => exact .modify here
    | look here => exact .reply (out here nofun nofun)
    | bind here outside => exact strides_bindGlobal here outside
    | release here bound => exact .release here bound
    | enroll here released => exact .enroll here released
    | find here outside => exact strides_findName here outside
    | root here fresh => exact strides_rootCell here fresh
    | enter here rooted => exact .enter here rooted
  | claim move fits =>
    rw [move] at moves
    cases moves with
    | allocate here => exact .allocate here fits
    | make here missed => exact .make here missed fits
  | refuse move fault =>
    rw [move] at moves
    cases moves with
    | allocate here => exact .reply (out here nofun nofun)
    | make here missed => exact .reply (by rw [critical, here, missed])
  | answer ends =>
    generalize c.stepwise.move t = move at moves ends
    cases moves with
    | register here =>
      obtain rfl := ends
      exact .reply (out here nofun nofun)
    | deregister here =>
      obtain rfl := ends
      exact .reply (out here nofun nofun)
    | safepoint here =>
      obtain rfl := ends
      exact .reply (out here nofun nofun)
    | collect here =>
      obtain ⟨ran, rfl⟩ := ends
      exact .reply (out here nofun nofun)
    | _ => cases ends

end Client

end CellMachine
