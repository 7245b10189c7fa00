import CellMachine.Cell

/-!
# Objects

What the cells of the machine hold: the three singletons, boxed numbers, names and
texts, arrays and hashes, and the things that make calls: scopes, methods and blocks.
A method or a block runs a native body, which is either one of the built-in primitives
or a body of the running program, known by its number.
-/

namespace CellMachine

/-- Identity of one call frame. -/
structure FrameId where
  number : Nat
deriving DecidableEq, Repr, Inhabited

/-- The built-in operations on numbers. -/
inductive Primitive where
  | integerAdd
  | integerSub
  | integerMul
  | integerDiv
  | integerEq
  | integerLt
  | floatAdd
  | floatSub
  | floatMul
  | floatDiv
  | floatLt
deriving DecidableEq, Repr, Inhabited

/-- What a method or a block runs. -/
inductive Native where
  | primitive (p : Primitive)
  | body (index : Nat)
deriving DecidableEq, Repr, Inhabited

structure MethodObject where
  name : String
  native : Native
  /-- The scope captured by a method that was defined in a block. -/
  scope : Option Address
  /-- A receiver that replaces the one a caller passes. -/
  receiver : Option Value
  /-- Promises that neither receiver nor arguments outlive the call. -/
  optimized : Bool
deriving DecidableEq, Repr

/-- How many parameters a block declares; without a maximum it takes any number. -/
structure BlockArity where
  min : Nat
  max : Option Nat
deriving DecidableEq, Repr

structure BlockObject where
  native : Native
  scope : Option Address
  receiver : Value
  arity : Option BlockArity
  /-- The frame that passed the block to the outermost call now running with it. -/
  callingFrame : Option FrameId
deriving DecidableEq, Repr

inductive Object where
  | nilObject
  | trueObject
  | falseObject
  | integer (n : Int64)
  | float (d : Binary64)
  | symbol (name : String)
  | string (text : String)
  | array (items : Array Value)
  /-- Entries in the order of first insertion. -/
  | hash (entries : List (Value × Value))
  | scope (outer : Option Address) (vars : Array Value)
  | method (m : MethodObject)
  | block (b : BlockObject)
deriving DecidableEq, Repr

namespace Object

def typeName : Object → String
  | nilObject => "NilClass"
  | trueObject => "TrueClass"
  | falseObject => "FalseClass"
  | integer _ => "Integer"
  | float _ => "Float"
  | symbol _ => "Symbol"
  | string _ => "String"
  | array _ => "Array"
  | hash _ => "Hash"
  | scope _ _ => "Scope"
  | method _ => "Method"
  | block _ => "Proc"

/-- Bytes an object takes behind the cell header. -/
def size : Object → Nat
  | nilObject | trueObject | falseObject => 0
  | integer _ | float _ => 8
  | symbol _ => 16
  | string _ | array _ | hash _ => 32
  | scope _ _ => 40
  | method _ => 56
  | block _ => 72

def children : Object → List Value
  | array items => items.toList
  | hash entries => entries.flatMap fun e => [e.1, e.2]
  | scope outer vars => (outer.map Value.ref).toList ++ vars.toList
  | method m => (m.scope.map Value.ref).toList ++ m.receiver.toList
  | block b => (b.scope.map Value.ref).toList ++ [b.receiver]
  | _ => []

instance : Payload Object where
  size := size
  align _ := 8
  typeName := typeName
  children := children

end Object

/-- A block that has not been passed to a call yet. -/
def BlockObject.closure (native : Native) (scope : Option Address) (receiver : Value)
    (arity : Option BlockArity) : BlockObject :=
  ⟨native, scope, receiver, arity, none⟩

/-! ## Entries of a hash -/

/-- Key and value pairs, in the order in which the keys were first inserted. -/
abbrev Entries := List (Value × Value)

namespace Entries

def get? (k : Value) : Entries → Option Value
  | [] => none
  | (k', v) :: rest => if k' = k then some v else get? k rest

/-- Replaces the value of a key that is there; a new key goes to the end. -/
def insert (k v : Value) : Entries → Entries
  | [] => [(k, v)]
  | (k', v') :: rest => if k' = k then (k', v) :: rest else (k', v') :: insert k v rest

def ofList (pairs : List (Value × Value)) : Entries :=
  pairs.foldl (fun es p => es.insert p.1 p.2) []

def keys (es : Entries) : List Value := es.map Prod.fst

theorem get?_insert_self (k v : Value) (es : Entries) : get? k (insert k v es) = some v := by
  induction es with
  | nil => simp [insert, get?]
  | cons e rest ih =>
    by_cases h : e.1 = k
    · simp [insert, get?, h]
    · simp [insert, get?, h, ih]

theorem get?_insert_of_ne {k k' : Value} (h : k' ≠ k) (v : Value) (es : Entries) :
    get? k' (insert k v es) = get? k' es := by
  induction es with
  | nil => simp [insert, get?, Ne.symm h]
  | cons e rest ih =>
    by_cases he : e.1 = k
    · simp [insert, get?, he, Ne.symm h]
    · simp [insert, get?, he, ih]

theorem keys_insert (k v : Value) (es : Entries) :
    (insert k v es).keys = if k ∈ es.keys then es.keys else es.keys ++ [k] := by
  induction es with
  | nil => simp [insert, keys]
  | cons e rest ih =>
    by_cases he : e.1 = k
    · simp [insert, keys, he]
    · simp only [keys] at ih
      by_cases hk : k ∈ rest.map Prod.fst <;> simp_all [insert, keys, Ne.symm he]

theorem nodup_keys_insert {es : Entries} (h : es.keys.Nodup) (k v : Value) :
    (insert k v es).keys.Nodup := by
  rw [keys_insert]
  split
  · exact h
  · rename_i hk
    refine List.nodup_append.2 ⟨h, by simp, fun a ha b hb => ?_⟩
    rw [List.mem_singleton.1 hb]
    exact fun hak => hk (hak ▸ ha)

end Entries

/-! ## Looking into objects and changing them -/

namespace Object

def array? : Object → Option (Array Value)
  | array items => some items
  | _ => none

def hash? : Object → Option Entries
  | hash entries => some entries
  | _ => none

def string? : Object → Option String
  | string text => some text
  | _ => none

def symbol? : Object → Option String
  | symbol name => some name
  | _ => none

def scope? : Object → Option (Option Address × Array Value)
  | scope outer vars => some (outer, vars)
  | _ => none

def block? : Object → Option BlockObject
  | block b => some b
  | _ => none

def method? : Object → Option MethodObject
  | method m => some m
  | _ => none

/-- Adds a value at the end of an array. -/
def push (v : Value) : Object → Object
  | array items => array (items.push v)
  | o => o

/-- Sets the value of a key of a hash. -/
def insert (k v : Value) : Object → Object
  | hash entries => hash (Entries.insert k v entries)
  | o => o

/-- Adds text at the end of a string. -/
def append (suffix : String) : Object → Object
  | string text => string (text ++ suffix)
  | o => o

/-- Sets a variable of a scope, which grows with a filling value as needed. -/
def setVar (i : Nat) (v fill : Value) : Object → Object
  | scope outer vars =>
    scope outer ((vars ++ Array.replicate (i + 1 - vars.size) fill).set! i v)
  | o => o

/-- Sets the calling frame of a block. -/
def withCallingFrame (id : Option FrameId) : Object → Object
  | block b => block { b with callingFrame := id }
  | o => o

end Object

end CellMachine
