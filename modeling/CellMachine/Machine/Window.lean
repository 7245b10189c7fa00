import CellMachine.Failure

/-!
# Argument windows

The arguments of a call are a window on the argument stack: the values pushed for the
call, less those taken from either end since. Taking a value moves no data, with one
exception: when the last positional value is taken from in front of a keyword hash, the
hash moves down into its place. A window that is released cuts the stack back to where
it stood when the window was opened.
-/

namespace CellMachine

structure Window where
  start : Nat
  size : Nat
  /-- The length of the stack when the window was opened. -/
  origin : Nat
  openedSize : Nat
  /-- The last value is a keyword hash. -/
  hasKeywords : Bool
deriving DecidableEq, Repr, Inhabited

namespace Window

/-- The values between two places of a stack. -/
def slice (stack : Array Value) (first last : Nat) : Except Fault (List Value) :=
  if first ≤ last ∧ last ≤ stack.size then .ok (stack.extract first last).toList
  else .error .outOfBounds

def element (stack : Array Value) (i : Nat) : Except Fault Value :=
  match stack[i]? with
  | some v => .ok v
  | none => .error .outOfBounds

/-! ## Opening and releasing -/

def fresh (start size : Nat) (hasKeywords : Bool) : Window :=
  ⟨start, size, start, size, hasKeywords⟩

/-- Pushes values; the last one may be a keyword hash. -/
def push (values : List Value) (hasKeywords : Bool) (stack : Array Value) :
    Window × Array Value :=
  (fresh stack.size values.length hasKeywords, stack ++ values)

/-- One past the last place of the window. -/
def stop (w : Window) : Nat := w.start + w.size

/-- Opens another window with the same values. -/
def copy (w : Window) (stack : Array Value) : Except Fault Window × Array Value :=
  match slice stack w.start w.stop with
  | .ok values => (.ok (fresh stack.size w.size w.hasKeywords), stack ++ values)
  | .error f => (.error f, stack)

def release (w : Window) (stack : Array Value) : Array Value := stack.shrink w.origin

/-! ## Reading -/

/-- How many values are left, with or without the keyword hash. -/
def count (w : Window) (withKeywords : Bool) : Nat :=
  if w.hasKeywords && !withKeywords then w.size - 1 else w.size

def isEmpty (w : Window) : Bool := w.size == 0

/-- A value by its place in the window, the keyword hash included. -/
def get (w : Window) (i : Nat) (stack : Array Value) : Except Fault Value :=
  if i < w.size then element stack (w.start + i) else .error (.indexOutside i w.size)

/-- A positional value, never the keyword hash. -/
def positional? (w : Window) (i : Nat) (stack : Array Value) : Except Fault (Option Value) :=
  if i < w.count false then some <$> w.get i stack else .ok none

/-- The value at a place, or the default past the end. -/
def getD (w : Window) (i : Nat) (default : Value) (stack : Array Value) : Except Fault Value :=
  if i < w.size then w.get i stack else .ok default

/-- What a missing value is reported as: the keyword hash counts as given. -/
def missing (w : Window) (i : Nat) : CallError := .wrongCount w.size (.atLeast (i + 1)) []

/-- The value at a place where there must be one. -/
def required (w : Window) (i : Nat) (stack : Array Value) :
    Except Fault (Except CallError Value) :=
  if i < w.size then .ok <$> w.get i stack else .ok (.error (w.missing i))

def first? (w : Window) (stack : Array Value) : Except Fault (Option Value) :=
  if w.size = 0 then .ok none else some <$> w.get 0 stack

def last? (w : Window) (stack : Array Value) : Except Fault (Option Value) :=
  if w.size = 0 then .ok none else some <$> w.get (w.size - 1) stack

def values (w : Window) (withKeywords : Bool) (stack : Array Value) :
    Except Fault (List Value) :=
  slice stack w.start (w.start + w.count withKeywords)

/-- The cell of the keyword hash. -/
def keywordHash? (w : Window) (stack : Array Value) : Except Fault (Option Address) :=
  if w.hasKeywords then (fun v => v.bind Value.cell?) <$> w.last? stack else .ok none

/-! ## Taking values -/

def narrowFront (w : Window) : Window :=
  { w with
    start := w.start + 1
    size := w.size - 1
    hasKeywords := w.hasKeywords && w.size != 1 }

/-- Takes the first value. -/
def shift (w : Window) (withKeywords : Bool) (stack : Array Value) :
    Except Fault Value × Window :=
  if w.count withKeywords = 0 then (.error .exhaustedShift, w)
  else
    match element stack w.start with
    | .ok v => (.ok v, w.narrowFront)
    | .error f => (.error f, w)

/-- Takes the last value, whatever it is. -/
def popLast (w : Window) (stack : Array Value) : Except Fault Value × Window :=
  (element stack (w.stop - 1), { w with size := w.size - 1, hasKeywords := false })

/-- Takes the value in front of the keyword hash, which moves down into its place. -/
def popPositional (w : Window) (stack : Array Value) :
    Except Fault Value × Window × Array Value :=
  match element stack (w.stop - 2), element stack (w.stop - 1) with
  | .ok v, .ok hash => (.ok v, { w with size := w.size - 1 }, stack.set! (w.stop - 2) hash)
  | .error f, _ => (.error f, w, stack)
  | _, .error f => (.error f, w, stack)

/-- Takes the last value; without the keyword hash, the last positional one. -/
def pop (w : Window) (withKeywords : Bool) (stack : Array Value) :
    Except Fault Value × Window × Array Value :=
  if w.count withKeywords = 0 then (.error .exhaustedPop, w, stack)
  else if w.hasKeywords && !withKeywords then w.popPositional stack
  else
    let (r, w) := w.popLast stack
    (r, w, stack)

/-- Takes the keyword hash, if there is one. -/
def popKeywords (w : Window) (stack : Array Value) : Except Fault (Option Address) × Window :=
  match w.keywordHash? stack with
  | .ok (some a) => (.ok (some a), (w.popLast stack).2)
  | r => (r, w)

/-- Drops a keyword hash that holds no entries. -/
def popEmptyKeywords (w : Window) (isEmptyHash : Address → Bool) (stack : Array Value) :
    Except Fault Unit × Window :=
  match w.keywordHash? stack with
  | .ok (some a) => (.ok (), if isEmptyHash a then (w.popLast stack).2 else w)
  | .ok none => (.ok (), w)
  | .error f => (.error f, w)

/-! ## Counts -/

/-- Refuses a window with an unexpected number of positional values. -/
def expect (w : Window) (expected : Arity) (keywords : List String) : Except CallError Unit :=
  if expected.accepts (w.count false) then .ok ()
  else .error (.wrongCount (w.count false) expected keywords)

/-! ## Parameters of a block -/

/-- Values cut to a maximum and filled up to a minimum. -/
def fitted (min : Nat) (max : Option Nat) (fill : Value) (values : List Value) : List Value :=
  let cut := (max.map fun n => values.take n).getD values
  cut ++ List.replicate (min - cut.length) fill

/-! ## Size and release -/

theorem count_le_size (w : Window) (withKeywords : Bool) : w.count withKeywords ≤ w.size := by
  unfold count
  split <;> omega

/-- A window that is released at once leaves the stack as it was. -/
theorem release_push (values : List Value) (hasKeywords : Bool) (stack : Array Value) :
    (push values hasKeywords stack).1.release (push values hasKeywords stack).2 = stack := by
  apply Array.ext'
  simp [push, fresh, release]

end Window

end CellMachine
