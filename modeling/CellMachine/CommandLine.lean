import CellMachine.Heap.Settings

/-!
# The command line

Switches and settings come first; the first plain word, or a bare double dash, ends
them, and what follows are values. A setting takes the next word, unless that starts
with a dash, or what stands behind an equals sign. A word that was taken is looked at
when the next one has been recognized, so of two faults the later one may win.
-/

namespace CellMachine

/-- What the command line asks for. -/
structure Options where
  gcDisabled : Bool
  collectAllAtExit : Bool
  trigger : Nat
  target : Nat
  initialBlocks : Nat
  iterations : Int64
  threads : Nat
  raise : Bool
  printStats : Bool
  printObjects : Bool
  values : List String
deriving DecidableEq, Repr

namespace Options

def standard : Options where
  gcDisabled := false
  collectAllAtExit := false
  trigger := 10
  target := 20
  initialBlocks := 4
  iterations := 100000
  threads := 0
  raise := false
  printStats := false
  printObjects := false
  values := []

def settings (o : Options) : Settings :=
  { Settings.standard with
    initialBlocks := o.initialBlocks
    trigger := o.trigger
    target := o.target
    gcEnabled := !o.gcDisabled
    collectAllAtExit := o.collectAllAtExit }

end Options

namespace CommandLine

/-- Why there are no options. -/
inductive Complaint where
  | unknownArgument
  | missingValue
  | badValue
  | needlessValue
  | repeated
  | help
  | version
deriving DecidableEq, Repr

def Complaint.name : Complaint → String
  | unknownArgument => "UnknownArgument"
  | missingValue => "InvalidValue"
  | badValue => "ValueValidation"
  | needlessValue => "TooManyValues"
  | repeated => "ArgumentConflict"
  | help => "DisplayHelp"
  | version => "DisplayVersion"

inductive Switch where
  | gcDisable
  | collectAllAtExit
  | raise
  | printStats
  | printObjects
deriving DecidableEq, Repr

/-- What takes a value. -/
inductive Setting where
  | trigger
  | target
  | initialBlocks
  | iterations
  | threads
deriving DecidableEq, Repr

inductive Known where
  | switch (s : Switch)
  | setting (s : Setting)
  | help
  | version
deriving DecidableEq, Repr

/-- The long names, without their dashes. -/
def names : List (String × Known) := [
  ("gc-disable", .switch .gcDisable),
  ("collect-all-at-exit", .switch .collectAllAtExit),
  ("gc-trigger-percent", .setting .trigger),
  ("gc-target-percent", .setting .target),
  ("initial-blocks", .setting .initialBlocks),
  ("iterations", .setting .iterations),
  ("threads", .setting .threads),
  ("raise", .switch .raise),
  ("print-stats", .switch .printStats),
  ("print-objects", .switch .printObjects),
  ("help", .help),
  ("version", .version)]

/-! ## Numbers -/

/-- Decimal digits, at least one. -/
def digits? (cs : List Char) : Option Nat :=
  if cs.isEmpty || !cs.all Char.isDigit then none
  else some (cs.foldl (fun n c => 10 * n + (c.toNat - '0'.toNat)) 0)

/-- Digits behind an optional sign. -/
def signed? : List Char → Option Int
  | '+' :: cs => (digits? cs).map Int.ofNat
  | '-' :: cs => (digits? cs).map fun n => -Int.ofNat n
  | cs => (digits? cs).map Int.ofNat

def within (low high : Int) (n : Int) : Option Int := if low ≤ n ∧ n ≤ high then some n else none

/-- A percentage is a signed number of sixteen bits without its sign. -/
def percent? (text : String) : Option Nat :=
  ((signed? text.toList).bind (within 0 65535)).map Int.toNat

/-- A count may have a plus sign but no minus sign. -/
def count? (text : String) : Option Nat :=
  match text.toList with
  | '-' :: _ => none
  | cs => ((signed? cs).bind (within 0 (.ofNat (UInt64.size - 1)))).map Int.toNat

def word? (text : String) : Option Int64 :=
  ((signed? text.toList).bind (within Int64.minValue.toInt Int64.maxValue.toInt)).map Int64.ofInt

/-! ## Reading -/

def Switch.set : Switch → Options → Options
  | gcDisable, o => { o with gcDisabled := true }
  | collectAllAtExit, o => { o with collectAllAtExit := true }
  | raise, o => { o with raise := true }
  | printStats, o => { o with printStats := true }
  | printObjects, o => { o with printObjects := true }

def Setting.set? (s : Setting) (text : String) (o : Options) : Option Options :=
  match s with
  | trigger => (percent? text).map fun n => { o with trigger := n }
  | target => (percent? text).map fun n => { o with target := n }
  | initialBlocks => (count? text).map fun n => { o with initialBlocks := n }
  | iterations => (word? text).map fun n => { o with iterations := n }
  | threads => (count? text).map fun n => { o with threads := n }

/-- How far the command line has been read. -/
structure Progress where
  options : Options
  given : List Known
  /-- A setting that is not set yet, with its value if that has been read. -/
  pending : Option (Setting × Option String)

namespace Progress

def start : Progress := ⟨.standard, [], none⟩

/-- Sets a setting; it may be given once. -/
def assign (p : Progress) (s : Setting) (text : String) : Except Complaint Progress :=
  if .setting s ∈ p.given then .error .repeated
  else
    match s.set? text p.options with
    | some options => .ok { p with options, given := .setting s :: p.given }
    | none => .error .badValue

/-- Settles the setting that is pending. -/
def resolve (p : Progress) : Except Complaint Progress :=
  match p.pending with
  | none => .ok p
  | some (_, none) => .error .missingValue
  | some (s, some text) => { p with pending := none }.assign s text

/-- Turns a switch on; it may be given once. -/
def turnOn (p : Progress) (s : Switch) : Except Complaint Progress :=
  if .switch s ∈ p.given then .error .repeated
  else .ok { p with options := s.set p.options, given := .switch s :: p.given }

/-- A word with two dashes. -/
def long (p : Progress) (name : String) (value : Option String) : Except Complaint Progress :=
  match names.lookup name, value with
  | none, _ => .error .unknownArgument
  | some (.setting s), some text => do (← p.resolve).assign s text
  | some (.setting s), none => do return { ← p.resolve with pending := some (s, none) }
  | some _, some _ => .error .needlessValue
  | some (.switch s), none => do (← p.resolve).turnOn s
  | some .help, none => do
    let _ ← p.resolve
    .error .help
  | some .version, none => do
    let _ ← p.resolve
    .error .version

/-- A word with one dash. None of them leads to a run. -/
def short (p : Progress) (letter : Char) : Complaint :=
  let settled (c : Complaint) : Complaint :=
    match p.resolve with
    | .ok _ => c
    | .error earlier => earlier
  if letter = 'h' then settled .help
  else if letter = 'V' then settled .version
  else .unknownArgument

/-- The options, with the values behind them. -/
def finish (p : Progress) (values : List String) : Except Complaint Options := do
  return { (← p.resolve).options with values }

end Progress

/-- The part before the first equals sign, and what stands behind it. -/
def splitValue (cs : List Char) : String × Option String :=
  match cs.dropWhile (· != '=') with
  | [] => (String.ofList cs, none)
  | _ :: value => (String.ofList (cs.takeWhile (· != '=')), some (String.ofList value))

def read (p : Progress) : List String → Except Complaint Options
  | [] => p.finish []
  | arg :: rest =>
    match arg.toList with
    | ['-', '-'] => p.finish rest
    | '-' :: '-' :: cs => do
      let (name, value) := splitValue cs
      read (← p.long name value) rest
    | '-' :: c :: _ => .error (p.short c)
    | _ =>
      match p.pending with
      | some (s, none) => read { p with pending := some (s, some arg) } rest
      | _ => p.finish (arg :: rest)

def parse (args : List String) : Except Complaint Options := read .start args

end CommandLine

end CellMachine
