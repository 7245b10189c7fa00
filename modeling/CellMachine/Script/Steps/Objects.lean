import CellMachine.Script.Steps.Values

/-!
# Steps on objects and calls

Objects are looked at and changed in place. A step that makes a call hands over to the
calls of the machine, with the bodies of the script to run.
-/

namespace CellMachine

/-- The native bodies of a script: how many there are, and how they are run. -/
structure Bodies where
  count : Nat
  run : Runner Host

namespace VM

def arrayAt : Address → VM Host (Array Value) := objectAs "ArrayObject" Object.array?

def hashAt : Address → VM Host Entries := objectAs "HashObject" Object.hash?

def scopeAt : Address → VM Host (Option Address × Array Value) :=
  objectAs "ScopeObject" Object.scope?

def blockAt : Address → VM Host BlockObject := objectAs "BlockObject" Object.block?

def methodAt : Address → VM Host MethodObject := objectAs "Method" Object.method?

def blockReport (b : BlockObject) : VM Host BlockReport := do
  let t ← thread
  return {
    min := (b.arity.map BlockArity.min).getD 0
    max := b.arity.bind BlockArity.max
    scopeType := ← typeOf b.scope
    hasFrame := b.callingFrame.isSome
    isOwnFrame := b.callingFrame == some t.frame.id
    isCallerFrame := b.callingFrame.isSome && b.callingFrame == t.callers.head?.map Frame.id }

/-- The method before its scope and its receiver are known. -/
def methodFrom (bodies : Bodies) : MethodSource → VM Host MethodObject
  | .primitive name =>
    match Primitive.find? name with
    | some p => return p.method
    | none => refuse .primitive
  | .named name body => return ⟨name, ← native bodies.count body, none, none, false⟩

def evalMethodSpec (bodies : Bodies) (act : Activation) (spec : MethodSpec) :
    VM Host MethodObject := do
  let m ← methodFrom bodies spec.source
  let scope ← evalStoredCell? act spec.scope
  let receiver ←
    match spec.receiver with
    | some e => some <$> evalStorable act e
    | none => pure none
  return { m with scope, receiver, optimized := spec.optimized.getD m.optimized }

/-- Both bounds are read, so a list without one of them is read past its end. -/
def blockArity : AritySpec → VM Host (Option BlockArity)
  | .undeclared => return none
  | .declared arity => return some arity
  | .short => throwFault .outOfBounds

def performObject (bodies : Bodies) (act : Activation) : ObjectOp → VM Host Answer
  | .arrayPush cell item => do
    let a ← evalCell act cell
    let v ← evalStorable act item
    let items ← arrayAt a
    modifyObject a (Object.push v)
    return .count (items.size + 1)
  | .arrayGet cell i => do
    let items ← arrayAt (← evalCell act cell)
    showOption items[i]?
  | .arrayInfo cell => do
    let items ← arrayAt (← evalCell act cell)
    return .list [.count items.size, .flag items.isEmpty, .count items.size]
  | .hashInsert cell key item => do
    let a ← evalCell act cell
    let k ← evalStorable act key
    let v ← evalStorable act item
    let entries ← hashAt a
    modifyObject a (Object.insert k v)
    return .count (Entries.insert k v entries).length
  | .hashGet cell key => do
    let a ← evalCell act cell
    let k ← eval act key
    showOption (Entries.get? k (← hashAt a))
  | .hashGetSymbol cell name => do
    let entries ← hashAt (← evalCell act cell)
    showOption (← read fun m => Entries.named? m.symbolName? name entries)
  | .hashInfo cell => do
    let entries ← hashAt (← evalCell act cell)
    let shownEntries ← entries.mapM fun e => do return (← shown e.1, ← shown e.2)
    return .hash ⟨shownEntries⟩
  | .stringPush cell suffix => do
    let a ← evalCell act cell
    let text := (← objectAs "StringObject" Object.string? a) ++ suffix
    modifyObject a (Object.append suffix)
    return .list [.count text.utf8ByteSize, .flag text.isEmpty, .text text]
  | .symbolName cell => do
    return .text (← objectAs "SymbolObject" Object.symbol? (← evalCell act cell))
  | .scopeNew outer vars into => do
    let outer ← evalStoredCell? act outer
    let vars ← evalStored act vars
    showInto into (← make (.scope outer vars.toArray))
  | .scopeVar cell i => do
    let (_, vars) ← scopeAt (← evalCell act cell)
    showOption vars[i]?
  | .scopeSet cell i item fill => do
    let a ← evalCell act cell
    let v ← evalStorable act item
    let fill ← evalStorable act fill
    let _ ← scopeAt a
    modifyObject a (Object.setVar i v fill)
    return .nothing
  | .scopeOuter cell => do
    let (outer, _) ← scopeAt (← evalCell act cell)
    return .ofOption .text (← typeOf outer)
  | .blockNew scope receiver body arity into => do
    let scope ← evalStoredCell? act scope
    let receiver ← evalStorable act receiver
    let native ← native bodies.count body
    let arity ← blockArity arity
    showInto into (← make (.block (.closure native scope receiver arity)))
  | .blockInfo cell => do
    return .block (← blockReport (← blockAt (← evalCell act cell)))
  | .methodNew spec into => do
    let m ← evalMethodSpec bodies act spec
    bindInto into (← make (.method m))
    return .list [.text m.name, .flag m.optimized]

/-! ## Calls -/

/-- What is called is looked at when its window is there, which is released if it is of
the wrong kind. -/
def performCall (bodies : Bodies) (act : Activation) : CallOp → VM Host Value
  | .block cell block args => do
    let a ← evalCell act cell
    let block ← evalCell? act block
    let w ← supply act args
    callBlock bodies.run (← onHalt (released w) (blockAt a)) w block
  | .method cell receiver block args => do
    let a ← evalCell act cell
    let receiver ← eval act receiver
    let block ← evalCell? act block
    let w ← supply act args
    callMethod bodies.run (← onHalt (released w) (methodAt a)) receiver w block
  | .native body receiver args => do
    let native ← native bodies.count body
    let receiver ← eval act receiver
    bodies.run native receiver (← supply act args) none
  | .yield args => do yieldBlock bodies.run (← supply act args)

end VM

end CellMachine
