import CellMachine.Script.Steps.Objects

/-!
# Steps on argument windows

Windows are known by name, the newest of a name first. The bare stack can be worked on
as well, in disregard of the windows on it.
-/

namespace CellMachine

namespace VM

def openedWindow (act : Activation) : OpenOp → VM Host Window
  | .values es hasKeywords => do pushWindow (← evalAll act es) hasKeywords
  | .empty => pushWindow [] false
  | .ofArray cell hasKeywords => do
    let items ← arrayAt (← evalCell act cell)
    pushWindow items.toList hasKeywords
  | .copyOf name => do
    let w ← window name
    onStack w.copy

def performOpen (act : Activation) (name : String) (op : OpenOp) : VM Host Answer := do
  let w ← openedWindow act op
  addWindow name w
  return .window w

/-- Changes a window of the running body, also when there is nothing to answer. -/
def changeWindow {α : Type} (name : String)
    (f : Window → Array Value → Except Fault α × Window × Array Value) : VM Host (α × Window) := do
  let w ← window name
  let (r, w) ← onStack fun s => let (r, w, s) := f w s; (.ok (r, w), s)
  replaceWindow name w
  match r with
  | .ok a => return (a, w)
  | .error f => throwFault f

/-- Keeps an array made from a window under a name, unless there is a transient cell in
the window. -/
def keepArray (into : Into) (w : Window) (array : Address) : VM Host Answer := do
  let answer ← showValue (.ref array)
  let values ← readStack (w.values true)
  if ← read fun m => values.any fun v => (m.synthesized? v).isSome then return answer
  bindInto into (.ref array)
  return answer

def isEmptyHash (m : Machine Host) (a : Address) : Bool :=
  match m.object? a with
  | some (.hash entries) => entries.isEmpty
  | _ => false

def performWindow (act : Activation) (name : String) : WindowOp → VM Host Answer
  | .drop => do
    releaseWindow (← giveAway name)
    return .count (← thread).stack.size
  | .info => return .window (← window name)
  | .shift withKeywords => do
    let (v, w) ← changeWindow name fun w s => let (r, w) := w.shift withKeywords s; (r, w, s)
    return .list [← showValue v, .window w]
  | .pop withKeywords => do
    let (v, w) ← changeWindow name fun w s => w.pop withKeywords s
    return .list [← showValue v, .window w]
  | .popKeywords => do
    let (a, w) ← changeWindow name fun w s => let (r, w) := w.popKeywords s; (r, w, s)
    return .list [← showOption (a.map .ref), .window w]
  | .popEmptyKeywords => do
    let m ← machine
    let (_, w) ← changeWindow name fun w s =>
      let (r, w) := w.popEmptyKeywords (isEmptyHash m) s; (r, w, s)
    return .list [.nothing, .window w]
  | .get i => do
    let w ← window name
    showValue (← readStack (w.get i))
  | .at i => do
    let w ← window name
    showValue (← ofExcept (← readStack (w.required i)))
  | .positional i => do
    let w ← window name
    showOption (← readStack (w.positional? i))
  | .getD i default => do
    let default ← eval act default
    let w ← window name
    showValue (← readStack (w.getD i default))
  | .first => do
    let w ← window name
    showOption (← readStack w.first?)
  | .last => do
    let w ← window name
    showOption (← readStack w.last?)
  | .values withKeywords => do
    let w ← window name
    showAll (← readStack (w.values withKeywords))
  | .count withKeywords => return .count ((← window name).count withKeywords)
  | .diagnostic => do
    let w ← window name
    return .text (w.diagnostic (← readStack fun s => Window.slice s w.start w.stop))
  | .expect expected declared keywords => do
    let w ← window name
    ofExcept (w.expect expected (declaredKeywords declared keywords))
    return .ok
  | .keywordHash => do
    let w ← window name
    showOption ((← readStack w.keywordHash?).map .ref)
  | .checkKeywords required allowed others => do
    let w ← window name
    checkKeywords w required allowed others
    return .ok
  | .keyword key => do
    let w ← window name
    showValue (← keyword w key)
  | .hasKeyword key => do
    let w ← window name
    return .flag (← keyword? w key).isSome
  | .otherKeywords listed into => do
    let w ← window name
    showInto into (.ref (← otherKeywords w listed))
  | .toArray withKeywords into => do
    let w ← window name
    keepArray into w (← arrayOf w withKeywords)
  | .parameters min max spread withKeywords into => do
    let w ← window name
    let values ← parameters w min max spread withKeywords
    keepArray into w (← allocate (.array values.toArray))
  | .keywordsSuffix declared keywords => do
    let _ ← window name
    return .text (keywordsSuffix (declaredKeywords declared keywords))
  | .refused why => do
    let _ ← window name
    refuse why

/-! ## The bare stack -/

def stackSize : VM Host Nat := return (← thread).stack.size

def performStack (act : Activation) : StackOp → VM Host Answer
  | .size => return .count (← stackSize)
  | .push e => do
    let v ← eval act e
    modifyStack fun s => s.push v
    return .count (← stackSize)
  | .extend es => do
    let vs ← evalAll act es
    let first ← stackSize
    modifyStack fun s => s ++ vs
    return .list [.count first, .count (← stackSize)]
  | .extendWithin first last => do
    let vs ← readStack fun s => Window.slice s first last
    let start ← stackSize
    modifyStack fun s => s ++ vs
    return .list [.count start, .count (← stackSize)]
  | .get i => do showValue (← readStack fun s => Window.element s i)
  | .set i e => do
    let v ← eval act e
    let _ ← readStack fun s => Window.element s i
    modifyStack fun s => s.set! i v
    return .nothing
  | .slice first last => do showAll (← readStack fun s => Window.slice s first last)
  | .countInts first last => do
    let vs ← readStack fun s => Window.slice s first last
    return .count (vs.countP Value.isSmallInt)
  | .truncate size => do
    modifyStack fun s => s.shrink size
    return .count (← stackSize)
  | .roots => do showAll (← thread).stack.toList

end VM

end CellMachine
