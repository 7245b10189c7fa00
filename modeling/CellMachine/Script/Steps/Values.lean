import CellMachine.Script.Eval

/-!
# Steps on values, names and frames

How values are shown to a script, and the steps that look at values, at the table of
names, at global variables and at the frame that is running.
-/

namespace CellMachine

namespace VM

def showValue (v : Value) : VM Host Answer := return .shown (← shown v)

def showOption : Option Value → VM Host Answer
  | some v => showValue v
  | none => return .nothing

def showAll (vs : List Value) : VM Host Answer := return .list (← vs.mapM showValue)

/-- Shows a result and keeps it if a name is given for it. -/
def showInto (into : Into) (v : Value) : VM Host Answer := do
  let answer ← showValue v
  bindInto into v
  return answer

def typeOf (a : Option Address) : VM Host (Option String) := do
  read fun m => a.map m.typeName

def symbols : VM Host (List (String × Address)) := read fun m => m.world.symbols

def frameReport (act : Activation) : VM Host FrameReport := do
  let t ← thread
  return {
    method := t.frame.method
    file := t.frame.file
    line := t.frame.line
    callerMethod := t.callers.head?.bind Frame.method
    outerType := ← typeOf t.frame.outer
    blockType := ← typeOf t.frame.block
    self := ← shown act.receiver
    passedBlockType := ← typeOf act.block }

def performValue (act : Activation) : ValueOp → VM Host Answer
  | .keep name e quiet => do
    let v ← eval act e
    let answer ← if quiet then pure .nothing else showValue v
    bindHandle name v
    return answer
  | .forget name => do
    forgetHandle name
    return .nothing
  | .show e => do showValue (← eval act e)
  | .same a b => do
    let x ← eval act a
    let y ← eval act b
    return .flag (x == y)
  | .truthy e => do return .flag (← truthy (← eval act e))
  | .symbolCount => return .count (← symbols).length
  | .noSymbols => return .flag (← symbols).isEmpty
  | .hasSymbol name => return .flag (← read fun m => m.world.symbol? name).isSome
  | .setGlobal name e => do
    setGlobal name (← evalStorable act e)
    return .nothing
  | .global name => do showOption (← read fun m => m.world.global? name)
  | .environment => return .frame (← frameReport act)
  | .setLine line => do
    setLine line
    return .count line.toNat
  | .backtrace => return .list ((← thread).backtrace.map .text)
  | .framesDiffer => do
    let t ← thread
    return .ofOption (fun c => .flag (t.frame.id != c.id)) t.callers.head?

end VM

end CellMachine
