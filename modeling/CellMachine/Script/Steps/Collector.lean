import CellMachine.Script.Steps.Values

/-!
# Steps on the collector and signals

Collections, their counts and the live cells by type; objects left behind in any number;
and the flags that signals set.
-/

namespace CellMachine

namespace Litter

/-- An object that refers to nothing, or to nil where it has to refer to something. -/
def object (nil : Value) : Litter → Object
  | integers => .integer 0
  | floats => .float ⟨0⟩
  | strings => .string ""
  | arrays => .array #[]
  | hashes => .hash []
  | scopes => .scope none #[]
  | blocks => .block (.closure (.body 0) none nil none)
  | methods => .method ⟨"", .body 0, none, none, false⟩

end Litter

namespace VM

def heap : VM Host (Heap Object) := read fun m => m.world.heap

def setEnabled (on : Bool) : VM Host Answer := do
  inWorld fun _ w => w.onHeap fun h => ((), if on then h.enable else h.disable)
  return .flag on

def churn (o : Object) : Nat → VM Host Unit
  | 0 => return
  | n + 1 => do
    let _ ← allocate o
    churn o n

def performCollector (act : Activation) : CollectorOp → VM Host Answer
  | .collect => do
    let before := (← heap).stats.cellsFreed
    let ran ← collect
    return .list [.flag ran, .count ((← heap).stats.cellsFreed - before)]
  | .safepoint => return .nothing
  | .stats => return .stats (← heap).stats
  | .census => return .census (← heap).census
  | .counts => do
    let h ← heap
    return .list [.count h.liveCells, .count h.freeCells, .count h.totalCells]
  | .enable => setEnabled true
  | .disable => setEnabled false
  | .isLive e => do
    let a ← evalCell act e
    return .flag ((← heap).isLive a)
  | .churn what times => do
    let before := (← heap).stats.cycles
    churn (what.object (← nil)) times
    let h ← heap
    return .list [.count (h.stats.cycles - before), .count h.liveCells, .count h.totalCells]

def performSignal : SignalOp → VM Host Answer
  | .requestInterrupt => do
    inWorld fun _ w => ((), w.requestInterrupt)
    return .nothing
  | .requestCollection => do
    inWorld fun _ w => ((), w.requestCollection)
    return .nothing
  | .take => do
    let interrupt ← inWorld fun _ w => w.takeInterrupt
    let collection ← inWorld fun _ w => w.takeCollection
    return .list [.flag interrupt, .flag collection]
  | .ignored => return .nothing

end VM

end CellMachine
