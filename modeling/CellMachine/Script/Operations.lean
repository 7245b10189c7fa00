import CellMachine.Script.Steps.Collector
import CellMachine.Script.Steps.Windows

/-!
# Single operations

What a step without steps of its own does and answers.
-/

namespace CellMachine

namespace VM

/-- Does a single operation. -/
def perform (bodies : Bodies) (act : Activation) : Op → VM Host Answer
  | .value op => performValue act op
  | .object op => performObject bodies act op
  | .call op into => do showInto into (← performCall bodies act op)
  | .openWindow name op => performOpen act name op
  | .window name op => performWindow act name op
  | .stack op => performStack act op
  | .collector op => performCollector act op
  | .signal op => performSignal op
  | .refused why => refuse why

end VM

end CellMachine
