import CellMachine.Workload

/-!
# The program

Reads the command line, runs the workload and prints its report.
-/

namespace CellMachine

/-- What is printed when there is nothing to run. -/
def usage : List String := [
  "Usage: cell-machine [OPTIONS] [ARGS]...",
  "",
  "  --gc-disable                     Never collect; the heap only grows",
  "  --collect-all-at-exit            Sweep every cell before exiting",
  "  --gc-trigger-percent <PERCENT>   Collect once an allocator has less than this free",
  "  --gc-target-percent <PERCENT>    Grow after a collection until this is free",
  "  --initial-blocks <COUNT>         Blocks each size class starts with",
  "  --iterations <COUNT>             Additions performed by the numeric workload",
  "  --threads <COUNT>                Threads that run the numeric workload as well",
  "  --raise                          Finish with a call that violates its arity",
  "  --print-stats                    Print collector statistics at exit",
  "  --print-objects                  Print the number of live objects per type at exit",
  "  -h, --help                       Print this help",
  "  -V, --version                    Print the version"]

def printLines (s : IO.FS.Stream) (lines : List String) : IO Unit := do
  for line in lines do
    s.putStrLn line

/-- Prints what a complaint calls for and gives the status of the program. -/
def complain (c : CommandLine.Complaint) : IO UInt32 := do
  match c with
  | .help =>
    printLines (← IO.getStdout) usage
    return 0
  | .version =>
    printLines (← IO.getStdout) ["cell-machine 0.1.0"]
    return 0
  | c =>
    printLines (← IO.getStderr) ["error: " ++ c.name]
    return 2

end CellMachine

def main (args : List String) : IO UInt32 := do
  match CellMachine.CommandLine.parse args with
  | .error c => CellMachine.complain c
  | .ok o =>
    let report := CellMachine.Workload.run "cell-machine" o
    CellMachine.printLines (← IO.getStdout) report.output
    CellMachine.printLines (← IO.getStderr) report.errors
    return report.status.toUInt32
