import CellMachine.Sessions.AllocatorSession
import CellMachine.Sessions.BlockSession
import CellMachine.Sessions.CellSession
import CellMachine.Sessions.HeapSession
import CellMachine.Sessions.ParallelAllocation
import CellMachine.Script.Run
import CellMachine.CommandLine
import CellMachine.Main
import CellMachine.Proofs.Counting
import CellMachine.Proofs.Heap.Block
import CellMachine.Proofs.Heap.Allocator
import CellMachine.Proofs.Heap.Accounting
import CellMachine.Proofs.Heap.Layout
import CellMachine.Proofs.Heap.Operations
import CellMachine.Proofs.Heap.Marking
import CellMachine.Proofs.Heap.Cycle
import CellMachine.Proofs.Heap.Reachable
import CellMachine.Proofs.Heap.Exactness
import CellMachine.Proofs.Threads.Word
import CellMachine.Proofs.Threads.WordRecord
import CellMachine.Proofs.Threads.Changes
import CellMachine.Proofs.Threads.Rendezvous
import CellMachine.Proofs.Threads.Preservation
import CellMachine.Proofs.Threads.Turns
import CellMachine.Proofs.Threads.StopTheWorld
import CellMachine.Proofs.Threads.Safety
import CellMachine.Proofs.Heap.Allocation
import CellMachine.Proofs.Threads.Pending
import CellMachine.Proofs.Machine.Allocation
import CellMachine.Proofs.Heap.Payloads
import CellMachine.Proofs.Heap.Dangling
import CellMachine.Proofs.Heap.Residents
import CellMachine.Proofs.Heap.Balance
import CellMachine.Proofs.Machine.Triples
import CellMachine.Proofs.Machine.Bodies
import CellMachine.Proofs.Machine.StackDiscipline
import CellMachine.Proofs.Machine.Arguments
import CellMachine.Proofs.Machine.PrivateLists
import CellMachine.Proofs.Machine.NewWorld
import CellMachine.Proofs.Machine.CallingFrames
import CellMachine.Proofs.Machine.Situations
import CellMachine.Proofs.Machine.Calling
import CellMachine.Proofs.Machine.Breaks
import CellMachine.Proofs.Machine.FastPath
import CellMachine.Proofs.Machine.SymbolTable
import CellMachine.Proofs.Threads.Beats
import CellMachine.Proofs.Threads.InternClients
import CellMachine.Proofs.Threads.Interning
import CellMachine.Proofs.Threads.LateCells
import CellMachine.Proofs.Threads.UniqueNames
import CellMachine.Proofs.Threads.Fairness
import CellMachine.Proofs.Threads.BarrierPhases
import CellMachine.Proofs.Threads.LockedCalls
import CellMachine.Proofs.Threads.RootBooks
import CellMachine.Proofs.Threads.GlobalRoots
import CellMachine.Proofs.Threads.Progress
import CellMachine.Proofs.Threads.ComingToRest
import CellMachine.Proofs.Threads.AllocatingThreads
import CellMachine.Proofs.Threads.LoneMutator
import CellMachine.Proofs.Threads.ParallelAllocation
import CellMachine.Proofs.Workload.CallCourses
import CellMachine.Proofs.Workload.Knowledge
import CellMachine.Proofs.Workload.LedCalls
import CellMachine.Proofs.Workload.LedNumbers
import CellMachine.Proofs.Workload.FinalSweep
import CellMachine.Proofs.Heap.Growth
import CellMachine.Proofs.Heap.Resolution
import CellMachine.Proofs.Heap.SoundLayout
import CellMachine.Proofs.Heap.BlockOrder
import CellMachine.Proofs.Heap.GrowthLoop
import CellMachine.Proofs.Heap.FirstFit
import CellMachine.Proofs.Machine.TakenValues
import CellMachine.Proofs.Machine.Texts
import CellMachine.Proofs.Machine.OrderedHashes
import CellMachine.Proofs.Machine.KeywordAgreement
import CellMachine.Proofs.Machine.IntegerLaw
import CellMachine.Proofs.Machine.BlockParameters
import CellMachine.Proofs.Machine.NumberTexts
import CellMachine.Proofs.Threads.CellCounts
import CellMachine.Proofs.Machine.Bracketing
import CellMachine.Proofs.Machine.Views
import CellMachine.Proofs.Machine.BodyConducts
import CellMachine.Proofs.Machine.Interrupts
