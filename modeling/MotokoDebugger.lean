import MotokoDebugger.Lib.StateExcept
import MotokoDebugger.Ir.Instruction
import MotokoDebugger.Store
import MotokoDebugger.Executor.Stack
import MotokoDebugger.Executor.State
import MotokoDebugger.Executor.Local
import MotokoDebugger.Executor.Return
import MotokoDebugger.Executor.Instrs
import MotokoDebugger.Executor.CallParts
import MotokoDebugger.Executor.ReturnParts
import MotokoDebugger.Executor.Root
import MotokoDebugger.Debugger.Session
import MotokoDebugger.Debugger.Stepping
import MotokoDebugger.Debugger.ShadowStack
import MotokoDebugger.Debugger.Finish
import MotokoDebugger.Debugger.Refinement
import MotokoDebugger.Executor.BulkCopy
import MotokoDebugger.Executor.Instances
import MotokoDebugger.Module.Imports
import MotokoDebugger.Module.Instantiate
import MotokoDebugger.Module.Header
import MotokoDebugger.Module.Wasmparser
import MotokoDebugger.Module.Parser
import MotokoDebugger.Module.Streaming
import MotokoDebugger.Module.Validity
import MotokoDebugger.Module.ConstExprs
import MotokoDebugger.Module.Processes
import MotokoDebugger.Module.Loading
import MotokoDebugger.Debugger.CacheRuns
import MotokoDebugger.Debugger.BreakpointTable
import MotokoDebugger.Debugger.FailedRuns
import MotokoDebugger.Debugger.Isolation
import MotokoDebugger.Debugger.LaunchArgs
import MotokoDebugger.Debugger.Reports
import MotokoDebugger.Debugger.Thread
import MotokoDebugger.Debugger.Heap
import MotokoDebugger.Debugger.HeapLoads
import MotokoDebugger.Debugger.Scalars
import MotokoDebugger.Debugger.HeapMoves
import MotokoDebugger.Debugger.HeapTotal
import MotokoDebugger.Debugger.Ropes
import MotokoDebugger.Debugger.Locals
import MotokoDebugger.Module.Names
import MotokoDebugger.Module.CustomSections
import MotokoDebugger.Module.Linker
import MotokoDebugger.Module.StoreLimits
import MotokoDebugger.Debugger.SourceMap
import MotokoDebugger.Debugger.DirectoryMap
import MotokoDebugger.Debugger.BreakpointStops
import MotokoDebugger.Debugger.Faults
import MotokoDebugger.Dwarf.Entries
import MotokoDebugger.Dwarf.Format
import MotokoDebugger.Dwarf.LineTables
import MotokoDebugger.Dwarf.MainFile
import MotokoDebugger.Dwarf.Subprograms
import MotokoDebugger.Wasi.MotokoSyscall
import MotokoDebugger.Debugger.Dispatch
import MotokoDebugger.Translator.Defragment
import MotokoDebugger.Translator.SimultaneousCopies
import MotokoDebugger.Translator.FusedBranches
import MotokoDebugger.Translator.BranchTargets
import MotokoDebugger.Translator.FrameLayout
import MotokoDebugger.Translator.Preservation
import MotokoDebugger.Translator.PreservedRuns
import MotokoDebugger.Executor.StackLimits
import MotokoDebugger.Executor.IndirectCalls
import MotokoDebugger.Executor.CodeMap
import MotokoDebugger.Executor.FrameRegisters
import MotokoDebugger.Engine.Resumable
import MotokoDebugger.Engine.HostFailures
import MotokoDebugger.Engine.Resumptions
import MotokoDebugger.Engine.ResumedRuns
import MotokoDebugger.Executor.BulkOperations
import MotokoDebugger.Translator.ExactAccesses
import MotokoDebugger.Translator.ConstPool
import MotokoDebugger.Collections.Arena
import MotokoDebugger.Collections.DedupArena
import MotokoDebugger.Executor.FuelRuns
import MotokoDebugger.Translator.ExactSelect
import MotokoDebugger.Translator.ExactVisitors
import MotokoDebugger.Translator.NumericBlocks
