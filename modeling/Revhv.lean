import Revhv.Lib.Machine
import Revhv.Lib.BitMask
import Revhv.Lib.Loop
import Revhv.Lib.Ring
import Revhv.Lib.ByteCopy
import Revhv.Lib.DropQueue
import Revhv.Lib.KWayMerge
import Revhv.Lib.OpenAddressing
import Revhv.Lib.PriorityQueue
import Revhv.Lib.Query
import Revhv.Lib.RecordLayout
import Revhv.Lib.Broadcast
import Revhv.Lib.CriticalSection
import Revhv.Lib.GuardedView
import Revhv.Common.TraceLog
import Revhv.Km.Trace
import Revhv.Km.Sync
import Revhv.Km.Preemption
import Revhv.Km.Error
import Revhv.Km.Introspection
import Revhv.Km.Logging
import Revhv.Km.Vcpu
import Revhv.Km.Memory
import Revhv.Km.GuestMemory
import Revhv.Km.Mtrr
import Revhv.Km.Ept
import Revhv.Km.Vmexit
import Revhv.Km.Hypercall.Flush
import Revhv.Km.Hypercall.AutoTrace
import Revhv.Km.Hypercall.Vmem
import Revhv.Km.StaleViews
import Revhv.Km.TransitionCfg
import Revhv.Km.GuestAccess
import Revhv.Km.Msr
import Revhv.Km.Nmi
import Revhv.Km.ControlRegister
import Revhv.Km.Stealth
import Revhv.Km.Exception
import Revhv.Km.Format
import Revhv.Km.Emulation
import Revhv.Km.Onload
import Revhv.Um.AtConfig
import Revhv.Um.Hypercall
import Revhv.Um.Vmemory
import Revhv.Um.TraceParser
import Revhv.Um.TraceMerge
import Revhv.Um.TraceSession
import Revhv.Um.OnloadSnapshot
import Revhv.Um.SnapshotFiles
import Revhv.Um.Pe
import Revhv.Um.PeAccess
import Revhv.Proofs.TraceQueue
import Revhv.Proofs.TraceRing
import Revhv.Proofs.SpinLock
import Revhv.Proofs.StandardLog
import Revhv.Proofs.Flush
import Revhv.Proofs.LoggerQueue
import Revhv.Proofs.TransitionCfg
import Revhv.Proofs.TransitionTable
import Revhv.Proofs.ParserConfig
import Revhv.Proofs.TraceSession
import Revhv.Proofs.CrashProtocol
import Revhv.Proofs.EptShape
import Revhv.Proofs.EptRefinement
import Revhv.Proofs.EptTrace
import Revhv.Proofs.EptMemoryTypes
import Revhv.Proofs.EptMachine
import Revhv.Proofs.ViewFlip
import Revhv.Proofs.ViewLockstep
import Revhv.Proofs.EptOperations
import Revhv.Proofs.EnableFailure
import Revhv.Proofs.PageWalk
import Revhv.Proofs.GuestMemory
import Revhv.Proofs.ReadVmemory
import Revhv.Proofs.TranslationFailure
import Revhv.Proofs.HookGuard
import Revhv.Proofs.Crossings
import Revhv.Proofs.FaultingPage
import Revhv.Proofs.EptTyping
import Revhv.Proofs.EptTypes
import Revhv.Proofs.MsrWrites
import Revhv.Proofs.MtrrTypes
import Revhv.Proofs.MtrrWrites
import Revhv.Proofs.NmiQueue
import Revhv.Proofs.ControlRegister
import Revhv.Proofs.TscOffset
import Revhv.Proofs.Emulation
import Revhv.Proofs.NativeResults
import Revhv.Proofs.ConfigMirror
import Revhv.Proofs.BroadcastOutcome
import Revhv.Proofs.StaleViews
import Revhv.Proofs.Straddling
import Revhv.Proofs.Onload
import Revhv.Proofs.Preemption
import Revhv.Proofs.OnloadSnapshot
import Revhv.Proofs.TraceMerge
import Revhv.Proofs.SnapshotFiles
import Revhv.Proofs.PeParser
import Revhv.Proofs.PeAccess
import Revhv.Proofs.Format
import Revhv.Lib.HexText
import Revhv.Um.Numbers
import Revhv.Um.Symbols
import Revhv.Um.Kmodules
import Revhv.Proofs.Numbers
import Revhv.Proofs.Kmodules
import Revhv.Um.TraceSymbols
import Revhv.Proofs.TraceSymbols
import Revhv.Um.TraceFormat
import Revhv.Proofs.TraceFormat
import Revhv.Km.ImageName
import Revhv.Proofs.ImageName
import Revhv.Lib.CodeBlock
import Revhv.Lib.Traced
import Revhv.Lib.RadixTable
import Revhv.Lib.CommitPoint
import Revhv.Km.Detour
import Revhv.Proofs.DetourBounds
import Revhv.Km.Trampoline
import Revhv.Proofs.Trampoline
import Revhv.Km.Hypercall.VmemAccess
import Revhv.Proofs.VmemAccess
import Revhv.Km.HostTables
import Revhv.Proofs.HostTables
import Revhv.Km.NestedLog
import Revhv.Proofs.NestedLog
import Revhv.Lib.StackFrame
import Revhv.Lib.StraightLine
import Revhv.Km.Assembly
import Revhv.Proofs.Assembly
import Revhv.Km.VmexitStub
import Revhv.Proofs.VmexitStub
import Revhv.Km.Benchmark
import Revhv.Proofs.Benchmark
import Revhv.Km.Isr
import Revhv.Proofs.Isr
import Revhv.Km.ExceptionWrappers
import Revhv.Proofs.ExceptionWrappers
import Revhv.Km.Segment
import Revhv.Km.Vmcs
import Revhv.Km.Launch
import Revhv.Proofs.Segment
import Revhv.Proofs.Vmcs
import Revhv.Proofs.MsrArea
import Revhv.Proofs.Launch
import Revhv.Proofs.ExitPath
