import TaroKernel.Lib.Machine
import TaroKernel.Lib.Keyed
import TaroKernel.Lib.Linearizability
import TaroKernel.Lib.Mutex
import TaroKernel.Lib.ListHead
import TaroKernel.Lib.Chain
import TaroKernel.Lib.Align
import TaroKernel.Lib.Signed
import TaroKernel.Lib.Masks
import TaroKernel.Lib.Sessions
import TaroKernel.Lib.Bytes
import TaroKernel.Lib.Layout
import TaroKernel.Kernel
import TaroKernel.UserMemory
import TaroKernel.Registry.Syscalls
import TaroKernel.Registry.Exits
import TaroKernel.Registry.Effects
import TaroKernel.Registry.Invariant
import TaroKernel.Registry.Get
import TaroKernel.Registry.History
import TaroKernel.Registry.Atomicity
import TaroKernel.Registry.Checks
import TaroKernel.Registry.Enforcement
import TaroKernel.Registry.Restore
import TaroKernel.Registry.PidReuse
import TaroKernel.Registry.Commute
import TaroKernel.Registry.Concurrency
import TaroKernel.Registry.UserBuffer
import TaroKernel.Pointer.Memory
import TaroKernel.Pointer.Syscalls
import TaroKernel.Pointer.Heap
import TaroKernel.Pointer.Refinement
import TaroKernel.Pointer.Resources
import TaroKernel.Pointer.Threads
import TaroKernel.Pointer.Interleaving
import TaroKernel.Pointer.Races
import TaroKernel.V1.Syscalls
import TaroKernel.V1.Lockstep
import TaroKernel.V1.Memory
import TaroKernel.V1.Refinement
import TaroKernel.V1.Runs
import TaroKernel.Stats.Syscalls
import TaroKernel.Stats.Walk
import TaroKernel.Stats.Bounds
import TaroKernel.Stats.Namespaces
import TaroKernel.Stats.Totals
import TaroKernel.Stats.OomScore
import TaroKernel.Leaks
import TaroKernel.Sys.Prlimit
import TaroKernel.Sys.Limits
import TaroKernel.Sys.LimitHistory
import TaroKernel.Sys.Compat
import TaroKernel.Sys.LimitRaces
import TaroKernel.Sys.Sessions
import TaroKernel.Sys.SessionRefinement
import TaroKernel.Sys.Processes
import TaroKernel.Sys.SessionRuns
import TaroKernel.Sys.Credentials
import TaroKernel.Sys.CredentialRuns
import TaroKernel.Open.Flags
import TaroKernel.Open.Strict
import TaroKernel.Open.Accepted
import TaroKernel.Files.Vfs
import TaroKernel.Files.Syscalls
import TaroKernel.Files.Transfers
import TaroKernel.Files.Moves
import TaroKernel.Files.Positions
import TaroKernel.Files.Seeking
import TaroKernel.Files.CopyRange
import TaroKernel.Files.Accounting
import TaroKernel.Tamalloc
import TaroKernel.Cpu.Read
import TaroKernel.Cpu.Usage
import TaroKernel.Cpu.Exact
import TaroKernel.Meminfo.Reports
import TaroKernel.Meminfo.Exact
import TaroKernel.Track.Syscalls
import TaroKernel.Track.Accounting
import TaroKernel.Track.Interleaving
import TaroKernel.Track.Races
