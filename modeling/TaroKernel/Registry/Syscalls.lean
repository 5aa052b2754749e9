import Mathlib.Logic.Function.Basic
import TaroKernel.Kernel
import TaroKernel.Lib.Keyed

/-!
# The memory-limit registry

The four syscalls of `kernel/usac/taro_mani_mem.c` over `memory_limit_list` as a sequence of
entries: `list_add_tail` appends, `list_del` unlinks, a search loop stops at the first entry with
the pid. `TaroKernel.Pointer` runs the same syscalls on a heap of nodes and shows that this is
what they do.

Each of the two syscalls that look a process up is cut where the source takes the mutex:
`beforeMutex` is what runs without it, `addLocked` and `updateLocked` what runs under it.
-/

namespace Taro

open Keyed

variable {Signal : Type*} [DecidableEq Signal]

/-- The state the syscalls share: the registry and the `RLIMIT_AS` pair of every
`signal_struct`. -/
@[ext]
structure Kernel (Signal : Type*) where
  memoryLimitList : List MemoryLimitation
  rlimitAs : Signal → Rlimit

/-- The pids of the registry, in list order. -/
def Kernel.pids (s : Kernel Signal) : List PidT := s.memoryLimitList.map MemoryLimitation.pid

/-- Both fields of a `struct rlimit` set to the limit, as add and update fill theirs. -/
def rlimitOf (memoryLimit : SizeT) : Rlimit := ⟨memoryLimit, memoryLimit⟩

/-- Store a new limit in the node of a pid. -/
def storeLimit (processPid : PidT) (memoryLimit : SizeT) :
    List MemoryLimitation → List MemoryLimitation :=
  modify MemoryLimitation.pid processPid fun temp => { temp with memoryLimit := memoryLimit }

/-- `task->mm && task->mm->total_vm > (memory_limit >> PAGE_SHIFT)`. -/
def exceedsLimit (task : TaskStruct Signal) (memoryLimit : SizeT) : Bool :=
  match task.mm with
  | none    => false
  | some mm => mm.totalVm > memoryLimit >>> PAGE_SHIFT

/-- How add and update start: the argument check and the lookup of the process. -/
def beforeMutex (processPid : PidT) (memoryLimit : SizeT) (o : Outcomes Signal) :
    Except Int (TaskStruct Signal) :=
  if processPid < 0 ∨ memoryLimit ≤ 0 then .error (-EINVAL)
  else
    match o.findTaskByVpid with
    | none      => .error (-ESRCH)
    | some task => .ok task

/-- `taro_add_memory_limit` under the mutex. -/
def addLocked (s : Kernel Signal) (processPid : PidT) (memoryLimit : SizeT)
    (task : TaskStruct Signal) (o : Outcomes Signal) : Int × Kernel Signal :=
  match lookup MemoryLimitation.pid processPid s.memoryLimitList with
  | some _ => (-101, s)
  | none   =>
    if o.kmalloc = false then (-ENOMEM, s)
    else
      let entry : MemoryLimitation := ⟨processPid, memoryLimit⟩
      -- list_add_tail comes before the LSM is asked
      let linked := s.memoryLimitList ++ [entry]
      if o.securityTaskSetrlimit ≠ 0 then
        -- kfree(entry), then list_del(&entry->list)
        (-EPERM, { s with memoryLimitList := unlink MemoryLimitation.pid entry.pid linked })
      else
        (0, { memoryLimitList := linked,
              rlimitAs := Function.update s.rlimitAs task.signal (rlimitOf memoryLimit) })

/-- `taro_add_memory_limit`. -/
def taroAddMemoryLimit (s : Kernel Signal) (processPid : PidT) (memoryLimit : SizeT)
    (o : Outcomes Signal) : Int × Kernel Signal :=
  match beforeMutex processPid memoryLimit o with
  | .error code => (code, s)
  | .ok task    => addLocked s processPid memoryLimit task o

/-- `taro_update_memory_limit` under the mutex. -/
def updateLocked (s : Kernel Signal) (processPid : PidT) (memoryLimit : SizeT)
    (task : TaskStruct Signal) (o : Outcomes Signal) : Int × Kernel Signal :=
  match lookup MemoryLimitation.pid processPid s.memoryLimitList with
  | none   => (-102, s)
  | some _ =>
    if exceedsLimit task memoryLimit then (-100, s)
    else
      -- the entry is written before the LSM is asked, and a refusal does not restore it
      let stored := storeLimit processPid memoryLimit s.memoryLimitList
      if o.securityTaskSetrlimit ≠ 0 then (-EPERM, { s with memoryLimitList := stored })
      else
        (0, { memoryLimitList := stored,
              rlimitAs := Function.update s.rlimitAs task.signal (rlimitOf memoryLimit) })

/-- `taro_update_memory_limit`. -/
def taroUpdateMemoryLimit (s : Kernel Signal) (processPid : PidT) (memoryLimit : SizeT)
    (o : Outcomes Signal) : Int × Kernel Signal :=
  match beforeMutex processPid memoryLimit o with
  | .error code => (code, s)
  | .ok task    => updateLocked s processPid memoryLimit task o

/-- `taro_remove_memory_limit`. Unlike the other two it refuses pid 0, and it neither looks the
process up nor touches its limits. -/
def taroRemoveMemoryLimit (s : Kernel Signal) (processPid : PidT) : Int × Kernel Signal :=
  if processPid ≤ 0 then (-EINVAL, s)
  else
    match lookup MemoryLimitation.pid processPid s.memoryLimitList with
    | none      => (-102, s)
    | some temp =>
      (0, { s with memoryLimitList := unlink MemoryLimitation.pid temp.pid s.memoryLimitList })

/-- The loop of `taro_get_memory_limits`: `count` is an `int`, compared with a `size_t`. -/
def fillBuffer (maxEntries : SizeT) :
    List MemoryLimitation → Int32 → List MemoryLimitation → Int32 × List MemoryLimitation
  | [],           count, kBuffer => (count, kBuffer)
  | temp :: rest, count, kBuffer =>
    if toSizeT count ≥ maxEntries then (count, kBuffer)
    else fillBuffer maxEntries rest (count + 1) (kBuffer ++ [temp])

/-- What a get leaves in the memory of its caller: the records of the buffer and the count, each
once its copy went through. -/
structure UserCopy where
  uProcessesBuffer : Option (List MemoryLimitation)
  processesReturned : Option Int32
  deriving DecidableEq, Repr

/-- Nothing was copied. -/
def UserCopy.nothing : UserCopy := ⟨none, none⟩

/-- The result of a call: its return value, and what it left in user memory. -/
structure Ret where
  code : Int
  copied : UserCopy
  deriving DecidableEq, Repr

/-- The size of a record of `k_buffer`: a `pid_t`, four bytes of padding, a `size_t`. -/
def recordSize : SizeT := 16

/-- `taro_get_memory_limits`. -/
def taroGetMemoryLimits (memoryLimitList : List MemoryLimitation) (uProcessesBuffer : UInt64)
    (maxEntries : SizeT) (processesReturned : UInt64) (o : Outcomes Signal) : Ret :=
  if uProcessesBuffer = 0 ∨ processesReturned = 0 ∨ maxEntries ≤ 0 then ⟨-EINVAL, .nothing⟩
  else if o.kmalloc = false then ⟨-ENOMEM, .nothing⟩
  else
    let filled := fillBuffer maxEntries memoryLimitList 0 []
    let count := filled.1
    let kBuffer := filled.2
    if copyToUser (toSizeT count * recordSize) o.copyBuffer ≠ 0 then ⟨-EFAULT, .nothing⟩
    else if copyToUser 4 o.copyCount ≠ 0 then ⟨-EFAULT, ⟨some kBuffer, none⟩⟩
    else ⟨0, ⟨some kBuffer, some count⟩⟩

/-- A call of one of the four syscalls, with its arguments. User pointers are addresses, `0` is
`NULL`. -/
inductive Call where
  | add (processPid : PidT) (memoryLimit : SizeT)
  | get (uProcessesBuffer : UInt64) (maxEntries : SizeT) (processesReturned : UInt64)
  | update (processPid : PidT) (memoryLimit : SizeT)
  | remove (processPid : PidT)
  deriving DecidableEq, Repr

/-- The pid a call is about. -/
def Call.target : Call → Option PidT
  | .add p _ | .update p _ | .remove p => some p
  | .get .. => none

/-- A call together with the answers it gets from the rest of the kernel. -/
structure Invocation (Signal : Type*) where
  call : Call
  outcomes : Outcomes Signal

/-- A call with all its answers except for the process its pid denotes, which depends on who calls
and when; `mm` is what `task->mm` is then. -/
structure Request where
  call : Call
  answers : Answers
  mm : Option MmStruct
  deriving DecidableEq, Repr

/-- The request of a caller for whom its pid denotes `task`. -/
def Request.invoke (q : Request) (task : Option (Task Signal)) : Invocation Signal :=
  ⟨q.call, ⟨q.answers, task.map fun t => ⟨t, q.mm⟩⟩⟩

/-- One call on the shared state, run from its start to its end. -/
def syscall (s : Kernel Signal) (i : Invocation Signal) : Ret × Kernel Signal :=
  match i.call with
  | .add p L =>
    let r := taroAddMemoryLimit s p L i.outcomes
    (⟨r.1, .nothing⟩, r.2)
  | .get u n c => (taroGetMemoryLimits s.memoryLimitList u n c i.outcomes, s)
  | .update p L =>
    let r := taroUpdateMemoryLimit s p L i.outcomes
    (⟨r.1, .nothing⟩, r.2)
  | .remove p =>
    let r := taroRemoveMemoryLimit s p
    (⟨r.1, .nothing⟩, r.2)

/-- The state at boot: an empty registry, every process with the limits it happens to have. -/
def boot (rlimitAs : Signal → Rlimit) : Kernel Signal := ⟨[], rlimitAs⟩

end Taro
