import TaroKernel.Lib.Machine
import TaroKernel.Pointer.Memory

/-!
# The syscalls in memory

Statement by statement as in the source; an `if (...) return` of a loop body is taken after the
loop, which ends there with its cursor.
-/

namespace Taro.Pointer

variable {Signal : Type}

/-- What add does with a new node: fill it and link it at the end. -/
def linkEntry (entry : Link) (processPid : PidT) (memoryLimit : SizeT) : Exec Signal Unit := do
  writePid entry processPid
  writeMemoryLimit entry memoryLimit
  initListHead entry
  listAddTail entry .head

variable [DecidableEq Signal]

/-- `taro_add_memory_limit`. -/
def taroAddMemoryLimit (processPid : PidT) (memoryLimit : SizeT) (o : Outcomes Signal)
    (allocator : Allocator) : Exec Signal Int :=
  match beforeMutex processPid memoryLimit o with
  | .error code => pure code
  | .ok task    => do
    mutexLock
    match ← search processPid with
    | some _ =>
      mutexUnlock
      pure (-101)
    | none   =>
      match ← kmallocNode o.kmalloc allocator with
      | none   =>
        mutexUnlock
        pure (-ENOMEM)
      | some a =>
        let entry := Link.node a
        linkEntry entry processPid memoryLimit
        getTaskStruct task.addr
        if o.securityTaskSetrlimit ≠ 0 then
          kfreeNode allocator entry
          listDel entry
          putTaskStruct task.addr
          mutexUnlock
          pure (-EPERM)
        else
          setRlimit task.signal (rlimitOf memoryLimit)
          putTaskStruct task.addr
          mutexUnlock
          pure 0

/-- `taro_get_memory_limits`. -/
def taroGetMemoryLimits (uProcessesBuffer : UInt64) (maxEntries : SizeT)
    (processesReturned : UInt64) (o : Outcomes Signal) (allocator : Allocator) :
    Exec Signal Ret :=
  if uProcessesBuffer = 0 ∨ processesReturned = 0 ∨ maxEntries ≤ 0 then pure ⟨-EINVAL, .nothing⟩
  else do
    match ← kmallocArray o.kmalloc allocator with
    | none         => pure ⟨-ENOMEM, .nothing⟩
    | some kBuffer =>
      mutexLock
      let filled ← fill maxEntries
      mutexUnlock
      if copyToUser (toSizeT filled.count * recordSize) o.copyBuffer ≠ 0 then
        kfreeBuffer kBuffer
        pure ⟨-EFAULT, .nothing⟩
      else if copyToUser 4 o.copyCount ≠ 0 then
        kfreeBuffer kBuffer
        pure ⟨-EFAULT, ⟨some filled.kBuffer, none⟩⟩
      else
        kfreeBuffer kBuffer
        -- the cursor is read once more, for the last pr_info
        let _ ← readPid filled.temp
        let _ ← readMemoryLimit filled.temp
        pure ⟨0, ⟨some filled.kBuffer, some filled.count⟩⟩

/-- `taro_update_memory_limit`. -/
def taroUpdateMemoryLimit (processPid : PidT) (memoryLimit : SizeT) (o : Outcomes Signal) :
    Exec Signal Int :=
  match beforeMutex processPid memoryLimit o with
  | .error code => pure code
  | .ok task    => do
    mutexLock
    match ← search processPid with
    | none      =>
      mutexUnlock
      pure (-102)
    | some temp =>
      if exceedsLimit task memoryLimit then
        mutexUnlock
        pure (-100)
      else
        writeMemoryLimit temp memoryLimit
        getTaskStruct task.addr
        if o.securityTaskSetrlimit ≠ 0 then
          putTaskStruct task.addr
          mutexUnlock
          pure (-EPERM)
        else
          setRlimit task.signal (rlimitOf memoryLimit)
          putTaskStruct task.addr
          mutexUnlock
          pure 0

/-- `taro_remove_memory_limit`. -/
def taroRemoveMemoryLimit (processPid : PidT) (allocator : Allocator) : Exec Signal Int :=
  if processPid ≤ 0 then pure (-EINVAL)
  else do
    mutexLock
    match ← search processPid with
    | some temp =>
      listDel temp
      kfreeNode allocator temp
      mutexUnlock
      pure 0
    | none      =>
      mutexUnlock
      pure (-102)

/-- A call, with all answers it gets and the allocator it is served by. -/
structure HeapCall (Signal : Type) extends Invocation Signal where
  allocator : Allocator

/-- One call, from its start to its end. -/
def syscall (i : HeapCall Signal) : Exec Signal Ret :=
  match i.call with
  | .add p L => do
    let code ← taroAddMemoryLimit p L i.outcomes i.allocator
    pure ⟨code, .nothing⟩
  | .get u n c => taroGetMemoryLimits u n c i.outcomes i.allocator
  | .update p L => do
    let code ← taroUpdateMemoryLimit p L i.outcomes
    pure ⟨code, .nothing⟩
  | .remove p => do
    let code ← taroRemoveMemoryLimit p i.allocator
    pure ⟨code, .nothing⟩

/-- The record is empty when a call starts. -/
def Memory.clear (m : Memory Signal) : Memory Signal :=
  { m with lockings := [], bufferEvents := [], accesses := [] }

/-- One call as a step; a call that never returns leaves everything where it was. -/
def next (m : Memory Signal) (i : HeapCall Signal) : Option Ret × Memory Signal :=
  match (syscall i).run m.clear with
  | some (r, m') => (some r, m')
  | none         => (none, m)

/-- Boot: `memory_limit_list` is empty, the mutex is free, nothing is allocated; the rest of memory
holds whatever it holds. -/
def boot (bytes : Heap) (rlimitAs : Signal → Rlimit) (refs : Addr → ℕ) : Memory Signal where
  heap := { bytes with toLinks := bytes.init .head, nodes := ∅ }
  rlimitAs := rlimitAs
  mutex := false
  refs := refs
  buffers := ∅
  lockings := []
  bufferEvents := []
  accesses := []

end Taro.Pointer
