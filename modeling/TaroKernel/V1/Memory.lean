import TaroKernel.Pointer.Syscalls
import TaroKernel.V1.Syscalls

/-!
# The first version in memory

The syscalls of `kernel/proyecto3/taro_mani_memv1.c` over the nodes they allocate, link by hand and
free. A pointer is an address or `none` for `NULL`.

A call that accesses a node that is not allocated, that never leaves a loop, or that waits for a
mutex nobody releases has no result; `Stuck` says which of them happened.
-/

namespace Taro.V1.Pointer

open Taro.Pointer (Allocator HeapCall)

/-- `struct memory_limitation`. -/
structure Node where
  pid : PidT
  memoryLimit : SizeT
  next : Option Addr
  deriving DecidableEq, Repr

/-- The state of the syscalls: the two static variables, what is at every address as a node, and
where a node or the buffer of a get is allocated. -/
structure Memory where
  memoryLimitHead : Option Addr
  mutex : Bool
  node : Addr → Node
  nodes : Finset Addr
  buffers : Finset Addr

inductive Stuck where
  /-- No node is allocated there. -/
  | notLive (a : Addr)
  | endlessLoop
  | mutexHeld
  deriving DecidableEq, Repr

/-- Code that runs on this state. -/
abbrev Exec := StateT Memory (Except Stuck)

/-! ### Nodes, buffers, the mutex -/

def readNode (a : Addr) : Exec Node := fun m =>
  if a ∈ m.nodes then .ok (m.node a, m) else .error (.notLive a)

def writeNode (a : Addr) (n : Node) : Exec Unit := fun m =>
  if a ∈ m.nodes then .ok ((), { m with node := Function.update m.node a n })
  else .error (.notLive a)

def readPid (a : Addr) : Exec PidT := do
  let n ← readNode a
  pure n.pid

def readMemoryLimit (a : Addr) : Exec SizeT := do
  let n ← readNode a
  pure n.memoryLimit

def readNext (a : Addr) : Exec (Option Addr) := do
  let n ← readNode a
  pure n.next

def writePid (a : Addr) (p : PidT) : Exec Unit := do
  let n ← readNode a
  writeNode a { n with pid := p }

def writeMemoryLimit (a : Addr) (L : SizeT) : Exec Unit := do
  let n ← readNode a
  writeNode a { n with memoryLimit := L }

def writeNext (a : Addr) (p : Option Addr) : Exec Unit := do
  let n ← readNode a
  writeNode a { n with next := p }

def readHead : Exec (Option Addr) := fun m => .ok (m.memoryLimitHead, m)

def writeHead (p : Option Addr) : Exec Unit := fun m => .ok ((), { m with memoryLimitHead := p })

/-- `kmalloc` of a node, at any address that is not in use; it holds whatever was there. -/
def kmallocNode (succeeds : Bool) (allocator : Allocator) : Exec (Option Addr) := fun m =>
  if succeeds = false then .ok (none, m)
  else
    let a := allocator.choose (m.nodes ∪ m.buffers)
    .ok (some a, { m with nodes := insert a m.nodes })

/-- `kfree` of a node. -/
def kfreeNode (a : Addr) : Exec Unit := fun m =>
  if a ∈ m.nodes then .ok ((), { m with nodes := m.nodes.erase a }) else .error (.notLive a)

/-- `kmalloc_array`. -/
def kmallocArray (succeeds : Bool) (allocator : Allocator) : Exec (Option Addr) := fun m =>
  if succeeds = false then .ok (none, m)
  else
    let a := allocator.choose (m.nodes ∪ m.buffers)
    .ok (some a, { m with buffers := insert a m.buffers })

/-- `kfree` of a buffer. -/
def kfreeBuffer (a : Addr) : Exec Unit := fun m =>
  .ok ((), { m with buffers := m.buffers.erase a })

/-- `mutex_lock`. With one call after the other, nobody releases a mutex that is held. -/
def mutexLock : Exec Unit := fun m =>
  if m.mutex then .error .mutexHeld else .ok ((), { m with mutex := true })

def mutexUnlock : Exec Unit := fun m => .ok ((), { m with mutex := false })

/-! ### Loops -/

/-- A bound for the steps of a loop: a chain of allocated nodes is at its end after so many. -/
def loopBound : Exec ℕ := fun m => .ok (m.nodes.card + 1, m)

/-- The loop of add and update, left at the first node with the pid; `none` if it runs to the
end. -/
def searchFrom (processPid : PidT) : ℕ → Option Addr → Exec (Option Addr)
  | 0,        _         => throw .endlessLoop
  | _ + 1,    none      => pure none
  | fuel + 1, some temp => do
    let pid ← readPid temp
    if pid = processPid then pure (some temp)
    else do
      let next ← readNext temp
      searchFrom processPid fuel next

/-- The loop of remove, which keeps the node before the current one; left with both of them. -/
def searchPrevFrom (processPid : PidT) :
    ℕ → Option Addr → Option Addr → Exec (Option (Option Addr × Addr))
  | 0,        _,        _                => throw .endlessLoop
  | _ + 1,    _,        none             => pure none
  | fuel + 1, prevNode, some currentNode => do
    let pid ← readPid currentNode
    if pid = processPid then pure (some (prevNode, currentNode))
    else do
      let next ← readNext currentNode
      searchPrevFrom processPid fuel (some currentNode) next

/-- The loop of get, left with the count and the records in the buffer. The `pr_info` in it reads
the same fields once more. -/
def fillFrom (maxEntries : SizeT) :
    ℕ → Option Addr → Int32 → List MemoryLimitation → Exec (Int32 × List MemoryLimitation)
  | 0,        _,                _,     _       => throw .endlessLoop
  | _ + 1,    none,             count, kBuffer => pure (count, kBuffer)
  | fuel + 1, some currentNode, count, kBuffer =>
    if toSizeT count < maxEntries then do
      let pid ← readPid currentNode
      let memoryLimit ← readMemoryLimit currentNode
      let next ← readNext currentNode
      fillFrom maxEntries fuel next (count + 1) (kBuffer ++ [⟨pid, memoryLimit⟩])
    else pure (count, kBuffer)

def search (processPid : PidT) : Exec (Option Addr) := do
  let fuel ← loopBound
  let temp ← readHead
  searchFrom processPid fuel temp

def searchPrev (processPid : PidT) : Exec (Option (Option Addr × Addr)) := do
  let fuel ← loopBound
  let currentNode ← readHead
  searchPrevFrom processPid fuel none currentNode

def fill (maxEntries : SizeT) : Exec (Int32 × List MemoryLimitation) := do
  let fuel ← loopBound
  let currentNode ← readHead
  fillFrom maxEntries fuel currentNode 0 []

/-! ### Syscalls -/

variable {Signal : Type}

/-- What add does with a new node: fill it and link it at the front. -/
def linkEntry (entry : Addr) (processPid : PidT) (memoryLimit : SizeT) : Exec Unit := do
  writePid entry processPid
  writeMemoryLimit entry memoryLimit
  let head ← readHead
  writeNext entry head
  writeHead (some entry)

/-- What remove does with the node it found: unlink it from the node before it, or from the head,
and free it. -/
def unlinkNode (prevNode : Option Addr) (currentNode : Addr) : Exec Unit := do
  let next ← readNext currentNode
  match prevNode with
  | none      => writeHead next
  | some prev => writeNext prev next
  kfreeNode currentNode

/-- `taro_add_memory_limit`. -/
def taroAddMemoryLimit (processPid : PidT) (memoryLimit : SizeT) (o : Outcomes Signal)
    (allocator : Allocator) : Exec Int :=
  if processPid < 0 ∨ memoryLimit ≤ 0 then pure (-EINVAL)
  else do
    mutexLock
    match ← search processPid with
    | some _ =>
      mutexUnlock
      pure (-101)
    | none   =>
      match ← kmallocNode o.kmalloc allocator with
      | none       =>
        mutexUnlock
        pure (-ENOMEM)
      | some entry =>
        linkEntry entry processPid memoryLimit
        mutexUnlock
        pure 0

/-- `taro_get_memory_limits`. -/
def taroGetMemoryLimits (uProcessesBuffer : UInt64) (maxEntries : SizeT)
    (processesReturned : UInt64) (o : Outcomes Signal) (allocator : Allocator) : Exec Ret :=
  if uProcessesBuffer = 0 ∨ processesReturned = 0 ∨ maxEntries ≤ 0 then pure ⟨-EINVAL, .nothing⟩
  else do
    match ← kmallocArray o.kmalloc allocator with
    | none         => pure ⟨-ENOMEM, .nothing⟩
    | some kBuffer =>
      mutexLock
      let filled ← fill maxEntries
      mutexUnlock
      if copyToUser (toSizeT filled.1 * nodeSize) o.copyBuffer ≠ 0 then
        kfreeBuffer kBuffer
        pure ⟨-EFAULT, .nothing⟩
      else if copyToUser 4 o.copyCount ≠ 0 then
        kfreeBuffer kBuffer
        pure ⟨-EFAULT, ⟨some filled.2, none⟩⟩
      else
        kfreeBuffer kBuffer
        pure ⟨0, ⟨some filled.2, some filled.1⟩⟩

/-- `taro_update_memory_limit`. -/
def taroUpdateMemoryLimit (processPid : PidT) (memoryLimit : SizeT) (o : Outcomes Signal) :
    Exec Int :=
  if processPid < 0 ∨ memoryLimit ≤ 0 then pure (-EINVAL)
  else if o.capable = false then pure (-EPERM)
  else do
    mutexLock
    match ← search processPid with
    | none             =>
      mutexUnlock
      pure (-102)
    | some currentNode =>
      match o.findTaskByVpid with
      | none      =>
        mutexUnlock
        pure (-ESRCH)
      | some task =>
        if exceedsLimit task memoryLimit then
          mutexUnlock
          pure (-100)
        else
          writeMemoryLimit currentNode memoryLimit
          mutexUnlock
          pure 0

/-- `taro_remove_memory_limit`. -/
def taroRemoveMemoryLimit (processPid : PidT) (o : Outcomes Signal) : Exec Int :=
  if processPid < 0 then pure (-EINVAL)
  else if o.capable = false then pure (-EPERM)
  else do
    mutexLock
    match ← searchPrev processPid with
    | none                         =>
      mutexUnlock
      pure (-102)
    | some (prevNode, currentNode) =>
      unlinkNode prevNode currentNode
      mutexUnlock
      pure 0

/-- One call, from its start to its end. -/
def syscall (i : HeapCall Signal) : Exec Ret :=
  match i.call with
  | .add p L => do
    let code ← taroAddMemoryLimit p L i.outcomes i.allocator
    pure ⟨code, .nothing⟩
  | .get u n c => taroGetMemoryLimits u n c i.outcomes i.allocator
  | .update p L => do
    let code ← taroUpdateMemoryLimit p L i.outcomes
    pure ⟨code, .nothing⟩
  | .remove p => do
    let code ← taroRemoveMemoryLimit p i.outcomes
    pure ⟨code, .nothing⟩

/-- One call as a step; a call without a result leaves everything where it was. -/
def next (m : Memory) (i : HeapCall Signal) : Except Stuck Ret × Memory :=
  match (syscall i).run m with
  | .ok (r, m') => (.ok r, m')
  | .error e    => (.error e, m)

/-- `memory_limit_head` is `NULL`, the mutex is free and nothing is allocated; `node` is what the
rest of memory holds. -/
def boot (node : Addr → Node) : Memory where
  memoryLimitHead := none
  mutex := false
  node := node
  nodes := ∅
  buffers := ∅

end Taro.V1.Pointer
