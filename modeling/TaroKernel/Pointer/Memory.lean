import Mathlib.Data.Finset.Card
import Mathlib.Data.Finset.Insert
import TaroKernel.Lib.ListHead
import TaroKernel.Registry.Syscalls

/-!
# The registry in memory

The syscalls of `kernel/usac/taro_mani_mem.c` once more, this time with everything they do to
memory: nodes are allocated, linked with `linux/list.h`, and freed; the mutex, the reference counts
of tasks and the temporary buffers are part of the state.

Every access to a field of a node yields an `Option`: the contents, or `none` if no such field is
there. What C does then is go on with the bytes at that place, and so does the model: it records
what the access yielded and uses the bytes. What a node holds once it is freed is up to the
allocator, which may keep pointers of its own in free memory.
-/

namespace Taro.Pointer

open ListHead

/-! ### Nodes -/

/-- Where a `struct list_head *` can point: to the head of `memory_limit_list`, into a
`memory_limitation_t`, or to one of the two poison values of `list_del`. A `memory_limitation_t *`
points to the structure around such a place, which for the head is no node at all. -/
inductive Link where
  | head
  | node (a : Addr)
  | poison1
  | poison2
  deriving DecidableEq, Repr

/-- The contents of a field. -/
inductive Value where
  | pid (p : PidT)
  | memoryLimit (L : SizeT)
  | link (l : Link)
  deriving DecidableEq, Repr

/-- The bytes of the fields at every place, and the nodes that are allocated. -/
structure Heap extends Links Link where
  pid : Link → PidT
  memoryLimit : Link → SizeT
  nodes : Finset Addr

/-- A `memory_limitation_t` is allocated there. -/
def Heap.IsNode (h : Heap) : Link → Prop
  | .node a => a ∈ h.nodes
  | _       => False

instance (h : Heap) : DecidablePred h.IsNode
  | .node a  => inferInstanceAs (Decidable (a ∈ h.nodes))
  | .head    => isFalse id
  | .poison1 => isFalse id
  | .poison2 => isFalse id

/-- There are link fields there: those of the head, or those of a node. -/
def Heap.HasLinks (h : Heap) (l : Link) : Prop := l = .head ∨ h.IsNode l

instance (h : Heap) (l : Link) : Decidable (h.HasLinks l) := inferInstanceAs (Decidable (_ ∨ _))

/-- What an access to a field of a node yields. -/
def Heap.nodeField (h : Heap) (l : Link) (v : Value) : Option Value :=
  if h.IsNode l then some v else none

/-- What an access to a link field yields. -/
def Heap.linkField (h : Heap) (l : Link) (v : Value) : Option Value :=
  if h.HasLinks l then some v else none

/-- The bytes of a `memory_limitation_t`. -/
structure NodeBytes where
  pid : PidT
  memoryLimit : SizeT
  next : Link
  prev : Link
  deriving DecidableEq, Repr

/-- A node is freed, and its memory holds `b`. -/
def Heap.free (h : Heap) (a : Addr) (b : NodeBytes) : Heap where
  next := Function.update h.next (.node a) b.next
  prev := Function.update h.prev (.node a) b.prev
  pid := Function.update h.pid (.node a) b.pid
  memoryLimit := Function.update h.memoryLimit (.node a) b.memoryLimit
  nodes := h.nodes.erase a

/-! ### The state -/

inductive Locking where
  | lock
  | unlock
  deriving DecidableEq, Repr

/-- Allocation and release of a temporary buffer. -/
inductive BufferEvent where
  | kmalloc (a : Addr)
  | kfree (a : Addr)
  deriving DecidableEq, Repr

/-- The state of the syscalls. The last three fields are the record of the call that runs: what
it did to the mutex and to buffers, and what its accesses to nodes yielded. -/
structure Memory (Signal : Type) where
  heap : Heap
  rlimitAs : Signal → Rlimit
  mutex : Bool
  /-- The usage count of every `task_struct`. -/
  refs : Addr → ℕ
  buffers : Finset Addr
  lockings : List Locking
  bufferEvents : List BufferEvent
  accesses : List (Option Value)

/-- Code that runs on this state. It may never return: a loop may go on for ever, and a mutex that
is held may never be released. -/
abbrev Exec (Signal : Type) := StateT (Memory Signal) Option

/-- An allocator answers with an address that is not in use, and leaves what it likes in the nodes
that are freed. -/
structure Allocator where
  choose : Finset Addr → Addr
  choose_not_mem : ∀ used, choose used ∉ used
  freed : Heap → Addr → NodeBytes

/-- `kfree` does not touch the two links of a node, nor is its memory used for something else right
away. -/
def Allocator.KeepsLinks (allocator : Allocator) : Prop :=
  ∀ h a, (allocator.freed h a).next = h.next (.node a) ∧
    (allocator.freed h a).prev = h.prev (.node a)

section Primitives

variable {Signal : Type}

/-- The heap changes and some accesses are recorded. -/
def Memory.touch (m : Memory Signal) (h : Heap) (seen : List (Option Value)) : Memory Signal :=
  { m with heap := h, accesses := m.accesses ++ seen }

def readPid (temp : Link) : Exec Signal PidT := fun m =>
  some (m.heap.pid temp, m.touch m.heap [m.heap.nodeField temp (.pid (m.heap.pid temp))])

def readMemoryLimit (temp : Link) : Exec Signal SizeT := fun m =>
  some (m.heap.memoryLimit temp,
    m.touch m.heap [m.heap.nodeField temp (.memoryLimit (m.heap.memoryLimit temp))])

def writePid (temp : Link) (p : PidT) : Exec Signal Unit := fun m =>
  some ((), m.touch { m.heap with pid := Function.update m.heap.pid temp p }
    [m.heap.nodeField temp (.pid p)])

def writeMemoryLimit (temp : Link) (L : SizeT) : Exec Signal Unit := fun m =>
  some ((), m.touch { m.heap with memoryLimit := Function.update m.heap.memoryLimit temp L }
    [m.heap.nodeField temp (.memoryLimit L)])

def readNext (l : Link) : Exec Signal Link := fun m =>
  some (m.heap.next l, m.touch m.heap [m.heap.linkField l (.link (m.heap.next l))])

def readPrev (l : Link) : Exec Signal Link := fun m =>
  some (m.heap.prev l, m.touch m.heap [m.heap.linkField l (.link (m.heap.prev l))])

def writeNext (l v : Link) : Exec Signal Unit := fun m =>
  some ((), m.touch { m.heap with toLinks := m.heap.setNext l v } [m.heap.linkField l (.link v)])

def writePrev (l v : Link) : Exec Signal Unit := fun m =>
  some ((), m.touch { m.heap with toLinks := m.heap.setPrev l v } [m.heap.linkField l (.link v)])

/-- `kmalloc` of a node; what it holds is whatever was there. -/
def kmallocNode (succeeds : Bool) (allocator : Allocator) : Exec Signal (Option Addr) := fun m =>
  if succeeds = false then some (none, m)
  else
    let a := allocator.choose (m.heap.nodes ∪ m.buffers)
    some (some a, { m with heap := { m.heap with nodes := insert a m.heap.nodes } })

/-- `kfree` of a node. -/
def kfreeNode (allocator : Allocator) (temp : Link) : Exec Signal Unit := fun m =>
  match temp with
  | .node a => some ((), { m with heap := m.heap.free a (allocator.freed m.heap a) })
  | _       => some ((), m)

/-- `kmalloc_array`. -/
def kmallocArray (succeeds : Bool) (allocator : Allocator) : Exec Signal (Option Addr) := fun m =>
  if succeeds = false then some (none, m)
  else
    let a := allocator.choose (m.heap.nodes ∪ m.buffers)
    some (some a, { m with
      buffers := insert a m.buffers
      bufferEvents := m.bufferEvents ++ [.kmalloc a] })

/-- `kfree` of a buffer. -/
def kfreeBuffer (a : Addr) : Exec Signal Unit := fun m =>
  some ((), { m with
    buffers := m.buffers.erase a
    bufferEvents := m.bufferEvents ++ [.kfree a] })

/-- `mutex_lock`. With one call after the other, nobody releases a mutex that is held. -/
def mutexLock : Exec Signal Unit := fun m =>
  if m.mutex then none
  else some ((), { m with mutex := true, lockings := m.lockings ++ [.lock] })

def mutexUnlock : Exec Signal Unit := fun m =>
  some ((), { m with mutex := false, lockings := m.lockings ++ [.unlock] })

def getTaskStruct (task : Addr) : Exec Signal Unit := fun m =>
  some ((), { m with refs := Function.update m.refs task (m.refs task + 1) })

def putTaskStruct (task : Addr) : Exec Signal Unit := fun m =>
  some ((), { m with refs := Function.update m.refs task (m.refs task - 1) })

/-- `task->signal->rlim[RLIMIT_AS] = rl`. -/
def setRlimit [DecidableEq Signal] (signal : Signal) (rl : Rlimit) : Exec Signal Unit := fun m =>
  some ((), { m with rlimitAs := Function.update m.rlimitAs signal rl })

end Primitives

/-! ### `linux/list.h` -/

section Lists

variable {Signal : Type}

/-- `INIT_LIST_HEAD`. -/
def initListHead (list : Link) : Exec Signal Unit := do
  writeNext list list
  writePrev list list

/-- `list_add_tail`. -/
def listAddTail (new list : Link) : Exec Signal Unit := do
  let prev ← readPrev list
  writePrev list new
  writeNext new list
  writePrev new prev
  writeNext prev new

/-- `list_del`. -/
def listDel (entry : Link) : Exec Signal Unit := do
  let prev ← readPrev entry
  let next ← readNext entry
  writePrev next prev
  writeNext prev next
  writeNext entry .poison1
  writePrev entry .poison2

/-- `list_for_each_entry` over `memory_limit_list`, left at the first node with the pid; `none` if
the cursor comes back to the head. -/
def searchFrom (processPid : PidT) : ℕ → Link → Exec Signal (Option Link)
  | 0,        _    => fun _ => none
  | fuel + 1, temp =>
    if temp = .head then pure none
    else do
      let pid ← readPid temp
      if pid = processPid then pure (some temp)
      else do
        let next ← readNext temp
        searchFrom processPid fuel next

/-- Where the loop of get ends: its cursor, the count, and the records in the buffer. -/
structure Filled where
  temp : Link
  count : Int32
  kBuffer : List MemoryLimitation

/-- `list_for_each_entry` of get, which copies nodes to the buffer until it is full. -/
def fillFrom (maxEntries : SizeT) :
    ℕ → Link → Int32 → List MemoryLimitation → Exec Signal Filled
  | 0,        _,    _,     _       => fun _ => none
  | fuel + 1, temp, count, kBuffer =>
    if temp = .head then pure ⟨temp, count, kBuffer⟩
    else if toSizeT count ≥ maxEntries then pure ⟨temp, count, kBuffer⟩
    else do
      let pid ← readPid temp
      let memoryLimit ← readMemoryLimit temp
      let next ← readNext temp
      fillFrom maxEntries fuel next (count + 1) (kBuffer ++ [⟨pid, memoryLimit⟩])

/-- The cursor at the start of a loop, and a bound for its steps: a ring through allocated nodes is
closed after so many. A walk along links that are no ring is given up there. -/
def listFirst : Exec Signal (Link × ℕ) := do
  let m ← get
  let first ← readNext .head
  pure (first, m.heap.nodes.card + 1)

/-- The search loop of add, update and remove. -/
def search (processPid : PidT) : Exec Signal (Option Link) := do
  let (first, fuel) ← listFirst
  searchFrom processPid fuel first

/-- The loop of get. -/
def fill (maxEntries : SizeT) : Exec Signal Filled := do
  let (first, fuel) ← listFirst
  fillFrom maxEntries fuel first 0 []

end Lists

end Taro.Pointer
