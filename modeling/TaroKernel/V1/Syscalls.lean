import TaroKernel.Registry.Effects

/-!
# The first version of the registry

The four syscalls of `kernel/proyecto3/taro_mani_memv1.c`, over the chain that starts at
`memory_limit_head` as a sequence of entries. New entries go to the front, the limits are only
recorded and never installed, update and remove ask for `CAP_SYS_ADMIN`, and update compares the
pages of the process with the limit as if it were a number of pages too.
-/

namespace Taro.V1

open Keyed

variable {Signal : Type*}

/-- `taro_add_memory_limit`. -/
def taroAddMemoryLimit (memoryLimitHead : List MemoryLimitation) (processPid : PidT)
    (memoryLimit : SizeT) (o : Outcomes Signal) : Int × List MemoryLimitation :=
  if processPid < 0 ∨ memoryLimit ≤ 0 then (-EINVAL, memoryLimitHead)
  else
    match lookup MemoryLimitation.pid processPid memoryLimitHead with
    | some _ => (-101, memoryLimitHead)
    | none   =>
      if o.kmalloc = false then (-ENOMEM, memoryLimitHead)
      else (0, ⟨processPid, memoryLimit⟩ :: memoryLimitHead)

/-- The loop of `taro_get_memory_limits`. -/
def fillBuffer (maxEntries : SizeT) :
    List MemoryLimitation → Int32 → List MemoryLimitation → Int32 × List MemoryLimitation
  | [],                  count, kBuffer => (count, kBuffer)
  | currentNode :: rest, count, kBuffer =>
    if toSizeT count < maxEntries then
      fillBuffer maxEntries rest (count + 1) (kBuffer ++ [currentNode])
    else (count, kBuffer)

/-- The size of a `struct memory_limitation`. The buffer is made of whole nodes, `next` included,
though only the first two fields of each are filled in. -/
def nodeSize : SizeT := 24

/-- `taro_get_memory_limits`. -/
def taroGetMemoryLimits (memoryLimitHead : List MemoryLimitation) (uProcessesBuffer : UInt64)
    (maxEntries : SizeT) (processesReturned : UInt64) (o : Outcomes Signal) : Ret :=
  if uProcessesBuffer = 0 ∨ processesReturned = 0 ∨ maxEntries ≤ 0 then ⟨-EINVAL, .nothing⟩
  else if o.kmalloc = false then ⟨-ENOMEM, .nothing⟩
  else
    let filled := fillBuffer maxEntries memoryLimitHead 0 []
    let count := filled.1
    let kBuffer := filled.2
    if copyToUser (toSizeT count * nodeSize) o.copyBuffer ≠ 0 then ⟨-EFAULT, .nothing⟩
    else if copyToUser 4 o.copyCount ≠ 0 then ⟨-EFAULT, ⟨some kBuffer, none⟩⟩
    else ⟨0, ⟨some kBuffer, some count⟩⟩

/-- `task->mm && task->mm->total_vm > memory_limit`. -/
def exceedsLimit (task : TaskStruct Signal) (memoryLimit : SizeT) : Bool :=
  match task.mm with
  | none    => false
  | some mm => mm.totalVm > memoryLimit

/-- `taro_update_memory_limit`. The process is looked up once its entry is found. -/
def taroUpdateMemoryLimit (memoryLimitHead : List MemoryLimitation) (processPid : PidT)
    (memoryLimit : SizeT) (o : Outcomes Signal) : Int × List MemoryLimitation :=
  if processPid < 0 ∨ memoryLimit ≤ 0 then (-EINVAL, memoryLimitHead)
  else if o.capable = false then (-EPERM, memoryLimitHead)
  else
    match lookup MemoryLimitation.pid processPid memoryLimitHead with
    | none   => (-102, memoryLimitHead)
    | some _ =>
      match o.findTaskByVpid with
      | none      => (-ESRCH, memoryLimitHead)
      | some task =>
        if exceedsLimit task memoryLimit then (-100, memoryLimitHead)
        else (0, storeLimit processPid memoryLimit memoryLimitHead)

/-- `taro_remove_memory_limit`. -/
def taroRemoveMemoryLimit (memoryLimitHead : List MemoryLimitation) (processPid : PidT)
    (o : Outcomes Signal) : Int × List MemoryLimitation :=
  if processPid < 0 then (-EINVAL, memoryLimitHead)
  else if o.capable = false then (-EPERM, memoryLimitHead)
  else
    match lookup MemoryLimitation.pid processPid memoryLimitHead with
    | none             => (-102, memoryLimitHead)
    | some currentNode => (0, unlink MemoryLimitation.pid currentNode.pid memoryLimitHead)

/-- One call on the list, run from its start to its end. -/
def syscall (l : List MemoryLimitation) (i : Invocation Signal) : Ret × List MemoryLimitation :=
  match i.call with
  | .add p L =>
    let r := taroAddMemoryLimit l p L i.outcomes
    (⟨r.1, .nothing⟩, r.2)
  | .get u n c => (taroGetMemoryLimits l u n c i.outcomes, l)
  | .update p L =>
    let r := taroUpdateMemoryLimit l p L i.outcomes
    (⟨r.1, .nothing⟩, r.2)
  | .remove p =>
    let r := taroRemoveMemoryLimit l p i.outcomes
    (⟨r.1, .nothing⟩, r.2)

/-! ### Calls as decisions -/

/-- An edit, with new entries at the front. -/
def applyEdit (p : PidT) (l : List MemoryLimitation) : Edit → List MemoryLimitation
  | .append L => ⟨p, L⟩ :: l
  | e         => e.apply p l

/-- What a call returns and what becomes of its entry, when its pid is, or is not, registered. -/
def decision (i : Invocation Signal) (registered : Bool) : Int × Edit :=
  match i.call with
  | .add p L =>
    if p < 0 ∨ L ≤ 0 then (-EINVAL, .keep)
    else if registered then (-101, .keep)
    else if i.outcomes.kmalloc = false then (-ENOMEM, .keep)
    else (0, .append L)
  | .update p L =>
    if p < 0 ∨ L ≤ 0 then (-EINVAL, .keep)
    else if i.outcomes.capable = false then (-EPERM, .keep)
    else if registered = false then (-102, .keep)
    else
      match i.outcomes.findTaskByVpid with
      | none      => (-ESRCH, .keep)
      | some task => if exceedsLimit task L then (-100, .keep) else (0, .store L)
  | .remove p =>
    if p < 0 then (-EINVAL, .keep)
    else if i.outcomes.capable = false then (-EPERM, .keep)
    else if registered = false then (-102, .keep)
    else (0, .unlink)
  | .get .. => (0, .keep)

/-- A call about `p` acts on its decision. -/
theorem syscall_eq_decision {i : Invocation Signal} {p : PidT} (hp : i.call.target = some p)
    (l : List MemoryLimitation) :
    syscall l i = (⟨(decision i (p ∈ l.map MemoryLimitation.pid)).1, .nothing⟩,
      applyEdit p l (decision i (p ∈ l.map MemoryLimitation.pid)).2) := by
  obtain ⟨c, o⟩ := i
  -- the search of the loop answers whether the pid is registered
  cases hl : lookup MemoryLimitation.pid p l with
  | none =>
    rw [decide_eq_false (lookup_eq_none_iff.mp hl)]
    cases c with
    | get u n c => cases hp
    | add q L =>
      cases hp
      simp only [syscall, taroAddMemoryLimit, hl, decision, reduceIte, reduceCtorEq]
      split_ifs <;> rfl
    | update q L =>
      cases hp
      simp only [syscall, taroUpdateMemoryLimit, hl, decision, reduceIte]
      split_ifs <;> rfl
    | remove q =>
      cases hp
      simp only [syscall, taroRemoveMemoryLimit, hl, decision, reduceIte]
      split_ifs <;> rfl
  | some x =>
    rw [decide_eq_true (mem_keys_of_lookup hl)]
    cases c with
    | get u n c => cases hp
    | add q L =>
      cases hp
      simp only [syscall, taroAddMemoryLimit, hl, decision, reduceIte]
      split_ifs <;> rfl
    | update q L =>
      cases hp
      simp only [syscall, taroUpdateMemoryLimit, hl, decision, reduceIte, reduceCtorEq]
      cases o.findTaskByVpid with
      | none => split_ifs <;> rfl
      | some task =>
        dsimp only
        split_ifs <;> rfl
    | remove q =>
      cases hp
      simp only [syscall, taroRemoveMemoryLimit, hl, decision, key_of_lookup hl, reduceIte,
        reduceCtorEq]
      split_ifs <;> rfl

end Taro.V1
