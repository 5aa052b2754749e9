import TaroKernel.Lib.Mutex
import TaroKernel.Pointer.Syscalls

/-!
# The syscalls, access by access

The syscalls of `TaroKernel.Pointer.Syscalls` as code of threads that run at the same time. Every
access to a field, every allocation, every change of a reference count is an action of its own, and
so are `mutex_lock` and `mutex_unlock`; the lookup of the process happens when the call starts.
Run by one thread alone, the code does what the syscall does.
-/

namespace Taro.Pointer.Threads

open Mutex

variable {Signal : Type}

abbrev Prog (Signal : Type) := Mutex.Prog (Memory Signal)

/-! ### `linux/list.h` -/

/-- `INIT_LIST_HEAD`. -/
def initListHead (list : Link) : Prog Signal Unit := do
  .atomic (writeNext list list)
  .atomic (writePrev list list)

/-- `list_add_tail`. -/
def listAddTail (new list : Link) : Prog Signal Unit := do
  let prev ← .atomic (readPrev list)
  .atomic (writePrev list new)
  .atomic (writeNext new list)
  .atomic (writePrev new prev)
  .atomic (writeNext prev new)

/-- `list_del`. -/
def listDel (entry : Link) : Prog Signal Unit := do
  let prev ← .atomic (readPrev entry)
  let next ← .atomic (readNext entry)
  .atomic (writePrev next prev)
  .atomic (writeNext prev next)
  .atomic (writeNext entry .poison1)
  .atomic (writePrev entry .poison2)

/-- `list_for_each_entry` over `memory_limit_list`, left at the first node with the pid. -/
def searchFrom (processPid : PidT) : ℕ → Link → Prog Signal (Option Link)
  | 0,        _    => .act (fun _ => none) .ret
  | fuel + 1, temp =>
    if temp = .head then pure none
    else do
      let pid ← .atomic (readPid temp)
      if pid = processPid then pure (some temp)
      else do
        let next ← .atomic (readNext temp)
        searchFrom processPid fuel next

/-- `list_for_each_entry` of get. -/
def fillFrom (maxEntries : SizeT) :
    ℕ → Link → Int32 → List MemoryLimitation → Prog Signal Filled
  | 0,        _,    _,     _       => .act (fun _ => none) .ret
  | fuel + 1, temp, count, kBuffer =>
    if temp = .head then pure ⟨temp, count, kBuffer⟩
    else if toSizeT count ≥ maxEntries then pure ⟨temp, count, kBuffer⟩
    else do
      let pid ← .atomic (readPid temp)
      let memoryLimit ← .atomic (readMemoryLimit temp)
      let next ← .atomic (readNext temp)
      fillFrom maxEntries fuel next (count + 1) (kBuffer ++ [⟨pid, memoryLimit⟩])

/-- The search loop of add, update and remove. The bound for its steps is no access. -/
def search (processPid : PidT) : Prog Signal (Option Link) := do
  let (first, fuel) ← .atomic listFirst
  searchFrom processPid fuel first

/-- The loop of get. -/
def fill (maxEntries : SizeT) : Prog Signal Filled := do
  let (first, fuel) ← .atomic listFirst
  fillFrom maxEntries fuel first 0 []

/-! ### The calls -/

/-- What add does with a new node. -/
def linkEntry (entry : Link) (processPid : PidT) (memoryLimit : SizeT) : Prog Signal Unit := do
  .atomic (writePid entry processPid)
  .atomic (writeMemoryLimit entry memoryLimit)
  initListHead entry
  listAddTail entry .head

variable [DecidableEq Signal]

/-- `taro_add_memory_limit`. -/
def taroAddMemoryLimit (processPid : PidT) (memoryLimit : SizeT) (o : Outcomes Signal)
    (allocator : Allocator) : Prog Signal Int :=
  match beforeMutex processPid memoryLimit o with
  | .error code => pure code
  | .ok task    => do
    .acquire
    match ← search processPid with
    | some _ =>
      .release
      pure (-101)
    | none   =>
      match ← .atomic (kmallocNode o.kmalloc allocator) with
      | none   =>
        .release
        pure (-ENOMEM)
      | some a =>
        let entry := Link.node a
        linkEntry entry processPid memoryLimit
        .atomic (getTaskStruct task.addr)
        if o.securityTaskSetrlimit ≠ 0 then
          .atomic (kfreeNode allocator entry)
          listDel entry
          .atomic (putTaskStruct task.addr)
          .release
          pure (-EPERM)
        else
          .atomic (setRlimit task.signal (rlimitOf memoryLimit))
          .atomic (putTaskStruct task.addr)
          .release
          pure 0

/-- `taro_get_memory_limits`. The record of `k_buffer` is the caller's own, and so are the copies to
its memory. -/
def taroGetMemoryLimits (uProcessesBuffer : UInt64) (maxEntries : SizeT)
    (processesReturned : UInt64) (o : Outcomes Signal) (allocator : Allocator) :
    Prog Signal Ret :=
  if uProcessesBuffer = 0 ∨ processesReturned = 0 ∨ maxEntries ≤ 0 then pure ⟨-EINVAL, .nothing⟩
  else do
    match ← .atomic (kmallocArray o.kmalloc allocator) with
    | none         => pure ⟨-ENOMEM, .nothing⟩
    | some kBuffer =>
      .acquire
      let filled ← fill maxEntries
      .release
      if copyToUser (toSizeT filled.count * recordSize) o.copyBuffer ≠ 0 then
        .atomic (kfreeBuffer kBuffer)
        pure ⟨-EFAULT, .nothing⟩
      else if copyToUser 4 o.copyCount ≠ 0 then
        .atomic (kfreeBuffer kBuffer)
        pure ⟨-EFAULT, ⟨some filled.kBuffer, none⟩⟩
      else
        .atomic (kfreeBuffer kBuffer)
        -- the cursor is read once more, and the mutex is somebody else's by now
        let _ ← .atomic (readPid filled.temp)
        let _ ← .atomic (readMemoryLimit filled.temp)
        pure ⟨0, ⟨some filled.kBuffer, some filled.count⟩⟩

/-- `taro_update_memory_limit`. -/
def taroUpdateMemoryLimit (processPid : PidT) (memoryLimit : SizeT) (o : Outcomes Signal) :
    Prog Signal Int :=
  match beforeMutex processPid memoryLimit o with
  | .error code => pure code
  | .ok task    => do
    .acquire
    match ← search processPid with
    | none      =>
      .release
      pure (-102)
    | some temp =>
      if exceedsLimit task memoryLimit then
        .release
        pure (-100)
      else
        .atomic (writeMemoryLimit temp memoryLimit)
        .atomic (getTaskStruct task.addr)
        if o.securityTaskSetrlimit ≠ 0 then
          .atomic (putTaskStruct task.addr)
          .release
          pure (-EPERM)
        else
          .atomic (setRlimit task.signal (rlimitOf memoryLimit))
          .atomic (putTaskStruct task.addr)
          .release
          pure 0

/-- `taro_remove_memory_limit`. -/
def taroRemoveMemoryLimit (processPid : PidT) (allocator : Allocator) : Prog Signal Int :=
  if processPid ≤ 0 then pure (-EINVAL)
  else do
    .acquire
    match ← search processPid with
    | some temp =>
      listDel temp
      .atomic (kfreeNode allocator temp)
      .release
      pure 0
    | none      =>
      .release
      pure (-102)

/-- The code of a call. -/
def syscall (i : HeapCall Signal) : Prog Signal Ret :=
  match i.call with
  | .add p L => do
    let code ← taroAddMemoryLimit p L i.outcomes i.allocator
    pure ⟨code, .nothing⟩
  | .get u n c => taroGetMemoryLimits u n c i.outcomes i.allocator
  | .update p L => do
    let code ← taroUpdateMemoryLimit p L i.outcomes
    pure ⟨code, .nothing⟩
  | .remove p => do
    let code ← taroRemoveMemoryLimit p i.allocator
    pure ⟨code, .nothing⟩

/-! ### One thread alone -/

section Alone

variable {α : Type}

omit [DecidableEq Signal]

/-- Code that runs with nobody else around. -/
def alone (p : Prog Signal α) : Exec Signal α := p.exec mutexLock mutexUnlock

variable {β : Type} {f : α → Prog Signal β}

@[simp] lemma alone_ret (a : α) : alone (.ret a : Prog Signal α) = pure a := rfl

@[simp] lemma alone_act (x : Exec Signal β) (k : β → Prog Signal α) :
    alone (.act x k) = (do let b ← x; alone (k b)) := rfl

@[simp] lemma alone_lock (k : Prog Signal α) : alone (.lock k) = (do mutexLock; alone k) := rfl

@[simp] lemma alone_unlock (k : Prog Signal α) :
    alone (.unlock k) = (do mutexUnlock; alone k) := rfl

@[simp] lemma alone_bind (p : Prog Signal α) :
    alone (p >>= f) = (do let a ← alone p; alone (f a)) := exec_bind ..

@[simp] lemma alone_atomic (x : Exec Signal α) : alone (.atomic x) = x := exec_atomic ..

@[simp] lemma alone_acquire : alone (.acquire : Prog Signal Unit) = mutexLock := exec_acquire ..

@[simp] lemma alone_release : alone (.release : Prog Signal Unit) = mutexUnlock := exec_release ..

@[simp] lemma alone_listAddTail (new list : Link) :
    alone (listAddTail new list : Prog Signal Unit) = Pointer.listAddTail new list := by
  simp [listAddTail, Pointer.listAddTail]

@[simp] lemma alone_listDel (entry : Link) :
    alone (listDel entry : Prog Signal Unit) = Pointer.listDel entry := by
  simp [listDel, Pointer.listDel]

@[simp] lemma alone_linkEntry (entry : Link) (p : PidT) (L : SizeT) :
    alone (linkEntry entry p L : Prog Signal Unit) = Pointer.linkEntry entry p L := by
  simp [linkEntry, Pointer.linkEntry, initListHead, Pointer.initListHead]

lemma alone_searchFrom (p : PidT) (fuel : ℕ) (temp : Link) :
    alone (searchFrom p fuel temp : Prog Signal (Option Link)) =
      Pointer.searchFrom p fuel temp := by
  induction fuel generalizing temp with
  | zero => rfl
  | succ fuel ih =>
    unfold searchFrom Pointer.searchFrom
    split_ifs
    · rfl
    · simp only [alone_bind, alone_atomic]
      congr 1
      funext pid
      split_ifs
      · rfl
      · simp [ih]

lemma alone_fillFrom (n : SizeT) (fuel : ℕ) (temp : Link) (count : Int32)
    (kBuffer : List MemoryLimitation) :
    alone (fillFrom n fuel temp count kBuffer : Prog Signal Filled) =
      Pointer.fillFrom n fuel temp count kBuffer := by
  induction fuel generalizing temp count kBuffer with
  | zero => rfl
  | succ fuel ih =>
    unfold fillFrom Pointer.fillFrom
    split_ifs
    · rfl
    · rfl
    · simp [ih]

@[simp] lemma alone_search (p : PidT) :
    alone (search p : Prog Signal (Option Link)) = Pointer.search p := by
  simp [search, Pointer.search, alone_searchFrom]

@[simp] lemma alone_fill (n : SizeT) :
    alone (fill n : Prog Signal Filled) = Pointer.fill n := by
  simp [fill, Pointer.fill, alone_fillFrom]

end Alone

lemma alone_add (p : PidT) (L : SizeT) (o : Outcomes Signal) (allocator : Allocator) :
    alone (taroAddMemoryLimit p L o allocator) =
      Pointer.taroAddMemoryLimit p L o allocator := by
  unfold taroAddMemoryLimit Pointer.taroAddMemoryLimit
  cases beforeMutex p L o with
  | error code => rfl
  | ok task =>
    simp only [alone_bind, alone_acquire, alone_search]
    refine bind_congr fun _ => bind_congr fun found => ?_
    cases found with
    | some temp => simp
    | none =>
      simp only [alone_bind, alone_atomic]
      refine bind_congr fun node => ?_
      cases node with
      | none => simp
      | some a => split_ifs <;> simp

omit [DecidableEq Signal] in
lemma alone_get (u : UInt64) (n : SizeT) (c : UInt64) (o : Outcomes Signal)
    (allocator : Allocator) :
    alone (taroGetMemoryLimits u n c o allocator) =
      Pointer.taroGetMemoryLimits u n c o allocator := by
  unfold taroGetMemoryLimits Pointer.taroGetMemoryLimits
  by_cases hargs : u = 0 ∨ c = 0 ∨ n ≤ 0
  · rw [if_pos hargs, if_pos hargs]
    rfl
  · rw [if_neg hargs, if_neg hargs]
    simp only [alone_bind, alone_atomic]
    refine bind_congr fun buffer => ?_
    cases buffer with
    | none => rfl
    | some kBuffer =>
      simp only [alone_bind, alone_acquire, alone_fill, alone_release]
      refine bind_congr fun _ => bind_congr fun filled => bind_congr fun _ => ?_
      split_ifs <;> simp

lemma alone_update (p : PidT) (L : SizeT) (o : Outcomes Signal) :
    alone (taroUpdateMemoryLimit p L o) = Pointer.taroUpdateMemoryLimit p L o := by
  unfold taroUpdateMemoryLimit Pointer.taroUpdateMemoryLimit
  cases beforeMutex p L o with
  | error code => rfl
  | ok task =>
    simp only [alone_bind, alone_acquire, alone_search]
    refine bind_congr fun _ => bind_congr fun found => ?_
    cases found with
    | none => simp
    | some temp => split_ifs <;> simp

omit [DecidableEq Signal] in
lemma alone_remove (p : PidT) (allocator : Allocator) :
    alone (taroRemoveMemoryLimit p allocator : Prog Signal Int) =
      Pointer.taroRemoveMemoryLimit p allocator := by
  unfold taroRemoveMemoryLimit Pointer.taroRemoveMemoryLimit
  split_ifs
  · rfl
  · simp only [alone_bind, alone_acquire, alone_search]
    refine bind_congr fun _ => bind_congr fun found => ?_
    cases found <;> simp

/-- Alone, the code of a call is the call. -/
theorem alone_syscall (i : HeapCall Signal) : alone (syscall i) = Pointer.syscall i := by
  obtain ⟨⟨c, o⟩, allocator⟩ := i
  cases c with
  | add p L => simp [syscall, Pointer.syscall, alone_add]
  | get u n c => exact alone_get u n c o allocator
  | update p L => simp [syscall, Pointer.syscall, alone_update]
  | remove p => simp [syscall, Pointer.syscall, alone_remove]

end Taro.Pointer.Threads
