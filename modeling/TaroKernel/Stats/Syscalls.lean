import TaroKernel.UserMemory

/-!
# Memory statistics

The syscalls of `kernel/usac/taro_estadisticas_ind.c` and `kernel/usac/taro_estadisticas_tod.c`.
The first reports one record per process, of one process or of all that have an address space; the
second adds all of them up. Both walk the same list of processes, `for_each_process`.

The process list is what a call finds under `rcu_read_lock`; whatever else is asked about a
process, `oom_badness` included, is answered by a field of it.
-/

namespace Taro.Stats

open Bytes

def ENOSPC : Int := 28

def PAGE_SIZE : UInt64 := 4096

/-- The part of `struct mm_struct` that is read: the mapped pages, and `rss_stat`, the three
counters of resident pages. -/
structure MmStruct extends Taro.MmStruct where
  filePages : Int64
  anonPages : Int64
  shmemPages : Int64
  deriving DecidableEq, Repr

/-- The part of `struct task_struct` that is read. `kthread` is its `PF_KTHREAD` flag, `oomBadness`
what `oom_badness` says about it. -/
structure Process where
  pid : PidT
  kthread : Bool
  mm : Option MmStruct
  oomBadness : Int64
  oomScoreAdj : Int16
  deriving DecidableEq, Repr

/-- The processes of the system as `for_each_process` walks them, and the task a number denotes in a
PID namespace (not only the processes of the list have numbers, their threads have too). In the
initial namespace a process has the number `task->pid`. -/
structure ProcessTable (Ns : Type*) where
  processes : List Process
  findTaskByVpid : Ns → PidT → Option Process
  initNs : Ns
  pos : ∀ task ∈ processes, 0 < task.pid
  nodup : (processes.map Process.pid).Nodup
  find_init : ∀ task ∈ processes, findTaskByVpid initNs task.pid = some task

/-- `get_mm_counter`: a per-CPU counter is read as 0 while it is negative. -/
def getMmCounter (rssStat : Int64) : UInt64 := if 0 ≤ rssStat then rssStat.toUInt64 else 0

/-- `get_mm_rss`. -/
def getMmRss (mm : MmStruct) : UInt64 :=
  getMmCounter mm.filePages + getMmCounter mm.anonPages + getMmCounter mm.shmemPages

/-- `get_task_mm`: unlike `task->mm` it does not give out what a kernel thread has borrowed. -/
def getTaskMm (task : Process) : Option MmStruct := if task.kthread then none else task.mm

/-! ### Individual statistics -/

/-- What `struct process_mem_stats` says of a process. -/
structure ProcessMemStats where
  pid : PidT
  reservedKb : UInt64
  committedKb : UInt64
  committedPct : UInt64
  oomScore : Int32
  deriving DecidableEq, Repr

/-- The score of a process. `oom_badness` returns a `long`, but `badness` is an `unsigned long`, so
that the product, the quotient and the comparisons are unsigned. -/
def oomScore (oomBadness : Int64) (oomScoreAdj : Int32) : Int32 :=
  let badness := oomBadness.toUInt64
  let badness := badness + badness * toSizeT oomScoreAdj / 1000
  (if badness > 1000 then 1000 else if badness < 0 then 0 else badness).toUInt32.toInt32

/-- What is computed of a process with an address space; both paths of the syscall have these lines,
one with the pid it was asked for and one with `task->pid`. -/
def statsOf (pid : PidT) (task : Process) (mm : MmStruct) : ProcessMemStats :=
  let reservedKb := mm.totalVm * PAGE_SIZE / 1024
  let committedKb := getMmRss mm * PAGE_SIZE / 1024
  { pid, reservedKb, committedKb,
    committedPct := if reservedKb > 0 then committedKb * 100 / reservedKb else 0
    oomScore := oomScore task.oomBadness task.oomScoreAdj.toInt32 }

/-- The fields of `struct process_mem_stats` as x86-64 lays it out. Four bytes after `pid` and four
after `oom_score` belong to no field. -/
def statsFields (s : ProcessMemStats) : List (ℕ × List UInt8) :=
  [(0, Code.i32.encode s.pid), (8, Code.u64.encode s.reservedKb),
    (16, Code.u64.encode s.committedKb), (24, Code.u64.encode s.committedPct),
    (32, Code.i32.encode s.oomScore)]

lemma packed_statsFields (s : ProcessMemStats) : Packed 0 40 (statsFields s) := by
  simp [statsFields, Packed]

/-- `struct process_mem_stats`, which the user programs declare alike. -/
def statsLayout : Layout ProcessMemStats where
  size := 40
  size_le := by decide
  fields := statsFields
  packed := packed_statsFields
  decode bs := ⟨Code.i32.field 0 bs, Code.u64.field 8 bs, Code.u64.field 16 bs,
    Code.u64.field 24 bs, Code.i32.field 32 bs⟩
  decode_assign m a s := by
    have hp := packed_statsFields s
    rw [Code.i32.field_assign (v := s.pid) m a hp (by decide) (by simp [statsFields]),
      Code.u64.field_assign (v := s.reservedKb) m a hp (by decide) (by simp [statsFields]),
      Code.u64.field_assign (v := s.committedKb) m a hp (by decide) (by simp [statsFields]),
      Code.u64.field_assign (v := s.committedPct) m a hp (by decide) (by simp [statsFields]),
      Code.i32.field_assign (v := s.oomScore) m a hp (by decide) (by simp [statsFields])]

/-- `sizeof(local_stats)`. -/
def statsSize : SizeT := 40

/-- `local_stats` with its fields assigned; `localStats` is what was on the stack. -/
def fillStats (localStats : UInt64 → UInt8) (s : ProcessMemStats) : UInt64 → UInt8 :=
  statsLayout.store localStats 0 s

/-- `copy_to_user(dst, &local_stats, sizeof(local_stats))`. -/
def copyStats (dst : UInt64) (localStats : UInt64 → UInt8) (rest : UInt64) : ℕ × Write UInt8 :=
  copyOut dst (read localStats 0 statsSize.toNat) rest

/-- The loop of `taro_ind_mem_stats` over all processes. `rest` are the answers to the copies still
to come. -/
def eachProcess (stats : UInt64) (statsLen : SizeT) :
    List Process → SizeT → (UInt64 → UInt8) → (ℕ → UInt64) → UserRet
  | [],            copied, _,          _    => ⟨copied.toInt64.toInt, []⟩
  | task :: tasks, copied, localStats, rest =>
    -- the space is checked before it is known whether there is anything to write
    if copied + statsSize > statsLen then ⟨-ENOSPC, []⟩
    else
      match task.mm with
      | none    => eachProcess stats statsLen tasks copied localStats rest
      | some mm =>
        let localStats := fillStats localStats (statsOf task.pid task mm)
        let copy := copyStats (stats + copied) localStats (rest 0)
        if copy.1 ≠ 0 then ⟨-EFAULT, [copy.2]⟩
        else
          let r := eachProcess stats statsLen tasks (copied + statsSize) localStats
            fun k => rest (k + 1)
          ⟨r.code, copy.2 :: r.writes⟩

/-- `taro_ind_mem_stats`, for a caller whose numbers `findTaskByVpid` resolves; `localStats` is what
was on the stack, `rest` answers the copies. -/
def taroIndMemStats (processes : List Process) (findTaskByVpid : PidT → Option Process)
    (pid : PidT) (stats : UInt64) (statsLen : SizeT) (localStats : UInt64 → UInt8)
    (rest : ℕ → UInt64) : UserRet :=
  if stats = 0 ∨ statsLen = 0 then ⟨-EINVAL, []⟩
  else if pid > 0 then
    match findTaskByVpid pid with
    | none      => ⟨-ESRCH, []⟩
    | some task =>
      match task.mm with
      | none    => ⟨-EFAULT, []⟩
      | some mm =>
        let copy := copyStats stats (fillStats localStats (statsOf pid task mm)) (rest 0)
        if copy.1 ≠ 0 then ⟨-EFAULT, [copy.2]⟩
        else ⟨statsSize.toInt64.toInt, [copy.2]⟩
  else eachProcess stats statsLen processes 0 localStats rest

/-! ### Totals -/

/-- `struct total_mem_stats`, in megabytes. -/
structure TotalMemStats where
  totalReservedMb : UInt64
  totalCommittedMb : UInt64
  deriving DecidableEq, Repr

/-- The loop of `taro_tod_mem_stats`. -/
def sumTotals : List Process → TotalMemStats → TotalMemStats
  | [],            localTotals => localTotals
  | task :: tasks, localTotals =>
    match getTaskMm task with
    | none    => sumTotals tasks localTotals
    | some mm =>
      sumTotals tasks
        ⟨localTotals.totalReservedMb + mm.totalVm * PAGE_SIZE / (1024 * 1024),
          localTotals.totalCommittedMb + getMmRss mm * PAGE_SIZE / (1024 * 1024)⟩

def totalsFields (t : TotalMemStats) : List (ℕ × List UInt8) :=
  [(0, Code.u64.encode t.totalReservedMb), (8, Code.u64.encode t.totalCommittedMb)]

lemma packed_totalsFields (t : TotalMemStats) : Packed 0 16 (totalsFields t) := by
  simp [totalsFields, Packed]

/-- `struct total_mem_stats`. -/
def totalsLayout : Layout TotalMemStats where
  size := 16
  size_le := two_words_le
  fields := totalsFields
  packed := packed_totalsFields
  decode bs := ⟨Code.u64.field 0 bs, Code.u64.field 8 bs⟩
  decode_assign m a t := by
    have hp := packed_totalsFields t
    rw [Code.u64.field_assign (v := t.totalReservedMb) m a hp (by decide) (by simp [totalsFields]),
      Code.u64.field_assign (v := t.totalCommittedMb) m a hp (by decide) (by simp [totalsFields])]

/-- `taro_tod_mem_stats`; `accessOk` answers `access_ok`, `rest` the copy. -/
def taroTodMemStats (processes : List Process) (totals : UInt64) (accessOk : Bool)
    (rest : UInt64) : UserRet :=
  if totals = 0 then ⟨-EINVAL, []⟩
  else if accessOk = false then ⟨-EFAULT, []⟩
  else
    let localTotals := totalsLayout.store (fun _ => 0) 0 (sumTotals processes ⟨0, 0⟩)
    let copy := copyOut totals (read localTotals 0 16) rest
    if copy.1 ≠ 0 then ⟨-EFAULT, [copy.2]⟩ else ⟨0, [copy.2]⟩

/-! ### Three processes -/

def systemd : Process := ⟨1, false, some ⟨⟨2048⟩, 1024, 512, 0⟩, 0, 0⟩

def kthreadd : Process := ⟨2, true, none, 0, 0⟩

def shell : Process := ⟨7, false, some ⟨⟨512⟩, 256, 0, 0⟩, 10, 0⟩

end Taro.Stats
