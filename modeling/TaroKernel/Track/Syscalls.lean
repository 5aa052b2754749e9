import Mathlib.Logic.Function.Basic
import TaroKernel.UserMemory

/-!
# Tracking of syscalls

`kernel/usac/track_syscalls.c` counts the calls of `read`, `write`, `open` and `close`, whose entry
points in `fs/read_write.c` and `fs/open.c` start with `track_syscall`. The counters are allocated
by the first reader, `track_syscall_usage`; until then nothing is counted.
-/

namespace Taro.Track

open Bytes

/-- `struct timespec64`. -/
structure Timespec64 where
  tvSec : Int64
  tvNsec : Int64
  deriving DecidableEq, Repr

structure SyscallUsage where
  count : UInt64
  timeLastUsed : Timespec64
  deriving DecidableEq, Repr

/-- `struct syscall_usage`, as the user programs declare it too. -/
def usageLayout : Layout SyscallUsage where
  size := 24
  size_le := by decide
  fields v := [(0, Code.u64.encode v.count), (8, Code.i64.encode v.timeLastUsed.tvSec),
    (16, Code.i64.encode v.timeLastUsed.tvNsec)]
  packed v := by simp [Packed]
  decode bs := ⟨Code.u64.field 0 bs, Code.i64.field 8 bs, Code.i64.field 16 bs⟩
  decode_assign m a v := by
    have hp : Packed 0 24 [(0, Code.u64.encode v.count), (8, Code.i64.encode v.timeLastUsed.tvSec),
        (16, Code.i64.encode v.timeLastUsed.tvNsec)] := by simp [Packed]
    rw [Code.u64.field_assign (v := v.count) m a hp (by decide) (by simp),
      Code.i64.field_assign (v := v.timeLastUsed.tvSec) m a hp (by decide) (by simp),
      Code.i64.field_assign (v := v.timeLastUsed.tvNsec) m a hp (by decide) (by simp)]

def MAX_SYS_CALLS : Int32 := 4

/-- What `syscall_counters` points to, by the `int` it is indexed with. The array has the slots from
0 to 3; `track_syscall` does not ask whether an id is negative. -/
abbrev Counters := Int32 → SyscallUsage

/-- `kzalloc` returns zeros. -/
def zeroed : Counters := fun _ => ⟨0, ⟨0, 0⟩⟩

/-- `init_syscall_counters`: the new value of `syscall_counters`. The function returns `-ENOMEM` if
it is `NULL` and 0 if not. -/
def initSyscallCounters (kzalloc : Bool) : Option Counters := if kzalloc then some zeroed else none

/-- `track_syscall`; `now` is the answer of `ktime_get_real_ts64`. -/
def trackSyscall (syscallCounters : Option Counters) (syscallId : Int32) (now : Timespec64) :
    Option Counters :=
  match syscallCounters with
  | none          => none
  | some counters =>
    if syscallId ≥ MAX_SYS_CALLS then some counters
    else
      let counters := Function.update counters syscallId
        { counters syscallId with count := (counters syscallId).count + 1 }
      some (Function.update counters syscallId { counters syscallId with timeLastUsed := now })

/-- The bytes of the array. -/
def counterBytes (counters : Counters) : List UInt8 :=
  read (usageLayout.storeArray (fun _ => 0) 0 (fun i => counters (Int32.ofNat i)) 4) 0 96

/-- The copy at the end of `track_syscall_usage`. What it leaves out fits the `int` it is assigned
to. -/
def copyCounters (counters : Counters) (statistics rest : UInt64) : UserRet :=
  let resultadoCopia := copyOut statistics (counterBytes counters) rest
  if resultadoCopia.1 ≠ 0 then ⟨-EFAULT, [resultadoCopia.2]⟩ else ⟨0, [resultadoCopia.2]⟩

/-- `track_syscall_usage`, with the answers of `kzalloc` and `copy_to_user`. -/
def trackSyscallUsage (syscallCounters : Option Counters) (statistics : UInt64) (kzalloc : Bool)
    (rest : UInt64) : UserRet × Option Counters :=
  match syscallCounters with
  | some counters => (copyCounters counters statistics rest, some counters)
  | none          =>
    match initSyscallCounters kzalloc with
    | none          => (⟨-ENOMEM, []⟩, none)
    | some counters => (copyCounters counters statistics rest, some counters)

/-! ### The entry points -/

/-- `__NR_read` and the others, as `asm/unistd.h` numbers them on x86-64. -/
def NR_read : Int32 := 0
def NR_write : Int32 := 1
def NR_open : Int32 := 2
def NR_close : Int32 := 3

/-- What `SYSCALL_DEFINE3(read, ...)` does to the counters; the file operations after it do not
touch them. -/
def sysRead (syscallCounters : Option Counters) (now : Timespec64) : Option Counters :=
  trackSyscall syscallCounters NR_read now

def sysWrite (syscallCounters : Option Counters) (now : Timespec64) : Option Counters :=
  trackSyscall syscallCounters NR_write now

def sysOpen (syscallCounters : Option Counters) (now : Timespec64) : Option Counters :=
  trackSyscall syscallCounters NR_open now

def sysClose (syscallCounters : Option Counters) (now : Timespec64) : Option Counters :=
  trackSyscall syscallCounters NR_close now

/-- The tracked syscalls. -/
inductive Entry where
  | sysRead
  | sysWrite
  | sysOpen
  | sysClose
  deriving DecidableEq, Repr

def Entry.nr : Entry → Int32
  | .sysRead  => NR_read
  | .sysWrite => NR_write
  | .sysOpen  => NR_open
  | .sysClose => NR_close

def Entry.run : Entry → Option Counters → Timespec64 → Option Counters
  | .sysRead  => Track.sysRead
  | .sysWrite => Track.sysWrite
  | .sysOpen  => Track.sysOpen
  | .sysClose => Track.sysClose

lemma Entry.run_eq (k : Entry) (syscallCounters : Option Counters) (now : Timespec64) :
    k.run syscallCounters now = trackSyscall syscallCounters k.nr now := by
  cases k <;> rfl

lemma Entry.nr_lt (k : Entry) : ¬ k.nr ≥ MAX_SYS_CALLS := by
  cases k <;> decide

/-- A tracked syscall that finds counters adds one to its own and notes the time. -/
lemma trackSyscall_some (counters : Counters) (k : Entry) (now : Timespec64) :
    trackSyscall (some counters) k.nr now =
      some (Function.update counters k.nr ⟨(counters k.nr).count + 1, now⟩) := by
  simp [trackSyscall, k.nr_lt]

end Taro.Track
