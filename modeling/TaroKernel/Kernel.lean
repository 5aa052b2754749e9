import Mathlib.Algebra.Group.Int.Defs
import Mathlib.Algebra.Group.Nat.Defs
import Mathlib.Data.Finset.Card
import Mathlib.Data.Finset.Range

/-!
# What the memory-limit syscalls see of the kernel

The types and error numbers the syscalls of `kernel/usac/taro_mani_mem.c` work with, and the
answers they get from the rest of the kernel. `pid_t` is a 32-bit `int`, `size_t` and
`unsigned long` are 64-bit words, as on x86-64. A syscall returns a `long`; error numbers are
returned negated.

Whatever lies outside the file (the process table, the allocator, the security module, the pages
of the calling process) answers each call in a way the file cannot foresee. `Outcomes` collects
these answers for one call, and every result of the development is for all of them.
-/

namespace Taro

abbrev PidT := Int32

abbrev SizeT := UInt64

/-- There are `2 ^ 31` non-negative values of `pid_t`. -/
lemma length_le_of_nodup_pids {pids : List PidT} (hnd : pids.Nodup) (hpids : ∀ p ∈ pids, 0 ≤ p) :
    pids.length ≤ 2 ^ 31 := by
  have hinj : (pids.map fun p => p.toInt.toNat).Nodup := by
    apply List.Nodup.map_on _ hnd
    intro p hp q hq hpq
    have h₁ : 0 ≤ p.toInt := Int32.le_iff_toInt_le.mp (hpids p hp)
    have h₂ : 0 ≤ q.toInt := Int32.le_iff_toInt_le.mp (hpids q hq)
    exact Int32.toInt_inj.mp (by omega)
  have hsub : (pids.map fun p => p.toInt.toNat).toFinset ⊆ Finset.range (2 ^ 31) := by
    intro n hn
    rw [List.mem_toFinset] at hn
    obtain ⟨p, _, rfl⟩ := List.mem_map.mp hn
    have hlt := Int32.toInt_lt p
    exact Finset.mem_range.mpr (by omega)
  have hcard := Finset.card_le_card hsub
  rw [List.toFinset_card_of_nodup hinj, Finset.card_range] at hcard
  simpa using hcard

/-- An address of kernel memory. -/
abbrev Addr := ℕ

def EPERM : Int := 1
def ESRCH : Int := 3
def ENOMEM : Int := 12
def EFAULT : Int := 14
def EINVAL : Int := 22

def PAGE_SHIFT : UInt64 := 12

def INT_MAX : UInt64 := 2147483647

/-- An `int` where C expects a `size_t`: sign-extended, then read as unsigned. -/
def toSizeT (count : Int32) : SizeT := count.toInt64.toUInt64

/-- `struct rlimit`. -/
structure Rlimit where
  rlimCur : UInt64
  rlimMax : UInt64
  deriving DecidableEq, Repr

/-- The part of `struct mm_struct` that is read: the number of mapped pages. -/
structure MmStruct where
  totalVm : UInt64
  deriving DecidableEq, Repr

/-- A process as the process table knows it: where its `task_struct` is, and the `signal_struct` it
shares with its thread group. -/
structure Task (Signal : Type*) where
  addr : Addr
  signal : Signal
  deriving DecidableEq, Repr

/-- A `struct task_struct` as one call finds it: a task with the `mm` it has at that time (`none`
for a kernel thread). -/
structure TaskStruct (Signal : Type*) extends Task Signal where
  mm : Option MmStruct
  deriving DecidableEq, Repr

/-- A `memory_limitation_t` without its list links. -/
structure MemoryLimitation where
  pid : PidT
  memoryLimit : SizeT
  deriving DecidableEq, Repr

/-- The answers one call gets from the rest of the kernel, except for the process its pid denotes.
As in C, the LSM hook and the copies answer with a number that is zero when they went well:
`copyBuffer` and `copyCount` are the bytes the two `copy_to_user` calls of
`taro_get_memory_limits` left out. -/
structure Answers where
  /-- `capable(CAP_SYS_ADMIN)` of the caller; `taro_mani_mem.c` never asks for it. -/
  capable : Bool
  /-- Whether the one allocation of the call succeeds. -/
  kmalloc : Bool
  securityTaskSetrlimit : Int32
  copyBuffer : UInt64
  copyCount : UInt64
  deriving DecidableEq, Repr

/-- All answers one call gets from the rest of the kernel. -/
structure Outcomes (Signal : Type*) extends Answers where
  findTaskByVpid : Option (TaskStruct Signal)

/-- `copy_to_user` on `n` bytes returns the bytes it did not copy. `check_copy_size` refuses any
`n` above `INT_MAX`; below that the copy itself decides. -/
def copyToUser (n : UInt64) (rest : UInt64) : UInt64 :=
  if n ≤ INT_MAX then rest else n

end Taro
