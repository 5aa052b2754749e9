import Mathlib.Data.Finset.Insert
import Mathlib.Data.Fintype.Defs
import TaroKernel.Lib.Machine

/-!
# The CPU module

`Modulos/CPU/cpu.c`: a read of `/proc/cpu_so2_201602404` adds up the times of all CPUs, prints which
part of the time since the read before was not idle, and keeps the sums for the next read in two
static variables. These are zero at first, and as long as one of them is, nothing is computed.
-/

namespace Taro.Cpu

/-- The entries of `cpustat` that are read. -/
inductive CpuUsageStat where
  | user
  | nice
  | system
  | idle
  | iowait
  | irq
  | softirq
  | steal
  | guest
  | guestNice
  deriving DecidableEq, Repr

instance : Fintype CpuUsageStat where
  elems := {.user, .nice, .system, .idle, .iowait, .irq, .softirq, .steal, .guest, .guestNice}
  complete x := by cases x <;> decide

/-- `struct kernel_cpustat`, the times of one CPU. -/
structure KernelCpustat where
  cpustat : CpuUsageStat → UInt64

/-- `total` and `idle`. -/
structure CpuTimes where
  total : UInt64
  idle : UInt64
  deriving DecidableEq, Repr

/-- The body of the loop of `get_cpu_times`. -/
def addCpu (t : CpuTimes) (kcs : KernelCpustat) : CpuTimes :=
  let user := kcs.cpustat .user
  let nice := kcs.cpustat .nice
  let system := kcs.cpustat .system
  let idleTime := kcs.cpustat .idle
  let iowait := kcs.cpustat .iowait
  let irq := kcs.cpustat .irq
  let softirq := kcs.cpustat .softirq
  let steal := kcs.cpustat .steal
  let guest := kcs.cpustat .guest
  let guestNice := kcs.cpustat .guestNice
  let totalCpu := user + nice + system + idleTime + iowait + irq + softirq + steal + guest +
    guestNice
  ⟨t.total + totalCpu, t.idle + idleTime⟩

/-- `get_cpu_times`, over the CPUs that `for_each_possible_cpu` gives. -/
def getCpuTimes (cpus : List KernelCpustat) : CpuTimes := cpus.foldl addCpu ⟨0, 0⟩

/-- Division in C: there is no result for the divisor 0. -/
def divide (x y : UInt64) : Option UInt64 := if y = 0 then none else some (x / y)

/-- What is assigned to `usage`, as an `unsigned long long`; `prev` are the sums of the read
before. -/
def computeUsage (prev now : CpuTimes) : Option UInt64 :=
  if prev.total ≠ 0 ∧ prev.idle ≠ 0 then
    let deltaTotal := now.total - prev.total
    let deltaIdle := now.idle - prev.idle
    if deltaTotal > 0 then divide (10000 * (deltaTotal - deltaIdle)) deltaTotal
    else some 0
  else some 0

/-- The two numbers that are printed. -/
structure Printed where
  whole : UInt32
  hundredths : UInt32
  deriving DecidableEq, Repr

/-- `seq_printf`; `%02u` has two digits for a number below 100. -/
def Printed.text (p : Printed) : String :=
  "\x7b\n\"Uso del CPU\": " ++ toString p.whole.toNat ++ "." ++
    (if p.hundredths < 10 then "0" else "") ++ toString p.hundredths.toNat ++ "%\n\x7d\n"

/-- The usage a reader finds there, in hundredths of a percent. -/
def Printed.usage (p : Printed) : ℕ := 100 * p.whole.toNat + p.hundredths.toNat

/-- `escribir_a_proc`, on the static variables `prev_total` and `prev_idle`. A read that divides by
zero prints nothing and keeps them. -/
def escribirAProc (prev : CpuTimes) (cpus : List KernelCpustat) : Option Printed × CpuTimes :=
  let now := getCpuTimes cpus
  match computeUsage prev now with
  | none          => (none, prev)
  | some quotient =>
    let usage := quotient.toUInt32
    (some ⟨usage / 100, usage % 100⟩, now)

/-- The static variables when the module is loaded. -/
def boot : CpuTimes := ⟨0, 0⟩

example : Printed.text ⟨7, 5⟩ = "\x7b\n\"Uso del CPU\": 7.05%\n\x7d\n" := by decide

end Taro.Cpu
