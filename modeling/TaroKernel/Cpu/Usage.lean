import Mathlib.Algebra.BigOperators.Fin
import Mathlib.Algebra.Order.BigOperators.Group.Finset
import TaroKernel.Cpu.Read

/-!
# What the CPU module prints

The times of the CPUs only grow, while the words that hold them, their sums, the differences and the
product all wrap around. The differences are exact nevertheless as long as the times grow by less
than `2 ^ 64` between two reads. The product is not, but it only gets smaller when it wraps around,
so that what is printed never exceeds 100 percent.
-/

namespace Taro.Cpu

open Machine

/-! ### Times -/

/-- The times of `n` CPUs as they really are. -/
abbrev Counters (n : ℕ) := Fin n → CpuUsageStat → ℕ

/-- A CPU whose times are `f`, as its `cpustat` holds them. -/
def kernelCpustat (f : CpuUsageStat → ℕ) : KernelCpustat := ⟨fun x => .ofNat (f x)⟩

variable {n : ℕ}

/-- What `for_each_possible_cpu` meets. -/
def Counters.cpustats (c : Counters n) : List KernelCpustat :=
  List.ofFn fun cpu => kernelCpustat (c cpu)

def Counters.total (c : Counters n) : ℕ := ∑ cpu, ∑ x, c cpu x

def Counters.idle (c : Counters n) : ℕ := ∑ cpu, c cpu .idle

/-- The sums as words. -/
def Counters.times (c : Counters n) : CpuTimes := ⟨.ofNat c.total, .ofNat c.idle⟩

lemma addCpu_kernelCpustat (a b : ℕ) (f : CpuUsageStat → ℕ) :
    addCpu ⟨.ofNat a, .ofNat b⟩ (kernelCpustat f) =
      ⟨.ofNat (a + ∑ x, f x), .ofNat (b + f .idle)⟩ := by
  have hsum : ∑ x, f x = f .user + f .nice + f .system + f .idle + f .iowait + f .irq +
      f .softirq + f .steal + f .guest + f .guestNice := by
    simp [Finset.univ, Fintype.elems, add_assoc]
  simp [addCpu, kernelCpustat, hsum, UInt64.ofNat_add]

lemma foldl_addCpu (fs : List (CpuUsageStat → ℕ)) (a b : ℕ) :
    (fs.map kernelCpustat).foldl addCpu ⟨.ofNat a, .ofNat b⟩ =
      ⟨.ofNat (a + (fs.map fun f => ∑ x, f x).sum),
        .ofNat (b + (fs.map fun f => f .idle).sum)⟩ := by
  induction fs generalizing a b with
  | nil => simp
  | cons f fs ih =>
    rw [List.map_cons, List.foldl_cons, addCpu_kernelCpustat, ih]
    simp [add_assoc]

lemma getCpuTimes_cpustats (c : Counters n) : getCpuTimes c.cpustats = c.times := by
  have hfold := foldl_addCpu (List.ofFn c) 0 0
  simp only [List.map_ofFn, List.sum_ofFn, zero_add] at hfold
  exact hfold

/-! ### Between two reads -/

section Between

variable {c c' : Counters n}

/-- The time since `c` that was not idle. -/
def busy (c c' : Counters n) : ℕ := (c'.total - c.total) - (c'.idle - c.idle)

lemma total_le (hle : c ≤ c') : c.total ≤ c'.total :=
  Finset.sum_le_sum fun cpu _ => Finset.sum_le_sum fun x _ => hle cpu x

lemma idle_le (hle : c ≤ c') : c.idle ≤ c'.idle := Finset.sum_le_sum fun cpu _ => hle cpu .idle

lemma idle_le_total (c : Counters n) : c.idle ≤ c.total :=
  Finset.sum_le_sum fun _ _ =>
    Finset.single_le_sum (fun _ _ => Nat.zero_le _) (Finset.mem_univ CpuUsageStat.idle)

/-- Of one CPU, idle time grows by no more than the total. -/
lemma sum_add_idle_le {f g : CpuUsageStat → ℕ} (hle : f ≤ g) :
    ∑ x, f x + g .idle ≤ ∑ x, g x + f .idle := by
  rw [← Finset.add_sum_erase _ f (Finset.mem_univ CpuUsageStat.idle),
    ← Finset.add_sum_erase _ g (Finset.mem_univ CpuUsageStat.idle)]
  have hrest : ∑ x ∈ Finset.univ.erase CpuUsageStat.idle, f x ≤
      ∑ x ∈ Finset.univ.erase CpuUsageStat.idle, g x := Finset.sum_le_sum fun x _ => hle x
  omega

lemma idle_sub_le (hle : c ≤ c') : c'.idle - c.idle ≤ c'.total - c.total := by
  have hsum : c.total + c'.idle ≤ c'.total + c.idle := by
    simp only [Counters.total, Counters.idle, ← Finset.sum_add_distrib]
    exact Finset.sum_le_sum fun cpu _ => sum_add_idle_le (hle cpu)
  have := idle_le hle
  omega

lemma busy_le (c c' : Counters n) : busy c c' ≤ c'.total - c.total := Nat.sub_le _ _

/-- What is computed, as a number: the product of the busy time wraps around. -/
def wordUsage (c c' : Counters n) : ℕ :=
  if c.total % 2 ^ 64 = 0 ∨ c.idle % 2 ^ 64 = 0 then 0
  else 10000 * busy c c' % 2 ^ 64 / (c'.total - c.total)

lemma wordUsage_le (c c' : Counters n) : wordUsage c c' ≤ 10000 := by
  unfold wordUsage
  split_ifs
  · exact Nat.zero_le _
  · apply Nat.div_le_of_le_mul
    calc 10000 * busy c c' % 2 ^ 64 ≤ 10000 * busy c c' := Nat.mod_le _ _
      _ ≤ 10000 * (c'.total - c.total) := Nat.mul_le_mul_left _ (busy_le c c')
      _ = (c'.total - c.total) * 10000 := Nat.mul_comm _ _

/-- The times grow by less than `2 ^ 64` from one read to the next. -/
structure Grows (c c' : Counters n) : Prop where
  le : c ≤ c'
  lt : c'.total < c.total + 2 ^ 64

lemma ofNat_eq_zero_iff {a : ℕ} : UInt64.ofNat a = 0 ↔ a % 2 ^ 64 = 0 :=
  UInt64.ofNat_eq_iff_mod_eq_toNat a 0

/-- The differences are exact, whatever has wrapped around before. -/
lemma Grows.computeUsage_eq (h : Grows c c') :
    computeUsage c.times c'.times = some (.ofNat (wordUsage c c')) := by
  have hlt : c'.total - c.total < 2 ^ 64 := by
    have := h.lt
    omega
  have htotal : c'.times.total - c.times.total = .ofNat (c'.total - c.total) :=
    (UInt64.ofNat_sub (total_le h.le)).symm
  have hidle : c'.times.idle - c.times.idle = .ofNat (c'.idle - c.idle) :=
    (UInt64.ofNat_sub (idle_le h.le)).symm
  have hbusy : 10000 * (UInt64.ofNat (c'.total - c.total) - UInt64.ofNat (c'.idle - c.idle)) =
      .ofNat (10000 * busy c c' % 2 ^ 64) := by
    rw [← UInt64.ofNat_sub (idle_sub_le h.le), UInt64.ofNat_mod_size, UInt64.ofNat_mul]
    rfl
  have hzero : c.times.total ≠ 0 ∧ c.times.idle ≠ 0 ↔
      ¬ (c.total % 2 ^ 64 = 0 ∨ c.idle % 2 ^ 64 = 0) := by
    rw [not_or, ← ofNat_eq_zero_iff, ← ofNat_eq_zero_iff]
    rfl
  simp only [computeUsage, wordUsage, htotal, hidle, hbusy, hzero]
  by_cases hprev : c.total % 2 ^ 64 = 0 ∨ c.idle % 2 ^ 64 = 0
  · rw [if_neg (not_not.mpr hprev), if_pos hprev]
    rfl
  · rw [if_pos hprev, if_neg hprev]
    by_cases hsame : c'.total - c.total = 0
    · simp [hsame]
    · have hpos : UInt64.ofNat (c'.total - c.total) ≠ 0 := by
        rwa [ne_eq, ofNat_eq_zero_iff, Nat.mod_eq_of_lt hlt]
      rw [if_pos (UInt64.pos_iff_ne_zero.mpr hpos), divide, if_neg hpos,
        UInt64.ofNat_div (Nat.mod_lt _ (Nat.two_pow_pos 64)) hlt]

end Between

/-! ### Single reads -/

/-- How a usage is printed. -/
def printed (usage : ℕ) : Printed := ⟨.ofNat usage / 100, .ofNat usage % 100⟩

lemma usage_printed {usage : ℕ} (h : usage < 2 ^ 32) : (printed usage).usage = usage := by
  have hnat : (UInt32.ofNat usage).toNat = usage := UInt32.toNat_ofNat_of_lt' h
  simp only [Printed.usage, printed, UInt32.toNat_div, UInt32.toNat_mod, hnat]
  exact Nat.div_add_mod usage 100

variable {c c' : Counters n}

lemma escribirAProc_of_computeUsage {prev : CpuTimes} {usage : ℕ}
    (h : computeUsage prev c'.times = some (.ofNat usage)) :
    escribirAProc prev c'.cpustats = (some (printed usage), c'.times) := by
  simp only [escribirAProc, getCpuTimes_cpustats, h, UInt64.toUInt32_ofNat']
  rfl

/-- What a read of the times `c'` finds in the static variables: nothing yet, or the sums of a read
before. -/
def ReadBefore (prev : CpuTimes) (c' : Counters n) : Prop :=
  prev = boot ∨ ∃ c : Counters n, Grows c c' ∧ prev = c.times

lemma ReadBefore.read {prev : CpuTimes} (h : ReadBefore prev c') :
    ∃ usage ≤ 10000, computeUsage prev c'.times = some (.ofNat usage) ∧
      escribirAProc prev c'.cpustats = (some (printed usage), c'.times) := by
  rcases h with rfl | ⟨c, hgrows, rfl⟩
  · have hfirst : computeUsage boot c'.times = some (.ofNat 0) := rfl
    exact ⟨0, Nat.zero_le _, hfirst, escribirAProc_of_computeUsage hfirst⟩
  · exact ⟨wordUsage c c', wordUsage_le c c', hgrows.computeUsage_eq,
      escribirAProc_of_computeUsage hgrows.computeUsage_eq⟩

/-! ### Sequences of reads -/

/-- The static variables after reads of these times. -/
def afterReads (cs : List (Counters n)) : CpuTimes :=
  final escribirAProc boot (cs.map Counters.cpustats)

lemma afterReads_concat (cs : List (Counters n)) (c : Counters n) :
    afterReads (cs ++ [c]) = (escribirAProc (afterReads cs) c.cpustats).2 := by
  rw [afterReads, List.map_append, final_append]
  rfl

/-- Every read of a sequence finds the sums of the one before it. -/
lemma readBefore_afterReads {cs : List (Counters n)} (h : (cs ++ [c']).IsChain Grows) :
    ReadBefore (afterReads cs) c' := by
  induction cs using List.reverseRecOn generalizing c' with
  | nil => exact Or.inl rfl
  | append_singleton cs c ih =>
    obtain ⟨hcs, -, hlast⟩ := List.isChain_append.mp h
    obtain ⟨usage, -, -, hread⟩ := (ih hcs).read
    refine Or.inr ⟨c, hlast c (by simp) c' (by simp), ?_⟩
    rw [afterReads_concat, hread]

lemma afterReads_eq_times {cs : List (Counters n)} (h : (cs ++ [c]).IsChain Grows) :
    afterReads (cs ++ [c]) = c.times := by
  obtain ⟨usage, -, -, hread⟩ := (readBefore_afterReads h).read
  rw [afterReads_concat, hread]

/-- A read that divides by something, computes at most 100 percent, and prints all of it. -/
structure AtMostAll (st : Step CpuTimes (List KernelCpustat) (Option Printed)) (quotient : UInt64)
    (out : Printed) : Prop where
  computed : computeUsage st.pre (getCpuTimes st.input) = some quotient
  le : quotient ≤ 10000
  lossless : quotient.toUInt32.toNat = quotient.toNat
  output : st.output = some out
  usage : out.usage = quotient.toNat

/-- In every sequence of reads of times that grow by less than `2 ^ 64` from one read to the next,
every read prints at most 100 percent. -/
theorem reads_atMostAll (cs : List (Counters n)) (h : cs.IsChain Grows) :
    ∀ st ∈ steps escribirAProc boot (cs.map Counters.cpustats),
      ∃ quotient out, AtMostAll st quotient out := by
  intro st hst
  obtain ⟨is₁, is₂, hsplit, hstep⟩ := exists_split_of_mem_steps hst
  obtain ⟨cs₁, cs₂, rfl, rfl, hcs₂⟩ := List.map_eq_append_iff.mp hsplit
  obtain ⟨c, cs₂, rfl, hinput, -⟩ := List.map_eq_cons_iff.mp hcs₂
  have hchain : (cs₁ ++ [c]).IsChain Grows := by
    rw [List.append_cons] at h
    exact h.left_of_append
  obtain ⟨usage, hle, hcomputed, hread⟩ := (readBefore_afterReads hchain).read
  have hnat : (UInt64.ofNat usage).toNat = usage :=
    UInt64.toNat_ofNat_of_lt' (hle.trans_lt (by decide))
  rw [hstep, ← hinput]
  refine ⟨.ofNat usage, printed usage, ?_, ?_, ?_, ?_, ?_⟩
  · rw [stepAt_input, getCpuTimes_cpustats]
    exact hcomputed
  · rw [UInt64.le_iff_toNat_le, hnat]
    exact hle
  · rw [UInt64.toNat_toUInt32, hnat]
    exact Nat.mod_eq_of_lt (hle.trans_lt (by decide))
  · exact congrArg Prod.fst hread
  · rw [hnat]
    exact usage_printed (hle.trans_lt (by decide))

/-- One CPU that was in user mode and idle for so long. -/
def oneCpu (user idle : ℕ) : Counters 1 := fun _ x =>
  match x with
  | .user => user
  | .idle => idle
  | _     => 0

lemma oneCpu_le {user idle user' idle' : ℕ} (huser : user ≤ user') (hidle : idle ≤ idle') :
    oneCpu user idle ≤ oneCpu user' idle' := by
  intro cpu x
  cases x with
  | user => exact huser
  | idle => exact hidle
  | _ => exact Nat.le_refl 0

/-- Two reads, with the time in user mode wrapping around between them. -/
theorem wrapped_reads_atMostAll :
    ∃ st ∈ steps escribirAProc boot
        ([oneCpu (2 ^ 64 - 1) 7, oneCpu (2 ^ 64 + 2) 8].map Counters.cpustats),
      st.output = some ⟨75, 0⟩ ∧ ∃ quotient out, AtMostAll st quotient out := by
  have hgrows : [oneCpu (2 ^ 64 - 1) 7, oneCpu (2 ^ 64 + 2) 8].IsChain Grows :=
    List.isChain_pair.mpr ⟨oneCpu_le (by decide) (by decide), by decide⟩
  have hall := reads_atMostAll _ hgrows
  exact ⟨_, List.mem_cons_of_mem _ List.mem_cons_self, by decide,
    hall _ (List.mem_cons_of_mem _ List.mem_cons_self)⟩

end Taro.Cpu
