import Mathlib.Algebra.BigOperators.Group.List.Basic
import Mathlib.Algebra.Order.BigOperators.Group.List
import Mathlib.Algebra.Order.Ring.Nat
import Mathlib.Data.UInt
import TaroKernel.Stats.Walk

/-!
# Totals against individual figures

`taro_tod_mem_stats` truncates the figures of each process to megabytes before it adds them up,
while `taro_ind_mem_stats` gives them in kilobytes. A page is four of these, so that a process loses
at most 1020 of them in the total.
-/

namespace Taro.Stats

open Bytes

/-- The address spaces `get_task_mm` gives out. -/
def mmsOf (processes : List Process) : List MmStruct := processes.filterMap getTaskMm

/-- No kernel thread uses the address space of a process. -/
def NoBorrowedMm (processes : List Process) : Prop :=
  ∀ task ∈ processes, task.kthread = true → task.mm = none

/-- No figure and no total is too large for an `unsigned long`. -/
structure NoOverflow (processes : List Process) : Prop where
  reserved_lt : ∀ mm ∈ mmsOf processes, mm.totalVm.toNat * 4096 < 2 ^ 64
  committed_lt : ∀ mm ∈ mmsOf processes, (getMmRss mm).toNat * 4096 < 2 ^ 64
  sum_reserved_lt :
    ((mmsOf processes).map fun mm => mm.totalVm.toNat * 4096 / (1024 * 1024)).sum < 2 ^ 64
  sum_committed_lt :
    ((mmsOf processes).map fun mm => (getMmRss mm).toNat * 4096 / (1024 * 1024)).sum < 2 ^ 64

/-! ### Units -/

def toMb (pages : UInt64) : UInt64 := pages * PAGE_SIZE / (1024 * 1024)

def toKb (pages : UInt64) : UInt64 := pages * PAGE_SIZE / 1024

section Units

variable {pages : UInt64}

lemma toNat_toMb (h : pages.toNat * 4096 < 2 ^ 64) :
    (toMb pages).toNat = pages.toNat * 4096 / (1024 * 1024) := by
  have hpage : PAGE_SIZE.toNat = 4096 := rfl
  have hmb : (1024 * 1024 : UInt64).toNat = 1024 * 1024 := rfl
  rw [toMb, UInt64.toNat_div, UInt64.toNat_mul, hpage, hmb, Nat.mod_eq_of_lt h]

lemma toNat_toKb (h : pages.toNat * 4096 < 2 ^ 64) : (toKb pages).toNat = 4 * pages.toNat := by
  have hpage : PAGE_SIZE.toNat = 4096 := rfl
  have hkb : (1024 : UInt64).toNat = 1024 := rfl
  rw [toKb, UInt64.toNat_div, UInt64.toNat_mul, hpage, hkb, Nat.mod_eq_of_lt h]
  omega

lemma toNat_sum {l : List UInt64} (h : (l.map UInt64.toNat).sum < 2 ^ 64) :
    l.sum.toNat = (l.map UInt64.toNat).sum := by
  induction l with
  | nil => rfl
  | cons x l ih =>
    rw [List.map_cons, List.sum_cons] at h ⊢
    rw [List.sum_cons, UInt64.toNat_add, ih (by omega), Nat.mod_eq_of_lt h]

end Units

/-- A total in megabytes falls short of the sum in kilobytes by at most 1020 for each of `n`
summands. -/
def WithinLoss (n : ℕ) (mb : UInt64) (kbs : List UInt64) : Prop :=
  1024 * mb.toNat ≤ (kbs.map UInt64.toNat).sum ∧
    (kbs.map UInt64.toNat).sum ≤ 1024 * mb.toNat + 1020 * n

section Sums

variable {α : Type*} {l : List α} {f : α → UInt64}

lemma toNat_sum_toMb (hl : ∀ x ∈ l, (f x).toNat * 4096 < 2 ^ 64)
    (hsum : (l.map fun x => (f x).toNat * 4096 / (1024 * 1024)).sum < 2 ^ 64) :
    (l.map fun x => toMb (f x)).sum.toNat =
      (l.map fun x => (f x).toNat * 4096 / (1024 * 1024)).sum := by
  have hmb : (l.map fun x => toMb (f x)).map UInt64.toNat =
      l.map fun x => (f x).toNat * 4096 / (1024 * 1024) := by
    rw [List.map_map]
    exact List.map_congr_left fun x hx => toNat_toMb (hl x hx)
  rw [toNat_sum (by rwa [hmb]), hmb]

lemma map_toNat_toKb (hl : ∀ x ∈ l, (f x).toNat * 4096 < 2 ^ 64) :
    (l.map fun x => toKb (f x)).map UInt64.toNat = l.map fun x => 4 * (f x).toNat := by
  rw [List.map_map]
  exact List.map_congr_left fun x hx => toNat_toKb (hl x hx)

/-- What one summand loses, and all of them together. -/
lemma sum_div_loss (l : List α) (f : α → ℕ) :
    1024 * (l.map fun x => f x * 4096 / (1024 * 1024)).sum ≤ (l.map fun x => 4 * f x).sum ∧
      (l.map fun x => 4 * f x).sum ≤
        1024 * (l.map fun x => f x * 4096 / (1024 * 1024)).sum + 1020 * l.length := by
  induction l with
  | nil => simp
  | cons x l ih =>
    simp only [List.map_cons, List.sum_cons, List.length_cons]
    omega

/-- Figures in both units, of the same pages. -/
lemma withinLoss_sum (hl : ∀ x ∈ l, (f x).toNat * 4096 < 2 ^ 64)
    (hsum : (l.map fun x => (f x).toNat * 4096 / (1024 * 1024)).sum < 2 ^ 64) :
    WithinLoss l.length (l.map fun x => toMb (f x)).sum (l.map fun x => toKb (f x)) := by
  rw [WithinLoss, toNat_sum_toMb hl hsum, map_toNat_toKb hl]
  exact sum_div_loss l fun x => (f x).toNat

end Sums

/-! ### The two walks -/

/-- The loop of the totals, without its accumulator. -/
lemma sumTotals_eq (processes : List Process) (t : TotalMemStats) :
    sumTotals processes t =
      ⟨t.totalReservedMb + ((mmsOf processes).map fun mm => toMb mm.totalVm).sum,
        t.totalCommittedMb + ((mmsOf processes).map fun mm => toMb (getMmRss mm)).sum⟩ := by
  induction processes generalizing t with
  | nil => simp [sumTotals, mmsOf]
  | cons task tasks ih =>
    cases hmm : getTaskMm task with
    | none => simp [sumTotals, mmsOf, hmm, ih]
    | some mm => simp [sumTotals, mmsOf, hmm, ih, toMb, add_assoc]

lemma sumTotals_perm {processes processes' : List Process} (h : processes.Perm processes')
    (t : TotalMemStats) : sumTotals processes t = sumTotals processes' t := by
  have hmms : (mmsOf processes).Perm (mmsOf processes') := h.filterMap getTaskMm
  rw [sumTotals_eq, sumTotals_eq, (hmms.map _).sum_eq, (hmms.map _).sum_eq]

/-- If no kernel thread borrows, both syscalls report on the same address spaces. -/
lemma map_records {β : Type*} {processes : List Process} (h : NoBorrowedMm processes)
    (f : ProcessMemStats → β) (g : MmStruct → β)
    (hfg : ∀ pid task mm, f (statsOf pid task mm) = g mm) :
    (records processes).map f = (mmsOf processes).map g := by
  rw [records, mmsOf, List.map_filterMap, List.map_filterMap]
  apply List.filterMap_congr
  intro task htask
  have hmm : getTaskMm task = task.mm := by
    cases hk : task.kthread with
    | false => simp [getTaskMm, hk]
    | true => simp [getTaskMm, hk, h task htask hk]
  rw [hmm, Option.map_map]
  exact congrFun (congrArg _ (funext (hfg task.pid task))) task.mm

/-- A call that returns 0 has left the totals in user memory. -/
lemma load_totals {processes : List Process} {totals rest : UInt64} {accessOk : Bool}
    (h : (taroTodMemStats processes totals accessOk rest).code = 0) (m : UInt64 → UInt8) :
    totalsLayout.load ((taroTodMemStats processes totals accessOk rest).memory m) totals =
      sumTotals processes ⟨0, 0⟩ := by
  unfold taroTodMemStats at h ⊢
  split_ifs at h ⊢ with hnull haccess
  · exact absurd h (by decide)
  · exact absurd h (by decide)
  · dsimp only at h ⊢
    split_ifs at h ⊢ with hcopy
    · exact absurd h (show ¬ (-EFAULT = 0) by decide)
    · rw [UserRet.memory, copyOut_of_eq_zero (not_not.mp hcopy), replay_cons, replay_nil]
      exact totalsLayout.load_write_store m _ totals 0 _

/-- The records and the totals that a program finds in its memory after both syscalls, of the same
processes. -/
theorem totals_agree {processes : List Process} {pid : PidT} {stats totals rest' : UInt64}
    {statsLen : SizeT} {accessOk : Bool} (find : PidT → Option Process)
    (localStats : UInt64 → UInt8) (rest : ℕ → UInt64) (m m' : UInt64 → UInt8)
    (hborrow : NoBorrowedMm processes) (hover : NoOverflow processes) (hpid : pid ≤ 0)
    (hlen : 40 * (records processes).length ≤ statsLen.toNat)
    (hind : 0 ≤ (taroIndMemStats processes find pid stats statsLen localStats rest).code)
    (htod : (taroTodMemStats processes totals accessOk rest').code = 0) :
    let n := (records processes).length
    let written := statsLayout.loadArray
      ((taroIndMemStats processes find pid stats statsLen localStats rest).memory m) stats n
    let total := totalsLayout.load
      ((taroTodMemStats processes totals accessOk rest').memory m') totals
    WithinLoss n total.totalReservedMb (written.map ProcessMemStats.reservedKb) ∧
      WithinLoss n total.totalCommittedMb (written.map ProcessMemStats.committedKb) ∧
      (∀ processes', processes'.Perm processes →
        taroTodMemStats processes' totals accessOk rest' =
          taroTodMemStats processes totals accessOk rest') ∧
      ((∀ mm ∈ mmsOf processes, getMmRss mm ≤ mm.totalVm) →
        total.totalCommittedMb ≤ total.totalReservedMb) := by
  intro n written total
  have hargs : ¬ (stats = 0 ∨ statsLen = 0) := by
    intro hargs
    rw [taroIndMemStats, if_pos hargs] at hind
    exact absurd hind (by decide)
  have hwalk := walk_taroIndMemStats processes find localStats rest hargs hpid
  have hbound := statsLen.toNat_lt
  have hwritten : written = records processes :=
    (hwalk.records_of_code_nonneg hind (by omega)).1 m
  have htotal : total = ⟨((mmsOf processes).map fun mm => toMb mm.totalVm).sum,
      ((mmsOf processes).map fun mm => toMb (getMmRss mm)).sum⟩ := by
    simp only [total, load_totals htod m', sumTotals_eq, UInt64.zero_add]
  have hn : n = (mmsOf processes).length := by
    have h := congrArg List.length
      (map_records hborrow (fun _ => ()) (fun _ => ()) fun _ _ _ => rfl)
    rwa [List.length_map, List.length_map] at h
  -- both calls in terms of the `mm`s of the processes
  rw [hwritten, htotal, hn, map_records hborrow _ (fun mm => toKb mm.totalVm) fun _ _ _ => rfl,
    map_records hborrow _ (fun mm => toKb (getMmRss mm)) fun _ _ _ => rfl]
  refine ⟨withinLoss_sum hover.reserved_lt hover.sum_reserved_lt,
    withinLoss_sum hover.committed_lt hover.sum_committed_lt, fun processes' hperm => ?_,
    fun hrss => ?_⟩
  · rw [taroTodMemStats, sumTotals_perm hperm]
    rfl
  · rw [UInt64.le_iff_toNat_le, toNat_sum_toMb hover.reserved_lt hover.sum_reserved_lt,
      toNat_sum_toMb hover.committed_lt hover.sum_committed_lt]
    apply List.sum_le_sum
    intro mm hmm
    have hle := UInt64.le_iff_toNat_le.mp (hrss mm hmm)
    exact Nat.div_le_div_right (Nat.mul_le_mul_right 4096 hle)

/-- Two processes, and a kernel thread between them. -/
theorem totals_agree_two_processes :
    WithinLoss 2
      (totalsLayout.load ((taroTodMemStats [systemd, kthreadd, shell] 8192 true 0).memory
        fun _ => 0) 8192).totalReservedMb
      ((statsLayout.loadArray ((taroIndMemStats [systemd, kthreadd, shell] (fun _ => none) 0 4096 80
        (fun _ => 0) fun _ => 0).memory fun _ => 0) 4096 2).map ProcessMemStats.reservedKb) := by
  have hborrow : NoBorrowedMm [systemd, kthreadd, shell] := by
    rw [NoBorrowedMm]
    decide
  have hover : NoOverflow [systemd, kthreadd, shell] :=
    ⟨by decide, by decide, by decide, by decide⟩
  exact (totals_agree (fun _ => none) (fun _ => 0) (fun _ => 0) (fun _ => 0) (fun _ => 0) hborrow
    hover (by decide) (by decide) (by decide) (by decide)).1

end Taro.Stats
