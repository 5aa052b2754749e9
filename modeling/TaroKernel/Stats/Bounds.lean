import TaroKernel.Stats.Walk

/-!
# How much space the statistics need and use

Over all processes the loop looks for room before it knows whether the process at hand has a record.
So a buffer that is exactly full when a process without an address space comes last is reported as
too small. For a single process the length of the buffer is not looked at any more once it is not
zero, and a record is written past the end of a shorter one.
-/

namespace Taro.Stats

open Bytes

variable {stats : UInt64} {statsLen copied : SizeT} {localStats : UInt64 → UInt8}
  {processes : List Process} {find : PidT → Option Process} {pid : PidT} {rest : ℕ → UInt64}
  {r : UserRet}

/-! ### The space that is needed -/

/-- The call returns all records if there is space for them, and `-ENOSPC` if not. -/
structure AllOrNoSpace (processes : List Process) (stats : UInt64) (statsLen : SizeT)
    (r : UserRet) : Prop where
  code_of_fits : 40 * (records processes).length ≤ statsLen.toNat →
    r.code = 40 * (records processes).length
  records_of_fits : 40 * (records processes).length ≤ statsLen.toNat →
    ∀ m, statsLayout.loadArray (r.memory m) stats (records processes).length = records processes
  writes_of_fits : 40 * (records processes).length ≤ statsLen.toNat →
    ∀ w ∈ r.writes, ∀ b, w.Touches b → Within stats (40 * (records processes).length) b
  code_of_not_fits : statsLen.toNat < 40 * (records processes).length → r.code = -ENOSPC

/-- The buffer has room for all records but not for one more, which the process at the end of the
list makes the loop look for though it has none. -/
def AsksForOneMore (processes : List Process) (statsLen : SizeT) : Prop :=
  EndsWithoutMm processes ∧ 40 * (records processes).length ≤ statsLen.toNat ∧
    statsLen.toNat < 40 * (records processes).length + 40

theorem taroIndMemStats_allOrNoSpace_iff (find : PidT → Option Process)
    (localStats : UInt64 → UInt8) (hstats : stats ≠ 0) (hlen : statsLen ≠ 0) (hpid : pid ≤ 0)
    (hrest : ∀ k, rest k = 0) (hsmall : 40 * ((records processes).length + 1) ≤ 2 ^ 63) :
    AllOrNoSpace processes stats statsLen
        (taroIndMemStats processes find pid stats statsLen localStats rest) ↔
      ¬ AsksForOneMore processes statsLen := by
  have hwalk := walk_taroIndMemStats processes find localStats rest (not_or_intro hstats hlen) hpid
  have hzero : (0 : SizeT).toNat = 0 := rfl
  have hcode := hwalk.code_cases hrest (UInt64.le_iff_toNat_le.mpr (Nat.zero_le _)) (by omega)
  rw [spaceAsked_eq, hzero] at hcode
  constructor
  · -- the loop stops at the last process, with an error and after the last record
    rintro h ⟨hends, hfits, hnext⟩
    rw [if_pos hends] at hcode
    have hk := h.code_of_fits hfits
    have hspace : (0 : ℤ) ≤ -ENOSPC := by omega
    exact absurd hspace (by decide)
  · intro hasks
    have hfull : 40 * (records processes).length ≤ statsLen.toNat →
        (taroIndMemStats processes find pid stats statsLen localStats rest).code =
          40 * (records processes).length := by
      intro hfits
      split_ifs at hcode with hends
      · have hroom : ¬ statsLen.toNat < 40 * (records processes).length + 40 :=
          fun hnext => hasks ⟨hends, hfits, hnext⟩
        omega
      · omega
    have hall := fun hfits => hwalk.records_of_code_nonneg (by rw [hfull hfits]; omega) (by omega)
    refine ⟨hfull, fun hfits => (hall hfits).1, fun hfits => (hall hfits).2, fun hfits => ?_⟩
    omega

/-- The record of the shell fits, and there is nothing to say about the thread after it. -/
theorem no_space_for_kthread : ¬ ∀ (processes : List Process) (find : PidT → Option Process)
    (pid : PidT) (stats : UInt64) (statsLen : SizeT) (localStats : UInt64 → UInt8)
    (rest : ℕ → UInt64), pid ≤ 0 → stats ≠ 0 → statsLen ≠ 0 → (∀ k, rest k = 0) →
      AllOrNoSpace processes stats statsLen
        (taroIndMemStats processes find pid stats statsLen localStats rest) := by
  intro h
  have hall := h [shell, kthreadd] (fun _ => none) 0 4096 40 (fun _ => 0) (fun _ => 0)
    (by decide) (by decide) (by decide) (fun _ => rfl)
  exact absurd (hall.code_of_fits (by decide)) (by decide)

/-- With the thread before the shell, the same buffer is enough. -/
theorem space_for_shell : AllOrNoSpace [kthreadd, shell] 4096 40
    (taroIndMemStats [kthreadd, shell] (fun _ => none) 0 4096 40 (fun _ => 0) fun _ => 0) := by
  refine (taroIndMemStats_allOrNoSpace_iff (fun _ => none) (fun _ => 0) (by decide) (by decide)
    (by decide) (fun _ => rfl) (by decide)).mpr ?_
  exact fun h => absurd h.1 (by decide)

/-! ### The space that is used -/

/-- A call that writes nothing outside the buffer, and does not say that it did. -/
structure InBounds (stats : UInt64) (statsLen : SizeT) (r : UserRet) : Prop where
  writes_within : ∀ w ∈ r.writes, ∀ b, w.Touches b → Within stats statsLen.toNat b
  code_le : 0 ≤ r.code → r.code ≤ statsLen.toNat

lemma inBounds_of_refused {c : Int} (hc : c < 0) : InBounds stats statsLen ⟨c, []⟩ :=
  ⟨fun _ hw => (List.not_mem_nil hw).elim, fun h => absurd hc (Int.not_lt.mpr h)⟩

/-- The returned `long` is never more than the `size_t`. -/
lemma toInt_toInt64_le (n : SizeT) : n.toInt64.toInt ≤ n.toNat := by
  have hbits : n.toInt64.toInt = n.toBitVec.toInt := rfl
  rw [hbits, BitVec.toInt_eq_toNat_cond]
  have hnat : n.toBitVec.toNat = n.toNat := rfl
  split_ifs
  · omega
  · omega

/-- The loop keeps to the buffer: it looks for the room of a record before each. -/
lemma Walk.inBounds (h : Walk stats statsLen localStats processes copied rest r)
    (hcopied : copied ≤ statsLen)
    (hsmall : copied.toNat + 40 * (records processes).length + 40 < 2 ^ 64) :
    InBounds stats statsLen r := by
  -- a part of a record at `copied`, when there is room for a whole one
  have hwrite : ∀ {copied : SizeT} {bs : List UInt8}, copied.toNat + 40 < 2 ^ 64 →
      copied + statsSize ≤ statsLen → bs.length ≤ 40 →
      ∀ b, (Write.mk (stats + copied) bs).Touches b → Within stats statsLen.toNat b := by
    intro copied bs hsmall hroom hbs b hb
    have hroom := UInt64.le_iff_toNat_le.mp hroom
    rw [toNat_add_statsSize hsmall] at hroom
    have haddr : stats + copied = stats + UInt64.ofNat copied.toNat := by rw [UInt64.ofNat_toNat]
    rw [Write.Touches, haddr, within_add_ofNat_iff stats (by simp only; omega)] at hb
    simp only at hb
    rw [Within]
    omega
  induction h with
  | done =>
    refine ⟨fun _ hw => (List.not_mem_nil hw).elim, fun _ => ?_⟩
    exact (toInt_toInt64_le _).trans (Int.ofNat_le.mpr (UInt64.le_iff_toNat_le.mp hcopied))
  | full h => exact inBounds_of_refused (by decide)
  | fault h hmm hrest =>
    refine ⟨fun w hw => ?_, fun hcode => absurd hcode (show ¬ (0 ≤ -EFAULT) by decide)⟩
    rw [List.mem_singleton.mp hw]
    exact hwrite (by omega) h (by simp)
  | skip h hmm hw ih =>
    rw [records_cons_none hmm] at hsmall
    exact ih hcopied hsmall
  | write h hmm hrest hw ih =>
    rw [records_cons_some hmm, List.length_cons] at hsmall
    have ih := ih h (by rw [toNat_add_statsSize (by omega)]; omega)
    refine ⟨fun w hw => ?_, ih.code_le⟩
    rcases List.mem_cons.mp hw with rfl | hw
    · exact hwrite (by omega) h (by simp)
    · exact ih.writes_within w hw

/-- One process is asked for and found, and more bytes of its record are copied than the buffer
has. -/
def Overruns (find : PidT → Option Process) (pid : PidT) (stats : UInt64) (statsLen : SizeT)
    (rest : ℕ → UInt64) : Prop :=
  ¬ (stats = 0 ∨ statsLen = 0) ∧ 0 < pid ∧
    (∃ task mm, find pid = some task ∧ task.mm = some mm) ∧
    statsLen.toNat < 40 - leftOut 40 (rest 0)

lemma inBounds_singleRet_iff {rest : UInt64} {s : ProcessMemStats} :
    InBounds stats statsLen (singleRet stats rest s localStats) ↔
      ¬ statsLen.toNat < 40 - leftOut 40 rest := by
  have hlen : ((statsBytes localStats s).take (40 - leftOut 40 rest)).length =
      40 - leftOut 40 rest := by
    rw [List.length_take, length_statsBytes]
    omega
  constructor
  · -- the first byte after the buffer
    intro h hover
    have hout := h.writes_within _ (List.mem_singleton.mpr rfl)
      (stats + UInt64.ofNat statsLen.toNat) (by
        rw [Write.Touches, hlen]
        exact within_add_ofNat stats hover)
    rw [Within, offset_add_ofNat stats statsLen.toNat_lt] at hout
    exact absurd hout (Nat.lt_irrefl _)
  · intro hfits
    refine ⟨fun w hw b hb => ?_, fun hcode => ?_⟩
    · rw [List.mem_singleton.mp hw, Write.Touches, hlen] at hb
      exact hb.mono (Nat.not_lt.mp hfits)
    · simp only [singleRet] at hcode ⊢
      split_ifs at hcode ⊢ with hzero
      · exact absurd hcode (show ¬ (0 ≤ -EFAULT) by decide)
      · omega

theorem taroIndMemStats_inBounds_iff {Ns : Type*} (T : ProcessTable Ns) (ns : Ns) (pid : PidT)
    (stats : UInt64) (statsLen : SizeT) (localStats : UInt64 → UInt8) (rest : ℕ → UInt64) :
    InBounds stats statsLen (taroIndMemStats T.processes (T.findTaskByVpid ns) pid stats statsLen
        localStats rest) ↔
      ¬ Overruns (T.findTaskByVpid ns) pid stats statsLen rest := by
  obtain ⟨hnone, c, hc, hret⟩ | ⟨task, mm, hfinds⟩ | ⟨hargs, hpid⟩ :=
    taroIndMemStats_cases T.processes (T.findTaskByVpid ns) pid stats statsLen rest
  · rw [hret]
    refine iff_of_true (inBounds_of_refused hc) ?_
    rintro ⟨hargs, hpid, ⟨task, mm, hfind, hmm⟩, -⟩
    exact hnone task mm ⟨hargs, hpid, hfind, hmm⟩
  · rw [hfinds.taroIndMemStats_eq, inBounds_singleRet_iff]
    refine not_congr ⟨fun h => ⟨hfinds.args, hfinds.pos, ?_, h⟩, fun h => h.2.2.2⟩
    exact ⟨task, mm, hfinds.find_eq, hfinds.mm_eq⟩
  · have hwalk := walk_taroIndMemStats T.processes (T.findTaskByVpid ns) localStats rest hargs hpid
    have hsmall := T.length_records_le
    have hzero : (0 : SizeT).toNat = 0 := rfl
    refine iff_of_true ?_ fun h => Int32.not_lt.mpr hpid h.2.1
    exact hwalk.inBounds (UInt64.le_iff_toNat_le.mpr (Nat.zero_le _)) (by omega)

/-- One process in one namespace. -/
def shellOnly : ProcessTable Unit where
  processes := [shell]
  findTaskByVpid _ pid := if pid = 7 then some shell else none
  initNs := ()
  pos := by decide
  nodup := by decide
  find_init := by decide

/-- Asked for the shell with one byte of space, the call writes forty and says so. -/
theorem record_over_one_byte :
    let r := taroIndMemStats shellOnly.processes (shellOnly.findTaskByVpid ()) 7 4096 1 (fun _ => 0)
      fun _ => 0
    r.code = 40 ∧ (∃ w ∈ r.writes, w.Touches 4135 ∧ ¬ Within 4096 1 4135) ∧
      ¬ InBounds 4096 1 r := by
  intro r
  have hout : ∃ w ∈ r.writes, w.Touches 4135 ∧ ¬ Within 4096 1 4135 :=
    ⟨_, List.mem_cons_self, by decide, by decide⟩
  refine ⟨by decide, hout, fun hin => ?_⟩
  obtain ⟨w, hw, htouches, hb⟩ := hout
  exact hb (hin.writes_within w hw 4135 htouches)

end Taro.Stats
