import Mathlib.Algebra.Order.Ring.Int
import TaroKernel.Stats.Namespaces

/-!
# The OOM score

`oom_badness` answers with a `long`, but the score is computed in an `unsigned long`, where the test
for a negative number is never true. A negative badness is then a very large one, and so is the
part that a negative `oom_score_adj` should take off. What is stored is right when neither occurs,
and otherwise only by accident.
-/

namespace Taro.Stats

/-! ### The score over the integers -/

/-- The score, before it is clamped to what a score can be. -/
def score (badness adj : ℤ) : ℤ := badness + (badness * adj).tdiv 1000

def clampedScore (badness adj : ℤ) : ℤ :=
  if score badness adj ≤ 0 then 0
  else if 1000 ≤ score badness adj then 1000
  else score badness adj

/-- The score as it is computed, with everything modulo `2 ^ 64`. -/
def wordScore (badness adj : ℤ) : ℤ :=
  min ((badness + badness * adj % 2 ^ 64 / 1000) % 2 ^ 64) 1000

lemma toNat_toUInt64 (x : Int64) : (x.toUInt64.toNat : ℤ) = x.toInt % 2 ^ 64 := by
  have hbmod : x.toInt = (x.toUInt64.toNat : ℤ).bmod (2 ^ 64) :=
    BitVec.toInt_eq_toNat_bmod x.toBitVec
  have hlt : (x.toUInt64.toNat : ℤ) < 2 ^ 64 := by exact_mod_cast x.toUInt64.toNat_lt
  rw [hbmod]
  refine Eq.symm (Int.bmod_emod.trans ?_)
  exact Int.emod_eq_of_lt (Int.natCast_nonneg _) hlt

/-- The last line, which clamps an unsigned number and stores it in an `int`. -/
lemma toInt_clamp (badness : UInt64) :
    (if badness > 1000 then 1000 else if badness < 0 then 0 else badness).toUInt32.toInt32.toInt =
      min (badness.toNat : ℤ) 1000 := by
  rw [if_neg UInt64.not_lt_zero]
  split_ifs with h
  · have h : 1000 < badness.toNat := UInt64.lt_iff_toNat_lt.mp h
    rw [min_eq_right (by omega)]
    rfl
  · have h : badness.toNat ≤ 1000 := UInt64.le_iff_toNat_le.mp (UInt64.not_lt.mp h)
    rw [min_eq_left (by omega), ← UInt64.ofNat_toNat (x := badness), UInt64.toUInt32_ofNat',
      UInt32.toInt32_ofNat', Int32.toInt_ofNat_of_lt (by omega), UInt64.ofNat_toNat]

lemma toInt_oomScore (b : Int64) (adj : Int32) :
    (oomScore b adj).toInt = wordScore b.toInt adj.toInt := by
  have hadj : ((toSizeT adj).toNat : ℤ) = adj.toInt % 2 ^ 64 := by
    rw [toSizeT, toNat_toUInt64, Int32.toInt_toInt64]
  have hb := toNat_toUInt64 b
  rw [oomScore, toInt_clamp, wordScore, UInt64.toNat_add, UInt64.toNat_div, UInt64.toNat_mul]
  push_cast at hb hadj ⊢
  rw [hb, hadj, ← Int.mul_emod, Int.emod_add_emod]

/-! ### When it is right -/

/-- What the computation of a score works on: a `long` and an adjustment in its range. -/
structure InRange (b adj : ℤ) : Prop where
  badness_le : -2 ^ 63 ≤ b
  badness_lt : b < 2 ^ 63
  adj_le : -1000 ≤ adj
  le_adj : adj ≤ 1000

lemma tdiv_eq (p : ℤ) : p.tdiv 1000 = if 0 ≤ p then p / 1000 else -(-p / 1000) := by
  split_ifs with hp
  · exact Int.tdiv_eq_ediv_of_nonneg hp
  · rw [← Int.tdiv_eq_ediv_of_nonneg (by omega), Int.neg_tdiv, neg_neg]

variable {b adj : ℤ}

/-- No adjustment makes up for a negative badness. -/
lemma score_nonpos (h : InRange b adj) (hb : b < 0) : score b adj ≤ 0 := by
  have hp : b * adj ≤ b * -1000 := mul_le_mul_of_nonpos_left h.adj_le hb.le
  rw [score, tdiv_eq]
  split_ifs <;> omega

/-- A negative badness is given the score zero only if the sum wraps around to it. -/
lemma wordScore_eq_zero_iff (h : InRange b adj) (hb : b < 0) :
    wordScore b adj = 0 ↔ b * adj % 2 ^ 64 / 1000 = -b := by
  have hlow := h.badness_le
  rw [wordScore]
  omega

/-- With a badness that is not negative the sum does not wrap around. -/
lemma wordScore_of_nonneg (h : InRange b adj) (hb : 0 ≤ b) :
    wordScore b adj = min (b + b * adj % 2 ^ 64 / 1000) 1000 := by
  have hhigh := h.badness_lt
  have hquot : 0 ≤ b * adj % 2 ^ 64 / 1000 ∧ b * adj % 2 ^ 64 / 1000 < 2 ^ 63 := by omega
  rw [wordScore, Int.emod_eq_of_lt (by omega) (by omega)]

/-- Whatever a negative adjustment should take off, the score is at its maximum. -/
lemma wordScore_of_adj_neg (h : InRange b adj) (hb : 0 < b) (hadj : adj < 0) :
    wordScore b adj = 1000 := by
  have hneg : b * adj < 0 := mul_neg_of_pos_of_neg hb hadj
  have hp : b * -1000 ≤ b * adj := mul_le_mul_of_nonneg_left h.adj_le hb.le
  rw [wordScore_of_nonneg h hb.le]
  -- either the badness is enough, or the product is small and its quotient as a word is not
  by_cases hsmall : b < 1000
  · have hword : b * adj % 2 ^ 64 = b * adj + 2 ^ 64 := by omega
    omega
  · omega

lemma wordScore_of_adj_nonneg (h : InRange b adj) (hb : 0 ≤ b) (hadj : 0 ≤ adj) :
    wordScore b adj = clampedScore b adj := by
  have hnonneg : 0 ≤ b * adj := mul_nonneg hb hadj
  have hp : b * adj ≤ b * 1000 := mul_le_mul_of_nonneg_left h.le_adj hb
  rw [wordScore_of_nonneg h hb, clampedScore, score, tdiv_eq, if_pos hnonneg]
  -- a product that wraps around comes from a badness that is enough
  by_cases hsmall : b < 1000
  · rw [Int.emod_eq_of_lt hnonneg (by omega)]
    split_ifs <;> omega
  · split_ifs <;> omega

/-- The score is what it should be: computed from a badness that is not negative, with an adjustment
that is not negative either or takes off too little to matter; or from a negative badness whose
sum happens to wrap around to zero. -/
def ScoreHolds (b adj : ℤ) : Prop :=
  if b < 0 then b * adj % 2 ^ 64 / 1000 = -b
  else b = 0 ∨ 0 ≤ adj ∨ 1000 ≤ score b adj

lemma clampedScore_eq_max_iff : clampedScore b adj = 1000 ↔ 1000 ≤ score b adj := by
  rw [clampedScore]
  split_ifs <;> omega

lemma wordScore_eq_clampedScore_iff (h : InRange b adj) :
    wordScore b adj = clampedScore b adj ↔ ScoreHolds b adj := by
  unfold ScoreHolds
  split_ifs with hb
  · have hclamped : clampedScore b adj = 0 := if_pos (score_nonpos h hb)
    rw [hclamped, wordScore_eq_zero_iff h hb]
  · have hb := not_lt.mp hb
    by_cases hadj : 0 ≤ adj
    · exact iff_of_true (wordScore_of_adj_nonneg h hb hadj) (Or.inr (Or.inl hadj))
    · rcases hb.eq_or_lt with rfl | hpos
      · simp [wordScore, clampedScore, score]
      · rw [wordScore_of_adj_neg h hpos (not_le.mp hadj), eq_comm, clampedScore_eq_max_iff]
        simp [hadj, hpos.ne']

/-! ### What is stored -/

variable {stats : UInt64} {statsLen : SizeT} {localStats : UInt64 → UInt8}
  {processes : List Process} {find : PidT → Option Process} {pid : PidT} {rest : ℕ → UInt64}
  {s : ProcessMemStats} {task : Process}

/-- The call reports on this process. -/
def ReportsOn (processes : List Process) (find : PidT → Option Process) (pid : PidT)
    (task : Process) : Prop :=
  if 0 < pid then find pid = some task else task ∈ processes

lemma eq_of_writesRecord_singleRet {s₀ : ProcessMemStats} {r : UInt64}
    (h : WritesRecord (singleRet stats r s₀ localStats) s) : s = s₀ := by
  obtain ⟨w, hw, hlen, hdecode⟩ := h
  rw [List.mem_singleton.mp hw] at hlen hdecode
  rw [List.length_take, length_statsBytes] at hlen
  rw [List.take_of_length_le (by rw [length_statsBytes]; omega), decode_statsBytes] at hdecode
  exact hdecode.symm

/-- The number a record has: the one that was asked for, or `task->pid` in the walk over all. -/
def recordPid (pid : PidT) (task : Process) : PidT := if 0 < pid then pid else task.pid

/-- A record that is copied whole is that of a process the call reports on. -/
lemma exists_process_of_writesRecord
    (h : WritesRecord (taroIndMemStats processes find pid stats statsLen localStats rest) s) :
    ∃ task mm, ReportsOn processes find pid task ∧ task.mm = some mm ∧
      s.pid = recordPid pid task ∧ s = statsOf s.pid task mm := by
  obtain ⟨-, c, -, hret⟩ | ⟨task, mm, hfinds⟩ | ⟨hargs, hpid⟩ :=
    taroIndMemStats_cases processes find pid stats statsLen rest
  · rw [hret] at h
    exact absurd h not_writesRecord_nil
  · rw [hfinds.taroIndMemStats_eq] at h
    obtain rfl := eq_of_writesRecord_singleRet h
    have hpid : recordPid pid task = pid := if_pos hfinds.pos
    refine ⟨task, mm, ?_, hfinds.mm_eq, hpid.symm, rfl⟩
    rw [ReportsOn, if_pos hfinds.pos]
    exact hfinds.find_eq
  · have hwalk := walk_taroIndMemStats processes find localStats rest hargs hpid
    obtain ⟨task, htask, mm, hmm, rfl⟩ := hwalk.exists_process h
    have hown : recordPid pid task = task.pid := if_neg (Int32.not_lt.mpr hpid)
    refine ⟨task, mm, ?_, hmm, hown.symm, rfl⟩
    rw [ReportsOn, if_neg (Int32.not_lt.mpr hpid)]
    exact htask

/-- Every score that is stored, by a call for one process or for all, is the clamped score of the
process that the record's number names exactly if that holds. -/
theorem stored_score_iff
    (hadj : ∀ task, ReportsOn processes find pid task →
      -1000 ≤ task.oomScoreAdj.toInt ∧ task.oomScoreAdj.toInt ≤ 1000)
    (hs : WritesRecord (taroIndMemStats processes find pid stats statsLen localStats rest) s) :
    ∃ task mm, ReportsOn processes find pid task ∧ task.mm = some mm ∧
      s.pid = recordPid pid task ∧ s = statsOf s.pid task mm ∧
      (s.oomScore.toInt = clampedScore task.oomBadness.toInt task.oomScoreAdj.toInt ↔
        ScoreHolds task.oomBadness.toInt task.oomScoreAdj.toInt) := by
  obtain ⟨task, mm, hreports, hmm, hpid, hstats⟩ := exists_process_of_writesRecord hs
  obtain ⟨hadj_le, hle_adj⟩ := hadj task hreports
  have hrange : InRange task.oomBadness.toInt task.oomScoreAdj.toInt :=
    ⟨task.oomBadness.le_toInt, task.oomBadness.toInt_lt, hadj_le, hle_adj⟩
  refine ⟨task, mm, hreports, hmm, hpid, hstats, ?_⟩
  have hscore : s.oomScore = oomScore task.oomBadness task.oomScoreAdj.toInt32 := by
    rw [hstats]
    rfl
  rw [hscore, toInt_oomScore, Int16.toInt_toInt32]
  exact wordScore_eq_clampedScore_iff hrange

/-- The score of the shell, whose badness is 10. -/
theorem shell_score_stored :
    (statsOf 7 shell ⟨⟨512⟩, 256, 0, 0⟩).oomScore.toInt = clampedScore 10 0 := by
  have hs : WritesRecord (taroIndMemStats [shell] (fun _ => none) 0 4096 40 (fun _ => 0) fun _ => 0)
      (statsOf 7 shell ⟨⟨512⟩, 256, 0, 0⟩) := ⟨_, List.mem_cons_self, by decide, by decide⟩
  have hadj : ∀ task, ReportsOn [shell] (fun _ => none) 0 task →
      -1000 ≤ task.oomScoreAdj.toInt ∧ task.oomScoreAdj.toInt ≤ 1000 := by
    intro task htask
    rw [List.mem_singleton.mp htask]
    decide
  obtain ⟨task, mm, htask, -, -, -, hiff⟩ := stored_score_iff hadj hs
  rw [List.mem_singleton.mp htask] at hiff
  exact hiff.mpr (Or.inr (Or.inl (by decide)))

/-- A process that must not be killed: its `oom_badness` is `LONG_MIN`. -/
def unkillable : Process := ⟨3, false, some ⟨⟨1024⟩, 512, 0, 0⟩, Int64.minValue, -1000⟩

/-- It is reported with the score of the first one to be killed. Also, a negative adjustment can
give a higher score than none. -/
theorem unkillable_score_stored :
    WritesRecord (taroIndMemStats [unkillable] (fun _ => none) 0 4096 40 (fun _ => 0) fun _ => 0)
        ⟨3, 4096, 2048, 50, 1000⟩ ∧
      clampedScore unkillable.oomBadness.toInt unkillable.oomScoreAdj.toInt = 0 ∧
      oomScore 500 (-1) > oomScore 500 0 := by
  refine ⟨⟨_, List.mem_cons_self, by decide, by decide⟩, by decide, by decide⟩

end Taro.Stats
