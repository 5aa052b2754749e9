import TaroKernel.Files.Transfers

/-!
# What a call does to the position of a file

Each of the calls leaves the position of a file alone or moves it by what it returns, as integers:
`Moves`. For a call with two files this takes the checks of both.
-/

namespace Taro.Files

open Signed

variable {δ : Type*}

/-! ### Calls with one file -/

/-- The position of `f` is left alone, or, if the call advances `f`, moved by `ret`. -/
def Moves (f : ℕ) (b : Prop) (s : State δ) (ret : Int64) (s' : State δ) : Prop :=
  (b → ret < 0) ∧ (s'.cursor f).fPos = (s.cursor f).fPos ∨
    b ∧ 0 ≤ ret ∧ (s'.cursor f).fPos.toInt = (s.cursor f).fPos.toInt + ret.toInt

section

variable {s : State δ} {f g : ℕ} {b : Prop} {ret : Int64}

@[simp] lemma finish_cursor (s : State δ) (task : ℕ) (r : Done δ) :
    (s.finish task r).cursor = s.cursor := rfl

@[simp] lemma account_cursor (s : State δ) (task : ℕ) (dir : Direction) (ret : SsizeT) :
    (s.account task dir ret).cursor = s.cursor := rfl

lemma Moves.congr {b' : Prop} {s' : State δ} (h : Moves f b s ret s') (hb : b' ↔ b) :
    Moves f b' s ret s' := by
  rw [Moves, hb]
  exact h

end

section

variable {v : Vfs δ} {f : ℕ} {a : Answers} {s : State δ} {dir : Direction}

lemma sendMax_nonneg (o o' : OpenFile δ) {max : LoffT} (hmax : 0 ≤ max) : 0 ≤ sendMax o o' max := by
  rw [sendMax]
  split_ifs
  · rw [nonneg_iff, toInt_min]
    exact Int.le_min.mpr ⟨nonneg_iff.mp o.inode.sMaxbytes.property,
      nonneg_iff.mp o'.inode.sMaxbytes.property⟩
  · exact hmax

/-- What `do_sendfile` asks for ends at `max`, as integers: the unsigned sum of a negative position
and a count is above `max` unless it goes round. -/
lemma sendCount_spec {pos max : LoffT} {count n : SizeT} (h : sendCount pos count max = some n)
    (hmax : 0 ≤ max) (hcount : count.toNat < 2 ^ 63) : pos.toInt + n.toNat ≤ max.toInt := by
  have hmaxNat := toNat_toUInt64 hmax
  have hmaxLt := max.toInt_lt
  have hposGe := pos.le_toInt
  have hposLt := pos.toInt_lt
  have hposNat : (pos.toUInt64.toNat : Int) = pos.toInt ∧ 0 ≤ pos.toInt ∨
      (pos.toUInt64.toNat : Int) = pos.toInt + 2 ^ 64 ∧ pos.toInt < 0 := by
    by_cases hpos : 0 ≤ pos
    · exact Or.inl ⟨toNat_toUInt64 hpos, nonneg_iff.mp hpos⟩
    · have hneg := Int64.not_le.mp hpos
      exact Or.inr ⟨toNat_toUInt64_of_neg hneg, neg_iff.mp hneg⟩
  rw [sendCount] at h
  split_ifs at h with hover hge
  · cases h
    have hlt : pos.toInt < max.toInt := by
      rw [ge_iff_le, Int64.le_iff_toInt_le] at hge
      exact Int.not_le.mp hge
    have hsub : (max - pos).toUInt64.toNat =
        (2 ^ 64 - pos.toUInt64.toNat + max.toUInt64.toNat) % 2 ^ 64 := by
      rw [Int64.toUInt64_sub, UInt64.toNat_sub]
    omega
  · cases h
    rw [gt_iff_lt, UInt64.lt_iff_toNat_lt, UInt64.toNat_add] at hover
    omega

lemma sendTo_spec (hs : v.HonestSplice) {fin fout : ℕ} {pos outPos : LoffT} {count : SizeT} {d : δ}
    {r : Spliced δ} (h : sendTo v fin fout pos outPos count a d = .ok r) (hret : 0 < r.ret) :
    r.ret.toInt ≤ count.toNat ∧ r.pos = pos + r.ret := by
  simp only [sendTo] at h
  split_ifs at h
  · cases h
    exact hs.pipe fin fout d pos count hret
  · cases h
    exact hs.splice fin fout d pos outPos count hret

lemma sendTo_error {fin fout : ℕ} {pos outPos : LoffT} {count : SizeT} {d : δ} {e : Int64}
    (h : sendTo v fin fout pos outPos count a d = .error e) : e < 0 := by
  simp only [sendTo] at h
  split_ifs at h with hpipe hverify
  cases h
  exact hverify

/-- How `do_sendfile` can end. -/
inductive SendExit (v : Vfs δ) (ppos : Option LoffT) (task : ℕ) (a : Answers) (s : State δ) :
    (SsizeT × Option LoffT) × State δ → Prop
  | refused {ret : SsizeT} (h : ret < 0) : SendExit v ppos task a s ((ret, ppos), s)
  /-- The transfer is made, with a length that ends at `max`. -/
  | sent {fin fout : ℕ} {max : LoffT} {n : SizeT} {r : Spliced δ} (hfin : a.fdget = some fin)
      (hfout : a.fdgetOut = some fout)
      (hn : (ppos.getD (s.cursor fin).fPos).toInt + n.toNat ≤ max.toInt)
      (hr : sendTo v fin fout (ppos.getD (s.cursor fin).fPos) (s.cursor fout).fPos n a s.storage =
        .ok r) :
      SendExit v ppos task a s
        ((if r.pos > max then err EOVERFLOW else r.ret,
            if r.ret > 0 then store ppos r.pos else ppos),
          s.sent task fin fout ppos r)

lemma exit_doSendfile (v : Vfs δ) (ppos : Option LoffT) (count : SizeT) {max : LoffT}
    (hmax : 0 ≤ max) (task : ℕ) (a : Answers) (s : State δ) :
    SendExit v ppos task a s (doSendfile v ppos count max task a s) := by
  have hbadf : err EBADF < 0 := by decide
  rw [doSendfile]
  cases hfin : a.fdget with
  | none => exact .refused hbadf
  | some fin =>
    dsimp only
    -- what can be wrong with the file to read from, and then with the one to write to
    split_ifs with hread hpread hverify
    · exact .refused hbadf
    · exact .refused (by decide)
    · exact .refused hverify
    cases hfout : a.fdgetOut with
    | none => exact .refused hbadf
    | some fout =>
      dsimp only
      split_ifs with hwrite
      · exact .refused hbadf
      have hnonneg := sendMax_nonneg (v.files fin) (v.files fout) hmax
      generalize sendMax (v.files fin) (v.files fout) max = limit at hnonneg
      cases hn : sendCount (ppos.getD (s.cursor fin).fPos) (cutCount count) limit with
      | none => exact .refused (by decide)
      | some n =>
        have hcount := Nat.lt_of_le_of_lt (toNat_cutCount_le count) (count_lt_of_verify hverify)
        have hspec := sendCount_spec hn hnonneg hcount
        dsimp only
        cases hr : sendTo v fin fout (ppos.getD (s.cursor fin).fPos) (s.cursor fout).fPos n a
            s.storage with
        | error e => exact .refused (sendTo_error hr)
        | ok r => exact .sent hfin hfout hspec hr

/-- What has been sent ends at `max`, so the last check of `do_sendfile` passes. -/
lemma sendTo_le (hs : v.HonestSplice) {fin fout : ℕ} {pos outPos max : LoffT} {n : SizeT} {d : δ}
    {r : Spliced δ} (hr : sendTo v fin fout pos outPos n a d = .ok r)
    (hn : pos.toInt + n.toNat ≤ max.toInt) (hret : 0 < r.ret) :
    r.pos.toInt = pos.toInt + r.ret.toInt ∧ ¬ r.pos > max := by
  obtain ⟨hle, hmoved⟩ := sendTo_spec hs hr hret
  have hmaxlt := max.toInt_lt
  have hposGe := pos.le_toInt
  have hretInt : 0 < r.ret.toInt := Int64.lt_iff_toInt_lt.mp hret
  have hin : (pos + r.ret).toInt = pos.toInt + r.ret.toInt := toInt_add (by omega) (by omega)
  rw [hmoved, gt_iff_lt, Int64.lt_iff_toInt_lt, hin]
  exact ⟨rfl, by omega⟩

lemma copyRange_le (hs : v.HonestSplice) (hc : v.BoundedCopy) (fin fout : ℕ)
    (posIn posOut : LoffT) {len : SizeT} (flags : UInt32) (d : δ) (hlen : len.toNat < 2 ^ 63) :
    (copyRange v fin fout posIn posOut len flags d).1.toInt ≤ len.toNat := by
  have hsplice : ∀ d, (v.doSpliceDirect fin fout d posIn posOut (min len MAX_RW_COUNT)).ret.toInt ≤
      len.toNat := by
    intro d
    have hmin : (min len MAX_RW_COUNT).toNat ≤ len.toNat := by
      rw [toNat_min]
      exact Nat.min_le_left _ _
    by_cases hret : 0 < (v.doSpliceDirect fin fout d posIn posOut (min len MAX_RW_COUNT)).ret
    · have hle := (hs.splice fin fout d posIn posOut _ hret).1
      omega
    · rw [Int64.lt_iff_toInt_lt] at hret
      exact Int.le_trans (Int.not_lt.mp hret) (Int.natCast_nonneg _)
  simp only [copyRange]
  -- the driver copies, or remaps and splices if that fails, or splices, or does nothing
  split
  · exact hc.copy _ _ _ _ _ _ _
  · rename_i remap _ _ hremap _
    split_ifs
    · exact hsplice _
    · have hmax : MAX_RW_COUNT.toInt64.toInt = 2147479552 := by decide
      have hlen' := toInt_toInt64 hlen
      have hmin := toInt_min len.toInt64 MAX_RW_COUNT.toInt64
      have hnonneg : 0 ≤ min len.toInt64 MAX_RW_COUNT.toInt64 := nonneg_iff.mpr (by omega)
      have hle := hc.remap fin remap hremap fin fout d posIn posOut
        (min len.toInt64 MAX_RW_COUNT.toInt64).toUInt64
      have hnat := toNat_toUInt64 hnonneg
      omega
  · exact hsplice _
  · exact hsplice _
  · exact Int.natCast_nonneg _

lemma genericCopyFileChecks_error {fileIn fileOut : OpenFile δ} {posIn posOut : LoffT}
    {count : SizeT} {flags : UInt32} {d : δ} {e : Int64}
    (h : genericCopyFileChecks fileIn posIn fileOut posOut count flags a d = .error e) : e ≤ 0 := by
  have hcut : ∀ {limit pos count : LoffT}, cutTo limit pos count = .error e → e ≤ 0 := by
    intro limit pos count hcut
    rw [cutTo] at hcut
    split_ifs at hcut
    cases hcut
    decide
  simp only [genericCopyFileChecks] at h
  -- the errors are constants, or come from one of the checks it calls
  split_ifs at h
  · cases h
    rw [genericFileRwChecks]
    split_ifs <;> decide
  · cases h
    decide
  · cases h
    decide
  · cases h
    decide
  · cases h
    decide
  · split at h
    · rename_i e' hlimits
      cases h
      simp only [genericWriteCheckLimits] at hlimits
      split at hlimits
      · rename_i e' hfirst
        cases hlimits
        split_ifs at hfirst
        exact hcut hfirst
      · exact hcut hlimits
    · split_ifs at h
      cases h
      decide

/-- How `vfs_copy_file_range` can end. -/
inductive CopyExit (v : Vfs δ) (fin : ℕ) (posIn : LoffT) (fout : ℕ) (posOut : LoffT) (len : SizeT)
    (flags : UInt32) (task : ℕ) (a : Answers) (s : State δ) : SsizeT × State δ → Prop
  /-- Nothing is copied. -/
  | refused {ret : SsizeT} (h : ret ≤ 0) :
      CopyExit v fin posIn fout posOut len flags task a s (ret, s)
  /-- The copy is made, of the length the checks leave. -/
  | copied {len' : SizeT}
      (hchecks : genericCopyFileChecks (v.files fin) posIn (v.files fout) posOut len flags a
        s.storage = .ok len')
      (hin : ¬ rwVerifyArea .read (v.files fin) (some posIn) len' a < 0)
      (hout : ¬ rwVerifyArea .write (v.files fout) (some posOut) len' a < 0) :
      CopyExit v fin posIn fout posOut len flags task a s
        ((copyRange v fin fout posIn posOut len' flags s.storage).1,
          { s with
            storage := (copyRange v fin fout posIn posOut len' flags s.storage).2
            ioac := Function.update s.ioac task ((s.ioac task).accountBoth
              (copyRange v fin fout posIn posOut len' flags s.storage).1) })

lemma exit_vfsCopyFileRange (v : Vfs δ) (fin : ℕ) (posIn : LoffT) (fout : ℕ) (posOut : LoffT)
    (len : SizeT) (flags : UInt32) (task : ℕ) (a : Answers) (s : State δ) :
    CopyExit v fin posIn fout posOut len flags task a s
      (vfsCopyFileRange v fin posIn fout posOut len flags task a s) := by
  simp only [vfsCopyFileRange]
  split_ifs
  · exact .refused (by decide)
  cases hchecks : genericCopyFileChecks (v.files fin) posIn (v.files fout) posOut len flags a
      s.storage with
  | error e => exact .refused (genericCopyFileChecks_error hchecks)
  | ok len' =>
    dsimp only
    split_ifs with hin hout hlen
    · exact .refused (rwVerifyArea_nonpos ..)
    · exact .refused (rwVerifyArea_nonpos ..)
    · exact .refused (Int64.le_refl 0)
    · refine .copied hchecks ?_ ?_
      · rw [not_not.mp hin]
        decide
      · rw [not_not.mp hout]
        decide

lemma CopyExit.cursor {fin fout : ℕ} {posIn posOut : LoffT} {len : SizeT} {flags : UInt32}
    {task : ℕ} {r : SsizeT × State δ} (h : CopyExit v fin posIn fout posOut len flags task a s r) :
    r.2.cursor = s.cursor := by
  cases h with
  | refused h => rfl
  | copied hchecks hin hout => rfl

/-- A copy that has been made is no longer than what the checks left. -/
lemma CopyExit.exists_le (hs : v.HonestSplice) (hc : v.BoundedCopy) {fin fout : ℕ}
    {posIn posOut : LoffT} {len : SizeT} {flags : UInt32} {task : ℕ} {r : SsizeT × State δ}
    (h : CopyExit v fin posIn fout posOut len flags task a s r) (hret : 0 < r.1) :
    ∃ len' : SizeT, r.1.toInt ≤ len'.toNat ∧
      genericCopyFileChecks (v.files fin) posIn (v.files fout) posOut len flags a s.storage =
        .ok len' ∧
      ¬ rwVerifyArea .read (v.files fin) (some posIn) len' a < 0 ∧
      ¬ rwVerifyArea .write (v.files fout) (some posOut) len' a < 0 := by
  cases h with
  | refused h => exact absurd hret (Int64.not_lt.mpr h)
  | @copied len' hchecks hin hout =>
    exact ⟨len', copyRange_le hs hc fin fout posIn posOut flags s.storage (count_lt_of_verify hin),
      hchecks, hin, hout⟩

/-- How `copy_file_range` can end. -/
inductive CopyCall (v : Vfs δ) (offIn offOut : UserOffset) (len : SizeT) (flags : UInt32) (task : ℕ)
    (a : Answers) (s : State δ) : FileRet × State δ → Prop
  | refused {ret : Int64} (h : ret < 0) : CopyCall v offIn offOut len flags task a s (.code ret, s)
  | nothing {fin fout : ℕ} {posIn posOut : LoffT} {r : SsizeT × State δ}
      (hexit : CopyExit v fin posIn fout posOut len flags task a s r) (hret : r.1 ≤ 0) :
      CopyCall v offIn offOut len flags task a s (.code r.1, r.2)
  | copied {fin fout : ℕ} {posIn posOut : LoffT} {r : SsizeT × State δ}
      (hfin : a.fdget = some fin) (hfout : a.fdgetOut = some fout)
      (hin : offIn.start (s.cursor fin) = some posIn)
      (hout : offOut.start (s.cursor fout) = some posOut)
      (hexit : CopyExit v fin posIn fout posOut len flags task a s r) (hret : 0 < r.1) :
      CopyCall v offIn offOut len flags task a s
        (⟨if offIn.lost a.copyToUser ∨ offOut.lost a.copyToUserOut then err EFAULT else r.1,
            offIn.written a.copyToUser (posIn + r.1), offOut.written a.copyToUserOut (posOut + r.1),
            none⟩,
          (r.2.leavePos offIn fin (posIn + r.1)).leavePos offOut fout (posOut + r.1))

lemma copyCall_copyFileRange (v : Vfs δ) (offIn offOut : UserOffset) (len : SizeT) (flags : UInt32)
    (task : ℕ) (a : Answers) (s : State δ) :
    CopyCall v offIn offOut len flags task a s
      (copyFileRange v offIn offOut len flags task a s) := by
  have hbadf : err EBADF < 0 := by decide
  have hfault : err EFAULT < 0 := by decide
  simp only [copyFileRange]
  cases hfin : a.fdget with
  | none => exact .refused hbadf
  | some fin =>
    cases hfout : a.fdgetOut with
    | none => exact .refused hbadf
    | some fout =>
      dsimp only
      cases hin : offIn.start (s.cursor fin) with
      | none => exact .refused hfault
      | some posIn =>
        cases hout : offOut.start (s.cursor fout) with
        | none => exact .refused hfault
        | some posOut =>
          dsimp only
          have hexit := exit_vfsCopyFileRange v fin posIn fout posOut len flags task a s
          generalize vfsCopyFileRange v fin posIn fout posOut len flags task a s = r at hexit
          -- the flags are looked at when both files and both positions are known
          by_cases hflags : flags ≠ 0
          · rw [if_pos hflags]
            exact .refused (by decide)
          rw [if_neg hflags]
          by_cases hret : r.1 > 0
          · rw [if_pos hret]
            exact .copied hfin hfout hin hout hexit hret
          · rw [if_neg hret]
            exact .nothing hexit (Int64.not_lt.mp hret)

end

end Taro.Files
