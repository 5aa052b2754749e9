import TaroKernel.Files.Positions

/-!
# What `copy_file_range` copies

The checks of `generic_copy_file_checks` compare signed positions with unsigned counts. Together
with those of `rw_verify_area` they let a copy through only if it lies within the file it is from
and within the limits for the file it goes to, and if the two ranges do not overlap in one file:
`copy_in_bounds`.
-/

namespace Taro.Files

open Signed

variable {δ : Type*}

/-! ### Limits -/

/-- How far a task may write: to the end of what the file can hold, and to `RLIMIT_FSIZE`. -/
def writeBound (o : OpenFile δ) (a : Answers) : ℤ :=
  if a.rlimitFsize = RLIM_INFINITY then (maxSize o).toInt
  else min a.rlimitFsize.toInt64.toInt (maxSize o).toInt

lemma cutTo_spec {limit pos count n : LoffT} (h : cutTo limit pos count = .ok n) (hpos : 0 ≤ pos) :
    pos.toInt < limit.toInt ∧ n.toInt = min count.toInt (limit.toInt - pos.toInt) := by
  have hposInt := nonneg_iff.mp hpos
  have hlimit := limit.toInt_lt
  rw [cutTo] at h
  split_ifs at h with hge
  cases h
  rw [ge_iff_le, Int64.le_iff_toInt_le, Int.not_le] at hge
  refine ⟨hge, ?_⟩
  rw [toInt_min, toInt_sub (by omega) (by omega)]

lemma genericWriteCheckLimits_spec {o : OpenFile δ} {pos count n : LoffT} {a : Answers}
    (h : genericWriteCheckLimits o pos count a = .ok n) (hpos : 0 ≤ pos) :
    pos.toInt < writeBound o a ∧ n.toInt = min count.toInt (writeBound o a - pos.toInt) := by
  simp only [genericWriteCheckLimits, writeBound] at h ⊢
  split at h
  · cases h
  · rename_i count' hfirst
    obtain ⟨hmax, hn⟩ := cutTo_spec h hpos
    split_ifs at hfirst with hlimit
    · obtain ⟨hrlimit, hcount'⟩ := cutTo_spec hfirst hpos
      rw [if_neg hlimit]
      omega
    · cases hfirst
      rw [if_pos (not_not.mp hlimit)]
      exact ⟨hmax, hn⟩

/-! ### Ranges -/

lemma toNat_untilEof {pos : LoffT} (hpos : 0 ≤ pos) (size : FileSize) (count : SizeT) :
    ((untilEof pos size.val count).toNat : ℤ) =
      min (count.toNat : ℤ) (max 0 (size.val.toInt - pos.toInt)) := by
  have hposNat := toNat_toUInt64 hpos
  have hsizeNat := toNat_toUInt64 size.property
  rw [untilEof]
  split_ifs with hge
  · rw [ge_iff_le, Int64.le_iff_toInt_le] at hge
    rw [UInt64.toNat_zero]
    omega
  · rw [ge_iff_le, Int64.le_iff_toInt_le, Int.not_le] at hge
    have hle : pos.toUInt64 ≤ size.val.toUInt64 := UInt64.le_iff_toNat_le.mpr (by omega)
    have hsub := UInt64.toNat_sub_of_le size.val.toUInt64 pos.toUInt64 hle
    rw [toNat_min, hsub]
    omega

/-- Ranges of `n` bytes that do not overlap. -/
def Apart (posIn posOut : ℤ) (n : ℕ) : Prop := posOut + n ≤ posIn ∨ posIn + n ≤ posOut

lemma apart_of_not_overlapping {posIn posOut : LoffT} {count : SizeT} (hin : 0 ≤ posIn)
    (hout : 0 ≤ posOut) (hroomIn : posIn.toInt + count.toNat < 2 ^ 63)
    (hroomOut : posOut.toInt + count.toNat < 2 ^ 63)
    (h : ¬ overlapping posIn posOut count = true) :
    Apart posIn.toInt posOut.toInt count.toNat := by
  have hinNat := toNat_toUInt64 hin
  have houtNat := toNat_toUInt64 hout
  have hsumIn := toNat_toUInt64_add hin (by omega : posIn.toInt + count.toNat < 2 ^ 64)
  have hsumOut := toNat_toUInt64_add hout (by omega : posOut.toInt + count.toNat < 2 ^ 64)
  simp only [overlapping, decide_eq_true_eq, gt_iff_lt, UInt64.lt_iff_toNat_lt] at h
  rw [Apart]
  omega

/-- What the checks let through, and how much of it. -/
lemma genericCopyFileChecks_spec {fileIn fileOut : OpenFile δ} {posIn posOut : LoffT}
    {count n : SizeT} {flags : UInt32} {a : Answers} {d : δ}
    (h : genericCopyFileChecks fileIn posIn fileOut posOut count flags a d = .ok n)
    (hin : 0 ≤ posIn) (hout : 0 ≤ posOut) (hroomIn : posIn.toInt + n.toNat < 2 ^ 63)
    (hroomOut : posOut.toInt + n.toNat < 2 ^ 63) :
    (n.toNat : ℤ) = min (count.toNat : ℤ) (min
        (max 0 ((fileIn.inode.iSize d).val.toInt - posIn.toInt))
        (writeBound fileOut a - posOut.toInt)) ∧
      posOut.toInt < writeBound fileOut a ∧
      (fileIn.inode.ino = fileOut.inode.ino → Apart posIn.toInt posOut.toInt n.toNat) := by
  simp only [genericCopyFileChecks] at h
  split_ifs at h
  split at h
  · cases h
  · rename_i n' hlimits
    split_ifs at h with hoverlap
    cases h
    obtain ⟨hbound, hn'⟩ := genericWriteCheckLimits_spec hlimits hout
    have heof := toNat_untilEof hin (fileIn.inode.iSize d) count
    have hsize := (fileIn.inode.iSize d).val.toInt_lt
    have hposIn := nonneg_iff.mp hin
    rw [toInt_toInt64 (by omega)] at hn'
    have hnat := toNat_toUInt64 (nonneg_iff.mpr (by omega : 0 ≤ n'.toInt))
    refine ⟨by omega, hbound, fun hino => ?_⟩
    refine apart_of_not_overlapping hin hout hroomIn hroomOut fun hover => hoverlap ⟨hino, hover⟩

/-! ### The call -/

/-- The copy of `n` bytes that a call with `len` asks for lies where it should. -/
structure InBounds (v : Vfs δ) (fin fout : ℕ) (posIn posOut : LoffT) (len : SizeT) (a : Answers)
    (d : δ) (n : ℕ) : Prop where
  le : n ≤ len.toNat
  nonneg_in : 0 ≤ posIn
  nonneg_out : 0 ≤ posOut
  eof : posIn.toInt + n ≤ ((v.files fin).inode.iSize d).val.toInt
  bound : posOut.toInt + n ≤ writeBound (v.files fout) a
  apart : (v.files fin).inode.ino = (v.files fout).inode.ino → Apart posIn.toInt posOut.toInt n

lemma CopyExit.inBounds {v : Vfs δ} (hs : v.HonestSplice) (hc : v.BoundedCopy) {fin fout : ℕ}
    (hsigned : ∀ g, fin = g ∨ fout = g → (v.files g).fMode.unsignedOffset = false)
    {posIn posOut : LoffT} {len : SizeT} {flags : UInt32} {task : ℕ} {a : Answers} {s : State δ}
    {r : SsizeT × State δ} (h : CopyExit v fin posIn fout posOut len flags task a s r)
    (hret : 0 < r.1) : InBounds v fin fout posIn posOut len a s.storage r.1.toInt.toNat := by
  obtain ⟨len', hle, hchecks, hin, hout⟩ := h.exists_le hs hc hret
  obtain ⟨hposIn, hroomIn⟩ := room_of_verify (hsigned fin (Or.inl rfl)) hin
  obtain ⟨hposOut, hroomOut⟩ := room_of_verify (hsigned fout (Or.inr rfl)) hout
  obtain ⟨hlen', hbound, hapart⟩ :=
    genericCopyFileChecks_spec hchecks hposIn hposOut hroomIn hroomOut
  have hposInt := nonneg_iff.mp hposIn
  have hretInt : 0 < r.1.toInt := Int64.lt_iff_toInt_lt.mp hret
  refine ⟨by omega, hposIn, hposOut, by omega, by omega, fun hino => ?_⟩
  have := hapart hino
  rw [Apart] at this ⊢
  omega

/-- With drivers that return no more than they were asked for, and whatever positions and lengths
the caller gives: between files with signed offsets, what `copy_file_range` says it has copied was
in the file it is from, is within the limits of the file it went to, and did not overlap itself. -/
theorem copy_in_bounds {v : Vfs δ} (hs : v.HonestSplice) (hc : v.BoundedCopy) (s : State δ)
    (task : ℕ) (offIn offOut : UserOffset) (len : SizeT) (flags : UInt32) (a : Answers)
    (hsigned : ∀ g, a.fdget = some g ∨ a.fdgetOut = some g →
      (v.files g).fMode.unsignedOffset = false)
    (hret : 0 < (next v s ⟨task, .copyFileRange offIn offOut len flags, a⟩).1.ret) :
    ∃ fin fout posIn posOut, a.fdget = some fin ∧ a.fdgetOut = some fout ∧
      offIn.start (s.cursor fin) = some posIn ∧ offOut.start (s.cursor fout) = some posOut ∧
      InBounds v fin fout posIn posOut len a s.storage
        (next v s ⟨task, .copyFileRange offIn offOut len flags, a⟩).1.ret.toInt.toNat := by
  have hcall := copyCall_copyFileRange v offIn offOut len flags task a s
  simp only [next] at hret ⊢
  generalize copyFileRange v offIn offOut len flags task a s = r at hcall hret ⊢
  cases hcall with
  | refused h => exact absurd hret (Int64.lt_asymm h)
  | nothing hexit hnone => exact absurd hret (Int64.not_lt.mpr hnone)
  | copied hfin hfout hin hout hexit hpos =>
    refine ⟨_, _, _, _, hfin, hfout, hin, hout, ?_⟩
    dsimp only at hret ⊢
    split_ifs at hret ⊢
    · exact absurd hret (by decide)
    · refine hexit.inBounds hs hc (fun g hg => hsigned g ?_) hpos
      rwa [hfin, hfout, Option.some.injEq, Option.some.injEq]

/-- Files as above, but with a driver that copies a page at a time between them. -/
def copyFiles : Vfs Unit :=
  { pageFiles with
    files := fun f =>
      { pageFiles.files f with
        fOp := { (pageFiles.files f).fOp with copyFileRange := some 0 } }
    copyFileRange := fun _ _ _ d _ _ n => (.ofNat (min n.toNat 4096), d) }

lemma copyFiles_honestSplice : copyFiles.HonestSplice where
  splice := pageFiles_honestSplice.splice
  pipe := pageFiles_honestSplice.pipe

lemma copyFiles_boundedCopy : copyFiles.BoundedCopy where
  copy _ _ _ _ _ _ n := by
    have hret : (Int64.ofNat (min n.toNat 4096)).toInt = (min n.toNat 4096 : ℕ) :=
      Int64.toInt_ofNat_of_lt (Nat.lt_of_le_of_lt (Nat.min_le_right _ _) (by decide))
    show (Int64.ofNat (min n.toNat 4096)).toInt ≤ n.toNat
    rw [hret]
    exact Int.ofNat_le.mpr (Nat.min_le_left _ _)
  remap := pageFiles_boundedCopy.remap

/-- A copy from the start of a file to a later place in it. -/
theorem copy_in_bounds_page :
    let a := { granted 0 with fdgetOut := some 0 }
    let i : FileInvocation := ⟨1, .copyFileRange .null (.pos 8192) 5000 0, a⟩
    (next copyFiles atStart i).1.ret = 4096 ∧
      ∃ fin fout posIn posOut, a.fdget = some fin ∧ a.fdgetOut = some fout ∧
        UserOffset.null.start (atStart.cursor fin) = some posIn ∧
        (UserOffset.pos 8192).start (atStart.cursor fout) = some posOut ∧
        InBounds copyFiles fin fout posIn posOut 5000 a ()
          (next copyFiles atStart i).1.ret.toInt.toNat :=
  ⟨by decide, copy_in_bounds copyFiles_honestSplice copyFiles_boundedCopy atStart 1 .null
    (.pos 8192) 5000 0 _ (fun _ _ => rfl) (by decide)⟩

end Taro.Files
