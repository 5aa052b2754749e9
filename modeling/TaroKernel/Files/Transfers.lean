import TaroKernel.Files.Syscalls
import TaroKernel.Lib.Signed

/-!
# What a transfer does to a position

Positions are signed words, and the checks of `fs/read_write.c` work with words that may go round.
For a file without `FMODE_UNSIGNED_OFFSET`, with a driver that transfers at the position it is
given, none does: a transfer fails, or it moves the position by what it returns, as integers.
-/

namespace Taro.Files

open Signed

variable {δ : Type*}

/-! ### What the rest of the kernel has to keep to -/

/-- A transfer of at most `n` bytes from `pos` on: it fails and leaves the position alone, or it
moves the position by what it returns. -/
def Moved.Honest (r : Moved δ) (pos : LoffT) (n : ℕ) : Prop :=
  r.ret < 0 ∧ r.pos = pos ∨ 0 ≤ r.ret ∧ r.ret.toInt ≤ n ∧ r.pos = pos + r.ret

/-- `do_splice_direct` and `splice_file_to_pipe` move no more than they were asked for, and move the
position they read from by as much. -/
structure Vfs.HonestSplice (v : Vfs δ) : Prop where
  splice : ∀ fin fout d pos outPos (n : SizeT), 0 < (v.doSpliceDirect fin fout d pos outPos n).ret →
    (v.doSpliceDirect fin fout d pos outPos n).ret.toInt ≤ n.toNat ∧
      (v.doSpliceDirect fin fout d pos outPos n).pos =
        pos + (v.doSpliceDirect fin fout d pos outPos n).ret
  pipe : ∀ fin fout d pos (n : SizeT), 0 < (v.spliceFileToPipe fin fout d pos n).ret →
    (v.spliceFileToPipe fin fout d pos n).ret.toInt ≤ n.toNat ∧
      (v.spliceFileToPipe fin fout d pos n).pos = pos + (v.spliceFileToPipe fin fout d pos n).ret

/-- The `copy_file_range` and `remap_file_range` of the drivers return no more than they were asked
for; `vfs_copy_file_range` does not check it. -/
structure Vfs.BoundedCopy (v : Vfs δ) : Prop where
  copy : ∀ m fin fout d posIn posOut (n : SizeT),
    (v.copyFileRange m fin fout d posIn posOut n).1.toInt ≤ n.toNat
  remap : ∀ f c, (v.files f).fOp.remapFileRange = some c →
    ∀ fin fout d posIn posOut (n : SizeT), (c fin fout d posIn posOut n).1.toInt ≤ n.toNat

/-- The offsets of `f` are signed, and its driver transfers at the position it is given. A write to
a file opened with `O_APPEND` does not. -/
structure Vfs.Honest (v : Vfs δ) (f : ℕ) : Prop where
  signed : (v.files f).fMode.unsignedOffset = false
  method : ∀ dir m, (v.files f).fOp.method dir = some m →
    ∀ d (n : SizeT) pos, (m d n (some pos)).Honest pos n.toNat
  iter : ∀ dir m, (v.files f).fOp.iter dir = some m →
    ∀ d (lens : List SizeT) flags pos,
      (m d lens flags pos).Honest pos (lens.map UInt64.toNat).sum
  splice : ∀ fin d pos outPos n, 0 < (v.doSpliceDirect fin f d pos outPos n).ret →
    (v.doSpliceDirect fin f d pos outPos n).outPos =
      if (v.files f).fMode.stream then outPos
      else outPos + (v.doSpliceDirect fin f d pos outPos n).ret

/-! ### Room -/

lemma permission_nonpos (dir : Direction) (a : Answers) : permission dir a ≤ 0 := by
  rw [permission]
  split_ifs
  · exact (a.securityFilePermission dir).property
  · exact (a.fsnotifyFileAreaPerm dir).property

lemma rwVerifyArea_nonpos (dir : Direction) (o : OpenFile δ) (ppos : Option LoffT) (count : SizeT)
    (a : Answers) : rwVerifyArea dir o ppos count a ≤ 0 := by
  have hinval : err EINVAL ≤ 0 := by decide
  have hoverflow : err EOVERFLOW ≤ 0 := by decide
  cases ppos with
  | none =>
    simp only [rwVerifyArea]
    split_ifs
    · exact hinval
    · exact permission_nonpos dir a
  | some pos =>
    simp only [rwVerifyArea]
    split_ifs
    · exact hinval
    · exact hinval
    · exact hoverflow
    · exact permission_nonpos dir a
    · exact hinval
    · exact permission_nonpos dir a

/-- `rw_verify_area` lets only ranges through that end within the signed words. -/
lemma room_of_verify {dir : Direction} {o : OpenFile δ} {pos : LoffT} {count : SizeT} {a : Answers}
    (hsigned : o.fMode.unsignedOffset = false)
    (h : ¬ rwVerifyArea dir o (some pos) count a < 0) :
    0 ≤ pos ∧ pos.toInt + count.toNat < 2 ^ 63 := by
  have hinval : err EINVAL < 0 := by decide
  simp only [rwVerifyArea, hsigned, and_true, if_true] at h
  split_ifs at h with hcount hneg hsum
  · exact absurd hinval h
  · exact absurd hinval h
  · exact absurd hinval h
  · have hlt : count.toNat < 2 ^ 63 := Nat.lt_of_not_le fun hle => hcount (toInt64_neg_iff.mpr hle)
    have hpos : 0 ≤ pos := Int64.not_lt.mp hneg
    rw [toInt64_add_neg_iff hpos hlt] at hsum
    exact ⟨hpos, Int.not_le.mp hsum⟩

/-- No file lets a count through that is negative as a signed word. -/
lemma count_lt_of_verify {dir : Direction} {o : OpenFile δ} {pos : LoffT} {count : SizeT}
    {a : Answers} (h : ¬ rwVerifyArea dir o (some pos) count a < 0) : count.toNat < 2 ^ 63 := by
  by_contra hle
  refine h ?_
  rw [rwVerifyArea, if_pos (toInt64_neg_iff.mpr (Nat.not_lt.mp hle))]
  decide

lemma toNat_cutCount_le (count : SizeT) : (cutCount count).toNat ≤ count.toNat := by
  rw [cutCount]
  split_ifs with h
  · exact Nat.le_of_lt (UInt64.lt_iff_toNat_lt.mp h)
  · exact Nat.le_refl _

/-- What is done to a position as integers, if there is room. -/
lemma toInt_add_of_room {pos ret : Int64} {n : ℕ} (hpos : 0 ≤ pos) (hret : 0 ≤ ret)
    (hle : ret.toInt ≤ n) (hroom : pos.toInt + n < 2 ^ 63) :
    (pos + ret).toInt = pos.toInt + ret.toInt := by
  rw [nonneg_iff] at hpos hret
  exact toInt_add (by omega) (by omega)

/-! ### Transfers -/

/-- The transfer failed, or it moved the position by what it returned. -/
def Done.Advances (r : Done δ) (pos : LoffT) : Prop :=
  r.ret < 0 ∨ 0 ≤ r.ret ∧ ∃ pos', r.pos = some pos' ∧ pos'.toInt = pos.toInt + r.ret.toInt

section

variable {r : Moved δ} {pos : LoffT} {n : ℕ}

lemma Moved.Honest.toInt_pos (h : r.Honest pos n) (hpos : 0 ≤ pos) (hroom : pos.toInt + n < 2 ^ 63)
    (hret : 0 ≤ r.ret) : r.pos.toInt = pos.toInt + r.ret.toInt := by
  rcases h with ⟨hneg, -⟩ | ⟨-, hle, hmoved⟩
  · exact absurd hret (Int64.not_le.mpr hneg)
  · rw [hmoved]
    exact toInt_add_of_room hpos hret hle hroom

/-- The position is stored, whatever came of the transfer. -/
lemma Moved.Honest.advances (h : r.Honest pos n) (hpos : 0 ≤ pos)
    (hroom : pos.toInt + n < 2 ^ 63) (io : IoAccounting) :
    Done.Advances ⟨r.ret, store (some pos) r.pos, r.storage, io⟩ pos := by
  by_cases hret : 0 ≤ r.ret
  · exact Or.inr ⟨hret, r.pos, rfl, h.toInt_pos hpos hroom hret⟩
  · exact Or.inl (Int64.not_le.mp hret)

end

section

variable {v : Vfs δ} {f : ℕ} {dir : Direction} {pos : LoffT} {a : Answers} {d : δ}
  {io : IoAccounting}

end

/-! ### Seeking -/

section

variable {o : OpenFile δ} {c : Cursor}

end

end Taro.Files
