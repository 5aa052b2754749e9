import TaroKernel.Kernel
import TaroKernel.Lib.Layout

/-!
# Copies to user memory

`copy_to_user(to, from, n)` as `include/linux/uaccess.h` describes it: if it returns `N`, the first
`n - N` bytes at `to` have become those at `from`, and nothing past them has changed. So a copy that
fails may have written a part of what it was given.
-/

namespace Taro

open Bytes

/-- What a copy of `n` bytes returns: at most `n`, and all of them if `check_copy_size` refuses. -/
def leftOut (n : ℕ) (rest : UInt64) : ℕ :=
  min (copyToUser (UInt64.ofNat n) rest).toNat n

/-- `copy_to_user`, where `source` is what stands at `from`: its return value and what it wrote. -/
def copyOut (dst : UInt64) (source : List UInt8) (rest : UInt64) : ℕ × Write UInt8 :=
  (leftOut source.length rest,
    ⟨dst, source.take (source.length - leftOut source.length rest)⟩)

/-- The result of a call: its return value, and what its copies wrote, in order. -/
structure UserRet where
  code : Int
  writes : List (Write UInt8)
  deriving DecidableEq, Repr

/-- The user memory after the call. -/
def UserRet.memory (r : UserRet) (m : UInt64 → UInt8) : UInt64 → UInt8 := replay m r.writes

variable {dst rest : UInt64} {source : List UInt8}

lemma copyOut_cells (dst : UInt64) (source : List UInt8) (rest : UInt64) :
    (copyOut dst source rest).2.cells =
      source.take (source.length - leftOut source.length rest) := rfl

/-- A copy that returns 0 was not longer than `INT_MAX`. -/
lemma le_of_leftOut_eq_zero {n rest : UInt64} (h : leftOut n.toNat rest = 0) : n ≤ INT_MAX := by
  by_contra hn
  rw [leftOut, UInt64.ofNat_toNat, copyToUser, if_neg hn, Nat.min_self] at h
  rw [UInt64.le_iff_toNat_le, h] at hn
  exact hn (Nat.zero_le _)

/-- How far a copy gets: not at all if `check_copy_size` refuses it. -/
lemma sub_leftOut_le_iff {n : ℕ} (hn : n < 2 ^ 64) (rest : UInt64) (k : ℕ) :
    n - leftOut n rest ≤ k ↔ 2 ^ 31 ≤ n ∨ n ≤ rest.toNat + k := by
  have hmax : UInt64.ofNat n ≤ INT_MAX ↔ n < 2 ^ 31 := by
    have hINT_MAX : INT_MAX.toNat = 2 ^ 31 - 1 := rfl
    rw [UInt64.le_iff_toNat_le, UInt64.toNat_ofNat_of_lt' hn, hINT_MAX]
    omega
  rw [leftOut, copyToUser]
  split_ifs with h
  · have hlt := hmax.mp h
    omega
  · have hle := Nat.not_lt.mp (mt hmax.mpr h)
    rw [UInt64.toNat_ofNat_of_lt' hn]
    omega

/-- An answer that leaves out no more than there is stands for itself. -/
lemma leftOut_eq_zero_iff {n rest : UInt64} (h : rest ≤ n) :
    leftOut n.toNat rest = 0 ↔ copyToUser n rest = 0 := by
  have hle : (copyToUser n rest).toNat ≤ n.toNat := by
    unfold copyToUser
    split_ifs
    · exact UInt64.le_iff_toNat_le.mp h
    · exact Nat.le_refl _
  rw [leftOut, UInt64.ofNat_toNat, Nat.min_eq_left hle, ← UInt64.toNat_inj]
  rfl

/-- A copy that returns 0 wrote everything. -/
lemma copyOut_of_eq_zero (h : (copyOut dst source rest).1 = 0) :
    (copyOut dst source rest).2 = ⟨dst, source⟩ := by
  have hleft : leftOut source.length rest = 0 := h
  simp [copyOut, hleft]

end Taro
