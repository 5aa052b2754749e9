import Mathlib.Algebra.Group.Int.Defs
import Mathlib.Algebra.Group.Nat.Defs
import Mathlib.Tactic.SplitIfs

/-!
# Signed words

The 64-bit words of two's complement as integers, and as unsigned words. A sum of signed words is
the sum of integers as long as that is in range, and its sign tells whether it was.
-/

namespace Signed

variable {x y : Int64} {n : UInt64}

/-- A word in terms of its unsigned value. -/
lemma toInt_eq (x : Int64) :
    x.toInt = if x.toUInt64.toNat < 2 ^ 63 then (x.toUInt64.toNat : Int)
      else (x.toUInt64.toNat : Int) - 2 ^ 64 := by
  have hbits : x.toInt = x.toBitVec.toInt := rfl
  have hnat : x.toBitVec.toNat = x.toUInt64.toNat := rfl
  rw [hbits, BitVec.toInt_eq_toNat_cond, hnat]
  split_ifs
  · rfl
  · omega
  · omega
  · rfl

lemma nonneg_iff : 0 ≤ x ↔ 0 ≤ x.toInt := Int64.le_iff_toInt_le

lemma neg_iff : x < 0 ↔ x.toInt < 0 := Int64.lt_iff_toInt_lt

lemma toNat_toUInt64 (h : 0 ≤ x) : (x.toUInt64.toNat : Int) = x.toInt := by
  have hx := toInt_eq x
  have hlt := x.toUInt64.toNat_lt
  rw [nonneg_iff] at h
  split_ifs at hx
  · exact hx.symm
  · omega

lemma toNat_toUInt64_of_neg (h : x < 0) : (x.toUInt64.toNat : Int) = x.toInt + 2 ^ 64 := by
  have hx := toInt_eq x
  rw [neg_iff] at h
  split_ifs at hx
  · omega
  · omega

lemma toInt_toInt64 (h : n.toNat < 2 ^ 63) : n.toInt64.toInt = n.toNat := by
  rw [toInt_eq, UInt64.toUInt64_toInt64, if_pos h]

lemma toInt64_neg_iff : n.toInt64 < 0 ↔ 2 ^ 63 ≤ n.toNat := by
  have hn := toInt_eq n.toInt64
  have hlt := n.toNat_lt
  rw [neg_iff]
  rw [UInt64.toUInt64_toInt64] at hn
  split_ifs at hn
  · omega
  · omega

lemma toInt_add (h₁ : -2 ^ 63 ≤ x.toInt + y.toInt) (h₂ : x.toInt + y.toInt < 2 ^ 63) :
    (x + y).toInt = x.toInt + y.toInt := by
  rw [Int64.toInt_add]
  exact Int.bmod_eq_of_le (by omega) (by omega)

lemma toInt_sub (h₁ : -2 ^ 63 ≤ x.toInt - y.toInt) (h₂ : x.toInt - y.toInt < 2 ^ 63) :
    (x - y).toInt = x.toInt - y.toInt := by
  rw [Int64.toInt_sub]
  exact Int.bmod_eq_of_le (by omega) (by omega)

/-- A sum that is too large goes round to the negative words. -/
lemma toInt_add_of_le (h : 2 ^ 63 ≤ x.toInt + y.toInt) :
    (x + y).toInt = x.toInt + y.toInt - 2 ^ 64 := by
  have hx := x.toInt_lt
  have hy := y.toInt_lt
  have hshift : (x.toInt + y.toInt).bmod (2 ^ 64) = (x.toInt + y.toInt - 2 ^ 64).bmod (2 ^ 64) := by
    rw [show x.toInt + y.toInt - 2 ^ 64 = x.toInt + y.toInt - ((2 ^ 64 : ℕ) : Int) from rfl,
      Int.sub_bmod_right]
  rw [Int64.toInt_add, hshift]
  exact Int.bmod_eq_of_le (by omega) (by omega)

/-- The sign of a sum with a word that is not negative: below zero if the sum of integers is, or if
it is too large. -/
lemma add_neg_iff (hx : 0 ≤ x) :
    x + y < 0 ↔ x.toInt + y.toInt < 0 ∨ 2 ^ 63 ≤ x.toInt + y.toInt := by
  rw [nonneg_iff] at hx
  rw [neg_iff]
  have hlt := x.toInt_lt
  have hyl := y.le_toInt
  have hyu := y.toInt_lt
  by_cases h : 2 ^ 63 ≤ x.toInt + y.toInt
  · rw [toInt_add_of_le h]
    omega
  · rw [toInt_add (by omega) (by omega)]
    omega

/-- The same for a sum in unsigned words. -/
lemma toInt64_add_neg_iff (hx : 0 ≤ x) (hn : n.toNat < 2 ^ 63) :
    (x.toUInt64 + n).toInt64 < 0 ↔ 2 ^ 63 ≤ x.toInt + n.toNat := by
  rw [UInt64.toInt64_add, Int64.toInt64_toUInt64, add_neg_iff hx, toInt_toInt64 hn]
  rw [nonneg_iff] at hx
  omega

lemma toInt_min (x y : Int64) : (min x y).toInt = min x.toInt y.toInt := by
  rw [show min x y = if x ≤ y then x else y from rfl]
  split_ifs with h
  · rw [Int.min_eq_left (Int64.le_iff_toInt_le.mp h)]
  · rw [Int64.le_iff_toInt_le] at h
    rw [Int.min_eq_right (by omega)]

lemma toNat_min (m n : UInt64) : (min m n).toNat = min m.toNat n.toNat := by
  rw [show min m n = if m ≤ n then m else n from rfl]
  split_ifs with h
  · rw [Nat.min_eq_left (UInt64.le_iff_toNat_le.mp h)]
  · rw [UInt64.le_iff_toNat_le] at h
    rw [Nat.min_eq_right (by omega)]

/-- Unsigned sums. -/
lemma toNat_toUInt64_add (hx : 0 ≤ x) (h : x.toInt + n.toNat < 2 ^ 64) :
    ((x.toUInt64 + n).toNat : Int) = x.toInt + n.toNat := by
  have hx' := toNat_toUInt64 hx
  rw [UInt64.toNat_add, Nat.mod_eq_of_lt (by omega)]
  omega

end Signed
