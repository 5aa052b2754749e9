import Mathlib.Algebra.Order.Floor.Div
import Mathlib.Order.Bounds.Basic

/-!
# Rounding up to a multiple

On natural numbers `d * (n ⌈/⌉ d)` is the least multiple of `d` that is at least `n`. On words of
`w` bits a power of two `a` is rounded up to by adding `a - 1` and clearing the low bits. The sum
may wrap around; it does so exactly for the words above the last multiple of `a` that fits, and
what is left of them is then zero.
-/

namespace Align

theorem isLeast_mul_ceilDiv {d : ℕ} (hd : 0 < d) (n : ℕ) :
    IsLeast {x | d ∣ x ∧ n ≤ x} (d * (n ⌈/⌉ d)) := by
  refine ⟨⟨dvd_mul_right d _, le_smul_ceilDiv hd⟩, ?_⟩
  rintro _ ⟨⟨c, rfl⟩, hn⟩
  exact Nat.mul_le_mul_left d ((ceilDiv_le_iff_le_smul hd).mpr hn)

variable {w k : ℕ} {x a : BitVec w}

/-- Round `x` up to a multiple of `a`, which is a power of two. -/
def alignUp (x a : BitVec w) : BitVec w := (x + (a - 1)) &&& ~~~(a - 1)

/-- Clearing the low `k` bits shifts them out and zeros in. -/
lemma and_not_eq_shift {m : BitVec w} (hm : m.toNat = 2 ^ k - 1) :
    x &&& ~~~m = (x >>> k) <<< k := by
  ext i hi
  have hmask : m[i] = decide (i < k) := by
    rw [← BitVec.getLsbD_eq_getElem, ← BitVec.testBit_toNat, hm, Nat.testBit_two_pow_sub_one]
  by_cases hik : i < k
  · simp [hmask, hik]
  · simp [hmask, hik, hi, Nat.add_sub_cancel' (Nat.not_lt.mp hik)]

lemma toNat_and_not {m : BitVec w} (hm : m.toNat = 2 ^ k - 1) :
    (x &&& ~~~m).toNat = 2 ^ k * (x.toNat / 2 ^ k) := by
  have hle : x.toNat / 2 ^ k * 2 ^ k ≤ x.toNat := Nat.div_mul_le_self _ _
  rw [and_not_eq_shift hm, BitVec.toNat_shiftLeft, BitVec.toNat_ushiftRight,
    Nat.shiftRight_eq_div_pow, Nat.shiftLeft_eq, Nat.mod_eq_of_lt (hle.trans_lt x.isLt),
    Nat.mul_comm]

section PowerOfTwo

variable (ha : a.toNat = 2 ^ k)
include ha

lemma lt_of_toNat_eq : k < w := by
  have hlt := a.isLt
  rw [ha] at hlt
  exact (Nat.pow_lt_pow_iff_right Nat.one_lt_two).mp hlt

lemma toNat_sub_one : (a - 1).toNat = 2 ^ k - 1 := by
  have hone : (1 : BitVec w).toNat = 1 :=
    BitVec.toNat_one (Nat.zero_lt_of_lt (lt_of_toNat_eq ha))
  rw [BitVec.toNat_sub_of_le, ha, hone]
  rw [BitVec.le_def, ha, hone]
  exact Nat.one_le_two_pow

lemma toNat_alignUp :
    (alignUp x a).toNat = 2 ^ k * ((x.toNat + (2 ^ k - 1)) % 2 ^ w / 2 ^ k) := by
  rw [alignUp, toNat_and_not (toNat_sub_one ha), BitVec.toNat_add, toNat_sub_one ha]

/-- There is a multiple that fits exactly if the sum does not wrap around. -/
lemma exists_multiple_iff :
    (∃ n < 2 ^ w, 2 ^ k ∣ n ∧ x.toNat ≤ n) ↔ x.toNat + (2 ^ k - 1) < 2 ^ w := by
  have hpos : 0 < 2 ^ k := Nat.two_pow_pos k
  obtain ⟨c, hc⟩ : 2 ^ k ∣ 2 ^ w := Nat.pow_dvd_pow 2 (lt_of_toNat_eq ha).le
  constructor
  · rintro ⟨_, hlt, ⟨b, rfl⟩, hle⟩
    -- the next multiple is at most `2 ^ w`
    have hbc : b + 1 ≤ c := Nat.lt_of_mul_lt_mul_left (hc ▸ hlt)
    have hnext : 2 ^ k * (b + 1) ≤ 2 ^ w := hc ▸ Nat.mul_le_mul_left _ hbc
    rw [Nat.mul_add_one] at hnext
    omega
  · intro hlt
    obtain ⟨⟨hdvd, hle⟩, hleast⟩ := isLeast_mul_ceilDiv hpos x.toNat
    refine ⟨_, ?_, hdvd, hle⟩
    rw [Nat.ceilDiv_eq_add_pred_div, Nat.add_sub_assoc hpos]
    exact (Nat.mul_div_le _ _).trans_lt hlt

/-- As long as the sum does not wrap around, the result is the least multiple. -/
theorem isLeast_alignUp (h : x.toNat + (2 ^ k - 1) < 2 ^ w) :
    IsLeast {n | 2 ^ k ∣ n ∧ x.toNat ≤ n} (alignUp x a).toNat := by
  have hpos : 0 < 2 ^ k := Nat.two_pow_pos k
  rw [toNat_alignUp ha, Nat.mod_eq_of_lt h, ← Nat.add_sub_assoc hpos,
    ← Nat.ceilDiv_eq_add_pred_div]
  exact isLeast_mul_ceilDiv hpos x.toNat

/-- Of a sum that wraps around only low bits are left. -/
theorem alignUp_eq_zero_of_le (h : 2 ^ w ≤ x.toNat + (2 ^ k - 1)) : alignUp x a = 0 := by
  have hx := x.isLt
  have hkw : 2 ^ k < 2 ^ w := ha ▸ a.isLt
  have hmod : (x.toNat + (2 ^ k - 1)) % 2 ^ w = x.toNat + (2 ^ k - 1) - 2 ^ w := by
    rw [Nat.mod_eq_sub_mod h, Nat.mod_eq_of_lt (by omega)]
  apply BitVec.eq_of_toNat_eq
  rw [toNat_alignUp ha, hmod, Nat.div_eq_of_lt (by omega)]
  simp

end PowerOfTwo

end Align
