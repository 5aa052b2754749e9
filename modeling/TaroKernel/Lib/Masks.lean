import Mathlib.Algebra.Group.Nat.Defs
import Mathlib.Tactic.ByContra
import Mathlib.Tactic.SplitIfs

/-!
# Words as sets of flags

A word is tested against a mask, and flags are raised in it. A flag is a power of two; what is known
of a word is which flags it has, and `Has` says this of words that are put together with `|||`,
`&&&` and `raise`.
-/

namespace Masks

variable {w v : ℕ} {x y m n : BitVec w} {f : BitVec v}

/-- The word has a bit of the mask. -/
def Has (x m : BitVec w) : Prop := x &&& m ≠ 0#w

instance (x m : BitVec w) : Decidable (Has x m) := inferInstanceAs (Decidable (x &&& m ≠ 0#w))

/-- A flag is raised in `y` if `x` has a bit of the mask. -/
def raise (x m : BitVec w) (f y : BitVec v) : BitVec v := if Has x m then y ||| f else y

lemma has_iff : Has x m ↔ ∃ i, x.getLsbD i = true ∧ m.getLsbD i = true := by
  constructor
  · intro h
    by_contra hnone
    refine h (BitVec.eq_of_getLsbD_eq fun i _ => ?_)
    rw [BitVec.getLsbD_and, BitVec.getLsbD_zero, Bool.and_eq_false_iff]
    by_contra hi
    simp only [not_or, Bool.not_eq_false] at hi
    exact hnone ⟨i, hi⟩
  · rintro ⟨i, hx, hm⟩ hzero
    have hbit := congrArg (fun z => z.getLsbD i) hzero
    simp [hx, hm] at hbit

/-! ### Flags and masks -/

lemma has_twoPow {i : ℕ} (hi : i < w) : Has x (.twoPow w i) ↔ x.getLsbD i = true := by
  rw [has_iff]
  constructor
  · rintro ⟨j, hx, hj⟩
    rw [BitVec.getLsbD_twoPow, Bool.and_eq_true, decide_eq_true_eq, decide_eq_true_eq] at hj
    exact hj.2 ▸ hx
  · intro hx
    exact ⟨i, hx, by simp [hi]⟩

/-- A flag has the same place in a narrower word. -/
lemma has_setWidth {i : ℕ} (hv : i < v) (hw : i < w) :
    Has (x.setWidth v) (.twoPow v i) ↔ Has x (.twoPow w i) := by
  rw [has_twoPow hv, has_twoPow hw, BitVec.getLsbD_setWidth, decide_eq_true hv, Bool.true_and]

@[simp] lemma has_zero_left : ¬ Has 0#w m := fun h => h BitVec.zero_and

lemma has_or : Has (x ||| y) m ↔ Has x m ∨ Has y m := by
  simp only [has_iff, BitVec.getLsbD_or, Bool.or_eq_true, or_and_right, exists_or]

lemma has_mask_or : Has x (m ||| n) ↔ Has x m ∨ Has x n := by
  simp only [has_iff, BitVec.getLsbD_or, Bool.or_eq_true, and_or_left, exists_or]

lemma has_and : Has (x &&& y) m ↔ Has x (y &&& m) := by
  rw [Has, Has, BitVec.and_assoc]

lemma Has.mono (h : Has x m) (hmn : m &&& n = m) : Has x n := by
  rw [← hmn, BitVec.and_comm, ← has_and, has_iff] at h
  obtain ⟨i, hx, hm⟩ := h
  rw [BitVec.getLsbD_and, Bool.and_eq_true] at hx
  exact has_iff.mpr ⟨i, hx.1, hx.2⟩

/-- A word has nothing besides the mask if the mask changes nothing. -/
lemma not_has_not : ¬ Has x (~~~m) ↔ x &&& m = x := by
  rw [Has, not_not]
  constructor
  · intro h
    refine BitVec.eq_of_getLsbD_eq fun i hi => ?_
    have hbit := congrArg (fun z => z.getLsbD i) h
    simp only [BitVec.getLsbD_and, BitVec.getLsbD_not, hi, BitVec.getLsbD_zero] at hbit ⊢
    revert hbit
    cases x.getLsbD i <;> simp
  · intro h
    rw [← h, BitVec.and_assoc, BitVec.and_not_self]
    exact BitVec.and_zero

lemma and_or_eq_iff : x &&& (m ||| n) = m ||| n ↔ x &&& m = m ∧ x &&& n = n := by
  constructor
  · intro h
    refine ⟨?_, ?_⟩
    all_goals
      refine BitVec.eq_of_getLsbD_eq fun i _ => ?_
      have hbit := congrArg (fun z => z.getLsbD i) h
      simp only [BitVec.getLsbD_and, BitVec.getLsbD_or] at hbit ⊢
      revert hbit
      cases x.getLsbD i <;> cases m.getLsbD i <;> cases n.getLsbD i <;> simp
  · rintro ⟨hm, hn⟩
    rw [BitVec.and_or_distrib_left, hm, hn]

lemma and_twoPow_eq_iff {i : ℕ} (hi : i < w) :
    x &&& .twoPow w i = .twoPow w i ↔ Has x (.twoPow w i) := by
  rw [has_twoPow hi]
  constructor
  · intro h
    have hbit := congrArg (fun z => z.getLsbD i) h
    simpa [hi] using hbit
  · intro h
    rw [BitVec.and_twoPow, if_pos h]

/-- A mask below `2 ^ k` has no bit from `k` on. -/
lemma getLsbD_ofNat_of_le {a k i : ℕ} (ha : a < 2 ^ k) (hi : k ≤ i) :
    (BitVec.ofNat w a).getLsbD i = false := by
  have hpow : 2 ^ k ≤ 2 ^ i := Nat.pow_le_pow_right (by decide) hi
  rw [BitVec.getLsbD_ofNat, Nat.testBit_lt_two_pow (Nat.lt_of_lt_of_le ha hpow), Bool.and_false]

/-! ### Raising flags -/

lemma has_raise {n : BitVec v} {y : BitVec v} :
    Has (raise x m f y) n ↔ Has y n ∨ Has x m ∧ Has f n := by
  rw [raise]
  split_ifs with h
  · rw [has_or]
    simp only [h, true_and]
  · simp only [h, false_and, or_false]

lemma raise_of_not (h : ¬ Has x m) {y : BitVec v} : raise x m f y = y := if_neg h

end Masks
