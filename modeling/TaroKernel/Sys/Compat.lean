import TaroKernel.Sys.LimitHistory

/-!
# Limits of 32-bit programs

A 32-bit program sees limits through words of 32 bits, where the largest one stands for no limit.
What it sets it reads back. But what it reads it cannot always write back: a limit that is too large
for 32 bits and not infinite reads as infinite, so writing it back asks for more than the process
has.
-/

namespace Taro.Sys

variable {Signal : Type*} [DecidableEq Signal]

/-- A word that a 32-bit program sees as it is. -/
def Fits (r : UInt64) : Prop := r < COMPAT_RLIM_INFINITY.toUInt64 ∨ r = RLIM_INFINITY

instance (r : UInt64) : Decidable (Fits r) := inferInstanceAs (Decidable (_ ∨ _))

/-- What a word becomes that a 32-bit program reads and writes back. -/
lemma fromCompat_toCompat (r : UInt64) :
    fromCompat (toCompat r) = if r < COMPAT_RLIM_INFINITY.toUInt64 then r else RLIM_INFINITY := by
  unfold fromCompat toCompat
  have hmax : COMPAT_RLIM_INFINITY.toUInt64.toNat = 4294967295 := rfl
  by_cases hlt : r < COMPAT_RLIM_INFINITY.toUInt64
  · have hnat : r.toNat < 4294967295 := hmax ▸ UInt64.lt_iff_toNat_lt.mp hlt
    have hr : r.toUInt32.toNat = r.toNat := by
      rw [UInt64.toNat_toUInt32]
      exact Nat.mod_eq_of_lt (by omega)
    have hne : r.toUInt32 ≠ COMPAT_RLIM_INFINITY := by
      intro h
      rw [← UInt32.toNat_inj, hr] at h
      exact absurd h (Nat.ne_of_lt hnat)
    rw [if_neg (UInt64.not_lt.mpr (UInt64.le_of_lt hlt)), if_neg hne, if_pos hlt,
      ← UInt64.toNat_inj, UInt32.toNat_toUInt64, hr]
  · rw [if_neg hlt]
    by_cases hgt : r > COMPAT_RLIM_INFINITY.toUInt64
    · rw [if_pos hgt, if_pos rfl]
    · have heq : r = COMPAT_RLIM_INFINITY.toUInt64 :=
        UInt64.le_antisymm (UInt64.not_lt.mp hgt) (UInt64.not_lt.mp hlt)
      rw [if_neg hgt, heq]
      rfl

lemma fromCompat_toCompat_eq_iff {r : UInt64} : fromCompat (toCompat r) = r ↔ Fits r := by
  rw [fromCompat_toCompat]
  unfold Fits
  split_ifs with hlt
  · exact iff_of_true rfl (Or.inl hlt)
  · exact ⟨fun h => Or.inr h.symm, fun h => (h.resolve_left hlt).symm⟩

/-- Reading and writing back never lowers a word. -/
lemma le_fromCompat_toCompat (r : UInt64) : r ≤ fromCompat (toCompat r) := by
  rw [fromCompat_toCompat]
  split_ifs
  · exact UInt64.le_refl r
  · exact UInt64.le_iff_toNat_le.mpr (Nat.le_of_lt_succ r.toNat_lt)

lemma fromCompat_toCompat_mono {r r' : UInt64} (h : r ≤ r') :
    fromCompat (toCompat r) ≤ fromCompat (toCompat r') := by
  rw [fromCompat_toCompat, fromCompat_toCompat]
  split_ifs with hr hr'
  · exact h
  · exact UInt64.le_iff_toNat_le.mpr (Nat.le_of_lt_succ r.toNat_lt)
  · exact absurd (UInt64.lt_of_le_of_lt h ‹_›) hr
  · exact UInt64.le_refl _

lemma toCompat_fromCompat (r32 : UInt32) : toCompat (fromCompat r32) = r32 := by
  unfold fromCompat toCompat
  split_ifs with hinf hgt hgt
  · exact hinf.symm
  · exact absurd (by decide : RLIM_INFINITY > COMPAT_RLIM_INFINITY.toUInt64) hgt
  · have hnat : 4294967295 < r32.toNat := by
      have h := UInt64.lt_iff_toNat_lt.mp hgt
      rw [UInt32.toNat_toUInt64, UInt32.toNat_toUInt64] at h
      exact h
    have hlt := r32.toNat_lt
    omega
  · exact UInt32.toUInt32_toUInt64 r32

/-! ### Round trips -/

/-- What a 32-bit program sees of a limit. -/
def seen32 (r : Rlimit) : CompatRlimit := ⟨toCompat r.rlimCur, toCompat r.rlimMax⟩

/-- What it sets when it asks for a limit. -/
def asked (r32 : CompatRlimit) : Rlimit := ⟨fromCompat r32.rlimCur, fromCompat r32.rlimMax⟩

variable {s : Limits Signal} {resource : UInt32} {current : Process Signal}
  {a : LimitAnswers Signal}

lemma compatGetrlimit_eq (hres : resource < RLIM_NLIMITS) (hcopy : a.copyToUser = 0) :
    (compatGetrlimit s resource current a).1 =
      ⟨0, .compat (some (seen32 (s current.signal (arrayIndexNospec resource))).rlimCur)
        (some (seen32 (s current.signal (arrayIndexNospec resource))).rlimMax)⟩ := by
  simp [compatGetrlimit, getrlimitWith, report, doPrlimitOn, doPrlimit, UInt32.not_le.mpr hres,
    reported, copyStruct, hcopy, seen32]

lemma compatSetrlimit_code (r32 : CompatRlimit) :
    (compatSetrlimit s resource (some r32) current a).1.code =
      (doPrlimit (s current.signal) resource (some (asked r32)) false a.toPrlimitAnswers).retval :=
  rfl

lemma compatSetrlimit_limits {r32 : CompatRlimit}
    (h : (compatSetrlimit s resource (some r32) current a).1.code = 0) :
    (compatSetrlimit s resource (some r32) current a).2 =
      s.set current.signal (arrayIndexNospec resource) (asked r32) := by
  refine (setrlimit_eq resource (some (asked r32)) current).trans ?_
  rw [if_pos (show (setrlimit s resource (some (asked r32)) current a).1.code = 0 from h)]
  rfl

/-- A 32-bit program reads back the limit it has set. -/
theorem compat_set_get (r32 : CompatRlimit) {a' : LimitAnswers Signal} (hcopy : a'.copyToUser = 0)
    (h : (compatSetrlimit s resource (some r32) current a).1.code = 0) :
    (compatGetrlimit (compatSetrlimit s resource (some r32) current a).2 resource current a').1 =
      ⟨0, .compat (some r32.rlimCur) (some r32.rlimMax)⟩ := by
  have hres : resource < RLIM_NLIMITS := (doPrlimit_set_iff.mp h).1
  have hseen : seen32 (asked r32) = r32 := by
    rw [seen32, asked, toCompat_fromCompat, toCompat_fromCompat]
  rw [compatGetrlimit_eq hres hcopy, compatSetrlimit_limits h, Limits.set_apply, if_pos ⟨rfl, rfl⟩,
    hseen]

/-- A program that reads a limit in 32 bits and writes it back. Without `CAP_SYS_RESOURCE` this is
refused exactly if the hard limit does not fit; if it goes through, the limit is what it was
exactly if both words fit. -/
theorem compat_get_set (hord : s.Ordered) (hres : resource < RLIM_NLIMITS)
    (hfiles : resource ≠ RLIMIT_NOFILE) (hlsm : a.securityTaskSetrlimit = 0) :
    let r := s current.signal (arrayIndexNospec resource)
    let back := compatSetrlimit s resource (some (seen32 r)) current a
    (back.1.code = 0 ↔ Fits r.rlimMax ∨ a.capable = true) ∧
      (back.1.code = 0 → (back.2 = s ↔ Fits r.rlimCur ∧ Fits r.rlimMax)) := by
  intro r back
  have hle : (asked (seen32 r)).rlimCur ≤ (asked (seen32 r)).rlimMax :=
    fromCompat_toCompat_mono (hord _ _)
  have hmax : (asked (seen32 r)).rlimMax ≤ r.rlimMax ↔ Fits r.rlimMax := by
    rw [← fromCompat_toCompat_eq_iff]
    refine ⟨fun h => UInt64.le_antisymm h (le_fromCompat_toCompat _), fun h => ?_⟩
    exact UInt64.le_of_eq h
  constructor
  · rw [compatSetrlimit_code, doPrlimit_set_iff]
    refine ⟨fun h => h.2.1.hard.imp hmax.mp id, fun h => ?_⟩
    exact ⟨hres, ⟨hle, h.imp hmax.mpr id⟩, fun hnofile => hfiles hnofile.1, hlsm⟩
  · intro hcode
    rw [compatSetrlimit_limits hcode, Limits.set, Function.update_eq_self_iff,
      Function.update_eq_self_iff, ← fromCompat_toCompat_eq_iff, ← fromCompat_toCompat_eq_iff]
    exact (Rlimit.mk.injEq ..).to_iff

/-- A process with a hard limit of 2 ^ 40 cannot write back what it reads. -/
theorem compat_get_set_large :
    let s : Limits Unit := fun _ _ => ⟨4096, 1099511627776⟩
    let back := compatSetrlimit s RLIMIT_AS (some (seen32 ⟨4096, 1099511627776⟩)) plainProcess
      (plainAnswers 0)
    ¬ Fits 1099511627776 ∧
      (back.1.code = 0 ↔ Fits 1099511627776 ∨ (plainAnswers 0).capable = true) ∧
      (back.1.code = 0 → (back.2 = s ↔ Fits 4096 ∧ Fits 1099511627776)) :=
  ⟨by decide, compat_get_set
    (fun _ _ => (by decide : (4096 : UInt64) ≤ 1099511627776)) (by decide) (by decide) (by decide)⟩

end Taro.Sys
