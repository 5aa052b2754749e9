import TaroKernel.Registry.Syscalls

/-!
# What a get reports

The loop of `taro_get_memory_limits` counts in an `int`. As long as the registry has at most
`2 ^ 31` entries, the count can only overflow in its very last step, to a negative number whose
byte count no `copy_to_user` accepts. So a get that returns 0 reports the front of the registry.
-/

namespace Taro

variable {Signal : Type*}

lemma toNat_toSizeT_ofNat {n : ℕ} (h : n < 2 ^ 31) : (toSizeT (Int32.ofNat n)).toNat = n := by
  have hint : (Int32.ofNat n).toInt64.toInt = n := by
    rw [Int32.toInt_toInt64, Int32.toInt_ofNat_of_lt h]
  have hnonneg : (0 : Int64) ≤ (Int32.ofNat n).toInt64 := by
    rw [Int64.le_iff_toInt_le, hint]
    exact Int.natCast_nonneg n
  rw [toSizeT, Int64.toNat_toUInt64_of_le hnonneg, Int64.toNatClampNeg, hint, Int.toNat_natCast]

/-- The loop takes entries from the front until the buffer is full. -/
lemma fillBuffer_eq (maxEntries : SizeT) (l kBuffer : List MemoryLimitation)
    (hlen : kBuffer.length + l.length ≤ 2 ^ 31) (hk : kBuffer.length ≤ maxEntries.toNat) :
    fillBuffer maxEntries l (Int32.ofNat kBuffer.length) kBuffer =
      (Int32.ofNat (kBuffer ++ l.take (maxEntries.toNat - kBuffer.length)).length,
        kBuffer ++ l.take (maxEntries.toNat - kBuffer.length)) := by
  induction l generalizing kBuffer with
  | nil => simp [fillBuffer]
  | cons temp rest ih =>
    rw [List.length_cons] at hlen
    have hcount : (toSizeT (Int32.ofNat kBuffer.length)).toNat = kBuffer.length :=
      toNat_toSizeT_ofNat (by omega)
    unfold fillBuffer
    split_ifs with hfull
    · -- the buffer is full: nothing more is taken
      have heq : maxEntries.toNat - kBuffer.length = 0 := by
        have := UInt64.le_iff_toNat_le.mp hfull
        omega
      simp [heq]
    · have hroom : kBuffer.length < maxEntries.toNat := by
        have := UInt64.lt_iff_toNat_lt.mp (UInt64.not_le.mp hfull)
        omega
      have hsucc : Int32.ofNat kBuffer.length + 1 = Int32.ofNat (kBuffer ++ [temp]).length := by
        rw [List.length_append, List.length_singleton, Int32.ofNat_add]
        rfl
      rw [hsucc, ih (kBuffer ++ [temp]) (by simp; omega) (by simp; omega)]
      have htake : maxEntries.toNat - kBuffer.length =
          (maxEntries.toNat - (kBuffer ++ [temp]).length) + 1 := by
        simp
        omega
      rw [htake, List.take_succ_cons]
      simp

lemma fillBuffer_nil_eq (maxEntries : SizeT) (l : List MemoryLimitation)
    (hlen : l.length ≤ 2 ^ 31) :
    fillBuffer maxEntries l 0 [] =
      (Int32.ofNat (l.take maxEntries.toNat).length, l.take maxEntries.toNat) := by
  simpa using fillBuffer_eq maxEntries l [] (by simpa using hlen) (Nat.zero_le _)

/-- A copy that goes through was not longer than `INT_MAX`. -/
lemma copyToUser_eq_zero_iff {n rest : UInt64} :
    copyToUser n rest = 0 ↔ n ≤ INT_MAX ∧ rest = 0 := by
  unfold copyToUser
  split_ifs with h
  · exact ⟨fun hr => ⟨h, hr⟩, fun hr => hr.2⟩
  · refine ⟨fun hn => ?_, fun hn => absurd hn.1 h⟩
    subst hn
    exact absurd (by decide) h

/-- The size of the buffer, in bytes. The one count that overflows asks for a copy that is
refused. -/
lemma copySize_le_iff {n : ℕ} (hn : n ≤ 2 ^ 31) :
    toSizeT (Int32.ofNat n) * recordSize ≤ INT_MAX ↔ n * 16 ≤ 2147483647 := by
  rcases Nat.lt_or_eq_of_le hn with hlt | rfl
  · have hrecord : recordSize.toNat = 16 := rfl
    have hmax : INT_MAX.toNat = 2147483647 := rfl
    rw [UInt64.le_iff_toNat_le, UInt64.toNat_mul, toNat_toSizeT_ofNat hlt, hrecord, hmax,
      Nat.mod_eq_of_lt (by omega)]
  · decide

lemma count_lt_of_copy_ok {n : ℕ} (hn : n ≤ 2 ^ 31)
    (h : toSizeT (Int32.ofNat n) * recordSize ≤ INT_MAX) : n < 2 ^ 31 := by
  have hsize := (copySize_le_iff hn).mp h
  omega

variable {l : List MemoryLimitation} {u c : UInt64} {n : SizeT} {o : Outcomes Signal}

/-- A get that returns 0 copied the first `min (length, max_entries)` entries and their number. -/
theorem taroGetMemoryLimits_ok (hlen : l.length ≤ 2 ^ 31)
    (h : (taroGetMemoryLimits l u n c o).code = 0) :
    ∃ count : Int32, count.toInt = min l.length n.toNat ∧
      (taroGetMemoryLimits l u n c o).copied = ⟨some (l.take n.toNat), some count⟩ := by
  unfold taroGetMemoryLimits at h ⊢
  dsimp only at h ⊢
  rw [fillBuffer_nil_eq n l hlen] at h ⊢
  split_ifs at h ⊢ with hargs hk hbuf hcount
  · simp [EINVAL] at h
  · simp [ENOMEM] at h
  · simp [EFAULT] at h
  · simp [EFAULT] at h
  · have hle : (l.take n.toNat).length ≤ 2 ^ 31 :=
      Nat.le_trans (List.length_take_le' _ _) hlen
    have hlt := count_lt_of_copy_ok hle (copyToUser_eq_zero_iff.mp (not_not.mp hbuf)).1
    refine ⟨_, ?_, rfl⟩
    rw [Int32.toInt_ofNat_of_lt hlt, List.length_take, Nat.min_comm]

lemma taroGetMemoryLimits_records {records : List MemoryLimitation} (hlen : l.length ≤ 2 ^ 31)
    (h : (taroGetMemoryLimits l u n c o).code = 0)
    (hrec : (taroGetMemoryLimits l u n c o).copied.uProcessesBuffer = some records) :
    records = l.take n.toNat := by
  obtain ⟨count, _, hcopied⟩ := taroGetMemoryLimits_ok hlen h
  rw [hcopied] at hrec
  exact (Option.some.inj hrec).symm

end Taro
