import TaroKernel.Registry.Get
import TaroKernel.UserMemory

/-!
# What a get leaves in user memory

`taro_get_memory_limits` down to the bytes: `k_buffer` is an array of 16-byte records in kernel
memory whose earlier content is arbitrary, each record gets its two fields assigned, and the front
of the array is copied out as it stands. The layout the user programs declare
(`Pruebas/pruebas3p/PruebasUnitarias/taro_get.c`) finds in the copy the entries that
`Taro.taroGetMemoryLimits` says are reported.
-/

namespace Taro.User

open Bytes

variable {Signal : Type*}

/-- The fields of a record of `k_buffer`: `pid` at its start, `memory_limit` at offset 8. The four
bytes in between belong to no field. -/
def recordFields (temp : MemoryLimitation) : List (ℕ × List UInt8) :=
  [(0, Code.i32.encode temp.pid), (8, Code.u64.encode temp.memoryLimit)]

lemma packed_recordFields (temp : MemoryLimitation) : Packed 0 16 (recordFields temp) := by
  simp [recordFields, Packed]

/-- The records of `k_buffer`, read as the `struct memory_limitation` of the user programs: a
`pid_t` at offset 0 and a `size_t` at offset 8, 16 bytes in all. -/
def recordLayout : Layout MemoryLimitation where
  size := 16
  size_le := two_words_le
  fields := recordFields
  packed := packed_recordFields
  decode bs := ⟨Code.i32.field 0 bs, Code.u64.field 8 bs⟩
  decode_assign m a temp := by
    rw [Code.i32.field_assign (v := temp.pid) m a (packed_recordFields temp) (by decide)
        (by simp [recordFields]),
      Code.u64.field_assign (v := temp.memoryLimit) m a (packed_recordFields temp) (by decide)
        (by simp [recordFields])]

/-- The loop of `taro_get_memory_limits`. -/
def fillBuffer (maxEntries : SizeT) :
    List MemoryLimitation → Int32 → (UInt64 → UInt8) → Int32 × (UInt64 → UInt8)
  | [],           count, kBuffer => (count, kBuffer)
  | temp :: rest, count, kBuffer =>
    if toSizeT count ≥ maxEntries then (count, kBuffer)
    else fillBuffer maxEntries rest (count + 1)
      (recordLayout.store kBuffer (toSizeT count * recordSize) temp)

/-- `taro_get_memory_limits`; `kBuffer` is what `kmalloc_array` found in the memory it returned. -/
def taroGetMemoryLimits (memoryLimitList : List MemoryLimitation) (uProcessesBuffer : UInt64)
    (maxEntries : SizeT) (processesReturned : UInt64) (o : Outcomes Signal)
    (kBuffer : UInt64 → UInt8) : UserRet :=
  if uProcessesBuffer = 0 ∨ processesReturned = 0 ∨ maxEntries ≤ 0 then ⟨-EINVAL, []⟩
  else if o.kmalloc = false then ⟨-ENOMEM, []⟩
  else
    let filled := fillBuffer maxEntries memoryLimitList 0 kBuffer
    let count := filled.1
    let records := copyOut uProcessesBuffer
      (read filled.2 0 (toSizeT count * recordSize).toNat) o.copyBuffer
    if records.1 ≠ 0 then ⟨-EFAULT, [records.2]⟩
    else
      let number := copyOut processesReturned (Code.i32.encode count) o.copyCount
      if number.1 ≠ 0 then ⟨-EFAULT, [records.2, number.2]⟩
      else ⟨0, [records.2, number.2]⟩

/-! ### The loop -/

lemma recordAddr_eq {n : ℕ} (hn : n < 2 ^ 31) :
    toSizeT (Int32.ofNat n) * recordSize = UInt64.ofNat (16 * n) := by
  apply UInt64.toNat_inj.mp
  have hrecord : recordSize.toNat = 16 := rfl
  rw [UInt64.toNat_mul, toNat_toSizeT_ofNat hn, hrecord, UInt64.toNat_ofNat', Nat.mul_comm]

/-- The bytes of the buffer hold the records that `Taro.fillBuffer` collects. -/
lemma fillBuffer_refines (maxEntries : SizeT) (l records : List MemoryLimitation)
    (kBuffer : UInt64 → UInt8) (hlen : records.length + l.length ≤ 2 ^ 31)
    (hk : recordLayout.loadArray kBuffer 0 records.length = records) :
    let bytes := fillBuffer maxEntries l (Int32.ofNat records.length) kBuffer
    let filled := Taro.fillBuffer maxEntries l (Int32.ofNat records.length) records
    bytes.1 = filled.1 ∧ recordLayout.loadArray bytes.2 0 filled.2.length = filled.2 := by
  induction l generalizing records kBuffer with
  | nil => exact ⟨rfl, hk⟩
  | cons temp rest ih =>
    rw [List.length_cons] at hlen
    simp only [fillBuffer, Taro.fillBuffer]
    split_ifs with hfull
    · exact ⟨rfl, hk⟩
    · have hsucc : Int32.ofNat records.length + 1 = Int32.ofNat (records ++ [temp]).length := by
        rw [List.length_append, List.length_singleton, Int32.ofNat_add]
        rfl
      have haddr : toSizeT (Int32.ofNat records.length) * recordSize =
          0 + UInt64.ofNat (recordLayout.size * records.length) := by
        rw [UInt64.zero_add]
        exact recordAddr_eq (by omega)
      have hroom : recordLayout.size * (records.length + 1) ≤ 2 ^ 64 := by
        change 16 * (records.length + 1) ≤ 2 ^ 64
        omega
      rw [hsucc, haddr]
      apply ih (records ++ [temp])
      · simp
        omega
      · rw [List.length_append, List.length_singleton, recordLayout.loadArray_store _ _ _ hroom, hk]

/-- What the loop leaves in the buffer, for a registry that an `int` can count. -/
lemma fillBuffer_eq (maxEntries : SizeT) (l : List MemoryLimitation) (kBuffer : UInt64 → UInt8)
    (hlen : l.length ≤ 2 ^ 31) :
    (fillBuffer maxEntries l 0 kBuffer).1 = Int32.ofNat (l.take maxEntries.toNat).length ∧
      recordLayout.loadArray (fillBuffer maxEntries l 0 kBuffer).2 0
        (l.take maxEntries.toNat).length = l.take maxEntries.toNat := by
  have h := fillBuffer_refines maxEntries l [] kBuffer (by simpa using hlen) rfl
  have hzero : Int32.ofNat ([] : List MemoryLimitation).length = 0 := rfl
  dsimp only at h
  rw [hzero, fillBuffer_nil_eq maxEntries l hlen] at h
  exact h

/-! ### The call -/

variable {l : List MemoryLimitation} {u c : UInt64} {n : SizeT} {o : Outcomes Signal}
  {kBuffer : UInt64 → UInt8}

/-- With answers that leave out no more bytes than a copy has, the call returns what it returns on
lists of entries. -/
theorem taroGetMemoryLimits_code_eq (hlen : l.length ≤ 2 ^ 31)
    (hbuf : o.copyBuffer ≤ toSizeT (Taro.fillBuffer n l 0 []).1 * recordSize)
    (hnum : o.copyCount ≤ 4) :
    (taroGetMemoryLimits l u n c o kBuffer).code = (Taro.taroGetMemoryLimits l u n c o).code := by
  have hcount : (fillBuffer n l 0 kBuffer).1 = (Taro.fillBuffer n l 0 []).1 := by
    rw [(fillBuffer_eq n l kBuffer hlen).1, fillBuffer_nil_eq n l hlen]
  have hfour : ∀ v, (Code.i32.encode v).length = (4 : UInt64).toNat := Code.i32.length_encode
  simp only [taroGetMemoryLimits, Taro.taroGetMemoryLimits, copyOut, length_read, hcount, hfour,
    ne_eq, leftOut_eq_zero_iff hbuf, leftOut_eq_zero_iff hnum]
  split_ifs <;> rfl

/-- A get that returns 0 made both its copies in full. -/
lemma writes_of_code_eq_zero (h : (taroGetMemoryLimits l u n c o kBuffer).code = 0) :
    let filled := fillBuffer n l 0 kBuffer
    toSizeT filled.1 * recordSize ≤ INT_MAX ∧
      (taroGetMemoryLimits l u n c o kBuffer).writes =
        [⟨u, read filled.2 0 (toSizeT filled.1 * recordSize).toNat⟩,
          ⟨c, Code.i32.encode filled.1⟩] := by
  unfold taroGetMemoryLimits at h ⊢
  dsimp only at h ⊢
  split_ifs at h ⊢ with hargs hk hbuf hnum
  · exact absurd h (by decide)
  · exact absurd h (by decide)
  · exact absurd h (show -EFAULT ≠ 0 by decide)
  · exact absurd h (show -EFAULT ≠ 0 by decide)
  · rw [copyOut_of_eq_zero (not_not.mp hbuf), copyOut_of_eq_zero (not_not.mp hnum)]
    have hleft := not_not.mp hbuf
    simp only [copyOut, length_read] at hleft
    exact ⟨le_of_leftOut_eq_zero hleft, rfl⟩

/-- Let a get return 0, its buffer of `max_entries` records not overlapping the `int` for their
number. Then that number is `min (length, max_entries)`, so many records read as the user programs
declare them are the first entries of the registry, and neither another byte of user memory nor
the registry has changed. -/
theorem get_decodes [DecidableEq Signal] (s : Kernel Signal)
    (hlen : s.memoryLimitList.length < 2 ^ 31) (u c : UInt64) (n : SizeT) (o : Outcomes Signal)
    (kBuffer m : UInt64 → UInt8)
    (hdisjoint : ∀ a, Within u (16 * n.toNat) a → ¬ Within c 4 a)
    (hcode : (taroGetMemoryLimits s.memoryLimitList u n c o kBuffer).code = 0) :
    let m' := (taroGetMemoryLimits s.memoryLimitList u n c o kBuffer).memory m
    let count := min s.memoryLimitList.length n.toNat
    (Code.i32.load m' c).toInt = count ∧
    recordLayout.loadArray m' u count = s.memoryLimitList.take count ∧
    (∀ a, ¬ Within u (16 * count) a → ¬ Within c 4 a → m' a = m a) ∧
    (syscall s ⟨.get u n c, o⟩).2.memoryLimitList = s.memoryLimitList := by
  obtain ⟨hsize, hwrites⟩ := writes_of_code_eq_zero hcode
  obtain ⟨hcount, hrecords⟩ := fillBuffer_eq n s.memoryLimitList kBuffer (Nat.le_of_lt hlen)
  have htake : (s.memoryLimitList.take n.toNat).length = min s.memoryLimitList.length n.toNat := by
    rw [List.length_take, Nat.min_comm]
  rw [htake] at hcount hrecords
  intro m' count
  have hcount_lt : count < 2 ^ 31 := Nat.lt_of_le_of_lt (Nat.min_le_left _ _) hlen
  rw [hcount, copySize_le_iff (Nat.le_of_lt hcount_lt)] at hsize
  have hsize_lt : 16 * count < 2 ^ 64 := by omega
  rw [hcount, recordAddr_eq hcount_lt, UInt64.toNat_ofNat_of_lt' hsize_lt] at hwrites
  -- the buffer first, then the count
  have hm' : m' = Code.i32.store (write m u (read (fillBuffer n s.memoryLimitList 0 kBuffer).2 0
      (16 * count))) c (Int32.ofNat count) := by
    simp only [m', UserRet.memory, hwrites]
    rfl
  have houtside : ∀ a, ¬ Within c 4 a → m' a =
      write m u (read (fillBuffer n s.memoryLimitList 0 kBuffer).2 0 (16 * count)) a := by
    intro a ha
    rw [hm']
    exact Code.i32.store_of_not_within ha
  refine ⟨?_, ?_, ?_, rfl⟩
  · rw [hm', Code.load_store, Int32.toInt_ofNat_of_lt hcount_lt]
  · rw [recordLayout.loadArray_congr ?_ fun a ha => houtside a (hdisjoint a (ha.mono ?_)),
      recordLayout.loadArray_write_read _ _ _ _ (Nat.le_of_lt hsize_lt) (Nat.le_refl _), hrecords,
      List.take_eq_take_iff]
    · omega
    · exact Nat.le_of_lt hsize_lt
    · exact Nat.mul_le_mul_left 16 (Nat.min_le_right _ _)
  · intro a hu hc
    rw [houtside a hc]
    exact write_of_not_within (by simpa using hu)

/-- One entry, read from a buffer at 16 with the number of entries at 64. -/
theorem get_decodes_one_entry :
    let s : Kernel Unit := ⟨[⟨7, 4096⟩], fun _ => ⟨0, 0⟩⟩
    let o : Outcomes Unit := ⟨⟨true, true, 0, 0, 0⟩, none⟩
    recordLayout.loadArray ((taroGetMemoryLimits s.memoryLimitList 16 1 64 o fun _ => 255).memory
      fun _ => 0) 16 1 = [⟨7, 4096⟩] := by
  intro s o
  have hdisjoint : ∀ a, Within 16 (16 * (1 : SizeT).toNat) a → ¬ Within 64 4 a := by
    intro a ha hc
    have h₁ : offset 16 a < 16 := ha
    have h₂ := (within_add_ofNat_iff 16 (i := 48) (n := 4) (by decide)).mp hc
    omega
  exact (get_decodes s (by decide) 16 64 1 o (fun _ => 255) (fun _ => 0) hdisjoint
    (by decide)).2.1

end Taro.User
