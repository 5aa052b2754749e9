import TaroKernel.Kernel
import TaroKernel.Lib.Align

/-!
# Lazy allocation

The syscall of `kernel/usac/taro_tamalloc.c`. It rounds a size up to whole pages and maps that much
without reserving any of it. The one test for a size that cannot be rounded up is whether the
rounded size is zero, and it is enough.
-/

namespace Taro.Tamalloc

open Align

def PAGE_SIZE : UInt64 := 1 <<< PAGE_SHIFT

/-- `ALIGN`. -/
def ALIGN (x a : UInt64) : UInt64 := (x + (a - 1)) &&& ~~~(a - 1)

def PAGE_ALIGN (addr : UInt64) : UInt64 := ALIGN addr PAGE_SIZE

def PROT_READ : UInt64 := 0x1
def PROT_WRITE : UInt64 := 0x2
def MAP_PRIVATE : UInt64 := 0x2
def MAP_ANONYMOUS : UInt64 := 0x20
def MAP_NORESERVE : UInt64 := 0x4000
def VM_READ : UInt64 := 0x1
def VM_WRITE : UInt64 := 0x2
def VM_MAYREAD : UInt64 := 0x10
def VM_MAYWRITE : UInt64 := 0x20

/-- The arguments of `do_mmap`, except for `populate`, which is written and never read. -/
structure DoMmap where
  file : UInt64
  addr : UInt64
  len : UInt64
  prot : UInt64
  flags : UInt64
  vmFlags : UInt64
  pgoff : UInt64
  uf : UInt64
  deriving DecidableEq, Repr

/-- `IS_ERR_VALUE`: the last 4095 values of an `unsigned long` are negated error numbers. -/
def isErrValue (x : UInt64) : Bool := x ≥ -4095

/-- What a call returns, the calls of `do_mmap` it made, and what it printed. -/
structure Outcome where
  code : Int
  calls : List DoMmap
  printed : List String
  deriving DecidableEq, Repr

/-- `taro_tamalloc`; `doMmap` answers `do_mmap`. The result of `do_mmap` is an `unsigned long`, that
of a syscall a `long` with the same bits. -/
def taroTamalloc (doMmap : DoMmap → UInt64) (size : SizeT) : Outcome :=
  if size = 0 then ⟨-EINVAL, [], ["taro_tamalloc: Tamaño de memoria no puede ser 0.\n"]⟩
  else
    let alignedSize := PAGE_ALIGN size
    if alignedSize = 0 then
      ⟨-ENOMEM, [], ["taro_tamalloc: Error en la alineación del tamaño.\n"]⟩
    else
      let vmFlags := VM_READ ||| VM_WRITE ||| VM_MAYREAD ||| VM_MAYWRITE
      let call : DoMmap :=
        { file := 0, addr := 0, len := alignedSize, prot := PROT_READ ||| PROT_WRITE
          flags := MAP_PRIVATE ||| MAP_ANONYMOUS ||| MAP_NORESERVE, vmFlags, pgoff := 0, uf := 0 }
      let addr := doMmap call
      if isErrValue addr then
        ⟨addr.toInt64.toInt, [call], ["taro_tamalloc: Error al mapear la memoria virtual.\n"]⟩
      else
        ⟨addr.toInt64.toInt, [call],
          ["taro_tamalloc: Memoria asignada exitosamente en 0x" ++
            String.ofList (Nat.toDigits 16 addr.toNat) ++ ", tamaño: " ++
            toString alignedSize.toNat ++ " bytes\n"]⟩

/-! ### Rounding up -/

lemma toBitVec_ALIGN (x a : UInt64) : (ALIGN x a).toBitVec = alignUp x.toBitVec a.toBitVec := by
  simp [ALIGN, alignUp]

lemma toNat_PAGE_SIZE : PAGE_SIZE.toBitVec.toNat = 2 ^ 12 := by decide

/-- Some number of whole pages that fits into a word is enough for the size. -/
def Fits (size : SizeT) : Prop := ∃ n < 2 ^ 64, 4096 ∣ n ∧ size.toNat ≤ n

lemma fits_iff {size : SizeT} : Fits size ↔ size.toNat + 4095 < 2 ^ 64 :=
  exists_multiple_iff toNat_PAGE_SIZE

lemma PAGE_ALIGN_of_fits {size : SizeT} (h : Fits size) :
    IsLeast {n | 4096 ∣ n ∧ size.toNat ≤ n} (PAGE_ALIGN size).toNat := by
  have hleast := isLeast_alignUp toNat_PAGE_SIZE (fits_iff.mp h)
  rwa [← toBitVec_ALIGN] at hleast

lemma PAGE_ALIGN_of_not_fits {size : SizeT} (h : ¬ Fits size) : PAGE_ALIGN size = 0 := by
  rw [fits_iff, Nat.not_lt] at h
  apply UInt64.toBitVec_inj.mp
  rw [PAGE_ALIGN, toBitVec_ALIGN]
  exact alignUp_eq_zero_of_le toNat_PAGE_SIZE h

/-- The test for zero is the test for sizes that do not fit. -/
lemma PAGE_ALIGN_eq_zero_iff {size : SizeT} (hsize : size ≠ 0) :
    PAGE_ALIGN size = 0 ↔ ¬ Fits size := by
  refine ⟨fun hzero hfits => hsize ?_, PAGE_ALIGN_of_not_fits⟩
  have hle := (PAGE_ALIGN_of_fits hfits).1.2
  rw [hzero] at hle
  exact UInt64.toNat_inj.mp (Nat.le_zero.mp hle)

/-! ### The syscall -/

/-- The three ways a call can go. -/
lemma taroTamalloc_cases (doMmap : DoMmap → UInt64) (size : SizeT) :
    (size = 0 ∧ (taroTamalloc doMmap size).code = -EINVAL ∧
      (taroTamalloc doMmap size).calls = []) ∨
    (¬ Fits size ∧ (taroTamalloc doMmap size).code = -ENOMEM ∧
      (taroTamalloc doMmap size).calls = []) ∨
    (size ≠ 0 ∧ Fits size ∧ ∃ call, (taroTamalloc doMmap size).calls = [call] ∧
      IsLeast {n | 4096 ∣ n ∧ size.toNat ≤ n} call.len.toNat ∧
      (taroTamalloc doMmap size).code = (doMmap call).toInt64.toInt) := by
  unfold taroTamalloc
  by_cases hsize : size = 0
  · rw [if_pos hsize]
    exact Or.inl ⟨hsize, rfl, rfl⟩
  · rw [if_neg hsize]
    dsimp only
    by_cases hzero : PAGE_ALIGN size = 0
    · rw [if_pos hzero]
      exact Or.inr (Or.inl ⟨(PAGE_ALIGN_eq_zero_iff hsize).mp hzero, rfl, rfl⟩)
    · have hfits : Fits size := not_not.mp (mt (PAGE_ALIGN_eq_zero_iff hsize).mpr hzero)
      have hleast := PAGE_ALIGN_of_fits hfits
      rw [if_neg hzero]
      refine Or.inr (Or.inr ⟨hsize, hfits, ?_⟩)
      split_ifs
      · exact ⟨_, rfl, hleast, rfl⟩
      · exact ⟨_, rfl, hleast, rfl⟩

lemma fits_zero : Fits 0 := ⟨0, by simp⟩

/-- For every size: it is refused as zero, refused as too large, or as much as it needs in whole
pages is mapped, in one call of `do_mmap` whose result is returned. -/
theorem taroTamalloc_maps_enough (doMmap : DoMmap → UInt64) (size : SizeT) :
    ((taroTamalloc doMmap size).code = -EINVAL ∧ (taroTamalloc doMmap size).calls = [] ↔
      size = 0) ∧
    ((taroTamalloc doMmap size).code = -ENOMEM ∧ (taroTamalloc doMmap size).calls = [] ↔
      ¬ ∃ n < 2 ^ 64, 4096 ∣ n ∧ size.toNat ≤ n) ∧
    ((∃ call, (taroTamalloc doMmap size).calls = [call] ∧
        IsLeast {n | 4096 ∣ n ∧ size.toNat ≤ n} call.len.toNat ∧
        (taroTamalloc doMmap size).code = (doMmap call).toInt64.toInt) ↔
      size ≠ 0 ∧ ∃ n < 2 ^ 64, 4096 ∣ n ∧ size.toNat ≤ n) := by
  change (_ ↔ _) ∧ (_ ↔ ¬ Fits size) ∧ (_ ↔ size ≠ 0 ∧ Fits size)
  obtain ⟨rfl, hcode, hcalls⟩ | ⟨hfits, hcode, hcalls⟩ | ⟨hsize, hfits, call, hcalls, hcall⟩ :=
    taroTamalloc_cases doMmap size
  · simp [hcode, hcalls, fits_zero, EINVAL, ENOMEM]
  · have hsize : size ≠ 0 := by
      rintro rfl
      exact hfits fits_zero
    simp [hcode, hcalls, hfits, hsize, EINVAL, ENOMEM]
  · simp [hcalls, hcall, hsize, hfits]

-- the last size that can be rounded up, and the first that cannot
example : PAGE_ALIGN 0xfffffffffffff000 = 0xfffffffffffff000 ∧
    PAGE_ALIGN 0xfffffffffffff001 = 0 := by
  decide

end Taro.Tamalloc
