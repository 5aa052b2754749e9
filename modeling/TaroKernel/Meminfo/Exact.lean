import TaroKernel.Meminfo.Reports

/-!
# What the reports are worth

`sysinfo` is always exact, and so are its amounts for 32-bit programs below 16 TiB each:
`sysinfo_exact`, `compat_sysinfo_exact_iff`. The other reports agree with it.
-/

namespace Taro.Meminfo

open Cpu (divide)

/-! ### Shifts -/

lemma toNat_shiftLeft {x k : UInt64} (hk : k.toNat < 64) (h : x.toNat * 2 ^ k.toNat < 2 ^ 64) :
    (x <<< k).toNat = x.toNat * 2 ^ k.toNat := by
  rw [UInt64.toNat_shiftLeft, Nat.mod_eq_of_lt hk, Nat.shiftLeft_eq, Nat.mod_eq_of_lt h]

lemma toNat_shiftRight {x k : UInt64} (hk : k.toNat < 64) :
    (x >>> k).toNat = x.toNat / 2 ^ k.toNat := by
  rw [UInt64.toNat_shiftRight, Nat.mod_eq_of_lt hk, Nat.shiftRight_eq_div_pow]

/-- A word that is doubled gets smaller exactly if it overflows. -/
lemma double_lt_iff {x : UInt64} : x <<< 1 < x ↔ 2 ^ 64 ≤ x.toNat * 2 := by
  have hlt := x.toNat_lt
  have hdouble : (x <<< 1).toNat = x.toNat * 2 % 2 ^ 64 := by
    rw [UInt64.toNat_shiftLeft, Nat.shiftLeft_eq]
    rfl
  rw [UInt64.lt_iff_toNat_lt, hdouble]
  omega

/-- The loop of `do_sysinfo` finds out how often the unit can be halved, and whether the total can
be doubled as often. -/
lemma shifts_eq {b fuel : ℕ} (hb : b ≤ fuel) {memUnit : UInt32} (hunit : memUnit.toNat = 2 ^ b)
    (memTotal : UInt64) (bitcount : UInt32) :
    shifts fuel memUnit memTotal bitcount =
      if memTotal.toNat * 2 ^ b < 2 ^ 64 then some (bitcount + .ofNat b) else none := by
  induction b generalizing fuel memUnit memTotal bitcount with
  | zero =>
    have hone : ¬ memUnit > 1 := by
      rw [gt_iff_lt, UInt32.lt_iff_toNat_lt, hunit]
      decide
    have hfits : memTotal.toNat * 2 ^ 0 < 2 ^ 64 := by
      simpa using memTotal.toNat_lt
    rw [if_pos hfits]
    cases fuel with
    | zero => simp [shifts]
    | succ fuel => simp [shifts, hone]
  | succ b ih =>
    cases fuel with
    | zero => exact absurd hb (Nat.not_succ_le_zero b)
    | succ fuel =>
      have hmore : memUnit > 1 := by
        rw [gt_iff_lt, UInt32.lt_iff_toNat_lt, hunit]
        exact Nat.one_lt_two_pow (Nat.succ_ne_zero b)
      have hhalf : (memUnit >>> 1).toNat = 2 ^ b := by
        rw [UInt32.toNat_shiftRight, hunit, Nat.shiftRight_eq_div_pow, Nat.pow_succ]
        exact Nat.mul_div_cancel _ Nat.two_pos
      have hpow : memTotal.toNat * 2 ^ (b + 1) = memTotal.toNat * 2 * 2 ^ b := by
        rw [Nat.pow_succ, Nat.mul_comm (2 ^ b), Nat.mul_assoc]
      simp only [shifts, hmore, if_true]
      -- a total that overflows now has no room for all `b + 1` shifts either
      by_cases hover : memTotal <<< 1 < memTotal
      · have hlarge : 2 ^ 64 ≤ memTotal.toNat * 2 ^ (b + 1) := by
          rw [hpow]
          exact Nat.le_trans (double_lt_iff.mp hover)
            (Nat.le_mul_of_pos_right _ (Nat.two_pow_pos b))
        rw [if_pos hover, if_neg (Nat.not_lt.mpr hlarge)]
      · have hdouble : (memTotal <<< 1).toNat = memTotal.toNat * 2 :=
          toNat_shiftLeft (by decide) (Nat.not_le.mp (mt double_lt_iff.mpr hover))
        rw [if_neg hover, ih (Nat.le_of_succ_le_succ hb) hhalf, hdouble, hpow]
        congr 2
        rw [UInt32.add_assoc, UInt32.ofNat_add b 1, UInt32.add_comm 1]
        rfl

/-! ### `sysinfo` -/

/-- All amounts, in bytes. -/
def Amounts.bytes (m : Amounts UInt64) (memUnit : UInt32) : Amounts ℕ :=
  m.map fun x => x.toNat * memUnit.toNat

/-- No part is larger than all the memory. -/
lemma Pages.le_total (p : Pages) {x : UInt64} (hx : x ∈ p.toList) :
    x.toNat ≤ p.totalram.toNat ∨ x.toNat ≤ p.totalswap.toNat := by
  have hram := p.ram
  have hswap := p.swap
  simp only [List.mem_cons, List.not_mem_nil, or_false, forall_eq_or_imp, forall_eq,
    UInt64.le_iff_toNat_le] at hram hswap
  simp only [Amounts.toList, List.mem_cons, List.not_mem_nil, or_false] at hx
  rcases hx with rfl | rfl | rfl | rfl | rfl | rfl | rfl | rfl <;> omega

lemma Amounts.map_congr {α β : Type*} {f g : α → β} {m : Amounts α}
    (h : ∀ x ∈ m.toList, f x = g x) : m.map f = m.map g := by
  simp only [Amounts.toList, List.forall_mem_cons, List.not_mem_nil] at h
  simp only [Amounts.map, h]

lemma Amounts.map_map {α β δ : Type*} (f : α → β) (g : β → δ) (m : Amounts α) :
    (m.map f).map g = m.map fun x => g (f x) := rfl

/-- The memory in bytes has room in a word. -/
def Pages.fits (p : Pages) : Prop := (p.totalram.toNat + p.totalswap.toNat) * 4096 < 2 ^ 64

/-- The check before the loop: the sum of two words gets smaller exactly if it overflows. -/
lemma add_lt_iff {x y : UInt64} : x + y < x ∨ x + y < y ↔ 2 ^ 64 ≤ x.toNat + y.toNat := by
  have hx := x.toNat_lt
  have hy := y.toNat_lt
  rw [UInt64.lt_iff_toNat_lt, UInt64.lt_iff_toNat_lt, UInt64.toNat_add]
  omega

lemma shifts_page {x y : UInt64} (h : x.toNat + y.toNat < 2 ^ 64) :
    shifts 32 PAGE_SIZE (x + y) 0 =
      if (x.toNat + y.toNat) * 4096 < 2 ^ 64 then some 12 else none := by
  rw [shifts_eq (by decide : 12 ≤ 32) rfl, UInt64.toNat_add, Nat.mod_eq_of_lt h]
  rfl

lemma doSysinfo_of_fits {src : Sources} (h : src.pages.fits) :
    (doSysinfo src).memUnit = 1 ∧
      (doSysinfo src).amounts = src.pages.map fun x => x <<< (12 : UInt64) := by
  rw [Pages.fits] at h
  have hsum : src.pages.totalram.toNat + src.pages.totalswap.toNat < 2 ^ 64 := by omega
  simp only [doSysinfo]
  rw [if_neg (mt add_lt_iff.mp (Nat.not_le.mpr hsum)), shifts_page hsum, if_pos h]
  exact ⟨rfl, rfl⟩

lemma doSysinfo_of_not_fits {src : Sources} (h : ¬ src.pages.fits) :
    (doSysinfo src).memUnit = PAGE_SIZE ∧ (doSysinfo src).amounts = src.pages.toAmounts := by
  rw [Pages.fits] at h
  simp only [doSysinfo]
  by_cases hsum : 2 ^ 64 ≤ src.pages.totalram.toNat + src.pages.totalswap.toNat
  · rw [if_pos (add_lt_iff.mpr hsum)]
    exact ⟨rfl, rfl⟩
  · rw [if_neg (mt add_lt_iff.mp hsum), shifts_page (Nat.not_le.mp hsum), if_neg h]
    exact ⟨rfl, rfl⟩

/-- A part of the memory that fits can be shifted. -/
lemma toNat_shiftLeft_page {p : Pages} (h : p.fits) {x : UInt64} (hx : x ∈ p.toList) :
    (x <<< 12).toNat = x.toNat * 4096 := by
  have hle : x.toNat ≤ p.totalram.toNat + p.totalswap.toNat := by
    have hpart := p.le_total hx
    omega
  exact toNat_shiftLeft (by decide) (Nat.lt_of_le_of_lt (Nat.mul_le_mul_right 4096 hle) h)

lemma bytes_doSysinfo (src : Sources) :
    (doSysinfo src).amounts.bytes (doSysinfo src).memUnit = src.pages.bytes PAGE_SIZE := by
  by_cases h : src.pages.fits
  · obtain ⟨hunit, hamounts⟩ := doSysinfo_of_fits h
    rw [hunit, hamounts, Amounts.bytes, Amounts.map_map]
    refine Amounts.map_congr fun x hx => ?_
    rw [toNat_shiftLeft_page h hx, UInt32.toNat_one, Nat.mul_one]
    rfl
  · obtain ⟨hunit, hamounts⟩ := doSysinfo_of_not_fits h
    rw [hunit, hamounts]

/-- `sysinfo` gives all amounts exactly: in bytes if the memory has room in a word, and in pages
otherwise. -/
theorem sysinfo_exact (src : Sources) :
    ((doSysinfo src).memUnit = 1 ∧ src.pages.fits ∨
        (doSysinfo src).memUnit = PAGE_SIZE ∧ ¬ src.pages.fits) ∧
      (doSysinfo src).amounts.bytes (doSysinfo src).memUnit = src.pages.bytes PAGE_SIZE := by
  refine ⟨?_, bytes_doSysinfo src⟩
  by_cases h : src.pages.fits
  · exact Or.inl ⟨(doSysinfo_of_fits h).1, h⟩
  · exact Or.inr ⟨(doSysinfo_of_not_fits h).1, h⟩

/-! ### The compat `sysinfo` -/

lemma shiftRight_ne_zero_iff {x : UInt64} : x >>> 32 ≠ 0 ↔ 2 ^ 32 ≤ x.toNat := by
  rw [Ne, ← UInt64.toNat_inj, toNat_shiftRight (by decide), UInt64.toNat_zero]
  have hpow : 2 ^ UInt64.toNat 32 = 2 ^ 32 := by decide
  rw [hpow]
  omega

lemma shiftRight_shiftLeft_page {p : Pages} (h : p.fits) {x : UInt64} (hx : x ∈ p.toList) :
    x <<< 12 >>> 12 = x := by
  have hpow : 2 ^ UInt64.toNat 12 = 4096 := by decide
  rw [← UInt64.toNat_inj, toNat_shiftRight (by decide), toNat_shiftLeft_page h hx, hpow]
  exact Nat.mul_div_cancel _ (by decide)

lemma unshifts_page : unshifts 32 PAGE_SIZE 0 = (PAGE_SIZE, 0) := by decide

lemma unshifts_byte : unshifts 32 1 0 = (PAGE_SIZE, 12) := by decide

/-- Amounts in pages stay as they are. -/
lemma scaleDown_page {s : Sysinfo} (h : s.memUnit = PAGE_SIZE) :
    (scaleDown s).memUnit = PAGE_SIZE ∧ (scaleDown s).amounts = s.amounts := by
  rw [scaleDown, h, unshifts_page]
  split_ifs
  · refine ⟨rfl, ?_⟩
    change (s.amounts.map fun x => x >>> (0 : UInt64)) = s.amounts
    simp only [UInt64.shiftRight_zero]
    rfl
  · exact ⟨h, rfl⟩

/-- Amounts in bytes become amounts in pages, unless the totals have 32 bits. -/
lemma scaleDown_byte {s : Sysinfo} (h : s.memUnit = 1) :
    (scaleDown s).memUnit = PAGE_SIZE ∧
        (scaleDown s).amounts = s.amounts.map (fun x => x >>> (12 : UInt64)) ∨
      scaleDown s = s ∧ s.amounts.totalram.toNat < 2 ^ 32 ∧
        s.amounts.totalswap.toNat < 2 ^ 32 := by
  rw [scaleDown, h, unshifts_byte]
  split_ifs with hupper
  · exact Or.inl ⟨rfl, rfl⟩
  · obtain ⟨hram, hswap⟩ := not_or.mp hupper
    exact Or.inr ⟨rfl, Nat.not_le.mp (mt shiftRight_ne_zero_iff.mpr hram),
      Nat.not_le.mp (mt shiftRight_ne_zero_iff.mpr hswap)⟩

/-- A 32-bit program gets the low halves of the numbers of pages, or bytes that fit. -/
lemma compatSysinfo_cases (src : Sources) :
    (compatSysinfo src).memUnit = PAGE_SIZE ∧
        (compatSysinfo src).amounts = src.pages.map UInt64.toUInt32 ∨
      (compatSysinfo src).memUnit = 1 ∧
        (compatSysinfo src).amounts = src.pages.map (fun x => (x <<< (12 : UInt64)).toUInt32) ∧
        src.pages.fits ∧ (src.pages.totalram <<< 12).toNat < 2 ^ 32 ∧
        (src.pages.totalswap <<< 12).toNat < 2 ^ 32 := by
  simp only [compatSysinfo]
  by_cases h : src.pages.fits
  · obtain ⟨hunit, hamounts⟩ := doSysinfo_of_fits h
    rcases scaleDown_byte hunit with ⟨hunit', hamounts'⟩ | ⟨hsame, hram, hswap⟩
    · left
      rw [hunit', hamounts', hamounts, Amounts.map_map, Amounts.map_map]
      refine ⟨rfl, Amounts.map_congr fun x hx => ?_⟩
      rw [shiftRight_shiftLeft_page h hx]
    · right
      rw [hamounts] at hram hswap
      rw [hsame, hunit, hamounts, Amounts.map_map]
      exact ⟨rfl, rfl, h, hram, hswap⟩
  · obtain ⟨hunit, hamounts⟩ := doSysinfo_of_not_fits h
    obtain ⟨hunit', hamounts'⟩ := scaleDown_page hunit
    left
    rw [hunit', hamounts', hamounts]
    exact ⟨rfl, rfl⟩

/-- An amount that a 32-bit program gets is the right one, exactly if there is room for it in
pages. -/
def exactIff (memUnit : UInt32) (x : UInt32) (page : UInt64) : Prop :=
  x.toNat * memUnit.toNat = page.toNat * 4096 ↔ page.toNat < 2 ^ 32

lemma Amounts.forall₂_map {α β : Type*} {R : β → α → Prop} {f : α → β} {m : Amounts α}
    (h : ∀ x ∈ m.toList, R (f x) x) : List.Forall₂ R (m.map f).toList m.toList := by
  simp only [Amounts.toList, List.forall_mem_cons, List.not_mem_nil] at h
  simp only [Amounts.toList, Amounts.map, List.forall₂_cons, List.Forall₂.nil, h, and_self]

/-- Each amount that a 32-bit program gets is exact if and only if it is less than `2 ^ 32`
pages. -/
theorem compat_sysinfo_exact_iff (src : Sources) :
    List.Forall₂ (exactIff (compatSysinfo src).memUnit) (compatSysinfo src).amounts.toList
      src.pages.toList := by
  rcases compatSysinfo_cases src with ⟨hunit, hamounts⟩ | ⟨hunit, hamounts, hfits, hram, hswap⟩
  · rw [hunit, hamounts]
    refine Amounts.forall₂_map fun x _ => ?_
    have hpage : PAGE_SIZE.toNat = 4096 := rfl
    rw [exactIff, UInt64.toNat_toUInt32, hpage]
    omega
  · rw [hunit, hamounts]
    refine Amounts.forall₂_map fun x hx => ?_
    have hle := src.pages.le_total hx
    have hshift := toNat_shiftLeft_page hfits hx
    rw [toNat_shiftLeft_page hfits (by simp [Amounts.toList])] at hram hswap
    rw [exactIff, UInt64.toNat_toUInt32, UInt32.toNat_one, hshift]
    omega

/-! ### The snapshot -/

lemma toNat_kilobytes {x : UInt64} (h : x.toNat * 4096 < 2 ^ 64) :
    (x <<< (PAGE_SHIFT - 10)).toNat * 1024 = x.toNat * 4096 := by
  have hroom : x.toNat * 4 < 2 ^ 64 := by omega
  have hshift : (x <<< (PAGE_SHIFT - 10)).toNat = x.toNat * 4 := toNat_shiftLeft (by decide) hroom
  rw [hshift, Nat.mul_assoc]

/-- `capture_memory_snapshot` says of the memory what `sysinfo` says, in another unit. -/
theorem snapshot_eq_sysinfo (src : Sources) (n : NodePages) (h : src.pages.fits) :
    (captureMemorySnapshot src.pages n).totalMemory.toNat * 1024 =
        ((doSysinfo src).amounts.bytes (doSysinfo src).memUnit).totalram ∧
      (captureMemorySnapshot src.pages n).freeMemory.toNat * 1024 =
        ((doSysinfo src).amounts.bytes (doSysinfo src).memUnit).freeram ∧
      (captureMemorySnapshot src.pages n).swapTotal.toNat * 1024 =
        ((doSysinfo src).amounts.bytes (doSysinfo src).memUnit).totalswap ∧
      (captureMemorySnapshot src.pages n).swapUsed.toNat * 1024 =
        ((doSysinfo src).amounts.bytes (doSysinfo src).memUnit).totalswap -
          ((doSysinfo src).amounts.bytes (doSysinfo src).memUnit).freeswap := by
  have hroom : ∀ x ∈ src.pages.toList, x.toNat * 4096 < 2 ^ 64 := by
    intro x hx
    rw [← toNat_shiftLeft_page h hx]
    exact UInt64.toNat_lt _
  have hused : (src.pages.totalswap - src.pages.freeswap).toNat =
      src.pages.totalswap.toNat - src.pages.freeswap.toNat :=
    UInt64.toNat_sub_of_le _ _ src.pages.swap
  have hswap := hroom src.pages.totalswap (by simp [Amounts.toList])
  rw [bytes_doSysinfo]
  refine ⟨toNat_kilobytes (hroom _ (by simp [Amounts.toList])),
    toNat_kilobytes (hroom _ (by simp [Amounts.toList])), toNat_kilobytes hswap, ?_⟩
  simp only [captureMemorySnapshot]
  rw [toNat_kilobytes, hused, Nat.sub_mul]
  · rfl
  · rw [hused, Nat.sub_mul]
    exact Nat.lt_of_le_of_lt (Nat.sub_le _ _) hswap

/-! ### The RAM module -/

/-- The pages that the RAM module takes for unused. -/
def Pages.unused (p : Pages) : ℕ := p.freeram.toNat + p.bufferram.toNat + p.sharedram.toNat

section

variable {p : Pages}

lemma toNat_mul_page {x : UInt64} (h : x.toNat * 4096 < 2 ^ 64) :
    (x * PAGE_SIZE.toUInt64).toNat = x.toNat * 4096 := by
  rw [UInt64.toNat_mul]
  exact Nat.mod_eq_of_lt h

lemma Pages.unused_le (p : Pages) : p.unused ≤ 3 * p.totalram.toNat := by
  have hram := p.ram
  simp only [List.mem_cons, List.not_mem_nil, or_false, forall_eq_or_imp, forall_eq,
    UInt64.le_iff_toNat_le] at hram
  rw [Pages.unused]
  omega

/-- `used`, which goes round if more is unused than there is. -/
lemma toNat_used (h : p.totalram.toNat < 2 ^ 43) :
    (p.totalram * PAGE_SIZE.toUInt64 -
        (p.freeram + p.bufferram + p.sharedram) * PAGE_SIZE.toUInt64).toNat =
      if p.unused ≤ p.totalram.toNat then (p.totalram.toNat - p.unused) * 4096
      else 2 ^ 64 - (p.unused - p.totalram.toNat) * 4096 := by
  have hle := p.unused_le
  have hunused : (p.freeram + p.bufferram + p.sharedram).toNat = p.unused := by
    rw [UInt64.toNat_add, UInt64.toNat_add, Nat.mod_add_mod]
    rw [Pages.unused] at hle ⊢
    exact Nat.mod_eq_of_lt (by omega)
  have htotal : (p.totalram * PAGE_SIZE.toUInt64).toNat = p.totalram.toNat * 4096 :=
    toNat_mul_page (by omega)
  have hsum : ((p.freeram + p.bufferram + p.sharedram) * PAGE_SIZE.toUInt64).toNat =
      p.unused * 4096 := by
    rw [toNat_mul_page, hunused]
    rw [hunused]
    omega
  rw [UInt64.toNat_sub, htotal, hsum]
  split_ifs <;> omega

lemma percent_of_le {t n : ℕ} (h₀ : 0 < t) (h : t < 2 ^ 43) :
    (t - n) * 4096 * 100 % 2 ^ 64 / (t * 4096) = (t - n) * 100 / t := by
  rw [Nat.mod_eq_of_lt (by omega), Nat.mul_right_comm]
  exact Nat.mul_div_mul_right _ _ (by decide)

/-- A difference that goes round is so large that its percentage is, too. -/
lemma percent_of_gt {M t d : ℕ} (h₀ : 0 < t) (hd : 0 < d)
    (hM : (100 * d + 101 * t) * 4096 ≤ M) :
    100 < (M - d * 4096) * 100 % M / (t * 4096) := by
  have hround : (M - d * 4096) * 100 = M - d * 4096 * 100 + 99 * M := by omega
  rw [hround, Nat.add_mul_mod_self_right, Nat.mod_eq_of_lt (by omega), Nat.lt_iff_add_one_le,
    Nat.le_div_iff_mul_le (by omega)]
  omega

/-- The percentage is that of the memory in use, rounded down, as long as no more is unused than
there is. Otherwise the use goes round, and the percentage is a number above 100. -/
theorem porcentaje_exact (h₀ : 0 < p.totalram) (h : p.totalram.toNat < 2 ^ 43) :
    ∃ r, escribirAProc p = some r ∧
      (p.unused ≤ p.totalram.toNat →
        r.used.toNat = (p.totalram.toNat - p.unused) * 4096 ∧
        r.porcentaje.toNat = (p.totalram.toNat - p.unused) * 100 / p.totalram.toNat) ∧
      (p.totalram.toNat < p.unused →
        r.used.toNat = 2 ^ 64 - (p.unused - p.totalram.toNat) * 4096) ∧
      (r.porcentaje ≤ 100 ↔ p.unused ≤ p.totalram.toNat) := by
  have hpos : 0 < p.totalram.toNat := UInt64.lt_iff_toNat_lt.mp h₀
  have hle := p.unused_le
  have htotal : (p.totalram * PAGE_SIZE.toUInt64).toNat = p.totalram.toNat * 4096 :=
    toNat_mul_page (by omega)
  have hne : p.totalram * PAGE_SIZE.toUInt64 ≠ 0 := by
    intro hzero
    rw [hzero, UInt64.toNat_zero] at htotal
    omega
  have hused := toNat_used h
  simp only [escribirAProc]
  generalize p.totalram * PAGE_SIZE.toUInt64 -
    (p.freeram + p.bufferram + p.sharedram) * PAGE_SIZE.toUInt64 = used at hused ⊢
  rw [divide, if_neg hne]
  have hquotient : (used * 100 / (p.totalram * PAGE_SIZE.toUInt64)).toNat =
      used.toNat * 100 % 2 ^ 64 / (p.totalram.toNat * 4096) := by
    rw [UInt64.toNat_div, UInt64.toNat_mul, htotal]
    rfl
  refine ⟨_, rfl, fun hfits => ?_, fun hover => ?_, ?_⟩
  · rw [if_pos hfits] at hused
    refine ⟨hused, ?_⟩
    rw [hquotient, hused, percent_of_le hpos h]
  · rwa [if_neg (Nat.not_le.mpr hover)] at hused
  · rw [UInt64.le_iff_toNat_le, hquotient]
    by_cases hfits : p.unused ≤ p.totalram.toNat
    · rw [hused, if_pos hfits, percent_of_le hpos h]
      refine iff_of_true (Nat.div_le_of_le_mul ?_) hfits
      exact Nat.mul_le_mul_right 100 (Nat.sub_le _ _)
    · rw [hused, if_neg hfits]
      exact iff_of_false (Nat.not_le_of_lt (percent_of_gt hpos (by omega) (by omega))) hfits

/-- A gigabyte, three quarters of which are unused. -/
def gigabyte : Pages where
  totalram := 262144
  freeram := 131072
  sharedram := 32768
  bufferram := 32768
  totalswap := 0
  freeswap := 0
  totalhigh := 0
  freehigh := 0
  ram := by
    simp only [List.forall_mem_cons, List.not_mem_nil, false_imp_iff, implies_true]
    decide
  swap := by decide

theorem gigabyte_porcentaje :
    ∃ r, escribirAProc gigabyte = some r ∧
      (gigabyte.unused ≤ gigabyte.totalram.toNat →
        r.used.toNat = (gigabyte.totalram.toNat - gigabyte.unused) * 4096 ∧
        r.porcentaje.toNat =
          (gigabyte.totalram.toNat - gigabyte.unused) * 100 / gigabyte.totalram.toNat) ∧
      (gigabyte.totalram.toNat < gigabyte.unused →
        r.used.toNat = 2 ^ 64 - (gigabyte.unused - gigabyte.totalram.toNat) * 4096) ∧
      (r.porcentaje ≤ 100 ↔ gigabyte.unused ≤ gigabyte.totalram.toNat) :=
  porcentaje_exact (by decide) (by decide)

end

/-! ### The storage module -/

section

variable {stats : Kstatfs} {blocks : UInt64}

lemma Kstatfs.toNat_gb (h : blocks.toNat * stats.fBsize.toUInt64.toNat < 2 ^ 64) :
    (stats.gb blocks).toNat = blocks.toNat * stats.fBsize.toUInt64.toNat / 2 ^ 30 := by
  rw [Kstatfs.gb, toNat_shiftRight (by decide), UInt64.toNat_mul, Nat.mod_eq_of_lt h]
  rfl

/-- A file system whose size in bytes has room in a word is not shown with more space available than
free, or more space free than there is. -/
theorem storage_ordered (h : stats.fBlocks.toNat * stats.fBsize.toUInt64.toNat < 2 ^ 64)
    (hfree : stats.fBfree ≤ stats.fBlocks) (havail : stats.fBavail ≤ stats.fBfree) :
    stats.gb stats.fBavail ≤ stats.gb stats.fBfree ∧
      stats.gb stats.fBfree ≤ stats.gb stats.fBlocks := by
  have hfree' := Nat.mul_le_mul_right stats.fBsize.toUInt64.toNat
    (UInt64.le_iff_toNat_le.mp hfree)
  have havail' := Nat.mul_le_mul_right stats.fBsize.toUInt64.toNat
    (UInt64.le_iff_toNat_le.mp havail)
  rw [UInt64.le_iff_toNat_le, UInt64.le_iff_toNat_le, Kstatfs.toNat_gb h,
    Kstatfs.toNat_gb (Nat.lt_of_le_of_lt hfree' h),
    Kstatfs.toNat_gb (Nat.lt_of_le_of_lt (havail'.trans hfree') h)]
  exact ⟨Nat.div_le_div_right havail', Nat.div_le_div_right hfree'⟩

end

end Taro.Meminfo
