import TaroKernel.Open.Strict

/-!
# What the path walk gets

`path_openat` trusts a `struct open_flags`: that a file which must be new is not looked for behind a
link, that a walk which must not wait has nothing to wait for, that a place opened with `O_PATH` is
neither read nor written. `accepted_wellFormed`: whatever `build_open_flags` accepts, from whichever
syscall, is like that.
-/

namespace Taro.Open

open Masks

/-- What the path walk can rely on. -/
structure OpenFlags.WellFormed (op : OpenFlags) : Prop where
  valid : ¬ Has op.openFlag (~~~VALID_OPEN_FLAGS 32)
  path : Has op.openFlag (O_PATH 32) → op.accMode = 0 ∧ op.intent = 0
  directory : Has op.openFlag (O_DIRECTORY 32) → ¬ Has op.openFlag (O_CREAT 32)
  tmpfile : Has op.openFlag (O_TMPFILE' 32) → Has op.openFlag (O_DIRECTORY 32)
  write : Has op.openFlag (O_TRUNC 32) ∨ Has op.openFlag (O_TMPFILE' 32) → Has op.accMode MAY_WRITE
  sync : Has op.openFlag (O_SYNC' 32) → Has op.openFlag (O_DSYNC 32)
  mode : op.mode ≠ 0 ↔ Has op.openFlag (O_CREAT 32) ∨ Has op.openFlag (O_TMPFILE' 32)
  exclusive : Has op.intent LOOKUP_EXCL → ¬ Has op.lookupFlags LOOKUP_FOLLOW
  scopes : Has op.lookupFlags LOOKUP_BENEATH → ¬ Has op.lookupFlags LOOKUP_IN_ROOT
  cached : Has op.lookupFlags LOOKUP_CACHED → ¬ Has op.openFlag (O_TRUNC 32) ∧
    ¬ Has op.openFlag (O_CREAT 32) ∧ ¬ Has op.openFlag (O_TMPFILE' 32)

section

variable {f m resolve : BitVec 64} {how : OpenHow}

lemma has_opened (hm : ~~~(FMODE_NONOTIFY 64 ||| O_CLOEXEC 64) &&& m = m)
    (hdsync : ¬ Has (O_DSYNC 64) m) : Has (opened f) m ↔ Has f m := by
  rw [opened, has_raise, has_strip hm]
  simp only [hdsync, and_false, or_false]

/-- A flag of the file is one of the request. -/
lemma has_openFlag {i : ℕ} (hi : i < 32)
    (hm : ~~~(FMODE_NONOTIFY 64 ||| O_CLOEXEC 64) &&& .twoPow 64 i = .twoPow 64 i)
    (hdsync : ¬ Has (O_DSYNC 64) (.twoPow 64 i)) :
    Has ((opened f).setWidth 32) (.twoPow 32 i) ↔ Has f (.twoPow 64 i) := by
  rw [has_setWidth hi (by omega), has_opened hm hdsync]

lemma opened_valid (h : ¬ Refused how) :
    ¬ Has ((opened how.flags).setWidth 32) (~~~VALID_OPEN_FLAGS 32) := by
  have hmask : VALID_OPEN_FLAGS 32 = (VALID_OPEN_FLAGS 64).setWidth 32 := by decide
  have hflags : ¬ Has (opened how.flags) (~~~VALID_OPEN_FLAGS 64) := by
    have hdsync : ¬ Has (O_DSYNC 64) (~~~VALID_OPEN_FLAGS 64) := by decide
    rw [opened, has_raise]
    simp only [hdsync, and_false, or_false]
    exact fun hbits => h (.flags hbits)
  rw [not_has_not, hmask, ← BitVec.setWidth_and, not_has_not.mp hflags]

/-- Besides `O_PATH` there is little. -/
lemma not_has_of_path (h : ¬ Refused how) (hpath : Has how.flags (O_PATH 64))
    (hm : m &&& ~~~O_PATH_FLAGS 64 = m)
    (hstrip : ~~~(FMODE_NONOTIFY 64 ||| O_CLOEXEC 64) &&& m = m) : ¬ Has how.flags m := by
  intro hbits
  exact h (.path hpath (((has_strip hstrip).mpr hbits).mono hm))

lemma has_openAccMode {flags : BitVec 64} {acc : BitVec 32} :
    Has (openAccMode flags acc) MAY_WRITE ↔
      ¬ Has flags (O_PATH 64) ∧ Has acc MAY_WRITE ∨ Has flags (O_TRUNC 64) := by
  have happend : ¬ Has MAY_APPEND MAY_WRITE := by decide
  have hwrite : Has MAY_WRITE MAY_WRITE := by decide
  rw [openAccMode, has_raise, has_raise]
  by_cases hpath : Has flags (O_PATH 64)
  · have hzero : ¬ Has (0 : BitVec 32) MAY_WRITE := has_zero_left
    simp only [hpath, if_true, happend, hwrite, hzero, and_false, or_false, and_true, false_or,
      not_true_eq_false, false_and]
  · simp only [hpath, if_false, happend, hwrite, and_false, or_false, and_true, not_false_eq_true,
      true_and]

lemma has_openIntent_excl {flags : BitVec 64} (h : Has (openIntent flags) LOOKUP_EXCL) :
    Has flags (O_CREAT 64) ∧ Has flags (O_EXCL 64) := by
  have hopen : ¬ Has LOOKUP_OPEN LOOKUP_EXCL := by decide
  have hcreate : ¬ Has LOOKUP_CREATE LOOKUP_EXCL := by decide
  have hzero : ¬ Has (0 : BitVec 32) LOOKUP_EXCL := has_zero_left
  simp only [openIntent] at h
  split_ifs at h with hflag hpath hpath
  · simp only [has_raise, has_or, hcreate, hzero, or_self, false_or] at h
    exact ⟨hflag, h.1⟩
  · simp only [has_raise, has_or, hcreate, hopen, or_self, false_or] at h
    exact ⟨hflag, h.1⟩
  · exact absurd h hzero
  · exact absurd h hopen

/-- A file that must be new is not looked for at the end of a link. -/
lemma not_has_follow {flags : BitVec 64} (h : Has flags (O_CREAT 64) ∧ Has flags (O_EXCL 64)) :
    ¬ Has (openLookup flags resolve) LOOKUP_FOLLOW := by
  have hnofollow : Has (flags ||| O_NOFOLLOW 64) (O_NOFOLLOW 64) :=
    has_or.mpr (Or.inr (by decide))
  simp only [openLookup, if_pos h, if_pos hnofollow, has_raise]
  rintro ((((((h | ⟨_, h⟩) | ⟨_, h⟩) | ⟨_, h⟩) | ⟨_, h⟩) | ⟨_, h⟩) | ⟨_, h⟩) <;>
    exact absurd h (by decide)

/-- The restrictions on the path become flags of the walk, each its own. -/
lemma has_openLookup {flags : BitVec 64} {k : BitVec 32} (hdirectory : ¬ Has LOOKUP_DIRECTORY k)
    (hfollow : ¬ Has LOOKUP_FOLLOW k) :
    Has (openLookup flags resolve) k ↔
      (((Has resolve RESOLVE_NO_XDEV ∧ Has LOOKUP_NO_XDEV k ∨
        Has resolve RESOLVE_NO_MAGICLINKS ∧ Has LOOKUP_NO_MAGICLINKS k) ∨
        Has resolve RESOLVE_NO_SYMLINKS ∧ Has LOOKUP_NO_SYMLINKS k) ∨
        Has resolve RESOLVE_BENEATH ∧ Has LOOKUP_BENEATH k) ∨
        Has resolve RESOLVE_IN_ROOT ∧ Has LOOKUP_IN_ROOT k := by
  have hzero : ¬ Has (0 : BitVec 32) k := has_zero_left
  simp only [openLookup]
  split_ifs <;> simp only [has_raise, has_or, hdirectory, hfollow, hzero, and_false, or_self,
    false_or]

lemma has_beneath {flags : BitVec 64} :
    Has (openLookup flags resolve) LOOKUP_BENEATH ↔ Has resolve RESOLVE_BENEATH := by
  rw [has_openLookup (by decide) (by decide)]
  simp +decide only [and_false, and_true, or_false, false_or]

lemma has_inRoot {flags : BitVec 64} :
    Has (openLookup flags resolve) LOOKUP_IN_ROOT ↔ Has resolve RESOLVE_IN_ROOT := by
  rw [has_openLookup (by decide) (by decide)]
  simp +decide only [and_false, and_true, or_false, false_or]

lemma not_has_cached {flags : BitVec 64} : ¬ Has (openLookup flags resolve) LOOKUP_CACHED := by
  rw [has_openLookup (by decide) (by decide)]
  simp +decide only [and_false, or_self, not_false_eq_true]

lemma openMode_ne_zero {mode : BitVec 16} (h : openMode f m = some mode) :
    mode ≠ 0 ↔ WillCreate f := by
  rw [openMode] at h
  split_ifs at h with hcreate
  · cases h
    have hreg : Has ((m ||| S_IFREG).setWidth 16) (.twoPow 16 15) :=
      (has_setWidth (by decide) (by decide)).mpr (has_or.mpr (Or.inr (by decide)))
    refine iff_of_true (fun hzero => ?_) hcreate
    rw [hzero] at hreg
    exact has_zero_left hreg
  · cases h
    exact iff_of_false (not_not.mpr rfl) hcreate

/-- A place in the file system is neither read nor written. -/
lemma accepted_path {mode : BitVec 16} (h : ¬ Refused how) (hpath : Has how.flags (O_PATH 64)) :
    (accepted how mode).accMode = 0 ∧ (accepted how mode).intent = 0 := by
  have hopened : Has (opened how.flags) (O_PATH 64) :=
    (has_opened (by decide) (by decide)).mpr hpath
  have hbeside {m : BitVec 64} (hm : m &&& ~~~O_PATH_FLAGS 64 = m)
      (hstrip : ~~~(FMODE_NONOTIFY 64 ||| O_CLOEXEC 64) &&& m = m)
      (hdsync : ¬ Has (O_DSYNC 64) m) : ¬ Has (opened how.flags) m :=
    mt (has_opened hstrip hdsync).mp (not_has_of_path h hpath hm hstrip)
  have happend : ¬ Has (opened how.flags) (O_APPEND 64) :=
    hbeside (by decide) (by decide) (by decide)
  have htrunc : ¬ Has (opened how.flags) (O_TRUNC 64) := hbeside (by decide) (by decide) (by decide)
  have hcreate : ¬ Has (opened how.flags) (O_CREAT 64) :=
    hbeside (by decide) (by decide) (by decide)
  constructor
  · rw [accepted, openAccMode, raise_of_not happend, raise_of_not htrunc, if_pos hopened]
  · rw [accepted, openIntent, if_neg hcreate, if_pos hopened]

lemma accepted_write {mode : BitVec 16} (h : ¬ Refused how)
    (hflag : Has how.flags (O_TRUNC 64) ∨ Has how.flags (O_TMPFILE' 64)) :
    Has (accepted how mode).accMode MAY_WRITE := by
  rw [accepted, has_openAccMode, has_opened (by decide) (by decide),
    has_opened (by decide) (by decide), has_accMode]
  rcases hflag with htrunc | htmpfile
  · exact Or.inr htrunc
  · refine Or.inl ⟨fun hpath => ?_, not_not.mp fun hread => h (.readOnly htmpfile hread)⟩
    exact not_has_of_path h hpath (by decide) (by decide) htmpfile

lemma has_opened_dsync (h : Has f (O_SYNC' 64)) : Has (opened f) (O_DSYNC 64) :=
  has_raise.mpr (Or.inr ⟨(has_strip (by decide)).mpr h, by decide⟩)

/-- `LOOKUP_CACHED` is apart from the other flags of the walk. -/
lemma has_lookupFlags {mode : BitVec 16} {k : BitVec 32} (hk : ¬ Has LOOKUP_CACHED k) :
    Has (accepted how mode).lookupFlags k ↔ Has (openLookup (opened how.flags) how.resolve) k := by
  rw [accepted, has_raise]
  simp only [hk, and_false, or_false]

lemma accepted_cached {mode : BitVec 16} (h : ¬ MustWait how)
    (hcached : Has (accepted how mode).lookupFlags LOOKUP_CACHED) :
    ¬ Has (opened how.flags) (O_TRUNC 64 ||| O_CREAT 64 ||| O_TMPFILE' 64) := by
  rw [accepted, has_raise, or_iff_right not_has_cached] at hcached
  exact fun hflag => h ⟨hcached.1, hflag⟩

end

/-- Whatever `build_open_flags` accepts is right for the path walk. -/
theorem accepted_wellFormed {how : OpenHow} {op : OpenFlags} (h : buildOpenFlags how = .ok op) :
    op.WellFormed := by
  have hending := ending_buildOpenFlags how
  rw [h] at hending
  obtain _ | _ | ⟨hnot, hwait, hmode⟩ := hending
  -- the flags of the file are those of the request
  have hpath := @has_openFlag how.flags 21 (by decide) (by decide) (by decide)
  have hdirectory := @has_openFlag how.flags 16 (by decide) (by decide) (by decide)
  have hcreate := @has_openFlag how.flags 6 (by decide) (by decide) (by decide)
  have htmpfile := @has_openFlag how.flags 22 (by decide) (by decide) (by decide)
  have htrunc := @has_openFlag how.flags 9 (by decide) (by decide) (by decide)
  have hsync := @has_openFlag how.flags 20 (by decide) (by decide) (by decide)
  constructor
  · exact opened_valid hnot
  · intro hflag
    exact accepted_path hnot (hpath.mp hflag)
  · intro hflag hflag'
    exact hnot (.directory (hdirectory.mp hflag) (hcreate.mp hflag'))
  · intro hflag
    refine hdirectory.mpr (not_not.mp fun hno => ?_)
    exact hnot (.tmpfile (htmpfile.mp hflag) hno)
  · intro hflag
    exact accepted_write hnot (hflag.imp htrunc.mp htmpfile.mp)
  · intro hflag
    exact (has_setWidth (by decide) (by decide)).mpr (has_opened_dsync (hsync.mp hflag))
  · refine (openMode_ne_zero hmode).trans ?_
    rw [willCreate_strip, willCreate_iff]
    exact or_congr hcreate.symm htmpfile.symm
  · intro hexcl
    rw [has_lookupFlags (by decide)]
    exact not_has_follow (has_openIntent_excl hexcl)
  · intro hbeneath hroot
    rw [has_lookupFlags (by decide)] at hbeneath hroot
    exact hnot (.scopes (has_beneath.mp hbeneath) (has_inRoot.mp hroot))
  · intro hcached
    have hflags := accepted_cached hwait hcached
    rw [has_mask_or, has_mask_or, not_or, not_or, has_opened (by decide) (by decide),
      has_opened (by decide) (by decide), has_opened (by decide) (by decide)] at hflags
    exact ⟨mt htrunc.mp hflags.1.1, mt hcreate.mp hflags.1.2, mt htmpfile.mp hflags.2⟩

/-- A request for a temporary file, below the directory it starts from. -/
def tmpfileBeneath : OpenHow :=
  ⟨O_TMPFILE' 64 ||| O_DIRECTORY 64 ||| O_WRONLY 64, 0o600, RESOLVE_BENEATH⟩

theorem tmpfileBeneath_wellFormed :
    ∃ op, buildOpenFlags tmpfileBeneath = .ok op ∧ op.WellFormed := by
  have h : buildOpenFlags tmpfileBeneath = .ok (accepted tmpfileBeneath 0o100600) := rfl
  exact ⟨_, h, accepted_wellFormed h⟩

end Taro.Open
