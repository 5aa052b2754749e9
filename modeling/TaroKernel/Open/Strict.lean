import TaroKernel.Open.Flags

/-!
# What the open syscalls accept

`build_open_flags` refuses a request for one of eight reasons (`Refused`). From this list:
`openat` refuses only flags that contradict each other (`openat_refused_iff`), and `openat2` is
`openat` but for what that one ignores (`openat2_eq_openat`).
-/

namespace Taro.Open

open Masks

/-! ### Flags -/

section

variable {f : BitVec 64} {m : BitVec 64}

/-- A mask without the flags that are stripped. -/
lemma has_strip (hm : ~~~(FMODE_NONOTIFY 64 ||| O_CLOEXEC 64) &&& m = m) :
    Has (strip f) m ↔ Has f m := by
  rw [strip, has_and, hm]

lemma strip_and : strip (f &&& m) = strip f &&& m := by
  rw [strip, strip, BitVec.and_assoc, BitVec.and_comm m, ← BitVec.and_assoc]

lemma strip_or : strip (f ||| m) = strip f ||| strip m := BitVec.and_or_distrib_right

lemma accMode_strip : accMode (strip f) = accMode f := by
  have hacc : strip f &&& O_ACCMODE 64 = f &&& O_ACCMODE 64 := by
    rw [strip, BitVec.and_assoc]
    rfl
  rw [accMode, accMode, hacc]

/-- Every access mode but `O_RDONLY` may write. -/
lemma has_accMode : Has (accMode f) MAY_WRITE ↔ Has f (O_ACCMODE 64) := by
  rw [accMode]
  split_ifs with hread hwrite
  · exact iff_of_false (by decide) (not_not.mpr hread)
  · exact iff_of_true (by decide) hread
  · exact iff_of_true (by decide) hread

lemma willCreate_iff : WillCreate f ↔ Has f (O_CREAT 64) ∨ Has f (O_TMPFILE' 64) := has_mask_or

lemma willCreate_strip : WillCreate (strip f) ↔ WillCreate f := has_strip (by decide)

lemma openMode_eq_none_iff :
    openMode f m = none ↔ if WillCreate f then Has m (~~~S_IALLUGO 64) else m ≠ 0 := by
  rw [openMode]
  split_ifs with hcreate hbits hzero
  · exact iff_of_true rfl hbits
  · exact iff_of_false id hbits
  · exact iff_of_true rfl hzero
  · exact iff_of_false id hzero

end

/-! ### Reasons to refuse -/

/-- Why `build_open_flags` returns `-EINVAL`. -/
inductive Refused (how : OpenHow) : Prop where
  | flags (h : Has (strip how.flags) (~~~VALID_OPEN_FLAGS 64))
  | resolve (h : Has how.resolve (~~~VALID_RESOLVE_FLAGS))
  | scopes (h : Has how.resolve RESOLVE_BENEATH) (h' : Has how.resolve RESOLVE_IN_ROOT)
  | mode (h : openMode (strip how.flags) how.mode = none)
  | directory (h : Has how.flags (O_DIRECTORY 64)) (h' : Has how.flags (O_CREAT 64))
  | tmpfile (h : Has how.flags (O_TMPFILE' 64)) (h' : ¬ Has how.flags (O_DIRECTORY 64))
  | readOnly (h : Has how.flags (O_TMPFILE' 64)) (h' : ¬ Has how.flags (O_ACCMODE 64))
  | path (h : Has how.flags (O_PATH 64)) (h' : Has (strip how.flags) (~~~O_PATH_FLAGS 64))

/-- The flags with which a file is opened. -/
def opened (flags : BitVec 64) : BitVec 64 :=
  raise (strip flags) (O_SYNC' 64) (O_DSYNC 64) (strip flags)

/-- What `build_open_flags` makes of a request that it accepts. -/
def accepted (how : OpenHow) (mode : BitVec 16) : OpenFlags where
  openFlag := (opened how.flags).setWidth 32
  mode := mode
  accMode := openAccMode (opened how.flags) (accMode how.flags)
  intent := openIntent (opened how.flags)
  lookupFlags := raise how.resolve RESOLVE_CACHED LOOKUP_CACHED
    (openLookup (opened how.flags) how.resolve)

/-- A request that must not wait, but does what may have to. -/
def MustWait (how : OpenHow) : Prop :=
  Has how.resolve RESOLVE_CACHED ∧
    Has (opened how.flags) (O_TRUNC 64 ||| O_CREAT 64 ||| O_TMPFILE' 64)

instance (how : OpenHow) : Decidable (MustWait how) :=
  inferInstanceAs (Decidable (Has how.resolve RESOLVE_CACHED ∧
    Has (opened how.flags) (O_TRUNC 64 ||| O_CREAT 64 ||| O_TMPFILE' 64)))

section

variable {how : OpenHow}

lemma both_iff {f : BitVec 64} :
    strip f &&& (O_DIRECTORY 64 ||| O_CREAT 64) = O_DIRECTORY 64 ||| O_CREAT 64 ↔
      Has f (O_DIRECTORY 64) ∧ Has f (O_CREAT 64) := by
  rw [and_or_eq_iff, O_DIRECTORY, O_CREAT, and_twoPow_eq_iff (by decide),
    and_twoPow_eq_iff (by decide)]
  exact and_congr (has_strip (by decide)) (has_strip (by decide))

/-- The three ways in which `build_open_flags` ends. -/
inductive Ending (how : OpenHow) : Except Int OpenFlags → Prop where
  | refused (h : Refused how) : Ending how (.error (-EINVAL))
  | waits (h : ¬ Refused how) (hwait : MustWait how) : Ending how (.error (-EAGAIN))
  | accepted {mode : BitVec 16} (h : ¬ Refused how) (hwait : ¬ MustWait how)
      (hmode : openMode (strip how.flags) how.mode = some mode) :
      Ending how (.ok (accepted how mode))

lemma ending_buildOpenFlags (how : OpenHow) : Ending how (buildOpenFlags how) := by
  have htmpfile : Has (strip how.flags) (O_TMPFILE' 64) ↔ Has how.flags (O_TMPFILE' 64) :=
    has_strip (by decide)
  have hdirectory : Has (strip how.flags) (O_DIRECTORY 64) ↔ Has how.flags (O_DIRECTORY 64) :=
    has_strip (by decide)
  have hpath : Has (strip how.flags) (O_PATH 64) ↔ Has how.flags (O_PATH 64) :=
    has_strip (by decide)
  simp only [buildOpenFlags, htmpfile, hdirectory, hpath, both_iff, has_accMode]
  cases hmode : openMode (strip how.flags) how.mode with
  | none =>
    simp only [ite_self]
    exact .refused (.mode hmode)
  | some mode =>
    simp only
    -- the checks, in the order of the source
    split_ifs with hflags hresolve hscopes hboth hdir hwrite hbeside hwait
    · exact .refused (.flags hflags)
    · exact .refused (.resolve hresolve)
    · exact .refused (.scopes hscopes.1 hscopes.2)
    · exact .refused (.directory hboth.1 hboth.2)
    · exact .refused (.tmpfile hdir.1 hdir.2)
    · exact .refused (.readOnly hwrite.1 hwrite.2)
    · exact .refused (.path hbeside.1 hbeside.2)
    -- nothing is refused from here on, but a walk that must not wait may be given up
    all_goals
      have hnot : ¬ Refused how := by
        rintro (h | h | ⟨h, h'⟩ | h | ⟨h, h'⟩ | ⟨h, h'⟩ | ⟨h, h'⟩ | ⟨h, h'⟩)
        · exact hflags h
        · exact hresolve h
        · exact hscopes ⟨h, h'⟩
        · rw [hmode] at h
          cases h
        · exact hboth ⟨h, h'⟩
        · exact hdir ⟨h, h'⟩
        · exact hwrite ⟨h, h'⟩
        · exact hbeside ⟨h, h'⟩
    · exact .waits hnot hwait
    · exact .accepted hnot hwait hmode

lemma buildOpenFlags_of_refused (h : Refused how) : buildOpenFlags how = .error (-EINVAL) := by
  have hending := ending_buildOpenFlags how
  generalize buildOpenFlags how = r at hending
  cases hending with
  | refused _ => rfl
  | waits hnot _ => exact absurd h hnot
  | accepted hnot _ _ => exact absurd h hnot

/-- Only the flags that are not stripped matter. -/
lemma buildOpenFlags_congr {how' : OpenHow} (hflags : strip how.flags = strip how'.flags)
    (hmode : how.mode = how'.mode) (hresolve : how.resolve = how'.resolve) :
    buildOpenFlags how = buildOpenFlags how' := by
  rw [buildOpenFlags, buildOpenFlags, ← accMode_strip, hflags, accMode_strip, hmode, hresolve]

lemma not_cached (h : how.resolve = 0) : ¬ MustWait how := by
  rintro ⟨hcached, _⟩
  rw [h] at hcached
  exact has_zero_left hcached

end

/-! ### `openat` -/

/-- The flags that `openat` opens with: `O_PATH` beats everything else. -/
def legacyFlags (f : BitVec 64) : BitVec 64 :=
  if Has f (O_PATH 64) then f &&& O_PATH_FLAGS 64
  else (f ||| O_LARGEFILE 64) &&& VALID_OPEN_FLAGS 64

section

variable {f m : BitVec 64}

/-- The valid flags of a `u64` are those of its lower half. -/
lemma signExtend_and_valid (f : BitVec 64) :
    (f.setWidth 32).signExtend 64 &&& VALID_OPEN_FLAGS 64 = f &&& VALID_OPEN_FLAGS 64 := by
  refine BitVec.eq_of_getLsbD_eq fun i hi => ?_
  rw [BitVec.getLsbD_and, BitVec.getLsbD_and]
  by_cases hlow : i < 23
  · have hi' : i < 32 := by omega
    rw [BitVec.getLsbD_signExtend]
    simp [hi, hi']
  · have hvalid : (VALID_OPEN_FLAGS 64).getLsbD i = false :=
      getLsbD_ofNat_of_le (k := 23) (by decide) (by omega)
    rw [hvalid, Bool.and_false, Bool.and_false]

lemma signExtend_valid (f : BitVec 64) :
    ((f.setWidth 32 ||| O_LARGEFILE 32) &&& VALID_OPEN_FLAGS 32).signExtend 64 =
      (f ||| O_LARGEFILE 64) &&& VALID_OPEN_FLAGS 64 := by
  have hlargefile : (O_LARGEFILE 32).signExtend 64 = O_LARGEFILE 64 := by decide
  have hvalid : (VALID_OPEN_FLAGS 32).signExtend 64 = VALID_OPEN_FLAGS 64 := by decide
  rw [BitVec.signExtend_and, BitVec.signExtend_or, hlargefile, hvalid,
    BitVec.and_or_distrib_right, BitVec.and_or_distrib_right, signExtend_and_valid]

lemma legacyFlags_eq :
    (if Has ((f ||| O_LARGEFILE 64) &&& VALID_OPEN_FLAGS 64) (O_PATH 64) then
        (f ||| O_LARGEFILE 64) &&& VALID_OPEN_FLAGS 64 &&& O_PATH_FLAGS 64
      else (f ||| O_LARGEFILE 64) &&& VALID_OPEN_FLAGS 64) = legacyFlags f := by
  have hpath : Has ((f ||| O_LARGEFILE 64) &&& VALID_OPEN_FLAGS 64) (O_PATH 64) ↔
      Has f (O_PATH 64) := by
    have hmask : VALID_OPEN_FLAGS 64 &&& O_PATH 64 = O_PATH 64 := by decide
    have hlargefile : ¬ Has (O_LARGEFILE 64) (O_PATH 64) := by decide
    rw [has_and, hmask, has_or, or_iff_left hlargefile]
  have hdropped : (f ||| O_LARGEFILE 64) &&& VALID_OPEN_FLAGS 64 &&& O_PATH_FLAGS 64 =
      f &&& O_PATH_FLAGS 64 := by
    have hmask : VALID_OPEN_FLAGS 64 &&& O_PATH_FLAGS 64 = O_PATH_FLAGS 64 := by decide
    have hlargefile : O_LARGEFILE 64 &&& O_PATH_FLAGS 64 = 0#64 := by decide
    rw [BitVec.and_assoc, hmask, BitVec.and_or_distrib_right, hlargefile, BitVec.or_zero]
  rw [legacyFlags, hdropped]
  exact if_congr hpath rfl rfl

/-- The request that `openat` makes of its arguments. -/
def legacyHow (f : BitVec 64) (mode : BitVec 16) : OpenHow where
  flags := legacyFlags f
  mode := if WillCreate (legacyFlags f) then (mode &&& S_IALLUGO 16).setWidth 64 else 0
  resolve := 0

lemma legacyHow_flags (f : BitVec 64) (mode : BitVec 16) :
    (legacyHow f mode).flags = legacyFlags f := rfl

lemma openat_eq (f : BitVec 64) (mode : BitVec 16) :
    openat (f.setWidth 32) mode = buildOpenFlags (legacyHow f mode) := by
  simp only [openat, buildOpenHow, signExtend_valid, legacyFlags_eq]
  rfl

/-- Without `O_PATH` no valid flag is dropped. -/
lemma has_legacyFlags (hf : ¬ Has f (O_PATH 64)) (hm : VALID_OPEN_FLAGS 64 &&& m = m)
    (hlargefile : ¬ Has (O_LARGEFILE 64) m) : Has (legacyFlags f) m ↔ Has f m := by
  rw [legacyFlags, if_neg hf, has_and, hm, has_or, or_iff_left hlargefile]

lemma not_has_legacyFlags (hf : Has f (O_PATH 64)) (hm : O_PATH_FLAGS 64 &&& m = 0#64) :
    ¬ Has (legacyFlags f) m := by
  rw [legacyFlags, if_pos hf, has_and, hm]
  exact not_not.mpr BitVec.and_zero

/-- The bits of a mode that are kept. -/
lemma setWidth_mode (m : BitVec 64) :
    (m.setWidth 16 &&& S_IALLUGO 16).setWidth 64 = m &&& S_IALLUGO 64 := by
  have hmask : (S_IALLUGO 16).setWidth 64 = S_IALLUGO 64 := by decide
  rw [BitVec.setWidth_and, hmask]
  refine BitVec.eq_of_getLsbD_eq fun i hi => ?_
  rw [BitVec.getLsbD_and, BitVec.getLsbD_and]
  by_cases hlow : i < 12
  · have hi' : i < 16 := by omega
    simp [hi, hi']
  · have hhigh : (S_IALLUGO 64).getLsbD i = false :=
      getLsbD_ofNat_of_le (k := 12) (by decide) (by omega)
    rw [hhigh, Bool.and_false, Bool.and_false]

lemma openMode_legacyHow (f : BitVec 64) (mode : BitVec 16) :
    openMode (strip (legacyHow f mode).flags) (legacyHow f mode).mode ≠ none := by
  rw [Ne, openMode_eq_none_iff, legacyHow_flags]
  by_cases hcreate : WillCreate (legacyFlags f)
  · have hmode : (legacyHow f mode).mode = mode.setWidth 64 &&& S_IALLUGO 64 := by
      rw [← setWidth_mode, BitVec.setWidth_setWidth_of_le _ (by decide), BitVec.setWidth_eq]
      exact if_pos hcreate
    rw [if_pos (willCreate_strip.mpr hcreate), hmode, not_has_not, BitVec.and_assoc,
      BitVec.and_self]
  · rw [if_neg (mt willCreate_strip.mp hcreate), not_not]
    exact if_neg hcreate

lemma strip_legacyFlags_path (hf : Has f (O_PATH 64)) :
    ¬ Has (strip (legacyFlags f)) (~~~O_PATH_FLAGS 64) := by
  rw [not_has_not, legacyFlags, if_pos hf, strip_and, BitVec.and_assoc, BitVec.and_self]

lemma strip_legacyFlags_valid : ¬ Has (strip (legacyFlags f)) (~~~VALID_OPEN_FLAGS 64) := by
  rw [not_has_not, legacyFlags]
  split_ifs
  · have hmask : O_PATH_FLAGS 64 &&& VALID_OPEN_FLAGS 64 = O_PATH_FLAGS 64 := by decide
    rw [strip_and, BitVec.and_assoc, hmask]
  · rw [strip_and, BitVec.and_assoc, BitVec.and_self]

end

/-- Flags that contradict each other. `O_PATH` drops all of them but `O_DIRECTORY`. -/
def Contradictory {w : ℕ} (flags : BitVec w) : Prop :=
  ¬ Has flags (O_PATH w) ∧
    (Has flags (O_DIRECTORY w) ∧ Has flags (O_CREAT w) ∨
      Has flags (O_TMPFILE' w) ∧ (¬ Has flags (O_DIRECTORY w) ∨ ¬ Has flags (O_ACCMODE w)))

lemma contradictory_setWidth (flags : BitVec 32) :
    Contradictory (flags.setWidth 64) ↔ Contradictory flags := by
  have hflag : ∀ i < 32, Has (flags.setWidth 64) (.twoPow 64 i) ↔ Has flags (.twoPow 32 i) :=
    fun i hi => has_setWidth (by omega) hi
  have haccess : Has (flags.setWidth 64) (O_ACCMODE 64) ↔ Has flags (O_ACCMODE 32) := by
    have hmask : O_ACCMODE 64 = .twoPow 64 0 ||| .twoPow 64 1 := by decide
    have hmask' : O_ACCMODE 32 = .twoPow 32 0 ||| .twoPow 32 1 := by decide
    rw [hmask, hmask', has_mask_or, has_mask_or, hflag 0 (by decide), hflag 1 (by decide)]
  rw [Contradictory, Contradictory, haccess]
  simp only [O_PATH, O_DIRECTORY, O_CREAT, O_TMPFILE', hflag _ (by decide : 21 < 32),
    hflag _ (by decide : 16 < 32), hflag _ (by decide : 6 < 32), hflag _ (by decide : 22 < 32)]

lemma refused_legacyHow_iff (f : BitVec 64) (mode : BitVec 16) :
    Refused (legacyHow f mode) ↔ Contradictory f := by
  constructor
  · intro h
    cases h with
    | flags h => exact absurd h strip_legacyFlags_valid
    | resolve h => exact absurd h has_zero_left
    | scopes h _ => exact absurd h has_zero_left
    | mode h => exact absurd h (openMode_legacyHow f mode)
    | directory h h' =>
      have hpath : ¬ Has f (O_PATH 64) := fun hf => not_has_legacyFlags hf (by decide) h'
      rw [legacyHow_flags, has_legacyFlags hpath (by decide) (by decide)] at h h'
      exact ⟨hpath, Or.inl ⟨h, h'⟩⟩
    | tmpfile h h' =>
      have hpath : ¬ Has f (O_PATH 64) := fun hf => not_has_legacyFlags hf (by decide) h
      rw [legacyHow_flags, has_legacyFlags hpath (by decide) (by decide)] at h h'
      exact ⟨hpath, Or.inr ⟨h, Or.inl h'⟩⟩
    | readOnly h h' =>
      have hpath : ¬ Has f (O_PATH 64) := fun hf => not_has_legacyFlags hf (by decide) h
      rw [legacyHow_flags, has_legacyFlags hpath (by decide) (by decide)] at h h'
      exact ⟨hpath, Or.inr ⟨h, Or.inr h'⟩⟩
    | path h h' =>
      -- flags besides `O_PATH` are gone
      by_cases hpath : Has f (O_PATH 64)
      · exact absurd h' (strip_legacyFlags_path hpath)
      · rw [legacyHow_flags, has_legacyFlags hpath (by decide) (by decide)] at h
        exact absurd h hpath
  · rintro ⟨hpath, h⟩
    have hflag {m : BitVec 64} := @has_legacyFlags f m hpath
    rcases h with ⟨hdirectory, hcreate⟩ | ⟨htmpfile, hdirectory | haccess⟩
    · exact .directory ((hflag (by decide) (by decide)).mpr hdirectory)
        ((hflag (by decide) (by decide)).mpr hcreate)
    · exact .tmpfile ((hflag (by decide) (by decide)).mpr htmpfile)
        (mt (hflag (by decide) (by decide)).mp hdirectory)
    · exact .readOnly ((hflag (by decide) (by decide)).mpr htmpfile)
        (mt (hflag (by decide) (by decide)).mp haccess)

/-- `openat` has one complaint about flags, and the mode is never wrong: a new file cannot be a
directory, and `O_TMPFILE` must be whole and be for writing. -/
theorem openat_refused_iff (flags : BitVec 32) (mode : BitVec 16) (e : Int) :
    openat flags mode = .error e ↔ e = -EINVAL ∧ Contradictory flags := by
  have hwidth : (flags.setWidth 64).setWidth 32 = flags := by
    rw [BitVec.setWidth_setWidth_of_le _ (by decide), BitVec.setWidth_eq]
  rw [← hwidth, openat_eq, hwidth, ← contradictory_setWidth, ← refused_legacyHow_iff _ mode]
  have hending := ending_buildOpenFlags (legacyHow (flags.setWidth 64) mode)
  generalize buildOpenFlags (legacyHow (flags.setWidth 64) mode) = r at hending ⊢
  cases hending with
  | refused h =>
    rw [Except.error.injEq, and_iff_left h]
    exact eq_comm
  | waits _ hwait => exact absurd hwait (not_cached rfl)
  | accepted h _ _ => exact iff_of_false (fun heq => nomatch heq) fun hand => h hand.2

/-! ### `openat2` -/

/-- What `openat` ignores and `openat2` does not: unknown flags, flags besides `O_PATH`, and a mode
that is not needed or has unknown bits. `__FMODE_NONOTIFY` is none of them, since
`build_open_flags` strips it before it checks anything, for both. -/
def Ignored (f m : BitVec 64) : Prop :=
  Has (strip f) (~~~VALID_OPEN_FLAGS 64) ∨
    Has f (O_PATH 64) ∧ Has (strip f) (~~~O_PATH_FLAGS 64) ∨
    if WillCreate f then Has m (~~~S_IALLUGO 64) else m ≠ 0

instance (f m : BitVec 64) : Decidable (Ignored f m) :=
  inferInstanceAs (Decidable (_ ∨ _ ∧ _ ∨ ite _ _ _))

/-- The flags that `openat2` opens with. -/
def strictFlags (f : BitVec 64) : BitVec 64 :=
  if Has f (O_PATH 64) then f else f ||| O_LARGEFILE 64

section

variable {f m : BitVec 64}

lemma has_strictFlags (hm : ¬ Has (O_LARGEFILE 64) m) : Has (strictFlags f) m ↔ Has f m := by
  rw [strictFlags]
  split_ifs
  · rfl
  · rw [has_or, or_iff_left hm]

lemma willCreate_strictFlags : WillCreate (strictFlags f) ↔ WillCreate f :=
  has_strictFlags (by decide)

lemma refused_of_ignored (h : Ignored f m) : Refused ⟨strictFlags f, m, 0⟩ := by
  rcases h with h | ⟨hpath, h⟩ | h
  · refine .flags ?_
    rw [strictFlags]
    split_ifs
    · exact h
    · rw [strip_or, has_or]
      exact Or.inl h
  · refine .path ?_ ?_
    · exact (has_strictFlags (by decide)).mpr hpath
    · rw [strictFlags, if_pos hpath]
      exact h
  · refine .mode (openMode_eq_none_iff.mpr ?_)
    simp only [willCreate_strip, willCreate_strictFlags]
    exact h

/-- Where nothing is ignored, both open with the same flags. -/
lemma strip_strictFlags (h : ¬ Ignored f m) : strip (strictFlags f) = strip (legacyFlags f) := by
  rw [Ignored, not_or, not_or] at h
  obtain ⟨hvalid, hbeside, _⟩ := h
  rw [strictFlags, legacyFlags]
  split_ifs with hpath
  · have hmask : strip f &&& O_PATH_FLAGS 64 = strip f :=
      not_has_not.mp fun h => hbeside ⟨hpath, h⟩
    rw [strip_and, hmask]
  · have hlargefile : ¬ Has (strip (O_LARGEFILE 64)) (~~~VALID_OPEN_FLAGS 64) := by decide
    have hmask : strip (f ||| O_LARGEFILE 64) &&& VALID_OPEN_FLAGS 64 =
        strip (f ||| O_LARGEFILE 64) := by
      rw [← not_has_not, strip_or, has_or]
      exact not_or.mpr ⟨hvalid, hlargefile⟩
    rw [strip_and, hmask]

/-- And with the same mode. -/
lemma mode_of_not_ignored (h : ¬ Ignored f m) : m = (legacyHow f (m.setWidth 16)).mode := by
  have hcreate : WillCreate (legacyFlags f) ↔ WillCreate f := by
    rw [← willCreate_strip, ← strip_strictFlags h, willCreate_strip, willCreate_strictFlags]
  have hmode := mt (fun hmode => Or.inr (Or.inr hmode)) h
  by_cases hf : WillCreate f
  · rw [if_pos hf, not_has_not] at hmode
    rw [legacyHow, if_pos (hcreate.mpr hf), setWidth_mode, hmode]
  · rw [if_neg hf, not_not] at hmode
    rw [legacyHow, if_neg (mt hcreate.mp hf), hmode]

end

/-- `openat2` without restrictions on the path is `openat`, except that it refuses what that one
ignores. -/
theorem openat2_eq_openat (f m : BitVec 64) :
    openat2 ⟨f, m, 0⟩ =
      if Ignored f m then .error (-EINVAL) else openat (f.setWidth 32) (m.setWidth 16) := by
  have hstrict : openat2 ⟨f, m, 0⟩ = buildOpenFlags ⟨strictFlags f, m, 0⟩ := rfl
  rw [hstrict]
  split_ifs with h
  · exact buildOpenFlags_of_refused (refused_of_ignored h)
  · rw [openat_eq]
    exact buildOpenFlags_congr (strip_strictFlags h) (mode_of_not_ignored h) rfl

end Taro.Open
