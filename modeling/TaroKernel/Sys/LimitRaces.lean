import TaroKernel.Lib.Mutex
import TaroKernel.Sys.Limits

/-!
# Two ways to one limit at the same time

A `struct rlimit` is two words. `do_prlimit` reads and writes them under `task_lock`, so callers of
it that overlap take effect one after the other. A registry call stores its limit without that
lock: between the two words of a `do_prlimit` there is room for both words of the registry, and the
soft limit ends up above the hard one.
-/

namespace Taro.Sys

open Linearizability Machine Mutex

/-! ### Word by word -/

/-- Code that works on `signal->rlim` of one process, under `task_lock` or not. -/
abbrev WordProg := Mutex.Prog (Resource → Rlimit)

def readCur (j : Resource) : WordProg UInt64 := .atomic fun rlim => some ((rlim j).rlimCur, rlim)

def readMax (j : Resource) : WordProg UInt64 := .atomic fun rlim => some ((rlim j).rlimMax, rlim)

def writeCur (j : Resource) (v : UInt64) : WordProg Unit := .atomic fun rlim =>
  some ((), Function.update rlim j { rlim j with rlimCur := v })

def writeMax (j : Resource) (v : UInt64) : WordProg Unit := .atomic fun rlim =>
  some ((), Function.update rlim j { rlim j with rlimMax := v })

/-- A call of `do_prlimit`. -/
structure PrlimitCall where
  resource : UInt32
  newRlim : Option Rlimit
  wantsOld : Bool
  answers : PrlimitAnswers

/-- What a call of `do_prlimit` gives back, and the limit it calls `update_rlimit_cpu` with. -/
structure PrlimitRet where
  retval : Int
  oldRlim : Option Rlimit
  updateRlimitCpu : Option UInt64
  deriving DecidableEq, Repr

/-- `*old_rlim = *rlim`. -/
def copyOld (j : Resource) (wantsOld : Bool) : WordProg (Option Rlimit) :=
  if wantsOld then do
    let cur ← readCur j
    let max ← readMax j
    pure (some ⟨cur, max⟩)
  else pure none

/-- `*rlim = *new_rlim`. -/
def storeNew (j : Resource) (new : Rlimit) : WordProg Unit := do
  writeCur j new.rlimCur
  writeMax j new.rlimMax

/-- `do_prlimit`, word by word. -/
def prlimitCode (i : PrlimitCall) : WordProg PrlimitRet :=
  if i.resource ≥ RLIM_NLIMITS then pure ⟨-EINVAL, none, none⟩
  else
    let j := arrayIndexNospec i.resource
    match i.newRlim with
    | none => do
      .acquire
      let old ← copyOld j i.wantsOld
      .release
      pure ⟨0, old, none⟩
    | some new =>
      if new.rlimCur > new.rlimMax then pure ⟨-EINVAL, none, none⟩
      else if i.resource = RLIMIT_NOFILE ∧ new.rlimMax > i.answers.sysctlNrOpen.toUInt64 then
        pure ⟨-EPERM, none, none⟩
      else do
        .acquire
        let max ← readMax j
        let retval := mayRaise max new i.answers
        if retval ≠ 0 then do
          .release
          pure ⟨retval, none, none⟩
        else do
          let old ← copyOld j i.wantsOld
          storeNew j new
          .release
          pure ⟨0, old, armed i.resource new⟩

/-- The same call at once. -/
def prlimitCall (rlim : Resource → Rlimit) (i : PrlimitCall) : PrlimitRet × (Resource → Rlimit) :=
  let d := doPrlimit rlim i.resource i.newRlim i.wantsOld i.answers
  (⟨d.retval, d.oldRlim, d.updateRlimitCpu⟩, d.rlim)

/-! ### Callers of `do_prlimit` -/

/-- `task_lock` protects the words of all limits. -/
def taskLock : Contract (Resource → Rlimit) PrlimitCall PrlimitRet (Resource → Rlimit) where
  next := prlimitCall
  Rep := Eq
  Unseen := Eq
  Outside _ := Eq
  Inside _ _ _ := True
  unseen_refl _ := rfl
  unseen_trans := Eq.trans
  unseen_of_outside := id
  rep_of_unseen h h' := h ▸ h'

section During

variable {i : PrlimitCall} {t rlim rlim' : Resource → Rlimit} {o : PrlimitRet} {j : Resource}
  {β : Type}

lemma during_act {x : (Resource → Rlimit) → Option (β × (Resource → Rlimit))}
    {k : β → WordProg PrlimitRet} {b : β} (hx : x rlim = some (b, rlim'))
    (hk : taskLock.During i t o (k b) rlim') : taskLock.During i t o (.act x k) rlim := by
  rintro _ rfl
  exact ⟨b, rlim', hx, trivial, hk⟩

lemma during_readMax {f : UInt64 → WordProg PrlimitRet}
    (hf : taskLock.During i t o (f (rlim j).rlimMax) rlim) :
    taskLock.During i t o (readMax j >>= f) rlim :=
  during_act rfl hf

lemma during_copyOld {wantsOld : Bool} {f : Option Rlimit → WordProg PrlimitRet}
    (hf : taskLock.During i t o (f (reported wantsOld (rlim j))) rlim) :
    taskLock.During i t o (copyOld j wantsOld >>= f) rlim := by
  cases wantsOld with
  | false => exact hf
  | true => exact during_act rfl (during_act rfl hf)

/-- The second word is stored next to the first one. -/
lemma during_storeNew {new : Rlimit} {f : Unit → WordProg PrlimitRet}
    (hf : taskLock.During i t o (f ()) (Function.update rlim j new)) :
    taskLock.During i t o (storeNew j new >>= f) rlim := by
  refine during_act rfl (during_act rfl ?_)
  simp only [Function.update_self, Function.update_idem]
  exact hf

end During

lemma prlimitCode_before (i : PrlimitCall) : taskLock.Before i (prlimitCode i) := by
  obtain ⟨resource, newRlim, wantsOld, a⟩ := i
  simp only [prlimitCode]
  by_cases hres : resource ≥ RLIM_NLIMITS
  · rw [if_pos hres]
    intro rlim
    simp [taskLock, prlimitCall, doPrlimit, hres, Prlimited.refuse]
  rw [if_neg hres]
  cases newRlim with
  | none =>
    rintro rlim _ rfl
    apply during_copyOld
    have hnext : prlimitCall rlim ⟨resource, none, wantsOld, a⟩ =
        (⟨0, reported wantsOld (rlim (arrayIndexNospec resource)), none⟩, rlim) := by
      simp only [prlimitCall, doPrlimit, if_neg hres]
    simp only [taskLock, hnext]
    exact ⟨rfl, rfl⟩
  | some new =>
    dsimp only
    by_cases hle : new.rlimCur > new.rlimMax
    · rw [if_pos hle]
      intro rlim
      simp [taskLock, prlimitCall, doPrlimit, hres, hle, Prlimited.refuse]
    rw [if_neg hle]
    by_cases hfiles : resource = RLIMIT_NOFILE ∧ new.rlimMax > a.sysctlNrOpen.toUInt64
    · rw [if_pos hfiles]
      intro rlim
      simp only [taskLock, prlimitCall, doPrlimit, if_neg hres, if_neg hle, if_pos hfiles,
        Prlimited.refuse]
    rw [if_neg hfiles]
    -- from here on under the lock
    rintro rlim _ rfl
    apply during_readMax
    by_cases hretval : mayRaise (rlim (arrayIndexNospec resource)).rlimMax new a ≠ 0
    · have hnext : prlimitCall rlim ⟨resource, some new, wantsOld, a⟩ =
          (⟨mayRaise (rlim (arrayIndexNospec resource)).rlimMax new a, none, none⟩, rlim) := by
        simp only [prlimitCall, doPrlimit, if_neg hres, if_neg hle, if_neg hfiles, if_pos hretval,
          Prlimited.refuse]
      rw [if_pos hretval]
      simp only [taskLock, hnext]
      exact ⟨rfl, rfl⟩
    · have hnext : prlimitCall rlim ⟨resource, some new, wantsOld, a⟩ =
          (⟨0, reported wantsOld (rlim (arrayIndexNospec resource)), armed resource new⟩,
            Function.update rlim (arrayIndexNospec resource) new) := by
        simp only [prlimitCall, doPrlimit, if_neg hres, if_neg hle, if_neg hfiles, if_neg hretval]
      rw [if_neg hretval]
      refine during_copyOld (during_storeNew ?_)
      simp only [taskLock, hnext]
      exact ⟨rfl, rfl⟩

/-- No soft limit is above the hard one. -/
def InOrder (rlim : Resource → Rlimit) : Prop := ∀ j, (rlim j).rlimCur ≤ (rlim j).rlimMax

/-- Limits that are in order stay so. -/
lemma prlimitCall_inOrder {rlim : Resource → Rlimit} (h : InOrder rlim) (i : PrlimitCall) :
    InOrder (prlimitCall rlim i).2 := by
  obtain ⟨resource, newRlim, wantsOld, a⟩ := i
  have hexit := exit_doPrlimit rlim resource newRlim wantsOld a
  simp only [prlimitCall]
  generalize doPrlimit rlim resource newRlim wantsOld a = d at hexit ⊢
  cases hexit with
  | range | read | refused => exact h
  | set hres hmay =>
    intro j
    by_cases hj : j = arrayIndexNospec resource
    · rw [hj]
      simp only [Function.update_self]
      exact hmay.le
    · simp only [Function.update_of_ne hj]
      exact h j

/-- However callers of `do_prlimit` for any limits of a process overlap, they take effect one after
the other, and if the limits were in order they are whenever `task_lock` is free. -/
theorem prlimit_linearizable {rlim₀ : Resource → Rlimit}
    {w : Mutex.World (Resource → Rlimit) PrlimitCall PrlimitRet} (h₀ : InOrder rlim₀)
    (h : Reachable (Mutex.World.next prlimitCode) (.boot rlim₀) w) :
    ∃ (pend : List (ℕ × Completed PrlimitCall PrlimitRet)) (rlim : Resource → Rlimit),
      (∀ p ∈ pend, ∃ c, w.running p.1 = some c ∧ p.2.input = c.input ∧ p.2.start = c.start) ∧
      Linearizable prlimitCall id id rlim₀ (w.completed ++ pend.map Prod.snd) rlim ∧
      InOrder rlim ∧ (w.owner = none → w.shared = rlim) := by
  obtain ⟨pend, rlim, _, hpend, hlin, hrep⟩ :=
    taskLock.linearizable prlimitCode_before (rfl : taskLock.Rep rlim₀ rlim₀) h
  refine ⟨pend, rlim, hpend, hlin, ?_, hrep⟩
  obtain ⟨order, _, _, _, hfinal⟩ := hlin
  have hreach : Reachable prlimitCall rlim₀ rlim := ⟨_, hfinal⟩
  exact hreach.invariant (P := InOrder) h₀ fun _ i hrlim => prlimitCall_inOrder hrlim i

/-- Two callers that overlap: one has the lock, the other waits for it. -/
theorem overlapping_prlimits_linearizable :
    let rlim₀ : Resource → Rlimit := fun _ => ⟨8192, 8192⟩
    let lower : PrlimitCall := ⟨RLIMIT_AS, some ⟨4096, 4096⟩, true, ⟨false, 100, 0⟩⟩
    let raise : PrlimitCall := ⟨RLIMIT_NOFILE, some ⟨101, 101⟩, true, ⟨true, 200, 0⟩⟩
    let w := final (Mutex.World.next prlimitCode) (.boot rlim₀)
      [.call 0 lower, .call 1 raise, .run 0, .run 1, .run 0]
    w.owner = some 0 ∧
      ∃ (pend : List (ℕ × Completed PrlimitCall PrlimitRet)) (rlim : Resource → Rlimit),
        (∀ p ∈ pend, ∃ c, w.running p.1 = some c ∧ p.2.input = c.input ∧ p.2.start = c.start) ∧
        Linearizable prlimitCall id id rlim₀ (w.completed ++ pend.map Prod.snd) rlim ∧
        InOrder rlim ∧ (w.owner = none → w.shared = rlim) :=
  ⟨by decide, prlimit_linearizable (fun _ => UInt64.le_refl _) ⟨_, rfl⟩⟩

/-! ### The registry among them -/

/-- A caller of `do_prlimit`, or a granted registry call at its store. -/
inductive RaceCall where
  | prlimit (i : PrlimitCall)
  | registry (L : SizeT)

/-- `task->signal->rlim[RLIMIT_AS] = rl`, by a caller that holds no `task_lock`. -/
def raceCode : RaceCall → WordProg PrlimitRet
  | .prlimit i  => prlimitCode i
  | .registry L => do
    storeNew addressSpace (rlimitOf L)
    pure ⟨0, none, none⟩

/-- The caller of `do_prlimit` has written its first word when the registry writes both of its
own. -/
def betweenWords (i : PrlimitCall) (L : SizeT) : List (Mutex.Move RaceCall) :=
  [.call 0 (.prlimit i), .run 0, .run 0, .run 0, .call 1 (.registry L), .run 1, .run 1, .run 1,
    .run 0, .run 0, .run 0]

/-- From any limits, a `do_prlimit` that lowers the one of the address space and a registry call for
more both return 0 and leave the soft limit of the one with the hard limit of the other, although
either alone would have kept them in order. -/
theorem registry_tears_limit (rlim : Resource → Rlimit) {new : Rlimit}
    (hnew : new.rlimCur ≤ new.rlimMax) (hlower : new.rlimMax ≤ (rlim addressSpace).rlimMax)
    {L : SizeT} (hL : new.rlimMax < L) {a : PrlimitAnswers} (hlsm : a.securityTaskSetrlimit = 0) :
    let w := final (Mutex.World.next raceCode) (.boot rlim)
      (betweenWords ⟨RLIMIT_AS, some new, false, a⟩ L)
    w.completed.map Completed.output = [⟨0, none, none⟩, ⟨0, none, none⟩] ∧ w.owner = none ∧
      w.shared = Function.update rlim addressSpace ⟨L, new.rlimMax⟩ ∧
      (w.shared addressSpace).rlimMax < (w.shared addressSpace).rlimCur := by
  have hretval : mayRaise (rlim addressSpace).rlimMax new a = 0 :=
    mayRaise_eq_zero_iff.mpr ⟨Or.inl hlower, hlsm⟩
  have hle : ¬ new.rlimCur > new.rlimMax := UInt64.not_lt.mpr hnew
  have hres : ¬ RLIMIT_AS ≥ RLIM_NLIMITS := by decide
  have hfiles : ¬ (RLIMIT_AS = RLIMIT_NOFILE ∧ new.rlimMax > a.sysctlNrOpen.toUInt64) :=
    fun h => absurd h.1 (by decide)
  have harmed : armed RLIMIT_AS new = none := if_neg fun h => absurd h.1 (by decide)
  have hcode : raceCode (.prlimit ⟨RLIMIT_AS, some new, false, a⟩) =
      .lock (readMax addressSpace >>= fun max =>
        if mayRaise max new a ≠ 0 then .unlock (.ret ⟨mayRaise max new a, none, none⟩)
        else storeNew addressSpace new >>= fun _ => .unlock (.ret ⟨0, none, none⟩)) := by
    simp only [raceCode, prlimitCode, if_neg hres, if_neg hle, if_neg hfiles, harmed]
    rfl
  have hcode' : raceCode (.registry L) =
      (storeNew addressSpace (rlimitOf L) >>= fun _ => .ret ⟨0, none, none⟩) := rfl
  intro w
  have hw : w.completed.map Completed.output = [⟨0, none, none⟩, ⟨0, none, none⟩] ∧
      w.owner = none ∧ w.shared = Function.update rlim addressSpace ⟨L, new.rlimMax⟩ := by
    simp [w, betweenWords, Mutex.World.next, Mutex.World.boot, Mutex.World.goOn, Mutex.World.run,
      Mutex.World.return, hcode, hcode', storeNew, readMax, writeCur, writeMax, rlimitOf, hretval]
  refine ⟨hw.1, hw.2.1, hw.2.2, ?_⟩
  rw [hw.2.2, Function.update_self]
  exact hL

/-- A limit of 8192 is lowered to 4096 while the registry stores 65536. -/
theorem registry_tears_8192 :
    let w := final (Mutex.World.next raceCode) (.boot fun _ => ⟨8192, 8192⟩)
      (betweenWords ⟨RLIMIT_AS, some ⟨4096, 4096⟩, false, ⟨false, 100, 0⟩⟩ 65536)
    w.completed.map Completed.output = [⟨0, none, none⟩, ⟨0, none, none⟩] ∧ w.owner = none ∧
      w.shared = Function.update (fun _ => ⟨8192, 8192⟩) addressSpace ⟨65536, 4096⟩ ∧
      (w.shared addressSpace).rlimMax < (w.shared addressSpace).rlimCur :=
  registry_tears_limit (fun _ => ⟨8192, 8192⟩) (by decide) (by decide) (by decide) rfl

end Taro.Sys
