import Mathlib.Data.Fin.Basic
import Mathlib.Logic.Function.Basic
import TaroKernel.Kernel

/-!
# Resource limits

`do_prlimit` of `kernel/sys.c` and the syscalls around it: `getrlimit`, `setrlimit`, their variants
for 32-bit programs and for old ones, and `prlimit64`, which can be about another process. They are
the regular way to the limits that the registry of `kernel/usac/taro_mani_mem.c` writes as well.

As everywhere, what the rest of the kernel answers is arbitrary: whether the caller is privileged,
what the security modules say, whether a copy from or to user memory goes through.
-/

namespace Taro.Sys

variable {Signal : Type*}

/-! ### Limits -/

/-- An index of `signal->rlim`. -/
abbrev Resource := Fin 16

def RLIM_NLIMITS : UInt32 := 16
def RLIMIT_CPU : UInt32 := 0
def RLIMIT_NOFILE : UInt32 := 7
def RLIMIT_AS : UInt32 := 9

def RLIM_INFINITY : UInt64 := 18446744073709551615
def RLIM64_INFINITY : UInt64 := 18446744073709551615
def COMPAT_RLIM_INFINITY : UInt32 := 4294967295

/-- The limits of every `signal_struct`. -/
abbrev Limits (Signal : Type*) := Signal → Resource → Rlimit

/-- `array_index_nospec(resource, RLIM_NLIMITS)`. -/
def arrayIndexNospec (resource : UInt32) : Resource :=
  if h : resource < RLIM_NLIMITS then ⟨resource.toNat, UInt32.lt_iff_toNat_lt.mp h⟩ else 0

/-- `struct rlimit64`. -/
structure Rlimit64 where
  rlimCur : UInt64
  rlimMax : UInt64
  deriving DecidableEq, Repr

/-- `struct compat_rlimit`. -/
structure CompatRlimit where
  rlimCur : UInt32
  rlimMax : UInt32
  deriving DecidableEq, Repr

/-- What `do_prlimit` is told by the rest of the kernel. -/
structure PrlimitAnswers where
  /-- `capable(CAP_SYS_RESOURCE)`. -/
  capable : Bool
  sysctlNrOpen : UInt32
  securityTaskSetrlimit : Int32
  deriving DecidableEq, Repr

/-- What `do_prlimit` leaves: its return value, the limits, `*old_rlim` if it was written, and the
limit `update_rlimit_cpu` was called with if it was called. -/
structure Prlimited where
  retval : Int
  rlim : Resource → Rlimit
  oldRlim : Option Rlimit
  updateRlimitCpu : Option UInt64

/-- An exit that changes nothing. -/
def Prlimited.refuse (retval : Int) (rlim : Resource → Rlimit) : Prlimited :=
  ⟨retval, rlim, none, none⟩

/-- What `do_prlimit` checks under `task_lock` before it sets a limit, given `rlim->rlim_max`. -/
def mayRaise (rlimMax : UInt64) (newRlim : Rlimit) (a : PrlimitAnswers) : Int :=
  if newRlim.rlimMax > rlimMax ∧ a.capable = false then -EPERM
  else a.securityTaskSetrlimit.toInt

/-- `*old_rlim = *rlim`, if `old_rlim` is not `NULL`. -/
def reported (wantsOld : Bool) (rlim : Rlimit) : Option Rlimit :=
  if wantsOld then some rlim else none

/-- The limit for the CPU timer of the process, with `CONFIG_POSIX_TIMERS`. -/
def armed (resource : UInt32) (newRlim : Rlimit) : Option UInt64 :=
  if resource = RLIMIT_CPU ∧ newRlim.rlimCur ≠ RLIM_INFINITY then some newRlim.rlimCur else none

/-- `do_prlimit` on the limits of one process; `wantsOld` says that `old_rlim` is not `NULL`. -/
def doPrlimit (rlim : Resource → Rlimit) (resource : UInt32) (newRlim : Option Rlimit)
    (wantsOld : Bool) (a : PrlimitAnswers) : Prlimited :=
  if resource ≥ RLIM_NLIMITS then .refuse (-EINVAL) rlim
  else
    let i := arrayIndexNospec resource
    match newRlim with
    | none     => ⟨0, rlim, reported wantsOld (rlim i), none⟩
    | some new =>
      if new.rlimCur > new.rlimMax then .refuse (-EINVAL) rlim
      else if resource = RLIMIT_NOFILE ∧ new.rlimMax > a.sysctlNrOpen.toUInt64 then
        .refuse (-EPERM) rlim
      else
        let retval := mayRaise (rlim i).rlimMax new a
        if retval ≠ 0 then .refuse retval rlim
        else
          ⟨0, Function.update rlim i new, reported wantsOld (rlim i), armed resource new⟩

/-! ### Processes -/

/-- The identities of `struct cred`. -/
structure Cred where
  uid : UInt32
  gid : UInt32
  suid : UInt32
  sgid : UInt32
  euid : UInt32
  egid : UInt32
  fsuid : UInt32
  fsgid : UInt32
  deriving DecidableEq, Repr

/-- A process with its credentials. -/
structure Process (Signal : Type*) extends Task Signal where
  cred : Cred
  deriving DecidableEq, Repr

/-- All identities of `tcred` are those of a caller with `cred`. -/
def idMatch (cred tcred : Cred) : Bool :=
  cred.uid = tcred.euid ∧ cred.uid = tcred.suid ∧ cred.uid = tcred.uid ∧
    cred.gid = tcred.egid ∧ cred.gid = tcred.sgid ∧ cred.gid = tcred.gid

def LSM_PRLIMIT_READ : UInt32 := 1
def LSM_PRLIMIT_WRITE : UInt32 := 2

/-- What a limit syscall is told by the rest of the kernel. The two copies to user memory are of
one structure, or of its two words one by one. -/
structure LimitAnswers (Signal : Type*) extends PrlimitAnswers where
  /-- `ns_capable(tcred->user_ns, CAP_SYS_RESOURCE)`. -/
  nsCapable : Bool
  securityTaskPrlimit : UInt32 → Int32
  findTaskByVpid : Option (Process Signal)
  copyToUser : UInt64
  putCur : Bool
  putMax : Bool

/-- `check_prlimit_permission`. -/
def checkPrlimitPermission (current task : Process Signal) (flags : UInt32)
    (a : LimitAnswers Signal) : Int :=
  if current.addr = task.addr then 0
  else if idMatch current.cred task.cred = false ∧ a.nsCapable = false then -EPERM
  else (a.securityTaskPrlimit flags).toInt

/-! ### Conversions -/

/-- `rlim64_is_infinity` for a 64-bit `long`. -/
def rlim64IsInfinity (rlim64 : UInt64) : Bool := rlim64 = RLIM64_INFINITY

def rlimToRlim64 (rlim : Rlimit) : Rlimit64 where
  rlimCur := if rlim.rlimCur = RLIM_INFINITY then RLIM64_INFINITY else rlim.rlimCur
  rlimMax := if rlim.rlimMax = RLIM_INFINITY then RLIM64_INFINITY else rlim.rlimMax

def rlim64ToRlim (rlim64 : Rlimit64) : Rlimit where
  rlimCur := if rlim64IsInfinity rlim64.rlimCur then RLIM_INFINITY else rlim64.rlimCur
  rlimMax := if rlim64IsInfinity rlim64.rlimMax then RLIM_INFINITY else rlim64.rlimMax

/-- A word of a 32-bit program, as `setrlimit` widens it. -/
def fromCompat (r32 : UInt32) : UInt64 :=
  if r32 = COMPAT_RLIM_INFINITY then RLIM_INFINITY else r32.toUInt64

/-- A word for a 32-bit program, as `getrlimit` narrows it. -/
def toCompat (r : UInt64) : UInt32 :=
  if r > COMPAT_RLIM_INFINITY.toUInt64 then COMPAT_RLIM_INFINITY else r.toUInt32

/-- A word for an old program, as `old_getrlimit` caps it. -/
def toOld (r : UInt64) : UInt64 := if r > 0x7FFFFFFF then 0x7FFFFFFF else r

/-! ### The syscalls -/

/-- What a limit syscall writes to the memory of its caller. -/
inductive Copied where
  | nothing
  | rlimit (r : Rlimit)
  | rlimit64 (r : Rlimit64)
  /-- The two words, each if it could be written. -/
  | compat (rlimCur rlimMax : Option UInt32)
  deriving DecidableEq, Repr

/-- An argument that is `NULL`, or points to memory that cannot be read, or to a value. -/
inductive FromUser (α : Type*) where
  | null
  | fault
  | value (a : α)

inductive LimitCall where
  | getrlimit (resource : UInt32)
  | setrlimit (resource : UInt32) (rlim : Option Rlimit)
  | compatGetrlimit (resource : UInt32)
  | compatSetrlimit (resource : UInt32) (rlim : Option CompatRlimit)
  | oldGetrlimit (resource : UInt32)
  | compatOldGetrlimit (resource : UInt32)
  | prlimit64 (pid : PidT) (resource : UInt32) (newRlim : FromUser Rlimit64) (oldRlim : Bool)

/-- A limit syscall, the process that calls it, and the answers it gets. -/
structure LimitInvocation (Signal : Type*) where
  call : LimitCall
  current : Process Signal
  answers : LimitAnswers Signal

/-- The result of a limit syscall. -/
structure LimitRet where
  code : Int
  copied : Copied
  deriving DecidableEq, Repr

variable [DecidableEq Signal]

/-- `do_prlimit` on the limits of a process among those of all. -/
def doPrlimitOn (s : Limits Signal) (task : Process Signal) (resource : UInt32)
    (newRlim : Option Rlimit) (wantsOld : Bool) (a : PrlimitAnswers) :
    Prlimited × Limits Signal :=
  let r := doPrlimit (s task.signal) resource newRlim wantsOld a
  (r, Function.update s task.signal r.rlim)

/-- `copy_to_user` of a structure of one of the calls below: all or a fault. -/
def copyStruct (copied : Copied) (rest : UInt64) : LimitRet :=
  if rest ≠ 0 then ⟨-EFAULT, .nothing⟩ else ⟨0, copied⟩

/-- How a call that reads a limit ends: if `do_prlimit` returned 0 and gave the old limit, that is
copied out, in the form `copied`. -/
def report (copied : Rlimit → Copied) (r : Prlimited × Limits Signal) (rest : UInt64) :
    LimitRet × Limits Signal :=
  (match r.1.oldRlim with
    | some old => copyStruct (copied old) rest
    | none     => ⟨r.1.retval, .nothing⟩, r.2)

/-- `getrlimit`, with the form of the structure it copies out: the variant for 32-bit programs
narrows it. -/
def getrlimitWith (copied : Rlimit → Copied) (s : Limits Signal) (resource : UInt32)
    (current : Process Signal) (a : LimitAnswers Signal) : LimitRet × Limits Signal :=
  report copied (doPrlimitOn s current resource none true a.toPrlimitAnswers) a.copyToUser

/-- `getrlimit`. -/
def getrlimit (s : Limits Signal) (resource : UInt32) (current : Process Signal)
    (a : LimitAnswers Signal) : LimitRet × Limits Signal :=
  getrlimitWith .rlimit s resource current a

/-- `getrlimit` of a 32-bit program. -/
def compatGetrlimit (s : Limits Signal) (resource : UInt32) (current : Process Signal)
    (a : LimitAnswers Signal) : LimitRet × Limits Signal :=
  getrlimitWith (fun r => .compat (some (toCompat r.rlimCur)) (some (toCompat r.rlimMax))) s
    resource current a

/-- `setrlimit`; `none` is a structure that cannot be read. -/
def setrlimit (s : Limits Signal) (resource : UInt32) (rlim : Option Rlimit)
    (current : Process Signal) (a : LimitAnswers Signal) : LimitRet × Limits Signal :=
  match rlim with
  | none     => (⟨-EFAULT, .nothing⟩, s)
  | some new =>
    let r := doPrlimitOn s current resource (some new) false a.toPrlimitAnswers
    (⟨r.1.retval, .nothing⟩, r.2)

/-- `setrlimit` of a 32-bit program. -/
def compatSetrlimit (s : Limits Signal) (resource : UInt32) (rlim : Option CompatRlimit)
    (current : Process Signal) (a : LimitAnswers Signal) : LimitRet × Limits Signal :=
  setrlimit s resource (rlim.map fun r32 => ⟨fromCompat r32.rlimCur, fromCompat r32.rlimMax⟩)
    current a

/-- `old_getrlimit`. It does not go through `do_prlimit`. -/
def oldGetrlimit (s : Limits Signal) (resource : UInt32) (current : Process Signal)
    (a : LimitAnswers Signal) : LimitRet × Limits Signal :=
  if resource ≥ RLIM_NLIMITS then (⟨-EINVAL, .nothing⟩, s)
  else
    let x := s current.signal (arrayIndexNospec resource)
    (copyStruct (.rlimit ⟨toOld x.rlimCur, toOld x.rlimMax⟩) a.copyToUser, s)

/-- `old_getrlimit` of a 32-bit program, with one `put_user` for each word. -/
def compatOldGetrlimit (s : Limits Signal) (resource : UInt32) (current : Process Signal)
    (a : LimitAnswers Signal) : LimitRet × Limits Signal :=
  if resource ≥ RLIM_NLIMITS then (⟨-EINVAL, .nothing⟩, s)
  else
    let r := s current.signal (arrayIndexNospec resource)
    let cur := (toOld r.rlimCur).toUInt32
    let max := (toOld r.rlimMax).toUInt32
    if a.putCur = false then (⟨-EFAULT, .nothing⟩, s)
    else if a.putMax = false then (⟨-EFAULT, .compat (some cur) none⟩, s)
    else (⟨0, .compat (some cur) (some max)⟩, s)

/-- `prlimit64`. -/
def prlimit64 (s : Limits Signal) (pid : PidT) (resource : UInt32) (newRlim : FromUser Rlimit64)
    (oldRlim : Bool) (current : Process Signal) (a : LimitAnswers Signal) :
    LimitRet × Limits Signal :=
  let readFlag := if oldRlim then LSM_PRLIMIT_READ else 0
  match newRlim with
  | .fault => (⟨-EFAULT, .nothing⟩, s)
  | .null => go readFlag none
  | .value new64 => go (readFlag ||| LSM_PRLIMIT_WRITE) (some (rlim64ToRlim new64))
where
  /-- What follows once `new_rlim` is read. -/
  go (checkflags : UInt32) (new : Option Rlimit) : LimitRet × Limits Signal :=
    match (if pid ≠ 0 then a.findTaskByVpid else some current) with
    | none     => (⟨-ESRCH, .nothing⟩, s)
    | some tsk =>
      let ret := checkPrlimitPermission current tsk checkflags a
      if ret ≠ 0 then (⟨ret, .nothing⟩, s)
      else
        -- the limit is set by the time the old one is copied out
        report (fun old => .rlimit64 (rlimToRlim64 old))
          (doPrlimitOn s tsk resource new oldRlim a.toPrlimitAnswers) a.copyToUser

/-- One limit syscall. -/
def limitCall (s : Limits Signal) (i : LimitInvocation Signal) : LimitRet × Limits Signal :=
  match i.call with
  | .getrlimit resource => getrlimit s resource i.current i.answers
  | .setrlimit resource rlim => setrlimit s resource rlim i.current i.answers
  | .compatGetrlimit resource => compatGetrlimit s resource i.current i.answers
  | .compatSetrlimit resource rlim => compatSetrlimit s resource rlim i.current i.answers
  | .oldGetrlimit resource => oldGetrlimit s resource i.current i.answers
  | .compatOldGetrlimit resource => compatOldGetrlimit s resource i.current i.answers
  | .prlimit64 pid resource newRlim oldRlim =>
    prlimit64 s pid resource newRlim oldRlim i.current i.answers

/-! ### What a limit syscall can do -/

/-- A limit that `do_prlimit` sets in place of `rlim`. -/
structure MaySet (rlim new : Rlimit) (capable : Bool) : Prop where
  le : new.rlimCur ≤ new.rlimMax
  hard : new.rlimMax ≤ rlim.rlimMax ∨ capable = true

/-- The caller may ask for the limits of the process. -/
def Permitted (current task : Process Signal) (a : LimitAnswers Signal) : Prop :=
  current.addr = task.addr ∨ idMatch current.cred task.cred = true ∨ a.nsCapable = true

/-- One limit of one process is set. -/
def Limits.set (s : Limits Signal) (g : Signal) (i : Resource) (new : Rlimit) : Limits Signal :=
  Function.update s g (Function.update (s g) i new)

lemma Limits.set_apply (s : Limits Signal) (g g' : Signal) (i i' : Resource) (new : Rlimit) :
    s.set g i new g' i' = if g' = g ∧ i' = i then new else s g' i' := by
  by_cases hg : g' = g
  · subst hg
    by_cases hi : i' = i
    · subst hi
      simp [Limits.set]
    · simp [Limits.set, hi]
  · simp [Limits.set, hg]

omit [DecidableEq Signal] in
lemma permitted_of_check {current task : Process Signal} {flags : UInt32}
    {a : LimitAnswers Signal} (h : checkPrlimitPermission current task flags a = 0) :
    Permitted current task a := by
  unfold checkPrlimitPermission at h
  split_ifs at h with haddr hid
  · exact Or.inl haddr
  · cases h
  · rw [not_and_or, Bool.not_eq_false, Bool.not_eq_false] at hid
    exact Or.inr hid

lemma mayRaise_eq_zero_iff {rlimMax : UInt64} {new : Rlimit} {a : PrlimitAnswers} :
    mayRaise rlimMax new a = 0 ↔
      (new.rlimMax ≤ rlimMax ∨ a.capable = true) ∧ a.securityTaskSetrlimit = 0 := by
  unfold mayRaise
  split_ifs with h
  · refine iff_of_false (by decide) ?_
    rintro ⟨hle | hcap, _⟩
    · exact UInt64.not_le.mpr h.1 hle
    · rw [h.2] at hcap
      cases hcap
  · rw [not_and_or, gt_iff_lt, UInt64.not_lt, Bool.not_eq_false] at h
    rw [and_iff_right h]
    exact Int32.toInt_inj (y := 0)

/-- When `do_prlimit` sets a limit. -/
lemma doPrlimit_set_iff {rlim : Resource → Rlimit} {resource : UInt32} {new : Rlimit}
    {wantsOld : Bool} {a : PrlimitAnswers} :
    (doPrlimit rlim resource (some new) wantsOld a).retval = 0 ↔
      resource < RLIM_NLIMITS ∧ MaySet (rlim (arrayIndexNospec resource)) new a.capable ∧
        ¬ (resource = RLIMIT_NOFILE ∧ new.rlimMax > a.sysctlNrOpen.toUInt64) ∧
        a.securityTaskSetrlimit = 0 := by
  unfold doPrlimit
  split_ifs with hres
  · exact iff_of_false (by decide : (-EINVAL : Int) ≠ 0) fun h => UInt32.not_lt.mpr hres h.1
  · dsimp only
    split_ifs with hle hfiles hretval
    · exact iff_of_false (by decide : (-EINVAL : Int) ≠ 0) fun h => UInt64.not_lt.mpr h.2.1.le hle
    · exact iff_of_false (by decide : (-EPERM : Int) ≠ 0) fun h => h.2.2.1 hfiles
    · refine iff_of_false hretval fun h => hretval ?_
      exact mayRaise_eq_zero_iff.mpr ⟨h.2.1.hard, h.2.2.2⟩
    · rw [not_not, mayRaise_eq_zero_iff] at hretval
      exact iff_of_true rfl ⟨UInt32.not_le.mp hres, ⟨UInt64.not_lt.mp hle, hretval.1⟩, hfiles,
        hretval.2⟩

/-- How `do_prlimit` can end. -/
inductive PrlimitExit (rlim : Resource → Rlimit) (resource : UInt32) (wantsOld : Bool)
    (a : PrlimitAnswers) : Option Rlimit → Prlimited → Prop
  | range {new} (h : RLIM_NLIMITS ≤ resource) :
      PrlimitExit rlim resource wantsOld a new (.refuse (-EINVAL) rlim)
  | read (h : resource < RLIM_NLIMITS) : PrlimitExit rlim resource wantsOld a none
      ⟨0, rlim, reported wantsOld (rlim (arrayIndexNospec resource)), none⟩
  | refused {new retval} (h : retval ≠ 0) :
      PrlimitExit rlim resource wantsOld a (some new) (.refuse retval rlim)
  | set {new} (h : resource < RLIM_NLIMITS)
      (hmay : MaySet (rlim (arrayIndexNospec resource)) new a.capable) :
      PrlimitExit rlim resource wantsOld a (some new)
        ⟨0, Function.update rlim (arrayIndexNospec resource) new,
          reported wantsOld (rlim (arrayIndexNospec resource)), armed resource new⟩

lemma exit_doPrlimit (rlim : Resource → Rlimit) (resource : UInt32) (newRlim : Option Rlimit)
    (wantsOld : Bool) (a : PrlimitAnswers) :
    PrlimitExit rlim resource wantsOld a newRlim
      (doPrlimit rlim resource newRlim wantsOld a) := by
  unfold doPrlimit
  split_ifs with hres
  · exact .range hres
  · have hlt : resource < RLIM_NLIMITS := UInt32.not_le.mp hres
    cases newRlim with
    | none => exact .read hlt
    | some new =>
      dsimp only
      split_ifs with hle hopen hretval
      · exact .refused (by decide)
      · exact .refused (by decide)
      · exact .refused hretval
      · rw [not_not, mayRaise_eq_zero_iff] at hretval
        exact .set hlt ⟨UInt64.not_lt.mp hle, hretval.1⟩

/-- What a limit syscall of `current` can do to the limits: nothing, or set one limit of a process
the caller may ask for. -/
inductive LimitStep (current : Process Signal) (a : LimitAnswers Signal) (s : Limits Signal) :
    Limits Signal → Prop
  | same : LimitStep current a s s
  | set {task : Process Signal} {i : Resource} {new : Rlimit} (hperm : Permitted current task a)
      (hmay : MaySet (s task.signal i) new a.capable) :
      LimitStep current a s (s.set task.signal i new)

section LimitStep

variable {s : Limits Signal} {current : Process Signal} {a : LimitAnswers Signal}

lemma doPrlimitOn_step {task : Process Signal} (hperm : Permitted current task a)
    (resource : UInt32) (newRlim : Option Rlimit) (wantsOld : Bool) :
    LimitStep current a s
      (doPrlimitOn s task resource newRlim wantsOld a.toPrlimitAnswers).2 := by
  unfold doPrlimitOn
  have hsame : LimitStep current a s (Function.update s task.signal (s task.signal)) := by
    rw [Function.update_eq_self]
    exact .same
  have hexit := exit_doPrlimit (s task.signal) resource newRlim wantsOld a.toPrlimitAnswers
  generalize doPrlimit (s task.signal) resource newRlim wantsOld a.toPrlimitAnswers = r
    at hexit ⊢
  cases hexit with
  | range h => exact hsame
  | read h => exact hsame
  | refused h => exact hsame
  | set h hmay => exact .set hperm hmay

lemma setrlimit_step (resource : UInt32) (rlim : Option Rlimit) :
    LimitStep current a s (setrlimit s resource rlim current a).2 := by
  cases rlim with
  | none => exact .same
  | some new => exact doPrlimitOn_step (Or.inl rfl) resource (some new) false

lemma getrlimitWith_step (copied : Rlimit → Copied) (resource : UInt32) :
    LimitStep current a s (getrlimitWith copied s resource current a).2 :=
  doPrlimitOn_step (Or.inl rfl) resource none true

lemma prlimit64_step (pid : PidT) (resource : UInt32) (newRlim : FromUser Rlimit64)
    (oldRlim : Bool) :
    LimitStep current a s (prlimit64 s pid resource newRlim oldRlim current a).2 := by
  have hgo : ∀ flags new,
      LimitStep current a s (prlimit64.go s pid resource oldRlim current a flags new).2 := by
    intro flags new
    unfold prlimit64.go
    cases (if pid ≠ 0 then a.findTaskByVpid else some current) with
    | none => exact .same
    | some tsk =>
      dsimp only
      split_ifs with hret
      · exact .same
      · exact doPrlimitOn_step (permitted_of_check (not_not.mp hret)) resource new oldRlim
  cases newRlim with
  | null => exact hgo _ _
  | fault => exact .same
  | value new64 => exact hgo _ _

end LimitStep

theorem limitCall_step (s : Limits Signal) (i : LimitInvocation Signal) :
    LimitStep i.current i.answers s (limitCall s i).2 := by
  obtain ⟨c, current, a⟩ := i
  cases c with
  | getrlimit resource => exact getrlimitWith_step _ resource
  | compatGetrlimit resource => exact getrlimitWith_step _ resource
  | setrlimit resource rlim => exact setrlimit_step resource rlim
  | compatSetrlimit resource rlim => exact setrlimit_step resource _
  | oldGetrlimit resource =>
    simp only [limitCall, oldGetrlimit]
    split_ifs <;> exact .same
  | compatOldGetrlimit resource =>
    simp only [limitCall, compatOldGetrlimit]
    split_ifs <;> exact .same
  | prlimit64 pid resource newRlim oldRlim => exact prlimit64_step pid resource newRlim oldRlim

end Taro.Sys
