import TaroKernel.Sys.Limits

/-!
# What the return values tell about the limits

Every call that can change a limit asks for one value of one limit of one process. The limits at the
end of a run are those at its start with the requests of the calls that returned 0 carried out in
their order. There is one exception: a `prlimit64` that also wants to know the old limit sets the
new one before it copies the old one out, and reports a fault if that fails.
-/

namespace Taro.Sys

open Machine

variable {Signal : Type*} [DecidableEq Signal]

/-! ### Requests -/

/-- A limit of a process and the value it is to get. -/
structure Request (Signal : Type*) where
  signal : Signal
  resource : Resource
  rlim : Rlimit

/-- The process a `prlimit64` is about. -/
def LimitInvocation.target (i : LimitInvocation Signal) (pid : PidT) : Option (Process Signal) :=
  if pid ≠ 0 then i.answers.findTaskByVpid else some i.current

/-- What a limit syscall asks for. -/
def LimitInvocation.request (i : LimitInvocation Signal) : Option (Request Signal) :=
  match i.call with
  | .setrlimit resource rlim =>
    rlim.map fun new => ⟨i.current.signal, arrayIndexNospec resource, new⟩
  | .compatSetrlimit resource rlim =>
    rlim.map fun r32 => ⟨i.current.signal, arrayIndexNospec resource,
      ⟨fromCompat r32.rlimCur, fromCompat r32.rlimMax⟩⟩
  | .prlimit64 pid resource (.value new64) _ =>
    (i.target pid).map fun tsk => ⟨tsk.signal, arrayIndexNospec resource, rlim64ToRlim new64⟩
  | _ => none

/-- What a registry call asks for. -/
def registryRequest (i : Invocation Signal) : Option (Request Signal) :=
  match i.call with
  | .add _ L | .update _ L =>
    i.outcomes.findTaskByVpid.map fun task => ⟨task.signal, addressSpace, rlimitOf L⟩
  | _ => none

def SystemCall.request : SystemCall Signal → Option (Request Signal)
  | .registry i => registryRequest i
  | .limit i    => i.request

/-- The limits once a request is carried out. -/
def Limits.carryOut (s : Limits Signal) : Option (Request Signal) → Limits Signal
  | none   => s
  | some q => s.set q.signal q.resource q.rlim

/-- The exception: both pointers are given, and the old limit cannot be copied out. -/
def LosesReport (c : SystemCall Signal) : Prop :=
  ∃ i pid resource new64, c = .limit i ∧ i.call = .prlimit64 pid resource (.value new64) true ∧
    i.answers.copyToUser ≠ 0

/-! ### One call -/

section Step

variable {s : Limits Signal} {a : LimitAnswers Signal}

/-- `do_prlimit` does what it is asked if it returns 0, and nothing if not. -/
lemma doPrlimitOn_eq (s : Limits Signal) (task : Process Signal) (resource : UInt32)
    (newRlim : Option Rlimit) (wantsOld : Bool) (a : PrlimitAnswers) :
    (doPrlimitOn s task resource newRlim wantsOld a).2 =
        s.carryOut (if (doPrlimitOn s task resource newRlim wantsOld a).1.retval = 0 then
          newRlim.map fun new => ⟨task.signal, arrayIndexNospec resource, new⟩ else none) ∧
      ((doPrlimitOn s task resource newRlim wantsOld a).1.oldRlim.isSome ↔
        (doPrlimitOn s task resource newRlim wantsOld a).1.retval = 0 ∧ wantsOld = true) := by
  unfold doPrlimitOn
  have hexit := exit_doPrlimit (s task.signal) resource newRlim wantsOld a
  generalize doPrlimit (s task.signal) resource newRlim wantsOld a = r at hexit ⊢
  cases hexit with
  | range h => exact ⟨Function.update_eq_self .., by simp [Prlimited.refuse, EINVAL]⟩
  | read h => exact ⟨Function.update_eq_self .., by simp [reported]⟩
  | refused h =>
    simp [Prlimited.refuse, h, Limits.carryOut]
  | set h hmay => exact ⟨rfl, by simp [reported]⟩

/-- The ways of reading limits change none. -/
lemma getrlimitWith_limits (copied : Rlimit → Copied) (resource : UInt32)
    (current : Process Signal) : (getrlimitWith copied s resource current a).2 = s := by
  have h := (doPrlimitOn_eq s current resource none true a.toPrlimitAnswers).1
  rwa [Option.map_none, ite_self] at h

lemma setrlimit_eq (resource : UInt32) (rlim : Option Rlimit) (current : Process Signal) :
    (setrlimit s resource rlim current a).2 =
      s.carryOut (if (setrlimit s resource rlim current a).1.code = 0 then
        rlim.map fun new => ⟨current.signal, arrayIndexNospec resource, new⟩ else none) := by
  cases rlim with
  | none => simp [setrlimit, Limits.carryOut]
  | some new => exact (doPrlimitOn_eq s current resource (some new) false _).1

lemma prlimit64_go_eq (pid : PidT) (resource : UInt32) (oldRlim : Bool) (current : Process Signal)
    (flags : UInt32) (new : Option Rlimit)
    (hreport : new = none ∨ oldRlim = false ∨ a.copyToUser = 0) :
    (prlimit64.go s pid resource oldRlim current a flags new).2 =
      s.carryOut (if (prlimit64.go s pid resource oldRlim current a flags new).1.code = 0 then
        (if pid ≠ 0 then a.findTaskByVpid else some current).bind fun tsk =>
          new.map fun new => ⟨tsk.signal, arrayIndexNospec resource, new⟩ else none) := by
  unfold prlimit64.go
  cases (if pid ≠ 0 then a.findTaskByVpid else some current) with
  | none => simp [Limits.carryOut]
  | some tsk =>
    by_cases hret : checkPrlimitPermission current tsk flags a ≠ 0
    · simp only [if_pos hret]
      rw [if_neg hret]
      rfl
    · simp only [if_neg hret, Option.bind_some]
      obtain ⟨heff, hold⟩ := doPrlimitOn_eq s tsk resource new oldRlim a.toPrlimitAnswers
      generalize doPrlimitOn s tsk resource new oldRlim a.toPrlimitAnswers = r at heff hold ⊢
      -- an old limit is there only if the call has succeeded so far
      cases ho : r.1.oldRlim with
      | none => simpa only [report, ho] using heff
      | some old =>
        obtain ⟨hretval, hwants⟩ := hold.mp (by rw [ho]; rfl)
        rw [if_pos hretval] at heff
        rcases hreport with rfl | hnull | hcopy
        · rw [Option.map_none, ite_self]
          exact heff
        · rw [hwants] at hnull
          cases hnull
        · simp only [report, ho, copyStruct, if_neg (not_not.mpr hcopy)]
          exact heff

/-- A limit syscall that can report what it did does what it is asked if it returns 0, and nothing
if not. -/
lemma limitCall_eq (s : Limits Signal) (i : LimitInvocation Signal)
    (hreport : ¬ LosesReport (.limit i)) :
    (limitCall s i).2 = s.carryOut (if (limitCall s i).1.code = 0 then i.request else none) := by
  obtain ⟨c, current, a⟩ := i
  -- the calls that read ask for nothing
  cases c with
  | getrlimit resource =>
    rw [LimitInvocation.request, ite_self]
    exact getrlimitWith_limits _ resource current
  | compatGetrlimit resource =>
    rw [LimitInvocation.request, ite_self]
    exact getrlimitWith_limits _ resource current
  | setrlimit resource rlim => exact setrlimit_eq resource rlim current
  | compatSetrlimit resource rlim =>
    refine (setrlimit_eq resource _ current).trans ?_
    rw [Option.map_map]
    rfl
  | oldGetrlimit resource =>
    rw [LimitInvocation.request, ite_self]
    simp only [limitCall, oldGetrlimit]
    split_ifs <;> rfl
  | compatOldGetrlimit resource =>
    rw [LimitInvocation.request, ite_self]
    simp only [limitCall, compatOldGetrlimit]
    split_ifs <;> rfl
  | prlimit64 pid resource newRlim oldRlim =>
    cases newRlim with
    | fault => simp [limitCall, prlimit64, LimitInvocation.request, Limits.carryOut]
    | null =>
      refine (prlimit64_go_eq pid resource oldRlim current _ none (Or.inl rfl)).trans ?_
      simp [LimitInvocation.request]
    | value new64 =>
      refine (prlimit64_go_eq pid resource oldRlim current _ _ (Or.inr ?_)).trans ?_
      · by_contra hlost
        rw [not_or, Bool.not_eq_false] at hlost
        obtain ⟨rfl, hcopy⟩ := hlost
        exact hreport ⟨_, pid, resource, new64, rfl, rfl, hcopy⟩
      · cases hn : (if pid ≠ 0 then a.findTaskByVpid else some current) with
        | none => simp [LimitInvocation.request, LimitInvocation.target, hn, limitCall, prlimit64]
        | some tsk =>
          simp [LimitInvocation.request, LimitInvocation.target, hn, limitCall, prlimit64]

end Step

lemma exit_limits {s : System Signal} {o : Outcomes Signal} {c : Call} {r : Ret}
    {s' : Kernel Signal} (h : Exit s.kernel o c r s') :
    (fun g => Function.update (s.limits g) addressSpace (s'.rlimitAs g)) =
      s.limits.carryOut (if r.code = 0 then registryRequest ⟨c, o⟩ else none) := by
  have hself : ∀ l, (fun g => Function.update (s.limits g) addressSpace
      ((⟨l, s.kernel.rlimitAs⟩ : Kernel Signal).rlimitAs g)) = s.limits :=
    fun _ => update_addressSpace_self s.limits
  cases h with
  | addRefused h =>
    rw [if_neg (Int.ne_of_lt (beforeMutex_error_neg h))]
    exact hself _
  | addOk h hp hk hlsm =>
    rw [if_pos rfl, registryRequest, (beforeMutex_eq_ok_iff.mp h).2.2]
    exact update_addressSpace_update s.limits _ _
  | updateRefused h =>
    rw [if_neg (Int.ne_of_lt (beforeMutex_error_neg h))]
    exact hself _
  | updateOk h ht hx hlsm =>
    rw [if_pos rfl, registryRequest, (beforeMutex_eq_ok_iff.mp h).2.2]
    exact update_addressSpace_update s.limits _ _
  | get => rw [registryRequest, ite_self]; exact hself _
  | removeOk h ht => exact hself _
  | _ => exact hself _

lemma next_limits_eq (s : System Signal) (c : SystemCall Signal) (hreport : ¬ LosesReport c) :
    (s.next c).2.limits =
      s.limits.carryOut (if (s.next c).1.code = 0 then c.request else none) := by
  cases c with
  | registry i => exact exit_limits (exit_syscall s.kernel i)
  | limit i => exact limitCall_eq s.limits i hreport

/-! ### Runs -/

/-- The requests of the calls that returned 0, carried out in their order. -/
def Limits.replay (s : Limits Signal)
    (sts : List (Step (System Signal) (SystemCall Signal) SystemRet)) : Limits Signal :=
  sts.foldl (fun l st => l.carryOut (if st.output.code = 0 then st.input.request else none)) s

/-- In every run in which all calls can report what they did, the limits at the end are those at the
start with the requests that returned 0 carried out. -/
theorem limits_eq_replay (s₀ : System Signal) (cs : List (SystemCall Signal))
    (hreport : ∀ c ∈ cs, ¬ LosesReport c) :
    (final System.next s₀ cs).limits = s₀.limits.replay (steps System.next s₀ cs) := by
  induction cs generalizing s₀ with
  | nil => rfl
  | cons c cs ih =>
    obtain ⟨hc, hcs⟩ := List.forall_mem_cons.mp hreport
    rw [final_cons, ih _ hcs, next_limits_eq s₀ c hc]
    rfl

/-- A process without privileges, and the answers it gets when `rest` bytes of its copies are left
out and nothing else goes wrong. -/
def plainProcess : Process Unit := ⟨⟨1, ()⟩, ⟨0, 0, 0, 0, 0, 0, 0, 0⟩⟩

def plainAnswers (rest : UInt64) : LimitAnswers Unit :=
  ⟨⟨false, 100, 0⟩, false, fun _ => 0, none, rest, true, true⟩

/-- The registry sets a limit, and the process lowers it. -/
def setThenLower : List (SystemCall Unit) :=
  [addSeven 65536, .limit ⟨.setrlimit RLIMIT_AS (some ⟨1, 2⟩), plainProcess, plainAnswers 0⟩]

theorem setThenLower_replayed :
    (final System.next smallLimits setThenLower).limits () addressSpace = ⟨1, 2⟩ ∧
      (final System.next smallLimits setThenLower).limits =
        smallLimits.limits.replay (steps System.next smallLimits setThenLower) := by
  refine ⟨by decide, limits_eq_replay smallLimits setThenLower ?_⟩
  simp only [setThenLower, addSeven, List.forall_mem_cons]
  refine ⟨?_, ?_, by simp⟩
  · rintro ⟨i, pid, resource, new64, h, _⟩
    cases h
  · rintro ⟨i, pid, resource, new64, h, hcall, _⟩
    cases h
    cases hcall

/-- A `prlimit64` that returns 0 when the old limit can be copied out returns `-EFAULT` when it
cannot, and has done the same to the limits. -/
theorem prlimit64_fault_sets (s : Limits Signal) (pid : PidT) (resource : UInt32)
    (new64 : Rlimit64) (current : Process Signal) (a : LimitAnswers Signal) (rest : UInt64)
    (hrest : rest ≠ 0)
    (hok : (prlimit64 s pid resource (.value new64) true current { a with copyToUser := 0 }).1.code
      = 0) :
    ∃ tsk, LimitInvocation.target ⟨.prlimit64 pid resource (.value new64) true, current, a⟩ pid =
        some tsk ∧
      prlimit64 s pid resource (.value new64) true current { a with copyToUser := rest } =
        (⟨-EFAULT, .nothing⟩,
          s.set tsk.signal (arrayIndexNospec resource) (rlim64ToRlim new64)) := by
  simp only [LimitInvocation.target]
  cases hn : (if pid ≠ 0 then a.findTaskByVpid else some current) with
  | none =>
    simp only [prlimit64, prlimit64.go, hn] at hok
    cases hok
  | some tsk =>
    refine ⟨tsk, rfl, ?_⟩
    let ret := checkPrlimitPermission current tsk (LSM_PRLIMIT_READ ||| LSM_PRLIMIT_WRITE) a
    obtain ⟨heff, hold⟩ :=
      doPrlimitOn_eq s tsk resource (some (rlim64ToRlim new64)) true a.toPrlimitAnswers
    -- neither the permission nor the limits depend on the copy
    have hcall : ∀ x, prlimit64 s pid resource (.value new64) true current
        { a with copyToUser := x } =
        if ret ≠ 0 then (⟨ret, .nothing⟩, s)
        else report (fun old => .rlimit64 (rlimToRlim64 old)) (doPrlimitOn s tsk resource
          (some (rlim64ToRlim new64)) true a.toPrlimitAnswers) x := by
      intro x
      simp only [prlimit64, prlimit64.go, hn]
      rfl
    rw [hcall] at hok ⊢
    generalize doPrlimitOn s tsk resource (some (rlim64ToRlim new64)) true a.toPrlimitAnswers = r
      at heff hold hok ⊢
    by_cases hret : ret ≠ 0
    · rw [if_pos hret] at hok
      exact absurd hok hret
    · rw [if_neg hret] at hok ⊢
      cases ho : r.1.oldRlim with
      | none =>
        simp only [report, ho] at hok
        rw [ho] at hold
        exact absurd (hold.mpr ⟨hok, rfl⟩) (by simp)
      | some old =>
        rw [ho] at hold
        rw [if_pos (hold.mp rfl).1] at heff
        simp only [report, ho, copyStruct, if_pos hrest, heff]
        rfl

/-- The limit on open files is zero although the call failed. -/
theorem prlimit64_fault_sets_zero :
    ∃ tsk, LimitInvocation.target ⟨.prlimit64 0 RLIMIT_NOFILE (.value ⟨0, 0⟩) true, plainProcess,
        plainAnswers 0⟩ 0 = some tsk ∧
      prlimit64 smallLimits.limits 0 RLIMIT_NOFILE (.value ⟨0, 0⟩) true plainProcess
          (plainAnswers 16) =
        (⟨-EFAULT, .nothing⟩, smallLimits.limits.set tsk.signal 7 ⟨0, 0⟩) :=
  prlimit64_fault_sets smallLimits.limits 0 RLIMIT_NOFILE ⟨0, 0⟩ plainProcess (plainAnswers 0) 16
    (by decide) (by decide)

end Taro.Sys
