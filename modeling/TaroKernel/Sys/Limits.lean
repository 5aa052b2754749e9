import TaroKernel.Lib.Machine
import TaroKernel.Registry.Effects
import TaroKernel.Registry.Invariant
import TaroKernel.Sys.Prlimit

/-!
# The registry beside the regular limits

A granted add or update of the registry writes `rlim[RLIMIT_AS]` directly, where `do_prlimit` checks
whether the caller may raise the hard limit. Runs in which both kinds of calls mix keep every soft
limit below the hard one, since the registry makes the two equal. But the hard limit of the address
space is none: any caller can raise it through the registry.
-/

namespace Taro.Sys

open Machine

variable {Signal : Type*} [DecidableEq Signal]

/-! ### The system -/

/-- `rlim[RLIMIT_AS]`. -/
def addressSpace : Resource := arrayIndexNospec RLIMIT_AS

/-- The registry, and the limits of every process. -/
structure System (Signal : Type*) where
  memoryLimitList : List MemoryLimitation
  limits : Limits Signal

/-- What the syscalls of the registry see. -/
def System.kernel (s : System Signal) : Kernel Signal :=
  ⟨s.memoryLimitList, fun g => s.limits g addressSpace⟩

inductive SystemCall (Signal : Type*) where
  | registry (i : Invocation Signal)
  | limit (i : LimitInvocation Signal)

inductive SystemRet where
  | registry (r : Ret)
  | limit (r : LimitRet)
  deriving DecidableEq, Repr

def SystemRet.code : SystemRet → Int
  | .registry r => r.code
  | .limit r    => r.code

def System.next (s : System Signal) : SystemCall Signal → SystemRet × System Signal
  | .registry i =>
    let r := Taro.syscall s.kernel i
    (.registry r.1, ⟨r.2.memoryLimitList,
      fun g => Function.update (s.limits g) addressSpace (r.2.rlimitAs g)⟩)
  | .limit i =>
    let r := limitCall s.limits i
    (.limit r.1, { s with limits := r.2 })

/-- An empty registry, and processes with any limits. -/
def System.boot (limits : Limits Signal) : System Signal := ⟨[], limits⟩

/-- What a call can do to the limits. -/
inductive SystemStep (s : Limits Signal) : SystemCall Signal → SystemRet → Limits Signal → Prop
  | same {c r} : SystemStep s c r s
  | registry {i r task L} (htask : i.task = some task) (hcode : r.code = 0) :
      SystemStep s (.registry i) (.registry r) (s.set task.signal addressSpace (rlimitOf L))
  | limit {i r task j new} (hperm : Permitted i.current task i.answers)
      (hmay : MaySet (s task.signal j) new i.answers.capable) :
      SystemStep s (.limit i) (.limit r) (s.set task.signal j new)

omit [DecidableEq Signal] in
lemma update_addressSpace_self (s : Limits Signal) :
    (fun g => Function.update (s g) addressSpace (s g addressSpace)) = s := by
  funext g
  exact Function.update_eq_self ..

lemma update_addressSpace_update (s : Limits Signal) (g : Signal) (new : Rlimit) :
    (fun g' => Function.update (s g') addressSpace
      (Function.update (fun g => s g addressSpace) g new g')) = s.set g addressSpace new := by
  funext g'
  by_cases hg : g' = g
  · subst hg
    simp [Limits.set]
  · simp [Limits.set, hg]

/-- A registry call leaves the limits as they are, or it returns 0 and has set those of the process
it looked up. -/
lemma exit_rlimitAs {s s' : Kernel Signal} {o : Outcomes Signal} {c : Call} {r : Ret}
    (h : Exit s o c r s') :
    s'.rlimitAs = s.rlimitAs ∨ ∃ task L, Invocation.task ⟨c, o⟩ = some task ∧ r.code = 0 ∧
      s'.rlimitAs = Function.update s.rlimitAs task.signal (rlimitOf L) := by
  cases h with
  | addOk h hp hk hlsm =>
    exact Or.inr ⟨_, _, (beforeMutex_eq_ok_iff.mp h).2.2, rfl, rfl⟩
  | updateOk h ht hx hlsm =>
    exact Or.inr ⟨_, _, (beforeMutex_eq_ok_iff.mp h).2.2, rfl, rfl⟩
  | _ => exact Or.inl rfl

lemma system_step (s : System Signal) (c : SystemCall Signal) :
    SystemStep s.limits c (s.next c).1 (s.next c).2.limits := by
  cases c with
  | limit i =>
    have hstep := limitCall_step s.limits i
    simp only [System.next]
    generalize (limitCall s.limits i).2 = s' at hstep ⊢
    cases hstep with
    | same => exact .same
    | set hperm hmay => exact .limit hperm hmay
  | registry i =>
    simp only [System.next]
    rcases exit_rlimitAs (exit_syscall s.kernel i) with h | ⟨task, L, htask, hcode, h⟩
    · rw [h]
      exact (update_addressSpace_self s.limits).symm ▸ .same
    · rw [h]
      exact (update_addressSpace_update s.limits task.signal (rlimitOf L)).symm ▸
        .registry htask hcode

/-! ### Soft limits -/

/-- No soft limit is above the hard one. -/
def Limits.Ordered (s : Limits Signal) : Prop := ∀ g i, (s g i).rlimCur ≤ (s g i).rlimMax

lemma Limits.Ordered.set {s : Limits Signal} (h : s.Ordered) {g : Signal} {i : Resource}
    {new : Rlimit} (hnew : new.rlimCur ≤ new.rlimMax) : (s.set g i new).Ordered := by
  intro g' i'
  rw [Limits.set_apply]
  split_ifs
  · exact hnew
  · exact h g' i'

/-- However limit syscalls and registry calls follow one another, soft limits stay below the hard
ones. -/
theorem soft_limits_le_hard {s₀ s : System Signal} (h₀ : s₀.limits.Ordered)
    (h : Reachable System.next s₀ s) : s.limits.Ordered := by
  refine h.invariant (P := fun s => s.limits.Ordered) h₀ fun s c hs => ?_
  have hstep := system_step s c
  generalize (s.next c).1 = r at hstep
  generalize (s.next c).2.limits = s' at hstep ⊢
  cases hstep with
  | same => exact hs
  | registry htask hcode => exact hs.set (UInt64.le_refl _)
  | limit hperm hmay => exact hs.set hmay.le

/-- One process, with 4096 and 8192 for all its limits. -/
def smallLimits : System Unit := .boot fun _ _ => ⟨4096, 8192⟩

/-- An add of process 7 that is granted. -/
def addSeven (L : SizeT) : SystemCall Unit :=
  .registry ⟨.add 7 L, ⟨⟨false, true, 0, 0, 0⟩, some ⟨⟨1, ()⟩, none⟩⟩⟩

theorem add_keeps_order :
    (final System.next smallLimits [addSeven 65536]).limits () addressSpace = ⟨65536, 65536⟩ ∧
      (final System.next smallLimits [addSeven 65536]).limits.Ordered :=
  ⟨by decide, soft_limits_le_hard (fun _ _ => (by decide : (4096 : UInt64) ≤ 8192)) ⟨_, rfl⟩⟩

/-! ### Hard limits -/

/-- A call that raises the hard limit `i` of `g`. -/
structure Raises (g : Signal) (i : Resource)
    (st : Step (System Signal) (SystemCall Signal) SystemRet) : Prop where
  raised : (st.pre.limits g i).rlimMax < (st.post.limits g i).rlimMax
  /-- The caller of a limit syscall has `CAP_SYS_RESOURCE` and may ask for the process, or it is the
  address space and a registry call was granted. -/
  cause : (∃ j task, st.input = .limit j ∧ task.signal = g ∧
      Permitted j.current task j.answers ∧ j.answers.capable = true) ∨
    (i = addressSpace ∧ st.output.code = 0 ∧
      ∃ j task, st.input = .registry j ∧ j.task = some task ∧ task.signal = g)

lemma raises_of_lt {g : Signal} {i : Resource} {s : System Signal} {c : SystemCall Signal}
    (h : (s.limits g i).rlimMax < ((s.next c).2.limits g i).rlimMax) :
    Raises g i (stepAt System.next s c) := by
  refine ⟨h, ?_⟩
  have hstep := system_step s c
  simp only [stepAt_input, stepAt_output]
  generalize (s.next c).1 = r at hstep ⊢
  generalize (s.next c).2.limits = s' at hstep h
  cases hstep with
  | same => exact absurd h (UInt64.lt_irrefl _)
  | registry htask hcode =>
    rw [Limits.set_apply] at h
    split_ifs at h with hset
    · exact Or.inr ⟨hset.2, hcode, _, _, rfl, htask, hset.1.symm⟩
    · exact absurd h (UInt64.lt_irrefl _)
  | limit hperm hmay =>
    rw [Limits.set_apply] at h
    split_ifs at h with hset
    · obtain ⟨rfl, rfl⟩ := hset
      refine Or.inl ⟨_, _, rfl, rfl, hperm, hmay.hard.resolve_left ?_⟩
      exact UInt64.not_le.mpr h
    · exact absurd h (UInt64.lt_irrefl _)

/-- If a hard limit is higher at the end of a run than at its start, some call of the run raised it:
a limit syscall with `CAP_SYS_RESOURCE`, or, for the address space, a registry call that was
granted. -/
theorem hard_limit_raised {s₀ : System Signal} {cs : List (SystemCall Signal)} {g : Signal}
    {i : Resource}
    (h : (s₀.limits g i).rlimMax < ((final System.next s₀ cs).limits g i).rlimMax) :
    ∃ st ∈ steps System.next s₀ cs, Raises g i st := by
  induction cs generalizing s₀ with
  | nil => exact absurd h (UInt64.lt_irrefl _)
  | cons c cs ih =>
    by_cases hc : (s₀.limits g i).rlimMax < ((s₀.next c).2.limits g i).rlimMax
    · exact ⟨_, List.mem_cons_self, raises_of_lt hc⟩
    · obtain ⟨st, hst, hraises⟩ := ih (UInt64.lt_of_le_of_lt (UInt64.not_lt.mp hc) h)
      exact ⟨st, List.mem_cons_of_mem _ hst, hraises⟩

theorem add_raises :
    ∃ st ∈ steps System.next smallLimits [addSeven 65536], Raises () addressSpace st :=
  hard_limit_raised (by decide)

/-! ### The way around the hard limit -/

@[simp] lemma kernel_next_registry (s : System Signal) (i : Invocation Signal) :
    (s.next (.registry i)).2.kernel = (Taro.syscall s.kernel i).2 := by
  simp [System.next, System.kernel]

lemma wellFormed_kernel {limits : Limits Signal} {s : System Signal}
    (h : Reachable System.next (.boot limits) s) : WellFormed s.kernel := by
  refine h.invariant (P := fun s => WellFormed s.kernel) ?_ fun s c hs => ?_
  · exact wellFormed_boot fun g => limits g addressSpace
  · cases c with
    | registry i =>
      rw [kernel_next_registry]
      exact syscall_wellFormed s.kernel i hs
    | limit i => exact ⟨hs.nodup, hs.nonneg, hs.nonzero⟩

/-- The answers a caller without any privilege gets when nothing goes wrong. -/
def unprivileged (task : TaskStruct Signal) : Outcomes Signal := ⟨⟨false, true, 0, 0, 0⟩, some task⟩

lemma next_remove (s : System Signal) {p : PidT} (hp : 0 < p) (hmem : p ∈ s.kernel.pids)
    (o : Outcomes Signal) :
    (s.next (.registry ⟨.remove p, o⟩)).1.code = 0 ∧
      (s.next (.registry ⟨.remove p, o⟩)).2.kernel.pids = s.kernel.pids.erase p := by
  rw [kernel_next_registry]
  have hexit := exit_syscall s.kernel ⟨.remove p, o⟩
  simp only [System.next, SystemRet.code]
  generalize (Taro.syscall s.kernel ⟨.remove p, o⟩).1 = r at hexit ⊢
  generalize (Taro.syscall s.kernel ⟨.remove p, o⟩).2 = s' at hexit ⊢
  cases hexit with
  | removeInval h => exact absurd h (Int32.not_le.mpr hp)
  | removeMissing h hp => exact absurd hmem hp
  | removeOk h ht => exact ⟨rfl, Keyed.map_key_unlink⟩

lemma next_add (s : System Signal) {p : PidT} (hp : 0 ≤ p) (hmem : p ∉ s.kernel.pids)
    {L : SizeT} (hL : L ≠ 0) (task : TaskStruct Signal) :
    (s.next (.registry ⟨.add p L, unprivileged task⟩)).1.code = 0 ∧
      (s.next (.registry ⟨.add p L, unprivileged task⟩)).2.limits task.signal addressSpace =
        rlimitOf L := by
  have hb : beforeMutex p L (unprivileged task) = .ok task :=
    beforeMutex_eq_ok_iff.mpr ⟨hp, hL, rfl⟩
  have hl := lookup_pid_eq_none_iff.mpr hmem
  have hk : (unprivileged task).kmalloc = true := rfl
  have hlsm : (unprivileged task).securityTaskSetrlimit = 0 := rfl
  simp [System.next, Taro.syscall, Taro.taroAddMemoryLimit, hb, addLocked, hl, hk, hlsm,
    SystemRet.code]

/-- A caller without `CAP_SYS_RESOURCE` cannot raise the hard limit of the address space of a
process with any limit syscall; but with at most two registry calls that name the process, by a
positive pid, and no privilege, it can set it to any value. -/
theorem registry_bypasses_hard_limit {limits : Limits Signal} {s : System Signal}
    (h : Reachable System.next (.boot limits) s) {p : PidT} (hp : 0 < p)
    {task : TaskStruct Signal} {L : SizeT}
    (hL : (s.limits task.signal addressSpace).rlimMax < L) :
    (∀ i : LimitInvocation Signal, i.answers.capable = false →
        ((s.next (.limit i)).2.limits task.signal addressSpace).rlimMax < L) ∧
      ∃ is : List (Invocation Signal), is.length ≤ 2 ∧
        (∀ i ∈ is, i.outcomes = unprivileged task ∧ (i.call = .remove p ∨ i.call = .add p L)) ∧
        (∀ st ∈ steps System.next s (is.map .registry), st.output.code = 0) ∧
        (final System.next s (is.map .registry)).limits task.signal addressSpace =
          rlimitOf L := by
  constructor
  · intro i hi
    by_contra hlt
    have hraises := raises_of_lt (UInt64.lt_of_lt_of_le hL (UInt64.not_lt.mp hlt))
    rcases hraises.cause with ⟨j, _, hj, _, _, hcap⟩ | ⟨_, _, j, _, hj, _⟩
    · cases hj
      rw [hi] at hcap
      cases hcap
    · cases hj
  · have hL0 : L ≠ 0 := by
      rintro rfl
      exact UInt64.not_lt_zero hL
    have hp0 : 0 ≤ p := Int32.le_of_lt hp
    -- an entry of the process has to go first
    by_cases hmem : p ∈ s.kernel.pids
    · obtain ⟨hcode, hpids⟩ := next_remove s hp hmem (unprivileged task)
      have hnew : p ∉ (s.next (.registry ⟨.remove p, unprivileged task⟩)).2.kernel.pids := by
        rw [hpids]
        exact (wellFormed_kernel h).nodup.not_mem_erase
      obtain ⟨hcode', hlim⟩ := next_add _ hp0 hnew hL0 task
      refine ⟨[⟨.remove p, unprivileged task⟩, ⟨.add p L, unprivileged task⟩], by simp, by simp, ?_,
        hlim⟩
      simp [hcode, hcode']
    · obtain ⟨hcode, hlim⟩ := next_add s hp0 hmem hL0 task
      refine ⟨[⟨.add p L, unprivileged task⟩], by simp, by simp, ?_, hlim⟩
      simp [hcode]

theorem registry_sets_65536 :
    (∀ i : LimitInvocation Unit, i.answers.capable = false →
        ((smallLimits.next (.limit i)).2.limits () addressSpace).rlimMax < 65536) ∧
      ∃ is : List (Invocation Unit), is.length ≤ 2 ∧
        (∀ i ∈ is, i.outcomes = unprivileged ⟨⟨1, ()⟩, none⟩ ∧
          (i.call = .remove 7 ∨ i.call = .add 7 65536)) ∧
        (∀ st ∈ steps System.next smallLimits (is.map .registry), st.output.code = 0) ∧
        (final System.next smallLimits (is.map .registry)).limits () addressSpace =
          rlimitOf 65536 :=
  registry_bypasses_hard_limit (.refl smallLimits) (by decide : (0 : PidT) < 7) (by decide)

end Taro.Sys
