import TaroKernel.Registry.Invariant

/-!
# Calls that fail

A failing call should leave the registry and every `RLIMIT_AS` alone. All exits do but one: when
the LSM refuses an update, the entry has been rewritten already and stays so, where add unlinks
its node again.
-/

namespace Taro

open Keyed Machine

variable {Signal : Type*} [DecidableEq Signal]

/-- If the call returns a negative code, it changed nothing. -/
def FailureAtomic (s : Kernel Signal) (i : Invocation Signal) : Prop :=
  (syscall s i).1.code < 0 → (syscall s i).2 = s

/-- An update of a registered pid to a different limit that passes every check and is then refused
by the LSM. -/
def RefusedRewrite (s : Kernel Signal) (i : Invocation Signal) : Prop :=
  ∃ p L task temp, i.call = .update p L ∧ 0 ≤ p ∧ L ≠ 0 ∧
    i.outcomes.findTaskByVpid = some task ∧
    lookup MemoryLimitation.pid p s.memoryLimitList = some temp ∧ temp.memoryLimit ≠ L ∧
    exceedsLimit task L = false ∧ i.outcomes.securityTaskSetrlimit ≠ 0

/-- Storing a limit changes the list exactly when the entry had another one. -/
lemma storeLimit_eq_self_iff {p : PidT} {L : SizeT} {l : List MemoryLimitation}
    {temp : MemoryLimitation} (ht : lookup MemoryLimitation.pid p l = some temp) :
    storeLimit p L l = l ↔ temp.memoryLimit = L := by
  unfold storeLimit
  rw [modify_eq_self_iff]
  constructor
  · intro h
    have heq := congrArg MemoryLimitation.memoryLimit (h temp ht)
    exact heq.symm
  · intro hL x hx
    obtain rfl : temp = x := Option.some.inj (ht.symm.trans hx)
    cases hL
    rfl

/-- The exits that leave the state alone: all failures but the refused update. -/
lemma Exit.eq_of_code_neg {s s' : Kernel Signal} {o : Outcomes Signal} {c : Call} {r : Ret}
    (h : Exit s o c r s') (hneg : r.code < 0) (hnot : ¬ RefusedRewrite s ⟨c, o⟩) : s' = s := by
  cases h with
  | addOk h hp hk hlsm => exact absurd hneg (by decide)
  | updateOk h ht hx hlsm => exact absurd hneg (by decide)
  | removeOk h ht => exact absurd hneg (by decide)
  | @updatePerm p L task temp h ht hx hlsm =>
    obtain ⟨hp, hL, hfind⟩ := beforeMutex_eq_ok_iff.mp h
    have hsame : temp.memoryLimit = L := by
      by_contra hne
      exact hnot ⟨p, L, task, temp, rfl, hp, hL, hfind, ht, hne, hx, hlsm⟩
    rw [(storeLimit_eq_self_iff ht).mpr hsame]
  | _ => rfl

lemma Exit.ne_of_refusedRewrite {s s' : Kernel Signal} {o : Outcomes Signal} {c : Call} {r : Ret}
    (h : Exit s o c r s') (href : RefusedRewrite s ⟨c, o⟩) : r.code < 0 ∧ s' ≠ s := by
  obtain ⟨p, L, task, temp, hc, hp, hL, hfind, ht, hne, hx, hlsm⟩ := href
  dsimp only at hc hfind hlsm
  subst hc
  have hok : beforeMutex p L o = .ok task := beforeMutex_eq_ok_iff.mpr ⟨hp, hL, hfind⟩
  cases h with
  | updateRefused h =>
    rw [hok] at h
    cases h
  | updateMissing h hp => exact absurd (mem_keys_of_lookup ht) hp
  | updateExceeds h ht' hx' =>
    rw [hok] at h
    cases h
    rw [hx] at hx'
    cases hx'
  | updateOk h ht' hx' hlsm' => exact absurd hlsm' hlsm
  | updatePerm h ht' hx' hlsm' =>
    refine ⟨by decide, fun heq => hne ?_⟩
    exact (storeLimit_eq_self_iff ht).mp (congrArg Kernel.memoryLimitList heq)

lemma failureAtomic_iff (s : Kernel Signal) (i : Invocation Signal) :
    FailureAtomic s i ↔ ¬ RefusedRewrite s i := by
  have hexit := exit_syscall s i
  constructor
  · intro hatom href
    obtain ⟨hneg, hne⟩ := hexit.ne_of_refusedRewrite href
    exact hne (hatom hneg)
  · intro hnot hneg
    exact hexit.eq_of_code_neg hneg hnot

/-- In every state, reachable or not, a call fails without a trace exactly when it is not an update
that the LSM refuses after the entry was given a different limit; so along any run free of such
updates every failing call leaves the whole state as it was. -/
theorem failureAtomic_iff_not_refusedRewrite (rlimitAs : Signal → Rlimit) :
    (∀ (s : Kernel Signal) (i : Invocation Signal), FailureAtomic s i ↔ ¬ RefusedRewrite s i) ∧
    ∀ is, (∀ st ∈ steps syscall (boot rlimitAs) is, ¬ RefusedRewrite st.pre st.input) →
      ∀ st ∈ steps syscall (boot rlimitAs) is, st.output.code < 0 → st.post = st.pre := by
  refine ⟨failureAtomic_iff, ?_⟩
  intro is hall st hst hneg
  have hatom := (failureAtomic_iff st.pre st.input).mpr (hall st hst)
  obtain ⟨_, _, _, hstep⟩ := exists_split_of_mem_steps hst
  rw [hstep] at hatom hneg ⊢
  exact hatom hneg

/-- Process 7 is limited to 8192 bytes; the LSM refuses to lower this to 4096, and the registry
says 4096 from then on. -/
theorem refused_update_keeps_new_limit :
    ¬ ∀ (rlimitAs : Unit → Rlimit) (s : Kernel Unit), Reachable syscall (boot rlimitAs) s →
      ∀ i : Invocation Unit, FailureAtomic s i := by
  intro h
  let granted : Outcomes Unit := ⟨⟨true, true, 0, 0, 0⟩, some ⟨⟨1, ()⟩, none⟩⟩
  let refused : Outcomes Unit := ⟨⟨true, true, -1, 0, 0⟩, some ⟨⟨1, ()⟩, none⟩⟩
  have hreach : Reachable syscall (boot fun _ => ⟨0, 0⟩)
      (syscall (boot fun _ => ⟨0, 0⟩) ⟨.add 7 8192, granted⟩).2 := (Reachable.refl _).step _
  have hsame := h _ _ hreach ⟨.update 7 4096, refused⟩ (by decide)
  have hlist := congrArg Kernel.memoryLimitList hsame
  exact absurd hlist (by decide)

end Taro
