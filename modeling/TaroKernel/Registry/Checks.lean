import TaroKernel.Registry.Invariant

/-!
# What add and update check, and what they do not

Two checks the rest of the repository leads one to expect are not made: `taro_add_memory_limit`
does not ask whether the process already exceeds the limit, and none of the three syscalls that
change the registry asks whether its caller may.
-/

namespace Taro

open Keyed Machine

variable {Signal : Type*}

/-! ### Processes that already exceed the limit -/

/-- The page-wise comparison of update is the byte-wise one: the part of a page that the shift
drops is never needed. -/
lemma exceedsLimit_eq_true_iff {task : TaskStruct Signal} {L : SizeT} :
    exceedsLimit task L = true ↔
      ∃ mm, task.mm = some mm ∧ L.toNat < mm.totalVm.toNat * 4096 := by
  unfold exceedsLimit
  cases task.mm with
  | none => simp
  | some mm =>
    have hshift : (L >>> PAGE_SHIFT).toNat = L.toNat / 4096 := by
      rw [UInt64.toNat_shiftRight, Nat.shiftRight_eq_div_pow]
      rfl
    simp only [gt_iff_lt, decide_eq_true_eq, UInt64.lt_iff_toNat_lt, hshift, Option.some.injEq,
      exists_eq_left']
    exact Nat.div_lt_iff_lt_mul (by decide)

variable [DecidableEq Signal] {s s' : Kernel Signal} {o : Outcomes Signal} {c : Call} {r : Ret}

/-- The address space of the process fits into the limit, in bytes. -/
def FitsLimit (mm : MmStruct) (L : SizeT) : Prop := mm.totalVm.toNat * 4096 ≤ L.toNat

/-- What a call on a process with an address space owes it: a limit is only installed when the
process fits into it, and a call that gets past the other checks says `-100` when it does not. -/
def RespectsUsage (s : Kernel Signal) (i : Invocation Signal) : Prop :=
  ∀ p L task mm, i.outcomes.findTaskByVpid = some task → task.mm = some mm →
    (i.call = .add p L →
      ((syscall s i).1.code = 0 → FitsLimit mm L) ∧
      (0 ≤ p → L ≠ 0 → p ∉ s.pids → ¬ FitsLimit mm L → (syscall s i).1.code = -100)) ∧
    (i.call = .update p L →
      ((syscall s i).1.code = 0 → FitsLimit mm L) ∧
      (0 ≤ p → L ≠ 0 → p ∈ s.pids → ¬ FitsLimit mm L → (syscall s i).1.code = -100))

/-- An add with valid arguments of a process that is not registered and exceeds the limit. -/
def OverlargeAdd (s : Kernel Signal) (i : Invocation Signal) : Prop :=
  ∃ p L task mm, i.call = .add p L ∧ 0 ≤ p ∧ L ≠ 0 ∧
    i.outcomes.findTaskByVpid = some task ∧ task.mm = some mm ∧ p ∉ s.pids ∧ ¬ FitsLimit mm L

/-- No exit of add returns `-100`. -/
lemma Exit.add_code_ne {p : PidT} {L : SizeT} (h : Exit s o (.add p L) r s') : r.code ≠ -100 := by
  cases h with
  | addRefused h =>
    dsimp only
    rcases beforeMutex_error_cases h with rfl | rfl <;> decide
  | _ =>
    dsimp only
    decide

/-- The checks of update meet the byte-wise bound exactly. -/
lemma Exit.update_usage {p : PidT} {L : SizeT} {task : TaskStruct Signal} {mm : MmStruct}
    (h : Exit s o (.update p L) r s') (hfind : o.findTaskByVpid = some task)
    (hmm : task.mm = some mm) :
    (r.code = 0 → FitsLimit mm L) ∧
      (0 ≤ p → L ≠ 0 → p ∈ s.pids → ¬ FitsLimit mm L → r.code = -100) := by
  -- whatever passed the checks before the mutex is `task`
  have htask : ∀ {t : TaskStruct Signal}, beforeMutex p L o = .ok t → t = task := by
    intro t ht
    obtain ⟨_, _, hf⟩ := beforeMutex_eq_ok_iff.mp ht
    exact Option.some.inj (hf.symm.trans hfind)
  have hfits : exceedsLimit task L = false → FitsLimit mm L := by
    intro hx
    by_contra hnot
    rw [exceedsLimit_eq_true_iff.mpr ⟨mm, hmm, not_le.mp hnot⟩] at hx
    cases hx
  cases h with
  | updateRefused h =>
    refine ⟨fun hcode => absurd hcode (beforeMutex_error_neg h).ne, ?_⟩
    intro hp hL _ _
    rw [beforeMutex_eq_ok_iff.mpr ⟨hp, hL, hfind⟩] at h
    cases h
  | updateMissing h hp =>
    exact ⟨fun hcode => absurd hcode (by decide), fun _ _ hmem => absurd hmem hp⟩
  | updateExceeds h ht hx =>
    exact ⟨fun hcode => absurd hcode (by decide), fun _ _ _ _ => rfl⟩
  | updatePerm h ht hx hlsm | updateOk h ht hx hlsm =>
    cases htask h
    exact ⟨fun _ => hfits hx, fun _ _ _ hnot => absurd (hfits hx) hnot⟩

lemma respectsUsage_iff (s : Kernel Signal) (i : Invocation Signal) :
    RespectsUsage s i ↔ ¬ OverlargeAdd s i := by
  have hexit := exit_syscall s i
  constructor
  · rintro hresp ⟨p, L, task, mm, hc, hp, hL, hfind, hmm, hmem, hnot⟩
    have hcode := ((hresp p L task mm hfind hmm).1 hc).2 hp hL hmem hnot
    rw [hc] at hexit
    exact hexit.add_code_ne hcode
  · intro hnot p L task mm hfind hmm
    refine ⟨fun hc => ?_, fun hc => ?_⟩
    · rw [hc] at hexit
      refine ⟨fun hcode => ?_, fun hp hL hmem hx => ?_⟩
      · -- an add that returns 0 passed the other checks, so only a fitting process is left
        by_contra hx
        generalize (syscall s i).1 = r at hexit hcode
        generalize (syscall s i).2 = s' at hexit
        cases hexit with
        | addRefused h => exact absurd hcode (beforeMutex_error_neg h).ne
        | addOk h hp hk hlsm =>
          obtain ⟨hp₀, hL, _⟩ := beforeMutex_eq_ok_iff.mp h
          exact hnot ⟨p, L, task, mm, hc, hp₀, hL, hfind, hmm, hp, hx⟩
        | _ => cases hcode
      · exact absurd ⟨p, L, task, mm, hc, hp, hL, hfind, hmm, hmem, hx⟩ hnot
    · rw [hc] at hexit
      exact hexit.update_usage hfind hmm

/-- In every state, reachable or not, a call respects what its process already uses exactly when it
is not an add of an unregistered process that exceeds the limit; so along any run free of such adds
no limit is installed that the process already exceeds. -/
theorem respectsUsage_iff_not_overlargeAdd (rlimitAs : Signal → Rlimit) :
    (∀ (s : Kernel Signal) (i : Invocation Signal), RespectsUsage s i ↔ ¬ OverlargeAdd s i) ∧
    ∀ is, (∀ st ∈ steps syscall (boot rlimitAs) is, ¬ OverlargeAdd st.pre st.input) →
      ∀ st ∈ steps syscall (boot rlimitAs) is, RespectsUsage st.pre st.input :=
  ⟨respectsUsage_iff, fun _ hall st hst => (respectsUsage_iff st.pre st.input).mpr (hall st hst)⟩

/-- A process with two mapped pages is limited to one byte, and the add returns 0. -/
theorem add_ignores_usage :
    ¬ ∀ (rlimitAs : Unit → Rlimit) (s : Kernel Unit), Reachable syscall (boot rlimitAs) s →
      ∀ i : Invocation Unit, RespectsUsage s i := by
  intro h
  have hresp := h (fun _ => ⟨0, 0⟩) _ (Reachable.refl _)
    ⟨.add 7 1, ⟨⟨true, true, 0, 0, 0⟩, some ⟨⟨1, ()⟩, some ⟨2⟩⟩⟩⟩
  have hfits := ((hresp 7 1 ⟨⟨1, ()⟩, some ⟨2⟩⟩ ⟨2⟩ rfl rfl).1 rfl).1 (by decide)
  exact absurd hfits (by unfold FitsLimit; decide)

/-! ### Callers without privilege -/

/-- The calls that can change the registry or a limit. -/
def Call.Mutating : Call → Prop
  | .get .. => False
  | _       => True

/-- The call passes every check that is made: valid arguments, a live process, and for add a pid
that is not registered and memory for its node, for update a registered pid and a process that
fits into the limit, for remove a registered pid. -/
def PassesChecks (s : Kernel Signal) (i : Invocation Signal) : Prop :=
  match i.call with
  | .add p L =>
    0 ≤ p ∧ L ≠ 0 ∧ i.outcomes.findTaskByVpid.isSome ∧ p ∉ s.pids ∧ i.outcomes.kmalloc = true
  | .update p L =>
    0 ≤ p ∧ L ≠ 0 ∧ p ∈ s.pids ∧
      ∃ task, i.outcomes.findTaskByVpid = some task ∧ exceedsLimit task L = false
  | .remove p => 0 < p ∧ p ∈ s.pids
  | .get .. => False

/-- With the LSM granting, a call either passes the checks and returns 0 or returns an error and
changes nothing. -/
lemma Exit.passesChecks_cases (h : Exit s o c r s') (hc : c.Mutating)
    (hlsm : o.securityTaskSetrlimit = 0) :
    (PassesChecks s ⟨c, o⟩ ∧ r.code = 0) ∨ (¬ PassesChecks s ⟨c, o⟩ ∧ r.code < 0 ∧ s' = s) := by
  -- every error exit is a check that failed; the LSM refuses nothing here
  cases h with
  | get => exact hc.elim
  | addRefused h =>
    refine Or.inr ⟨?_, beforeMutex_error_neg h, rfl⟩
    rintro ⟨hp, hL, hfind, _⟩
    obtain ⟨task, hfind⟩ := Option.isSome_iff_exists.mp hfind
    rw [beforeMutex_eq_ok_iff.mpr ⟨hp, hL, hfind⟩] at h
    cases h
  | addExists h hp =>
    exact Or.inr ⟨fun ⟨_, _, _, hmem, _⟩ => hmem hp, by decide, rfl⟩
  | addNomem h hp hk =>
    refine Or.inr ⟨?_, by decide, rfl⟩
    rintro ⟨_, _, _, _, hk'⟩
    rw [hk] at hk'
    cases hk'
  | addPerm h hp hk hlsm' => exact absurd hlsm hlsm'
  | addOk h hp hk hlsm' =>
    obtain ⟨hp₀, hL, hfind⟩ := beforeMutex_eq_ok_iff.mp h
    exact Or.inl ⟨⟨hp₀, hL, by simp [hfind], hp, hk⟩, rfl⟩
  | updateRefused h =>
    refine Or.inr ⟨?_, beforeMutex_error_neg h, rfl⟩
    rintro ⟨hp, hL, _, task, hfind, _⟩
    rw [beforeMutex_eq_ok_iff.mpr ⟨hp, hL, hfind⟩] at h
    cases h
  | updateMissing h hp =>
    exact Or.inr ⟨fun ⟨_, _, hmem, _⟩ => hp hmem, by decide, rfl⟩
  | updateExceeds h ht hx =>
    obtain ⟨_, _, hfind⟩ := beforeMutex_eq_ok_iff.mp h
    refine Or.inr ⟨?_, by decide, rfl⟩
    rintro ⟨_, _, _, task, hfind', hx'⟩
    obtain rfl := Option.some.inj (hfind.symm.trans hfind')
    rw [hx] at hx'
    cases hx'
  | updatePerm h ht hx hlsm' => exact absurd hlsm hlsm'
  | updateOk h ht hx hlsm' =>
    obtain ⟨hp₀, hL, hfind⟩ := beforeMutex_eq_ok_iff.mp h
    exact Or.inl ⟨⟨hp₀, hL, mem_keys_of_lookup ht, _, hfind, hx⟩, rfl⟩
  | removeInval h =>
    exact Or.inr ⟨fun ⟨hpos, _⟩ => absurd h (Int32.not_le.mpr hpos), by decide, rfl⟩
  | removeMissing h hp =>
    exact Or.inr ⟨fun ⟨_, hmem⟩ => hp hmem, by decide, rfl⟩
  | removeOk h ht => exact Or.inl ⟨⟨h, mem_keys_of_lookup ht⟩, rfl⟩

/-- A sequence of mutating calls by callers without `CAP_SYS_ADMIN`, the LSM granting, is refused
as a whole and leaves no trace exactly when each of its calls fails, in the state it starts from,
one of the checks that are made of every caller. -/
theorem unprivileged_refused_iff (s : Kernel Signal) (is : List (Invocation Signal))
    (hcalls : ∀ i ∈ is, i.call.Mutating ∧ i.outcomes.capable = false ∧
      i.outcomes.securityTaskSetrlimit = 0) :
    ((∀ st ∈ steps syscall s is, st.output.code < 0) ∧ final syscall s is = s) ↔
      ∀ i ∈ is, ¬ PassesChecks s i := by
  induction is with
  | nil => simp
  | cons i is ih =>
    obtain ⟨hi, his⟩ := List.forall_mem_cons.mp hcalls
    have hexit := exit_syscall s i
    simp only [steps_cons, final_cons, List.forall_mem_cons, stepAt_output]
    rcases hexit.passesChecks_cases hi.1 hi.2.2 with ⟨hpass, hcode⟩ | ⟨hnot, hneg, heq⟩
    · -- a call that passes returns 0, so the sequence is not refused
      constructor
      · rintro ⟨⟨hneg, _⟩, _⟩
        exact absurd hcode hneg.ne
      · rintro ⟨hnot, _⟩
        exact absurd hpass hnot
    · rw [heq, ← ih his]
      constructor
      · rintro ⟨⟨_, hrest⟩, hfinal⟩
        exact ⟨hnot, hrest, hfinal⟩
      · rintro ⟨_, hrest, hfinal⟩
        exact ⟨⟨hneg, hrest⟩, hfinal⟩

/-- A process that is not registered cannot be removed, by an unprivileged caller or another. -/
theorem unprivileged_remove_of_unregistered :
    let o : Outcomes Unit := ⟨⟨false, true, 0, 0, 0⟩, none⟩
    (∀ st ∈ steps syscall (boot fun _ => ⟨0, 0⟩) [⟨.remove 7, o⟩], st.output.code < 0) ∧
      final syscall (boot fun _ => ⟨0, 0⟩) [⟨.remove 7, o⟩] = boot fun _ => ⟨0, 0⟩ := by
  refine (unprivileged_refused_iff _ _ ?_).mpr ?_
  · simp [Call.Mutating]
  · simp [PassesChecks, boot, Kernel.pids]

/-- An unprivileged caller limits process 7, and is told that it worked. -/
theorem unprivileged_add_succeeds :
    ¬ ∀ (rlimitAs : Unit → Rlimit) (s : Kernel Unit), Reachable syscall (boot rlimitAs) s →
      ∀ is : List (Invocation Unit), (∀ i ∈ is, i.call.Mutating ∧ i.outcomes.capable = false ∧
        i.outcomes.securityTaskSetrlimit = 0) →
      (∀ st ∈ steps syscall s is, st.output.code < 0) ∧ final syscall s is = s := by
  intro h
  have hrun := h (fun _ => ⟨0, 0⟩) _ (Reachable.refl _)
    [⟨.add 7 4096, ⟨⟨false, true, 0, 0, 0⟩, some ⟨⟨1, ()⟩, none⟩⟩⟩] (by simp [Call.Mutating])
  have hneg := hrun.1 _ List.mem_cons_self
  exact absurd hneg (by decide)

end Taro
