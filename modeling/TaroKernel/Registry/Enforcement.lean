import TaroKernel.Registry.Checks

/-!
# Does the registry tell what is enforced?

An entry is found by its pid number, the limit it promises lives in the `signal_struct` of a
process. Two numbers may denote tasks of one process, and one number may denote tasks of two
processes for callers in different PID namespaces. With a fixed task table and an LSM that grants
everything, the entries stay true exactly as long as no call writes a `signal_struct` behind the
back of another entry.
-/

namespace Taro

open Keyed Machine

variable {Ns Signal : Type*}

/-- The task a number denotes for a caller in a PID namespace. -/
abbrev TaskTable (Ns Signal : Type*) := Ns → PidT → Option (Task Signal)

/-- The kernel, and for each pid the task its entry was last added for. -/
structure Ledger (Signal : Type*) where
  kernel : Kernel Signal
  addedFor : PidT → Option (Task Signal)

/-- A request from a caller in the namespace `caller`. -/
structure NsRequest (Ns : Type*) extends Request where
  caller : Ns

/-- The call a request amounts to when the LSM grants it. -/
def NsRequest.invocation (T : TaskTable Ns Signal) (q : NsRequest Ns) : Invocation Signal :=
  Request.invoke ⟨q.call, { q.answers with securityTaskSetrlimit := 0 }, q.mm⟩
    (q.call.target.bind (T q.caller))

/-- Run a request, and note the task of a successful add. -/
def ledgerCall [DecidableEq Signal] (T : TaskTable Ns Signal) (w : Ledger Signal)
    (q : NsRequest Ns) : Ret × Ledger Signal :=
  let r := syscall w.kernel (q.invocation T)
  (r.1, {
    kernel := r.2
    addedFor :=
      match addedPid q.call r.1.code with
      | some p => Function.update w.addedFor p (T q.caller p)
      | none   => w.addedFor })

def ledgerBoot (rlimitAs : Signal → Rlimit) : Ledger Signal := ⟨boot rlimitAs, fun _ => none⟩

/-- Every entry states the `RLIMIT_AS` of the process it was added for. -/
def Truthful (w : Ledger Signal) : Prop :=
  ∀ e ∈ w.kernel.memoryLimitList, ∃ task, w.addedFor e.pid = some task ∧
    w.kernel.rlimitAs task.signal = rlimitOf e.memoryLimit

/-- The request installs `L` for the process of `task`: an add or update that passes the checks. -/
def Installs (T : TaskTable Ns Signal) (w : Ledger Signal) (q : NsRequest Ns) (p : PidT)
    (L : SizeT) (task : Task Signal) : Prop :=
  (q.call = .add p L ∨ q.call = .update p L) ∧ T q.caller p = some task ∧
    PassesChecks w.kernel (q.invocation T)

/-- What a request that installs a limit must meet: every entry of another number whose task
shares the `signal_struct` written to has the same limit, and the entry of the number itself was
added for that `signal_struct` or has the limit already. -/
def Agrees (T : TaskTable Ns Signal) (w : Ledger Signal) (q : NsRequest Ns) : Prop :=
  ∀ p L task, Installs T w q p L task →
    ∀ e ∈ w.kernel.memoryLimitList, ∀ t, w.addedFor e.pid = some t →
      (e.pid ≠ p → t.signal = task.signal → e.memoryLimit = L) ∧
      (e.pid = p → t.signal = task.signal ∨ e.memoryLimit = L)

lemma rlimitOf_inj {L M : SizeT} : rlimitOf L = rlimitOf M ↔ L = M := by
  simp [rlimitOf]

variable {T : TaskTable Ns Signal} {w : Ledger Signal} {q : NsRequest Ns}

lemma invocation_call : (q.invocation T).call = q.call := rfl

/-- A task that passed the checks is the one the table has for the caller. -/
lemma table_of_beforeMutex {p : PidT} {L : SizeT} {task : TaskStruct Signal}
    (htarget : q.call.target = some p)
    (h : beforeMutex p L (q.invocation T).outcomes = .ok task) :
    T q.caller p = some task.toTask := by
  obtain ⟨_, _, hfind⟩ := beforeMutex_eq_ok_iff.mp h
  simp only [NsRequest.invocation, Request.invoke, htarget, Option.bind_some,
    Option.map_eq_some_iff] at hfind
  obtain ⟨t, ht, rfl⟩ := hfind
  exact ht

lemma installs_unique {p p' : PidT} {L L' : SizeT} {task task' : Task Signal}
    (h : Installs T w q p L task) (h' : Installs T w q p' L' task') :
    p' = p ∧ L' = L ∧ task' = task := by
  obtain ⟨hc, ht, _⟩ := h
  obtain ⟨hc', ht', _⟩ := h'
  have heq : p' = p ∧ L' = L := by
    rcases hc with hc | hc <;> rcases hc' with hc' | hc' <;> rw [hc] at hc' <;> cases hc' <;>
      exact ⟨rfl, rfl⟩
  obtain ⟨rfl, rfl⟩ := heq
  exact ⟨rfl, rfl, Option.some.inj (ht'.symm.trans ht)⟩

/-! ### The three calls that change something -/

variable [DecidableEq Signal]

/-- Writing `L` to a `signal_struct` keeps the truth of a limit `M` exactly when it is not the
same one, or the limits agree. -/
lemma update_rlimit_eq_iff {rl : Signal → Rlimit} {g x : Signal} {L M : SizeT}
    (h : rl x = rlimitOf M) :
    Function.update rl g (rlimitOf L) x = rlimitOf M ↔ (x = g → M = L) := by
  by_cases hx : x = g
  · subst hx
    rw [Function.update_self, rlimitOf_inj]
    exact ⟨fun hL _ => hL.symm, fun hM => (hM rfl).symm⟩
  · rw [Function.update_of_ne hx]
    exact ⟨fun _ hg => absurd hg hx, fun _ => h⟩

lemma truthful_add_iff {p : PidT} {L : SizeT} (htrue : Truthful w)
    (hc : q.call = .add p L) (hpass : PassesChecks w.kernel (q.invocation T))
    (hcode : (syscall w.kernel (q.invocation T)).1.code = 0) :
    Truthful (ledgerCall T w q).2 ↔ Agrees T w q := by
  have hexit := exit_syscall w.kernel (q.invocation T)
  rw [invocation_call, hc] at hexit
  obtain ⟨task, hb, hp, hs'⟩ := hexit.add_ok hcode
  have htable := table_of_beforeMutex (by rw [hc]; rfl) hb
  have hinst : Installs T w q p L task.toTask := ⟨Or.inl hc, htable, hpass⟩
  have hpost : (ledgerCall T w q).2 =
      ⟨⟨w.kernel.memoryLimitList ++ [⟨p, L⟩],
        Function.update w.kernel.rlimitAs task.signal (rlimitOf L)⟩,
        Function.update w.addedFor p (some task.toTask)⟩ := by
    simp only [ledgerCall, hs', hc, addedPid, hcode, if_pos, htable]
  rw [hpost]
  -- a registered entry has another number, so only its `signal_struct` can be hit
  have hne : ∀ e ∈ w.kernel.memoryLimitList, e.pid ≠ p := by
    rintro e he rfl
    exact hp (mem_pids_iff.mpr ⟨e, he, rfl⟩)
  constructor
  · intro hpostTrue p' L' task' hinst' e he t ht
    obtain ⟨rfl, rfl, rfl⟩ := installs_unique hinst hinst'
    refine ⟨fun _ => ?_, fun hep => absurd hep (hne e he)⟩
    obtain ⟨t₀, ht₀, hrl⟩ := htrue e he
    obtain rfl := Option.some.inj (ht₀.symm.trans ht)
    obtain ⟨t₁, ht₁, hrl₁⟩ := hpostTrue e (List.mem_append_left _ he)
    dsimp only at ht₁ hrl₁
    rw [Function.update_of_ne (hne e he), ht₀] at ht₁
    obtain rfl := Option.some.inj ht₁
    exact (update_rlimit_eq_iff hrl).mp hrl₁
  · intro hagree e he
    rcases List.mem_append.mp he with he | he
    · obtain ⟨t₀, ht₀, hrl⟩ := htrue e he
      refine ⟨t₀, ?_, (update_rlimit_eq_iff hrl).mpr ?_⟩
      · dsimp only
        rw [Function.update_of_ne (hne e he), ht₀]
      · exact (hagree p L task.toTask hinst e he t₀ ht₀).1 (hne e he)
    · obtain rfl := List.mem_singleton.mp he
      exact ⟨task.toTask, Function.update_self .., Function.update_self ..⟩

lemma truthful_update_iff {p : PidT} {L : SizeT} (hwf : WellFormed w.kernel) (htrue : Truthful w)
    (hc : q.call = .update p L) (hpass : PassesChecks w.kernel (q.invocation T))
    (hcode : (syscall w.kernel (q.invocation T)).1.code = 0) :
    Truthful (ledgerCall T w q).2 ↔ Agrees T w q := by
  have hexit := exit_syscall w.kernel (q.invocation T)
  rw [invocation_call, hc] at hexit
  obtain ⟨task, temp, hb, htemp, _, _, hs'⟩ := hexit.update_ok hcode
  have htable := table_of_beforeMutex (by rw [hc]; rfl) hb
  have hinst : Installs T w q p L task.toTask := ⟨Or.inr hc, htable, hpass⟩
  have hpost : (ledgerCall T w q).2 =
      ⟨⟨storeLimit p L w.kernel.memoryLimitList,
        Function.update w.kernel.rlimitAs task.signal (rlimitOf L)⟩, w.addedFor⟩ := by
    simp only [ledgerCall, hs', hc, addedPid]
  rw [hpost]
  have hmem : ∀ e, e ∈ storeLimit p L w.kernel.memoryLimitList ↔
      (e ∈ w.kernel.memoryLimitList ∧ e.pid ≠ p) ∨
        ∃ x, lookup MemoryLimitation.pid p w.kernel.memoryLimitList = some x ∧
          e = { x with memoryLimit := L } :=
    fun e => mem_modify_iff (fun _ => rfl) hwf.nodup
  have hpid : temp.pid = p := key_of_lookup htemp
  constructor
  · intro hpostTrue p' L' task' hinst' e he t ht
    obtain ⟨rfl, rfl, rfl⟩ := installs_unique hinst hinst'
    obtain ⟨t₀, ht₀, hrl⟩ := htrue e he
    obtain rfl := Option.some.inj (ht₀.symm.trans ht)
    refine ⟨fun hep => ?_, fun hep => ?_⟩
    · obtain ⟨t₁, ht₁, hrl₁⟩ := hpostTrue e ((hmem e).mpr (Or.inl ⟨he, hep⟩))
      obtain rfl := Option.some.inj (ht₁.symm.trans ht₀)
      exact (update_rlimit_eq_iff hrl).mp hrl₁
    · -- the rewritten entry: either its own `signal_struct` was written, or nothing changed
      have hfind : lookup MemoryLimitation.pid p' w.kernel.memoryLimitList = some e :=
        hep ▸ lookup_of_mem hwf.nodup he
      obtain ⟨t₁, ht₁, hrl₁⟩ := hpostTrue _ ((hmem _).mpr (Or.inr ⟨e, hfind, rfl⟩))
      obtain rfl := Option.some.inj (ht₁.symm.trans ht₀)
      by_cases hg : t₁.signal = task.signal
      · exact Or.inl hg
      · dsimp only at hrl₁
        rw [Function.update_of_ne hg, hrl, rlimitOf_inj] at hrl₁
        exact Or.inr hrl₁
  · intro hagree e he
    rcases (hmem e).mp he with ⟨he, hep⟩ | ⟨x, hx, rfl⟩
    · obtain ⟨t₀, ht₀, hrl⟩ := htrue e he
      refine ⟨t₀, ht₀, (update_rlimit_eq_iff hrl).mpr ?_⟩
      exact (hagree p L task.toTask hinst e he t₀ ht₀).1 hep
    · have hxmem := mem_of_lookup hx
      obtain ⟨t₀, ht₀, hrl⟩ := htrue x hxmem
      refine ⟨t₀, ht₀, ?_⟩
      dsimp only
      by_cases hg : t₀.signal = task.signal
      · rw [hg, Function.update_self]
      · rw [Function.update_of_ne hg, hrl]
        have hor := (hagree p L task.toTask hinst x hxmem t₀ ht₀).2 (key_of_lookup hx)
        rw [hor.resolve_left hg]

lemma truthful_remove {p : PidT} (htrue : Truthful w) (hc : q.call = .remove p)
    (hcode : (syscall w.kernel (q.invocation T)).1.code = 0) :
    Truthful (ledgerCall T w q).2 := by
  have hexit := exit_syscall w.kernel (q.invocation T)
  rw [invocation_call, hc] at hexit
  obtain ⟨_, _, hs'⟩ := hexit.remove_ok hcode
  have hpost : (ledgerCall T w q).2 =
      ⟨{ w.kernel with
          memoryLimitList := unlink MemoryLimitation.pid p w.kernel.memoryLimitList },
        w.addedFor⟩ := by
    simp only [ledgerCall, hs', hc, addedPid]
  rw [hpost]
  exact fun e he => htrue e (mem_of_mem_unlink he)

/-! ### Whole runs -/

lemma ledgerCall_eq_self (hsame : (syscall w.kernel (q.invocation T)).2 = w.kernel)
    (hadd : addedPid q.call (syscall w.kernel (q.invocation T)).1.code = none) :
    (ledgerCall T w q).2 = w := by
  simp only [ledgerCall, hsame, hadd]

/-- From a truthful state, the state after a request is truthful exactly when the request meets
the condition. -/
lemma truthful_ledgerCall_iff (hwf : WellFormed w.kernel) (htrue : Truthful w) :
    Truthful (ledgerCall T w q).2 ↔ Agrees T w q := by
  have hexit := exit_syscall w.kernel (q.invocation T)
  by_cases hget : q.call.Mutating
  -- a call that passes its checks succeeds, and any other changes nothing
  · rcases hexit.passesChecks_cases hget rfl with ⟨hpass, hcode⟩ | ⟨hnot, hneg, hsame⟩
    · cases hc : q.call with
      | get u n c =>
        rw [hc] at hget
        exact hget.elim
      | add p L => exact truthful_add_iff htrue hc hpass hcode
      | update p L => exact truthful_update_iff hwf htrue hc hpass hcode
      | remove p =>
        refine ⟨fun _ p' L' task' hinst => ?_, fun _ => truthful_remove htrue hc hcode⟩
        rcases hinst.1 with hc' | hc' <;> rw [hc] at hc' <;> cases hc'
    · have hadd : addedPid q.call (syscall w.kernel (q.invocation T)).1.code = none := by
        cases q.call with
        | add p L => exact if_neg hneg.ne
        | _ => rfl
      rw [ledgerCall_eq_self hsame hadd]
      exact ⟨fun _ _ _ _ hinst => absurd hinst.2.2 hnot, fun _ => htrue⟩
  · cases hc : q.call with
    | get u n c =>
      rw [invocation_call, hc] at hexit
      rw [ledgerCall_eq_self hexit.get_eq (by rw [hc]; rfl)]
      refine ⟨fun _ p' L' task' hinst => ?_, fun _ => htrue⟩
      rcases hinst.1 with hc' | hc' <;> rw [hc] at hc' <;> cases hc'
    | _ =>
      rw [hc] at hget
      exact absurd trivial hget

/-- Along any run of the four syscalls from the empty registry, with any callers, the LSM granting
and nothing else writing `RLIMIT_AS`: every entry states the limit of the process it was added for
in every state reached, exactly when every request of the run agrees with the entries it meets. -/
theorem truthful_iff_agrees (T : TaskTable Ns Signal) (rlimitAs : Signal → Rlimit)
    (qs : List (NsRequest Ns)) :
    (∀ st ∈ steps (ledgerCall T) (ledgerBoot rlimitAs) qs, Truthful st.post) ↔
      ∀ st ∈ steps (ledgerCall T) (ledgerBoot rlimitAs) qs, Agrees T st.pre st.input := by
  refine forall_post_iff (fun w => WellFormed w.kernel) ?_ ?_ _ qs (wellFormed_boot rlimitAs) ?_
  · intro w q hwf
    exact syscall_wellFormed w.kernel (q.invocation T) hwf
  · intro w q hwf htrue
    exact truthful_ledgerCall_iff hwf htrue
  · simp [Truthful, ledgerBoot, boot]

/-- Numbers 7 and 8 denote two threads of one process. Limiting 7 to 4096 and then 8 to 8192
leaves an entry that promises 4096 where 8192 is enforced. -/
theorem two_threads_one_limit :
    ¬ ∀ (T : TaskTable Unit Unit) (rlimitAs : Unit → Rlimit) (qs : List (NsRequest Unit)),
      ∀ st ∈ steps (ledgerCall T) (ledgerBoot rlimitAs) qs, Truthful st.post := by
  intro h
  let T : TaskTable Unit Unit := fun _ p =>
    if p = 7 then some ⟨1, ()⟩ else if p = 8 then some ⟨2, ()⟩ else none
  let request : PidT → SizeT → NsRequest Unit := fun p L =>
    ⟨⟨.add p L, ⟨true, true, 0, 0, 0⟩, none⟩, ()⟩
  have htrue := h T (fun _ => ⟨0, 0⟩) [request 7 4096, request 8 8192]
    _ (List.mem_cons_of_mem _ List.mem_cons_self)
  obtain ⟨task, _, hrl⟩ := htrue ⟨7, 4096⟩ (by decide)
  have hcur := congrArg Rlimit.rlimCur hrl
  exact absurd (show (8192 : UInt64) = 4096 from hcur) (by decide)

end Taro
