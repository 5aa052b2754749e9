import TaroKernel.Registry.Get
import TaroKernel.Registry.Invariant

/-!
# Entries that outlive their process

An entry is not dropped when its process exits, and its number may be given to a new process.
Then a get reports the new process, and an add of it is refused with `-101`, although nobody ever
limited it. This happens exactly when a number is given out while it is registered.
-/

namespace Taro

open Keyed Machine

/-! ### Processes that come and go -/

/-- Who holds which number. Processes are counted in the order of their creation, so that two
holders of one number are told apart; `born` is the next one. -/
structure ProcessTable where
  holder : PidT → Option ℕ
  born : ℕ
  holder_lt : ∀ p n, holder p = some n → n < born

/-- The holder of `p` exits and the number is free again. -/
def ProcessTable.exit (t : ProcessTable) (p : PidT) : ProcessTable where
  holder := Function.update t.holder p none
  born := t.born
  holder_lt q n h := by
    by_cases hq : q = p
    · subst hq
      rw [Function.update_self] at h
      cases h
    · rw [Function.update_of_ne hq] at h
      exact t.holder_lt q n h

/-- A new process gets the number `p`. -/
def ProcessTable.create (t : ProcessTable) (p : PidT) : ProcessTable where
  holder := Function.update t.holder p (some t.born)
  born := t.born + 1
  holder_lt q n h := by
    by_cases hq : q = p
    · subst hq
      rw [Function.update_self] at h
      cases h
      exact Nat.lt_succ_self _
    · rw [Function.update_of_ne hq] at h
      exact Nat.lt_succ_of_lt (t.holder_lt q n h)

/-- The kernel and its processes; each process has a `signal_struct` of its own. -/
structure World where
  kernel : Kernel ℕ
  table : ProcessTable

inductive Event where
  | call (q : Request)
  | exit (p : PidT)
  | create (p : PidT)

/-- The task a number denotes now. -/
def ProcessTable.findTaskByVpid (t : ProcessTable) (p : PidT) : Option (Task ℕ) :=
  (t.holder p).map fun n => ⟨n, n⟩

/-- The call a request amounts to now: its pid is looked up in the table of the moment. -/
def World.invocation (w : World) (q : Request) : Invocation ℕ :=
  q.invoke (q.call.target.bind w.table.findTaskByVpid)

/-- A call runs from its start to its end; a new process only gets a number that is free. -/
def World.next (w : World) : Event → Option Ret × World
  | .call q =>
    let r := syscall w.kernel (w.invocation q)
    (some r.1, { w with kernel := r.2 })
  | .exit p => (none, { w with table := w.table.exit p })
  | .create p =>
    match w.table.holder p with
    | none   => (none, { w with table := w.table.create p })
    | some _ => (none, w)

def World.boot (rlimitAs : ℕ → Rlimit) (table : ProcessTable) : World := ⟨Taro.boot rlimitAs, table⟩

/-! ### What gets and adds may say -/

abbrev WorldStep := Step World Event (Option Ret)

/-- The step is an add of `p` that returned 0 while process `n` held the number. -/
def AddedFor (p : PidT) (n : ℕ) (st : WorldStep) : Prop :=
  ∃ q r, st.input = .call q ∧ st.output = some r ∧ addedPid q.call r.code = some p ∧
    st.pre.table.holder p = some n

/-- The step is a remove of `p` that returned 0. -/
def RemovedBy (p : PidT) (st : WorldStep) : Prop :=
  ∃ q r, st.input = .call q ∧ st.output = some r ∧ removedPid q.call r.code = some p

/-- Process `n` was limited under the number `p`, and no remove of `p` has succeeded since. -/
def Covered (h : List WorldStep) (p : PidT) (n : ℕ) : Prop :=
  ∃ h₁ st h₂, h = h₁ ++ st :: h₂ ∧ AddedFor p n st ∧ ∀ st' ∈ h₂, ¬ RemovedBy p st'

/-- Some get made now returns 0 and has `p` among its records. -/
def Reported (w : World) (p : PidT) : Prop :=
  ∃ u n c a mm r records, (w.next (.call ⟨.get u n c, a, mm⟩)).1 = some r ∧ r.code = 0 ∧
    r.copied.uProcessesBuffer = some records ∧ p ∈ records.map MemoryLimitation.pid

/-- Some add of `p` made now returns `-101`. -/
def AlreadyLimited (w : World) (p : PidT) : Prop :=
  ∃ L a mm r, (w.next (.call ⟨.add p L, a, mm⟩)).1 = some r ∧ r.code = -101

/-- Whatever a get or an add says about the number of a live process, it says about this very
process. -/
def NoLeak (h : List WorldStep) (w : World) : Prop :=
  ∀ p n, w.table.holder p = some n → Reported w p ∨ AlreadyLimited w p → Covered h p n

/-- The step does not give out a number that is registered. -/
def NoReuse (st : WorldStep) : Prop :=
  ∀ p, st.input = .create p → st.pre.table.holder p = none → p ∉ st.pre.kernel.pids

/-! ### What the syscalls say about a number -/

variable {w : World} {p : PidT} {n : ℕ} {h : List WorldStep} {e : Event}

lemma mem_pids_of_reported (hwf : WellFormed w.kernel) (hp : Reported w p) :
    p ∈ w.kernel.pids := by
  obtain ⟨u, m, c, a, mm, r, records, hr, hcode, hrec, hmem⟩ := hp
  obtain rfl := Option.some.inj hr
  rw [taroGetMemoryLimits_records hwf.length_le hcode hrec, List.map_take] at hmem
  exact List.mem_of_mem_take hmem

/-- The task found for an add of a number that process `n` holds. -/
lemma beforeMutex_invocation_of_holder (L : SizeT) (a : Answers) (mm : Option MmStruct)
    (hp : 0 ≤ p) (hL : L ≠ 0) (hn : w.table.holder p = some n) :
    beforeMutex p L (w.invocation ⟨.add p L, a, mm⟩).outcomes = .ok ⟨⟨n, n⟩, mm⟩ := by
  refine beforeMutex_eq_ok_iff.mpr ⟨hp, hL, ?_⟩
  simp [World.invocation, Request.invoke, Call.target, ProcessTable.findTaskByVpid, hn]

lemma mem_pids_of_alreadyLimited (hp : AlreadyLimited w p) : p ∈ w.kernel.pids := by
  obtain ⟨L, a, mm, r, hr, hcode⟩ := hp
  obtain rfl := Option.some.inj hr
  have hexit := exit_syscall w.kernel (w.invocation ⟨.add p L, a, mm⟩)
  cases hb : beforeMutex p L (w.invocation ⟨.add p L, a, mm⟩).outcomes with
  | error code =>
    have hcode' : (syscall w.kernel (w.invocation ⟨.add p L, a, mm⟩)).1.code = code := by
      simp only [syscall, World.invocation, Request.invoke, taroAddMemoryLimit] at hb ⊢
      rw [hb]
    rw [hcode'] at hcode
    subst hcode
    rcases beforeMutex_error_cases hb with hc | hc <;> exact absurd hc (by decide)
  | ok task => exact (hexit.add_exists_iff hb).mp hcode

/-- A registered number with a live holder is refused as already limited. -/
lemma alreadyLimited_of_mem_pids (hwf : WellFormed w.kernel) (hn : w.table.holder p = some n)
    (hp : p ∈ w.kernel.pids) : AlreadyLimited w p := by
  obtain ⟨x, hx, rfl⟩ := mem_pids_iff.mp hp
  let a : Answers := ⟨true, true, 0, 0, 0⟩
  refine ⟨1, a, none, _, rfl, ?_⟩
  have hb := beforeMutex_invocation_of_holder 1 a none (hwf.nonneg x hx) (by decide) hn
  exact ((exit_syscall w.kernel (w.invocation ⟨.add x.pid 1, a, none⟩)).add_exists_iff hb).mpr hp

/-- So a leak is a registered number whose holder is not the process it was added for. -/
lemma noLeak_iff (hwf : WellFormed w.kernel) :
    NoLeak h w ↔ ∀ p n, w.table.holder p = some n → p ∈ w.kernel.pids → Covered h p n := by
  constructor
  · intro hno p n hn hp
    exact hno p n hn (Or.inr (alreadyLimited_of_mem_pids hwf hn hp))
  · rintro hall p n hn (hp | hp)
    · exact hall p n hn (mem_pids_of_reported hwf hp)
    · exact hall p n hn (mem_pids_of_alreadyLimited hp)

/-! ### One more step -/

lemma Covered.append {st : WorldStep} (hc : Covered h p n) (hst : ¬ RemovedBy p st) :
    Covered (h ++ [st]) p n := by
  obtain ⟨h₁, st₀, h₂, rfl, hadd, hrem⟩ := hc
  refine ⟨h₁, st₀, h₂ ++ [st], by simp, hadd, ?_⟩
  intro st' hst'
  rcases List.mem_append.mp hst' with hst' | hst'
  · exact hrem st' hst'
  · obtain rfl := List.mem_singleton.mp hst'
    exact hst

lemma next_wellFormed (w : World) (e : Event) (hwf : WellFormed w.kernel) :
    WellFormed (w.next e).2.kernel := by
  cases e with
  | call q => exact syscall_wellFormed w.kernel (w.invocation q) hwf
  | exit p => exact hwf
  | create p =>
    simp only [World.next]
    cases w.table.holder p <;> exact hwf

lemma born_le_next (w : World) (e : Event) : w.table.born ≤ (w.next e).2.table.born := by
  cases e with
  | call q => exact le_rfl
  | exit p => exact le_rfl
  | create p =>
    simp only [World.next]
    cases w.table.holder p with
    | none => exact Nat.le_succ _
    | some n => exact le_rfl

/-- After any step that does not reuse a registered number, registered numbers still belong to
those they were added for. -/
lemma covered_next (hwf : WellFormed w.kernel) (hst : NoReuse (stepAt World.next w e))
    (hcov : ∀ p n, w.table.holder p = some n → p ∈ w.kernel.pids → Covered h p n) :
    ∀ p n, (w.next e).2.table.holder p = some n → p ∈ (w.next e).2.kernel.pids →
      Covered (h ++ [stepAt World.next w e]) p n := by
  intro p n hn hp
  cases e with
  | call q =>
    have hkeep : ∀ p', removedPid (w.invocation q).call
        (syscall w.kernel (w.invocation q)).1.code ≠ some p' →
        ¬ RemovedBy p' (stepAt World.next w (.call q)) := by
      rintro p' hne ⟨q', r, hq, hr, hrem⟩
      cases hq
      cases hr
      exact hne hrem
    rcases (exit_syscall w.kernel (w.invocation q)).pids_cases with
      ⟨p', hadd, hrem, hnew, heq⟩ | ⟨p', hadd, hrem, heq⟩ | ⟨hadd, hrem, heq⟩
    · -- the pid just added belongs to the process that holds it now
      have hp' : p ∈ w.kernel.pids ++ [p'] := heq ▸ hp
      rcases List.mem_append.mp hp' with hold | hlast
      · exact (hcov p n hn hold).append (hkeep p (by rw [hrem]; simp))
      · obtain rfl := List.mem_singleton.mp hlast
        exact ⟨h, _, [], rfl, ⟨q, _, rfl, rfl, hadd, hn⟩, by simp⟩
    · have hp' : p ∈ w.kernel.pids.erase p' := heq ▸ hp
      have hne : p ≠ p' := by
        rintro rfl
        exact hwf.nodup.not_mem_erase hp'
      refine (hcov p n hn (List.mem_of_mem_erase hp')).append (hkeep p ?_)
      rw [hrem]
      exact fun h => hne (Option.some.inj h).symm
    · have hp' : p ∈ w.kernel.pids := heq ▸ hp
      exact (hcov p n hn hp').append (hkeep p (by rw [hrem]; simp))
  | exit p' =>
    have hnot : ¬ RemovedBy p (stepAt World.next w (.exit p')) := by
      rintro ⟨q, r, hq, _⟩
      cases hq
    have hn' : Function.update w.table.holder p' none p = some n := hn
    by_cases hpp : p = p'
    · subst hpp
      rw [Function.update_self] at hn'
      cases hn'
    · rw [Function.update_of_ne hpp] at hn'
      exact (hcov p n hn' hp).append hnot
  | create p' =>
    have hnot : ¬ RemovedBy p (stepAt World.next w (.create p')) := by
      rintro ⟨q, r, hq, _⟩
      cases hq
    cases hfree : w.table.holder p' with
    | some m =>
      simp only [World.next, hfree] at hn hp
      exact (hcov p n hn hp).append hnot
    | none =>
      simp only [World.next, hfree] at hn hp
      have hn' : Function.update w.table.holder p' (some w.table.born) p = some n := hn
      by_cases hpp : p = p'
      · subst hpp
        exact absurd hp (hst p rfl hfree)
      · rw [Function.update_of_ne hpp] at hn'
        exact (hcov p n hn' hp).append hnot

/-! ### Whole runs -/

variable {rlimitAs : ℕ → Rlimit} {table : ProcessTable}

lemma wellFormed_final (es : List Event) :
    WellFormed (final World.next (World.boot rlimitAs table) es).kernel := by
  have hreach : Reachable World.next (World.boot rlimitAs table)
      (final World.next (World.boot rlimitAs table) es) := ⟨es, rfl⟩
  exact hreach.invariant (P := fun w => WellFormed w.kernel) (wellFormed_boot rlimitAs)
    next_wellFormed

lemma covered_final (es : List Event)
    (hall : ∀ st ∈ steps World.next (World.boot rlimitAs table) es, NoReuse st) :
    ∀ p n, (final World.next (World.boot rlimitAs table) es).table.holder p = some n →
      p ∈ (final World.next (World.boot rlimitAs table) es).kernel.pids →
      Covered (steps World.next (World.boot rlimitAs table) es) p n := by
  revert hall
  suffices hrun : WellFormed (final World.next (World.boot rlimitAs table) es).kernel ∧
      ((∀ st ∈ steps World.next (World.boot rlimitAs table) es, NoReuse st) →
        ∀ p n, (final World.next (World.boot rlimitAs table) es).table.holder p = some n →
          p ∈ (final World.next (World.boot rlimitAs table) es).kernel.pids →
          Covered (steps World.next (World.boot rlimitAs table) es) p n) from hrun.2
  refine history_induction (P := fun h w => WellFormed w.kernel ∧ ((∀ st ∈ h, NoReuse st) →
    ∀ p n, w.table.holder p = some n → p ∈ w.kernel.pids → Covered h p n)) ?_ ?_ es
  · refine ⟨wellFormed_boot rlimitAs, ?_⟩
    intro _ p n _ hp
    simp [World.boot, Taro.boot, Kernel.pids] at hp
  · rintro h w e ⟨hwf, hcov⟩
    refine ⟨next_wellFormed w e hwf, ?_⟩
    intro hall
    have hpast : ∀ st ∈ h, NoReuse st := fun st hst => hall st (List.mem_append_left _ hst)
    have hlast : NoReuse (stepAt World.next w e) := hall _ (by simp)
    exact covered_next hwf hlast (hcov hpast)

/-- No process was added before it was born. -/
lemma addedFor_lt_born {es : List Event} {st : WorldStep}
    (hst : st ∈ steps World.next (World.boot rlimitAs table) es) (hadd : AddedFor p n st) :
    n < (final World.next (World.boot rlimitAs table) es).table.born := by
  have hborn : ∀ st ∈ steps World.next (World.boot rlimitAs table) es,
      st.pre.table.born ≤ (final World.next (World.boot rlimitAs table) es).table.born := by
    refine history_induction (P := fun (h : List WorldStep) (w : World) =>
      ∀ st ∈ h, st.pre.table.born ≤ w.table.born) ?_ ?_ es
    · simp
    · intro h w e hh st hst
      rcases List.mem_append.mp hst with hst | hst
      · exact (hh st hst).trans (born_le_next w e)
      · obtain rfl := List.mem_singleton.mp hst
        exact born_le_next w e
  obtain ⟨q, r, _, _, _, hn⟩ := hadd
  exact (st.pre.table.holder_lt p n hn).trans_le (hborn st hst)

/-- Giving out a registered number leaks: the new process was never added. -/
lemma not_noLeak_of_reuse (rlimitAs : ℕ → Rlimit) (table : ProcessTable) (es : List Event)
    (hfree : (final World.next (World.boot rlimitAs table) es).table.holder p = none)
    (hp : p ∈ (final World.next (World.boot rlimitAs table) es).kernel.pids) :
    ¬ NoLeak (steps World.next (World.boot rlimitAs table) (es ++ [.create p]))
      (final World.next (World.boot rlimitAs table) (es ++ [.create p])) := by
  intro hno
  have hcov := (noLeak_iff (wellFormed_final _)).mp hno p
    (final World.next (World.boot rlimitAs table) es).table.born
  rw [final_append, steps_append] at hcov
  simp only [final_cons, final_nil, steps_cons, steps_nil] at hcov
  generalize hw : final World.next (World.boot rlimitAs table) es = w at *
  have hnext : (w.next (.create p)).2 = { w with table := w.table.create p } := by
    simp only [World.next, hfree]
  rw [hnext] at hcov
  obtain ⟨h₁, st, h₂, hsplit, hadd, _⟩ := hcov (Function.update_self ..) hp
  have hst : st ∈ steps World.next (World.boot rlimitAs table) es ++
      [stepAt World.next w (.create p)] := by
    rw [hsplit]
    simp
  rcases List.mem_append.mp hst with hst | hst
  · have hlt := addedFor_lt_born hst hadd
    rw [hw] at hlt
    exact absurd hlt (lt_irrefl _)
  · obtain rfl := List.mem_singleton.mp hst
    obtain ⟨q, r, hq, _⟩ := hadd
    cases hq

/-- Mix the four syscalls with exits and creations of processes in any way. What gets and adds say
about live processes is true of these very processes in every state reached, exactly when no
number is given to a new process while it is registered. -/
theorem noLeak_iff_noReuse (rlimitAs : ℕ → Rlimit) (table : ProcessTable) (es : List Event) :
    (∀ es₁ es₂, es = es₁ ++ es₂ →
      NoLeak (steps World.next (World.boot rlimitAs table) es₁)
        (final World.next (World.boot rlimitAs table) es₁)) ↔
      ∀ st ∈ steps World.next (World.boot rlimitAs table) es, NoReuse st := by
  constructor
  · intro hno st hst p hcreate hfree hp
    obtain ⟨es₁, es₂, hes, hstep⟩ := exists_split_of_mem_steps hst
    rw [hstep, hcreate] at hfree hp
    rw [hcreate] at hes
    refine not_noLeak_of_reuse rlimitAs table es₁ hfree hp (hno _ es₂ ?_)
    rw [hes, List.append_assoc]
    rfl
  · rintro hall es₁ es₂ rfl
    refine (noLeak_iff (wellFormed_final es₁)).mpr (covered_final es₁ fun st hst => hall st ?_)
    rw [steps_append]
    exact List.mem_append_left _ hst

/-- Process 0 gets the number 7, is limited and exits; process 1 gets the number 7 and counts as
limited. -/
theorem reused_pid_counts_as_limited :
    ¬ ∀ (rlimitAs : ℕ → Rlimit) (table : ProcessTable) (es : List Event),
      NoLeak (steps World.next (World.boot rlimitAs table) es)
        (final World.next (World.boot rlimitAs table) es) := by
  intro h
  let table : ProcessTable := ⟨fun _ => none, 0, by simp⟩
  let limit : Event := .call ⟨.add 7 4096, ⟨true, true, 0, 0, 0⟩, none⟩
  exact not_noLeak_of_reuse (p := 7) (fun _ => ⟨0, 0⟩) table [.create 7, limit, .exit 7]
    (by decide) (by decide) (h _ _ _)

end Taro
