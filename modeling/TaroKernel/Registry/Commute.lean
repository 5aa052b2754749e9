import TaroKernel.Registry.Checks
import TaroKernel.Registry.Effects

/-!
# Calls about different processes

Two calls about different pids and different processes can be made in either order: each decides
the same, their edits concern different entries and their limits different processes. The one
trace the order leaves is that of two entries appended the later one stands last.
-/

namespace Taro

open Machine

variable {Signal : Type*} [DecidableEq Signal] {s : Kernel Signal} {i j : Invocation Signal}
  {p q : PidT}

lemma Call.Mutating.exists_target {c : Call} (h : c.Mutating) : ∃ p, c.target = some p := by
  cases c with
  | get u n c => exact h.elim
  | add p L | update p L | remove p => exact ⟨p, rfl⟩

/-- An add that returns 0. -/
def SuccessfulAdd (s : Kernel Signal) (i : Invocation Signal) : Prop :=
  ∃ p L, i.call = .add p L ∧ (syscall s i).1.code = 0

lemma successfulAdd_iff (hp : i.call.target = some p) :
    SuccessfulAdd s i ↔ ∃ L, (i.decision (p ∈ s.pids)).edit = .append L := by
  simp only [SuccessfulAdd, syscall_eq_decision hp, Invocation.decision_edit_append_iff]
  exact exists_comm

/-- A call about another pid does not change what a call decides. -/
lemma decision_after (i : Invocation Signal) (hq : j.call.target = some q) (hne : p ≠ q) :
    i.decision (p ∈ (syscall s j).2.pids) = i.decision (p ∈ s.pids) := by
  have hmem : p ∈ (syscall s j).2.pids ↔ p ∈ s.pids := by
    rw [syscall_eq_decision hq]
    exact Edit.mem_pids_apply_of_ne hne
  simp only [hmem]

/-- Either order: the second call acts on the decision it would have made first. -/
lemma syscall_after (hp : i.call.target = some p) (hq : j.call.target = some q) (hne : p ≠ q) :
    syscall (syscall s j).2 i = ((syscall s i).1,
      (i.decision (p ∈ s.pids)).run p ((j.decision (q ∈ s.pids)).run q s)) := by
  rw [syscall_eq_decision hp, decision_after i hq hne, syscall_eq_decision hp,
    syscall_eq_decision hq]

section Runs

variable {d e : Decision Signal} {L M : SizeT}

lemma Decision.memoryLimitList_run_append (hd : d.edit = .append L) (he : e.edit = .append M) :
    (e.run q (d.run p s)).memoryLimitList = s.memoryLimitList ++ [⟨p, L⟩, ⟨q, M⟩] := by
  simp [Decision.run, Edit.apply, hd, he]

lemma Decision.memoryLimitList_run_comm (hne : p ≠ q)
    (hde : ¬ ((∃ L, d.edit = .append L) ∧ ∃ M, e.edit = .append M)) :
    (e.run q (d.run p s)).memoryLimitList = (d.run p (e.run q s)).memoryLimitList := by
  apply Edit.apply_comm hne.symm
  rintro M L ⟨hM, hL⟩
  exact hde ⟨⟨L, hL⟩, M, hM⟩

end Runs

/-- Calls install limits for the processes they looked up. -/
lemma install_comm_of_tasks (rlimitAs : Signal → Rlimit) (a b : Bool)
    (htask : ∀ t u, i.task = some t → j.task = some u → t.signal ≠ u.signal) :
    (j.decision b).install ((i.decision a).install rlimitAs) =
      (i.decision a).install ((j.decision b).install rlimitAs) := by
  apply Decision.install_comm
  intro g L g' L' hg hg'
  obtain ⟨t, ht, rfl⟩ := Invocation.task_of_decision_rlimit hg
  obtain ⟨u, hu, rfl⟩ := Invocation.task_of_decision_rlimit hg'
  exact (htask u t hu ht).symm

/-- Two calls about different pids, whose tasks, if they have any, belong to different processes.
In either order each returns the same code, every process ends up with the same `RLIMIT_AS`, and
the registries have the same entries: in the same order, unless both calls are adds that succeed,
in which case the last two entries are swapped. -/
theorem syscall_comm (s : Kernel Signal) (i j : Invocation Signal) (hi : i.call.Mutating)
    (hj : j.call.Mutating) (hpid : i.call.target ≠ j.call.target)
    (htask : ∀ t u, i.task = some t → j.task = some u → t.signal ≠ u.signal) :
    (syscall (syscall s j).2 i).1 = (syscall s i).1 ∧
    (syscall (syscall s i).2 j).1 = (syscall s j).1 ∧
    (final syscall s [i, j]).rlimitAs = (final syscall s [j, i]).rlimitAs ∧
    ((final syscall s [i, j]).memoryLimitList.Perm (final syscall s [j, i]).memoryLimitList) ∧
    (¬ (SuccessfulAdd s i ∧ SuccessfulAdd s j) →
      (final syscall s [i, j]).memoryLimitList = (final syscall s [j, i]).memoryLimitList) ∧
    (SuccessfulAdd s i ∧ SuccessfulAdd s j →
      ∃ l e f, (final syscall s [i, j]).memoryLimitList = l ++ [e, f] ∧
        (final syscall s [j, i]).memoryLimitList = l ++ [f, e]) := by
  obtain ⟨p, hp⟩ := hi.exists_target
  obtain ⟨q, hq⟩ := hj.exists_target
  have hne : p ≠ q := by
    rintro rfl
    exact hpid (hp.trans hq.symm)
  simp only [final_cons, final_nil, syscall_after hp hq hne, syscall_after hq hp hne.symm,
    true_and]
  rw [successfulAdd_iff hp, successfulAdd_iff hq]
  have hrlimit := install_comm_of_tasks s.rlimitAs (p ∈ s.pids) (q ∈ s.pids) htask
  -- neither call changes what the other decides
  generalize i.decision (p ∈ s.pids) = d at hrlimit ⊢
  generalize j.decision (q ∈ s.pids) = e at hrlimit ⊢
  refine ⟨hrlimit, ?_, Decision.memoryLimitList_run_comm hne, ?_⟩
  · by_cases hadds : (∃ L, d.edit = .append L) ∧ ∃ M, e.edit = .append M
    · obtain ⟨⟨L, hL⟩, M, hM⟩ := hadds
      rw [Decision.memoryLimitList_run_append hL hM, Decision.memoryLimitList_run_append hM hL]
      exact (List.Perm.swap _ _ _).append_left _
    · rw [Decision.memoryLimitList_run_comm hne hadds]
  · rintro ⟨⟨L, hL⟩, M, hM⟩
    exact ⟨_, _, _, Decision.memoryLimitList_run_append hL hM,
      Decision.memoryLimitList_run_append hM hL⟩

/-- Limiting processes 7 and 8 in either order. -/
theorem two_adds_comm :
    let add (p : PidT) (g : Bool) : Invocation Bool :=
      ⟨.add p 4096, ⟨⟨true, true, 0, 0, 0⟩, some ⟨⟨1, g⟩, none⟩⟩⟩
    ∃ l e f, (final syscall (boot fun _ => ⟨0, 0⟩) [add 7 true, add 8 false]).memoryLimitList =
        l ++ [e, f] ∧
      (final syscall (boot fun _ => ⟨0, 0⟩) [add 8 false, add 7 true]).memoryLimitList =
        l ++ [f, e] := by
  intro add
  have htask : ∀ t u, (add 7 true).task = some t → (add 8 false).task = some u →
      t.signal ≠ u.signal := by
    rintro t u ht hu
    cases ht
    cases hu
    decide
  exact (syscall_comm (boot fun _ => ⟨0, 0⟩) (add 7 true) (add 8 false) trivial trivial (by decide)
    htask).2.2.2.2.2 ⟨⟨7, 4096, rfl, by decide⟩, 8, 4096, rfl, by decide⟩

end Taro
