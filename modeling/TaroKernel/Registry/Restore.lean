import TaroKernel.Registry.Effects
import TaroKernel.Registry.Invariant

/-!
# What remove gives back

Between an add of a pid and its remove the registry passes through states that differ from those
of a run without the pid by one entry; the remove takes this entry out. The `RLIMIT_AS` of the
process is not given back: it stays at the limit installed last.
-/

namespace Taro

open Keyed Machine

variable {Signal : Type*}

/-- An update of `p`, which denotes a task of the process with `signal_struct` `g`. -/
def UpdateOf (p : PidT) (g : Signal) (i : Invocation Signal) : Prop :=
  (∃ L, i.call = .update p L) ∧ ∀ task, i.task = some task → task.signal = g

/-- A call that is not about `p` nor about the process with `signal_struct` `g`. -/
def OnOther (p : PidT) (g : Signal) (i : Invocation Signal) : Prop :=
  i.call.target ≠ some p ∧ ∀ task, i.task = some task → task.signal ≠ g

/-- The limit in force after the call `i`, when it was `L` before: an update of `p` takes effect if
its limit is not zero, the process exists and fits into it, and the LSM grants it. -/
def installedBy (p : PidT) (L : SizeT) (i : Invocation Signal) : SizeT :=
  match i.call, i.outcomes.findTaskByVpid with
  | .update q L', some task =>
    if q = p ∧ L' ≠ 0 ∧ exceedsLimit task L' = false ∧ i.outcomes.securityTaskSetrlimit = 0 then L'
    else L
  | _, _ => L

lemma installedBy_update {p : PidT} {L M : SizeT} {o : Outcomes Signal} {task : TaskStruct Signal}
    (hfind : o.findTaskByVpid = some task) :
    installedBy p M ⟨.update p L, o⟩ =
      if L ≠ 0 ∧ exceedsLimit task L = false ∧ o.securityTaskSetrlimit = 0 then L else M := by
  simp only [installedBy, hfind, true_and]

/-- The limit in force after all of `is`. -/
def lastLimit (p : PidT) (L : SizeT) (is : List (Invocation Signal)) : SizeT :=
  is.foldl (installedBy p) L

/-- The calls that are not about `p`. -/
def withoutPid (p : PidT) (is : List (Invocation Signal)) : List (Invocation Signal) :=
  is.filter fun i => i.call.target ≠ some p

lemma withoutPid_cons_of_eq {p : PidT} {i : Invocation Signal} {is : List (Invocation Signal)}
    (h : i.call.target = some p) : withoutPid p (i :: is) = withoutPid p is :=
  List.filter_cons_of_neg (by simp [h])

lemma withoutPid_cons_of_ne {p : PidT} {i : Invocation Signal} {is : List (Invocation Signal)}
    (h : i.call.target ≠ some p) : withoutPid p (i :: is) = i :: withoutPid p is :=
  List.filter_cons_of_pos (by simp [h])

variable [DecidableEq Signal] {s s' full base : Kernel Signal} {i : Invocation Signal} {p : PidT}
  {g : Signal} {L : SizeT}

/-! ### Calls about other pids -/

/-- A call that is not about `p` does to a registry without `p` what it does to one with it. -/
lemma memoryLimitList_syscall_unlink (hp : i.call.target ≠ some p)
    (h : base.memoryLimitList = unlink MemoryLimitation.pid p full.memoryLimitList) :
    (syscall base i).2.memoryLimitList =
      unlink MemoryLimitation.pid p (syscall full i).2.memoryLimitList := by
  cases hq : i.call.target with
  | none => rwa [syscall_snd_of_target_eq_none hq, syscall_snd_of_target_eq_none hq]
  | some q =>
    have hne : q ≠ p := fun heq => hp (heq ▸ hq)
    have hmem : q ∈ base.pids ↔ q ∈ full.pids := by
      rw [Kernel.pids, h]
      exact Edit.mem_pids_apply_of_ne (e := .unlink) hne
    rw [syscall_eq_decision hq, syscall_eq_decision hq]
    simp only [hmem, Decision.run, h]
    apply Edit.apply_comm (f := .unlink) hne
    rintro L M ⟨-, hM⟩
    cases hM

lemma rlimitAs_syscall_of_ne (h : ∀ task, i.task = some task → task.signal ≠ g) :
    (syscall s i).2.rlimitAs g = s.rlimitAs g := by
  cases hq : i.call.target with
  | none => rw [syscall_snd_of_target_eq_none hq]
  | some q =>
    rw [syscall_eq_decision hq]
    apply Decision.install_of_ne
    intro g' L hd
    obtain ⟨task, htask, rfl⟩ := Invocation.task_of_decision_rlimit hd
    exact h task htask

lemma mem_pids_syscall_of_ne (hp : i.call.target ≠ some p) (hmem : p ∈ s.pids) :
    p ∈ (syscall s i).2.pids := by
  cases hq : i.call.target with
  | none => rwa [syscall_snd_of_target_eq_none hq]
  | some q =>
    have hne : p ≠ q := fun heq => hp (heq ▸ hq)
    rw [syscall_eq_decision hq]
    exact (Edit.mem_pids_apply_of_ne hne).mpr hmem

/-! ### The window between add and remove -/

/-- How the run with `p` stands to the run without it while `p` is registered: the registries
differ by the entry of `p`, and `M` is the limit in force for its process. -/
structure InWindow (p : PidT) (g : Signal) (M : SizeT) (full base : Kernel Signal) : Prop where
  registry : base.memoryLimitList = unlink MemoryLimitation.pid p full.memoryLimitList
  registered : p ∈ full.pids
  rlimit : full.rlimitAs g = rlimitOf M

lemma InWindow.onOther {M : SizeT} (h : InWindow p g M full base) (hi : OnOther p g i) :
    InWindow p g M (syscall full i).2 (syscall base i).2 where
  registry := memoryLimitList_syscall_unlink hi.1 h.registry
  registered := mem_pids_syscall_of_ne hi.1 h.registered
  rlimit := (rlimitAs_syscall_of_ne hi.2).trans h.rlimit

lemma InWindow.updateOf {M : SizeT} (h : InWindow p g M full base) (hp : 0 ≤ p)
    (hi : UpdateOf p g i) : InWindow p g (installedBy p M i) (syscall full i).2 base := by
  obtain ⟨c, o⟩ := i
  obtain ⟨⟨L, hc⟩, htask⟩ := hi
  dsimp only at hc
  subst hc
  have hforget : unlink MemoryLimitation.pid p (storeLimit p L full.memoryLimitList) =
      unlink MemoryLimitation.pid p full.memoryLimitList := unlink_modify_self fun _ => rfl
  have hpids : p ∈ (storeLimit p L full.memoryLimitList).map MemoryLimitation.pid := by
    rw [map_pid_storeLimit]
    exact h.registered
  have hexit := exit_syscall full ⟨.update p L, o⟩
  generalize (syscall full ⟨.update p L, o⟩).1 = r at hexit
  generalize (syscall full ⟨.update p L, o⟩).2 = full' at hexit ⊢
  cases hexit with
  | updateRefused hb =>
    -- `p` is a valid pid, so the limit was zero or there is no process
    have hnone : installedBy p M ⟨.update p L, o⟩ = M := by
      cases hfind : o.findTaskByVpid with
      | none => simp only [installedBy, hfind]
      | some task =>
        rw [installedBy_update hfind]
        apply if_neg
        rintro ⟨hL, _, _⟩
        rw [beforeMutex_eq_ok_iff.mpr ⟨hp, hL, hfind⟩] at hb
        cases hb
    rw [hnone]
    exact h
  | updateMissing hb hmem => exact absurd h.registered hmem
  | updateExceeds hb ht hx =>
    obtain ⟨_, _, hfind⟩ := beforeMutex_eq_ok_iff.mp hb
    have hsame : installedBy p M ⟨.update p L, o⟩ = M := by
      rw [installedBy_update hfind]
      exact if_neg (by simp [hx])
    rw [hsame]
    exact h
  | updatePerm hb ht hx hlsm =>
    obtain ⟨_, _, hfind⟩ := beforeMutex_eq_ok_iff.mp hb
    have hsame : installedBy p M ⟨.update p L, o⟩ = M := by
      rw [installedBy_update hfind]
      exact if_neg fun h => hlsm h.2.2
    rw [hsame]
    exact ⟨h.registry.trans hforget.symm, hpids, h.rlimit⟩
  | @updateOk _ _ task _ hb ht hx hlsm =>
    obtain ⟨_, hL, hfind⟩ := beforeMutex_eq_ok_iff.mp hb
    have hnew : installedBy p M ⟨.update p L, o⟩ = L := by
      rw [installedBy_update hfind]
      exact if_pos ⟨hL, hx, hlsm⟩
    have hg : task.signal = g := htask task hfind
    rw [hnew]
    refine ⟨h.registry.trans hforget.symm, hpids, ?_⟩
    dsimp only
    rw [hg, Function.update_self]

lemma InWindow.run {M : SizeT} (h : InWindow p g M full base) (hp : 0 ≤ p)
    (is : List (Invocation Signal)) (his : ∀ i ∈ is, UpdateOf p g i ∨ OnOther p g i) :
    InWindow p g (lastLimit p M is) (final syscall full is)
      (final syscall base (withoutPid p is)) := by
  induction is generalizing full base M with
  | nil => exact h
  | cons i is ih =>
    obtain ⟨hi, his⟩ := List.forall_mem_cons.mp his
    have hlast : lastLimit p M (i :: is) = lastLimit p (installedBy p M i) is := rfl
    rw [hlast]
    rcases hi with hi | hi
    · obtain ⟨L, hc⟩ := hi.1
      rw [withoutPid_cons_of_eq (by rw [hc]; rfl)]
      exact ih (h.updateOf hp hi) his
    · have hsame : installedBy p M i = M := by
        obtain ⟨c, o⟩ := i
        cases c with
        | update q L =>
          have hq : q ≠ p := fun heq => hi.1 (heq ▸ rfl)
          cases hfind : o.findTaskByVpid with
          | none => simp [installedBy, hfind]
          | some task => simp [installedBy, hfind, hq]
        | _ => rfl
      rw [withoutPid_cons_of_ne hi.1, hsame]
      exact ih (h.onOther hi) his

/-- Let `p` be unregistered and denote a process with `signal_struct` `g`. Add it, update it and do
anything to other processes in any order, and remove it again, add and remove returning 0. The
registry is then what it would be without the calls about `p`, and the `RLIMIT_AS` of the process
is what it was before, exactly when it already was the limit installed last. -/
theorem remove_restores_iff (s : Kernel Signal) (p : PidT) (g : Signal) (L : SizeT)
    (o o' : Outcomes Signal) (is : List (Invocation Signal)) (hp : p ∉ s.pids)
    (hg : ∀ task, o.findTaskByVpid = some task → task.signal = g)
    (his : ∀ i ∈ is, UpdateOf p g i ∨ OnOther p g i)
    (hadd : (syscall s ⟨.add p L, o⟩).1.code = 0)
    (hrem : (syscall (final syscall s (⟨.add p L, o⟩ :: is)) ⟨.remove p, o'⟩).1.code = 0) :
    ((final syscall s (⟨.add p L, o⟩ :: is ++ [⟨.remove p, o'⟩])).rlimitAs g = s.rlimitAs g ∧
      (final syscall s (⟨.add p L, o⟩ :: is ++ [⟨.remove p, o'⟩])).memoryLimitList =
        (final syscall s (withoutPid p is)).memoryLimitList) ↔
      s.rlimitAs g = rlimitOf (lastLimit p L is) := by
  obtain ⟨task, hb, _, hs₁⟩ := (exit_syscall s ⟨.add p L, o⟩).add_ok hadd
  obtain ⟨hp₀, _, hfind⟩ := beforeMutex_eq_ok_iff.mp hb
  -- right after the add
  have hstart : InWindow p g L (syscall s ⟨.add p L, o⟩).2 s := by
    rw [hs₁]
    refine ⟨(unlink_append_entry hp).symm, by simp [Kernel.pids], ?_⟩
    dsimp only
    rw [hg task hfind, Function.update_self]
  have hend := hstart.run hp₀ is his
  rw [final_cons] at hrem
  obtain ⟨_, _, hs₂⟩ := (exit_syscall _ ⟨.remove p, o'⟩).remove_ok hrem
  have hfinal : final syscall s (⟨.add p L, o⟩ :: is ++ [⟨.remove p, o'⟩]) =
      (syscall (final syscall (syscall s ⟨.add p L, o⟩).2 is) ⟨.remove p, o'⟩).2 := by
    rw [List.cons_append, final_cons, final_append]
    rfl
  rw [hfinal, hs₂]
  dsimp only
  rw [hend.rlimit, hend.registry]
  exact ⟨fun h => h.1.symm, fun h => ⟨h.symm, rfl⟩⟩

/-- A process whose `RLIMIT_AS` was 4096 already gets it back. -/
theorem remove_restores_equal_limit :
    let s : Kernel Unit := boot fun _ => ⟨4096, 4096⟩
    let o : Outcomes Unit := ⟨⟨true, true, 0, 0, 0⟩, some ⟨⟨1, ()⟩, none⟩⟩
    (final syscall s (⟨.add 7 4096, o⟩ :: [] ++ [⟨.remove 7, o⟩])).rlimitAs () = s.rlimitAs () ∧
      (final syscall s (⟨.add 7 4096, o⟩ :: [] ++ [⟨.remove 7, o⟩])).memoryLimitList =
        (final syscall s (withoutPid 7 [])).memoryLimitList := by
  intro s o
  refine (remove_restores_iff s 7 () 4096 o o [] ?_ ?_ ?_ ?_ ?_).mpr rfl
  · simp [s, boot, Kernel.pids]
  · simp
  · simp
  · decide
  · decide

/-- A process without a limit, added with 4096 and removed, keeps 4096. -/
theorem remove_keeps_rlimit :
    ¬ ∀ (rlimitAs : Unit → Rlimit) (s : Kernel Unit), Reachable syscall (boot rlimitAs) s →
      ∀ (p : PidT) (g : Unit) (L : SizeT) (o o' : Outcomes Unit) (is : List (Invocation Unit)),
      p ∉ s.pids → (∀ task, o.findTaskByVpid = some task → task.signal = g) →
      (∀ i ∈ is, UpdateOf p g i ∨ OnOther p g i) →
      (syscall s ⟨.add p L, o⟩).1.code = 0 →
      (syscall (final syscall s (⟨.add p L, o⟩ :: is)) ⟨.remove p, o'⟩).1.code = 0 →
      (final syscall s (⟨.add p L, o⟩ :: is ++ [⟨.remove p, o'⟩])).rlimitAs g = s.rlimitAs g ∧
        (final syscall s (⟨.add p L, o⟩ :: is ++ [⟨.remove p, o'⟩])).memoryLimitList =
          (final syscall s (withoutPid p is)).memoryLimitList := by
  intro h
  let unlimited : Unit → Rlimit := fun _ => ⟨18446744073709551615, 18446744073709551615⟩
  let o : Outcomes Unit := ⟨⟨true, true, 0, 0, 0⟩, some ⟨⟨1, ()⟩, none⟩⟩
  have hback := h unlimited (boot unlimited) (Reachable.refl _) 7 () 4096 o o [] (by decide)
    (by simp) (by simp) (by decide) (by decide)
  exact absurd hback.1 (by decide)

end Taro
