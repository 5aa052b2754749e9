import TaroKernel.Sys.Sessions

/-!
# Tasks as processes of sessions

The state refines the processes of `Sessions`: whatever the environment, every syscall and every
other step is a step there: `step_next`.
-/

namespace Taro.Session

open Sessions

variable {σ ε : Type} {s s' : State σ} {p q n : PidT} {ty : PidType} {t : TaskStruct}

/-! ### Processes -/

lemma leaderOf_of_task (h : s.task p = some t) : s.leaderOf p = some t.groupLeader := by
  rw [State.leaderOf, h]
  rfl

lemma leaderOf_eq_none (h : s.task p = none) : s.leaderOf p = none := by
  rw [State.leaderOf, h]
  rfl

lemma world_eq_some_iff {m : Member PidT} :
    s.world p = some m ↔ s.IsProcess p ∧ (s.signal p).member = m := by
  rw [State.world, State.IsProcess]
  split_ifs with h <;> simp [h]

lemma world_of_isProcess (hp : s.IsProcess p) : s.world p = some (s.signal p).member :=
  world_eq_some_iff.mpr ⟨hp, rfl⟩

/-- Two states with the same processes, in the same places. -/
lemma world_congr (hprocess : ∀ p, s'.IsProcess p ↔ s.IsProcess p)
    (hmember : ∀ p, s.IsProcess p → (s'.signal p).member = (s.signal p).member) :
    s'.world = s.world := by
  funext p
  refine Option.ext fun m => ?_
  rw [world_eq_some_iff, world_eq_some_iff, hprocess]
  refine and_congr_right fun hp => ?_
  rw [hmember p hp]

/-- The world with one process somewhere else. -/
lemma world_update (hp : s.IsProcess p) (hprocess : ∀ q, s'.IsProcess q ↔ s.IsProcess q)
    (hothers : ∀ q, q ≠ p → (s'.signal q).member = (s.signal q).member) :
    s'.world = Function.update s.world p (some (s'.signal p).member) := by
  funext q
  by_cases hq : q = p
  · subst hq
    rw [Function.update_self, world_of_isProcess ((hprocess q).mpr hp)]
  · rw [Function.update_of_ne hq]
    refine Option.ext fun m => ?_
    rw [world_eq_some_iff, world_eq_some_iff, hprocess, hothers q hq]

variable {E : Environment σ ε}

/-! ### Moving a process -/

@[simp] lemma movePid_task : (E.movePid s ty p n).task = s.task := by
  rw [Environment.movePid]
  split_ifs
  · exact E.changePid_task
  · rfl

@[simp] lemma movePid_signal : (E.movePid s ty p n).signal = Function.update s.signal p
    { s.signal p with pids := Function.update (s.signal p).pids ty n } := by
  rw [Environment.movePid]
  split_ifs with h
  · exact E.changePid_signal
  · rw [← not_not.mp h, Function.update_eq_self, Function.update_eq_self]

@[simp] lemma isProcess_movePid : (E.movePid s ty p n).IsProcess q ↔ s.IsProcess q := by
  rw [State.IsProcess, State.leaderOf, movePid_task]
  rfl

lemma inv_movePid (h : E.Inv s) (hp : s.IsProcess p) : E.Inv (E.movePid s ty p n) := by
  rw [Environment.movePid]
  split_ifs
  · exact E.inv_changePid h hp
  · exact h

/-! ### `setpgid` -/

/-- What a thread of `g` needs to move the process `p`. -/
structure Moves (s : State σ) (g p : PidT) : Prop where
  process : s.IsProcess p
  not_leader : (s.signal p).leader = false
  session : s.taskSession p = s.taskSession g
  /-- Its own process, or a child that has not called `execve`. -/
  own : p = g ∨ ∃ t, s.task p = some t ∧ s.sameThreadGroup t.realParent g = true ∧
    t.forknoexec = true

lemma moves_of_mayMove {g : PidT} (hp : s.task p = some t) (hleader : t.groupLeader = p)
    (hnot : ¬ (s.signal p).leader = true) (h : mayMove g p t s = 0) : Moves s g p := by
  have hprocess : s.IsProcess p := (leaderOf_of_task hp).trans (congrArg some hleader)
  rw [mayMove] at h
  split_ifs at h with hchild hsession hexec hself
  · -- a child in another session
    exact absurd h (by decide)
  · -- a child that has called `execve`
    exact absurd h (by decide)
  · exact ⟨hprocess, Bool.not_eq_true _ ▸ hnot, not_not.mp hsession,
      Or.inr ⟨t, hp, hchild, Bool.not_eq_false _ ▸ hexec⟩⟩
  · -- neither a child nor the caller
    exact absurd h (by decide)
  · obtain rfl := not_not.mp hself
    exact ⟨hprocess, Bool.not_eq_true _ ▸ hnot, rfl, Or.inl rfl⟩

/-- The group to move to is new, or there is a process of the session in it. -/
lemma exists_of_mayEnter (h : E.Inv s) {g : PidT} (henter : mayEnter E g p n s = true) :
    n = p ∨ ∃ q, s.IsProcess q ∧ s.taskPgrp q = n ∧ s.taskSession q = s.taskSession g := by
  rw [mayEnter] at henter
  split_ifs at henter with hown
  · exact Or.inl hown
  · right
    cases hg : E.pidTask s .pgid n with
    | none =>
      rw [hg] at henter
      cases henter
    | some q =>
      rw [hg] at henter
      obtain ⟨hq, hpgrp⟩ := E.pidTask_some h hg
      exact ⟨q, hq, hpgrp, of_decide_eq_true henter⟩

/-- `setpgid` changes nothing, or it moves a process to its own group or to one of its session. -/
lemma setpgid_cases (h : E.Inv s) (g pid pgid : PidT) (security : Int32) :
    (setpgid E g pid pgid security s).2 = s ∨
      ∃ p n, Moves s g p ∧
        (n = p ∨ ∃ q, s.IsProcess q ∧ s.taskPgrp q = n ∧ s.taskSession q = s.taskSession g) ∧
        setpgid E g pid pgid security s = (0, E.movePid s .pgid p n) := by
  simp only [setpgid]
  generalize (if pid = 0 then g else pid) = p
  generalize (if pgid = 0 then p else pgid) = n
  by_cases hneg : n < 0
  · rw [if_pos hneg]
    exact Or.inl rfl
  · rw [if_neg hneg]
    cases hp : s.task p with
    | none => exact Or.inl rfl
    | some t =>
      dsimp only
      -- the refusals, in the order of the source; the last case is the move
      split_ifs with hthread hmove hleader henter hsecurity
      · exact Or.inl rfl
      · exact Or.inl rfl
      · exact Or.inl rfl
      · exact Or.inl rfl
      · exact Or.inl rfl
      · exact Or.inr ⟨p, n, moves_of_mayMove hp (not_not.mp hthread) hleader (not_not.mp hmove),
          exists_of_mayEnter h (Bool.not_eq_false _ ▸ henter), rfl⟩

lemma step_movePid_pgid {g : PidT} (hmoves : Moves s g p)
    (hn : n = p ∨ ∃ q, s.IsProcess q ∧ s.taskPgrp q = n ∧ s.taskSession q = s.taskSession g) :
    Step s.world (E.movePid s .pgid p n).world := by
  have hworld := world_of_isProcess hmoves.process
  have hmoved : (E.movePid s .pgid p n).world = Function.update s.world p
      (some { (s.signal p).member with group := n }) := by
    rw [world_update hmoves.process fun _ => isProcess_movePid]
    · simp [SignalStruct.member]
    · intro q hq
      rw [movePid_signal, Function.update_of_ne hq]
  rw [hmoved]
  rcases hn with rfl | ⟨q, hq, rfl, hsession⟩
  · exact Step.found hworld hmoves.not_leader
  · exact Step.join hworld hmoves.not_leader (world_of_isProcess hq)
      (hsession.trans hmoves.session.symm)

/-! ### `setsid` -/

lemma isSome_pidTask_iff (h : E.Inv s) :
    (E.pidTask s .pgid n).isSome = true ↔ ∃ q, s.IsProcess q ∧ s.taskPgrp q = n := by
  cases hn : E.pidTask s .pgid n with
  | none =>
    refine iff_of_false (by simp) ?_
    rintro ⟨q, hq, hpgrp⟩
    exact E.pidTask_none h hn hq hpgrp
  | some q => exact iff_of_true rfl ⟨q, E.pidTask_some h hn⟩

lemma setSpecialPids_task (p : PidT) (s : State σ) : (setSpecialPids E p p s).task = s.task := by
  rw [setSpecialPids, movePid_task, movePid_task]

lemma setSpecialPids_signal (p : PidT) (s : State σ) : (setSpecialPids E p p s).signal =
    Function.update s.signal p { s.signal p with pids := fun _ => p } := by
  have hpids : Function.update (Function.update (s.signal p).pids .sid p) .pgid p = fun _ => p := by
    funext ty
    cases ty <;> rfl
  rw [setSpecialPids, movePid_signal, movePid_signal, Function.update_self, Function.update_idem,
    hpids]

/-- `setsid` changes nothing, or the process is alone in a session and a group of its pid. -/
lemma ksysSetsid_cases (h : E.Inv s) {g : PidT} (hg : s.IsProcess g) :
    ksysSetsid E g s = (-EPERM, s) ∧ ((s.signal g).leader = true ∨
        ∃ q, s.IsProcess q ∧ s.taskPgrp q = g) ∨
      (ksysSetsid E g s).1 = g.toInt ∧ E.Inv (ksysSetsid E g s).2 ∧
        (s.signal g).leader = false ∧ (∀ q, s.IsProcess q → s.taskPgrp q ≠ g) ∧
        (ksysSetsid E g s).2.task = s.task ∧
        (ksysSetsid E g s).2.signal = Function.update s.signal g ⟨fun _ => g, true⟩ := by
  simp only [ksysSetsid]
  split_ifs with hleader hgroup
  · exact Or.inl ⟨rfl, Or.inl hleader⟩
  · exact Or.inl ⟨rfl, Or.inr ((isSome_pidTask_iff h).mp hgroup)⟩
  · right
    have hg' : (s.lead g).IsProcess g := hg
    refine ⟨rfl, inv_movePid (inv_movePid (E.inv_lead g h) hg') (isProcess_movePid.mpr hg'),
      Bool.not_eq_true _ ▸ hleader, ?_, setSpecialPids_task g _, ?_⟩
    · intro q hq hpgrp
      exact hgroup ((isSome_pidTask_iff h).mpr ⟨q, hq, hpgrp⟩)
    · rw [setSpecialPids_signal]
      simp [State.lead]

lemma step_ksysSetsid (h : E.Inv s) {g : PidT} (hg : s.IsProcess g) :
    Step s.world (ksysSetsid E g s).2.world := by
  rcases ksysSetsid_cases h hg with ⟨hsame, _⟩ | ⟨_, _, _, hfree, htask, hsignal⟩
  · rw [hsame]
    exact Step.turnover (.refl _)
  · have hworld : (ksysSetsid E g s).2.world = Function.update s.world g (some ⟨g, g, true⟩) := by
      rw [world_update hg]
      · rw [hsignal, Function.update_self]
        rfl
      · intro q
        rw [State.IsProcess, State.leaderOf, htask]
        rfl
      · intro q hq
        rw [hsignal, Function.update_of_ne hq]
    rw [hworld]
    refine Step.setsid (world_of_isProcess hg) fun q mq hq => ?_
    obtain ⟨hprocess, rfl⟩ := world_eq_some_iff.mp hq
    exact hfree q hprocess

/-! ### Steps -/

lemma inv_perform (h : E.Inv s) (ht : s.task p = some t) (call : Call) :
    E.Inv (perform E s t call).2 := by
  cases call with
  | setpgid pid pgid security =>
    rcases setpgid_cases h t.groupLeader pid pgid security with hsame | ⟨p, n, hmoves, _, heq⟩
    · simp only [perform, hsame]
      exact h
    · simp only [perform, heq]
      exact inv_movePid h hmoves.process
  | setsid =>
    rcases ksysSetsid_cases h (E.grouped h (leaderOf_of_task ht)) with ⟨hsame, _⟩ | ⟨_, hinv, _⟩
    · simp only [perform, hsame]
      exact h
    · exact hinv
  -- the others only read
  | getpgid pid security => exact h
  | getpgrp => exact h
  | getsid pid security => exact h

lemma step_perform (h : E.Inv s) (ht : s.task p = some t) (call : Call) :
    Step s.world (perform E s t call).2.world := by
  cases call with
  | setpgid pid pgid security =>
    rcases setpgid_cases h t.groupLeader pid pgid security with hsame | ⟨p, n, hmoves, hn, heq⟩
    · simp only [perform, hsame]
      exact Step.turnover (.refl _)
    · simp only [perform, heq]
      exact step_movePid_pgid hmoves hn
  | setsid => exact step_ksysSetsid h (E.grouped h (leaderOf_of_task ht))
  | getpgid pid security => exact Step.turnover (.refl _)
  | getpgrp => exact Step.turnover (.refl _)
  | getsid pid security => exact Step.turnover (.refl _)

lemma inv_next (h : E.Inv s) (i : Input ε) : E.Inv (next E s i).2 := by
  cases i with
  | other e => exact E.inv_step e h
  | syscall current call =>
    rw [next]
    cases ht : s.task current with
    | none => exact h
    | some t => exact inv_perform h ht call

/-- Everything that happens is a step that `Sessions` knows. -/
lemma step_next (h : E.Inv s) (i : Input ε) : Step s.world (next E s i).2.world := by
  cases i with
  | other e => exact Step.turnover (E.turnover_step e h)
  | syscall current call =>
    rw [next]
    cases ht : s.task current with
    | none => exact Step.turnover (.refl _)
    | some t => exact step_perform h ht call

end Taro.Session
