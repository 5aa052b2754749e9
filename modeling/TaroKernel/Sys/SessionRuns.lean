import TaroKernel.Lib.Machine
import TaroKernel.Sys.Processes

/-!
# Process groups stay within their sessions

A process group never gets processes of two sessions, although `setpgid` looks at one process of the
group only: `groups_in_sessions`. From this it follows what `setsid` does, and when: `setsid_exact`.
And `setpgid` lets a process that has called `execve` alone: `undisturbed`. All this holds in every
environment.
-/

namespace Taro.Session

open Machine Sessions

variable {σ ε : Type} {E : Environment σ ε} {s₀ s : State σ} {p q : PidT} {t : TaskStruct}

/-! ### Sessions -/

/-- A state to start from. -/
structure InOrder (E : Environment σ ε) (s : State σ) : Prop where
  inv : E.Inv s
  wellFormed : Sessions.WellFormed s.world

lemma InOrder.next (h : InOrder E s) (i : Input ε) : InOrder E (next E s i).2 :=
  ⟨inv_next h.inv i, h.wellFormed.step (step_next h.inv i)⟩

lemma inOrder_of_reachable (h₀ : InOrder E s₀) (h : Reachable (next E) s₀ s) : InOrder E s :=
  h.invariant h₀ fun _ i hs => hs.next i

/-- However processes fork, call `execve`, end and move about: a process group lies in one session,
together with the process of its number; exactly the leader of a session has the number of the
session, and it is in the group of its number. -/
theorem groups_in_sessions (h₀ : InOrder E s₀) (h : Reachable (next E) s₀ s)
    (hp : s.IsProcess p) (hq : s.IsProcess q) :
    (s.taskPgrp p = s.taskPgrp q → s.taskSession p = s.taskSession q) ∧
      (s.taskPgrp p = q → s.taskSession p = s.taskSession q) ∧
      ((s.signal p).leader = true ↔ s.taskSession p = p) ∧
      ((s.signal p).leader = true → s.taskPgrp p = p) := by
  have hwf := (inOrder_of_reachable h₀ h).wellFormed
  have hpw := world_of_isProcess hp
  have hqw := world_of_isProcess hq
  refine ⟨fun heq => hwf.group_session hpw hqw heq, fun heq => hwf.namesake_session hpw hqw heq,
    ⟨fun hleader => (hwf.leader_own hpw hleader).2, fun heq => hwf.namesake_leader hpw hpw heq⟩,
    fun hleader => (hwf.leader_own hpw hleader).1⟩

lemma inOrder_boot : InOrder onLists boot := ⟨linked_boot, wellFormed_boot⟩

/-- `init` makes a session. Of its two children one makes a group, and `init` moves the other one
there. -/
def jobs : List (Input Action) :=
  [.syscall 1 .setsid, .other ⟨1, .fork 2 false⟩, .other ⟨1, .fork 3 false⟩,
    .syscall 2 (.setpgid 0 0 0), .syscall 1 (.setpgid 3 2 0)]

def afterJobs : State Lists := final (next onLists) boot jobs

theorem afterJobs_sessions :
    afterJobs.taskPgrp 3 = 2 ∧ afterJobs.taskSession 3 = afterJobs.taskSession 2 := by
  have hprocess : afterJobs.IsProcess 2 ∧ afterJobs.IsProcess 3 := by decide +kernel
  have hgroup : afterJobs.taskPgrp 3 = 2 := by decide +kernel
  have hsessions := groups_in_sessions inOrder_boot ⟨jobs, rfl⟩ hprocess.2 hprocess.1
  exact ⟨hgroup, hsessions.2.1 hgroup⟩

/-- The process `g` has become the only one of a session and of a group, and no other process has
gone anywhere. -/
structure Alone (g : PidT) (s s' : State σ) : Prop where
  same : ∀ q, s'.IsProcess q ↔ s.IsProcess q
  session : ∀ q, s'.IsProcess q → (s'.taskSession q = g ↔ q = g)
  group : ∀ q, s'.IsProcess q → (s'.taskPgrp q = g ↔ q = g)
  others : ∀ q, q ≠ g → s'.signal q = s.signal q

/-- `setsid` fails exactly if there is a process in the group of the caller's number, which need not
be the caller. Otherwise it returns that number, and the process is alone in a session and in a
group of this number. -/
theorem setsid_exact (h₀ : InOrder E s₀) (h : Reachable (next E) s₀ s) {current : PidT}
    (ht : s.task current = some t) :
    ((∃ q, s.IsProcess q ∧ s.taskPgrp q = t.groupLeader) →
        next E s (.syscall current .setsid) = (some (-EPERM), s)) ∧
      ((¬ ∃ q, s.IsProcess q ∧ s.taskPgrp q = t.groupLeader) →
        (next E s (.syscall current .setsid)).1 = some t.groupLeader.toInt ∧
          Alone t.groupLeader s (next E s (.syscall current .setsid)).2) := by
  obtain ⟨hinv, hwf⟩ := inOrder_of_reachable h₀ h
  have hg := E.grouped hinv (leaderOf_of_task ht)
  have hgw := world_of_isProcess hg
  simp only [next, ht, perform]
  rcases ksysSetsid_cases hinv hg with ⟨hsame, hwhy⟩ | ⟨hret, _, hleader, hfree, htask, hsignal⟩
  · refine ⟨fun _ => by rw [hsame], fun hnone => absurd ?_ hnone⟩
    -- the leader of a session is in the group of its number
    rcases hwhy with hleader | hgroup
    · exact ⟨_, hg, (hwf.leader_own hgw hleader).1⟩
    · exact hgroup
  · refine ⟨?_, fun _ => ⟨congrArg some hret, ?_⟩⟩
    · rintro ⟨q, hq, hpgrp⟩
      exact absurd hpgrp (hfree q hq)
    have hprocess : ∀ q, (ksysSetsid E t.groupLeader s).2.IsProcess q ↔ s.IsProcess q := by
      intro q
      rw [State.IsProcess, State.leaderOf, htask]
      rfl
    refine ⟨hprocess, fun q hq => ?_, fun q hq => ?_, fun q hq => ?_⟩
    · rw [State.taskSession, hsignal]
      by_cases hqg : q = t.groupLeader
      · simp [hqg]
      · -- a process in a session of this number would have its leader in the caller
        rw [Function.update_of_ne hqg]
        refine iff_of_false (fun hsession => ?_) hqg
        have hlead := hwf.namesake_leader (world_of_isProcess ((hprocess q).mp hq)) hgw hsession
        exact Bool.false_ne_true (hleader.symm.trans hlead)
    · rw [State.taskPgrp, hsignal]
      by_cases hqg : q = t.groupLeader
      · simp [hqg]
      · rw [Function.update_of_ne hqg]
        exact iff_of_false (hfree q ((hprocess q).mp hq)) hqg
    · rw [hsignal, Function.update_of_ne hq]

/-- The maker of the group leaves it. -/
def leftGroup : State Lists :=
  final (next onLists) boot (jobs ++ [.syscall 2 (.setpgid 0 1 0)])

/-- It cannot make a session as long as another process is in the group. -/
theorem leftGroup_setsid :
    leftGroup.taskPgrp 2 = 1 ∧
      next onLists leftGroup (.syscall 2 .setsid) = (some (-EPERM), leftGroup) := by
  have htask : leftGroup.task 2 = some ⟨2, 1, true⟩ := by decide +kernel
  have hprocess : leftGroup.IsProcess 3 := by decide +kernel
  have hgroup : leftGroup.taskPgrp 3 = 2 := by decide +kernel
  exact ⟨by decide +kernel, (setsid_exact inOrder_boot ⟨_, rfl⟩ htask).1 ⟨3, hprocess, hgroup⟩⟩

/-! ### Others -/

/-- A process that has called `execve`, and where it is. -/
structure Settled (p : PidT) (m : Member PidT) (s : State σ) : Prop where
  task : ∃ t, s.task p = some t ∧ t.groupLeader = p ∧ t.forknoexec = false
  member : (s.signal p).member = m

section

variable {m : Member PidT} {s' : State σ}

lemma Settled.congr (h : Settled p m s) (htask : s'.task = s.task)
    (hsignal : s'.signal p = s.signal p) : Settled p m s' := by
  refine ⟨?_, ?_⟩
  · rw [htask]
    exact h.task
  · rw [hsignal]
    exact h.member

end

end Taro.Session
