import TaroKernel.Kernel
import TaroKernel.Lib.Sessions

/-!
# Process groups and sessions

`setpgid` and `setsid` of `kernel/sys.c`, and the syscalls that read what they change: `getpgid`,
`getpgrp`, `getsid`. A process is a group of threads; the task the group was started with is its
leader, and what is said of the process is kept in the `signal_struct` its threads share.

The rest is in other files. `pid_task` and `change_pid` know which processes are in a group or a
session, and tasks are forked, call `execve`, end and are reaped by code that has nothing to do with
the syscalls here. All this is a parameter: an `Environment` says what is assumed of it.
-/

namespace Taro.Session

open Sessions (Member Turnover)

def EACCES : Int := 13

/-! ### State -/

/-- The kinds of pid, other than its own, that a process has. -/
inductive PidType where
  | pgid
  | sid
  deriving DecidableEq, Repr

/-- A `struct task_struct`; other tasks are pointed to by their pid. -/
structure TaskStruct where
  groupLeader : PidT
  realParent : PidT
  /-- `PF_FORKNOEXEC` of `flags`. -/
  forknoexec : Bool
  deriving DecidableEq, Repr

/-- A `struct signal_struct`. -/
structure SignalStruct where
  pids : PidType → PidT
  leader : Bool

/-- The tasks there are, the `signal_struct` of each process, and what other files keep. -/
structure State (σ : Type) where
  task : PidT → Option TaskStruct
  signal : PidT → SignalStruct
  rest : σ

variable {σ ε : Type}

/-- `task_pgrp` of a process. -/
def State.taskPgrp (s : State σ) (p : PidT) : PidT := (s.signal p).pids .pgid

/-- `task_session` of a process. -/
def State.taskSession (s : State σ) (p : PidT) : PidT := (s.signal p).pids .sid

/-- `same_thread_group`, with the leader of a group. -/
def State.sameThreadGroup (s : State σ) (p groupLeader : PidT) : Bool :=
  match s.task p with
  | none   => false
  | some t => t.groupLeader = groupLeader

/-- `*task_pid_ptr(task, type) = new`. -/
def State.setPid (s : State σ) (ty : PidType) (p n : PidT) : State σ :=
  { s with
    signal := Function.update s.signal p
      { s.signal p with pids := Function.update (s.signal p).pids ty n } }

/-- `task->signal->leader = 1`. -/
def State.lead (s : State σ) (p : PidT) : State σ :=
  { s with signal := Function.update s.signal p { s.signal p with leader := true } }

/-! ### Processes -/

/-- The leader of the thread group of a task. -/
def State.leaderOf (s : State σ) (p : PidT) : Option PidT :=
  (s.task p).map TaskStruct.groupLeader

/-- There is a process of this pid, be it a zombie. -/
def State.IsProcess (s : State σ) (p : PidT) : Prop := s.leaderOf p = some p

instance (s : State σ) (p : PidT) : Decidable (s.IsProcess p) :=
  inferInstanceAs (Decidable (s.leaderOf p = some p))

/-- Where a process belongs. -/
def SignalStruct.member (sig : SignalStruct) : Member PidT :=
  ⟨sig.pids .pgid, sig.pids .sid, sig.leader⟩

/-- The processes, without their threads. -/
def State.world (s : State σ) : Sessions.World PidT := fun p =>
  if s.leaderOf p = some p then some (s.signal p).member else none

/-- What other files do, in steps of the kinds `ε`, and what is assumed of it. -/
structure Environment (σ ε : Type) where
  /-- `pid_task`. -/
  pidTask : State σ → PidType → PidT → Option PidT
  /-- `change_pid`. -/
  changePid : State σ → PidType → PidT → PidT → State σ
  /-- `fork`, `clone`, `execve`, `exit`, `wait`. -/
  step : ε → State σ → State σ
  /-- What they rely on and keep up themselves. -/
  Inv : State σ → Prop
  inv_changePid : ∀ {s ty p n}, Inv s → s.IsProcess p → Inv (changePid s ty p n)
  inv_lead : ∀ {s} p, Inv s → Inv (s.lead p)
  inv_step : ∀ {s} e, Inv s → Inv (step e s)
  /-- The leader of a group of threads is there as long as one of them is. -/
  grouped : ∀ {s p g}, Inv s → s.leaderOf p = some g → s.IsProcess g
  /-- `pid_task` gives a process of the group, -/
  pidTask_some : ∀ {s n q}, Inv s → pidTask s .pgid n = some q → s.IsProcess q ∧ s.taskPgrp q = n
  /-- if there is one. -/
  pidTask_none : ∀ {s n q}, Inv s → pidTask s .pgid n = none → s.IsProcess q → s.taskPgrp q ≠ n
  /-- `change_pid` gives the process another pid of the kind, and changes nothing else here. -/
  changePid_task : ∀ {s ty p n}, (changePid s ty p n).task = s.task
  changePid_signal : ∀ {s ty p n}, (changePid s ty p n).signal = (s.setPid ty p n).signal
  /-- A new process has a pid that neither a process nor a group nor a session has, and the group
  and the session of a process; the others keep theirs. -/
  turnover_step : ∀ {s} e, Inv s → Turnover s.world (step e s).world
  /-- `PF_FORKNOEXEC` is for new tasks. -/
  forknoexec_step : ∀ {s p t t'} e, Inv s → s.IsProcess p → (step e s).IsProcess p →
    s.task p = some t → (step e s).task p = some t' → t.forknoexec = false → t'.forknoexec = false

/-! ### Syscalls -/

section Syscalls

variable (E : Environment σ ε)

/-- `change_pid`, unless the pid is the same. -/
def Environment.movePid (s : State σ) (ty : PidType) (p n : PidT) : State σ :=
  if (s.signal p).pids ty ≠ n then E.changePid s ty p n else s

/-- Whether a thread of `groupLeader` may move the process `pid`: its own, or a child that has not
called `execve` yet. -/
def mayMove (groupLeader pid : PidT) (p : TaskStruct) (s : State σ) : Int :=
  if s.sameThreadGroup p.realParent groupLeader then
    if s.taskSession pid ≠ s.taskSession groupLeader then -EPERM
    else if p.forknoexec = false then -EACCES
    else 0
  else if pid ≠ groupLeader then -ESRCH
  else 0

/-- Whether the group `pgid` is one to move to: the process's own, or one of the session. -/
def mayEnter (groupLeader pid pgid : PidT) (s : State σ) : Bool :=
  if pgid = pid then true
  else
    match E.pidTask s .pgid pgid with
    | none   => false
    | some g => s.taskSession g = s.taskSession groupLeader

/-- `setpgid`, called by a thread of `groupLeader`. -/
def setpgid (groupLeader pid pgid : PidT) (securityTaskSetpgid : Int32) (s : State σ) :
    Int × State σ :=
  let pid := if pid = 0 then groupLeader else pid
  let pgid := if pgid = 0 then pid else pgid
  if pgid < 0 then (-EINVAL, s)
  else
    match s.task pid with
    | none   => (-ESRCH, s)
    | some p =>
      if p.groupLeader ≠ pid then (-EINVAL, s)
      else if mayMove groupLeader pid p s ≠ 0 then (mayMove groupLeader pid p s, s)
      else if (s.signal pid).leader then (-EPERM, s)
      else if mayEnter E groupLeader pid pgid s = false then (-EPERM, s)
      else if securityTaskSetpgid ≠ 0 then (securityTaskSetpgid.toInt, s)
      else (0, E.movePid s .pgid pid pgid)

def setSpecialPids (curr n : PidT) (s : State σ) : State σ :=
  E.movePid (E.movePid s .sid curr n) .pgid curr n

/-- `ksys_setsid`, called by a thread of `groupLeader`. -/
def ksysSetsid (groupLeader : PidT) (s : State σ) : Int × State σ :=
  if (s.signal groupLeader).leader then (-EPERM, s)
  else if (E.pidTask s .pgid groupLeader).isSome then (-EPERM, s)
  else (groupLeader.toInt, setSpecialPids E groupLeader groupLeader (s.lead groupLeader))

/-- What `do_getpgid` and `getsid` have in common. -/
def getPid (ty : PidType) (groupLeader pid : PidT) (security : Int32) (s : State σ) : Int :=
  if pid = 0 then ((s.signal groupLeader).pids ty).toInt
  else
    match s.task pid with
    | none   => -ESRCH
    | some p => if security ≠ 0 then security.toInt else ((s.signal p.groupLeader).pids ty).toInt

def doGetpgid (groupLeader pid : PidT) (security : Int32) (s : State σ) : Int :=
  getPid .pgid groupLeader pid security s

def getsid (groupLeader pid : PidT) (security : Int32) (s : State σ) : Int :=
  getPid .sid groupLeader pid security s

/-! ### The machine -/

/-- A syscall, with the answer of the security module. -/
inductive Call where
  | setpgid (pid pgid : PidT) (security : Int32)
  | setsid
  | getpgid (pid : PidT) (security : Int32)
  | getpgrp
  | getsid (pid : PidT) (security : Int32)
  deriving DecidableEq, Repr

/-- A syscall of a task, or another step. -/
inductive Input (ε : Type) where
  | syscall (current : PidT) (call : Call)
  | other (e : ε)

/-- A syscall of a task `t` that there is. -/
def perform (s : State σ) (t : TaskStruct) : Call → Int × State σ
  | .setpgid pid pgid security => setpgid E t.groupLeader pid pgid security s
  | .setsid                    => ksysSetsid E t.groupLeader s
  | .getpgid pid security      => (doGetpgid t.groupLeader pid security s, s)
  | .getpgrp                   => (doGetpgid t.groupLeader 0 0 s, s)
  | .getsid pid security       => (getsid t.groupLeader pid security s, s)

def next (s : State σ) : Input ε → Option Int × State σ
  | .syscall current call =>
    match s.task current with
    | none   => (none, s)
    | some t => (some (perform E s t call).1, (perform E s t call).2)
  | .other e => (none, E.step e s)

end Syscalls

end Taro.Session
