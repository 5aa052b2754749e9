import TaroKernel.Sys.SessionRefinement

/-!
# Processes that come and go

An environment for the syscalls on groups and sessions, which shows that what is assumed of the rest
of the kernel can be met. Pids have the lists of the processes that are attached to them, as
`pid->tasks`, and processes those of their threads. Tasks are made as processes or as threads, with
`CLONE_PARENT` or without, `execve` leaves a process with one thread, and a task that ends is reaped
at once, the leader of a group of threads after the others.
-/

namespace Taro.Session

open Sessions

/-- The processes attached to a pid, and the threads of a process. -/
structure Lists where
  tasks : PidType → PidT → List PidT
  threadHead : PidT → List PidT

/-! ### Pids -/

/-- A process is taken off the list of its pid. -/
def State.detachPid (s : State Lists) (ty : PidType) (p : PidT) : State Lists :=
  let tasks := s.rest.tasks ty
  let n := (s.signal p).pids ty
  { s with
    rest.tasks := Function.update s.rest.tasks ty
      (Function.update tasks n ((tasks n).filter (· ≠ p))) }

/-- A process is put in front of the others on the list of its pid. -/
def State.attachPid (s : State Lists) (ty : PidType) (p : PidT) : State Lists :=
  let tasks := s.rest.tasks ty
  let n := (s.signal p).pids ty
  { s with
    rest.tasks := Function.update s.rest.tasks ty (Function.update tasks n (p :: tasks n)) }

def State.changePid (s : State Lists) (ty : PidType) (p n : PidT) : State Lists :=
  ((s.detachPid ty p).setPid ty p n).attachPid ty p

/-- No task has the pid, nor any process group or session. -/
def State.freePid (s : State Lists) (n : PidT) : Bool :=
  0 < n ∧ s.task n = none ∧ s.rest.tasks .pgid n = [] ∧ s.rest.tasks .sid n = []

/-! ### Tasks -/

/-- A new process. With `CLONE_PARENT` it is a sibling of the caller. -/
def copyProcess (current child : PidT) (t : TaskStruct) (cloneParent : Bool) (s : State Lists) :
    State Lists :=
  let task := ⟨child, if cloneParent then t.realParent else current, true⟩
  let born : State Lists :=
    { task := Function.update s.task child (some task)
      signal := Function.update s.signal child ⟨(s.signal t.groupLeader).pids, false⟩
      rest := { s.rest with threadHead := Function.update s.rest.threadHead child [child] } }
  (born.attachPid .pgid child).attachPid .sid child

/-- A new thread. -/
def copyThread (child : PidT) (t : TaskStruct) (s : State Lists) : State Lists :=
  let g := t.groupLeader
  { s with
    task := Function.update s.task child (some ⟨g, t.realParent, true⟩)
    rest.threadHead := Function.update s.rest.threadHead g (s.rest.threadHead g ++ [child]) }

/-- Tasks end, and `newParent` says who takes over their children. -/
def State.release (s : State Lists) (gone : List PidT) (newParent : PidT) :
    PidT → Option TaskStruct :=
  fun p =>
    if p ∈ gone then none
    else (s.task p).map fun t =>
      { t with realParent := if t.realParent ∈ gone then newParent else t.realParent }

/-- `execve`: the process is left with one thread, which is its leader then. -/
def beginNewExec (t : TaskStruct) (s : State Lists) : State Lists :=
  let g := t.groupLeader
  let threads := s.rest.threadHead g
  let task := s.release (threads.filter (· ≠ g)) g
  { s with
    task := Function.update task g ((task g).map fun t => { t with forknoexec := false })
    rest.threadHead := Function.update s.rest.threadHead g (threads.filter (· = g)) }

/-- A task is taken off the lists of tasks and of the threads of `g`. -/
def State.unhash (s : State Lists) (p g reaper : PidT) : State Lists :=
  { s with
    task := s.release [p] reaper
    rest.threadHead := Function.update s.rest.threadHead g
      ((s.rest.threadHead g).filter (· ≠ p)) }

/-- The last thread of a process is taken off, and with it the process. -/
def State.reap (s : State Lists) (p reaper : PidT) : State Lists :=
  ((s.unhash p p reaper).detachPid .pgid p).detachPid .sid p

/-- A task ends. The leader of a group with more threads stays until they are gone. -/
def releaseTask (p : PidT) (t : TaskStruct) (reaper : PidT) (s : State Lists) : State Lists :=
  let g := t.groupLeader
  if p ≠ g then s.unhash p g reaper
  else if (s.rest.threadHead g).all (· = p) then s.reap p reaper
  else s

/-- What becomes of a task. -/
inductive Event where
  | fork (child : PidT) (cloneParent : Bool)
  | thread (child : PidT)
  | exec
  | exit (reaper : PidT)
  deriving DecidableEq, Repr

def Event.apply (s : State Lists) (current : PidT) (t : TaskStruct) : Event → State Lists
  | .fork child cloneParent =>
    if s.freePid child then copyProcess current child t cloneParent s else s
  | .thread child           => if s.freePid child then copyThread child t s else s
  | .exec                   => beginNewExec t s
  | .exit reaper            => releaseTask current t reaper s

structure Action where
  current : PidT
  event : Event
  deriving DecidableEq, Repr

def Action.apply (i : Action) (s : State Lists) : State Lists :=
  match s.task i.current with
  | none   => s
  | some t => i.event.apply s i.current t

/-- The lists are right: pids know the processes they are pids of, processes their threads. -/
structure State.Linked (s : State Lists) : Prop where
  attached : ∀ {ty n p}, p ∈ s.rest.tasks ty n ↔ s.IsProcess p ∧ (s.signal p).pids ty = n
  threads : ∀ {g p}, p ∈ s.rest.threadHead g ↔ s.leaderOf p = some g
  grouped : ∀ {p g}, s.leaderOf p = some g → s.IsProcess g

section

variable {s s' : State Lists} {p q n : PidT} {ty : PidType} {t : TaskStruct}

/-! ### Lists of processes -/

lemma mem_detachPid_tasks {ty' : PidType} {k : PidT} :
    q ∈ (s.detachPid ty p).rest.tasks ty' k ↔
      q ∈ s.rest.tasks ty' k ∧ ¬ (ty' = ty ∧ k = (s.signal p).pids ty ∧ q = p) := by
  simp only [State.detachPid]
  by_cases hty : ty' = ty
  · subst hty
    rw [Function.update_self]
    by_cases hk : k = (s.signal p).pids ty'
    · subst hk
      simp
    · simp [hk]
  · simp [hty]

lemma mem_attachPid_tasks {ty' : PidType} {k : PidT} :
    q ∈ (s.attachPid ty p).rest.tasks ty' k ↔
      ty' = ty ∧ k = (s.signal p).pids ty ∧ q = p ∨ q ∈ s.rest.tasks ty' k := by
  simp only [State.attachPid]
  by_cases hty : ty' = ty
  · subst hty
    rw [Function.update_self]
    by_cases hk : k = (s.signal p).pids ty'
    · subst hk
      simp
    · simp [hk]
  · simp [hty]

lemma mem_changePid_tasks {ty' : PidType} {k : PidT} :
    q ∈ (s.changePid ty p n).rest.tasks ty' k ↔
      ty' = ty ∧ k = n ∧ q = p ∨
        q ∈ s.rest.tasks ty' k ∧ ¬ (ty' = ty ∧ k = (s.signal p).pids ty ∧ q = p) := by
  rw [State.changePid, mem_attachPid_tasks, State.setPid, mem_detachPid_tasks]
  simp

lemma changePid_signal : (s.changePid ty p n).signal = Function.update s.signal p
    { s.signal p with pids := Function.update (s.signal p).pids ty n } := rfl

/-- The process is taken from the list it was on and put on another. -/
lemma linked_changePid (h : s.Linked) (hp : s.IsProcess p) : (s.changePid ty p n).Linked where
  attached {ty' k q} := by
    have hprocess : (s.changePid ty p n).IsProcess q ↔ s.IsProcess q := Iff.rfl
    rw [mem_changePid_tasks, h.attached, hprocess, changePid_signal]
    by_cases hq : q = p
    · subst hq
      by_cases hty : ty' = ty
      · subst hty
        simp only [hp, true_and, and_true, Function.update_self]
        constructor
        · rintro (hk | ⟨hk, hne⟩)
          · exact hk.symm
          · exact absurd hk.symm hne
        · exact fun hk => Or.inl hk.symm
      · simp [hty]
    · simp [hq]
  threads := h.threads
  grouped := h.grouped

lemma linked_lead (h : s.Linked) (p : PidT) : (s.lead p).Linked where
  attached {ty k q} := by
    rw [State.lead, h.attached]
    refine and_congr_right fun _ => ?_
    by_cases hq : q = p
    · subst hq
      simp
    · simp [hq]
  threads := h.threads
  grouped := h.grouped

/-! ### New tasks -/

lemma unused_of_freePid (h : s.Linked) (hn : s.freePid n = true) : Unused s.world n := by
  simp only [State.freePid, decide_eq_true_eq] at hn
  obtain ⟨_, htask, hpgid, hsid⟩ := hn
  constructor
  · simp [State.world, leaderOf_eq_none htask]
  · intro q m hq
    obtain ⟨hprocess, rfl⟩ := world_eq_some_iff.mp hq
    constructor
    · intro hgroup
      have hmem := h.attached.mpr ⟨hprocess, hgroup⟩
      rw [hpgid] at hmem
      cases hmem
    · intro hsession
      have hmem := h.attached.mpr ⟨hprocess, hsession⟩
      rw [hsid] at hmem
      cases hmem

variable {current child : PidT} {cloneParent : Bool}

lemma leaderOf_of_freePid (hn : s.freePid n = true) : s.leaderOf n = none := by
  simp only [State.freePid, decide_eq_true_eq] at hn
  exact leaderOf_eq_none hn.2.1

/-! A new process. -/

lemma leaderOf_copyProcess : (copyProcess current child t cloneParent s).leaderOf =
    Function.update s.leaderOf child (some child) := by
  funext q
  simp only [State.leaderOf, copyProcess, State.attachPid, Function.update_apply]
  split_ifs <;> rfl

lemma copyProcess_signal : (copyProcess current child t cloneParent s).signal =
    Function.update s.signal child ⟨(s.signal t.groupLeader).pids, false⟩ := rfl

lemma copyProcess_threadHead : (copyProcess current child t cloneParent s).rest.threadHead =
    Function.update s.rest.threadHead child [child] := rfl

lemma isProcess_copyProcess :
    (copyProcess current child t cloneParent s).IsProcess q ↔ q = child ∨ s.IsProcess q := by
  rw [State.IsProcess, leaderOf_copyProcess]
  by_cases hq : q = child
  · subst hq
    simp
  · simp [hq, State.IsProcess]

lemma mem_copyProcess_tasks {k : PidT} :
    q ∈ (copyProcess current child t cloneParent s).rest.tasks ty k ↔
      q = child ∧ (s.signal t.groupLeader).pids ty = k ∨ q ∈ s.rest.tasks ty k := by
  simp only [copyProcess]
  rw [mem_attachPid_tasks, mem_attachPid_tasks]
  cases ty <;> simp [State.attachPid, eq_comm, and_comm]

lemma linked_copyProcess (h : s.Linked) (hchild : s.freePid child = true) :
    (copyProcess current child t cloneParent s).Linked where
  attached {ty k q} := by
    rw [mem_copyProcess_tasks, isProcess_copyProcess, copyProcess_signal, h.attached]
    by_cases hq : q = child
    · subst hq
      simp [State.IsProcess, leaderOf_of_freePid hchild]
    · simp [hq]
  threads {g q} := by
    have hnone := leaderOf_of_freePid hchild
    rw [copyProcess_threadHead, leaderOf_copyProcess]
    by_cases hg : g = child <;> by_cases hq : q = child
    · subst hg hq
      simp
    · subst hg
      -- nobody can be a thread of a process that has not been there
      rw [Function.update_self, Function.update_of_ne hq, List.mem_singleton]
      refine iff_of_false hq fun hleader => ?_
      have hprocess := h.grouped hleader
      rw [State.IsProcess, hnone] at hprocess
      cases hprocess
    · subst hq
      rw [Function.update_of_ne hg, h.threads, hnone, Function.update_self]
      simp [Ne.symm hg]
    · rw [Function.update_of_ne hg, Function.update_of_ne hq]
      exact h.threads
  grouped {q g} hq := by
    rw [leaderOf_copyProcess] at hq
    rw [isProcess_copyProcess]
    by_cases hqc : q = child
    · subst hqc
      rw [Function.update_self] at hq
      cases hq
      exact Or.inl rfl
    · rw [Function.update_of_ne hqc] at hq
      exact Or.inr (h.grouped hq)

lemma turnover_copyProcess (h : s.Linked) (ht : s.task current = some t)
    (hchild : s.freePid child = true) :
    Turnover s.world (copyProcess current child t cloneParent s).world := by
  have hparent := world_of_isProcess (h.grouped (leaderOf_of_task ht))
  have hworld : (copyProcess current child t cloneParent s).world =
      Function.update s.world child
        (some { (s.signal t.groupLeader).member with leader := false }) := by
    funext q
    refine Option.ext fun m => ?_
    rw [world_eq_some_iff, isProcess_copyProcess, copyProcess_signal]
    by_cases hq : q = child
    · subst hq
      simp [SignalStruct.member]
    · simp [hq, world_eq_some_iff]
  rw [hworld]
  exact Turnover.fork hparent (unused_of_freePid h hchild)

/-! Threads that come and go: the process itself stays where it is. -/

/-- The threads of `g` are other ones than before, and `g` is still one of them. -/
lemma linked_threads {g : PidT} {threads : List PidT} (h : s.Linked)
    (htasks : s'.rest.tasks = s.rest.tasks) (hsignal : s'.signal = s.signal)
    (hhead : s'.rest.threadHead = Function.update s.rest.threadHead g threads)
    (hprocess : ∀ q, s'.IsProcess q ↔ s.IsProcess q) (hg : s.IsProcess g)
    (hthreads : ∀ q, q ∈ threads ↔ s'.leaderOf q = some g)
    (hothers : ∀ q k, k ≠ g → (s'.leaderOf q = some k ↔ s.leaderOf q = some k)) : s'.Linked where
  attached {ty k q} := by
    rw [htasks, hprocess, hsignal, h.attached]
  threads {k q} := by
    rw [hhead]
    by_cases hk : k = g
    · subst hk
      rw [Function.update_self]
      exact hthreads q
    · rw [Function.update_of_ne hk, hothers q k hk]
      exact h.threads
  grouped {q k} hq := by
    rw [hprocess]
    by_cases hk : k = g
    · rw [hk]
      exact hg
    · exact h.grouped ((hothers q k hk).mp hq)

lemma turnover_threads (hsignal : s'.signal = s.signal)
    (hprocess : ∀ q, s'.IsProcess q ↔ s.IsProcess q) : Turnover s.world s'.world := by
  rw [world_congr hprocess fun q _ => by rw [hsignal]]
  exact .refl _

lemma leaderOf_copyThread : (copyThread child t s).leaderOf =
    Function.update s.leaderOf child (some t.groupLeader) := by
  funext q
  simp only [State.leaderOf, copyThread, Function.update_apply]
  split_ifs <;> rfl

lemma isProcess_copyThread (h : s.Linked) (ht : s.task current = some t)
    (hchild : s.freePid child = true) : (copyThread child t s).IsProcess q ↔ s.IsProcess q := by
  have hnone := leaderOf_of_freePid hchild
  rw [State.IsProcess, leaderOf_copyThread]
  by_cases hq : q = child
  · subst hq
    rw [Function.update_self, State.IsProcess, hnone]
    refine iff_of_false (fun hleader => ?_) (by simp)
    have hprocess := h.grouped (leaderOf_of_task ht)
    rw [State.IsProcess, Option.some.inj hleader, hnone] at hprocess
    cases hprocess
  · rw [Function.update_of_ne hq, State.IsProcess]

lemma linked_copyThread (h : s.Linked) (ht : s.task current = some t)
    (hchild : s.freePid child = true) : (copyThread child t s).Linked := by
  have hnone := leaderOf_of_freePid hchild
  refine linked_threads h rfl rfl rfl (fun _ => isProcess_copyThread h ht hchild)
    (h.grouped (leaderOf_of_task ht)) (fun q => ?_) fun q k hk => ?_
  · rw [leaderOf_copyThread, List.mem_append, h.threads]
    by_cases hq : q = child
    · subst hq
      simp
    · simp [hq]
  · rw [leaderOf_copyThread]
    by_cases hq : q = child
    · subst hq
      simp [hnone, Ne.symm hk]
    · rw [Function.update_of_ne hq]

lemma map_release (s : State Lists) (gone : List PidT) (newParent q : PidT) :
    (s.release gone newParent q).map TaskStruct.groupLeader =
      if q ∈ gone then none else s.leaderOf q := by
  rw [State.release, State.leaderOf]
  split_ifs
  · rfl
  · rw [Option.map_map]
    rfl

lemma leaderOf_beginNewExec (h : s.Linked) : (beginNewExec t s).leaderOf q =
    if s.leaderOf q = some t.groupLeader ∧ q ≠ t.groupLeader then none else s.leaderOf q := by
  have hmap := map_release s ((s.rest.threadHead t.groupLeader).filter (· ≠ t.groupLeader))
    t.groupLeader q
  simp only [List.mem_filter, h.threads, decide_eq_true_eq] at hmap
  rw [← hmap, State.leaderOf, beginNewExec]
  by_cases hq : q = t.groupLeader
  · subst hq
    simp only [Function.update_self, Option.map_map]
    rfl
  · simp only [Function.update_of_ne hq]

lemma isProcess_beginNewExec (h : s.Linked) : (beginNewExec t s).IsProcess q ↔ s.IsProcess q := by
  rw [State.IsProcess, leaderOf_beginNewExec h, State.IsProcess]
  split_ifs with hgone
  · simp [hgone.1, Ne.symm hgone.2]
  · rfl

lemma linked_beginNewExec (h : s.Linked) (ht : s.task current = some t) :
    (beginNewExec t s).Linked := by
  have hg := h.grouped (leaderOf_of_task ht)
  refine linked_threads h rfl rfl rfl (fun _ => isProcess_beginNewExec h) hg (fun q => ?_)
    fun q k hk => ?_
  · rw [leaderOf_beginNewExec h, List.mem_filter, h.threads]
    by_cases hq : q = t.groupLeader <;> simp [hq]
  · rw [leaderOf_beginNewExec h]
    split_ifs with hgone
    · simp [hgone.1, Ne.symm hk]
    · rfl

/-! The end of a task. -/

lemma leaderOf_unhash (s : State Lists) (p g reaper : PidT) :
    (s.unhash p g reaper).leaderOf = Function.update s.leaderOf p none := by
  funext q
  have hmap := map_release s [p] reaper q
  simp only [List.mem_singleton] at hmap
  rw [Function.update_apply]
  exact hmap

lemma isProcess_unhash {g reaper : PidT} :
    (s.unhash p g reaper).IsProcess q ↔ q ≠ p ∧ s.IsProcess q := by
  rw [State.IsProcess, leaderOf_unhash]
  by_cases hq : q = p
  · subst hq
    simp
  · simp [hq, State.IsProcess]

/-- A thread that is not the leader of its group ends. -/
lemma isProcess_unhash_thread {g reaper : PidT} (hp : s.leaderOf p = some g) (hne : p ≠ g) :
    (s.unhash p g reaper).IsProcess q ↔ s.IsProcess q := by
  rw [isProcess_unhash]
  refine and_iff_right_of_imp ?_
  rintro hq rfl
  rw [State.IsProcess, hp] at hq
  exact hne (Option.some.inj hq).symm

lemma linked_unhash_thread {g reaper : PidT} (h : s.Linked) (hp : s.leaderOf p = some g)
    (hne : p ≠ g) : (s.unhash p g reaper).Linked := by
  refine linked_threads h rfl rfl rfl (fun _ => isProcess_unhash_thread hp hne) (h.grouped hp)
    (fun q => ?_) fun q k hk => ?_
  · rw [leaderOf_unhash, List.mem_filter, h.threads]
    by_cases hq : q = p <;> simp [hq]
  · rw [leaderOf_unhash]
    by_cases hq : q = p
    · subst hq
      simp [hp, Ne.symm hk]
    · rw [Function.update_of_ne hq]

/-! The end of a process. -/

lemma leaderOf_reap (s : State Lists) (p reaper : PidT) :
    (s.reap p reaper).leaderOf = Function.update s.leaderOf p none := leaderOf_unhash s p p reaper

lemma isProcess_reap {reaper : PidT} : (s.reap p reaper).IsProcess q ↔ q ≠ p ∧ s.IsProcess q :=
  isProcess_unhash (g := p)

lemma reap_signal (s : State Lists) (p reaper : PidT) : (s.reap p reaper).signal = s.signal := rfl

lemma reap_threadHead (s : State Lists) (p reaper : PidT) : (s.reap p reaper).rest.threadHead =
    Function.update s.rest.threadHead p ((s.rest.threadHead p).filter (· ≠ p)) := rfl

lemma mem_reap_tasks {reaper k : PidT} :
    q ∈ (s.reap p reaper).rest.tasks ty k ↔
      q ∈ s.rest.tasks ty k ∧ ¬ (k = (s.signal p).pids ty ∧ q = p) := by
  have hdetach : ((s.unhash p p reaper).detachPid .pgid p).signal = s.signal := rfl
  have hunhash : (s.unhash p p reaper).signal = s.signal := rfl
  rw [State.reap, mem_detachPid_tasks, mem_detachPid_tasks, hdetach, hunhash]
  cases ty <;> simp [State.unhash]

lemma linked_reap {reaper : PidT} (h : s.Linked) (hp : s.IsProcess p)
    (hlast : (s.rest.threadHead p).all (· = p) = true) : (s.reap p reaper).Linked := by
  -- no thread of the process is left behind
  have hthread : ∀ q, s.leaderOf q = some p → q = p := by
    intro q hq
    exact of_decide_eq_true (List.all_eq_true.mp hlast q (h.threads.mpr hq))
  refine ⟨fun {ty k q} => ?_, fun {g q} => ?_, fun {q g} hq => ?_⟩
  · rw [mem_reap_tasks, isProcess_reap, reap_signal, h.attached]
    by_cases hq : q = p
    · subst hq
      simp [eq_comm]
    · simp [hq]
  · rw [leaderOf_reap, reap_threadHead]
    by_cases hq : q = p
    · subst hq
      rw [Function.update_self]
      by_cases hg : g = q
      · subst hg
        simp
      · rw [Function.update_of_ne hg, h.threads, hp]
        simp [Ne.symm hg]
    · rw [Function.update_of_ne hq, ← h.threads]
      by_cases hg : g = p
      · subst hg
        simp [hq]
      · rw [Function.update_of_ne hg]
  · rw [leaderOf_reap] at hq
    have hqp : q ≠ p := by
      rintro rfl
      rw [Function.update_self] at hq
      cases hq
    rw [Function.update_of_ne hqp] at hq
    refine isProcess_reap.mpr ⟨?_, h.grouped hq⟩
    rintro rfl
    exact hqp (hthread q hq)

lemma world_reap (s : State Lists) (p reaper : PidT) :
    (s.reap p reaper).world = Function.update s.world p none := by
  funext q
  refine Option.ext fun m => ?_
  rw [world_eq_some_iff, isProcess_reap, reap_signal]
  by_cases hq : q = p
  · subst hq
    simp
  · simp [hq, world_eq_some_iff]

lemma linked_releaseTask (h : s.Linked) (ht : s.task current = some t) (reaper : PidT) :
    (releaseTask current t reaper s).Linked := by
  have hcurrent := leaderOf_of_task ht
  simp only [releaseTask]
  split_ifs with hne hlast
  · exact linked_unhash_thread h hcurrent hne
  · obtain rfl := not_not.mp hne
    exact linked_reap h hcurrent hlast
  · exact h

lemma turnover_releaseTask (ht : s.task current = some t) (reaper : PidT) :
    Turnover s.world (releaseTask current t reaper s).world := by
  have hcurrent := leaderOf_of_task ht
  simp only [releaseTask]
  split_ifs with hne hlast
  · exact turnover_threads rfl fun _ => isProcess_unhash_thread hcurrent hne
  · obtain rfl := not_not.mp hne
    rw [world_reap]
    exact .exit _ _
  · exact .refl _

/-! ### All of them -/

lemma linked_apply (h : s.Linked) (i : Action) : (i.apply s).Linked := by
  obtain ⟨current, event⟩ := i
  rw [Action.apply]
  cases ht : s.task current with
  | none => exact h
  | some t =>
    cases event with
    | fork child cloneParent =>
      simp only [Event.apply]
      split_ifs with hchild
      · exact linked_copyProcess h hchild
      · exact h
    | thread child =>
      simp only [Event.apply]
      split_ifs with hchild
      · exact linked_copyThread h ht hchild
      · exact h
    | exec => exact linked_beginNewExec h ht
    | exit reaper => exact linked_releaseTask h ht reaper

lemma turnover_apply (h : s.Linked) (i : Action) : Turnover s.world (i.apply s).world := by
  obtain ⟨current, event⟩ := i
  rw [Action.apply]
  cases ht : s.task current with
  | none => exact .refl _
  | some t =>
    cases event with
    | fork child cloneParent =>
      simp only [Event.apply]
      split_ifs with hchild
      · exact turnover_copyProcess h ht hchild
      · exact .refl _
    | thread child =>
      simp only [Event.apply]
      split_ifs with hchild
      · exact turnover_threads rfl fun _ => isProcess_copyThread h ht hchild
      · exact .refl _
    | exec => exact turnover_threads rfl fun _ => isProcess_beginNewExec h
    | exit reaper => exact turnover_releaseTask ht reaper

/-! No step sets `PF_FORKNOEXEC` of a task there has been. -/

lemma forknoexec_release {gone : List PidT} {newParent : PidT} {t' : TaskStruct}
    (hp : s.task p = some t) (hp' : s.release gone newParent p = some t') :
    t'.forknoexec = t.forknoexec := by
  rw [State.release] at hp'
  split_ifs at hp'
  rw [hp] at hp'
  cases hp'
  rfl

lemma forknoexec_beginNewExec {t₀ t' : TaskStruct} (hp : s.task p = some t)
    (hexec : t.forknoexec = false) (hp' : (beginNewExec t₀ s).task p = some t') :
    t'.forknoexec = false := by
  simp only [beginNewExec] at hp'
  by_cases hg : p = t₀.groupLeader
  · subst hg
    rw [Function.update_self, Option.map_eq_some_iff] at hp'
    obtain ⟨_, _, rfl⟩ := hp'
    rfl
  · rw [Function.update_of_ne hg] at hp'
    rw [forknoexec_release hp hp', hexec]

/-- A task that is there is not made again. -/
lemma ne_of_freePid (hp : s.task p = some t) (hchild : s.freePid child = true) : p ≠ child := by
  rintro rfl
  have hnone := leaderOf_of_freePid hchild
  rw [leaderOf_of_task hp] at hnone
  cases hnone

lemma forknoexec_apply {i : Action} {t' : TaskStruct} (hp : s.task p = some t)
    (hp' : (i.apply s).task p = some t') (hexec : t.forknoexec = false) :
    t'.forknoexec = false := by
  -- most steps leave the task as it is
  have hsame : s.task p = some t' → t'.forknoexec = false := by
    intro hp'
    rw [hp] at hp'
    cases hp'
    exact hexec
  obtain ⟨current, event⟩ := i
  rw [Action.apply] at hp'
  cases ht : s.task current with
  | none =>
    rw [ht] at hp'
    exact hsame hp'
  | some t₀ =>
    rw [ht] at hp'
    cases event with
    | fork child cloneParent =>
      simp only [Event.apply] at hp'
      split_ifs at hp' with hchild
      · exact hsame ((Function.update_of_ne (ne_of_freePid hp hchild) _ _).symm.trans hp')
      · exact hsame hp'
    | thread child =>
      simp only [Event.apply] at hp'
      split_ifs at hp' with hchild
      · exact hsame ((Function.update_of_ne (ne_of_freePid hp hchild) _ _).symm.trans hp')
      · exact hsame hp'
    | exec => exact forknoexec_beginNewExec hp hexec hp'
    | exit reaper =>
      simp only [Event.apply, releaseTask] at hp'
      split_ifs at hp' with hne hlast
      · rw [forknoexec_release hp hp', hexec]
      · rw [forknoexec_release hp hp', hexec]
      · exact hsame hp'

end

/-! ### The environment -/

section

variable {s : State Lists} {p n : PidT}

lemma pidTask_eq_some (h : s.Linked) (hp : (s.rest.tasks .pgid n).head? = some p) :
    s.IsProcess p ∧ s.taskPgrp p = n :=
  h.attached.mp (List.mem_of_head? hp)

lemma pidTask_eq_none (h : s.Linked) (hn : (s.rest.tasks .pgid n).head? = none)
    (hp : s.IsProcess p) : s.taskPgrp p ≠ n := by
  intro hpgrp
  have hmem := h.attached.mpr ⟨hp, hpgrp⟩
  rw [List.head?_eq_none_iff.mp hn] at hmem
  cases hmem

end

/-- The lists and the tasks, as an environment. -/
def onLists : Environment Lists Action where
  pidTask s ty n := (s.rest.tasks ty n).head?
  changePid := State.changePid
  step := Action.apply
  Inv := State.Linked
  inv_changePid := linked_changePid
  inv_lead p h := linked_lead h p
  inv_step i h := linked_apply h i
  grouped h := h.grouped
  pidTask_some := pidTask_eq_some
  pidTask_none := pidTask_eq_none
  changePid_task := rfl
  changePid_signal := rfl
  turnover_step i h := turnover_apply h i
  forknoexec_step _ _ _ _ hp hp' hexec := forknoexec_apply hp hp' hexec

/-- Before `init` has called anything, it is where the boot task has been. -/
def boot : State Lists where
  task := Function.update (fun _ => none) 1 (some ⟨1, 0, false⟩)
  signal := fun _ => ⟨fun _ => 0, false⟩
  rest :=
    { tasks := fun _ => Function.update (fun _ => []) 0 [1]
      threadHead := Function.update (fun _ => []) 1 [1] }

lemma leaderOf_boot : boot.leaderOf = Function.update (fun _ => none) 1 (some 1) := by
  funext q
  simp only [State.leaderOf, boot, Function.update_apply]
  split_ifs <;> rfl

lemma isProcess_boot {p : PidT} : boot.IsProcess p ↔ p = 1 := by
  rw [State.IsProcess, leaderOf_boot]
  by_cases hp : p = 1 <;> simp [hp]

lemma linked_boot : boot.Linked where
  attached {ty k q} := by
    rw [isProcess_boot, boot]
    by_cases hk : k = 0
    · subst hk
      simp
    · simp [hk, Ne.symm hk]
  threads {g q} := by
    rw [leaderOf_boot, boot]
    by_cases hg : g = 1 <;> by_cases hq : q = 1 <;> simp [hg, hq, eq_comm]
  grouped {q g} hq := by
    rw [leaderOf_boot] at hq
    rw [isProcess_boot]
    by_cases hq1 : q = 1
    · rw [hq1, Function.update_self] at hq
      exact (Option.some.inj hq).symm
    · rw [Function.update_of_ne hq1] at hq
      cases hq

lemma wellFormed_boot : Sessions.WellFormed boot.world := by
  have hboot : ∀ {p m}, boot.world p = some m → p = 1 ∧ m = ⟨0, 0, false⟩ := by
    intro p m hm
    obtain ⟨hp, rfl⟩ := world_eq_some_iff.mp hm
    exact ⟨isProcess_boot.mp hp, rfl⟩
  constructor
  · intro p q mp mq hp hq _
    rw [(hboot hp).2, (hboot hq).2]
  · intro p q mp mq hp hq _
    rw [(hboot hp).2, (hboot hq).2]
  · intro p m hp hleader
    rw [(hboot hp).2] at hleader
    cases hleader
  · intro p q mp mq hp hq hsession
    rw [(hboot hp).2, (hboot hq).1] at hsession
    exact absurd hsession (by decide)

end Taro.Session
