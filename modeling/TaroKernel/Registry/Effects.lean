import TaroKernel.Registry.Exits

/-!
# What a call decides and what it does

Add, update and remove learn one thing from the registry: whether their pid is in it. From this and
from the answers they get they decide what to return and what to do, and what they do concerns the
entry of their pid and the limits of one process, wherever the entry stands and whatever else is
registered. So calls about different pids and processes do not get in each other's way.
-/

namespace Taro

open Keyed

variable {Signal : Type*}

/-- What happens to the entry of a pid. -/
inductive Edit where
  | keep
  | append (memoryLimit : SizeT)
  | store (memoryLimit : SizeT)
  | unlink
  deriving DecidableEq, Repr

def Edit.apply (p : PidT) (l : List MemoryLimitation) : Edit → List MemoryLimitation
  | .keep     => l
  | .append L => l ++ [⟨p, L⟩]
  | .store L  => storeLimit p L l
  | .unlink   => Keyed.unlink MemoryLimitation.pid p l

/-- What a call returns, what becomes of its entry, and the limit it installs for a process. -/
structure Decision (Signal : Type*) where
  code : Int
  edit : Edit
  rlimit : Option (Signal × SizeT)

/-- Return an error and do nothing. -/
def Decision.refuse (code : Int) : Decision Signal := ⟨code, .keep, none⟩

@[simp] lemma Decision.refuse_code (code : Int) :
    (Decision.refuse code : Decision Signal).code = code := rfl

@[simp] lemma Decision.refuse_edit (code : Int) :
    (Decision.refuse code : Decision Signal).edit = .keep := rfl

@[simp] lemma Decision.refuse_rlimit (code : Int) :
    (Decision.refuse code : Decision Signal).rlimit = none := rfl

/-- The process a call looks up; remove and get look none up. -/
def Invocation.task (i : Invocation Signal) : Option (TaskStruct Signal) :=
  match i.call with
  | .add .. | .update .. => i.outcomes.findTaskByVpid
  | _ => none

/-- The decision of a call whose pid is, or is not, registered. -/
def Invocation.decision (i : Invocation Signal) (registered : Bool) : Decision Signal :=
  match i.call with
  | .add p L =>
    match beforeMutex p L i.outcomes with
    | .error code => .refuse code
    | .ok task =>
      if registered then .refuse (-101)
      else if i.outcomes.kmalloc = false then .refuse (-ENOMEM)
      else if i.outcomes.securityTaskSetrlimit ≠ 0 then .refuse (-EPERM)
      else ⟨0, .append L, some (task.signal, L)⟩
  | .update p L =>
    match beforeMutex p L i.outcomes with
    | .error code => .refuse code
    | .ok task =>
      if registered = false then .refuse (-102)
      else if exceedsLimit task L then .refuse (-100)
      else if i.outcomes.securityTaskSetrlimit ≠ 0 then ⟨-EPERM, .store L, none⟩
      else ⟨0, .store L, some (task.signal, L)⟩
  | .remove p =>
    if p ≤ 0 then .refuse (-EINVAL)
    else if registered = false then .refuse (-102)
    else ⟨0, .unlink, none⟩
  | .get .. => .refuse 0

/-! ### Decisions -/

section Decisions

variable {i : Invocation Signal} {registered : Bool} {p : PidT} {L : SizeT}

/-- A limit is installed for the process the call looked up. -/
lemma Invocation.task_of_decision_rlimit {g : Signal}
    (h : (i.decision registered).rlimit = some (g, L)) :
    ∃ task, i.task = some task ∧ task.signal = g := by
  obtain ⟨c, o⟩ := i
  cases c with
  | get u n c => simp [Invocation.decision] at h
  | remove q =>
    simp only [Invocation.decision] at h
    split_ifs at h <;> simp at h
  | add q M | update q M =>
    simp only [Invocation.decision] at h
    cases hb : beforeMutex q M o with
    | error code => simp [hb] at h
    | ok task =>
      obtain ⟨_, _, hfind⟩ := beforeMutex_eq_ok_iff.mp hb
      rw [hb] at h
      dsimp only at h
      split_ifs at h <;> simp at h
      exact ⟨task, hfind, h.1⟩

/-- An add returns 0 exactly when it appends its entry, and nothing else appends. -/
lemma Invocation.decision_edit_append_iff :
    (i.decision registered).edit = .append L ↔
      ∃ p, i.call = .add p L ∧ (i.decision registered).code = 0 := by
  obtain ⟨c, o⟩ := i
  cases c with
  | get u n c => simp [Invocation.decision]
  | remove q =>
    simp only [Invocation.decision]
    split_ifs <;> simp
  | update q M =>
    simp only [Invocation.decision]
    cases beforeMutex q M o with
    | error code => simp
    | ok task =>
      dsimp only
      split_ifs <;> simp
  | add q M =>
    simp only [Invocation.decision]
    cases hb : beforeMutex q M o with
    | error code => simp [Int.ne_of_lt (beforeMutex_error_neg hb)]
    | ok task =>
      dsimp only
      split_ifs <;> simp [ENOMEM, EPERM]

end Decisions

/-! ### Edits of different entries -/

section Edits

variable {p q : PidT} {l : List MemoryLimitation} {e f : Edit}

lemma Edit.mem_pids_apply_of_ne (h : p ≠ q) :
    p ∈ (e.apply q l).map MemoryLimitation.pid ↔ p ∈ l.map MemoryLimitation.pid := by
  cases e with
  | keep => rfl
  | append L => simp [Edit.apply, h]
  | store L => rw [Edit.apply, map_pid_storeLimit]
  | unlink => rw [Edit.apply, map_key_unlink, List.mem_erase_of_ne h]

/-- Edits of different entries commute, except that of two appends the later one comes last. -/
lemma Edit.apply_comm (h : p ≠ q) (hef : ∀ L M, ¬ (e = .append L ∧ f = .append M)) :
    e.apply p (f.apply q l) = f.apply q (e.apply p l) := by
  cases e with
  | keep => rfl
  | append L =>
    cases f with
    | keep => rfl
    | append M => exact absurd ⟨rfl, rfl⟩ (hef L M)
    | store M => exact (modify_append_singleton_of_ne h).symm
    | unlink => exact (unlink_append_singleton_of_ne h).symm
  | store L =>
    cases f with
    | keep => rfl
    | append M => exact modify_append_singleton_of_ne h.symm
    | store M => exact modify_comm (fun _ => rfl) (fun _ => rfl) h
    | unlink =>
      symm
      exact unlink_modify_of_ne (fun _ => rfl) h.symm
  | unlink =>
    cases f with
    | keep => rfl
    | append M => exact unlink_append_singleton_of_ne h.symm
    | store M => exact unlink_modify_of_ne (fun _ => rfl) h
    | unlink => exact unlink_comm

end Edits

/-! ### Calls as decisions -/

variable [DecidableEq Signal] {s s' : Kernel Signal} {i : Invocation Signal} {p : PidT}

/-- Install the limit of a decision. -/
def Decision.install (d : Decision Signal) (rlimitAs : Signal → Rlimit) : Signal → Rlimit :=
  match d.rlimit with
  | none        => rlimitAs
  | some (g, L) => Function.update rlimitAs g (rlimitOf L)

def Decision.run (d : Decision Signal) (p : PidT) (s : Kernel Signal) : Kernel Signal :=
  ⟨d.edit.apply p s.memoryLimitList, d.install s.rlimitAs⟩

@[simp] lemma Decision.run_refuse (code : Int) (p : PidT) (s : Kernel Signal) :
    (Decision.refuse code).run p s = s := rfl

lemma Decision.install_of_ne {d : Decision Signal} {g : Signal} {rlimitAs : Signal → Rlimit}
    (h : ∀ g' L, d.rlimit = some (g', L) → g' ≠ g) : d.install rlimitAs g = rlimitAs g := by
  unfold Decision.install
  cases hd : d.rlimit with
  | none => rfl
  | some gL => exact Function.update_of_ne (h gL.1 gL.2 hd).symm _ _

lemma Decision.install_comm {d e : Decision Signal} {rlimitAs : Signal → Rlimit}
    (h : ∀ g L g' L', d.rlimit = some (g, L) → e.rlimit = some (g', L') → g ≠ g') :
    d.install (e.install rlimitAs) = e.install (d.install rlimitAs) := by
  unfold Decision.install
  cases hd : d.rlimit with
  | none => rfl
  | some gL =>
    cases he : e.rlimit with
    | none => rfl
    | some gL' => exact (Function.update_comm (h _ _ _ _ hd he) _ _ _).symm

lemma Exit.eq_decision {o : Outcomes Signal} {c : Call} {r : Ret} (h : Exit s o c r s')
    (hp : c.target = some p) :
    (r, s') = (⟨(Invocation.decision ⟨c, o⟩ (p ∈ s.pids)).code, .nothing⟩,
      (Invocation.decision ⟨c, o⟩ (p ∈ s.pids)).run p s) := by
  -- what was checked on the way to an exit is what the decision asks for
  cases h with
  | get => cases hp
  | addRefused h | updateRefused h => simp [Invocation.decision, h]
  | addExists h hmem =>
    cases hp
    simp [Invocation.decision, h, hmem]
  | addNomem h hmem hk =>
    cases hp
    simp [Invocation.decision, h, hmem, hk]
  | addPerm h hmem hk hlsm =>
    cases hp
    simp [Invocation.decision, h, hmem, hk, hlsm]
  | addOk h hmem hk hlsm =>
    cases hp
    simp [Invocation.decision, h, hmem, hk, hlsm, Decision.run, Edit.apply, Decision.install]
  | updateMissing h hmem =>
    cases hp
    simp [Invocation.decision, h, hmem]
  | updateExceeds h ht hx =>
    cases hp
    have hmem : _ ∈ s.pids := mem_keys_of_lookup ht
    simp [Invocation.decision, h, hmem, hx]
  | updatePerm h ht hx hlsm | updateOk h ht hx hlsm =>
    cases hp
    have hmem : _ ∈ s.pids := mem_keys_of_lookup ht
    simp [Invocation.decision, h, hmem, hx, hlsm, Decision.run, Edit.apply, Decision.install]
  | removeInval h => simp [Invocation.decision, h]
  | removeMissing h hmem =>
    cases hp
    simp [Invocation.decision, Int32.not_le.mpr h, hmem]
  | removeOk h ht =>
    cases hp
    have hmem : _ ∈ s.pids := mem_keys_of_lookup ht
    simp [Invocation.decision, Int32.not_le.mpr h, hmem, Decision.run, Edit.apply,
      Decision.install]

/-- A call that is about no pid is a get. -/
lemma syscall_snd_of_target_eq_none (h : i.call.target = none) (s : Kernel Signal) :
    (syscall s i).2 = s := by
  obtain ⟨c, o⟩ := i
  cases c with
  | get u n c => rfl
  | add q L | update q L | remove q => cases h

/-- A call about `p` acts on its decision. -/
theorem syscall_eq_decision (hp : i.call.target = some p) (s : Kernel Signal) :
    syscall s i =
      (⟨(i.decision (p ∈ s.pids)).code, .nothing⟩, (i.decision (p ∈ s.pids)).run p s) :=
  (exit_syscall s i).eq_decision hp

end Taro
