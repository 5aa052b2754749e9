import TaroKernel.Registry.Syscalls

/-!
# The exits of the registry syscalls

`Exit` lists the ways a call can end: what it found, what it returns, what state it leaves. Every
result about the registry splits on these exits and never on the code of the syscalls again.
-/

namespace Taro

open Keyed

variable {Signal : Type*}

/-! ### Before the mutex -/

lemma beforeMutex_eq_ok_iff {p : PidT} {L : SizeT} {o : Outcomes Signal}
    {task : TaskStruct Signal} :
    beforeMutex p L o = .ok task ↔ 0 ≤ p ∧ L ≠ 0 ∧ o.findTaskByVpid = some task := by
  unfold beforeMutex
  by_cases h : p < 0 ∨ L ≤ 0
  · rw [if_pos h]
    constructor
    · intro hok
      cases hok
    · rintro ⟨hp, hL, _⟩
      rcases h with h | h
      · exact absurd h (Int32.not_lt.mpr hp)
      · exact absurd (UInt64.le_zero_iff.mp h) hL
  · rw [if_neg h]
    rw [not_or, Int32.not_lt, UInt64.le_zero_iff] at h
    cases ho : o.findTaskByVpid with
    | none => simp
    | some t => simp [h.1, h.2]

lemma beforeMutex_error_cases {p : PidT} {L : SizeT} {o : Outcomes Signal} {code : Int}
    (h : beforeMutex p L o = .error code) : code = -EINVAL ∨ code = -ESRCH := by
  unfold beforeMutex at h
  split_ifs at h with hargs
  · cases h
    exact Or.inl rfl
  · cases ho : o.findTaskByVpid with
    | none =>
      rw [ho] at h
      cases h
      exact Or.inr rfl
    | some t =>
      rw [ho] at h
      cases h

lemma beforeMutex_error_neg {p : PidT} {L : SizeT} {o : Outcomes Signal} {code : Int}
    (h : beforeMutex p L o = .error code) : code < 0 := by
  rcases beforeMutex_error_cases h with rfl | rfl <;> decide

/-! ### Keys and limits of the list -/

lemma mem_pids_iff {s : Kernel Signal} {p : PidT} :
    p ∈ s.pids ↔ ∃ e ∈ s.memoryLimitList, e.pid = p := List.mem_map

lemma lookup_pid_eq_none_iff {s : Kernel Signal} {p : PidT} :
    lookup MemoryLimitation.pid p s.memoryLimitList = none ↔ p ∉ s.pids := lookup_eq_none_iff

@[simp] lemma map_pid_storeLimit (p : PidT) (L : SizeT) (l : List MemoryLimitation) :
    (storeLimit p L l).map MemoryLimitation.pid = l.map MemoryLimitation.pid :=
  map_key_modify fun _ => rfl

lemma unlink_append_entry {s : Kernel Signal} {p : PidT} {L : SizeT} (hp : p ∉ s.pids) :
    unlink MemoryLimitation.pid p (s.memoryLimitList ++ [⟨p, L⟩]) = s.memoryLimitList :=
  unlink_append_singleton_of_eq rfl hp

/-! ### The exits -/

variable [DecidableEq Signal]

/-- How a call of one of the four syscalls can end, from `s` with the answers `o`. -/
inductive Exit (s : Kernel Signal) (o : Outcomes Signal) : Call → Ret → Kernel Signal → Prop where
  | addRefused {p L code} (h : beforeMutex p L o = .error code) :
      Exit s o (.add p L) ⟨code, .nothing⟩ s
  | addExists {p L task} (h : beforeMutex p L o = .ok task) (hp : p ∈ s.pids) :
      Exit s o (.add p L) ⟨-101, .nothing⟩ s
  | addNomem {p L task} (h : beforeMutex p L o = .ok task) (hp : p ∉ s.pids)
      (hk : o.kmalloc = false) : Exit s o (.add p L) ⟨-ENOMEM, .nothing⟩ s
  | addPerm {p L task} (h : beforeMutex p L o = .ok task) (hp : p ∉ s.pids)
      (hk : o.kmalloc = true) (hlsm : o.securityTaskSetrlimit ≠ 0) :
      Exit s o (.add p L) ⟨-EPERM, .nothing⟩ s
  | addOk {p L task} (h : beforeMutex p L o = .ok task) (hp : p ∉ s.pids)
      (hk : o.kmalloc = true) (hlsm : o.securityTaskSetrlimit = 0) :
      Exit s o (.add p L) ⟨0, .nothing⟩
        ⟨s.memoryLimitList ++ [⟨p, L⟩], Function.update s.rlimitAs task.signal (rlimitOf L)⟩
  | get {u n c} : Exit s o (.get u n c) (taroGetMemoryLimits s.memoryLimitList u n c o) s
  | updateRefused {p L code} (h : beforeMutex p L o = .error code) :
      Exit s o (.update p L) ⟨code, .nothing⟩ s
  | updateMissing {p L task} (h : beforeMutex p L o = .ok task) (hp : p ∉ s.pids) :
      Exit s o (.update p L) ⟨-102, .nothing⟩ s
  | updateExceeds {p L task temp} (h : beforeMutex p L o = .ok task)
      (ht : lookup MemoryLimitation.pid p s.memoryLimitList = some temp)
      (hx : exceedsLimit task L = true) : Exit s o (.update p L) ⟨-100, .nothing⟩ s
  | updatePerm {p L task temp} (h : beforeMutex p L o = .ok task)
      (ht : lookup MemoryLimitation.pid p s.memoryLimitList = some temp)
      (hx : exceedsLimit task L = false) (hlsm : o.securityTaskSetrlimit ≠ 0) :
      Exit s o (.update p L) ⟨-EPERM, .nothing⟩
        { s with memoryLimitList := storeLimit p L s.memoryLimitList }
  | updateOk {p L task temp} (h : beforeMutex p L o = .ok task)
      (ht : lookup MemoryLimitation.pid p s.memoryLimitList = some temp)
      (hx : exceedsLimit task L = false) (hlsm : o.securityTaskSetrlimit = 0) :
      Exit s o (.update p L) ⟨0, .nothing⟩
        ⟨storeLimit p L s.memoryLimitList,
          Function.update s.rlimitAs task.signal (rlimitOf L)⟩
  | removeInval {p} (h : p ≤ 0) : Exit s o (.remove p) ⟨-EINVAL, .nothing⟩ s
  | removeMissing {p} (h : 0 < p) (hp : p ∉ s.pids) : Exit s o (.remove p) ⟨-102, .nothing⟩ s
  | removeOk {p temp} (h : 0 < p)
      (ht : lookup MemoryLimitation.pid p s.memoryLimitList = some temp) :
      Exit s o (.remove p) ⟨0, .nothing⟩
        { s with memoryLimitList := unlink MemoryLimitation.pid p s.memoryLimitList }

lemma Exit.of_add {s : Kernel Signal} {o : Outcomes Signal} {p : PidT} {L : SizeT} {code : Int}
    {s' : Kernel Signal} (h : taroAddMemoryLimit s p L o = (code, s')) :
    Exit s o (.add p L) ⟨code, .nothing⟩ s' := by
  unfold taroAddMemoryLimit at h
  cases hb : beforeMutex p L o with
  | error c =>
    rw [hb] at h
    cases h
    exact .addRefused hb
  | ok task =>
    rw [hb] at h
    simp only [addLocked] at h
    cases hl : lookup MemoryLimitation.pid p s.memoryLimitList with
    | some temp =>
      rw [hl] at h
      cases h
      exact .addExists hb (mem_keys_of_lookup hl)
    | none =>
      have hp : p ∉ s.pids := lookup_pid_eq_none_iff.mp hl
      rw [hl] at h
      dsimp only at h
      split_ifs at h with hk hlsm
      · cases h
        exact .addNomem hb hp hk
      · -- the node appended last is the one the EPERM path unlinks
        cases h
        rw [unlink_append_entry hp]
        exact .addPerm hb hp (by simpa using hk) hlsm
      · cases h
        exact .addOk hb hp (by simpa using hk) (not_not.mp hlsm)

lemma Exit.of_update {s : Kernel Signal} {o : Outcomes Signal} {p : PidT} {L : SizeT} {code : Int}
    {s' : Kernel Signal} (h : taroUpdateMemoryLimit s p L o = (code, s')) :
    Exit s o (.update p L) ⟨code, .nothing⟩ s' := by
  unfold taroUpdateMemoryLimit at h
  cases hb : beforeMutex p L o with
  | error c =>
    rw [hb] at h
    cases h
    exact .updateRefused hb
  | ok task =>
    rw [hb] at h
    simp only [updateLocked] at h
    cases hl : lookup MemoryLimitation.pid p s.memoryLimitList with
    | none =>
      rw [hl] at h
      cases h
      exact .updateMissing hb (lookup_pid_eq_none_iff.mp hl)
    | some temp =>
      rw [hl] at h
      dsimp only at h
      split_ifs at h with hx hlsm
      · cases h
        exact .updateExceeds hb hl hx
      · cases h
        exact .updatePerm hb hl (by simpa using hx) hlsm
      · cases h
        exact .updateOk hb hl (by simpa using hx) (not_not.mp hlsm)

lemma Exit.of_remove {s : Kernel Signal} {o : Outcomes Signal} {p : PidT} {code : Int}
    {s' : Kernel Signal} (h : taroRemoveMemoryLimit s p = (code, s')) :
    Exit s o (.remove p) ⟨code, .nothing⟩ s' := by
  unfold taroRemoveMemoryLimit at h
  split_ifs at h with hp
  · cases h
    exact .removeInval hp
  · have hpos : 0 < p := Int32.not_le.mp hp
    cases hl : lookup MemoryLimitation.pid p s.memoryLimitList with
    | none =>
      rw [hl] at h
      cases h
      exact .removeMissing hpos (lookup_pid_eq_none_iff.mp hl)
    | some temp =>
      rw [hl] at h
      cases h
      rw [key_of_lookup hl]
      exact .removeOk hpos hl

/-- Every call ends in one of the exits. -/
theorem Exit.of_syscall {s : Kernel Signal} {i : Invocation Signal} {r : Ret} {s' : Kernel Signal}
    (h : syscall s i = (r, s')) : Exit s i.outcomes i.call r s' := by
  obtain ⟨c, o⟩ := i
  cases c with
  | add p L =>
    cases h
    exact .of_add rfl
  | get u n c =>
    cases h
    exact .get
  | update p L =>
    cases h
    exact .of_update rfl
  | remove p =>
    cases h
    exact .of_remove rfl

/-- The exit a call takes. -/
lemma exit_syscall (s : Kernel Signal) (i : Invocation Signal) :
    Exit s i.outcomes i.call (syscall s i).1 (syscall s i).2 := .of_syscall rfl

/-! ### Successful calls -/

variable {s s' : Kernel Signal} {o : Outcomes Signal} {r : Ret} {p : PidT} {L : SizeT}

lemma Exit.add_ok (h : Exit s o (.add p L) r s') (hcode : r.code = 0) :
    ∃ task, beforeMutex p L o = .ok task ∧ p ∉ s.pids ∧
      s' = ⟨s.memoryLimitList ++ [⟨p, L⟩],
        Function.update s.rlimitAs task.signal (rlimitOf L)⟩ := by
  cases h with
  | addRefused h => exact absurd hcode (Int.ne_of_lt (beforeMutex_error_neg h))
  | addOk h hp hk hlsm => exact ⟨_, h, hp, rfl⟩
  | _ => exact absurd hcode (by decide)

lemma Exit.update_ok (h : Exit s o (.update p L) r s') (hcode : r.code = 0) :
    ∃ task temp, beforeMutex p L o = .ok task ∧
      lookup MemoryLimitation.pid p s.memoryLimitList = some temp ∧
      exceedsLimit task L = false ∧ o.securityTaskSetrlimit = 0 ∧
      s' = ⟨storeLimit p L s.memoryLimitList,
        Function.update s.rlimitAs task.signal (rlimitOf L)⟩ := by
  cases h with
  | updateRefused h => exact absurd hcode (Int.ne_of_lt (beforeMutex_error_neg h))
  | updateOk h ht hx hlsm => exact ⟨_, _, h, ht, hx, hlsm, rfl⟩
  | _ => exact absurd hcode (by decide)

/-- Add returns `-101` for a live process exactly when its pid is registered. -/
lemma Exit.add_exists_iff {task : TaskStruct Signal} (h : Exit s o (.add p L) r s')
    (hb : beforeMutex p L o = .ok task) : r.code = -101 ↔ p ∈ s.pids := by
  cases h with
  | addRefused h =>
    rw [hb] at h
    cases h
  | addExists h hp => exact ⟨fun _ => hp, fun _ => rfl⟩
  | addNomem h hp hk => exact ⟨fun hcode => absurd hcode (by decide), fun hmem => absurd hmem hp⟩
  | addPerm h hp hk hlsm =>
    exact ⟨fun hcode => absurd hcode (by decide), fun hmem => absurd hmem hp⟩
  | addOk h hp hk hlsm => exact ⟨fun hcode => absurd hcode (by decide), fun hmem => absurd hmem hp⟩

lemma Exit.get_eq {u c : UInt64} {n : SizeT} (h : Exit s o (.get u n c) r s') : s' = s := by
  cases h
  rfl

lemma Exit.remove_ok (h : Exit s o (.remove p) r s') (hcode : r.code = 0) :
    0 < p ∧ p ∈ s.pids ∧
      s' = { s with memoryLimitList := unlink MemoryLimitation.pid p s.memoryLimitList } := by
  cases h with
  | removeOk h ht => exact ⟨h, mem_keys_of_lookup ht, rfl⟩
  | _ => exact absurd hcode (by decide)

end Taro
