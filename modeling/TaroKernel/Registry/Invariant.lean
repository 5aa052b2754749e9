import TaroKernel.Lib.Machine
import TaroKernel.Registry.Exits

/-!
# The invariant of the registry

Whatever is called, with whatever arguments and answers, the pids of the registry stay distinct
and non-negative and the limits non-zero. Pids being 32-bit, this also bounds its length.
-/

namespace Taro

open Keyed Machine

variable {Signal : Type*}

/-- What every call keeps. -/
structure WellFormed (s : Kernel Signal) : Prop where
  nodup : s.pids.Nodup
  nonneg : ∀ e ∈ s.memoryLimitList, 0 ≤ e.pid
  nonzero : ∀ e ∈ s.memoryLimitList, e.memoryLimit ≠ 0

lemma wellFormed_boot (rlimitAs : Signal → Rlimit) : WellFormed (boot rlimitAs) where
  nodup := List.nodup_nil
  nonneg := by simp [boot]
  nonzero := by simp [boot]

lemma WellFormed.length_le {s : Kernel Signal} (h : WellFormed s) :
    s.memoryLimitList.length ≤ 2 ^ 31 := by
  have hpids : ∀ p ∈ s.pids, 0 ≤ p := by
    intro p hp
    obtain ⟨e, he, rfl⟩ := mem_pids_iff.mp hp
    exact h.nonneg e he
  simpa [Kernel.pids] using length_le_of_nodup_pids h.nodup hpids

variable [DecidableEq Signal] {s s' : Kernel Signal} {o : Outcomes Signal} {c : Call} {r : Ret}

/-- The pid a call put into the registry: an add that returned 0. -/
def addedPid (c : Call) (code : Int) : Option PidT :=
  match c with
  | .add p _ => if code = 0 then some p else none
  | _        => none

/-- The pid a call took out of the registry: a remove that returned 0. -/
def removedPid (c : Call) (code : Int) : Option PidT :=
  match c with
  | .remove p => if code = 0 then some p else none
  | _         => none

/-- A call appends a pid, takes one out, or leaves the pids alone, and its return code says
which. -/
lemma Exit.pids_cases (h : Exit s o c r s') :
    (∃ p, addedPid c r.code = some p ∧ removedPid c r.code = none ∧ p ∉ s.pids ∧
      s'.pids = s.pids ++ [p]) ∨
    (∃ p, addedPid c r.code = none ∧ removedPid c r.code = some p ∧ s'.pids = s.pids.erase p) ∨
    (addedPid c r.code = none ∧ removedPid c r.code = none ∧ s'.pids = s.pids) := by
  cases h with
  | addOk h hp hk hlsm =>
    exact Or.inl ⟨_, rfl, rfl, hp, by simp [Kernel.pids]⟩
  | removeOk h ht =>
    exact Or.inr (Or.inl ⟨_, rfl, rfl, map_key_unlink⟩)
  | addRefused h =>
    have hneg := beforeMutex_error_neg h
    exact Or.inr (Or.inr ⟨if_neg hneg.ne, rfl, rfl⟩)
  | updatePerm h ht hx hlsm | updateOk h ht hx hlsm =>
    exact Or.inr (Or.inr ⟨rfl, rfl, map_pid_storeLimit _ _ _⟩)
  | _ => exact Or.inr (Or.inr ⟨rfl, rfl, rfl⟩)

lemma Exit.nodup (h : Exit s o c r s') (hs : s.pids.Nodup) : s'.pids.Nodup := by
  rcases h.pids_cases with ⟨p, _, _, hp, heq⟩ | ⟨p, _, _, heq⟩ | ⟨_, _, heq⟩
  · rw [heq]
    exact hs.append (List.nodup_singleton p) (by simpa using hp)
  · rw [heq]
    exact hs.erase p
  · rw [heq]
    exact hs

/-- An entry after a call was there before, or carries the checked arguments of the call. -/
lemma Exit.mem_entries (h : Exit s o c r s') {e : MemoryLimitation}
    (he : e ∈ s'.memoryLimitList) :
    e ∈ s.memoryLimitList ∨ (0 ≤ e.pid ∧ e.memoryLimit ≠ 0) := by
  cases h with
  | addOk h hp hk hlsm =>
    obtain ⟨hp₀, hL, _⟩ := beforeMutex_eq_ok_iff.mp h
    rcases List.mem_append.mp he with he | he
    · exact Or.inl he
    · obtain rfl := List.mem_singleton.mp he
      exact Or.inr ⟨hp₀, hL⟩
  | updatePerm h ht hx hlsm | updateOk h ht hx hlsm =>
    obtain ⟨hp₀, hL, _⟩ := beforeMutex_eq_ok_iff.mp h
    rcases mem_modify he with he | ⟨x, hx, rfl⟩
    · exact Or.inl he
    · refine Or.inr ⟨?_, hL⟩
      rw [← key_of_lookup hx] at hp₀
      exact hp₀
  | removeOk h ht => exact Or.inl (mem_of_mem_unlink he)
  | _ => exact Or.inl he

lemma Exit.wellFormed (h : Exit s o c r s') (hs : WellFormed s) : WellFormed s' where
  nodup := h.nodup hs.nodup
  nonneg := by
    intro e he
    rcases h.mem_entries he with he | ⟨hp, _⟩
    · exact hs.nonneg e he
    · exact hp
  nonzero := by
    intro e he
    rcases h.mem_entries he with he | ⟨_, hL⟩
    · exact hs.nonzero e he
    · exact hL

lemma syscall_wellFormed (s : Kernel Signal) (i : Invocation Signal) (hs : WellFormed s) :
    WellFormed (syscall s i).2 :=
  (exit_syscall s i).wellFormed hs

/-- The invariant holds in every state a run of the syscalls reaches. -/
theorem wellFormed_of_reachable {rlimitAs : Signal → Rlimit}
    (h : Reachable syscall (boot rlimitAs) s) : WellFormed s :=
  h.invariant (wellFormed_boot rlimitAs) syscall_wellFormed

end Taro
