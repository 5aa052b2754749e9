import TaroKernel.Registry.Get
import TaroKernel.Registry.Invariant
import TaroKernel.V1.Syscalls

/-!
# The two versions of the registry in lockstep

Both versions get the same calls with the same answers. As long as nothing outside the registry
stands in the way of a call (its process is there, its caller is privileged, the LSM grants, user
memory can be written), they decide the same and their lists are each other's reverse. The one
check they word differently, whether a process already exceeds the new limit, is stricter in the
new version.
-/

namespace Taro.V1

open Keyed Machine

variable {Signal : Type*}

/-- Nothing but the registry decides about the call: its pid is positive and has a live task, the
caller is capable, the LSM grants, and a get finds memory for its buffer. -/
structure Unhindered (i : Invocation Signal) : Prop where
  pos : ∀ p, i.call.target = some p → 0 < p
  live : ∀ p, i.call.target = some p → i.outcomes.findTaskByVpid.isSome
  capable : i.outcomes.capable = true
  lsm : i.outcomes.securityTaskSetrlimit = 0
  buffer : i.call.target = none → i.outcomes.kmalloc = true

/-! ### Decisions -/

/-- A limit is at least the number of pages it allows. -/
lemma exceedsLimit_of_exceedsLimit {task : TaskStruct Signal} {L : SizeT}
    (h : exceedsLimit task L = true) : Taro.exceedsLimit task L = true := by
  unfold exceedsLimit at h
  unfold Taro.exceedsLimit
  cases hmm : task.mm with
  | none => simp [hmm] at h
  | some mm =>
    simp only [hmm, gt_iff_lt, decide_eq_true_eq] at h ⊢
    have hshift : L >>> PAGE_SHIFT ≤ L := by
      rw [UInt64.le_iff_toNat_le, UInt64.toNat_shiftRight, Nat.shiftRight_eq_div_pow]
      exact Nat.div_le_self _ _
    exact UInt64.lt_of_le_of_lt hshift h

/-- Both versions decide the same, unless the new one says that the process exceeds the limit. -/
lemma decision_eq {i : Invocation Signal} {p : PidT} (h : Unhindered i)
    (hp : i.call.target = some p) (registered : Bool)
    (hcode : (i.decision registered).code ≠ -100) :
    decision i registered = ((i.decision registered).code, (i.decision registered).edit) := by
  obtain ⟨c, o⟩ := i
  obtain ⟨task, hfind⟩ : ∃ task, o.findTaskByVpid = some task :=
    Option.isSome_iff_exists.mp (h.live p hp)
  have hpos := h.pos p hp
  have hneg : ¬ p < 0 := Int32.not_lt.mpr (Int32.le_of_lt hpos)
  have hcap : o.capable = true := h.capable
  have hlsm : o.securityTaskSetrlimit = 0 := h.lsm
  -- both versions let every limit but zero pass
  have hargs : ∀ L : SizeT, L ≠ 0 → beforeMutex p L o = .ok task ∧ ¬ (p < 0 ∨ L ≤ 0) := by
    intro L hL
    exact ⟨beforeMutex_eq_ok_iff.mpr ⟨Int32.le_of_lt hpos, hL, hfind⟩, by simp [hneg, hL]⟩
  cases c with
  | get u n c => cases hp
  | remove q =>
    cases hp
    simp only [decision, Invocation.decision, hneg, Int32.not_le.mpr hpos, hcap, reduceIte,
      reduceCtorEq]
    split_ifs <;> rfl
  | add q L =>
    cases hp
    by_cases hL : L = 0
    · simp [decision, Invocation.decision, beforeMutex, hL]
    · simp only [decision, Invocation.decision, hargs L hL, hlsm, ne_eq, not_true, reduceIte]
      split_ifs <;> rfl
  | update q L =>
    cases hp
    by_cases hL : L = 0
    · simp [decision, Invocation.decision, beforeMutex, hL]
    · simp only [decision, Invocation.decision, hargs L hL, hlsm, hcap, hfind, ne_eq, not_true,
        reduceIte, reduceCtorEq] at hcode ⊢
      cases registered with
      | false => rfl
      | true =>
        by_cases hnew : Taro.exceedsLimit task L = true
        · simp [hnew] at hcode
        · have hold : exceedsLimit task L ≠ true := fun hx => hnew (exceedsLimit_of_exceedsLimit hx)
          simp [hold, hnew]

/-! ### Edits -/

lemma applyEdit_reverse {l : List MemoryLimitation} (hnd : (l.map MemoryLimitation.pid).Nodup)
    (p : PidT) (e : Edit) : applyEdit p l.reverse e = (e.apply p l).reverse := by
  cases e with
  | keep => rfl
  | append L => simp [applyEdit, Edit.apply]
  | store L => exact modify_reverse hnd
  | unlink => exact unlink_reverse hnd

/-! ### Gets -/

lemma fillBuffer_eq (maxEntries : SizeT) (l : List MemoryLimitation) (count : Int32)
    (kBuffer : List MemoryLimitation) :
    fillBuffer maxEntries l count kBuffer = Taro.fillBuffer maxEntries l count kBuffer := by
  induction l generalizing count kBuffer with
  | nil => rfl
  | cons temp rest ih =>
    simp only [fillBuffer, Taro.fillBuffer, ih]
    by_cases hfull : toSizeT count ≥ maxEntries
    · rw [if_neg (UInt64.not_lt.mpr hfull), if_pos hfull]
    · rw [if_pos (UInt64.not_le.mp hfull), if_neg hfull]

section Gets

variable {l : List MemoryLimitation} {u c : UInt64} {n : SizeT} {o : Outcomes Signal}

/-- A get of the new version whose copies succeed. -/
lemma new_get_eq (hk : o.kmalloc = true)
    (h : (Taro.taroGetMemoryLimits l u n c o).code ≠ -EFAULT) :
    Taro.taroGetMemoryLimits l u n c o =
      if u = 0 ∨ c = 0 ∨ n ≤ 0 then ⟨-EINVAL, .nothing⟩
      else ⟨0, ⟨some (Taro.fillBuffer n l 0 []).2, some (Taro.fillBuffer n l 0 []).1⟩⟩ := by
  simp only [Taro.taroGetMemoryLimits, hk, reduceCtorEq, reduceIte] at h ⊢
  split_ifs at h ⊢ <;> first | rfl | exact absurd rfl h

/-- A get of the old version whose copies succeed. -/
lemma old_get_eq (hk : o.kmalloc = true) (h : (taroGetMemoryLimits l u n c o).code ≠ -EFAULT) :
    taroGetMemoryLimits l u n c o =
      if u = 0 ∨ c = 0 ∨ n ≤ 0 then ⟨-EINVAL, .nothing⟩
      else ⟨0, ⟨some (Taro.fillBuffer n l 0 []).2, some (Taro.fillBuffer n l 0 []).1⟩⟩ := by
  simp only [taroGetMemoryLimits, fillBuffer_eq, hk, reduceCtorEq, reduceIte] at h ⊢
  split_ifs at h ⊢ <;> first | rfl | exact absurd rfl h

end Gets

/-! ### Lockstep -/

variable {old : List MemoryLimitation} {new : Kernel Signal} {i : Invocation Signal}

/-- The old list is the new one read backwards. -/
structure Mirrors (old : List MemoryLimitation) (new : Kernel Signal) : Prop where
  reverse : old = new.memoryLimitList.reverse
  wellFormed : WellFormed new

lemma Mirrors.mem_pids_iff (h : Mirrors old new) (p : PidT) :
    p ∈ old.map MemoryLimitation.pid ↔ p ∈ new.pids := by
  rw [h.reverse, Kernel.pids]
  simp

/-- What both versions report of a registry that fits into the buffer. -/
lemma Mirrors.get {u c : UInt64} {n : SizeT} {o : Outcomes Signal} (h : Mirrors old new)
    (hk : o.kmalloc = true) (hold : (taroGetMemoryLimits old u n c o).code ≠ -EFAULT)
    (hnew : (Taro.taroGetMemoryLimits new.memoryLimitList u n c o).code ≠ -EFAULT) :
    (taroGetMemoryLimits old u n c o).code =
      (Taro.taroGetMemoryLimits new.memoryLimitList u n c o).code ∧
    (old.length ≤ n.toNat →
      (taroGetMemoryLimits old u n c o).copied.uProcessesBuffer =
        (Taro.taroGetMemoryLimits new.memoryLimitList u n c o).copied.uProcessesBuffer.map
          List.reverse ∧
      (taroGetMemoryLimits old u n c o).copied.processesReturned =
        (Taro.taroGetMemoryLimits new.memoryLimitList u n c o).copied.processesReturned) := by
  have hlen : old.length = new.memoryLimitList.length := by rw [h.reverse, List.length_reverse]
  rw [old_get_eq hk hold, new_get_eq hk hnew]
  split_ifs with hargs
  · exact ⟨rfl, fun _ => ⟨rfl, rfl⟩⟩
  · refine ⟨rfl, ?_⟩
    intro hn
    have hbound := h.wellFormed.length_le
    rw [fillBuffer_nil_eq n _ hbound, fillBuffer_nil_eq n _ (hlen ▸ hbound),
      List.take_of_length_le hn, List.take_of_length_le (hlen ▸ hn)]
    simp [h.reverse]

variable [DecidableEq Signal]

lemma Mirrors.step_of_target {p : PidT} (h : Mirrors old new) (hi : Unhindered i)
    (hp : i.call.target = some p) (hcode : (Taro.syscall new i).1.code ≠ -100) :
    (syscall old i).1 = (Taro.syscall new i).1 ∧
      Mirrors (syscall old i).2 (Taro.syscall new i).2 := by
  have hwf := syscall_wellFormed new i h.wellFormed
  rw [Taro.syscall_eq_decision hp] at hcode hwf ⊢
  rw [syscall_eq_decision hp]
  simp only [h.mem_pids_iff, decision_eq hi hp _ hcode]
  refine ⟨trivial, ?_, hwf⟩
  rw [h.reverse, applyEdit_reverse h.wellFormed.nodup]
  rfl

/-- What the two versions owe each other in one step: the same code, lists that mirror each other,
and from a get with room for the whole list the same entries in opposite order. -/
structure Agree
    (st : Step (List MemoryLimitation × Kernel Signal) (Invocation Signal) (Ret × Ret)) : Prop where
  code : st.output.1.code = st.output.2.code
  reverse : st.post.1 = st.post.2.memoryLimitList.reverse
  report : ∀ u n c, st.input.call = .get u n c → st.pre.2.memoryLimitList.length ≤ n.toNat →
    st.output.1.copied.uProcessesBuffer = st.output.2.copied.uProcessesBuffer.map List.reverse ∧
      st.output.1.copied.processesReturned = st.output.2.copied.processesReturned

/-- The answers that end the comparison: an update of the new version that finds the process above
the limit, and a copy to user memory that fails in either version. -/
def Apart (r : Ret × Ret) : Prop := r.2.code = -100 ∨ r.1.code = -EFAULT ∨ r.2.code = -EFAULT

lemma Mirrors.step (h : Mirrors old new) (hi : Unhindered i)
    (hapart : ¬ Apart ((syscall old i).1, (Taro.syscall new i).1)) :
    Agree (stepAt (both syscall Taro.syscall) (old, new) i) ∧
      Mirrors (syscall old i).2 (Taro.syscall new i).2 := by
  simp only [Apart, not_or] at hapart
  obtain ⟨h100, hold, hnew⟩ := hapart
  cases hp : i.call.target with
  | some p =>
    obtain ⟨hret, hmirrors⟩ := h.step_of_target hi hp h100
    refine ⟨⟨congrArg Ret.code hret, hmirrors.reverse, ?_⟩, hmirrors⟩
    intro u n c hc
    simp only [stepAt_input] at hc
    simp [hc, Call.target] at hp
  | none =>
    obtain ⟨c, o⟩ := i
    cases c with
    | get u n c =>
      obtain ⟨hcode, hreport⟩ := h.get (hi.buffer rfl) hold hnew
      refine ⟨⟨hcode, h.reverse, ?_⟩, h⟩
      rintro u' n' c' hc hn
      cases hc
      apply hreport
      rwa [h.reverse, List.length_reverse]
    | add p L | update p L | remove p => cases hp

/-- Both versions on the same calls, from their empty lists. The pids are positive and have live
tasks, the callers are capable, the LSM grants, gets find memory for their buffer and their copies
succeed. As long as no update of the new version returns `-100`, every call returns the same in
both, the old list is the reverse of the new one, and a get with room for all entries reports
them in opposite order. -/
theorem lockstep (rlimitAs : Signal → Rlimit) (is : List (Invocation Signal))
    (his : ∀ i ∈ is, Unhindered i)
    (hrun : ∀ st ∈ steps (both syscall Taro.syscall) ([], boot rlimitAs) is, ¬ Apart st.output) :
    ∀ st ∈ steps (both syscall Taro.syscall) ([], boot rlimitAs) is, Agree st := by
  have hboot : Mirrors [] (boot rlimitAs) := ⟨rfl, wellFormed_boot rlimitAs⟩
  generalize ([] : List MemoryLimitation) = old at hboot hrun ⊢
  generalize boot rlimitAs = new at hboot hrun ⊢
  induction is generalizing old new with
  | nil => simp
  | cons i is ih =>
    simp only [steps_cons, List.forall_mem_cons] at his hrun ⊢
    obtain ⟨hagree, hmirrors⟩ := hboot.step his.1 hrun.1
    exact ⟨hagree, ih his.2 _ _ hmirrors hrun.2⟩

/-- An add, an update and a get of process 7 in both versions. -/
theorem lockstep_one_process :
    let o : Outcomes Unit := ⟨⟨true, true, 0, 0, 0⟩, some ⟨⟨1, ()⟩, some ⟨1⟩⟩⟩
    ∀ st ∈ steps (both syscall Taro.syscall) ([], boot fun _ => ⟨0, 0⟩)
      [⟨.add 7 4096, o⟩, ⟨.update 7 8192, o⟩, ⟨.get 1 1 1, o⟩], Agree st := by
  intro o
  apply lockstep
  · intro i hi
    simp only [List.mem_cons, List.not_mem_nil, or_false] at hi
    rcases hi with rfl | rfl | rfl <;>
      exact ⟨by simp [Call.target], by simp [o], rfl, rfl, by simp [o]⟩
  · simp only [Apart]
    decide

end Taro.V1
