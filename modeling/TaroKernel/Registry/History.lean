import TaroKernel.Registry.Invariant
import TaroKernel.Registry.Get

/-!
# The registry is determined by the return codes

Reading nothing but the calls made so far and what they returned, one knows which pids the
registry holds and in which order: those whose last successful add has not been followed by a
successful remove, in the order of these adds.
-/

namespace Taro

open Machine

variable {Signal : Type*}

/-- The calls made so far with what they returned, oldest first. -/
abbrev History (Signal : Type*) := List (Step (Kernel Signal) (Invocation Signal) Ret)

/-- The pid a step of a run added, if it is an add that returned 0. -/
def stepAdded (st : Step (Kernel Signal) (Invocation Signal) Ret) : Option PidT :=
  addedPid st.input.call st.output.code

/-- The pid a step of a run removed, if it is a remove that returned 0. -/
def stepRemoved (st : Step (Kernel Signal) (Invocation Signal) Ret) : Option PidT :=
  removedPid st.input.call st.output.code

/-- The pids of the successful adds that no later successful remove has undone, oldest first. -/
def standingAdds : History Signal → List PidT
  | []      => []
  | st :: h =>
    match stepAdded st with
    | none   => standingAdds h
    | some p => if p ∈ h.filterMap stepRemoved then standingAdds h else p :: standingAdds h

variable {h : History Signal} {st : Step (Kernel Signal) (Invocation Signal) Ret} {p : PidT}

lemma standingAdds_cons_none (hst : stepAdded st = none) :
    standingAdds (st :: h) = standingAdds h := by
  simp only [standingAdds, hst]

lemma standingAdds_cons_some (hst : stepAdded st = some p) :
    standingAdds (st :: h) =
      if p ∈ h.filterMap stepRemoved then standingAdds h else p :: standingAdds h := by
  simp only [standingAdds, hst]

/-- A pid stands exactly when some successful add of it has no successful remove after it. -/
lemma mem_standingAdds_iff :
    p ∈ standingAdds h ↔ ∃ h₁ st h₂, h = h₁ ++ st :: h₂ ∧ stepAdded st = some p ∧
      ∀ st' ∈ h₂, stepRemoved st' ≠ some p := by
  induction h with
  | nil => simp [standingAdds]
  | cons st h ih =>
    -- an add that stands is the oldest step, or one of the later ones
    have hsplit : (∃ h₁ st' h₂, st :: h = h₁ ++ st' :: h₂ ∧ stepAdded st' = some p ∧
          ∀ st'' ∈ h₂, stepRemoved st'' ≠ some p) ↔
        (stepAdded st = some p ∧ ∀ st'' ∈ h, stepRemoved st'' ≠ some p) ∨
          p ∈ standingAdds h := by
      rw [ih]
      constructor
      · rintro ⟨h₁, st', h₂, heq, hadd, hrem⟩
        cases h₁ with
        | nil =>
          obtain ⟨rfl, rfl⟩ := List.cons.inj heq
          exact Or.inl ⟨hadd, hrem⟩
        | cons st₀ h₁ =>
          obtain ⟨_, rfl⟩ := List.cons.inj heq
          exact Or.inr ⟨h₁, st', h₂, rfl, hadd, hrem⟩
      · rintro (⟨hadd, hrem⟩ | ⟨h₁, st', h₂, rfl, hadd, hrem⟩)
        · exact ⟨[], st, h, rfl, hadd, hrem⟩
        · exact ⟨st :: h₁, st', h₂, rfl, hadd, hrem⟩
    rw [hsplit]
    cases hst : stepAdded st with
    | none => simp [standingAdds_cons_none hst]
    | some q =>
      rw [standingAdds_cons_some hst]
      by_cases hq : q ∈ h.filterMap stepRemoved
      · rw [if_pos hq]
        obtain ⟨st', hst', hrem⟩ := List.mem_filterMap.mp hq
        refine ⟨Or.inr, fun hor => hor.resolve_left ?_⟩
        rintro ⟨hqp, hall⟩
        exact hall st' hst' (hrem.trans hqp)
      · rw [if_neg hq, List.mem_cons]
        have hall : p = q → ∀ st' ∈ h, stepRemoved st' ≠ some p := by
          rintro rfl st' hst' hrem
          exact hq (List.mem_filterMap.mpr ⟨st', hst', hrem⟩)
        constructor
        · rintro (rfl | hp)
          · exact Or.inl ⟨rfl, hall rfl⟩
          · exact Or.inr hp
        · rintro (⟨hqp, _⟩ | hp)
          · exact Or.inl (Option.some.inj hqp).symm
          · exact Or.inr hp

/-! ### One more call -/

lemma standingAdds_append_added (hadd : stepAdded st = some p) (hrem : stepRemoved st = none) :
    standingAdds (h ++ [st]) = standingAdds h ++ [p] := by
  induction h with
  | nil => simp [standingAdds, hadd]
  | cons st₀ h ih =>
    rw [List.cons_append]
    cases h₀ : stepAdded st₀ with
    | none => rw [standingAdds_cons_none h₀, standingAdds_cons_none h₀, ih]
    | some q =>
      rw [standingAdds_cons_some h₀, standingAdds_cons_some h₀, ih, List.filterMap_append]
      simp only [List.filterMap_cons, hrem, List.filterMap_nil, List.append_nil]
      split_ifs
      · rfl
      · rfl

lemma standingAdds_append_removed (hadd : stepAdded st = none) (hrem : stepRemoved st = some p) :
    standingAdds (h ++ [st]) = (standingAdds h).filter (· != p) := by
  induction h with
  | nil => simp [standingAdds, hadd]
  | cons st₀ h ih =>
    rw [List.cons_append]
    cases h₀ : stepAdded st₀ with
    | none => rw [standingAdds_cons_none h₀, standingAdds_cons_none h₀, ih]
    | some q =>
      rw [standingAdds_cons_some h₀, standingAdds_cons_some h₀, ih, List.filterMap_append]
      simp only [List.filterMap_cons, hrem, List.filterMap_nil, List.mem_append,
        List.mem_singleton]
      by_cases hq : q ∈ h.filterMap stepRemoved
      · rw [if_pos (Or.inl hq), if_pos hq]
      · by_cases hqp : q = p
        · rw [if_pos (Or.inr hqp), if_neg hq, List.filter_cons_of_neg (by simp [hqp])]
        · rw [if_neg (by simp [hq, hqp]), if_neg hq, List.filter_cons_of_pos (by simp [hqp])]

lemma standingAdds_append_neither (hadd : stepAdded st = none) (hrem : stepRemoved st = none) :
    standingAdds (h ++ [st]) = standingAdds h := by
  induction h with
  | nil => simp [standingAdds, hadd]
  | cons st₀ h ih =>
    rw [List.cons_append]
    cases h₀ : stepAdded st₀ with
    | none => rw [standingAdds_cons_none h₀, standingAdds_cons_none h₀, ih]
    | some q =>
      rw [standingAdds_cons_some h₀, standingAdds_cons_some h₀, ih, List.filterMap_append]
      simp only [List.filterMap_cons, hrem, List.filterMap_nil, List.append_nil]

/-! ### Whole runs -/

variable [DecidableEq Signal]

/-- What one call does to the registry is what it does to the standing adds. -/
lemma pids_eq_standingAdds_step {s : Kernel Signal} (i : Invocation Signal)
    (hnd : s.pids.Nodup) (hs : s.pids = standingAdds h) :
    (syscall s i).2.pids = standingAdds (h ++ [stepAt syscall s i]) := by
  have hexit := exit_syscall s i
  rcases hexit.pids_cases with ⟨p, hadd, hrem, _, heq⟩ | ⟨p, hadd, hrem, heq⟩ | ⟨hadd, hrem, heq⟩
  · have hst : stepAdded (stepAt syscall s i) = some p := hadd
    rw [heq, standingAdds_append_added hst hrem, hs]
  · have hst : stepAdded (stepAt syscall s i) = none := hadd
    rw [heq, standingAdds_append_removed hst hrem, hnd.erase_eq_filter, hs]
  · have hst : stepAdded (stepAt syscall s i) = none := hadd
    rw [heq, standingAdds_append_neither hst hrem, hs]

theorem pids_eq_standingAdds (rlimitAs : Signal → Rlimit) (is : List (Invocation Signal)) :
    (final syscall (boot rlimitAs) is).pids =
      standingAdds (steps syscall (boot rlimitAs) is) := by
  suffices hrun : (final syscall (boot rlimitAs) is).pids.Nodup ∧
      (final syscall (boot rlimitAs) is).pids = standingAdds (steps syscall (boot rlimitAs) is) from
    hrun.2
  refine history_induction (P := fun h s => s.pids.Nodup ∧ s.pids = standingAdds h) ?_ ?_ is
  · exact ⟨List.nodup_nil, rfl⟩
  · rintro h s i ⟨hnd, hs⟩
    have hexit := exit_syscall s i
    exact ⟨hexit.nodup hnd, pids_eq_standingAdds_step i hnd hs⟩

/-- The registry after any run of the four syscalls from the empty list, read off the history of
the run: a pid is in it exactly when an add of it returned 0 and no remove of it has returned 0
since; no pid occurs twice; they are ordered by the time of these adds; no limit is 0; and a get
that returns 0 reports the first `min (length, max_entries)` of them. -/
theorem registry_history (rlimitAs : Signal → Rlimit) (is : List (Invocation Signal)) :
    let h := steps syscall (boot rlimitAs) is
    let s := final syscall (boot rlimitAs) is
    (∀ p, p ∈ s.pids ↔ ∃ h₁ st h₂, h = h₁ ++ st :: h₂ ∧ stepAdded st = some p ∧
      ∀ st' ∈ h₂, stepRemoved st' ≠ some p) ∧
    (∀ p ∈ s.pids, s.pids.count p = 1) ∧
    s.pids = standingAdds h ∧
    (∀ e ∈ s.memoryLimitList, e.memoryLimit ≠ 0) ∧
    (∀ (u c : UInt64) (n : SizeT) (o : Outcomes Signal),
      (syscall s ⟨.get u n c, o⟩).1.code = 0 →
      ∃ (records : List MemoryLimitation) (count : Int32),
        (syscall s ⟨.get u n c, o⟩).1.copied = ⟨some records, some count⟩ ∧
        count.toInt = min s.pids.length n.toNat ∧
        records.map MemoryLimitation.pid = s.pids.take (min s.pids.length n.toNat)) := by
  intro h s
  have hpids : s.pids = standingAdds h := pids_eq_standingAdds rlimitAs is
  have hreach : Reachable syscall (boot rlimitAs) s := ⟨is, rfl⟩
  have hwf : WellFormed s := wellFormed_of_reachable hreach
  refine ⟨fun p => ?_, fun p hp => ?_, hpids, hwf.nonzero, fun u c n o hcode => ?_⟩
  · rw [hpids]
    exact mem_standingAdds_iff
  · exact List.count_eq_one_of_mem hwf.nodup hp
  · obtain ⟨count, hcount, hcopied⟩ := taroGetMemoryLimits_ok hwf.length_le hcode
    refine ⟨_, count, hcopied, ?_, ?_⟩
    · simpa [Kernel.pids] using hcount
    · rw [List.map_take, ← Kernel.pids, List.take_eq_take_iff]
      omega

end Taro
