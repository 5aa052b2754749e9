import TaroKernel.Track.Interleaving

/-!
# Counts that fall

Two things can go wrong when queries and hooks overlap: a query may assign the pointer to the
counters when others have already used the ones it points to, and a hook may store a value that was
overtaken by others. Apart from these a count that was reported is never reported lower.
-/

namespace Taro.Track

open Machine

/-! ### Counts are small -/

def Move.isStore : Move → Bool
  | .hookStore _ => true
  | _            => false

/-- No counter and no loaded value is above `n`. -/
structure Below (n : ℕ) (s : Tracker) : Prop where
  arrays_le : ∀ a k, (s.arrays a k).toNat ≤ n
  loaded_le : ∀ h a k count, s.hooks h = some (.store a k count) → count.toNat ≤ n

lemma Below.mono {n n' : ℕ} {s : Tracker} (hs : Below n s) (hn : n ≤ n') : Below n' s :=
  ⟨fun a k => (hs.arrays_le a k).trans hn,
    fun h a k count hh => (hs.loaded_le h a k count hh).trans hn⟩

lemma toNat_succ {count : UInt64} (h : count.toNat + 1 < 2 ^ 64) :
    (count + 1).toNat = count.toNat + 1 := by
  have hone : (1 : UInt64).toNat = 1 := rfl
  rw [UInt64.toNat_add, hone, Nat.mod_eq_of_lt h]

/-- Only a store raises the bound, by one. -/
lemma Below.next {n : ℕ} {s : Tracker} (hs : Below n s) (m : Move)
    (hn : n + (if m.isStore then 1 else 0) < 2 ^ 64) :
    Below (n + if m.isStore then 1 else 0) (s.next m).2 := by
  have hmoved := moved_next s m
  generalize (s.next m).2 = s' at hmoved
  have hs' := hs.mono (Nat.le_add_right n (if m.isStore then 1 else 0))
  generalize hn' : n + (if m.isStore then 1 else 0) = n' at hn hs' ⊢
  -- a hook changes its phase, to one that has loaded at most `n'`
  have hhooks : ∀ {g : ℕ} {phase : Option Hook},
      (∀ a k count, phase = some (.store a k count) → count.toNat ≤ n') → ∀ h a k count,
      Function.update s.hooks g phase h = some (.store a k count) → count.toNat ≤ n' := by
    intro g phase hphase h a k count hh
    rw [Function.update_apply] at hh
    split_ifs at hh
    · exact hphase a k count hh
    · exact hs'.loaded_le h a k count hh
  cases hmoved with
  | idle => exact hs'
  | test phase hphase => exact ⟨hs'.arrays_le, hs'.loaded_le⟩
  | clear hq => exact ⟨hs'.arrays_le, hs'.loaded_le⟩
  | report hq ha => exact ⟨hs'.arrays_le, hs'.loaded_le⟩
  | fail => exact ⟨hs'.arrays_le, hs'.loaded_le⟩
  | skip => exact ⟨hs'.arrays_le, hs'.loaded_le⟩
  | enter => exact ⟨hs'.arrays_le, hhooks (by simp)⟩
  | fault => exact ⟨hs'.arrays_le, hhooks (by simp)⟩
  | publish hq =>
    refine ⟨fun a k => ?_, hs'.loaded_le⟩
    by_cases ha : a = s.allocated
    · simp [ha]
    · simpa [ha] using hs'.arrays_le a k
  | @load h k a ha =>
    refine ⟨hs'.arrays_le, hhooks ?_⟩
    rintro a' k' count hphase
    cases hphase
    exact hs'.arrays_le a k
  | @store h a k count hh =>
    refine ⟨fun a' k' => ?_, hhooks (by simp)⟩
    have hcount := hs.loaded_le h a k count hh
    have hn' : n + 1 = n' := hn'
    have hsucc : (count + 1).toNat ≤ n' := by
      rw [toNat_succ (by omega)]
      omega
    by_cases ha : a' = a
    · subst ha
      by_cases hk : k' = k
      · simpa [hk] using hsucc
      · simpa [hk] using hs'.arrays_le a' k'
    · simpa [ha] using hs'.arrays_le a' k'

/-! ### Counts fall only in a race -/

/-- The steps that lower what queries see: the pointer is assigned while the counters it pointed to
were in use, or a hook stores a count that others have raised by more than one since it was
loaded. -/
def Race (s : Tracker) : Move → Prop
  | .queryInit q _ => (∃ start, s.queries q = some (.init start)) ∧ ∃ k, s.visible k ≠ 0
  | .hookStore h   => ∃ a k count, s.hooks h = some (.store a k count) ∧
      s.syscallCounters = some a ∧ count.toNat + 1 < (s.arrays a k).toNat
  | _              => False

/-- A store into an array that is not the current one is not seen. -/
lemma visible_store (s : Tracker) (a : ℕ) (k k' : Entry) (count : UInt64) (hooks : ℕ → Option Hook)
    (now : ℕ) :
    { s with
      arrays := Function.update s.arrays a (Function.update (s.arrays a) k count)
      hooks := hooks
      now := now }.visible k' =
        if s.syscallCounters = some a ∧ k' = k then count else s.visible k' := by
  cases ha : s.syscallCounters with
  | none => simp [Tracker.visible, ha]
  | some a' =>
    by_cases haa : a' = a
    · subst haa
      simp [Tracker.visible, ha, Function.update_apply]
    · simp [Tracker.visible, ha, haa]

lemma visible_le_next_iff {n : ℕ} {s : Tracker} (hs : Below n s) (m : Move)
    (hn : n + (if m.isStore then 1 else 0) < 2 ^ 64) :
    (∀ k, s.visible k ≤ (s.next m).2.visible k) ↔ ¬ Race s m := by
  constructor
  · intro hmono hrace
    cases m with
    | queryInit q kzalloc =>
      obtain ⟨⟨start, hq⟩, k, hk⟩ := hrace
      have hzero : (s.next (.queryInit q kzalloc)).2.visible k = 0 := by
        cases kzalloc <;> simp [Tracker.next, hq, Tracker.visible]
      have hle := hmono k
      rw [hzero] at hle
      exact hk (UInt64.le_antisymm hle (UInt64.le_iff_toNat_le.mpr (Nat.zero_le _)))
    | hookStore h =>
      obtain ⟨a, k, count, hh, ha, hlt⟩ := hrace
      have hn : n + 1 < 2 ^ 64 := hn
      have hcount := hs.loaded_le h a k count hh
      have hle := hmono k
      simp only [Tracker.next, hh] at hle
      rw [visible_store, if_pos ⟨ha, rfl⟩, visible_of_some ha, UInt64.le_iff_toNat_le,
        toNat_succ (by omega)] at hle
      omega
    | queryTest q => exact hrace
    | queryCopy q copied => exact hrace
    | hookTest h k => exact hrace
    | hookLoad h => exact hrace
  · intro hrace k
    have hmoved := moved_next s m
    generalize (s.next m).2 = s' at hmoved
    -- nothing was visible when the pointer is assigned
    have hassign : ∀ {q start kzalloc}, m = .queryInit q kzalloc →
        s.queries q = some (.init start) → s.visible k = 0 := by
      rintro q start kzalloc rfl hq
      by_contra hk
      exact hrace ⟨⟨start, hq⟩, k, hk⟩
    cases hmoved with
    | idle => exact UInt64.le_refl _
    | test phase hphase => exact UInt64.le_refl _
    | report hq ha => exact UInt64.le_refl _
    | fail => exact UInt64.le_refl _
    | skip => exact UInt64.le_refl _
    | enter => exact UInt64.le_refl _
    | load ha => exact UInt64.le_refl _
    | fault => exact UInt64.le_refl _
    | publish hq =>
      rw [hassign rfl hq, UInt64.le_iff_toNat_le]
      exact Nat.zero_le _
    | clear hq =>
      rw [hassign rfl hq, UInt64.le_iff_toNat_le]
      exact Nat.zero_le _
    | @store h a k' count hh =>
      rw [visible_store]
      split_ifs with hseen
      · obtain ⟨ha, rfl⟩ := hseen
        have hn : n + 1 < 2 ^ 64 := hn
        have hcount := hs.loaded_le h a k count hh
        have hle : ¬ count.toNat + 1 < (s.arrays a k).toNat :=
          fun hlt => hrace ⟨a, k, count, hh, ha, hlt⟩
        rw [visible_of_some ha, UInt64.le_iff_toNat_le, toNat_succ (by omega)]
        omega
      · exact UInt64.le_refl _

/-! ### Reports fall only after a race -/

def Query.start : Query → ℕ
  | .init start => start
  | .copy start => start

/-- Reports are in the order of their ends, none is above a later one, and none is above what can be
seen now. -/
structure Ordered (s : Tracker) : Prop where
  started : ∀ q phase, s.queries q = some phase → phase.start ≤ s.now
  start_le : ∀ r ∈ s.reports, r.start ≤ r.finish
  finish_lt : ∀ r ∈ s.reports, r.finish < s.now
  pairwise : s.reports.Pairwise fun r r' => r.finish < r'.finish ∧ ∀ k, r.counts k ≤ r'.counts k
  visible_ge : ∀ r ∈ s.reports, ∀ k, r.counts k ≤ s.visible k

/-- A step that reports nothing. -/
lemma Ordered.of_reports_eq {s s' : Tracker} (hs : Ordered s) (hreports : s'.reports = s.reports)
    (hnow : s.now ≤ s'.now) (hvisible : ∀ k, s.visible k ≤ s'.visible k)
    (hstarted : ∀ q phase, s'.queries q = some phase → phase.start ≤ s'.now) : Ordered s' where
  started := hstarted
  start_le := hreports ▸ hs.start_le
  finish_lt := hreports ▸ fun r hr => Nat.lt_of_lt_of_le (hs.finish_lt r hr) hnow
  pairwise := hreports ▸ hs.pairwise
  visible_ge := hreports ▸ fun r hr k => UInt64.le_trans (hs.visible_ge r hr k) (hvisible k)

lemma Ordered.next {s : Tracker} (hs : Ordered s) (m : Move)
    (hvisible : ∀ k, s.visible k ≤ (s.next m).2.visible k) : Ordered (s.next m).2 := by
  have hmoved := moved_next s m
  generalize (s.next m).2 = s' at hmoved hvisible
  have hnow := Nat.le_succ s.now
  have hqueries : ∀ q phase, s.queries q = some phase → phase.start ≤ s.now + 1 :=
    fun q phase hq => (hs.started q phase hq).trans hnow
  have hupdate : ∀ {q : ℕ} {new : Option Query}, (∀ phase, new = some phase → phase.start ≤ s.now) →
      ∀ q' phase, Function.update s.queries q new q' = some phase → phase.start ≤ s.now + 1 := by
    intro q new hnew q' phase hq'
    rw [Function.update_apply] at hq'
    split_ifs at hq'
    · exact (hnew phase hq').trans hnow
    · exact hqueries q' phase hq'
  cases hmoved with
  | idle => exact hs
  | test phase hphase =>
    refine hs.of_reports_eq rfl hnow hvisible (hupdate ?_)
    rintro phase' ⟨⟩
    rcases hphase with rfl | rfl
    · exact Nat.le_refl _
    · exact Nat.le_refl _
  | publish hq =>
    refine hs.of_reports_eq rfl hnow hvisible (hupdate ?_)
    rintro phase ⟨⟩
    have hinit := hs.started _ _ hq
    exact hinit
  | clear hq => exact hs.of_reports_eq rfl hnow hvisible (hupdate (by simp))
  | fail => exact hs.of_reports_eq rfl hnow hvisible (hupdate (by simp))
  | skip => exact hs.of_reports_eq rfl hnow hvisible hqueries
  | enter => exact hs.of_reports_eq rfl hnow hvisible hqueries
  | load ha => exact hs.of_reports_eq rfl hnow hvisible hqueries
  | fault => exact hs.of_reports_eq rfl hnow hvisible hqueries
  | store hh => exact hs.of_reports_eq rfl hnow hvisible hqueries
  | @report q start a hq ha =>
    -- the new report is what could be seen, so it is at least all earlier ones
    have hcounts : s.arrays a = s.visible := (visible_of_some ha).symm
    have hsame : Tracker.visible { s with
        queries := Function.update s.queries q none
        now := s.now + 1
        reports := s.reports ++ [⟨s.arrays a, start, s.now⟩] } = s.visible := rfl
    constructor
    · exact hupdate (by simp)
    · rw [List.forall_mem_append, List.forall_mem_singleton]
      exact ⟨hs.start_le, hs.started q _ hq⟩
    · rw [List.forall_mem_append, List.forall_mem_singleton]
      exact ⟨fun r hr => Nat.lt_succ_of_lt (hs.finish_lt r hr), Nat.lt_succ_self _⟩
    · rw [List.pairwise_append]
      refine ⟨hs.pairwise, List.pairwise_singleton _ _, fun r hr r' hr' => ?_⟩
      rw [List.mem_singleton.mp hr', hcounts]
      exact ⟨hs.finish_lt r hr, hs.visible_ge r hr⟩
    · rw [hsame, hcounts, List.forall_mem_append, List.forall_mem_singleton]
      exact ⟨hs.visible_ge, fun k => UInt64.le_refl _⟩

lemma ordered_boot : Ordered Tracker.boot where
  started _ _ hq := by cases hq
  start_le _ hr := by cases hr
  finish_lt _ hr := by cases hr
  pairwise := List.Pairwise.nil
  visible_ge _ hr := by cases hr

/-- No query has reported less than one that ended before it began. -/
def ReportsMonotone (s : Tracker) : Prop :=
  ∀ r ∈ s.reports, ∀ r' ∈ s.reports, r.finish < r'.start → ∀ k, r.counts k ≤ r'.counts k

/-- Of two reports, one that ended before the other began is the earlier one. -/
lemma Ordered.reportsMonotone {s : Tracker} (hs : Ordered s) : ReportsMonotone s := by
  intro r hr r' hr' h k
  have hlt : r.finish < r'.finish := Nat.lt_of_lt_of_le h (hs.start_le r' hr')
  obtain ⟨i, hi, rfl⟩ := List.getElem_of_mem hr
  obtain ⟨j, hj, rfl⟩ := List.getElem_of_mem hr'
  have hpairwise := List.pairwise_iff_getElem.mp hs.pairwise
  rcases Nat.lt_trichotomy i j with hij | rfl | hij
  · exact (hpairwise i j hi hj hij).2 k
  · exact absurd hlt (Nat.lt_irrefl _)
  · exact absurd hlt (Nat.lt_asymm (hpairwise j i hj hi hij).1)

/-! ### Runs -/

lemma below_final (ms : List Move) (h : ms.countP Move.isStore < 2 ^ 64) :
    Below (ms.countP Move.isStore) (final Tracker.next Tracker.boot ms) := by
  induction ms using List.reverseRecOn with
  | nil => exact ⟨fun _ _ => Nat.le_refl _, fun _ _ _ _ hh => by cases hh⟩
  | append_singleton ms m ih =>
    rw [List.countP_append, List.countP_singleton] at h ⊢
    rw [final_append]
    exact (ih (by omega)).next m h

/-- At each step of a run, what can be seen stays or grows exactly if the step is no race. -/
lemma visible_le_iff {ms : List Move} (h : ms.countP Move.isStore < 2 ^ 64)
    {st : Step Tracker Move Unit} (hst : st ∈ steps Tracker.next Tracker.boot ms) :
    (∀ k, st.pre.visible k ≤ st.post.visible k) ↔ ¬ Race st.pre st.input := by
  obtain ⟨ms₁, ms₂, hms, hst⟩ := exists_split_of_mem_steps hst
  rw [hms, List.countP_append, List.countP_cons] at h
  rw [hst]
  exact visible_le_next_iff (below_final ms₁ (by omega)) st.input (by omega)

lemma ordered_final {ms : List Move}
    (h : ∀ st ∈ steps Tracker.next Tracker.boot ms, ∀ k, st.pre.visible k ≤ st.post.visible k) :
    Ordered (final Tracker.next Tracker.boot ms) := by
  induction ms using List.reverseRecOn with
  | nil => exact ordered_boot
  | append_singleton ms m ih =>
    rw [steps_append, List.forall_mem_append, steps_cons, steps_nil, List.forall_mem_singleton] at h
    rw [final_append]
    exact (ih h.1).next m h.2

/-- In a run with fewer than `2 ^ 64` hooks, the counts that can be seen fall at a step exactly if
it is a race; and without races no query reports less than one that ended before it began. -/
theorem reportsMonotone_of_no_race (ms : List Move) (hfew : ms.countP Move.isStore < 2 ^ 64) :
    (∀ st ∈ steps Tracker.next Tracker.boot ms,
      (∀ k, st.pre.visible k ≤ st.post.visible k) ↔ ¬ Race st.pre st.input) ∧
    ((∀ st ∈ steps Tracker.next Tracker.boot ms, ¬ Race st.pre st.input) →
      ReportsMonotone (final Tracker.next Tracker.boot ms)) := by
  refine ⟨fun st hst => visible_le_iff hfew hst, fun hrace => ?_⟩
  exact (ordered_final fun st hst =>
    (visible_le_iff hfew hst).mpr (hrace st hst)).reportsMonotone

/-- A query that allocates, a read, another query. -/
def oneRead : List Move :=
  [.queryTest 0, .queryInit 0 true, .queryCopy 0 true, .hookTest 0 .sysRead, .hookLoad 0,
    .hookStore 0, .queryTest 1, .queryCopy 1 true]

theorem oneRead_reportsMonotone :
    ReportsMonotone (final Tracker.next Tracker.boot oneRead) := by
  refine (reportsMonotone_of_no_race oneRead (by decide)).2 ?_
  intro st hst
  simp only [oneRead, steps_cons, steps_nil, List.mem_cons, List.not_mem_nil, or_false] at hst
  rcases hst with rfl | rfl | rfl | rfl | rfl | rfl | rfl | rfl
  · exact id
  · rintro ⟨-, k, hk⟩
    exact hk rfl
  · exact id
  · exact id
  · exact id
  · rintro ⟨a, k, count, hh, -, hlt⟩
    cases hh
    exact absurd hlt (by decide)
  · exact id
  · exact id

/-- Queries 0 and 1 both find no counters. Query 0 publishes some, a read is counted and query 2
reports it; then query 1 publishes its own and query 3 reports those. -/
def publishedTwice : List Move :=
  [.queryTest 0, .queryTest 1, .queryInit 0 true, .queryCopy 0 true, .hookTest 0 .sysRead,
    .hookLoad 0, .hookStore 0, .queryTest 2, .queryCopy 2 true, .queryInit 1 true, .queryTest 3,
    .queryCopy 3 true]

/-- Hook 0 has loaded its count when two more reads are counted and query 1 reports them; then it
stores its own. -/
def overtakenStore : List Move :=
  [.queryTest 0, .queryInit 0 true, .queryCopy 0 true, .hookTest 0 .sysRead, .hookLoad 0,
    .hookTest 1 .sysRead, .hookLoad 1, .hookStore 1, .hookTest 2 .sysRead, .hookLoad 2,
    .hookStore 2, .queryTest 1, .queryCopy 1 true, .hookStore 0, .queryTest 2, .queryCopy 2 true]

theorem reports_go_back :
    ¬ ReportsMonotone (final Tracker.next Tracker.boot publishedTwice) ∧
      ¬ ReportsMonotone (final Tracker.next Tracker.boot overtakenStore) := by
  have hback : ∀ {s : Tracker}, (∃ r ∈ s.reports, ∃ r' ∈ s.reports,
      r.finish < r'.start ∧ ¬ r.counts .sysRead ≤ r'.counts .sysRead) → ¬ ReportsMonotone s := by
    rintro s ⟨r, hr, r', hr', hbefore, hcounts⟩ h
    exact hcounts (h r hr r' hr' hbefore .sysRead)
  exact ⟨hback (by decide), hback (by decide)⟩

end Taro.Track
