import TaroKernel.Lib.Machine
import TaroKernel.Track.Syscalls

/-!
# What the counters count

One call after the other from boot. The counters stand for the calls since the first query that
could allocate them: each holds the number of calls of its syscall since then, as far as an
`unsigned long` can tell, and the time of the last.
-/

namespace Taro.Track

open Bytes Machine

/-- A call of a tracked syscall with its clock reading, or a query with its two answers. -/
inductive Event where
  | entry (k : Entry) (now : Timespec64)
  | query (statistics : UInt64) (kzalloc : Bool) (rest : UInt64)

/-- Only what a query returns is recorded. -/
def next (syscallCounters : Option Counters) : Event → Option UserRet × Option Counters
  | .entry k now => (none, k.run syscallCounters now)
  | .query statistics kzalloc rest =>
    let r := trackSyscallUsage syscallCounters statistics kzalloc rest
    (some r.1, r.2)

/-! ### What should have been counted -/

/-- The events after the first query whose `kzalloc` succeeds, if there is one. -/
def sinceAllocation : List Event → Option (List Event)
  | []                       => none
  | .entry _ _ :: es         => sinceAllocation es
  | .query _ kzalloc _ :: es => if kzalloc then some es else sinceAllocation es

/-- The clock readings of the calls with number `id`. -/
def clocks (id : Int32) (es : List Event) : List Timespec64 :=
  es.filterMap fun
    | .entry k now => if k.nr = id then some now else none
    | .query _ _ _ => none

/-- The clock readings that are to be accounted for after `es`. -/
def clocksSince (id : Int32) (es : List Event) : List Timespec64 :=
  clocks id ((sinceAllocation es).getD [])

/-- The entry that stands for some clock readings. -/
def usageOf (times : List Timespec64) : SyscallUsage :=
  ⟨UInt64.ofNat times.length, times.getLast?.getD ⟨0, 0⟩⟩

lemma usageOf_append_singleton (times : List Timespec64) (now : Timespec64) :
    usageOf (times ++ [now]) = ⟨(usageOf times).count + 1, now⟩ := by
  simp [usageOf, UInt64.ofNat_add]

/-- The counters that stand for the events since the allocation. -/
def countersOf (es : List Event) : Counters := fun id => usageOf (clocks id es)

lemma countersOf_nil : countersOf [] = zeroed := rfl

lemma countersOf_append_entry (es : List Event) (k : Entry) (now : Timespec64) :
    countersOf (es ++ [.entry k now]) =
      Function.update (countersOf es) k.nr ⟨(countersOf es k.nr).count + 1, now⟩ := by
  funext id
  by_cases hid : id = k.nr
  · have hclocks : clocks k.nr (es ++ [.entry k now]) = clocks k.nr es ++ [now] := by simp [clocks]
    rw [hid, Function.update_self, countersOf, hclocks, usageOf_append_singleton]
    rfl
  · have hne : ¬ k.nr = id := fun h => hid h.symm
    rw [Function.update_of_ne hid]
    simp [countersOf, clocks, hne]

lemma countersOf_append_query (es : List Event) (statistics : UInt64) (kzalloc : Bool)
    (rest : UInt64) : countersOf (es ++ [.query statistics kzalloc rest]) = countersOf es := by
  funext id
  simp [countersOf, clocks]

lemma sinceAllocation_append_of_some {es es' fs : List Event} (h : sinceAllocation es = some fs) :
    sinceAllocation (es ++ es') = some (fs ++ es') := by
  induction es with
  | nil => cases h
  | cons e es ih =>
    cases e with
    | entry k now => exact ih h
    | query statistics kzalloc rest =>
      simp only [sinceAllocation, List.cons_append] at h ⊢
      split_ifs at h ⊢
      · rw [← Option.some_inj.mp h]
      · exact ih h

lemma sinceAllocation_append_of_none {es es' : List Event} (h : sinceAllocation es = none) :
    sinceAllocation (es ++ es') = sinceAllocation es' := by
  induction es with
  | nil => rfl
  | cons e es ih =>
    cases e with
    | entry k now => exact ih h
    | query statistics kzalloc rest =>
      simp only [sinceAllocation, List.cons_append] at h ⊢
      split_ifs at h ⊢
      exact ih h

/-! ### What is counted -/

/-- Counters that exist are copied as they are and survive. -/
lemma trackSyscallUsage_some (counters : Counters) (statistics : UInt64) (kzalloc : Bool)
    (rest : UInt64) :
    trackSyscallUsage (some counters) statistics kzalloc rest =
      (copyCounters counters statistics rest, some counters) := rfl

lemma trackSyscallUsage_none_true (statistics rest : UInt64) :
    trackSyscallUsage none statistics true rest =
      (copyCounters zeroed statistics rest, some zeroed) := rfl

lemma trackSyscallUsage_none_false (statistics rest : UInt64) :
    trackSyscallUsage none statistics false rest = (⟨-ENOMEM, []⟩, none) := rfl

/-- One more event, on counters that stand for the events before it. -/
lemma next_countersOf (es : List Event) (e : Event) :
    (next ((sinceAllocation es).map countersOf) e).2 =
      (sinceAllocation (es ++ [e])).map countersOf := by
  cases h : sinceAllocation es with
  | none =>
    rw [sinceAllocation_append_of_none h]
    cases e with
    | entry k now =>
      simp only [next, Option.map_none, k.run_eq]
      rfl
    | query statistics kzalloc rest =>
      cases kzalloc with
      | false => simp [next, trackSyscallUsage_none_false, sinceAllocation]
      | true => simp [next, trackSyscallUsage_none_true, sinceAllocation, countersOf_nil]
  | some fs =>
    rw [sinceAllocation_append_of_some h, Option.map_some, Option.map_some]
    cases e with
    | entry k now =>
      simp only [next, k.run_eq, trackSyscall_some, countersOf_append_entry]
    | query statistics kzalloc rest =>
      simp only [next, trackSyscallUsage_some, countersOf_append_query]

/-- After any events the counters stand for those since their allocation. -/
theorem final_eq_countersOf (es : List Event) :
    final next none es = (sinceAllocation es).map countersOf := by
  induction es using List.reverseRecOn with
  | nil => rfl
  | append_singleton es e ih =>
    rw [final_append, ih, final_cons, final_nil, next_countersOf]

/-! ### What is reported -/

/-- A copy that succeeds leaves the four slots in user memory. -/
lemma loadArray_copyCounters {counters : Counters} {statistics rest : UInt64}
    (h : (copyCounters counters statistics rest).code = 0) (m : UInt64 → UInt8) :
    usageLayout.loadArray ((copyCounters counters statistics rest).memory m) statistics 4 =
      (List.range 4).map fun i => counters (Int32.ofNat i) := by
  simp only [copyCounters] at h ⊢
  split_ifs at h ⊢ with hcopy
  · exact absurd h (show ¬ (-EFAULT = 0) by decide)
  · rw [UserRet.memory, copyOut_of_eq_zero (not_not.mp hcopy), replay_cons, replay_nil,
      counterBytes, usageLayout.loadArray_write_read _ _ _ _ (by decide) (by decide),
      usageLayout.loadArray_storeArray _ _ _ (by decide)]

/-- A query that returns 0 reports the counters there are, or the new ones. -/
lemma loadArray_trackSyscallUsage {es : List Event} {statistics : UInt64} {kzalloc : Bool}
    {rest : UInt64}
    (h : (trackSyscallUsage (final next none es) statistics kzalloc rest).1.code = 0)
    (m : UInt64 → UInt8) :
    usageLayout.loadArray
        ((trackSyscallUsage (final next none es) statistics kzalloc rest).1.memory m) statistics 4 =
      (List.range 4).map fun i => usageOf (clocksSince (Int32.ofNat i) es) := by
  rw [final_eq_countersOf] at h ⊢
  simp only [clocksSince]
  cases hsince : sinceAllocation es with
  | some fs =>
    rw [hsince] at h
    have h : (copyCounters (countersOf fs) statistics rest).code = 0 := h
    rw [Option.map_some, trackSyscallUsage_some, loadArray_copyCounters h m]
    rfl
  | none =>
    rw [hsince, Option.map_none] at h
    cases kzalloc with
    | false => exact absurd h (show ¬ (-ENOMEM = 0) by decide)
    | true =>
      have h : (copyCounters zeroed statistics rest).code = 0 := h
      rw [Option.map_none, trackSyscallUsage_none_true, loadArray_copyCounters h m,
        ← countersOf_nil]
      rfl

/-- Whatever happened since boot: a query that returns 0 puts into slot `i` the number of calls
with that number since the allocation, modulo `2 ^ 64`, and the time of the last one; and no query
changes counters that exist. -/
theorem query_accounts (es : List Event) (statistics : UInt64) (kzalloc : Bool) (rest : UInt64) :
    let syscallCounters := final next none es
    let r := trackSyscallUsage syscallCounters statistics kzalloc rest
    (r.1.code = 0 → ∀ m, ∀ i < 4,
      let slot := usageLayout.load (r.1.memory m) (statistics + UInt64.ofNat (24 * i))
      let times := clocksSince (Int32.ofNat i) es
      slot.count.toNat = times.length % 2 ^ 64 ∧ slot.timeLastUsed = times.getLast?.getD ⟨0, 0⟩) ∧
    ∀ counters, syscallCounters = some counters → r.2 = some counters := by
  intro syscallCounters r
  constructor
  · intro hcode m i hi slot times
    have hslots := List.map_inj_left.mp (loadArray_trackSyscallUsage hcode m)
    have hslot : slot = usageOf times := hslots i (List.mem_range.mpr hi)
    rw [hslot]
    exact ⟨UInt64.toNat_ofNat', rfl⟩
  · intro counters h
    simp only [r, h, trackSyscallUsage_some]

/-- Two reads after the query that allocates, and one before it. -/
theorem two_reads_accounted :
    let es := [.entry .sysRead ⟨1, 0⟩, .query 4096 true 0, .entry .sysRead ⟨2, 0⟩,
      .entry .sysRead ⟨3, 0⟩]
    let r := trackSyscallUsage (final next none es) 4096 false 0
    let slot := usageLayout.load (r.1.memory fun _ => 0) (4096 + UInt64.ofNat (24 * 0))
    slot.count.toNat = 2 ∧ slot.timeLastUsed = ⟨3, 0⟩ := by
  intro es r slot
  have hcode : r.1.code = 0 := by decide
  have htimes : clocksSince (Int32.ofNat 0) es = [⟨2, 0⟩, ⟨3, 0⟩] := by decide
  have h := (query_accounts es 4096 false 0).1 hcode (fun _ => 0) 0 (by decide)
  rw [htimes] at h
  exact h

end Taro.Track
