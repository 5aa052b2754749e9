import Mathlib.Order.Basic
import TaroKernel.Lib.Machine
import TaroKernel.Track.Syscalls

/-!
# Tracking, step by step

Nothing protects `syscall_counters`. A query looks for counters, allocates some and copies them in
separate steps, and so does a hook look for them, load a counter and store it increased. Any number
of queries and hooks take their steps in any order; one that takes all its steps alone does what
`Track.Syscalls` says.
-/

namespace Taro.Track

open Machine

/-! ### Steps -/

/-- A query that has started (and when), before it allocates or before it copies. -/
inductive Query where
  | init (start : ℕ)
  | copy (start : ℕ)

/-- A hook past its test for `NULL`, before it loads its counter or before it stores it. The address
of the counter is computed once for both. -/
inductive Hook where
  | load (k : Entry)
  | store (array : ℕ) (k : Entry) (count : UInt64)

/-- What a query that returned 0 reported, and the time from its start to its end. -/
structure Report where
  counts : Entry → UInt64
  start : ℕ
  finish : ℕ

/-- The tracker with everybody who is in the middle of something. Arrays are numbered as they are
allocated, and none is ever freed. -/
structure Tracker where
  syscallCounters : Option ℕ
  arrays : ℕ → Entry → UInt64
  allocated : ℕ
  queries : ℕ → Option Query
  hooks : ℕ → Option Hook
  now : ℕ
  reports : List Report

inductive Move where
  | queryTest (q : ℕ)
  | queryInit (q : ℕ) (kzalloc : Bool)
  | queryCopy (q : ℕ) (copied : Bool)
  | hookTest (h : ℕ) (k : Entry)
  | hookLoad (h : ℕ)
  | hookStore (h : ℕ)

/-- What a query that started at `start` reports by its copy. -/
def Tracker.reported (s : Tracker) (start : ℕ) (copied : Bool) : List Report :=
  match s.syscallCounters with
  | some a => if copied then [⟨s.arrays a, start, s.now⟩] else []
  | none   => []

/-- What a hook has loaded. If `syscall_counters` has become `NULL` since its test, it ends
there. -/
def Tracker.loaded (s : Tracker) (k : Entry) : Option Hook :=
  match s.syscallCounters with
  | some a => some (.store a k (s.arrays a k))
  | none   => none

/-- One step of a query `q` or of a hook `h`. Moves that are not their next step do nothing. -/
def Tracker.next (s : Tracker) : Move → Unit × Tracker
  | .queryTest q =>
    match s.queries q with
    | none =>
      let phase := if s.syscallCounters = none then Query.init s.now else .copy s.now
      ((), { s with queries := Function.update s.queries q (some phase), now := s.now + 1 })
    | _ => ((), s)
  | .queryInit q kzalloc =>
    match s.queries q with
    | some (.init start) =>
      if kzalloc then
        ((), { s with
          syscallCounters := some s.allocated
          arrays := Function.update s.arrays s.allocated fun _ => 0
          allocated := s.allocated + 1
          queries := Function.update s.queries q (some (.copy start))
          now := s.now + 1 })
      else
        -- the failed allocation is assigned all the same, whatever others have published
        ((), { s with
          syscallCounters := none
          queries := Function.update s.queries q none
          now := s.now + 1 })
    | _ => ((), s)
  | .queryCopy q copied =>
    match s.queries q with
    | some (.copy start) =>
      ((), { s with
        queries := Function.update s.queries q none
        now := s.now + 1
        reports := s.reports ++ s.reported start copied })
    | _ => ((), s)
  | .hookTest h k =>
    match s.hooks h with
    | none =>
      if s.syscallCounters = none ∨ k.nr ≥ MAX_SYS_CALLS then ((), { s with now := s.now + 1 })
      else ((), { s with hooks := Function.update s.hooks h (some (.load k)), now := s.now + 1 })
    | _ => ((), s)
  | .hookLoad h =>
    match s.hooks h with
    | some (.load k) =>
      ((), { s with hooks := Function.update s.hooks h (s.loaded k), now := s.now + 1 })
    | _ => ((), s)
  | .hookStore h =>
    match s.hooks h with
    | some (.store a k count) =>
      ((), { s with
        arrays := Function.update s.arrays a (Function.update (s.arrays a) k (count + 1))
        hooks := Function.update s.hooks h none
        now := s.now + 1 })
    | _ => ((), s)

def Tracker.boot : Tracker :=
  ⟨none, fun _ _ => 0, 0, fun _ => none, fun _ => none, 0, []⟩

/-- What a query would report now: without counters, the zeros it would allocate. -/
def Tracker.visible (s : Tracker) (k : Entry) : UInt64 :=
  match s.syscallCounters with
  | some a => s.arrays a k
  | none   => 0

lemma visible_of_some {s : Tracker} {a : ℕ} (h : s.syscallCounters = some a) :
    s.visible = s.arrays a := by
  funext k
  simp [Tracker.visible, h]

/-! ### What a step can do -/

lemma reported_cases (s : Tracker) (start : ℕ) (copied : Bool) :
    s.reported start copied = [] ∨ ∃ a, copied = true ∧ s.syscallCounters = some a ∧
      s.reported start copied = [⟨s.arrays a, start, s.now⟩] := by
  cases ha : s.syscallCounters <;> cases copied <;> simp [Tracker.reported, ha]

lemma loaded_cases (s : Tracker) (k : Entry) :
    s.loaded k = none ∨ ∃ a, s.syscallCounters = some a ∧
      s.loaded k = some (.store a k (s.arrays a k)) := by
  cases ha : s.syscallCounters <;> simp [Tracker.loaded, ha]

/-- What can have become of `s` by a move. -/
inductive Moved (s : Tracker) : Move → Tracker → Prop where
  | idle {m} : Moved s m s
  | test {q} (phase : Query) (hphase : phase = .init s.now ∨ phase = .copy s.now) :
      Moved s (.queryTest q)
        { s with queries := Function.update s.queries q (some phase), now := s.now + 1 }
  | publish {q start} (hq : s.queries q = some (.init start)) :
      Moved s (.queryInit q true) { s with
        syscallCounters := some s.allocated
        arrays := Function.update s.arrays s.allocated fun _ => 0
        allocated := s.allocated + 1
        queries := Function.update s.queries q (some (.copy start))
        now := s.now + 1 }
  | clear {q start} (hq : s.queries q = some (.init start)) :
      Moved s (.queryInit q false) { s with
        syscallCounters := none
        queries := Function.update s.queries q none
        now := s.now + 1 }
  | report {q start a} (hq : s.queries q = some (.copy start)) (ha : s.syscallCounters = some a) :
      Moved s (.queryCopy q true) { s with
        queries := Function.update s.queries q none
        now := s.now + 1
        reports := s.reports ++ [⟨s.arrays a, start, s.now⟩] }
  | fail {q copied} :
      Moved s (.queryCopy q copied)
        { s with queries := Function.update s.queries q none, now := s.now + 1 }
  | skip {h k} : Moved s (.hookTest h k) { s with now := s.now + 1 }
  | enter {h k} :
      Moved s (.hookTest h k)
        { s with hooks := Function.update s.hooks h (some (.load k)), now := s.now + 1 }
  | load {h k a} (ha : s.syscallCounters = some a) :
      Moved s (.hookLoad h) { s with
        hooks := Function.update s.hooks h (some (.store a k (s.arrays a k)))
        now := s.now + 1 }
  | fault {h} :
      Moved s (.hookLoad h) { s with hooks := Function.update s.hooks h none, now := s.now + 1 }
  | store {h a k count} (hh : s.hooks h = some (.store a k count)) :
      Moved s (.hookStore h) { s with
        arrays := Function.update s.arrays a (Function.update (s.arrays a) k (count + 1))
        hooks := Function.update s.hooks h none
        now := s.now + 1 }

lemma moved_next (s : Tracker) (m : Move) : Moved s m (s.next m).2 := by
  -- a move of somebody who is not at that point of the code is `.idle`
  cases m with
  | queryTest q =>
    rw [Tracker.next]
    split
    · refine .test _ ?_
      split_ifs
      · exact Or.inl rfl
      · exact Or.inr rfl
    · exact .idle
  | queryInit q kzalloc =>
    rw [Tracker.next]
    split
    · rename_i start hq
      cases kzalloc with
      | false => exact .clear hq
      | true => exact .publish hq
    · exact .idle
  | queryCopy q copied =>
    rw [Tracker.next]
    split
    · rename_i start hq
      obtain hnone | ⟨a, rfl, ha, hsome⟩ := reported_cases s start copied
      · rw [hnone, List.append_nil]
        exact .fail
      · rw [hsome]
        exact .report hq ha
    · exact .idle
  | hookTest h k =>
    rw [Tracker.next]
    split
    · split_ifs
      · exact .skip
      · exact .enter
    · exact .idle
  | hookLoad h =>
    rw [Tracker.next]
    split
    · rename_i k hh
      obtain hnone | ⟨a, ha, hsome⟩ := loaded_cases s k
      · rw [hnone]
        exact .fault
      · rw [hsome]
        exact .load ha
    · exact .idle
  | hookStore h =>
    rw [Tracker.next]
    split
    · rename_i a k count hh
      exact .store hh
    · exact .idle

/-! ### One caller at a time -/

/-- What the counters of `Track.Syscalls` count. -/
def countsOf (counters : Counters) (k : Entry) : UInt64 := (counters k.nr).count

/-- The counts of the current array, if there is one. -/
def Tracker.counts (s : Tracker) : Option (Entry → UInt64) := s.syscallCounters.map s.arrays

lemma Entry.nr_injective {k k' : Entry} (h : k.nr = k'.nr) : k = k' := by
  cases k <;> cases k' <;> first | rfl | exact absurd h (by decide)

/-- The three steps of a hook, nobody in between, are `track_syscall`. -/
theorem hook_alone {s : Tracker} {syscallCounters : Option Counters} {h : ℕ} (k : Entry)
    (now : Timespec64) (hidle : s.hooks h = none)
    (hs : s.counts = syscallCounters.map countsOf) :
    (final Tracker.next s [.hookTest h k, .hookLoad h, .hookStore h]).counts =
      (trackSyscall syscallCounters k.nr now).map countsOf := by
  cases ha : s.syscallCounters with
  | none =>
    cases syscallCounters with
    | none => simp [Tracker.next, hidle, ha, Tracker.counts, trackSyscall]
    | some counters => simp [Tracker.counts, ha] at hs
  | some a =>
    cases syscallCounters with
    | none => simp [Tracker.counts, ha] at hs
    | some counters =>
      simp only [Tracker.counts, ha, Option.map_some, Option.some_inj] at hs
      simp only [final_cons, final_nil, Tracker.next, hidle, ha, k.nr_lt, or_false, reduceCtorEq,
        if_false, Function.update_self, Tracker.loaded, Tracker.counts, Option.map_some,
        trackSyscall_some, Option.some_inj, hs]
      funext k'
      by_cases hk : k' = k
      · simp [hk, countsOf]
      · have hnr : k'.nr ≠ k.nr := fun h => hk (Entry.nr_injective h)
        simp [hk, countsOf, hnr]

/-- The three steps of a query, nobody in between, are `track_syscall_usage`, and it reports the
counters if it returns 0. -/
theorem query_alone {s : Tracker} {syscallCounters : Option Counters} {q : ℕ} (statistics : UInt64)
    (kzalloc : Bool) (rest : UInt64) (hidle : s.queries q = none)
    (hs : s.counts = syscallCounters.map countsOf) :
    let r := trackSyscallUsage syscallCounters statistics kzalloc rest
    let s' := final Tracker.next s
      [.queryTest q, .queryInit q kzalloc, .queryCopy q (decide (r.1.code = 0))]
    s'.counts = r.2.map countsOf ∧
      s'.reports.map Report.counts = s.reports.map Report.counts ++
        if r.1.code = 0 then (r.2.map countsOf).toList else [] := by
  intro r s'
  -- there are counters in both models or in none
  cases ha : s.syscallCounters with
  | none =>
    cases syscallCounters with
    | some counters => simp [Tracker.counts, ha] at hs
    | none =>
      cases kzalloc with
      | false => simp [s', r, Tracker.next, hidle, ha, Tracker.counts, trackSyscallUsage,
          initSyscallCounters]
      | true =>
        have hzero : countsOf zeroed = fun _ => 0 := rfl
        by_cases hcode : (copyCounters zeroed statistics rest).code = 0 <;>
          simp [s', r, Tracker.next, hidle, ha, Tracker.counts, trackSyscallUsage,
            initSyscallCounters, Tracker.reported, hcode, hzero]
  | some a =>
    cases syscallCounters with
    | none => simp [Tracker.counts, ha] at hs
    | some counters =>
      have hcounts : s.arrays a = countsOf counters := by simpa [Tracker.counts, ha] using hs
      by_cases hcode : (copyCounters counters statistics rest).code = 0 <;>
        simp [s', r, Tracker.next, hidle, ha, Tracker.counts, trackSyscallUsage, Tracker.reported,
          hcode, hcounts]

end Taro.Track
