import TaroKernel.Stats.Syscalls

/-!
# The walk over all processes

`Walk` lists what the loop of `taro_ind_mem_stats` can do at a process and how it can end. What the
loop writes, how far, and what it returns are read off it by induction.
-/

namespace Taro.Stats

open Bytes

/-- The records of the processes that have an address space, in list order. -/
def records (processes : List Process) : List ProcessMemStats :=
  processes.filterMap fun task => task.mm.map (statsOf task.pid task)

@[simp] lemma records_nil : records [] = [] := rfl

lemma records_cons_none {task : Process} (h : task.mm = none) (tasks : List Process) :
    records (task :: tasks) = records tasks := by
  simp [records, h]

lemma records_cons_some {task : Process} {mm : MmStruct} (h : task.mm = some mm)
    (tasks : List Process) :
    records (task :: tasks) = statsOf task.pid task mm :: records tasks := by
  simp [records, h]

lemma length_records_le (processes : List Process) :
    (records processes).length ≤ processes.length := List.length_filterMap_le _ _

/-- A process table has no more records than there are positive values of `pid_t`. -/
lemma ProcessTable.length_records_le {Ns : Type*} (T : ProcessTable Ns) :
    (records T.processes).length ≤ 2 ^ 31 := by
  have hpids : ∀ p ∈ T.processes.map Process.pid, 0 ≤ p := by
    intro p hp
    obtain ⟨task, htask, rfl⟩ := List.mem_map.mp hp
    exact Int32.le_of_lt (T.pos task htask)
  have hlen := length_le_of_nodup_pids T.nodup hpids
  rw [List.length_map] at hlen
  exact (Stats.length_records_le T.processes).trans hlen

/-- The bytes of `local_stats` once its fields are assigned. -/
def statsBytes (localStats : UInt64 → UInt8) (s : ProcessMemStats) : List UInt8 :=
  read (fillStats localStats s) 0 40

@[simp] lemma length_statsBytes (localStats : UInt64 → UInt8) (s : ProcessMemStats) :
    (statsBytes localStats s).length = 40 := length_read _ _ _

/-- The fields of every record cover the same bytes. -/
lemma mem_statsFields_bounds (s' : ProcessMemStats) {s : ProcessMemStats} {f : ℕ × List UInt8}
    (hf : f ∈ statsFields s) : ∃ g ∈ statsFields s', g.1 = f.1 ∧ g.2.length = f.2.length := by
  simp only [statsFields, List.mem_cons, List.not_mem_nil, or_false] at hf ⊢
  rcases hf with rfl | rfl | rfl | rfl | rfl <;> simp

/-- What was in the fields before is gone, and what is in between the fields stays. -/
lemma fillStats_fillStats (localStats : UInt64 → UInt8) (s s' : ProcessMemStats) :
    fillStats (fillStats localStats s) s' = fillStats localStats s' := by
  funext b
  by_cases hb : ∃ f ∈ statsFields s', Within (0 + UInt64.ofNat f.1) f.2.length b
  · obtain ⟨f, hf, hb⟩ := hb
    exact assign_eq_of_within _ _ hf hb
  · have hkeep : ∀ m s'', fillStats m s'' b = m b := by
      intro m s''
      apply assign_of_not_within
      intro f hf hwithin
      obtain ⟨g, hg, hoff, hlen⟩ := mem_statsFields_bounds s' hf
      exact hb ⟨g, hg, by rwa [hoff, hlen]⟩
    rw [hkeep, hkeep, hkeep]

lemma copyStats_fillStats (dst : UInt64) (localStats : UInt64 → UInt8) (s : ProcessMemStats)
    (rest : UInt64) :
    copyStats dst (fillStats localStats s) rest =
      (leftOut 40 rest, ⟨dst, (statsBytes localStats s).take (40 - leftOut 40 rest)⟩) := by
  have hlen : (read (fillStats localStats s) 0 statsSize.toNat).length = 40 := length_read _ _ _
  simp only [copyStats, copyOut, hlen]
  rfl

/-! ### Three kinds of call -/

/-- The call asks for one process and finds it. -/
structure Finds (find : PidT → Option Process) (pid : PidT) (stats : UInt64) (statsLen : SizeT)
    (task : Process) (mm : MmStruct) : Prop where
  args : ¬ (stats = 0 ∨ statsLen = 0)
  pos : 0 < pid
  find_eq : find pid = some task
  mm_eq : task.mm = some mm

/-- The result of a call that finds its process: one record is copied, as far as the copy goes. -/
def singleRet (stats rest : UInt64) (s : ProcessMemStats) (localStats : UInt64 → UInt8) : UserRet :=
  ⟨if leftOut 40 rest ≠ 0 then -EFAULT else 40,
    [⟨stats, (statsBytes localStats s).take (40 - leftOut 40 rest)⟩]⟩

lemma Finds.taroIndMemStats_eq {find : PidT → Option Process} {pid : PidT} {stats : UInt64}
    {statsLen : SizeT} {task : Process} {mm : MmStruct} (h : Finds find pid stats statsLen task mm)
    (processes : List Process) (localStats : UInt64 → UInt8) (rest : ℕ → UInt64) :
    taroIndMemStats processes find pid stats statsLen localStats rest =
      singleRet stats (rest 0) (statsOf pid task mm) localStats := by
  rw [taroIndMemStats, if_neg h.args, if_pos h.pos, h.find_eq, singleRet]
  simp only [h.mm_eq, copyStats_fillStats]
  split_ifs
  · rfl
  · rfl

/-- A call is refused before it copies anything, copies one record, or walks over all processes. -/
lemma taroIndMemStats_cases (processes : List Process) (find : PidT → Option Process) (pid : PidT)
    (stats : UInt64) (statsLen : SizeT) (rest : ℕ → UInt64) :
    ((∀ task mm, ¬ Finds find pid stats statsLen task mm) ∧ ∃ c < 0, ∀ localStats,
      taroIndMemStats processes find pid stats statsLen localStats rest = ⟨c, []⟩) ∨
    (∃ task mm, Finds find pid stats statsLen task mm) ∨
    (¬ (stats = 0 ∨ statsLen = 0) ∧ pid ≤ 0) := by
  by_cases hargs : stats = 0 ∨ statsLen = 0
  · refine Or.inl ⟨fun _ _ h => h.args hargs, -EINVAL, by decide, fun _ => ?_⟩
    rw [taroIndMemStats, if_pos hargs]
  by_cases hpid : 0 < pid
  · cases hfind : find pid with
    | none =>
      refine Or.inl ⟨fun _ _ h => ?_, -ESRCH, by decide, fun _ => ?_⟩
      · have := h.find_eq
        simp [hfind] at this
      · rw [taroIndMemStats, if_neg hargs, if_pos hpid, hfind]
    | some task =>
      cases hmm : task.mm with
      | none =>
        refine Or.inl ⟨fun _ _ h => ?_, -EFAULT, by decide, fun _ => ?_⟩
        · obtain rfl : task = _ := Option.some_inj.mp (hfind.symm.trans h.find_eq)
          have := h.mm_eq
          simp [hmm] at this
        · rw [taroIndMemStats, if_neg hargs, if_pos hpid, hfind]
          simp only [hmm]
      | some mm => exact Or.inr (Or.inl ⟨task, mm, hargs, hpid, hfind, hmm⟩)
  · exact Or.inr (Or.inr ⟨hargs, Int32.not_lt.mp hpid⟩)

/-! ### Steps of the walk -/

/-- What the loop can do from a process on, having copied `copied` bytes, with `rest` answering its
copies. `localStats` is what was on the stack before the first record. -/
inductive Walk (stats : UInt64) (statsLen : SizeT) (localStats : UInt64 → UInt8) :
    List Process → SizeT → (ℕ → UInt64) → UserRet → Prop where
  | done {copied rest} : Walk stats statsLen localStats [] copied rest ⟨copied.toInt64.toInt, []⟩
  | full {task tasks copied rest} (h : statsLen < copied + statsSize) :
      Walk stats statsLen localStats (task :: tasks) copied rest ⟨-ENOSPC, []⟩
  | skip {task tasks copied rest r} (h : copied + statsSize ≤ statsLen) (hmm : task.mm = none)
      (hw : Walk stats statsLen localStats tasks copied rest r) :
      Walk stats statsLen localStats (task :: tasks) copied rest r
  | fault {task tasks copied rest mm} (h : copied + statsSize ≤ statsLen)
      (hmm : task.mm = some mm) (hrest : leftOut 40 (rest 0) ≠ 0) :
      Walk stats statsLen localStats (task :: tasks) copied rest
        ⟨-EFAULT, [⟨stats + copied, (statsBytes localStats (statsOf task.pid task mm)).take
          (40 - leftOut 40 (rest 0))⟩]⟩
  | write {task tasks copied rest mm r} (h : copied + statsSize ≤ statsLen)
      (hmm : task.mm = some mm) (hrest : leftOut 40 (rest 0) = 0)
      (hw : Walk stats statsLen localStats tasks (copied + statsSize) (fun k => rest (k + 1)) r) :
      Walk stats statsLen localStats (task :: tasks) copied rest
        ⟨r.code, ⟨stats + copied, statsBytes localStats (statsOf task.pid task mm)⟩ :: r.writes⟩

lemma walk_eachProcess (stats : UInt64) (statsLen : SizeT) (localStats : UInt64 → UInt8)
    (processes : List Process) (copied : SizeT) (rest : ℕ → UInt64) (now : UInt64 → UInt8)
    (hnow : ∀ s, fillStats now s = fillStats localStats s) :
    Walk stats statsLen localStats processes copied rest
      (eachProcess stats statsLen processes copied now rest) := by
  induction processes generalizing copied rest now with
  | nil => exact .done
  | cons task tasks ih =>
    rw [eachProcess]
    split_ifs with hfull
    · exact .full hfull
    · have hroom := UInt64.not_lt.mp hfull
      cases hmm : task.mm with
      | none => exact .skip hroom hmm (ih copied rest now hnow)
      | some mm =>
        dsimp only
        simp only [hnow, copyStats_fillStats]
        split_ifs with hrest
        · exact .fault hroom hmm hrest
        · have hrest := not_not.mp hrest
          rw [hrest, Nat.sub_zero, List.take_of_length_le (by simp)]
          exact .write hroom hmm hrest (ih _ _ _ fun s => fillStats_fillStats localStats _ s)

variable {stats : UInt64} {statsLen copied : SizeT} {localStats : UInt64 → UInt8}
  {processes : List Process} {find : PidT → Option Process} {pid : PidT} {rest : ℕ → UInt64}
  {r : UserRet}

lemma walk_taroIndMemStats (processes : List Process) (find : PidT → Option Process)
    (localStats : UInt64 → UInt8) (rest : ℕ → UInt64) (hargs : ¬ (stats = 0 ∨ statsLen = 0))
    (hpid : pid ≤ 0) :
    Walk stats statsLen localStats processes 0 rest
      (taroIndMemStats processes find pid stats statsLen localStats rest) := by
  rw [taroIndMemStats, if_neg hargs, if_neg (Int32.not_lt.mpr hpid)]
  exact walk_eachProcess stats statsLen localStats processes 0 rest localStats fun _ => rfl

/-! ### Walks that reach the end -/

/-- Records copied in full, one after the other from `a` on. -/
def recordWrites (localStats : UInt64 → UInt8) : UInt64 → List ProcessMemStats → List (Write UInt8)
  | _, []      => []
  | a, s :: ss => ⟨a, statsBytes localStats s⟩ :: recordWrites localStats (a + statsSize) ss

/-- A walk that returns no error has copied all records. -/
lemma Walk.writes_of_code_nonneg (h : Walk stats statsLen localStats processes copied rest r)
    (hcode : 0 ≤ r.code) :
    r.writes = recordWrites localStats (stats + copied) (records processes) := by
  induction h with
  | done => rfl
  | full h => exact absurd hcode (by decide)
  | fault h hmm hrest => exact absurd hcode (show ¬ (0 ≤ -EFAULT) by decide)
  | skip h hmm hw ih =>
    rw [records_cons_none hmm]
    exact ih hcode
  | write h hmm hrest hw ih =>
    rw [records_cons_some hmm, recordWrites, ih hcode, UInt64.add_assoc]

lemma offset_le_of_touches {a b : UInt64} {ss : List ProcessMemStats} {w : Write UInt8} {n : ℕ}
    (hn : n + 40 * ss.length ≤ 2 ^ 64)
    (hw : w ∈ recordWrites localStats (a + UInt64.ofNat n) ss) (hb : w.Touches b) :
    n ≤ offset a b ∧ offset a b < n + 40 * ss.length := by
  induction ss generalizing n with
  | nil => cases hw
  | cons s ss ih =>
    rw [List.length_cons] at hn ⊢
    rcases List.mem_cons.mp hw with rfl | hw
    · rw [Write.Touches, length_statsBytes, within_add_ofNat_iff a (by omega)] at hb
      omega
    · have haddr : a + UInt64.ofNat n + statsSize = a + UInt64.ofNat (n + 40) := by
        rw [UInt64.ofNat_add, UInt64.add_assoc]
        rfl
      rw [haddr] at hw
      have := ih (by omega) hw
      omega

lemma load_write_statsBytes (m localStats : UInt64 → UInt8) (a : UInt64) (s : ProcessMemStats) :
    statsLayout.load (write m a (statsBytes localStats s)) a = s :=
  statsLayout.load_write_store m localStats a 0 s

/-- Records copied in full read as they are. -/
lemma loadArray_replay_recordWrites (m localStats : UInt64 → UInt8) (a : UInt64)
    (ss : List ProcessMemStats) (hlen : 40 * ss.length ≤ 2 ^ 64) :
    statsLayout.loadArray (replay m (recordWrites localStats a ss)) a ss.length = ss := by
  induction ss generalizing m a with
  | nil => rfl
  | cons s ss ih =>
    rw [List.length_cons] at hlen
    have hsize : UInt64.ofNat statsLayout.size = statsSize := rfl
    -- the records after the first one leave it alone
    have hfirst : statsLayout.load (replay m (recordWrites localStats a (s :: ss))) a = s := by
      rw [recordWrites, replay_cons, ← load_write_statsBytes m localStats a s]
      apply statsLayout.load_congr
      intro b hb
      have hb : offset a b < 40 := hb
      rw [load_write_statsBytes]
      apply replay_of_not_touches
      intro w hw htouches
      have := offset_le_of_touches (n := 40) (by omega) hw htouches
      omega
    rw [List.length_cons, statsLayout.loadArray_succ', hfirst, hsize, recordWrites, replay_cons,
      ih _ _ (by omega)]

/-- A call that returns no error has left the records in the buffer and touched nothing else. -/
lemma Walk.records_of_code_nonneg (h : Walk stats statsLen localStats processes 0 rest r)
    (hcode : 0 ≤ r.code) (hsmall : 40 * (records processes).length ≤ 2 ^ 64) :
    (∀ m, statsLayout.loadArray (r.memory m) stats (records processes).length =
      records processes) ∧
    ∀ w ∈ r.writes, ∀ b, w.Touches b → Within stats (40 * (records processes).length) b := by
  have hwrites := h.writes_of_code_nonneg hcode
  constructor
  · intro m
    rw [UserRet.memory, hwrites, UInt64.add_zero]
    exact loadArray_replay_recordWrites m localStats stats (records processes) hsmall
  · intro w hw b hb
    rw [hwrites, UInt64.add_zero, ← add_ofNat_zero stats] at hw
    have := offset_le_of_touches (n := 0) (by omega) hw hb
    rw [Within]
    omega

/-! ### Where a walk ends -/

/-- The space a walk asks for: at each process, whether or not it has a record, the size of one on
top of what is copied by then. -/
def spaceAsked : List Process → ℕ
  | []            => 0
  | task :: tasks => max 40 (40 * (records [task]).length + spaceAsked tasks)

/-- The process at the end of the list has no record. -/
def EndsWithoutMm (processes : List Process) : Prop :=
  ∃ task, processes.getLast? = some task ∧ task.mm = none

lemma endsWithoutMm_singleton {task : Process} : EndsWithoutMm [task] ↔ task.mm = none := by
  simp [EndsWithoutMm]

lemma endsWithoutMm_cons_cons {task task' : Process} {tasks : List Process} :
    EndsWithoutMm (task :: task' :: tasks) ↔ EndsWithoutMm (task' :: tasks) := by
  simp [EndsWithoutMm]

instance (processes : List Process) : Decidable (EndsWithoutMm processes) :=
  match h : processes.getLast? with
  | none      => isFalse (by simp [EndsWithoutMm, h])
  | some task => decidable_of_iff (task.mm = none) (by simp [EndsWithoutMm, h])

/-- Only a process at the end makes the walk ask for more than its records take. -/
lemma spaceAsked_eq (processes : List Process) :
    spaceAsked processes =
      40 * (records processes).length + if EndsWithoutMm processes then 40 else 0 := by
  induction processes with
  | nil => rfl
  | cons task tasks ih =>
    have hlen : (records (task :: tasks)).length =
        (records [task]).length + (records tasks).length := by
      cases hmm : task.mm with
      | none => simp [records_cons_none hmm]
      | some mm => simp [records_cons_some hmm, Nat.add_comm]
    cases tasks with
    | nil =>
      cases hmm : task.mm with
      | none => simp [spaceAsked, records_cons_none hmm, endsWithoutMm_singleton, hmm]
      | some mm => simp [spaceAsked, records_cons_some hmm, endsWithoutMm_singleton, hmm]
    | cons task' tasks =>
      have hpos : 40 ≤ spaceAsked (task' :: tasks) := Nat.le_max_left _ _
      rw [spaceAsked, hlen]
      simp only [endsWithoutMm_cons_cons]
      omega

lemma toNat_add_statsSize (h : copied.toNat + 40 < 2 ^ 64) :
    (copied + statsSize).toNat = copied.toNat + 40 := by
  have h40 : statsSize.toNat = 40 := rfl
  rw [UInt64.toNat_add, h40, Nat.mod_eq_of_lt h]

/-- A `size_t` below `2 ^ 63` is returned as it is. -/
lemma toInt_toInt64 (h : copied.toNat < 2 ^ 63) : copied.toInt64.toInt = copied.toNat := by
  rw [← Int64.toInt_ofNat_of_lt h, ← UInt64.toInt64_ofNat', UInt64.ofNat_toNat]

/-- A walk whose copies succeed runs to the end exactly when it finds the space it asks for. -/
lemma Walk.code_cases (h : Walk stats statsLen localStats processes copied rest r)
    (hrest : ∀ k, rest k = 0) (hcopied : copied ≤ statsLen)
    (hsmall : copied.toNat + 40 * (records processes).length + 40 ≤ 2 ^ 63) :
    (copied.toNat + spaceAsked processes ≤ statsLen.toNat ∧
      r.code = copied.toNat + 40 * (records processes).length) ∨
    (statsLen.toNat < copied.toNat + spaceAsked processes ∧ r.code = -ENOSPC) := by
  -- there must be room for a record before every process, also one that has none
  induction h with
  | done =>
    refine Or.inl ⟨UInt64.le_iff_toNat_le.mp hcopied, ?_⟩
    simpa using toInt_toInt64 (by omega)
  | full h =>
    have h := UInt64.lt_iff_toNat_lt.mp h
    rw [toNat_add_statsSize (by omega)] at h
    refine Or.inr ⟨?_, rfl⟩
    rw [spaceAsked]
    omega
  | fault h hmm hleft =>
    rw [hrest] at hleft
    exact absurd rfl hleft
  | skip h hmm hw ih =>
    have h := UInt64.le_iff_toNat_le.mp h
    rw [toNat_add_statsSize (by omega)] at h
    simp only [spaceAsked, records_cons_none hmm, records_nil, List.length_nil] at hsmall ⊢
    have := ih hrest hcopied hsmall
    omega
  | @write task tasks copied rest mm r h hmm hleft hw ih =>
    have hroom := UInt64.le_iff_toNat_le.mp h
    have hnat : (copied + statsSize).toNat = copied.toNat + 40 := toNat_add_statsSize (by omega)
    simp only [spaceAsked, records_cons_some hmm, records_nil, List.length_cons, List.length_nil]
      at hsmall ⊢
    have := ih (fun k => hrest (k + 1)) h (by omega)
    omega

end Taro.Stats
