import TaroKernel.Registry.UserBuffer
import TaroKernel.Stats.Walk

/-!
# What the result buffers show of kernel memory

Both `k_buffer` and `local_stats` start with whatever the memory held before, and only their fields
are assigned. In either record the four bytes after `pid` belong to no field. They are copied to the
user with the rest, so that every copy of more than four bytes shows some of the earlier content.
-/

namespace Taro

open Bytes

/-! ### The registry -/

namespace User

variable {Signal : Type*} {l : List MemoryLimitation} {n : SizeT} {count : Int32}
  {kBuffer kBuffer' : UInt64 → UInt8} {b : UInt64}

lemma fillBuffer_fst (n : SizeT) (l : List MemoryLimitation) (count : Int32)
    (kBuffer kBuffer' : UInt64 → UInt8) :
    (fillBuffer n l count kBuffer).1 = (fillBuffer n l count kBuffer').1 := by
  induction l generalizing count kBuffer kBuffer' with
  | nil => rfl
  | cons temp rest ih =>
    rw [fillBuffer, fillBuffer]
    split_ifs
    · rfl
    · exact ih _ _ _

lemma fillBuffer_congr (h : kBuffer b = kBuffer' b) :
    (fillBuffer n l count kBuffer).2 b = (fillBuffer n l count kBuffer').2 b := by
  induction l generalizing count kBuffer kBuffer' with
  | nil => exact h
  | cons temp rest ih =>
    rw [fillBuffer, fillBuffer]
    split_ifs
    · exact h
    · exact ih (assign_congr h)

/-- Records start at multiples of 16, and no field reaches from there to offset 4. -/
lemma store_padding (kBuffer : UInt64 → UInt8) (i : SizeT) (temp : MemoryLimitation) :
    recordLayout.store kBuffer (i * recordSize) temp 4 = kBuffer 4 := by
  have hi : (i * recordSize).toNat = i.toNat * 16 % 2 ^ 64 := UInt64.toNat_mul _ _
  have hoff : ∀ k < 16, offset (i * recordSize + UInt64.ofNat k) 4 =
      (2 ^ 64 - (i.toNat * 16 % 2 ^ 64 + k) % 2 ^ 64 + 4) % 2 ^ 64 := by
    intro k hk
    have hk' : k < 2 ^ 64 := by omega
    have hfour : (4 : UInt64).toNat = 4 := rfl
    rw [offset, UInt64.toNat_sub, UInt64.toNat_add, hi, UInt64.toNat_ofNat_of_lt' hk', hfour]
  apply assign_of_not_within
  intro f hf
  change f ∈ recordFields temp at hf
  simp only [recordFields, List.mem_cons, List.not_mem_nil, or_false] at hf
  rcases hf with rfl | rfl
  · rw [Within, hoff 0 (by decide), Code.length_encode, Code.size_i32]
    omega
  · rw [Within, hoff 8 (by decide), Code.length_encode, Code.size_u64]
    omega

lemma fillBuffer_padding (n : SizeT) (l : List MemoryLimitation) (count : Int32)
    (kBuffer : UInt64 → UInt8) : (fillBuffer n l count kBuffer).2 4 = kBuffer 4 := by
  induction l generalizing count kBuffer with
  | nil => rfl
  | cons temp rest ih =>
    rw [fillBuffer]
    split_ifs
    · rfl
    · rw [ih, store_padding]

/-- Once a record is copied, its `pid` has been assigned. -/
lemma fillBuffer_first (hcount : (fillBuffer n l 0 kBuffer).1 ≠ 0) (hb : b.toNat < 4) :
    (fillBuffer n l 0 kBuffer).2 b = (fillBuffer n l 0 kBuffer').2 b := by
  cases l with
  | nil => exact absurd rfl hcount
  | cons temp rest =>
    rw [fillBuffer] at hcount ⊢
    rw [fillBuffer]
    split_ifs at hcount ⊢ with hfull
    · exact absurd rfl hcount
    · apply fillBuffer_congr
      apply assign_eq_of_within (f := (0, Code.i32.encode temp.pid))
      · exact List.mem_cons_self
      · have hbase : toSizeT 0 * recordSize + UInt64.ofNat 0 = 0 := by decide
        rw [Within, Code.length_encode, Code.size_i32, hbase, offset, UInt64.sub_zero]
        exact hb

/-- The front of the buffer, of which some bytes are copied. -/
lemma exposesAt_records (hcount : ∀ kBuffer, (fillBuffer n l 0 kBuffer).1 = count) (u : UInt64)
    (k : ℕ) :
    ExposesAt 4 fun kBuffer => [⟨u, (read (fillBuffer n l 0 kBuffer).2 0
      (toSizeT count * recordSize).toNat).take k⟩] := by
  apply exposesAt_block
  · intro p p' i hi hn
    apply fillBuffer_first
    · rw [hcount]
      rintro rfl
      exact absurd hn (Nat.not_lt_zero i)
    · rw [UInt64.zero_add, UInt64.toNat_ofNat_of_lt' (show i < 2 ^ 64 by omega)]
      exact hi
  · intro x
    exact fillBuffer_padding n l 0 fun _ => x

theorem exposesAt_taroGetMemoryLimits (l : List MemoryLimitation) (u : UInt64) (n : SizeT)
    (c : UInt64) (o : Outcomes Signal) :
    ExposesAt 4 fun kBuffer => (taroGetMemoryLimits l u n c o kBuffer).writes := by
  obtain ⟨count, hcount⟩ : ∃ count, ∀ kBuffer, (fillBuffer n l 0 kBuffer).1 = count :=
    ⟨_, fun kBuffer => fillBuffer_fst n l 0 kBuffer fun _ => 0⟩
  have hrecords := exposesAt_records hcount u
  have hnumber : ∀ w ∈ [(copyOut c (Code.i32.encode count) o.copyCount).2], w.cells.length ≤ 4 := by
    intro w hw
    rw [List.mem_singleton.mp hw, copyOut_cells]
    simp
  simp only [taroGetMemoryLimits, hcount, copyOut, length_read]
  split_ifs
  · exact exposesAt_nil
  · exact exposesAt_nil
  · exact hrecords _
  · exact (hrecords _).append (exposesAt_const hnumber)
  · exact (hrecords _).append (exposesAt_const hnumber)

end User

/-! ### The statistics -/

namespace Stats

lemma fillStats_padding (localStats : UInt64 → UInt8) (s : ProcessMemStats) :
    fillStats localStats s 4 = localStats 4 := by
  apply assign_of_not_within
  intro f hf
  change f ∈ statsFields s at hf
  simp only [statsFields, List.mem_cons, List.not_mem_nil, or_false] at hf
  rcases hf with rfl | rfl | rfl | rfl | rfl <;> simp only [Code.length_encode] <;> decide

lemma fillStats_first (localStats localStats' : UInt64 → UInt8) (s : ProcessMemStats) {b : UInt64}
    (hb : b.toNat < 4) : fillStats localStats s b = fillStats localStats' s b := by
  apply assign_eq_of_within (f := (0, Code.i32.encode s.pid))
  · exact List.mem_cons_self
  · have hbase : (0 : UInt64) + UInt64.ofNat 0 = 0 := rfl
    rw [Within, Code.length_encode, Code.size_i32, hbase, offset, UInt64.sub_zero]
    exact hb

/-- One record, of which some bytes are copied. -/
lemma exposesAt_statsBytes (base : UInt64) (s : ProcessMemStats) (k : ℕ) :
    ExposesAt 4 fun localStats => [⟨base, (statsBytes localStats s).take k⟩] := by
  apply exposesAt_block
  · intro p p' i hi _
    apply fillStats_first
    rw [UInt64.zero_add, UInt64.toNat_ofNat_of_lt' (show i < 2 ^ 64 by omega)]
    exact hi
  · intro x
    exact fillStats_padding (fun _ => x) s

lemma exposesAt_eachProcess (stats : UInt64) (statsLen : SizeT) (processes : List Process)
    (copied : SizeT) (rest : ℕ → UInt64) (now : (UInt64 → UInt8) → UInt64 → UInt8)
    (hnow : ∀ p s, fillStats (now p) s = fillStats p s) :
    ExposesAt 4 fun p => (eachProcess stats statsLen processes copied (now p) rest).writes := by
  induction processes generalizing copied rest now with
  | nil => exact exposesAt_nil
  | cons task tasks ih =>
    simp only [eachProcess]
    split_ifs with hfull
    · exact exposesAt_nil
    · cases hmm : task.mm with
      | none => exact ih copied rest now hnow
      | some mm =>
        dsimp only
        simp only [hnow, copyStats_fillStats]
        have hcopy := exposesAt_statsBytes (stats + copied) (statsOf task.pid task mm)
          (40 - leftOut 40 (rest 0))
        split_ifs
        · exact hcopy
        · exact hcopy.append (ih _ _ (fun p => fillStats p (statsOf task.pid task mm))
            fun p s => fillStats_fillStats p _ s)

theorem exposesAt_taroIndMemStats (processes : List Process) (find : PidT → Option Process)
    (pid : PidT) (stats : UInt64) (statsLen : SizeT) (rest : ℕ → UInt64) :
    ExposesAt 4 fun p => (taroIndMemStats processes find pid stats statsLen p rest).writes := by
  obtain ⟨-, c, -, hret⟩ | ⟨task, mm, hfinds⟩ | ⟨hargs, hpid⟩ :=
    taroIndMemStats_cases processes find pid stats statsLen rest
  · simp only [hret]
    exact exposesAt_nil
  · simp only [hfinds.taroIndMemStats_eq]
    exact exposesAt_statsBytes _ _ _
  · simp only [taroIndMemStats, if_neg hargs, if_neg (Int32.not_lt.mpr hpid)]
    exact exposesAt_eachProcess stats statsLen processes 0 rest id fun _ _ => rfl

end Stats

/-! ### Which calls show something -/

/-- What is written does not depend on what was in kernel memory before. -/
def SameBytes (run : (UInt64 → UInt8) → UserRet) : Prop :=
  ∀ p p', (run p).writes = (run p').writes

/-- No copy goes past the `pid` at the front of its buffer. -/
def CopiesOnlyPid (run : (UInt64 → UInt8) → UserRet) : Prop :=
  ∀ p, ∀ w ∈ (run p).writes, w.cells.length ≤ 4

lemma copiesOnlyPid_of_nil {run : (UInt64 → UInt8) → UserRet} (h : ∀ p, (run p).writes = []) :
    CopiesOnlyPid run := by
  intro p w hw
  rw [h] at hw
  cases hw

namespace User

variable {Signal : Type*} {l : List MemoryLimitation}

/-- A get that shows nothing: it is refused, there is no entry to report, the records are too large
for a copy, or the copy leaves out all of them but four bytes. -/
def GetShowsNothing (l : List MemoryLimitation) (u : UInt64) (n : SizeT) (c : UInt64)
    (o : Outcomes Signal) : Prop :=
  (u = 0 ∨ c = 0 ∨ n ≤ 0) ∨ o.kmalloc = false ∨ l = [] ∨ 2 ^ 31 ≤ 16 * min l.length n.toNat ∨
    16 * min l.length n.toNat ≤ o.copyBuffer.toNat + 4

/-- The size of the front of the buffer, whatever was in it. -/
lemma length_records (hlen : l.length < 2 ^ 31) (n : SizeT) (kBuffer : UInt64 → UInt8) :
    (read (fillBuffer n l 0 kBuffer).2 0
      (toSizeT (fillBuffer n l 0 kBuffer).1 * recordSize).toNat).length =
        16 * min l.length n.toNat := by
  have hsize : 16 * min l.length n.toNat < 2 ^ 64 := by omega
  rw [(fillBuffer_eq n l kBuffer hlen.le).1, List.length_take, Nat.min_comm,
    recordAddr_eq (by omega), length_read, UInt64.toNat_ofNat_of_lt' hsize]

/-- The copy of the number of entries has four bytes, so only the copy of the records counts. -/
lemma copiesOnlyPid_iff_of_accepted (hlen : l.length < 2 ^ 31) {u c : UInt64} {n : SizeT}
    {o : Outcomes Signal} (hargs : ¬ (u = 0 ∨ c = 0 ∨ n ≤ 0)) (hk : ¬ o.kmalloc = false) :
    CopiesOnlyPid (taroGetMemoryLimits l u n c o) ↔
      16 * min l.length n.toNat - leftOut (16 * min l.length n.toNat) o.copyBuffer ≤ 4 := by
  have hrecords := length_records hlen n
  have hnumber : ∀ v, (copyOut c (Code.i32.encode v) o.copyCount).2.cells.length ≤ 4 := by
    intro v
    rw [copyOut_cells]
    simp
  simp only [CopiesOnlyPid, taroGetMemoryLimits, if_neg hargs, if_neg hk]
  constructor
  · intro h
    have hfirst := h (fun _ => 0) (copyOut u _ o.copyBuffer).2
      (by split_ifs <;> exact List.mem_cons_self)
    rw [copyOut_cells, List.length_take, hrecords] at hfirst
    omega
  · intro h p w hw
    have hcopy : (copyOut u (read (fillBuffer n l 0 p).2 0
        (toSizeT (fillBuffer n l 0 p).1 * recordSize).toNat) o.copyBuffer).2.cells.length ≤ 4 := by
      rw [copyOut_cells, List.length_take, hrecords]
      omega
    split_ifs at hw
    · rw [List.mem_singleton.mp hw]
      exact hcopy
    all_goals
      simp only [List.mem_cons, List.not_mem_nil, or_false] at hw
      rcases hw with rfl | rfl
      · exact hcopy
      · exact hnumber _

lemma copiesOnlyPid_iff (hlen : l.length < 2 ^ 31) (u : UInt64) (n : SizeT) (c : UInt64)
    (o : Outcomes Signal) :
    CopiesOnlyPid (taroGetMemoryLimits l u n c o) ↔ GetShowsNothing l u n c o := by
  by_cases hargs : u = 0 ∨ c = 0 ∨ n ≤ 0
  · refine iff_of_true (copiesOnlyPid_of_nil fun p => ?_) (Or.inl hargs)
    rw [taroGetMemoryLimits, if_pos hargs]
  by_cases hk : o.kmalloc = false
  · refine iff_of_true (copiesOnlyPid_of_nil fun p => ?_) (Or.inr (Or.inl hk))
    rw [taroGetMemoryLimits, if_neg hargs, if_pos hk]
  rw [copiesOnlyPid_iff_of_accepted hlen hargs hk, sub_leftOut_le_iff (by omega), GetShowsNothing,
    or_iff_right hargs, or_iff_right hk]
  refine ⟨Or.inr, ?_⟩
  rintro (rfl | h)
  · exact Or.inr (by simp)
  · exact h

end User

namespace Stats

/-- Statistics that show nothing: the call is refused, the first copy leaves out all of the record
but four bytes, or there is no record. The process asked for may not be found or have no address
space; in the walk over all, no process may have one, or the buffer no space for a record. -/
def IndShowsNothing (processes : List Process) (find : PidT → Option Process) (pid : PidT)
    (stats : UInt64) (statsLen : SizeT) (rest : ℕ → UInt64) : Prop :=
  (stats = 0 ∨ statsLen = 0) ∨ 40 ≤ (rest 0).toNat + 4 ∨
    if 0 < pid then ∀ task, find pid = some task → task.mm = none
    else statsLen < 40 ∨ ∀ task ∈ processes, task.mm = none

lemma sub_leftOut_record_le_iff (rest : UInt64) :
    40 - leftOut 40 rest ≤ 4 ↔ 40 ≤ rest.toNat + 4 := by
  rw [sub_leftOut_le_iff (by decide)]
  omega

/-- The first copy decides: one that fails ends the walk, one that does not is long enough. -/
lemma Walk.copiesOnlyPid_iff {stats : UInt64} {statsLen copied : SizeT}
    {localStats : UInt64 → UInt8} {processes : List Process} {rest : ℕ → UInt64} {r : UserRet}
    (h : Walk stats statsLen localStats processes copied rest r) :
    (∀ w ∈ r.writes, w.cells.length ≤ 4) ↔ 40 ≤ (rest 0).toNat + 4 ∨
      statsLen < copied + statsSize ∨ ∀ task ∈ processes, task.mm = none := by
  induction h with
  | done => simp
  | full h => simp [h]
  | skip h hmm hw ih =>
    rw [ih]
    simp [hmm]
  | @fault task tasks copied rest mm h hmm hrest =>
    have hfits := UInt64.not_lt.mpr h
    simp [hmm, hfits, ← sub_leftOut_record_le_iff]
  | @write task tasks copied rest mm r h hmm hrest hw ih =>
    have hfits := UInt64.not_lt.mpr h
    simp [hmm, hfits, ← sub_leftOut_record_le_iff, hrest]

lemma copiesOnlyPid_iff (processes : List Process) (find : PidT → Option Process) (pid : PidT)
    (stats : UInt64) (statsLen : SizeT) (rest : ℕ → UInt64) :
    CopiesOnlyPid (fun p => taroIndMemStats processes find pid stats statsLen p rest) ↔
      IndShowsNothing processes find pid stats statsLen rest := by
  by_cases hargs : stats = 0 ∨ statsLen = 0
  · refine iff_of_true (copiesOnlyPid_of_nil fun p => ?_) (Or.inl hargs)
    rw [taroIndMemStats, if_pos hargs]
  rw [IndShowsNothing, or_iff_right hargs]
  by_cases hpid : 0 < pid
  · rw [if_pos hpid]
    obtain ⟨hnone, c, -, hret⟩ | ⟨task, mm, hfinds⟩ | ⟨-, hneg⟩ :=
      taroIndMemStats_cases processes find pid stats statsLen rest
    · refine iff_of_true (copiesOnlyPid_of_nil fun p => by rw [hret]) (Or.inr ?_)
      intro task hfind
      cases hmm : task.mm with
      | none => rfl
      | some mm => exact absurd ⟨hargs, hpid, hfind, hmm⟩ (hnone task mm)
    · have hsome : ¬ ∀ task, find pid = some task → task.mm = none := by
        intro h
        simpa [hfinds.mm_eq] using h task hfinds.find_eq
      simp [CopiesOnlyPid, hfinds.taroIndMemStats_eq, singleRet, hsome,
        ← sub_leftOut_record_le_iff]
    · exact absurd hpid (Int32.not_lt.mpr hneg)
  · rw [if_neg hpid]
    have hwalk := fun p => (walk_taroIndMemStats processes find p rest hargs
      (Int32.not_lt.mp hpid)).copiesOnlyPid_iff
    rw [CopiesOnlyPid]
    simp only [hwalk, forall_const]
    rfl

end Stats

/-- Earlier content of kernel memory stays unseen exactly in the calls that show nothing: every
other one writes a byte of it to the user. -/
theorem sameBytes_iff {Signal Ns : Type*} (l : List MemoryLimitation) (hlen : l.length < 2 ^ 31)
    (u : UInt64) (n : SizeT) (c : UInt64) (o : Outcomes Signal) (T : Stats.ProcessTable Ns)
    (ns : Ns) (pid : PidT) (stats : UInt64) (statsLen : SizeT) (rest : ℕ → UInt64) :
    (SameBytes (User.taroGetMemoryLimits l u n c o) ↔ User.GetShowsNothing l u n c o) ∧
    (SameBytes (fun p => Stats.taroIndMemStats T.processes (T.findTaskByVpid ns) pid stats statsLen
        p rest) ↔
      Stats.IndShowsNothing T.processes (T.findTaskByVpid ns) pid stats statsLen rest) := by
  have hbyte : Nontrivial UInt8 := ⟨0, 1, by decide⟩
  constructor
  · rw [← User.copiesOnlyPid_iff hlen]
    exact (User.exposesAt_taroGetMemoryLimits l u n c o).forall_eq_iff
  · rw [← Stats.copiesOnlyPid_iff]
    exact (Stats.exposesAt_taroIndMemStats _ _ pid stats statsLen rest).forall_eq_iff

/-- A system with one kernel thread. -/
def Stats.onlyKthreadd : Stats.ProcessTable Unit where
  processes := [Stats.kthreadd]
  findTaskByVpid _ pid := if pid = 2 then some Stats.kthreadd else none
  initNs := ()
  pos := by decide
  nodup := by decide
  find_init := by decide

/-- A copy that breaks off after the `pid`, and a list of kernel threads only. -/
theorem pid_alone_is_shown :
    SameBytes (User.taroGetMemoryLimits [⟨7, 4096⟩] 4096 1 8192
      (⟨⟨true, true, 0, 12, 0⟩, none⟩ : Outcomes Unit)) ∧
    SameBytes fun p => Stats.taroIndMemStats Stats.onlyKthreadd.processes
      (Stats.onlyKthreadd.findTaskByVpid ()) 0 4096 40 p fun _ => 0 := by
  obtain ⟨hget, hind⟩ := sameBytes_iff [⟨7, 4096⟩] (by decide) 4096 1 8192
    (⟨⟨true, true, 0, 12, 0⟩, none⟩ : Outcomes Unit) Stats.onlyKthreadd () 0 4096 40 fun _ => 0
  constructor
  · apply hget.mpr
    simp [User.GetShowsNothing]
  · apply hind.mpr
    simp [Stats.IndShowsNothing, Stats.onlyKthreadd, Stats.kthreadd]

/-- A get of one entry, and the statistics of one process, each run on memory that held zeros and on
memory that held ones. -/
theorem padding_is_shown :
    (¬ SameBytes (User.taroGetMemoryLimits [⟨7, 4096⟩] 4096 1 8192
      (⟨⟨true, true, 0, 0, 0⟩, none⟩ : Outcomes Unit))) ∧
    ¬ SameBytes fun p =>
      Stats.taroIndMemStats [Stats.shell] (fun _ => none) 0 4096 40 p fun _ => 0 := by
  constructor
  · intro h
    exact absurd (h (fun _ => 0) fun _ => 1) (by decide)
  · intro h
    exact absurd (h (fun _ => 0) fun _ => 1) (by decide)

end Taro
