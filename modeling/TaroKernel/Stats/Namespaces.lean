import TaroKernel.Stats.Walk

/-!
# One process or all of them

The list of all processes gives each with `task->pid`, its number in the initial namespace. Asked
for one process the syscall takes the number as one of the caller's namespace. So what a caller
reads in the list can be asked for again only where its numbers mean the same.
-/

namespace Taro.Stats

open Bytes

variable {stats : UInt64} {statsLen copied : SizeT} {localStats : UInt64 → UInt8}
  {processes : List Process} {find : PidT → Option Process} {pid : PidT} {rest : ℕ → UInt64}
  {r : UserRet} {s : ProcessMemStats}

/-- The call has copied a whole record, which reads as `s`. -/
def WritesRecord (r : UserRet) (s : ProcessMemStats) : Prop :=
  ∃ w ∈ r.writes, w.cells.length = 40 ∧ statsLayout.decode w.cells = s

lemma not_writesRecord_nil {c : Int} : ¬ WritesRecord ⟨c, []⟩ s := by
  rintro ⟨w, hw, -⟩
  cases hw

lemma decode_statsBytes (localStats : UInt64 → UInt8) (s : ProcessMemStats) :
    statsLayout.decode (statsBytes localStats s) = s :=
  statsLayout.load_store localStats 0 s

/-- What the loop copies as a whole is the record of a process of the list. -/
lemma Walk.exists_process (h : Walk stats statsLen localStats processes copied rest r)
    (hs : WritesRecord r s) :
    ∃ task ∈ processes, ∃ mm, task.mm = some mm ∧ statsOf task.pid task mm = s := by
  obtain ⟨w, hw, hlen, hdecode⟩ := hs
  induction h with
  | done => cases hw
  | full h => cases hw
  | skip h hmm hwalk ih =>
    obtain ⟨task, htask, hrecord⟩ := ih hw
    exact ⟨task, List.mem_cons_of_mem _ htask, hrecord⟩
  | fault h hmm hrest =>
    rw [List.mem_singleton.mp hw, List.length_take, length_statsBytes] at hlen
    omega
  | @write task tasks copied rest mm r h hmm hrest hwalk ih =>
    rcases List.mem_cons.mp hw with rfl | hw
    · rw [decode_statsBytes] at hdecode
      exact ⟨task, List.mem_cons_self, mm, hmm, hdecode⟩
    · obtain ⟨task, htask, hrecord⟩ := ih hw
      exact ⟨task, List.mem_cons_of_mem _ htask, hrecord⟩

/-- The call returns the size of a record and has written `s`. -/
def Reports (r : UserRet) (s : ProcessMemStats) : Prop := r.code = 40 ∧ WritesRecord r s

lemma reports_single_iff (processes : List Process) (localStats : UInt64 → UInt8)
    (hargs : ¬ (stats = 0 ∨ statsLen = 0)) (hpid : 0 < s.pid) (hrest : rest 0 = 0) :
    Reports (taroIndMemStats processes find s.pid stats statsLen localStats rest) s ↔
      ∃ task mm, find s.pid = some task ∧ task.mm = some mm ∧ statsOf s.pid task mm = s := by
  obtain ⟨hnone, c, -, hret⟩ | ⟨task, mm, hfinds⟩ | ⟨-, hneg⟩ :=
    taroIndMemStats_cases processes find s.pid stats statsLen rest
  · rw [hret]
    refine iff_of_false (fun h => not_writesRecord_nil h.2) ?_
    rintro ⟨task, mm, hfind, hmm, -⟩
    exact hnone task mm ⟨hargs, hpid, hfind, hmm⟩
  · have hleft : leftOut 40 (rest 0) = 0 := by rw [hrest]; rfl
    rw [hfinds.taroIndMemStats_eq, singleRet, hleft]
    simp [Reports, WritesRecord, hfinds.find_eq, hfinds.mm_eq, decode_statsBytes,
      List.take_of_length_le]
  · exact absurd hpid (Int32.not_lt.mpr hneg)

/-! ### What a number denotes -/

/-- The two processes have the same size and the same resident pages, as far as kilobytes fit in a
word, and their badness and adjustment give the same score. -/
structure Alike (task : Process) (mm : MmStruct) (task' : Process) (mm' : MmStruct) : Prop where
  totalVm : mm.totalVm.toNat % 2 ^ 52 = mm'.totalVm.toNat % 2 ^ 52
  rss : (getMmRss mm).toNat % 2 ^ 52 = (getMmRss mm').toNat % 2 ^ 52
  score : oomScore task.oomBadness task.oomScoreAdj.toInt32 =
    oomScore task'.oomBadness task'.oomScoreAdj.toInt32

lemma Alike.refl (task : Process) (mm : MmStruct) : Alike task mm task mm := ⟨rfl, rfl, rfl⟩

/-- Pages in kilobytes; the product with the size of a page is a word. -/
lemma toNat_kilobytes (pages : UInt64) :
    (pages * PAGE_SIZE / 1024).toNat = 4 * (pages.toNat % 2 ^ 52) := by
  have hsize : PAGE_SIZE.toNat = 4096 := rfl
  have hkb : (1024 : UInt64).toNat = 1024 := rfl
  rw [UInt64.toNat_div, UInt64.toNat_mul, hsize, hkb]
  omega

lemma kilobytes_eq_iff {pages pages' : UInt64} :
    pages * PAGE_SIZE / 1024 = pages' * PAGE_SIZE / 1024 ↔
      pages.toNat % 2 ^ 52 = pages'.toNat % 2 ^ 52 := by
  rw [← UInt64.toNat_inj, toNat_kilobytes, toNat_kilobytes]
  omega

/-- The percentage adds nothing: it is computed from the two amounts. -/
lemma statsOf_eq_iff {task task' : Process} {mm mm' : MmStruct} :
    statsOf pid task mm = statsOf pid task' mm' ↔ Alike task mm task' mm' := by
  constructor
  · intro h
    have hreserved : (statsOf pid task mm).reservedKb = (statsOf pid task' mm').reservedKb := by
      rw [h]
    have hcommitted : (statsOf pid task mm).committedKb = (statsOf pid task' mm').committedKb := by
      rw [h]
    have hscore : (statsOf pid task mm).oomScore = (statsOf pid task' mm').oomScore := by rw [h]
    exact ⟨kilobytes_eq_iff.mp hreserved, kilobytes_eq_iff.mp hcommitted, hscore⟩
  · intro h
    have hreserved := kilobytes_eq_iff.mpr h.totalVm
    have hcommitted := kilobytes_eq_iff.mpr h.rss
    simp only [statsOf, hreserved, hcommitted, h.score]

/-- To the caller the number of the listed process is that of a process like it. -/
def Resolves (find : PidT → Option Process) (listed : Process) (mm : MmStruct) : Prop :=
  ∃ task mm', find listed.pid = some task ∧ task.mm = some mm' ∧ Alike task mm' listed mm

/-- A record of the list is that of a listed process. Whoever asks for its number gets the record
back exactly if in the caller's namespace the number is that of a process like the listed one; of
course it is if it is the listed one's, as in the initial namespace. -/
theorem single_reports_iff {Ns : Type*} (T : ProcessTable Ns) (ns : Ns)
    (localStats localStats' : UInt64 → UInt8) (rest : ℕ → UInt64) (stats' : UInt64)
    (statsLen' : SizeT) (rest' : ℕ → UInt64) (hpid : pid ≤ 0)
    (hs : WritesRecord (taroIndMemStats T.processes (T.findTaskByVpid ns) pid stats statsLen
      localStats rest) s)
    (hstats' : stats' ≠ 0) (hlen' : 40 ≤ statsLen') (hrest' : rest' 0 = 0) :
    ∃ listed ∈ T.processes, ∃ mm, listed.mm = some mm ∧ s = statsOf listed.pid listed mm ∧
      (Reports (taroIndMemStats T.processes (T.findTaskByVpid ns) s.pid stats' statsLen' localStats'
        rest') s ↔ Resolves (T.findTaskByVpid ns) listed mm) ∧
      (T.findTaskByVpid ns listed.pid = some listed → Resolves (T.findTaskByVpid ns) listed mm) ∧
      (ns = T.initNs → T.findTaskByVpid ns listed.pid = some listed) := by
  have hargs : ¬ (stats = 0 ∨ statsLen = 0) := by
    intro hargs
    rw [taroIndMemStats, if_pos hargs] at hs
    exact not_writesRecord_nil hs
  have hwalk := walk_taroIndMemStats T.processes (T.findTaskByVpid ns) localStats rest hargs hpid
  obtain ⟨listed, hlisted, mm, hmm, rfl⟩ := hwalk.exists_process hs
  have hargs' : ¬ (stats' = 0 ∨ statsLen' = 0) := by
    rintro (h | h)
    · exact hstats' h
    · rw [h] at hlen'
      exact absurd hlen' (by decide)
  refine ⟨listed, hlisted, mm, hmm, rfl, ?_, ?_, ?_⟩
  · have hpos : 0 < (statsOf listed.pid listed mm).pid := T.pos listed hlisted
    have hpid_eq : (statsOf listed.pid listed mm).pid = listed.pid := rfl
    rw [reports_single_iff T.processes localStats' hargs' hpos hrest']
    simp only [hpid_eq, statsOf_eq_iff, Resolves]
  · intro hfind
    exact ⟨listed, mm, hfind, hmm, Alike.refl listed mm⟩
  · rintro rfl
    exact T.find_init listed hlisted

/-- A system with a container: inside, the number 1 is that of the process the system knows as 7. -/
def container : ProcessTable Bool where
  processes := [systemd, kthreadd, shell]
  findTaskByVpid inside pid :=
    if inside then if pid = 1 then some shell else none
    else [systemd, kthreadd, shell].find? (·.pid = pid)
  initNs := false
  pos := by decide
  nodup := by decide
  find_init := by decide

/-- Outside, each record of the list can be asked for again. -/
theorem shell_reports_outside :
    Reports (taroIndMemStats container.processes (container.findTaskByVpid false) 7 4096 40
      (fun _ => 0) fun _ => 0) (statsOf 7 shell ⟨⟨512⟩, 256, 0, 0⟩) := by
  have hs : WritesRecord (taroIndMemStats container.processes (container.findTaskByVpid false) 0
      4096 120 (fun _ => 0) fun _ => 0) (statsOf 7 shell ⟨⟨512⟩, 256, 0, 0⟩) :=
    ⟨_, List.mem_cons_of_mem _ List.mem_cons_self, by decide, by decide⟩
  obtain ⟨listed, -, mm, -, -, hiff, hown, hinit⟩ :=
    single_reports_iff container false _ (fun _ => 0) _ 4096 40 (fun _ => 0) (by decide) hs
      (by decide) (by decide) rfl
  exact hiff.mpr (hown (hinit rfl))

/-- Inside, the list has the shell as process 7, which is then not found, and gives other figures
for process 1 than the call for process 1. -/
theorem list_misleads_inside :
    let all := taroIndMemStats container.processes (container.findTaskByVpid true) 0 4096 120
      (fun _ => 0) fun _ => 0
    let single := fun pid => taroIndMemStats container.processes (container.findTaskByVpid true) pid
      4096 40 (fun _ => 0) fun _ => 0
    (WritesRecord all (statsOf 7 shell ⟨⟨512⟩, 256, 0, 0⟩) ∧ (single 7).code = -ESRCH) ∧
      WritesRecord all (statsOf 1 systemd ⟨⟨2048⟩, 1024, 512, 0⟩) ∧
      Reports (single 1) (statsOf 1 shell ⟨⟨512⟩, 256, 0, 0⟩) ∧
      ¬ Reports (single 1) (statsOf 1 systemd ⟨⟨2048⟩, 1024, 512, 0⟩) := by
  intro all single
  refine ⟨⟨⟨_, List.mem_cons_of_mem _ List.mem_cons_self, by decide, by decide⟩, by decide⟩,
    ⟨_, List.mem_cons_self, by decide, by decide⟩,
    ⟨by decide, _, List.mem_cons_self, by decide, by decide⟩, ?_⟩
  rintro ⟨-, w, hw, -, hdecode⟩
  rw [List.mem_singleton.mp hw] at hdecode
  exact absurd hdecode (by decide)

end Taro.Stats
