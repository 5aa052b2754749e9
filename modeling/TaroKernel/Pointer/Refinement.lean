import TaroKernel.Pointer.Heap
import TaroKernel.Registry.Get
import TaroKernel.Registry.Invariant

/-!
# The list in memory refines the registry

Every call returns, with the result the registry gives for the same call, and leaves a memory that
stands for the registry after it. On the way back it has released what it took: the mutex, the
reference to the task, the buffer. The one exception is an add that is refused after its node was
linked: it frees the node first, and then follows what is left of its links. The same lemmas say
which calls access a field that is not there.
-/

namespace Taro.Pointer

open Keyed ListHead Machine

variable {Signal : Type} {α : Type}

/-- The registry and the limits a memory stands for. -/
def Memory.kernel (m : Memory Signal) : Kernel Signal := ⟨m.heap.entries, m.rlimitAs⟩

/-- The list is intact and nobody holds the mutex. -/
structure Sound (m : Memory Signal) : Prop where
  holds : ∃ as, m.heap.Holds as
  mutex : m.mutex = false

/-- The mutex is locked first and unlocked before it is locked again. -/
def StrictAlternation : List Locking → Prop
  | []                      => True
  | .lock :: .unlock :: rest => StrictAlternation rest
  | _                       => False

/-- What was allocated was freed, once, and nothing else was. -/
def FreedOnce (events : List BufferEvent) : Prop :=
  ∀ a, (BufferEvent.kmalloc a ∈ events → events.count (.kfree a) = 1) ∧
    (BufferEvent.kfree a ∈ events → BufferEvent.kmalloc a ∈ events)

/-- A call that started on `m` has released all it took when it leaves `m'`. -/
structure Settles (m m' : Memory Signal) : Prop where
  sound : Sound m'
  lockings : StrictAlternation m'.lockings
  refs : m'.refs = m.refs
  buffers : m'.buffers = m.buffers
  freed : FreedOnce m'.bufferEvents

/-- Started on `m` with an empty record, the code returns `r`, settles, and leaves a memory that
stands for `s'`; all fields it accessed were there exactly when `clean` holds. -/
def Ends (x : Exec Signal α) (m : Memory Signal) (r : α) (s' : Kernel Signal) (clean : Prop) :
    Prop :=
  ∃ m', x.run m.clear = some (r, m') ∧ Settles m m' ∧ m'.kernel = s' ∧
    (none ∉ m'.accesses ↔ clean)

/-- The memory after a call that held the mutex once. -/
def Memory.after (m : Memory Signal) (h : Heap) (rlimitAs : Signal → Rlimit)
    (seen : List (Option Value)) : Memory Signal :=
  { m with
    heap := h
    rlimitAs := rlimitAs
    mutex := false
    lockings := [.lock, .unlock]
    bufferEvents := []
    accesses := seen }

variable {m : Memory Signal} {x : Exec Signal α} {r : α} {clean : Prop} {h : Heap}
  {as : List Addr} {rlimitAs : Signal → Rlimit} {seen : List (Option Value)}

lemma Ends.of_iff {s' : Kernel Signal} {c c' : Prop} (hx : Ends x m r s' c) (hc : c ↔ c') :
    Ends x m r s' c' := by
  obtain ⟨m', hrun, hsettles, hkernel, hclean⟩ := hx
  exact ⟨m', hrun, hsettles, hkernel, hclean.trans hc⟩

lemma freedOnce_nil : FreedOnce [] := fun a => by simp

/-- A call that returns before it took anything. -/
lemma Sound.ends_of_clear (hm : Sound m) (hrun : x.run m.clear = some (r, m.clear)) :
    Ends x m r m.kernel True :=
  ⟨m.clear, hrun, ⟨⟨hm.holds, hm.mutex⟩, trivial, rfl, rfl, freedOnce_nil⟩, rfl,
    by simp [Memory.clear]⟩

lemma Sound.ends_pure (hm : Sound m) (r : α) : Ends (pure r) m r m.kernel True :=
  hm.ends_of_clear rfl

/-- A call that held the mutex once and used no buffer. -/
lemma ends_of_after (seen : List (Option Value))
    (hrun : x.run m.clear = some (r, m.after h rlimitAs seen)) (hh : h.Holds as)
    (hclean : none ∉ seen ↔ clean) : Ends x m r ⟨h.entries, rlimitAs⟩ clean :=
  ⟨_, hrun, ⟨⟨⟨as, hh⟩, rfl⟩, trivial, rfl, rfl, freedOnce_nil⟩, rfl, hclean⟩

/-- A reference that was taken was given back. -/
lemma after_getTask_putTask (m : Memory Signal) (h : Heap) (rlimitAs : Signal → Rlimit)
    (seen : List (Option Value)) (t : Addr) :
    { m.after h rlimitAs seen with
      refs := Function.update (Function.update m.refs t (m.refs t + 1)) t
        (Function.update m.refs t (m.refs t + 1) t - 1) } = m.after h rlimitAs seen := by
  simp [Memory.after]

lemma mutexLock_run (hfree : m.mutex = false) : (mutexLock : Exec Signal Unit).run m =
    some ((), { m with mutex := true, lockings := m.lockings ++ [.lock] }) := by
  simp only [mutexLock, StateT.run]
  rw [hfree]
  rfl

/-- The memory of a call that has taken the mutex and looked for a pid. -/
def Memory.searched (m : Memory Signal) (seen : List (Option Value)) : Memory Signal :=
  { m with mutex := true, lockings := [.lock], bufferEvents := [], accesses := seen }

/-- How add, update and remove go on once they have the mutex: with the first node that has the
pid. -/
lemma Sound.search_run (hm : Sound m) (hh : m.heap.Holds as) (p : PidT) :
    ∃ seen, none ∉ seen ∧ ∀ f : Option Link → Exec Signal α,
      (do mutexLock; let temp ← search p; f temp).run m.clear =
        (f ((lookup m.heap.nodePid p as).map .node)).run (m.searched seen) := by
  have hsearch : Touches (search p : Exec Signal (Option Link)) m.heap _ m.heap True :=
    search_touches hh p
  obtain ⟨seen, hseen, hsearch⟩ := hsearch
  have hlock : (mutexLock : Exec Signal Unit).run m.clear = some ((), m.searched []) :=
    mutexLock_run (m := m.clear) hm.mutex
  refine ⟨seen, hseen.mpr trivial, ?_⟩
  intro f
  rw [run_bind_of hlock, run_bind_of (hsearch (m.searched []) rfl)]
  rfl

/-- How add goes on once it has filled and linked a new node. -/
lemma link_run (hh : m.heap.Holds as) (p : PidT) (L : SizeT) (allocator : Allocator)
    (hseen : none ∉ seen) :
    ∃ a seen', a ∉ m.heap.nodes ∧ none ∉ seen' ∧
      ∀ (g : Exec Signal α) (f : Addr → Exec Signal α),
        (do
          match ← kmallocNode true allocator with
          | none => g
          | some a =>
            linkEntry (.node a) p L
            f a).run (m.searched seen) =
          (f a).run { m.searched seen' with heap := m.heap.link a p L } := by
  let a := allocator.choose (m.heap.nodes ∪ m.buffers)
  let m₁ : Memory Signal :=
    { m.searched seen with heap := { m.heap with nodes := insert a m.heap.nodes } }
  have hkmalloc : (kmallocNode true allocator).run (m.searched seen) = some (some a, m₁) := rfl
  have hlink : Touches (linkEntry (.node a) p L : Exec Signal Unit) m₁.heap () _ True :=
    linkEntry_touches hh a p L
  obtain ⟨seen', hseen', hlink⟩ := hlink
  refine ⟨a, seen ++ seen', ?_, by simp [hseen, hseen'], ?_⟩
  · intro hmem
    exact allocator.choose_not_mem _ (Finset.mem_union_left _ hmem)
  · intro g f
    exact (run_bind_of hkmalloc).trans (run_bind_of (hlink m₁ rfl))

lemma lookup_entries (hh : h.Holds as) (p : PidT) :
    lookup MemoryLimitation.pid p h.entries = (lookup h.nodePid p as).map h.nodeEntry := by
  rw [hh.entries_eq]
  exact List.find?_map ..

/-! ### Remove -/

lemma remove_ends (hm : Sound m) (p : PidT) (allocator : Allocator) :
    Ends (taroRemoveMemoryLimit p allocator) m (Taro.taroRemoveMemoryLimit m.kernel p).1
      (Taro.taroRemoveMemoryLimit m.kernel p).2 True := by
  obtain ⟨as, hh⟩ := hm.holds
  unfold taroRemoveMemoryLimit Taro.taroRemoveMemoryLimit
  by_cases hp : p ≤ 0
  · simp only [if_pos hp]
    exact hm.ends_pure _
  · simp only [if_neg hp]
    obtain ⟨seen, hseen, hsearch⟩ := hm.search_run (α := Int) hh p
    rw [show m.kernel.memoryLimitList = m.heap.entries from rfl, lookup_entries hh p]
    cases hl : lookup m.heap.nodePid p as with
    | none =>
      refine ends_of_after seen ?_ hh (iff_true_intro hseen)
      rw [hsearch, hl]
      rfl
    | some a =>
      obtain ⟨as₁, as₂, rfl, hfirst⟩ := exists_split_of_lookup hl
      have hpid : m.heap.nodePid a = p := key_of_lookup hl
      have hlinks : m.heap.HasLinks (.node a) := Or.inr ((hh.mem_nodes a).mpr (by simp))
      have hdel : Touches (listDel (.node a) : Exec Signal Unit) m.heap () _ _ :=
        listDel_touches m.heap (.node a)
      obtain ⟨seen', hseen', hdel⟩ := hdel
      -- unlinked first and freed then: what is left in the node is of no account
      show Ends _ m 0 ⟨Keyed.unlink MemoryLimitation.pid (m.heap.nodePid a) m.heap.entries, _⟩ True
      rw [hpid, ← hh.entries_unlink hfirst hpid (allocator.freed (m.heap.del (.node a)) a)]
      refine ends_of_after (seen ++ seen') ?_ (hh.unlink _) ?_
      · rw [hsearch, hl]
        exact run_bind_of (hdel (m.searched seen) rfl)
      · simp only [List.mem_append, not_or, hseen, hseen', not_false_iff, true_and, iff_true]
        exact ⟨hlinks, hh.hasLinks_next hlinks, hh.hasLinks_prev hlinks⟩

/-! ### Get -/

/-- The get that reads its cursor after the loop has come back to the head: it succeeds and its
buffer has room for all entries. -/
def ReadsHead (l : List MemoryLimitation) (u : UInt64) (n : SizeT) (c : UInt64)
    (o : Outcomes Signal) : Prop :=
  u ≠ 0 ∧ c ≠ 0 ∧ n ≠ 0 ∧ o.kmalloc = true ∧ l.length ≤ n.toNat ∧ l.length * 16 ≤ 2147483647 ∧
    o.copyBuffer = 0 ∧ o.copyCount = 0

/-- The memory after a get that had a buffer. -/
def Memory.afterGet (m : Memory Signal) (a : Addr) (seen : List (Option Value)) : Memory Signal :=
  { m with
    mutex := false
    buffers := (insert a m.buffers).erase a
    lockings := [.lock, .unlock]
    bufferEvents := [.kmalloc a, .kfree a]
    accesses := seen }

lemma Sound.ends_of_afterGet (hm : Sound m) {a : Addr} (ha : a ∉ m.buffers)
    (seen : List (Option Value)) (hrun : x.run m.clear = some (r, m.afterGet a seen))
    (hclean : none ∉ seen ↔ clean) : Ends x m r m.kernel clean := by
  have hfreed : FreedOnce [.kmalloc a, .kfree a] := by
    intro b
    by_cases hb : b = a <;> simp [hb]
  exact ⟨_, hrun, ⟨⟨hm.holds, rfl⟩, trivial, rfl, Finset.erase_insert ha, hfreed⟩, rfl, hclean⟩

/-- The memory of a get that has filled its buffer. -/
def Memory.filled (m : Memory Signal) (a : Addr) (seen : List (Option Value)) : Memory Signal :=
  { m with
    mutex := false
    buffers := insert a m.buffers
    lockings := [.lock, .unlock]
    bufferEvents := [.kmalloc a]
    accesses := seen }

/-- How get goes on once its buffer is filled. -/
lemma Sound.fill_run (hm : Sound m) (hh : m.heap.Holds as) (n : SizeT) (allocator : Allocator) :
    ∃ a temp seen, a ∉ m.buffers ∧ none ∉ seen ∧
      (temp = .head ∧ (fillBuffer n m.heap.entries 0 []).2.length = m.heap.entries.length ∨
        m.heap.IsNode temp ∧
          (fillBuffer n m.heap.entries 0 []).2.length < m.heap.entries.length) ∧
      ∀ (g : Exec Signal α) (f : Addr → Filled → Exec Signal α),
        (do
          match ← kmallocArray true allocator with
          | none => g
          | some kBuffer =>
            mutexLock
            let filled ← fill n
            mutexUnlock
            f kBuffer filled).run m.clear =
          (f a ⟨temp, (fillBuffer n m.heap.entries 0 []).1,
            (fillBuffer n m.heap.entries 0 []).2⟩).run (m.filled a seen) := by
  obtain ⟨temp, hfill, htemp⟩ := fill_touches hh n
  obtain ⟨seen, hseen, hfill⟩ := hfill
  let a := allocator.choose (m.heap.nodes ∪ m.buffers)
  let m₁ : Memory Signal :=
    { m.clear with buffers := insert a m.buffers, bufferEvents := [.kmalloc a] }
  have hkmalloc : (kmallocArray true allocator).run m.clear = some (some a, m₁) := rfl
  have hlock := mutexLock_run (m := m₁) hm.mutex
  refine ⟨a, temp, seen, ?_, hseen.mpr trivial, htemp, ?_⟩
  · intro hmem
    exact allocator.choose_not_mem _ (Finset.mem_union_right _ hmem)
  · intro g f
    refine (run_bind_of hkmalloc).trans ((run_bind_of hlock).trans ?_)
    exact run_bind_of (hfill { m₁ with mutex := true, lockings := [.lock] } rfl)

/-- The condition in terms of the two copies. -/
lemma readsHead_iff {l : List MemoryLimitation} {u c : UInt64} {n : SizeT} {o : Outcomes Signal}
    (hargs : ¬ (u = 0 ∨ c = 0 ∨ n ≤ 0)) (hk : o.kmalloc = true) (hlen : l.length ≤ 2 ^ 31) :
    ReadsHead l u n c o ↔ l.length ≤ n.toNat ∧
      copyToUser (toSizeT (Int32.ofNat (l.take n.toNat).length) * recordSize) o.copyBuffer = 0 ∧
      copyToUser 4 o.copyCount = 0 := by
  rw [not_or, not_or, UInt64.le_zero_iff] at hargs
  have hfour : (4 : UInt64) ≤ INT_MAX := by decide
  simp only [ReadsHead, copyToUser_eq_zero_iff, hargs, hk, hfour, ne_eq, not_false_iff, true_and,
    and_assoc]
  apply and_congr_right
  intro hle
  rw [List.take_of_length_le hle, copySize_le_iff hlen]

/-- The last `pr_info` reads the node at the cursor. -/
lemma readCursor_touches (h : Heap) (temp : Link) (r : α) :
    Touches (do let _ ← readPid temp; let _ ← readMemoryLimit temp; pure r : Exec Signal α) h r h
      (h.IsNode temp) :=
  ((readPid_touches h temp).bind ((readMemoryLimit_touches h temp).bind (.pure h r))).of_iff
    (by rw [and_true, and_self_iff])

lemma get_ends (hm : Sound m) (hlen : m.heap.entries.length ≤ 2 ^ 31) (u : UInt64) (n : SizeT)
    (c : UInt64) (o : Outcomes Signal) (allocator : Allocator) :
    Ends (taroGetMemoryLimits u n c o allocator) m
      (Taro.taroGetMemoryLimits m.kernel.memoryLimitList u n c o) m.kernel
      (¬ ReadsHead m.kernel.memoryLimitList u n c o) := by
  obtain ⟨as, hh⟩ := hm.holds
  unfold taroGetMemoryLimits Taro.taroGetMemoryLimits
  by_cases hargs : u = 0 ∨ c = 0 ∨ n ≤ 0
  · simp only [if_pos hargs]
    refine (hm.ends_pure _).of_iff (iff_of_true trivial ?_)
    rintro ⟨hu, hc, hn, _⟩
    rw [UInt64.le_zero_iff] at hargs
    tauto
  · simp only [if_neg hargs]
    cases hk : o.kmalloc with
    | false =>
      refine (hm.ends_of_clear rfl).of_iff (iff_of_true trivial ?_)
      rintro ⟨_, _, _, hk', _⟩
      rw [hk] at hk'
      cases hk'
    | true =>
      obtain ⟨a, temp, seen, ha, hseen, htemp, hfill⟩ := hm.fill_run (α := Ret) hh n allocator
      have hiff := readsHead_iff (l := m.heap.entries) hargs hk hlen
      rw [fillBuffer_nil_eq n _ hlen] at htemp hfill
      rw [if_neg (by simp), show m.kernel.memoryLimitList = m.heap.entries from rfl,
        fillBuffer_nil_eq n _ hlen]
      dsimp only at htemp ⊢
      by_cases hbuffer : copyToUser
          (toSizeT (Int32.ofNat (m.heap.entries.take n.toNat).length) * recordSize) o.copyBuffer = 0
      · by_cases hcount : copyToUser 4 o.copyCount = 0
        · rw [if_neg (not_not.mpr hbuffer), if_neg (not_not.mpr hcount)]
          obtain ⟨seen', hseen', hread⟩ := readCursor_touches m.heap temp
            (⟨0, ⟨some (m.heap.entries.take n.toNat),
              some (Int32.ofNat (m.heap.entries.take n.toNat).length)⟩⟩ : Ret)
          refine hm.ends_of_afterGet ha (seen ++ seen') ?_ ?_
          · refine (hfill _ _).trans ?_
            dsimp only
            rw [if_neg (not_not.mpr hbuffer), if_neg (not_not.mpr hcount)]
            exact (run_bind_of (x := kfreeBuffer a) rfl).trans (hread _ rfl)
          · -- the cursor is a node exactly if the buffer was too small
            rw [List.mem_append, not_or, hseen', hiff]
            rw [List.length_take] at htemp
            rcases htemp with ⟨rfl, htake⟩ | ⟨hnode, htake⟩
            · exact iff_of_false (fun h => h.2) (not_not.mpr ⟨by omega, hbuffer, hcount⟩)
            · exact iff_of_true ⟨hseen, hnode⟩ fun h => by omega
        · have hclean : ¬ ReadsHead m.heap.entries u n c o := fun h => hcount (hiff.mp h).2.2
          rw [if_neg (not_not.mpr hbuffer), if_pos hcount]
          apply hm.ends_of_afterGet ha seen _ (iff_of_true hseen hclean)
          refine (hfill _ _).trans ?_
          dsimp only
          rw [if_neg (not_not.mpr hbuffer), if_pos hcount]
          rfl
      · have hclean : ¬ ReadsHead m.heap.entries u n c o := fun h => hbuffer (hiff.mp h).2.1
        rw [if_pos hbuffer]
        apply hm.ends_of_afterGet ha seen _ (iff_of_true hseen hclean)
        refine (hfill _ _).trans ?_
        dsimp only
        rw [if_pos hbuffer]
        rfl

/-! ### Update -/

variable [DecidableEq Signal]

lemma update_ends (hm : Sound m) (p : PidT) (L : SizeT) (o : Outcomes Signal) :
    Ends (taroUpdateMemoryLimit p L o) m (Taro.taroUpdateMemoryLimit m.kernel p L o).1
      (Taro.taroUpdateMemoryLimit m.kernel p L o).2 True := by
  obtain ⟨as, hh⟩ := hm.holds
  unfold taroUpdateMemoryLimit Taro.taroUpdateMemoryLimit
  cases hb : beforeMutex p L o with
  | error code => exact hm.ends_pure _
  | ok task =>
    dsimp only [updateLocked]
    obtain ⟨seen, hseen, hsearch⟩ := hm.search_run (α := Int) hh p
    rw [show m.kernel.memoryLimitList = m.heap.entries from rfl, lookup_entries hh p]
    cases hl : lookup m.heap.nodePid p as with
    | none =>
      refine ends_of_after seen ?_ hh (iff_true_intro hseen)
      rw [hsearch, hl]
      rfl
    | some a =>
      obtain ⟨as₁, as₂, rfl, hfirst⟩ := exists_split_of_lookup hl
      have hpid : m.heap.nodePid a = p := key_of_lookup hl
      have hnode : m.heap.IsNode (.node a) := (hh.mem_nodes a).mpr (by simp)
      have hstore : Touches (writeMemoryLimit (.node a) L : Exec Signal Unit) m.heap ()
        (m.heap.store a L) (m.heap.IsNode (.node a)) := writeMemoryLimit_touches m.heap (.node a) L
      obtain ⟨seen', hseen', hstore⟩ := hstore
      have hclean : none ∉ seen ++ seen' ↔ True := by simp [hseen, hseen', hnode]
      dsimp only [Option.map_some]
      rw [← hh.entries_store hfirst hpid]
      split_ifs with hx hlsm
      · refine ends_of_after seen ?_ hh (iff_true_intro hseen)
        rw [hsearch, hl]
        rfl
      all_goals
        -- the limit is stored, and the reference given back, whether or not the LSM refuses
        refine ends_of_after (seen ++ seen') ?_ (hh.store L) hclean
        rw [hsearch, hl]
        refine (run_bind_of (hstore (m.searched seen) rfl)).trans ?_
        exact congrArg (fun m' => some (_, m')) (after_getTask_putTask m _ _ _ task.addr)

/-! ### Add -/

/-- The add that unlinks its node after it has freed it: everything is fine up to the LSM, which
refuses. -/
def RefusedAdd (s : Kernel Signal) (p : PidT) (L : SizeT) (o : Outcomes Signal) : Prop :=
  0 ≤ p ∧ L ≠ 0 ∧ o.findTaskByVpid.isSome ∧ p ∉ s.pids ∧ o.kmalloc = true ∧
    o.securityTaskSetrlimit ≠ 0

/-- A refused add returns, whatever `kfree` left in its node. Only the heap can suffer. -/
lemma refused_run (hm : Sound m) (hh : m.heap.Holds as) {p : PidT} {L : SizeT}
    {o : Outcomes Signal} (h : RefusedAdd m.kernel p L o) (allocator : Allocator) :
    ∃ a h' seen, a ∉ m.heap.nodes ∧
      h' = (m.heap.link a p L).free a (allocator.freed (m.heap.link a p L) a) ∧ none ∈ seen ∧
      (taroAddMemoryLimit p L o allocator).run m.clear =
        some (-EPERM, m.after (h'.del (.node a)) m.rlimitAs seen) := by
  obtain ⟨hp, hL, hfind, hnew, hk, hlsm⟩ := h
  obtain ⟨task, htask⟩ := Option.isSome_iff_exists.mp hfind
  have hl : lookup m.heap.nodePid p as = none := by
    have hlookup := lookup_pid_eq_none_iff.mpr hnew
    rwa [show m.kernel.memoryLimitList = m.heap.entries from rfl, lookup_entries hh p,
      Option.map_eq_none_iff] at hlookup
  obtain ⟨seen, hseen, hsearch⟩ := hm.search_run (α := Int) hh p
  obtain ⟨a, seen', ha, hseen', hlink⟩ := link_run (α := Int) hh p L allocator hseen
  have hdel : Touches (listDel (.node a) : Exec Signal Unit) _ () _ False :=
    listDel_freed_touches (m.heap.link a p L) a (allocator.freed (m.heap.link a p L) a)
  obtain ⟨seen'', hseen'', hdel⟩ := hdel
  refine ⟨a, _, seen' ++ seen'', ha, rfl, ?_, ?_⟩
  · exact List.mem_append_right _ (not_not.mp hseen''.mp)
  · unfold taroAddMemoryLimit
    rw [beforeMutex_eq_ok_iff.mpr ⟨hp, hL, htask⟩]
    dsimp only
    rw [hsearch, hl, hk]
    refine (hlink _ _).trans ?_
    rw [if_pos hlsm]
    refine (run_bind_of (x := getTaskStruct task.addr) rfl).trans ?_
    refine (run_bind_of (x := kfreeNode allocator (.node a)) rfl).trans ?_
    refine (run_bind_of (hdel _ rfl)).trans ?_
    exact congrArg (fun m' => some (_, m')) (after_getTask_putTask m _ _ _ task.addr)

/-- As long as `kfree` leaves its links in the node, it is unlinked as it should be. -/
lemma refused_ends (hm : Sound m) {p : PidT} {L : SizeT} {o : Outcomes Signal}
    (h : RefusedAdd m.kernel p L o) {allocator : Allocator} (hkeeps : allocator.KeepsLinks) :
    Ends (taroAddMemoryLimit p L o allocator) m (-EPERM) m.kernel False := by
  obtain ⟨as, hh⟩ := hm.holds
  obtain ⟨a, _, seen, ha, rfl, hseen, hrun⟩ := refused_run hm hh h allocator
  obtain ⟨hnext, hprev⟩ := hkeeps (m.heap.link a p L) a
  rw [Heap.free_del hnext hprev] at hrun
  have hnew : p ∉ as.map (m.heap.link a p L).nodePid := by
    rw [hh.map_nodePid_link ha, ← map_pid_nodeEntry, ← hh.entries_eq]
    exact h.2.2.2.1
  have hholds := hh.link ha p L
  have hends := ends_of_after seen hrun (hholds.unlink _) (iff_of_false (not_not.mpr hseen) id)
  have hentries : unlink MemoryLimitation.pid p (m.heap.entries ++ [⟨p, L⟩]) = m.heap.entries :=
    unlink_append_entry h.2.2.2.1
  rwa [hholds.entries_unlink hnew (nodePid_link_self ..), hh.entries_link ha, hentries] at hends

lemma taroAddMemoryLimit_of_refused {s : Kernel Signal} {p : PidT} {L : SizeT}
    {o : Outcomes Signal} (h : RefusedAdd s p L o) :
    Taro.taroAddMemoryLimit s p L o = (-EPERM, s) := by
  obtain ⟨hp, hL, hfind, hnew, hk, hlsm⟩ := h
  obtain ⟨task, htask⟩ := Option.isSome_iff_exists.mp hfind
  rw [Taro.taroAddMemoryLimit, beforeMutex_eq_ok_iff.mpr ⟨hp, hL, htask⟩]
  simp only [addLocked, lookup_pid_eq_none_iff.mpr hnew, hk, Bool.true_eq_false, if_false,
    if_pos hlsm, unlink_append_entry hnew]

/-- An add that is not refused, or not after it has linked its node. -/
lemma granted_ends (hm : Sound m) {p : PidT} {L : SizeT} {o : Outcomes Signal}
    (hok : ¬ RefusedAdd m.kernel p L o) (allocator : Allocator) :
    Ends (taroAddMemoryLimit p L o allocator) m (Taro.taroAddMemoryLimit m.kernel p L o).1
      (Taro.taroAddMemoryLimit m.kernel p L o).2 True := by
  obtain ⟨as, hh⟩ := hm.holds
  unfold taroAddMemoryLimit Taro.taroAddMemoryLimit
  cases hb : beforeMutex p L o with
  | error code => exact hm.ends_pure code
  | ok task =>
    obtain ⟨hp, hL, htask⟩ := beforeMutex_eq_ok_iff.mp hb
    obtain ⟨seen, hseen, hsearch⟩ := hm.search_run (α := Int) hh p
    have hlookup : lookup MemoryLimitation.pid p m.kernel.memoryLimitList = _ :=
      lookup_entries hh p
    dsimp only [addLocked]
    cases hl : lookup m.heap.nodePid p as with
    | some a =>
      rw [hl] at hlookup
      rw [hlookup]
      -- the pid is registered already
      refine ends_of_after seen ?_ hh (iff_true_intro hseen)
      rw [hsearch, hl]
      rfl
    | none =>
      rw [hl] at hlookup
      rw [hlookup]
      have hnew : p ∉ m.kernel.pids := lookup_pid_eq_none_iff.mp hlookup
      cases hk : o.kmalloc with
      | false =>
        -- no memory for a node
        refine ends_of_after seen ?_ hh (iff_true_intro hseen)
        rw [hsearch, hl]
        rfl
      | true =>
        -- the node is linked, and the LSM grants the limit
        obtain ⟨a, seen', ha, hseen', hlink⟩ := link_run (α := Int) hh p L allocator hseen
        simp only [Option.map_none, Bool.true_eq_false, if_false]
        rw [show m.kernel.memoryLimitList = m.heap.entries from rfl, ← hh.entries_link ha p L]
        have hlsm : ¬ o.securityTaskSetrlimit ≠ 0 :=
          fun hlsm => hok ⟨hp, hL, by simp [htask], hnew, hk, hlsm⟩
        rw [if_neg hlsm]
        refine ends_of_after seen' ?_ (hh.link ha p L) (iff_true_intro hseen')
        rw [hsearch, hl]
        refine (hlink _ _).trans ?_
        rw [if_neg hlsm]
        exact congrArg (fun m' => some (_, m')) (after_getTask_putTask m _ _ _ task.addr)

lemma add_ends (hm : Sound m) (p : PidT) (L : SizeT) (o : Outcomes Signal) (allocator : Allocator)
    (hok : RefusedAdd m.kernel p L o → allocator.KeepsLinks) :
    Ends (taroAddMemoryLimit p L o allocator) m (Taro.taroAddMemoryLimit m.kernel p L o).1
      (Taro.taroAddMemoryLimit m.kernel p L o).2 (¬ RefusedAdd m.kernel p L o) := by
  by_cases h : RefusedAdd m.kernel p L o
  · rw [taroAddMemoryLimit_of_refused h]
    exact (refused_ends hm h (hok h)).of_iff (iff_of_false id (not_not.mpr h))
  · exact (granted_ends hm h allocator).of_iff (iff_of_true trivial h)

/-! ### All calls -/

/-- The calls that access a field that is not there. -/
def BadAccess (s : Kernel Signal) (i : Invocation Signal) : Prop :=
  match i.call with
  | .add p L => RefusedAdd s p L i.outcomes
  | .get u n c => ReadsHead s.memoryLimitList u n c i.outcomes
  | .update .. | .remove .. => False

/-- A call that cannot harm the list: an add whose node is linked when the LSM refuses it must find
the links still there after `kfree`. -/
def Harmless (s : Kernel Signal) (i : HeapCall Signal) : Prop :=
  ∀ p L, i.call = .add p L → RefusedAdd s p L i.outcomes → i.allocator.KeepsLinks

omit [DecidableEq Signal] in
lemma harmless_of_granted {s : Kernel Signal} {i : HeapCall Signal}
    (h : i.outcomes.securityTaskSetrlimit = 0) : Harmless s i :=
  fun _ _ _ hrefused => absurd h hrefused.2.2.2.2.2

omit [DecidableEq Signal] in
lemma harmless_of_keepsLinks {s : Kernel Signal} {i : HeapCall Signal}
    (h : i.allocator.KeepsLinks) : Harmless s i :=
  fun _ _ _ _ => h

/-- The list is intact and stands for a registry that can arise. -/
structure Valid (m : Memory Signal) : Prop where
  sound : Sound m
  wellFormed : WellFormed m.kernel

omit [DecidableEq Signal] in
lemma Ends.ret {x : Exec Signal Int} {code : Int} {s' : Kernel Signal}
    (hx : Ends x m code s' clean) :
    Ends (do let code ← x; pure (⟨code, .nothing⟩ : Ret)) m ⟨code, .nothing⟩ s' clean := by
  obtain ⟨m', hrun, hrest⟩ := hx
  exact ⟨m', run_bind_of hrun, hrest⟩

theorem syscall_ends (hm : Valid m) (i : HeapCall Signal) (hi : Harmless m.kernel i) :
    Ends (syscall i) m (Taro.syscall m.kernel i.toInvocation).1
      (Taro.syscall m.kernel i.toInvocation).2 (¬ BadAccess m.kernel i.toInvocation) := by
  obtain ⟨⟨c, o⟩, allocator⟩ := i
  cases c with
  | add p L => exact (add_ends hm.sound p L o allocator (hi p L rfl)).ret
  | get u n c => exact get_ends hm.sound hm.wellFormed.length_le u n c o allocator
  | update p L => exact (update_ends hm.sound p L o).ret.of_iff (iff_of_true trivial id)
  | remove p => exact (remove_ends hm.sound p allocator).ret.of_iff (iff_of_true trivial id)

/-- One call on the list in memory does what it does on the registry. -/
theorem next_refines (hm : Valid m) {i : HeapCall Signal} (hi : Harmless m.kernel i) :
    (next m i).1 = some (Taro.syscall m.kernel i.toInvocation).1 ∧
      (next m i).2.kernel = (Taro.syscall m.kernel i.toInvocation).2 ∧
      Settles m (next m i).2 ∧
      (none ∉ (next m i).2.accesses ↔ ¬ BadAccess m.kernel i.toInvocation) := by
  obtain ⟨m', hrun, hsettles, hkernel, hclean⟩ := syscall_ends hm i hi
  have hnext : next m i = (some (Taro.syscall m.kernel i.toInvocation).1, m') := by
    rw [next, hrun]
  rw [hnext]
  exact ⟨rfl, hkernel, hsettles, hclean⟩

/-- Which accesses a call makes does not depend on what `kfree` leaves: the links of a freed node
are not there in any case. -/
lemma next_accesses (hm : Valid m) (i : HeapCall Signal) :
    none ∉ (next m i).2.accesses ↔ ¬ BadAccess m.kernel i.toInvocation := by
  by_cases hi : Harmless m.kernel i
  · exact (next_refines hm hi).2.2.2
  · simp only [Harmless, not_forall] at hi
    obtain ⟨p, L, hcall, hrefused, _⟩ := hi
    obtain ⟨⟨c, o⟩, allocator⟩ := i
    cases hcall
    obtain ⟨as, hh⟩ := hm.sound.holds
    obtain ⟨a, h', seen, _, _, hseen, hrun⟩ := refused_run hm.sound hh hrefused allocator
    have hnext : next m ⟨⟨.add p L, o⟩, allocator⟩ =
        (some ⟨-EPERM, .nothing⟩, m.after (h'.del (.node a)) m.rlimitAs seen) := by
      rw [next, show (syscall ⟨⟨.add p L, o⟩, allocator⟩).run m.clear = _ from run_bind_of hrun]
      rfl
    rw [hnext]
    exact iff_of_false (not_not.mpr hseen) (not_not.mpr hrefused)

lemma Valid.next (hm : Valid m) {i : HeapCall Signal} (hi : Harmless m.kernel i) :
    Valid (next m i).2 := by
  obtain ⟨_, hkernel, hsettles, _⟩ := next_refines hm hi
  refine ⟨hsettles.sound, ?_⟩
  rw [hkernel]
  exact syscall_wellFormed m.kernel i.toInvocation hm.wellFormed

omit [DecidableEq Signal] in
lemma valid_boot (bytes : Heap) (rlimitAs : Signal → Rlimit) (refs : Addr → ℕ) :
    Valid (boot bytes rlimitAs refs) where
  sound := by
    refine ⟨⟨[], ring_nil ?_ ?_, by simp [boot]⟩, rfl⟩
    all_goals simp [boot, Links.init, Links.setNext, Links.setPrev]
  wellFormed := wellFormed_boot rlimitAs

/-! ### Runs -/

section Runs

variable {bytes : Heap} {refs : Addr → ℕ} {is : List (HeapCall Signal)}
  (hok : ∀ st ∈ steps next (boot bytes rlimitAs refs) is, Harmless st.pre.kernel st.input)

include hok

lemma valid_final : Valid (final next (boot bytes rlimitAs refs) is) :=
  (steps_invariant (fun _ _ hm hi => hm.next hi) (valid_boot bytes rlimitAs refs) hok).1

lemma valid_pre {st : Step (Memory Signal) (HeapCall Signal) (Option Ret)}
    (hst : st ∈ steps next (boot bytes rlimitAs refs) is) :
    Valid st.pre ∧ st = stepAt next st.pre st.input :=
  (steps_invariant (fun _ _ hm hi => hm.next hi) (valid_boot bytes rlimitAs refs) hok).2 st hst

/-- Whole runs on the list in memory return, answer as the registry does, and end in a memory that
stands for the same registry. -/
theorem run_refines :
    (steps next (boot bytes rlimitAs refs) is).map Step.output =
        (steps Taro.syscall (Taro.boot rlimitAs) (is.map HeapCall.toInvocation)).map
          (fun st => some st.output) ∧
      (final next (boot bytes rlimitAs refs) is).kernel =
        final Taro.syscall (Taro.boot rlimitAs) (is.map HeapCall.toInvocation) := by
  have hstep : ∀ (m : Memory Signal) (s : Kernel Signal) (i : HeapCall Signal),
      Valid m ∧ m.kernel = s → Harmless m.kernel i →
        (next m i).1 = some (Taro.syscall s i.toInvocation).1 ∧
          Valid (next m i).2 ∧ (next m i).2.kernel = (Taro.syscall s i.toInvocation).2 := by
    rintro m _ i ⟨hm, rfl⟩ hi
    obtain ⟨hret, hkernel, _, _⟩ := next_refines hm hi
    exact ⟨hret, hm.next hi, hkernel⟩
  have hrun := simulation (fun m s => Valid m ∧ m.kernel = s) HeapCall.toInvocation some hstep
    ⟨valid_boot bytes rlimitAs refs, rfl⟩ hok
  exact ⟨hrun.1, hrun.2.2⟩

end Runs

end Taro.Pointer
