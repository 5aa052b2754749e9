import TaroKernel.Pointer.Resources
import TaroKernel.Pointer.Threads

/-!
# Syscalls at the same time

Any number of callers are in the middle of a call, and their accesses to memory come in any order;
`memory_limit_mutex` is all that keeps them apart. The four syscalls keep the contract of a mutex
over the registry: what they do to the list, to the limits and to reference counts they do while
they hold it. Only the buffer of a get, and the cursor it reads for its last message, are touched
without it. Left out are adds that leave the list broken: those that are refused when their node
is linked already, unless `kfree` leaves its links.
-/

namespace Taro.Pointer.Threads

open Keyed ListHead Linearizability Machine Mutex

variable {Signal : Type} {α β : Type}

/-! ### Code that only touches the heap -/

/-- What the action does to the heap and what it returns depends on the heap only. -/
def Local (x : Exec Signal β) : Prop :=
  ∀ h, (∀ m : Memory Signal, m.heap = h → x.run m = none) ∨
    ∃ b h' seen, ∀ m : Memory Signal, m.heap = h → x.run m = some (b, m.touch h' seen)

def HeapOnly : Prog Signal α → Prop
  | .ret _ => True
  | .act x k => Local x ∧ ∀ b, HeapOnly (k b)
  | .lock _ | .unlock _ => False

/-- From the heap `h`, the actions of the code lead to `h'` and to the result `r`. -/
def Runs : Prog Signal α → Heap → α → Heap → List (Option Value) → Prop
  | .ret a, h, r, h', seen => a = r ∧ h = h' ∧ seen = []
  | .act x k, h, r, h', seen => ∃ b h₁ seen₁ seen₂,
      (∀ m : Memory Signal, m.heap = h → x m = some (b, m.touch h₁ seen₁)) ∧
        Runs (k b) h₁ r h' seen₂ ∧ seen = seen₁ ++ seen₂
  | .lock _, _, _, _, _ | .unlock _, _, _, _, _ => False

section HeapOnly

variable {x : Exec Signal β} {p : Prog Signal α} {f : α → Prog Signal β} {h h' : Heap} {r : α}
  {seen : List (Option Value)}

lemma local_of_touches {r : Heap → β} {h' : Heap → Heap} {c : Heap → Prop}
    (hx : ∀ h, Touches x h (r h) (h' h) (c h)) : Local x := by
  intro h
  obtain ⟨seen, _, hrun⟩ := hx h
  exact Or.inr ⟨r h, h' h, seen, hrun⟩

lemma HeapOnly.bind (hp : HeapOnly p) (hf : ∀ a, HeapOnly (f a)) : HeapOnly (p >>= f) := by
  induction p with
  | ret a => exact hf a
  | act x k ih => exact ⟨hp.1, fun b => ih b (hp.2 b)⟩
  | lock k => exact hp.elim
  | unlock k => exact hp.elim

lemma heapOnly_atomic (hx : Local x) : HeapOnly (.atomic x : Prog Signal β) :=
  ⟨hx, fun _ => trivial⟩

lemma local_readNext (l : Link) : Local (readNext l : Exec Signal Link) :=
  local_of_touches fun h => readNext_touches h l

lemma local_readPrev (l : Link) : Local (readPrev l : Exec Signal Link) :=
  local_of_touches fun h => readPrev_touches h l

lemma local_writeNext (l v : Link) : Local (writeNext l v : Exec Signal Unit) :=
  local_of_touches fun h => writeNext_touches h l v

lemma local_writePrev (l v : Link) : Local (writePrev l v : Exec Signal Unit) :=
  local_of_touches fun h => writePrev_touches h l v

lemma local_readPid (l : Link) : Local (readPid l : Exec Signal PidT) :=
  local_of_touches fun h => readPid_touches h l

lemma local_readMemoryLimit (l : Link) : Local (readMemoryLimit l : Exec Signal SizeT) :=
  local_of_touches fun h => readMemoryLimit_touches h l

lemma local_writePid (l : Link) (p : PidT) : Local (writePid l p : Exec Signal Unit) :=
  local_of_touches fun h => writePid_touches h l p

lemma local_writeMemoryLimit (l : Link) (L : SizeT) :
    Local (writeMemoryLimit l L : Exec Signal Unit) :=
  local_of_touches fun h => writeMemoryLimit_touches h l L

lemma local_listFirst : Local (listFirst : Exec Signal (Link × ℕ)) :=
  local_of_touches fun h => listFirst_touches h

lemma heapOnly_listDel (entry : Link) : HeapOnly (listDel entry : Prog Signal Unit) := by
  refine (heapOnly_atomic (local_readPrev entry)).bind fun prev => ?_
  refine (heapOnly_atomic (local_readNext entry)).bind fun next => ?_
  refine (heapOnly_atomic (local_writePrev next prev)).bind fun _ => ?_
  refine (heapOnly_atomic (local_writeNext prev next)).bind fun _ => ?_
  refine (heapOnly_atomic (local_writeNext entry .poison1)).bind fun _ => ?_
  exact heapOnly_atomic (local_writePrev entry .poison2)

lemma heapOnly_linkEntry (entry : Link) (p : PidT) (L : SizeT) :
    HeapOnly (linkEntry entry p L : Prog Signal Unit) := by
  refine (heapOnly_atomic (local_writePid entry p)).bind fun _ => ?_
  refine (heapOnly_atomic (local_writeMemoryLimit entry L)).bind fun _ => ?_
  refine HeapOnly.bind ?_ fun _ => ?_
  · refine (heapOnly_atomic (local_writeNext entry entry)).bind fun _ => ?_
    exact heapOnly_atomic (local_writePrev entry entry)
  · refine (heapOnly_atomic (local_readPrev .head)).bind fun prev => ?_
    refine (heapOnly_atomic (local_writePrev .head entry)).bind fun _ => ?_
    refine (heapOnly_atomic (local_writeNext entry .head)).bind fun _ => ?_
    refine (heapOnly_atomic (local_writePrev entry prev)).bind fun _ => ?_
    exact heapOnly_atomic (local_writeNext prev entry)

/-- A loop that has run out of steps does not go on. -/
lemma heapOnly_stop : HeapOnly (.act (fun _ => none) .ret : Prog Signal α) :=
  ⟨fun _ => Or.inl fun _ _ => rfl, fun _ => trivial⟩

lemma heapOnly_search (p : PidT) : HeapOnly (search p : Prog Signal (Option Link)) := by
  have hloop : ∀ fuel temp, HeapOnly (searchFrom p fuel temp : Prog Signal (Option Link)) := by
    intro fuel
    induction fuel with
    | zero => exact fun _ => heapOnly_stop
    | succ fuel ih =>
      intro temp
      unfold searchFrom
      split_ifs
      · trivial
      · refine (heapOnly_atomic (local_readPid temp)).bind fun pid => ?_
        split_ifs
        · trivial
        · exact (heapOnly_atomic (local_readNext temp)).bind fun next => ih next
  exact (heapOnly_atomic local_listFirst).bind fun first => hloop first.2 first.1

lemma heapOnly_fill (n : SizeT) : HeapOnly (fill n : Prog Signal Filled) := by
  have hloop : ∀ fuel temp count kBuffer,
      HeapOnly (fillFrom n fuel temp count kBuffer : Prog Signal Filled) := by
    intro fuel
    induction fuel with
    | zero => exact fun _ _ _ => heapOnly_stop
    | succ fuel ih =>
      intro temp count kBuffer
      unfold fillFrom
      split_ifs
      · trivial
      · trivial
      · refine (heapOnly_atomic (local_readPid temp)).bind fun pid => ?_
        refine (heapOnly_atomic (local_readMemoryLimit temp)).bind fun memoryLimit => ?_
        exact (heapOnly_atomic (local_readNext temp)).bind fun next => ih next _ _
  exact (heapOnly_atomic local_listFirst).bind fun first => hloop first.2 first.1 0 []

/-- The actions, taken one after the other. -/
lemma Runs.alone_run (hp : Runs p h r h' seen) (m : Memory Signal) (hm : m.heap = h) :
    (alone p).run m = some (r, m.touch h' seen) := by
  induction p generalizing h seen m with
  | ret a =>
    obtain ⟨rfl, rfl, rfl⟩ := hp
    subst hm
    simp [Memory.touch]
  | act x k ih =>
    obtain ⟨b, h₁, seen₁, seen₂, hx, hk, rfl⟩ := hp
    rw [alone_act, run_bind_of (hx m hm), ih b hk (m.touch h₁ seen₁) rfl]
    simp [Memory.touch]
  | lock k => exact hp.elim
  | unlock k => exact hp.elim

lemma HeapOnly.cases (hp : HeapOnly p) (h : Heap) :
    (∀ m : Memory Signal, m.heap = h → (alone p).run m = none) ∨
      ∃ r h' seen, Runs p h r h' seen := by
  induction p generalizing h with
  | ret a => exact Or.inr ⟨a, h, [], rfl, rfl, rfl⟩
  | act x k ih =>
    rcases hp.1 h with hnone | ⟨b, h₁, seen₁, hx⟩
    · left
      intro m hm
      rw [alone_act, StateT.run_bind, hnone m hm]
      rfl
    · rcases ih b (hp.2 b) h₁ with hnone | ⟨r, h', seen₂, hk⟩
      · left
        intro m hm
        rw [alone_act, run_bind_of (hx m hm)]
        exact hnone _ rfl
      · exact Or.inr ⟨r, h', _, b, h₁, seen₁, seen₂, hx, hk, rfl⟩
  | lock k => exact hp.elim
  | unlock k => exact hp.elim

/-- A memory with nothing but a heap. -/
def ofHeap (h : Heap) : Memory Signal where
  heap := h
  rlimitAs _ := ⟨0, 0⟩
  mutex := false
  refs _ := 0
  buffers := ∅
  lockings := []
  bufferEvents := []
  accesses := []

/-- What the code does alone it does action by action. -/
lemma HeapOnly.runs {c : Prop} (hp : HeapOnly p) (ht : Touches (alone p) h r h' c) :
    ∃ seen, (none ∉ seen ↔ c) ∧ Runs p h r h' seen := by
  obtain ⟨seen, hseen, hrun⟩ := ht
  have hat := hrun (ofHeap h) rfl
  rcases hp.cases h with hnone | ⟨r', h'', seen', hruns⟩
  · rw [hnone _ rfl] at hat
    cases hat
  · rw [hruns.alone_run _ rfl] at hat
    obtain ⟨rfl, hm⟩ := Prod.mk.inj (Option.some.inj hat)
    obtain rfl : h'' = h' := congrArg Memory.heap hm
    obtain rfl : seen' = seen := congrArg Memory.accesses hm
    exact ⟨seen', hseen, hruns⟩

end HeapOnly

/-! ### The contract -/

/-- The list in memory is in order, it and the limits stand for `s`, which is a registry that can
arise, and no reference to a task is held. -/
structure Intact (refs : Addr → ℕ) (m : Memory Signal) (s : Kernel Signal) : Prop where
  holds : ∃ as, m.heap.Holds as
  kernel_eq : m.kernel = s
  wellFormed : WellFormed s
  refs_eq : m.refs = refs

/-- Nothing that the mutex protects is changed. -/
structure Spares (m m' : Memory Signal) : Prop where
  heap : m'.heap = m.heap
  rlimitAs : m'.rlimitAs = m.rlimitAs
  refs : m'.refs = m.refs

/-- Every field that is accessed on the way from `m` to `m'` is there, unless `bad`. -/
def AccessOk (bad : Prop) (m m' : Memory Signal) : Prop :=
  ∃ seen, m'.accesses = m.accesses ++ seen ∧ (none ∈ seen → bad)

/-- An add that the LSM refuses. -/
def LsmRefuses (i : HeapCall Signal) : Prop :=
  (∃ p L, i.call = .add p L) ∧ i.outcomes.securityTaskSetrlimit ≠ 0

def IsGet (i : HeapCall Signal) : Prop := ∃ u n c, i.call = .get u n c

/-- A call that leaves the list in order: the LSM does not refuse it, or `kfree` leaves the links of
the node that is unlinked after it was freed. -/
structure CalmCall (Signal : Type) extends HeapCall Signal where
  calm : LsmRefuses toHeapCall → allocator.KeepsLinks

variable [DecidableEq Signal]

/-- The code of such a call. -/
def calmSyscall (i : CalmCall Signal) : Prog Signal Ret := syscall i.toHeapCall

/-- The mutex protects the list, the limits and the reference counts. -/
def contract (refs : Addr → ℕ) :
    Contract (Memory Signal) (CalmCall Signal) Ret (Kernel Signal) where
  next s i := Taro.syscall s i.toInvocation
  Rep := Intact refs
  Unseen := Spares
  Outside i m m' := Spares m m' ∧ AccessOk (IsGet i.toHeapCall) m m'
  Inside i m m' := AccessOk (LsmRefuses i.toHeapCall) m m'
  unseen_refl _ := ⟨rfl, rfl, rfl⟩
  unseen_trans h h' :=
    ⟨h'.heap.trans h.heap, h'.rlimitAs.trans h.rlimitAs, h'.refs.trans h.refs⟩
  unseen_of_outside h := h.1
  rep_of_unseen h hm := by
    refine ⟨h.heap ▸ hm.holds, ?_, hm.wellFormed, h.refs.trans hm.refs_eq⟩
    rw [← hm.kernel_eq, Memory.kernel, h.heap, h.rlimitAs]
    rfl

/-- From any memory with this heap, these limits and these reference counts, the code ends its
critical section as the contract says. -/
def Leads (refs : Addr → ℕ) (i : CalmCall Signal) (s : Kernel Signal) (r : Ret)
    (p : Prog Signal Ret) (h : Heap) (rlimitAs : Signal → Rlimit) (refs' : Addr → ℕ) : Prop :=
  ∀ m : Memory Signal, m.heap = h → m.rlimitAs = rlimitAs → m.refs = refs' →
    (contract refs).During i s r p m

section Leads

variable {refs refs' : Addr → ℕ} {i : CalmCall Signal} {s : Kernel Signal} {r : Ret}
  {h h' : Heap} {rlimitAs : Signal → Rlimit}

/-- An action that accesses no field. -/
lemma leads_act {x : Exec Signal β} {k : β → Prog Signal Ret}
    (hx : ∀ m : Memory Signal, m.heap = h → m.rlimitAs = rlimitAs → m.refs = refs' →
      ∃ b m', x.run m = some (b, m') ∧ m'.accesses = m.accesses ∧
        Leads refs i s r (k b) m'.heap m'.rlimitAs m'.refs) :
    Leads refs i s r (.act x k) h rlimitAs refs' := by
  intro m hheap hlim hrefs m₁ hm₁
  obtain ⟨b, m₂, hrun, hacc, hk⟩ :=
    hx m₁ (hm₁.heap.trans hheap) (hm₁.rlimitAs.trans hlim) (hm₁.refs.trans hrefs)
  exact ⟨b, m₂, hrun, ⟨[], by simpa using hacc, by simp⟩, hk m₂ rfl rfl rfl⟩

/-- Code that only touches the heap. -/
lemma leads_touches {p : Prog Signal α} {f : α → Prog Signal Ret} {a : α} {c : Prop}
    (hp : HeapOnly p) (ht : Touches (alone p) h a h' c) (hc : ¬ c → LsmRefuses i.toHeapCall)
    (hf : Leads refs i s r (f a) h' rlimitAs refs') :
    Leads refs i s r (p >>= f) h rlimitAs refs' := by
  obtain ⟨seen, hseen, hruns⟩ := hp.runs ht
  have hbad : none ∈ seen → LsmRefuses i.toHeapCall := fun hmem => hc fun hc' => hseen.mpr hc' hmem
  clear hp ht hc hseen
  induction p generalizing h seen with
  | ret a' =>
    obtain ⟨rfl, rfl, rfl⟩ := hruns
    exact hf
  | act x k ih =>
    obtain ⟨b, h₁, seen₁, seen₂, hx, hk, rfl⟩ := hruns
    intro m hheap hlim hrefs m₁ hm₁
    refine ⟨b, _, hx m₁ (hm₁.heap.trans hheap), ⟨seen₁, rfl, ?_⟩, ?_⟩
    · exact fun hmem => hbad (List.mem_append_left _ hmem)
    · exact ih b seen₂ hk (fun hmem => hbad (List.mem_append_right _ hmem)) _ rfl
        (hm₁.rlimitAs.trans hlim) (hm₁.refs.trans hrefs)
  | lock k => exact hruns.elim
  | unlock k => exact hruns.elim

lemma leads_unlock {as : List Addr} {k : Prog Signal Ret} (hh : h.Holds as)
    (hs : (⟨h.entries, rlimitAs⟩ : Kernel Signal) = s) (hw : WellFormed s)
    (hk : (contract refs).After i r k) : Leads refs i s r (.unlock k) h rlimitAs refs := by
  rintro m rfl rfl rfl
  exact ⟨⟨⟨as, hh⟩, hs, hw, rfl⟩, hk⟩

/-- The reference to the task is taken and given back. -/
lemma leads_getTask {task : Addr} {k : Prog Signal Ret}
    (hk : Leads refs i s r k h rlimitAs (Function.update refs' task (refs' task + 1))) :
    Leads refs i s r (.act (getTaskStruct task) fun _ => k) h rlimitAs refs' := by
  apply leads_act
  rintro m rfl rfl rfl
  exact ⟨(), _, rfl, rfl, hk⟩

lemma leads_putTask {task : Addr} {k : Prog Signal Ret}
    (hk : Leads refs i s r k h rlimitAs refs') :
    Leads refs i s r (.act (putTaskStruct task) fun _ => k) h rlimitAs
      (Function.update refs' task (refs' task + 1)) := by
  apply leads_act
  rintro m rfl rfl hm
  refine ⟨(), _, rfl, rfl, ?_⟩
  have hback : Function.update m.refs task (m.refs task - 1) = refs' := by
    rw [hm]
    simp
  rw [hback]
  exact hk

lemma leads_setRlimit {signal : Signal} {rl : Rlimit} {k : Prog Signal Ret}
    (hk : Leads refs i s r k h (Function.update rlimitAs signal rl) refs') :
    Leads refs i s r (.act (setRlimit signal rl) fun _ => k) h rlimitAs refs' := by
  apply leads_act
  rintro m rfl rfl rfl
  exact ⟨(), _, rfl, rfl, hk⟩

lemma leads_kfreeNode {allocator : Allocator} {a : Addr} {k : Prog Signal Ret}
    (hk : Leads refs i s r k (h.free a (allocator.freed h a)) rlimitAs refs') :
    Leads refs i s r (.act (kfreeNode allocator (.node a)) fun _ => k) h rlimitAs refs' := by
  apply leads_act
  rintro m rfl rfl rfl
  exact ⟨(), _, rfl, rfl, hk⟩

/-- Whatever address the allocator gives, it is none of a node. -/
lemma leads_kmallocNode {allocator : Allocator} {k : Option Addr → Prog Signal Ret}
    (hk : ∀ a ∉ h.nodes,
      Leads refs i s r (k (some a)) { h with nodes := insert a h.nodes } rlimitAs refs') :
    Leads refs i s r (.act (kmallocNode true allocator) k) h rlimitAs refs' := by
  apply leads_act
  rintro m rfl rfl rfl
  refine ⟨_, _, rfl, rfl, hk _ ?_⟩
  intro hmem
  exact allocator.choose_not_mem _ (Finset.mem_union_left _ hmem)

end Leads

/-! ### The calls -/

section Calls

variable {refs : Addr → ℕ} {i : CalmCall Signal}

/-- How add, update and remove start: they take the mutex and look for the pid. -/
lemma before_search {p : PidT} {f : Option Link → Prog Signal Ret}
    (hf : ∀ (m : Memory Signal) (as : List Addr), m.heap.Holds as →
      WellFormed (Taro.syscall m.kernel i.toInvocation).2 →
      Leads refs i (Taro.syscall m.kernel i.toInvocation).2
        (Taro.syscall m.kernel i.toInvocation).1 (f ((lookup m.heap.nodePid p as).map .node))
        m.heap m.rlimitAs refs) :
    (contract refs).Before i (.lock (search p >>= f)) := by
  rintro m _ ⟨⟨as, hh⟩, rfl, hw, hrefs⟩
  refine (?_ : Leads refs _ _ _ _ m.heap m.rlimitAs refs) m rfl rfl hrefs
  refine leads_touches (heapOnly_search p) ((alone_search p).symm ▸ search_touches hh p)
    (fun hc => absurd trivial hc) ?_
  exact hf m as hh (syscall_wellFormed m.kernel i.toInvocation hw)

omit [DecidableEq Signal] in
/-- The first entry with the pid, in memory and in the registry. -/
lemma lookup_kernel {m : Memory Signal} {as : List Addr} (hh : m.heap.Holds as) (p : PidT) :
    lookup MemoryLimitation.pid p m.kernel.memoryLimitList =
      (lookup m.heap.nodePid p as).map m.heap.nodeEntry := lookup_entries hh p

lemma remove_before (p : PidT) (o : Outcomes Signal) (allocator : Allocator) (hcalm) :
    (contract refs).Before ⟨⟨⟨.remove p, o⟩, allocator⟩, hcalm⟩
      (syscall ⟨⟨.remove p, o⟩, allocator⟩) := by
  simp only [syscall, taroRemoveMemoryLimit]
  by_cases hp : p ≤ 0
  · rw [if_pos hp]
    intro s
    simp [contract, Taro.syscall, Taro.taroRemoveMemoryLimit, hp]
  · rw [if_neg hp, bind_bind, acquire_bind, bind_bind]
    refine before_search fun m as hh hw => ?_
    simp only [Taro.syscall, Taro.taroRemoveMemoryLimit, if_neg hp, lookup_kernel hh] at hw ⊢
    cases hl : lookup m.heap.nodePid p as with
    | none =>
      simp only [hl, Option.map_none] at hw ⊢
      exact leads_unlock hh rfl hw rfl
    | some a =>
      obtain ⟨as₁, as₂, rfl, hfirst⟩ := exists_split_of_lookup hl
      have hpid : m.heap.nodePid a = p := key_of_lookup hl
      have hlinks : m.heap.HasLinks (.node a) := Or.inr ((hh.mem_nodes a).mpr (by simp))
      have hpid' : (m.heap.nodeEntry a).pid = p := hpid
      simp only [hl, Option.map_some, hpid'] at hw ⊢
      rw [bind_bind]
      refine leads_touches (heapOnly_listDel _)
        ((alone_listDel (.node a)).symm ▸ listDel_touches m.heap (.node a)) ?_ ?_
      · exact fun hc => absurd ⟨hlinks, hh.hasLinks_next hlinks, hh.hasLinks_prev hlinks⟩ hc
      -- what `kfree` leaves in a node that is unlinked is of no account
      · apply leads_kfreeNode
        refine leads_unlock (h := m.heap.unlink a _) (hh.unlink _) ?_ hw rfl
        rw [hh.entries_unlink hfirst hpid]
        rfl

lemma update_before (p : PidT) (L : SizeT) (o : Outcomes Signal) (allocator : Allocator)
    (hcalm) : (contract refs).Before ⟨⟨⟨.update p L, o⟩, allocator⟩, hcalm⟩
      (syscall ⟨⟨.update p L, o⟩, allocator⟩) := by
  simp only [syscall, taroUpdateMemoryLimit]
  cases hb : beforeMutex p L o with
  | error code =>
    intro s
    simp [contract, Taro.syscall, Taro.taroUpdateMemoryLimit, hb]
  | ok task =>
    dsimp only
    rw [bind_bind, acquire_bind, bind_bind]
    refine before_search fun m as hh hw => ?_
    simp only [Taro.syscall, Taro.taroUpdateMemoryLimit, hb, updateLocked, lookup_kernel hh] at hw ⊢
    cases hl : lookup m.heap.nodePid p as with
    | none =>
      simp only [hl, Option.map_none] at hw ⊢
      exact leads_unlock hh rfl hw rfl
    | some a =>
      simp only [hl, Option.map_some] at hw ⊢
      obtain ⟨as₁, as₂, rfl, hfirst⟩ := exists_split_of_lookup hl
      have hpid : m.heap.nodePid a = p := key_of_lookup hl
      have hnode : m.heap.IsNode (.node a) := (hh.mem_nodes a).mpr (by simp)
      have hstore : Touches (alone (.atomic (writeMemoryLimit (.node a) L) : Prog Signal Unit))
          m.heap () (m.heap.store a L) (m.heap.IsNode (.node a)) := by
        rw [alone_atomic]
        exact writeMemoryLimit_touches m.heap (.node a) L
      have hentries : (m.heap.store a L).entries = storeLimit p L m.kernel.memoryLimitList :=
        hh.entries_store hfirst hpid
      by_cases hx : exceedsLimit task L = true
      · -- `-100`, and nothing was written
        simp only [if_pos hx] at hw ⊢
        exact leads_unlock hh rfl hw rfl
      · -- the entry is overwritten before the LSM is asked, so both answers find it changed
        simp only [if_neg hx] at hw ⊢
        rw [bind_bind]
        refine leads_touches (heapOnly_atomic (local_writeMemoryLimit _ L)) hstore
          (fun hc => absurd hnode hc) ?_
        by_cases hlsm : o.securityTaskSetrlimit ≠ 0
        · simp only [if_pos hlsm] at hw ⊢
          apply leads_getTask
          apply leads_putTask
          refine leads_unlock (hh.store L) ?_ hw rfl
          rw [hentries]
          rfl
        · simp only [if_neg hlsm] at hw ⊢
          apply leads_getTask
          apply leads_setRlimit
          apply leads_putTask
          refine leads_unlock (hh.store L) ?_ hw rfl
          rw [hentries]
          rfl

lemma add_before (p : PidT) (L : SizeT) (o : Outcomes Signal) (allocator : Allocator) (hcalm) :
    (contract refs).Before ⟨⟨⟨.add p L, o⟩, allocator⟩, hcalm⟩
      (syscall ⟨⟨.add p L, o⟩, allocator⟩) := by
  simp only [syscall, taroAddMemoryLimit]
  cases hb : beforeMutex p L o with
  | error code =>
    -- an error before the mutex is taken
    intro s
    simp [contract, Taro.syscall, Taro.taroAddMemoryLimit, hb]
  | ok task =>
    dsimp only
    rw [bind_bind, acquire_bind, bind_bind]
    refine before_search fun m as hh hw => ?_
    simp only [Taro.syscall, Taro.taroAddMemoryLimit, hb, addLocked, lookup_kernel hh] at hw ⊢
    cases hl : lookup m.heap.nodePid p as with
    | some a =>
      -- the pid is registered already
      simp only [hl, Option.map_some] at hw ⊢
      exact leads_unlock hh rfl hw rfl
    | none =>
      simp only [hl, Option.map_none] at hw ⊢
      rw [bind_bind, atomic_bind]
      cases hk : o.kmalloc with
      | false =>
        -- no memory for a node
        simp only [hk, if_true] at hw ⊢
        apply leads_act
        rintro m' hheap hlim hrefs
        refine ⟨none, m', rfl, rfl, ?_⟩
        rw [hheap, hlim, hrefs]
        exact leads_unlock hh rfl hw rfl
      | true =>
        -- the node is filled and linked, and the LSM is asked after that
        simp only [hk, Bool.true_eq_false, if_false] at hw ⊢
        apply leads_kmallocNode
        intro a ha
        have hentries : (m.heap.link a p L).entries = m.kernel.memoryLimitList ++ [⟨p, L⟩] :=
          hh.entries_link ha p L
        dsimp only
        rw [bind_bind]
        refine leads_touches (heapOnly_linkEntry (.node a) p L)
          ((alone_linkEntry (.node a) p L).symm ▸ linkEntry_touches hh a p L)
          (fun hc => absurd trivial hc) ?_
        by_cases hlsm : o.securityTaskSetrlimit ≠ 0
        · -- refused: the node is freed and then unlinked, by the links it still has
          simp only [if_pos hlsm] at hw ⊢
          have hfirst : p ∉ as.map (m.heap.link a p L).nodePid := by
            rw [hh.map_nodePid_link ha, ← lookup_eq_none_iff]
            exact hl
          have hpid : (m.heap.link a p L).nodePid a = p := nodePid_link_self ..
          have hlinks := hcalm ⟨⟨p, L, rfl⟩, hlsm⟩ (m.heap.link a p L) a
          simp only [bind_bind, atomic_bind, act_bind]
          apply leads_getTask
          apply leads_kfreeNode
          refine leads_touches (heapOnly_listDel (.node a))
            ((alone_listDel (.node a)).symm ▸ listDel_freed_touches (m.heap.link a p L) a _)
            (fun _ => ⟨⟨p, L, rfl⟩, hlsm⟩) ?_
          rw [Heap.free_del hlinks.1 hlinks.2]
          apply leads_putTask
          refine leads_unlock ((hh.link ha p L).unlink _) ?_ hw rfl
          rw [(hh.link ha p L).entries_unlink hfirst hpid, hentries]
          rfl
        · -- granted: the limit is set
          simp only [if_neg hlsm] at hw ⊢
          apply leads_getTask
          apply leads_setRlimit
          apply leads_putTask
          refine leads_unlock (hh.link ha p L) ?_ hw rfl
          rw [hentries]
          rfl

/-- The end of a get: the buffer is freed, and the node at the cursor, which may be gone by then,
is read once more. -/
lemma after_get (hi : IsGet i.toHeapCall) (filled : Filled) (kBuffer : Addr) (o : Outcomes Signal) :
    (contract refs).After i
      (if copyToUser (toSizeT filled.count * recordSize) o.copyBuffer ≠ 0 then
        ⟨-EFAULT, .nothing⟩
      else if copyToUser 4 o.copyCount ≠ 0 then ⟨-EFAULT, ⟨some filled.kBuffer, none⟩⟩
      else ⟨0, ⟨some filled.kBuffer, some filled.count⟩⟩)
      (if copyToUser (toSizeT filled.count * recordSize) o.copyBuffer ≠ 0 then do
        .atomic (kfreeBuffer kBuffer)
        pure ⟨-EFAULT, .nothing⟩
      else if copyToUser 4 o.copyCount ≠ 0 then do
        .atomic (kfreeBuffer kBuffer)
        pure ⟨-EFAULT, ⟨some filled.kBuffer, none⟩⟩
      else do
        .atomic (kfreeBuffer kBuffer)
        let _ ← .atomic (readPid filled.temp)
        let _ ← .atomic (readMemoryLimit filled.temp)
        pure ⟨0, ⟨some filled.kBuffer, some filled.count⟩⟩) := by
  have hfree : ∀ (m : Memory Signal) (r : Ret) (k : Prog Signal Ret),
      (contract refs).After i r k →
      ∃ b m', (kfreeBuffer kBuffer : Exec Signal Unit) m = some (b, m') ∧
        (contract refs).Outside i m m' ∧ (contract refs).After i r k := by
    intro m r k hk
    exact ⟨(), _, rfl, ⟨⟨rfl, rfl, rfl⟩, [], (List.append_nil _).symm, by simp⟩, hk⟩
  split_ifs
  · exact fun m => hfree m _ _ rfl
  · exact fun m => hfree m _ _ rfl
  · refine fun m => hfree m _ _ fun m₁ => ?_
    refine ⟨_, _, rfl, ⟨⟨rfl, rfl, rfl⟩, _, rfl, fun _ => hi⟩, fun m₂ => ?_⟩
    exact ⟨_, _, rfl, ⟨⟨rfl, rfl, rfl⟩, _, rfl, fun _ => hi⟩, rfl⟩

lemma get_before (u : UInt64) (n : SizeT) (c : UInt64) (o : Outcomes Signal)
    (allocator : Allocator) (hcalm) :
    (contract refs).Before ⟨⟨⟨.get u n c, o⟩, allocator⟩, hcalm⟩
      (syscall ⟨⟨.get u n c, o⟩, allocator⟩) := by
  simp only [syscall, taroGetMemoryLimits]
  by_cases hargs : u = 0 ∨ c = 0 ∨ n ≤ 0
  · rw [if_pos hargs]
    intro s
    simp only [contract, Taro.syscall, Taro.taroGetMemoryLimits, if_pos hargs]
  · simp only [if_neg hargs, atomic_bind, acquire_bind, release_bind]
    cases hk : o.kmalloc with
    | false =>
      refine fun m => ⟨none, m, rfl, ⟨⟨rfl, rfl, rfl⟩, [], (List.append_nil _).symm, by simp⟩, ?_⟩
      intro s
      simp only [contract, Taro.syscall, Taro.taroGetMemoryLimits, if_neg hargs, if_pos hk]
    | true =>
      refine fun m => ⟨_, _, rfl, ⟨⟨rfl, rfl, rfl⟩, [], (List.append_nil _).symm, by simp⟩, ?_⟩
      rintro m' _ ⟨⟨as, hh⟩, rfl, hw, hrefs⟩
      obtain ⟨temp, hfill, _⟩ := fill_touches hh n
      refine (?_ : Leads refs _ _ _ _ m'.heap m'.rlimitAs refs) m' rfl rfl hrefs
      refine leads_touches (heapOnly_fill n) ((alone_fill n).symm ▸ hfill)
        (fun hc => absurd trivial hc) ?_
      refine leads_unlock hh rfl hw ?_
      show (contract refs).After _ (Taro.taroGetMemoryLimits m'.heap.entries u n c o) _
      simp only [Taro.taroGetMemoryLimits, if_neg hargs, hk, Bool.true_eq_false, if_false]
      exact after_get ⟨u, n, c, rfl⟩ ⟨temp, _, _⟩ (allocator.choose (m.heap.nodes ∪ m.buffers)) o

/-- Every call keeps the contract. -/
theorem syscall_before (i : CalmCall Signal) : (contract refs).Before i (calmSyscall i) := by
  obtain ⟨⟨⟨c, o⟩, allocator⟩, hcalm⟩ := i
  cases c with
  | add p L => exact add_before p L o allocator hcalm
  | get u n c => exact get_before u n c o allocator hcalm
  | update p L => exact update_before p L o allocator hcalm
  | remove p => exact remove_before p o allocator hcalm

end Calls

/-! ### All interleavings -/

section Runs

omit [DecidableEq Signal] in
lemma intact_boot (bytes : Heap) (rlimitAs : Signal → Rlimit) (refs : Addr → ℕ) :
    Intact refs (Pointer.boot bytes rlimitAs refs) (Taro.boot rlimitAs) :=
  have hvalid := valid_boot bytes rlimitAs refs
  ⟨hvalid.sound.holds, rfl, hvalid.wellFormed, rfl⟩

variable {bytes : Heap} {rlimitAs : Signal → Rlimit} {refs : Addr → ℕ}
  {w : World (Memory Signal) (CalmCall Signal) Ret}

/-- However the accesses of the callers interleave, the calls that have returned, together with some
of those under way, are linearizable with respect to the registry; and whenever the mutex is free,
the list in memory is intact and stands for the registry they lead to, with all references to tasks
given back. -/
theorem syscalls_linearizable
    (h : Reachable (World.next calmSyscall) (.boot (Pointer.boot bytes rlimitAs refs)) w) :
    ∃ (pend : List (ℕ × Completed (CalmCall Signal) Ret)) (s : Kernel Signal),
      (pend.map Prod.fst).Nodup ∧
      (∀ p ∈ pend, ∃ c, w.running p.1 = some c ∧ p.2.input = c.input ∧ p.2.start = c.start) ∧
      Linearizable (fun s (i : CalmCall Signal) => Taro.syscall s i.toInvocation) id id
        (Taro.boot rlimitAs) (w.completed ++ pend.map Prod.snd) s ∧
      (w.owner = none → Intact refs w.shared s) :=
  (contract refs).linearizable syscall_before (intact_boot bytes rlimitAs refs) h

/-- The add of a live process that the LSM grants. -/
def calmAdd (p : PidT) : CalmCall Unit := ⟨grantedAdd p, fun h => absurd rfl h.2⟩

/-- The get with room for one entry. -/
def calmGet : CalmCall Unit := ⟨getOne, fun h => absurd rfl h.2⟩

/-- The accesses of an add and of a get, by turns. -/
def byTurns (n : ℕ) : World (Memory Unit) (CalmCall Unit) Ret :=
  final (World.next calmSyscall) (.boot (Pointer.boot blank (fun _ => ⟨0, 0⟩) fun _ => 1))
    ([.call 0 (calmAdd 7), .call 1 calmGet] ++ (List.replicate n [.run 0, .run 1]).flatten)

/-- The add has the mutex and is halfway through, the get waits for it. -/
theorem byTurns_linearizable :
    (byTurns 4).owner = some 0 ∧ (byTurns 4).running 1 ≠ none ∧
      ∃ (pend : List (ℕ × Completed (CalmCall Unit) Ret)) (s : Kernel Unit),
        (pend.map Prod.fst).Nodup ∧
        (∀ p ∈ pend, ∃ c, (byTurns 4).running p.1 = some c ∧ p.2.input = c.input ∧
          p.2.start = c.start) ∧
        Linearizable (fun s (i : CalmCall Unit) => Taro.syscall s i.toInvocation) id id
          (Taro.boot fun _ => ⟨0, 0⟩) ((byTurns 4).completed ++ pend.map Prod.snd) s ∧
        ((byTurns 4).owner = none → Intact (fun _ => 1) (byTurns 4).shared s) :=
  ⟨by decide, by decide, syscalls_linearizable ⟨_, rfl⟩⟩

/-- Whatever point the callers have come to, they can be scheduled in such a way that all calls
under way return; the mutex is free then and the list intact. -/
theorem syscalls_complete
    (h : Reachable (World.next calmSyscall) (.boot (Pointer.boot bytes rlimitAs refs)) w) :
    ∃ (ths : List ℕ) (s : Kernel Signal),
      let w' := final (World.next calmSyscall) w (ths.map .run)
      w'.owner = none ∧ (∀ th, w'.running th = none) ∧ Intact refs w'.shared s ∧
        Linearizable (fun s (i : CalmCall Signal) => Taro.syscall s i.toInvocation) id id
          (Taro.boot rlimitAs) w'.completed s := by
  have h₀ := intact_boot bytes rlimitAs refs
  obtain ⟨ths, howner, hidle⟩ := (contract refs).completes syscall_before h₀ h
  obtain ⟨pend, s, _, hpend, hlin, hrep⟩ :=
    (contract refs).linearizable syscall_before h₀ (h.trans ⟨ths.map .run, rfl⟩)
  -- with nobody in the middle of a call, none is pending
  have hnil : pend = [] := by
    refine List.eq_nil_iff_forall_not_mem.mpr fun p hp => ?_
    obtain ⟨c, hc, _⟩ := hpend p hp
    rw [hidle] at hc
    cases hc
  rw [hnil, List.map_nil, List.append_nil] at hlin
  exact ⟨ths, s, howner, hidle, hrep howner, hlin⟩

theorem byTurns_complete :
    (byTurns 4).owner = some 0 ∧ ∃ (ths : List ℕ) (s : Kernel Unit),
      let w' := final (World.next calmSyscall) (byTurns 4) (ths.map .run)
      w'.owner = none ∧ (∀ th, w'.running th = none) ∧ Intact (fun _ => 1) w'.shared s ∧
        Linearizable (fun s (i : CalmCall Unit) => Taro.syscall s i.toInvocation) id id
          (Taro.boot fun _ => ⟨0, 0⟩) w'.completed s :=
  ⟨by decide, syscalls_complete ⟨_, rfl⟩⟩

/-- Whatever a caller does next, a field that is not there is accessed only by an add that the LSM
refuses, while it holds the mutex, or by a get that no longer does; and a caller without the mutex
changes neither the list nor the limits nor the reference counts. -/
theorem accesses_of_step
    (h : Reachable (World.next calmSyscall) (.boot (Pointer.boot bytes rlimitAs refs)) w) {th : ℕ}
    {c : Running (Memory Signal) (CalmCall Signal) Ret} (hc : w.running th = some c) :
    let m' := (w.next calmSyscall (.run th)).2.shared
    (w.owner ≠ some th → Spares w.shared m') ∧
      ∃ seen, m'.accesses = w.shared.accesses ++ seen ∧
        (none ∈ seen → (w.owner = some th ∧ LsmRefuses c.input.toHeapCall) ∨
          (w.owner ≠ some th ∧ IsGet c.input.toHeapCall)) := by
  have hallowed := (contract refs).allowed syscall_before (intact_boot bytes rlimitAs refs) h hc
  rcases hallowed with hsame | ⟨ho, seen, hseen, hbad⟩ | ⟨ho, hspares, seen, hseen, hbad⟩
  · dsimp only
    rw [hsame]
    exact ⟨fun _ => ⟨rfl, rfl, rfl⟩, [], (List.append_nil _).symm, by simp⟩
  · exact ⟨fun ho' => absurd ho ho', seen, hseen, fun hmem => Or.inl ⟨ho, hbad hmem⟩⟩
  · exact ⟨fun _ => hspares, seen, hseen, fun hmem => Or.inr ⟨ho, hbad hmem⟩⟩

/-- The next step of the add is an access to its node, which is there. -/
theorem byTurns_accesses :
    ∃ c, (byTurns 4).running 0 = some c ∧
      let m' := ((byTurns 4).next calmSyscall (.run 0)).2.shared
      ((byTurns 4).owner ≠ some 0 → Spares (byTurns 4).shared m') ∧
        ∃ seen, m'.accesses = (byTurns 4).shared.accesses ++ seen ∧
          (none ∈ seen → ((byTurns 4).owner = some 0 ∧ LsmRefuses c.input.toHeapCall) ∨
            ((byTurns 4).owner ≠ some 0 ∧ IsGet c.input.toHeapCall)) :=
  ⟨_, rfl, accesses_of_step ⟨_, rfl⟩ rfl⟩

end Runs

end Taro.Pointer.Threads
