import Mathlib.Data.Finset.Lattice.Fold
import Mathlib.Order.Lattice.Nat
import TaroKernel.Pointer.Refinement

/-!
# What a call leaves behind, and what it touches

Every exit of the four syscalls releases by hand what was taken on the way to it. The mutex, the
reference to the task and the buffer are balanced on every path. So are the nodes, except on one:
the `-EPERM` exit of `taro_add_memory_limit` unlinks its node after it has freed it, and joins
whatever the links in it have become.

Nor do all exits touch only what is there. That one reads the links of a freed node, and
`taro_get_memory_limits` reads its cursor after the loop, which is no node when the loop has run
to the end.
-/

namespace Taro.Pointer

open ListHead Machine

variable {Signal : Type} [DecidableEq Signal]

/-! ### Balance -/

/-- The node is met when `memory_limit_list` is followed from its head. -/
def Linked (h : Heap) (a : Addr) : Prop := ∃ k, h.next^[k] .head = .node a

/-- What a call that started on `m` and left `m'` has to leave in order. -/
structure Balanced (m m' : Memory Signal) : Prop where
  mutex_free : m'.mutex = false
  lockings : StrictAlternation m'.lockings
  refs : ∀ task, m'.refs task = m.refs task
  buffers : m'.buffers = m.buffers
  freed : FreedOnce m'.bufferEvents
  nodes : ∀ a, a ∈ m'.heap.nodes ↔ Linked m'.heap a

omit [DecidableEq Signal] in
lemma Heap.Holds.mem_nodes_iff_linked {h : Heap} {as : List Addr} (hh : h.Holds as) (a : Addr) :
    a ∈ h.nodes ↔ Linked h a := by
  rw [Linked, ← hh.ring.mem_iff_iterate, hh.mem_nodes]
  simp

omit [DecidableEq Signal] in
lemma Settles.balanced {m m' : Memory Signal} (h : Settles m m') : Balanced m m' := by
  obtain ⟨as, hh⟩ := h.sound.holds
  exact ⟨h.sound.mutex, h.lockings, congrFun h.refs, h.buffers, h.freed, hh.mem_nodes_iff_linked⟩

/-- Whatever calls are made and whatever the rest of the kernel answers, every call returns, and
with the mutex, the reference counts, the buffers and the nodes in balance, as long as no add is
refused with its node linked, or `kfree` leaves the links of that node. -/
theorem calls_balanced (bytes : Heap) (rlimitAs : Signal → Rlimit) (refs : Addr → ℕ)
    (is : List (HeapCall Signal))
    (hok : ∀ st ∈ steps next (boot bytes rlimitAs refs) is, Harmless st.pre.kernel st.input) :
    ∀ st ∈ steps next (boot bytes rlimitAs refs) is,
      st.output.isSome ∧ Balanced st.pre st.post := by
  intro st hst
  obtain ⟨hvalid, hstep⟩ := valid_pre hok hst
  obtain ⟨hret, _, hsettles, _⟩ := next_refines hvalid (hok st hst)
  rw [hstep]
  refine ⟨?_, hsettles.balanced⟩
  rw [stepAt_output, hret]
  rfl

/-- An allocator that takes the address after all others. Its free nodes form a list, and the
pointer to the next of them is kept half way into each, which is where `list.next` was. -/
def nextFree : Allocator where
  choose used := used.sup id + 1
  choose_not_mem _ h := absurd (Finset.le_sup (f := id) h) (Nat.not_succ_le_self _)
  freed h a := ⟨h.pid (.node a), h.memoryLimit (.node a), .node (a + 1), h.prev (.node a)⟩

/-- The same, except that it leaves the nodes that are freed as they are. -/
def leavesFreed : Allocator :=
  { nextFree with
    freed h a :=
      ⟨h.pid (.node a), h.memoryLimit (.node a), h.next (.node a), h.prev (.node a)⟩ }

/-- A memory with nothing in it but zeros. -/
def blank : Heap where
  next l := l
  prev l := l
  pid _ := 0
  memoryLimit _ := 0
  nodes := ∅

/-- An add of a live process that succeeds. -/
def grantedAdd (p : PidT) : HeapCall Unit :=
  ⟨⟨.add p 4096, ⟨⟨true, true, 0, 0, 0⟩, some ⟨⟨1, ()⟩, none⟩⟩⟩, nextFree⟩

/-- An add of the live process 7 that the LSM refuses. -/
def refusedAdd (allocator : Allocator) : HeapCall Unit :=
  ⟨⟨.add 7 4096, ⟨⟨true, true, 1, 0, 0⟩, some ⟨⟨1, ()⟩, none⟩⟩⟩, allocator⟩

/-- A remove by a capable caller. -/
def grantedRemove (p : PidT) : HeapCall Unit :=
  ⟨⟨.remove p, ⟨⟨true, true, 0, 0, 0⟩, none⟩⟩, nextFree⟩

/-- Two adds, of which one is refused and finds its links again, and a remove. -/
def addAndRemove : List (HeapCall Unit) :=
  [grantedAdd 8, refusedAdd leavesFreed, grantedRemove 8]

/-- After the remove, nothing is left over. -/
theorem add_and_remove_balanced :
    ∃ st ∈ steps next (boot blank (fun _ => ⟨0, 0⟩) fun _ => 1) addAndRemove,
      st.output = some ⟨0, .nothing⟩ ∧ st.pre.heap.nodes = {1} ∧ st.post.heap.nodes = ∅ ∧
        Balanced st.pre st.post := by
  let m := final next (boot blank (fun _ => ⟨0, 0⟩) fun _ => 1)
    [grantedAdd 8, refusedAdd leavesFreed]
  have hst : stepAt next m (grantedRemove 8) ∈
      steps next (boot blank (fun _ => ⟨0, 0⟩) fun _ => 1) addAndRemove :=
    List.mem_cons_of_mem _ (List.mem_cons_of_mem _ List.mem_cons_self)
  refine ⟨_, hst, by decide, by decide, by decide, (calls_balanced _ _ _ _ ?_ _ hst).2⟩
  simp only [addAndRemove, steps_cons, steps_nil, List.forall_mem_cons, List.not_mem_nil,
    false_imp_iff, implies_true, and_true]
  exact ⟨harmless_of_granted rfl, harmless_of_keepsLinks fun _ _ => ⟨rfl, rfl⟩,
    harmless_of_granted rfl⟩

/-- If the memory of a freed node is used for something else, a refused add takes its links from
there: after the first call, the list goes on from its head to a node that was never allocated. -/
theorem refused_add_unbalanced :
    ¬ ∀ (bytes : Heap) (rlimitAs : Unit → Rlimit) (refs : Addr → ℕ) (is : List (HeapCall Unit)),
      ∀ st ∈ steps next (boot bytes rlimitAs refs) is,
        st.output.isSome ∧ Balanced st.pre st.post := by
  intro h
  let m := boot blank (fun _ : Unit => ⟨0, 0⟩) fun _ => 1
  have hbalanced : Balanced m (next m (refusedAdd nextFree)).2 :=
    (h blank (fun _ => ⟨0, 0⟩) (fun _ => 1) [refusedAdd nextFree] _ List.mem_cons_self).2
  have hlinked : Linked (next m (refusedAdd nextFree)).2.heap 2 := ⟨1, by decide⟩
  exact absurd ((hbalanced.nodes 2).mpr hlinked) (by decide)

/-! ### Accesses -/

/-- After every run that has not harmed the list, a call accesses only fields that are there, except
for an add that the LSM refuses and a get that runs to the end of the list. -/
theorem accesses_ok_iff (bytes : Heap) (rlimitAs : Signal → Rlimit) (refs : Addr → ℕ)
    (is : List (HeapCall Signal))
    (hok : ∀ st ∈ steps next (boot bytes rlimitAs refs) is, Harmless st.pre.kernel st.input)
    (i : HeapCall Signal) :
    none ∉ (next (final next (boot bytes rlimitAs refs) is) i).2.accesses ↔
      ¬ BadAccess (final next (boot bytes rlimitAs refs) is).kernel i.toInvocation :=
  next_accesses (valid_final hok) i

/-- A get with room for one entry. -/
def getOne : HeapCall Unit :=
  ⟨⟨.get 1 1 1, ⟨⟨true, true, 0, 0, 0⟩, none⟩⟩, nextFree⟩

/-- With two entries, a get with room for one leaves its loop at the second. -/
theorem get_stops_at_node :
    (next (final next (boot blank (fun _ => ⟨0, 0⟩) fun _ => 1) [grantedAdd 7, grantedAdd 8])
        getOne).1 = some ⟨0, ⟨some [⟨7, 4096⟩], some 1⟩⟩ ∧
      none ∉ (next (final next (boot blank (fun _ => ⟨0, 0⟩) fun _ => 1)
        [grantedAdd 7, grantedAdd 8]) getOne).2.accesses := by
  refine ⟨by decide, (accesses_ok_iff blank _ _ _ ?_ getOne).mpr ?_⟩
  · simp only [steps_cons, steps_nil, List.forall_mem_cons, List.not_mem_nil, false_imp_iff,
      implies_true, and_true]
    exact ⟨harmless_of_granted rfl, harmless_of_granted rfl⟩
  · intro hbad
    have hread : ReadsHead _ 1 1 1 getOne.outcomes := hbad
    exact absurd hread.2.2.2.2.1 (by decide)

/-- A refused add frees its node and then reads the links in it. -/
theorem refused_add_reads_freed_node :
    ¬ ∀ (bytes : Heap) (rlimitAs : Unit → Rlimit) (refs : Addr → ℕ) (m : Memory Unit),
      Reachable next (boot bytes rlimitAs refs) m → ∀ i, none ∉ (next m i).2.accesses := by
  intro h
  exact h blank (fun _ => ⟨0, 0⟩) (fun _ => 1) _ (.refl _) (refusedAdd leavesFreed) (by decide)

-- with an empty list, a get reads the structure around the head as if it were a node
example : none ∈ (next (boot blank (fun _ => ⟨0, 0⟩) fun _ => 1) getOne).2.accesses := by decide

end Taro.Pointer
