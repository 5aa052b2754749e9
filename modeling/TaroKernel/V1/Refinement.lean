import TaroKernel.Lib.Chain
import TaroKernel.V1.Memory

/-!
# The hand-written list refines the registry of the first version

`Memory.Holds m as` says that the chain from `memory_limit_head` goes through the nodes at `as`,
ends with `NULL`, and meets every node that is allocated. Every call keeps it, returns what it
returns on the sequence of entries, and changes the entries along the chain as it changes that
sequence.
-/

namespace Taro.V1.Pointer

open Keyed Machine NullTerminated
open Taro.Pointer (Allocator HeapCall)

/-! ### What a memory stands for -/

/-- A node as an entry of the registry. -/
def Node.entry (n : Node) : MemoryLimitation := ⟨n.pid, n.memoryLimit⟩

def Memory.nextOf (m : Memory) : Addr → Option Addr := Node.next ∘ m.node

def Memory.pidOf (m : Memory) : Addr → PidT := Node.pid ∘ m.node

def Memory.entryOf (m : Memory) : Addr → MemoryLimitation := Node.entry ∘ m.node

/-- The entries met along the chain from `memory_limit_head`. -/
def Memory.entries (m : Memory) : List MemoryLimitation :=
  (walk m.nextOf m.nodes.card m.memoryLimitHead).map m.entryOf

/-- The allocated nodes are those of the chain, in the order of `as`. -/
def Memory.Holds (m : Memory) (as : List Addr) : Prop :=
  Owns m.nextOf m.memoryLimitHead m.nodes as

variable {m : Memory} {as as₁ as₂ : List Addr} {a : Addr} {q : Option Addr} {p : PidT} {L : SizeT}

lemma Memory.Holds.entries_eq (h : m.Holds as) : m.entries = as.map m.entryOf := by
  rw [Memory.entries, h.chain.walk_eq h.card_live.ge]

lemma Memory.Holds.lookup_entries (h : m.Holds as) (p : PidT) :
    lookup MemoryLimitation.pid p m.entries = (lookup m.pidOf p as).map m.entryOf := by
  rw [h.entries_eq]
  exact List.find?_map ..

lemma map_pid_entryOf (m : Memory) (as : List Addr) :
    (as.map m.entryOf).map MemoryLimitation.pid = as.map m.pidOf := by
  rw [List.map_map]
  rfl

/-! ### Writing, linking and unlinking -/

/-- Something else is stored in a node. -/
def Memory.store (m : Memory) (a : Addr) (n : Node) : Memory :=
  { m with node := Function.update m.node a n }

@[simp] lemma Memory.nextOf_store (m : Memory) (a : Addr) (n : Node) :
    (m.store a n).nextOf = Function.update m.nextOf a n.next := Function.comp_update ..

@[simp] lemma Memory.entryOf_store (m : Memory) (a : Addr) (n : Node) :
    (m.store a n).entryOf = Function.update m.entryOf a n.entry := Function.comp_update ..

/-- The memory after a new node was allocated, filled and linked. -/
def Memory.link (m : Memory) (a : Addr) (p : PidT) (L : SizeT) : Memory :=
  { m.store a ⟨p, L, m.memoryLimitHead⟩ with
    memoryLimitHead := some a
    nodes := insert a m.nodes }

/-- The memory after the node that `q` is before was unlinked and freed. -/
def Memory.unlink (m : Memory) (q : Option Addr) (a : Addr) : Memory :=
  match q with
  | none   => { m with memoryLimitHead := m.nextOf a, nodes := m.nodes.erase a }
  | some b => { m.store b { m.node b with next := m.nextOf a } with nodes := m.nodes.erase a }

lemma map_update_of_not_mem {β : Type*} {f : Addr → β} {v : β} (ha : a ∉ as) :
    as.map (Function.update f a v) = as.map f := by
  apply List.map_congr_left
  intro b hb
  exact Function.update_of_ne (ne_of_mem_of_not_mem hb ha) _ _

lemma Memory.Holds.link (h : m.Holds as) (ha : a ∉ m.nodes) (p : PidT) (L : SizeT) :
    (m.link a p L).Holds (a :: as) := by
  have howns := Owns.cons h ha
  rwa [← m.nextOf_store a ⟨p, L, m.memoryLimitHead⟩] at howns

lemma Memory.Holds.entries_link (h : m.Holds as) (ha : a ∉ m.nodes) (p : PidT) (L : SizeT) :
    (m.link a p L).entries = ⟨p, L⟩ :: m.entries := by
  have hentry : (m.link a p L).entryOf = Function.update m.entryOf a ⟨p, L⟩ := m.entryOf_store ..
  have has : a ∉ as := fun hmem => ha ((h.mem_live a).mpr hmem)
  rw [(h.link ha p L).entries_eq, h.entries_eq, hentry, List.map_cons, Function.update_self,
    map_update_of_not_mem has]

/-- A limit stored in a node leaves the chain as it is. -/
lemma Memory.Holds.store (h : m.Holds as) (a : Addr) (L : SizeT) :
    (m.store a { m.node a with memoryLimit := L }).Holds as := by
  have hnext : (m.store a { m.node a with memoryLimit := L }).nextOf = m.nextOf := by
    rw [m.nextOf_store]
    exact Function.update_eq_self a m.nextOf
  rw [Memory.Holds, hnext]
  exact h

lemma Memory.Holds.entries_store (h : m.Holds (as₁ ++ a :: as₂)) (hp : m.pidOf a = p)
    (hfirst : p ∉ as₁.map m.pidOf) (L : SizeT) :
    (m.store a { m.node a with memoryLimit := L }).entries = storeLimit p L m.entries := by
  have hnd : (a :: (as₁ ++ as₂)).Nodup := List.nodup_middle.mp h.chain.nodup
  have ha := (List.nodup_cons.mp hnd).1
  rw [List.mem_append, not_or] at ha
  have hp : (m.entryOf a).pid = p := hp
  rw [(h.store a L).entries_eq, h.entries_eq, m.entryOf_store]
  simp only [List.map_append, List.map_cons, Function.update_self, map_update_of_not_mem ha.1,
    map_update_of_not_mem ha.2]
  rw [storeLimit, modify_append_cons (by rwa [map_pid_entryOf]) hp]
  rfl

lemma Memory.entryOf_unlink (m : Memory) (q : Option Addr) (a : Addr) :
    (m.unlink q a).entryOf = m.entryOf := by
  cases q with
  | none => rfl
  | some b =>
    refine (m.entryOf_store b { m.node b with next := m.nextOf a }).trans ?_
    exact Function.update_eq_self b m.entryOf

/-- A node is unlinked from the node before it, or from the head if there is none. -/
lemma Memory.Holds.unlink (h : m.Holds (as₁ ++ a :: as₂)) :
    (m.unlink as₁.getLast? a).Holds (as₁ ++ as₂) := by
  rcases List.eq_nil_or_concat' as₁ with rfl | ⟨as₁, b, rfl⟩
  · exact Owns.unlink_first h
  · rw [List.append_assoc, List.singleton_append] at h ⊢
    rw [List.getLast?_concat]
    have howns := Owns.unlink_after h
    rwa [← m.nextOf_store b { m.node b with next := m.nextOf a }] at howns

lemma Memory.Holds.entries_unlink (h : m.Holds (as₁ ++ a :: as₂)) (hp : m.pidOf a = p)
    (hfirst : p ∉ as₁.map m.pidOf) :
    (m.unlink as₁.getLast? a).entries = Keyed.unlink MemoryLimitation.pid p m.entries := by
  have hp : (m.entryOf a).pid = p := hp
  rw [h.unlink.entries_eq, h.entries_eq, m.entryOf_unlink, List.map_append, List.map_append,
    List.map_cons, unlink_append_cons (by rwa [map_pid_entryOf]) hp]

/-! ### Single accesses -/

section Run

variable {α β : Type}

lemma run_bind_of {x : Exec α} {f : α → Exec β} {r : α} {m m' : Memory}
    (h : x.run m = .ok (r, m')) : (x >>= f).run m = (f r).run m' := by
  rw [StateT.run_bind, h]
  rfl

end Run

lemma readNode_run (h : a ∈ m.nodes) : (readNode a).run m = .ok (m.node a, m) := if_pos h

lemma writeNode_run (h : a ∈ m.nodes) (n : Node) : (writeNode a n).run m = .ok ((), m.store a n) :=
  if_pos h

lemma readPid_run (h : a ∈ m.nodes) : (readPid a).run m = .ok (m.pidOf a, m) :=
  run_bind_of (readNode_run h)

lemma readMemoryLimit_run (h : a ∈ m.nodes) :
    (readMemoryLimit a).run m = .ok ((m.node a).memoryLimit, m) :=
  run_bind_of (readNode_run h)

lemma readNext_run (h : a ∈ m.nodes) : (readNext a).run m = .ok (m.nextOf a, m) :=
  run_bind_of (readNode_run h)

lemma writePid_run (h : a ∈ m.nodes) (p : PidT) :
    (writePid a p).run m = .ok ((), m.store a { m.node a with pid := p }) :=
  (run_bind_of (readNode_run h)).trans (writeNode_run h _)

lemma writeMemoryLimit_run (h : a ∈ m.nodes) (L : SizeT) :
    (writeMemoryLimit a L).run m = .ok ((), m.store a { m.node a with memoryLimit := L }) :=
  (run_bind_of (readNode_run h)).trans (writeNode_run h _)

lemma writeNext_run (h : a ∈ m.nodes) (q : Option Addr) :
    (writeNext a q).run m = .ok ((), m.store a { m.node a with next := q }) :=
  (run_bind_of (readNode_run h)).trans (writeNode_run h _)

/-! ### Loops -/

/-- The loop of add and update, from a pointer into the chain on. -/
lemma searchFrom_run (hchain : Chain m.nextOf q as) (hlive : ∀ a ∈ as, a ∈ m.nodes) {fuel : ℕ}
    (hfuel : as.length ≤ fuel) (p : PidT) :
    (searchFrom p (fuel + 1) q).run m = .ok (lookup m.pidOf p as, m) := by
  induction as generalizing q fuel with
  | nil =>
    rw [chain_nil.mp hchain]
    rfl
  | cons a as ih =>
    obtain ⟨fuel, rfl⟩ := Nat.exists_eq_add_of_le' hfuel
    obtain ⟨rfl, hchain⟩ := hchain
    rw [List.forall_mem_cons] at hlive
    rw [searchFrom, run_bind_of (readPid_run hlive.1)]
    by_cases hp : m.pidOf a = p
    · subst hp
      rw [if_pos rfl, lookup_cons_self]
      rfl
    · rw [if_neg hp, lookup_cons_of_ne hp, run_bind_of (readNext_run hlive.1)]
      exact ih hchain hlive.2 (Nat.le_add_left as.length fuel)

/-- The loop of remove finds the same node and has the one before it at hand. -/
lemma searchPrevFrom_run (hchain : Chain m.nextOf q as) (hlive : ∀ a ∈ as, a ∈ m.nodes) {fuel : ℕ}
    (hfuel : as.length ≤ fuel) (p : PidT) (before : List Addr) :
    (p ∉ as.map m.pidOf ∧
      (searchPrevFrom p (fuel + 1) before.getLast? q).run m = .ok (none, m)) ∨
    ∃ as₁ a as₂, as = as₁ ++ a :: as₂ ∧ m.pidOf a = p ∧ p ∉ as₁.map m.pidOf ∧
      (searchPrevFrom p (fuel + 1) before.getLast? q).run m =
        .ok (some ((before ++ as₁).getLast?, a), m) := by
  induction as generalizing q fuel before with
  | nil =>
    rw [chain_nil.mp hchain]
    exact Or.inl ⟨List.not_mem_nil, rfl⟩
  | cons a as ih =>
    obtain ⟨fuel, rfl⟩ := Nat.exists_eq_add_of_le' hfuel
    obtain ⟨rfl, hchain⟩ := hchain
    rw [List.forall_mem_cons] at hlive
    rw [searchPrevFrom, run_bind_of (readPid_run hlive.1)]
    by_cases hp : m.pidOf a = p
    · refine Or.inr ⟨[], a, as, rfl, hp, List.not_mem_nil, ?_⟩
      rw [if_pos hp, List.append_nil]
      rfl
    · -- the node becomes the one before the next
      have hrest := ih hchain hlive.2 (Nat.le_add_left as.length fuel) (before ++ [a])
      rw [List.getLast?_concat] at hrest
      rw [if_neg hp, run_bind_of (readNext_run hlive.1)]
      rcases hrest with ⟨hnone, hrun⟩ | ⟨as₁, b, as₂, rfl, hb, hfirst, hrun⟩
      · exact Or.inl ⟨by simp [hnone, Ne.symm hp], hrun⟩
      · refine Or.inr ⟨a :: as₁, b, as₂, rfl, hb, by simp [hfirst, Ne.symm hp], ?_⟩
        refine hrun.trans ?_
        rw [List.append_assoc, List.singleton_append]

/-- The loop of get. -/
lemma fillFrom_run (hchain : Chain m.nextOf q as) (hlive : ∀ a ∈ as, a ∈ m.nodes) {fuel : ℕ}
    (hfuel : as.length ≤ fuel) (maxEntries : SizeT) (count : Int32)
    (kBuffer : List MemoryLimitation) :
    (fillFrom maxEntries (fuel + 1) q count kBuffer).run m =
      .ok (fillBuffer maxEntries (as.map m.entryOf) count kBuffer, m) := by
  induction as generalizing q fuel count kBuffer with
  | nil =>
    rw [chain_nil.mp hchain]
    rfl
  | cons a as ih =>
    obtain ⟨fuel, rfl⟩ := Nat.exists_eq_add_of_le' hfuel
    obtain ⟨rfl, hchain⟩ := hchain
    rw [List.forall_mem_cons] at hlive
    rw [fillFrom, List.map_cons, fillBuffer]
    by_cases hroom : toSizeT count < maxEntries
    · rw [if_pos hroom, if_pos hroom, run_bind_of (readPid_run hlive.1),
        run_bind_of (readMemoryLimit_run hlive.1), run_bind_of (readNext_run hlive.1)]
      exact ih hchain hlive.2 (Nat.le_add_left as.length fuel) _ _
    · rw [if_neg hroom, if_neg hroom]
      rfl

lemma Memory.Holds.live (h : m.Holds as) : ∀ a ∈ as, a ∈ m.nodes := fun a => (h.mem_live a).mpr

lemma search_run (h : m.Holds as) (p : PidT) :
    (search p).run m = .ok (lookup m.pidOf p as, m) :=
  searchFrom_run h.chain h.live h.card_live.ge p

lemma searchPrev_run (h : m.Holds as) (p : PidT) :
    (p ∉ as.map m.pidOf ∧ (searchPrev p).run m = .ok (none, m)) ∨
    ∃ as₁ a as₂, as = as₁ ++ a :: as₂ ∧ m.pidOf a = p ∧ p ∉ as₁.map m.pidOf ∧
      (searchPrev p).run m = .ok (some (as₁.getLast?, a), m) :=
  searchPrevFrom_run h.chain h.live h.card_live.ge p []

lemma fill_run (h : m.Holds as) (maxEntries : SizeT) :
    (fill maxEntries).run m = .ok (fillBuffer maxEntries m.entries 0 [], m) := by
  rw [h.entries_eq]
  exact fillFrom_run h.chain h.live h.card_live.ge maxEntries 0 []

/-! ### Linking and unlinking -/

lemma linkEntry_run (a : Addr) (p : PidT) (L : SizeT) :
    (linkEntry a p L).run { m with nodes := insert a m.nodes } = .ok ((), m.link a p L) := by
  have ha : a ∈ insert a m.nodes := Finset.mem_insert_self a m.nodes
  refine (run_bind_of (writePid_run ha p)).trans ?_
  refine (run_bind_of (writeMemoryLimit_run ha L)).trans ?_
  refine (run_bind_of (x := readHead) rfl).trans ?_
  refine (run_bind_of (writeNext_run ha _)).trans ?_
  simp [writeHead, StateT.run, Memory.link, Memory.store]

lemma unlinkNode_run (h : m.Holds (as₁ ++ a :: as₂)) :
    (unlinkNode as₁.getLast? a).run m = .ok ((), m.unlink as₁.getLast? a) := by
  have ha : a ∈ m.nodes := h.live a (by simp)
  rw [unlinkNode, run_bind_of (readNext_run ha)]
  cases hlast : as₁.getLast? with
  | none => exact if_pos ha
  | some b =>
    have hb : b ∈ m.nodes := h.live b (List.mem_append_left _ (List.mem_of_getLast? hlast))
    exact (run_bind_of (writeNext_run hb _)).trans (if_pos ha)

/-! ### Calls -/

/-- The chain is intact and nobody holds the mutex. -/
structure Sound (m : Memory) : Prop where
  holds : ∃ as, m.Holds as
  mutex : m.mutex = false

variable {α : Type}

/-- Started on `m` the code returns `r`, has freed its buffer, and leaves an intact chain with the
entries `l`. -/
def Ends (x : Exec α) (m : Memory) (r : α) (l : List MemoryLimitation) : Prop :=
  ∃ m', x.run m = .ok (r, m') ∧ Sound m' ∧ m'.buffers = m.buffers ∧ m'.entries = l

variable {x : Exec α} {r : α} {m₁ : Memory}

lemma Sound.ends_pure (hm : Sound m) (r : α) : Ends (pure r) m r m.entries :=
  ⟨m, rfl, hm, rfl, rfl⟩

/-- The memory of a call that has taken the mutex. -/
def Memory.locked (m : Memory) : Memory := { m with mutex := true }

lemma Sound.mutexLock_run (hm : Sound m) : mutexLock.run m = .ok ((), m.locked) := by
  simp [mutexLock, StateT.run, hm.mutex, Memory.locked]

/-- How a call that has the mutex ends. -/
lemma ends_of_unlock (m₁ : Memory) (h : m₁.Holds as) (hbuffers : m₁.buffers = m.buffers)
    (hrun : x.run m = (do mutexUnlock; pure r : Exec α).run m₁) : Ends x m r m₁.entries :=
  ⟨{ m₁ with mutex := false }, hrun, ⟨⟨as, h⟩, rfl⟩, hbuffers, rfl⟩

/-- A call that has the mutex and has not written anything. -/
lemma Sound.ends_of_locked (hm : Sound m)
    (hrun : x.run m = (do mutexUnlock; pure r : Exec α).run m.locked) : Ends x m r m.entries := by
  obtain ⟨as, hh⟩ := hm.holds
  exact ends_of_unlock m.locked hh rfl hrun

/-- How add and update go on once they have the mutex: with the first node that has the pid. -/
lemma Sound.search_run (hm : Sound m) (hh : m.Holds as) (p : PidT) (f : Option Addr → Exec α) :
    (do mutexLock; let temp ← search p; f temp).run m = (f (lookup m.pidOf p as)).run m.locked := by
  have hsearch : (search p).run m.locked = .ok (lookup m.pidOf p as, m.locked) :=
    Pointer.search_run (m := m.locked) hh p
  rw [run_bind_of hm.mutexLock_run, run_bind_of hsearch]

variable {Signal : Type}

/-! ### Remove -/

lemma Memory.buffers_unlink (m : Memory) (q : Option Addr) (a : Addr) :
    (m.unlink q a).buffers = m.buffers := by
  cases q with
  | none => rfl
  | some b => rfl

lemma remove_ends (hm : Sound m) (p : PidT) (o : Outcomes Signal) :
    Ends (taroRemoveMemoryLimit p o) m (V1.taroRemoveMemoryLimit m.entries p o).1
      (V1.taroRemoveMemoryLimit m.entries p o).2 := by
  obtain ⟨as, hh⟩ := hm.holds
  have hlocked : m.locked.Holds as := hh
  unfold taroRemoveMemoryLimit V1.taroRemoveMemoryLimit
  split_ifs with hp hcap
  · exact hm.ends_pure _
  · exact hm.ends_pure _
  · rcases searchPrev_run hlocked p with ⟨hnone, hsearch⟩ | ⟨as₁, a, as₂, rfl, ha, hfirst, hsearch⟩
    · have hnone : lookup m.pidOf p as = none := lookup_eq_none_iff.mpr hnone
      rw [hh.lookup_entries, hnone]
      apply hm.ends_of_locked
      rw [run_bind_of hm.mutexLock_run, run_bind_of hsearch]
      rfl
    · have hmem : p ∈ m.entries.map MemoryLimitation.pid := by
        rw [hh.entries_eq, map_pid_entryOf, ← ha]
        exact List.mem_map_of_mem (by simp)
      obtain ⟨x, hx⟩ := exists_lookup_of_mem hmem
      have hentries : (m.locked.unlink as₁.getLast? a).entries =
          Keyed.unlink MemoryLimitation.pid p m.entries := hlocked.entries_unlink ha hfirst
      rw [hx]
      dsimp only
      rw [key_of_lookup hx, ← hentries]
      refine ends_of_unlock _ hlocked.unlink (m.locked.buffers_unlink _ _) ?_
      rw [run_bind_of hm.mutexLock_run, run_bind_of hsearch]
      exact run_bind_of (unlinkNode_run hlocked)

/-! ### Update -/

lemma update_ends (hm : Sound m) (p : PidT) (L : SizeT) (o : Outcomes Signal) :
    Ends (taroUpdateMemoryLimit p L o) m (V1.taroUpdateMemoryLimit m.entries p L o).1
      (V1.taroUpdateMemoryLimit m.entries p L o).2 := by
  obtain ⟨as, hh⟩ := hm.holds
  have hlocked : m.locked.Holds as := hh
  unfold taroUpdateMemoryLimit V1.taroUpdateMemoryLimit
  -- the arguments and the capability are checked before the mutex is taken
  split_ifs with hargs hcap
  · exact hm.ends_pure _
  · exact hm.ends_pure _
  · rw [hh.lookup_entries]
    cases hl : lookup m.pidOf p as with
    | none =>
      apply hm.ends_of_locked
      rw [hm.search_run hh, hl]
      rfl
    | some a =>
      dsimp only [Option.map_some]
      -- the task is looked up under the mutex
      cases hfind : o.findTaskByVpid with
      | none =>
        apply hm.ends_of_locked
        rw [hm.search_run hh, hl]
      | some task =>
        dsimp only
        by_cases hx : exceedsLimit task L = true
        · rw [if_pos hx]
          apply hm.ends_of_locked
          rw [hm.search_run hh, hl]
          exact congrFun (if_pos hx) m.locked
        · obtain ⟨as₁, as₂, rfl, hfirst⟩ := exists_split_of_lookup hl
          have hnode : a ∈ m.locked.nodes := hlocked.live a (by simp)
          have hentries : _ = storeLimit p L m.entries :=
            hlocked.entries_store (key_of_lookup hl) hfirst L
          rw [if_neg hx]
          dsimp only
          rw [← hentries]
          refine ends_of_unlock _ (hlocked.store a L) rfl ?_
          rw [hm.search_run hh, hl]
          refine (congrFun (if_neg hx) m.locked).trans ?_
          exact run_bind_of (writeMemoryLimit_run hnode L)

/-! ### Add -/

lemma add_ends (hm : Sound m) (p : PidT) (L : SizeT) (o : Outcomes Signal)
    (allocator : Allocator) :
    Ends (taroAddMemoryLimit p L o allocator) m (V1.taroAddMemoryLimit m.entries p L o).1
      (V1.taroAddMemoryLimit m.entries p L o).2 := by
  obtain ⟨as, hh⟩ := hm.holds
  have hlocked : m.locked.Holds as := hh
  unfold taroAddMemoryLimit V1.taroAddMemoryLimit
  by_cases hargs : p < 0 ∨ L ≤ 0
  · rw [if_pos hargs, if_pos hargs]
    exact hm.ends_pure _
  · rw [if_neg hargs, if_neg hargs, hh.lookup_entries]
    cases hl : lookup m.pidOf p as with
    | some a =>
      apply hm.ends_of_locked
      rw [hm.search_run hh, hl]
      rfl
    | none =>
      dsimp only [Option.map_none]
      cases hk : o.kmalloc with
      | false =>
        apply hm.ends_of_locked
        rw [hm.search_run hh, hl]
        rfl
      | true =>
        -- the new node becomes the head of the chain
        let a := allocator.choose (m.nodes ∪ m.buffers)
        have ha : a ∉ m.locked.nodes := fun hmem =>
          allocator.choose_not_mem _ (Finset.mem_union_left _ hmem)
        have hkmalloc : (kmallocNode true allocator).run m.locked =
            .ok (some a, { m.locked with nodes := insert a m.locked.nodes }) := rfl
        have hentries : _ = ⟨p, L⟩ :: m.entries := hlocked.entries_link ha p L
        simp only [Bool.true_eq_false, reduceIte]
        rw [← hentries]
        refine ends_of_unlock _ (hlocked.link ha p L) rfl ?_
        rw [hm.search_run hh, hl]
        refine (run_bind_of hkmalloc).trans ?_
        exact run_bind_of (linkEntry_run a p L)

/-! ### Get -/

/-- A get that had a buffer and frees it. -/
lemma Sound.ends_of_kfreeBuffer (hm : Sound m) (ha : a ∉ m.buffers)
    (hrun : x.run m =
      (do kfreeBuffer a; pure r : Exec α).run { m with buffers := insert a m.buffers }) :
    Ends x m r m.entries := by
  refine ⟨_, hrun, ⟨hm.holds, hm.mutex⟩, ?_, rfl⟩
  exact Finset.erase_insert ha

/-- How get goes on once its buffer is filled. -/
lemma Sound.fill_run (hm : Sound m) (n : SizeT) (allocator : Allocator) :
    ∃ a, a ∉ m.buffers ∧
      ∀ (g : Exec α) (f : Addr → Int32 × List MemoryLimitation → Exec α),
        (do
          match ← kmallocArray true allocator with
          | none => g
          | some kBuffer =>
            mutexLock
            let filled ← fill n
            mutexUnlock
            f kBuffer filled).run m =
          (f a (fillBuffer n m.entries 0 [])).run { m with buffers := insert a m.buffers } := by
  obtain ⟨as, hh⟩ := hm.holds
  let a := allocator.choose (m.nodes ∪ m.buffers)
  let m₁ : Memory := { m with buffers := insert a m.buffers }
  have hkmalloc : (kmallocArray true allocator).run m = .ok (some a, m₁) := rfl
  have hm₁ : Sound m₁ := ⟨⟨as, hh⟩, hm.mutex⟩
  have hfill : (fill n).run m₁.locked = .ok (fillBuffer n m.entries 0 [], m₁.locked) :=
    Pointer.fill_run (m := m₁.locked) hh n
  have hunlock : mutexUnlock.run m₁.locked = .ok ((), m₁) := by
    simp [mutexUnlock, StateT.run, Memory.locked, m₁, hm.mutex]
  refine ⟨a, fun hmem => allocator.choose_not_mem _ (Finset.mem_union_right _ hmem), ?_⟩
  intro g f
  refine (run_bind_of hkmalloc).trans ((run_bind_of hm₁.mutexLock_run).trans ?_)
  exact (run_bind_of hfill).trans (run_bind_of hunlock)

lemma get_ends (hm : Sound m) (u : UInt64) (n : SizeT) (c : UInt64) (o : Outcomes Signal)
    (allocator : Allocator) :
    Ends (taroGetMemoryLimits u n c o allocator) m (V1.taroGetMemoryLimits m.entries u n c o)
      m.entries := by
  unfold taroGetMemoryLimits V1.taroGetMemoryLimits
  by_cases hargs : u = 0 ∨ c = 0 ∨ n ≤ 0
  · rw [if_pos hargs, if_pos hargs]
    exact hm.ends_pure _
  · rw [if_neg hargs, if_neg hargs]
    cases hk : o.kmalloc with
    | false => exact hm.ends_pure _
    | true =>
      obtain ⟨a, ha, hfill⟩ := hm.fill_run (α := Ret) n allocator
      apply hm.ends_of_kfreeBuffer ha
      refine (hfill _ _).trans ?_
      simp only [Bool.true_eq_false, reduceIte]
      split_ifs
      · rfl
      · rfl
      · rfl

/-! ### All calls -/

lemma Ends.ret {x : Exec Int} {code : Int} {l : List MemoryLimitation} (hx : Ends x m code l) :
    Ends (do let code ← x; pure (⟨code, .nothing⟩ : Ret)) m ⟨code, .nothing⟩ l := by
  obtain ⟨m', hrun, hrest⟩ := hx
  exact ⟨m', run_bind_of hrun, hrest⟩

theorem syscall_ends (hm : Sound m) (i : HeapCall Signal) :
    Ends (syscall i) m (V1.syscall m.entries i.toInvocation).1
      (V1.syscall m.entries i.toInvocation).2 := by
  obtain ⟨⟨c, o⟩, allocator⟩ := i
  cases c with
  | add p L => exact (add_ends hm p L o allocator).ret
  | get u n c => exact get_ends hm u n c o allocator
  | update p L => exact (update_ends hm p L o).ret
  | remove p => exact (remove_ends hm p o).ret

/-- One call on the nodes does what it does on the sequence of entries. -/
theorem next_refines (hm : Sound m) (i : HeapCall Signal) :
    (next m i).1 = .ok (V1.syscall m.entries i.toInvocation).1 ∧
      (next m i).2.entries = (V1.syscall m.entries i.toInvocation).2 ∧
      Sound (next m i).2 := by
  obtain ⟨m', hrun, hsound, _, hentries⟩ := syscall_ends hm i
  have hnext : next m i = (.ok (V1.syscall m.entries i.toInvocation).1, m') := by
    rw [next, hrun]
  rw [hnext]
  exact ⟨rfl, hentries, hsound⟩

lemma sound_boot (node : Addr → Node) : Sound (boot node) := ⟨⟨[], owns_nil _⟩, rfl⟩

end Taro.V1.Pointer
