import TaroKernel.Pointer.Resources
import TaroKernel.V1.Refinement

/-!
# The hand-written list over whole runs

`syscall_cases` says what a call of the first version can do to the sequence of entries. With the
refinement it is what the call does along the chain of nodes, whatever was called before.
-/

namespace Taro.V1

open Keyed Machine NullTerminated

/-! ### One call on the sequence -/

variable {Signal : Type*} {l l' : List MemoryLimitation}

lemma decision_cases {i : Invocation Signal} {p : PidT} (hp : i.call.target = some p)
    (registered : Bool) :
    ((decision i registered).1 ≠ 0 ∧ (decision i registered).2 = .keep) ∨
    (∃ L, i.call = .add p L ∧ registered = false ∧ decision i registered = (0, .append L)) ∨
    (∃ L, i.call = .update p L ∧ registered = true ∧ decision i registered = (0, .store L)) ∨
    (i.call = .remove p ∧ registered = true ∧ decision i registered = (0, .unlink)) := by
  obtain ⟨c, o⟩ := i
  cases c with
  | get u n c => cases hp
  | add q L =>
    cases hp
    simp only [decision]
    split_ifs <;> simp_all [EINVAL, ENOMEM]
  | update q L =>
    cases hp
    simp only [decision]
    split_ifs
    · simp [EINVAL]
    · simp [EPERM]
    · simp
    · cases o.findTaskByVpid with
      | none => simp [ESRCH]
      | some task =>
        dsimp only
        split_ifs <;> simp_all
  | remove q =>
    cases hp
    simp only [decision]
    split_ifs <;> simp_all [EINVAL, EPERM]

/-- What a call can do: nothing, or what it succeeds in. -/
lemma syscall_cases (l : List MemoryLimitation) (i : Invocation Signal) :
    (((syscall l i).1.code ≠ 0 ∨ i.call.target = none) ∧ (syscall l i).2 = l) ∨
    (∃ p L, i.call = .add p L ∧ p ∉ l.map MemoryLimitation.pid ∧
      syscall l i = (⟨0, .nothing⟩, ⟨p, L⟩ :: l)) ∨
    (∃ p L, i.call = .update p L ∧ p ∈ l.map MemoryLimitation.pid ∧
      syscall l i = (⟨0, .nothing⟩, storeLimit p L l)) ∨
    (∃ p, i.call = .remove p ∧ p ∈ l.map MemoryLimitation.pid ∧
      syscall l i = (⟨0, .nothing⟩, unlink MemoryLimitation.pid p l)) := by
  cases hp : i.call.target with
  | none =>
    obtain ⟨c, o⟩ := i
    cases c with
    | get u n c => exact Or.inl ⟨Or.inr rfl, rfl⟩
    | add p L | update p L | remove p => cases hp
  | some p =>
    have hcall := syscall_eq_decision hp l
    obtain ⟨hcode, hkeep⟩ | ⟨L, hc, hreg, hd⟩ | ⟨L, hc, hreg, hd⟩ | ⟨hc, hreg, hd⟩ :=
      decision_cases hp (p ∈ l.map MemoryLimitation.pid)
    · rw [hcall, hkeep]
      exact Or.inl ⟨Or.inl hcode, rfl⟩
    · rw [hd] at hcall
      exact Or.inr (Or.inl ⟨p, L, hc, of_decide_eq_false hreg, hcall⟩)
    · rw [hd] at hcall
      exact Or.inr (Or.inr (Or.inl ⟨p, L, hc, of_decide_eq_true hreg, hcall⟩))
    · rw [hd] at hcall
      exact Or.inr (Or.inr (Or.inr ⟨p, hc, of_decide_eq_true hreg, hcall⟩))

/-- No pid is registered twice. -/
lemma nodup_syscall (i : Invocation Signal) (h : (l.map MemoryLimitation.pid).Nodup) :
    ((syscall l i).2.map MemoryLimitation.pid).Nodup := by
  obtain ⟨-, hkeep⟩ | ⟨p, L, -, hp, hcall⟩ | ⟨p, L, -, -, hcall⟩ | ⟨p, -, -, hcall⟩ :=
    syscall_cases l i
  · rwa [hkeep]
  · rw [hcall]
    exact List.nodup_cons.mpr ⟨hp, h⟩
  · rw [hcall]
    have hkeys : (storeLimit p L l).map MemoryLimitation.pid = l.map MemoryLimitation.pid :=
      map_key_modify fun _ => rfl
    rwa [hkeys]
  · rw [hcall, map_key_unlink]
    exact h.erase p

/-- The entry `x` has the pid and no entry before or after it has. -/
structure OnlyMatch (p : PidT) (l₁ : List MemoryLimitation) (x : MemoryLimitation)
    (l₂ : List MemoryLimitation) : Prop where
  pid : x.pid = p
  not_before : p ∉ l₁.map MemoryLimitation.pid
  not_after : p ∉ l₂.map MemoryLimitation.pid

/-- What a call that returned `code` has made of the sequence `l`. -/
def Changes (c : Call) (code : Int) (l l' : List MemoryLimitation) : Prop :=
  if code ≠ 0 then l' = l
  else
    match c with
    | .add p L    => l' = ⟨p, L⟩ :: l
    | .get ..     => l' = l
    | .update p L => ∃ l₁ x l₂, OnlyMatch p l₁ x l₂ ∧ l = l₁ ++ x :: l₂ ∧ l' = l₁ ++ ⟨p, L⟩ :: l₂
    | .remove p   => ∃ l₁ x l₂, OnlyMatch p l₁ x l₂ ∧ l = l₁ ++ x :: l₂ ∧ l' = l₁ ++ l₂

lemma exists_onlyMatch {p : PidT} (h : (l.map MemoryLimitation.pid).Nodup)
    (hp : p ∈ l.map MemoryLimitation.pid) : ∃ l₁ x l₂, OnlyMatch p l₁ x l₂ ∧ l = l₁ ++ x :: l₂ := by
  obtain ⟨x, hx⟩ := exists_lookup_of_mem hp
  obtain ⟨l₁, l₂, rfl, h₁, h₂⟩ := exists_split_of_lookup_nodup h hx
  exact ⟨l₁, x, l₂, ⟨key_of_lookup hx, h₁, h₂⟩, rfl⟩

lemma changes_syscall (i : Invocation Signal) (h : (l.map MemoryLimitation.pid).Nodup) :
    Changes i.call (syscall l i).1.code l (syscall l i).2 := by
  obtain ⟨hcode, hkeep⟩ | ⟨p, L, hc, -, hcall⟩ | ⟨p, L, hc, hp, hcall⟩ | ⟨p, hc, hp, hcall⟩ :=
    syscall_cases l i
  · rw [hkeep]
    unfold Changes
    split_ifs with h0
    · rfl
    · obtain ⟨c, o⟩ := i
      cases c with
      | get u n c => rfl
      | add p L | update p L | remove p => simp_all [Call.target]
  · rw [hcall, hc]
    rfl
  · obtain ⟨l₁, x, l₂, hx, rfl⟩ := exists_onlyMatch h hp
    rw [hcall, hc]
    refine ⟨l₁, x, l₂, hx, rfl, ?_⟩
    dsimp only
    rw [storeLimit, modify_append_cons hx.not_before hx.pid, hx.pid]
  · obtain ⟨l₁, x, l₂, hx, rfl⟩ := exists_onlyMatch h hp
    rw [hcall, hc]
    exact ⟨l₁, x, l₂, hx, rfl, unlink_append_cons hx.not_before hx.pid⟩

end Taro.V1

namespace Taro.V1.Pointer

open Machine NullTerminated
open Taro.Pointer (HeapCall grantedAdd grantedRemove)

/-! ### Runs on the nodes -/

variable {Signal : Type} {m : Memory}

/-- The chain from `memory_limit_head` ends with `NULL` after the nodes at `as`, passes through none
of them twice, and through all that are allocated. -/
structure IsChain (m : Memory) (as : List Addr) : Prop where
  chain : Chain m.nextOf m.memoryLimitHead as
  nodup : as.Nodup
  mem_iff : ∀ a, a ∈ as ↔ a ∈ m.nodes

lemma Memory.Holds.isChain {as : List Addr} (h : m.Holds as) : IsChain m as :=
  ⟨h.chain, h.chain.nodup, fun a => (h.mem_live a).symm⟩

/-- The chain is intact and no pid is registered twice. -/
structure Valid (m : Memory) : Prop where
  sound : Sound m
  nodup : (m.entries.map MemoryLimitation.pid).Nodup

lemma Valid.next (hm : Valid m) (i : HeapCall Signal) : Valid (next m i).2 := by
  obtain ⟨_, hentries, hsound⟩ := next_refines hm.sound i
  refine ⟨hsound, ?_⟩
  rw [hentries]
  exact nodup_syscall i.toInvocation hm.nodup

lemma valid_of_reachable {node : Addr → Node}
    (h : Reachable (next : Memory → HeapCall Signal → _ × Memory) (boot node) m) : Valid m :=
  h.invariant ⟨sound_boot node, List.nodup_nil⟩ fun _ i hm => hm.next i

/-- Whatever calls are made and whatever the rest of the kernel answers, the chain is a list of
exactly the allocated nodes before and after every call; the call returns, which it could not if
a loop went on for ever or met a node that is not allocated; and along the chain the entries
change as they should. -/
theorem list_in_memory (node : Addr → Node) (is : List (HeapCall Signal)) :
    ∀ st ∈ steps next (boot node) is, ∃ as as' r, IsChain st.pre as ∧ IsChain st.post as' ∧
      st.output = .ok r ∧
      Changes st.input.call r.code (as.map st.pre.entryOf) (as'.map st.post.entryOf) := by
  intro st hst
  obtain ⟨hreach, hstep⟩ := reachable_of_mem_steps hst
  have hvalid := valid_of_reachable hreach
  obtain ⟨hret, hentries, hsound⟩ := next_refines hvalid.sound st.input
  obtain ⟨as, hh⟩ := hvalid.sound.holds
  obtain ⟨as', hh'⟩ := hsound.holds
  rw [hstep]
  refine ⟨as, as', _, hh.isChain, hh'.isChain, hret, ?_⟩
  simp only [stepAt_pre, stepAt_post, stepAt_input]
  rw [← hh.entries_eq, ← hh'.entries_eq, hentries]
  exact changes_syscall st.input.toInvocation hvalid.nodup

/-- The node of process 8 is freed, and process 9 gets a node at the same address. -/
theorem list_with_reused_node :
    ∃ st ∈ steps next (boot fun _ => ⟨0, 0, none⟩)
        ([grantedAdd 7, grantedAdd 8, grantedRemove 8] ++ [grantedAdd 9]),
      st.post.entries = [⟨9, 4096⟩, ⟨7, 4096⟩] ∧
      st.post.memoryLimitHead = (final next (boot fun _ => ⟨0, 0, none⟩)
        [grantedAdd 7, grantedAdd 8]).memoryLimitHead ∧
      ∃ as as' r, IsChain st.pre as ∧ IsChain st.post as' ∧ st.output = .ok r ∧
        Changes st.input.call r.code (as.map st.pre.entryOf) (as'.map st.post.entryOf) := by
  let m := final next (boot fun _ => ⟨0, 0, none⟩) [grantedAdd 7, grantedAdd 8, grantedRemove 8]
  have hst : stepAt next m (grantedAdd 9) ∈ steps next (boot fun _ => ⟨0, 0, none⟩)
      ([grantedAdd 7, grantedAdd 8, grantedRemove 8] ++ [grantedAdd 9]) := by
    rw [steps_append]
    exact List.mem_append_right _ List.mem_cons_self
  exact ⟨_, hst, by decide, by decide, list_in_memory _ _ _ hst⟩

end Taro.V1.Pointer
