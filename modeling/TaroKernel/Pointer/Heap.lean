import TaroKernel.Pointer.Syscalls

/-!
# The list in memory

`Heap.Holds h as` says that the nodes at the addresses `as` form the ring of `memory_limit_list` in
this order, and that nothing else is allocated. Then the heap stands for a sequence of entries,
`h.entries`, on which linking and unlinking a node do what the registry does.

The specifications of the loops and of the list operations say what they return, what heap they
leave, and when all fields they access are there (`Touches`).
-/

namespace Taro.Pointer

open Keyed ListHead

/-! ### What a heap stands for -/

/-- The node at a place, as an entry of the registry. -/
def Heap.entryAt (h : Heap) (l : Link) : MemoryLimitation := ⟨h.pid l, h.memoryLimit l⟩

/-- The entries met when `memory_limit_list` is walked from its head. -/
def Heap.entries (h : Heap) : List MemoryLimitation :=
  (h.walk .head h.nodes.card (h.next .head)).map h.entryAt

/-- The pid and the entry in the node at an address. -/
def Heap.nodePid (h : Heap) (a : Addr) : PidT := h.pid (.node a)

def Heap.nodeEntry (h : Heap) (a : Addr) : MemoryLimitation := h.entryAt (.node a)

/-- The allocated nodes are those of the ring, in the order of `as`. -/
structure Heap.Holds (h : Heap) (as : List Addr) : Prop where
  ring : h.toLinks.Ring .head (as.map .node)
  mem_nodes : ∀ a, a ∈ h.nodes ↔ a ∈ as

variable {h : Heap} {as as₁ as₂ : List Addr} {a : Addr} {l : Link}

lemma Heap.Holds.nodup (hh : h.Holds as) : as.Nodup :=
  List.Nodup.of_map Link.node (List.nodup_cons.mp hh.ring.nodup).2

lemma Heap.Holds.card_nodes (hh : h.Holds as) : h.nodes.card = as.length := by
  have hnodes : h.nodes = as.toFinset := by
    ext a
    rw [hh.mem_nodes, List.mem_toFinset]
  rw [hnodes, List.toFinset_card_of_nodup hh.nodup]

lemma Heap.Holds.entries_eq (hh : h.Holds as) :
    h.entries = as.map h.nodeEntry := by
  have hlen : (as.map Link.node).length ≤ h.nodes.card := by rw [List.length_map, hh.card_nodes]
  rw [Heap.entries, hh.ring.ahead.walk_eq hlen, List.map_map]
  rfl

/-- The places with link fields are the head and the members of the ring. -/
lemma Heap.Holds.hasLinks_iff (hh : h.Holds as) :
    h.HasLinks l ↔ l ∈ Link.head :: as.map .node := by
  cases l with
  | node a => simp [Heap.HasLinks, Heap.IsNode, hh.mem_nodes]
  | head => simp [Heap.HasLinks]
  | poison1 => simp [Heap.HasLinks, Heap.IsNode]
  | poison2 => simp [Heap.HasLinks, Heap.IsNode]

lemma Heap.Holds.hasLinks_next (hh : h.Holds as) (hl : h.HasLinks l) : h.HasLinks (h.next l) :=
  hh.hasLinks_iff.mpr (hh.ring.next_mem (hh.hasLinks_iff.mp hl))

lemma Heap.Holds.hasLinks_prev (hh : h.Holds as) (hl : h.HasLinks l) : h.HasLinks (h.prev l) :=
  hh.hasLinks_iff.mpr (hh.ring.prev_mem (hh.hasLinks_iff.mp hl))

lemma Heap.hasLinks_head (h : Heap) : h.HasLinks .head := Or.inl rfl

lemma map_pid_nodeEntry (h : Heap) (as : List Addr) :
    (as.map h.nodeEntry).map MemoryLimitation.pid = as.map h.nodePid := by
  rw [List.map_map]
  rfl

/-! ### Linking and unlinking -/

/-- The heap after a new node was allocated, filled and linked. -/
def Heap.link (h : Heap) (a : Addr) (p : PidT) (L : SizeT) : Heap where
  toLinks := (h.toLinks.init (.node a)).addTail (.node a) .head
  pid := Function.update h.pid (.node a) p
  memoryLimit := Function.update h.memoryLimit (.node a) L
  nodes := insert a h.nodes

/-- The heap after `list_del` of a place. -/
def Heap.del (h : Heap) (l : Link) : Heap :=
  { h with toLinks := h.toLinks.del l .poison1 .poison2 }

/-- The heap after a node was unlinked and freed; its memory holds `b` then. -/
def Heap.unlink (h : Heap) (a : Addr) (b : NodeBytes) : Heap := (h.del (.node a)).free a b

/-- The heap after a limit was stored in a node. -/
def Heap.store (h : Heap) (a : Addr) (L : SizeT) : Heap :=
  { h with memoryLimit := Function.update h.memoryLimit (.node a) L }

lemma Heap.Holds.link (hh : h.Holds as) (ha : a ∉ h.nodes) (p : PidT) (L : SizeT) :
    (h.link a p L).Holds (as ++ [a]) where
  ring := by
    have hnew : Link.node a ∉ Link.head :: as.map .node := by
      simpa [hh.mem_nodes] using ha
    rw [List.map_append]
    exact (hh.ring.init hnew).addTail hnew
  mem_nodes b := by simp [Heap.link, hh.mem_nodes, or_comm]

lemma Heap.Holds.entries_link (hh : h.Holds as) (ha : a ∉ h.nodes) (p : PidT) (L : SizeT) :
    (h.link a p L).entries = h.entries ++ [⟨p, L⟩] := by
  rw [(hh.link ha p L).entries_eq, hh.entries_eq, List.map_append]
  congr 1
  · apply List.map_congr_left
    intro b hb
    have hne : Link.node b ≠ .node a := by
      rintro heq
      cases heq
      exact ha ((hh.mem_nodes a).mpr hb)
    simp [Heap.nodeEntry, Heap.entryAt, Heap.link, hne]
  · simp [Heap.nodeEntry, Heap.entryAt, Heap.link]

lemma Heap.Holds.map_nodePid_link (hh : h.Holds as) (ha : a ∉ h.nodes) (p : PidT) (L : SizeT) :
    as.map (h.link a p L).nodePid = as.map h.nodePid := by
  apply List.map_congr_left
  intro b hb
  have hne : b ≠ a := fun heq => ha ((hh.mem_nodes a).mpr (heq ▸ hb))
  simp [Heap.nodePid, Heap.link, hne]

lemma nodePid_link_self (h : Heap) (a : Addr) (p : PidT) (L : SizeT) :
    (h.link a p L).nodePid a = p :=
  Function.update_self ..

lemma Heap.Holds.not_mem_others (hh : h.Holds (as₁ ++ a :: as₂)) : a ∉ as₁ ++ as₂ := by
  have hnodup := hh.nodup
  rw [List.nodup_middle, List.nodup_cons] at hnodup
  exact hnodup.1

/-- Whatever is left in its memory, a node that was unlinked and freed is gone. -/
lemma Heap.Holds.unlink (hh : h.Holds (as₁ ++ a :: as₂)) (b : NodeBytes) :
    (h.unlink a b).Holds (as₁ ++ as₂) where
  ring := by
    have hring := hh.ring
    rw [List.map_append, List.map_cons] at hring
    rw [List.map_append]
    have hne : ∀ y ∈ Link.head :: (as₁.map Link.node ++ as₂.map .node), y ≠ .node a := by
      rintro y hy rfl
      rw [← List.map_append] at hy
      have := hh.not_mem_others
      simp_all
    exact (hring.del .poison1 .poison2).congr (fun y hy => Function.update_of_ne (hne y hy) _ _)
      fun y hy => Function.update_of_ne (hne y hy) _ _
  mem_nodes c := by
    have hothers := hh.not_mem_others
    simp only [Heap.unlink, Heap.free, Heap.del, Finset.mem_erase, hh.mem_nodes, List.mem_append,
      List.mem_cons]
    constructor
    · tauto
    · intro hc
      refine ⟨fun heq => hothers (heq ▸ List.mem_append.mpr hc), by tauto⟩

lemma nodeEntry_unlink {b : NodeBytes} {c : Addr} (hc : c ≠ a) :
    (h.unlink a b).nodeEntry c = h.nodeEntry c := by
  simp [Heap.nodeEntry, Heap.entryAt, Heap.unlink, Heap.free, Heap.del, hc]

lemma Heap.Holds.entries_unlink {p : PidT} (hh : h.Holds (as₁ ++ a :: as₂))
    (hfirst : p ∉ as₁.map h.nodePid) (hpid : h.nodePid a = p) (b : NodeBytes) :
    (h.unlink a b).entries = Keyed.unlink MemoryLimitation.pid p h.entries := by
  have hfirst' : p ∉ (as₁.map h.nodeEntry).map MemoryLimitation.pid := by
    rwa [map_pid_nodeEntry]
  have hpid' : (h.nodeEntry a).pid = p := hpid
  have hothers : (as₁ ++ as₂).map (h.unlink a b).nodeEntry = (as₁ ++ as₂).map h.nodeEntry :=
    List.map_congr_left fun c hc => nodeEntry_unlink fun heq => hh.not_mem_others (heq ▸ hc)
  rw [(hh.unlink b).entries_eq, hothers, hh.entries_eq, List.map_append, List.map_append,
    List.map_cons, unlink_append_cons hfirst' hpid']

/-- Unlinking a node that has been freed comes to the same as long as its links are still those it
had, and the poison is what is left in them. -/
lemma Heap.free_del {b : NodeBytes} (hnext : b.next = h.next (.node a))
    (hprev : b.prev = h.prev (.node a)) :
    (h.free a b).del (.node a) = h.unlink a { b with next := .poison1, prev := .poison2 } := by
  have hlinks : (h.free a b).toLinks = h.toLinks := by
    rw [Heap.free, hnext, hprev, Function.update_eq_self, Function.update_eq_self]
  have hpoison₁ : Function.update (h.toLinks.del (.node a) .poison1 .poison2).next (.node a)
      .poison1 = (h.toLinks.del (.node a) .poison1 .poison2).next :=
    Function.update_eq_self_iff.mpr (by simp [Links.del, Links.setNext, Links.setPrev])
  have hpoison₂ : Function.update (h.toLinks.del (.node a) .poison1 .poison2).prev (.node a)
      .poison2 = (h.toLinks.del (.node a) .poison1 .poison2).prev :=
    Function.update_eq_self_iff.mpr (by simp [Links.del, Links.setNext, Links.setPrev])
  rw [Heap.del, hlinks]
  simp only [Heap.unlink, Heap.del, Heap.free, hpoison₁, hpoison₂]

lemma Heap.Holds.store (hh : h.Holds as) (L : SizeT) : (h.store a L).Holds as :=
  ⟨hh.ring, hh.mem_nodes⟩

lemma Heap.Holds.entries_store {p : PidT} {L : SizeT} (hh : h.Holds (as₁ ++ a :: as₂))
    (hfirst : p ∉ as₁.map h.nodePid) (hpid : h.nodePid a = p) :
    (h.store a L).entries = storeLimit p L h.entries := by
  have hnodup := hh.nodup
  rw [List.nodup_middle, List.nodup_cons, List.mem_append, not_or] at hnodup
  have hother : ∀ b, b ≠ a → (h.store a L).nodeEntry b = h.nodeEntry b := by
    intro b hb
    simp [Heap.nodeEntry, Heap.entryAt, Heap.store, hb]
  have hfirst' : p ∉ (as₁.map h.nodeEntry).map MemoryLimitation.pid := by
    rwa [map_pid_nodeEntry]
  have hpid' : (h.nodeEntry a).pid = p := hpid
  rw [(hh.store L).entries_eq, hh.entries_eq, List.map_append, List.map_append, List.map_cons,
    List.map_cons, storeLimit, modify_append_cons hfirst' hpid']
  congr 1
  · exact List.map_congr_left fun b hb => hother b fun heq => hnodup.1.1 (heq ▸ hb)
  · congr 1
    · simp [Heap.nodeEntry, Heap.entryAt, Heap.store]
    · exact List.map_congr_left fun b hb => hother b fun heq => hnodup.1.2 (heq ▸ hb)

/-! ### Code that only touches the heap -/

section Touches

variable {Signal : Type} {α β : Type} {h' h'' : Heap}

lemma run_bind_of {x : Exec Signal α} {f : α → Exec Signal β} {r : α} {m m' : Memory Signal}
    (hx : x.run m = some (r, m')) : (x >>= f).run m = (f r).run m' := by
  rw [StateT.run_bind, hx]
  rfl

/-- From the heap `h`, the code returns `r`. All it does is change the heap to `h'` and access
fields, and these are all there exactly when `clean` holds. -/
def Touches (x : Exec Signal α) (h : Heap) (r : α) (h' : Heap) (clean : Prop) : Prop :=
  ∃ seen, (none ∉ seen ↔ clean) ∧ ∀ m : Memory Signal, m.heap = h →
    x.run m = some (r, m.touch h' seen)

lemma Touches.pure (h : Heap) (r : α) : Touches (pure r : Exec Signal α) h r h True := by
  refine ⟨[], by simp, ?_⟩
  rintro m rfl
  simp [Memory.touch]

lemma Touches.bind {x : Exec Signal α} {f : α → Exec Signal β} {r : α} {r' : β} {c c' : Prop}
    (hx : Touches x h r h' c) (hf : Touches (f r) h' r' h'' c') :
    Touches (x >>= f) h r' h'' (c ∧ c') := by
  obtain ⟨seen, hseen, hrun⟩ := hx
  obtain ⟨seen', hseen', hrun'⟩ := hf
  refine ⟨seen ++ seen', by simp [hseen, hseen'], ?_⟩
  intro m hm
  rw [run_bind_of (hrun m hm), hrun' (m.touch h' seen) rfl]
  simp [Memory.touch]

lemma Touches.of_iff {x : Exec Signal α} {r : α} {c c' : Prop} (hx : Touches x h r h' c)
    (hc : c ↔ c') : Touches x h r h' c' := by
  obtain ⟨seen, hseen, hrun⟩ := hx
  exact ⟨seen, hseen.trans hc, hrun⟩

/-- One access to a field of a node. -/
lemma touches_nodeField {x : Exec Signal α} {r : α} (v : Value)
    (hrun : ∀ m : Memory Signal, m.heap = h →
      x.run m = some (r, m.touch h' [h.nodeField l v])) : Touches x h r h' (h.IsNode l) := by
  refine ⟨_, ?_, hrun⟩
  unfold Heap.nodeField
  split_ifs with hl <;> simp [hl]

/-- One access to a link field. -/
lemma touches_linkField {x : Exec Signal α} {r : α} (v : Value)
    (hrun : ∀ m : Memory Signal, m.heap = h →
      x.run m = some (r, m.touch h' [h.linkField l v])) : Touches x h r h' (h.HasLinks l) := by
  refine ⟨_, ?_, hrun⟩
  unfold Heap.linkField
  split_ifs with hl <;> simp [hl]

lemma readPid_touches (h : Heap) (l : Link) :
    Touches (readPid l : Exec Signal PidT) h (h.pid l) h (h.IsNode l) :=
  touches_nodeField (.pid (h.pid l)) fun m hm => by subst hm; rfl

lemma readMemoryLimit_touches (h : Heap) (l : Link) :
    Touches (readMemoryLimit l : Exec Signal SizeT) h (h.memoryLimit l) h (h.IsNode l) :=
  touches_nodeField (.memoryLimit (h.memoryLimit l)) fun m hm => by subst hm; rfl

lemma writePid_touches (h : Heap) (l : Link) (p : PidT) :
    Touches (writePid l p : Exec Signal Unit) h ()
      { h with pid := Function.update h.pid l p } (h.IsNode l) :=
  touches_nodeField (.pid p) fun m hm => by subst hm; rfl

lemma writeMemoryLimit_touches (h : Heap) (l : Link) (L : SizeT) :
    Touches (writeMemoryLimit l L : Exec Signal Unit) h ()
      { h with memoryLimit := Function.update h.memoryLimit l L } (h.IsNode l) :=
  touches_nodeField (.memoryLimit L) fun m hm => by subst hm; rfl

lemma readNext_touches (h : Heap) (l : Link) :
    Touches (readNext l : Exec Signal Link) h (h.next l) h (h.HasLinks l) :=
  touches_linkField (.link (h.next l)) fun m hm => by subst hm; rfl

lemma readPrev_touches (h : Heap) (l : Link) :
    Touches (readPrev l : Exec Signal Link) h (h.prev l) h (h.HasLinks l) :=
  touches_linkField (.link (h.prev l)) fun m hm => by subst hm; rfl

lemma writeNext_touches (h : Heap) (l v : Link) :
    Touches (writeNext l v : Exec Signal Unit) h () { h with toLinks := h.setNext l v }
      (h.HasLinks l) :=
  touches_linkField (.link v) fun m hm => by subst hm; rfl

lemma writePrev_touches (h : Heap) (l v : Link) :
    Touches (writePrev l v : Exec Signal Unit) h () { h with toLinks := h.setPrev l v }
      (h.HasLinks l) :=
  touches_linkField (.link v) fun m hm => by subst hm; rfl

/-! ### List operations -/

lemma initListHead_touches (h : Heap) (l : Link) :
    Touches (initListHead l : Exec Signal Unit) h () { h with toLinks := h.init l }
      (h.HasLinks l) :=
  ((writeNext_touches h l l).bind (writePrev_touches _ l l)).of_iff and_self_iff

lemma listAddTail_touches (h : Heap) (new list : Link) :
    Touches (listAddTail new list : Exec Signal Unit) h ()
      { h with toLinks := h.addTail new list }
      (h.HasLinks list ∧ h.HasLinks new ∧ h.HasLinks (h.prev list)) := by
  refine ((readPrev_touches h list).bind <| (writePrev_touches _ list new).bind <|
    (writeNext_touches _ new list).bind <| (writePrev_touches _ new _).bind <|
    writeNext_touches _ _ new).of_iff ?_
  show h.HasLinks list ∧ h.HasLinks list ∧ h.HasLinks new ∧ h.HasLinks new ∧
    h.HasLinks (h.prev list) ↔ _
  tauto

lemma listDel_touches (h : Heap) (l : Link) :
    Touches (listDel l : Exec Signal Unit) h () (h.del l)
      (h.HasLinks l ∧ h.HasLinks (h.next l) ∧ h.HasLinks (h.prev l)) := by
  refine ((readPrev_touches h l).bind <| (readNext_touches h l).bind <|
    (writePrev_touches _ _ _).bind <| (writeNext_touches _ _ _).bind <|
    (writeNext_touches _ l .poison1).bind <| writePrev_touches _ l .poison2).of_iff ?_
  show h.HasLinks l ∧ h.HasLinks l ∧ h.HasLinks (h.next l) ∧ h.HasLinks (h.prev l) ∧
    h.HasLinks l ∧ h.HasLinks l ↔ _
  tauto

/-- Unlinking a node that has just been freed accesses links that are not there. -/
lemma listDel_freed_touches (h : Heap) (a : Addr) (b : NodeBytes) :
    Touches (listDel (.node a) : Exec Signal Unit) (h.free a b) () ((h.free a b).del (.node a))
      False := by
  refine (listDel_touches _ (.node a)).of_iff (iff_of_false ?_ id)
  rintro ⟨hlinks | hlinks, _⟩
  · cases hlinks
  · exact Finset.notMem_erase a h.nodes hlinks

/-- Filling and linking a node that was just allocated. -/
lemma linkEntry_touches (hh : h.Holds as) (a : Addr) (p : PidT) (L : SizeT) :
    Touches (linkEntry (.node a) p L : Exec Signal Unit) { h with nodes := insert a h.nodes } ()
      (h.link a p L) True := by
  refine ((writePid_touches _ (.node a) p).bind <| (writeMemoryLimit_touches _ (.node a) L).bind <|
    (initListHead_touches _ (.node a)).bind <| listAddTail_touches _ (.node a) .head).of_iff ?_
  have hnode : ({ h with nodes := insert a h.nodes } : Heap).IsNode (.node a) :=
    Finset.mem_insert_self a h.nodes
  have hprev : (h.toLinks.init (.node a)).prev .head = h.prev .head := by
    simp [Links.init, Links.setNext, Links.setPrev]
  have hlast : ({ h with nodes := insert a h.nodes } : Heap).HasLinks (h.prev .head) := by
    rcases hh.hasLinks_prev h.hasLinks_head with heq | hmem
    · exact Or.inl heq
    · right
      cases hl : h.prev .head with
      | node b =>
        rw [hl] at hmem
        exact Finset.mem_insert_of_mem hmem
      | _ =>
        rw [hl] at hmem
        exact hmem.elim
  refine iff_of_true ⟨hnode, hnode, Or.inr hnode, Or.inl rfl, Or.inr hnode, ?_⟩ trivial
  exact hprev ▸ hlast

/-! ### The loops -/

lemma searchFrom_touches {p : PidT} {temp : Link} {fuel : ℕ}
    (hahead : h.Ahead .head temp (as.map .node)) (hnodes : ∀ a ∈ as, a ∈ h.nodes)
    (hfuel : as.length < fuel) :
    Touches (searchFrom p fuel temp : Exec Signal (Option Link)) h
      ((lookup h.nodePid p as).map .node) h True := by
  -- along the nodes that are still ahead of the cursor
  induction as generalizing temp fuel with
  | nil =>
    obtain ⟨fuel, rfl⟩ := Nat.exists_eq_add_of_lt hfuel
    cases hahead
    exact Touches.pure h none
  | cons a as ih =>
    obtain ⟨rfl, hne, hrest⟩ := hahead
    cases fuel with
    | zero => simp at hfuel
    | succ fuel =>
      have hnode : h.IsNode (.node a) := hnodes a List.mem_cons_self
      rw [searchFrom, if_neg hne]
      by_cases hp : h.nodePid a = p
      · subst hp
        refine ((readPid_touches h (.node a)).bind ?_).of_iff (iff_of_true ⟨hnode, trivial⟩ trivial)
        rw [if_pos (show h.pid (.node a) = h.nodePid a from rfl), lookup_cons_self]
        exact Touches.pure h _
      · have hih := ih hrest (fun b hb => hnodes b (List.mem_cons_of_mem a hb))
          (Nat.lt_of_succ_lt_succ hfuel)
        refine Touches.of_iff (c := h.IsNode (.node a) ∧ h.HasLinks (.node a) ∧ True) ?_
          (iff_of_true ⟨hnode, Or.inr hnode, trivial⟩ trivial)
        refine (readPid_touches h (.node a)).bind ?_
        rw [if_neg (show ¬ h.pid (.node a) = p from hp), lookup_cons_of_ne hp]
        exact (readNext_touches h (.node a)).bind hih

lemma fillFrom_touches (n : SizeT) (count : Int32) (kBuffer : List MemoryLimitation) {temp : Link}
    {fuel : ℕ} (hahead : h.Ahead .head temp (as.map .node))
    (hnodes : ∀ a ∈ as, a ∈ h.nodes) (hfuel : as.length < fuel) :
    ∃ temp', Touches (fillFrom n fuel temp count kBuffer : Exec Signal Filled) h
        ⟨temp', (fillBuffer n (as.map h.nodeEntry) count kBuffer).1,
          (fillBuffer n (as.map h.nodeEntry) count kBuffer).2⟩ h True ∧
      (temp' = .head ∧ (fillBuffer n (as.map h.nodeEntry) count kBuffer).2.length =
          kBuffer.length + as.length ∨
        h.IsNode temp' ∧
          (fillBuffer n (as.map h.nodeEntry) count kBuffer).2.length <
            kBuffer.length + as.length) := by
  induction as generalizing count kBuffer temp fuel with
  | nil =>
    obtain ⟨fuel, rfl⟩ := Nat.exists_eq_add_of_lt hfuel
    cases hahead
    exact ⟨.head, Touches.pure h _, Or.inl ⟨rfl, by simp [fillBuffer]⟩⟩
  | cons a as ih =>
    obtain ⟨rfl, hne, hrest⟩ := hahead
    cases fuel with
    | zero => simp at hfuel
    | succ fuel =>
      have hnode : h.IsNode (.node a) := hnodes a List.mem_cons_self
      rw [fillFrom, if_neg hne, List.map_cons, fillBuffer]
      -- a full buffer stops the loop at a node
      split_ifs with hfull
      · exact ⟨.node a, Touches.pure h _, Or.inr ⟨hnode, by simp⟩⟩
      · obtain ⟨temp', htouches, htemp⟩ := ih (count + 1) (kBuffer ++ [h.nodeEntry a]) hrest
          (fun b hb => hnodes b (List.mem_cons_of_mem a hb)) (Nat.lt_of_succ_lt_succ hfuel)
        refine ⟨temp', ?_, ?_⟩
        · exact ((readPid_touches h (.node a)).bind <|
            (readMemoryLimit_touches h (.node a)).bind <|
            (readNext_touches h (.node a)).bind htouches).of_iff
              (iff_of_true ⟨hnode, hnode, Or.inr hnode, trivial⟩ trivial)
        · rw [List.length_append, List.length_singleton, Nat.add_assoc, Nat.add_comm 1] at htemp
          exact htemp

lemma listFirst_touches (h : Heap) :
    Touches (listFirst : Exec Signal (Link × ℕ)) h (h.next .head, h.nodes.card + 1) h True := by
  have hread : Touches (readNext .head : Exec Signal Link) h _ h _ := readNext_touches h .head
  obtain ⟨seen, hseen, hrun⟩ := hread
  refine ⟨seen, hseen.trans (iff_of_true h.hasLinks_head trivial), ?_⟩
  rintro m rfl
  rw [listFirst, run_bind_of (x := get) rfl, run_bind_of (hrun m rfl)]
  rfl

/-- The search loop returns, with the first node that has the pid. -/
lemma search_touches (hh : h.Holds as) (p : PidT) :
    Touches (search p : Exec Signal (Option Link)) h
      ((lookup h.nodePid p as).map .node) h True := by
  have hfuel : as.length < h.nodes.card + 1 := hh.card_nodes ▸ Nat.lt_succ_self _
  refine ((listFirst_touches h).bind ?_).of_iff (and_self_iff (a := True))
  exact searchFrom_touches hh.ring.ahead (fun a ha => (hh.mem_nodes a).mpr ha) hfuel

/-- The loop of get returns what `fillBuffer` computes. Its cursor is the head if all entries were
taken, and a node if some were not. -/
lemma fill_touches (hh : h.Holds as) (n : SizeT) :
    ∃ temp, Touches (fill n : Exec Signal Filled) h
        ⟨temp, (fillBuffer n h.entries 0 []).1, (fillBuffer n h.entries 0 []).2⟩ h True ∧
      (temp = .head ∧ (fillBuffer n h.entries 0 []).2.length = h.entries.length ∨
        h.IsNode temp ∧ (fillBuffer n h.entries 0 []).2.length < h.entries.length) := by
  have hfuel : as.length < h.nodes.card + 1 := hh.card_nodes ▸ Nat.lt_succ_self _
  obtain ⟨temp, htouches, htemp⟩ :=
    fillFrom_touches n 0 [] hh.ring.ahead (fun a ha => (hh.mem_nodes a).mpr ha) hfuel
  rw [hh.entries_eq]
  refine ⟨temp, ((listFirst_touches h).bind htouches).of_iff (and_self_iff (a := True)), ?_⟩
  simpa using htemp

end Touches

end Taro.Pointer
