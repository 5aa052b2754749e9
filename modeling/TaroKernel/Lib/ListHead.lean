import Mathlib.Data.List.Chain
import Mathlib.Data.List.Nodup
import Mathlib.Logic.Function.Iterate

/-!
# Circular doubly linked lists

The lists of `linux/list.h`: every `list_head` has a next and a previous one, and the members of a
list form a ring with its head. `Ring` states this for the members in list order. It is kept by
`list_add_tail` and `list_del`, and a loop that follows `next` from the head meets the members
one by one and then the head again (`Ahead`).

The places of the links are of any type, so a place may be a heap address, the head, or a poisoned
pointer.
-/

namespace ListHead

variable {L : Type*}

/-- The two link fields of every place. -/
@[ext]
structure Links (L : Type*) where
  next : L → L
  prev : L → L

/-! ### Operations -/

section Operations

variable [DecidableEq L]

def Links.setNext (r : Links L) (x y : L) : Links L :=
  { r with next := Function.update r.next x y }

def Links.setPrev (r : Links L) (x y : L) : Links L :=
  { r with prev := Function.update r.prev x y }

/-- `INIT_LIST_HEAD`. -/
def Links.init (r : Links L) (x : L) : Links L := (r.setNext x x).setPrev x x

/-- `list_add_tail`. -/
def Links.addTail (r : Links L) (new head : L) : Links L :=
  let prev := r.prev head
  (((r.setPrev head new).setNext new head).setPrev new prev).setNext prev new

/-- `list_del`, which leaves poison in the links of the entry. -/
def Links.del (r : Links L) (entry poison₁ poison₂ : L) : Links L :=
  let next := r.next entry
  let prev := r.prev entry
  (((r.setPrev next prev).setNext prev next).setNext entry poison₁).setPrev entry poison₂

/-- The places met from `pos` on before `head`, at most `n` of them. -/
def Links.walk (r : Links L) (head : L) : ℕ → L → List L
  | 0,     _   => []
  | n + 1, pos => if pos = head then [] else pos :: r.walk head n (r.next pos)

end Operations

/-! ### Rings -/

/-- `y` comes right after `x`. -/
def Links.Joined (r : Links L) (x y : L) : Prop := r.next x = y ∧ r.prev y = x

/-- The members `l` form a ring with `head`. -/
structure Links.Ring (r : Links L) (head : L) (l : List L) : Prop where
  nodup : (head :: l).Nodup
  joined : (head :: (l ++ [head])).IsChain r.Joined

variable {r r' : Links L} {head x : L} {l l₁ l₂ : List L}

section Fields

variable [DecidableEq L] {a poison₁ poison₂ : L}

lemma del_next_of_ne (hprev : a ≠ r.prev x) (hx : a ≠ x) :
    (r.del x poison₁ poison₂).next a = r.next a := by
  simp [Links.del, Links.setNext, Links.setPrev, hprev, hx]

lemma del_prev_of_ne (hnext : a ≠ r.next x) (hx : a ≠ x) :
    (r.del x poison₁ poison₂).prev a = r.prev a := by
  simp [Links.del, Links.setNext, Links.setPrev, hnext, hx]

lemma addTail_next_of_ne (hprev : a ≠ r.prev head) (hx : a ≠ x) :
    (r.addTail x head).next a = r.next a := by
  simp [Links.addTail, Links.setNext, Links.setPrev, hprev, hx]

lemma addTail_prev_of_ne (hhead : a ≠ head) (hx : a ≠ x) :
    (r.addTail x head).prev a = r.prev a := by
  simp [Links.addTail, Links.setNext, Links.setPrev, hhead, hx]

end Fields

/-- A chain depends on `next` of all its places but the last and on `prev` of all but the first. -/
lemma isChain_joined_congr (h : l.IsChain r.Joined)
    (hnext : ∀ a ∈ l.dropLast, r'.next a = r.next a) (hprev : ∀ b ∈ l.tail, r'.prev b = r.prev b) :
    l.IsChain r'.Joined := by
  induction l with
  | nil => exact .nil
  | cons a l ih =>
    cases l with
    | nil => exact .singleton a
    | cons b l =>
      rw [List.isChain_cons_cons] at h ⊢
      obtain ⟨⟨hab, hba⟩, hrest⟩ := h
      refine ⟨⟨?_, ?_⟩, ih hrest ?_ ?_⟩
      · rw [hnext a (by simp), hab]
      · rw [hprev b (by simp), hba]
      · intro c hc
        exact hnext c (List.mem_cons_of_mem a hc)
      · intro c hc
        exact hprev c (List.mem_cons_of_mem b hc)

lemma not_mem_of_nodup_concat (h : (l ++ [x]).Nodup) : x ∉ l :=
  fun hmem => (List.nodup_append.mp h).2.2 x hmem x (List.mem_singleton_self x) rfl

lemma ring_nil (hnext : r.next head = head) (hprev : r.prev head = head) : r.Ring head [] :=
  ⟨by simp, by simpa [Links.Joined] using ⟨hnext, hprev⟩⟩

/-- A ring depends on the links of its members and of the head only. -/
lemma Links.Ring.congr (h : r.Ring head l) (hnext : ∀ y ∈ head :: l, r'.next y = r.next y)
    (hprev : ∀ y ∈ head :: l, r'.prev y = r.prev y) : r'.Ring head l := by
  have hmem : ∀ y ∈ head :: (l ++ [head]), y ∈ head :: l := by
    intro y hy
    simp only [List.mem_cons, List.mem_append, List.not_mem_nil, or_false] at hy ⊢
    tauto
  refine ⟨h.nodup, isChain_joined_congr h.joined ?_ ?_⟩
  · intro a ha
    exact hnext a (hmem a (List.dropLast_subset _ ha))
  · intro b hb
    exact hprev b (hmem b (List.mem_of_mem_tail hb))

/-- Writing the links of a place outside of a ring does not touch it. -/
lemma Links.Ring.init [DecidableEq L] (h : r.Ring head l) (hx : x ∉ head :: l) :
    (r.init x).Ring head l := by
  have hne : ∀ y ∈ head :: l, y ≠ x := fun y hy heq => hx (heq ▸ hy)
  exact h.congr (fun y hy => Function.update_of_ne (hne y hy) _ _)
    fun y hy => Function.update_of_ne (hne y hy) _ _

/-- The last member and the head are joined, whether there is a member or not. -/
lemma Links.Ring.last (h : r.Ring head l) :
    ∃ A, head :: l = A ++ [r.prev head] ∧ (A ++ [r.prev head]).IsChain r.Joined := by
  obtain ⟨A, p, hAp⟩ := (List.eq_nil_or_concat' (head :: l)).resolve_left (by simp)
  have hjoined : (A ++ p :: head :: []).IsChain r.Joined := by
    have heq : head :: (l ++ [head]) = A ++ p :: [head] := by
      rw [← List.cons_append, hAp]
      simp
    exact heq ▸ h.joined
  obtain ⟨hA, ⟨_, hp⟩, _⟩ := List.isChain_append_cons_cons.mp hjoined
  subst hp
  exact ⟨A, hAp, hA⟩

lemma Links.Ring.addTail [DecidableEq L] {new : L} (h : r.Ring head l) (hnew : new ∉ head :: l) :
    (r.addTail new head).Ring head (l ++ [new]) := by
  obtain ⟨A, hA, hjoined⟩ := h.last
  have hnodup : (A ++ [r.prev head]).Nodup := hA ▸ h.nodup
  have hlast : r.prev head ∉ A := not_mem_of_nodup_concat hnodup
  have hnewA : new ∉ A ++ [r.prev head] := hA ▸ hnew
  have hprev : r.prev head ≠ new := fun heq => hnewA (by simp [heq])
  have hhead : head ≠ new := fun heq => hnew (by simp [heq])
  have hheadl : head ∉ l := (List.nodup_cons.mp h.nodup).1
  refine ⟨?_, ?_⟩
  · rw [← List.cons_append]
    exact List.nodup_append.mpr ⟨h.nodup, by simp, by grind⟩
  · have heq : head :: (l ++ [new] ++ [head]) = A ++ r.prev head :: new :: [head] := by
      rw [← List.cons_append, ← List.cons_append, hA]
      simp
    rw [heq, List.isChain_append_cons_cons, List.isChain_pair]
    refine ⟨isChain_joined_congr hjoined ?_ ?_, ⟨?_, ?_⟩, ?_, ?_⟩
    · intro a ha
      rw [List.dropLast_concat] at ha
      exact addTail_next_of_ne (fun heq => hlast (heq ▸ ha))
        (fun heq => hnewA (List.mem_append_left _ (heq ▸ ha)))
    · intro b hb
      rw [← hA, List.tail_cons] at hb
      exact addTail_prev_of_ne (fun heq => hheadl (heq ▸ hb))
        (fun heq => hnew (List.mem_cons_of_mem head (heq ▸ hb)))
    all_goals simp [Links.addTail, Links.setNext, Links.setPrev, hprev.symm, hhead]

/-- A ring cut open right before and right after one of its members. -/
lemma Links.Ring.around (h : r.Ring head (l₁ ++ x :: l₂)) :
    ∃ A B, head :: l₁ = A ++ [r.prev x] ∧ l₂ ++ [head] = r.next x :: B ∧
      (A ++ [r.prev x]).IsChain r.Joined ∧ (r.next x :: B).IsChain r.Joined := by
  obtain ⟨A, p, hA⟩ := (List.eq_nil_or_concat' (head :: l₁)).resolve_left (by simp)
  obtain ⟨n, B, hB⟩ := List.exists_cons_of_ne_nil (show l₂ ++ [head] ≠ [] by simp)
  have hjoined : (A ++ p :: x :: n :: B).IsChain r.Joined := by
    have heq : head :: (l₁ ++ x :: l₂ ++ [head]) = A ++ p :: x :: n :: B := by
      rw [List.append_cons A p, ← hA, ← hB]
      simp
    exact heq ▸ h.joined
  obtain ⟨hAp, ⟨_, rfl⟩, hrest⟩ := List.isChain_append_cons_cons.mp hjoined
  obtain ⟨⟨rfl, _⟩, hnB⟩ := List.isChain_cons_cons.mp hrest
  exact ⟨A, B, hA, hB, hAp, hnB⟩

lemma Links.Ring.del [DecidableEq L] (h : r.Ring head (l₁ ++ x :: l₂)) (poison₁ poison₂ : L) :
    (r.del x poison₁ poison₂).Ring head (l₁ ++ l₂) := by
  obtain ⟨A, B, hA, hB, hAp, hnB⟩ := h.around
  obtain ⟨hnodup₁, hnodup₂, hdisj⟩ :=
    List.nodup_append.mp (show (head :: l₁ ++ x :: l₂).Nodup from h.nodup)
  obtain ⟨hx₂, hnodup₂⟩ := List.nodup_cons.mp hnodup₂
  have hx₁ : x ∉ head :: l₁ := fun hmem => hdisj x hmem x List.mem_cons_self rfl
  have hx₂ : x ∉ l₂ ++ [head] := by
    intro hmem
    rcases List.mem_append.mp hmem with hmem | hmem
    · exact hx₂ hmem
    · exact hx₁ (List.mem_singleton.mp hmem ▸ List.mem_cons_self)
  have hhead₂ : head ∉ l₂ :=
    fun hmem => hdisj head List.mem_cons_self head (List.mem_cons_of_mem x hmem) rfl
  have hnodupB : (r.next x :: B).Nodup :=
    hB ▸ List.nodup_append.mpr ⟨hnodup₂, by simp, by grind⟩
  have hp : r.prev x ∈ head :: l₁ := hA ▸ by simp
  have hn : r.next x ∈ l₂ ++ [head] := hB ▸ by simp
  refine ⟨?_, ?_⟩
  · exact List.nodup_append.mpr ⟨hnodup₁, hnodup₂,
      fun a ha b hb => hdisj a ha b (List.mem_cons_of_mem x hb)⟩
  · have heq : head :: (l₁ ++ l₂ ++ [head]) = A ++ r.prev x :: r.next x :: B := by
      rw [List.append_cons A, ← hA, ← hB]
      simp
    -- the pieces before and after `x` keep their links, and their ends are joined
    rw [heq, List.isChain_append_cons_cons]
    refine ⟨isChain_joined_congr hAp ?_ ?_, ⟨?_, ?_⟩, isChain_joined_congr hnB ?_ ?_⟩
    · intro a ha
      rw [List.dropLast_concat] at ha
      have hmem : a ∈ head :: l₁ := hA ▸ List.mem_append_left _ ha
      have hpA : r.prev x ∉ A := not_mem_of_nodup_concat (hA ▸ hnodup₁)
      exact del_next_of_ne (fun heq => hpA (heq ▸ ha)) (fun heq => hx₁ (heq ▸ hmem))
    · intro b hb
      rw [← hA, List.tail_cons] at hb
      have hmem : b ∈ head :: l₁ := List.mem_cons_of_mem head hb
      have hbx : b ≠ x := fun heq => hx₁ (heq ▸ hmem)
      apply del_prev_of_ne _ hbx
      rintro rfl
      rcases List.mem_append.mp hn with hn | hn
      · exact hdisj _ hmem _ (List.mem_cons_of_mem x hn) rfl
      · exact (List.nodup_cons.mp hnodup₁).1 (List.mem_singleton.mp hn ▸ hb)
    · have hne : r.prev x ≠ x := fun heq => hx₁ (heq ▸ hp)
      simp [Links.del, Links.setNext, Links.setPrev, hne]
    · have hne : r.next x ≠ x := fun heq => hx₂ (heq ▸ hn)
      simp [Links.del, Links.setNext, Links.setPrev, hne]
    · intro a ha
      rw [← hB, List.dropLast_concat] at ha
      exact del_next_of_ne (fun heq => hdisj _ hp a (List.mem_cons_of_mem x ha) heq.symm)
        (fun heq => hx₂ (heq ▸ List.mem_append_left _ ha))
    · intro b hb
      rw [List.tail_cons] at hb
      have hmem : b ∈ l₂ ++ [head] := hB ▸ List.mem_cons_of_mem _ hb
      exact del_prev_of_ne (fun heq => (List.nodup_cons.mp hnodupB).1 (heq ▸ hb))
        (fun heq => hx₂ (heq ▸ hmem))

/-! ### Following the links -/

/-- A ring is closed under both links. -/
lemma Links.Ring.next_mem (h : r.Ring head l) (hx : x ∈ head :: l) : r.next x ∈ head :: l := by
  obtain ⟨A, B, hAB⟩ := List.append_of_mem hx
  obtain ⟨n, B', hB⟩ := List.exists_cons_of_ne_nil (show B ++ [head] ≠ [] by simp)
  have hjoined : (A ++ x :: n :: B').IsChain r.Joined := by
    have heq : head :: (l ++ [head]) = A ++ x :: n :: B' := by
      rw [← hB, ← List.cons_append, hAB]
      simp
    exact heq ▸ h.joined
  obtain ⟨_, ⟨rfl, _⟩, _⟩ := List.isChain_append_cons_cons.mp hjoined
  have hn : r.next x ∈ B ++ [head] := hB ▸ List.mem_cons_self
  rcases List.mem_append.mp hn with hn | hn
  · rw [hAB]
    simp [hn]
  · rw [List.mem_singleton.mp hn]
    exact List.mem_cons_self

lemma Links.Ring.prev_mem (h : r.Ring head l) (hx : x ∈ head :: l) : r.prev x ∈ head :: l := by
  have hx' : x ∈ l ++ [head] := by
    rcases List.mem_cons.mp hx with rfl | hx
    · simp
    · exact List.mem_append_left _ hx
  obtain ⟨A, B, hAB⟩ := List.append_of_mem hx'
  obtain ⟨A', p, hA⟩ := (List.eq_nil_or_concat' (head :: A)).resolve_left (by simp)
  have hjoined : (A' ++ p :: x :: B).IsChain r.Joined := by
    have heq : head :: (l ++ [head]) = A' ++ p :: x :: B := by
      rw [List.append_cons A', ← hA, hAB]
      simp
    exact heq ▸ h.joined
  obtain ⟨_, ⟨_, rfl⟩, _⟩ := List.isChain_append_cons_cons.mp hjoined
  have hp : r.prev x ∈ head :: A := hA ▸ by simp
  rcases List.mem_cons.mp hp with hp | hp
  · rw [hp]
    exact List.mem_cons_self
  · have hmem : r.prev x ∈ l ++ [head] := hAB ▸ List.mem_append_left _ hp
    simpa [or_comm] using hmem

/-- From `pos` on, `next` leads through `l` and then to `head`. -/
def Links.Ahead (r : Links L) (head : L) : L → List L → Prop
  | pos, []     => pos = head
  | pos, x :: l => pos = x ∧ x ≠ head ∧ r.Ahead head (r.next x) l

lemma ahead_of_isChain (hjoined : (x :: (l ++ [head])).IsChain r.Joined) (hhead : head ∉ l) :
    r.Ahead head (r.next x) l := by
  induction l generalizing x with
  | nil => exact (List.isChain_cons_cons.mp hjoined).1.1
  | cons y l ih =>
    obtain ⟨⟨hy, _⟩, hrest⟩ := List.isChain_cons_cons.mp hjoined
    exact ⟨hy, fun heq => hhead (heq ▸ List.mem_cons_self),
      ih hrest fun hmem => hhead (List.mem_cons_of_mem y hmem)⟩

lemma Links.Ring.ahead (h : r.Ring head l) : r.Ahead head (r.next head) l :=
  ahead_of_isChain h.joined (List.nodup_cons.mp h.nodup).1

lemma Links.Ahead.walk_eq [DecidableEq L] {pos : L} {n : ℕ} (h : r.Ahead head pos l)
    (hn : l.length ≤ n) : r.walk head n pos = l := by
  induction l generalizing pos n with
  | nil =>
    cases h
    cases n <;> simp [Links.walk]
  | cons x l ih =>
    obtain ⟨rfl, hne, hrest⟩ := h
    cases n with
    | zero => simp at hn
    | succ n => rw [Links.walk, if_neg hne, ih hrest (by simpa using hn)]

lemma Links.Ahead.exists_iterate {pos : L} (h : r.Ahead head pos l) (hx : x ∈ l) :
    ∃ k, r.next^[k] pos = x := by
  induction l generalizing pos with
  | nil => cases hx
  | cons y l ih =>
    obtain ⟨rfl, _, hrest⟩ := h
    rcases List.mem_cons.mp hx with rfl | hx
    · exact ⟨0, rfl⟩
    · obtain ⟨k, hk⟩ := ih hrest hx
      exact ⟨k + 1, hk⟩

/-- The members of a ring and its head are what `next` reaches from the head. -/
lemma Links.Ring.mem_iff_iterate (h : r.Ring head l) :
    x ∈ head :: l ↔ ∃ k, r.next^[k] head = x := by
  constructor
  · intro hx
    rcases List.mem_cons.mp hx with rfl | hx
    · exact ⟨0, rfl⟩
    · obtain ⟨k, hk⟩ := h.ahead.exists_iterate hx
      exact ⟨k + 1, hk⟩
  · rintro ⟨k, rfl⟩
    induction k with
    | zero => exact List.mem_cons_self
    | succ k ih =>
      rw [Function.iterate_succ_apply']
      exact h.next_mem ih

end ListHead
