import Mathlib.Data.List.Basic
import Mathlib.Data.List.Nodup

/-!
# Sequences of keyed records

Records of type `α` carry a key `key x`. A sequence of them is searched from its front, and the
operations act on the first record that has the key looked for, as a search loop over a linked
list does. Records are added at the end.

Nothing here assumes that keys are distinct; the lemmas that need it say so.
-/

namespace Keyed

variable {α κ : Type*} [DecidableEq κ] (key : α → κ)

/-- The first record with key `k`. -/
def lookup (k : κ) (l : List α) : Option α :=
  l.find? fun x => key x = k

/-- Unlink the first record with key `k`. -/
def unlink (k : κ) (l : List α) : List α :=
  l.eraseP fun x => key x = k

/-- Rewrite the first record with key `k` in place. -/
def modify (k : κ) (f : α → α) : List α → List α
  | [] => []
  | x :: l => if key x = k then f x :: l else x :: modify k f l

variable {key} {k k' : κ} {l : List α} {x y : α} {f g : α → α}

/-! ### Looking a key up -/

@[simp] lemma lookup_nil : lookup key k [] = none := rfl

@[simp] lemma lookup_cons_self : lookup key (key x) (x :: l) = some x := by
  simp [lookup]

lemma lookup_cons_of_ne (h : key x ≠ k) : lookup key k (x :: l) = lookup key k l := by
  simp [lookup, h]

lemma lookup_eq_none_iff : lookup key k l = none ↔ k ∉ l.map key := by
  simp [lookup]

lemma mem_of_lookup (h : lookup key k l = some x) : x ∈ l := List.mem_of_find?_eq_some h

lemma key_of_lookup (h : lookup key k l = some x) : key x = k := by
  simpa using List.find?_some h

lemma mem_keys_of_lookup (h : lookup key k l = some x) : k ∈ l.map key :=
  List.mem_map.mpr ⟨x, mem_of_lookup h, key_of_lookup h⟩

lemma exists_lookup_of_mem (h : k ∈ l.map key) : ∃ x, lookup key k l = some x := by
  rw [← Option.isSome_iff_exists, ← Option.ne_none_iff_isSome]
  exact fun hnone => lookup_eq_none_iff.mp hnone h

/-- The record that is found, and what stands before and after it. -/
lemma exists_split_of_lookup (h : lookup key k l = some x) :
    ∃ l₁ l₂, l = l₁ ++ x :: l₂ ∧ k ∉ l₁.map key := by
  obtain ⟨_, l₁, l₂, rfl, hfirst⟩ := List.find?_eq_some_iff_append.mp h
  refine ⟨l₁, l₂, rfl, ?_⟩
  intro hk
  obtain ⟨y, hy, hyk⟩ := List.mem_map.mp hk
  simpa [hyk] using hfirst y hy

/-- With distinct keys nothing after the record that is found has its key either. -/
lemma exists_split_of_lookup_nodup (hnd : (l.map key).Nodup) (h : lookup key k l = some x) :
    ∃ l₁ l₂, l = l₁ ++ x :: l₂ ∧ k ∉ l₁.map key ∧ k ∉ l₂.map key := by
  obtain ⟨l₁, l₂, rfl, h₁⟩ := exists_split_of_lookup h
  refine ⟨l₁, l₂, rfl, h₁, ?_⟩
  rw [List.map_append, List.map_cons, key_of_lookup h] at hnd
  exact (List.nodup_cons.mp hnd.of_append_right).1

/-- With distinct keys a record is found under its own key. -/
lemma lookup_of_mem (hnd : (l.map key).Nodup) (hx : x ∈ l) : lookup key (key x) l = some x := by
  obtain ⟨y, hy⟩ := exists_lookup_of_mem (List.mem_map_of_mem (f := key) hx)
  rw [hy, List.inj_on_of_nodup_map hnd (mem_of_lookup hy) hx (key_of_lookup hy)]

/-! ### Unlinking -/

@[simp] lemma unlink_nil : unlink key k [] = [] := rfl

@[simp] lemma unlink_cons_self : unlink key (key x) (x :: l) = l := by
  simp [unlink]

lemma unlink_cons_of_ne (h : key x ≠ k) : unlink key k (x :: l) = x :: unlink key k l := by
  simp [unlink, h]

lemma map_key_unlink : (unlink key k l).map key = (l.map key).erase k := by
  induction l with
  | nil => rfl
  | cons x l ih =>
    by_cases h : key x = k
    · subst h
      simp
    · rw [unlink_cons_of_ne h, List.map_cons, ih, List.map_cons,
        List.erase_cons_tail (by simpa using h)]

lemma mem_of_mem_unlink (h : x ∈ unlink key k l) : x ∈ l := List.mem_of_mem_eraseP h

lemma unlink_of_not_mem (h : k ∉ l.map key) : unlink key k l = l := by
  apply List.eraseP_of_forall_not
  intro x hx hk
  exact h (List.mem_map.mpr ⟨x, hx, of_decide_eq_true hk⟩)

lemma unlink_append_cons {l₁ l₂ : List α} (h : k ∉ l₁.map key) (hx : key x = k) :
    unlink key k (l₁ ++ x :: l₂) = l₁ ++ l₂ := by
  induction l₁ with
  | nil =>
    subst hx
    exact unlink_cons_self
  | cons y l₁ ih =>
    simp only [List.map_cons, List.mem_cons, not_or] at h
    rw [List.cons_append, unlink_cons_of_ne (Ne.symm h.1), ih h.2, List.cons_append]

/-- Unlinking the record appended last undoes the append, when its key was new. -/
lemma unlink_append_singleton_of_eq (hx : key x = k) (h : k ∉ l.map key) :
    unlink key k (l ++ [x]) = l := by
  rw [unlink_append_cons h hx, List.append_nil]

lemma unlink_append_singleton_of_ne (h : key x ≠ k) :
    unlink key k (l ++ [x]) = unlink key k l ++ [x] := by
  induction l with
  | nil => rw [List.nil_append, unlink_cons_of_ne h]; rfl
  | cons y l ih =>
    by_cases hy : key y = k
    · subst hy
      simp
    · rw [List.cons_append, unlink_cons_of_ne hy, unlink_cons_of_ne hy, ih, List.cons_append]

lemma unlink_comm : unlink key k (unlink key k' l) = unlink key k' (unlink key k l) := by
  by_cases h : k = k'
  · rw [h]
  · apply List.eraseP_comm
    intro x _
    by_cases hx : key x = k
    · exact Or.inl (by simpa [hx] using h)
    · exact Or.inr (by simpa using hx)

/-! ### Rewriting in place -/

@[simp] lemma modify_nil : modify key k f [] = [] := rfl

@[simp] lemma modify_cons_self : modify key (key x) f (x :: l) = f x :: l := by
  simp [modify]

lemma modify_cons_of_ne (h : key x ≠ k) : modify key k f (x :: l) = x :: modify key k f l := by
  simp [modify, h]

lemma modify_append_cons {l₁ l₂ : List α} (h : k ∉ l₁.map key) (hx : key x = k) :
    modify key k f (l₁ ++ x :: l₂) = l₁ ++ f x :: l₂ := by
  induction l₁ with
  | nil =>
    subst hx
    exact modify_cons_self
  | cons y l₁ ih =>
    simp only [List.map_cons, List.mem_cons, not_or] at h
    rw [List.cons_append, modify_cons_of_ne (Ne.symm h.1), ih h.2, List.cons_append]

lemma map_key_modify (hf : ∀ x, key (f x) = key x) :
    (modify key k f l).map key = l.map key := by
  induction l with
  | nil => rfl
  | cons x l ih =>
    by_cases h : key x = k
    · subst h
      simp [hf]
    · rw [modify_cons_of_ne h, List.map_cons, ih, List.map_cons]

lemma modify_append_singleton_of_ne (h : key x ≠ k) :
    modify key k f (l ++ [x]) = modify key k f l ++ [x] := by
  induction l with
  | nil => rw [List.nil_append, modify_cons_of_ne h]; rfl
  | cons y l ih =>
    by_cases hy : key y = k
    · subst hy
      simp
    · rw [List.cons_append, modify_cons_of_ne hy, modify_cons_of_ne hy, ih, List.cons_append]

lemma modify_comm (hf : ∀ x, key (f x) = key x) (hg : ∀ x, key (g x) = key x) (hne : k ≠ k') :
    modify key k f (modify key k' g l) = modify key k' g (modify key k f l) := by
  induction l with
  | nil => rfl
  | cons x l ih =>
    by_cases h : key x = k
    · subst h
      rw [modify_cons_of_ne hne, modify_cons_self, modify_cons_self,
        modify_cons_of_ne (by rwa [hf x])]
    · by_cases h' : key x = k'
      · subst h'
        rw [modify_cons_self, modify_cons_of_ne h, modify_cons_self,
          modify_cons_of_ne (by rwa [hg x])]
      · rw [modify_cons_of_ne h', modify_cons_of_ne h, modify_cons_of_ne h, modify_cons_of_ne h',
          ih]

/-- A rewrite changes nothing exactly when it fixes the record it finds. -/
lemma modify_eq_self_iff : modify key k f l = l ↔ ∀ x, lookup key k l = some x → f x = x := by
  induction l with
  | nil => simp
  | cons x l ih =>
    by_cases h : key x = k
    · subst h
      simp
    · rw [modify_cons_of_ne h, lookup_cons_of_ne h, ← ih]
      simp

lemma modify_of_not_mem (h : k ∉ l.map key) : modify key k f l = l := by
  apply modify_eq_self_iff.mpr
  intro x hx
  exact absurd (mem_keys_of_lookup hx) h

lemma mem_modify (h : y ∈ modify key k f l) : y ∈ l ∨ ∃ x, lookup key k l = some x ∧ y = f x := by
  induction l with
  | nil => simp at h
  | cons x l ih =>
    by_cases hx : key x = k
    · subst hx
      rw [modify_cons_self] at h
      rcases List.mem_cons.mp h with rfl | h
      · exact Or.inr ⟨x, lookup_cons_self, rfl⟩
      · exact Or.inl (List.mem_cons_of_mem _ h)
    · rw [modify_cons_of_ne hx] at h
      rw [lookup_cons_of_ne hx]
      rcases List.mem_cons.mp h with rfl | h
      · exact Or.inl List.mem_cons_self
      · exact (ih h).imp_left (List.mem_cons_of_mem _)

lemma mem_modify_self (h : lookup key k l = some x) : f x ∈ modify key k f l := by
  induction l with
  | nil => simp at h
  | cons y l ih =>
    by_cases hy : key y = k
    · subst hy
      rw [lookup_cons_self] at h
      obtain rfl := Option.some.inj h
      simp
    · rw [lookup_cons_of_ne hy] at h
      rw [modify_cons_of_ne hy]
      exact List.mem_cons_of_mem _ (ih h)

lemma mem_modify_of_ne (h : key x ≠ k) (hx : x ∈ l) : x ∈ modify key k f l := by
  induction l with
  | nil => simp at hx
  | cons y l ih =>
    by_cases hy : key y = k
    · subst hy
      rw [modify_cons_self]
      rcases List.mem_cons.mp hx with rfl | hx
      · exact absurd rfl h
      · exact List.mem_cons_of_mem _ hx
    · rw [modify_cons_of_ne hy]
      rcases List.mem_cons.mp hx with rfl | hx
      · exact List.mem_cons_self
      · exact List.mem_cons_of_mem _ (ih hx)

/-- The records after a rewrite, when keys are distinct: the others, and the rewritten one. -/
lemma mem_modify_iff (hf : ∀ x, key (f x) = key x) (hnd : (l.map key).Nodup) :
    y ∈ modify key k f l ↔ (y ∈ l ∧ key y ≠ k) ∨ ∃ x, lookup key k l = some x ∧ y = f x := by
  constructor
  · intro hy
    rcases mem_modify hy with hyl | hx
    · by_cases hk : key y = k
      · have hfind : lookup key k l = some y := hk ▸ lookup_of_mem hnd hyl
        have hnd' : ((modify key k f l).map key).Nodup := by rwa [map_key_modify hf]
        exact Or.inr ⟨y, hfind,
          List.inj_on_of_nodup_map hnd' hy (mem_modify_self hfind) (hf y).symm⟩
      · exact Or.inl ⟨hyl, hk⟩
    · exact Or.inr hx
  · rintro (⟨hy, hk⟩ | ⟨x, hx, rfl⟩)
    · exact mem_modify_of_ne hk hy
    · exact mem_modify_self hx

/-- Unlinking a record forgets what was written into it. -/
lemma unlink_modify_self (hf : ∀ x, key (f x) = key x) :
    unlink key k (modify key k f l) = unlink key k l := by
  induction l with
  | nil => rfl
  | cons x l ih =>
    by_cases h : key x = k
    · subst h
      rw [modify_cons_self, unlink_cons_self, ← hf x, unlink_cons_self]
    · rw [modify_cons_of_ne h, unlink_cons_of_ne h, unlink_cons_of_ne h, ih]

lemma unlink_modify_of_ne (hf : ∀ x, key (f x) = key x) (hne : k ≠ k') :
    unlink key k (modify key k' f l) = modify key k' f (unlink key k l) := by
  induction l with
  | nil => rfl
  | cons x l ih =>
    by_cases h : key x = k
    · subst h
      rw [modify_cons_of_ne hne, unlink_cons_self, unlink_cons_self]
    · by_cases h' : key x = k'
      · subst h'
        rw [modify_cons_self, unlink_cons_of_ne h, modify_cons_self,
          unlink_cons_of_ne (by rwa [hf x])]
      · rw [modify_cons_of_ne h', unlink_cons_of_ne h, unlink_cons_of_ne h, modify_cons_of_ne h',
          ih]

/-! ### The other way round -/

/-- Turned round, a sequence with distinct keys is unlinked from at the same record. -/
lemma unlink_reverse (hnd : (l.map key).Nodup) :
    unlink key k l.reverse = (unlink key k l).reverse := by
  cases hx : lookup key k l with
  | none =>
    have hk := lookup_eq_none_iff.mp hx
    rw [unlink_of_not_mem hk, unlink_of_not_mem (by simpa using hk)]
  | some x =>
    obtain ⟨l₁, l₂, rfl, h₁, h₂⟩ := exists_split_of_lookup_nodup hnd hx
    have hrev : (l₁ ++ x :: l₂).reverse = l₂.reverse ++ x :: l₁.reverse := by simp
    rw [hrev, unlink_append_cons (by simpa using h₂) (key_of_lookup hx),
      unlink_append_cons h₁ (key_of_lookup hx), List.reverse_append]

/-- Turned round, a sequence with distinct keys is rewritten at the same record. -/
lemma modify_reverse (hnd : (l.map key).Nodup) :
    modify key k f l.reverse = (modify key k f l).reverse := by
  cases hx : lookup key k l with
  | none =>
    have hk := lookup_eq_none_iff.mp hx
    rw [modify_of_not_mem hk, modify_of_not_mem (by simpa using hk)]
  | some x =>
    obtain ⟨l₁, l₂, rfl, h₁, h₂⟩ := exists_split_of_lookup_nodup hnd hx
    have hrev : (l₁ ++ x :: l₂).reverse = l₂.reverse ++ x :: l₁.reverse := by simp
    rw [hrev, modify_append_cons (by simpa using h₂) (key_of_lookup hx),
      modify_append_cons h₁ (key_of_lookup hx)]
    simp

end Keyed
