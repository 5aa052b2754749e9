import Mathlib.Data.Finset.Card
import Mathlib.Data.List.Nodup
import Mathlib.Logic.Function.Basic

/-!
# Null-terminated lists

Every place has a pointer to the next one, or the null pointer `none`. `Chain next p as` says that
whoever follows the pointers from `p` meets the places `as`, in this order, and then the null
pointer; so a chain is finite, and it cannot come back to a place (`Chain.nodup`).

`Owns` adds that the places of a chain are exactly those in use. A new place is linked at the
front; any place of the chain can be unlinked, at the front by moving the pointer to it, elsewhere
by redirecting the place before it.
-/

namespace NullTerminated

variable {A : Type*}

/-- From `p` on the pointers lead through `as` to the null pointer. -/
def Chain (next : A → Option A) : Option A → List A → Prop
  | p, []      => p = none
  | p, a :: as => p = some a ∧ Chain next (next a) as

/-- The places met from `p` on, at most `n` of them. -/
def walk (next : A → Option A) : ℕ → Option A → List A
  | 0,     _      => []
  | _ + 1, none   => []
  | n + 1, some a => a :: walk next n (next a)

variable {next next' : A → Option A} {p : Option A} {a b : A} {as bs cs : List A}

@[simp] lemma chain_nil : Chain next p [] ↔ p = none := Iff.rfl

@[simp] lemma chain_cons : Chain next p (a :: as) ↔ p = some a ∧ Chain next (next a) as := Iff.rfl

/-! ### Chains -/

/-- There is one way to follow the pointers. -/
lemma Chain.unique (h : Chain next p as) (h' : Chain next p bs) : as = bs := by
  induction as generalizing p bs with
  | nil =>
    cases bs with
    | nil => rfl
    | cons b bs => simp_all
  | cons a as ih =>
    obtain ⟨rfl, has⟩ := h
    cases bs with
    | nil => simp at h'
    | cons b bs =>
      obtain ⟨hab, hbs⟩ := h'
      cases hab
      rw [ih has hbs]

/-- What comes after a place is a chain again. -/
lemma Chain.of_append_cons (h : Chain next p (as ++ a :: bs)) : Chain next (next a) bs := by
  induction as generalizing p with
  | nil => exact h.2
  | cons b as ih => exact ih h.2

/-- A place that came again would have to be followed by the same places as the first time. -/
theorem Chain.nodup (h : Chain next p as) : as.Nodup := by
  induction as generalizing p with
  | nil => exact List.nodup_nil
  | cons a as ih =>
    refine List.nodup_cons.mpr ⟨?_, ih h.2⟩
    intro ha
    obtain ⟨as₁, as₂, rfl⟩ := List.append_of_mem ha
    have hlen := congrArg List.length (h.2.unique h.2.of_append_cons)
    simp at hlen
    omega

lemma Chain.congr (h : Chain next p as) (heq : ∀ a ∈ as, next' a = next a) :
    Chain next' p as := by
  induction as generalizing p with
  | nil => exact h
  | cons a as ih =>
    rw [List.forall_mem_cons] at heq
    refine ⟨h.1, ?_⟩
    rw [heq.1]
    exact ih h.2 heq.2

/-- The places of a chain, found by walking it. -/
lemma Chain.walk_eq (h : Chain next p as) {n : ℕ} (hn : as.length ≤ n) : walk next n p = as := by
  induction as generalizing p n with
  | nil =>
    cases n with
    | zero => rfl
    | succ n => rw [chain_nil.mp h, walk]
  | cons a as ih =>
    cases n with
    | zero => simp at hn
    | succ n => rw [h.1, walk, ih h.2 (by simpa using hn)]

section Update

variable [DecidableEq A]

lemma Chain.update (h : Chain next p as) (ha : a ∉ as) (q : Option A) :
    Chain (Function.update next a q) p as := by
  apply h.congr
  intro b hb
  exact Function.update_of_ne (ne_of_mem_of_not_mem hb ha) _ _

/-- The place after `b` is passed over. -/
lemma Chain.skip (h : Chain next p (as ++ b :: a :: cs)) :
    Chain (Function.update next b (next a)) p (as ++ b :: cs) := by
  induction as generalizing p with
  | nil =>
    have hb : b ∉ a :: cs := (List.nodup_cons.mp h.nodup).1
    refine ⟨h.1, ?_⟩
    rw [Function.update_self]
    exact h.2.2.update (fun hmem => hb (List.mem_cons_of_mem a hmem)) _
  | cons c as ih =>
    have hc : c ∉ as ++ b :: a :: cs := (List.nodup_cons.mp h.nodup).1
    have hne : c ≠ b := by
      rintro rfl
      simp at hc
    refine ⟨h.1, ?_⟩
    rw [Function.update_of_ne hne]
    exact ih h.2

end Update

/-! ### Chains of all places in use -/

/-- The places in use form a chain from `p`. -/
structure Owns (next : A → Option A) (p : Option A) (live : Finset A) (as : List A) : Prop where
  chain : Chain next p as
  mem_live : ∀ a, a ∈ live ↔ a ∈ as

variable {live : Finset A}

lemma owns_nil (next : A → Option A) : Owns next none ∅ [] := ⟨rfl, by simp⟩

variable [DecidableEq A]

lemma Owns.card_live (h : Owns next p live as) : live.card = as.length := by
  have hlive : live = as.toFinset := by
    ext a
    rw [h.mem_live, List.mem_toFinset]
  rw [hlive, List.toFinset_card_of_nodup h.chain.nodup]

/-- A new place is linked at the front. -/
lemma Owns.cons (h : Owns next p live as) (ha : a ∉ live) :
    Owns (Function.update next a p) (some a) (insert a live) (a :: as) where
  chain := by
    refine ⟨rfl, ?_⟩
    rw [Function.update_self]
    exact h.chain.update (fun hmem => ha ((h.mem_live a).mpr hmem)) p
  mem_live b := by simp [h.mem_live]

lemma Owns.mem_erase (h : Owns next p live bs) (hperm : bs.Perm (a :: as)) (b : A) :
    b ∈ live.erase a ↔ b ∈ as := by
  have ha : a ∉ as := (List.nodup_cons.mp (hperm.nodup h.chain.nodup)).1
  rw [Finset.mem_erase, h.mem_live, hperm.mem_iff, List.mem_cons]
  constructor
  · rintro ⟨hne, hb⟩
    exact hb.resolve_left hne
  · exact fun hb => ⟨ne_of_mem_of_not_mem hb ha, Or.inr hb⟩

/-- The first place is unlinked. -/
lemma Owns.unlink_first (h : Owns next p live (a :: as)) :
    Owns next (next a) (live.erase a) as where
  chain := h.chain.2
  mem_live b := h.mem_erase (List.Perm.refl _) b

/-- The place after `b` is unlinked. -/
lemma Owns.unlink_after (h : Owns next p live (as ++ b :: a :: cs)) :
    Owns (Function.update next b (next a)) p (live.erase a) (as ++ b :: cs) where
  chain := h.chain.skip
  mem_live c := by
    have hperm : ((as ++ [b]) ++ a :: cs).Perm (a :: ((as ++ [b]) ++ cs)) := List.perm_middle
    apply h.mem_erase
    simpa using hperm

end NullTerminated
