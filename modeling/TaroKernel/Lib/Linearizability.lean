import TaroKernel.Lib.Machine

/-!
# Linearizability

Operations of several callers overlap in time: each has a moment it starts and a moment it
finishes. They are linearizable with respect to a machine when some sequential run of it, on the
same operations and in an order that keeps one operation before another if it finished before the
other started, gives the same answers and ends with the same view of the state.

`CompletionOrder` is the invariant for implementations that take effect when they finish: the
order in which operations finish is then such an order.
-/

namespace Linearizability

open Machine

variable {σ ι ω α β : Type*}

/-- An operation that has finished: what was asked and answered, and when. -/
structure Completed (ι ω : Type*) where
  input : ι
  output : ω
  start : ℕ
  finish : ℕ

/-- One after the other from `s`, the operations answer as recorded. Answers are compared by what
`answer` keeps of them. -/
def Replays (next : σ → ι → ω × σ) (answer : ω → α) (s : σ) : List (Completed ι ω) → Prop
  | [] => True
  | c :: cs =>
    answer (next s c.input).1 = answer c.output ∧ Replays next answer (next s c.input).2 cs

/-- Some order of the operations respects real time, replays their answers and ends in the
view `b`. -/
def Linearizable (next : σ → ι → ω × σ) (answer : ω → α) (view : σ → β) (s₀ : σ)
    (cs : List (Completed ι ω)) (b : β) : Prop :=
  ∃ order : List (Completed ι ω), order.Perm cs ∧
    order.Pairwise (fun c d => ¬ d.finish < c.start) ∧
    Replays next answer s₀ order ∧ view (final next s₀ (order.map Completed.input)) = b

variable {next : σ → ι → ω × σ} {s₀ s : σ} {cs ds : List (Completed ι ω)} {now : ℕ}

instance instDecidableReplays [DecidableEq α] (next : σ → ι → ω × σ) (answer : ω → α) :
    ∀ (s : σ) (cs : List (Completed ι ω)), Decidable (Replays next answer s cs)
  | _, [] => isTrue trivial
  | s, c :: cs =>
    have := instDecidableReplays next answer (next s c.input).2 cs
    inferInstanceAs (Decidable (_ ∧ _))

lemma replays_append {answer : ω → α} :
    Replays next answer s (cs ++ ds) ↔ Replays next answer s cs ∧
      Replays next answer (final next s (cs.map Completed.input)) ds := by
  induction cs generalizing s with
  | nil => simp [Replays]
  | cons c cs ih => simp [Replays, ih, and_assoc]

lemma Replays.answer (answer : ω → α) (h : Replays next id s cs) : Replays next answer s cs := by
  induction cs generalizing s with
  | nil => exact trivial
  | cons c cs ih => exact ⟨congrArg answer h.1, ih h.2⟩

/-- Up to the moment `now`, the operations replay in the order in which they finished, from `s₀`
to `s`. -/
structure CompletionOrder (next : σ → ι → ω × σ) (s₀ : σ) (cs : List (Completed ι ω)) (s : σ)
    (now : ℕ) : Prop where
  replays : Replays next id s₀ cs
  final_eq : final next s₀ (cs.map Completed.input) = s
  ordered : cs.Pairwise fun c d => c.start ≤ d.finish
  started : ∀ c ∈ cs, c.start ≤ now

lemma CompletionOrder.nil : CompletionOrder next s₀ [] s₀ now :=
  ⟨trivial, rfl, List.Pairwise.nil, by simp⟩

lemma CompletionOrder.tick (h : CompletionOrder next s₀ cs s now) :
    CompletionOrder next s₀ cs s (now + 1) :=
  ⟨h.replays, h.final_eq, h.ordered, fun c hc => Nat.le_succ_of_le (h.started c hc)⟩

/-- An operation finishes now, with the answer and the effect it would have alone. -/
lemma CompletionOrder.complete (h : CompletionOrder next s₀ cs s now) {i : ι} {start : ℕ} {r : ω}
    {s' : σ} (hnext : next s i = (r, s')) (hstart : start ≤ now) :
    CompletionOrder next s₀ (cs ++ [⟨i, r, start, now⟩]) s' (now + 1) where
  replays := by
    refine replays_append.mpr ⟨h.replays, ?_, trivial⟩
    rw [h.final_eq, hnext]
  final_eq := by
    rw [List.map_append, final_append, h.final_eq]
    exact congrArg Prod.snd hnext
  ordered := by
    refine List.pairwise_append.mpr ⟨h.ordered, List.pairwise_singleton _ _, ?_⟩
    intro c hc d hd
    obtain rfl := List.mem_singleton.mp hd
    exact h.started c hc
  started := by
    intro c hc
    rcases List.mem_append.mp hc with hc | hc
    · exact Nat.le_succ_of_le (h.started c hc)
    · obtain rfl := List.mem_singleton.mp hc
      exact Nat.le_succ_of_le hstart

/-- It does not matter if an operation finishes later than it might have. -/
lemma CompletionOrder.postpone {c : Completed ι ω} {finish : ℕ}
    (h : CompletionOrder next s₀ (cs ++ c :: ds) s now) (hle : c.finish ≤ finish) :
    CompletionOrder next s₀ (cs ++ { c with finish := finish } :: ds) s now where
  replays := by
    have hreplays := replays_append.mp h.replays
    exact replays_append.mpr hreplays
  final_eq := by
    have hfinal := h.final_eq
    simp only [List.map_append, List.map_cons] at hfinal ⊢
    exact hfinal
  ordered := by
    have hordered := h.ordered
    rw [List.pairwise_append, List.pairwise_cons] at hordered ⊢
    obtain ⟨hcs, ⟨hc, hds⟩, hcross⟩ := hordered
    refine ⟨hcs, ⟨hc, hds⟩, ?_⟩
    intro a ha b hb
    rcases List.mem_cons.mp hb with rfl | hb
    · exact Nat.le_trans (hcross a ha c List.mem_cons_self) hle
    · exact hcross a ha b (List.mem_cons_of_mem _ hb)
  started := by
    intro a ha
    rcases List.mem_append.mp ha with ha | ha
    · exact h.started a (List.mem_append_left _ ha)
    · rcases List.mem_cons.mp ha with rfl | ha
      · exact h.started c (by simp)
      · exact h.started a (by simp [ha])

theorem CompletionOrder.linearizable (answer : ω → α) (view : σ → β)
    (h : CompletionOrder next s₀ cs s now) : Linearizable next answer view s₀ cs (view s) := by
  refine ⟨cs, .rfl, ?_, h.replays.answer answer, congrArg view h.final_eq⟩
  exact h.ordered.imp fun hle => Nat.not_lt.mpr hle

end Linearizability
