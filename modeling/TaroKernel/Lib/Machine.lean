import Mathlib.Data.List.Induction

/-!
# Machines with outputs

A deterministic machine is a function `next : σ → ι → ω × σ`: from a state and an input it gives
an output and the state after. `steps` lists everything that happened along a sequence of
inputs and `final` is the state it ends in.

The rules below carry a property of one step over to whole runs. `history_induction` is the rule
for properties that speak about the past of a run, `forall_post_iff` the one for an invariant that
survives a step exactly under some condition on that step, `simulation` the one for two machines
that do the same.
-/

namespace Machine

variable {σ ι ω : Type*}

/-- One step of a run: where it started, what came in, what went out, where it ended. -/
structure Step (σ ι ω : Type*) where
  pre : σ
  input : ι
  output : ω
  post : σ

/-- The step a machine takes from `s` on input `i`. -/
def stepAt (next : σ → ι → ω × σ) (s : σ) (i : ι) : Step σ ι ω :=
  ⟨s, i, (next s i).1, (next s i).2⟩

/-- All steps of the run on `is`, in the order they are taken. -/
def steps (next : σ → ι → ω × σ) (s : σ) : List ι → List (Step σ ι ω)
  | [] => []
  | i :: is => stepAt next s i :: steps next (next s i).2 is

/-- The state the run on `is` ends in. -/
def final (next : σ → ι → ω × σ) (s : σ) : List ι → σ
  | [] => s
  | i :: is => final next (next s i).2 is

/-- Two machines side by side on the same inputs. -/
def both {σ' ω' : Type*} (next : σ → ι → ω × σ) (next' : σ' → ι → ω' × σ') (s : σ × σ') (i : ι) :
    (ω × ω') × (σ × σ') :=
  (((next s.1 i).1, (next' s.2 i).1), ((next s.1 i).2, (next' s.2 i).2))

/-- Some sequence of inputs leads from `s₀` to `s`. -/
def Reachable (next : σ → ι → ω × σ) (s₀ s : σ) : Prop :=
  ∃ is, final next s₀ is = s

variable {next : σ → ι → ω × σ}

@[simp] lemma stepAt_pre (s : σ) (i : ι) : (stepAt next s i).pre = s := rfl

@[simp] lemma stepAt_input (s : σ) (i : ι) : (stepAt next s i).input = i := rfl

@[simp] lemma stepAt_output (s : σ) (i : ι) : (stepAt next s i).output = (next s i).1 := rfl

@[simp] lemma stepAt_post (s : σ) (i : ι) : (stepAt next s i).post = (next s i).2 := rfl

@[simp] lemma steps_nil (s : σ) : steps next s [] = [] := rfl

@[simp] lemma steps_cons (s : σ) (i : ι) (is : List ι) :
    steps next s (i :: is) = stepAt next s i :: steps next (next s i).2 is := rfl

@[simp] lemma final_nil (s : σ) : final next s [] = s := rfl

@[simp] lemma final_cons (s : σ) (i : ι) (is : List ι) :
    final next s (i :: is) = final next (next s i).2 is := rfl

lemma final_append (s : σ) (is js : List ι) :
    final next s (is ++ js) = final next (final next s is) js := by
  induction is generalizing s with
  | nil => rfl
  | cons i is ih => exact ih (next s i).2

lemma steps_append (s : σ) (is js : List ι) :
    steps next s (is ++ js) = steps next s is ++ steps next (final next s is) js := by
  induction is generalizing s with
  | nil => rfl
  | cons i is ih =>
    simp only [List.cons_append, steps_cons, final_cons]
    rw [ih]

lemma Reachable.refl (s : σ) : Reachable next s s := ⟨[], rfl⟩

lemma Reachable.step {s₀ s : σ} (h : Reachable next s₀ s) (i : ι) :
    Reachable next s₀ (next s i).2 := by
  obtain ⟨is, rfl⟩ := h
  exact ⟨is ++ [i], by rw [final_append]; rfl⟩

lemma Reachable.head {s s' : σ} {i : ι} (h : Reachable next (next s i).2 s') :
    Reachable next s s' := by
  obtain ⟨is, rfl⟩ := h
  exact ⟨i :: is, rfl⟩

lemma Reachable.trans {s s' s'' : σ} (h : Reachable next s s') (h' : Reachable next s' s'') :
    Reachable next s s'' := by
  obtain ⟨is, rfl⟩ := h
  obtain ⟨is', rfl⟩ := h'
  exact ⟨is ++ is', final_append ..⟩

/-- A property of the past of a run: it holds at the start and every further step extends it. -/
theorem history_induction {P : List (Step σ ι ω) → σ → Prop} {s₀ : σ}
    (nil : P [] s₀)
    (snoc : ∀ h s i, P h s → P (h ++ [stepAt next s i]) (next s i).2) (is : List ι) :
    P (steps next s₀ is) (final next s₀ is) := by
  -- peel the run from its end, so that the hypothesis is about the past
  induction is using List.reverseRecOn with
  | nil => exact nil
  | append_singleton is i ih =>
    rw [steps_append, final_append]
    exact snoc _ _ i ih

/-- An invariant that every step keeps holds in every reachable state. -/
theorem Reachable.invariant {P : σ → Prop} {s₀ s : σ} (h₀ : P s₀)
    (keep : ∀ s i, P s → P (next s i).2) (h : Reachable next s₀ s) : P s := by
  obtain ⟨is, rfl⟩ := h
  exact history_induction (P := fun _ s => P s) h₀ (fun _ s i hs => keep s i hs) is

/-- An invariant that is kept by every step of a run holds wherever the run passes. -/
theorem steps_invariant {P : σ → Prop} {Q : σ → ι → Prop}
    (keep : ∀ s i, P s → Q s i → P (next s i).2) {s : σ} {is : List ι} (h₀ : P s)
    (h : ∀ st ∈ steps next s is, Q st.pre st.input) :
    P (final next s is) ∧ ∀ st ∈ steps next s is, P st.pre ∧ st = stepAt next st.pre st.input := by
  induction is generalizing s with
  | nil => exact ⟨h₀, fun st hst => nomatch hst⟩
  | cons i is ih =>
    rw [steps_cons, List.forall_mem_cons] at h
    obtain ⟨hfinal, hrest⟩ := ih (keep s i h₀ h.1) h.2
    refine ⟨hfinal, ?_⟩
    rw [steps_cons, List.forall_mem_cons]
    exact ⟨⟨h₀, rfl⟩, hrest⟩

/-- A step of a run is taken from the state that the inputs before it lead to. -/
lemma exists_split_of_mem_steps {s : σ} {is : List ι} {st : Step σ ι ω}
    (h : st ∈ steps next s is) :
    ∃ is₁ is₂, is = is₁ ++ st.input :: is₂ ∧ st = stepAt next (final next s is₁) st.input := by
  induction is generalizing s with
  | nil => cases h
  | cons i is ih =>
    rcases List.mem_cons.mp h with rfl | h
    · exact ⟨[], is, rfl, rfl⟩
    · obtain ⟨is₁, is₂, rfl, hst⟩ := ih h
      exact ⟨i :: is₁, is₂, rfl, hst⟩

lemma reachable_of_mem_steps {s : σ} {is : List ι} {st : Step σ ι ω} (h : st ∈ steps next s is) :
    Reachable next s st.pre ∧ st = stepAt next st.pre st.input := by
  obtain ⟨is₁, is₂, _, hst⟩ := exists_split_of_mem_steps h
  have hpre : st.pre = final next s is₁ := congrArg Step.pre hst
  exact ⟨⟨is₁, hpre.symm⟩, by rw [hpre]; exact hst⟩

/-- Let `Inv` be kept by every step, and let a step from a good state lead to a good state exactly
when `Cond` holds of it. Then the states along a run are all good exactly when `Cond` holds of all
its steps: the first step that misses it is the one that leaves the good states. -/
theorem forall_post_iff (Inv : σ → Prop) {Good : σ → Prop} {Cond : σ → ι → Prop}
    (keep : ∀ s i, Inv s → Inv (next s i).2)
    (step : ∀ s i, Inv s → Good s → (Good (next s i).2 ↔ Cond s i))
    (s : σ) (is : List ι) (hInv : Inv s) (hGood : Good s) :
    (∀ st ∈ steps next s is, Good st.post) ↔
      ∀ st ∈ steps next s is, Cond st.pre st.input := by
  induction is generalizing s with
  | nil => simp
  | cons i is ih =>
    simp only [steps_cons, List.forall_mem_cons, stepAt_post, stepAt_pre, stepAt_input]
    constructor
    · rintro ⟨hpost, hrest⟩
      exact ⟨(step s i hInv hGood).mp hpost, (ih _ (keep s i hInv) hpost).mp hrest⟩
    · rintro ⟨hcond, hrest⟩
      have hpost := (step s i hInv hGood).mpr hcond
      exact ⟨hpost, (ih _ (keep s i hInv) hpost).mpr hrest⟩

/-- Simulation: if related states stay related and answer alike in the steps a run makes, whole runs
answer alike and end in related states. -/
theorem simulation {σ' ι' ω' : Type*} {next' : σ' → ι' → ω' × σ'} (R : σ → σ' → Prop) (f : ι → ι')
    (g : ω' → ω) {Q : σ → ι → Prop}
    (step : ∀ s s' i, R s s' → Q s i →
      (next s i).1 = g (next' s' (f i)).1 ∧ R (next s i).2 (next' s' (f i)).2)
    {s : σ} {s' : σ'} (h : R s s') {is : List ι}
    (hQ : ∀ st ∈ steps next s is, Q st.pre st.input) :
    (steps next s is).map Step.output = (steps next' s' (is.map f)).map (fun st => g st.output) ∧
      R (final next s is) (final next' s' (is.map f)) := by
  induction is generalizing s s' with
  | nil => exact ⟨rfl, h⟩
  | cons i is ih =>
    rw [steps_cons, List.forall_mem_cons] at hQ
    obtain ⟨hout, hnext⟩ := step s s' i h hQ.1
    obtain ⟨houts, hfinal⟩ := ih hnext hQ.2
    refine ⟨?_, hfinal⟩
    simp only [steps_cons, List.map_cons, stepAt_output, hout, houts]

end Machine
