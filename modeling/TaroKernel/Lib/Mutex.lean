import Mathlib.Data.List.Nodup
import Mathlib.Logic.Function.Basic
import TaroKernel.Lib.Linearizability

/-!
# Calls that share a state under one mutex

The code of a call is cut into single actions on the shared state, with `lock` and `unlock` among
them. Any number of threads run such code, and between any two actions of one of them the others
may take theirs.

A `Contract` says what the calls do one at a time on an abstract state, what the shared state has
to do with the abstract one while nobody holds the mutex, and what an action with and without the
mutex is allowed to do. Code that keeps the contract takes effect all at once when it gets the
mutex: the completed calls are linearizable, whatever the interleaving. No call blocks the others
for good either, and all actions stay within what they are allowed.
-/

namespace Mutex

open Linearizability Machine

/-! ### Code -/

/-- The code of one thread. An action that yields `none` cannot be taken. -/
inductive Prog (σ ω : Type) : Type 1
  | ret (r : ω)
  | act {β : Type} (x : σ → Option (β × σ)) (k : β → Prog σ ω)
  | lock (k : Prog σ ω)
  | unlock (k : Prog σ ω)

variable {σ α β γ : Type}

/-- Run one piece of code and then another. -/
def Prog.bind : Prog σ α → (α → Prog σ β) → Prog σ β
  | .ret a, f => f a
  | .act x k, f => .act x fun b => (k b).bind f
  | .lock k, f => .lock (k.bind f)
  | .unlock k, f => .unlock (k.bind f)

instance : Monad (Prog σ) where
  pure := .ret
  bind := .bind

/-- A computation on the shared state that is a single action. -/
def Prog.atomic (x : StateT σ Option β) : Prog σ β := .act x .ret

def Prog.acquire : Prog σ Unit := .lock (.ret ())

def Prog.release : Prog σ Unit := .unlock (.ret ())

/-- The code run by one thread alone, with `lock` and `unlock` as it finds them. -/
def Prog.exec (lock unlock : StateT σ Option Unit) : Prog σ α → StateT σ Option α
  | .ret a => pure a
  | .act x k => do
    let b ← x
    (k b).exec lock unlock
  | .lock k => do
    lock
    k.exec lock unlock
  | .unlock k => do
    unlock
    k.exec lock unlock

section Bind

variable {f : α → Prog σ β}

@[simp] lemma pure_eq_ret (a : α) : (pure a : Prog σ α) = .ret a := rfl

@[simp] lemma ret_bind (a : α) : (Prog.ret a >>= f) = f a := rfl

@[simp] lemma act_bind (x : σ → Option (γ × σ)) (k : γ → Prog σ α) :
    (Prog.act x k >>= f) = .act x fun c => k c >>= f := rfl

@[simp] lemma lock_bind (k : Prog σ α) : (Prog.lock k >>= f) = .lock (k >>= f) := rfl

@[simp] lemma unlock_bind (k : Prog σ α) : (Prog.unlock k >>= f) = .unlock (k >>= f) := rfl

@[simp] lemma atomic_bind (x : StateT σ Option α) : (Prog.atomic x >>= f) = .act x f := rfl

@[simp] lemma acquire_bind (g : Unit → Prog σ β) : (Prog.acquire >>= g) = .lock (g ()) := rfl

@[simp] lemma release_bind (g : Unit → Prog σ β) : (Prog.release >>= g) = .unlock (g ()) := rfl

lemma bind_bind (p : Prog σ α) (f : α → Prog σ β) (g : β → Prog σ γ) :
    (p >>= f) >>= g = p >>= fun a => f a >>= g := by
  induction p with
  | ret a => rfl
  | act x k ih => simp [ih]
  | lock k ih => simp [ih]
  | unlock k ih => simp [ih]

variable (lock unlock : StateT σ Option Unit)

lemma exec_bind (p : Prog σ α) (f : α → Prog σ β) :
    (p >>= f).exec lock unlock =
      (do let a ← p.exec lock unlock; (f a).exec lock unlock) := by
  induction p with
  | ret a => simp [Prog.exec]
  | act x k ih => simp [Prog.exec, ih]
  | lock k ih => simp [Prog.exec, ih]
  | unlock k ih => simp [Prog.exec, ih]

@[simp] lemma exec_pure (a : α) : (pure a : Prog σ α).exec lock unlock = pure a := rfl

@[simp] lemma exec_atomic (x : StateT σ Option α) :
    (Prog.atomic x).exec lock unlock = x := by
  show (x >>= pure) = x
  exact bind_pure x

@[simp] lemma exec_acquire : (Prog.acquire : Prog σ Unit).exec lock unlock = lock := by
  show (do lock; pure ()) = lock
  simp

@[simp] lemma exec_release : (Prog.release : Prog σ Unit).exec lock unlock = unlock := by
  show (do unlock; pure ()) = unlock
  simp

end Bind

/-! ### Threads -/

variable {ι ω : Type} {τ : Type*}

/-- A call a thread is in the middle of: what was asked, when, and the code that is left. -/
structure Running (σ ι ω : Type) where
  input : ι
  start : ℕ
  code : Prog σ ω

/-- All threads together: the state they share, the thread that holds the mutex, the call each of
them is in the middle of, the time, and the calls completed so far. -/
structure World (σ ι ω : Type) where
  shared : σ
  owner : Option ℕ
  running : ℕ → Option (Running σ ι ω)
  now : ℕ
  completed : List (Completed ι ω)

/-- A thread starts a call, or goes on with it by one action. -/
inductive Move (ι : Type) where
  | call (th : ℕ) (i : ι)
  | run (th : ℕ)

def Move.thread : Move ι → ℕ
  | .call th _ | .run th => th

/-- The thread has come to the point where `code` is left, and the shared state to `s`. -/
def World.goOn (w : World σ ι ω) (th : ℕ) (c : Running σ ι ω) (s : σ) (code : Prog σ ω) :
    World σ ι ω :=
  { w with
    shared := s
    running := Function.update w.running th (some { c with code := code })
    now := w.now + 1 }

/-- The call of the thread returns `r`. -/
def World.return (w : World σ ι ω) (th : ℕ) (c : Running σ ι ω) (r : ω) : World σ ι ω :=
  { w with
    running := Function.update w.running th none
    now := w.now + 1
    completed := w.completed ++ [⟨c.input, r, c.start, w.now⟩] }

/-- The next action of a call. -/
def World.run (w : World σ ι ω) (th : ℕ) (c : Running σ ι ω) : World σ ι ω :=
  match c.code with
  | .ret r    => w.return th c r
  | .act x k  =>
    match x w.shared with
    | none        => w
    | some (b, s) => w.goOn th c s (k b)
  | .lock k   =>
    if w.owner = none then { w.goOn th c w.shared k with owner := some th } else w
  | .unlock k => { w.goOn th c w.shared k with owner := none }

/-- A move that cannot be made now does nothing. -/
def World.next (prog : ι → Prog σ ω) (w : World σ ι ω) : Move ι → Unit × World σ ι ω
  | .call th i =>
    match w.running th with
    | some _ => ((), w)
    | none   => ((), w.goOn th ⟨i, w.now, prog i⟩ w.shared (prog i))
  | .run th =>
    match w.running th with
    | none   => ((), w)
    | some c => ((), w.run th c)

lemma World.running_next (prog : ι → Prog σ ω) (w : World σ ι ω) (m : Move ι) {th : ℕ}
    (hth : th ≠ m.thread) : (w.next prog m).2.running th = w.running th := by
  have hupdate : ∀ c, Function.update w.running m.thread c th = w.running th := by
    intro c
    rw [Function.update_of_ne hth]
  cases m with
  | call th' i =>
    simp only [World.next]
    split
    · rfl
    · exact hupdate _
  | run th' =>
    simp only [World.next, World.run]
    split
    · rfl
    · split
      · exact hupdate _
      · split
        · rfl
        · exact hupdate _
      · split_ifs
        · exact hupdate _
        · rfl
      · exact hupdate _

/-- Nobody has called yet. -/
def World.boot (s : σ) : World σ ι ω := ⟨s, none, fun _ => none, 0, []⟩

/-! ### One thread alone -/

/-- The owner of the mutex if `th` has it, and if nobody has. -/
def ownerOf (th : ℕ) (own : Bool) : Option ℕ := if own then some th else none

/-- With the other threads standing still, `th` can come to `c`. -/
def Comes (prog : ι → Prog σ ω) (w : World σ ι ω) (th : ℕ) (s' : σ) (own' : Bool)
    (c : Running σ ι ω) : Prop :=
  ∃ w', Reachable (World.next prog) w w' ∧ w'.shared = s' ∧ w'.owner = ownerOf th own' ∧
    w'.running th = some c ∧ ∀ th' ≠ th, w'.running th' = w.running th'

lemma Comes.head {prog : ι → Prog σ ω} {w : World σ ι ω} {s' : σ} {own' : Bool}
    {c : Running σ ι ω} (m : Move ι) (h : Comes prog (w.next prog m).2 m.thread s' own' c) :
    Comes prog w m.thread s' own' c := by
  obtain ⟨w', hw', hs', ho', hc', hothers⟩ := h
  refine ⟨w', hw'.head, hs', ho', hc', fun th' hne => ?_⟩
  exact (hothers th' hne).trans (w.running_next prog m hne)

/-- What the calls have to do, and how their code goes about it. -/
structure Contract (σ ι ω : Type) (τ : Type*) where
  /-- The calls, one at a time, on the abstract state. -/
  next : τ → ι → ω × τ
  /-- The abstract state the shared one stands for while nobody holds the mutex. -/
  Rep : σ → τ → Prop
  /-- What the thread that holds the mutex has to put up with. -/
  Unseen : σ → σ → Prop
  /-- What an action of a call without the mutex may do. -/
  Outside : ι → σ → σ → Prop
  /-- What an action of a call with the mutex may do. -/
  Inside : ι → σ → σ → Prop
  unseen_refl : ∀ s, Unseen s s
  unseen_trans : ∀ {s s' s''}, Unseen s s' → Unseen s' s'' → Unseen s s''
  unseen_of_outside : ∀ {i s s'}, Outside i s s' → Unseen s s'
  rep_of_unseen : ∀ {s s' t}, Unseen s s' → Rep s t → Rep s' t

namespace Contract

variable (C : Contract σ ι ω τ)

/-- Code of a call that is done with the mutex and is going to return `r`. -/
def After (i : ι) (r : ω) : Prog σ ω → Prop
  | .ret a => a = r
  | .act x k => ∀ s, ∃ b s', x s = some (b, s') ∧ C.Outside i s s' ∧ After i r (k b)
  | .lock _ | .unlock _ => False

/-- Code of a call that holds the mutex. Whatever the others do in the meantime, it gets to the
point where the shared state stands for `t`, releases the mutex there, and is going to return
`r`. -/
def During (i : ι) (t : τ) (r : ω) : Prog σ ω → σ → Prop
  | .act x k, s => ∀ s₁, C.Unseen s s₁ →
      ∃ b s₂, x s₁ = some (b, s₂) ∧ C.Inside i s₁ s₂ ∧ During i t r (k b) s₂
  | .unlock k, s => C.Rep s t ∧ C.After i r k
  | .ret _, _ | .lock _, _ => False

/-- Code of a call that has not had the mutex. It may return without it, if that is what the call
does from any abstract state. -/
def Before (i : ι) : Prog σ ω → Prop
  | .ret a => ∀ t, C.next t i = (a, t)
  | .act x k => ∀ s, ∃ b s', x s = some (b, s') ∧ C.Outside i s s' ∧ Before i (k b)
  | .lock k => ∀ s t, C.Rep s t → C.During i (C.next t i).2 (C.next t i).1 k s
  | .unlock _ => False

variable {C}

lemma During.of_unseen {i : ι} {t : τ} {r : ω} {p : Prog σ ω} {s s' : σ}
    (h : C.During i t r p s) (hs : C.Unseen s s') : C.During i t r p s' := by
  cases p with
  | ret a => exact h
  | lock k => exact h
  | act x k => exact fun s₁ hs₁ => h s₁ (C.unseen_trans hs hs₁)
  | unlock k => exact ⟨C.rep_of_unseen hs h.1, h.2⟩

/-! ### The invariant -/

/-- A call that is under way has either not had the mutex yet, or it has taken effect: then it is
recorded among the effects `pend` of calls that are still to return. -/
def Placed (C : Contract σ ι ω τ) (w : World σ ι ω) (t : τ) (pend : List (ℕ × Completed ι ω))
    (th : ℕ) : Prop :=
  match w.running th with
  | none   => th ∉ pend.map Prod.fst ∧ w.owner ≠ some th
  | some c => c.start ≤ w.now ∧
      (th ∉ pend.map Prod.fst ∧ w.owner ≠ some th ∧ C.Before c.input c.code ∨
        ∃ e, (th, e) ∈ pend ∧ e.input = c.input ∧ e.start = c.start ∧ e.finish ≤ w.now ∧
          (w.owner = some th → C.During c.input t e.output c.code w.shared) ∧
          (w.owner ≠ some th → C.After c.input e.output c.code))

/-- The calls that have taken effect, in the order in which they did, lead to `t`. Those of them
that have not returned are in `pend`. -/
structure Inv (C : Contract σ ι ω τ) (t₀ : τ) (w : World σ ι ω) (t : τ)
    (effects : List (Completed ι ω)) (pend : List (ℕ × Completed ι ω)) : Prop where
  order : CompletionOrder C.next t₀ effects t w.now
  perm : effects.Perm (w.completed ++ pend.map Prod.snd)
  nodup : (pend.map Prod.fst).Nodup
  placed : ∀ th, C.Placed w t pend th
  free : w.owner = none → C.Rep w.shared t

section Steps

variable {t₀ t t' : τ} {w w' : World σ ι ω} {effects effects' : List (Completed ι ω)}
  {pend pend' : List (ℕ × Completed ι ω)} {th th' : ℕ} {c : Running σ ι ω}

/-- What happens to one thread leaves the others where they are. -/
lemma Placed.frame (h : C.Placed w t pend th') (hrun : w'.running th' = w.running th')
    (hnow : w.now ≤ w'.now) (howner : w'.owner = some th' ↔ w.owner = some th')
    (hpend : ∀ e, (th', e) ∈ pend' ↔ (th', e) ∈ pend)
    (hshared : w.owner = some th' → C.Unseen w.shared w'.shared ∧ t' = t) :
    C.Placed w' t' pend' th' := by
  have hkeys : th' ∈ pend'.map Prod.fst ↔ th' ∈ pend.map Prod.fst := by
    simp only [List.mem_map, Prod.exists, exists_and_right, exists_eq_right, hpend]
  unfold Placed at h ⊢
  rw [hrun]
  cases hc : w.running th' with
  | none =>
    rw [hc] at h
    exact ⟨mt hkeys.mp h.1, mt howner.mp h.2⟩
  | some c =>
    rw [hc] at h
    obtain ⟨hstart, h⟩ := h
    refine ⟨Nat.le_trans hstart hnow, h.imp ?_ ?_⟩
    · rintro ⟨hth, hown, hbefore⟩
      exact ⟨mt hkeys.mp hth, mt howner.mp hown, hbefore⟩
    · rintro ⟨e, he, hi, hst, hfin, hduring, hafter⟩
      refine ⟨e, (hpend e).mpr he, hi, hst, Nat.le_trans hfin hnow, ?_,
        fun ho => hafter (mt howner.mpr ho)⟩
      intro ho
      obtain ⟨hunseen, rfl⟩ := hshared (howner.mp ho)
      exact (hduring (howner.mp ho)).of_unseen hunseen

/-- A thread that moves on by one action without getting or giving up the mutex. -/
lemma Inv.goOn (h : C.Inv t₀ w t effects pend) {s : σ} {code : Prog σ ω}
    (hself : C.Placed (w.goOn th c s code) t pend th)
    (hothers : w.owner ≠ some th → C.Unseen w.shared s) :
    C.Inv t₀ (w.goOn th c s code) t effects pend where
  order := h.order.tick
  perm := h.perm
  nodup := h.nodup
  placed th' := by
    by_cases hth : th' = th
    · exact hth ▸ hself
    · refine (h.placed th').frame ?_ (Nat.le_succ _) Iff.rfl (fun _ => Iff.rfl) ?_
      · exact Function.update_of_ne hth _ _
      · intro ho
        exact ⟨hothers fun ho' => hth (Option.some.inj (ho.symm.trans ho')), rfl⟩
  free ho := by
    have ho' : w.owner = none := ho
    exact C.rep_of_unseen (hothers (by simp [ho'])) (h.free ho')

lemma Inv.call (h : C.Inv t₀ w t effects pend) (hidle : w.running th = none) {i : ι}
    {code : Prog σ ω} (hcode : C.Before i code) :
    C.Inv t₀ (w.goOn th ⟨i, w.now, code⟩ w.shared code) t effects pend := by
  refine h.goOn ?_ fun _ => C.unseen_refl _
  have hself := h.placed th
  rw [Placed, hidle] at hself
  simp only [Placed, World.goOn, Function.update_self]
  exact ⟨Nat.le_succ _, Or.inl ⟨hself.1, hself.2, hcode⟩⟩

/-- Where the call of a thread is. -/
lemma Inv.phase (h : C.Inv t₀ w t effects pend) (hc : w.running th = some c) :
    c.start ≤ w.now ∧
      (th ∉ pend.map Prod.fst ∧ w.owner ≠ some th ∧ C.Before c.input c.code ∨
        ∃ e, (th, e) ∈ pend ∧ e.input = c.input ∧ e.start = c.start ∧ e.finish ≤ w.now ∧
          (w.owner = some th → C.During c.input t e.output c.code w.shared) ∧
          (w.owner ≠ some th → C.After c.input e.output c.code)) := by
  have hself := h.placed th
  rwa [Placed, hc] at hself

/-- An action that is neither `lock` nor `unlock` nor the return. -/
lemma Inv.act (h : C.Inv t₀ w t effects pend) (hc : w.running th = some c) {β : Type}
    {x : σ → Option (β × σ)} {k : β → Prog σ ω} (hcode : c.code = .act x k) :
    ∃ b s, x w.shared = some (b, s) ∧ C.Inv t₀ (w.goOn th c s (k b)) t effects pend ∧
      (w.owner = some th → C.Inside c.input w.shared s) ∧
      (w.owner ≠ some th → C.Outside c.input w.shared s) := by
  obtain ⟨hstart, ⟨hth, hown, hbefore⟩ | ⟨e, he, hi, hst, hfin, hduring, hafter⟩⟩ := h.phase hc
  · rw [hcode] at hbefore
    obtain ⟨b, s, hx, hout, hk⟩ := hbefore w.shared
    refine ⟨b, s, hx, ?_, fun ho => absurd ho hown, fun _ => hout⟩
    refine h.goOn ?_ fun _ => C.unseen_of_outside hout
    simp only [Placed, World.goOn, Function.update_self]
    exact ⟨Nat.le_succ_of_le hstart, Or.inl ⟨hth, hown, hk⟩⟩
  · rw [hcode] at hduring hafter
    by_cases ho : w.owner = some th
    · obtain ⟨b, s, hx, hin, hk⟩ := hduring ho w.shared (C.unseen_refl _)
      refine ⟨b, s, hx, ?_, fun _ => hin, fun ho' => absurd ho ho'⟩
      refine h.goOn ?_ fun ho' => absurd ho ho'
      simp only [Placed, World.goOn, Function.update_self]
      exact ⟨Nat.le_succ_of_le hstart, Or.inr ⟨e, he, hi, hst, Nat.le_succ_of_le hfin,
        fun _ => hk, fun ho' => absurd ho ho'⟩⟩
    · obtain ⟨b, s, hx, hout, hk⟩ := hafter ho w.shared
      refine ⟨b, s, hx, ?_, fun ho' => absurd ho' ho, fun _ => hout⟩
      refine h.goOn ?_ fun _ => C.unseen_of_outside hout
      simp only [Placed, World.goOn, Function.update_self]
      exact ⟨Nat.le_succ_of_le hstart, Or.inr ⟨e, he, hi, hst, Nat.le_succ_of_le hfin,
        fun ho' => absurd ho' ho, fun _ => hk⟩⟩

/-- A call takes effect at the moment it gets the mutex. -/
lemma Inv.lock (h : C.Inv t₀ w t effects pend) (hc : w.running th = some c) {k : Prog σ ω}
    (hcode : c.code = .lock k) (hfree : w.owner = none) :
    ∃ e, C.Inv t₀ { w.goOn th c w.shared k with owner := some th } (C.next t c.input).2
      (effects ++ [e]) (pend ++ [(th, e)]) := by
  have hne : ∀ th', w.owner ≠ some th' := by simp [hfree]
  obtain ⟨hstart, ⟨hth, _, hbefore⟩ | ⟨e, _, _, _, _, _, hafter⟩⟩ := h.phase hc
  · rw [hcode] at hbefore
    let e : Completed ι ω := ⟨c.input, (C.next t c.input).1, c.start, w.now⟩
    refine ⟨e, h.order.complete rfl hstart, ?_, ?_, ?_, ?_⟩
    · rw [List.map_append, ← List.append_assoc]
      exact h.perm.append_right [e]
    · rw [List.map_append, List.nodup_append]
      refine ⟨h.nodup, by simp, ?_⟩
      rintro a ha b hb rfl
      obtain rfl := List.mem_singleton.mp hb
      exact hth ha
    · intro th'
      by_cases heq : th' = th
      · subst heq
        simp only [Placed, World.goOn, Function.update_self]
        refine ⟨Nat.le_succ_of_le hstart, Or.inr ⟨e, by simp, rfl, rfl, Nat.le_succ _, ?_, ?_⟩⟩
        · exact fun _ => hbefore w.shared t (h.free hfree)
        · exact fun ho => absurd rfl ho
      · refine (h.placed th').frame (Function.update_of_ne heq _ _) (Nat.le_succ _) ?_ ?_ ?_
        · simp [hfree, Ne.symm heq]
        · simp [heq]
        · exact fun ho => absurd ho (hne th')
    · exact fun ho => by cases ho
  · -- a call that has had the mutex does not take it again
    have hfalse := hafter (hne th)
    rw [hcode] at hfalse
    exact hfalse.elim

/-- The mutex is given back with the shared state in order. -/
lemma Inv.unlock (h : C.Inv t₀ w t effects pend) (hc : w.running th = some c) {k : Prog σ ω}
    (hcode : c.code = .unlock k) :
    w.owner = some th ∧
      C.Inv t₀ { w.goOn th c w.shared k with owner := none } t effects pend := by
  obtain ⟨hstart, ⟨_, _, hbefore⟩ | ⟨e, he, hi, hst, hfin, hduring, hafter⟩⟩ := h.phase hc
  · rw [hcode] at hbefore
    exact hbefore.elim
  · rw [hcode] at hduring hafter
    have ho : w.owner = some th := by
      by_contra ho
      exact hafter ho
    obtain ⟨hrep, hk⟩ := hduring ho
    refine ⟨ho, h.order.tick, h.perm, h.nodup, ?_, fun _ => hrep⟩
    intro th'
    by_cases heq : th' = th
    · subst heq
      simp only [Placed, World.goOn, Function.update_self]
      exact ⟨Nat.le_succ_of_le hstart, Or.inr ⟨e, he, hi, hst, Nat.le_succ_of_le hfin,
        fun ho' => absurd ho' (by simp), fun _ => hk⟩⟩
    · refine (h.placed th').frame (Function.update_of_ne heq _ _) (Nat.le_succ _) ?_
        (fun _ => Iff.rfl) fun _ => ⟨C.unseen_refl _, rfl⟩
      simp [ho, Ne.symm heq]

/-- A call that returns without having had the mutex takes effect then. -/
lemma Inv.return_before (h : C.Inv t₀ w t effects pend) (hc : w.running th = some c) {r : ω}
    (hth : th ∉ pend.map Prod.fst) (hown : w.owner ≠ some th)
    (hnext : C.next t c.input = (r, t)) :
    C.Inv t₀ (w.return th c r) t (effects ++ [⟨c.input, r, c.start, w.now⟩]) pend where
  order := h.order.complete hnext (h.phase hc).1
  perm := by
    have hperm := h.perm.append_right [(⟨c.input, r, c.start, w.now⟩ : Completed ι ω)]
    refine hperm.trans ?_
    rw [World.return, List.append_assoc, List.append_assoc]
    exact List.perm_append_comm.append_left _
  nodup := h.nodup
  placed th' := by
    by_cases heq : th' = th
    · subst heq
      simp only [Placed, World.return, Function.update_self]
      exact ⟨hth, hown⟩
    · exact (h.placed th').frame (Function.update_of_ne heq _ _) (Nat.le_succ _) Iff.rfl
        (fun _ => Iff.rfl) fun _ => ⟨C.unseen_refl _, rfl⟩
  free := h.free

/-- A call that has taken effect returns what it was going to return. -/
lemma Inv.return_after (h : C.Inv t₀ w t effects pend) {e : Completed ι ω} (he : (th, e) ∈ pend)
    (hi : e.input = c.input) (hst : e.start = c.start) (hfin : e.finish ≤ w.now)
    (hown : w.owner ≠ some th) :
    ∃ effects' pend', C.Inv t₀ (w.return th c e.output) t effects' pend' := by
  have hmem : e ∈ effects := by
    rw [h.perm.mem_iff]
    exact List.mem_append_right _ (List.mem_map_of_mem (f := Prod.snd) he)
  obtain ⟨es₁, es₂, rfl⟩ := List.append_of_mem hmem
  obtain ⟨ps₁, ps₂, rfl⟩ := List.append_of_mem he
  have hnodup := h.nodup
  rw [List.map_append, List.map_cons, List.nodup_middle, List.nodup_cons, ← List.map_append]
    at hnodup
  have hret :
      (⟨c.input, e.output, c.start, w.now⟩ : Completed ι ω) = { e with finish := w.now } := by
    rw [← hi, ← hst]
  -- the call keeps its place among the effects, and ends now
  refine ⟨es₁ ++ { e with finish := w.now } :: es₂, ps₁ ++ ps₂, ?_, ?_, hnodup.2, ?_, h.free⟩
  · exact (h.order.postpone hfin).tick
  · have hrest : (es₁ ++ es₂).Perm (w.completed ++ (ps₁ ++ ps₂).map Prod.snd) := by
      have hperm := h.perm
      rw [List.map_append, List.map_cons, ← List.append_assoc] at hperm
      have hcons := (List.perm_middle.symm.trans hperm).trans List.perm_middle
      rw [List.map_append, ← List.append_assoc]
      exact hcons.cons_inv
    rw [World.return, hret, List.append_assoc]
    refine List.perm_middle.trans ((hrest.cons _).trans ?_)
    exact List.perm_middle.symm
  · intro th'
    by_cases heq : th' = th
    · subst heq
      simp only [Placed, World.return, Function.update_self]
      exact ⟨hnodup.1, hown⟩
    · refine (h.placed th').frame (Function.update_of_ne heq _ _) (Nat.le_succ _) Iff.rfl ?_
        fun _ => ⟨C.unseen_refl _, rfl⟩
      simp [heq]

lemma Inv.return (h : C.Inv t₀ w t effects pend) (hc : w.running th = some c) {r : ω}
    (hcode : c.code = .ret r) :
    w.owner ≠ some th ∧ ∃ effects' pend', C.Inv t₀ (w.return th c r) t effects' pend' := by
  obtain ⟨hstart, ⟨hth, hown, hbefore⟩ | ⟨e, he, hi, hst, hfin, hduring, hafter⟩⟩ := h.phase hc
  · rw [hcode] at hbefore
    exact ⟨hown, _, _, h.return_before hc hth hown (hbefore t)⟩
  · rw [hcode] at hduring hafter
    have hown : w.owner ≠ some th := fun ho => hduring ho
    obtain rfl : r = e.output := hafter hown
    exact ⟨hown, h.return_after he hi hst hfin hown⟩

end Steps

/-! ### Runs -/

variable {prog : ι → Prog σ ω} {t₀ t : τ} {s₀ : σ} {w : World σ ι ω}
  {effects : List (Completed ι ω)} {pend : List (ℕ × Completed ι ω)} {th : ℕ} {c : Running σ ι ω}

lemma inv_boot (h : C.Rep s₀ t₀) : C.Inv t₀ (.boot s₀) t₀ [] [] where
  order := .nil
  perm := .nil
  nodup := .nil
  placed th := by simp [Placed, World.boot]
  free _ := h

lemma Inv.run (h : C.Inv t₀ w t effects pend) (hc : w.running th = some c) :
    ∃ t' effects' pend', C.Inv t₀ (w.run th c) t' effects' pend' := by
  unfold World.run
  split
  case h_1 r hcode =>
    obtain ⟨_, effects', pend', h'⟩ := h.return hc hcode
    exact ⟨t, effects', pend', h'⟩
  case h_2 x k hcode =>
    obtain ⟨b, s, hx, h', _⟩ := h.act hc hcode
    rw [hx]
    exact ⟨t, effects, pend, h'⟩
  case h_3 k hcode =>
    split_ifs with hfree
    · obtain ⟨e, h'⟩ := h.lock hc hcode hfree
      exact ⟨_, _, _, h'⟩
    · exact ⟨t, effects, pend, h⟩
  case h_4 k hcode => exact ⟨t, effects, pend, (h.unlock hc hcode).2⟩

lemma Inv.next (hprog : ∀ i, C.Before i (prog i)) (h : C.Inv t₀ w t effects pend) (m : Move ι) :
    ∃ t' effects' pend', C.Inv t₀ (w.next prog m).2 t' effects' pend' := by
  cases m with
  | call th i =>
    simp only [World.next]
    cases hidle : w.running th with
    | some c => exact ⟨t, effects, pend, h⟩
    | none => exact ⟨t, effects, pend, h.call hidle (hprog i)⟩
  | run th =>
    simp only [World.next]
    cases hc : w.running th with
    | none => exact ⟨t, effects, pend, h⟩
    | some c => exact h.run hc

lemma exists_inv_of_reachable (hprog : ∀ i, C.Before i (prog i)) (h₀ : C.Rep s₀ t₀)
    (h : Reachable (World.next prog) (.boot s₀) w) :
    ∃ t effects pend, C.Inv t₀ w t effects pend := by
  refine h.invariant (P := fun w => ∃ t effects pend, C.Inv t₀ w t effects pend) ?_ ?_
  · exact ⟨t₀, [], [], inv_boot h₀⟩
  · rintro w m ⟨t, effects, pend, h⟩
    exact h.next hprog m

/-- The calls completed in any interleaving, together with some of those that are under way, are
linearizable; while nobody holds the mutex, the shared state stands for the abstract state that
they lead to. -/
theorem linearizable (hprog : ∀ i, C.Before i (prog i)) (h₀ : C.Rep s₀ t₀)
    (h : Reachable (World.next prog) (.boot s₀) w) :
    ∃ (pend : List (ℕ × Completed ι ω)) (t : τ), (pend.map Prod.fst).Nodup ∧
      (∀ p ∈ pend, ∃ c, w.running p.1 = some c ∧ p.2.input = c.input ∧ p.2.start = c.start) ∧
      Linearizable C.next id id t₀ (w.completed ++ pend.map Prod.snd) t ∧
      (w.owner = none → C.Rep w.shared t) := by
  obtain ⟨t, effects, pend, hinv⟩ := exists_inv_of_reachable hprog h₀ h
  refine ⟨pend, t, hinv.nodup, ?_, ?_, hinv.free⟩
  · rintro ⟨th, e⟩ he
    have hself := hinv.placed th
    unfold Placed at hself
    have hkey : th ∈ pend.map Prod.fst := List.mem_map_of_mem (f := Prod.fst) he
    cases hc : w.running th with
    | none =>
      rw [hc] at hself
      exact absurd hkey hself.1
    | some c =>
      rw [hc] at hself
      obtain ⟨_, ⟨hth, _⟩ | ⟨e', he', hi, hst, _⟩⟩ := hself
      · exact absurd hkey hth
      · have heq : (th, e) = (th, e') := List.inj_on_of_nodup_map hinv.nodup he he' rfl
        obtain rfl := (Prod.mk.inj heq).2
        exact ⟨c, rfl, hi, hst⟩
  · obtain ⟨order, hperm, hrest⟩ := hinv.order.linearizable id id
    exact ⟨order, hperm.trans hinv.perm, hrest⟩

/-! ### Every call can be brought to its end -/

/-- The call of the thread is over, nobody holds the mutex, and nothing has happened to the calls
of the others. -/
structure Finished (C : Contract σ ι ω τ) (t₀ : τ) (th : ℕ) (w w' : World σ ι ω) : Prop where
  inv : ∃ t effects pend, C.Inv t₀ w' t effects pend
  owner : w'.owner = none
  idle : w'.running th = none
  others : ∀ th' ≠ th, w'.running th' = w.running th'

variable (prog) in
/-- Unless somebody else holds the mutex, a thread that runs alone finishes its call. -/
lemma Inv.finishes (h : C.Inv t₀ w t effects pend) (hc : w.running th = some c)
    (ho : w.owner = none ∨ w.owner = some th) :
    ∃ n, C.Finished t₀ th w (final (World.next prog) w (List.replicate n (.run th))) := by
  obtain ⟨i, start, code⟩ := c
  -- by induction on the code that is left: every action leaves less of it
  induction code generalizing w t effects pend with
  | ret r =>
    obtain ⟨hown, effects', pend', h'⟩ := h.return hc rfl
    refine ⟨1, ?_⟩
    simp only [List.replicate_one, final_cons, final_nil, World.next, hc, World.run]
    refine ⟨⟨t, effects', pend', h'⟩, ho.resolve_right hown, Function.update_self .., ?_⟩
    exact fun th' hne => Function.update_of_ne hne _ _
  | act x k ih =>
    obtain ⟨b, s, hx, h', _⟩ := h.act hc rfl
    obtain ⟨n, hn⟩ := ih b h' ho (Function.update_self ..)
    refine ⟨n + 1, ?_⟩
    simp only [List.replicate_succ, final_cons, World.next, hc, World.run, hx]
    exact ⟨hn.inv, hn.owner, hn.idle,
      fun th' hne => (hn.others th' hne).trans (Function.update_of_ne hne _ _)⟩
  | lock k ih =>
    have hfree : w.owner = none := by
      refine ho.resolve_right fun hown => ?_
      obtain ⟨_, ⟨_, hother, _⟩ | ⟨e, _, _, _, _, hduring, _⟩⟩ := h.phase hc
      · exact hother hown
      · exact hduring hown
    obtain ⟨e, h'⟩ := h.lock hc rfl hfree
    obtain ⟨n, hn⟩ := ih h' (Or.inr rfl) (Function.update_self ..)
    refine ⟨n + 1, ?_⟩
    simp only [List.replicate_succ, final_cons, World.next, hc, World.run, if_pos hfree]
    exact ⟨hn.inv, hn.owner, hn.idle,
      fun th' hne => (hn.others th' hne).trans (Function.update_of_ne hne _ _)⟩
  | unlock k ih =>
    obtain ⟨n, hn⟩ := ih (h.unlock hc rfl).2 (Or.inl rfl) (Function.update_self ..)
    refine ⟨n + 1, ?_⟩
    simp only [List.replicate_succ, final_cons, World.next, hc, World.run]
    exact ⟨hn.inv, hn.owner, hn.idle,
      fun th' hne => (hn.others th' hne).trans (Function.update_of_ne hne _ _)⟩

variable (prog) in
/-- Once the mutex is free, the threads of any list can finish one after the other. -/
lemma Inv.finishAll (h : C.Inv t₀ w t effects pend) (ho : w.owner = none) (ths : List ℕ) :
    ∃ ms : List ℕ, (final (World.next prog) w (ms.map .run)).owner = none ∧
      ∀ th, th ∈ ths ∨ w.running th = none →
        (final (World.next prog) w (ms.map .run)).running th = none := by
  -- one caller after the other is run until it returns
  induction ths generalizing w t effects pend with
  | nil => exact ⟨[], ho, by simp⟩
  | cons th ths ih =>
    cases hc : w.running th with
    | none =>
      obtain ⟨ms, hfree, hidle⟩ := ih h ho
      refine ⟨ms, hfree, fun th' hth' => hidle th' ?_⟩
      rcases hth' with hmem | hnone
      · rcases List.mem_cons.mp hmem with rfl | hmem
        · exact Or.inr hc
        · exact Or.inl hmem
      · exact Or.inr hnone
    | some c =>
      obtain ⟨n, hn⟩ := h.finishes prog hc (Or.inl ho)
      obtain ⟨t', effects', pend', h'⟩ := hn.inv
      obtain ⟨ms, hfree, hidle⟩ := ih h' hn.owner
      refine ⟨List.replicate n th ++ ms, ?_⟩
      rw [List.map_append, List.map_replicate, final_append]
      refine ⟨hfree, fun th' hth' => hidle th' ?_⟩
      by_cases heq : th' = th
      · exact Or.inr (heq ▸ hn.idle)
      · rcases hth' with hmem | hnone
        · exact Or.inl ((List.mem_cons.mp hmem).resolve_left heq)
        · exact Or.inr ((hn.others th' heq).trans hnone)

/-- Only finitely many threads are in the middle of a call. -/
lemma exists_running_of_reachable (h : Reachable (World.next prog) (.boot s₀) w) :
    ∃ ths : List ℕ, ∀ th ∉ ths, w.running th = none := by
  refine h.invariant (P := fun w => ∃ ths : List ℕ, ∀ th ∉ ths, w.running th = none) ?_ ?_
  · exact ⟨[], fun _ _ => rfl⟩
  · rintro w m ⟨ths, hths⟩
    refine ⟨m.thread :: ths, fun th hth => ?_⟩
    rw [List.mem_cons, not_or] at hth
    exact (w.running_next prog m hth.1).trans (hths th hth.2)

/-- From every world that can arise, the threads can be scheduled in such a way that all calls
under way return. -/
theorem completes (hprog : ∀ i, C.Before i (prog i)) (h₀ : C.Rep s₀ t₀)
    (h : Reachable (World.next prog) (.boot s₀) w) :
    ∃ ms : List ℕ, (final (World.next prog) w (ms.map .run)).owner = none ∧
      ∀ th, (final (World.next prog) w (ms.map .run)).running th = none := by
  obtain ⟨t, effects, pend, hinv⟩ := exists_inv_of_reachable hprog h₀ h
  obtain ⟨ths, hths⟩ := exists_running_of_reachable h
  -- the thread that holds the mutex goes first
  obtain ⟨ms, t', effects', pend', hinv', hfree, hidle⟩ : ∃ (ms : List ℕ) (t' : τ)
      (effects' : List (Completed ι ω)) (pend' : List (ℕ × Completed ι ω)),
      C.Inv t₀ (final (World.next prog) w (ms.map .run)) t' effects' pend' ∧
        (final (World.next prog) w (ms.map .run)).owner = none ∧
        ∀ th ∉ ths, (final (World.next prog) w (ms.map .run)).running th = none := by
    cases ho : w.owner with
    | none => exact ⟨[], t, effects, pend, hinv, ho, hths⟩
    | some th =>
      cases hc : w.running th with
      | none =>
        have hself := hinv.placed th
        rw [Placed, hc] at hself
        exact absurd ho hself.2
      | some c =>
        obtain ⟨n, hn⟩ := hinv.finishes prog hc (Or.inr ho)
        obtain ⟨t', effects', pend', h'⟩ := hn.inv
        refine ⟨List.replicate n th, t', effects', pend', ?_⟩
        rw [List.map_replicate]
        refine ⟨h', hn.owner, fun th' hth' => ?_⟩
        by_cases heq : th' = th
        · exact heq ▸ hn.idle
        · exact (hn.others th' heq).trans (hths th' hth')
  obtain ⟨ms', hfree', hidle'⟩ := hinv'.finishAll prog hfree ths
  refine ⟨ms ++ ms', ?_⟩
  rw [List.map_append, final_append]
  refine ⟨hfree', fun th => hidle' th ?_⟩
  by_cases hth : th ∈ ths
  · exact Or.inl hth
  · exact Or.inr (hidle th hth)

/-- Every action that changes the shared state is allowed: with the mutex within `Inside`, without
it within `Outside`. -/
theorem allowed (hprog : ∀ i, C.Before i (prog i)) (h₀ : C.Rep s₀ t₀)
    (h : Reachable (World.next prog) (.boot s₀) w) (hc : w.running th = some c) :
    let w' := (w.next prog (.run th)).2
    w'.shared = w.shared ∨
      (w.owner = some th ∧ C.Inside c.input w.shared w'.shared) ∨
      (w.owner ≠ some th ∧ C.Outside c.input w.shared w'.shared) := by
  obtain ⟨t, effects, pend, hinv⟩ := exists_inv_of_reachable hprog h₀ h
  simp only [World.next, hc, World.run]
  split
  case h_1 r hcode => exact Or.inl rfl
  case h_2 x k hcode =>
    obtain ⟨b, s, hx, _, hin, hout⟩ := hinv.act hc hcode
    rw [hx]
    by_cases ho : w.owner = some th
    · exact Or.inr (Or.inl ⟨ho, hin ho⟩)
    · exact Or.inr (Or.inr ⟨ho, hout ho⟩)
  case h_3 k hcode =>
    split_ifs
    · exact Or.inl rfl
    · exact Or.inl rfl
  case h_4 k hcode => exact Or.inl rfl

end Contract

end Mutex
