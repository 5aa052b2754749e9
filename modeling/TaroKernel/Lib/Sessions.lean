import Mathlib.Logic.Function.Basic
import Mathlib.Tactic.SplitIfs

/-!
# Process groups and sessions

Processes are in groups and in sessions. Groups and sessions are named like processes: a process
that makes one gives it its own name, and the name stays with it when the process leaves or ends. A
name is not given to a new process as long as anything has it.

`WellFormed` says how the names fit together: a group lies in one session, with the process of its
name if there is still one, and the process a session is named after, if there is still one, is its
leader. It is kept by every move of a process, and when processes come and go.
-/

namespace Sessions

variable {ι : Type*}

/-- Where a process belongs, and whether it leads its session. -/
structure Member (ι : Type*) where
  group : ι
  session : ι
  leader : Bool

/-- The processes there are. -/
abbrev World (ι : Type*) := ι → Option (Member ι)

/-- Neither a process nor a group nor a session has the name `n`. -/
def Unused (w : World ι) (n : ι) : Prop :=
  w n = none ∧ ∀ p m, w p = some m → m.group ≠ n ∧ m.session ≠ n

structure WellFormed (w : World ι) : Prop where
  /-- A group lies in one session. -/
  group_session : ∀ {p q mp mq}, w p = some mp → w q = some mq → mp.group = mq.group →
    mp.session = mq.session
  /-- The process a group is named after is in the session of the group. -/
  namesake_session : ∀ {p q mp mq}, w p = some mp → w q = some mq → mp.group = q →
    mp.session = mq.session
  /-- The leader of a session has given its name to it, and to its own group. -/
  leader_own : ∀ {p m}, w p = some m → m.leader = true → m.group = p ∧ m.session = p
  /-- The process a session is named after leads it. -/
  namesake_leader : ∀ {p q mp mq}, w p = some mp → w q = some mq → mp.session = q →
    mq.leader = true

/-- Processes come and go. Those that stay are where they were. A new one has a name that nothing
had, it is where another process was, and it leads nothing. -/
structure Turnover (w w' : World ι) : Prop where
  kept : ∀ {p m m'}, w p = some m → w' p = some m' → m' = m
  born : ∀ {p m'}, w p = none → w' p = some m' → Unused w p ∧ m'.leader = false ∧
    ∃ q m, w q = some m ∧ m'.group = m.group ∧ m'.session = m.session

section

variable [DecidableEq ι]

/-- What can happen at a time. -/
inductive Step (w : World ι) : World ι → Prop where
  | turnover {w' : World ι} (h : Turnover w w') : Step w w'
  /-- A process moves to the group of its name. -/
  | found {p : ι} {m : Member ι} (hp : w p = some m) (hm : m.leader = false) :
      Step w (Function.update w p (some { m with group := p }))
  /-- A process moves to the group of a process of its session. -/
  | join {p q : ι} {m mq : Member ι} (hp : w p = some m) (hm : m.leader = false)
      (hq : w q = some mq) (hsession : mq.session = m.session) :
      Step w (Function.update w p (some { m with group := mq.group }))
  /-- A process makes a session, unless there is a group of its name. -/
  | setsid {p : ι} {m : Member ι} (hp : w p = some m)
      (hfree : ∀ q mq, w q = some mq → mq.group ≠ p) :
      Step w (Function.update w p (some ⟨p, p, true⟩))

variable {w w' : World ι} {p q : ι} {m m' mq : Member ι}

lemma update_eq_some_iff {o : Option (Member ι)} :
    Function.update w p o q = some mq ↔ q = p ∧ o = some mq ∨ q ≠ p ∧ w q = some mq := by
  rw [Function.update_apply]
  split_ifs with h <;> simp [h]

/-! ### Processes that come and go -/

omit [DecidableEq ι] in
lemma Turnover.refl (w : World ι) : Turnover w w where
  kept hp hp' := Option.some.inj (hp'.symm.trans hp)
  born hp hp' := nomatch hp.symm.trans hp'

/-- One process more. -/
lemma Turnover.fork {n : ι} (hp : w p = some m) (hn : Unused w n) :
    Turnover w (Function.update w n (some { m with leader := false })) where
  kept {q mq mq'} hq hq' := by
    rcases update_eq_some_iff.mp hq' with ⟨rfl, _⟩ | ⟨_, hq''⟩
    · exact nomatch hn.1.symm.trans hq
    · exact Option.some.inj (hq''.symm.trans hq)
  born {q mq'} hq hq' := by
    rcases update_eq_some_iff.mp hq' with ⟨rfl, hmq⟩ | ⟨_, hq''⟩
    · cases hmq
      exact ⟨hn, rfl, p, m, hp, rfl, rfl⟩
    · exact nomatch hq.symm.trans hq''

/-- One process less. -/
lemma Turnover.exit (w : World ι) (p : ι) : Turnover w (Function.update w p none) where
  kept {q mq mq'} hq hq' := by
    have hstill := (update_eq_some_iff.mp hq').resolve_left (by simp)
    exact Option.some.inj (hstill.2.symm.trans hq)
  born {q mq'} hq hq' := by
    have hstill := (update_eq_some_iff.mp hq').resolve_left (by simp)
    exact nomatch hq.symm.trans hstill.2

omit [DecidableEq ι] in
/-- Wherever a process is, one has been before. -/
lemma Turnover.exists_before (h : Turnover w w') (hp : w' p = some m') :
    ∃ q m, w q = some m ∧ m'.group = m.group ∧ m'.session = m.session := by
  cases hw : w p with
  | none => exact (h.born hw hp).2.2
  | some m =>
    obtain rfl := h.kept hw hp
    exact ⟨p, m', hw, rfl, rfl⟩

/-! ### Steps -/

namespace WellFormed

/-- A process may be anywhere that fits the others. In each field it may be the first of the two
processes, the second, both or neither. -/
lemma update_some (h : WellFormed w)
    (hgroup : ∀ q mq, q ≠ p → w q = some mq → mq.group = m'.group → mq.session = m'.session)
    (hname : ∀ mq, w m'.group = some mq → m'.group ≠ p → m'.session = mq.session)
    (hname' : ∀ q mq, q ≠ p → w q = some mq → mq.group = p → mq.session = m'.session)
    (hown : m'.leader = true → m'.group = p ∧ m'.session = p)
    (hled : ∀ mq, w m'.session = some mq → m'.session ≠ p → mq.leader = true)
    (hled' : ∀ q mq, q ≠ p → w q = some mq → mq.session = p → m'.leader = true)
    (hself : m'.session = p → m'.leader = true) :
    WellFormed (Function.update w p (some m')) where
  group_session {q r mq mr} hq hr heq := by
    rcases update_eq_some_iff.mp hq with ⟨rfl, hmq⟩ | ⟨hqp, hq'⟩ <;>
      rcases update_eq_some_iff.mp hr with ⟨rfl, hmr⟩ | ⟨hrp, hr'⟩
    · cases hmq
      cases hmr
      rfl
    · cases hmq
      exact (hgroup r mr hrp hr' heq.symm).symm
    · cases hmr
      exact hgroup q mq hqp hq' heq
    · exact h.group_session hq' hr' heq
  namesake_session {q r mq mr} hq hr heq := by
    rcases update_eq_some_iff.mp hq with ⟨rfl, hmq⟩ | ⟨hqp, hq'⟩ <;>
      rcases update_eq_some_iff.mp hr with ⟨rfl, hmr⟩ | ⟨hrp, hr'⟩
    · cases hmq
      cases hmr
      rfl
    · cases hmq
      subst heq
      exact hname mr hr' hrp
    · cases hmr
      exact hname' q mq hqp hq' heq
    · exact h.namesake_session hq' hr' heq
  leader_own {q mq} hq hlead := by
    rcases update_eq_some_iff.mp hq with ⟨rfl, hmq⟩ | ⟨hqp, hq'⟩
    · cases hmq
      exact hown hlead
    · exact h.leader_own hq' hlead
  namesake_leader {q r mq mr} hq hr heq := by
    rcases update_eq_some_iff.mp hq with ⟨rfl, hmq⟩ | ⟨hqp, hq'⟩ <;>
      rcases update_eq_some_iff.mp hr with ⟨rfl, hmr⟩ | ⟨hrp, hr'⟩
    · cases hmq
      cases hmr
      exact hself heq
    · cases hmq
      subst heq
      exact hled mr hr' hrp
    · cases hmr
      exact hled' q mq hqp hq' heq
    · exact h.namesake_leader hq' hr' heq

omit [DecidableEq ι] in
/-- A new process does not take a name that a group or a session has. -/
lemma turnover (h : WellFormed w) (ht : Turnover w w') : WellFormed w' where
  group_session {p q mp mq} hp hq heq := by
    obtain ⟨p₀, mp₀, hp₀, hgroup, hsession⟩ := ht.exists_before hp
    obtain ⟨q₀, mq₀, hq₀, hgroup', hsession'⟩ := ht.exists_before hq
    rw [hgroup, hgroup'] at heq
    rw [hsession, hsession']
    exact h.group_session hp₀ hq₀ heq
  namesake_session {p q mp mq} hp hq heq := by
    obtain ⟨p₀, mp₀, hp₀, hgroup, hsession⟩ := ht.exists_before hp
    rw [hgroup] at heq
    cases hw : w q with
    | none => exact absurd heq ((ht.born hw hq).1.2 p₀ mp₀ hp₀).1
    | some mq₀ =>
      obtain rfl := ht.kept hw hq
      rw [hsession]
      exact h.namesake_session hp₀ hw heq
  leader_own {p m} hp hlead := by
    cases hw : w p with
    | none => exact absurd hlead (Bool.eq_false_iff.mp (ht.born hw hp).2.1)
    | some m₀ =>
      obtain rfl := ht.kept hw hp
      exact h.leader_own hw hlead
  namesake_leader {p q mp mq} hp hq heq := by
    obtain ⟨p₀, mp₀, hp₀, _, hsession⟩ := ht.exists_before hp
    rw [hsession] at heq
    cases hw : w q with
    | none => exact absurd heq ((ht.born hw hq).1.2 p₀ mp₀ hp₀).2
    | some mq₀ =>
      obtain rfl := ht.kept hw hq
      exact h.namesake_leader hp₀ hw heq

omit [DecidableEq ι] in
/-- A process of a session that does not lead it has not given its name to it. -/
lemma session_ne (h : WellFormed w) (hp : w p = some m) (hm : m.leader = false) :
    m.session ≠ p := by
  intro heq
  have hlead := h.namesake_leader hp hp heq
  rw [hm] at hlead
  cases hlead

/-- A process that does not lead a session moves to another group of it. -/
lemma update_group (h : WellFormed w) (hp : w p = some m) (hm : m.leader = false) {n : ι}
    (hgroup : ∀ q mq, w q = some mq → mq.group = n → mq.session = m.session)
    (hname : ∀ mq, w n = some mq → m.session = mq.session) :
    WellFormed (Function.update w p (some { m with group := n })) := by
  apply h.update_some
  · intro q mq _ hq heq
    exact hgroup q mq hq heq
  · intro mq hmq _
    exact hname mq hmq
  · intro q mq _ hq heq
    have hsession := h.namesake_session hq hp heq
    exact hsession
  · intro hlead
    rw [hm] at hlead
    cases hlead
  · intro mq hmq _
    exact h.namesake_leader hp hmq rfl
  · intro q mq _ hq heq
    have hlead := h.namesake_leader hq hp heq
    exact hlead
  · intro heq
    have hne := h.session_ne hp hm
    exact absurd heq hne

theorem step (h : WellFormed w) (hstep : Step w w') : WellFormed w' := by
  cases hstep with
  | turnover ht => exact h.turnover ht
  | found hp hm =>
    apply h.update_group hp hm
    · intro q mq hq heq
      exact h.namesake_session hq hp heq
    · intro mq hmq
      rw [hp] at hmq
      cases hmq
      rfl
  | join hp hm hq hsession =>
    apply h.update_group hp hm
    · intro r mr hr heq
      exact (h.group_session hr hq heq).trans hsession
    · intro mr hr
      exact hsession.symm.trans (h.namesake_session hq hr rfl)
  | setsid hp hfree =>
    apply h.update_some
    · intro q mq _ hq heq
      exact absurd heq (hfree q mq hq)
    · intro mq _ hne
      exact absurd rfl hne
    · intro q mq _ hq heq
      exact absurd heq (hfree q mq hq)
    · intro _
      exact ⟨rfl, rfl⟩
    · intro mq _ hne
      exact absurd rfl hne
    · intro _ _ _ _ _
      rfl
    · intro _
      rfl

end WellFormed

end

end Sessions
