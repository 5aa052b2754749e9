import Mathlib.Tactic.SplitIfs
import TaroKernel.Lib.Machine
import TaroKernel.Sys.Credentials

/-!
# Who a process can become

Without `CAP_SETUID` a process can give itself any of its real, effective and saved users, in any
combination, and no other: `identities_reachable_iff`. So it can give up the rest for good, which is
what `setreuid` and `setresuid` with one user, and a privileged `setuid`, do: `dropped_for_good`.
-/

namespace Taro.Credentials

open Machine

variable {κ γ : Type*}

/-! ### Identities -/

/-- The identities a process may always choose from. -/
def Ids.own (ids : Ids κ) : List κ := [ids.id, ids.eid, ids.sid]

/-- No new identities. -/
structure Ids.Within (old new : Ids κ) : Prop where
  id : new.id ∈ old.own
  eid : new.eid ∈ old.own
  sid : new.sid ∈ old.own
  fsid : new.fsid ∈ old.own ∨ new.fsid = old.fsid

namespace Ids.Within

variable {old mid new : Ids κ}

lemma refl (old : Ids κ) : old.Within old := by
  constructor <;> simp [Ids.own]

lemma mem (h : old.Within new) {k : κ} (hk : k ∈ new.own) : k ∈ old.own := by
  simp only [Ids.own, List.mem_cons, List.not_mem_nil, or_false] at hk
  rcases hk with rfl | rfl | rfl
  · exact h.id
  · exact h.eid
  · exact h.sid

lemma trans (h : old.Within mid) (h' : mid.Within new) : old.Within new := by
  refine ⟨h.mem h'.id, h.mem h'.eid, h.mem h'.sid, ?_⟩
  rcases h'.fsid with hfsid | hfsid
  · exact Or.inl (h.mem hfsid)
  · rw [hfsid]
    exact h.fsid

end Ids.Within

section

variable [DecidableEq κ] {old new : Ids κ}

lemma getD_mem_of_permitted {k : Option κ} {ids : List κ} {x : κ}
    (h : permitted k ids false = true) (hx : x ∈ ids) : k.getD x ∈ ids := by
  cases k with
  | none => exact hx
  | some k => simpa [permitted] using h

lemma setre_within {r e : Option κ} (h : old.setre r e false = some new) : old.Within new := by
  simp only [Ids.setre] at h
  split_ifs at h with hr he
  cases h
  have hid : r.getD old.id ∈ [old.id, old.eid] :=
    getD_mem_of_permitted (Bool.not_eq_false _ ▸ hr) List.mem_cons_self
  have heid : e.getD old.eid ∈ old.own :=
    getD_mem_of_permitted (Bool.not_eq_false _ ▸ he) (by simp [Ids.own])
  refine ⟨List.mem_append_left [old.sid] hid, heid, ?_, Or.inl heid⟩
  dsimp only [Ids.saved]
  split_ifs
  · exact heid
  · simp [Ids.own]

lemma set_within {k : κ} (h : old.set k false = some new) : old.Within new := by
  simp only [Ids.set, Bool.false_eq_true, if_false] at h
  split_ifs at h with hk
  cases h
  have hown : k ∈ old.own := by
    rcases hk with rfl | rfl <;> simp [Ids.own]
  exact ⟨(Ids.Within.refl old).id, hown, (Ids.Within.refl old).sid, Or.inl hown⟩

lemma setres_within {r e s : Option κ} (h : old.setres r e s false = some new) :
    old.Within new := by
  simp only [Ids.setres] at h
  split_ifs at h with hpermitted
  obtain ⟨hr, he, hs⟩ := hpermitted
  cases h
  have heid : e.getD old.eid ∈ old.own := getD_mem_of_permitted he (by simp [Ids.own])
  exact ⟨getD_mem_of_permitted hr (by simp [Ids.own]), heid,
    getD_mem_of_permitted hs (by simp [Ids.own]), Or.inl heid⟩

lemma setfs_within {k : κ} (h : old.setfs k false = some new) : old.Within new := by
  simp only [Ids.setfs] at h
  split_ifs at h with hk
  cases h
  have hold := Ids.Within.refl old
  refine ⟨hold.id, hold.eid, hold.sid, ?_⟩
  simpa [permitted, Ids.own, or_assoc] using hk.1

end

/-! ### Calls -/

section

variable {α : Type*} [DecidableEq α] {d : Side α κ γ} {a : Answers} {s : Task κ γ}

/-- What a change of identities comes to: nothing, or new ones that are committed. Only a privileged
caller gets any from elsewhere. -/
inductive Side.Outcome (d : Side α κ γ) (a : Answers) (s : Task κ γ) : Int × Task κ γ → Prop where
  | same (ret : Int) : Outcome d a s (ret, s)
  | committed {new : Ids α} (hnew : a.nsCapableSetid = false → d.ids.Within new) :
      Outcome d a s (d.commit new)

omit [DecidableEq α] in
lemma outcome_prepareCreds {new : Option (Ids α)}
    (hnew : a.nsCapableSetid = false → ∀ ids, new = some ids → d.ids.Within ids) :
    d.Outcome a s (d.prepareCreds a s new) := by
  simp only [Side.prepareCreds]
  split_ifs
  · exact .same _
  · cases new with
    | none => exact .same _
    | some new => exact .committed fun hcap => hnew hcap new rfl

lemma outcome_setre (r e : UInt32) : d.Outcome a s (d.setre a s r e) := by
  rw [Side.setre]
  split
  · refine outcome_prepareCreds fun hcap ids hids => ?_
    rw [hcap] at hids
    exact setre_within hids
  · exact .same _
  · exact .same _

lemma outcome_set (u : UInt32) : d.Outcome a s (d.set a s u) := by
  rw [Side.set]
  split
  · exact .same _
  · refine outcome_prepareCreds fun hcap ids hids => ?_
    rw [hcap] at hids
    exact set_within hids

lemma outcome_setres (r e s' : UInt32) : d.Outcome a s (d.setres a s r e s') := by
  rw [Side.setres]
  split
  · split
    · exact .same _
    · split
      · exact .same _
      · rename_i hnew
        split_ifs
        · exact .same _
        · refine .committed fun hcap => ?_
          rw [hcap] at hnew
          exact setres_within hnew
  · exact .same _
  · exact .same _
  · exact .same _

/-- `setfsuid` and `setfsgid` change the fourth identity at most. -/
lemma setfs_cases (put : Ids α → Task κ γ) (u : UInt32) :
    0 ≤ (d.setfs a s put u).1 ∧ ((d.setfs a s put u).2 = s ∨
      ∃ k, (d.setfs a s put u).2 = put { d.ids with fsid := k } ∧
        (a.nsCapableSetid = false → d.ids.Within { d.ids with fsid := k })) := by
  have hret : (0 : Int) ≤ (d.map.munged d.ids.fsid).toNat := Int.natCast_nonneg _
  simp only [Side.setfs]
  split
  · exact ⟨hret, Or.inl rfl⟩
  · rename_i k _
    split
    · exact ⟨hret, Or.inl rfl⟩
    · split
      · exact ⟨hret, Or.inl rfl⟩
      · rename_i new hnew
        have heq : new = { d.ids with fsid := k } := by
          simp only [Ids.setfs] at hnew
          split_ifs at hnew
          exact (Option.some.inj hnew).symm
        split_ifs
        · refine ⟨hret, Or.inr ⟨k, congrArg put heq, fun hcap => ?_⟩⟩
          rw [hcap] at hnew
          exact heq ▸ setfs_within hnew
        · exact ⟨hret, Or.inl rfl⟩

end

/-- What one call does to the credentials. -/
inductive Effect (a : Answers) (s : Task κ γ) : CredRet × Task κ γ → Prop where
  | same (ret : CredRet) : Effect a s (ret, s)
  /-- The `user_struct` is exchanged if it is of another user. -/
  | users [DecidableEq κ] {new : Ids κ} {exceeded : Bool}
      (hnew : a.nsCapableSetid = false → s.cred.uids.Within new) :
      Effect a s (⟨0, []⟩, ⟨{ s.cred with
        uids := new
        user := if new.id ≠ s.cred.uids.id then new.id else s.cred.user
        ucounts := new.id }, exceeded⟩)
  | groups {new : Ids γ} (hnew : a.nsCapableSetid = false → s.cred.gids.Within new) :
      Effect a s (⟨0, []⟩, { s with cred := { s.cred with gids := new } })
  | fsuid {ret : Int} (hret : 0 ≤ ret) {x : κ}
      (hnew : a.nsCapableSetid = false → s.cred.uids.Within { s.cred.uids with fsid := x }) :
      Effect a s (⟨ret, []⟩,
        { s with cred := { s.cred with uids := { s.cred.uids with fsid := x } } })
  | fsgid {ret : Int} (hret : 0 ≤ ret) {x : γ}
      (hnew : a.nsCapableSetid = false → s.cred.gids.Within { s.cred.gids with fsid := x }) :
      Effect a s (⟨ret, []⟩,
        { s with cred := { s.cred with gids := { s.cred.gids with fsid := x } } })

section

variable {a : Answers} {s : Task κ γ} {r : Int × Task κ γ}

lemma effect_of_users [DecidableEq κ] {k : Kernel κ γ} (h : (userSide k a s).Outcome a s r) :
    Effect a s (plain r) := by
  cases h with
  | same ret => exact .same _
  | @committed new hnew =>
    simp only [userSide, commitUser, plain]
    split
    · exact .same _
    · split
      · exact .same _
      · split
        · exact .same _
        · exact .users hnew

lemma effect_of_groups {k : Kernel κ γ} (h : (groupSide k a s).Outcome a s r) :
    Effect a s (plain r) := by
  cases h with
  | same ret => exact .same _
  | @committed new hnew =>
    simp only [groupSide, commitGroup, plain]
    split
    · exact .same _
    · exact .groups hnew

variable [DecidableEq κ] [DecidableEq γ]

lemma effect_next (k : Kernel κ γ) (s : Task κ γ) (i : CredInvocation) :
    Effect i.answers s (next k s i) := by
  obtain ⟨call, a⟩ := i
  -- `setfsuid` and `setfsgid` return a number and no error, so they are cases of their own
  cases call with
  | setreuid ruid euid => exact effect_of_users (outcome_setre ruid euid)
  | setuid uid => exact effect_of_users (outcome_set uid)
  | setresuid ruid euid suid => exact effect_of_users (outcome_setres ruid euid suid)
  | getresuid => exact .same _
  | setregid rgid egid => exact effect_of_groups (outcome_setre rgid egid)
  | setgid gid => exact effect_of_groups (outcome_set gid)
  | setresgid rgid egid sgid => exact effect_of_groups (outcome_setres rgid egid sgid)
  | getresgid => exact .same _
  | setfsuid uid =>
    simp only [next, plain, sysSetfsuid]
    obtain ⟨hret, hsame | ⟨x, hput, hnew⟩⟩ := setfs_cases (d := userSide k a s) (a := a) (s := s)
      (fun new => { s with cred := { s.cred with uids := new } }) uid
    · rw [hsame]
      exact .same _
    · rw [hput]
      exact .fsuid hret hnew
  | setfsgid gid =>
    simp only [next, plain, sysSetfsgid]
    obtain ⟨hret, hsame | ⟨x, hput, hnew⟩⟩ := setfs_cases (d := groupSide k a s) (a := a) (s := s)
      (fun new => { s with cred := { s.cred with gids := new } }) gid
    · rw [hsame]
      exact .same _
    · rw [hput]
      exact .fsgid hret hnew

/-! ### Runs -/

variable (k : Kernel κ γ) {s₀ : Task κ γ}

/-- A process that is charged to its real user stays so, whoever it becomes; and a call that fails
changes nothing at all. -/
theorem charged_to_real_user (h₀ : s₀.cred.user = s₀.cred.uids.id)
    (h₀' : s₀.cred.ucounts = s₀.cred.uids.id) (h : Reachable (next k) s₀ s) :
    s.cred.user = s.cred.uids.id ∧ s.cred.ucounts = s.cred.uids.id ∧
      ∀ i, (next k s i).1.ret < 0 → (next k s i).2 = s := by
  have hcharged : s.cred.user = s.cred.uids.id ∧ s.cred.ucounts = s.cred.uids.id := by
    refine h.invariant (P := fun s => s.cred.user = s.cred.uids.id ∧
      s.cred.ucounts = s.cred.uids.id) ⟨h₀, h₀'⟩ fun s i hs => ?_
    have heffect := effect_next k s i
    generalize next k s i = r at heffect ⊢
    cases heffect with
    | same ret => exact hs
    | @users _ new _ hnew =>
      -- the user is another one only if the real uid is
      refine ⟨?_, rfl⟩
      by_cases hid : new.id = s.cred.uids.id
      · simp [hid, hs.1]
      · simp [hid]
    | groups hnew => exact hs
    | fsuid _ hnew => exact hs
    | fsgid _ hnew => exact hs
  refine ⟨hcharged.1, hcharged.2, fun i hi => ?_⟩
  -- a call that changes the task returns 0, or the number that was there
  have heffect := effect_next k s i
  generalize next k s i = r at heffect hi ⊢
  cases heffect with
  | same ret => rfl
  | users hnew => exact absurd hi (Int.lt_irrefl 0)
  | groups hnew => exact absurd hi (Int.lt_irrefl 0)
  | fsuid hret hnew => exact absurd hi (Int.not_lt.mpr hret)
  | fsgid hret hnew => exact absurd hi (Int.not_lt.mpr hret)

/-- No call fails for want of anything, and the caller is not privileged. -/
def granted : Answers := ⟨true, false, true, 0, 0, false, 0, 0, 0⟩

/-- The numbers of the initial user namespace. -/
def initNs : IdMap UInt32 where
  make u := if u = minusOne then none else some u
  munged u := u
  munged_of_make {u k} h := by
    split_ifs at h
    exact (Option.some.inj h).symm
  make_minusOne := if_pos rfl

def initKernel : Kernel UInt32 UInt32 := ⟨initNs, initNs, 0⟩

/-- A program of `root` with the `setuid` bit, started by another user. -/
def setuidRoot : Task UInt32 UInt32 :=
  ⟨⟨⟨1000, 0, 0, 0⟩, ⟨100, 100, 100, 100⟩, 1000, 1000⟩, false⟩

/-- It becomes `root`, and is charged to `root`. -/
theorem setuidRoot_charged :
    (next initKernel setuidRoot ⟨.setreuid 0 minusOne, granted⟩).2.cred.user =
      (next initKernel setuidRoot ⟨.setreuid 0 minusOne, granted⟩).2.cred.uids.id ∧
    (next initKernel setuidRoot ⟨.setreuid 0 minusOne, granted⟩).2.cred.uids.id = 0 :=
  ⟨(charged_to_real_user initKernel (rfl : setuidRoot.cred.user = setuidRoot.cred.uids.id) rfl
    ⟨[⟨.setreuid 0 minusOne, granted⟩], rfl⟩).1, by decide⟩

lemma within_next {i : CredInvocation} (hi : i.answers.nsCapableSetid = false) (s : Task κ γ) :
    s.cred.uids.Within (next k s i).2.cred.uids ∧ s.cred.gids.Within (next k s i).2.cred.gids := by
  have heffect := effect_next k s i
  generalize next k s i = r at heffect ⊢
  cases heffect with
  | same ret => exact ⟨.refl _, .refl _⟩
  | users hnew => exact ⟨hnew hi, .refl _⟩
  | groups hnew => exact ⟨.refl _, hnew hi⟩
  | fsuid _ hnew => exact ⟨hnew hi, .refl _⟩
  | fsgid _ hnew => exact ⟨.refl _, hnew hi⟩

lemma within_final (s : Task κ γ) (cs : List CredInvocation)
    (hcs : ∀ c ∈ cs, c.answers.nsCapableSetid = false) :
    s.cred.uids.Within (final (next k) s cs).cred.uids ∧
      s.cred.gids.Within (final (next k) s cs).cred.gids := by
  induction cs generalizing s with
  | nil => exact ⟨.refl _, .refl _⟩
  | cons c cs ih =>
    obtain ⟨hc, hcs⟩ := List.forall_mem_cons.mp hcs
    obtain ⟨husers, hgroups⟩ := within_next k hc s
    obtain ⟨husers', hgroups'⟩ := ih (next k s c).2 hcs
    exact ⟨husers.trans husers', hgroups.trans hgroups'⟩

end

/-! ### Any of one's own -/

section

variable {α : Type*} {m : IdMap α}

lemma wanted_of_make {u : UInt32} {x : α} (h : m.make u = some x) : m.wanted u = .ok (some x) := by
  have hne : u ≠ minusOne := by
    rintro rfl
    rw [m.make_minusOne] at h
    cases h
  rw [IdMap.wanted, if_neg hne, h]

variable [DecidableEq α] {d : Side α κ γ} {a : Answers} {s : Task κ γ}

lemma permitted_of_mem {x : α} {ids : List α} (h : x ∈ ids) (capable : Bool) :
    permitted (some x) ids capable = true := by
  simp [permitted, h]

/-- `setresuid` and `setresgid` let anyone choose from one's own. -/
lemma setres_own {ur ue us : UInt32} {r e s' : α} (hr : d.map.make ur = some r)
    (he : d.map.make ue = some e) (hs : d.map.make us = some s')
    (hown : ∀ x ∈ [r, e, s'], x ∈ d.ids.own) (ha : a.prepareCreds = true) :
    d.setres a s ur ue us = (0, s) ∧ d.ids.own = [r, e, s'] ∨
      d.setres a s ur ue us = d.commit ⟨r, e, s', e⟩ := by
  have hnew : d.ids.setres (some r) (some e) (some s') a.nsCapableSetid = some ⟨r, e, s', e⟩ := by
    simp only [Ids.setres]
    rw [if_pos]
    · rfl
    · exact ⟨permitted_of_mem (hown r (by simp)) _, permitted_of_mem (hown e (by simp)) _,
        permitted_of_mem (hown s' (by simp)) _⟩
  simp only [Side.setres, wanted_of_make hr, wanted_of_make he, wanted_of_make hs, hnew, ha,
    Bool.true_eq_false, if_false]
  split_ifs with hnoop
  · simp only [Ids.noOp, Option.mem_some_iff, forall_eq', decide_eq_true_eq] at hnoop
    obtain ⟨rfl, ⟨rfl, _⟩, rfl⟩ := hnoop
    exact Or.inl ⟨rfl, rfl⟩
  · exact Or.inr rfl

end

section

variable [DecidableEq κ] [DecidableEq γ] (k : Kernel κ γ)

lemma setresuid_own (s : Task κ γ) {r e s' : κ} (hown : ∀ x ∈ [r, e, s'], x ∈ s.cred.uids.own)
    (hnamed : ∀ x ∈ s.cred.uids.own, ∃ u, k.users.make u = some x) :
    ∃ ur ue us, (next k s ⟨.setresuid ur ue us, granted⟩).2.cred.uids.own = [r, e, s'] ∧
      (next k s ⟨.setresuid ur ue us, granted⟩).2.cred.gids = s.cred.gids := by
  obtain ⟨ur, hr⟩ := hnamed r (hown r (by simp))
  obtain ⟨ue, he⟩ := hnamed e (hown e (by simp))
  obtain ⟨us, hs⟩ := hnamed s' (hown s' (by simp))
  refine ⟨ur, ue, us, ?_⟩
  rcases setres_own (d := userSide k granted s) (a := granted) (s := s) hr he hs hown rfl with
    ⟨heq, hids⟩ | heq
  · simp only [next, plain, sysSetresuid, heq]
    exact ⟨hids, trivial⟩
  · simp only [next, plain, sysSetresuid, heq]
    simp [userSide, commitUser, granted, Ids.own]

lemma setresgid_own (s : Task κ γ) {r e s' : γ} (hown : ∀ x ∈ [r, e, s'], x ∈ s.cred.gids.own)
    (hnamed : ∀ x ∈ s.cred.gids.own, ∃ u, k.groups.make u = some x) :
    ∃ ur ue us, (next k s ⟨.setresgid ur ue us, granted⟩).2.cred.gids.own = [r, e, s'] ∧
      (next k s ⟨.setresgid ur ue us, granted⟩).2.cred.uids = s.cred.uids := by
  obtain ⟨ur, hr⟩ := hnamed r (hown r (by simp))
  obtain ⟨ue, he⟩ := hnamed e (hown e (by simp))
  obtain ⟨us, hs⟩ := hnamed s' (hown s' (by simp))
  refine ⟨ur, ue, us, ?_⟩
  rcases setres_own (d := groupSide k granted s) (a := granted) (s := s) hr he hs hown rfl with
    ⟨heq, hids⟩ | heq
  · simp only [next, plain, sysSetresgid, heq]
    exact ⟨hids, trivial⟩
  · simp only [next, plain, sysSetresgid, heq]
    simp [groupSide, commitGroup, granted, Ids.own]

/-- What a process without privileges can become: any combination of its real, effective and saved
users and groups, and nothing else. -/
theorem identities_reachable_iff (s₀ : Task κ γ)
    (husers : ∀ x ∈ s₀.cred.uids.own, ∃ u, k.users.make u = some x)
    (hgroups : ∀ x ∈ s₀.cred.gids.own, ∃ u, k.groups.make u = some x)
    (ruid euid suid : κ) (rgid egid sgid : γ) :
    (∃ cs, (∀ c ∈ cs, c.answers.nsCapableSetid = false) ∧
        (final (next k) s₀ cs).cred.uids.own = [ruid, euid, suid] ∧
        (final (next k) s₀ cs).cred.gids.own = [rgid, egid, sgid]) ↔
      (∀ x ∈ [ruid, euid, suid], x ∈ s₀.cred.uids.own) ∧
        ∀ x ∈ [rgid, egid, sgid], x ∈ s₀.cred.gids.own := by
  constructor
  · rintro ⟨cs, hcs, huids, hgids⟩
    obtain ⟨hu, hg⟩ := within_final k s₀ cs hcs
    rw [← huids, ← hgids]
    exact ⟨fun x hx => hu.mem hx, fun x hx => hg.mem hx⟩
  · rintro ⟨hu, hg⟩
    obtain ⟨ur, ue, us, huids, hgids⟩ := setresuid_own k s₀ hu husers
    obtain ⟨gr, ge, gs, hgids', huids'⟩ :=
      setresgid_own k (next k s₀ ⟨.setresuid ur ue us, granted⟩).2 (hgids ▸ hg) (hgids ▸ hgroups)
    refine ⟨[⟨.setresuid ur ue us, granted⟩, ⟨.setresgid gr ge gs, granted⟩], by simp [granted],
      ?_, hgids'⟩
    rw [← huids, ← huids']
    rfl

end

lemma initNs_named {ids : Ids UInt32} (h : minusOne ∉ ids.own) :
    ∀ x ∈ ids.own, ∃ u, initNs.make u = some x := by
  intro x hx
  refine ⟨x, if_neg ?_⟩
  rintro rfl
  exact h hx

/-- It can act as the user who started it and be `root` again later. -/
theorem setuidRoot_reachable :
    ∃ cs, (∀ c ∈ cs, c.answers.nsCapableSetid = false) ∧
      (final (next initKernel) setuidRoot cs).cred.uids.own = [1000, 1000, 0] ∧
      (final (next initKernel) setuidRoot cs).cred.gids.own = [100, 100, 100] := by
  refine (identities_reachable_iff initKernel setuidRoot (initNs_named (by decide))
    (initNs_named (by decide)) 1000 1000 0 100 100 100).mpr ?_
  simp only [List.forall_mem_cons, List.not_mem_nil, false_imp_iff, implies_true]
  decide

/-! ### Dropping privileges -/

section

variable {α : Type*} [DecidableEq α] {d : Side α κ γ} {a : Answers} {s : Task κ γ}
  {view : Task κ γ → Ids α} {u : UInt32} {x : α}

/-- What has been committed is there. -/
def Side.Commits (d : Side α κ γ) (view : Task κ γ → Ids α) : Prop :=
  ∀ new, (d.commit new).1 = 0 → view (d.commit new).2 = new

omit [DecidableEq α] in
lemma prepareCreds_zero (hcommits : d.Commits view) {new : Option (Ids α)}
    (h : (d.prepareCreds a s new).1 = 0) :
    ∃ ids, new = some ids ∧ view (d.prepareCreds a s new).2 = ids := by
  have hnomem : (-ENOMEM, s).1 ≠ 0 := (by decide : -ENOMEM ≠ 0)
  have hperm : (-EPERM, s).1 ≠ 0 := (by decide : -EPERM ≠ 0)
  simp only [Side.prepareCreds] at h ⊢
  split_ifs at h ⊢
  · exact absurd h hnomem
  · cases new with
    | none => exact absurd h hperm
    | some new => exact ⟨new, rfl, hcommits new h⟩

lemma setre_one (hcommits : d.Commits view) (hu : d.map.make u = some x)
    (h : (d.setre a s u u).1 = 0) : view (d.setre a s u u).2 = ⟨x, x, x, x⟩ := by
  simp only [Side.setre, wanted_of_make hu] at h ⊢
  obtain ⟨new, hnew, hview⟩ := prepareCreds_zero hcommits h
  rw [hview]
  simp only [Ids.setre] at hnew
  split_ifs at hnew
  cases hnew
  simp [Ids.saved]

lemma set_one (hcommits : d.Commits view) (hu : d.map.make u = some x)
    (ha : a.nsCapableSetid = true) (h : (d.set a s u).1 = 0) :
    view (d.set a s u).2 = ⟨x, x, x, x⟩ := by
  simp only [Side.set, hu, ha] at h ⊢
  obtain ⟨new, hnew, hview⟩ := prepareCreds_zero hcommits h
  rw [hview]
  exact (Option.some.inj hnew).symm

lemma setres_one (hcommits : d.Commits view) (hs : view s = d.ids) (hu : d.map.make u = some x)
    (h : (d.setres a s u u u).1 = 0) : view (d.setres a s u u u).2 = ⟨x, x, x, x⟩ := by
  have hnomem : (-ENOMEM, s).1 ≠ 0 := (by decide : -ENOMEM ≠ 0)
  have hperm : (-EPERM, s).1 ≠ 0 := (by decide : -EPERM ≠ 0)
  simp only [Side.setres, wanted_of_make hu] at h ⊢
  by_cases hnoop : d.ids.noOp (some x) (some x) (some x) = true
  · rw [if_pos hnoop]
    simp only [Ids.noOp, Option.mem_some_iff, forall_eq', decide_eq_true_eq] at hnoop
    obtain ⟨hid, ⟨heid, hfsid⟩, hsid⟩ := hnoop
    rw [hs]
    exact Ids.ext hid.symm heid.symm hsid.symm hfsid.symm
  · rw [if_neg hnoop] at h ⊢
    cases hnew : d.ids.setres (some x) (some x) (some x) a.nsCapableSetid with
    | none =>
      rw [hnew] at h
      exact absurd h hperm
    | some new =>
      rw [hnew] at h
      dsimp only at h ⊢
      split_ifs at h ⊢
      · exact absurd h hnomem
      · rw [hcommits new h]
        simp only [Ids.setres] at hnew
        split_ifs at hnew
        exact (Option.some.inj hnew).symm

end

section

variable [DecidableEq κ] {a : Answers}

lemma toInt_ne_zero_of_neg {x : Int32} (h : x < 0) : x.toInt ≠ 0 :=
  Int.ne_of_lt (Int32.lt_iff_toInt_lt.mp h)

lemma commits_userSide (k : Kernel κ γ) (s : Task κ γ) :
    (userSide k a s).Commits fun s => s.cred.uids := by
  intro new h
  simp only [userSide, commitUser] at h ⊢
  split_ifs at h ⊢ with halloc hsecurity hucounts
  · exact absurd h (by decide : -EAGAIN ≠ 0)
  · exact absurd h (toInt_ne_zero_of_neg hsecurity)
  · exact absurd h (toInt_ne_zero_of_neg hucounts)
  all_goals rfl

omit [DecidableEq κ] in
lemma commits_groupSide (k : Kernel κ γ) (s : Task κ γ) :
    (groupSide k a s).Commits fun s => s.cred.gids := by
  intro new h
  simp only [groupSide, commitGroup] at h ⊢
  split_ifs at h ⊢ with hsecurity
  · exact absurd h (toInt_ne_zero_of_neg hsecurity)
  · rfl

end

/-- The calls by which a process can have one user only. -/
inductive DropsUser (u : UInt32) : CredInvocation → Prop where
  | setreuid (a : Answers) : DropsUser u ⟨.setreuid u u, a⟩
  | setresuid (a : Answers) : DropsUser u ⟨.setresuid u u u, a⟩
  | setuid {a : Answers} (ha : a.nsCapableSetid = true) : DropsUser u ⟨.setuid u, a⟩

/-- The calls by which it can have one group only. -/
inductive DropsGroup (u : UInt32) : CredInvocation → Prop where
  | setregid (a : Answers) : DropsGroup u ⟨.setregid u u, a⟩
  | setresgid (a : Answers) : DropsGroup u ⟨.setresgid u u u, a⟩
  | setgid {a : Answers} (ha : a.nsCapableSetid = true) : DropsGroup u ⟨.setgid u, a⟩

section

variable [DecidableEq κ] [DecidableEq γ] (k : Kernel κ γ) {u : UInt32} {i : CredInvocation}

lemma uids_of_dropsUser {x : κ} (hu : k.users.make u = some x) (hi : DropsUser u i)
    {s : Task κ γ} (hret : (next k s i).1.ret = 0) :
    (next k s i).2.cred.uids = ⟨x, x, x, x⟩ := by
  cases hi with
  | setreuid a => exact setre_one (commits_userSide k s) hu hret
  | setresuid a => exact setres_one (commits_userSide k s) rfl hu hret
  | setuid ha => exact set_one (commits_userSide k s) hu ha hret

lemma gids_of_dropsGroup {x : γ} (hu : k.groups.make u = some x) (hi : DropsGroup u i)
    {s : Task κ γ} (hret : (next k s i).1.ret = 0) :
    (next k s i).2.cred.gids = ⟨x, x, x, x⟩ := by
  cases hi with
  | setregid a => exact setre_one (commits_groupSide k s) hu hret
  | setresgid a => exact setres_one (commits_groupSide k s) rfl hu hret
  | setgid ha => exact set_one (commits_groupSide k s) hu ha hret

lemma eq_of_within_one {α : Type*} {x : α} {new : Ids α}
    (h : (⟨x, x, x, x⟩ : Ids α).Within new) : new = ⟨x, x, x, x⟩ := by
  obtain ⟨hid, heid, hsid, hfsid⟩ := h
  simp only [Ids.own, List.mem_cons, List.not_mem_nil, or_false, or_self] at hid heid hsid hfsid
  exact Ids.ext hid heid hsid hfsid

/-- After a call that leaves a process with one user, and not with `(uid_t) -1`, it has this one
only for as long as it is not privileged again, whatever it calls; and the same for groups. -/
theorem dropped_for_good (s : Task κ γ) (hret : (next k s i).1.ret = 0) (cs : List CredInvocation)
    (hcs : ∀ c ∈ cs, c.answers.nsCapableSetid = false) :
    (∀ x, k.users.make u = some x → DropsUser u i →
        (final (next k) (next k s i).2 cs).cred.uids = ⟨x, x, x, x⟩) ∧
      ∀ x, k.groups.make u = some x → DropsGroup u i →
        (final (next k) (next k s i).2 cs).cred.gids = ⟨x, x, x, x⟩ := by
  obtain ⟨husers, hgroups⟩ := within_final k (next k s i).2 cs hcs
  constructor
  · intro x hu hi
    rw [uids_of_dropsUser k hu hi hret] at husers
    exact eq_of_within_one husers
  · intro x hu hi
    rw [gids_of_dropsGroup k hu hi hret] at hgroups
    exact eq_of_within_one hgroups

end

/-- After `setreuid` it cannot be `root` again. -/
theorem setuidRoot_dropped :
    (final (next initKernel) (next initKernel setuidRoot ⟨.setreuid 1000 1000, granted⟩).2
      [⟨.setuid 0, granted⟩, ⟨.setresuid 0 0 0, granted⟩]).cred.uids = ⟨1000, 1000, 1000, 1000⟩ :=
  (dropped_for_good initKernel setuidRoot rfl
    [⟨.setuid 0, granted⟩, ⟨.setresuid 0 0 0, granted⟩] (by decide)).1 1000 rfl (.setreuid _)

end Taro.Credentials
