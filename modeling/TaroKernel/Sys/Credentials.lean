import TaroKernel.Kernel

/-!
# Credentials

The syscalls of `kernel/sys.c` by which a process changes who it is: `setreuid`, `setuid`,
`setresuid`, `setfsuid`, their counterparts for groups, and the two that read. Users and groups have
four identities each, and most of what there is to say is the same for both; what the syscalls for
users do on top is to find the `user_struct` and the `ucounts` of the new user, and to note whether
it has too many processes.

Whether the caller has `CAP_SETUID` or `CAP_SETGID`, what the security modules say and whether there
is memory are answers of the rest of the kernel. A syscall names users by the numbers of the
caller's user namespace.
-/

namespace Taro.Credentials

variable {κ γ : Type*}

def EAGAIN : Int := 11

/-! ### Identities -/

/-- The identities of a user (`uid`, `euid`, `suid`, `fsuid`), or those of a group. -/
@[ext]
structure Ids (κ : Type*) where
  id : κ
  eid : κ
  sid : κ
  fsid : κ
  deriving DecidableEq, Repr

/-- `(uid_t) -1`, for an identity that is to be left as it is. -/
def minusOne : UInt32 := 4294967295

/-- The numbers of a user namespace: `make_kuid` and `from_kuid_munged`, or those for groups. A
number that is not mapped gives no valid identity; `(uid_t) -1` never does. -/
structure IdMap (κ : Type*) where
  make : UInt32 → Option κ
  munged : κ → UInt32
  munged_of_make : ∀ {u k}, make u = some k → munged k = u
  make_minusOne : make minusOne = none

/-- What a number asks for: nothing, an identity, or one that is not valid. -/
def IdMap.wanted (m : IdMap κ) (u : UInt32) : Except Int (Option κ) :=
  if u = minusOne then .ok none
  else
    match m.make u with
    | none   => .error (-EINVAL)
    | some k => .ok (some k)

section

variable [DecidableEq κ]

/-- Nothing is wanted, or one of the caller's identities, or the caller is privileged. -/
def permitted (k : Option κ) (ids : List κ) (capable : Bool) : Bool :=
  match k with
  | none   => true
  | some k => k ∈ ids ∨ capable

/-- The saved identity after `setreuid` and `setregid`: the new effective one, if the real one is
set at all or the effective one is set to another than the real one. -/
def Ids.saved (old : Ids κ) (r e : Option κ) (eid : κ) : κ :=
  if r.isSome ∨ e.isSome ∧ eid ≠ old.id then eid else old.sid

/-- The new identities of `setreuid` and `setregid`, if they are permitted. -/
def Ids.setre (old : Ids κ) (r e : Option κ) (capable : Bool) : Option (Ids κ) :=
  if permitted r [old.id, old.eid] capable = false then none
  else if permitted e [old.id, old.eid, old.sid] capable = false then none
  else
    let eid := e.getD old.eid
    some ⟨r.getD old.id, eid, old.saved r e eid, eid⟩

/-- Those of `setuid` and `setgid`. -/
def Ids.set (old : Ids κ) (k : κ) (capable : Bool) : Option (Ids κ) :=
  if capable then some ⟨k, k, k, k⟩
  else if k = old.id ∨ k = old.sid then some { old with eid := k, fsid := k }
  else none

/-- `setresuid` and `setresgid` have nothing to do. -/
def Ids.noOp (old : Ids κ) (r e s : Option κ) : Bool :=
  (∀ k ∈ r, k = old.id) ∧ (∀ k ∈ e, k = old.eid ∧ k = old.fsid) ∧ ∀ k ∈ s, k = old.sid

/-- The new identities of `setresuid` and `setresgid`. -/
def Ids.setres (old : Ids κ) (r e s : Option κ) (capable : Bool) : Option (Ids κ) :=
  let ids := [old.id, old.eid, old.sid]
  if permitted r ids capable ∧ permitted e ids capable ∧ permitted s ids capable then
    some ⟨r.getD old.id, e.getD old.eid, s.getD old.sid, e.getD old.eid⟩
  else none

/-- The new identities of `setfsuid` and `setfsgid`. -/
def Ids.setfs (old : Ids κ) (k : κ) (capable : Bool) : Option (Ids κ) :=
  if permitted (some k) [old.id, old.eid, old.sid, old.fsid] capable ∧ k ≠ old.fsid then
    some { old with fsid := k }
  else none

end

/-! ### Tasks -/

/-- A `struct cred`. A `user_struct` and a `ucounts` are of a user. -/
structure Cred (κ γ : Type*) where
  uids : Ids κ
  gids : Ids γ
  user : κ
  ucounts : κ
  deriving DecidableEq, Repr

/-- A task: its credentials, and `PF_NPROC_EXCEEDED` of its flags. -/
structure Task (κ γ : Type*) where
  cred : Cred κ γ
  nprocExceeded : Bool
  deriving DecidableEq, Repr

/-- The answers one call gets. -/
structure Answers where
  prepareCreds : Bool
  /-- `ns_capable_setid` for `CAP_SETUID` or `CAP_SETGID`. -/
  nsCapableSetid : Bool
  allocUid : Bool
  /-- `security_task_fix_setuid` or `security_task_fix_setgid`. -/
  securityTaskFix : Int32
  setCredUcounts : Int32
  isRlimitOverlimit : Bool
  /-- What the three `put_user` of a call that reads return. -/
  putUser : Int32 × Int32 × Int32
  deriving DecidableEq, Repr

/-- The caller's user namespace, and the user of `INIT_USER`. -/
structure Kernel (κ γ : Type*) where
  users : IdMap κ
  groups : IdMap γ
  initUser : κ

section

variable [DecidableEq κ]

/-- `flag_nproc_exceeded`, with the credentials that are to be committed. -/
def flagNprocExceeded (initUser : κ) (new : Cred κ γ) (a : Answers) (s : Task κ γ) : Bool :=
  if new.ucounts = s.cred.ucounts then s.nprocExceeded
  else a.isRlimitOverlimit ∧ new.user ≠ initUser

/-- The part the syscalls for users have in common: `set_user` for another user, the security
modules, `set_cred_ucounts`, `flag_nproc_exceeded`, `commit_creds`.

That `alloc_uid` returns the structure of the user it is given, and `set_cred_ucounts` stores the
counts of the real user, is assumed here: neither is part of `kernel/sys.c`. -/
def commitUser (initUser : κ) (new : Ids κ) (a : Answers) (s : Task κ γ) : Int × Task κ γ :=
  if new.id ≠ s.cred.uids.id ∧ a.allocUid = false then (-EAGAIN, s)
  else if a.securityTaskFix < 0 then (a.securityTaskFix.toInt, s)
  else if a.setCredUcounts < 0 then (a.setCredUcounts.toInt, s)
  else
    let user := if new.id ≠ s.cred.uids.id then new.id else s.cred.user
    let cred := { s.cred with uids := new, user := user, ucounts := new.id }
    (0, ⟨cred, flagNprocExceeded initUser cred a s⟩)

end

/-- The part the syscalls for groups have in common. -/
def commitGroup (new : Ids γ) (a : Answers) (s : Task κ γ) : Int × Task κ γ :=
  if a.securityTaskFix < 0 then (a.securityTaskFix.toInt, s)
  else (0, { s with cred := { s.cred with gids := new } })

/-! ### Syscalls -/

/-- The users or the groups of a caller, and how a change of them is committed. -/
structure Side (α κ γ : Type*) where
  map : IdMap α
  ids : Ids α
  commit : Ids α → Int × Task κ γ

def userSide [DecidableEq κ] (k : Kernel κ γ) (a : Answers) (s : Task κ γ) : Side κ κ γ :=
  ⟨k.users, s.cred.uids, fun new => commitUser k.initUser new a s⟩

def groupSide (k : Kernel κ γ) (a : Answers) (s : Task κ γ) : Side γ κ γ :=
  ⟨k.groups, s.cred.gids, fun new => commitGroup new a s⟩

section

variable {α : Type*} [DecidableEq α] (d : Side α κ γ) (a : Answers) (s : Task κ γ)

/-- Credentials are prepared, and then aborted if there are no new identities for them. -/
def Side.prepareCreds (new : Option (Ids α)) : Int × Task κ γ :=
  if a.prepareCreds = false then (-ENOMEM, s)
  else
    match new with
    | none     => (-EPERM, s)
    | some new => d.commit new

/-- `__sys_setreuid` and `__sys_setregid`. -/
def Side.setre (r e : UInt32) : Int × Task κ γ :=
  match d.map.wanted r, d.map.wanted e with
  | .ok r, .ok e                  => d.prepareCreds a s (d.ids.setre r e a.nsCapableSetid)
  | .error err, _ | _, .error err => (err, s)

/-- `__sys_setuid` and `__sys_setgid`. -/
def Side.set (u : UInt32) : Int × Task κ γ :=
  match d.map.make u with
  | none   => (-EINVAL, s)
  | some k => d.prepareCreds a s (d.ids.set k a.nsCapableSetid)

/-- `__sys_setresuid` and `__sys_setresgid`, which prepare credentials only when they know that the
change is permitted. -/
def Side.setres (r e s' : UInt32) : Int × Task κ γ :=
  match d.map.wanted r, d.map.wanted e, d.map.wanted s' with
  | .ok r, .ok e, .ok s'                                       =>
    if d.ids.noOp r e s' then (0, s)
    else
      match d.ids.setres r e s' a.nsCapableSetid with
      | none     => (-EPERM, s)
      | some new => if a.prepareCreds = false then (-ENOMEM, s) else d.commit new
  | .error err, _, _ | _, .error err, _ | _, _, .error err => (err, s)

/-- `__sys_getresuid` and `__sys_getresgid`: the code, and what was written. -/
def Side.getres : Int × List UInt32 :=
  let ruid := d.map.munged d.ids.id
  let euid := d.map.munged d.ids.eid
  let suid := d.map.munged d.ids.sid
  if a.putUser.1 ≠ 0 then (a.putUser.1.toInt, [])
  else if a.putUser.2.1 ≠ 0 then (a.putUser.2.1.toInt, [ruid])
  else if a.putUser.2.2 ≠ 0 then (a.putUser.2.2.toInt, [ruid, euid])
  else (0, [ruid, euid, suid])

/-- `__sys_setfsuid` and `__sys_setfsgid` return the old identity, whatever they do. -/
def Side.setfs (put : Ids α → Task κ γ) (u : UInt32) : Int × Task κ γ :=
  let oldFsid : Int := (d.map.munged d.ids.fsid).toNat
  match d.map.make u with
  | none   => (oldFsid, s)
  | some k =>
    if a.prepareCreds = false then (oldFsid, s)
    else
      match d.ids.setfs k a.nsCapableSetid with
      | none     => (oldFsid, s)
      | some new => if a.securityTaskFix = 0 then (oldFsid, put new) else (oldFsid, s)

end

section

variable [DecidableEq κ] [DecidableEq γ] (k : Kernel κ γ)

def sysSetreuid (ruid euid : UInt32) (a : Answers) (s : Task κ γ) : Int × Task κ γ :=
  (userSide k a s).setre a s ruid euid

def sysSetregid (rgid egid : UInt32) (a : Answers) (s : Task κ γ) : Int × Task κ γ :=
  (groupSide k a s).setre a s rgid egid

def sysSetuid (uid : UInt32) (a : Answers) (s : Task κ γ) : Int × Task κ γ :=
  (userSide k a s).set a s uid

def sysSetgid (gid : UInt32) (a : Answers) (s : Task κ γ) : Int × Task κ γ :=
  (groupSide k a s).set a s gid

def sysSetresuid (ruid euid suid : UInt32) (a : Answers) (s : Task κ γ) : Int × Task κ γ :=
  (userSide k a s).setres a s ruid euid suid

def sysSetresgid (rgid egid sgid : UInt32) (a : Answers) (s : Task κ γ) : Int × Task κ γ :=
  (groupSide k a s).setres a s rgid egid sgid

def getresuid (a : Answers) (s : Task κ γ) : Int × List UInt32 := (userSide k a s).getres a

def getresgid (a : Answers) (s : Task κ γ) : Int × List UInt32 := (groupSide k a s).getres a

def sysSetfsuid (uid : UInt32) (a : Answers) (s : Task κ γ) : Int × Task κ γ :=
  (userSide k a s).setfs a s (fun new => { s with cred := { s.cred with uids := new } }) uid

def sysSetfsgid (gid : UInt32) (a : Answers) (s : Task κ γ) : Int × Task κ γ :=
  (groupSide k a s).setfs a s (fun new => { s with cred := { s.cred with gids := new } }) gid

end

/-! ### The machine -/

inductive CredCall where
  | setreuid (ruid euid : UInt32)
  | setuid (uid : UInt32)
  | setresuid (ruid euid suid : UInt32)
  | setfsuid (uid : UInt32)
  | getresuid
  | setregid (rgid egid : UInt32)
  | setgid (gid : UInt32)
  | setresgid (rgid egid sgid : UInt32)
  | setfsgid (gid : UInt32)
  | getresgid
  deriving DecidableEq, Repr

structure CredInvocation where
  call : CredCall
  answers : Answers
  deriving DecidableEq, Repr

/-- What a call returns, and what it writes to user memory. -/
structure CredRet where
  ret : Int
  written : List UInt32
  deriving DecidableEq, Repr

/-- Nothing is written. -/
def plain (r : Int × Task κ γ) : CredRet × Task κ γ := (⟨r.1, []⟩, r.2)

def next [DecidableEq κ] [DecidableEq γ] (k : Kernel κ γ) (s : Task κ γ) (i : CredInvocation) :
    CredRet × Task κ γ :=
  match i.call with
  | .setreuid ruid euid       => plain (sysSetreuid k ruid euid i.answers s)
  | .setuid uid               => plain (sysSetuid k uid i.answers s)
  | .setresuid ruid euid suid => plain (sysSetresuid k ruid euid suid i.answers s)
  | .setfsuid uid             => plain (sysSetfsuid k uid i.answers s)
  | .getresuid                => (⟨(getresuid k i.answers s).1, (getresuid k i.answers s).2⟩, s)
  | .setregid rgid egid       => plain (sysSetregid k rgid egid i.answers s)
  | .setgid gid               => plain (sysSetgid k gid i.answers s)
  | .setresgid rgid egid sgid => plain (sysSetresgid k rgid egid sgid i.answers s)
  | .setfsgid gid             => plain (sysSetfsgid k gid i.answers s)
  | .getresgid                => (⟨(getresgid k i.answers s).1, (getresgid k i.answers s).2⟩, s)

end Taro.Credentials
