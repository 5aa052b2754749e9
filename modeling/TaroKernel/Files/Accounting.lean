import Mathlib.Data.UInt
import TaroKernel.Files.Positions

/-!
# What `get_io_throttle` reports

Transfers add up their bytes in `rchar` and `wchar` and count themselves in `syscr` and `syscw`.
The bytes are exactly those the callers were told about. The counts, which `get_io_throttle`
reports, are less clear: `read` and `write` are counted only if they get past the checks, the vector
calls even if their descriptor is not open, and `copy_file_range` not if there is nothing to copy.
-/

namespace Taro.Files

open Machine Signed

variable {δ : Type*}

/-! ### Books -/

def IoAccounting.sysc (io : IoAccounting) : Direction → UInt64
  | .read  => io.syscr
  | .write => io.syscw

/-- The accounting of a call in the directions it transfers in. -/
def IoAccounting.accounts (io : IoAccounting) (dirs : Direction → Bool) (ret : SsizeT) :
    IoAccounting :=
  let io' := if dirs .read then io.account .read ret else io
  if dirs .write then io'.account .write ret else io'

section

variable (io : IoAccounting) (dirs : Direction → Bool) (ret : SsizeT) (dir dir' : Direction)

lemma account_sysc : (io.account dir' ret).sysc dir =
    io.sysc dir + if dir' = dir then 1 else 0 := by
  cases dir <;> cases dir' <;> by_cases h : 0 < ret <;>
    simp [IoAccounting.account, IoAccounting.sysc, IoAccounting.inc, IoAccounting.add, h]

lemma accounts_sysc : (io.accounts dirs ret).sysc dir =
    io.sysc dir + if dirs dir = true then 1 else 0 := by
  simp only [IoAccounting.accounts]
  cases hr : dirs .read <;> cases hw : dirs .write <;> cases dir <;> simp [account_sysc, hr, hw]

end

/-! ### Calls -/

/-- The directions a call transfers in. -/
def FileCall.transfers : FileCall → Direction → Bool
  | .read _, dir | .pread64 _ _, dir | .readv, dir | .preadv _ _, dir | .preadv2 _ _ _, dir =>
    dir = .read
  | .write _, dir | .pwrite64 _ _, dir | .writev, dir | .pwritev _ _, dir | .pwritev2 _ _ _, dir =>
    dir = .write
  | .sendfile _ _, _ | .sendfile64 _ _, _ | .copyFileRange _ _ _ _, _ => true
  | .lseek _ _, _ | .llseek _ _ _, _ | .getIoThrottle, _ => false

/-- The call is counted whatever comes of it. -/
def FileCall.counted : FileCall → Bool
  | .readv | .writev => true
  | .preadv posL posH | .pwritev posL posH => 0 ≤ posFromHilo posH posL
  | .preadv2 posL posH _ | .pwritev2 posL posH _ =>
    posFromHilo posH posL = -1 ∨ 0 ≤ posFromHilo posH posL
  | _ => false

/-- The books of the caller after a call: it was accounted for with what it transferred, or, if it
transferred nothing, it was not. The caller is told how much it was, or gets an error instead: if
something could not be written out, or a splice went further than it was asked to. -/
def Booked (v : Vfs δ) (i : FileInvocation) (r : FileRet) (s s' : State δ) : Prop :=
  ∃ ret, (r.ret = ret ∨ ¬ (i.Reports ∧ v.HonestSplice) ∧ r.ret < 0) ∧
    (s'.ioac = Function.update s.ioac i.task ((s.ioac i.task).accounts i.call.transfers ret) ∨
      s'.ioac = s.ioac ∧ ret ≤ 0 ∧ i.call.counted = false)

section

variable {v : Vfs δ} {dir : Direction} {a : Answers} {io : IoAccounting}

lemma callFileOp_ioac (o : OpenFile δ) (count : SizeT) (ppos : Option LoffT) (d : δ) :
    (callFileOp dir o count ppos d io).ioac = io := by
  rw [callFileOp]
  cases o.fOp.method dir with
  | some m => rfl
  | none =>
    cases o.fOp.iter dir with
    | some m => cases dir <;> rfl
    | none => rfl

lemma vfsRw_ioac (o : OpenFile δ) (count : SizeT) (ppos : Option LoffT) (d : δ) :
    (vfsRw dir o count ppos a d io).ioac = io ∧ (vfsRw dir o count ppos a d io).ret ≤ 0 ∨
      (vfsRw dir o count ppos a d io).ioac =
        io.account dir (vfsRw dir o count ppos a d io).ret := by
  simp only [vfsRw]
  split_ifs
  · exact Or.inl ⟨rfl, (by decide : err EBADF ≤ 0)⟩
  · exact Or.inl ⟨rfl, (by decide : err EINVAL ≤ 0)⟩
  · exact Or.inl ⟨rfl, (by decide : err EFAULT ≤ 0)⟩
  · exact Or.inl ⟨rfl, rwVerifyArea_nonpos ..⟩
  · rw [callFileOp_ioac]
    exact Or.inr rfl

lemma loopBuffers_ioac (m : Method δ) (lens : List SizeT) (ret : SsizeT) (ppos : Option LoffT)
    (d : δ) : (loopBuffers m io lens ret ppos d).ioac = io := by
  induction lens generalizing ret ppos d with
  | nil => rfl
  | cons len lens ih =>
    rw [loopBuffers]
    split_ifs
    · rfl
    · rfl
    · rfl
    · exact ih _ _ _

lemma vfsRwv_ioac (o : OpenFile δ) (ppos : Option LoffT) (flags : RwfT) (d : δ) :
    (vfsRwv dir o ppos flags a d io).ioac = io := by
  simp only [vfsRwv]
  split_ifs
  · rfl
  · rfl
  cases a.importIovec with
  | error e => rfl
  | ok iov =>
    dsimp only
    split_ifs
    · rfl
    · rfl
    -- a driver gets the buffers at once or one after the other
    rw [callFileOps]
    cases o.fOp.iter dir with
    | some m =>
      dsimp only
      rw [doIterReadvWritev]
      split_ifs <;> rfl
    | none =>
      cases o.fOp.method dir with
      | some m =>
        dsimp only
        rw [doLoopReadvWritev]
        split_ifs
        · rfl
        · exact loopBuffers_ioac _ _ _ _ _
      | none => rfl

/-- The books of `task` after a call in direction `dir` that returned `ret`. -/
def BookedFor (dir : Direction) (task : ℕ) (s : State δ) (r : SsizeT × State δ) : Prop :=
  r.2.ioac = Function.update s.ioac task ((s.ioac task).account dir r.1)

variable {s : State δ} {task : ℕ}

lemma moveOn_ioac (s : State δ) (f : ℕ) (ppos : Option LoffT) (r : Done δ) :
    (s.moveOn f ppos r).ioac = s.ioac := by
  simp only [State.moveOn]
  split
  · split_ifs <;> rfl
  · rfl

lemma finish_ioac_of_eq {r : Done δ} (h : r.ioac = s.ioac task) :
    (s.finish task r).ioac = s.ioac := by
  rw [State.finish, h, Function.update_eq_self]

lemma ksysRw_ioac (v : Vfs δ) (dir : Direction) (count : SizeT) (task : ℕ) (a : Answers)
    (s : State δ) :
    (ksysRw v (vfsRw dir) count task a s).2.ioac = s.ioac ∧
        (ksysRw v (vfsRw dir) count task a s).1 ≤ 0 ∨
      BookedFor dir task s (ksysRw v (vfsRw dir) count task a s) := by
  simp only [ksysRw, BookedFor]
  cases a.fdget with
  | none => exact Or.inl ⟨rfl, (by decide : err EBADF ≤ 0)⟩
  | some f =>
    dsimp only
    rw [moveOn_ioac]
    rcases vfsRw_ioac (v.files f) count (filePpos (v.files f) (s.cursor f)) s.storage with h | h
    · exact Or.inl ⟨finish_ioac_of_eq h.1, h.2⟩
    · rw [State.finish, h]
      exact Or.inr rfl

lemma ksysPrw_ioac (v : Vfs δ) (dir : Direction) (count : SizeT) (pos : LoffT) (task : ℕ)
    (a : Answers) (s : State δ) :
    (ksysPrw v dir (vfsRw dir) count pos task a s).2.ioac = s.ioac ∧
        (ksysPrw v dir (vfsRw dir) count pos task a s).1 ≤ 0 ∨
      BookedFor dir task s (ksysPrw v dir (vfsRw dir) count pos task a s) := by
  simp only [ksysPrw, BookedFor]
  split_ifs
  · exact Or.inl ⟨rfl, (by decide : err EINVAL ≤ 0)⟩
  cases a.fdget with
  | none => exact Or.inl ⟨rfl, (by decide : err EBADF ≤ 0)⟩
  | some f =>
    dsimp only
    split_ifs
    · exact Or.inl ⟨rfl, (by decide : err ESPIPE ≤ 0)⟩
    rcases vfsRw_ioac (v.files f) count (some pos) s.storage with h | h
    · exact Or.inl ⟨finish_ioac_of_eq h.1, h.2⟩
    · rw [State.finish, h]
      exact Or.inr rfl

lemma doRwv_ioac (v : Vfs δ) (dir : Direction) (flags : RwfT) (task : ℕ) (a : Answers)
    (s : State δ) : BookedFor dir task s (doRwv v dir (vfsRwv dir) flags task a s) := by
  simp only [doRwv, BookedFor]
  cases a.fdget with
  | none => rfl
  | some f =>
    dsimp only
    rw [State.account, moveOn_ioac, finish_ioac_of_eq (vfsRwv_ioac ..)]

lemma doPrwv_ioac (v : Vfs δ) (dir : Direction) {pos : LoffT} (hpos : 0 ≤ pos) (flags : RwfT)
    (task : ℕ) (a : Answers) (s : State δ) :
    BookedFor dir task s (doPrwv v dir (vfsRwv dir) pos flags task a s) := by
  simp only [doPrwv, BookedFor, if_neg (Int64.not_lt.mpr hpos)]
  cases a.fdget with
  | none => rfl
  | some f =>
    dsimp only
    split_ifs
    · rfl
    · rw [State.account, finish_ioac_of_eq (vfsRwv_ioac ..)]

lemma doPrwv_of_neg (v : Vfs δ) (dir : Direction) {pos : LoffT} (hpos : ¬ 0 ≤ pos) (flags : RwfT)
    (task : ℕ) (a : Answers) (s : State δ) :
    doPrwv v dir (vfsRwv dir) pos flags task a s = (err EINVAL, s) := by
  rw [doPrwv, if_pos (Int64.not_le.mp hpos)]

/-- What is not positive is not accounted for. -/
lemma accountBoth_congr {ret ret' : SsizeT} (h : ret ≤ 0) (h' : ret' ≤ 0) :
    io.accountBoth ret = io.accountBoth ret' := by
  simp only [IoAccounting.accountBoth, IoAccounting.account, gt_iff_lt,
    if_neg (Int64.not_lt.mpr h), if_neg (Int64.not_lt.mpr h')]

lemma sent_ioac (s : State δ) (task fin fout : ℕ) (ppos : Option LoffT) (r : Spliced δ) :
    (s.sent task fin fout ppos r).ioac =
      Function.update s.ioac task ((s.ioac task).accountBoth r.ret) := by
  simp only [State.sent]
  split_ifs <;> rfl

/-- The books after `do_sendfile`. -/
lemma SendExit.ioac {ppos : Option LoffT} {r : (SsizeT × Option LoffT) × State δ}
    (h : SendExit v ppos task a s r) :
    ∃ ret, (r.1.1 = ret ∨ ¬ v.HonestSplice ∧ r.1.1 < 0) ∧
      (r.2.ioac = s.ioac ∧ ret ≤ 0 ∨
        r.2.ioac = Function.update s.ioac task ((s.ioac task).accountBoth ret)) := by
  cases h with
  | refused h => exact ⟨_, Or.inl rfl, Or.inl ⟨rfl, Int64.le_of_lt h⟩⟩
  | @sent fin fout max n r hfin hfout hn hr =>
    by_cases hret : 0 < r.ret
    · refine ⟨r.ret, ?_, Or.inr (sent_ioac ..)⟩
      by_cases hover : r.pos > max
      · rw [if_pos hover]
        exact Or.inr ⟨fun hs => (sendTo_le hs hr hn hret).2 hover, (by decide : err EOVERFLOW < 0)⟩
      · rw [if_neg hover]
        exact Or.inl rfl
    · -- nothing was sent, and what is returned is not positive either
      refine ⟨_, Or.inl rfl, Or.inr ?_⟩
      rw [sent_ioac]
      congr 1
      refine accountBoth_congr (Int64.not_lt.mp hret) ?_
      split_ifs
      · exact (by decide : err EOVERFLOW ≤ 0)
      · exact Int64.not_lt.mp hret

lemma CopyExit.ioac {fin fout : ℕ} {posIn posOut : LoffT} {len : SizeT} {flags : UInt32}
    {r : SsizeT × State δ} (h : CopyExit v fin posIn fout posOut len flags task a s r) :
    r.2.ioac = s.ioac ∧ r.1 ≤ 0 ∨
      r.2.ioac = Function.update s.ioac task ((s.ioac task).accountBoth r.1) := by
  cases h with
  | refused h => exact Or.inl ⟨rfl, h⟩
  | copied hchecks hin hout => exact Or.inr rfl

end

/-! ### All calls -/

section

variable {v : Vfs δ} {s : State δ} {i : FileInvocation}

lemma booked_of_bookedFor {dir : Direction} {r : SsizeT × State δ}
    (htransfers : ∀ dir', i.call.transfers dir' = decide (dir' = dir))
    (h : BookedFor dir i.task s r) : Booked v i (.code r.1) s r.2 := by
  have hdirs : i.call.transfers = fun dir' => decide (dir' = dir) := funext htransfers
  refine ⟨r.1, Or.inl rfl, Or.inl ?_⟩
  rw [h, hdirs]
  cases dir <;> rfl

lemma booked_of_or {dir : Direction} {r : SsizeT × State δ}
    (htransfers : ∀ dir', i.call.transfers dir' = decide (dir' = dir))
    (hcounted : i.call.counted = false)
    (h : r.2.ioac = s.ioac ∧ r.1 ≤ 0 ∨ BookedFor dir i.task s r) :
    Booked v i (.code r.1) s r.2 := by
  rcases h with ⟨hsame, hret⟩ | h
  · exact ⟨_, Or.inl rfl, Or.inr ⟨hsame, hret, hcounted⟩⟩
  · exact booked_of_bookedFor htransfers h

lemma booked_doPrwv {dir : Direction} {pos : LoffT}
    (htransfers : ∀ dir', i.call.transfers dir' = decide (dir' = dir))
    (hcounted : ¬ 0 ≤ pos → i.call.counted = false) (flags : RwfT) :
    Booked v i (.code (doPrwv v dir (vfsRwv dir) pos flags i.task i.answers s).1) s
      (doPrwv v dir (vfsRwv dir) pos flags i.task i.answers s).2 := by
  by_cases hpos : 0 ≤ pos
  · exact booked_of_bookedFor htransfers (doPrwv_ioac v dir hpos flags i.task i.answers s)
  · rw [doPrwv_of_neg v dir hpos]
    exact ⟨_, Or.inl rfl, Or.inr ⟨rfl, (by decide : err EINVAL ≤ 0), hcounted hpos⟩⟩

lemma booked_of_ioac {r : FileRet} {s' : State δ} {ret : SsizeT}
    (hret : r.ret = ret ∨ ¬ (i.Reports ∧ v.HonestSplice) ∧ r.ret < 0)
    (htransfers : i.call.transfers = fun _ => true) (hcounted : i.call.counted = false)
    (h : s'.ioac = s.ioac ∧ ret ≤ 0 ∨
      s'.ioac = Function.update s.ioac i.task ((s.ioac i.task).accountBoth ret)) :
    Booked v i r s s' := by
  refine ⟨ret, hret, ?_⟩
  rcases h with ⟨hsame, hle⟩ | hbooked
  · exact Or.inr ⟨hsame, hle, hcounted⟩
  · rw [hbooked, htransfers]
    exact Or.inl rfl

lemma booked_sendfileWith {max : LoffT} (hmax : 0 ≤ max) {offset : UserOffset} {count : SizeT}
    (htransfers : i.call.transfers = fun _ => true) (hcounted : i.call.counted = false) :
    Booked v i (sendfileWith v max offset count i.task i.answers s).1 s
      (sendfileWith v max offset count i.task i.answers s).2 := by
  have hfault : err EFAULT < 0 := by decide
  cases offset with
  | null =>
    obtain ⟨ret, hret, hioac⟩ :=
      (exit_doSendfile v none count (Int64.le_refl 0) i.task i.answers s).ioac
    refine booked_of_ioac (hret.imp_right fun h => ⟨fun hs => h.1 hs.2, h.2⟩) htransfers hcounted
      hioac
  | fault =>
    exact booked_of_ioac (Or.inl rfl) htransfers hcounted (Or.inl ⟨rfl, Int64.le_of_lt hfault⟩)
  | pos p =>
    obtain ⟨ret, hret, hioac⟩ := (exit_doSendfile v (some p) count hmax i.task i.answers s).ioac
    simp only [sendfileWith]
    split_ifs with hcopy
    · exact booked_of_ioac (hret.imp_right fun h => ⟨fun hs => h.1 hs.2, h.2⟩) htransfers hcounted
        hioac
    · exact booked_of_ioac (Or.inr ⟨fun hs => hcopy hs.1.1, hfault⟩) htransfers hcounted hioac

lemma leavePos_ioac (s : State δ) (off : UserOffset) (f : ℕ) (pos : LoffT) :
    (s.leavePos off f pos).ioac = s.ioac := by
  rw [State.leavePos]
  split_ifs <;> rfl

lemma booked_copyFileRange {offIn offOut : UserOffset} {len : SizeT} {flags : UInt32}
    (htransfers : i.call.transfers = fun _ => true) (hcounted : i.call.counted = false) :
    Booked v i (copyFileRange v offIn offOut len flags i.task i.answers s).1 s
      (copyFileRange v offIn offOut len flags i.task i.answers s).2 := by
  have hcall := copyCall_copyFileRange v offIn offOut len flags i.task i.answers s
  generalize copyFileRange v offIn offOut len flags i.task i.answers s = r at hcall
  cases hcall with
  | refused h =>
    exact booked_of_ioac (Or.inl rfl) htransfers hcounted (Or.inl ⟨rfl, Int64.le_of_lt h⟩)
  | nothing hexit hret => exact booked_of_ioac (Or.inl rfl) htransfers hcounted hexit.ioac
  | copied hfin hfout hin hout hexit hret =>
    have hioac := hexit.ioac
    refine booked_of_ioac ?_ htransfers hcounted (by rwa [leavePos_ioac, leavePos_ioac])
    dsimp only
    split_ifs with hlost
    · refine Or.inr ⟨fun hs => ?_, by decide⟩
      simp [UserOffset.lost, hs.1.1, hs.1.2] at hlost
    · exact Or.inl rfl

lemma ksysLseek_ioac (v : Vfs δ) (offset : LoffT) (whence : UInt32) (a : Answers) (s : State δ) :
    (ksysLseek v offset whence a s).2.ioac = s.ioac := by
  rw [ksysLseek]
  cases a.fdget with
  | none => rfl
  | some f =>
    dsimp only
    split <;> rfl

lemma llseek_ioac (v : Vfs δ) (high low : UInt64) (whence : UInt32) (a : Answers) (s : State δ) :
    (llseek v high low whence a s).2.ioac = s.ioac := by
  rw [llseek]
  cases a.fdget with
  | none => rfl
  | some f =>
    dsimp only
    split
    · rfl
    · split_ifs <;> rfl

/-- One call. -/
lemma next_booked (v : Vfs δ) (s : State δ) (i : FileInvocation) :
    Booked v i (next v s i).1 s (next v s i).2 := by
  obtain ⟨task, call, a⟩ := i
  have hnone : ∀ {r : FileRet} {s' : State δ} {call : FileCall}, s'.ioac = s.ioac →
      (call.transfers = fun _ => false) → Booked v ⟨task, call, a⟩ r s s' := by
    intro r s' call h hcall
    refine ⟨r.ret, Or.inl rfl, Or.inl ?_⟩
    rw [h, hcall]
    exact (Function.update_eq_self _ _).symm
  -- by the function a call ends in; `preadv2` at position -1 is `readv`
  cases call with
  | lseek offset whence => exact hnone (ksysLseek_ioac ..) rfl
  | llseek high low whence => exact hnone (llseek_ioac ..) rfl
  | getIoThrottle => exact hnone rfl rfl
  | read count => exact booked_of_or (fun _ => rfl) rfl (ksysRw_ioac v .read count task a s)
  | write count => exact booked_of_or (fun _ => rfl) rfl (ksysRw_ioac v .write count task a s)
  | pread64 count pos =>
    exact booked_of_or (fun _ => rfl) rfl (ksysPrw_ioac v .read count pos task a s)
  | pwrite64 count pos =>
    exact booked_of_or (fun _ => rfl) rfl (ksysPrw_ioac v .write count pos task a s)
  | readv => exact booked_of_bookedFor (fun _ => rfl) (doRwv_ioac v .read 0 task a s)
  | writev => exact booked_of_bookedFor (fun _ => rfl) (doRwv_ioac v .write 0 task a s)
  | preadv posL posH =>
    exact booked_doPrwv (i := ⟨task, .preadv posL posH, a⟩) (fun _ => rfl) decide_eq_false 0
  | pwritev posL posH =>
    exact booked_doPrwv (i := ⟨task, .pwritev posL posH, a⟩) (fun _ => rfl) decide_eq_false 0
  | preadv2 posL posH flags =>
    simp only [next, preadv2]
    split_ifs with hminus
    · exact booked_of_bookedFor (fun _ => rfl) (doRwv_ioac v .read flags task a s)
    · exact booked_doPrwv (i := ⟨task, .preadv2 posL posH flags, a⟩) (fun _ => rfl)
        (fun hpos => decide_eq_false (not_or.mpr ⟨hminus, hpos⟩)) flags
  | pwritev2 posL posH flags =>
    simp only [next, pwritev2]
    split_ifs with hminus
    · exact booked_of_bookedFor (fun _ => rfl) (doRwv_ioac v .write flags task a s)
    · exact booked_doPrwv (i := ⟨task, .pwritev2 posL posH flags, a⟩) (fun _ => rfl)
        (fun hpos => decide_eq_false (not_or.mpr ⟨hminus, hpos⟩)) flags
  | sendfile offset count => exact booked_sendfileWith (by decide) rfl rfl
  | sendfile64 offset count => exact booked_sendfileWith (Int64.le_refl 0) rfl rfl
  | copyFileRange offIn offOut len flags => exact booked_copyFileRange rfl rfl

end

/-! ### Runs -/

section

variable {v : Vfs δ}

/-- The call is one of `task`, and transfers in direction `dir`. -/
def calledBy (task : ℕ) (dir : Direction) (st : Step (State δ) FileInvocation FileRet) : Bool :=
  st.input.task = task ∧ st.input.call.transfers dir

/-- Such a call that is certain to be counted. -/
def countedFor (task : ℕ) (dir : Direction) (st : Step (State δ) FileInvocation FileRet) : Bool :=
  calledBy task dir st ∧ (0 < st.output.ret ∨ st.input.call.counted)

/-- A call is counted at most once, and not at all only if it is not certain to be. -/
lemma next_sysc (v : Vfs δ) (s : State δ) (i : FileInvocation) (task : ℕ) (dir : Direction) :
    ∃ n : ℕ, ((next v s i).2.ioac task).sysc dir = (s.ioac task).sysc dir + .ofNat n ∧
      (if countedFor task dir (stepAt (next v) s i) then 1 else 0) ≤ n ∧
      n ≤ if calledBy task dir (stepAt (next v) s i) then 1 else 0 := by
  obtain ⟨ret, hret, hbooked⟩ := next_booked v s i
  rcases hbooked with hbooked | ⟨hsame, hle, hcounted⟩
  · refine ⟨if calledBy task dir (stepAt (next v) s i) then 1 else 0, ?_, ?_, Nat.le_refl _⟩
    · rw [hbooked, Function.update_apply]
      by_cases htask : task = i.task
      · subst htask
        cases hdir : i.call.transfers dir <;> simp [accounts_sysc, calledBy, hdir]
      · simp [htask, calledBy, Ne.symm htask]
    · by_cases hcalled : calledBy task dir (stepAt (next v) s i)
      · rw [if_pos hcalled]
        split_ifs <;> decide
      · simp [countedFor, hcalled]
  · have hnot : ¬ 0 < (next v s i).1.ret := by
      rcases hret with rfl | ⟨-, hneg⟩
      · exact Int64.not_lt.mpr hle
      · exact Int64.lt_asymm hneg
    refine ⟨0, ?_, ?_, Nat.zero_le _⟩
    · rw [hsame]
      exact (UInt64.add_zero _).symm
    · simp [countedFor, hnot, hcounted]

lemma sysc_bounds (v : Vfs δ) (s₀ : State δ) (cs : List FileInvocation) (task : ℕ)
    (dir : Direction) :
    ∃ n : ℕ, ((final (next v) s₀ cs).ioac task).sysc dir = (s₀.ioac task).sysc dir + .ofNat n ∧
      (steps (next v) s₀ cs).countP (countedFor task dir) ≤ n ∧
      n ≤ (steps (next v) s₀ cs).countP (calledBy task dir) := by
  induction cs generalizing s₀ with
  | nil => exact ⟨0, (UInt64.add_zero _).symm, Nat.le_refl _, Nat.le_refl _⟩
  | cons c cs ih =>
    obtain ⟨m, hm, hlower, hupper⟩ := next_sysc v s₀ c task dir
    obtain ⟨n, hn, hlower', hupper'⟩ := ih (next v s₀ c).2
    refine ⟨n + m, ?_, ?_, ?_⟩
    · rw [final_cons, hn, hm, UInt64.add_assoc, Nat.add_comm, UInt64.ofNat_add]
    · rw [steps_cons, List.countP_cons]
      exact Nat.add_le_add hlower' hlower
    · rw [steps_cons, List.countP_cons]
      exact Nat.add_le_add hupper' hupper

/-- What `get_io_throttle` shows of a task: the calls that transferred something and the vector
calls at a valid position are counted, no call is counted twice, and a task never waits. -/
theorem throttle_counts (v : Vfs δ) (s₀ : State δ) (cs : List FileInvocation) {a : Answers}
    {task : ℕ} (hfound : a.pidTask = some task) (hcopied : a.copyToUser = true) :
    ∃ io, getIoThrottle a (final (next v) s₀ cs) = ⟨0, none, none, some io⟩ ∧ io.ioWaitTime = 0 ∧
      ∃ reads writes : ℕ,
        io.readSyscalls = (s₀.ioac task).syscr + .ofNat reads ∧
        io.writeSyscalls = (s₀.ioac task).syscw + .ofNat writes ∧
        (steps (next v) s₀ cs).countP (countedFor task .read) ≤ reads ∧
        reads ≤ (steps (next v) s₀ cs).countP (calledBy task .read) ∧
        (steps (next v) s₀ cs).countP (countedFor task .write) ≤ writes ∧
        writes ≤ (steps (next v) s₀ cs).countP (calledBy task .write) := by
  obtain ⟨reads, hreads, hlower, hupper⟩ := sysc_bounds v s₀ cs task .read
  obtain ⟨writes, hwrites, hlower', hupper'⟩ := sysc_bounds v s₀ cs task .write
  let io := (final (next v) s₀ cs).ioac task
  refine ⟨⟨io.readBytes, io.writeBytes, io.syscr, io.syscw, 0⟩, ?_, rfl, reads, writes, hreads,
    hwrites, hlower, hupper, hlower', hupper'⟩
  simp only [getIoThrottle, hfound, hcopied, if_true, io]

end

/-- The books of task 1. -/
def askedForOne : Answers := { granted 0 with pidTask := some 1 }

theorem readSeekWrite_throttle :
    ∃ io, getIoThrottle askedForOne (final (next pageFiles) atStart readSeekWrite) =
        ⟨0, none, none, some io⟩ ∧ io.ioWaitTime = 0 ∧
      ∃ reads writes : ℕ,
        io.readSyscalls = (atStart.ioac 1).syscr + .ofNat reads ∧
        io.writeSyscalls = (atStart.ioac 1).syscw + .ofNat writes ∧
        (steps (next pageFiles) atStart readSeekWrite).countP (countedFor 1 .read) ≤ reads ∧
        reads ≤ (steps (next pageFiles) atStart readSeekWrite).countP (calledBy 1 .read) ∧
        (steps (next pageFiles) atStart readSeekWrite).countP (countedFor 1 .write) ≤ writes ∧
        writes ≤ (steps (next pageFiles) atStart readSeekWrite).countP (calledBy 1 .write) :=
  throttle_counts pageFiles atStart readSeekWrite rfl rfl

end Taro.Files
