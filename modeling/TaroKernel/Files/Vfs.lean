import Mathlib.Algebra.GroupWithZero.Nat
import Mathlib.Logic.Function.Basic
import TaroKernel.Kernel

/-!
# Open files

The part of `fs/read_write.c` below the syscalls: seeking, the checks before a transfer, transfers
to and from one buffer (`vfs_read`, `vfs_write`) and several (`vfs_readv`, `vfs_writev`).

What a driver does is up to the driver. A file brings its operations along, and they work on a
storage of any type; other files may keep their data in the same storage. Which of the operations
there are, and what the file may be used for, does not change while the file is open, so this is
kept apart from the position, which does.
-/

namespace Taro.Files

variable {δ : Type*}

/-! ### Words and error numbers -/

abbrev LoffT := Int64

abbrev SsizeT := Int64

/-- Flags of the vector calls. -/
abbrev RwfT := Int32

def ENXIO : Int := 6
def EBADF : Int := 9
def EXDEV : Int := 18
def EISDIR : Int := 21
def ETXTBSY : Int := 26
def EFBIG : Int := 27
def ESPIPE : Int := 29
def EOVERFLOW : Int := 75
def EOPNOTSUPP : Int := 95

/-- An error number where a `loff_t` or an `ssize_t` is returned. -/
def err (e : Int) : Int64 := .ofInt (-e)

def OFFSET_MAX : LoffT := 9223372036854775807

/-- `INT_MAX & PAGE_MASK`. -/
def MAX_RW_COUNT : SizeT := 2147479552

/-- `if (count > MAX_RW_COUNT) count = MAX_RW_COUNT`. -/
def cutCount (count : SizeT) : SizeT := if count > MAX_RW_COUNT then MAX_RW_COUNT else count

def RWF_HIPRI : RwfT := 1

/-- A size, which is a signed word and not negative. -/
abbrev FileSize := {size : LoffT // 0 ≤ size}

/-- The answer of a hook that returns 0 or an error number. -/
abbrev Verdict := {code : Int64 // code ≤ 0}

/-- The answer of a function that has failed. -/
abbrev Failure := {code : Int64 // code < 0}

/-! ### Files -/

/-- The first argument of `rw_verify_area`: `READ` or `WRITE`. -/
inductive Direction where
  | read
  | write
  deriving DecidableEq, Repr

/-- `f_mode`: by direction `FMODE_READ` and `FMODE_WRITE`, `FMODE_CAN_READ` and `FMODE_CAN_WRITE`,
`FMODE_PREAD` and `FMODE_PWRITE`; then the flags that have no direction. -/
structure FMode where
  rw : Direction → Bool
  canRw : Direction → Bool
  prw : Direction → Bool
  lseek : Bool
  stream : Bool
  unsignedOffset : Bool

/-- What a transfer leaves: its return value, the position and the storage. -/
structure Moved (δ : Type*) where
  ret : SsizeT
  pos : LoffT
  storage : δ

/-- `->read` and `->write`, with a number of bytes. They get no position if `ppos` is `NULL`, and
what they leave there is not looked at then. -/
abbrev Method (δ : Type*) := δ → SizeT → Option LoffT → Moved δ

/-- `->read_iter` and `->write_iter`, with the lengths of the buffers, the flags and `ki_pos`. -/
abbrev IterMethod (δ : Type*) := δ → List SizeT → RwfT → LoffT → Moved δ

/-- `->copy_file_range` and `->remap_file_range`, with two files, a position in each and a
length. -/
abbrev Copier (δ : Type*) := ℕ → ℕ → δ → LoffT → LoffT → SizeT → SsizeT × δ

/-- `->llseek`: one of the functions `fs/read_write.c` has for it. -/
inductive Llseek where
  | genericFileLlseek
  | fixedSizeLlseek (size : FileSize)
  | noSeekEndLlseek
  | noSeekEndLlseekSize (size : FileSize)
  | noopLlseek
  | defaultLlseek
  deriving DecidableEq, Repr

/-- `struct file_operations`. `->copy_file_range` is compared between files, so it is kept as an
address. -/
structure FileOperations (δ : Type*) where
  llseek : Llseek
  method : Direction → Option (Method δ)
  iter : Direction → Option (IterMethod δ)
  copyFileRange : Option ℕ
  remapFileRange : Option (Copier δ)

/-- An inode: which one it is, its super block, and what is asked about it. Its size lies in the
storage. -/
structure Inode (δ : Type*) where
  ino : ℕ
  iSb : ℕ
  sMaxbytes : FileSize
  iSize : δ → FileSize
  isDir : Bool
  isReg : Bool
  isImmutable : Bool
  isSwapfile : Bool

/-- What does not change of a `struct file` while it is open. `do_dentry_open` gives
`FMODE_CAN_READ` and `FMODE_CAN_WRITE` only to files that have an operation for it. -/
structure OpenFile (δ : Type*) where
  fMode : FMode
  largefile : Bool
  append : Bool
  fOp : FileOperations δ
  inode : Inode δ
  /-- `get_pipe_info(file, true)` is not `NULL`. -/
  isPipe : Bool
  canRw : ∀ dir, fMode.canRw dir = true → fOp.method dir ≠ none ∨ fOp.iter dir ≠ none

/-- What does change. -/
structure Cursor where
  fPos : LoffT
  fVersion : UInt64
  deriving DecidableEq, Repr

/-! ### Seeking -/

/-- The third argument of `lseek`. -/
inductive Whence where
  | seekSet
  | seekCur
  | seekEnd
  | seekData
  | seekHole
  deriving DecidableEq, Repr

def SEEK_MAX : UInt32 := 4

/-- The numbers up to `SEEK_MAX`. -/
def Whence.ofWord (whence : UInt32) : Option Whence :=
  if whence > SEEK_MAX then none
  else if whence = 0 then some .seekSet
  else if whence = 1 then some .seekCur
  else if whence = 2 then some .seekEnd
  else if whence = 3 then some .seekData
  else some .seekHole

/-- The end of `vfs_setpos` and of `default_llseek`. -/
def Cursor.seek (c : Cursor) (offset : LoffT) : Cursor := if offset ≠ c.fPos then ⟨offset, 0⟩ else c

def vfsSetpos (o : OpenFile δ) (c : Cursor) (offset maxsize : LoffT) : LoffT × Cursor :=
  if offset < 0 ∧ o.fMode.unsignedOffset = false then (err EINVAL, c)
  else if offset > maxsize then (err EINVAL, c)
  else (offset, c.seek offset)

def genericFileLlseekSize (o : OpenFile δ) (c : Cursor) (offset : LoffT) (whence : Whence)
    (maxsize eof : LoffT) : LoffT × Cursor :=
  match whence with
  | .seekEnd  => vfsSetpos o c (offset + eof) maxsize
  | .seekCur  =>
    if offset = 0 then (c.fPos, c) else vfsSetpos o c (c.fPos + offset) maxsize
  -- the comparison is one of unsigned words
  | .seekData =>
    if offset.toUInt64 ≥ eof.toUInt64 then (err ENXIO, c) else vfsSetpos o c offset maxsize
  | .seekHole =>
    if offset.toUInt64 ≥ eof.toUInt64 then (err ENXIO, c) else vfsSetpos o c eof maxsize
  | .seekSet  => vfsSetpos o c offset maxsize

def genericFileLlseek (o : OpenFile δ) (c : Cursor) (offset : LoffT) (whence : Whence) (d : δ) :
    LoffT × Cursor :=
  genericFileLlseekSize o c offset whence o.inode.sMaxbytes.val (o.inode.iSize d).val

def fixedSizeLlseek (o : OpenFile δ) (c : Cursor) (offset : LoffT) (whence : Whence)
    (size : LoffT) : LoffT × Cursor :=
  match whence with
  | .seekSet | .seekCur | .seekEnd => genericFileLlseekSize o c offset whence size size
  | _ => (err EINVAL, c)

def noSeekEndLlseekSize (o : OpenFile δ) (c : Cursor) (offset : LoffT) (whence : Whence)
    (size : LoffT) : LoffT × Cursor :=
  match whence with
  | .seekSet | .seekCur => genericFileLlseekSize o c offset whence size 0
  | _ => (err EINVAL, c)

def noSeekEndLlseek (o : OpenFile δ) (c : Cursor) (offset : LoffT) (whence : Whence) :
    LoffT × Cursor :=
  noSeekEndLlseekSize o c offset whence OFFSET_MAX

def noopLlseek (c : Cursor) : LoffT × Cursor := (c.fPos, c)

/-- The end of `default_llseek`. -/
def defaultSetpos (o : OpenFile δ) (c : Cursor) (offset : LoffT) : LoffT × Cursor :=
  if offset ≥ 0 ∨ o.fMode.unsignedOffset = true then (offset, c.seek offset) else (err EINVAL, c)

def defaultLlseek (o : OpenFile δ) (c : Cursor) (offset : LoffT) (whence : Whence) (d : δ) :
    LoffT × Cursor :=
  match whence with
  | .seekEnd  => defaultSetpos o c (offset + (o.inode.iSize d).val)
  | .seekCur  => if offset = 0 then (c.fPos, c) else defaultSetpos o c (offset + c.fPos)
  -- here the words are signed
  | .seekData =>
    if offset ≥ (o.inode.iSize d).val then (err ENXIO, c) else defaultSetpos o c offset
  | .seekHole =>
    if offset ≥ (o.inode.iSize d).val then (err ENXIO, c)
    else defaultSetpos o c (o.inode.iSize d).val
  | .seekSet  => defaultSetpos o c offset

def vfsLlseek (o : OpenFile δ) (c : Cursor) (offset : LoffT) (whence : Whence) (d : δ) :
    LoffT × Cursor :=
  if o.fMode.lseek = false then (err ESPIPE, c)
  else
    match o.fOp.llseek with
    | .genericFileLlseek        => genericFileLlseek o c offset whence d
    | .fixedSizeLlseek size     => fixedSizeLlseek o c offset whence size.val
    | .noSeekEndLlseek          => noSeekEndLlseek o c offset whence
    | .noSeekEndLlseekSize size => noSeekEndLlseekSize o c offset whence size.val
    | .noopLlseek               => noopLlseek c
    | .defaultLlseek            => defaultLlseek o c offset whence d

/-! ### Before a transfer -/

/-- What `import_iovec` makes of the vector of a caller: the lengths of the buffers, cut down to
`MAX_RW_COUNT` in all. -/
abbrev Iov := {lens : List SizeT // (lens.map UInt64.toNat).sum ≤ MAX_RW_COUNT.toNat}

/-- What one call is told by the rest of the kernel. -/
structure Answers where
  /-- `fdget`, `fdget_pos`: the file of the descriptor; with two descriptors, of the one read. -/
  fdget : Option ℕ
  /-- The file of the descriptor that is written, if there are two. -/
  fdgetOut : Option ℕ
  accessOk : Bool
  importIovec : Except Failure Iov
  kiocbSetRwFlags : Verdict
  securityFilePermission : Direction → Verdict
  fsnotifyFileAreaPerm : Direction → Verdict
  /-- `rlimit(RLIMIT_FSIZE)`. -/
  rlimitFsize : UInt64
  /-- `copy_to_user`, `put_user`: what is written out reaches the caller. -/
  copyToUser : Bool
  /-- The same for the second position of `copy_file_range`. -/
  copyToUserOut : Bool
  /-- `pid_task(find_vpid(pid), PIDTYPE_PID)`. -/
  pidTask : Option ℕ

/-- The last two checks of `rw_verify_area`. -/
def permission (dir : Direction) (a : Answers) : Int64 :=
  if (a.securityFilePermission dir).val ≠ 0 then (a.securityFilePermission dir).val
  else (a.fsnotifyFileAreaPerm dir).val

def rwVerifyArea (dir : Direction) (o : OpenFile δ) (ppos : Option LoffT) (count : SizeT)
    (a : Answers) : Int64 :=
  if count.toInt64 < 0 then err EINVAL
  else
    match ppos with
    | none     => permission dir a
    | some pos =>
      if pos < 0 then
        if o.fMode.unsignedOffset = false then err EINVAL
        else if count ≥ (-pos).toUInt64 then err EOVERFLOW
        else permission dir a
      else if (pos.toUInt64 + count).toInt64 < 0 ∧ o.fMode.unsignedOffset = false then err EINVAL
      else permission dir a

/-! ### Accounting -/

/-- `struct task_io_accounting`. -/
structure IoAccounting where
  rchar : UInt64
  wchar : UInt64
  syscr : UInt64
  syscw : UInt64
  readBytes : UInt64
  writeBytes : UInt64
  deriving DecidableEq, Repr

/-- `add_rchar`, `add_wchar`. -/
def IoAccounting.add (io : IoAccounting) (amt : SsizeT) : Direction → IoAccounting
  | .read  => { io with rchar := io.rchar + amt.toUInt64 }
  | .write => { io with wchar := io.wchar + amt.toUInt64 }

/-- `inc_syscr`, `inc_syscw`. -/
def IoAccounting.inc (io : IoAccounting) : Direction → IoAccounting
  | .read  => { io with syscr := io.syscr + 1 }
  | .write => { io with syscw := io.syscw + 1 }

/-- What transfers do at their end. -/
def IoAccounting.account (io : IoAccounting) (dir : Direction) (ret : SsizeT) : IoAccounting :=
  (if ret > 0 then io.add ret dir else io).inc dir

/-! ### Transfers -/

/-- What a transfer for a caller leaves; there is no position if `ppos` is `NULL`. -/
structure Done (δ : Type*) where
  ret : SsizeT
  pos : Option LoffT
  storage : δ
  ioac : IoAccounting

/-- `*ppos = pos`, unless `ppos` is `NULL`. -/
def store (ppos : Option LoffT) (pos : LoffT) : Option LoffT := ppos.map fun _ => pos

/-- A direct call of `->read` or `->write`. -/
def callMethod (m : Method δ) (count : SizeT) (ppos : Option LoffT) (d : δ) (io : IoAccounting) :
    Done δ :=
  let r := m d count ppos
  ⟨r.ret, store ppos r.pos, r.storage, io⟩

def newSyncRead (m : IterMethod δ) (len : SizeT) (ppos : Option LoffT) (d : δ)
    (io : IoAccounting) : Done δ :=
  let r := m d [len] 0 (ppos.getD 0)
  ⟨r.ret, store ppos r.pos, r.storage, io⟩

/-- Unlike `new_sync_read`, it stores the position only if something was written. -/
def newSyncWrite (m : IterMethod δ) (len : SizeT) (ppos : Option LoffT) (d : δ)
    (io : IoAccounting) : Done δ :=
  let r := m d [len] 0 (ppos.getD 0)
  ⟨r.ret, if r.ret > 0 then store ppos r.pos else ppos, r.storage, io⟩

def newSync : Direction → IterMethod δ → SizeT → Option LoffT → δ → IoAccounting → Done δ
  | .read  => newSyncRead
  | .write => newSyncWrite

/-- The call of a file operation in `vfs_read` and `vfs_write`. -/
def callFileOp (dir : Direction) (o : OpenFile δ) (count : SizeT) (ppos : Option LoffT) (d : δ)
    (io : IoAccounting) : Done δ :=
  match o.fOp.method dir, o.fOp.iter dir with
  | some m, _      => callMethod m count ppos d io
  | none, some m   => newSync dir m count ppos d io
  | none, none     => ⟨err EINVAL, ppos, d, io⟩

/-- `vfs_read` and `vfs_write`. -/
def vfsRw (dir : Direction) (o : OpenFile δ) (count : SizeT) (ppos : Option LoffT) (a : Answers)
    (d : δ) (io : IoAccounting) : Done δ :=
  if o.fMode.rw dir = false then ⟨err EBADF, ppos, d, io⟩
  else if o.fMode.canRw dir = false then ⟨err EINVAL, ppos, d, io⟩
  else if a.accessOk = false then ⟨err EFAULT, ppos, d, io⟩
  else
    let ret := rwVerifyArea dir o ppos count a
    if ret ≠ 0 then ⟨ret, ppos, d, io⟩
    else
      let r := callFileOp dir o (cutCount count) ppos d io
      { r with ioac := r.ioac.account dir r.ret }

def vfsRead (o : OpenFile δ) (count : SizeT) (ppos : Option LoffT) (a : Answers) (d : δ)
    (io : IoAccounting) : Done δ :=
  vfsRw .read o count ppos a d io

def vfsWrite (o : OpenFile δ) (count : SizeT) (ppos : Option LoffT) (a : Answers) (d : δ)
    (io : IoAccounting) : Done δ :=
  vfsRw .write o count ppos a d io

/-! ### Vectors -/

def doIterReadvWritev (m : IterMethod δ) (lens : List SizeT) (ppos : Option LoffT) (flags : RwfT)
    (a : Answers) (d : δ) (io : IoAccounting) : Done δ :=
  if a.kiocbSetRwFlags.val ≠ 0 then ⟨a.kiocbSetRwFlags.val, ppos, d, io⟩
  else
    let r := m d lens flags (ppos.getD 0)
    ⟨r.ret, store ppos r.pos, r.storage, io⟩

/-- The loop of `do_loop_readv_writev` over the buffers that are left, with `ret` so far. -/
def loopBuffers (m : Method δ) (io : IoAccounting) :
    List SizeT → SsizeT → Option LoffT → δ → Done δ
  | [], ret, ppos, d          => ⟨ret, ppos, d, io⟩
  | len :: lens, ret, ppos, d =>
    let r := m d len ppos
    if r.ret < 0 then ⟨if ret = 0 then r.ret else ret, store ppos r.pos, r.storage, io⟩
    else if r.ret.toUInt64 ≠ len then ⟨ret + r.ret, store ppos r.pos, r.storage, io⟩
    else loopBuffers m io lens (ret + r.ret) (store ppos r.pos) r.storage

/-- `iov_iter_advance` steps over empty buffers, so only the first can be one. -/
def buffers : List SizeT → List SizeT
  | []          => []
  | len :: lens => len :: lens.filter (· ≠ 0)

def doLoopReadvWritev (m : Method δ) (lens : List SizeT) (ppos : Option LoffT) (flags : RwfT)
    (d : δ) (io : IoAccounting) : Done δ :=
  if flags &&& ~~~RWF_HIPRI ≠ 0 then ⟨err EOPNOTSUPP, ppos, d, io⟩
  else loopBuffers m io (buffers lens) 0 ppos d

/-- `iov_iter_count`. -/
def iovIterCount (lens : List SizeT) : SizeT := .ofNat (lens.map UInt64.toNat).sum

/-- The call of the file operations in `vfs_readv` and `vfs_writev`. -/
def callFileOps (dir : Direction) (o : OpenFile δ) (lens : List SizeT) (ppos : Option LoffT)
    (flags : RwfT) (a : Answers) (d : δ) (io : IoAccounting) : Done δ :=
  match o.fOp.iter dir, o.fOp.method dir with
  | some m, _    => doIterReadvWritev m lens ppos flags a d io
  | none, some m => doLoopReadvWritev m lens ppos flags d io
  -- not a file with `FMODE_CAN_READ` or `FMODE_CAN_WRITE`
  | none, none   => ⟨err EINVAL, ppos, d, io⟩

/-- `vfs_readv` and `vfs_writev`. The accounting is left to the caller. -/
def vfsRwv (dir : Direction) (o : OpenFile δ) (ppos : Option LoffT) (flags : RwfT) (a : Answers)
    (d : δ) (io : IoAccounting) : Done δ :=
  if o.fMode.rw dir = false then ⟨err EBADF, ppos, d, io⟩
  else if o.fMode.canRw dir = false then ⟨err EINVAL, ppos, d, io⟩
  else
    match a.importIovec with
    | .error e => ⟨e.val, ppos, d, io⟩
    | .ok iov  =>
      let totLen := iovIterCount iov.val
      if totLen = 0 then ⟨0, ppos, d, io⟩
      else
        let ret := rwVerifyArea dir o ppos totLen a
        if ret < 0 then ⟨ret, ppos, d, io⟩
        else callFileOps dir o iov.val ppos flags a d io

def vfsReadv (o : OpenFile δ) (ppos : Option LoffT) (flags : RwfT) (a : Answers) (d : δ)
    (io : IoAccounting) : Done δ :=
  vfsRwv .read o ppos flags a d io

def vfsWritev (o : OpenFile δ) (ppos : Option LoffT) (flags : RwfT) (a : Answers) (d : δ)
    (io : IoAccounting) : Done δ :=
  vfsRwv .write o ppos flags a d io

end Taro.Files
