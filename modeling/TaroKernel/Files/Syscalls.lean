import TaroKernel.Files.Vfs

/-!
# The syscalls of `fs/read_write.c`

Calls on open files as a machine: any number of tasks, one call at a time. A descriptor stands for
an open file, and several may stand for the same one; which file it is, is among the answers a call
gets. Beside them there is `get_io_throttle` of `kernel/usac/io_throttle.c`, which reports what the
transfers account for.

The hooks with which `read` and `write` begin count calls in a table of their own, which is not part
of the state here.
-/

namespace Taro.Files

variable {δ : Type*}

/-- What `do_splice_direct` leaves: its return value, both positions and the storage. -/
structure Spliced (δ : Type*) where
  ret : SsizeT
  pos : LoffT
  outPos : LoffT
  storage : δ

/-- The open files, and what moves data from one to another: `->copy_file_range` by its address,
`do_splice_direct` and `splice_file_to_pipe`. -/
structure Vfs (δ : Type*) where
  files : ℕ → OpenFile δ
  copyFileRange : ℕ → Copier δ
  doSpliceDirect : ℕ → ℕ → δ → LoffT → LoffT → SizeT → Spliced δ
  spliceFileToPipe : ℕ → ℕ → δ → LoffT → SizeT → Moved δ

/-- The positions of the open files, the storage, and `ioac` of every task. -/
structure State (δ : Type*) where
  cursor : ℕ → Cursor
  storage : δ
  ioac : ℕ → IoAccounting

namespace State

/-- Storage and accounting after a transfer. -/
def finish (s : State δ) (task : ℕ) (r : Done δ) : State δ :=
  { s with storage := r.storage, ioac := Function.update s.ioac task r.ioac }

/-- `file->f_pos = pos`. -/
def setPos (s : State δ) (f : ℕ) (pos : LoffT) : State δ :=
  { s with cursor := Function.update s.cursor f { s.cursor f with fPos := pos } }

/-- `if (ret >= 0 && ppos) file->f_pos = pos`. -/
def moveOn (s : State δ) (f : ℕ) (ppos : Option LoffT) (r : Done δ) : State δ :=
  match ppos, r.pos with
  | some _, some pos => if r.ret ≥ 0 then s.setPos f pos else s
  | _, _             => s

/-- The accounting of the vector calls. -/
def account (s : State δ) (task : ℕ) (dir : Direction) (ret : SsizeT) : State δ :=
  { s with ioac := Function.update s.ioac task ((s.ioac task).account dir ret) }

end State

/-- `file_ppos`. -/
def filePpos (o : OpenFile δ) (c : Cursor) : Option LoffT :=
  if o.fMode.stream then none else some c.fPos

variable (v : Vfs δ)

/-! ### Seeking -/

/-- `ksys_lseek`. An `off_t` holds every `loff_t` on x86-64. -/
def ksysLseek (offset : LoffT) (whence : UInt32) (a : Answers) (s : State δ) : LoffT × State δ :=
  match a.fdget with
  | none   => (err EBADF, s)
  | some f =>
    match Whence.ofWord whence with
    | none        => (err EINVAL, s)
    | some whence =>
      let r := vfsLlseek (v.files f) (s.cursor f) offset whence s.storage
      (r.1, { s with cursor := Function.update s.cursor f r.2 })

/-- `llseek`: the return value, and `*result` if it was written. -/
def llseek (offsetHigh offsetLow : UInt64) (whence : UInt32) (a : Answers) (s : State δ) :
    (Int64 × Option LoffT) × State δ :=
  match a.fdget with
  | none   => ((err EBADF, none), s)
  | some f =>
    match Whence.ofWord whence with
    | none        => ((err EINVAL, none), s)
    | some whence =>
      let r := vfsLlseek (v.files f) (s.cursor f) (offsetHigh <<< 32 ||| offsetLow).toInt64 whence
        s.storage
      let s' := { s with cursor := Function.update s.cursor f r.2 }
      if r.1 ≥ 0 then
        if a.copyToUser then ((0, some r.1), s') else ((err EFAULT, none), s')
      else ((r.1.toInt32.toInt64, none), s')

/-! ### Transfers at the position of the file -/

/-- `ksys_read` and `ksys_write`. -/
def ksysRw (transfer : OpenFile δ → SizeT → Option LoffT → Answers → δ → IoAccounting → Done δ)
    (count : SizeT) (task : ℕ) (a : Answers) (s : State δ) : SsizeT × State δ :=
  match a.fdget with
  | none   => (err EBADF, s)
  | some f =>
    let ppos := filePpos (v.files f) (s.cursor f)
    let r := transfer (v.files f) count ppos a s.storage (s.ioac task)
    (r.ret, (s.finish task r).moveOn f ppos r)

def ksysRead (count : SizeT) (task : ℕ) (a : Answers) (s : State δ) : SsizeT × State δ :=
  ksysRw v vfsRead count task a s

def ksysWrite (count : SizeT) (task : ℕ) (a : Answers) (s : State δ) : SsizeT × State δ :=
  ksysRw v vfsWrite count task a s

/-- `do_readv` and `do_writev`. They account for every call, whatever comes of it. -/
def doRwv (dir : Direction)
    (transfer : OpenFile δ → Option LoffT → RwfT → Answers → δ → IoAccounting → Done δ)
    (flags : RwfT) (task : ℕ) (a : Answers) (s : State δ) : SsizeT × State δ :=
  match a.fdget with
  | none   => (err EBADF, s.account task dir (err EBADF))
  | some f =>
    let ppos := filePpos (v.files f) (s.cursor f)
    let r := transfer (v.files f) ppos flags a s.storage (s.ioac task)
    (r.ret, ((s.finish task r).moveOn f ppos r).account task dir r.ret)

def doReadv (flags : RwfT) (task : ℕ) (a : Answers) (s : State δ) : SsizeT × State δ :=
  doRwv v .read vfsReadv flags task a s

def doWritev (flags : RwfT) (task : ℕ) (a : Answers) (s : State δ) : SsizeT × State δ :=
  doRwv v .write vfsWritev flags task a s

/-! ### Transfers at a position of the caller's choice -/

/-- `ksys_pread64` and `ksys_pwrite64`. -/
def ksysPrw (dir : Direction)
    (transfer : OpenFile δ → SizeT → Option LoffT → Answers → δ → IoAccounting → Done δ)
    (count : SizeT) (pos : LoffT) (task : ℕ) (a : Answers) (s : State δ) : SsizeT × State δ :=
  if pos < 0 then (err EINVAL, s)
  else
    match a.fdget with
    | none   => (err EBADF, s)
    | some f =>
      if (v.files f).fMode.prw dir = false then (err ESPIPE, s)
      else
        let r := transfer (v.files f) count (some pos) a s.storage (s.ioac task)
        (r.ret, s.finish task r)

def ksysPread64 (count : SizeT) (pos : LoffT) (task : ℕ) (a : Answers) (s : State δ) :
    SsizeT × State δ :=
  ksysPrw v .read vfsRead count pos task a s

def ksysPwrite64 (count : SizeT) (pos : LoffT) (task : ℕ) (a : Answers) (s : State δ) :
    SsizeT × State δ :=
  ksysPrw v .write vfsWrite count pos task a s

/-- `do_preadv` and `do_pwritev`. A negative position is the only thing they do not account for. -/
def doPrwv (dir : Direction)
    (transfer : OpenFile δ → Option LoffT → RwfT → Answers → δ → IoAccounting → Done δ)
    (pos : LoffT) (flags : RwfT) (task : ℕ) (a : Answers) (s : State δ) : SsizeT × State δ :=
  if pos < 0 then (err EINVAL, s)
  else
    match a.fdget with
    | none   => (err EBADF, s.account task dir (err EBADF))
    | some f =>
      if (v.files f).fMode.prw dir = false then (err ESPIPE, s.account task dir (err ESPIPE))
      else
        let r := transfer (v.files f) (some pos) flags a s.storage (s.ioac task)
        (r.ret, (s.finish task r).account task dir r.ret)

def doPreadv (pos : LoffT) (flags : RwfT) (task : ℕ) (a : Answers) (s : State δ) :
    SsizeT × State δ :=
  doPrwv v .read vfsReadv pos flags task a s

def doPwritev (pos : LoffT) (flags : RwfT) (task : ℕ) (a : Answers) (s : State δ) :
    SsizeT × State δ :=
  doPrwv v .write vfsWritev pos flags task a s

/-- `pos_from_hilo`. On x86-64 the high word is shifted out. -/
def posFromHilo (high low : UInt64) : LoffT := (high <<< 32 <<< 32 ||| low).toInt64

/-- `preadv2`: at position -1 it is a `readv`. -/
def preadv2 (posL posH : UInt64) (flags : RwfT) (task : ℕ) (a : Answers) (s : State δ) :
    SsizeT × State δ :=
  let pos := posFromHilo posH posL
  if pos = -1 then doReadv v flags task a s else doPreadv v pos flags task a s

def pwritev2 (posL posH : UInt64) (flags : RwfT) (task : ℕ) (a : Answers) (s : State δ) :
    SsizeT × State δ :=
  let pos := posFromHilo posH posL
  if pos = -1 then doWritev v flags task a s else doPwritev v pos flags task a s

/-! ### From one file to another: `sendfile` -/

def MAX_NON_LFS : LoffT := 2147483647

/-- Where `do_sendfile` stops: at `max`, or at the end of what the file systems can hold. -/
def sendMax (fileIn fileOut : OpenFile δ) (max : LoffT) : LoffT :=
  if max = 0 then min fileIn.inode.sMaxbytes.val fileOut.inode.sMaxbytes.val else max

/-- The number of bytes `do_sendfile` asks for, if there is room below `max`. -/
def sendCount (pos : LoffT) (count : SizeT) (max : LoffT) : Option SizeT :=
  if pos.toUInt64 + count > max.toUInt64 then
    if pos ≥ max then none else some (max - pos).toUInt64
  else some count

/-- The transfer in `do_sendfile`. -/
def sendTo (fin fout : ℕ) (pos outPos : LoffT) (count : SizeT) (a : Answers) (d : δ) :
    Except Int64 (Spliced δ) :=
  if (v.files fout).isPipe then
    let r := v.spliceFileToPipe fin fout d pos count
    .ok ⟨r.ret, r.pos, outPos, r.storage⟩
  else
    let retval := rwVerifyArea .write (v.files fout) (some outPos) count a
    if retval < 0 then .error retval else .ok (v.doSpliceDirect fin fout d pos outPos count)

/-- The accounting of the calls with two files. -/
def IoAccounting.accountBoth (io : IoAccounting) (ret : SsizeT) : IoAccounting :=
  (io.account .read ret).account .write ret

/-- What `do_sendfile` stores at its end. -/
def State.sent (s : State δ) (task fin fout : ℕ) (ppos : Option LoffT) (r : Spliced δ) : State δ :=
  let s' := { s with
    storage := r.storage
    ioac := Function.update s.ioac task ((s.ioac task).accountBoth r.ret) }
  if r.ret > 0 then
    let s' := s'.setPos fout r.outPos
    if ppos.isSome then s' else s'.setPos fin r.pos
  else s'

/-- `do_sendfile`: the return value and `*ppos`. -/
def doSendfile (ppos : Option LoffT) (count : SizeT) (max : LoffT) (task : ℕ) (a : Answers)
    (s : State δ) : (SsizeT × Option LoffT) × State δ :=
  match a.fdget with
  | none     => ((err EBADF, ppos), s)
  | some fin =>
    if (v.files fin).fMode.rw .read = false then ((err EBADF, ppos), s)
    else if ppos.isSome ∧ (v.files fin).fMode.prw .read = false then ((err ESPIPE, ppos), s)
    else
      let pos := ppos.getD (s.cursor fin).fPos
      let retval := rwVerifyArea .read (v.files fin) (some pos) count a
      if retval < 0 then ((retval, ppos), s)
      else
        match a.fdgetOut with
        | none      => ((err EBADF, ppos), s)
        | some fout =>
          if (v.files fout).fMode.rw .write = false then ((err EBADF, ppos), s)
          else
            let max := sendMax (v.files fin) (v.files fout) max
            match sendCount pos (cutCount count) max with
            | none       => ((err EOVERFLOW, ppos), s)
            | some count =>
              match sendTo v fin fout pos (s.cursor fout).fPos count a s.storage with
              | .error retval => ((retval, ppos), s)
              | .ok r         =>
                ((if r.pos > max then err EOVERFLOW else r.ret,
                  if r.ret > 0 then store ppos r.pos else ppos), s.sent task fin fout ppos r)

/-- A pointer to a position in user memory: `NULL`, not readable, or with what it points to. -/
inductive UserOffset where
  | null
  | fault
  | pos (pos : LoffT)
  deriving DecidableEq, Repr

/-- `struct io_stats` of `get_io_throttle`. -/
structure IoStats where
  bytesRead : UInt64
  bytesWritten : UInt64
  readSyscalls : UInt64
  writeSyscalls : UInt64
  ioWaitTime : UInt64
  deriving DecidableEq, Repr

/-- What a call returns, and what it writes through its pointers. -/
structure FileRet where
  ret : Int64
  offset : Option LoffT
  offsetOut : Option LoffT
  stats : Option IoStats
  deriving DecidableEq, Repr

/-- Nothing is written. -/
def FileRet.code (ret : Int64) : FileRet := ⟨ret, none, none, none⟩

/-- `sendfile` and `sendfile64`. -/
def sendfileWith (max : LoffT) (offset : UserOffset) (count : SizeT) (task : ℕ) (a : Answers)
    (s : State δ) : FileRet × State δ :=
  match offset with
  | .fault   => (.code (err EFAULT), s)
  | .pos pos =>
    let r := doSendfile v (some pos) count max task a s
    if a.copyToUser then (⟨r.1.1, r.1.2, none, none⟩, r.2) else (.code (err EFAULT), r.2)
  | .null    =>
    let r := doSendfile v none count 0 task a s
    (.code r.1.1, r.2)

def sendfile (offset : UserOffset) (count : SizeT) (task : ℕ) (a : Answers) (s : State δ) :
    FileRet × State δ :=
  sendfileWith v MAX_NON_LFS offset count task a s

def sendfile64 (offset : UserOffset) (count : SizeT) (task : ℕ) (a : Answers) (s : State δ) :
    FileRet × State δ :=
  sendfileWith v 0 offset count task a s

/-! ### From one file to another: `copy_file_range` -/

def COPY_FILE_SPLICE : UInt32 := 2147483648

def genericFileRwChecks (fileIn fileOut : OpenFile δ) : Int64 :=
  if fileIn.inode.isDir ∨ fileOut.inode.isDir then err EISDIR
  else if fileIn.inode.isReg = false ∨ fileOut.inode.isReg = false then err EINVAL
  else if fileIn.fMode.rw .read = false ∨ fileOut.fMode.rw .write = false ∨ fileOut.append then
    err EBADF
  else 0

def RLIM_INFINITY : UInt64 := 18446744073709551615

/-- `max_size` in `generic_write_check_limits`. -/
def maxSize (o : OpenFile δ) : LoffT := if o.largefile then o.inode.sMaxbytes.val else MAX_NON_LFS

/-- One of the two limits of `generic_write_check_limits`. -/
def cutTo (limit pos count : LoffT) : Except Int64 LoffT :=
  if pos ≥ limit then .error (err EFBIG) else .ok (min count (limit - pos))

/-- `generic_write_check_limits`: the new `*count`. -/
def genericWriteCheckLimits (o : OpenFile δ) (pos count : LoffT) (a : Answers) :
    Except Int64 LoffT :=
  match if a.rlimitFsize ≠ RLIM_INFINITY then cutTo a.rlimitFsize.toInt64 pos count
      else .ok count with
  | .error e  => .error e
  | .ok count => cutTo (maxSize o) pos count

/-- Whether the drivers of the two files can work together. -/
def sameDriver (fileIn fileOut : OpenFile δ) (flags : UInt32) : Bool :=
  if flags &&& COPY_FILE_SPLICE ≠ 0 then true
  else
    match fileOut.fOp.copyFileRange with
    | some m => fileIn.fOp.copyFileRange = some m
    | none   => fileIn.inode.iSb = fileOut.inode.iSb

/-- The ranges of `generic_copy_file_checks` overlap, in unsigned words. -/
def overlapping (posIn posOut : LoffT) (count : SizeT) : Bool :=
  posOut.toUInt64 + count > posIn.toUInt64 ∧ posOut.toUInt64 < posIn.toUInt64 + count

/-- The copy, shortened to the end of the file. -/
def untilEof (posIn sizeIn : LoffT) (count : SizeT) : SizeT :=
  if posIn ≥ sizeIn then 0 else min count (sizeIn.toUInt64 - posIn.toUInt64)

/-- `generic_copy_file_checks`: the new `*req_count`. -/
def genericCopyFileChecks (fileIn : OpenFile δ) (posIn : LoffT) (fileOut : OpenFile δ)
    (posOut : LoffT) (count : SizeT) (flags : UInt32) (a : Answers) (d : δ) : Except Int64 SizeT :=
  let ret := genericFileRwChecks fileIn fileOut
  if ret ≠ 0 then .error ret
  else if sameDriver fileIn fileOut flags = false then .error (err EXDEV)
  else if fileOut.inode.isImmutable then .error (err EPERM)
  else if fileIn.inode.isSwapfile ∨ fileOut.inode.isSwapfile then .error (err ETXTBSY)
  else if posIn.toUInt64 + count < posIn.toUInt64 ∨ posOut.toUInt64 + count < posOut.toUInt64 then
    .error (err EOVERFLOW)
  else
    let count := untilEof posIn (fileIn.inode.iSize d).val count
    match genericWriteCheckLimits fileOut posOut count.toInt64 a with
    | .error e  => .error e
    | .ok count =>
      let count := count.toUInt64
      if fileIn.inode.ino = fileOut.inode.ino ∧ overlapping posIn posOut count then
        .error (err EINVAL)
      else .ok count

/-- The transfer in `vfs_copy_file_range`, after the checks. -/
def copyRange (fin fout : ℕ) (posIn posOut : LoffT) (len : SizeT) (flags : UInt32) (d : δ) :
    SsizeT × δ :=
  let fileIn := v.files fin
  let fileOut := v.files fout
  let splice : Bool := flags &&& COPY_FILE_SPLICE ≠ 0
  let samesb : Bool := fileIn.inode.iSb = fileOut.inode.iSb
  let bySplice (d : δ) : SsizeT × δ :=
    let r := v.doSpliceDirect fin fout d posIn posOut (min len MAX_RW_COUNT)
    (r.ret, r.storage)
  match splice, fileOut.fOp.copyFileRange, fileIn.fOp.remapFileRange, samesb with
  | false, some m, _, _           => v.copyFileRange m fin fout d posIn posOut len
  | false, none, some remap, true =>
    let r := remap fin fout d posIn posOut (min len.toInt64 MAX_RW_COUNT.toInt64).toUInt64
    -- fallback to splice
    if r.1 ≤ 0 then bySplice r.2 else r
  | _, _, _, true                 => bySplice d
  | true, _, _, false             => bySplice d
  | false, none, _, false         => (0, d)

def vfsCopyFileRange (fin : ℕ) (posIn : LoffT) (fout : ℕ) (posOut : LoffT) (len : SizeT)
    (flags : UInt32) (task : ℕ) (a : Answers) (s : State δ) : SsizeT × State δ :=
  if flags &&& ~~~COPY_FILE_SPLICE ≠ 0 then (err EINVAL, s)
  else
    match genericCopyFileChecks (v.files fin) posIn (v.files fout) posOut len flags a s.storage with
    | .error ret => (ret, s)
    | .ok len    =>
      let ret := rwVerifyArea .read (v.files fin) (some posIn) len a
      if ret ≠ 0 then (ret, s)
      else
        let ret := rwVerifyArea .write (v.files fout) (some posOut) len a
        if ret ≠ 0 then (ret, s)
        else if len = 0 then (0, s)
        else
          let r := copyRange v fin fout posIn posOut len flags s.storage
          (r.1, { s with
            storage := r.2
            ioac := Function.update s.ioac task ((s.ioac task).accountBoth r.1) })

/-- The position a copy starts from: the caller's, or that of the file. -/
def UserOffset.start (off : UserOffset) (c : Cursor) : Option LoffT :=
  match off with
  | .null  => some c.fPos
  | .fault => none
  | .pos p => some p

/-- Where `copy_file_range` leaves a position: in user memory or in the file. -/
def State.leavePos (s : State δ) (off : UserOffset) (f : ℕ) (pos : LoffT) : State δ :=
  if off = .null then s.setPos f pos else s

/-- What is written through `off_in` or `off_out`, if it can be. -/
def UserOffset.written (off : UserOffset) (copied : Bool) (position : LoffT) : Option LoffT :=
  if off = .null ∨ copied = false then none else some position

/-- A position of the caller's that cannot be written out. -/
def UserOffset.lost (off : UserOffset) (copied : Bool) : Bool := off ≠ .null ∧ copied = false

def copyFileRange (offIn offOut : UserOffset) (len : SizeT) (flags : UInt32) (task : ℕ)
    (a : Answers) (s : State δ) : FileRet × State δ :=
  match a.fdget, a.fdgetOut with
  | some fin, some fout =>
    match offIn.start (s.cursor fin), offOut.start (s.cursor fout) with
    | some posIn, some posOut =>
      if flags ≠ 0 then (.code (err EINVAL), s)
      else
        let r := vfsCopyFileRange v fin posIn fout posOut len flags task a s
        if r.1 > 0 then
          let s' := (r.2.leavePos offIn fin (posIn + r.1)).leavePos offOut fout (posOut + r.1)
          let ret := if offIn.lost a.copyToUser ∨ offOut.lost a.copyToUserOut then err EFAULT
            else r.1
          (⟨ret, offIn.written a.copyToUser (posIn + r.1),
            offOut.written a.copyToUserOut (posOut + r.1), none⟩, s')
        else (.code r.1, r.2)
    | _, _ => (.code (err EFAULT), s)
  | _, _ => (.code (err EBADF), s)

/-! ### What is reported -/

def getIoThrottle (a : Answers) (s : State δ) : FileRet :=
  match a.pidTask with
  | none      => .code (err ESRCH)
  | some task =>
    let io := s.ioac task
    if a.copyToUser then
      ⟨0, none, none, some ⟨io.readBytes, io.writeBytes, io.syscr, io.syscw, 0⟩⟩
    else .code (err EFAULT)

/-! ### The machine -/

/-- The syscalls. A vector call gets its buffers from `import_iovec`. -/
inductive FileCall where
  | lseek (offset : LoffT) (whence : UInt32)
  | llseek (offsetHigh offsetLow : UInt64) (whence : UInt32)
  | read (count : SizeT)
  | write (count : SizeT)
  | pread64 (count : SizeT) (pos : LoffT)
  | pwrite64 (count : SizeT) (pos : LoffT)
  | readv
  | writev
  | preadv (posL posH : UInt64)
  | pwritev (posL posH : UInt64)
  | preadv2 (posL posH : UInt64) (flags : RwfT)
  | pwritev2 (posL posH : UInt64) (flags : RwfT)
  | sendfile (offset : UserOffset) (count : SizeT)
  | sendfile64 (offset : UserOffset) (count : SizeT)
  | copyFileRange (offIn offOut : UserOffset) (len : SizeT) (flags : UInt32)
  | getIoThrottle

/-- A call of a task, with what the rest of the kernel answers. -/
structure FileInvocation where
  task : ℕ
  call : FileCall
  answers : Answers

/-- Only a code is returned. -/
def plain (r : Int64 × State δ) : FileRet × State δ := (.code r.1, r.2)

def next (s : State δ) (i : FileInvocation) : FileRet × State δ :=
  match i.call with
  | .lseek offset whence       => plain (ksysLseek v offset whence i.answers s)
  | .llseek high low whence    =>
    let r := llseek v high low whence i.answers s
    (⟨r.1.1, r.1.2, none, none⟩, r.2)
  | .read count                => plain (ksysRead v count i.task i.answers s)
  | .write count               => plain (ksysWrite v count i.task i.answers s)
  | .pread64 count pos         => plain (ksysPread64 v count pos i.task i.answers s)
  | .pwrite64 count pos        => plain (ksysPwrite64 v count pos i.task i.answers s)
  | .readv                     => plain (doReadv v 0 i.task i.answers s)
  | .writev                    => plain (doWritev v 0 i.task i.answers s)
  | .preadv posL posH          => plain (doPreadv v (posFromHilo posH posL) 0 i.task i.answers s)
  | .pwritev posL posH         => plain (doPwritev v (posFromHilo posH posL) 0 i.task i.answers s)
  | .preadv2 posL posH flags   => plain (preadv2 v posL posH flags i.task i.answers s)
  | .pwritev2 posL posH flags  => plain (pwritev2 v posL posH flags i.task i.answers s)
  | .sendfile offset count     => sendfile v offset count i.task i.answers s
  | .sendfile64 offset count   => sendfile64 v offset count i.task i.answers s
  | .copyFileRange offIn offOut len flags =>
    copyFileRange v offIn offOut len flags i.task i.answers s
  | .getIoThrottle             => (getIoThrottle i.answers s, s)

end Taro.Files
