import TaroKernel.Kernel
import TaroKernel.Lib.Masks

/-!
# The flags of an open

`open`, `openat` and `creat` of `fs/open.c` take an `int` of flags and drop what they do not know;
`openat2` takes a `struct open_how` and refuses it. Both end in `build_open_flags`, which makes of
it what the path walk works with, a `struct open_flags`, or says that it cannot be meant. The values
of the flags are those of x86-64. An `int` is a word of 32 bits, a `u64` one of 64.
-/

namespace Taro.Open

open Masks

def EAGAIN : Int := 11

/-! ### Flags -/

section

variable (w : ℕ)

def O_CREAT : BitVec w := .twoPow w 6
def O_EXCL : BitVec w := .twoPow w 7
def O_TRUNC : BitVec w := .twoPow w 9
def O_APPEND : BitVec w := .twoPow w 10
def O_DSYNC : BitVec w := .twoPow w 12
def O_LARGEFILE : BitVec w := .twoPow w 15
def O_DIRECTORY : BitVec w := .twoPow w 16
def O_NOFOLLOW : BitVec w := .twoPow w 17
def O_CLOEXEC : BitVec w := .twoPow w 19
/-- `__O_SYNC`: what `O_SYNC` has besides `O_DSYNC`. -/
def O_SYNC' : BitVec w := .twoPow w 20
def O_PATH : BitVec w := .twoPow w 21
/-- `__O_TMPFILE`: what `O_TMPFILE` has besides `O_DIRECTORY`. -/
def O_TMPFILE' : BitVec w := .twoPow w 22
/-- `__FMODE_NONOTIFY`, which is not for the user. -/
def FMODE_NONOTIFY : BitVec w := .twoPow w 26

def O_WRONLY : BitVec w := 1
def O_ACCMODE : BitVec w := 3

/-- The access mode, and all flags from `O_CREAT` to `__O_TMPFILE`. -/
def VALID_OPEN_FLAGS : BitVec w := 0x7fffc3

def O_PATH_FLAGS : BitVec w := O_DIRECTORY w ||| O_NOFOLLOW w ||| O_PATH w ||| O_CLOEXEC w

def S_IALLUGO : BitVec w := 0o7777

end

def S_IFREG : BitVec 64 := 0o100000

def RESOLVE_NO_XDEV : BitVec 64 := .twoPow 64 0
def RESOLVE_NO_MAGICLINKS : BitVec 64 := .twoPow 64 1
def RESOLVE_NO_SYMLINKS : BitVec 64 := .twoPow 64 2
def RESOLVE_BENEATH : BitVec 64 := .twoPow 64 3
def RESOLVE_IN_ROOT : BitVec 64 := .twoPow 64 4
def RESOLVE_CACHED : BitVec 64 := .twoPow 64 5

def VALID_RESOLVE_FLAGS : BitVec 64 := 0x3f

def MAY_WRITE : BitVec 32 := .twoPow 32 1
def MAY_APPEND : BitVec 32 := .twoPow 32 3

def LOOKUP_FOLLOW : BitVec 32 := .twoPow 32 0
def LOOKUP_DIRECTORY : BitVec 32 := .twoPow 32 1
def LOOKUP_OPEN : BitVec 32 := .twoPow 32 8
def LOOKUP_CREATE : BitVec 32 := .twoPow 32 9
def LOOKUP_EXCL : BitVec 32 := .twoPow 32 10
def LOOKUP_NO_SYMLINKS : BitVec 32 := .twoPow 32 16
def LOOKUP_NO_MAGICLINKS : BitVec 32 := .twoPow 32 17
def LOOKUP_NO_XDEV : BitVec 32 := .twoPow 32 18
def LOOKUP_BENEATH : BitVec 32 := .twoPow 32 19
def LOOKUP_IN_ROOT : BitVec 32 := .twoPow 32 20
def LOOKUP_CACHED : BitVec 32 := .twoPow 32 21

/-- `WILL_CREATE`. -/
def WillCreate (flags : BitVec 64) : Prop := Has flags (O_CREAT 64 ||| O_TMPFILE' 64)

instance (flags : BitVec 64) : Decidable (WillCreate flags) :=
  inferInstanceAs (Decidable (Has flags (O_CREAT 64 ||| O_TMPFILE' 64)))

/-- `ACC_MODE`: 4 is `MAY_READ`, 2 is `MAY_WRITE`. -/
def accMode (flags : BitVec 64) : BitVec 32 :=
  if flags &&& O_ACCMODE 64 = 0 then 4
  else if flags &&& O_ACCMODE 64 = O_WRONLY 64 then 2
  else 6

/-! ### `build_open_how` and `build_open_flags` -/

/-- A `struct open_how`. -/
structure OpenHow where
  flags : BitVec 64
  mode : BitVec 64
  resolve : BitVec 64
  deriving DecidableEq, Repr

/-- A `struct open_flags`. -/
structure OpenFlags where
  openFlag : BitVec 32
  mode : BitVec 16
  accMode : BitVec 32
  intent : BitVec 32
  lookupFlags : BitVec 32
  deriving DecidableEq, Repr

def buildOpenHow (flags : BitVec 32) (mode : BitVec 16) : OpenHow :=
  let flags := (flags &&& VALID_OPEN_FLAGS 32).signExtend 64
  -- `O_PATH` beats everything else
  let flags := if Has flags (O_PATH 64) then flags &&& O_PATH_FLAGS 64 else flags
  { flags := flags
    mode := if WillCreate flags then (mode &&& S_IALLUGO 16).setWidth 64 else 0
    resolve := 0 }

/-- The flags that are looked at. -/
def strip (flags : BitVec 64) : BitVec 64 := flags &&& ~~~(FMODE_NONOTIFY 64 ||| O_CLOEXEC 64)

/-- `op->mode`. -/
def openMode (flags mode : BitVec 64) : Option (BitVec 16) :=
  if WillCreate flags then
    if Has mode (~~~S_IALLUGO 64) then none else some ((mode ||| S_IFREG).setWidth 16)
  else if mode ≠ 0 then none
  else some 0

/-- `op->acc_mode`. -/
def openAccMode (flags : BitVec 64) (accMode : BitVec 32) : BitVec 32 :=
  raise flags (O_APPEND 64) MAY_APPEND <| raise flags (O_TRUNC 64) MAY_WRITE <|
    if Has flags (O_PATH 64) then 0 else accMode

/-- `op->intent`. -/
def openIntent (flags : BitVec 64) : BitVec 32 :=
  let intent := if Has flags (O_PATH 64) then 0 else LOOKUP_OPEN
  if Has flags (O_CREAT 64) then raise flags (O_EXCL 64) LOOKUP_EXCL (intent ||| LOOKUP_CREATE)
  else intent

/-- `op->lookup_flags`, without `LOOKUP_CACHED`. A file that must be new is not looked for at the
end of a link. -/
def openLookup (flags resolve : BitVec 64) : BitVec 32 :=
  let flags := if Has flags (O_CREAT 64) ∧ Has flags (O_EXCL 64) then flags ||| O_NOFOLLOW 64
    else flags
  let lookupFlags := raise flags (O_DIRECTORY 64) LOOKUP_DIRECTORY 0
  let lookupFlags :=
    if Has flags (O_NOFOLLOW 64) then lookupFlags else lookupFlags ||| LOOKUP_FOLLOW
  raise resolve RESOLVE_IN_ROOT LOOKUP_IN_ROOT <| raise resolve RESOLVE_BENEATH LOOKUP_BENEATH <|
    raise resolve RESOLVE_NO_SYMLINKS LOOKUP_NO_SYMLINKS <|
    raise resolve RESOLVE_NO_MAGICLINKS LOOKUP_NO_MAGICLINKS <|
    raise resolve RESOLVE_NO_XDEV LOOKUP_NO_XDEV lookupFlags

def buildOpenFlags (how : OpenHow) : Except Int OpenFlags :=
  let flags := strip how.flags
  let accMode := accMode how.flags
  if Has flags (~~~VALID_OPEN_FLAGS 64) then .error (-EINVAL)
  else if Has how.resolve (~~~VALID_RESOLVE_FLAGS) then .error (-EINVAL)
  else if Has how.resolve RESOLVE_BENEATH ∧ Has how.resolve RESOLVE_IN_ROOT then .error (-EINVAL)
  else
    match openMode flags how.mode with
    | none      => .error (-EINVAL)
    | some mode =>
      if flags &&& (O_DIRECTORY 64 ||| O_CREAT 64) = O_DIRECTORY 64 ||| O_CREAT 64 then
        .error (-EINVAL)
      else if Has flags (O_TMPFILE' 64) ∧ ¬ Has flags (O_DIRECTORY 64) then .error (-EINVAL)
      else if Has flags (O_TMPFILE' 64) ∧ ¬ Has accMode MAY_WRITE then .error (-EINVAL)
      else if Has flags (O_PATH 64) ∧ Has flags (~~~O_PATH_FLAGS 64) then .error (-EINVAL)
      else
        let flags := raise flags (O_SYNC' 64) (O_DSYNC 64) flags
        let lookupFlags := openLookup flags how.resolve
        if Has how.resolve RESOLVE_CACHED ∧
            Has flags (O_TRUNC 64 ||| O_CREAT 64 ||| O_TMPFILE' 64) then .error (-EAGAIN)
        else
          .ok
            { openFlag := flags.setWidth 32
              mode := mode
              accMode := openAccMode flags accMode
              intent := openIntent flags
              lookupFlags := raise how.resolve RESOLVE_CACHED LOOKUP_CACHED lookupFlags }

/-! ### The syscalls -/

/-- What `openat` opens with, and `open`, which calls the same function; `force_o_largefile` is true
on 64-bit machines. -/
def openat (flags : BitVec 32) (mode : BitVec 16) : Except Int OpenFlags :=
  buildOpenFlags (buildOpenHow (flags ||| O_LARGEFILE 32) mode)

/-- What `creat` opens with. -/
def creat (mode : BitVec 16) : Except Int OpenFlags :=
  openat (O_CREAT 32 ||| O_WRONLY 32 ||| O_TRUNC 32) mode

/-- What `openat2` opens with, once it has read the structure. -/
def openat2 (how : OpenHow) : Except Int OpenFlags :=
  buildOpenFlags
    { how with
      flags := if Has how.flags (O_PATH 64) then how.flags else how.flags ||| O_LARGEFILE 64 }

end Taro.Open
