import TaroKernel.Cpu.Read
import TaroKernel.Kernel

/-!
# Reports about memory and storage

Four ways to learn how much memory there is. `sysinfo` of `kernel/sys.c` gives it in bytes if that
fits in words and in pages if not, its variant for 32-bit programs scales it once more. The syscall
of `kernel/usac/memory_snapshot.c` gives it in kilobytes, the proc file of `Modulos/RAM/ram.c` in
bytes and with a percentage. The proc file of `Modulos/STORAGE/disk.c` does the same for a file
system, in gigabytes.
-/

namespace Taro.Meminfo

open Cpu (divide)

def PAGE_SIZE : UInt32 := 4096

/-! ### Amounts -/

/-- The amounts of memory of a `struct sysinfo`. -/
structure Amounts (α : Type*) where
  totalram : α
  freeram : α
  sharedram : α
  bufferram : α
  totalswap : α
  freeswap : α
  totalhigh : α
  freehigh : α
  deriving DecidableEq, Repr

/-- The same is done to all of them. -/
def Amounts.map {α β : Type*} (f : α → β) (m : Amounts α) : Amounts β :=
  ⟨f m.totalram, f m.freeram, f m.sharedram, f m.bufferram, f m.totalswap, f m.freeswap,
    f m.totalhigh, f m.freehigh⟩

def Amounts.toList {α : Type*} (m : Amounts α) : List α :=
  [m.totalram, m.freeram, m.sharedram, m.bufferram, m.totalswap, m.freeswap, m.totalhigh,
    m.freehigh]

/-- What `si_meminfo` and `si_swapinfo` count, in pages: the parts are no more than the whole. -/
structure Pages extends Amounts UInt64 where
  ram : ∀ x ∈ [freeram, sharedram, bufferram, totalhigh, freehigh], x ≤ totalram
  swap : freeswap ≤ totalswap

/-! ### `sysinfo` -/

/-- A `struct sysinfo`. -/
structure Sysinfo where
  uptime : Int64
  loads : UInt64 × UInt64 × UInt64
  amounts : Amounts UInt64
  procs : UInt16
  memUnit : UInt32
  deriving DecidableEq, Repr

/-- What `do_sysinfo` asks for: `ktime_get_boottime_ts64`, `get_avenrun`, `nr_threads`, and the
pages. -/
structure Sources where
  tvSec : Int64
  tvNsec : Int64
  avenrun : UInt64 × UInt64 × UInt64
  nrThreads : Int32
  pages : Pages

/-- The loop of `do_sysinfo`, which halves the unit and doubles the total; there is no result if the
total overflows. It ends before `fuel` does: a word has been halved to 1 after 31 rounds. -/
def shifts : ℕ → UInt32 → UInt64 → UInt32 → Option UInt32
  | 0, _, _, bitcount => some bitcount
  | fuel + 1, memUnit, memTotal, bitcount =>
    if memUnit > 1 then
      if memTotal <<< 1 < memTotal then none
      else shifts fuel (memUnit >>> 1) (memTotal <<< 1) (bitcount + 1)
    else some bitcount

/-- `do_sysinfo`. -/
def doSysinfo (src : Sources) : Sysinfo :=
  let info : Sysinfo :=
    { uptime := src.tvSec + if src.tvNsec ≠ 0 then 1 else 0
      loads := src.avenrun
      amounts := src.pages.toAmounts
      procs := src.nrThreads.toUInt32.toUInt16
      memUnit := PAGE_SIZE }
  let memTotal := info.amounts.totalram + info.amounts.totalswap
  if memTotal < info.amounts.totalram ∨ memTotal < info.amounts.totalswap then info
  else
    match shifts 32 info.memUnit memTotal 0 with
    | none          => info
    | some bitcount =>
      { info with memUnit := 1, amounts := info.amounts.map (· <<< bitcount.toUInt64) }

/-- A `struct compat_sysinfo`. -/
structure CompatSysinfo where
  uptime : Int32
  loads : UInt32 × UInt32 × UInt32
  amounts : Amounts UInt32
  procs : UInt16
  memUnit : UInt32
  deriving DecidableEq, Repr

/-- The loop of the compat `sysinfo`: the unit is doubled until it is a page. From 1 on this takes
12 rounds. -/
def unshifts : ℕ → UInt32 → UInt32 → UInt32 × UInt32
  | 0, memUnit, bitcount => (memUnit, bitcount)
  | fuel + 1, memUnit, bitcount =>
    if memUnit < PAGE_SIZE then unshifts fuel (memUnit <<< 1) (bitcount + 1)
    else (memUnit, bitcount)

/-- Amounts that are too large for 32 bits are given in pages. -/
def scaleDown (s : Sysinfo) : Sysinfo :=
  if s.amounts.totalram >>> 32 ≠ 0 ∨ s.amounts.totalswap >>> 32 ≠ 0 then
    let r := unshifts 32 s.memUnit 0
    { s with memUnit := r.1, amounts := s.amounts.map (· >>> r.2.toUInt64) }
  else s

/-- The compat `sysinfo`, before the structure is copied out. -/
def compatSysinfo (src : Sources) : CompatSysinfo :=
  let s := scaleDown (doSysinfo src)
  { uptime := s.uptime.toInt32
    loads := (s.loads.1.toUInt32, s.loads.2.1.toUInt32, s.loads.2.2.toUInt32)
    amounts := s.amounts.map UInt64.toUInt32
    procs := s.procs
    memUnit := s.memUnit }

/-! ### `capture_memory_snapshot` -/

/-- A `struct mem_snapshot`. -/
structure MemSnapshot where
  totalMemory : UInt64
  freeMemory : UInt64
  activePages : UInt64
  inactivePages : UInt64
  swapTotal : UInt64
  swapCached : UInt64
  swapUsed : UInt64
  deriving DecidableEq, Repr

/-- The counters that are read besides the pages. -/
structure NodePages where
  activeAnon : UInt64
  activeFile : UInt64
  inactiveAnon : UInt64
  inactiveFile : UInt64
  swapcache : UInt64
  deriving DecidableEq, Repr

/-- `capture_memory_snapshot`, before the structure is copied out. Pages become kilobytes, except
for the active and inactive ones. -/
def captureMemorySnapshot (si : Pages) (n : NodePages) : MemSnapshot :=
  { totalMemory := si.totalram <<< (PAGE_SHIFT - 10)
    freeMemory := si.freeram <<< (PAGE_SHIFT - 10)
    activePages := n.activeAnon + n.activeFile
    inactivePages := n.inactiveAnon + n.inactiveFile
    swapTotal := si.totalswap <<< (PAGE_SHIFT - 10)
    swapCached := n.swapcache <<< (PAGE_SHIFT - 10)
    swapUsed := (si.totalswap - si.freeswap) <<< (PAGE_SHIFT - 10) }

/-! ### The proc files -/

/-- What the proc file of the RAM module shows. -/
structure RamReport where
  total : UInt64
  used : UInt64
  porcentaje : UInt64
  free : UInt64
  deriving DecidableEq, Repr

/-- `seq_printf` of the RAM module. -/
def RamReport.text (r : RamReport) : String :=
  "\x7b\"totalRam\":" ++ toString r.total.toNat ++ ", \"memoriaEnUso\":" ++ toString r.used.toNat ++
    ", \"porcentaje\":" ++ toString r.porcentaje.toNat ++ ", \"libre\":" ++
    toString r.free.toNat ++ " \x7d\n"

/-- `escribir_a_proc` of the RAM module; `si_meminfo` gives pages, and their size as `mem_unit`. -/
def escribirAProc (inf : Pages) : Option RamReport :=
  let memUnit := PAGE_SIZE.toUInt64
  let total := inf.totalram * memUnit
  let used := total - (inf.freeram + inf.bufferram + inf.sharedram) * memUnit
  let free := inf.freeram * memUnit
  (divide (used * 100) total).map fun porcentaje => ⟨total, used, porcentaje, free⟩

/-- The part of a `struct kstatfs` that is read. -/
structure Kstatfs where
  fBsize : Int64
  fBlocks : UInt64
  fBfree : UInt64
  fBavail : UInt64
  deriving DecidableEq, Repr

/-- Blocks in gigabytes. -/
def Kstatfs.gb (stats : Kstatfs) (blocks : UInt64) : UInt64 :=
  (blocks * stats.fBsize.toUInt64) >>> 30

/-- `write_storage_stats`; `kernPath` and `vfsStatfs` return 0 if they find what they look for. -/
def writeStorageStats (path : String) (kernPath vfsStatfs : Int32) (stats : Kstatfs) :
    String :=
  if kernPath ≠ 0 then
    "\x7b\n\"error\": \"No se pudo acceder a la partición: " ++ path ++ "\"\n\x7d\n"
  else if vfsStatfs ≠ 0 then
    "\x7b\n\"error\": \"No se pudieron obtener estadísticas de la partición: " ++ path ++
      "\"\n\x7d\n"
  else
    "\x7b\n\"partition\": \"" ++ path ++ "\",\n\"total_space_gb\": " ++
      toString (stats.gb stats.fBlocks).toNat ++ ",\n\"free_space_gb\": " ++
      toString (stats.gb stats.fBfree).toNat ++ ",\n\"available_space_gb\": " ++
      toString (stats.gb stats.fBavail).toNat ++ "\n\x7d\n"

end Taro.Meminfo
