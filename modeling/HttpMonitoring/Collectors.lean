import HttpMonitoring.Zone
import HttpMonitoring.Library.Scanf
import HttpMonitoring.Library.RowTable
import HttpMonitoring.Library.OctalEscape

/-!
# Reading the kernel's files

The collectors for processors, memory, interfaces, disks and filesystems. A
file is what its one `read` returns, or `none` when it cannot be opened or
read; `getifaddrs` and `statvfs` are parameters.
-/

namespace HttpMonitoring.Collectors

open Library.CString Library.Scanf Library.RowTable Library.OctalEscape

variable {w : Nat}

/-- The string in the buffer; `none` where callers find no bytes. -/
def readFile (file : Option Bytes) (size : Nat) : Option Bytes :=
  match file with
  | none => none
  | some content => if content.take (size - 1) = [] then none else some (text (content.take (size - 1)))

/-- An `unsigned long long` cast to a machine word. -/
def toWord (value : BitVec 64) : BitVec w := value.setWidth w

def long (value : Nat) : BitVec 64 := BitVec.ofNat 64 value

/-- On words of up to 64 bits the product in 64 bits is cut off once more. -/
theorem toWord_scaled (hw : w ≤ 64) (n scale : Nat) :
    toWord (long n * BitVec.ofNat 64 scale) = BitVec.ofNat w (n * scale) := by
  rw [long, ← BitVec.ofNat_mul]
  exact BitVec.setWidth_ofNat_of_le hw (n * scale)

def llu : List Directive := [.white, .unsigned true]
def skipped : List Directive := [.white, .unsigned false]

/-- `ngx_cpystrn`, which leaves the cells behind the terminator. -/
def cpystrn (dst src : Bytes) (n : Nat) : Bytes :=
  if n = 0 then dst
  else
    let copied := (text src).take (n - 1)
    copied ++ 0 :: dst.drop (copied.length + 1)

structure CpuTimes where
  user : BitVec 64
  nice : BitVec 64
  system : BitVec 64
  idle : BitVec 64
  iowait : BitVec 64
  irq : BitVec 64
  softirq : BitVec 64
  steal : BitVec 64

def cpuFormat : List Directive := literals (ascii "cpu") ++ (List.replicate 8 llu).flatten

/-- A counter that is missing behind the first four is zero. -/
def cpuTimes (buf : Bytes) : Option CpuTimes :=
  let values := scanNumbers cpuFormat buf
  let value := fun i => long (values.getD i 0)
  if values.length < 4 then none
  else some ⟨value 0, value 1, value 2, value 3, value 4, value 5, value 6, value 7⟩

def CpuTimes.total (t : CpuTimes) : BitVec 64 :=
  t.user + t.nice + t.system + t.idle + t.iowait + t.irq + t.softirq + t.steal

def CpuTimes.idleAll (t : CpuTimes) : BitVec 64 := t.idle + t.iowait

def usage (deltaTotal deltaIdle : BitVec 64) : BitVec 64 :=
  (deltaTotal - deltaIdle) * 100000 / deltaTotal

def updateUsage (t : CpuTimes) (sh : Shctx w) : Shctx w :=
  if 0 < sh.prevCpuTotal.toNat ∧ sh.prevCpuTotal.toNat < t.total.toNat then
    let deltaTotal := t.total - sh.prevCpuTotal
    let deltaIdle := t.idleAll - sh.prevCpuIdle
    if 0 < deltaTotal.toNat then
      { sh with system := { sh.system with usageMilli := toWord (usage deltaTotal deltaIdle) } }
    else sh
  else sh

def coreLine (line : Bytes) : Bool :=
  line.getD 0 0 == 99 && line.getD 1 0 == 112 && line.getD 2 0 == 117 && isDigit (line.getD 3 0)

def updateCores (buf : Bytes) (sh : Shctx w) : Shctx w :=
  let cores := (lines buf).countP coreLine
  if 0 < cores then { sh with system := { sh.system with cores := BitVec.ofNat w cores } } else sh

def collectCpu (file : Option Bytes) (sh : Shctx w) : Shctx w :=
  match readFile file 32768 with
  | none => sh
  | some buf =>
    match cpuTimes buf with
    | none => sh
    | some t =>
      updateCores buf { updateUsage t sh with prevCpuTotal := t.total, prevCpuIdle := t.idleAll }

/-- The figures in the order in which a line is compared with their labels. -/
inductive Figure
  | memTotal
  | memAvailable
  | memFree
  | swapTotal
  | swapFree
deriving DecidableEq

namespace Figure

def all : List Figure := [.memTotal, .memAvailable, .memFree, .swapTotal, .swapFree]

def label : Figure → Bytes
  | .memTotal => ascii "MemTotal:"
  | .memAvailable => ascii "MemAvailable:"
  | .memFree => ascii "MemFree:"
  | .swapTotal => ascii "SwapTotal:"
  | .swapFree => ascii "SwapFree:"

def format (f : Figure) : List Directive := literals f.label ++ llu ++ .white :: literals (ascii "kB")

def get (s : SystemMetric w) : Figure → BitVec w
  | .memTotal => s.memTotal
  | .memAvailable => s.memAvailable
  | .memFree => s.memFree
  | .swapTotal => s.swapTotal
  | .swapFree => s.swapFree

def store (s : SystemMetric w) (value : BitVec w) : Figure → SystemMetric w
  | .memTotal => { s with memTotal := value }
  | .memAvailable => { s with memAvailable := value }
  | .memFree => { s with memFree := value }
  | .swapTotal => { s with swapTotal := value }
  | .swapFree => { s with swapFree := value }

end Figure

/-- The figure of a line and its value in kilobytes. -/
def readFigure (line : Bytes) : Option (Figure × Nat) :=
  Figure.all.findSome? fun f =>
    match scanNumbers f.format line with
    | [value] => some (f, value)
    | _ => none

def storeFigure (s : SystemMetric w) (line : Bytes) : SystemMetric w :=
  match readFigure line with
  | none => s
  | some (f, value) => f.store s (toWord (long value * 1024))

def collectMeminfo (file : Option Bytes) (sh : Shctx w) : Shctx w :=
  match readFile file 8192 with
  | none => sh
  | some buf => { sh with system := (lines buf).foldl storeFigure sh.system }

structure IfaceReading where
  name : Bytes
  rxBytes : Nat
  rxPackets : Nat
  rxErrs : Nat
  txBytes : Nat
  txPackets : Nat
  txErrs : Nat

def netFormat : List Directive :=
  llu.tail ++ llu ++ llu ++ (List.replicate 5 skipped).flatten ++ llu ++ llu ++ llu

/-- The name in front of the first colon, and the six counters behind it. -/
def readIface (line : Bytes) : Option IfaceReading :=
  match line.dropWhile (· ≠ 58) with
  | [] => none
  | _ :: counters =>
    match scan [.word 63 true] ((line.takeWhile (· ≠ 58)).dropWhile (· = 32)) with
    | [name] =>
      match scanNumbers netFormat counters with
      | [rxBytes, rxPackets, rxErrs, txBytes, txPackets, txErrs] =>
        some ⟨name.text, rxBytes, rxPackets, rxErrs, txBytes, txPackets, txErrs⟩
      | _ => none
    | _ => none

def storeIface (r : IfaceReading) (m : IfaceMetric w) : IfaceMetric w where
  name := cpystrn m.name r.name nameLen
  rxBytes := toWord (long r.rxBytes)
  txBytes := toWord (long r.txBytes)
  rxPackets := toWord (long r.rxPackets)
  txPackets := toWord (long r.txPackets)
  rxErrors := toWord (long r.rxErrs)
  txErrors := toWord (long r.txErrs)
  flags := 0

/-- An element of the list that `getifaddrs` returns. -/
structure Ifaddr where
  name : Option Bytes
  flags : BitVec 32

/-- The flags go to the first row of that name. -/
def storeFlags (count : Nat) (ifaces : Nat → IfaceMetric w) (ifa : Ifaddr) : Nat → IfaceMetric w :=
  match ifa.name with
  | none => ifaces
  | some name =>
    match (List.range count).find? fun i => strncmpEq nameLen (ifaces i).name name with
    | none => ifaces
    | some i => Function.update ifaces i { ifaces i with flags := ifa.flags.setWidth w }

/-- The list is absent when `getifaddrs` fails. -/
def collectNetwork (file : Option Bytes) (addresses : Option (List Ifaddr)) (sh : Shctx w) : Shctx w :=
  match readFile file 32768 with
  | none => sh
  | some buf =>
    let (count, ifaces) := readRows ifacesMax readIface storeIface (lines buf) 0 sh.ifaces
    { sh with
      ifaces := (addresses.getD []).foldl (storeFlags count) ifaces
      ifaceCount := BitVec.ofNat w count }

structure DiskReading where
  name : Bytes
  reads : Nat
  sectorsRead : Nat
  writes : Nat
  sectorsWritten : Nat
  ioMs : Nat

def diskFormat : List Directive :=
  llu ++ llu ++ [.white, .word 63 true] ++ llu ++ skipped ++ llu ++ skipped ++ llu ++ skipped ++ llu ++
    skipped ++ skipped ++ llu

/-- The numbers of the device come first and are not used. -/
def readDisk (line : Bytes) : Option DiskReading :=
  match scan diskFormat line with
  | [_, _, name, reads, sectorsRead, writes, sectorsWritten, ioMs] =>
    if ¬ strncmpEq 4 name.text (ascii "loop") ∧ ¬ strncmpEq 3 name.text (ascii "ram") then
      some ⟨name.text, reads.toNat, sectorsRead.toNat, writes.toNat, sectorsWritten.toNat, ioMs.toNat⟩
    else none
  | _ => none

def storeDisk (r : DiskReading) (m : DiskMetric w) : DiskMetric w where
  name := cpystrn m.name r.name nameLen
  reads := toWord (long r.reads)
  writes := toWord (long r.writes)
  readBytes := toWord (long r.sectorsRead * 512)
  writeBytes := toWord (long r.sectorsWritten * 512)
  ioMs := toWord (long r.ioMs)

def collectDiskstats (file : Option Bytes) (sh : Shctx w) : Shctx w :=
  match readFile file 65536 with
  | none => sh
  | some buf =>
    let (count, disks) := readRows disksMax readDisk storeDisk (lines buf) 0 sh.disks
    { sh with disks := disks, diskCount := BitVec.ofNat w count }

/-- What successive calls of `fgets` with a buffer of `room + 1` cells leave,
without the terminators; `left` is the room behind the part read so far. -/
def fgetsFrom (room : Nat) : Nat → Bytes → List Bytes
  | _, [] => []
  | left, c :: stream =>
    if c = 10 ∨ left ≤ 1 then [c] :: fgetsFrom room room stream
    else
      match fgetsFrom room (left - 1) stream with
      | [] => [[c]]
      | line :: rest => (c :: line) :: rest

def fgetsLines (size : Nat) (stream : Bytes) : List Bytes := fgetsFrom (size - 1) (size - 1) stream

/-- A line in its buffer and the cursor in it. -/
structure MountCursor where
  line : Bytes
  cursor : Nat

namespace MountCursor

def byte (m : MountCursor) (p : Nat) : UInt8 := m.line.getD p 0

/-- The first position from `p` on whose byte does not satisfy the predicate. -/
def skip (m : MountCursor) (P : UInt8 → Bool) (p : Nat) : Nat := p + ((m.line.drop p).takeWhile P).length

end MountCursor

def isBlank (c : UInt8) : Bool := c == 32 || c == 9

def endsField (c : UInt8) : Bool := c == 0 || c == 10 || isBlank c

/-- The start of the next field; its end becomes a terminator. -/
def nextMountField (m : MountCursor) : Option Nat × MountCursor :=
  let start := m.skip isBlank m.cursor
  if m.byte start = 0 ∨ m.byte start = 10 then (none, { m with cursor := start })
  else
    let stop := m.skip (fun c => !endsField c) start
    if m.byte stop ≠ 0 then (some start, ⟨m.line.set stop 0, stop + 1⟩)
    else (some start, { m with cursor := stop })

/-- The bytes copied to a buffer with `room` cells before its last. -/
def copyBytes : Nat → Bytes → Bytes
  | 0, _ => []
  | room + 1, src =>
    if src.getD 0 0 = 0 then []
    else if src.getD 0 0 = 92 ∧ isOctal (src.getD 1 0) ∧ isOctal (src.getD 2 0) ∧ isOctal (src.getD 3 0) then
      UInt8.ofNat (octalValue (src.getD 1 0) (src.getD 2 0) (src.getD 3 0)) :: copyBytes room (src.drop 4)
    else src.getD 0 0 :: copyBytes room src.tail

/-- What is written to `dst`. -/
def copyMountField (size : Nat) (src : Bytes) : Bytes :=
  if size = 0 then [] else copyBytes (size - 1) src ++ [0]

/-- The mount point and the type in the buffers of `collect_filesystems`. -/
def mountFields (line : Bytes) : Option (Bytes × Bytes) :=
  let (source, m) := nextMountField ⟨line ++ [0], 0⟩
  let (mount, m) := nextMountField m
  let (type, m) := nextMountField m
  match source, mount, type with
  | some _, some mount, some type =>
    some (copyMountField 4096 (m.line.drop mount), copyMountField nameLen (m.line.drop type))
  | _, _, _ => none

structure Statvfs where
  blocks : BitVec 64
  bfree : BitVec 64
  bavail : BitVec 64
  frsize : BitVec 64
  files : BitVec 64
  ffree : BitVec 64
deriving DecidableEq

def skipFs (type : Bytes) : Bool :=
  type ∈ ["proc", "sysfs", "devtmpfs", "devpts", "securityfs", "cgroup", "cgroup2", "pstore", "autofs",
    "mqueue", "hugetlbfs", "debugfs", "tracefs", "configfs", "fusectl", "binfmt_misc", "rpc_pipefs",
    "overlay", "nsfs"].map ascii

structure FsReading where
  mountPath : Bytes
  fsType : Bytes
  st : Statvfs

def readFs (statvfs : Bytes → Option Statvfs) (line : Bytes) : Option FsReading :=
  match mountFields line with
  | none => none
  | some (mountPath, fsType) =>
    if mountPath.getD 0 0 = 0 ∨ fsType.getD 0 0 = 0 then none
    else if skipFs (text fsType) then none
    else
      match statvfs (text mountPath) with
      | none => none
      | some st => if st.blocks = 0 then none else some ⟨mountPath, fsType, st⟩

namespace Statvfs

def total (st : Statvfs) : BitVec 64 := st.blocks * st.frsize
def freeBytes (st : Statvfs) : BitVec 64 := st.bfree * st.frsize
def avail (st : Statvfs) : BitVec 64 := st.bavail * st.frsize
def used (st : Statvfs) : BitVec 64 := st.total - st.freeBytes

end Statvfs

def storeFs (r : FsReading) (m : FsMetric w) : FsMetric w where
  path := cpystrn m.path r.mountPath keyLen
  type := cpystrn m.type r.fsType nameLen
  total := toWord r.st.total
  used := toWord r.st.used
  free := toWord r.st.freeBytes
  avail := toWord r.st.avail
  files := toWord r.st.files
  filesFree := toWord r.st.ffree

/-- The mount table is absent when it cannot be opened. -/
def collectFilesystems (statvfs : Bytes → Option Statvfs) (mounts : Option Bytes) (sh : Shctx w) :
    Shctx w :=
  match mounts with
  | none => sh
  | some stream =>
    let (count, filesystems) :=
      readRows filesystemsMax (readFs statvfs) storeFs (fgetsLines 4096 stream) 0 sh.filesystems
    { sh with filesystems := filesystems, fsCount := BitVec.ofNat w count }

end HttpMonitoring.Collectors
