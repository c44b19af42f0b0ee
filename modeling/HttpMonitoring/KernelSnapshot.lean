import HttpMonitoring.CollectorHandler
import HttpMonitoring.KernelTexts
import HttpMonitoring.MountLines
import HttpMonitoring.SystemTexts

/-!
# What a pass shows of the kernel

The kernel's figures at one moment, its texts, and the zone behind a pass that
reads them.
-/

namespace HttpMonitoring.KernelSnapshot

open Accounting Collectors Collection SystemCollectors CollectorLock CollectorHandler ZoneRegions KernelTexts
  MountLines SystemTexts SystemFigures Library.CString Library.Scanf Library.Decimal Library.Doubles
  Library.LabelledLines Library.RowTable

variable {w : Nat}

/-- `/proc/stat`: the columns of all processors, the processors, and other lines. -/
structure StatFile where
  cells : List (Nat × Nat)
  eight : cells.length = 8
  small : ∀ c ∈ cells, c.2 < 2 ^ 64
  guests : List (Nat × Nat)
  processors : List (Nat × List (Nat × Nat))
  others : List Bytes
  plain : ∀ line ∈ others, (10 : UInt8) ∉ line ∧ coreLine line = false

namespace StatFile

variable (f : StatFile)

def processorLine (p : Nat × List (Nat × Nat)) : Bytes := ascii "cpu" ++ (natText p.1 ++ columns p.2)

def texts : List Bytes := statText f.cells (columns f.guests) :: (f.processors.map processorLine ++ f.others)

def text : Bytes := f.texts.flatMap fun line => line ++ [10]

def times : CpuTimes :=
  let value := fun i => long ((f.cells.map Prod.snd).getD i 0)
  ⟨value 0, value 1, value 2, value 3, value 4, value 5, value 6, value 7⟩

theorem newline_notMem {line : Bytes} (h : line ∈ f.texts) : (10 : UInt8) ∉ line := by
  have hName : (10 : UInt8) ∉ ascii "cpu" := by decide +kernel
  rcases List.mem_cons.mp h with rfl | h
  · simp [statText, hName, newline_notMem_columns]
  · rcases List.mem_append.mp h with hProcessor | hOther
    · obtain ⟨p, -, rfl⟩ := List.mem_map.mp hProcessor
      have hNumber : (10 : UInt8) ∉ natText p.1 := fun hMem => absurd (isDigit_of_mem_natText hMem).1 (by decide)
      simp [processorLine, hName, hNumber, newline_notMem_columns]
    · exact (f.plain line hOther).1

theorem coreLine_processorLine (p : Nat × List (Nat × Nat)) : coreLine (processorLine p) = true := by
  obtain ⟨d, digits, hDigits⟩ := List.exists_cons_of_ne_nil (natText_ne_nil p.1)
  have hDigit : isDigit d = true := by
    have hMem : d ∈ natText p.1 := by simp [hDigits]
    exact (isDigit_iff d).mpr (isDigit_of_mem_natText hMem)
  rw [processorLine, hDigits]
  exact hDigit

theorem countP_coreLine : f.texts.countP coreLine = f.processors.length := by
  have hFirst : coreLine (statText f.cells (columns f.guests)) = false := by
    obtain ⟨c, cells, hCells⟩ := List.exists_cons_of_length_eq_add_one f.eight
    rw [statText, hCells]
    rfl
  have hOthers : f.others.countP coreLine = 0 :=
    List.countP_eq_zero.mpr fun line hLine => by simp [(f.plain line hLine).2]
  have hAll : f.processors.countP (coreLine ∘ processorLine) = f.processors.length :=
    List.countP_eq_length.mpr fun p _ => coreLine_processorLine p
  rw [texts, List.countP_cons_of_neg (by simp [hFirst]), List.countP_append, hOthers, List.countP_map, hAll,
    Nat.add_zero]

theorem cpuTimes_text : cpuTimes f.text = some f.times := by
  have hText : f.text = statText f.cells (columns f.guests ++
      10 :: (f.processors.map processorLine ++ f.others).flatMap fun line => line ++ [10]) := by
    simp [text, texts, statText]
  have hRest : ∀ c ∈ (columns f.guests ++
      10 :: (f.processors.map processorLine ++ f.others).flatMap fun line => line ++ [10]).head?,
      isDigit c = false := by
    refine head_columns fun c hc => ?_
    obtain rfl := Option.some.inj hc
    rfl
  rw [hText]
  exact cpuTimes_statText f.eight f.small hRest

theorem collectCpu_text {file : Option Bytes} (hFile : readFile file 32768 = some f.text) (sh : Shctx w) :
    Region.processor.get (collectCpu file sh) = ((updateUsage f.times sh).system.usageMilli,
      if 0 < f.processors.length then BitVec.ofNat w f.processors.length else sh.system.cores,
      f.times.total, f.times.idleAll) := by
  have hLines : (lines f.text).countP coreLine = f.processors.length := by
    rw [text, lines_flatMap fun line => f.newline_notMem, countP_coreLine]
  have hUsage : (updateUsage f.times sh).system.cores = sh.system.cores := by
    simp only [updateUsage]
    split_ifs <;> rfl
  simp only [collectCpu, hFile, cpuTimes_text, updateCores, hLines]
  split <;> simp [Region.get, hUsage]

end StatFile

theorem readFigure_eq (line : Bytes) : readFigure line = readLabelled Figure.all Figure.format line := rfl

theorem readLabelled_figure (f : Figure) {blanks rest : Bytes} {n : Nat}
    (h : (Line.figure f blanks n rest).Valid Figure.all Figure.format) :
    readLabelled Figure.all Figure.format ((Line.figure f blanks n rest).text Figure.label) = some (f, n) := by
  obtain ⟨hBlanks, hSmall, hRest, -⟩ := h
  have hUnit : Silent (.white :: literals (ascii "kB")) := by
    intro d hd
    rcases List.mem_cons.mp hd with rfl | hd
    · exact Or.inl rfl
    · exact silent_literals _ d hd
  have hFormat : f.format = literals f.label ++ (.white :: .unsigned true :: .white :: literals (ascii "kB")) := by
    rw [Figure.format, List.append_assoc]
    rfl
  have hOwn : scanNumbers f.format (f.label ++ (blanks ++ natText n ++ rest)) = [n] := by
    rw [hFormat]
    exact scanNumbers_labelled hUnit (fun c hc => (hBlanks c hc).1) hSmall hRest
  refine readLabelled_own _ _ (by cases f <;> decide) hOwn fun g hg => ?_
  rw [Line.text, scanNumbers, scan_other_label hg]
  rfl

/-- Each figure is the last one of its lines in bytes, or what it was. -/
theorem collectMeminfo_printed (hw : w ≤ 64) {printed : List (Line Figure)}
    (hValid : ∀ l ∈ printed, l.Valid Figure.all Figure.format) {file : Option Bytes}
    (hFile : readFile file 8192 = some ((printed.map (Line.text Figure.label)).flatMap fun line => line ++ [10]))
    (sh : Shctx w) (f : Figure) : Figure.get (collectMeminfo file sh).system f =
      ((lastOf f (printed.filterMap Line.pair?)).map fun n => BitVec.ofNat w (n * 1024)).getD
        (Figure.get sh.system f) := by
  have hLabel : ∀ f : Figure, (10 : UInt8) ∉ f.label := by
    intro f
    cases f <;> decide +kernel
  have hPairs := filterMap_readLabelled hLabel (fun f _ _ _ h => readLabelled_figure f h) hValid
  have hStores : ∀ text : Bytes, (lines text).foldl storeFigure sh.system =
      storeLines Figure.all Figure.format (fun f n s => f.store s (toWord (long n * 1024))) text sh.system := by
    intro text
    rw [storeLines, List.foldl_filterMap]
    refine congrArg (fun store => (lines text).foldl store sh.system) ?_
    funext s line
    rw [storeFigure, readFigure_eq]
    cases readLabelled Figure.all Figure.format line <;> rfl
  have hSame : ∀ (f : Figure) n (s : SystemMetric w),
      Figure.get (f.store s (toWord (long n * 1024))) f = BitVec.ofNat w (n * 1024) := by
    intro f n s
    rw [get_store, if_pos rfl]
    exact toWord_scaled hw n 1024
  rw [collectMeminfo, hFile, ← hPairs]
  dsimp only
  rw [hStores]
  exact @get_storeLines _ _ _ _ _ _ _ (fun f s => Figure.get s f) _ hSame
    (fun f g n s h => by rw [get_store, if_neg h]) _ sh.system f

/-- The rows behind a loop that has stored what it could. -/
def filled {ρ τ : Type*} (store : ρ → τ → τ) (read : List ρ) (rows : Nat → τ) (i : Nat) : τ :=
  match read[i]? with
  | none => rows i
  | some r => store r (rows i)

theorem stored_disks (rows : List (Row Disk readDisk)) :
    stored disksMax readDisk (lines ((rows.map (Row.text Disk.text)).flatMap fun line => line ++ [10])) =
      ((rows.filterMap Row.shown?).map Disk.reading).take disksMax := by
  have hLine : ∀ r : Disk, (10 : UInt8) ∉ r.text := fun r => by
    simp [Disk.text, diskLine, r.isName.noNewline, newline_notMem_columns]
  have hRead : ∀ r : Disk, readDisk r.text = some r.reading := fun r =>
    readDisk_diskLine r.two r.deviceSmall r.isName r.kept r.ten r.small (isDigit_head_columns r.others)
  rw [stored, Row.filterMap_text hLine hRead]

theorem collectDiskstats_printed {rows : List (Row Disk readDisk)} {file : Option Bytes}
    (hFile : readFile file 65536 = some ((rows.map (Row.text Disk.text)).flatMap fun line => line ++ [10]))
    (sh : Shctx w) :
    let read := ((rows.filterMap Row.shown?).map Disk.reading).take disksMax
    Region.disks.get (collectDiskstats file sh) = (BitVec.ofNat w read.length, filled storeDisk read sh.disks) := by
  intro read
  rw [collectDiskstats, hFile]
  dsimp only
  rw [readRows_zero, stored_disks]
  rfl

/-- A line of the mount table as the kernel prints it. -/
structure Mount where
  source : Bytes
  mount : Bytes
  type : Bytes
  options : Bytes
  isSource : Named source
  isMount : Named mount
  isType : Named type
  mountFits : mount.length < 4096
  typeFits : type.length < nameLen
  oneLine : (10 : UInt8) ∉ options
  short : (mountLine source mount type options).length < 4096

namespace Mount

variable (m : Mount)

def text : Bytes := mountLine m.source m.mount m.type m.options

def line : Bytes := mangle m.source ++ 32 :: (mangle m.mount ++ 32 :: (mangle m.type ++ 32 :: m.options))

theorem text_eq : m.text = m.line ++ [10] := by
  simp [text, mountLine, line]

/-- What is shown of a mount, unless it is of no interest or cannot be asked for. -/
def reading (statvfs : Bytes → Option Statvfs) : Option FsReading :=
  if skipFs m.type then none
  else (statvfs m.mount).bind fun st => if st.blocks = 0 then none else some ⟨m.mount ++ [0], m.type ++ [0], st⟩

theorem text_terminated {s : Bytes} (h : (0 : UInt8) ∉ s) : Library.CString.text (s ++ [0]) = s := by
  rw [Library.CString.text, List.takeWhile_append_of_pos fun c hc => by simpa using fun hZero : c = 0 => h (hZero ▸ hc)]
  simp

theorem getD_head {s : Bytes} (h : Named s) : (s ++ [0]).getD 0 0 ≠ 0 := by
  obtain ⟨c, rest, rfl⟩ := List.exists_cons_of_ne_nil h.nonempty
  intro hZero
  exact h.terminated (List.mem_cons.mpr (Or.inl (show c = 0 from hZero).symm))

theorem readFs_text (statvfs : Bytes → Option Statvfs) : readFs statvfs m.text = m.reading statvfs := by
  have hFields : mountFields m.text = some (m.mount ++ [0], m.type ++ [0]) :=
    mountFields_mangled m.isSource m.isMount m.isType m.mountFits m.typeFits (m.options ++ [10])
  simp only [readFs, hFields, reading, text_terminated m.isMount.terminated, text_terminated m.isType.terminated]
  rw [if_neg (not_or.mpr ⟨getD_head m.isMount, getD_head m.isType⟩)]
  cases statvfs m.mount <;> rfl

end Mount

theorem fgetsLines_mounts (mounts : List Mount) :
    fgetsLines 4096 (mounts.flatMap Mount.text) = mounts.map Mount.text := by
  have hText : Mount.text = (fun line => line ++ [10]) ∘ Mount.line := funext Mount.text_eq
  have hLines : ∀ line ∈ mounts.map Mount.line, (10 : UInt8) ∉ line ∧ line.length < 4096 - 1 := by
    intro line hLine
    obtain ⟨m, -, rfl⟩ := List.mem_map.mp hLine
    refine ⟨by simp [Mount.line, newline_notMem_mangle, m.oneLine], ?_⟩
    have hShort := m.short
    have hLength := congrArg List.length m.text_eq
    rw [Mount.text, List.length_append, List.length_singleton] at hLength
    omega
  have hRead := fgetsLines_lines hLines
  rw [List.flatMap_map, List.map_map] at hRead
  rw [hText]
  exact hRead

theorem stored_mounts (statvfs : Bytes → Option Statvfs) (mounts : List Mount) :
    stored filesystemsMax (readFs statvfs) (fgetsLines 4096 (mounts.flatMap Mount.text)) =
      (mounts.filterMap fun m => m.reading statvfs).take filesystemsMax := by
  have hRead : readFs statvfs ∘ Mount.text = fun m => m.reading statvfs := by
    funext m
    rw [Function.comp_apply, m.readFs_text]
  rw [fgetsLines_mounts, stored, List.filterMap_map, hRead]

theorem collectFilesystems_printed (statvfs : Bytes → Option Statvfs) (mounts : List Mount) (sh : Shctx w) :
    let read := (mounts.filterMap fun m => m.reading statvfs).take filesystemsMax
    Region.filesystems.get (collectFilesystems statvfs (some (mounts.flatMap Mount.text)) sh) =
      (BitVec.ofNat w read.length, filled storeFs read sh.filesystems) := by
  intro read
  rw [collectFilesystems, readRows_zero, stored_mounts]
  rfl

theorem stored_ifaces (rows : List (Row Iface readIface)) :
    stored ifacesMax readIface (lines ((rows.map (Row.text Iface.text)).flatMap fun line => line ++ [10])) =
      ((rows.filterMap Row.shown?).map Iface.reading).take ifacesMax := by
  have hLine : ∀ r : Iface, (10 : UInt8) ∉ r.text := fun r => by
    simp [Iface.text, ifaceLine, r.isName.noNewline, newline_notMem_columns]
  have hRead : ∀ r : Iface, readIface r.text = some r.reading := fun r =>
    readIface_ifaceLine r.pad r.isName r.eleven r.small (isDigit_head_columns r.others)
  rw [stored, Row.filterMap_text hLine hRead]

/-- The flags of the rows come from the list of addresses. -/
theorem collectNetwork_printed {rows : List (Row Iface readIface)} {file : Option Bytes}
    (hFile : readFile file 32768 = some ((rows.map (Row.text Iface.text)).flatMap fun line => line ++ [10]))
    (addresses : Option (List Ifaddr)) (sh : Shctx w) :
    let read := ((rows.filterMap Row.shown?).map Iface.reading).take ifacesMax
    (collectNetwork file addresses sh).ifaceCount = BitVec.ofNat w read.length ∧
      ∀ i, ∃ flags, (collectNetwork file addresses sh).ifaces i =
        { filled storeIface read sh.ifaces i with flags := flags } := by
  intro read
  rw [collectNetwork, hFile]
  dsimp only
  rw [readRows_zero, stored_ifaces]
  exact ⟨rfl, fun i => foldl_storeFlags_row _ _ _ i⟩

/-- What there is to be seen when a pass runs. -/
structure Kernel (w : Nat) where
  stub : StubStatus w
  stat : StatFile
  loads : Nat × Nat × Nat
  loadRest : Bytes
  memory : List (Line Figure)
  uptime : Nat
  uptimeRest : Bytes
  names : List Bytes
  tcp : Option SocketTable
  tcp6 : Option SocketTable
  sockstat : List (Line SockFigure)
  disks : List (Row Disk readDisk)
  mounts : List Mount
  ifaces : List (Row Iface readIface)
  addresses : Option (List Ifaddr)
  smallLoads : loads.1 < 2 ^ 46 ∧ loads.2.1 < 2 ^ 46 ∧ loads.2.2 < 2 ^ 46
  smallUptime : uptime < 2 ^ 46
  validMemory : ∀ l ∈ memory, l.Valid Figure.all Figure.format
  validSockstat : ∀ l ∈ sockstat, l.Valid SockFigure.all SockFigure.format

namespace Kernel

/-- The files hold the kernel's texts, which fit in the buffers they are read to. -/
structure Fills (k : Kernel w) (s : Sources w) : Prop where
  stub : s.stub = some k.stub
  stat : readFile s.stat 32768 = some k.stat.text
  loadavg : readFile s.loadavg 256 = some (loadText k.loads.1 k.loads.2.1 k.loads.2.2 k.loadRest)
  meminfo : readFile s.meminfo 8192 =
    some ((k.memory.map (Line.text Figure.label)).flatMap fun line => line ++ [10])
  uptime : readFile s.uptime 256 = some (uptimeText k.uptime k.uptimeRest)
  names : s.names = some k.names
  tcp : s.tcp = k.tcp.map SocketTable.text
  tcp6 : s.tcp6 = k.tcp6.map SocketTable.text
  sockstat : readFile s.sockstat 4096 =
    some ((k.sockstat.map (Line.text SystemTexts.SockFigure.label)).flatMap fun line => line ++ [10])
  diskstats : readFile s.diskstats 65536 = some ((k.disks.map (Row.text Disk.text)).flatMap fun line => line ++ [10])
  mounts : s.mounts = some (k.mounts.flatMap Mount.text)
  netDev : readFile s.netDev 32768 = some ((k.ifaces.map (Row.text Iface.text)).flatMap fun line => line ++ [10])
  addresses : s.addresses = k.addresses

def readDisks (k : Kernel w) : List DiskReading := ((k.disks.filterMap Row.shown?).map Disk.reading).take disksMax

def readFilesystems (k : Kernel w) (statvfs : Bytes → Option Statvfs) : List FsReading :=
  (k.mounts.filterMap fun m => m.reading statvfs).take filesystemsMax

def readIfaces (k : Kernel w) : List IfaceReading := ((k.ifaces.filterMap Row.shown?).map Iface.reading).take ifacesMax

def sockets (k : Kernel w) : List Socket := (k.tcp.toList ++ k.tcp6.toList).flatMap SocketTable.sockets

/-- The system figures of a zone, where the last one was another. -/
structure ShownSystem (k : Kernel w) (statvfs : Bytes → Option Statvfs) (before after : Shctx w) : Prop where
  processor : Region.processor.get after = ((updateUsage k.stat.times before).system.usageMilli,
    if 0 < k.stat.processors.length then BitVec.ofNat w k.stat.processors.length else before.system.cores,
    k.stat.times.total, k.stat.times.idleAll)
  load : ∃ m1 m5 m15, Thousandths k.loads.1 m1 ∧ Thousandths k.loads.2.1 m5 ∧ Thousandths k.loads.2.2 m15 ∧
    Region.load.get after = (BitVec.ofNat w m1, BitVec.ofNat w m5, BitVec.ofNat w m15)
  memory : ∀ f, Figure.get after.system f =
    ((lastOf f (k.memory.filterMap Line.pair?)).map fun n => BitVec.ofNat w (n * 1024)).getD
      (Figure.get before.system f)
  uptime : after.system.uptime = BitVec.ofNat w (k.uptime / 100)
  processes : after.system.processCount = BitVec.ofNat w (k.names.countP fun name => isDigit (name.getD 0 0))
  tcp : Region.tcp.get after = (BitVec.ofNat w (k.sockets.countP fun s => s.state = 1),
    BitVec.ofNat w (k.sockets.countP fun s => s.state = 10))
  sockstat : ∀ f, SockFigure.get f after.system =
    ((lastOf f (k.sockstat.filterMap Line.pair?)).map SockFigure.word).getD (SockFigure.get f before.system)
  disks : Region.disks.get after = (BitVec.ofNat w k.readDisks.length, filled storeDisk k.readDisks before.disks)
  filesystems : Region.filesystems.get after = (BitVec.ofNat w (k.readFilesystems statvfs).length,
    filled storeFs (k.readFilesystems statvfs) before.filesystems)

structure ShownNetwork (k : Kernel w) (before after : Shctx w) : Prop where
  count : after.ifaceCount = BitVec.ofNat w k.readIfaces.length
  rows : ∀ i, ∃ flags, after.ifaces i = { filled storeIface k.readIfaces before.ifaces i with flags := flags }

structure ShownCore (k : Kernel w) (after : Shctx w) : Prop where
  counts : Region.core.get after = (k.stub.active, k.stub.accepted, k.stub.handled, k.stub.active, k.stub.reading,
    k.stub.writing, k.stub.waiting)

end Kernel

section Handler

variable (D : Rounding) (hw : w ≤ 64) (p : Process w) {k : Kernel w} {s : Sources w} (hFills : k.Fills s)
  {sh : Shctx w} (hFree : sh.collectorLock = 0)
include hFills hFree

theorem shownCore (hOn : p.conf.collectNginx = true) : k.ShownCore (collect D p s sh) := by
  have hMem : Step.nginx s.stub ∈ s.steps p.conf := by simp [Sources.steps, hOn]
  refine ⟨(get_collect_of_mem D p s hFree hMem).trans ?_⟩
  rw [hFills.stub]
  rfl

theorem shownNetwork (hOn : p.conf.collectNetwork = true) : k.ShownNetwork sh (collect D p s sh) := by
  have hMem : Step.network s.netDev s.addresses ∈ s.steps p.conf := by simp [Sources.steps, hOn]
  have hRegion := get_collect_of_mem D p s hFree hMem
  obtain ⟨hCount, hRows⟩ := Prod.mk.inj hRegion
  obtain ⟨hRead, hFlags⟩ := collectNetwork_printed hFills.netDev s.addresses sh
  refine ⟨hCount.trans hRead, fun i => ?_⟩
  obtain ⟨flags, hRow⟩ := hFlags i
  exact ⟨flags, (congrFun hRows i).trans hRow⟩

include hw

theorem shownSystem (hOn : p.conf.collectSystem = true) : k.ShownSystem s.statvfs sh (collect D p s sh) := by
  have hAll : ∀ {x : Step w}, x ∈ s.systemSteps → x.region.get (collect D p s sh) = x.region.get (x.run D sh) := by
    intro x hx
    exact get_collect_of_mem D p s hFree (by simp [Sources.steps, hOn, hx])
  have hCpu : Step.cpu s.stat ∈ s.systemSteps := by simp [Sources.systemSteps]
  have hLoad : Step.load s.loadavg ∈ s.systemSteps := by simp [Sources.systemSteps]
  have hMeminfo : Step.meminfo s.meminfo ∈ s.systemSteps := by simp [Sources.systemSteps]
  have hUptime : Step.uptime s.uptime ∈ s.systemSteps := by simp [Sources.systemSteps]
  have hProcesses : Step.processes s.names ∈ s.systemSteps := by simp [Sources.systemSteps]
  have hTcp : Step.tcp s.tcp s.tcp6 ∈ s.systemSteps := by simp [Sources.systemSteps]
  have hSockstat : Step.sockstat s.sockstat ∈ s.systemSteps := by simp [Sources.systemSteps]
  have hDisks : Step.diskstats s.diskstats ∈ s.systemSteps := by simp [Sources.systemSteps]
  have hMounts : Step.filesystems s.statvfs s.mounts ∈ s.systemSteps := by simp [Sources.systemSteps]
  obtain ⟨hSmall1, hSmall5, hSmall15⟩ := k.smallLoads
  obtain ⟨m1, m5, m15, hm1, hm5, hm15, hLoads⟩ := collectLoad_printed D hSmall1 hSmall5 hSmall15 hFills.loadavg sh
  constructor
  · exact (hAll hCpu).trans (k.stat.collectCpu_text hFills.stat sh)
  · refine ⟨m1, m5, m15, hm1, hm5, hm15, (hAll hLoad).trans ?_⟩
    rw [Step.run, hLoads]
    rfl
  · intro f
    have hRegion : Region.memory.get (collect D p s sh) = Region.memory.get (collectMeminfo s.meminfo sh) :=
      hAll hMeminfo
    rw [← collectMeminfo_printed hw k.validMemory hFills.meminfo sh f]
    simp only [Region.get, Prod.mk.injEq] at hRegion
    cases f <;> simp only [Figure.get, hRegion]
  · have hRegion : (collect D p s sh).system.uptime = (collectUptime D s.uptime sh).system.uptime := hAll hUptime
    rw [hRegion, collectUptime_printed D k.smallUptime hFills.uptime]
  · have hRegion : (collect D p s sh).system.processCount = (collectProcesses s.names sh).system.processCount :=
      hAll hProcesses
    rw [hRegion, hFills.names]
    rfl
  · refine (hAll hTcp).trans ?_
    rw [Step.run, hFills.tcp, hFills.tcp6, collectTcp_printed]
    rfl
  · intro f
    have hRegion : Region.sockets.get (collect D p s sh) = Region.sockets.get (collectSockstat s.sockstat sh) :=
      hAll hSockstat
    rw [← SystemTexts.SockFigure.collectSockstat_printed k.validSockstat hFills.sockstat sh f]
    simp only [Region.get, Prod.mk.injEq] at hRegion
    cases f <;> simp only [SockFigure.get, hRegion]
  · exact (hAll hDisks).trans (collectDiskstats_printed hFills.diskstats sh)
  · refine (hAll hMounts).trans ?_
    rw [Step.run, hFills.mounts]
    exact collectFilesystems_printed s.statvfs k.mounts sh

end Handler

/-- Each worker that runs the handler fills in its row, with or without the lock:
its pid, the time, and what its status file shows. -/
theorem handler_fills_row (D : Rounding) {p : Process w} (hSlot : 0 ≤ p.slot) {printed : List (Line StatusFigure)}
    (hValid : ∀ l ∈ printed, l.Valid StatusFigure.all StatusFigure.format) {s : Sources w}
    (hFile : readFile s.status 8192 =
      some ((printed.map (Line.text StatusFigure.label)).flatMap fun line => line ++ [10]))
    (sh : Shctx w) :
    let row := p.slot.toNat % workersMax
    let shown := fun (f : StatusFigure) (old : BitVec w) =>
      ((lastOf f (printed.filterMap Line.pair?)).map f.word).getD old
    (∀ i, i ≠ row → (collect D p s sh).workers i = sh.workers i) ∧
    (collect D p s sh).workers row = { sh.workers row with
      pid := p.pid
      active := 1
      lastSeen := s.clock.time
      vmSize := shown .vmSize (sh.workers row).vmSize
      vmRss := shown .vmRss (sh.workers row).vmRss
      voluntaryCtxt := shown .voluntaryCtxt (sh.workers row).voluntaryCtxt
      nonvoluntaryCtxt := shown .nonvoluntaryCtxt (sh.workers row).nonvoluntaryCtxt } := by
  intro row shown
  obtain ⟨found, hFound, hShown⟩ := SystemTexts.StatusFigure.readSelfStatus_printed (w := w) hValid hFile
  have hFigures : ∀ f old, (f.get found).getD old = shown f old := fun f old => congrArg (·.getD old) (hShown f)
  have hWorkers := workers_collect D p s sh
  rw [hFound, Process.register, if_pos hSlot, WorkerRows.collectSelfStatus, if_neg (not_lt.mpr hSlot)] at hWorkers
  constructor
  · intro i hi
    rw [hWorkers]
    simp only [onWorker]
    rw [Function.update_of_ne hi, Function.update_of_ne hi]
  · rw [hWorkers]
    simp only [onWorker, Function.update_self]
    rw [← hFigures .vmSize, ← hFigures .vmRss, ← hFigures .voluntaryCtxt, ← hFigures .nonvoluntaryCtxt]
    exact Function.update_self ..

def statusLines : List (Line StatusFigure) :=
  [.other (ascii "Name: nginx"), .figure .vmRss (ascii "   ") 2048 (ascii " kB"),
    .figure .voluntaryCtxt (ascii " ") 17 []]

theorem handler_fills_row_first_worker :
    let s : Sources 64 := { Sources.blind ⟨1710000000, 0⟩ with
      status := some (ascii "Name: nginx\nVmRSS:   2048 kB\nvoluntary_ctxt_switches: 17\n") }
    let row := (collect toNearest CollectorHandler.firstWorker s (Zone.freshZone Collection.conf64)).workers 0
    row.pid = 4000 ∧ row.lastSeen = 1710000000 ∧ row.vmRss = 2048 * 1024 ∧ row.voluntaryCtxt = 17 ∧ row.vmSize = 0 := by
  intro s row
  have hValid : ∀ l ∈ statusLines, l.Valid StatusFigure.all StatusFigure.format := by decide +kernel
  have hFile : readFile s.status 8192 =
      some ((statusLines.map (Line.text StatusFigure.label)).flatMap fun line => line ++ [10]) := rfl
  obtain ⟨-, hRow⟩ := handler_fills_row toNearest (p := CollectorHandler.firstWorker) (by decide) hValid hFile
    (Zone.freshZone Collection.conf64)
  have hSlot : row = _ := hRow
  rw [hSlot]
  exact ⟨rfl, rfl, rfl, rfl, rfl⟩

def smallStat : StatFile where
  cells := [(1, 100), (0, 0), (0, 50), (0, 850), (0, 0), (0, 0), (0, 0), (0, 0)]
  eight := rfl
  small := by decide
  guests := [(0, 0), (0, 0)]
  processors := [(0, [(0, 60)]), (1, [(0, 40)])]
  others := [ascii "intr 33"]
  plain := by decide +kernel

def loopback : Iface where
  pad := 4
  name := ascii "lo"
  isName := ⟨by decide, by decide +kernel, by decide +kernel, by decide⟩
  counters := [(0, 1200), (0, 10), (0, 0), (0, 0), (0, 0), (0, 0), (0, 0), (0, 0), (0, 1200), (0, 10), (0, 0)]
  eleven := rfl
  small := by decide
  others := [(0, 0)]

def firstDisk : Disk where
  device := [(3, 8), (2, 0)]
  two := rfl
  deviceSmall := by decide
  name := ascii "sda"
  isName := ⟨by decide, by decide +kernel, by decide +kernel, by decide⟩
  kept := by decide +kernel
  counters := [(0, 7), (0, 0), (0, 56), (0, 0), (0, 5), (0, 0), (0, 40), (0, 0), (0, 0), (0, 12)]
  ten := rfl
  small := by decide
  others := []

def rootMount : Mount where
  source := ascii "/dev/sda1"
  mount := ascii "/"
  type := ascii "ext4"
  options := ascii "rw 0 0"
  isSource := ⟨by decide, by decide +kernel⟩
  isMount := ⟨by decide, by decide +kernel⟩
  isType := ⟨by decide, by decide +kernel⟩
  mountFits := by decide
  typeFits := by decide
  oneLine := by decide +kernel
  short := by decide +kernel

def listening : Socket where
  pad := 3
  slot := 0
  localAddress := ascii "0100007F:0050"
  remoteAddress := ascii "00000000:0000"
  state := 10
  others := ascii "0"
  bounds := by decide +kernel
  isLocal := ⟨by decide, by decide, by decide +kernel⟩
  isRemote := ⟨by decide, by decide, by decide +kernel⟩
  oneLine := by decide +kernel

def smallKernel : Kernel 64 where
  stub := ⟨12, 12, 2, 0, 1, 1⟩
  stat := smallStat
  loads := (201, 100, 5)
  loadRest := ascii "1/80 4000\n"
  memory := [.figure .memTotal (ascii "  ") 2048 (ascii " kB"), .other (ascii "Buffers: 5 kB")]
  uptime := 360050
  uptimeRest := ascii "12.00\n"
  names := [ascii ".", ascii "1", ascii "42", ascii "self"]
  tcp := some ⟨ascii "  sl  local_address", by decide +kernel, by decide, [listening]⟩
  tcp6 := none
  sockstat := [.figure .used (ascii " ") 31 []]
  disks := [.shown firstDisk]
  mounts := [rootMount]
  ifaces := [.other (ascii " face |bytes") (by decide +kernel) (by decide +kernel), .shown loopback]
  addresses := none
  smallLoads := by decide
  smallUptime := by decide
  validMemory := by decide +kernel
  validSockstat := by decide +kernel

/-- The texts of the small kernel. -/
def smallSources : Sources 64 where
  clock := ⟨1710000000, 0⟩
  status := none
  stub := some smallKernel.stub
  stat := some smallStat.text
  loadavg := some (ascii "2.01 1.00 0.05 1/80 4000\n")
  meminfo := some (ascii "MemTotal:  2048 kB\nBuffers: 5 kB\n")
  uptime := some (ascii "3600.50 12.00\n")
  names := some smallKernel.names
  tcp := smallKernel.tcp.map SocketTable.text
  tcp6 := none
  sockstat := some (ascii "sockets: used 31\n")
  diskstats := some (ascii "    8   0 sda 7 0 56 0 5 0 40 0 0 12\n")
  statvfs := SystemFigures.rootOnly
  mounts := some (ascii "/dev/sda1 / ext4 rw 0 0\n")
  netDev := some (ascii " face |bytes\n    lo: 1200 10 0 0 0 0 0 0 1200 10 0 0\n")
  addresses := none

theorem fills_smallSources : smallKernel.Fills smallSources := by
  constructor <;> rfl

end HttpMonitoring.KernelSnapshot
