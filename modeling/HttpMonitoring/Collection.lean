import HttpMonitoring.Collectors
import HttpMonitoring.Rates

/-!
# Runs of collection passes

A pass is a list of stages. Beside the zone a trace keeps what the statements
on runs speak of: the readings that the tables stand for, the samples recorded
and the calls of `collect_cpu`.
-/

namespace HttpMonitoring.Collection

open Accounting Zone History Collectors Rates Library.Scanf Library.RowTable

variable {w : Nat}

/-- What only the modelled collectors write. -/
structure CollectorCells (w : Nat) where
  usageMilli : BitVec w
  figures : Figure → BitVec w
  ifaceCount : BitVec w
  ifaces : Nat → IfaceMetric w
  diskCount : BitVec w
  disks : Nat → DiskMetric w
  fsCount : BitVec w
  filesystems : Nat → FsMetric w
  prev : Channel → BitVec w
  prevCollectMsec : BitVec w
  prevHistoryMsec : BitVec w
  ewmaRpsMilli : BitVec w
  ewmaRespMilli : BitVec w
  prevCpuTotal : BitVec 64
  prevCpuIdle : BitVec 64

def collectorCells (sh : Shctx w) : CollectorCells w where
  usageMilli := sh.system.usageMilli
  figures := Figure.get sh.system
  ifaceCount := sh.ifaceCount
  ifaces := sh.ifaces
  diskCount := sh.diskCount
  disks := sh.disks
  fsCount := sh.fsCount
  filesystems := sh.filesystems
  prev := Channel.prev sh
  prevCollectMsec := sh.prevCollectMsec
  prevHistoryMsec := sh.prevHistoryMsec
  ewmaRpsMilli := sh.ewmaRpsMilli
  ewmaRespMilli := sh.ewmaRespMilli
  prevCpuTotal := sh.prevCpuTotal
  prevCpuIdle := sh.prevCpuIdle

/-- Any other write, such as one of the remaining collectors. -/
structure Other (w : Nat) where
  apply : Shctx w → Shctx w
  cells_apply : ∀ sh, collectorCells (apply sh) = collectorCells sh

def Other.nothing : Other w := ⟨id, fun _ => rfl⟩

def Other.adopted (conf : MainConf w) : Other w := ⟨adoptZone conf, fun _ => rfl⟩

def Other.accounted (crc32 : Bytes → BitVec 32) (conf : MainConf w) (c : Call w) : Other w where
  apply := accountRequest crc32 conf true c
  cells_apply sh := by
    obtain ⟨_, _, _, hCounts⟩ := applyOps_writes c.countOps sh
    obtain ⟨_, _, _, hTables⟩ := updateTables_writes crc32 conf true c (applyOps c.countOps sh)
    rw [accountRequest, hTables, hCounts]
    rfl

inductive Stage (w : Nat)
  | cpu (file : Option Bytes)
  | meminfo (file : Option Bytes)
  | diskstats (file : Option Bytes)
  | filesystems (statvfs : Bytes → Option Statvfs) (mounts : Option Bytes)
  | network (file : Option Bytes) (addresses : Option (List Ifaddr))
  | history (conf : MainConf w) (clock : Clock w)
  | other (write : Other w)

def Stage.apply (sh : Shctx w) : Stage w → Shctx w
  | .cpu file => collectCpu file sh
  | .meminfo file => collectMeminfo file sh
  | .diskstats file => collectDiskstats file sh
  | .filesystems statvfs mounts => collectFilesystems statvfs mounts sh
  | .network file addresses => collectNetwork file addresses sh
  | .history conf clock => collectHistory conf clock sh
  | .other write => write.apply sh

/-- What one pass finds. -/
structure PassInputs (w : Nat) where
  conf : MainConf w
  clock : Clock w
  nginx : Other w
  stat : Option Bytes
  load : Other w
  meminfo : Option Bytes
  uptime : Other w
  processes : Other w
  tcp : Other w
  sockstat : Other w
  diskstats : Option Bytes
  statvfs : Bytes → Option Statvfs
  mounts : Option Bytes
  netDev : Option Bytes
  addresses : Option (List Ifaddr)

/-- A pass that finds no file. -/
def PassInputs.blind (conf : MainConf w) (clock : Clock w) : PassInputs w where
  conf := conf
  clock := clock
  nginx := .nothing
  stat := none
  load := .nothing
  meminfo := none
  uptime := .nothing
  processes := .nothing
  tcp := .nothing
  sockstat := .nothing
  diskstats := none
  statvfs _ := none
  mounts := none
  netDev := none
  addresses := none

def conf64 : MainConf 64 := withDefaults createMainConf

def PassInputs.systemStages (p : PassInputs w) : List (Stage w) :=
  [.cpu p.stat, .other p.load, .meminfo p.meminfo, .other p.uptime, .other p.processes, .other p.tcp,
    .other p.sockstat, .diskstats p.diskstats, .filesystems p.statvfs p.mounts]

/-- The stages of `collect` between taking and releasing the lock. -/
def PassInputs.stages (p : PassInputs w) : List (Stage w) :=
  let nginx : List (Stage w) := if p.conf.collectNginx then [.other p.nginx] else []
  let system : List (Stage w) := if p.conf.collectSystem then p.systemStages else []
  let network : List (Stage w) :=
    if p.conf.collectNetwork then [.network p.netDev p.addresses] else []
  nginx ++ system ++ network ++ [.history p.conf p.clock]

/-- What the interface and disk tables were read from. -/
structure Readings where
  ifaces : List IfaceReading
  disks : List DiskReading

def Readings.readNetwork (file : Option Bytes) (k : Readings) : Readings :=
  match readFile file 32768 with
  | none => k
  | some buf => { k with ifaces := stored ifacesMax readIface (lines buf) }

def Readings.readDiskstats (file : Option Bytes) (k : Readings) : Readings :=
  match readFile file 65536 with
  | none => k
  | some buf => { k with disks := stored disksMax readDisk (lines buf) }

/-- A recorded sample, with the time and the readings it was computed from. -/
structure Sampled (w : Nat) where
  readings : Readings
  dt : BitVec w
  sample : HistorySample w

/-- A call of `collect_cpu`: the counters it read, if any, and the usage after it. -/
structure CpuCall (w : Nat) where
  times : Option CpuTimes
  usageMilli : BitVec w

def readCpu (file : Option Bytes) : Option CpuTimes := (readFile file 32768).bind cpuTimes

structure Trace (w : Nat) where
  sh : Shctx w
  readings : Readings
  sampled : List (Sampled w)
  cpuCalls : List (CpuCall w)

def Trace.start (conf : MainConf w) : Trace w := ⟨freshZone conf, ⟨[], []⟩, [], []⟩

def Trace.sampledAfter (tr : Trace w) : Stage w → List (Sampled w)
  | .history conf clock =>
    if TooEarly conf (nowMsec clock) tr.sh then tr.sampled
    else tr.sampled ++
      [⟨tr.readings, elapsed conf (nowMsec clock) tr.sh, recordedSample conf clock tr.sh⟩]
  | _ => tr.sampled

def Trace.readingsAfter (tr : Trace w) : Stage w → Readings
  | .diskstats file => tr.readings.readDiskstats file
  | .network file _ => tr.readings.readNetwork file
  | _ => tr.readings

def Trace.cpuCallsAfter (tr : Trace w) : Stage w → List (CpuCall w)
  | .cpu file => tr.cpuCalls ++ [⟨readCpu file, (collectCpu file tr.sh).system.usageMilli⟩]
  | _ => tr.cpuCalls

def Trace.step (tr : Trace w) (stage : Stage w) : Trace w :=
  ⟨stage.apply tr.sh, tr.readingsAfter stage, tr.sampledAfter stage, tr.cpuCallsAfter stage⟩

def trace (conf : MainConf w) (stages : List (Stage w)) : Trace w :=
  stages.foldl Trace.step (Trace.start conf)

theorem sh_trace_append (conf : MainConf w) (stages further : List (Stage w)) :
    (trace conf (stages ++ further)).sh = further.foldl Stage.apply (trace conf stages).sh := by
  induction further using List.reverseRecOn with
  | nil => rw [List.append_nil, List.foldl_nil]
  | append_singleton further stage ih =>
    rw [← List.append_assoc, trace, List.foldl_append, List.foldl_cons, List.foldl_nil, ← trace, List.foldl_append,
      List.foldl_cons, List.foldl_nil, ← ih]
    rfl

/-- What holds of a fresh zone and is kept by every stage holds of every run. -/
theorem trace_induction {P : Trace w → Prop} {conf : MainConf w} (hStart : P (Trace.start conf))
    (hStep : ∀ tr, P tr → ∀ stage, P (tr.step stage)) (stages : List (Stage w)) : P (trace conf stages) := by
  induction stages using List.reverseRecOn with
  | nil => exact hStart
  | append_singleton stages stage ih =>
    rw [trace, List.foldl_append, List.foldl_cons, List.foldl_nil]
    exact hStep _ ih stage

theorem collectCpu_writes (file : Option Bytes) (sh : Shctx w) : ∃ usageMilli cores total idle,
    collectCpu file sh = { sh with
      system := { sh.system with usageMilli := usageMilli, cores := cores }
      prevCpuTotal := total
      prevCpuIdle := idle } := by
  have hUsage : ∀ t, ∃ usageMilli, updateUsage t sh =
      { sh with system := { sh.system with usageMilli := usageMilli } } := by
    intro t
    rw [updateUsage]
    split
    · dsimp only
      split
      · exact ⟨_, rfl⟩
      · exact ⟨sh.system.usageMilli, rfl⟩
    · exact ⟨sh.system.usageMilli, rfl⟩
  have hCores : ∀ (buf : Bytes) (sh : Shctx w), ∃ cores, updateCores buf sh =
      { sh with system := { sh.system with cores := cores } } := by
    intro buf sh
    rw [updateCores]
    dsimp only
    split
    · exact ⟨_, rfl⟩
    · exact ⟨sh.system.cores, rfl⟩
  rw [collectCpu]
  split
  · exact ⟨sh.system.usageMilli, sh.system.cores, sh.prevCpuTotal, sh.prevCpuIdle, rfl⟩
  · split
    · exact ⟨sh.system.usageMilli, sh.system.cores, sh.prevCpuTotal, sh.prevCpuIdle, rfl⟩
    · rename_i buf _ _ t _
      obtain ⟨usageMilli, hUsed⟩ := hUsage t
      obtain ⟨cores, hAll⟩ := hCores buf
        { updateUsage t sh with prevCpuTotal := t.total, prevCpuIdle := t.idleAll }
      rw [hAll, hUsed]
      exact ⟨usageMilli, cores, t.total, t.idleAll, rfl⟩

theorem storeFigure_usageMilli (s : SystemMetric w) (line : Bytes) :
    (storeFigure s line).usageMilli = s.usageMilli := by
  rw [storeFigure]
  split
  · rfl
  · rename_i f _ _
    cases f <;> rfl

theorem collectMeminfo_writes (file : Option Bytes) (sh : Shctx w) : ∃ system,
    system.usageMilli = sh.system.usageMilli ∧ collectMeminfo file sh = { sh with system := system } := by
  have hLines : ∀ (lines : List Bytes) (s : SystemMetric w),
      (lines.foldl storeFigure s).usageMilli = s.usageMilli := by
    intro lines
    induction lines with
    | nil => exact fun _ => rfl
    | cons line lines ih => exact fun s => (ih _).trans (storeFigure_usageMilli s line)
  rw [collectMeminfo]
  split
  · exact ⟨sh.system, rfl, rfl⟩
  · exact ⟨_, hLines _ _, rfl⟩

theorem collectDiskstats_writes (file : Option Bytes) (sh : Shctx w) : ∃ count disks,
    collectDiskstats file sh = { sh with disks := disks, diskCount := count } := by
  rw [collectDiskstats]
  split
  · exact ⟨sh.diskCount, sh.disks, rfl⟩
  · exact ⟨_, _, rfl⟩

theorem collectNetwork_writes (file : Option Bytes) (addresses : Option (List Ifaddr)) (sh : Shctx w) :
    ∃ count ifaces, collectNetwork file addresses sh =
      { sh with ifaces := ifaces, ifaceCount := count } := by
  rw [collectNetwork]
  split
  · exact ⟨sh.ifaceCount, sh.ifaces, rfl⟩
  · exact ⟨_, _, rfl⟩

theorem collectFilesystems_writes (statvfs : Bytes → Option Statvfs) (mounts : Option Bytes)
    (sh : Shctx w) : ∃ count filesystems, collectFilesystems statvfs mounts sh =
      { sh with filesystems := filesystems, fsCount := count } := by
  cases mounts with
  | none => exact ⟨sh.fsCount, sh.filesystems, rfl⟩
  | some stream => exact ⟨_, _, rfl⟩

theorem withAverages_writes (rps resp : BitVec w) (sh : Shctx w) : ∃ averageRps averageResp,
    withAverages rps resp sh =
      { sh with ewmaRpsMilli := averageRps, ewmaRespMilli := averageResp } := by
  rw [withAverages]
  split
  · exact ⟨_, _, rfl⟩
  · exact ⟨_, _, rfl⟩

/-- A pass over the history leaves the tables, and what was counted before if it
is too early. -/
theorem collectHistory_writes (conf : MainConf w) (clock : Clock w) (sh : Shctx w) :
    (TooEarly conf (nowMsec clock) sh ∧ collectHistory conf clock sh = sh) ∨
      ¬ TooEarly conf (nowMsec clock) sh ∧
        (collectHistory conf clock sh).system = sh.system ∧
        (collectHistory conf clock sh).prevCpuTotal = sh.prevCpuTotal ∧
        (collectHistory conf clock sh).prevCpuIdle = sh.prevCpuIdle ∧
        ∀ channel : Channel, channel.now (collectHistory conf clock sh) = channel.now sh ∧
          channel.prev (collectHistory conf clock sh) = channel.now sh := by
  obtain ⟨averageRps, averageResp, hAverages⟩ := withAverages_writes
    (Channel.requests.rate conf clock sh) (Channel.responses.rate conf clock sh) sh
  by_cases hEarly : TooEarly conf (nowMsec clock) sh
  · exact Or.inl ⟨hEarly, by rw [collectHistory, if_pos hEarly]⟩
  · refine Or.inr ⟨hEarly, ?_⟩
    rw [collectHistory, if_neg hEarly, averaged_eq, hAverages]
    refine ⟨rfl, rfl, rfl, fun channel => ?_⟩
    cases channel <;> exact ⟨rfl, rfl⟩

end HttpMonitoring.Collection
