import HttpMonitoring.Library.DisjointParts
import HttpMonitoring.SystemCollectors
import HttpMonitoring.SystemFigures

/-!
# Regions of the zone

Each collector but that of the history writes one region of the zone, from what
it finds and what is in this region. So do the accesses of a request.
-/

namespace HttpMonitoring.ZoneRegions

open Accounting Collectors Collection SystemCollectors SystemFigures TopTable
  Library.DisjointParts Library.LabelledLines

variable {w : Nat}

inductive Region
  | core
  | processor
  | load
  | memory
  | uptime
  | processes
  | tcp
  | sockets
  | disks
  | filesystems
  | interfaces
  | accounting
  | rest
deriving DecidableEq

namespace Region

/-- The fields that only the rest of the program writes. -/
structure Rest (w : Nat) where
  collectorLock : BitVec w
  rateLimitWindow : BitVec w
  rateLimitCount : BitVec w
  historyWrite : BitVec w
  historyCount : BitVec w
  historyCapacity : BitVec w
  generation : BitVec w
  initialized : BitVec w
  sseClients : BitVec w
  sseEvents : BitVec w
  rateLimited : BitVec w
  history : Nat → HistorySample w
  prevReqTotal : BitVec w
  prevRespTotal : BitVec w
  prevNetRx : BitVec w
  prevNetTx : BitVec w
  prevDiskRead : BitVec w
  prevDiskWrite : BitVec w
  prevCollectMsec : BitVec w
  prevHistoryMsec : BitVec w
  ewmaRpsMilli : BitVec w
  ewmaRespMilli : BitVec w

abbrev Value (w : Nat) : Region → Type
  | core => BitVec w × BitVec w × BitVec w × BitVec w × BitVec w × BitVec w × BitVec w
  | processor => BitVec w × BitVec w × BitVec 64 × BitVec 64
  | load => BitVec w × BitVec w × BitVec w
  | memory => BitVec w × BitVec w × BitVec w × BitVec w × BitVec w
  | uptime => BitVec w
  | processes => BitVec w
  | tcp => BitVec w × BitVec w
  | sockets => BitVec w × BitVec w × BitVec w
  | disks => BitVec w × (Nat → DiskMetric w)
  | filesystems => BitVec w × (Nat → FsMetric w)
  | interfaces => BitVec w × (Nat → IfaceMetric w)
  | accounting => RequestMetric w × (BitVec w × BitVec w × BitVec w) × (Nat → WorkerMetric w) ×
      (Nat → TopEntry w) × (Nat → TopEntry w) × (Nat → UpstreamEntry w)
  | rest => Rest w

def get : (i : Region) → Shctx w → Value w i
  | core, sh =>
    let c := sh.connections
    (c.total, c.accepted, c.handled, c.active, c.reading, c.writing, c.waiting)
  | processor, sh => (sh.system.usageMilli, sh.system.cores, sh.prevCpuTotal, sh.prevCpuIdle)
  | load, sh => (sh.system.load1Milli, sh.system.load5Milli, sh.system.load15Milli)
  | memory, sh =>
    let s := sh.system
    (s.memTotal, s.memAvailable, s.memFree, s.swapTotal, s.swapFree)
  | uptime, sh => sh.system.uptime
  | processes, sh => sh.system.processCount
  | tcp, sh => (sh.system.tcpEstablished, sh.system.tcpListen)
  | sockets, sh => (sh.system.socketsUsed, sh.system.socketsTcp, sh.system.socketsUdp)
  | disks, sh => (sh.diskCount, sh.disks)
  | filesystems, sh => (sh.fsCount, sh.filesystems)
  | interfaces, sh => (sh.ifaceCount, sh.ifaces)
  | accounting, sh =>
    let c := sh.connections
    (sh.requests, (c.sslRequests, c.sslHandshakes, c.keepaliveRequests), sh.workers, sh.urls,
      sh.userAgents, sh.upstreams)
  | rest, sh =>
    { collectorLock := sh.collectorLock
      rateLimitWindow := sh.rateLimitWindow
      rateLimitCount := sh.rateLimitCount
      historyWrite := sh.historyWrite
      historyCount := sh.historyCount
      historyCapacity := sh.historyCapacity
      generation := sh.generation
      initialized := sh.initialized
      sseClients := sh.connections.sseClients
      sseEvents := sh.connections.sseEvents
      rateLimited := sh.connections.rateLimited
      history := sh.history
      prevReqTotal := sh.prevReqTotal
      prevRespTotal := sh.prevRespTotal
      prevNetRx := sh.prevNetRx
      prevNetTx := sh.prevNetTx
      prevDiskRead := sh.prevDiskRead
      prevDiskWrite := sh.prevDiskWrite
      prevCollectMsec := sh.prevCollectMsec
      prevHistoryMsec := sh.prevHistoryMsec
      ewmaRpsMilli := sh.ewmaRpsMilli
      ewmaRespMilli := sh.ewmaRespMilli }

/-- The regions make up the zone. -/
theorem zone_ext {s t : Shctx w} (h : ∀ i : Region, i.get s = i.get t) : s = t := by
  have hCore := h .core
  have hProcessor := h .processor
  have hLoad := h .load
  have hMemory := h .memory
  have hUptime := h .uptime
  have hProcesses := h .processes
  have hTcp := h .tcp
  have hSockets := h .sockets
  have hDisks := h .disks
  have hFilesystems := h .filesystems
  have hInterfaces := h .interfaces
  have hAccounting := h .accounting
  have hRest := h .rest
  obtain ⟨_, _, _, _, _, _, _, _, system, connections, _⟩ := s
  obtain ⟨_, _, _, _, _, _, _, _, system', connections', _⟩ := t
  cases system
  cases system'
  cases connections
  cases connections'
  simp only [get, Prod.mk.injEq] at hCore hProcessor hLoad hMemory hUptime hProcesses hTcp hSockets
  simp only [get, Prod.mk.injEq, Rest.mk.injEq] at hDisks hFilesystems hInterfaces hAccounting hRest
  simp only [hCore, hProcessor, hLoad, hMemory, hUptime, hProcesses, hTcp, hSockets, hDisks, hFilesystems, hInterfaces,
    hAccounting, hRest]

end Region

/-- A collector other than `collect_history` with what it finds, or an access of a
request. -/
inductive Step (w : Nat)
  | nginx (stub : Option (StubStatus w))
  | cpu (file : Option Bytes)
  | load (file : Option Bytes)
  | meminfo (file : Option Bytes)
  | uptime (file : Option Bytes)
  | processes (names : Option (List Bytes))
  | tcp (tcp tcp6 : Option Bytes)
  | sockstat (file : Option Bytes)
  | diskstats (file : Option Bytes)
  | filesystems (statvfs : Bytes → Option Statvfs) (mounts : Option Bytes)
  | network (file : Option Bytes) (addresses : Option (List Ifaddr))
  | selfStatus (slot : Int) (file : Option Bytes)
  | access (op : AccountOp w)
  | tables (crc32 : Bytes → BitVec 32) (conf : MainConf w) (c : Call w)

namespace Step

def region : Step w → Region
  | .nginx _ => .core
  | .cpu _ => .processor
  | .load _ => .load
  | .meminfo _ => .memory
  | .uptime _ => .uptime
  | .processes _ => .processes
  | .tcp _ _ => .tcp
  | .sockstat _ => .sockets
  | .diskstats _ => .disks
  | .filesystems _ _ => .filesystems
  | .network _ _ => .interfaces
  | .selfStatus _ _ => .accounting
  | .access _ => .accounting
  | .tables _ _ _ => .accounting

section Run

variable (D : Library.Doubles.Rounding)

def run : Step w → Shctx w → Shctx w
  | .nginx stub => collectNginx stub
  | .cpu file => collectCpu file
  | .load file => collectLoad D file
  | .meminfo file => collectMeminfo file
  | .uptime file => collectUptime D file
  | .processes names => collectProcesses names
  | .tcp file file6 => collectTcp file file6
  | .sockstat file => collectSockstat file
  | .diskstats file => collectDiskstats file
  | .filesystems statvfs mounts => collectFilesystems statvfs mounts
  | .network file addresses => collectNetwork file addresses
  | .selfStatus slot file => WorkerRows.collectSelfStatus slot (readSelfStatus file)
  | .access op => op.apply
  | .tables crc32 conf c => updateTables crc32 conf true c

theorem collectMeminfo_figures (file : Option Bytes) (sh : Shctx w) : ∃ total available free swapTotal swapFree,
    collectMeminfo file sh = { sh with system := { sh.system with
      memTotal := total, memAvailable := available, memFree := free
      swapTotal := swapTotal, swapFree := swapFree } } := by
  have hLines : ∀ (lines : List Bytes) (s : SystemMetric w), ∃ total available free swapTotal swapFree,
      lines.foldl storeFigure s = { s with
        memTotal := total, memAvailable := available, memFree := free
        swapTotal := swapTotal, swapFree := swapFree } := by
    intro lines
    induction lines with
    | nil => exact fun s => ⟨s.memTotal, s.memAvailable, s.memFree, s.swapTotal, s.swapFree, rfl⟩
    | cons line lines ih =>
      intro s
      obtain ⟨total, available, free, swapTotal, swapFree, hRest⟩ := ih (storeFigure s line)
      refine ⟨total, available, free, swapTotal, swapFree, hRest.trans ?_⟩
      rw [storeFigure]
      split
      · rfl
      · rename_i f value _
        cases f <;> rfl
  rw [collectMeminfo]
  split
  · exact ⟨sh.system.memTotal, sh.system.memAvailable, sh.system.memFree, sh.system.swapTotal, sh.system.swapFree, rfl⟩
  · obtain ⟨total, available, free, swapTotal, swapFree, hStored⟩ := hLines (Library.Scanf.lines _) sh.system
    exact ⟨total, available, free, swapTotal, swapFree, by rw [hStored]⟩

theorem collectNginx_core (stub : Option (StubStatus w)) (sh : Shctx w) :
    ∃ total accepted handled active reading writing waiting, collectNginx stub sh =
      { sh with connections :=
        { sh.connections with total, accepted, handled, active, reading, writing, waiting } } := by
  cases stub with
  | none =>
    exact ⟨sh.connections.total, sh.connections.accepted, sh.connections.handled, sh.connections.active,
      sh.connections.reading, sh.connections.writing, sh.connections.waiting, rfl⟩
  | some stat =>
    exact ⟨stat.active, stat.accepted, stat.handled, stat.active, stat.reading, stat.writing, stat.waiting, rfl⟩

theorem collectSelfStatus_writes (slot : Int) (found : Option (WorkerRows.SelfStatus w)) (sh : Shctx w) :
    ∃ workers, WorkerRows.collectSelfStatus slot found sh = { sh with workers := workers } := by
  cases found with
  | none => exact ⟨sh.workers, rfl⟩
  | some found =>
    rw [WorkerRows.collectSelfStatus]
    split
    · exact ⟨sh.workers, rfl⟩
    · exact ⟨_, rfl⟩

theorem apply_accounting (op : AccountOp w) (sh : Shctx w) : ∃ requests ssl handshakes keepalive workers,
    op.apply sh = { sh with
      requests := requests
      connections := { sh.connections with
        sslRequests := ssl, sslHandshakes := handshakes, keepaliveRequests := keepalive }
      workers := workers } := by
  refine ⟨(op.apply sh).requests, (op.apply sh).connections.sslRequests, (op.apply sh).connections.sslHandshakes,
    (op.apply sh).connections.keepaliveRequests, (op.apply sh).workers, ?_⟩
  cases op with
  | increment c => cases c <;> rfl
  | add a n => cases a <;> rfl
  | storePid slot pid => rfl
  | storeLastSeen slot now => rfl

theorem keeps (x : Step w) (i : Region) (sh : Shctx w) (h : i ≠ x.region) : i.get (x.run D sh) = i.get sh := by
  cases x with
  | nginx stub =>
    obtain ⟨_, _, _, _, _, _, _, hWrites⟩ := collectNginx_core stub sh
    rw [run, hWrites]
    cases i <;> first | rfl | exact absurd rfl h
  | cpu file =>
    obtain ⟨_, _, _, _, hWrites⟩ := collectCpu_writes file sh
    rw [run, hWrites]
    cases i <;> first | rfl | exact absurd rfl h
  | load file =>
    obtain ⟨_, _, _, hWrites⟩ := collectLoad_writes D file sh
    rw [run, hWrites]
    cases i <;> first | rfl | exact absurd rfl h
  | meminfo file =>
    obtain ⟨_, _, _, _, _, hWrites⟩ := collectMeminfo_figures file sh
    rw [run, hWrites]
    cases i <;> first | rfl | exact absurd rfl h
  | uptime file =>
    obtain ⟨_, hWrites⟩ := collectUptime_writes D file sh
    rw [run, hWrites]
    cases i <;> first | rfl | exact absurd rfl h
  | processes names =>
    obtain ⟨_, hWrites⟩ := collectProcesses_writes names sh
    rw [run, hWrites]
    cases i <;> first | rfl | exact absurd rfl h
  | tcp file file6 =>
    cases i <;> first | rfl | exact absurd rfl h
  | sockstat file =>
    obtain ⟨_, _, _, hWrites⟩ := collectSockstat_writes file sh
    rw [run, hWrites]
    cases i <;> first | rfl | exact absurd rfl h
  | diskstats file =>
    obtain ⟨_, _, hWrites⟩ := collectDiskstats_writes file sh
    rw [run, hWrites]
    cases i <;> first | rfl | exact absurd rfl h
  | filesystems statvfs mounts =>
    obtain ⟨_, _, hWrites⟩ := collectFilesystems_writes statvfs mounts sh
    rw [run, hWrites]
    cases i <;> first | rfl | exact absurd rfl h
  | network file addresses =>
    obtain ⟨_, _, hWrites⟩ := collectNetwork_writes file addresses sh
    rw [run, hWrites]
    cases i <;> first | rfl | exact absurd rfl h
  | selfStatus slot file =>
    obtain ⟨_, hWrites⟩ := collectSelfStatus_writes slot (readSelfStatus file) sh
    rw [run, hWrites]
    cases i <;> first | rfl | exact absurd rfl h
  | access op =>
    obtain ⟨_, _, _, _, _, hWrites⟩ := apply_accounting op sh
    rw [run, hWrites]
    cases i <;> first | rfl | exact absurd rfl h
  | tables crc32 conf c =>
    obtain ⟨_, _, _, hWrites⟩ := updateTables_writes crc32 conf true c sh
    rw [run, hWrites]
    cases i <;> first | rfl | exact absurd rfl h

end Run

end Step

section Own

variable {s t : Shctx w}

theorem own_collectNginx (h : Region.core.get s = Region.core.get t) (stub : Option (StubStatus w)) :
    Region.core.get (collectNginx stub s) = Region.core.get (collectNginx stub t) := by
  cases stub with
  | none => exact h
  | some stat => rfl

theorem own_collectCpu (h : Region.processor.get s = Region.processor.get t) (file : Option Bytes) :
    Region.processor.get (collectCpu file s) = Region.processor.get (collectCpu file t) := by
  simp only [Region.get, Prod.mk.injEq] at h
  obtain ⟨hUsage, hCores, hTotal, hIdle⟩ := h
  simp only [Region.get, collectCpu, updateCores, updateUsage, hTotal, hIdle]
  split
  · simp [hUsage, hCores, hTotal, hIdle]
  · split
    · simp [hUsage, hCores, hTotal, hIdle]
    · split_ifs <;> simp [hUsage, hCores]

theorem own_collectLoad (D : Library.Doubles.Rounding) (h : Region.load.get s = Region.load.get t)
    (file : Option Bytes) : Region.load.get (collectLoad D file s) = Region.load.get (collectLoad D file t) := by
  simp only [collectLoad]
  split
  · exact h
  · split
    · rfl
    · exact h

theorem own_collectMeminfo (h : Region.memory.get s = Region.memory.get t) (file : Option Bytes) :
    Region.memory.get (collectMeminfo file s) = Region.memory.get (collectMeminfo file t) := by
  have hFigures : ∀ f, Figure.get s.system f = Figure.get t.system f := by
    simp only [Region.get, Prod.mk.injEq] at h
    intro f
    cases f <;> simp [Figure.get, h]
  have hStored : ∀ f, Figure.get (collectMeminfo file s).system f = Figure.get (collectMeminfo file t).system f := by
    intro f
    simp only [collectMeminfo]
    split
    · exact hFigures f
    · simp only [get_foldl_storeFigure, hFigures]
  have hTuple : ∀ sh : Shctx w, Region.memory.get sh = (Figure.get sh.system .memTotal,
      Figure.get sh.system .memAvailable, Figure.get sh.system .memFree, Figure.get sh.system .swapTotal,
      Figure.get sh.system .swapFree) := fun _ => rfl
  simp only [hTuple, hStored]

theorem own_collectUptime (D : Library.Doubles.Rounding) (h : Region.uptime.get s = Region.uptime.get t)
    (file : Option Bytes) :
    Region.uptime.get (collectUptime D file s) = Region.uptime.get (collectUptime D file t) := by
  simp only [collectUptime]
  split
  · exact h
  · split
    · rfl
    · exact h

theorem own_collectSockstat (h : Region.sockets.get s = Region.sockets.get t) (file : Option Bytes) :
    Region.sockets.get (collectSockstat file s) = Region.sockets.get (collectSockstat file t) := by
  have hFigures : ∀ f, SockFigure.get f s.system = SockFigure.get f t.system := by
    simp only [Region.get, Prod.mk.injEq] at h
    intro f
    cases f <;> simp [SockFigure.get, h]
  have hStored : ∀ f, SockFigure.get f (collectSockstat file s).system =
      SockFigure.get f (collectSockstat file t).system := by
    intro f
    simp only [collectSockstat]
    split
    · exact hFigures f
    · simp only [get_storeLines SockFigure.get_store_self (fun _ _ => SockFigure.get_store_of_ne), hFigures]
  have hTuple : ∀ sh : Shctx w, Region.sockets.get sh = (SockFigure.get .used sh.system,
      SockFigure.get .tcp sh.system, SockFigure.get .udp sh.system) := fun _ => rfl
  simp only [hTuple, hStored]

theorem own_collectDiskstats (h : Region.disks.get s = Region.disks.get t) (file : Option Bytes) :
    Region.disks.get (collectDiskstats file s) = Region.disks.get (collectDiskstats file t) := by
  simp only [Region.get, Prod.mk.injEq] at h
  obtain ⟨hCount, hRows⟩ := h
  simp only [Region.get, collectDiskstats, hRows]
  split
  · simp [hCount, hRows]
  · rfl

theorem own_collectFilesystems (h : Region.filesystems.get s = Region.filesystems.get t)
    (statvfs : Bytes → Option Statvfs) (mounts : Option Bytes) :
    Region.filesystems.get (collectFilesystems statvfs mounts s) =
      Region.filesystems.get (collectFilesystems statvfs mounts t) := by
  simp only [Region.get, Prod.mk.injEq] at h
  obtain ⟨hCount, hRows⟩ := h
  cases mounts with
  | none => simp [Region.get, collectFilesystems, hCount, hRows]
  | some stream => simp only [Region.get, collectFilesystems, hRows]

theorem own_collectNetwork (h : Region.interfaces.get s = Region.interfaces.get t) (file : Option Bytes)
    (addresses : Option (List Ifaddr)) : Region.interfaces.get (collectNetwork file addresses s) =
      Region.interfaces.get (collectNetwork file addresses t) := by
  simp only [Region.get, Prod.mk.injEq] at h
  obtain ⟨hCount, hRows⟩ := h
  simp only [Region.get, collectNetwork, hRows]
  split
  · simp [hCount, hRows]
  · rfl

theorem own_collectSelfStatus (h : Region.accounting.get s = Region.accounting.get t) (slot : Int)
    (found : Option (WorkerRows.SelfStatus w)) :
    Region.accounting.get (WorkerRows.collectSelfStatus slot found s) =
      Region.accounting.get (WorkerRows.collectSelfStatus slot found t) := by
  cases found with
  | none => exact h
  | some found =>
    by_cases hSlot : slot < 0
    · rwa [WorkerRows.collectSelfStatus, if_pos hSlot, WorkerRows.collectSelfStatus, if_pos hSlot]
    · simp only [Region.get, Prod.mk.injEq] at h
      simp [WorkerRows.collectSelfStatus, if_neg hSlot, Region.get, onWorker, h]

theorem own_access (h : Region.accounting.get s = Region.accounting.get t) (op : AccountOp w) :
    Region.accounting.get (op.apply s) = Region.accounting.get (op.apply t) := by
  simp only [Region.get, Prod.mk.injEq] at h
  obtain ⟨hRequests, ⟨hSsl, hHandshakes, hKeepalive⟩, hWorkers, hUrls, hAgents, hUpstreams⟩ := h
  cases op with
  | increment c =>
    cases c <;> simp [Region.get, AccountOp.apply, Counter.increment, onRequests, onConnections, onWorker, *]
  | add a n => cases a <;> simp [Region.get, AccountOp.apply, Amount.add, onRequests, onWorker, *]
  | storePid slot pid => simp [Region.get, AccountOp.apply, onWorker, *]
  | storeLastSeen slot now => simp [Region.get, AccountOp.apply, onWorker, *]

theorem own_updateTables (h : Region.accounting.get s = Region.accounting.get t) (crc32 : Bytes → BitVec 32)
    (conf : MainConf w) (c : Call w) : Region.accounting.get (updateTables crc32 conf true c s) =
      Region.accounting.get (updateTables crc32 conf true c t) := by
  simp only [Region.get, Prod.mk.injEq] at h
  obtain ⟨hRequests, ⟨hSsl, hHandshakes, hKeepalive⟩, hWorkers, hUrls, hAgents, hUpstreams⟩ := h
  simp only [Region.get, updateTables, accountUpstream, updateUserAgents, updateUrls]
  split <;> cases c.request.userAgent <;> simp [*]

end Own

namespace Step

variable (D : Library.Doubles.Rounding)

theorem own (x : Step w) (s t : Shctx w) (h : x.region.get s = x.region.get t) :
    x.region.get (x.run D s) = x.region.get (x.run D t) := by
  cases x with
  | nginx stub => exact own_collectNginx h stub
  | cpu file => exact own_collectCpu h file
  | load file => exact own_collectLoad D h file
  | meminfo file => exact own_collectMeminfo h file
  | uptime file => exact own_collectUptime D h file
  | processes names =>
    cases names with
    | none => exact h
    | some names => rfl
  | tcp file file6 => rfl
  | sockstat file => exact own_collectSockstat h file
  | diskstats file => exact own_collectDiskstats h file
  | filesystems statvfs mounts => exact own_collectFilesystems h statvfs mounts
  | network file addresses => exact own_collectNetwork h file addresses
  | selfStatus slot file => exact own_collectSelfStatus h slot (readSelfStatus file)
  | access op => exact own_access h op
  | tables crc32 conf c => exact own_updateTables h crc32 conf c

def writer (x : Step w) : Writer (Region.get (w := w)) where
  part := x.region
  run := x.run D
  keeps := x.keeps D
  own := x.own D

end Step

section Runs

variable (D : Library.Doubles.Rounding)

def runSteps (steps : List (Step w)) (sh : Shctx w) : Shctx w := steps.foldl (fun sh x => x.run D sh) sh

/-- The accesses of a request that is accounted for. -/
def requestSteps (crc32 : Bytes → BitVec 32) (conf : MainConf w) (c : Call w) : List (Step w) :=
  c.countOps.map Step.access ++ [.tables crc32 conf c]

theorem runSteps_append (first second : List (Step w)) (sh : Shctx w) :
    runSteps D (first ++ second) sh = runSteps D second (runSteps D first sh) :=
  List.foldl_append

theorem runSteps_requestSteps (crc32 : Bytes → BitVec 32) (conf : MainConf w) (c : Call w) (sh : Shctx w) :
    runSteps D (requestSteps crc32 conf c) sh = accountRequest crc32 conf true c sh := by
  have hCounts : runSteps D (c.countOps.map Step.access) sh = applyOps c.countOps sh := List.foldl_map
  rw [requestSteps, runSteps_append, hCounts]
  rfl

theorem runAll_writers (steps : List (Step w)) (sh : Shctx w) :
    Writer.runAll (steps.map (Step.writer D)) sh = runSteps D steps sh :=
  List.foldl_map

theorem get_runSteps_of_notMem {steps : List (Step w)} {i : Region} (h : i ∉ steps.map Step.region) (sh : Shctx w) :
    i.get (runSteps D steps sh) = i.get sh := by
  rw [← runAll_writers]
  exact Writer.get_runAll_of_notMem (by rwa [List.map_map]) sh

/-- Of steps that write different regions each has run as if it were alone. -/
theorem get_runSteps_of_mem {steps : List (Step w)} (hRegions : (steps.map Step.region).Nodup) {x : Step w}
    (hMem : x ∈ steps) (sh : Shctx w) : x.region.get (runSteps D steps sh) = x.region.get (x.run D sh) := by
  rw [← runAll_writers]
  exact Writer.get_runAll_of_mem (x := x.writer D) (by rwa [List.map_map]) (List.mem_map_of_mem hMem) sh

/-- Steps that come in the same order for each region, whatever stands between
them, leave the same zone. -/
theorem steps_in_any_order {steps steps' : List (Step w)}
    (h : ∀ i : Region, (steps.filter fun x => x.region = i) = steps'.filter fun x => x.region = i) (sh : Shctx w) :
    runSteps D steps sh = runSteps D steps' sh := by
  rw [← runAll_writers, ← runAll_writers]
  refine Writer.runAll_eq (fun _ _ => Region.zone_ext) (fun i => ?_) sh
  rw [List.filter_map, List.filter_map]
  exact congrArg (List.map (Step.writer D)) (h i)

end Runs

/-- Two accesses of requests among the stages of a pass over a fresh zone. -/
theorem steps_in_any_order_two_accesses :
    runSteps Library.Doubles.toNearest [.nginx none, .access (.increment .total), .cpu (some (ascii "cpu 1 2 3 4")),
        .selfStatus 0 (some (ascii "VmRSS:\t2048 kB\n")), .access (.storePid 0 4000), .network none none]
        (Zone.freshZone conf64) =
      runSteps Library.Doubles.toNearest [.access (.increment .total),
        .selfStatus 0 (some (ascii "VmRSS:\t2048 kB\n")), .access (.storePid 0 4000), .nginx none,
        .cpu (some (ascii "cpu 1 2 3 4")), .network none none] (Zone.freshZone conf64) :=
  steps_in_any_order _ (fun i => by cases i <;> rfl) _

end HttpMonitoring.ZoneRegions
