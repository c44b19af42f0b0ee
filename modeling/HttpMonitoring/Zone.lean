import HttpMonitoring.TopTable

/-!
# The main configuration and the shared zone

`init_main_conf` fills in the defaults and rejects what it must; `init_shm`
then prepares a fresh zone or adopts the zone of the cycle before.
-/

namespace HttpMonitoring.Zone

open Library.CString TopTable

variable {w : Nat}

/-- The directives as read; an absent value is one left unset. -/
structure Directives (w : Nat) where
  refreshInterval : Option (BitVec w)
  history : Option (BitVec w)
  resolution : Option (BitVec w)
  shmSize : Option Nat
  maxTopUrls : Option Nat
  collectSystem : Option Bool
  collectNginx : Option Bool
  collectNetwork : Option Bool
  accessLog : Option Bool

def createMainConf : Directives w :=
  ⟨none, none, none, none, none, none, none, none, none⟩

def withDefaults (d : Directives w) : MainConf w where
  refreshInterval := d.refreshInterval.getD (BitVec.ofNat w 1000)
  history := d.history.getD (BitVec.ofNat w 300000)
  resolution := d.resolution.getD (BitVec.ofNat w 1000)
  shmSize := d.shmSize.getD defaultShmSize
  maxTopUrls := d.maxTopUrls.getD 100
  collectSystem := d.collectSystem.getD true
  collectNginx := d.collectNginx.getD true
  collectNetwork := d.collectNetwork.getD true
  accessLog := d.accessLog.getD true

def initMainConf (d : Directives w) : Except String (MainConf w) :=
  let conf := withDefaults d
  if conf.refreshInterval.toNat < minInterval then
    .error "monitor_refresh_interval must be at least 100ms"
  else if conf.resolution.toNat < minInterval then
    .error "monitor_resolution must be at least 100ms"
  else if conf.maxTopUrls = 0 ∨ topUrlsMax < conf.maxTopUrls then
    .error "monitor_max_top_urls must be between 1 and 256"
  else .ok conf

structure Accepted (conf : MainConf w) : Prop where
  refreshInterval : minInterval ≤ conf.refreshInterval.toNat
  resolution : minInterval ≤ conf.resolution.toNat
  maxTopUrls : 0 < conf.maxTopUrls ∧ conf.maxTopUrls ≤ topUrlsMax

theorem initMainConf_eq_ok_iff (d : Directives w) (conf : MainConf w) :
    initMainConf d = .ok conf ↔ conf = withDefaults d ∧ Accepted conf := by
  constructor
  · intro h
    rw [initMainConf] at h
    split at h
    · cases h
    · split at h
      · cases h
      · split at h
        · cases h
        · obtain rfl := Except.ok.inj h
          exact ⟨rfl, by omega, by omega, by omega⟩
  · rintro ⟨rfl, hRefresh, hResolution, hTop⟩
    rw [initMainConf, if_neg (by omega), if_neg (by omega), if_neg (by omega)]

def zeroedSample : HistorySample w := ⟨0, 0, 0, 0, 0, 0, 0, 0, 0, 0, 0, 0, 0, 0, 0, 0, 0, 0⟩

def zeroedWorker : WorkerMetric w := ⟨0, 0, 0, 0, 0, 0, 0, 0, 0, 0⟩

def zeroedIface : IfaceMetric w := ⟨fill nameLen [], 0, 0, 0, 0, 0, 0, 0⟩

def zeroedDisk : DiskMetric w := ⟨fill nameLen [], 0, 0, 0, 0, 0⟩

def zeroedFs : FsMetric w := ⟨fill keyLen [], fill nameLen [], 0, 0, 0, 0, 0, 0⟩

def zeroedSystem : SystemMetric w := ⟨0, 0, 0, 0, 0, 0, 0, 0, 0, 0, 0, 0, 0, 0, 0, 0, 0⟩

def zeroedConnections : ConnectionMetric w := ⟨0, 0, 0, 0, 0, 0, 0, 0, 0, 0, 0, 0, 0⟩

def zeroedRequests : RequestMetric w :=
  ⟨0, 0, 0, 0, 0, 0, 0, 0, 0, fun _ => 0, fun _ => 0, fun _ => 0⟩

def zeroedShctx : Shctx w where
  collectorLock := 0
  rateLimitWindow := 0
  rateLimitCount := 0
  historyWrite := 0
  historyCount := 0
  historyCapacity := 0
  generation := 0
  initialized := 0
  system := zeroedSystem
  connections := zeroedConnections
  requests := zeroedRequests
  ifaceCount := 0
  ifaces _ := zeroedIface
  diskCount := 0
  disks _ := zeroedDisk
  fsCount := 0
  filesystems _ := zeroedFs
  workers _ := zeroedWorker
  urls := zeroedTable
  userAgents := zeroedTable
  upstreams _ := zeroedUpstream
  history _ := zeroedSample
  prevReqTotal := 0
  prevRespTotal := 0
  prevNetRx := 0
  prevNetTx := 0
  prevDiskRead := 0
  prevDiskWrite := 0
  prevCollectMsec := 0
  prevHistoryMsec := 0
  ewmaRpsMilli := 0
  ewmaRespMilli := 0
  prevCpuTotal := 0
  prevCpuIdle := 0

/-- The number of samples the ring keeps under a configuration. -/
def historyCapacity (conf : MainConf w) : Nat :=
  let capacity := conf.history.toNat / max conf.resolution.toNat 1
  let capacity := if capacity = 0 then 1 else capacity
  if historyMax < capacity then historyMax else capacity

theorem historyCapacity_bounds (conf : MainConf w) :
    0 < historyCapacity conf ∧ historyCapacity conf ≤ historyMax := by
  simp only [historyCapacity, historyMax]
  generalize conf.history.toNat / max conf.resolution.toNat 1 = samples
  split <;> split <;> constructor <;> omega

/-- The new capacity, and the count clamped to it. -/
def adoptZone (conf : MainConf w) (sh : Shctx w) : Shctx w :=
  let capacity := BitVec.ofNat w (historyCapacity conf)
  { sh with
    historyCapacity := capacity
    historyCount := if historyCapacity conf < sh.historyCount.toNat then capacity else sh.historyCount }

def freshZone (conf : MainConf w) : Shctx w :=
  { zeroedShctx with
    historyCapacity := BitVec.ofNat w (historyCapacity conf)
    initialized := 1
    generation := 1 }

/-- Where `init_shm` finds the zone: with the old cycle, in memory that was
there before, or nowhere. -/
inductive ZoneOrigin (w : Nat)
  | reloaded (sh : Shctx w)
  | existing (data : Option (Shctx w))
  | fresh (allocated : Bool)

def initShm (conf : MainConf w) : ZoneOrigin w → Option (Shctx w)
  | .reloaded sh => some (adoptZone conf sh)
  | .existing none => none
  | .existing (some sh) => some (adoptZone conf sh)
  | .fresh false => none
  | .fresh true => some (freshZone conf)

end HttpMonitoring.Zone
