import Mathlib

/-!
# The layout of the shared zone

The constants, enumerations and records of `ngx_http_monitoring.h`. A machine
word (`ngx_uint_t`, `ngx_msec_t`, `ngx_atomic_t`) is a `BitVec w`, where `w` is
the word size of the target. An array is a function of its index; its length
is a constant here. A `double` is the rational number it stands for.
-/

namespace HttpMonitoring

abbrev Bytes := List UInt8

def ascii (s : String) : Bytes := s.toList.map fun c => UInt8.ofNat c.toNat

def version : Int := 1
def moduleVersion : Bytes := ascii "1.0.0"

def defaultShmSize : Nat := 8 * 1024 * 1024
def minInterval : Nat := 100
def historyMax : Nat := 3600
def topUrlsMax : Nat := 256
def topUaMax : Nat := 64
def upstreamsMax : Nat := 128
def workersMax : Nat := 128
def ifacesMax : Nat := 32
def disksMax : Nat := 32
def filesystemsMax : Nat := 32
def latencyBuckets : Nat := 14
def sizeBuckets : Nat := 12
def methods : Nat := 8

def keyLen : Nat := 128
def nameLen : Nat := 64

inductive Endpoint
  | none
  | dashboard
  | apiFull
  | apiSystem
  | apiNginx
  | apiNetwork
  | apiDisk
  | apiProcesses
  | apiUpstreams
  | apiConnections
  | apiRequests
  | live
  | prometheus
  | health
deriving DecidableEq, Repr

/-- The value of the enumerator, which the range test on endpoints compares. -/
def Endpoint.code : Endpoint → Nat
  | .none => 0
  | .dashboard => 1
  | .apiFull => 2
  | .apiSystem => 3
  | .apiNginx => 4
  | .apiNetwork => 5
  | .apiDisk => 6
  | .apiProcesses => 7
  | .apiUpstreams => 8
  | .apiConnections => 9
  | .apiRequests => 10
  | .live => 11
  | .prometheus => 12
  | .health => 13

/-- The configured values; the pointers into the zone are passed beside them. -/
structure MainConf (w : Nat) where
  refreshInterval : BitVec w
  history : BitVec w
  resolution : BitVec w
  shmSize : Nat
  maxTopUrls : Nat
  collectSystem : Bool
  collectNginx : Bool
  collectNetwork : Bool
  accessLog : Bool
deriving DecidableEq

structure HistorySample (w : Nat) where
  timestamp : Int
  msec : BitVec w
  cpuUsage : ℚ
  load1 : ℚ
  load5 : ℚ
  load15 : ℚ
  memoryUsedPct : ℚ
  swapUsedPct : ℚ
  requestsPerSec : ℚ
  responsesPerSec : ℚ
  networkRxPerSec : ℚ
  networkTxPerSec : ℚ
  diskReadPerSec : ℚ
  diskWritePerSec : ℚ
  latencyP95 : ℚ
  requestsTotal : BitVec w
  status4xx : BitVec w
  status5xx : BitVec w
deriving DecidableEq

structure TopEntry (w : Nat) where
  hits : BitVec w
  errors : BitVec w
  bytes : BitVec w
  latencyMsTotal : BitVec w
  lastSeen : BitVec w
  hash : BitVec 32
  key : Bytes
deriving DecidableEq

structure UpstreamEntry (w : Nat) where
  requests : BitVec w
  failures : BitVec w
  latencyMsTotal : BitVec w
  status4xx : BitVec w
  status5xx : BitVec w
  lastSeen : BitVec w
  hash : BitVec 32
  peer : Bytes
deriving DecidableEq

structure WorkerMetric (w : Nat) where
  pid : BitVec w
  requests : BitVec w
  bytes : BitVec w
  lastSeen : BitVec w
  active : BitVec w
  errors : BitVec w
  vmSize : BitVec w
  vmRss : BitVec w
  voluntaryCtxt : BitVec w
  nonvoluntaryCtxt : BitVec w
deriving DecidableEq

structure IfaceMetric (w : Nat) where
  name : Bytes
  rxBytes : BitVec w
  txBytes : BitVec w
  rxPackets : BitVec w
  txPackets : BitVec w
  rxErrors : BitVec w
  txErrors : BitVec w
  flags : BitVec w
deriving DecidableEq

structure DiskMetric (w : Nat) where
  name : Bytes
  reads : BitVec w
  writes : BitVec w
  readBytes : BitVec w
  writeBytes : BitVec w
  ioMs : BitVec w
deriving DecidableEq

structure FsMetric (w : Nat) where
  path : Bytes
  type : Bytes
  total : BitVec w
  used : BitVec w
  free : BitVec w
  avail : BitVec w
  files : BitVec w
  filesFree : BitVec w
deriving DecidableEq

structure SystemMetric (w : Nat) where
  usageMilli : BitVec w
  cores : BitVec w
  load1Milli : BitVec w
  load5Milli : BitVec w
  load15Milli : BitVec w
  memTotal : BitVec w
  memAvailable : BitVec w
  memFree : BitVec w
  swapTotal : BitVec w
  swapFree : BitVec w
  uptime : BitVec w
  processCount : BitVec w
  tcpEstablished : BitVec w
  tcpListen : BitVec w
  socketsUsed : BitVec w
  socketsTcp : BitVec w
  socketsUdp : BitVec w
deriving DecidableEq

structure ConnectionMetric (w : Nat) where
  total : BitVec w
  accepted : BitVec w
  handled : BitVec w
  active : BitVec w
  reading : BitVec w
  writing : BitVec w
  waiting : BitVec w
  sslRequests : BitVec w
  sslHandshakes : BitVec w
  keepaliveRequests : BitVec w
  sseClients : BitVec w
  sseEvents : BitVec w
  rateLimited : BitVec w
deriving DecidableEq

structure RequestMetric (w : Nat) where
  total : BitVec w
  responses : BitVec w
  bytes : BitVec w
  requestTimeMsTotal : BitVec w
  status1xx : BitVec w
  status2xx : BitVec w
  status3xx : BitVec w
  status4xx : BitVec w
  status5xx : BitVec w
  method : Nat → BitVec w
  latencyBucket : Nat → BitVec w
  sizeBucket : Nat → BitVec w

structure Shctx (w : Nat) where
  collectorLock : BitVec w
  rateLimitWindow : BitVec w
  rateLimitCount : BitVec w
  historyWrite : BitVec w
  historyCount : BitVec w
  historyCapacity : BitVec w
  generation : BitVec w
  initialized : BitVec w
  system : SystemMetric w
  connections : ConnectionMetric w
  requests : RequestMetric w
  ifaceCount : BitVec w
  ifaces : Nat → IfaceMetric w
  diskCount : BitVec w
  disks : Nat → DiskMetric w
  fsCount : BitVec w
  filesystems : Nat → FsMetric w
  workers : Nat → WorkerMetric w
  urls : Nat → TopEntry w
  userAgents : Nat → TopEntry w
  upstreams : Nat → UpstreamEntry w
  history : Nat → HistorySample w
  prevReqTotal : BitVec w
  prevRespTotal : BitVec w
  prevNetRx : BitVec w
  prevNetTx : BitVec w
  prevDiskRead : BitVec w
  prevDiskWrite : BitVec w
  prevCollectMsec : BitVec w
  prevHistoryMsec : BitVec w
  ewmaRpsMilli : BitVec w
  ewmaRespMilli : BitVec w
  prevCpuTotal : BitVec 64
  prevCpuIdle : BitVec 64

end HttpMonitoring
