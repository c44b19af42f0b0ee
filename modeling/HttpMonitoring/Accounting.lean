import HttpMonitoring.Nginx
import HttpMonitoring.TopTable
import HttpMonitoring.Library.Buckets

/-!
# Accounting of a finished request

`account_request` is a list of atomic additions and plain stores, chosen by
four classifiers, followed by the calls that update the slot tables.
-/

namespace HttpMonitoring.Accounting

open Nginx Library.Buckets TopTable

variable {w : Nat}

def latencyBounds : List Nat := [1, 5, 10, 25, 50, 100, 250, 500, 1000, 2500, 5000, 10000, 30000]

def sizeBounds : List Int :=
  [512, 1024, 2048, 4096, 8192, 16384, 32768, 65536, 262144, 1048576, 10485760]

def latencyBucket (ms : BitVec w) : Nat := bucketIndex latencyBounds ms.toNat

def sizeBucket (bytes : Int) : Nat := bucketIndex sizeBounds bytes

def methodIndex (method : Nat) : Nat :=
  if hasMethod method httpGet then 0
  else if hasMethod method httpPost then 1
  else if hasMethod method httpPut then 2
  else if hasMethod method httpDelete then 3
  else if hasMethod method httpHead then 4
  else if hasMethod method httpOptions then 5
  else if hasMethod method httpPatch then 6
  else 7

structure UpstreamState (w : Nat) where
  peer : Option Bytes
  responseTime : BitVec w
  status : Nat
deriving DecidableEq

/-- The fields of a finished request that the accounting reads. -/
structure Request (w : Nat) where
  startSec : Int
  startMsec : BitVec w
  status : Nat
  contentLength : Int
  method : Nat
  ssl : Bool
  connectionRequests : Nat
  uri : Bytes
  userAgent : Option Bytes
  upstreamStates : List (UpstreamState w)
deriving DecidableEq

/-- The cached time of a worker. -/
structure Clock (w : Nat) where
  sec : Int
  msec : BitVec w
deriving DecidableEq

def Clock.time (clock : Clock w) : BitVec w := BitVec.ofInt w clock.sec

structure Worker (w : Nat) where
  processSlot : Int
  pid : BitVec w
deriving DecidableEq

/-- One call of `account_request` with what it reads beside the zone. -/
structure Call (w : Nat) where
  request : Request w
  clock : Clock w
  worker : Worker w
deriving DecidableEq

namespace Call

variable (c : Call w)

def elapsed : BitVec w :=
  BitVec.ofInt w ((c.clock.sec - c.request.startSec) * 1000) + (c.clock.msec - c.request.startMsec)

def latency : BitVec w := if 0 < c.elapsed.toInt then c.elapsed else 0

def status : Nat := if c.request.status = 0 then 499 else c.request.status

def bytes : Int := if c.request.contentLength < 0 then 0 else c.request.contentLength

def workerSlot : Nat :=
  if c.worker.processSlot < 0 then 0 else c.worker.processSlot.toNat % workersMax

end Call

/-- The cells that are only ever incremented. -/
inductive Counter
  | total
  | responses
  | method (i : Nat)
  | latencyBucket (i : Nat)
  | sizeBucket (i : Nat)
  | status1xx
  | status2xx
  | status3xx
  | status4xx
  | status5xx
  | sslRequests
  | sslHandshakes
  | keepaliveRequests
  | workerRequests (slot : Nat)
  | workerErrors (slot : Nat)
deriving DecidableEq

/-- The cells that sum amounts. -/
inductive Amount
  | bytes
  | requestTimeMsTotal
  | workerBytes (slot : Nat)
deriving DecidableEq

def Counter.read (sh : Shctx w) : Counter → BitVec w
  | .total => sh.requests.total
  | .responses => sh.requests.responses
  | .method i => sh.requests.method i
  | .latencyBucket i => sh.requests.latencyBucket i
  | .sizeBucket i => sh.requests.sizeBucket i
  | .status1xx => sh.requests.status1xx
  | .status2xx => sh.requests.status2xx
  | .status3xx => sh.requests.status3xx
  | .status4xx => sh.requests.status4xx
  | .status5xx => sh.requests.status5xx
  | .sslRequests => sh.connections.sslRequests
  | .sslHandshakes => sh.connections.sslHandshakes
  | .keepaliveRequests => sh.connections.keepaliveRequests
  | .workerRequests slot => (sh.workers slot).requests
  | .workerErrors slot => (sh.workers slot).errors

def onRequests (f : RequestMetric w → RequestMetric w) (sh : Shctx w) : Shctx w :=
  { sh with requests := f sh.requests }

def onConnections (f : ConnectionMetric w → ConnectionMetric w) (sh : Shctx w) : Shctx w :=
  { sh with connections := f sh.connections }

def onWorker (slot : Nat) (f : WorkerMetric w → WorkerMetric w) (sh : Shctx w) : Shctx w :=
  { sh with workers := Function.update sh.workers slot (f (sh.workers slot)) }

def incrementAt (cells : Nat → BitVec w) (i : Nat) : Nat → BitVec w :=
  Function.update cells i (cells i + 1)

def Counter.increment : Counter → Shctx w → Shctx w
  | .total => onRequests fun m => { m with total := m.total + 1 }
  | .responses => onRequests fun m => { m with responses := m.responses + 1 }
  | .method i => onRequests fun m => { m with method := incrementAt m.method i }
  | .latencyBucket i => onRequests fun m => { m with latencyBucket := incrementAt m.latencyBucket i }
  | .sizeBucket i => onRequests fun m => { m with sizeBucket := incrementAt m.sizeBucket i }
  | .status1xx => onRequests fun m => { m with status1xx := m.status1xx + 1 }
  | .status2xx => onRequests fun m => { m with status2xx := m.status2xx + 1 }
  | .status3xx => onRequests fun m => { m with status3xx := m.status3xx + 1 }
  | .status4xx => onRequests fun m => { m with status4xx := m.status4xx + 1 }
  | .status5xx => onRequests fun m => { m with status5xx := m.status5xx + 1 }
  | .sslRequests => onConnections fun m => { m with sslRequests := m.sslRequests + 1 }
  | .sslHandshakes => onConnections fun m => { m with sslHandshakes := m.sslHandshakes + 1 }
  | .keepaliveRequests =>
    onConnections fun m => { m with keepaliveRequests := m.keepaliveRequests + 1 }
  | .workerRequests slot => onWorker slot fun m => { m with requests := m.requests + 1 }
  | .workerErrors slot => onWorker slot fun m => { m with errors := m.errors + 1 }

def Amount.add (n : BitVec w) : Amount → Shctx w → Shctx w
  | .bytes => onRequests fun m => { m with bytes := m.bytes + n }
  | .requestTimeMsTotal => onRequests fun m => { m with requestTimeMsTotal := m.requestTimeMsTotal + n }
  | .workerBytes slot => onWorker slot fun m => { m with bytes := m.bytes + n }

/-- The single accesses of a call to the counters of the zone. -/
inductive AccountOp (w : Nat)
  | increment (c : Counter)
  | add (a : Amount) (n : BitVec w)
  | storePid (slot : Nat) (pid : BitVec w)
  | storeLastSeen (slot : Nat) (now : BitVec w)
deriving DecidableEq

def AccountOp.apply : AccountOp w → Shctx w → Shctx w
  | .increment c => c.increment
  | .add a n => a.add n
  | .storePid slot pid => onWorker slot fun m => { m with pid := pid }
  | .storeLastSeen slot now => onWorker slot fun m => { m with lastSeen := now }

def applyOps (ops : List (AccountOp w)) (sh : Shctx w) : Shctx w :=
  ops.foldl (fun sh op => op.apply sh) sh

def statusCounter (status : Nat) : Counter :=
  if status < 200 then .status1xx
  else if status < 300 then .status2xx
  else if status < 400 then .status3xx
  else if status < 500 then .status4xx
  else .status5xx

namespace Call

def sslOps (c : Call w) : List (AccountOp w) :=
  if c.request.ssl then
    .increment .sslRequests ::
      if c.request.connectionRequests ≤ 1 then [.increment .sslHandshakes] else []
  else []

def keepaliveOps (c : Call w) : List (AccountOp w) :=
  if 1 < c.request.connectionRequests then [.increment .keepaliveRequests] else []

/-- The accesses of `update_worker`. -/
def workerOps (c : Call w) : List (AccountOp w) :=
  [.storePid c.workerSlot c.worker.pid, .storeLastSeen c.workerSlot c.clock.time,
    .increment (.workerRequests c.workerSlot),
    .add (.workerBytes c.workerSlot) (BitVec.ofInt w c.bytes)] ++
  (if 30000 < c.latency.toNat then [.increment (.workerErrors c.workerSlot)] else []) ++
  (if 500 ≤ c.status then [.increment (.workerErrors c.workerSlot)] else [])

def countOps (c : Call w) : List (AccountOp w) :=
  [.increment .total, .increment .responses, .add .bytes (BitVec.ofInt w c.bytes),
    .add .requestTimeMsTotal c.latency, .increment (.method (methodIndex c.request.method)),
    .increment (.latencyBucket (Accounting.latencyBucket c.latency)),
    .increment (.sizeBucket (Accounting.sizeBucket c.bytes)),
    .increment (statusCounter c.status)] ++
  c.sslOps ++ c.keepaliveOps ++ c.workerOps

def topCall (c : Call w) (key : Bytes) : TopCall w :=
  ⟨key, c.latency, c.bytes, decide (400 ≤ c.status), c.clock.time⟩

def upstreamCall (c : Call w) (state : UpstreamState w) : UpstreamCall w where
  peer := match state.peer with
    | some peer => if peer.length ≠ 0 then peer else ascii "unknown"
    | none => ascii "unknown"
  latency := if state.responseTime = -1 then c.latency else state.responseTime
  status := state.status
  now := c.clock.time

end Call

section Tables

variable (crc32 : Bytes → BitVec 32) (conf : MainConf w) (shpool : Bool)

def accountUpstream (c : Call w) (sh : Shctx w) : Shctx w :=
  if c.request.upstreamStates.isEmpty || !shpool then sh
  else
    let upstreams := c.request.upstreamStates.foldl
      (fun entries state => updateUpstreamSlot crc32 entries upstreamsMax (c.upstreamCall state))
      sh.upstreams
    { sh with upstreams := upstreams }

def updateUrls (c : Call w) (sh : Shctx w) : Shctx w :=
  let capacity := min conf.maxTopUrls topUrlsMax
  { sh with urls := updateTop crc32 shpool sh.urls capacity (c.topCall c.request.uri) }

def updateUserAgents (c : Call w) (sh : Shctx w) : Shctx w :=
  match c.request.userAgent with
  | some userAgent =>
    { sh with userAgents := updateTop crc32 shpool sh.userAgents topUaMax (c.topCall userAgent) }
  | none => sh

def updateTables (c : Call w) (sh : Shctx w) : Shctx w :=
  accountUpstream crc32 shpool c
    (updateUserAgents crc32 shpool c (updateUrls crc32 conf shpool c sh))

/-- `account_request` in a worker that runs alone. -/
def accountRequest (c : Call w) (sh : Shctx w) : Shctx w :=
  updateTables crc32 conf shpool c (applyOps c.countOps sh)

end Tables

/-- The tables that `updateTables` writes, and nothing else. -/
def withTables (sh : Shctx w) (urls userAgents : Nat → TopEntry w)
    (upstreams : Nat → UpstreamEntry w) : Shctx w :=
  { sh with urls := urls, userAgents := userAgents, upstreams := upstreams }

theorem updateTables_writes (crc32 : Bytes → BitVec 32) (conf : MainConf w) (shpool : Bool)
    (c : Call w) (sh : Shctx w) : ∃ urls userAgents upstreams,
      updateTables crc32 conf shpool c sh = withTables sh urls userAgents upstreams := by
  refine ⟨(updateTables crc32 conf shpool c sh).urls, (updateTables crc32 conf shpool c sh).userAgents,
    (updateTables crc32 conf shpool c sh).upstreams, ?_⟩
  rw [updateTables, accountUpstream, updateUserAgents, updateUrls]
  split <;> split <;> rfl

/-- The parts of the zone that the single accesses write. -/
def withCounts (sh : Shctx w) (requests : RequestMetric w) (connections : ConnectionMetric w)
    (workers : Nat → WorkerMetric w) : Shctx w :=
  { sh with requests := requests, connections := connections, workers := workers }

theorem apply_writes (op : AccountOp w) (sh : Shctx w) : ∃ requests connections workers,
    op.apply sh = withCounts sh requests connections workers := by
  refine ⟨(op.apply sh).requests, (op.apply sh).connections, (op.apply sh).workers, ?_⟩
  cases op with
  | increment c => cases c <;> rfl
  | add a n => cases a <;> rfl
  | storePid slot pid => rfl
  | storeLastSeen slot now => rfl

theorem applyOps_writes (ops : List (AccountOp w)) (sh : Shctx w) : ∃ requests connections workers,
    applyOps ops sh = withCounts sh requests connections workers := by
  induction ops generalizing sh with
  | nil => exact ⟨sh.requests, sh.connections, sh.workers, rfl⟩
  | cons op ops ih =>
    obtain ⟨_, _, _, hFirst⟩ := apply_writes op sh
    obtain ⟨requests, connections, workers, hRest⟩ := ih (op.apply sh)
    refine ⟨requests, connections, workers, hRest.trans ?_⟩
    rw [hFirst]
    rfl

section CallTables

variable (crc32 : Bytes → BitVec 32) (conf : MainConf w) (shpool : Bool) (c : Call w) (sh : Shctx w)

theorem urls_accountRequest : (accountRequest crc32 conf shpool c sh).urls =
    updateTop crc32 shpool sh.urls (min conf.maxTopUrls topUrlsMax) (c.topCall c.request.uri) := by
  obtain ⟨_, _, _, hCounts⟩ := applyOps_writes c.countOps sh
  rw [accountRequest, updateTables, accountUpstream, updateUserAgents, updateUrls, hCounts]
  split <;> split <;> rfl

theorem userAgents_accountRequest : (accountRequest crc32 conf shpool c sh).userAgents =
    c.request.userAgent.elim sh.userAgents fun userAgent =>
      updateTop crc32 shpool sh.userAgents topUaMax (c.topCall userAgent) := by
  obtain ⟨_, _, _, hCounts⟩ := applyOps_writes c.countOps sh
  rw [accountRequest, updateTables, accountUpstream, updateUserAgents, updateUrls, hCounts]
  split <;> cases c.request.userAgent <;> rfl

theorem upstreams_accountRequest : (accountRequest crc32 conf shpool c sh).upstreams =
    if c.request.upstreamStates.isEmpty || !shpool then sh.upstreams
    else c.request.upstreamStates.foldl
      (fun entries state => updateUpstreamSlot crc32 entries upstreamsMax (c.upstreamCall state))
      sh.upstreams := by
  obtain ⟨_, _, _, hCounts⟩ := applyOps_writes c.countOps sh
  rw [accountRequest, updateTables, accountUpstream, updateUserAgents, updateUrls, hCounts]
  split <;> cases c.request.userAgent <;> rfl

end CallTables

theorem read_increment (c d : Counter) (sh : Shctx w) :
    d.read (c.increment sh) = d.read sh + if c = d then 1 else 0 := by
  cases c <;> cases d <;>
    simp [Counter.read, Counter.increment, onRequests, onConnections, onWorker, incrementAt,
      Function.update_apply] <;> grind

theorem read_add (a : Amount) (n : BitVec w) (d : Counter) (sh : Shctx w) :
    d.read (a.add n sh) = d.read sh := by
  cases a <;> cases d <;>
    simp [Counter.read, Amount.add, onRequests, onWorker, Function.update_apply] <;> grind

def AccountOp.hits (d : Counter) : AccountOp w → Nat
  | .increment c => if c = d then 1 else 0
  | _ => 0

def opsHits (d : Counter) (ops : List (AccountOp w)) : Nat := (ops.map (AccountOp.hits d)).sum

theorem read_apply (op : AccountOp w) (d : Counter) (sh : Shctx w) :
    d.read (op.apply sh) = d.read sh + (op.hits d : BitVec w) := by
  cases op with
  | increment c =>
    rw [AccountOp.apply, read_increment, AccountOp.hits]
    split <;> simp
  | add a n => simp [AccountOp.apply, read_add, AccountOp.hits]
  | storePid slot pid =>
    cases d <;> simp [AccountOp.apply, AccountOp.hits, Counter.read, onWorker,
      Function.update_apply] <;> grind
  | storeLastSeen slot now =>
    cases d <;> simp [AccountOp.apply, AccountOp.hits, Counter.read, onWorker,
      Function.update_apply] <;> grind

@[simp] theorem opsHits_nil (d : Counter) : opsHits d ([] : List (AccountOp w)) = 0 := rfl

@[simp] theorem opsHits_cons (d : Counter) (op : AccountOp w) (ops : List (AccountOp w)) :
    opsHits d (op :: ops) = op.hits d + opsHits d ops := by
  simp [opsHits]

@[simp] theorem opsHits_append (d : Counter) (ops ops' : List (AccountOp w)) :
    opsHits d (ops ++ ops') = opsHits d ops + opsHits d ops' := by
  simp [opsHits]

theorem read_withTables (d : Counter) (sh : Shctx w) (urls userAgents : Nat → TopEntry w)
    (upstreams : Nat → UpstreamEntry w) :
    d.read (withTables sh urls userAgents upstreams) = d.read sh := by
  cases d <;> rfl

theorem read_applyOps (d : Counter) (ops : List (AccountOp w)) (sh : Shctx w) :
    d.read (applyOps ops sh) = d.read sh + (opsHits d ops : BitVec w) := by
  induction ops generalizing sh with
  | nil => simp [applyOps]
  | cons op ops ih =>
    rw [applyOps, List.foldl_cons, ← applyOps, ih, read_apply, opsHits_cons, Nat.cast_add, add_assoc]

def callHits (d : Counter) (c : Call w) : Nat := opsHits d c.countOps

theorem read_accountRequest (d : Counter) (crc32 : Bytes → BitVec 32) (conf : MainConf w)
    (shpool : Bool) (c : Call w) (sh : Shctx w) :
    d.read (accountRequest crc32 conf shpool c sh) = d.read sh + (callHits d c : BitVec w) := by
  obtain ⟨urls, userAgents, upstreams, hTables⟩ :=
    updateTables_writes crc32 conf shpool c (applyOps c.countOps sh)
  rw [accountRequest, hTables, read_withTables, read_applyOps, callHits]

/-- The counters of `requests`, which only the first accesses of a call touch. -/
def OfRequests : Counter → Prop
  | .sslRequests => False
  | .sslHandshakes => False
  | .keepaliveRequests => False
  | .workerRequests _ => False
  | .workerErrors _ => False
  | _ => True

theorem opsHits_sslOps {d : Counter} (h : d ≠ .sslRequests ∧ d ≠ .sslHandshakes) (c : Call w) :
    opsHits d c.sslOps = 0 := by
  rw [Call.sslOps]
  split
  · split <;> simp [AccountOp.hits, h.1.symm, h.2.symm]
  · rfl

theorem opsHits_keepaliveOps {d : Counter} (h : d ≠ .keepaliveRequests) (c : Call w) :
    opsHits d c.keepaliveOps = 0 := by
  rw [Call.keepaliveOps]
  split
  · simp [AccountOp.hits, h.symm]
  · rfl

theorem opsHits_workerOps {d : Counter} (h : ∀ slot, d ≠ .workerErrors slot) (c : Call w) :
    opsHits d c.workerOps = if .workerRequests c.workerSlot = d then 1 else 0 := by
  rw [Call.workerOps, opsHits_append, opsHits_append]
  have hErrors : ∀ p : Prop, ∀ [Decidable p], opsHits d
      (if p then [(.increment (.workerErrors c.workerSlot) : AccountOp w)] else []) = 0 := by
    intro p _
    split
    · simp [AccountOp.hits, (h c.workerSlot).symm]
    · rfl
  rw [hErrors, hErrors]
  simp [AccountOp.hits]

theorem callHits_ofRequests {d : Counter} (h : OfRequests d) (c : Call w) :
    callHits d c = (if .total = d then 1 else 0) + (if .responses = d then 1 else 0) +
      (if .method (methodIndex c.request.method) = d then 1 else 0) +
      (if .latencyBucket (latencyBucket c.latency) = d then 1 else 0) +
      (if .sizeBucket (sizeBucket c.bytes) = d then 1 else 0) +
      (if statusCounter c.status = d then 1 else 0) := by
  rw [callHits, Call.countOps, opsHits_append, opsHits_append, opsHits_append, opsHits_sslOps,
    opsHits_keepaliveOps, opsHits_workerOps, if_neg]
  · simp [AccountOp.hits, add_assoc]
  · rintro rfl
    exact h
  · rintro slot rfl
    exact h
  · rintro rfl
    exact h
  · constructor <;> rintro rfl <;> exact h

theorem statusCounter_cases (status : Nat) :
    statusCounter status ∈ [.status1xx, .status2xx, .status3xx, .status4xx, .status5xx] := by
  rw [statusCounter]
  split
  · simp
  · split
    · simp
    · split
      · simp
      · split <;> simp

theorem statusCounter_ne (status : Nat) {d : Counter}
    (h : d ∉ [Counter.status1xx, .status2xx, .status3xx, .status4xx, .status5xx]) :
    statusCounter status ≠ d :=
  fun hSame => h (hSame ▸ statusCounter_cases status)

theorem callHits_total (c : Call w) : callHits .total c = 1 := by
  rw [callHits_ofRequests (d := .total) trivial, if_neg (statusCounter_ne c.status (by simp))]
  simp

theorem callHits_responses (c : Call w) : callHits .responses c = 1 := by
  rw [callHits_ofRequests (d := .responses) trivial, if_neg (statusCounter_ne c.status (by simp))]
  simp

theorem callHits_method (c : Call w) (i : Nat) :
    callHits (.method i) c = if methodIndex c.request.method = i then 1 else 0 := by
  rw [callHits_ofRequests (d := .method i) trivial, if_neg (statusCounter_ne c.status (by simp))]
  simp

theorem callHits_latencyBucket (c : Call w) (i : Nat) :
    callHits (.latencyBucket i) c = if latencyBucket c.latency = i then 1 else 0 := by
  rw [callHits_ofRequests (d := .latencyBucket i) trivial,
    if_neg (statusCounter_ne c.status (by simp))]
  simp

theorem callHits_sizeBucket (c : Call w) (i : Nat) :
    callHits (.sizeBucket i) c = if sizeBucket c.bytes = i then 1 else 0 := by
  rw [callHits_ofRequests (d := .sizeBucket i) trivial,
    if_neg (statusCounter_ne c.status (by simp))]
  simp

theorem callHits_workerRequests (c : Call w) (slot : Nat) :
    callHits (.workerRequests slot) c = if c.workerSlot = slot then 1 else 0 := by
  rw [callHits, Call.countOps, opsHits_append, opsHits_append, opsHits_append,
    opsHits_sslOps (by simp), opsHits_keepaliveOps (by simp), opsHits_workerOps (by simp)]
  simp [AccountOp.hits, statusCounter_ne c.status]

def methodCounters : Finset Counter := (Finset.range methods).image .method

def latencyCounters : Finset Counter := (Finset.range latencyBuckets).image .latencyBucket

def sizeCounters : Finset Counter := (Finset.range sizeBuckets).image .sizeBucket

def statusCounters : Finset Counter := {.status1xx, .status2xx, .status3xx, .status4xx, .status5xx}

def workerCounters : Finset Counter := (Finset.range workersMax).image .workerRequests

/-- A family whose counters share out the calls. -/
def Classifies (w : Nat) (family : Finset Counter) : Prop :=
  ∀ c : Call w, ∑ d ∈ family, callHits d c = 1

theorem classifies_image {n : Nat} {counter : Nat → Counter} (hInjective : counter.Injective)
    {index : Call w → Nat} (hRange : ∀ c, index c < n)
    (hHits : ∀ c i, callHits (counter i) c = if index c = i then 1 else 0) :
    Classifies w ((Finset.range n).image counter) := by
  intro c
  rw [Finset.sum_image (fun i _ j _ h => hInjective h)]
  simp only [hHits]
  rw [Finset.sum_ite_eq, if_pos (Finset.mem_range.mpr (hRange c))]

theorem methodIndex_lt (method : Nat) : methodIndex method < methods := by
  rw [methodIndex, methods]
  grind

theorem latencyBucket_lt (ms : BitVec w) : latencyBucket ms < latencyBuckets :=
  Nat.lt_succ_of_le (bucketIndex_le latencyBounds ms.toNat)

theorem sizeBucket_lt (bytes : Int) : sizeBucket bytes < sizeBuckets :=
  Nat.lt_succ_of_le (bucketIndex_le sizeBounds bytes)

theorem workerSlot_lt (c : Call w) : c.workerSlot < workersMax := by
  rw [Call.workerSlot]
  split
  · decide
  · exact Nat.mod_lt _ (by decide)

theorem classifies_method : Classifies w methodCounters :=
  classifies_image (fun _ _ h => Counter.method.inj h) (fun c => methodIndex_lt c.request.method)
    callHits_method

theorem classifies_latency : Classifies w latencyCounters :=
  classifies_image (fun _ _ h => Counter.latencyBucket.inj h) (fun c => latencyBucket_lt c.latency)
    callHits_latencyBucket

theorem classifies_size : Classifies w sizeCounters :=
  classifies_image (fun _ _ h => Counter.sizeBucket.inj h) (fun c => sizeBucket_lt c.bytes)
    callHits_sizeBucket

theorem classifies_worker : Classifies w workerCounters :=
  classifies_image (fun _ _ h => Counter.workerRequests.inj h) workerSlot_lt callHits_workerRequests

theorem classifies_status : Classifies w statusCounters := by
  intro c
  have hHits : ∀ d ∈ statusCounters, callHits d c = if statusCounter c.status = d then 1 else 0 := by
    intro d hd
    simp only [statusCounters, Finset.mem_insert, Finset.mem_singleton] at hd
    have hOf : OfRequests d := by
      rcases hd with rfl | rfl | rfl | rfl | rfl <;> trivial
    rw [callHits_ofRequests hOf]
    rcases hd with rfl | rfl | rfl | rfl | rfl <;> simp
  have hMem : statusCounter c.status ∈ statusCounters := by
    simpa [statusCounters] using statusCounter_cases c.status
  rw [Finset.sum_congr rfl hHits, Finset.sum_ite_eq, if_pos hMem]

end HttpMonitoring.Accounting
