import HttpMonitoring.History
import HttpMonitoring.JsonWriter

/-!
# The documents of the JSON endpoints

Every section as a list of calls on the writer, and the documents that
`send_json`, `send_health` and `send_prometheus` put together from them. In a
format `\x7b` and `\x7d` are the braces.
-/

namespace HttpMonitoring.JsonSections

open Library.BoundedWriter Library.CString TopTable Accounting History JsonWriter

variable {w : Nat}

/-- What a document needs beside the zone: the cached time, the process, and
whether the pool has room for the sorted copies of the two top tables. -/
structure Env (w : Nat) where
  clock : Clock w
  pid : Int
  urlViews : Bool
  userAgentViews : Bool

structure TopView (w : Nat) where
  key : Bytes
  hits : BitVec w
  errors : BitVec w
  bytes : BitVec w
  latencyMsTotal : BitVec w
  lastSeen : BitVec w

/-- The core's `ngx_cpystrn` into a zeroed buffer of `size` cells. -/
def cpystrn (size : Nat) (src : Bytes) : Bytes := fill size ((text src).take (size - 1))

def viewOf (e : TopEntry w) : TopView w :=
  ⟨cpystrn keyLen e.key, e.hits, e.errors, e.bytes, e.latencyMsTotal, e.lastSeen⟩

def topViews (entries : Nat → TopEntry w) (capacity : Nat) : List (TopView w) :=
  ((List.range capacity).filter fun i => (entries i).hits ≠ 0).map fun i => viewOf (entries i)

/-- One pass of the sort: `tmp` moves down past the views with fewer hits. The
sorted part is kept back to front. -/
def insertDown (tmp : TopView w) : List (TopView w) → List (TopView w)
  | [] => [tmp]
  | v :: rest => if v.hits.toNat < tmp.hits.toNat then v :: insertDown tmp rest else tmp :: v :: rest

def sortTop (views : List (TopView w)) : List (TopView w) :=
  (views.foldl (fun sorted tmp => insertDown tmp sorted) []).reverse

def average (total count : BitVec w) : ℚ :=
  if 0 < count.toNat then total.toNat / count.toNat else 0

section Sections

variable (R : Vslprintf w)

def jsonTopEntry (keyName : String) (v : TopView w) (jw : Jw) : Jw :=
  jw |> jsonAppend (ascii "\x7b\"") |> jsonAppend (ascii keyName) |> jsonAppend (ascii "\":")
    |> jsonString R (text v.key)
    |> jsonPrintf R [.lit ",\"hits\":", .uA v.hits, .lit ",\"errors\":", .uA v.errors,
      .lit ",\"bytes\":", .uA v.bytes, .lit ",\"avg_latency\":",
      .f 3 (average v.latencyMsTotal v.hits), .lit ",\"last_seen\":", .uA v.lastSeen, .lit "\x7d"]

def jsonTopEntries (view : Bool) (entries : Nat → TopEntry w) (capacity : Nat) (keyName : String)
    (jw : Jw) : Jw :=
  if !view then jw.fail
  else
    let views := sortTop (topViews entries capacity)
    jw |> jsonAppend (ascii "[")
      |> forEach views.length (fun i => jsonTopEntry R keyName (views.getD i (viewOf zeroedEntry)))
      |> jsonAppend (ascii "]")

def jsonHeader (env : Env w) (scope : String) (jw : Jw) : Jw :=
  jw |> jsonPrintf R [.lit "\x7b\"version\":", .d version, .lit ",\"module\":\"", .s moduleVersion,
    .lit "\",\"timestamp\":", .T env.clock.sec, .lit ",\"msec\":", .M env.clock.msec,
    .lit ",\"scope\":\"", .s (ascii scope), .lit "\",\"pid\":", .P env.pid]

def jsonSystem (sh : Shctx w) (jw : Jw) : Jw :=
  let s := sh.system
  let memUsed : ℚ := if 0 < s.memTotal.toNat then (s.memTotal - s.memAvailable).toNat else 0
  jw |> jsonPrintf R [
    .lit "\x7b\"cpu\":\x7b\"usage\":", .f 3 (milli s.usageMilli), .lit ",\"cores\":", .uA s.cores,
    .lit ",\"load\":[", .f 3 (milli s.load1Milli), .lit ",", .f 3 (milli s.load5Milli), .lit ",",
    .f 3 (milli s.load15Milli), .lit "]\x7d,\"memory\":\x7b\"total\":", .uA s.memTotal,
    .lit ",\"available\":", .uA s.memAvailable,
    .lit ",\"free\":", .uA s.memFree,
    .lit ",\"used\":", .f 0 memUsed,
    .lit ",\"used_pct\":", .f 3 (usedPct s.memTotal s.memAvailable),
    .lit "\x7d,\"swap\":\x7b\"total\":", .uA s.swapTotal, .lit ",\"free\":", .uA s.swapFree,
    .lit ",\"used_pct\":", .f 3 (usedPct s.swapTotal s.swapFree),
    .lit "\x7d,\"uptime\":", .uA s.uptime, .lit "\x7d"]

def sumIfaces (sh : Shctx w) (field : IfaceMetric w → BitVec w) : BitVec w :=
  ((List.range (min sh.ifaceCount.toNat ifacesMax)).map fun i => field (sh.ifaces i)).sum

def ifaceUp (m : IfaceMetric w) : Bool := m.flags &&& 1 != 0

def jsonIface (m : IfaceMetric w) (jw : Jw) : Jw :=
  jw |> jsonAppend (ascii "\x7b\"name\":") |> jsonString R (text m.name)
    |> jsonPrintf R [.lit ",\"rx_bytes\":", .uA m.rxBytes, .lit ",\"tx_bytes\":", .uA m.txBytes,
      .lit ",\"rx_packets\":", .uA m.rxPackets, .lit ",\"tx_packets\":", .uA m.txPackets,
      .lit ",\"rx_errors\":", .uA m.rxErrors, .lit ",\"tx_errors\":", .uA m.txErrors,
      .lit ",\"up\":", .s (ascii (if ifaceUp m then "true" else "false")), .lit "\x7d"]

def jsonNetwork (sh : Shctx w) (jw : Jw) : Jw :=
  jw |> jsonPrintf R [
      .lit "\x7b\"rx_bytes\":", .uA (sumIfaces sh IfaceMetric.rxBytes),
      .lit ",\"tx_bytes\":", .uA (sumIfaces sh IfaceMetric.txBytes),
      .lit ",\"rx_packets\":", .uA (sumIfaces sh IfaceMetric.rxPackets),
      .lit ",\"tx_packets\":", .uA (sumIfaces sh IfaceMetric.txPackets),
      .lit ",\"rx_errors\":", .uA (sumIfaces sh IfaceMetric.rxErrors),
      .lit ",\"tx_errors\":", .uA (sumIfaces sh IfaceMetric.txErrors), .lit ",\"interfaces\":["]
    |> forEach (min sh.ifaceCount.toNat ifacesMax) (fun i => jsonIface R (sh.ifaces i))
    |> jsonAppend (ascii "]\x7d")

def sumDisks (sh : Shctx w) (field : DiskMetric w → BitVec w) : BitVec w :=
  ((List.range (min sh.diskCount.toNat disksMax)).map fun i => field (sh.disks i)).sum

def jsonDevice (m : DiskMetric w) (jw : Jw) : Jw :=
  jw |> jsonAppend (ascii "\x7b\"name\":") |> jsonString R (text m.name)
    |> jsonPrintf R [.lit ",\"reads\":", .uA m.reads, .lit ",\"writes\":", .uA m.writes,
      .lit ",\"read_bytes\":", .uA m.readBytes, .lit ",\"write_bytes\":", .uA m.writeBytes,
      .lit ",\"io_ms\":", .uA m.ioMs, .lit "\x7d"]

def jsonFilesystem (m : FsMetric w) (jw : Jw) : Jw :=
  jw |> jsonAppend (ascii "\x7b\"path\":") |> jsonString R (text m.path)
    |> jsonAppend (ascii ",\"type\":") |> jsonString R (text m.type)
    |> jsonPrintf R [.lit ",\"total\":", .uA m.total, .lit ",\"used\":", .uA m.used,
      .lit ",\"free\":", .uA m.free, .lit ",\"avail\":", .uA m.avail,
      .lit ",\"files\":", .uA m.files, .lit ",\"files_free\":", .uA m.filesFree, .lit "\x7d"]

def jsonDisk (sh : Shctx w) (jw : Jw) : Jw :=
  jw |> jsonPrintf R [
      .lit "\x7b\"reads\":", .uA (sumDisks sh DiskMetric.reads),
      .lit ",\"writes\":", .uA (sumDisks sh DiskMetric.writes),
      .lit ",\"read_bytes\":", .uA (sumDisks sh DiskMetric.readBytes),
      .lit ",\"write_bytes\":", .uA (sumDisks sh DiskMetric.writeBytes), .lit ",\"devices\":["]
    |> forEach (min sh.diskCount.toNat disksMax) (fun i => jsonDevice R (sh.disks i))
    |> jsonAppend (ascii "],\"filesystems\":[")
    |> forEach (min sh.fsCount.toNat filesystemsMax) (fun i => jsonFilesystem R (sh.filesystems i))
    |> jsonAppend (ascii "]\x7d")

def workerActive (m : WorkerMetric w) : Bool := m.active != 0

def jsonWorker (i : Nat) (m : WorkerMetric w) (jw : Jw) : Jw :=
  jw |> jsonPrintf R [.lit "\x7b\"slot\":", .ui (BitVec.ofNat w i), .lit ",\"pid\":", .uA m.pid,
    .lit ",\"active\":", .s (ascii (if workerActive m then "true" else "false")),
    .lit ",\"requests\":", .uA m.requests, .lit ",\"bytes\":", .uA m.bytes,
    .lit ",\"errors\":", .uA m.errors, .lit ",\"vm_size\":", .uA m.vmSize,
    .lit ",\"vm_rss\":", .uA m.vmRss, .lit ",\"voluntary_ctxt\":", .uA m.voluntaryCtxt,
    .lit ",\"nonvoluntary_ctxt\":", .uA m.nonvoluntaryCtxt, .lit ",\"last_seen\":", .uA m.lastSeen,
    .lit "\x7d"]

def jsonWorkers (sh : Shctx w) (jw : Jw) : Jw :=
  jw |> jsonAppend (ascii "[")
    |> forOccupied workersMax (fun i => (sh.workers i).pid ≠ 0)
      (fun i => jsonWorker R i (sh.workers i))
    |> jsonAppend (ascii "]")

def jsonProcesses (sh : Shctx w) (jw : Jw) : Jw :=
  let s := sh.system
  jw |> jsonPrintf R [.lit "\x7b\"process_count\":", .uA s.processCount,
      .lit ",\"tcp\":\x7b\"established\":", .uA s.tcpEstablished, .lit ",\"listen\":", .uA s.tcpListen,
      .lit "\x7d,\"sockets\":\x7b\"used\":", .uA s.socketsUsed, .lit ",\"tcp\":", .uA s.socketsTcp,
      .lit ",\"udp\":", .uA s.socketsUdp, .lit "\x7d,\"workers\":"]
    |> jsonWorkers R sh |> jsonAppend (ascii "\x7d")

def jsonNginx (sh : Shctx w) (jw : Jw) : Jw :=
  let c := sh.connections
  jw |> jsonPrintf R [.lit "\x7b\"connections\":\x7b\"accepted\":", .uA c.accepted,
      .lit ",\"handled\":", .uA c.handled, .lit ",\"active\":", .uA c.active,
      .lit ",\"reading\":", .uA c.reading, .lit ",\"writing\":", .uA c.writing,
      .lit ",\"waiting\":", .uA c.waiting, .lit "\x7d,\"requests\":\x7b\"total\":", .uA sh.requests.total,
      .lit ",\"responses\":",
      .uA sh.requests.responses, .lit ",\"requests_per_sec\":", .f 3 (milli sh.ewmaRpsMilli),
      .lit ",\"responses_per_sec\":", .f 3 (milli sh.ewmaRespMilli),
      .lit "\x7d,\"ssl\":\x7b\"requests\":", .uA c.sslRequests,
      .lit ",\"handshakes\":", .uA c.sslHandshakes,
      .lit "\x7d,\"keepalive\":\x7b\"requests\":", .uA c.keepaliveRequests, .lit "\x7d,\"workers\":"]
    |> jsonWorkers R sh |> jsonAppend (ascii "\x7d")

def jsonConnections (sh : Shctx w) (jw : Jw) : Jw :=
  let c := sh.connections
  jw |> jsonPrintf R [.lit "\x7b\"accepted\":", .uA c.accepted, .lit ",\"handled\":", .uA c.handled,
    .lit ",\"active\":", .uA c.active, .lit ",\"reading\":", .uA c.reading,
    .lit ",\"writing\":", .uA c.writing, .lit ",\"waiting\":", .uA c.waiting,
    .lit ",\"ssl_requests\":", .uA c.sslRequests, .lit ",\"ssl_handshakes\":", .uA c.sslHandshakes,
    .lit ",\"keepalive_requests\":", .uA c.keepaliveRequests,
    .lit ",\"sse_clients\":", .uA c.sseClients,
    .lit ",\"sse_events\":", .uA c.sseEvents, .lit ",\"rate_limited\":", .uA c.rateLimited,
    .lit "\x7d"]

def methodNames : List String := ["GET", "POST", "PUT", "DELETE", "HEAD", "OPTIONS", "PATCH", "OTHER"]

def jsonMethod (m : RequestMetric w) (i : Nat) (jw : Jw) : Jw :=
  jw |> jsonPrintf R [.lit "\"", .s (ascii (methodNames.getD i "")), .lit "\":", .uA (m.method i)]

def jsonLatencyBucket (m : RequestMetric w) (i : Nat) (jw : Jw) : Jw :=
  if i < latencyBuckets - 1 then
    jw |> jsonPrintf R [.lit "\x7b\"le\":", .ui (BitVec.ofNat w (latencyBounds.getD i 0)),
      .lit ",\"count\":", .uA (m.latencyBucket i), .lit "\x7d"]
  else jw |> jsonPrintf R [.lit "\x7b\"le\":\"+Inf\",\"count\":", .uA (m.latencyBucket i), .lit "\x7d"]

def jsonSizeBucket (m : RequestMetric w) (i : Nat) (jw : Jw) : Jw :=
  if i < sizeBuckets - 1 then
    jw |> jsonPrintf R [.lit "\x7b\"le\":", .O (sizeBounds.getD i 0),
      .lit ",\"count\":", .uA (m.sizeBucket i), .lit "\x7d"]
  else jw |> jsonPrintf R [.lit "\x7b\"le\":\"+Inf\",\"count\":", .uA (m.sizeBucket i), .lit "\x7d"]

def jsonRequests (env : Env w) (sh : Shctx w) (jw : Jw) : Jw :=
  let m := sh.requests
  jw |> jsonPrintf R [.lit "\x7b\"total\":", .uA m.total, .lit ",\"responses\":", .uA m.responses,
      .lit ",\"bytes\":", .uA m.bytes, .lit ",\"requests_per_sec\":", .f 3 (milli sh.ewmaRpsMilli),
      .lit ",\"responses_per_sec\":", .f 3 (milli sh.ewmaRespMilli),
      .lit ",\"error_rate\":", .f 6 (average (m.status4xx + m.status5xx) m.total),
      .lit ",\"latency\":\x7b\"avg\":", .f 3 (average m.requestTimeMsTotal m.total),
      .lit ",\"p50\":", .f 3 (roundedPercentile m 50), .lit ",\"p90\":", .f 3 (roundedPercentile m 90),
      .lit ",\"p95\":", .f 3 (roundedPercentile m 95), .lit ",\"p99\":", .f 3 (roundedPercentile m 99),
      .lit "\x7d,\"status\":\x7b\"1xx\":", .uA m.status1xx, .lit ",\"2xx\":", .uA m.status2xx,
      .lit ",\"3xx\":", .uA m.status3xx, .lit ",\"4xx\":", .uA m.status4xx,
      .lit ",\"5xx\":", .uA m.status5xx, .lit "\x7d,\"methods\":\x7b"]
    |> forEach methods (jsonMethod R m)
    |> jsonAppend (ascii "\x7d,\"latency_histogram\":[")
    |> forEach latencyBuckets (jsonLatencyBucket R m)
    |> jsonAppend (ascii "],\"size_histogram\":[")
    |> forEach sizeBuckets (jsonSizeBucket R m)
    |> jsonAppend (ascii "],\"top_urls\":")
    |> jsonTopEntries R env.urlViews sh.urls topUrlsMax "url"
    |> jsonAppend (ascii ",\"user_agents\":")
    |> jsonTopEntries R env.userAgentViews sh.userAgents topUaMax "user_agent"
    |> jsonAppend (ascii "\x7d")

def jsonUpstream (u : UpstreamEntry w) (jw : Jw) : Jw :=
  jw |> jsonAppend (ascii "\x7b\"peer\":") |> jsonString R (text u.peer)
    |> jsonPrintf R [.lit ",\"requests\":", .uA u.requests, .lit ",\"failures\":", .uA u.failures,
      .lit ",\"status_4xx\":", .uA u.status4xx, .lit ",\"status_5xx\":", .uA u.status5xx,
      .lit ",\"avg_latency\":", .f 3 (average u.latencyMsTotal u.requests),
      .lit ",\"last_seen\":", .uA u.lastSeen, .lit "\x7d"]

def jsonUpstreams (sh : Shctx w) (jw : Jw) : Jw :=
  jw |> jsonAppend (ascii "[")
    |> forOccupied upstreamsMax (fun i => (sh.upstreams i).requests ≠ 0)
      (fun i => jsonUpstream R (sh.upstreams i))
    |> jsonAppend (ascii "]")

def jsonSample (s : HistorySample w) (jw : Jw) : Jw :=
  jw |> jsonPrintf R [.lit "\x7b\"timestamp\":", .T s.timestamp, .lit ",\"cpu\":", .f 3 s.cpuUsage,
    .lit ",\"memory\":", .f 3 s.memoryUsedPct, .lit ",\"swap\":", .f 3 s.swapUsedPct,
    .lit ",\"rps\":", .f 3 s.requestsPerSec, .lit ",\"responses_per_sec\":", .f 3 s.responsesPerSec,
    .lit ",\"network_rx_per_sec\":", .f 3 s.networkRxPerSec,
    .lit ",\"network_tx_per_sec\":", .f 3 s.networkTxPerSec,
    .lit ",\"disk_read_per_sec\":", .f 3 s.diskReadPerSec,
    .lit ",\"disk_write_per_sec\":", .f 3 s.diskWritePerSec,
    .lit ",\"latency_p95\":", .f 3 s.latencyP95, .lit ",\"requests_total\":", .uA s.requestsTotal,
    .lit ",\"status_4xx\":", .uA s.status4xx, .lit ",\"status_5xx\":", .uA s.status5xx, .lit "\x7d"]

def jsonHistory (sh : Shctx w) (jw : Jw) : Jw :=
  if readerCapacity sh = 0 then jw |> jsonAppend (ascii "[]")
  else jw |> jsonAppend (ascii "[")
    |> forEach (readerCount sh) (fun i => jsonSample R (sh.history (historySlot sh i)))
    |> jsonAppend (ascii "]")

def scope : Endpoint → String
  | .apiSystem => "system"
  | .apiNginx => "nginx"
  | .apiNetwork => "network"
  | .apiDisk => "disk"
  | .apiProcesses => "processes"
  | .apiUpstreams => "upstreams"
  | .apiConnections => "connections"
  | .apiRequests => "requests"
  | _ => "full"

/-- A section of the full document and of the endpoint that shows only it. -/
def jsonSection (endpoint own : Endpoint) (name : String) (body : Jw → Jw) (jw : Jw) : Jw :=
  if endpoint = .apiFull ∨ endpoint = own then jw |> jsonAppend (ascii name) |> body else jw

/-- The sizes of the buffers of `send_json`, `send_prometheus` and `send_health`. -/
def jsonBuffer : Nat := 512 * 1024
def prometheusBuffer : Nat := 128 * 1024
def healthBuffer : Nat := 4096

/-- What `send_json` writes. -/
def jsonDocument (env : Env w) (sh : Shctx w) (endpoint : Endpoint) (jw : Jw) : Jw :=
  jw |> jsonHeader R env (scope endpoint)
    |> jsonSection endpoint .apiSystem ",\"system\":" (jsonSystem R sh)
    |> jsonSection endpoint .apiNginx ",\"nginx\":" (jsonNginx R sh)
    |> jsonSection endpoint .apiNetwork ",\"network\":" (jsonNetwork R sh)
    |> jsonSection endpoint .apiDisk ",\"disk\":" (jsonDisk R sh)
    |> jsonSection endpoint .apiProcesses ",\"processes\":" (jsonProcesses R sh)
    |> jsonSection endpoint .apiUpstreams ",\"upstreams\":" (jsonUpstreams R sh)
    |> jsonSection endpoint .apiConnections ",\"connections\":" (jsonConnections R sh)
    |> jsonSection endpoint .apiRequests ",\"requests\":" (jsonRequests R env sh)
    |> jsonSection endpoint .apiFull ",\"history\":" (jsonHistory R sh)
    |> jsonAppend (ascii "\x7d\n")

/-- What `send_health` writes. -/
def healthDocument (env : Env w) (sh : Shctx w) (jw : Jw) : Jw :=
  jw |> jsonHeader R env "health"
    |> jsonPrintf R [.lit ",\"status\":\"ok\",\"generation\":", .uA sh.generation,
      .lit ",\"sse_clients\":", .uA sh.connections.sseClients, .lit "\x7d\n"]

/-- What `send_prometheus` writes. -/
def prometheusDocument (sh : Shctx w) (jw : Jw) : Jw :=
  let s := sh.system
  jw |> jsonAppend (ascii ("# HELP nginx_monitor_requests_total Total HTTP requests observed by " ++
      "ngx_http_monitoring_module\n" ++ "# TYPE nginx_monitor_requests_total counter\n"))
    |> jsonPrintf R [.lit "nginx_monitor_requests_total ", .uA sh.requests.total, .lit "\n"]
    |> jsonAppend (ascii ("# HELP nginx_monitor_active_connections Active nginx connections\n" ++
      "# TYPE nginx_monitor_active_connections gauge\n"))
    |> jsonPrintf R [.lit "nginx_monitor_active_connections ", .uA sh.connections.active, .lit "\n"]
    |> jsonAppend (ascii ("# HELP nginx_monitor_cpu_usage_ratio CPU usage ratio\n" ++
      "# TYPE nginx_monitor_cpu_usage_ratio gauge\n"))
    |> jsonPrintf R [.lit "nginx_monitor_cpu_usage_ratio ", .f 3 (s.usageMilli.toNat / 100000),
      .lit "\n"]
    |> jsonAppend (ascii ("# HELP nginx_monitor_memory_used_ratio Memory usage ratio\n" ++
      "# TYPE nginx_monitor_memory_used_ratio gauge\n"))
    |> (if 0 < s.memTotal.toNat then
        jsonPrintf R [.lit "nginx_monitor_memory_used_ratio ",
          .f 3 ((s.memTotal - s.memAvailable).toNat / s.memTotal.toNat), .lit "\n"]
      else jsonAppend (ascii "nginx_monitor_memory_used_ratio 0\n"))
    |> jsonAppend (ascii ("# HELP nginx_monitor_latency_p95_ms Estimated p95 request latency\n" ++
      "# TYPE nginx_monitor_latency_p95_ms gauge\n"))
    |> jsonPrintf R [.lit "nginx_monitor_latency_p95_ms ", .f 3 (roundedPercentile sh.requests 95),
      .lit "\n"]

end Sections

end HttpMonitoring.JsonSections
