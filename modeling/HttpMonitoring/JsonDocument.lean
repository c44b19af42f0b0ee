import HttpMonitoring.JsonSections

/-!
# The documents as JSON values

The value every section stands for. The text of this value is what the section
renders, and it is well formed when the stored names are.
-/

namespace HttpMonitoring.JsonDocument

open Library.BoundedWriter Library.CString Library.JsonText TopTable Accounting History JsonWriter
  JsonSections

variable {w : Nat} {ok : Prop}

section Values

variable (R : Vslprintf w)

def fields (keys : List String) (values : List Value) : Value := record (keys.map ascii) values

def word (x : BitVec w) : Value := .number (R.unsigned x)

def fixed (digits : Nat) (x : ℚ) : Value := .number (R.fixed digits x)

def name (buffer : Bytes) : Value := .string (escaped R (text buffer))

@[simp] theorem text_fields (keys : List String) (values : List Value) : (fields keys values).text =
    123 :: (commaSep (((keys.map ascii).zip values).map memberText) ++ [125]) :=
  text_object _

@[simp] theorem text_word (x : BitVec w) : (word R x).text = R.unsigned x := text_number _

@[simp] theorem text_fixed (digits : Nat) (x : ℚ) : (fixed R digits x).text = R.fixed digits x :=
  text_number _

@[simp] theorem text_name (buffer : Bytes) :
    (name R buffer).text = quoted (escaped R (text buffer)) :=
  text_string _

def systemValue (sh : Shctx w) : Value :=
  let s := sh.system
  let memUsed : ℚ := if 0 < s.memTotal.toNat then (s.memTotal - s.memAvailable).toNat else 0
  fields ["cpu", "memory", "swap", "uptime"]
    [fields ["usage", "cores", "load"] [fixed R 3 (milli s.usageMilli), word R s.cores,
      .array [fixed R 3 (milli s.load1Milli), fixed R 3 (milli s.load5Milli),
        fixed R 3 (milli s.load15Milli)]],
    fields ["total", "available", "free", "used", "used_pct"] [word R s.memTotal,
      word R s.memAvailable, word R s.memFree, fixed R 0 memUsed,
      fixed R 3 (usedPct s.memTotal s.memAvailable)],
    fields ["total", "free", "used_pct"] [word R s.swapTotal, word R s.swapFree,
      fixed R 3 (usedPct s.swapTotal s.swapFree)],
    word R s.uptime]

def ifaceValue (m : IfaceMetric w) : Value :=
  fields ["name", "rx_bytes", "tx_bytes", "rx_packets", "tx_packets", "rx_errors", "tx_errors", "up"]
    [name R m.name, word R m.rxBytes, word R m.txBytes, word R m.rxPackets, word R m.txPackets,
    word R m.rxErrors, word R m.txErrors, .bool (ifaceUp m)]

def networkValue (sh : Shctx w) : Value :=
  fields ["rx_bytes", "tx_bytes", "rx_packets", "tx_packets", "rx_errors", "tx_errors", "interfaces"]
    [word R (sumIfaces sh IfaceMetric.rxBytes), word R (sumIfaces sh IfaceMetric.txBytes),
    word R (sumIfaces sh IfaceMetric.rxPackets), word R (sumIfaces sh IfaceMetric.txPackets),
    word R (sumIfaces sh IfaceMetric.rxErrors), word R (sumIfaces sh IfaceMetric.txErrors),
    .array ((List.range (min sh.ifaceCount.toNat ifacesMax)).map fun i => ifaceValue R (sh.ifaces i))]

def deviceValue (m : DiskMetric w) : Value :=
  fields ["name", "reads", "writes", "read_bytes", "write_bytes", "io_ms"] [name R m.name,
    word R m.reads, word R m.writes, word R m.readBytes, word R m.writeBytes, word R m.ioMs]

def filesystemValue (m : FsMetric w) : Value :=
  fields ["path", "type", "total", "used", "free", "avail", "files", "files_free"] [name R m.path,
    name R m.type, word R m.total, word R m.used, word R m.free, word R m.avail, word R m.files,
    word R m.filesFree]

def diskValue (sh : Shctx w) : Value :=
  fields ["reads", "writes", "read_bytes", "write_bytes", "devices", "filesystems"]
    [word R (sumDisks sh DiskMetric.reads), word R (sumDisks sh DiskMetric.writes),
    word R (sumDisks sh DiskMetric.readBytes), word R (sumDisks sh DiskMetric.writeBytes),
    .array ((List.range (min sh.diskCount.toNat disksMax)).map fun i => deviceValue R (sh.disks i)),
    .array ((List.range (min sh.fsCount.toNat filesystemsMax)).map fun i =>
      filesystemValue R (sh.filesystems i))]

def workerValue (i : Nat) (m : WorkerMetric w) : Value :=
  fields ["slot", "pid", "active", "requests", "bytes", "errors", "vm_size", "vm_rss",
      "voluntary_ctxt", "nonvoluntary_ctxt", "last_seen"]
    [word R (BitVec.ofNat w i), word R m.pid, .bool (workerActive m), word R m.requests,
    word R m.bytes, word R m.errors, word R m.vmSize, word R m.vmRss, word R m.voluntaryCtxt,
    word R m.nonvoluntaryCtxt, word R m.lastSeen]

def liveWorkers (sh : Shctx w) : List Nat :=
  (List.range workersMax).filter fun i => (sh.workers i).pid ≠ 0

def workersValue (sh : Shctx w) : Value :=
  .array ((liveWorkers sh).map fun i => workerValue R i (sh.workers i))

def processesValue (sh : Shctx w) : Value :=
  let s := sh.system
  fields ["process_count", "tcp", "sockets", "workers"]
    [word R s.processCount,
    fields ["established", "listen"] [word R s.tcpEstablished, word R s.tcpListen],
    fields ["used", "tcp", "udp"] [word R s.socketsUsed, word R s.socketsTcp, word R s.socketsUdp],
    workersValue R sh]

def nginxValue (sh : Shctx w) : Value :=
  let c := sh.connections
  fields ["connections", "requests", "ssl", "keepalive", "workers"]
    [fields ["accepted", "handled", "active", "reading", "writing", "waiting"] [word R c.accepted,
      word R c.handled, word R c.active, word R c.reading, word R c.writing, word R c.waiting],
    fields ["total", "responses", "requests_per_sec", "responses_per_sec"] [word R sh.requests.total,
      word R sh.requests.responses, fixed R 3 (milli sh.ewmaRpsMilli),
      fixed R 3 (milli sh.ewmaRespMilli)],
    fields ["requests", "handshakes"] [word R c.sslRequests, word R c.sslHandshakes],
    fields ["requests"] [word R c.keepaliveRequests],
    workersValue R sh]

def connectionsValue (sh : Shctx w) : Value :=
  let c := sh.connections
  fields ["accepted", "handled", "active", "reading", "writing", "waiting", "ssl_requests",
      "ssl_handshakes", "keepalive_requests", "sse_clients", "sse_events", "rate_limited"]
    [word R c.accepted, word R c.handled, word R c.active, word R c.reading, word R c.writing,
    word R c.waiting, word R c.sslRequests, word R c.sslHandshakes, word R c.keepaliveRequests,
    word R c.sseClients, word R c.sseEvents, word R c.rateLimited]

def latencyBucketValue (m : RequestMetric w) (i : Nat) : Value :=
  fields ["le", "count"]
    [if i < latencyBuckets - 1 then word R (BitVec.ofNat w (latencyBounds.getD i 0))
      else .string (ascii "+Inf"), word R (m.latencyBucket i)]

def sizeBucketValue (m : RequestMetric w) (i : Nat) : Value :=
  fields ["le", "count"]
    [if i < sizeBuckets - 1 then .number (R.signed (sizeBounds.getD i 0))
      else .string (ascii "+Inf"), word R (m.sizeBucket i)]

def topEntryValue (keyName : String) (v : TopView w) : Value :=
  fields [keyName, "hits", "errors", "bytes", "avg_latency", "last_seen"]
    [name R v.key, word R v.hits, word R v.errors, word R v.bytes,
    fixed R 3 (average v.latencyMsTotal v.hits), word R v.lastSeen]

def topEntriesValue (entries : Nat → TopEntry w) (capacity : Nat) (keyName : String) : Value :=
  .array ((sortTop (topViews entries capacity)).map (topEntryValue R keyName))

def requestsValue (sh : Shctx w) : Value :=
  let m := sh.requests
  fields ["total", "responses", "bytes", "requests_per_sec", "responses_per_sec", "error_rate",
      "latency", "status", "methods", "latency_histogram", "size_histogram", "top_urls",
      "user_agents"]
    [word R m.total, word R m.responses, word R m.bytes, fixed R 3 (milli sh.ewmaRpsMilli),
    fixed R 3 (milli sh.ewmaRespMilli), fixed R 6 (average (m.status4xx + m.status5xx) m.total),
    fields ["avg", "p50", "p90", "p95", "p99"] [fixed R 3 (average m.requestTimeMsTotal m.total),
      fixed R 3 (roundedPercentile m 50), fixed R 3 (roundedPercentile m 90), fixed R 3 (roundedPercentile m 95),
      fixed R 3 (roundedPercentile m 99)],
    fields ["1xx", "2xx", "3xx", "4xx", "5xx"] [word R m.status1xx, word R m.status2xx,
      word R m.status3xx, word R m.status4xx, word R m.status5xx],
    fields methodNames ((List.range methods).map fun i => word R (m.method i)),
    .array ((List.range latencyBuckets).map (latencyBucketValue R m)),
    .array ((List.range sizeBuckets).map (sizeBucketValue R m)),
    topEntriesValue R sh.urls topUrlsMax "url",
    topEntriesValue R sh.userAgents topUaMax "user_agent"]

def upstreamValue (u : UpstreamEntry w) : Value :=
  fields ["peer", "requests", "failures", "status_4xx", "status_5xx", "avg_latency", "last_seen"]
    [name R u.peer, word R u.requests, word R u.failures, word R u.status4xx, word R u.status5xx,
    fixed R 3 (average u.latencyMsTotal u.requests), word R u.lastSeen]

def usedUpstreams (sh : Shctx w) : List Nat :=
  (List.range upstreamsMax).filter fun i => (sh.upstreams i).requests ≠ 0

def upstreamsValue (sh : Shctx w) : Value :=
  .array ((usedUpstreams sh).map fun i => upstreamValue R (sh.upstreams i))

def sampleValue (s : HistorySample w) : Value :=
  fields ["timestamp", "cpu", "memory", "swap", "rps", "responses_per_sec", "network_rx_per_sec",
      "network_tx_per_sec", "disk_read_per_sec", "disk_write_per_sec", "latency_p95",
      "requests_total", "status_4xx", "status_5xx"]
    [.number (R.signed s.timestamp), fixed R 3 s.cpuUsage, fixed R 3 s.memoryUsedPct,
    fixed R 3 s.swapUsedPct, fixed R 3 s.requestsPerSec, fixed R 3 s.responsesPerSec,
    fixed R 3 s.networkRxPerSec, fixed R 3 s.networkTxPerSec, fixed R 3 s.diskReadPerSec,
    fixed R 3 s.diskWritePerSec, fixed R 3 s.latencyP95, word R s.requestsTotal,
    word R s.status4xx, word R s.status5xx]

def historyValue (sh : Shctx w) : Value := .array ((historySamples sh).map (sampleValue R))

def envelope (env : Env w) (scope : String) : List (Text × Value) :=
  (["version", "module", "timestamp", "msec", "scope", "pid"].map ascii).zip
    [.number (R.signed version), .string moduleVersion, .number (R.signed env.clock.sec),
    .number (R.msec env.clock.msec), .string (ascii scope), .number (R.signed env.pid)]

inductive Section
  | system
  | nginx
  | network
  | disk
  | processes
  | upstreams
  | connections
  | requests
  | history
deriving DecidableEq

namespace Section

/-- In the order of the full document. -/
def all : List Section :=
  [system, nginx, network, disk, processes, upstreams, connections, requests, history]

def key : Section → String
  | system => "system"
  | nginx => "nginx"
  | network => "network"
  | disk => "disk"
  | processes => "processes"
  | upstreams => "upstreams"
  | connections => "connections"
  | requests => "requests"
  | history => "history"

/-- The endpoint that shows the section beside the full one. -/
def endpoint : Section → Endpoint
  | system => .apiSystem
  | nginx => .apiNginx
  | network => .apiNetwork
  | disk => .apiDisk
  | processes => .apiProcesses
  | upstreams => .apiUpstreams
  | connections => .apiConnections
  | requests => .apiRequests
  | history => .apiFull

def value (sh : Shctx w) : Section → Value
  | system => systemValue R sh
  | nginx => nginxValue R sh
  | network => networkValue R sh
  | disk => diskValue R sh
  | processes => processesValue R sh
  | upstreams => upstreamsValue R sh
  | connections => connectionsValue R sh
  | requests => requestsValue R sh
  | history => historyValue R sh

end Section

def sections (endpoint : Endpoint) : List Section :=
  Section.all.filter fun s => endpoint = .apiFull ∨ endpoint = s.endpoint

def documentMembers (env : Env w) (sh : Shctx w) (endpoint : Endpoint) : List (Text × Value) :=
  envelope R env (scope endpoint) ++
    (sections endpoint).map fun s => (ascii s.key, s.value R sh)

def healthMembers (env : Env w) (sh : Shctx w) : List (Text × Value) :=
  envelope R env "health" ++ (["status", "generation", "sse_clients"].map ascii).zip
    [.string (ascii "ok"), word R sh.generation, word R sh.connections.sseClients]

end Values

section Rendering

variable (R : Vslprintf w)

theorem renders_array {n : Nat} {body : Nat → Jw → Jw} (element : Nat → Value)
    (h : ∀ i < n, Renders ok (body i) (element i).text) :
    Renders ok (fun jw => jw |> jsonAppend (ascii "[") |> forEach n body |> jsonAppend (ascii "]"))
      (Value.array ((List.range n).map element)).text :=
  (((renders_append _).comp (renders_forEach h)).comp (renders_append _)).cast (by
    simp [ascii, Function.comp_def])

theorem renders_occupied {n : Nat} {occupied : Nat → Bool} {body : Nat → Jw → Jw}
    (element : Nat → Value) (h : ∀ i < n, occupied i → Renders ok (body i) (element i).text) :
    Renders ok (fun jw =>
        jw |> jsonAppend (ascii "[") |> forOccupied n occupied body |> jsonAppend (ascii "]"))
      (Value.array (((List.range n).filter occupied).map element)).text :=
  (((renders_append _).comp (renders_forOccupied h)).comp (renders_append _)).cast (by
    simp [ascii, Function.comp_def])

theorem renders_system (sh : Shctx w) : Renders ok (jsonSystem R sh) (systemValue R sh).text :=
  (renders_printf R _).cast (by simp [systemValue, memberText, quoted, comma, ascii])

theorem renders_iface (m : IfaceMetric w) : Renders ok (jsonIface R m) (ifaceValue R m).text :=
  (((renders_append _).comp (renders_string R _)).comp (renders_printf R _)).cast (by
    cases h : ifaceUp m <;> simp [ifaceValue, memberText, quoted, comma, ascii, boolText, h])

theorem renders_network (sh : Shctx w) : Renders ok (jsonNetwork R sh) (networkValue R sh).text :=
  (((renders_printf R _).comp (renders_forEach fun i _ => renders_iface R (sh.ifaces i))).comp
    (renders_append _)).cast (by
      simp [networkValue, memberText, quoted, comma, ascii, Function.comp_def])

theorem renders_device (m : DiskMetric w) : Renders ok (jsonDevice R m) (deviceValue R m).text :=
  (((renders_append _).comp (renders_string R _)).comp (renders_printf R _)).cast (by
    simp [deviceValue, memberText, quoted, comma, ascii])

theorem renders_filesystem (m : FsMetric w) :
    Renders ok (jsonFilesystem R m) (filesystemValue R m).text :=
  (((((renders_append _).comp (renders_string R _)).comp (renders_append _)).comp
    (renders_string R _)).comp (renders_printf R _)).cast (by
      simp [filesystemValue, memberText, quoted, comma, ascii])

theorem renders_disk (sh : Shctx w) : Renders ok (jsonDisk R sh) (diskValue R sh).text :=
  (((((renders_printf R _).comp (renders_forEach fun i _ => renders_device R (sh.disks i))).comp
    (renders_append _)).comp
    (renders_forEach fun i _ => renders_filesystem R (sh.filesystems i))).comp
    (renders_append _)).cast (by
      simp [diskValue, memberText, quoted, comma, ascii, Function.comp_def])

theorem renders_worker (i : Nat) (m : WorkerMetric w) :
    Renders ok (jsonWorker R i m) (workerValue R i m).text :=
  (renders_printf R _).cast (by
    cases h : workerActive m <;>
      simp [workerValue, memberText, quoted, comma, ascii, boolText, h])

theorem renders_workers (sh : Shctx w) : Renders ok (jsonWorkers R sh) (workersValue R sh).text :=
  renders_occupied _ fun i _ _ => renders_worker R i (sh.workers i)

theorem renders_processes (sh : Shctx w) :
    Renders ok (jsonProcesses R sh) (processesValue R sh).text :=
  (((renders_printf R _).comp (renders_workers R sh)).comp (renders_append _)).cast (by
    simp [processesValue, memberText, quoted, comma, ascii])

set_option maxRecDepth 2000 in
theorem renders_nginx (sh : Shctx w) : Renders ok (jsonNginx R sh) (nginxValue R sh).text :=
  (((renders_printf R _).comp (renders_workers R sh)).comp (renders_append _)).cast (by
    simp [nginxValue, memberText, quoted, comma, ascii])

set_option maxRecDepth 2000 in
theorem renders_connections (sh : Shctx w) :
    Renders ok (jsonConnections R sh) (connectionsValue R sh).text :=
  (renders_printf R _).cast (by simp [connectionsValue, memberText, quoted, comma, ascii])

theorem renders_upstream (u : UpstreamEntry w) :
    Renders ok (jsonUpstream R u) (upstreamValue R u).text :=
  (((renders_append _).comp (renders_string R _)).comp (renders_printf R _)).cast (by
    simp [upstreamValue, memberText, quoted, comma, ascii])

theorem renders_upstreams (sh : Shctx w) :
    Renders ok (jsonUpstreams R sh) (upstreamsValue R sh).text :=
  renders_occupied _ fun i _ _ => renders_upstream R (sh.upstreams i)

set_option maxRecDepth 2000 in
theorem renders_sample (s : HistorySample w) :
    Renders ok (jsonSample R s) (sampleValue R s).text :=
  (renders_printf R _).cast (by simp [sampleValue, memberText, quoted, comma, ascii])

theorem renders_history (sh : Shctx w) : Renders ok (jsonHistory R sh) (historyValue R sh).text := by
  unfold jsonHistory historyValue historySamples
  split
  · exact (renders_append _).cast rfl
  · rw [List.map_map]
    exact renders_array _ fun i _ => renders_sample R _

theorem renders_latencyBucket (m : RequestMetric w) (i : Nat) :
    Renders ok (jsonLatencyBucket R m i) (latencyBucketValue R m i).text := by
  unfold jsonLatencyBucket latencyBucketValue
  split
  · exact (renders_printf R _).cast (by simp [memberText, quoted, comma, ascii])
  · exact (renders_printf R _).cast (by simp [memberText, quoted, comma, ascii])

theorem renders_sizeBucket (m : RequestMetric w) (i : Nat) :
    Renders ok (jsonSizeBucket R m i) (sizeBucketValue R m i).text := by
  unfold jsonSizeBucket sizeBucketValue
  split
  · exact (renders_printf R _).cast (by simp [memberText, quoted, comma, ascii])
  · exact (renders_printf R _).cast (by simp [memberText, quoted, comma, ascii])

theorem renders_topEntry (keyName : String) (v : TopView w) :
    Renders ok (jsonTopEntry R keyName v) (topEntryValue R keyName v).text :=
  (((((renders_append _).comp (renders_append _)).comp (renders_append _)).comp
    (renders_string R _)).comp (renders_printf R _)).cast (by
      simp [topEntryValue, memberText, quoted, comma, ascii])

theorem map_range_getD {α β : Type*} (f : α → β) (l : List α) (d : α) :
    (List.range l.length).map (fun i => f (l.getD i d)) = l.map f := by
  apply List.ext_getElem
  · simp
  · intro i hi hi'
    simp at hi
    simp [hi]

theorem renders_topEntries {view : Bool} (hView : ok → view = true) (entries : Nat → TopEntry w)
    (capacity : Nat) (keyName : String) :
    Renders ok (jsonTopEntries R view entries capacity keyName)
      (topEntriesValue R entries capacity keyName).text := by
  unfold jsonTopEntries topEntriesValue
  cases view with
  | false => exact .fail (fun h => Bool.noConfusion (hView h)) _
  | true =>
    have hEntry : ∀ i < (sortTop (topViews entries capacity)).length, Renders ok
        (jsonTopEntry R keyName ((sortTop (topViews entries capacity)).getD i (viewOf zeroedEntry)))
        (topEntryValue R keyName
          ((sortTop (topViews entries capacity)).getD i (viewOf zeroedEntry))).text :=
      fun i _ => renders_topEntry R keyName _
    have hArray := renders_array _ hEntry
    rw [map_range_getD] at hArray
    exact hArray

theorem renders_methods (m : RequestMetric w) :
    Renders ok (forEach methods (jsonMethod R m)) (commaSep
      (((methodNames.map ascii).zip ((List.range methods).map fun i => word R (m.method i))).map
        memberText)) :=
  (renders_forEach fun i _ => renders_printf R _).cast (by
    simp [methods, methodNames, List.range, List.range.loop, memberText, quoted, ascii])

set_option maxRecDepth 4000 in
theorem renders_requests {env : Env w} (hUrls : ok → env.urlViews = true)
    (hAgents : ok → env.userAgentViews = true) (sh : Shctx w) :
    Renders ok (jsonRequests R env sh) (requestsValue R sh).text :=
  (((((((((((renders_printf R _).comp (renders_methods R sh.requests)).comp (renders_append _)).comp
    (renders_forEach fun i _ => renders_latencyBucket R sh.requests i)).comp (renders_append _)).comp
    (renders_forEach fun i _ => renders_sizeBucket R sh.requests i)).comp (renders_append _)).comp
    (renders_topEntries R hUrls sh.urls topUrlsMax "url")).comp (renders_append _)).comp
    (renders_topEntries R hAgents sh.userAgents topUaMax "user_agent")).comp
    (renders_append _)).cast (by
      simp [requestsValue, memberText, quoted, comma, ascii, Function.comp_def])

theorem renders_header (env : Env w) (scope : String) : Renders ok (jsonHeader R env scope)
    (123 :: commaSep ((envelope R env scope).map memberText)) :=
  (renders_printf R _).cast (by simp [envelope, memberText, quoted, comma, ascii, moduleVersion])

def Section.opening (s : Section) : String := ",\"" ++ s.key ++ "\":"

def Section.render (env : Env w) (sh : Shctx w) : Section → Jw → Jw
  | system => jsonSystem R sh
  | nginx => jsonNginx R sh
  | network => jsonNetwork R sh
  | disk => jsonDisk R sh
  | processes => jsonProcesses R sh
  | upstreams => jsonUpstreams R sh
  | connections => jsonConnections R sh
  | requests => jsonRequests R env sh
  | history => jsonHistory R sh

theorem jsonDocument_eq (env : Env w) (sh : Shctx w) (endpoint : Endpoint) :
    jsonDocument R env sh endpoint = fun jw => jsonAppend (ascii "\x7d\n") (Section.all.foldl
      (fun jw s => jsonSection endpoint s.endpoint s.opening (s.render R env sh) jw)
      (jsonHeader R env (scope endpoint) jw)) :=
  rfl

theorem object_text (env : Env w) (scope : String) (rest : List (Text × Value)) :
    (Value.object (envelope R env scope ++ rest)).text =
      123 :: (commaSep ((envelope R env scope).map memberText) ++
        (rest.flatMap fun m => comma :: memberText m) ++ [125]) := by
  rw [text_object, List.map_append, commaSep_append (by simp [envelope]), List.flatMap_map]

section Documents

variable {env : Env w} (hUrls : ok → env.urlViews = true) (hAgents : ok → env.userAgentViews = true)
include hUrls hAgents

theorem Section.renders (sh : Shctx w) (s : Section) :
    Renders ok (s.render R env sh) (s.value R sh).text := by
  cases s with
  | system => exact renders_system R sh
  | nginx => exact renders_nginx R sh
  | network => exact renders_network R sh
  | disk => exact renders_disk R sh
  | processes => exact renders_processes R sh
  | upstreams => exact renders_upstreams R sh
  | connections => exact renders_connections R sh
  | requests => exact renders_requests R hUrls hAgents sh
  | history => exact renders_history R sh

theorem renders_section (sh : Shctx w) (endpoint : Endpoint) (s : Section) :
    Renders ok (jsonSection endpoint s.endpoint s.opening (s.render R env sh))
      (if endpoint = .apiFull ∨ endpoint = s.endpoint then
        comma :: memberText (ascii s.key, s.value R sh) else []) := by
  have hOpening : ascii s.opening = comma :: (quoted (ascii s.key) ++ [58]) := by
    cases s <;> rfl
  unfold jsonSection
  split
  · exact ((renders_append _).comp (s.renders R hUrls hAgents sh)).cast (by
      simp [hOpening, memberText])
  · exact .skip

theorem renders_document (sh : Shctx w) (endpoint : Endpoint) :
    Renders ok (jsonDocument R env sh endpoint)
      ((Value.object (documentMembers R env sh endpoint)).text ++ ascii "\n") := by
  have hSections := Renders.foldl Section.all fun s _ =>
    renders_section R hUrls hAgents sh endpoint s
  rw [jsonDocument_eq]
  refine (((renders_header R env _).comp hSections).comp (renders_append _)).cast ?_
  have hShown : ∀ g : Section → Text, (Section.all.flatMap fun s =>
      if endpoint = .apiFull ∨ endpoint = s.endpoint then g s else []) =
      (sections endpoint).flatMap g := by
    intro g
    unfold sections
    induction Section.all with
    | nil => rfl
    | cons s all ih =>
      rw [List.flatMap_cons, ih, List.filter_cons]
      split <;> simp_all
  rw [hShown, documentMembers, object_text, List.flatMap_map]
  simp [ascii]

end Documents

theorem renders_health (env : Env w) (sh : Shctx w) : Renders ok (healthDocument R env sh)
    ((Value.object (healthMembers R env sh)).text ++ ascii "\n") :=
  ((renders_header R env _).comp (renders_printf R _)).cast (by
    simp only [healthMembers, object_text]
    simp [memberText, quoted, comma, ascii])

end Rendering

end HttpMonitoring.JsonDocument
