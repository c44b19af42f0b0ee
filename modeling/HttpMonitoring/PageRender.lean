import HttpMonitoring.DashboardTables
import HttpMonitoring.Library.Scanf
import HttpMonitoring.PageData

/-!
# What the page shows

`render` and `drawAll` of the script read the data and write the cards, tables
and charts. Once a full answer has come in, every figure on the page is one of
the zone behind the last event or the last answer.
-/

namespace HttpMonitoring.PageRender

open Library.JsonText Library.DeepMerge Library.HtmlText Accounting History JsonWriter JsonNames JsonSections
  JsonDocument JsonAnswers LiveDocument DocumentTrees PageData
open DashboardTables (Engine Row Inputs)
open Handlers (acceptingCore)

variable {w : Nat} {ν : Type}

/-- What the script uses of the browser beside what its tables use. -/
structure Browser (ν : Type) extends Engine ν where
  add : ν → ν → ν
  mul : ν → ν → ν
  literal : Text → ν
  decode : Text → Units
  primitive : Doc Text Value → Units

def prop (x : Option (Doc Text Value)) (k : String) : Option (Doc Text Value) := Doc.reach x [ascii k]

/-- `x?.[i]` of an array -/
def index (x : Option (Doc Text Value)) (i : Nat) : Option (Doc Text Value) :=
  match x with
  | some (.leaf (.array elements)) => elements[i]?.map tree
  | _ => none

/-- `[...x]` of an array -/
def elements : Option (Doc Text Value) → List Value
  | some (.leaf (.array elements)) => elements
  | _ => []

namespace Browser

variable (B : Browser ν)

def isZero (digits : Text) : Bool := !B.isTruthy (B.literal digits)

def value : Option (Doc Text Value) → DashboardTables.Value ν
  | none => .undefined
  | some (.leaf (.number digits)) => .number (B.literal digits)
  | some (.leaf (.string body)) => .string (B.decode body)
  | some (.leaf (.bool b)) => .boolean b
  | some x => .string (B.primitive x)

def orElse (x y : Option (Doc Text Value)) : Option (Doc Text Value) := if holds B.isZero x then x else y

def orEmpty (x : Option (Doc Text Value)) : Option (Doc Text Value) := B.orElse x (some (.node []))

def orZero (x : Option (Doc Text Value)) : DashboardTables.Value ν :=
  if holds B.isZero x then B.value x else .number (B.ofNat 0)

/-- `x || []`, as it is spread over the rows of a table. -/
def rowsOf (x : Option (Doc Text Value)) : List Value := elements (B.orElse x (some (.leaf (.array []))))

def plus (v u : DashboardTables.Value ν) : DashboardTables.Value ν :=
  match v, u with
  | .string s, u => .string (s ++ B.text u)
  | v, .string t => .string (B.text v ++ t)
  | v, u => .number (B.add (B.toNumber v) (B.toNumber u))

def pct (v : DashboardTables.Value ν) : Units :=
  let x := B.toNumber v
  B.toFixed (if B.isTruthy x then x else B.ofNat 0) 1 ++ units "%"

/-- The members of a parsed object as a row. -/
def row : Value → Row ν
  | .object members =>
    let fields := members.map fun m => (B.decode m.1, B.value (some (tree m.2)))
    if h : (fields.map Prod.fst).Nodup then ⟨fields, h⟩ else ⟨[], List.nodup_nil⟩
  | _ => ⟨[], List.nodup_nil⟩

end Browser

structure SystemReads (ν : Type) where
  usage : DashboardTables.Value ν
  cores : DashboardTables.Value ν
  load1 : DashboardTables.Value ν
  load5 : DashboardTables.Value ν
  load15 : DashboardTables.Value ν
  uptime : DashboardTables.Value ν
  usedPct : DashboardTables.Value ν
  used : DashboardTables.Value ν
  total : DashboardTables.Value ν
  available : DashboardTables.Value ν
  free : DashboardTables.Value ν
  swapUsedPct : DashboardTables.Value ν

structure RequestReads (ν : Type) where
  perSec : DashboardTables.Value ν
  total : DashboardTables.Value ν
  p95 : DashboardTables.Value ν
  p99 : DashboardTables.Value ν
  status1xx : DashboardTables.Value ν
  status2xx : DashboardTables.Value ν
  status3xx : DashboardTables.Value ν
  status4xx : DashboardTables.Value ν
  status5xx : DashboardTables.Value ν
  errorRate : DashboardTables.Value ν

/-- The rows of the tables, and what the card of the network shows. -/
structure TableReads (ν : Type) where
  rxBytes : DashboardTables.Value ν
  txBytes : DashboardTables.Value ν
  interfaces : List Value
  devices : List Value
  filesystems : List Value
  topUrls : List Value
  userAgents : List Value
  upstreams : List Value
  workers : List Value

structure Reads (ν : Type) where
  system : SystemReads ν
  requests : RequestReads ν
  tables : TableReads ν

section Read

variable (B : Browser ν)

def readSystem (d : Option (Doc Text Value)) : SystemReads ν :=
  let sys := B.orEmpty (prop d "system")
  let mem := B.orEmpty (prop sys "memory")
  let cpu := B.orEmpty (prop sys "cpu")
  { usage := B.value (prop cpu "usage")
    cores := B.orZero (prop cpu "cores")
    load1 := B.orZero (index (prop cpu "load") 0)
    load5 := B.orZero (index (prop cpu "load") 1)
    load15 := B.orZero (index (prop cpu "load") 2)
    uptime := B.orZero (prop sys "uptime")
    usedPct := B.value (prop mem "used_pct")
    used := B.orZero (prop mem "used")
    total := B.orZero (prop mem "total")
    available := B.orZero (prop mem "available")
    free := B.orZero (prop mem "free")
    swapUsedPct := B.orZero (prop (prop sys "swap") "used_pct") }

def readRequests (d : Option (Doc Text Value)) : RequestReads ν :=
  let req := B.orEmpty (prop d "requests")
  let ng := B.orEmpty (prop d "nginx")
  let lat := B.orEmpty (prop req "latency")
  let st := B.orEmpty (prop req "status")
  { perSec := B.orZero (B.orElse (prop req "requests_per_sec") (prop (prop ng "requests") "requests_per_sec"))
    total := B.orZero (prop req "total")
    p95 := B.value (prop lat "p95")
    p99 := B.value (prop lat "p99")
    status1xx := B.orZero (prop st "1xx")
    status2xx := B.orZero (prop st "2xx")
    status3xx := B.orZero (prop st "3xx")
    status4xx := B.orZero (prop st "4xx")
    status5xx := B.orZero (prop st "5xx")
    errorRate := B.orZero (prop req "error_rate") }

def readTables (d : Option (Doc Text Value)) : TableReads ν :=
  let req := B.orEmpty (prop d "requests")
  let ng := B.orEmpty (prop d "nginx")
  let net := B.orEmpty (prop d "network")
  let disk := B.orEmpty (prop d "disk")
  { rxBytes := B.orZero (prop net "rx_bytes")
    txBytes := B.orZero (prop net "tx_bytes")
    interfaces := B.rowsOf (prop net "interfaces")
    devices := B.rowsOf (prop disk "devices")
    filesystems := B.rowsOf (prop disk "filesystems")
    topUrls := B.rowsOf (prop req "top_urls")
    userAgents := B.rowsOf (prop req "user_agents")
    upstreams := B.rowsOf (prop d "upstreams")
    workers := B.rowsOf (B.orElse (prop ng "workers") (prop (prop d "processes") "workers")) }

def read (d : Option (Doc Text Value)) : Reads ν := ⟨readSystem B d, readRequests B d, readTables B d⟩

end Read

def card (k v s : Units) : Units :=
  units "<div class=\"card\"><div class=\"label\">" ++ k ++ units "</div><div class=\"value\">" ++ v ++
    units "</div><div class=\"small\">" ++ s ++ units "</div></div>"

def table (pairs : List (String × Units)) : Units :=
  units "<tbody>" ++ pairs.flatMap (fun r => units "<tr><th>" ++ units r.1 ++ units "</th><td>" ++ r.2 ++
    units "</td></tr>") ++ units "</tbody>"

structure Chart (ν : Type) where
  id : Units
  values : List (DashboardTables.Value ν)
  color : Units
  max : Option Nat

structure Screen (ν : Type) where
  html : List (Units × Units)
  charts : List (Chart ν)

section Write

variable (B : Browser ν)

def cards (r : Reads ν) : Units :=
  let s := r.system
  let q := r.requests
  let fmt := fun v => B.fmt v []
  card (units "CPU") (B.pct s.usage) (B.text s.cores ++ units " cores") ++
  card (units "Memory") (B.pct s.usedPct) (B.bytes s.used ++ units " used") ++
  card (units "RPS") (fmt q.perSec) (fmt q.total ++ units " total") ++
  card (units "Latency p95") (B.ms q.p95) (units "p99 " ++ B.ms q.p99) ++
  card (units "Network") (B.bytes r.tables.rxBytes ++ units " / " ++ B.bytes r.tables.txBytes) (units "rx / tx") ++
  card (units "Errors") (fmt (B.plus q.status4xx q.status5xx)) (fmt q.status5xx ++ units " 5xx")

def rows (inputs : Inputs) (data : List Value) (cols : List String) (filterId sortId : Option Units) : Units :=
  B.rows inputs (data.map B.row) (cols.map units) filterId sortId

/-- The elements of the page with what `render` assigns to their `innerHTML`. -/
def html (inputs : Inputs) (r : Reads ν) : List (Units × Units) :=
  let s := r.system
  let q := r.requests
  let t := r.tables
  [(units "cards", cards B r),
    (units "loadTable", table [("Load 1m", B.text s.load1), ("Load 5m", B.text s.load5), ("Load 15m", B.text s.load15),
      ("Uptime", B.fmt s.uptime [] ++ units "s")]),
    (units "memTable", table [("Total", B.bytes s.total), ("Available", B.bytes s.available), ("Free", B.bytes s.free),
      ("Swap", B.pct s.swapUsedPct)]),
    (units "ifTable", rows B inputs t.interfaces ["name", "rx_bytes", "tx_bytes", "rx_packets", "tx_packets", "up"]
      (some (units "ifFilter")) (some (units "ifSort"))),
    (units "diskTable",
      rows B inputs t.devices ["name", "reads", "writes", "read_bytes", "write_bytes", "io_ms"] none none),
    (units "fsTable", rows B inputs t.filesystems ["path", "type", "total", "used", "avail"] none none),
    (units "urlTable", rows B inputs t.topUrls ["url", "hits", "errors", "bytes", "avg_latency"]
      (some (units "urlFilter")) (some (units "urlSort"))),
    (units "uaTable", rows B inputs t.userAgents ["user_agent", "hits", "errors", "avg_latency"] none none),
    (units "upTable", rows B inputs t.upstreams
      ["peer", "requests", "failures", "status_4xx", "status_5xx", "avg_latency"] none none),
    (units "workerTable", rows B inputs t.workers
      ["slot", "pid", "active", "requests", "bytes", "errors", "vm_rss", "last_seen"] none none),
    (units "errTable", table [("1xx", B.text q.status1xx), ("2xx", B.text q.status2xx), ("3xx", B.text q.status3xx),
      ("4xx", B.text q.status4xx), ("5xx", B.text q.status5xx),
      ("Error rate", B.toFixed (B.mul (B.toNumber q.errorRate) (B.ofNat 100)) 3 ++ units "%")])]

def drawAll (hist : Doc Text Value) : List (Chart ν) :=
  let map := fun f : Option (Doc Text Value) → DashboardTables.Value ν =>
    (elements (some hist)).map fun x => f (some (tree x))
  let cpu := map fun x => B.value (prop x "cpu")
  [⟨units "cpuChart", cpu, units "#45d483", some 100⟩, ⟨units "cpuChart2", cpu, units "#45d483", some 100⟩,
    ⟨units "rpsChart", map fun x => B.value (prop x "rps"), units "#5aa9ff", none⟩,
    ⟨units "netChart", map fun x => .number (B.div (B.toNumber (B.plus (B.value (prop x "network_rx_per_sec"))
      (B.value (prop x "network_tx_per_sec")))) (B.ofNat 1024)), units "#45d4d0", none⟩,
    ⟨units "latChart", map fun x => B.value (prop x "latency_p95"), units "#f4c95d", none⟩,
    ⟨units "memChart", map fun x => B.value (prop x "memory"), units "#ff5f6d", some 100⟩,
    ⟨units "errChart", map fun x => B.plus (B.orZero (prop x "status_4xx")) (B.orZero (prop x "status_5xx")),
      units "#ff5f6d", none⟩]

/-- `render`, which leaves the page as it is as long as there is no data. -/
def render (inputs : Inputs) (page : Page) : Option (Screen ν) :=
  page.data.map fun d => ⟨html B inputs (read B (some (.node d))), drawAll B page.hist⟩

end Write

section Figures

variable (B : Browser ν) (R : Vslprintf w)

def number (digits : Text) : Option (Doc Text Value) := some (.leaf (.number digits))

def memUsed (s : SystemMetric w) : ℚ := if 0 < s.memTotal.toNat then (s.memTotal - s.memAvailable).toNat else 0

/-- Events carry the usage of the processors and the memory, and all else is that
of the last answer. -/
def systemFigures (latest polled : SystemMetric w) : SystemReads ν where
  usage := B.value (number (R.fixed 3 (milli latest.usageMilli)))
  cores := B.orZero (number (R.unsigned latest.cores))
  load1 := B.orZero (number (R.fixed 3 (milli polled.load1Milli)))
  load5 := B.orZero (number (R.fixed 3 (milli polled.load5Milli)))
  load15 := B.orZero (number (R.fixed 3 (milli polled.load15Milli)))
  uptime := B.orZero (number (R.unsigned polled.uptime))
  usedPct := B.value (number (R.fixed 3 (usedPct latest.memTotal latest.memAvailable)))
  used := B.orZero (number (R.fixed 0 (memUsed polled)))
  total := B.orZero (number (R.unsigned latest.memTotal))
  available := B.orZero (number (R.unsigned latest.memAvailable))
  free := B.orZero (number (R.unsigned polled.memFree))
  swapUsedPct := B.orZero (number (R.fixed 3 (usedPct polled.swapTotal polled.swapFree)))

/-- A rate of zero gives way to the rate of the last answer. -/
def requestFigures (latest polled : Shctx w) : RequestReads ν :=
  let m := latest.requests
  { perSec := B.orZero (B.orElse (number (R.fixed 3 (milli latest.ewmaRpsMilli)))
      (number (R.fixed 3 (milli polled.ewmaRpsMilli))))
    total := B.orZero (number (R.unsigned m.total))
    p95 := B.value (number (R.fixed 3 (roundedPercentile m 95)))
    p99 := B.value (number (R.fixed 3 (roundedPercentile m 99)))
    status1xx := B.orZero (number (R.unsigned polled.requests.status1xx))
    status2xx := B.orZero (number (R.unsigned polled.requests.status2xx))
    status3xx := B.orZero (number (R.unsigned polled.requests.status3xx))
    status4xx := B.orZero (number (R.unsigned m.status4xx))
    status5xx := B.orZero (number (R.unsigned m.status5xx))
    errorRate := B.orZero (number (R.fixed 6 (average (polled.requests.status4xx + polled.requests.status5xx)
      polled.requests.total))) }

def tableFigures (latest polled : Shctx w) : TableReads ν where
  rxBytes := B.orZero (number (R.unsigned (sumIfaces latest IfaceMetric.rxBytes)))
  txBytes := B.orZero (number (R.unsigned (sumIfaces latest IfaceMetric.txBytes)))
  interfaces := (List.range (min polled.ifaceCount.toNat ifacesMax)).map fun i => ifaceValue R (polled.ifaces i)
  devices := (List.range (min polled.diskCount.toNat disksMax)).map fun i => deviceValue R (polled.disks i)
  filesystems := (List.range (min polled.fsCount.toNat filesystemsMax)).map fun i =>
    filesystemValue R (polled.filesystems i)
  topUrls := (sortTop (topViews polled.urls topUrlsMax)).map (topEntryValue R "url")
  userAgents := (sortTop (topViews polled.userAgents topUaMax)).map (topEntryValue R "user_agent")
  upstreams := (usedUpstreams polled).map fun i => upstreamValue R (polled.upstreams i)
  workers := (liveWorkers polled).map fun i => workerValue R i (polled.workers i)

def figures (latest polled : Shctx w) : Reads ν :=
  ⟨systemFigures B R latest.system polled.system, requestFigures B R latest polled, tableFigures B R latest polled⟩

/-- The charts of the samples of a zone. -/
def chartFigures (samples : List (HistorySample w)) : List (Chart ν) :=
  let map := fun f : HistorySample w → DashboardTables.Value ν => samples.map f
  let fixed := fun x : ℚ => B.value (number (R.fixed 3 x))
  let cpu := map fun s => fixed s.cpuUsage
  [⟨units "cpuChart", cpu, units "#45d483", some 100⟩, ⟨units "cpuChart2", cpu, units "#45d483", some 100⟩,
    ⟨units "rpsChart", map fun s => fixed s.requestsPerSec, units "#5aa9ff", none⟩,
    ⟨units "netChart", map fun s => .number (B.div (B.toNumber (B.plus (fixed s.networkRxPerSec)
      (fixed s.networkTxPerSec))) (B.ofNat 1024)), units "#45d4d0", none⟩,
    ⟨units "latChart", map fun s => fixed s.latencyP95, units "#f4c95d", none⟩,
    ⟨units "memChart", map fun s => fixed s.memoryUsedPct, units "#ff5f6d", some 100⟩,
    ⟨units "errChart", map fun s => B.plus (B.orZero (number (R.unsigned s.status4xx)))
      (B.orZero (number (R.unsigned s.status5xx))), units "#ff5f6d", none⟩]

end Figures

/-- What stands at a path of a value. -/
inductive Stands : Value → List String → Value → Prop
  | here (v : Value) : Stands v [] v
  | field {keys : List String} {values : List Value} {k : String} {path : List String} {v u : Value}
      (hNames : (keys.map ascii).Nodup) (hMem : (k, v) ∈ keys.zip values) (h : Stands v path u) :
      Stands (fields keys values) (k :: path) u

theorem Stands.reach {v u : Value} {path : List String} (h : Stands v path u) :
    Doc.reach (some (tree v)) (path.map ascii) = some (tree u) := by
  induction h with
  | here v => rfl
  | @field keys values k path v u hNames hMem h ih =>
    have hMember : (ascii k, tree v) ∈ treeMembers ((keys.map ascii).zip values) := by
      refine mem_treeMembers ?_
      rw [List.zip_map_left]
      exact List.mem_map.mpr ⟨(k, v), hMem, rfl⟩
    have hDistinct : ((treeMembers ((keys.map ascii).zip values)).map Prod.fst).Nodup := by
      rw [names_treeMembers]
      exact hNames.sublist (zip_keys_sublist _ _)
    rw [List.map_cons, Doc.reach_cons, fields, record, tree, Doc.reach_node, Doc.get_of_mem hDistinct hMember]
    exact ih

theorem Stands.nth {keys : List String} {values : List Value} {k : String} {path : List String} {v u : Value}
    (hNames : (keys.map ascii).Nodup) (i : Nat) (hKey : keys[i]? = some k) (hValue : values[i]? = some v)
    (h : Stands v path u) : Stands (fields keys values) (k :: path) u :=
  .field hNames (List.mem_of_getElem? (List.getElem?_zip_eq_some.mpr ⟨hKey, hValue⟩)) h

theorem leafAt_shape (t : Doc Text Value) (path : List Text) :
    Doc.leafAt (some t.shape) path = (Doc.leafAt (some t) path).map fun _ => () := by
  have hFind : Doc.reach (some t.shape) path = (Doc.reach (some t) path).map (Doc.map fun _ => ()) :=
    Doc.find_map (fun _ => ()) t path
  rw [Doc.leafAt, Doc.leafAt, hFind]
  cases Doc.reach (some t) path with
  | none => rfl
  | some u =>
    cases u with
    | leaf a => rw [Option.map_some, Doc.map]; rfl
    | node members => rw [Option.map_some, Doc.map]; rfl

theorem reach_of_leafAt {x : Option (Doc Text Value)} {path : List Text} {v : Value}
    (h : Doc.leafAt x path = some v) : Doc.reach x path = some (.leaf v) := by
  rw [Doc.leafAt] at h
  split at h
  · rename_i a hReach
    rw [hReach, Option.some.inj h]
  · cases h

section Props

variable (B : Browser ν) {x : Option (Doc Text Value)} {k j : String} {path : List Text} {v : Value}

theorem prop_of_leafAt (h : Doc.leafAt x [ascii k] = some v) : prop x k = some (.leaf v) := reach_of_leafAt h

theorem leafAt_prop (h : Doc.leafAt x (ascii k :: path) = some v) : Doc.leafAt (prop x k) path = some v := by
  rwa [Doc.leafAt_cons] at h

/-- What has something below it is an object, which is no false value. -/
theorem orEmpty_eq {i : Text} (h : Doc.leafAt x (i :: path) = some v) : B.orEmpty x = x := by
  cases x with
  | none => cases h
  | some t =>
    cases t with
    | leaf a => cases h
    | node members => rfl

theorem leafAt_orEmpty (h : Doc.leafAt x (ascii k :: ascii j :: path) = some v) :
    Doc.leafAt (B.orEmpty (prop x k)) (ascii j :: path) = some v := by
  have hBelow := leafAt_prop h
  rwa [orEmpty_eq B hBelow]

theorem read_section {a b : String} (h : Doc.leafAt x ([a, b].map ascii) = some v) :
    prop (B.orEmpty (prop x a)) b = some (.leaf v) := prop_of_leafAt (leafAt_orEmpty B h)

theorem read_group {a b c : String} (h : Doc.leafAt x ([a, b, c].map ascii) = some v) :
    prop (B.orEmpty (prop (B.orEmpty (prop x a)) b)) c = some (.leaf v) :=
  prop_of_leafAt (leafAt_orEmpty B (leafAt_orEmpty B h))

theorem read_optional {a b c : String} (h : Doc.leafAt x ([a, b, c].map ascii) = some v) :
    prop (prop (B.orEmpty (prop x a)) b) c = some (.leaf v) :=
  prop_of_leafAt (leafAt_prop (leafAt_orEmpty B h))

end Props

/-- The zone of the last event since the last answer, or else that of the answer. -/
def latest (known : Known w) (polled : Shctx w) : Shctx w := (known.event.map fun e => e.2.2).getD polled

section Leaves

variable {R : Vslprintf w} {known : Known w} {env : JsonSections.Env w} {polled : Shctx w} {d : Data}
  (hPoll : known.poll = some (env, polled)) (hLeaves : ∀ path, Doc.leafAt (some (.node d)) path = known.leaf R path)

theorem leafAt_fullTree (env : JsonSections.Env w) {sh : Shctx w} (s : Section) {path : List String} {v : Value}
    (h : Stands (s.value R sh) path v) (hLeaf : tree v = .leaf v) :
    Doc.leafAt (some (fullTree R (env, sh))) ((s.key :: path).map ascii) = some v := by
  have hReach : Doc.reach (some (fullTree R (env, sh))) ((s.key :: path).map ascii) = some (.leaf v) := by
    rw [List.map_cons, Doc.reach_cons, fullTree_eq, Doc.reach_node, get_section, h.reach, hLeaf]
  rw [Doc.leafAt, hReach]

theorem leafAt_liveTree (e : Clock w × BitVec w × Shctx w) (path : List Text) :
    (Doc.leafAt (some (liveTree R e)) path).map (fun _ => ()) = Doc.leafAt (some liveOutline) path := by
  rw [← leafAt_shape, liveTree, shape_live]

include hPoll hLeaves

/-- A figure that events do not carry. -/
theorem leafAt_polled (s : Section) {path : List String} {v : Value}
    (hLive : Doc.leafAt (some liveOutline) ((s.key :: path).map ascii) = none) (h : Stands (s.value R polled) path v)
    (hLeaf : tree v = .leaf v) : Doc.leafAt (some (.node d)) ((s.key :: path).map ascii) = some v := by
  have hNoEvent : (known.event.bind fun e => Doc.leafAt (some (liveTree R e)) ((s.key :: path).map ascii)) = none := by
    cases known.event with
    | none => rfl
    | some e =>
      have hShape := leafAt_liveTree (R := R) e ((s.key :: path).map ascii)
      rw [hLive] at hShape
      exact Option.map_eq_none_iff.mp hShape
  rw [hLeaves, Known.leaf, hNoEvent, hPoll, Option.none_or, Option.bind_some]
  exact leafAt_fullTree env s h hLeaf

/-- A figure that events carry. -/
theorem leafAt_latest (s : Section) (j : String) (path : List String) {v : Shctx w → Text}
    (hLive : Doc.leafAt (some liveOutline) ((s.key :: j :: path).map ascii) = some ())
    (h : ∀ sh, Stands (s.value R sh) (j :: path) (.number (v sh))) :
    Doc.leafAt (some (.node d)) ((s.key :: j :: path).map ascii) = some (.number (v (latest known polled))) := by
  rw [hLeaves, Known.leaf, hPoll, Option.bind_some]
  cases hEvent : known.event with
  | none =>
    rw [Option.bind_none, Option.none_or, leafAt_fullTree env s (h polled) (by rw [tree]), latest, hEvent]
    rfl
  | some e =>
    have hShape := leafAt_liveTree (R := R) e ((s.key :: j :: path).map ascii)
    rw [hLive] at hShape
    obtain ⟨a, hLeaf, -⟩ := Option.map_eq_some_iff.mp hShape
    have hFind : (tree (liveValue R e.1 e.2.1 e.2.2)).find ((s.key :: j :: path).map ascii) = some (.leaf a) :=
      reach_of_leafAt hLeaf
    have hDocument := find_live_document R { env with clock := e.1 } e.2.1 e.2.2 (by simp) hFind
    have hFull := reach_of_leafAt (leafAt_fullTree { env with clock := e.1 } s (h e.2.2) (by rw [tree]))
    have hSame : a = .number (v e.2.2) := by
      have hBoth := hDocument.symm.trans hFull
      simpa using hBoth
    rw [Option.bind_some, hLeaf, hSame, Option.some_or, latest, hEvent]
    rfl

theorem readSystem_figures (B : Browser ν) :
    readSystem B (some (.node d)) = systemFigures B R (latest known polled).system polled.system := by
  have hTop : (["cpu", "memory", "swap", "uptime"].map ascii).Nodup := by simp [ascii]
  have hCpu : (["usage", "cores", "load"].map ascii).Nodup := by simp [ascii]
  have hMemory : (["total", "available", "free", "used", "used_pct"].map ascii).Nodup := by simp [ascii]
  have hSwap : (["total", "free", "used_pct"].map ascii).Nodup := by simp [ascii]
  have hUsage := read_group B (a := "system") <| leafAt_latest hPoll hLeaves .system "cpu" ["usage"] rfl
    fun sh => .nth hTop 0 rfl rfl (.nth hCpu 0 rfl rfl (.here (fixed R 3 (milli sh.system.usageMilli))))
  have hCores := read_group B (a := "system") <| leafAt_latest hPoll hLeaves .system "cpu" ["cores"] rfl
    fun sh => .nth hTop 0 rfl rfl (.nth hCpu 1 rfl rfl (.here (word R sh.system.cores)))
  have hLoad := read_group B (a := "system") <| leafAt_polled hPoll hLeaves .system rfl
    (.nth hTop 0 rfl rfl (.nth hCpu 2 rfl rfl (.here _))) (by rw [tree])
  have hUsedPct := read_group B (a := "system") <| leafAt_latest hPoll hLeaves .system "memory" ["used_pct"] rfl
    fun sh => .nth hTop 1 rfl rfl (.nth hMemory 4 rfl rfl (.here (fixed R 3 (usedPct sh.system.memTotal
      sh.system.memAvailable))))
  have hTotal := read_group B (a := "system") <| leafAt_latest hPoll hLeaves .system "memory" ["total"] rfl
    fun sh => .nth hTop 1 rfl rfl (.nth hMemory 0 rfl rfl (.here (word R sh.system.memTotal)))
  have hAvailable := read_group B (a := "system") <| leafAt_latest hPoll hLeaves .system "memory" ["available"] rfl
    fun sh => .nth hTop 1 rfl rfl (.nth hMemory 1 rfl rfl (.here (word R sh.system.memAvailable)))
  have hFree := read_group B (a := "system") <| leafAt_polled hPoll hLeaves .system rfl
    (.nth hTop 1 rfl rfl (.nth hMemory 2 rfl rfl (.here (word R polled.system.memFree)))) (by rw [word, tree])
  have hUsed := read_group B (a := "system") <| leafAt_polled hPoll hLeaves .system rfl
    (.nth hTop 1 rfl rfl (.nth hMemory 3 rfl rfl (.here (fixed R 0 (memUsed polled.system))))) (by rw [fixed, tree])
  have hSwapUsed := read_optional B (a := "system") <| leafAt_polled hPoll hLeaves .system rfl
    (.nth hTop 2 rfl rfl (.nth hSwap 2 rfl rfl (.here (fixed R 3 (usedPct polled.system.swapTotal
      polled.system.swapFree))))) (by rw [fixed, tree])
  have hUptime := read_section B (a := "system") <| leafAt_polled hPoll hLeaves .system rfl
    (.nth hTop 3 rfl rfl (.here (word R polled.system.uptime))) (by rw [word, tree])
  simp only [readSystem, hUsage, hCores, hLoad, hUsedPct, hTotal, hAvailable, hFree, hUsed, hSwapUsed, hUptime]
  simp only [index, List.getElem?_cons_zero, List.getElem?_cons_succ, Option.map_some, fixed, word, tree]
  rfl

theorem readRequests_figures (B : Browser ν) :
    readRequests B (some (.node d)) = requestFigures B R (latest known polled) polled := by
  have hTop : (["total", "responses", "bytes", "requests_per_sec", "responses_per_sec", "error_rate", "latency",
      "status", "methods", "latency_histogram", "size_histogram", "top_urls", "user_agents"].map ascii).Nodup := by
    simp [ascii]
  have hLatency : (["avg", "p50", "p90", "p95", "p99"].map ascii).Nodup := by simp [ascii]
  have hStatus : (["1xx", "2xx", "3xx", "4xx", "5xx"].map ascii).Nodup := by simp [ascii]
  have hNginx : (["connections", "requests", "ssl", "keepalive", "workers"].map ascii).Nodup := by simp [ascii]
  have hRates : (["total", "responses", "requests_per_sec", "responses_per_sec"].map ascii).Nodup := by simp [ascii]
  have hPerSec := read_section B (a := "requests") <| leafAt_latest hPoll hLeaves .requests "requests_per_sec" []
    rfl fun sh => .nth hTop 3 rfl rfl (.here (fixed R 3 (milli sh.ewmaRpsMilli)))
  have hPolledPerSec := read_optional B (a := "nginx") <| leafAt_polled hPoll hLeaves .nginx rfl
    (.nth hNginx 1 rfl rfl (.nth hRates 2 rfl rfl (.here (fixed R 3 (milli polled.ewmaRpsMilli)))))
    (by rw [fixed, tree])
  have hTotal := read_section B (a := "requests") <| leafAt_latest hPoll hLeaves .requests "total" [] rfl
    fun sh => .nth hTop 0 rfl rfl (.here (word R sh.requests.total))
  have hP95 := read_group B (a := "requests") <| leafAt_latest hPoll hLeaves .requests "latency" ["p95"]
    rfl fun sh => .nth hTop 6 rfl rfl (.nth hLatency 3 rfl rfl (.here (fixed R 3 (roundedPercentile sh.requests 95))))
  have hP99 := read_group B (a := "requests") <| leafAt_latest hPoll hLeaves .requests "latency" ["p99"]
    rfl fun sh => .nth hTop 6 rfl rfl (.nth hLatency 4 rfl rfl (.here (fixed R 3 (roundedPercentile sh.requests 99))))
  have h1xx := read_group B (a := "requests") <| leafAt_polled hPoll hLeaves .requests rfl
    (.nth hTop 7 rfl rfl (.nth hStatus 0 rfl rfl (.here (word R polled.requests.status1xx)))) (by rw [word, tree])
  have h2xx := read_group B (a := "requests") <| leafAt_polled hPoll hLeaves .requests rfl
    (.nth hTop 7 rfl rfl (.nth hStatus 1 rfl rfl (.here (word R polled.requests.status2xx)))) (by rw [word, tree])
  have h3xx := read_group B (a := "requests") <| leafAt_polled hPoll hLeaves .requests rfl
    (.nth hTop 7 rfl rfl (.nth hStatus 2 rfl rfl (.here (word R polled.requests.status3xx)))) (by rw [word, tree])
  have h4xx := read_group B (a := "requests") <| leafAt_latest hPoll hLeaves .requests "status" ["4xx"]
    rfl fun sh => .nth hTop 7 rfl rfl (.nth hStatus 3 rfl rfl (.here (word R sh.requests.status4xx)))
  have h5xx := read_group B (a := "requests") <| leafAt_latest hPoll hLeaves .requests "status" ["5xx"]
    rfl fun sh => .nth hTop 7 rfl rfl (.nth hStatus 4 rfl rfl (.here (word R sh.requests.status5xx)))
  have hErrorRate := read_section B (a := "requests") <| leafAt_polled hPoll hLeaves .requests rfl
    (.nth hTop 5 rfl rfl (.here (fixed R 6 (average (polled.requests.status4xx + polled.requests.status5xx)
      polled.requests.total)))) (by rw [fixed, tree])
  simp only [readRequests, hPerSec, hPolledPerSec, hTotal, hP95, hP99, h1xx, h2xx, h3xx, h4xx, h5xx, hErrorRate]
  rfl

theorem readTables_figures (B : Browser ν) :
    readTables B (some (.node d)) = tableFigures B R (latest known polled) polled := by
  have hRequests : (["total", "responses", "bytes", "requests_per_sec", "responses_per_sec", "error_rate", "latency",
      "status", "methods", "latency_histogram", "size_histogram", "top_urls", "user_agents"].map ascii).Nodup := by
    simp [ascii]
  have hNginx : (["connections", "requests", "ssl", "keepalive", "workers"].map ascii).Nodup := by simp [ascii]
  have hNetwork : (["rx_bytes", "tx_bytes", "rx_packets", "tx_packets", "rx_errors", "tx_errors",
      "interfaces"].map ascii).Nodup := by simp [ascii]
  have hDisk : (["reads", "writes", "read_bytes", "write_bytes", "devices", "filesystems"].map ascii).Nodup := by
    simp [ascii]
  have hReceived := read_section B (a := "network") <| leafAt_latest hPoll hLeaves .network "rx_bytes" []
    rfl fun sh => .nth hNetwork 0 rfl rfl (.here (word R (sumIfaces sh IfaceMetric.rxBytes)))
  have hSent := read_section B (a := "network") <| leafAt_latest hPoll hLeaves .network "tx_bytes" []
    rfl fun sh => .nth hNetwork 1 rfl rfl (.here (word R (sumIfaces sh IfaceMetric.txBytes)))
  have hIfaces := read_section B (a := "network") <| leafAt_polled hPoll hLeaves .network rfl
    (.nth hNetwork 6 rfl rfl (.here _)) (by rw [tree])
  have hDevices := read_section B (a := "disk") <| leafAt_polled hPoll hLeaves .disk rfl
    (.nth hDisk 4 rfl rfl (.here _)) (by rw [tree])
  have hFilesystems := read_section B (a := "disk") <| leafAt_polled hPoll hLeaves .disk rfl
    (.nth hDisk 5 rfl rfl (.here _)) (by rw [tree])
  have hUrls := read_section B (a := "requests") <| leafAt_polled hPoll hLeaves .requests rfl
    (.nth hRequests 11 rfl rfl (.here (topEntriesValue R polled.urls topUrlsMax "url"))) (by rw [topEntriesValue, tree])
  have hAgents := read_section B (a := "requests") <| leafAt_polled hPoll hLeaves .requests rfl
    (.nth hRequests 12 rfl rfl (.here (topEntriesValue R polled.userAgents topUaMax "user_agent")))
    (by rw [topEntriesValue, tree])
  have hUpstreams : prop (some (.node d)) "upstreams" = some (.leaf (upstreamsValue R polled)) :=
    prop_of_leafAt <| leafAt_polled hPoll hLeaves .upstreams rfl (.here (upstreamsValue R polled))
      (by rw [upstreamsValue, tree])
  have hWorkers := read_section B (a := "nginx") <| leafAt_polled hPoll hLeaves .nginx rfl
    (.nth hNginx 4 rfl rfl (.here (workersValue R polled))) (by rw [workersValue, tree])
  simp only [readTables, hReceived, hSent, hIfaces, hDevices, hFilesystems, hUrls, hAgents, hUpstreams, hWorkers]
  rfl

end Leaves

theorem drawAll_history (B : Browser ν) (R : Vslprintf w) (sh : Shctx w) :
    drawAll B (tree (historyValue R sh)) = chartFigures B R (historySamples sh) := by
  have hNames : (["timestamp", "cpu", "memory", "swap", "rps", "responses_per_sec", "network_rx_per_sec",
      "network_tx_per_sec", "disk_read_per_sec", "disk_write_per_sec", "latency_p95", "requests_total", "status_4xx",
      "status_5xx"].map ascii).Nodup := by simp [ascii]
  have hSample : ∀ (s : HistorySample w) {k : String} {digits : Text}, Stands (sampleValue R s) [k] (.number digits) →
      prop (some (tree (sampleValue R s))) k = number digits := by
    intro s k digits h
    rw [prop, number, ← tree]
    exact h.reach
  have hCpu := fun s => hSample s (.nth hNames 1 rfl rfl (.here (fixed R 3 s.cpuUsage)))
  have hMemory := fun s => hSample s (.nth hNames 2 rfl rfl (.here (fixed R 3 s.memoryUsedPct)))
  have hRps := fun s => hSample s (.nth hNames 4 rfl rfl (.here (fixed R 3 s.requestsPerSec)))
  have hReceived := fun s => hSample s (.nth hNames 6 rfl rfl (.here (fixed R 3 s.networkRxPerSec)))
  have hSent := fun s => hSample s (.nth hNames 7 rfl rfl (.here (fixed R 3 s.networkTxPerSec)))
  have hLatency := fun s => hSample s (.nth hNames 10 rfl rfl (.here (fixed R 3 s.latencyP95)))
  have h4xx := fun s => hSample s (.nth hNames 12 rfl rfl (.here (word R s.status4xx)))
  have h5xx := fun s => hSample s (.nth hNames 13 rfl rfl (.here (word R s.status5xx)))
  have hElements : elements (some (tree (historyValue R sh))) = (historySamples sh).map (sampleValue R) := by
    rw [historyValue, tree]
    rfl
  simp only [drawAll, hElements, List.map_map, Function.comp_def, hCpu, hMemory, hRps, hReceived, hSent, hLatency, h4xx,
    h5xx]
  rfl

theorem length_chartFigures (B : Browser ν) (R : Vslprintf w) (samples : List (HistorySample w)) :
    ∀ c ∈ chartFigures B R samples, c.values.length = samples.length := by
  simp [chartFigures]

section Runs

variable {R : Vslprintf w} (hR : R.Numeric) (B : Browser ν) {heard : List (Heard w)} (hSound : ∀ x ∈ heard, x.Sound R)
include hR hSound

theorem render_run (inputs : Inputs) {env : JsonSections.Env w} {polled : Shctx w}
    (hPoll : (heard.foldl Known.note Known.start).poll = some (env, polled)) :
    render B inputs ((heard.map (Heard.input R)).foldl (receive B.isZero) Page.start) =
      some ⟨html B inputs (figures B R (latest (heard.foldl Known.note Known.start) polled) polled),
        chartFigures B R (historySamples polled)⟩ := by
  have hShows := shows_run hR B.isZero hSound
  generalize (heard.map (Heard.input R)).foldl (receive B.isZero) Page.start = page at hShows ⊢
  generalize heard.foldl Known.note Known.start = known at hShows hPoll ⊢
  have hHist : page.hist = tree (historyValue R polled) := by
    rw [hShows.hist, hPoll]
    rfl
  cases hData : page.data with
  | none =>
    -- the answer has left a time stamp
    have hStamp := hShows.leaves [ascii "timestamp"]
    have hFull : Doc.leafAt (some (fullTree R (env, polled))) [ascii "timestamp"] =
        some (.number (R.signed env.clock.sec)) := by
      rw [Doc.leafAt, reach_timestamp]
    rw [hData, Known.leaf, hPoll, Option.bind_some, hFull] at hStamp
    generalize (known.event.bind fun e => Doc.leafAt (some (liveTree R e)) [ascii "timestamp"]) = a at hStamp
    cases a <;> cases hStamp
  | some d =>
    have hLeaves : ∀ path, Doc.leafAt (some (.node d)) path = known.leaf R path := by
      intro path
      rw [← hShows.leaves, hData]
      rfl
    rw [render, hData, Option.map_some, hHist, drawAll_history, read, readSystem_figures hPoll hLeaves,
      readRequests_figures hPoll hLeaves, readTables_figures hPoll hLeaves]
    rfl

/-- Once a full answer has come in, whatever else the page has heard, its cards
and tables show the figures of the last event or the last answer, and its charts
the samples of the last answer. -/
theorem page_renders (inputs : Inputs) {env : JsonSections.Env w} {polled : Shctx w}
    (hPoll : (heard.foldl Known.note Known.start).poll = some (env, polled)) :
    render B inputs ((heard.map (Heard.input R)).foldl (receive B.isZero) Page.start) =
      some ⟨html B inputs (figures B R (latest (heard.foldl Known.note Known.start) polled) polled),
        chartFigures B R (historySamples polled)⟩ :=
  render_run hR B hSound inputs hPoll

end Runs

/-- Whole numbers, and the integer part of what is printed. -/
def wholeBrowser : Browser (Option Int) where
  toEngine := DashboardTables.wholeNumbers
  add x y := x.bind fun a => y.map fun b => a + b
  mul x y := x.bind fun a => y.map fun b => a * b
  literal digits := some (Library.Scanf.digitsValue (digits.takeWhile Library.Scanf.isDigit))
  decode body := body.map fun c => UInt16.ofNat c.toNat
  primitive _ := units "[object Object]"

/-- The page shows the event behind the answer. -/
theorem page_renders_broken_stream :
    render wholeBrowser (fun _ => none) ((brokenStream.map (Heard.input acceptingCore.vslprintf)).foldl
        (receive wholeBrowser.isZero) Page.start) =
      some ⟨html wholeBrowser (fun _ => none) (figures wholeBrowser acceptingCore.vslprintf laterZone twoPeers),
        chartFigures wholeBrowser acceptingCore.vslprintf (historySamples twoPeers)⟩ := by
  have hSound : ∀ x ∈ brokenStream, x.Sound acceptingCore.vslprintf := by
    simp only [brokenStream, List.forall_mem_cons, List.not_mem_nil, false_imp_iff, implies_true, and_true]
    exact ⟨trivial, ⟨ReadAnswers.clean_twoPeers, written_twoPeers⟩, trivial, trivial⟩
  exact page_renders JsonSize.numeric_decimals wholeBrowser hSound (fun _ => none) rfl

end HttpMonitoring.PageRender
