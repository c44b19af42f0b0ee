import HttpMonitoring.Library.JsonParser
import HttpMonitoring.JsonAnswers
import HttpMonitoring.LiveStream

/-!
# The data of a live event as a JSON value

What `sse_payload` puts behind `data:` is the text of one object. Every field
of it but the sequence number stands at the same place in the full document of
the same zone.
-/

namespace HttpMonitoring.LiveDocument

open Library.JsonText Library.JsonParser Accounting History JsonWriter JsonNames JsonSections JsonDocument
  JsonAnswers LiveStream

variable {w : Nat}

section Value

variable (R : Vslprintf w) (clock : Clock w) (sequence : BitVec w) (sh : Shctx w)

def liveSystem : Value :=
  let m := sh.system
  fields ["cpu", "memory"]
    [fields ["usage", "cores"] [fixed R 3 (milli m.usageMilli), word R m.cores],
    fields ["used_pct", "total", "available"] [fixed R 3 (usedPct m.memTotal m.memAvailable),
      word R m.memTotal, word R m.memAvailable]]

def liveRequests : Value :=
  fields ["total", "requests_per_sec", "responses_per_sec", "latency", "status"]
    [word R sh.requests.total, fixed R 3 (milli sh.ewmaRpsMilli), fixed R 3 (milli sh.ewmaRespMilli),
    fields ["p95", "p99"] [fixed R 3 (roundedPercentile sh.requests 95), fixed R 3 (roundedPercentile sh.requests 99)],
    fields ["4xx", "5xx"] [word R sh.requests.status4xx, word R sh.requests.status5xx]]

def liveConnections : Value :=
  let c := sh.connections
  fields ["active", "reading", "writing", "waiting", "sse_clients", "keepalive_requests"]
    [word R c.active, word R c.reading, word R c.writing, word R c.waiting, word R c.sseClients,
    word R c.keepaliveRequests]

def liveNetwork : Value :=
  fields ["rx_bytes", "tx_bytes"] [word R (sseSumNet sh false), word R (sseSumNet sh true)]

def liveDisk : Value :=
  fields ["read_bytes", "write_bytes"] [word R (sseSumDisk sh false), word R (sseSumDisk sh true)]

def liveValue : Value :=
  fields ["version", "timestamp", "sequence", "system", "requests", "connections", "network", "disk"]
    [.number (R.signed version), .number (R.signed clock.sec), word R sequence, liveSystem R sh,
    liveRequests R sh, liveConnections R sh, liveNetwork R sh, liveDisk R sh]

/-- The lines of one event in front of its data, without their ends. -/
def liveLines : List Bytes :=
  [ascii "retry: 3000", ascii ": heartbeat " ++ R.unsigned sequence, ascii "id: " ++ R.unsigned sequence,
    ascii "event: metrics"]

set_option maxRecDepth 4000 in
/-- An event is its lines, the text of its data, and an empty line. -/
theorem format_event : R.format (heartbeat sequence ++ ssePayload clock sequence sh) =
    (liveLines R sequence).flatMap (fun line => line ++ [10]) ++
      (ascii "data: " ++ (liveValue R clock sequence sh).text ++ [10, 10]) := by
  simp [heartbeat, ssePayload, liveLines, liveValue, liveSystem, liveRequests, liveConnections, liveNetwork,
    liveDisk, memberText, quoted, comma, ascii]

end Value

section WellFormed

variable {R : Vslprintf w} (hR : R.Numeric)
include hR

theorem wellFormed_live (clock : Clock w) (sequence : BitVec w) (sh : Shctx w) :
    WellFormed (liveValue R clock sequence sh) := by
  have hWord := wellFormed_word hR
  have hFixed := wellFormed_fixed hR
  have hSigned := wellFormed_signed hR
  refine wellFormed_fields (by simp [KeysOk, ascii]) ?_
  simp only [List.forall_mem_cons, List.not_mem_nil, false_imp_iff, implies_true, and_true]
  refine ⟨hSigned _, hSigned _, hWord _, wellFormed_fields (by simp [KeysOk, ascii]) ?_,
    wellFormed_fields (by simp [KeysOk, ascii]) ?_, wellFormed_fields (by simp [KeysOk, ascii]) ?_,
    wellFormed_fields (by simp [KeysOk, ascii]) ?_, wellFormed_fields (by simp [KeysOk, ascii]) ?_⟩
  · have hCpu : WellFormed (fields ["usage", "cores"]
        [fixed R 3 (milli sh.system.usageMilli), word R sh.system.cores]) :=
      wellFormed_fields (by simp [KeysOk, ascii]) (by simp [hWord, hFixed])
    have hMemory : WellFormed (fields ["used_pct", "total", "available"]
        [fixed R 3 (usedPct sh.system.memTotal sh.system.memAvailable), word R sh.system.memTotal,
        word R sh.system.memAvailable]) :=
      wellFormed_fields (by simp [KeysOk, ascii]) (by simp [hWord, hFixed])
    simp [hCpu, hMemory]
  · have hLatency : WellFormed (fields ["p95", "p99"] [fixed R 3 (roundedPercentile sh.requests 95),
        fixed R 3 (roundedPercentile sh.requests 99)]) :=
      wellFormed_fields (by simp [KeysOk, ascii]) (by simp [hFixed])
    have hStatus : WellFormed (fields ["4xx", "5xx"] [word R sh.requests.status4xx, word R sh.requests.status5xx]) :=
      wellFormed_fields (by simp [KeysOk, ascii]) (by simp [hWord])
    simp [hWord, hFixed, hLatency, hStatus]
  all_goals simp [hWord]

theorem parse_live (clock : Clock w) (sequence : BitVec w) (sh : Shctx w) :
    parse (liveValue R clock sequence sh).text = some (liveValue R clock sequence sh) := by
  have hParse := parse_text (wellFormed_live hR clock sequence sh) (List.forall_mem_nil _)
  rwa [List.append_nil] at hParse

end WellFormed

end HttpMonitoring.LiveDocument
