import HttpMonitoring.Exchange
import HttpMonitoring.JsonSections

/-!
# Live streams

`send_sse` with the first event that it writes, the timer that writes the later
ones with the same writer, and the cleanup at the end of the request.
-/

namespace HttpMonitoring.LiveStream

open Nginx Accounting History JsonWriter JsonSections Exchange Library.Transcript

variable {w : Nat}

/-- The size of each of the two buffers of a stream. -/
def sseBuffer : Nat := 16384

/-- The fields of an `ngx_buf_t` that the writer sets: `pos` is the start of the
array `data`, and `last` is `size` bytes behind it. -/
structure SseBuf where
  data : Nat
  size : Nat
  memory : Bool
  flush : Bool
deriving DecidableEq

structure SseChain where
  buf : Nat
  next : Option Nat
deriving DecidableEq

structure SseClient (w : Nat) where
  interval : BitVec w
  timerSet : Bool
  closed : Bool
  sequence : BitVec w
  slot : Nat
  data : Nat → Bytes
  bufs : Nat → Option SseBuf
  chains : Nat → Option SseChain

/-- The core's `ngx_slprintf`: what does not fit in front of `size` is cut off. -/
def slprintf (R : Vslprintf w) (size : Nat) (pieces : List (Piece w)) (p : Bytes) : Bytes :=
  (p ++ R.format pieces).take size

def heartbeat (sequence : BitVec w) : List (Piece w) :=
  [.lit "retry: 3000\n: heartbeat ", .ui sequence, .lit "\n"]

def sseSumNet (sh : Shctx w) (tx : Bool) : BitVec w := sumNetwork sh tx

def sseSumDisk (sh : Shctx w) (write : Bool) : BitVec w := sumDisk sh write

def ssePayload (clock : Clock w) (sequence : BitVec w) (sh : Shctx w) : List (Piece w) :=
  let m := sh.system
  let c := sh.connections
  [.lit "id: ", .ui sequence, .lit "\n", .lit "event: metrics\n",
    .lit "data: \x7b\"version\":", .d version, .lit ",\"timestamp\":", .T clock.sec,
    .lit ",\"sequence\":", .ui sequence,
    .lit ",\"system\":\x7b\"cpu\":\x7b\"usage\":", .f 3 (milli m.usageMilli),
    .lit ",\"cores\":", .uA m.cores,
    .lit "\x7d,\"memory\":\x7b\"used_pct\":", .f 3 (usedPct m.memTotal m.memAvailable),
    .lit ",\"total\":", .uA m.memTotal, .lit ",\"available\":", .uA m.memAvailable,
    .lit "\x7d\x7d,\"requests\":\x7b\"total\":", .uA sh.requests.total,
    .lit ",\"requests_per_sec\":", .f 3 (milli sh.ewmaRpsMilli),
    .lit ",\"responses_per_sec\":", .f 3 (milli sh.ewmaRespMilli),
    .lit ",\"latency\":\x7b\"p95\":", .f 3 (roundedPercentile sh.requests 95),
    .lit ",\"p99\":", .f 3 (roundedPercentile sh.requests 99),
    .lit "\x7d,\"status\":\x7b\"4xx\":", .uA sh.requests.status4xx,
    .lit ",\"5xx\":", .uA sh.requests.status5xx,
    .lit "\x7d\x7d,\"connections\":\x7b\"active\":", .uA c.active, .lit ",\"reading\":", .uA c.reading,
    .lit ",\"writing\":", .uA c.writing, .lit ",\"waiting\":", .uA c.waiting,
    .lit ",\"sse_clients\":", .uA c.sseClients,
    .lit ",\"keepalive_requests\":", .uA c.keepaliveRequests,
    .lit "\x7d,\"network\":\x7b\"rx_bytes\":", .uA (sseSumNet sh false),
    .lit ",\"tx_bytes\":", .uA (sseSumNet sh true),
    .lit "\x7d,\"disk\":\x7b\"read_bytes\":", .uA (sseSumDisk sh false),
    .lit ",\"write_bytes\":", .uA (sseSumDisk sh true), .lit "\x7d\x7d\n\n"]

def sseText (R : Vslprintf w) (clock : Clock w) (sequence : BitVec w) (sh : Shctx w) : Bytes :=
  slprintf R sseBuffer (ssePayload clock sequence sh) (slprintf R sseBuffer (heartbeat sequence) [])

def countEvent (sh : Shctx w) : Shctx w :=
  onConnections (fun c => { c with sseEvents := c.sseEvents + 1 }) sh

def countClient (sh : Shctx w) : Shctx w :=
  onConnections (fun c => { c with sseClients := c.sseClients + 1 }) sh

def sseWrite (core : Core w) (client : SseClient w) (s : State w) : Rc × SseClient w × State w :=
  match s.getShctx with
  | none => (rcError, client, s)
  | some sh =>
    let slot := client.slot ^^^ 1
    let p := sseText core.vslprintf core.clock client.sequence sh
    let client := { client with slot := slot, data := Function.update client.data slot p }
    -- a full buffer counts as an event that was cut off
    if p.length = sseBuffer then (rcError, client, s)
    else
      let client := { client with
        bufs := Function.update client.bufs slot (some ⟨slot, p.length, true, true⟩)
        chains := Function.update client.chains slot (some ⟨slot, none⟩) }
      let (rc, t) := s.outputFilter core p
      if rc = rcError then (rcError, client, t)
      else (rcOk, { client with sequence := client.sequence + 1 }, t.putShctx (countEvent sh))

/-- The record after `ngx_pcalloc` and the stores behind it. -/
def openedClient (conf : MainConf w) : SseClient w where
  interval := if conf.refreshInterval.toNat < 1000 then BitVec.ofNat w 1000 else conf.refreshInterval
  timerSet := false
  closed := false
  sequence := 0
  slot := 0
  data := fun _ => []
  bufs := fun _ => none
  chains := fun _ => none

/-- `send_sse` from `ngx_pcalloc` on. -/
def openSse (core : Core w) (conf : MainConf w) (sh : Shctx w) (s : State w) : Rc × State w :=
  if !core.alloc .sseClient then (httpInternalServerError, s)
  else if !core.alloc .sseCleanup then (httpInternalServerError, s)
  else
    let s := ((s.log .addCleanup).putShctx (countClient sh)).log .retain
    let (rc, client, s) := sseWrite core (openedClient conf) s
    if rc = rcError then (rcDone, s.log (.finalize rcError))
    else (rcDone, s.log (.addTimer client.interval.toNat))

def sseHead (core : Core w) (s : State w) : State w :=
  let s := s.withHead httpOk (-1) (ascii "text/event-stream")
  let s := s.addHeader core "Cache-Control" (ascii "no-store")
  let s := s.addHeader core "X-Accel-Buffering" (ascii "no")
  s.addHeader core "Connection" (ascii "keep-alive")

def sendSse (core : Core w) (s : State w) : Rc × State w :=
  let s := s.log (.send .sse)
  match s.mmcf, s.getShctx with
  | some mmcf, some sh =>
    let (rc, s) := (sseHead core (s.log .discardBody)).sendHeader core
    if rc = rcError ∨ rcOk < rc ∨ s.response.headerOnly then (rc, s) else openSse core mmcf.conf sh s
  | _, _ => (httpServiceUnavailable, s)

def addTimer (client : SseClient w) (s : State w) : SseClient w × State w :=
  ({ client with timerSet := true }, s.log (.addTimer client.interval.toNat))

/-- A write and the decision behind it: the request ends, or the timer is set. -/
def sseAdvance (core : Core w) (client : SseClient w) (s : State w) : SseClient w × State w :=
  let (rc, client, s) := sseWrite core client s
  if rc = rcError then (client, s.log (.finalize rcError)) else addTimer client s

/-- `connectionError` and `buffered` are the flags of the connection. -/
def sseTimer (core : Core w) (connectionError buffered : Bool) (client : SseClient w) (s : State w) :
    SseClient w × State w :=
  if client.closed || connectionError then (client, s.log (.finalize rcError))
  else if buffered then addTimer client s
  else sseAdvance core client s

/-- `sse_cleanup` up to its access to the zone; `none` when it has run before. -/
def sseClose (client : SseClient w) : Option (SseClient w) :=
  if client.closed then none else some { client with closed := true, timerSet := false }

/-- The test before the subtraction in `sse_cleanup`. -/
def countsClients (sh : Shctx w) : Bool := 0 < sh.connections.sseClients.toNat

def uncountClient (sh : Shctx w) : Shctx w :=
  onConnections (fun c => { c with sseClients := c.sseClients - 1 }) sh

/-- The zone as other workers have left it; a pointer that is not set stays so. -/
def seeZone (sh : Shctx w) (s : State w) : State w :=
  { s with mmcf := s.mmcf.map fun m => { m with sh := m.sh.map fun _ => sh } }

/-- `send_sse` up to the registration of the cleanup: an answer, or the
configuration with which the stream goes on. -/
def admitSse (core : Core w) (s : State w) : Except (Rc × State w) (MainConf w × State w) :=
  let s := s.log (.send .sse)
  match s.mmcf, s.getShctx with
  | some mmcf, some _ =>
    let (rc, s) := (sseHead core (s.log .discardBody)).sendHeader core
    if rc = rcError ∨ rcOk < rc ∨ s.response.headerOnly then .error (rc, s)
    else if !core.alloc .sseClient then .error (httpInternalServerError, s)
    else if !core.alloc .sseCleanup then .error (httpInternalServerError, s)
    else .ok (mmcf.conf, s.log .addCleanup)
  | _, _ => .error (httpServiceUnavailable, s)

/-- `send_sse` behind the count. -/
def startSse (core : Core w) (conf : MainConf w) (s : State w) : SseClient w × State w :=
  sseAdvance core (openedClient conf) (s.log .retain)

theorem startSse_snd (core : Core w) (conf : MainConf w) (s : State w) :
    (startSse core conf s).2 =
      let (rc, client, s) := sseWrite core (openedClient conf) (s.log .retain)
      if rc = rcError then s.log (.finalize rcError) else s.log (.addTimer client.interval.toNat) := by
  rw [startSse, sseAdvance]
  dsimp only
  split <;> rfl

theorem sendSse_eq (core : Core w) (s : State w) {sh : Shctx w} (hZone : s.getShctx = some sh) :
    sendSse core s = match admitSse core s with
      | .error answer => answer
      | .ok (conf, t) => (rcDone, (startSse core conf (t.putShctx (countClient sh))).2) := by
  obtain ⟨main, hMain, hSh⟩ := Option.bind_eq_some_iff.mp hZone
  have hPointer : (s.log (.send .sse)).mmcf = some main := hMain
  have hShared : (s.log (.send .sse)).getShctx = some sh := hZone
  rw [sendSse, admitSse]
  simp only [hPointer, hShared]
  split
  · rfl
  · rw [openSse]
    split
    · rfl
    · split
      · rfl
      · simp only [startSse_snd]
        split <;> rfl

theorem continues_sseWrite (core : Core w) (client : SseClient w) (s : State w) :
    Continues Outward s.trace (sseWrite core client s).2.2.trace := by
  rw [sseWrite]
  split
  · exact .refl _ _
  · dsimp only
    split
    · exact .refl _ _
    · split
      · exact .one _ (outward_outputFilter _)
      · exact .one _ (outward_outputFilter _)

theorem settled_openSse (core : Core w) (conf : MainConf w) (sh : Shctx w) (s : State w) :
    Settled core s.trace (openSse core conf sh s) := by
  have hFailed : (httpInternalServerError : Rc) ≠ rcDeclined := by decide
  have hDone : rcDone ≠ rcDeclined := by decide
  rw [openSse]
  split
  · exact settled_answer rfl hFailed
  · split
    · exact settled_answer rfl hFailed
    · have hWrite := continues_sseWrite core (openedClient conf)
        (((s.log .addCleanup).putShctx (countClient sh)).log .retain)
      have hOpen : Continues Outward s.trace
          (((s.log .addCleanup).putShctx (countClient sh)).log .retain).trace :=
        (Continues.one s.trace ⟨nofun, rfl⟩).trans (.one _ ⟨nofun, rfl⟩)
      dsimp only
      split
      · exact ⟨(hOpen.trans hWrite).trans (.one _ ⟨nofun, rfl⟩), fun _ => hDone⟩
      · exact ⟨(hOpen.trans hWrite).trans (.one _ ⟨nofun, rfl⟩), fun _ => hDone⟩

@[simp] theorem trace_sseHead (core : Core w) (s : State w) : (sseHead core s).trace = s.trace := by
  simp [sseHead]

theorem settled_sendSse (core : Core w) (s : State w) :
    Settled core (s.trace ++ [.send .sse]) (sendSse core s) := by
  rw [sendSse]
  dsimp only
  split
  · rename_i conf sh _ _
    have hHead : Settled core (s.trace ++ [.send .sse])
        ((sseHead core ((s.log (.send .sse)).log .discardBody)).sendHeader core) :=
      (settled_sendHeader (by simp)).after outward_discardBody
    split
    · exact hHead
    · have hOpen := settled_openSse core conf.conf sh
        ((sseHead core ((s.log (.send .sse)).log .discardBody)).sendHeader core).2
      exact ⟨hHead.continues.trans hOpen.continues, hOpen.rc⟩
  · have hUnavailable : (httpServiceUnavailable : Rc) ≠ rcDeclined := by decide
    exact settled_answer (trace_log s _) hUnavailable

end HttpMonitoring.LiveStream
