import HttpMonitoring.Access
import HttpMonitoring.JsonSize
import HttpMonitoring.Senders

/-!
# The two phase handlers

`content_handler` answers the monitoring endpoints; `log_handler` accounts the
other requests. Both ask `match_endpoint`, but only the first looks at the
configuration of the location.
-/

namespace HttpMonitoring.Handlers

open Nginx Library.CString Library.Transcript Accounting Exchange Access LiveStream Senders

variable {w : Nat}

def endpointUris : List (String × Endpoint) := [
  ("/monitor", .dashboard), ("/monitor/", .dashboard), ("/monitor/live", .live),
  ("/monitor/metrics", .prometheus), ("/monitor/health", .health), ("/monitor/api", .apiFull),
  ("/monitor/api/system", .apiSystem), ("/monitor/api/nginx", .apiNginx),
  ("/monitor/api/network", .apiNetwork), ("/monitor/api/disk", .apiDisk),
  ("/monitor/api/processes", .apiProcesses), ("/monitor/api/upstreams", .apiUpstreams),
  ("/monitor/api/connections", .apiConnections), ("/monitor/api/requests", .apiRequests)]

/-- Each test of `match_endpoint`. -/
def uriIs (u name : Bytes) : Bool := u.length = name.length ∧ strncmpEq u.length u name

def matchEndpoint (u : Bytes) : Endpoint :=
  match endpointUris.find? fun p => uriIs u (ascii p.1) with
  | some p => p.2
  | none => .none

section Content

variable (core : Core w) (html : Bytes) (r : HttpRequest w) (mlcf : LocConf w)

def addCors (s : State w) : State w :=
  let s := s.log .addCors
  if isOff mlcf.cors then s
  else
    match s.pushHeader core "Access-Control-Allow-Origin" mlcf.cors with
    | none => s
    | some s =>
      match s.pushHeader core "Access-Control-Allow-Methods" (ascii "GET, HEAD, OPTIONS") with
      | none => s
      | some s => s.addHeader core "Access-Control-Allow-Headers"
          (ascii "Authorization, X-Monitor-Token, Content-Type")

def preflight (s : State w) : Rc × State w :=
  let s := addCors core mlcf s
  State.sendHeader { s with response := { s.response with
    status := httpNoContent, contentLength := 0, headerOnly := true } } core

def plainResponse (status : Nat) (body : Bytes) (s : State w) : Rc × State w :=
  let s := (s.log .discardBody).withHead status body.length (ascii "text/plain")
  if r.method = httpHead then s.onlyHeader.sendHeader core
  else if !core.alloc .plainBuffer then (httpInternalServerError, s)
  else (s.sendHeader core).2.outputFilter core body

def authorize (endpoint : Endpoint) (s : State w) : Rc × State w :=
  if matchAccess r mlcf ≠ rcOk then plainResponse core r httpForbidden (ascii "forbidden\n") s
  else if checkBasicAuth core r mlcf ≠ rcOk then
    match s.pushHeader core "WWW-Authenticate" (ascii "Basic realm=\"nginx monitoring\"") with
    | none => (httpInternalServerError, s)
    | some s => plainResponse core r httpUnauthorized (ascii "unauthorized\n") s
  else if endpoint ≠ .dashboard ∧ checkApiToken core r mlcf ≠ rcOk then
    plainResponse core r httpUnauthorized (ascii "unauthorized\n") s
  else
    let (rc, s) := checkRateLimit core mlcf s
    if rc ≠ rcOk then plainResponse core r httpTooManyRequests (ascii "rate limited\n") s
    else (rcOk, s)

/-- The switch at the end of `content_handler`. -/
def sendEndpoint (endpoint : Endpoint) (s : State w) : Rc × State w :=
  match endpoint with
  | .dashboard => sendDashboard core r html s
  | .live => sendSse core s
  | .prometheus => sendPrometheus core r s
  | .health => sendHealth core r s
  | endpoint => sendJson core r endpoint s

/-- The three tests that answer `NGX_HTTP_NOT_FOUND`. -/
def switchedOff (endpoint : Endpoint) : Bool :=
  endpoint = .dashboard ∧ !mlcf.dashboard
    ∨ (Endpoint.apiFull.code ≤ endpoint.code ∧ endpoint.code ≤ Endpoint.apiRequests.code) ∧ !mlcf.api
    ∨ endpoint = .live ∧ !mlcf.sse

/-- `content_handler` from `authorize` on. -/
def serve (endpoint : Endpoint) (s : State w) : Rc × State w :=
  let (rc, s) := authorize core r mlcf endpoint s
  if rc ≠ rcOk then (rc, s) else sendEndpoint core html r endpoint (addCors core mlcf s)

def contentHandler (mlcf : Option (LocConf w)) (s : State w) : Rc × State w :=
  let endpoint := matchEndpoint r.uri
  if endpoint = .none then (rcDeclined, s)
  else
    match mlcf with
    | none => (rcDeclined, s)
    | some mlcf =>
      if !mlcf.enabled then (rcDeclined, s)
      else if r.method = httpOptions then preflight core mlcf s
      else if !hasMethod r.method (httpGet ||| httpHead) then (httpNotAllowed, s)
      else if switchedOff mlcf endpoint then (httpNotFound, s)
      else serve core html r mlcf endpoint s

end Content

def finishedRequest (r : HttpRequest w) (response : Response) : Accounting.Request w where
  startSec := r.startSec
  startMsec := r.startMsec
  status := response.status
  contentLength := response.contentLength
  method := r.method
  ssl := r.ssl
  connectionRequests := r.connectionRequests
  uri := r.uri
  userAgent := r.userAgent
  upstreamStates := r.upstreamStates

def logHandler (core : Core w) (r : HttpRequest w) (s : State w) : Rc × State w :=
  match s.mmcf, s.getShctx with
  | some mmcf, some sh =>
    if !mmcf.conf.accessLog then (rcOk, s)
    else if matchEndpoint r.uri ≠ .none then (rcOk, s)
    else
      let call : Call w := ⟨finishedRequest r s.response, core.clock, core.worker⟩
      (rcOk, (s.log .accountRequest).putShctx
        (accountRequest core.crc32 mmcf.conf mmcf.shpool call sh))
  | _, _ => (rcOk, s)

section Handover

variable {core : Core w} {html : Bytes} {r : HttpRequest w} {mlcf : LocConf w}

@[simp] theorem trace_addCors (s : State w) : (addCors core mlcf s).trace = s.trace ++ [.addCors] := by
  rw [addCors]
  split
  · rfl
  · split
    · rfl
    · rename_i hOrigin
      split
      · rw [trace_pushHeader hOrigin, trace_log]
      · rename_i hMethods
        rw [trace_addHeader, trace_pushHeader hMethods, trace_pushHeader hOrigin, trace_log]

theorem settled_plainResponse {s : State w} {t : List Event} (h : s.trace = t) (status : Nat) (body : Bytes) :
    Settled core t (plainResponse core r status body s) := by
  refine Settled.after ?_ outward_discardBody
  rw [plainResponse]
  split
  · exact settled_sendHeader (by simp [h])
  · split
    · exact settled_answer (by simp [h]) (by decide)
    · exact settled_deliver (by simp [h]) body

theorem settled_authorize (endpoint : Endpoint) (s : State w) :
    Settled core s.trace (authorize core r mlcf endpoint s) := by
  have hLimit := (checkRateLimit_spec core mlcf s).2.1
  rw [authorize]
  split
  · exact settled_plainResponse rfl _ _
  · split
    · split
      · exact settled_answer rfl (by decide)
      · rename_i hPush
        exact settled_plainResponse (trace_pushHeader hPush) _ _
    · split
      · exact settled_plainResponse rfl _ _
      · dsimp only
        split
        · exact settled_plainResponse hLimit _ _
        · exact settled_answer hLimit (by decide)

def ownSender : Endpoint → Sender
  | .dashboard => .dashboard
  | .live => .sse
  | .prometheus => .prometheus
  | .health => .health
  | endpoint => .json endpoint

theorem settled_sendEndpoint (endpoint : Endpoint) (s : State w) :
    Settled core (s.trace ++ [.send (ownSender endpoint)]) (sendEndpoint core html r endpoint s) := by
  cases endpoint with
  | dashboard => exact settled_sendDashboard html s
  | live => exact settled_sendSse core s
  | _ => exact settled_sendDocument _ _ _ _ s

theorem serve_ne_declined (hCore : core.NeverDeclines) (endpoint : Endpoint) (s : State w) :
    (serve core html r mlcf endpoint s).1 ≠ rcDeclined := by
  rw [serve]
  dsimp only
  split
  · exact (settled_authorize endpoint s).rc hCore
  · exact (settled_sendEndpoint endpoint _).rc hCore

theorem preflight_ne_declined (hCore : core.NeverDeclines) (s : State w) :
    (preflight core mlcf s).1 ≠ rcDeclined := (hCore _).1

theorem contentHandler_declines_iff (hCore : core.NeverDeclines) (s : State w) :
    (contentHandler core html r (some mlcf) s).1 = rcDeclined ↔
      matchEndpoint r.uri = .none ∨ mlcf.enabled = false := by
  rw [contentHandler]
  split
  · rename_i hEndpoint
    exact iff_of_true rfl (Or.inl hEndpoint)
  · rename_i hEndpoint
    split
    · rename_i hDisabled
      exact iff_of_true rfl (Or.inr (by simpa using hDisabled))
    · rename_i hEnabled
      have hNeither : ¬ (matchEndpoint r.uri = .none ∨ mlcf.enabled = false) :=
        not_or.mpr ⟨hEndpoint, fun hOff => hEnabled (by rw [hOff]; rfl)⟩
      refine iff_of_false ?_ hNeither
      split
      · exact preflight_ne_declined hCore s
      · split
        · exact (by decide : httpNotAllowed ≠ rcDeclined)
        · split
          · exact (by decide : httpNotFound ≠ rcDeclined)
          · exact serve_ne_declined hCore _ s

theorem logHandler_accounts_iff {main : Main w} {sh : Shctx w} (hZone : main.sh = some sh)
    (hLog : main.conf.accessLog = true) (response : Response) :
    .accountRequest ∈ (logHandler core r ⟨response, [], some main⟩).2.trace ↔
      matchEndpoint r.uri = .none := by
  have hShctx : State.getShctx ⟨response, [], some main⟩ = some sh := hZone
  simp only [logHandler, hShctx, hLog, Bool.not_true, Bool.false_eq_true, if_false]
  split
  · rename_i hUri
    simp [hUri]
  · rename_i hUri
    simpa using hUri

/-- Accounting and declining agree exactly when the location of a monitoring
endpoint has the module switched on. -/
theorem phases_agree_iff {core' : Core w} {r' : HttpRequest w} (hCore : core.NeverDeclines)
    (hUri : r'.uri = r.uri) {main : Main w} {sh : Shctx w} (hZone : main.sh = some sh)
    (hLog : main.conf.accessLog = true) (response : Response) (s : State w) :
    (.accountRequest ∈ (logHandler core' r' ⟨response, [], some main⟩).2.trace ↔
        (contentHandler core html r (some mlcf) s).1 = rcDeclined) ↔
      (matchEndpoint r.uri = .none ∨ mlcf.enabled = true) := by
  rw [logHandler_accounts_iff hZone hLog, contentHandler_declines_iff hCore, hUri]
  cases hEnabled : mlcf.enabled with
  | false => simp
  | true => simp

end Handover

/-- A core that grants all memory and accepts all output. -/
def acceptingCore : Core 64 where
  clock := ⟨1, 0⟩
  worker := ⟨0, 1⟩
  crc32 := fun _ => 0
  vslprintf := JsonSize.decimals
  decodeBase64 := fun _ => none
  arg := fun _ _ => none
  alloc := fun _ => true
  sendHeader := fun _ => ⟨rcOk, false⟩
  outputFilter := fun _ => rcOk

theorem acceptingCore_neverDeclines : acceptingCore.NeverDeclines :=
  fun _ => ⟨(by decide : rcOk ≠ rcDeclined), (by decide : rcOk ≠ rcDeclined)⟩

def getRequest (uri : Bytes) : HttpRequest 64 where
  method := httpGet
  uri := uri
  args := []
  headers := ⟨[], []⟩
  authorization := none
  userAgent := none
  sockaddr := .inet 0x7f000001#32
  startSec := 1
  startMsec := 0
  ssl := false
  connectionRequests := 1
  upstreamStates := []

/-- The values that `merge_loc_conf` gives to directives that are not set. -/
def defaultLocConf : LocConf 64 := ⟨false, true, true, true, [], [], [], 60, none⟩

def defaultMain : Main 64 :=
  let conf := Zone.withDefaults Zone.createMainConf
  ⟨conf, some (Zone.freshZone conf), true⟩

def freshState : State 64 := ⟨⟨0, -1, [], [], false⟩, [], some defaultMain⟩

theorem disabled_location_declined_unaccounted :
    (contentHandler acceptingCore [] (getRequest (ascii "/monitor")) (some defaultLocConf) freshState).1 =
        rcDeclined ∧
      .accountRequest ∉ (logHandler acceptingCore (getRequest (ascii "/monitor")) freshState).2.trace :=
  ⟨by decide, by decide⟩

theorem phases_agree_iff_enabled :
    (.accountRequest ∈ (logHandler acceptingCore (getRequest (ascii "/monitor")) freshState).2.trace ↔
        (contentHandler acceptingCore [] (getRequest (ascii "/monitor"))
          (some { defaultLocConf with enabled := true }) freshState).1 = rcDeclined) ↔
      (matchEndpoint (ascii "/monitor") = .none ∨ true = true) :=
  phases_agree_iff acceptingCore_neverDeclines rfl rfl rfl _ _

end HttpMonitoring.Handlers
