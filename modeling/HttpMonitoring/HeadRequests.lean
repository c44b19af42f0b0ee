import HttpMonitoring.Handlers
import HttpMonitoring.LiveStreamEvents

/-!
# HEAD requests

A HEAD request gets the header of the GET request for the same resource and no
body, when the core has memory for what only the body of the other needs and
takes all that it is handed.
-/

namespace HttpMonitoring.HeadRequests

open Nginx Exchange Access Senders Handlers LiveStreamEvents

variable {w : Nat}

/-- A response as the client sees it: whether a body follows is not in it. -/
def head (response : Response) : Response := { response with headerOnly := false }

def head? : Event → Option Response
  | .sendHeader response => some (head response)
  | _ => none

/-- The headers that have been handed over, in order. -/
def heads (s : State w) : List Response := s.trace.filterMap head?

structure Takes (core : Core w) : Prop where
  header : ∀ trace, (core.sendHeader trace).rc = rcOk
  body : ∀ trace, core.outputFilter trace = rcOk
  plainBuffer : core.alloc .plainBuffer = true
  dashboardBuffer : core.alloc .dashboardBuffer = true

/-- The states of a GET and of a HEAD request that has handed over `bodies`. -/
structure Alike (bodies : List Bytes) (get other : State w) : Prop where
  response : head other.response = head get.response
  heads : heads other = heads get
  mmcf : other.mmcf = get.mmcf
  silent : handedOver other = bodies

namespace Alike

variable {bodies : List Bytes} {get other : State w} (core : Core w)

theorem log (h : Alike bodies get other) {e : Event} (hBody : body? e = none) :
    Alike bodies (get.log e) (other.log e) where
  response := h.response
  heads := by
    have hHeads := h.heads
    simp only [HeadRequests.heads] at hHeads
    simp only [HeadRequests.heads, trace_log, List.filterMap_append, hHeads]
  mmcf := h.mmcf
  silent := by
    have hSilent := h.silent
    simp only [handedOver] at hSilent
    simp [handedOver, hSilent, hBody]

theorem withHead (h : Alike bodies get other) (status : Nat) (n : Int) (type : Bytes) :
    Alike bodies (get.withHead status n type) (other.withHead status n type) where
  response := by
    have hResponse := h.response
    simp only [head, Response.mk.injEq] at hResponse
    simp [head, State.withHead, hResponse]
  heads := h.heads
  mmcf := h.mmcf
  silent := h.silent

theorem pushHeader (h : Alike bodies get other) (key : String) (value : Bytes) :
    get.pushHeader core key value = none ∧ other.pushHeader core key value = none ∨
      ∃ get' other', get.pushHeader core key value = some get' ∧ other.pushHeader core key value = some other' ∧
        Alike bodies get' other' := by
  simp only [State.pushHeader]
  split
  · refine Or.inr ⟨_, _, rfl, rfl, ?_, h.heads, h.mmcf, h.silent⟩
    have hResponse := h.response
    simp only [head, Response.mk.injEq] at hResponse
    simp [head, hResponse]
  · exact Or.inl ⟨rfl, rfl⟩

theorem addHeader (h : Alike bodies get other) (key : String) (value : Bytes) :
    Alike bodies (get.addHeader core key value) (other.addHeader core key value) := by
  simp only [State.addHeader]
  obtain ⟨hGet, hOther⟩ | ⟨get', other', hGet, hOther, hAlike⟩ := h.pushHeader core key value
  · rw [hGet, hOther]
    exact h
  · rw [hGet, hOther]
    exact hAlike

theorem addNoStore (h : Alike bodies get other) : Alike bodies (addNoStore core get) (addNoStore core other) :=
  (h.addHeader core _ _).addHeader core _ _

theorem dashboardHead (h : Alike bodies get other) : Alike bodies (dashboardHead core get) (dashboardHead core other) :=
  ((h.addHeader core _ _).addHeader core _ _).addHeader core _ _

/-- Header and body on the one side, the header alone on the other. -/
theorem deliver (h : Alike bodies get other) (body : Bytes) :
    Alike bodies ((get.sendHeader core).2.outputFilter core body).2 (other.onlyHeader.sendHeader core).2 where
  response := h.response
  heads := by
    have hHeads := h.heads
    have hHead : head other.onlyHeader.response = head get.response := h.response
    simp only [HeadRequests.heads] at hHeads
    simp [HeadRequests.heads, head?, hHeads, hHead]
  mmcf := h.mmcf
  silent := by
    have hSilent := h.silent
    simp only [handedOver] at hSilent
    simp [handedOver, body?, hSilent]

end Alike

/-- The answers of the two requests. -/
structure SameAnswer (bodies : List Bytes) (get other : Rc × State w) : Prop where
  rc : other.1 = get.1
  alike : Alike bodies get.2 other.2

def asGet (r : HttpRequest w) : HttpRequest w := { r with method := httpGet }

def asHead (r : HttpRequest w) : HttpRequest w := { r with method := httpHead }

theorem method_asGet (r : HttpRequest w) : (asGet r).method ≠ httpHead := (by decide : httpGet ≠ httpHead)

theorem method_asHead (r : HttpRequest w) : (asHead r).method = httpHead := rfl

section Handler

variable {core : Core w} (hTakes : Takes core) (html : Bytes) (r : HttpRequest w) (mlcf : LocConf w)
  {bodies : List Bytes} {get other : State w} (h : Alike bodies get other)

include h

theorem same_addCors : Alike bodies (addCors core mlcf get) (addCors core mlcf other) := by
  have hEntered := h.log (e := .addCors) rfl
  simp only [addCors]
  split
  · exact hEntered
  · obtain ⟨hGet, hOther⟩ | ⟨get', other', hGet, hOther, hOrigin⟩ :=
      hEntered.pushHeader core "Access-Control-Allow-Origin" mlcf.cors
    · rw [hGet, hOther]
      exact hEntered
    · rw [hGet, hOther]
      obtain ⟨hGet', hOther'⟩ | ⟨get'', other'', hGet', hOther', hMethods⟩ :=
        hOrigin.pushHeader core "Access-Control-Allow-Methods" (ascii "GET, HEAD, OPTIONS")
      · simp only [hGet', hOther']
        exact hOrigin
      · simp only [hGet', hOther']
        exact hMethods.addHeader core _ _

theorem same_checkRateLimit :
    SameAnswer bodies (checkRateLimit core mlcf get) (checkRateLimit core mlcf other) := by
  have hZone : other.getShctx = get.getShctx := by
    rw [State.getShctx, State.getShctx, h.mmcf]
  simp only [checkRateLimit, hZone, h.mmcf]
  split
  · exact ⟨rfl, h⟩
  · split
    · split
      · exact ⟨rfl, h⟩
      · refine ⟨rfl, h.response, h.heads, ?_, h.silent⟩
        simp only [State.putShctx, h.mmcf]
    · exact ⟨rfl, h⟩

include hTakes

theorem same_plainResponse (status : Nat) (body : Bytes) :
    SameAnswer bodies (plainResponse core (asGet r) status body get)
      (plainResponse core (asHead r) status body other) := by
  have hAlike := ((h.log (e := .discardBody) rfl).withHead status body.length (ascii "text/plain")).deliver core body
  have hGet : plainResponse core (asGet r) status body get =
      ((((get.log .discardBody).withHead status body.length (ascii "text/plain")).sendHeader core).2.outputFilter core
        body) := by
    rw [plainResponse, if_neg (method_asGet r), if_neg (by simp [hTakes.plainBuffer])]
  have hOther : plainResponse core (asHead r) status body other =
      (((other.log .discardBody).withHead status body.length (ascii "text/plain")).onlyHeader.sendHeader core) := by
    rw [plainResponse, if_pos (method_asHead r)]
  rw [hGet, hOther]
  exact ⟨(hTakes.header _).trans (hTakes.body _).symm, hAlike⟩

theorem same_sendBuffer (text type : Bytes) :
    SameAnswer bodies (sendBuffer core (asGet r) text type get) (sendBuffer core (asHead r) text type other) := by
  have hHeaders := (h.log (e := .discardBody) rfl).addNoStore core
  have hAlike := (hHeaders.withHead httpOk text.length type).deliver core text
  rw [sendBuffer, sendBuffer, if_neg (method_asGet r), if_pos (method_asHead r)]
  exact ⟨(hTakes.header _).trans (hTakes.body _).symm, hAlike⟩

theorem same_sendDashboard :
    SameAnswer bodies (sendDashboard core (asGet r) html get) (sendDashboard core (asHead r) html other) := by
  have hEntered := (h.log (e := .send .dashboard) rfl).log (e := .discardBody) rfl
  have hAlike := ((hEntered.dashboardHead core).withHead httpOk html.length (ascii "text/html")).deliver core html
  rw [sendDashboard, sendDashboard, if_neg (method_asGet r), if_pos (method_asHead r),
    if_neg (by simp [hTakes.dashboardBuffer])]
  exact ⟨(hTakes.header _).trans (hTakes.body _).symm, hAlike⟩

theorem same_sendDocument (sender : Sender) (size : Nat) (document : Shctx w → JsonWriter.Jw → JsonWriter.Jw)
    (type : Bytes) :
    SameAnswer bodies (sendDocument core (asGet r) sender size document type get)
      (sendDocument core (asHead r) sender size document type other) := by
  have hEntered := h.log (e := .send sender) rfl
  have hZone : (other.log (.send sender)).getShctx = (get.log (.send sender)).getShctx := by
    rw [State.getShctx, State.getShctx, hEntered.mmcf]
  simp only [sendDocument, hZone]
  cases (get.log (.send sender)).getShctx with
  | none => exact ⟨rfl, hEntered⟩
  | some sh =>
    simp only
    split
    · exact ⟨rfl, hEntered⟩
    · split
      · exact ⟨rfl, hEntered⟩
      · exact same_sendBuffer hTakes r hEntered _ type

theorem same_sendEndpoint {endpoint : Endpoint} (hLive : endpoint ≠ .live) :
    SameAnswer bodies (sendEndpoint core html (asGet r) endpoint get)
      (sendEndpoint core html (asHead r) endpoint other) := by
  cases endpoint with
  | dashboard => exact same_sendDashboard hTakes html r h
  | live => exact absurd rfl hLive
  | prometheus => exact same_sendDocument hTakes r h _ _ _ _
  | health => exact same_sendDocument hTakes r h _ _ _ _
  | _ => exact same_sendDocument hTakes r h _ _ _ _

theorem same_authorize (endpoint : Endpoint) :
    SameAnswer bodies (authorize core (asGet r) mlcf endpoint get) (authorize core (asHead r) mlcf endpoint other) := by
  have hAccess : matchAccess (asHead r) mlcf = matchAccess (asGet r) mlcf := rfl
  have hBasic : checkBasicAuth core (asHead r) mlcf = checkBasicAuth core (asGet r) mlcf := rfl
  have hToken : checkApiToken core (asHead r) mlcf = checkApiToken core (asGet r) mlcf := rfl
  have hLimit : SameAnswer bodies (checkRateLimit core mlcf get) (checkRateLimit core mlcf other) :=
    same_checkRateLimit mlcf h
  simp only [authorize, hAccess, hBasic, hToken, hLimit.rc]
  split
  · exact same_plainResponse hTakes r h _ _
  · split
    · obtain ⟨hGet, hOther⟩ | ⟨get', other', hGet, hOther, hChallenged⟩ :=
        h.pushHeader core "WWW-Authenticate" (ascii "Basic realm=\"nginx monitoring\"")
      · simp only [hGet, hOther]
        exact ⟨rfl, h⟩
      · simp only [hGet, hOther]
        exact same_plainResponse hTakes r hChallenged _ _
    · split
      · exact same_plainResponse hTakes r h _ _
      · split
        · exact same_plainResponse hTakes r hLimit.alike _ _
        · exact ⟨rfl, hLimit.alike⟩

theorem same_serve {endpoint : Endpoint} (hLive : endpoint ≠ .live) :
    SameAnswer bodies (serve core html (asGet r) mlcf endpoint get)
      (serve core html (asHead r) mlcf endpoint other) := by
  have hAuthorized := same_authorize hTakes r mlcf h endpoint
  simp only [serve, hAuthorized.rc]
  split
  · exact ⟨rfl, hAuthorized.alike⟩
  · exact same_sendEndpoint hTakes html r (same_addCors mlcf hAuthorized.alike) hLive

end Handler

end HttpMonitoring.HeadRequests
