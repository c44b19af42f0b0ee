import HttpMonitoring.Accounting
import HttpMonitoring.JsonWriter
import HttpMonitoring.Library.Transcript

/-!
# A request and what is handed over for it

The fields of a request that the handlers read, the response they fill in, and
the calls with which they hand it to the core. The core decides which
allocations succeed and what its filters answer; an answer may depend on
everything handed over before.
-/

namespace HttpMonitoring.Exchange

open Nginx Accounting JsonWriter Library.Transcript

variable {w : Nat}

/-- The address of the client, by its family. -/
inductive Sockaddr
  | inet (addr : BitVec 32)
  | inet6 (addr : Fin 16 → UInt8)
  | other
deriving DecidableEq

structure Header where
  key : Bytes
  value : Bytes
deriving DecidableEq

/-- An `ngx_list_t`: every part behind the first one has an element. -/
structure HeaderList where
  first : List Header
  rest : List (Header × List Header)
deriving DecidableEq

structure HttpRequest (w : Nat) where
  method : Nat
  uri : Bytes
  args : Bytes
  headers : HeaderList
  authorization : Option Bytes
  userAgent : Option Bytes
  sockaddr : Sockaddr
  startSec : Int
  startMsec : BitVec w
  ssl : Bool
  connectionRequests : Nat
  upstreamStates : List (UpstreamState w)
deriving DecidableEq

/-- The fields of `headers_out` that the handlers fill in, and `header_only`. -/
structure Response where
  status : Nat
  contentLength : Int
  contentType : Bytes
  headers : List Header
  headerOnly : Bool
deriving DecidableEq

inductive Sender
  | dashboard
  | sse
  | prometheus
  | health
  | json (endpoint : Endpoint)
deriving DecidableEq

/-- What a handler does, seen from outside. -/
inductive Event
  | addCors
  | send (sender : Sender)
  | discardBody
  | sendHeader (response : Response)
  | outputFilter (body : Bytes)
  | addCleanup
  | retain
  | finalize (rc : Rc)
  | addTimer (msec : Nat)
  | accountRequest
deriving DecidableEq

def Event.isSend : Event → Bool
  | .send _ => true
  | _ => false

/-- The places where memory is asked for; a handler passes each at most once. -/
inductive Site
  | decoded
  | header (key : String)
  | plainBuffer
  | dashboardBuffer
  | documentBuffer
  | urlViews
  | userAgentViews
  | sseClient
  | sseCleanup
deriving DecidableEq

/-- The answer of the header filters, and whether they want no body. -/
structure HeaderAnswer where
  rc : Rc
  headerOnly : Bool
deriving DecidableEq

/-- The core as one call of a handler meets it. -/
structure Core (w : Nat) where
  clock : Clock w
  worker : Worker w
  crc32 : Bytes → BitVec 32
  vslprintf : Vslprintf w
  decodeBase64 : Bytes → Option Bytes
  arg : Bytes → Bytes → Option Bytes
  alloc : Site → Bool
  sendHeader : List Event → HeaderAnswer
  outputFilter : List Event → Rc

def Core.NeverDeclines (core : Core w) : Prop :=
  ∀ trace, (core.sendHeader trace).rc ≠ rcDeclined ∧ core.outputFilter trace ≠ rcDeclined

/-- The main configuration with the pointers to the zone and to its pool. -/
structure Main (w : Nat) where
  conf : MainConf w
  sh : Option (Shctx w)
  shpool : Bool

structure State (w : Nat) where
  response : Response
  trace : List Event
  mmcf : Option (Main w)

namespace State

variable (s : State w)

def getShctx : Option (Shctx w) := s.mmcf.bind Main.sh

def putShctx (sh : Shctx w) : State w := { s with mmcf := s.mmcf.map fun m => { m with sh := some sh } }

def log (e : Event) : State w := { s with trace := s.trace ++ [e] }

def withHead (status : Nat) (contentLength : Int) (contentType : Bytes) : State w :=
  { s with response := { s.response with
    status := status, contentLength := contentLength, contentType := contentType } }

def onlyHeader : State w := { s with response := { s.response with headerOnly := true } }

/-- `ngx_list_push` on the response headers. -/
def pushHeader (core : Core w) (key : String) (value : Bytes) : Option (State w) :=
  if core.alloc (.header key) then
    some { s with response := { s.response with headers := s.response.headers ++ [⟨ascii key, value⟩] } }
  else none

/-- A header that is left out when there is no memory for it. -/
def addHeader (core : Core w) (key : String) (value : Bytes) : State w :=
  (s.pushHeader core key value).getD s

def sendHeader (core : Core w) : Rc × State w :=
  let t := s.log (.sendHeader s.response)
  let answer := core.sendHeader t.trace
  (answer.rc, { t with response := { t.response with
    headerOnly := t.response.headerOnly || answer.headerOnly } })

def outputFilter (core : Core w) (body : Bytes) : Rc × State w :=
  let t := s.log (.outputFilter body)
  (core.outputFilter t.trace, t)

end State

section Frame

variable (core : Core w) (s : State w)

@[simp] theorem trace_log (e : Event) : (s.log e).trace = s.trace ++ [e] := rfl
@[simp] theorem response_log (e : Event) : (s.log e).response = s.response := rfl
@[simp] theorem mmcf_log (e : Event) : (s.log e).mmcf = s.mmcf := rfl
@[simp] theorem getShctx_log (e : Event) : (s.log e).getShctx = s.getShctx := rfl
@[simp] theorem trace_putShctx (sh : Shctx w) : (s.putShctx sh).trace = s.trace := rfl
@[simp] theorem response_putShctx (sh : Shctx w) : (s.putShctx sh).response = s.response := rfl
@[simp] theorem trace_withHead (status : Nat) (n : Int) (type : Bytes) :
    (s.withHead status n type).trace = s.trace := rfl
@[simp] theorem trace_onlyHeader : s.onlyHeader.trace = s.trace := rfl

@[simp] theorem trace_sendHeader :
    (s.sendHeader core).2.trace = s.trace ++ [.sendHeader s.response] := rfl
@[simp] theorem rc_sendHeader :
    (s.sendHeader core).1 = (core.sendHeader (s.trace ++ [.sendHeader s.response])).rc := rfl
@[simp] theorem trace_outputFilter (body : Bytes) :
    (s.outputFilter core body).2.trace = s.trace ++ [.outputFilter body] := rfl
@[simp] theorem rc_outputFilter (body : Bytes) :
    (s.outputFilter core body).1 = core.outputFilter (s.trace ++ [.outputFilter body]) := rfl

theorem trace_pushHeader {core : Core w} {s t : State w} {key : String} {value : Bytes}
    (h : s.pushHeader core key value = some t) : t.trace = s.trace := by
  rw [State.pushHeader] at h
  split at h
  · rw [← Option.some.inj h]
  · cases h

@[simp] theorem trace_addHeader (key : String) (value : Bytes) :
    (s.addHeader core key value).trace = s.trace := by
  rw [State.addHeader]
  cases h : s.pushHeader core key value with
  | none => rfl
  | some t => exact trace_pushHeader h

end Frame

/-- Neither the CORS headers nor the entry of a sender. -/
def Outward (e : Event) : Prop := e ≠ .addCors ∧ e.isSend = false

theorem outward_sendHeader (response : Response) : Outward (.sendHeader response) := ⟨nofun, rfl⟩

theorem outward_outputFilter (body : Bytes) : Outward (.outputFilter body) := ⟨nofun, rfl⟩

theorem outward_discardBody : Outward .discardBody := ⟨nofun, rfl⟩

/-- From the transcript `t` on, the call hands over only, and it answers
`NGX_DECLINED` only if a filter does. -/
structure Settled (core : Core w) (t : List Event) (p : Rc × State w) : Prop where
  continues : Continues Outward t p.2.trace
  rc : core.NeverDeclines → p.1 ≠ rcDeclined

section Settled

variable {core : Core w} {s : State w} {t : List Event} {p : Rc × State w}

theorem settled_answer (h : s.trace = t) {rc : Rc} (hRc : rc ≠ rcDeclined) : Settled core t (rc, s) :=
  ⟨h ▸ .refl _ _, fun _ => hRc⟩

theorem Settled.after {e : Event} (h : Settled core (t ++ [e]) p) (he : Outward e) : Settled core t p :=
  ⟨(Continues.one t he).trans h.continues, h.rc⟩

theorem settled_sendHeader (h : s.trace = t) : Settled core t (s.sendHeader core) :=
  ⟨h ▸ .one _ (outward_sendHeader _), fun hCore => (hCore _).1⟩

theorem settled_outputFilter (h : s.trace = t) (body : Bytes) :
    Settled core t (s.outputFilter core body) :=
  ⟨h ▸ .one _ (outward_outputFilter body), fun hCore => (hCore _).2⟩

/-- The header and then the body, whatever the answer to the header was. -/
theorem settled_deliver (h : s.trace = t) (body : Bytes) :
    Settled core t ((s.sendHeader core).2.outputFilter core body) :=
  (settled_outputFilter (h ▸ rfl) body).after (outward_sendHeader s.response)

end Settled

end HttpMonitoring.Exchange
