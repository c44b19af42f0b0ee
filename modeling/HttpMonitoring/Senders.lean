import HttpMonitoring.LiveStream

/-!
# The senders of the other endpoints

The dashboard page and the three kinds of documents. Each fills in the
response and hands over the header, and for other methods than HEAD the body.
-/

namespace HttpMonitoring.Senders

open Nginx Library.BoundedWriter Library.Transcript JsonWriter JsonSections Exchange

variable {w : Nat} (core : Core w) (r : HttpRequest w)

def dashboardHead (s : State w) : State w :=
  let s := s.addHeader core "Cache-Control" (ascii "no-store")
  let s := s.addHeader core "X-Frame-Options" (ascii "DENY")
  s.addHeader core "Content-Security-Policy"
    (ascii ("default-src 'self'; script-src 'unsafe-inline' 'self'; " ++
      "style-src 'unsafe-inline' 'self'; connect-src 'self'"))

def sendDashboard (html : Bytes) (s : State w) : Rc × State w :=
  let s := (s.log (.send .dashboard)).log .discardBody
  let s := (dashboardHead core s).withHead httpOk html.length (ascii "text/html")
  if r.method = httpHead then s.onlyHeader.sendHeader core
  else if !core.alloc .dashboardBuffer then (httpInternalServerError, s)
  else (s.sendHeader core).2.outputFilter core html

def addNoStore (s : State w) : State w :=
  (s.addHeader core "Cache-Control" (ascii "no-store")).addHeader core "X-Content-Type-Options"
    (ascii "nosniff")

def sendBuffer (text type : Bytes) (s : State w) : Rc × State w :=
  let s := (addNoStore core (s.log .discardBody)).withHead httpOk text.length type
  if r.method = httpHead then s.onlyHeader.sendHeader core
  else (s.sendHeader core).2.outputFilter core text

/-- What the three senders have in common: the zone, a buffer, the writer, and
the hand-over of what it wrote. -/
def sendDocument (sender : Sender) (size : Nat) (document : Shctx w → Jw → Jw) (type : Bytes)
    (s : State w) : Rc × State w :=
  let s := s.log (.send sender)
  match s.getShctx with
  | none => (httpServiceUnavailable, s)
  | some sh =>
    if !core.alloc .documentBuffer then (httpInternalServerError, s)
    else
      let jw := document sh (Output.start size)
      if jw.failed then (httpInternalServerError, s) else sendBuffer core r jw.out type s

def env : Env w :=
  ⟨core.clock, core.worker.pid.toInt, core.alloc .urlViews, core.alloc .userAgentViews⟩

def sendJson (endpoint : Endpoint) : State w → Rc × State w :=
  sendDocument core r (.json endpoint) jsonBuffer
    (fun sh => jsonDocument core.vslprintf (env core) sh endpoint) (ascii "application/json")

def sendPrometheus : State w → Rc × State w :=
  sendDocument core r .prometheus prometheusBuffer (prometheusDocument core.vslprintf)
    (ascii "text/plain")

def sendHealth : State w → Rc × State w :=
  sendDocument core r .health healthBuffer (healthDocument core.vslprintf (env core))
    (ascii "application/json")

variable {core r}

@[simp] theorem trace_dashboardHead (s : State w) : (dashboardHead core s).trace = s.trace := by
  simp [dashboardHead]

@[simp] theorem trace_addNoStore (s : State w) : (addNoStore core s).trace = s.trace := by
  simp [addNoStore]

theorem settled_sendDashboard (html : Bytes) (s : State w) :
    Settled core (s.trace ++ [.send .dashboard]) (sendDashboard core r html s) := by
  refine Settled.after ?_ outward_discardBody
  rw [sendDashboard]
  split
  · exact settled_sendHeader (by simp)
  · split
    · exact settled_answer (by simp) (by decide)
    · exact settled_deliver (by simp) html

theorem settled_sendBuffer {s : State w} {t : List Event} (h : s.trace = t) (text type : Bytes) :
    Settled core t (sendBuffer core r text type s) := by
  refine Settled.after ?_ outward_discardBody
  rw [sendBuffer]
  split
  · exact settled_sendHeader (by simp [h])
  · exact settled_deliver (by simp [h]) text

theorem settled_sendDocument (sender : Sender) (size : Nat) (document : Shctx w → Jw → Jw)
    (type : Bytes) (s : State w) :
    Settled core (s.trace ++ [.send sender]) (sendDocument core r sender size document type s) := by
  rw [sendDocument]
  dsimp only
  split
  · exact settled_answer (by simp) (by decide)
  · split
    · exact settled_answer (by simp) (by decide)
    · split
      · exact settled_answer (by simp) (by decide)
      · exact settled_sendBuffer (trace_log s _) _ _

end HttpMonitoring.Senders
