import HttpMonitoring.NameArrays
import HttpMonitoring.ReadAnswers

/-!
# Answers while the service runs

Between the answers requests are accounted for and workers run their handlers.
Every JSON document is then written to its end and read back as the zone.
-/

namespace HttpMonitoring.ServiceRuns

open Nginx Accounting CollectorHandler ZoneRegions NameArrays JsonWriter JsonNames JsonSections JsonDocument JsonSize
  JsonRoom JsonAnswers Zone History Library.BoundedWriter Library.JsonText Library.JsonParser
open CollectorLock (Process)

variable {w : Nat}

inductive Service (w : Nat)
  | request (crc32 : Bytes → BitVec 32) (c : Call w)
  | pass (p : Process w) (k : Sources w)

section Runs

variable (D : Library.Doubles.Rounding) (conf : MainConf w)

def Service.apply : Service w → Shctx w → Shctx w
  | .request crc32 c => accountRequest crc32 conf true c
  | .pass p k => collect D { p with conf := conf } k

def serviceZone (events : List (Service w)) : Shctx w :=
  events.foldl (fun sh e => e.apply D conf sh) (freshZone conf)

/-- The names that come in are without control bytes that have no escape of their own. -/
def Service.Legible : Service w → Prop
  | .request _ c => FromRequest Printable c.request
  | .pass _ k => ∀ x ∈ k.steps conf, Finds Printable x

/-- What the answers rest on. -/
structure Served (sh : Shctx w) : Prop where
  names : Names Printable sh
  roomy : Roomy conf sh

/-- The service runs through stages, so that what holds of all traces holds while
it runs. -/
theorem serviceZone_trace (events : List (Service w)) :
    ∃ stages, (Collection.trace conf stages).sh = serviceZone D conf events := by
  induction events using List.reverseRecOn with
  | nil => exact ⟨[], rfl⟩
  | append_singleton events e ih =>
    obtain ⟨stages, hBefore⟩ := ih
    have hEvent : ∃ further : List (Collection.Stage w),
        further.foldl Collection.Stage.apply (serviceZone D conf events) =
          e.apply D conf (serviceZone D conf events) := by
      cases e with
      | request crc32 c => exact ⟨[.other (.accounted crc32 conf c)], rfl⟩
      | pass p k => exact collect_stages D { p with conf := conf } k _
    obtain ⟨further, hFurther⟩ := hEvent
    refine ⟨stages ++ further, ?_⟩
    rw [Collection.sh_trace_append, hBefore, hFurther]
    simp only [serviceZone, List.foldl_append, List.foldl_cons, List.foldl_nil]

end Runs

section Keeps

variable {D : Library.Doubles.Rounding} {conf : MainConf w} {sh : Shctx w}

theorem printable_unknown : ∀ b ∈ ascii "unknown", Printable b := by
  simp [ascii, Printable]

theorem roomy_congr {sh' : Shctx w} (h : Roomy conf sh) (hClean : CleanZone sh') (hHistory : sh'.history = sh.history)
    (hCapacity : sh'.historyCapacity = sh.historyCapacity) (hCount : sh'.historyCount = sh.historyCount) :
    Roomy conf sh' where
  clean := hClean
  small := by
    rw [hHistory]
    exact h.small
  capacity := by
    rw [hCapacity]
    exact h.capacity
  count := by
    rw [hCount]
    exact h.count

theorem Served.request (h : Served conf sh) (crc32 : Bytes → BitVec 32) {c : Call w}
    (hc : FromRequest Printable c.request) : Served conf (accountRequest crc32 conf true c sh) := by
  have hFinds : ∀ x ∈ requestSteps crc32 conf c, Finds Printable x := by
    intro x hx
    rcases List.mem_append.mp hx with hAccess | hTables
    · obtain ⟨op, -, rfl⟩ := List.mem_map.mp hAccess
      trivial
    · obtain rfl := List.mem_singleton.mp hTables
      exact hc
  have hNames := h.names.runSteps Library.Doubles.toNearest printable_unknown hFinds
  rw [runSteps_requestSteps] at hNames
  exact ⟨hNames, h.roomy.request ⟨hc.uri, hc.userAgent, hc.peers⟩⟩

theorem Served.pass (hHigh : w ≤ 64) (h : Served conf sh) (p : Process w) {k : Sources w}
    (hFinds : ∀ x ∈ k.steps conf, Finds Printable x) : Served conf (collect D { p with conf := conf } k sh) := by
  refine ⟨h.names.collect D printable_unknown { p with conf := conf } hFinds, ?_⟩
  obtain ⟨workers, hCollect⟩ := collect_cases D { p with conf := conf } k sh
  rw [hCollect]
  split
  · have hLocked : Names Printable { sh with workers := workers, collectorLock := p.pid } :=
      ⟨h.names.urls, h.names.userAgents, h.names.upstreams, h.names.ifaces, h.names.disks, h.names.paths,
        h.names.types⟩
    have hRest := get_runSteps_of_notMem D (rest_notMem k conf) { sh with workers := workers, collectorLock := p.pid }
    have hRead := roomy_congr h.roomy (hLocked.runSteps D printable_unknown hFinds).clean
      (congrArg Region.Rest.history hRest) (congrArg Region.Rest.historyCapacity hRest)
      (congrArg Region.Rest.historyCount hRest)
    have hPass := hRead.history hHigh k.clock
    refine roomy_congr hPass ?_ rfl rfl rfl
    obtain ⟨hUrls, hAgents, hUpstreams, hIfaces, hDisks, hPaths, hTypes⟩ := hPass.clean
    exact ⟨hUrls, hAgents, hUpstreams, hIfaces, hDisks, hPaths, hTypes⟩
  · refine roomy_congr h.roomy ?_ rfl rfl rfl
    obtain ⟨hUrls, hAgents, hUpstreams, hIfaces, hDisks, hPaths, hTypes⟩ := h.roomy.clean
    exact ⟨hUrls, hAgents, hUpstreams, hIfaces, hDisks, hPaths, hTypes⟩

theorem served_serviceZone (hLow : historyMax < 2 ^ w) (hHigh : w ≤ 64) (D : Library.Doubles.Rounding)
    {events : List (Service w)} (hLegible : ∀ e ∈ events, e.Legible conf) :
    Served conf (serviceZone D conf events) := by
  induction events using List.reverseRecOn with
  | nil => exact ⟨names_freshZone Printable conf, roomy_freshZone hLow conf⟩
  | append_singleton events e ih =>
    have hBefore := ih fun x hx => hLegible x (List.mem_append_left _ hx)
    have hEvent := hLegible e (List.mem_append_right _ List.mem_cons_self)
    rw [serviceZone, List.foldl_append, List.foldl_cons, List.foldl_nil]
    cases e with
    | request crc32 c => exact hBefore.request crc32 hEvent
    | pass p k => exact hBefore.pass hHigh p hEvent

end Keeps

section Answers

variable {R : Vslprintf w} (hR : Narrow R)
include hR

theorem health_fits (env : Env w) (sh : Shctx w) : (healthDocument R env sh (.start healthBuffer)).failed = false := by
  have hRenders : Renders True (healthDocument R env sh) _ := renders_health R env sh
  refine hRenders.fits_start trivial ?_
  have hSigned := hR.signed
  have hMsec := hR.msec
  have hEnvelope : (commaSep ((envelope R env "health").map memberText)).length ≤ 200 := by
    simp [envelope, memberText, quoted, comma, moduleVersion, ascii]
    grind
  have hGeneration := hR.unsigned sh.generation
  have hClients := hR.unsigned sh.connections.sseClients
  rw [healthMembers, object_text]
  simp [memberText, quoted, comma, ascii, healthBuffer]
  omega

theorem Served.written {conf : MainConf w} {sh : Shctx w} (h : Served conf sh) (hRing : historyCapacity conf ≤ ringRoom)
    {env : Env w} (hUrls : env.urlViews = true) (hAgents : env.userAgentViews = true) (endpoint : Endpoint) :
    (jsonAnswer R env sh endpoint).failed = false := by
  rw [jsonAnswer]
  split
  · exact health_fits hR env sh
  · exact document_fits hR hUrls hAgents h.roomy.clean h.roomy.small fun _ =>
      slotBytes_le (h.roomy.length_le.trans hRing)

/-- While the service runs every JSON document is written to its end, when the ring
is no larger than the buffer allows, and is read back as the zone. -/
theorem answers_in_service (hNumeric : R.Numeric) (hLow : historyMax < 2 ^ w) (hHigh : w ≤ 64)
    (D : Library.Doubles.Rounding) {conf : MainConf w} (hRing : historyCapacity conf ≤ ringRoom)
    {events : List (Service w)} (hLegible : ∀ e ∈ events, e.Legible conf) {env : Env w} (hUrls : env.urlViews = true)
    (hAgents : env.userAgentViews = true) {endpoint : Endpoint} (hEndpoint : endpoint ∈ jsonEndpoints) :
    let sh := serviceZone D conf events
    (jsonAnswer R env sh endpoint).failed = false ∧
      parse (jsonAnswer R env sh endpoint).out = some (.object (answerMembers R env sh endpoint)) := by
  intro sh
  have hServed : Served conf sh := served_serviceZone hLow hHigh D hLegible
  have hWritten := hServed.written hR hRing hUrls hAgents endpoint
  exact ⟨hWritten, ReadAnswers.parse_jsonAnswer hNumeric hServed.roomy.clean hEndpoint hWritten⟩

end Answers

theorem finds_blind (conf : MainConf w) (clock : Clock w) :
    ∀ x ∈ (Sources.blind clock).steps conf, Finds Printable x := by
  intro x hx
  rcases (Sources.blind clock).mem_steps hx with rfl | hx | rfl
  · trivial
  · simp only [Sources.systemSteps, Sources.blind, List.mem_cons, List.not_mem_nil, or_false] at hx
    rcases hx with rfl | rfl | rfl | rfl | rfl | rfl | rfl | rfl | rfl <;>
      first | trivial | (intro _ hFile; cases hFile)
  · intro _ hFile
    cases hFile

def servedPage : Call 64 :=
  ⟨⟨1700000000, 0, 200, 512, 2, false, 1, ascii "/a", some (ascii "c"), []⟩, ⟨1700000000, 3⟩, ⟨0, 7⟩⟩

/-- The answer for the requests behind a request and a pass. -/
theorem answers_in_service_one_page :
    let sh := serviceZone Library.Doubles.toNearest (withDefaults createMainConf)
      [.request (fun _ => 0) servedPage, .pass CollectorHandler.firstWorker (.blind ⟨1700000001, 0⟩)]
    let env : Env 64 := ⟨⟨1700000002, 0⟩, 7, true, true⟩
    parse (jsonAnswer decimals env sh .apiRequests).out = some (.object (answerMembers decimals env sh .apiRequests)) :=
  (answers_in_service (narrow_decimals le_rfl) numeric_decimals (by decide) le_rfl Library.Doubles.toNearest
    (by decide) (by
      intro e he
      simp only [List.mem_cons, List.not_mem_nil, or_false] at he
      rcases he with rfl | rfl
      · exact ⟨by simp [servedPage, ascii, Printable], by simp [servedPage, ascii, Printable], by simp [servedPage]⟩
      · exact finds_blind _ _) rfl rfl (by decide)).2

end HttpMonitoring.ServiceRuns
