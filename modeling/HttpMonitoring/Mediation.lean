import HttpMonitoring.Handlers

/-!
# What a refused request gets

`authorize` reports a refusal with the return code of the calls that hand the
denial to the core. The core says `NGX_OK` when it takes the denial, and
`content_handler` reads this as the permission to go on.
-/

namespace HttpMonitoring.Mediation

open Nginx Library.Transcript Exchange Access Handlers

variable {w : Nat}

structure Refusal where
  status : Nat
  text : Bytes
  challenge : Bool
deriving DecidableEq

section Checks

variable (core : Core w) (r : HttpRequest w) (mlcf : LocConf w) (s : State w)

def Declines : Prop :=
  matchAccess r mlcf = rcDeclined ∨ checkBasicAuth core r mlcf = rcDeclined ∨
    matchEndpoint r.uri ≠ .dashboard ∧ checkApiToken core r mlcf = rcDeclined ∨
    (checkRateLimit core mlcf s).1 = rcDeclined

def refusal : Option Refusal :=
  if matchAccess r mlcf = rcDeclined then some ⟨httpForbidden, ascii "forbidden\n", false⟩
  else if checkBasicAuth core r mlcf = rcDeclined then
    some ⟨httpUnauthorized, ascii "unauthorized\n", true⟩
  else if matchEndpoint r.uri ≠ .dashboard ∧ checkApiToken core r mlcf = rcDeclined then
    some ⟨httpUnauthorized, ascii "unauthorized\n", false⟩
  else if (checkRateLimit core mlcf s).1 = rcDeclined then
    some ⟨httpTooManyRequests, ascii "rate limited\n", false⟩
  else none

end Checks

section Denial

variable (core : Core w) (r : HttpRequest w)

/-- A plain response as it is handed over: the header, and the text unless the
request is a HEAD. -/
def plainEvents (response : Response) (status : Nat) (body : Bytes) : List Event :=
  .discardBody :: .sendHeader { response with
      status := status, contentLength := body.length, contentType := ascii "text/plain",
      headerOnly := response.headerOnly || r.method = httpHead } ::
    if r.method = httpHead then [] else [.outputFilter body]

/-- The core has memory for the plain response and answers `NGX_OK`. -/
def TakesPlain (response : Response) (status : Nat) (body : Bytes) : Prop :=
  if r.method = httpHead then (core.sendHeader (plainEvents r response status body)).rc = rcOk
  else core.alloc .plainBuffer = true ∧ core.outputFilter (plainEvents r response status body) = rcOk

def challenged (response : Response) : Response :=
  { response with headers := response.headers ++
    [⟨ascii "WWW-Authenticate", ascii "Basic realm=\"nginx monitoring\""⟩] }

def Refusal.base (d : Refusal) (response : Response) : Response :=
  if d.challenge then challenged response else response

def Refusal.denial (d : Refusal) (response : Response) : List Event :=
  plainEvents r (d.base response) d.status d.text

def Refusal.Taken (d : Refusal) (response : Response) : Prop :=
  (d.challenge = true → core.alloc (.header "WWW-Authenticate") = true) ∧
    TakesPlain core r (d.base response) d.status d.text

end Denial

/-- The request is handled as its checks say: a refused one gets nothing but
the denial, another one gets its own sender, once. -/
structure Mediated (core : Core w) (html : Bytes) (r : HttpRequest w) (mlcf : LocConf w)
    (s : State w) : Prop where
  refused : Declines core r mlcf s → ∃ d, refusal core r mlcf s = some d ∧
    (contentHandler core html r (some mlcf) s).2.trace <+: d.denial r s.response
  served : ¬ Declines core r mlcf s → switchedOff mlcf (matchEndpoint r.uri) = false →
    (contentHandler core html r (some mlcf) s).2.trace.filter Event.isSend =
      [.send (ownSender (matchEndpoint r.uri))]

/-- The events are handed over in full when the core takes them, and in part,
with another answer than `NGX_OK`, when it does not. -/
structure HandsOver (p : Rc × State w) (events : List Event) (taken : Prop) : Prop where
  begun : p.2.trace <+: events
  ok_iff : p.1 = rcOk ↔ taken
  whole : taken → p.2.trace = events

section Authorize

variable {core : Core w} {html : Bytes} {r : HttpRequest w} {mlcf : LocConf w} {s : State w}

theorem HandsOver.of_whole {p : Rc × State w} {events : List Event} {taken : Prop}
    (hTrace : p.2.trace = events) (hOk : p.1 = rcOk ↔ taken) : HandsOver p events taken :=
  ⟨hTrace ▸ List.prefix_rfl, hOk, fun _ => hTrace⟩

theorem HandsOver.of_failed {p : Rc × State w} {events : List Event} {taken : Prop}
    (hTrace : p.2.trace <+: events) (hRc : p.1 ≠ rcOk) (hNot : ¬ taken) : HandsOver p events taken :=
  ⟨hTrace, iff_of_false hRc hNot, fun h => absurd h hNot⟩

theorem handsOver_plainResponse (hs : s.trace = []) (status : Nat) (body : Bytes) :
    HandsOver (plainResponse core r status body s) (plainEvents r s.response status body)
      (TakesPlain core r s.response status body) := by
  by_cases hHead : r.method = httpHead
  · refine .of_whole ?_ ?_
    · simp [plainResponse, plainEvents, hHead, hs, State.withHead, State.onlyHeader]
    · simp [plainResponse, plainEvents, TakesPlain, hHead, hs, State.withHead, State.onlyHeader]
  · cases hAlloc : core.alloc .plainBuffer with
    | false =>
      refine .of_failed ?_ ?_ ?_
      · simp [plainResponse, plainEvents, hHead, hAlloc, hs]
      · simp [plainResponse, hHead, hAlloc, httpInternalServerError, rcOk]
      · simp [TakesPlain, hHead, hAlloc]
    | true =>
      refine .of_whole ?_ ?_
      · simp [plainResponse, plainEvents, hHead, hAlloc, hs, State.withHead]
      · simp [plainResponse, plainEvents, TakesPlain, hHead, hAlloc, hs, State.withHead]

theorem refusal_eq_none_iff : refusal core r mlcf s = none ↔ ¬ Declines core r mlcf s := by
  unfold refusal Declines
  split_ifs <;> simp_all

/-- `authorize` with its tests read as "declines". -/
theorem authorize_eq : authorize core r mlcf (matchEndpoint r.uri) s =
    if matchAccess r mlcf = rcDeclined then plainResponse core r httpForbidden (ascii "forbidden\n") s
    else if checkBasicAuth core r mlcf = rcDeclined then
      match s.pushHeader core "WWW-Authenticate" (ascii "Basic realm=\"nginx monitoring\"") with
      | none => (httpInternalServerError, s)
      | some s => plainResponse core r httpUnauthorized (ascii "unauthorized\n") s
    else if matchEndpoint r.uri ≠ .dashboard ∧ checkApiToken core r mlcf = rcDeclined then
      plainResponse core r httpUnauthorized (ascii "unauthorized\n") s
    else if (checkRateLimit core mlcf s).1 = rcDeclined then
      plainResponse core r httpTooManyRequests (ascii "rate limited\n") (checkRateLimit core mlcf s).2
    else (rcOk, (checkRateLimit core mlcf s).2) := by
  simp only [(isVerdict_matchAccess r mlcf).declined_iff,
    (isVerdict_checkBasicAuth core r mlcf).declined_iff,
    (isVerdict_checkApiToken core r mlcf).declined_iff,
    (checkRateLimit_spec core mlcf s).1.declined_iff]
  rfl

theorem authorize_of_accepted (h : refusal core r mlcf s = none) :
    authorize core r mlcf (matchEndpoint r.uri) s = (rcOk, (checkRateLimit core mlcf s).2) := by
  rw [authorize_eq]
  unfold refusal at h
  split_ifs at h ⊢
  rfl

theorem handsOver_unchallenged (hs : s.trace = []) (status : Nat) (text : Bytes) :
    HandsOver (plainResponse core r status text s) (Refusal.denial r ⟨status, text, false⟩ s.response)
      (Refusal.Taken core r ⟨status, text, false⟩ s.response) := by
  have hPlain : HandsOver (plainResponse core r status text s) _ _ :=
    handsOver_plainResponse hs status text
  refine ⟨hPlain.begun, hPlain.ok_iff.trans ?_, fun h => hPlain.whole h.2⟩
  simp [Refusal.Taken, Refusal.base]

/-- The refusal by `check_basic_auth`, which needs memory for its header. -/
theorem handsOver_challenge (hs : s.trace = []) :
    HandsOver
      (match s.pushHeader core "WWW-Authenticate" (ascii "Basic realm=\"nginx monitoring\"") with
        | none => (httpInternalServerError, s)
        | some s => plainResponse core r httpUnauthorized (ascii "unauthorized\n") s)
      (Refusal.denial r ⟨httpUnauthorized, ascii "unauthorized\n", true⟩ s.response)
      (Refusal.Taken core r ⟨httpUnauthorized, ascii "unauthorized\n", true⟩ s.response) := by
  cases hAlloc : core.alloc (.header "WWW-Authenticate") with
  | false =>
    have hFailed : (httpInternalServerError : Rc) ≠ rcOk := by decide
    have hPush : s.pushHeader core "WWW-Authenticate" (ascii "Basic realm=\"nginx monitoring\"") = none := by
      simp [State.pushHeader, hAlloc]
    rw [hPush]
    exact .of_failed (by simp [hs]) hFailed (by simp [Refusal.Taken, hAlloc])
  | true =>
    have hPush : s.pushHeader core "WWW-Authenticate" (ascii "Basic realm=\"nginx monitoring\"") =
        some { s with response := challenged s.response } := by
      simp [State.pushHeader, hAlloc, challenged]
    have hPlain : HandsOver (plainResponse core r httpUnauthorized (ascii "unauthorized\n")
        { s with response := challenged s.response }) _ _ :=
      handsOver_plainResponse (s := { s with response := challenged s.response }) hs _ _
    rw [hPush]
    refine ⟨hPlain.begun, hPlain.ok_iff.trans ?_, fun h => hPlain.whole h.2⟩
    simp [Refusal.Taken, Refusal.base, hAlloc]

theorem handsOver_refused (hs : s.trace = []) {d : Refusal} (h : refusal core r mlcf s = some d) :
    HandsOver (authorize core r mlcf (matchEndpoint r.uri) s) (d.denial r s.response)
      (d.Taken core r s.response) := by
  obtain ⟨-, hTrace, hResponse⟩ := checkRateLimit_spec core mlcf s
  rw [authorize_eq]
  unfold refusal at h
  split_ifs at h ⊢
  · obtain rfl := Option.some.inj h
    exact handsOver_unchallenged hs _ _
  · obtain rfl := Option.some.inj h
    exact handsOver_challenge hs
  · obtain rfl := Option.some.inj h
    exact handsOver_unchallenged hs _ _
  · obtain rfl := Option.some.inj h
    rw [← hResponse]
    exact handsOver_unchallenged (hTrace.trans hs) _ _

theorem contentHandler_eq (hEnabled : mlcf.enabled = true) (hEndpoint : matchEndpoint r.uri ≠ .none)
    (hMethod : r.method = httpGet ∨ r.method = httpHead) :
    contentHandler core html r (some mlcf) s =
      if switchedOff mlcf (matchEndpoint r.uri) then ((httpNotFound : Rc), s)
      else serve core html r mlcf (matchEndpoint r.uri) s := by
  have hOptions : r.method ≠ httpOptions := by
    rcases hMethod with h | h <;> rw [h] <;> decide
  have hAllowed : hasMethod r.method (httpGet ||| httpHead) = true := by
    rcases hMethod with h | h <;> rw [h] <;> decide
  simp [contentHandler, hEndpoint, hEnabled, hOptions, hAllowed]

theorem serve_of_stopped (h : (authorize core r mlcf (matchEndpoint r.uri) s).1 ≠ rcOk) :
    serve core html r mlcf (matchEndpoint r.uri) s = authorize core r mlcf (matchEndpoint r.uri) s := by
  rw [serve]
  exact if_pos h

/-- Behind `NGX_OK` come the CORS headers, the sender, and what it hands over. -/
theorem serve_of_passed (h : (authorize core r mlcf (matchEndpoint r.uri) s).1 = rcOk) :
    Continues Outward ((authorize core r mlcf (matchEndpoint r.uri) s).2.trace ++ [.addCors] ++
        [.send (ownSender (matchEndpoint r.uri))])
      (serve core html r mlcf (matchEndpoint r.uri) s).2.trace := by
  have hServe : serve core html r mlcf (matchEndpoint r.uri) s =
      sendEndpoint core html r (matchEndpoint r.uri)
        (addCors core mlcf (authorize core r mlcf (matchEndpoint r.uri) s).2) := by
    rw [serve]
    exact if_neg (not_not_intro h)
  have hSent : Settled core _ (sendEndpoint core html r (matchEndpoint r.uri)
      (addCors core mlcf (authorize core r mlcf (matchEndpoint r.uri) s).2)) :=
    settled_sendEndpoint _ _
  rw [trace_addCors] at hSent
  rw [hServe]
  exact hSent.continues

theorem serve_of_accepted (hs : s.trace = []) (h : refusal core r mlcf s = none) :
    (serve core html r mlcf (matchEndpoint r.uri) s).2.trace.filter Event.isSend =
      [.send (ownSender (matchEndpoint r.uri))] := by
  have hPassed := authorize_of_accepted h
  have hServe : Continues Outward _ (serve core html r mlcf (matchEndpoint r.uri) s).2.trace :=
    serve_of_passed (by rw [hPassed])
  rw [hServe.filter_eq fun e he => he.2, hPassed, (checkRateLimit_spec core mlcf s).2.1, hs]
  rfl

/-- A denial that the core takes is followed by the CORS headers. -/
theorem serve_of_taken (hs : s.trace = []) {d : Refusal} (h : refusal core r mlcf s = some d)
    (hTaken : d.Taken core r s.response) :
    ¬ (serve core html r mlcf (matchEndpoint r.uri) s).2.trace <+: d.denial r s.response := by
  have hDenied := handsOver_refused hs h
  have hServe : Continues Outward _ (serve core html r mlcf (matchEndpoint r.uri) s).2.trace :=
    serve_of_passed (hDenied.ok_iff.mpr hTaken)
  obtain ⟨new, hTrace, -⟩ := hServe
  intro hPrefix
  have hLength := hPrefix.length_le
  rw [hTrace, hDenied.whole hTaken] at hLength
  simp at hLength

theorem mediated_iff {response : Response} {mmcf : Option (Main w)} (hEnabled : mlcf.enabled = true)
    (hEndpoint : matchEndpoint r.uri ≠ .none) (hMethod : r.method = httpGet ∨ r.method = httpHead) :
    Mediated core html r mlcf ⟨response, [], mmcf⟩ ↔
      ¬ (switchedOff mlcf (matchEndpoint r.uri) = false ∧
        ∃ d, refusal core r mlcf ⟨response, [], mmcf⟩ = some d ∧ d.Taken core r response) := by
  have hHandler : contentHandler core html r (some mlcf) ⟨response, [], mmcf⟩ = _ :=
    contentHandler_eq hEnabled hEndpoint hMethod
  constructor
  · rintro hMediated ⟨hOn, d, hRefusal, hTaken⟩
    have hDeclines : Declines core r mlcf ⟨response, [], mmcf⟩ := by
      by_contra hAccepts
      rw [refusal_eq_none_iff.mpr hAccepts] at hRefusal
      cases hRefusal
    obtain ⟨d', hRefusal', hPrefix⟩ := hMediated.refused hDeclines
    obtain rfl := Option.some.inj (hRefusal.symm.trans hRefusal')
    rw [hHandler, if_neg (by simp [hOn])] at hPrefix
    exact serve_of_taken rfl hRefusal hTaken hPrefix
  · intro hCondition
    refine ⟨fun hDeclines => ?_, fun hAccepts hOn => ?_⟩
    · cases hRefusal : refusal core r mlcf ⟨response, [], mmcf⟩ with
      | none => exact absurd hDeclines (refusal_eq_none_iff.mp hRefusal)
      | some d =>
        refine ⟨d, rfl, ?_⟩
        rw [hHandler]
        cases hOff : switchedOff mlcf (matchEndpoint r.uri) with
        | true => exact List.nil_prefix
        | false =>
          have hDenied := handsOver_refused (s := ⟨response, [], mmcf⟩) rfl hRefusal
          have hNotTaken : ¬ d.Taken core r response := fun hTaken =>
            hCondition ⟨hOff, d, hRefusal, hTaken⟩
          rw [if_neg (by simp), serve_of_stopped fun hOk => hNotTaken (hDenied.ok_iff.mp hOk)]
          exact hDenied.begun
    · rw [hHandler, if_neg (by simp [hOn])]
      exact serve_of_accepted rfl (refusal_eq_none_iff.mpr hAccepts)

end Authorize

def denyAll : LocConf 64 :=
  { defaultLocConf with enabled := true, accessRules := some [⟨true, .unspec⟩] }

/-- The denial is handed over and taken, and the page goes out behind it. -/
theorem denied_dashboard_is_served :
    refusal acceptingCore (getRequest (ascii "/monitor")) denyAll freshState =
        some ⟨httpForbidden, ascii "forbidden\n", false⟩ ∧
      .outputFilter (ascii "<!doctype html>") ∈ (contentHandler acceptingCore (ascii "<!doctype html>")
        (getRequest (ascii "/monitor")) (some denyAll) freshState).2.trace ∧
      ¬ Mediated acceptingCore (ascii "<!doctype html>") (getRequest (ascii "/monitor")) denyAll
        freshState := by
  have hRefusal : refusal acceptingCore (getRequest (ascii "/monitor")) denyAll freshState =
      some ⟨httpForbidden, ascii "forbidden\n", false⟩ := by decide
  refine ⟨hRefusal, by decide, fun hMediated => ?_⟩
  obtain ⟨d, hSome, hPrefix⟩ := hMediated.refused (Or.inl (by decide))
  obtain rfl := Option.some.inj (hRefusal.symm.trans hSome)
  rw [contentHandler_eq rfl (by decide) (Or.inl rfl), if_neg (by decide)] at hPrefix
  exact serve_of_taken rfl hSome ⟨nofun, rfl, rfl⟩ hPrefix

theorem mediated_iff_deny_all :
    Mediated acceptingCore [] (getRequest (ascii "/monitor")) denyAll freshState ↔
      ¬ (switchedOff denyAll (matchEndpoint (ascii "/monitor")) = false ∧
        ∃ d, refusal acceptingCore (getRequest (ascii "/monitor")) denyAll freshState = some d ∧
          d.Taken acceptingCore (getRequest (ascii "/monitor")) freshState.response) :=
  mediated_iff rfl (by decide) (Or.inl rfl)

end HttpMonitoring.Mediation
