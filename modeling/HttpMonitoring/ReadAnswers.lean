import HttpMonitoring.Library.JsonParser
import HttpMonitoring.JsonAnswers
import HttpMonitoring.LiveStreamEvents
import HttpMonitoring.WholeAnswers

/-!
# Reading the JSON answers

What a JSON endpoint hands over is read back, by a parser that knows nothing of
the writer, as the document of the zone.
-/

namespace HttpMonitoring.ReadAnswers

open Nginx Library.BoundedWriter Library.JsonText Library.JsonParser JsonWriter JsonNames JsonSections
  JsonDocument JsonAnswers Exchange Senders Handlers LiveStreamEvents WholeAnswers

variable {w : Nat}

theorem out_jsonAnswer {R : Vslprintf w} {env : Env w} {sh : Shctx w} {endpoint : Endpoint}
    (hWritten : (jsonAnswer R env sh endpoint).failed = false) : (jsonAnswer R env sh endpoint).out =
      (Value.object (answerMembers R env sh endpoint)).text ++ ascii "\n" := by
  unfold jsonAnswer answerMembers at *
  split at hWritten <;> rename_i hHealth
  · rw [if_pos hHealth, if_pos hHealth]
    have hRenders : Renders True (healthDocument R env sh) _ := renders_health R env sh
    exact hRenders.out_start hWritten
  · rw [if_neg hHealth, if_neg hHealth]
    have hRenders : Renders (env.urlViews = true ∧ env.userAgentViews = true)
        (jsonDocument R env sh endpoint) _ := renders_document R And.left And.right sh endpoint
    exact hRenders.out_start hWritten

theorem parse_jsonAnswer {R : Vslprintf w} (hR : R.Numeric) {env : Env w} {sh : Shctx w} (hClean : CleanZone sh)
    {endpoint : Endpoint} (hEndpoint : endpoint ∈ jsonEndpoints)
    (hWritten : (jsonAnswer R env sh endpoint).failed = false) :
    parse (jsonAnswer R env sh endpoint).out = some (.object (answerMembers R env sh endpoint)) := by
  have hNewline : ∀ c ∈ ascii "\n", isBlank c = true := by
    simp [ascii, isBlank]
  rw [out_jsonAnswer hWritten]
  exact parse_text (wellFormed_answer hR env hClean hEndpoint) hNewline

theorem handedOver_append (s : State w) {t : State w} {events : List Event} (h : t.trace = s.trace ++ events) :
    handedOver t = handedOver s ++ events.filterMap body? := by
  rw [handedOver, h, List.filterMap_append]
  rfl

/-- What a document sender hands over as a body: nothing after an error and for
HEAD, and otherwise all that its writer put out. -/
theorem handedOver_sendDocument (core : Core w) (r : HttpRequest w) (sender : Sender) (size : Nat)
    (document : Shctx w → Jw → Jw) (type : Bytes) (s : State w) :
    handedOver (sendDocument core r sender size document type s).2 = handedOver s ∧
      ((sendDocument core r sender size document type s).1 ∈ senderErrors ∨ r.method = httpHead) ∨
    ∃ sh, s.getShctx = some sh ∧ (document sh (Output.start size)).failed = false ∧
      handedOver (sendDocument core r sender size document type s).2 =
        handedOver s ++ [(document sh (Output.start size)).out] := by
  rcases sendDocument_cases core r sender size document type s with
    ⟨hError, hTrace⟩ | ⟨sh, response, hZone, hWritten, -, -, hTrace⟩
  · exact Or.inl ⟨by rw [handedOver_append s hTrace]; simp [body?], Or.inl hError⟩
  · have hHanded := handedOver_append s hTrace
    by_cases hHead : r.method = httpHead
    · refine Or.inl ⟨?_, Or.inr hHead⟩
      rw [hHanded, delivery, if_pos hHead]
      exact List.append_nil _
    · exact Or.inr ⟨sh, hZone, hWritten, by rw [hHanded, delivery, if_neg hHead]; rfl⟩

theorem read_jsonEndpoint {core : Core w} (hR : core.vslprintf.Numeric) (html : Bytes) (r : HttpRequest w)
    {endpoint : Endpoint} (hEndpoint : endpoint ∈ jsonEndpoints) {s : State w} {sh : Shctx w}
    (hZone : s.getShctx = some sh) (hClean : CleanZone sh) :
    handedOver (sendEndpoint core html r endpoint s).2 = handedOver s ∧
      ((sendEndpoint core html r endpoint s).1 ∈ senderErrors ∨ r.method = httpHead) ∨
    ∃ body, handedOver (sendEndpoint core html r endpoint s).2 = handedOver s ++ [body] ∧
      parse body = some (.object (answerMembers core.vslprintf (env core) sh endpoint)) := by
  have hDocument : ∃ sender size type, sendEndpoint core html r endpoint s =
      sendDocument core r sender size
        (fun sh jw => if endpoint = .health then healthDocument core.vslprintf (env core) sh jw
          else jsonDocument core.vslprintf (env core) sh endpoint jw) type s ∧
      size = if endpoint = .health then healthBuffer else jsonBuffer := by
    simp only [jsonEndpoints, List.mem_cons, List.not_mem_nil, or_false] at hEndpoint
    rcases hEndpoint with rfl | rfl | rfl | rfl | rfl | rfl | rfl | rfl | rfl | rfl <;>
      exact ⟨_, _, _, rfl, rfl⟩
  obtain ⟨sender, size, type, hSend, hSize⟩ := hDocument
  rw [hSend]
  refine (handedOver_sendDocument core r sender size _ type s).imp id ?_
  rintro ⟨sh', hZone', hWritten, hHanded⟩
  obtain rfl := Option.some.inj (hZone.symm.trans hZone')
  refine ⟨_, hHanded, ?_⟩
  have hAnswer : (if endpoint = .health then healthDocument core.vslprintf (env core) sh (Output.start size)
      else jsonDocument core.vslprintf (env core) sh endpoint (Output.start size)) =
      jsonAnswer core.vslprintf (env core) sh endpoint := by
    rw [jsonAnswer, hSize]
    split <;> rfl
  rw [hAnswer] at hWritten ⊢
  exact parse_jsonAnswer hR hClean hEndpoint hWritten

/-- A JSON endpoint answers an error, or a request for the header alone, or it
hands over one body, which is read as the document of the zone. -/
theorem jsonEndpoint_reads_back {core : Core w} (hR : core.vslprintf.Numeric) (html : Bytes)
    (r : HttpRequest w) {endpoint : Endpoint} (hEndpoint : endpoint ∈ jsonEndpoints) {s : State w}
    {sh : Shctx w} (hZone : s.getShctx = some sh) (hClean : CleanZone sh) :
    handedOver (sendEndpoint core html r endpoint s).2 = handedOver s ∧
      ((sendEndpoint core html r endpoint s).1 ∈ senderErrors ∨ r.method = httpHead) ∨
    ∃ body, handedOver (sendEndpoint core html r endpoint s).2 = handedOver s ++ [body] ∧
      parse body = some (.object (answerMembers core.vslprintf (env core) sh endpoint)) :=
  read_jsonEndpoint hR html r hEndpoint hZone hClean

/-- The example zone with the default configuration. -/
def twoPeersState : State 64 :=
  { freshState with mmcf := some { defaultMain with sh := some twoPeers } }

theorem clean_twoPeers : CleanZone twoPeers := by
  have hFresh := clean_freshZone (Zone.withDefaults (Zone.createMainConf (w := 64)))
  refine { hFresh with upstreams := fun i hi => ?_ }
  simp only [twoPeers]
  split
  · exact clean_fill (by simp [Printable]) (by simp [keyLen])
  · exact hFresh.upstreams i hi

theorem jsonEndpoint_reads_back_two_peers : ∃ body,
    handedOver (sendEndpoint acceptingCore [] (getRequest (ascii "/monitor/api/upstreams")) .apiUpstreams
      twoPeersState).2 = [body] ∧
    parse body = some (.object (answerMembers acceptingCore.vslprintf (env acceptingCore) twoPeers
      .apiUpstreams)) := by
  have hWritten : (jsonDocument acceptingCore.vslprintf (env acceptingCore) twoPeers .apiUpstreams
      (Output.start jsonBuffer)).failed = false :=
    JsonSize.document_fits (JsonSize.narrow_decimals le_rfl) rfl rfl clean_twoPeers
      (fun _ => JsonSize.small_zeroedSample) (by simp)
  have hAnswer : (sendEndpoint acceptingCore [] (getRequest (ascii "/monitor/api/upstreams")) .apiUpstreams
      twoPeersState).1 = rcOk := by
    have hZone : (twoPeersState.log (.send (.json .apiUpstreams))).getShctx = some twoPeers := rfl
    rw [sendEndpoint, sendJson, sendDocument]
    · simp only [hZone, hWritten]
      rfl
    all_goals
      intro hSame
      cases hSame
  have hNumeric : acceptingCore.vslprintf.Numeric := JsonSize.numeric_decimals
  have hListed : Endpoint.apiUpstreams ∈ jsonEndpoints := by decide
  have hZone : twoPeersState.getShctx = some twoPeers := rfl
  rcases jsonEndpoint_reads_back hNumeric [] (getRequest (ascii "/monitor/api/upstreams")) hListed hZone
    clean_twoPeers with ⟨-, hNone⟩ | hBody
  · rw [hAnswer] at hNone
    exact absurd hNone (by decide)
  · exact hBody

end HttpMonitoring.ReadAnswers
