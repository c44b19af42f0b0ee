import HttpMonitoring.Handlers
import HttpMonitoring.WriterMemory

/-!
# Answers without truncated pieces

Every document is a run of calls on the writer. A sender hands over what such a
run has put out only if the writer has not failed, and then it is the whole
document.
-/

namespace HttpMonitoring.WholeAnswers

open Library.BoundedWriter Library.ByteMemory Library.JsonText JsonWriter JsonSections JsonDocument
  Nginx Exchange Senders WriterMemory

variable {w : Nat}

section Made

variable (R : Vslprintf w)

def onList (calls : List (Call w)) (jw : Jw) : Jw :=
  (calls.flatMap Call.moments).foldl (fun jw m => m.onList R jw) jw

/-- Unless it fails, the action makes these calls. -/
def Makes (f : Jw → Jw) (calls : List (Call w)) : Prop :=
  ∀ jw, (f jw).failed = false → f jw = onList R calls jw

def Made (f : Jw → Jw) : Prop := ∃ calls, Makes R f calls

variable {R}

theorem renders_onList (calls : List (Call w)) :
    Renders True (onList R calls) (calls.flatMap (Call.rendering R)) :=
  (renders_moments R _).cast (rendering_moments R calls)

theorem onList_append (calls calls' : List (Call w)) (jw : Jw) :
    onList R (calls ++ calls') jw = onList R calls' (onList R calls jw) := by
  rw [onList, onList, onList, List.flatMap_append, List.foldl_append]

theorem made_append (s : Bytes) : Made R (jsonAppend s) := ⟨[.append s], fun _ _ => rfl⟩

theorem made_printf (pieces : List (Piece w)) : Made R (jsonPrintf R pieces) :=
  ⟨[.printf pieces], fun _ _ => rfl⟩

theorem made_string (data : Bytes) : Made R (jsonString R data) := by
  refine ⟨[.string data], fun jw _ => ?_⟩
  rw [jsonString, onList, List.flatMap_singleton, Call.moments, List.foldl_cons, List.foldl_append,
    List.foldl_map]
  rfl

theorem made_fail : Made R Output.fail := ⟨[], nofun⟩

theorem made_skip : Made R fun jw => jw := ⟨[], fun _ _ => rfl⟩

theorem Made.comp {f g : Jw → Jw} (hf : Made R f) (hg : Made R g) : Made R fun jw => g (f jw) := by
  obtain ⟨calls, hf⟩ := hf
  obtain ⟨calls', hg⟩ := hg
  refine ⟨calls ++ calls', fun jw h => ?_⟩
  have hSecond : g (f jw) = onList R calls' (f jw) := hg (f jw) h
  have hWritten : (onList R calls' (f jw)).failed = false := hSecond ▸ h
  rw [onList_append, ← hf jw ((renders_onList calls').notFailed hWritten)]
  exact hSecond

theorem made_ite {p : Prop} [Decidable p] {f g : Jw → Jw} (hf : Made R f) (hg : Made R g) :
    Made R (if p then f else g) := by
  split
  · exact hf
  · exact hg

theorem made_comma (first : Prop) [Decidable first] :
    Made R fun jw => if first then jw else jsonAppend (ascii ",") jw := by
  split
  · exact made_skip
  · exact made_append _

theorem made_forEach {n : Nat} {body : Nat → Jw → Jw} (h : ∀ i, Made R (body i)) :
    Made R (forEach n body) := by
  unfold forEach
  generalize List.range n = items
  induction items with
  | nil => exact made_skip
  | cons i items ih => exact ((made_comma (i = 0)).comp (h i)).comp ih

theorem made_forOccupied {n : Nat} {occupied : Nat → Bool} {body : Nat → Jw → Jw}
    (h : ∀ i, Made R (body i)) : Made R (forOccupied n occupied body) := by
  have hItems : ∀ (items : List Nat) (count : Nat), Made R fun jw =>
      (items.foldl (fun (p : Jw × Nat) i => if occupied i then
        (body i (if p.2 = 0 then p.1 else jsonAppend (ascii ",") p.1), p.2 + 1) else p) (jw, count)).1 := by
    intro items
    induction items with
    | nil => exact fun _ => made_skip
    | cons i items ih =>
      intro count
      cases hi : occupied i with
      | false => simpa only [List.foldl_cons, hi, Bool.false_eq_true, if_false] using ih count
      | true =>
        simpa only [List.foldl_cons, hi, if_true] using ((made_comma (count = 0)).comp (h i)).comp (ih (count + 1))
  exact hItems (List.range n) 0

theorem made_system (sh : Shctx w) : Made R (jsonSystem R sh) := made_printf _

theorem made_iface (m : IfaceMetric w) : Made R (jsonIface R m) :=
  ((made_append _).comp (made_string _)).comp (made_printf _)

theorem made_network (sh : Shctx w) : Made R (jsonNetwork R sh) :=
  ((made_printf _).comp (made_forEach fun i => made_iface (sh.ifaces i))).comp (made_append _)

theorem made_device (m : DiskMetric w) : Made R (jsonDevice R m) :=
  ((made_append _).comp (made_string _)).comp (made_printf _)

theorem made_filesystem (m : FsMetric w) : Made R (jsonFilesystem R m) :=
  ((((made_append _).comp (made_string _)).comp (made_append _)).comp (made_string _)).comp (made_printf _)

theorem made_disk (sh : Shctx w) : Made R (jsonDisk R sh) :=
  ((((made_printf _).comp (made_forEach fun i => made_device (sh.disks i))).comp (made_append _)).comp
    (made_forEach fun i => made_filesystem (sh.filesystems i))).comp (made_append _)

theorem made_workers (sh : Shctx w) : Made R (jsonWorkers R sh) :=
  ((made_append _).comp (made_forOccupied fun _ => made_printf _)).comp (made_append _)

theorem made_processes (sh : Shctx w) : Made R (jsonProcesses R sh) :=
  ((made_printf _).comp (made_workers sh)).comp (made_append _)

theorem made_nginx (sh : Shctx w) : Made R (jsonNginx R sh) :=
  ((made_printf _).comp (made_workers sh)).comp (made_append _)

theorem made_connections (sh : Shctx w) : Made R (jsonConnections R sh) := made_printf _

theorem made_upstream (u : UpstreamEntry w) : Made R (jsonUpstream R u) :=
  ((made_append _).comp (made_string _)).comp (made_printf _)

theorem made_upstreams (sh : Shctx w) : Made R (jsonUpstreams R sh) :=
  ((made_append _).comp (made_forOccupied fun i => made_upstream (sh.upstreams i))).comp (made_append _)

theorem made_latencyBucket (m : RequestMetric w) (i : Nat) : Made R (jsonLatencyBucket R m i) := by
  unfold jsonLatencyBucket
  split <;> exact made_printf _

theorem made_sizeBucket (m : RequestMetric w) (i : Nat) : Made R (jsonSizeBucket R m i) := by
  unfold jsonSizeBucket
  split <;> exact made_printf _

theorem made_topEntry (keyName : String) (v : TopView w) : Made R (jsonTopEntry R keyName v) :=
  ((((made_append _).comp (made_append _)).comp (made_append _)).comp (made_string _)).comp (made_printf _)

theorem made_topEntries (view : Bool) (entries : Nat → TopEntry w) (capacity : Nat) (keyName : String) :
    Made R (jsonTopEntries R view entries capacity keyName) := by
  cases view with
  | false => exact made_fail
  | true => exact ((made_append _).comp (made_forEach fun _ => made_topEntry keyName _)).comp (made_append _)

theorem made_requests (env : Env w) (sh : Shctx w) : Made R (jsonRequests R env sh) :=
  ((((((((((made_printf _).comp (made_forEach fun _ => made_printf _)).comp (made_append _)).comp
    (made_forEach fun i => made_latencyBucket sh.requests i)).comp (made_append _)).comp
    (made_forEach fun i => made_sizeBucket sh.requests i)).comp (made_append _)).comp
    (made_topEntries _ _ _ _)).comp (made_append _)).comp (made_topEntries _ _ _ _)).comp (made_append _)

theorem made_history (sh : Shctx w) : Made R (jsonHistory R sh) := by
  unfold jsonHistory
  split
  · exact made_append _
  · exact ((made_append _).comp (made_forEach fun _ => made_printf _)).comp (made_append _)

theorem made_section {body : Jw → Jw} (h : Made R body) (endpoint own : Endpoint) (name : String) :
    Made R (jsonSection endpoint own name body) := by
  unfold jsonSection
  split
  · exact (made_append _).comp h
  · exact made_skip

theorem made_document (env : Env w) (sh : Shctx w) (endpoint : Endpoint) :
    Made R (jsonDocument R env sh endpoint) :=
  ((((((((((made_printf _).comp (made_section (made_system sh) _ _ _)).comp
    (made_section (made_nginx sh) _ _ _)).comp (made_section (made_network sh) _ _ _)).comp
    (made_section (made_disk sh) _ _ _)).comp (made_section (made_processes sh) _ _ _)).comp
    (made_section (made_upstreams sh) _ _ _)).comp (made_section (made_connections sh) _ _ _)).comp
    (made_section (made_requests env sh) _ _ _)).comp (made_section (made_history sh) _ _ _)).comp
    (made_append _)

theorem made_health (env : Env w) (sh : Shctx w) : Made R (healthDocument R env sh) :=
  (made_printf _).comp (made_printf _)

theorem made_prometheus (sh : Shctx w) : Made R (prometheusDocument R sh) :=
  (((((((((made_append _).comp (made_printf _)).comp (made_append _)).comp (made_printf _)).comp
    (made_append _)).comp (made_printf _)).comp (made_append _)).comp
    (made_ite (made_printf _) (made_append _))).comp (made_append _)).comp (made_printf _)

end Made

inductive Answer
  | json (endpoint : Endpoint)
  | prometheus
  | health

namespace Answer

def sender : Answer → Sender
  | json endpoint => .json endpoint
  | prometheus => .prometheus
  | health => .health

def size : Answer → Nat
  | json _ => jsonBuffer
  | prometheus => prometheusBuffer
  | health => healthBuffer

def send (core : Core w) (r : HttpRequest w) : Answer → State w → Rc × State w
  | json endpoint => sendJson core r endpoint
  | prometheus => sendPrometheus core r
  | health => sendHealth core r

def document (core : Core w) (sh : Shctx w) : Answer → Jw → Jw
  | json endpoint => jsonDocument core.vslprintf (env core) sh endpoint
  | prometheus => prometheusDocument core.vslprintf sh
  | health => healthDocument core.vslprintf (env core) sh

theorem made_document (core : Core w) (sh : Shctx w) (answer : Answer) :
    Made core.vslprintf (answer.document core sh) := by
  cases answer with
  | json endpoint => exact WholeAnswers.made_document (env core) sh endpoint
  | prometheus => exact made_prometheus sh
  | health => exact made_health (env core) sh

end Answer

/-- The answers of a sender that hands over nothing. -/
def senderErrors : List Rc := [httpServiceUnavailable, httpInternalServerError]

section Senders

variable (core : Core w) (r : HttpRequest w)

/-- What is handed over behind the entry of a sender. -/
def delivery (response : Response) (text : Bytes) : List Event :=
  .discardBody :: .sendHeader response :: if r.method = httpHead then [] else [.outputFilter text]

theorem sendBuffer_delivers (text type : Bytes) (s : State w) : ∃ response : Response,
    response.status = httpOk ∧ response.contentLength = text.length ∧
      (sendBuffer core r text type s).2.trace = s.trace ++ delivery r response text := by
  let head := (addNoStore core (s.log .discardBody)).withHead httpOk text.length type
  by_cases hHead : r.method = httpHead
  · refine ⟨head.onlyHeader.response, rfl, rfl, ?_⟩
    simp [sendBuffer, delivery, hHead, head]
  · refine ⟨head.response, rfl, rfl, ?_⟩
    simp [sendBuffer, delivery, hHead, head]

/-- An error is answered without a header; anything else is what a writer that
has not failed put out. -/
theorem sendDocument_cases (sender : Sender) (size : Nat) (document : Shctx w → Jw → Jw) (type : Bytes)
    (s : State w) :
    ((sendDocument core r sender size document type s).1 ∈ senderErrors ∧
      (sendDocument core r sender size document type s).2.trace = s.trace ++ [.send sender]) ∨
    ∃ sh, ∃ response : Response, s.getShctx = some sh ∧ (document sh (Output.start size)).failed = false ∧
      response.status = httpOk ∧ response.contentLength = (document sh (Output.start size)).out.length ∧
      (sendDocument core r sender size document type s).2.trace =
        s.trace ++ .send sender :: delivery r response (document sh (Output.start size)).out := by
  rw [sendDocument]
  dsimp only
  rw [getShctx_log]
  cases s.getShctx with
  | none => exact Or.inl ⟨by simp [senderErrors], rfl⟩
  | some sh =>
    dsimp only
    split
    · exact Or.inl ⟨by simp [senderErrors], rfl⟩
    · split
      · exact Or.inl ⟨by simp [senderErrors], rfl⟩
      · rename_i hWritten
        obtain ⟨response, hStatus, hLength, hTrace⟩ := sendBuffer_delivers core r
          (document sh (Output.start size)).out type (s.log (.send sender))
        refine Or.inr ⟨sh, response, rfl, Bool.eq_false_iff.mpr hWritten, hStatus, hLength, ?_⟩
        rw [hTrace, trace_log, List.append_assoc, List.singleton_append]

variable (vslprintf : Printf w)

/-- The sender answers with an error and hands over nothing, or its calls have
all gone into the buffer, whatever is in memory, and what they were meant to
write is the whole of what it hands over with status 200. -/
def AnswersWhole (answer : Answer) (s : State w) : Prop :=
  ((answer.send core r s).1 ∈ senderErrors ∧
    (answer.send core r s).2.trace = s.trace ++ [.send answer.sender]) ∨
  ∃ sh calls, ∃ response : Response, s.getShctx = some sh ∧
    Makes core.vslprintf (answer.document core sh) calls ∧
    (∀ mem buf, (written vslprintf mem buf answer.size calls).failed = false ∧
      load (written vslprintf mem buf answer.size calls).mem buf
        ((written vslprintf mem buf answer.size calls).pos - buf) =
          calls.flatMap (Call.rendering core.vslprintf)) ∧
    response.status = httpOk ∧
    response.contentLength = (calls.flatMap (Call.rendering core.vslprintf)).length ∧
    (answer.send core r s).2.trace = s.trace ++ .send answer.sender ::
      delivery r response (calls.flatMap (Call.rendering core.vslprintf))

variable {core vslprintf}

theorem answersWhole (hCore : WritesPrefix core.vslprintf vslprintf) (answer : Answer) (s : State w) :
    AnswersWhole core r vslprintf answer s := by
  have hSend : ∃ type, answer.send core r s =
      sendDocument core r answer.sender answer.size (fun sh => answer.document core sh) type s := by
    cases answer <;> exact ⟨_, rfl⟩
  obtain ⟨type, hSend⟩ := hSend
  rw [AnswersWhole, hSend]
  rcases sendDocument_cases core r answer.sender answer.size (fun sh => answer.document core sh) type s with
    hError | ⟨sh, response, hZone, hWritten, hStatus, hLength, hTrace⟩
  · exact Or.inl hError
  · obtain ⟨calls, hMakes⟩ := answer.made_document core sh
    have hRun : answer.document core sh (Output.start answer.size) = onList core.vslprintf calls _ :=
      hMakes _ hWritten
    rw [hRun] at hWritten hLength hTrace
    have hOut := (renders_onList calls).out_start hWritten
    rw [hOut] at hLength hTrace
    refine Or.inr ⟨sh, calls, response, hZone, hMakes, fun mem buf => ?_, hStatus, hLength, hTrace⟩
    have hMemory := abstracts_written hCore mem buf answer.size calls
    have hOpen := hMemory.failed.trans hWritten
    exact ⟨hOpen, (allOrNothing hCore mem buf answer.size calls).whole hOpen⟩

end Senders

/-- The writer in memory puts out all or nothing, and so do the senders. -/
theorem output_all_or_nothing {R : Vslprintf w} {vslprintf : Printf w} (hCore : WritesPrefix R vslprintf) :
    (∀ mem buf size calls, AllOrNothing R vslprintf mem buf size calls) ∧
      ∀ core : Core w, core.vslprintf = R → ∀ r answer s, AnswersWhole core r vslprintf answer s := by
  refine ⟨allOrNothing hCore, ?_⟩
  rintro core rfl r answer s
  exact answersWhole r hCore answer s

def truncating (R : Vslprintf w) : Printf w := fun mem buf last pieces =>
  let s := (R.format pieces).take (last - buf)
  (buf + s.length, store mem buf s)

theorem writesPrefix_truncating (R : Vslprintf w) : WritesPrefix R (truncating R) where
  writes mem buf last pieces hRoom := by
    refine ⟨min (last - buf) (R.format pieces).length, min_le_right _ _, by omega, ?_, by omega⟩
    rw [truncating, List.length_take, ← List.take_take, List.take_length]

/-- A quote in a string, and a number that just does not fit. -/
def quoteAndNumber : List (Call 64) := [.append (ascii "["), .string [34], .printf [.uA 7]]

theorem quote_and_number_all_or_nothing :
    (written (truncating JsonSize.decimals) (fun _ => 0) 100 7 quoteAndNumber).failed = false ∧
      (written (truncating JsonSize.decimals) (fun _ => 0) 100 6 quoteAndNumber).failed = true ∧
      load (written (truncating JsonSize.decimals) (fun _ => 0) 100 7 quoteAndNumber).mem 100
        ((written (truncating JsonSize.decimals) (fun _ => 0) 100 7 quoteAndNumber).pos - 100) =
          [91, 34, 92, 34, 34, 55] ∧
      AnswersWhole Handlers.acceptingCore (Handlers.getRequest (ascii "/monitor/health"))
        (truncating JsonSize.decimals) .health Handlers.freshState := by
  have hBoth := output_all_or_nothing (writesPrefix_truncating (JsonSize.decimals (w := 64)))
  have hWritten : (written (truncating JsonSize.decimals) (fun _ => 0) 100 7 quoteAndNumber).failed = false := by
    decide +kernel
  have hText : quoteAndNumber.flatMap (Call.rendering JsonSize.decimals) = [91, 34, 92, 34, 34, 55] := by
    decide +kernel
  exact ⟨hWritten, by decide +kernel, ((hBoth.1 (fun _ => 0) 100 7 quoteAndNumber).whole hWritten).trans hText,
    hBoth.2 Handlers.acceptingCore rfl _ .health Handlers.freshState⟩

end HttpMonitoring.WholeAnswers
