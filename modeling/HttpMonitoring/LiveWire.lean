import HttpMonitoring.JsonStrings
import HttpMonitoring.Library.EventStream
import HttpMonitoring.Library.JsonParser
import HttpMonitoring.LiveDocument
import HttpMonitoring.LiveStreamEvents

/-!
# A live stream as the browser receives it

The bytes that a stream hands over, read by an event source: one message for
each event, with the data of the zone at the moment of the write. A connection
that is lost anywhere loses no part of a message without losing all of it.
-/

namespace HttpMonitoring.LiveWire

open Nginx Library.JsonText Library.JsonParser Library.EventStream Library.Interleaving Accounting JsonWriter
  JsonSections JsonStrings Exchange LiveStream LiveStreamEvents LiveDocument

variable {w : Nat}

theorem ge_of_mem_number {t : Text} (h : IsNumber t) : ∀ c ∈ t, 32 ≤ c :=
  fun c hc => UInt8.le_trans (by decide) (le_of_mem_number h c hc)

theorem ge_of_mem_quoted {body : Text} (h : IsBody body) : ∀ c ∈ quoted body, 32 ≤ c := by
  intro c hc
  rcases List.mem_cons.mp hc with rfl | hc
  · decide
  · rcases List.mem_append.mp hc with hc | hc
    · exact ge_of_mem_body h c hc
    · rw [List.mem_singleton.mp hc]
      decide

theorem ge_of_mem_commaSep {texts : List Text} (h : ∀ t ∈ texts, ∀ c ∈ t, 32 ≤ c) :
    ∀ c ∈ commaSep texts, 32 ≤ c := by
  induction texts with
  | nil => exact List.forall_mem_nil _
  | cons t texts ih =>
    obtain ⟨hFirst, hRest⟩ := List.forall_mem_cons.mp h
    rw [commaSep_cons]
    intro c hc
    rcases List.mem_append.mp hc with hc | hc
    · exact hFirst c hc
    · obtain ⟨u, hu, hc⟩ := List.mem_flatMap.mp hc
      rcases List.mem_cons.mp hc with rfl | hc
      · decide
      · exact hRest u hu c hc

/-- The text of a value has no control byte in it, hence no end of a line. -/
theorem ge_of_mem_text {v : Value} (h : WellFormed v) : ∀ c ∈ v.text, 32 ≤ c := by
  induction h with
  | number h =>
    rw [text_number]
    exact ge_of_mem_number h
  | string h =>
    rw [text_string]
    exact ge_of_mem_quoted h
  | bool b => cases b <;> simp [boolText]
  | array h ih =>
    have hInside := ge_of_mem_commaSep (List.forall_mem_map.mpr ih)
    simp only [text_array, List.forall_mem_cons, List.mem_append, List.mem_singleton]
    refine ⟨by decide, fun c hc => ?_⟩
    rcases hc with hc | rfl
    · exact hInside c hc
    · decide
  | @object members hKeys hValues hDistinct ih =>
    have hMember : ∀ m ∈ members, ∀ c ∈ memberText m, 32 ≤ c := by
      intro m hm c hc
      rcases List.mem_append.mp hc with hc | hc
      · exact ge_of_mem_quoted (hKeys m hm) c hc
      · rcases List.mem_cons.mp hc with rfl | hc
        · decide
        · exact ih m hm c hc
    have hInside := ge_of_mem_commaSep (List.forall_mem_map.mpr hMember)
    simp only [text_object, List.forall_mem_cons, List.mem_append, List.mem_singleton]
    refine ⟨by decide, fun c hc => ?_⟩
    rcases hc with hc | rfl
    · exact hInside c hc
    · decide

theorem plain_of_ge {line : Text} (h : ∀ c ∈ line, 32 ≤ c) : Source.Plain line := by
  intro c hc
  have hLow := h c hc
  constructor
  · rintro rfl
    exact absurd hLow (by decide)
  · rintro rfl
    exact absurd hLow (by decide)

section Event

variable (R : Vslprintf w)

def eventLines (k : BitVec w) (data : Text) : List Text := liveLines R k ++ [ascii "data: " ++ data]

def message (k : BitVec w) (data : Text) : Message := ⟨letters "metrics", data, R.unsigned k⟩

theorem ge_of_mem_ascii {s : String} (h : (ascii s).all fun c => 32 ≤ c) : ∀ c ∈ ascii s, 32 ≤ c :=
  fun c hc => of_decide_eq_true (List.all_eq_true.mp h c hc)

variable {R}

theorem processLines_event {k : BitVec w} (hNumber : IsNumber (R.unsigned k)) (data : Text) (s : Source) :
    (eventLines R k data).foldl Source.processLine s =
      { s with
        retry := some 3000
        lastEventId := R.unsigned k
        type := letters "metrics"
        data := s.data ++ data ++ [10] } := by
  have hZero : (0 : UInt8) ∉ R.unsigned k := fun hMem => absurd (ge_of_mem_number hNumber 0 hMem) (by decide)
  have hRetry : ∀ t : Source, t.processLine (ascii "retry: 3000") = { t with retry := some 3000 } := fun t =>
    t.processLine_field (letters "retry") (by simp [letters]) (by simp [letters]) (letters "3000")
  have hHeartbeat : ∀ t : Source, t.processLine (ascii ": heartbeat " ++ R.unsigned k) = t := fun t =>
    t.processLine_comment _
  have hId : ∀ t : Source, t.processLine (ascii "id: " ++ R.unsigned k) =
      { t with lastEventId := R.unsigned k } := fun t =>
    (t.processLine_field (letters "id") (by simp [letters]) (by simp [letters]) _).trans (if_neg hZero)
  have hType : ∀ t : Source, t.processLine (ascii "event: metrics") = { t with type := letters "metrics" } :=
    fun t => t.processLine_field (letters "event") (by simp [letters]) (by simp [letters]) (letters "metrics")
  have hData : ∀ t : Source, t.processLine (ascii "data: " ++ data) = { t with data := t.data ++ data ++ [10] } :=
    fun t => t.processLine_field (letters "data") (by simp [letters]) (by simp [letters]) data
  simp only [eventLines, liveLines, List.foldl_append, List.foldl_cons, List.foldl_nil, hRetry, hHeartbeat, hId,
    hType, hData]

/-- An event between two others is one message. -/
theorem sends_event {k : BitVec w} (hNumber : IsNumber (R.unsigned k)) {data : Text} (hData : ∀ c ∈ data, 32 ≤ c) :
    Source.Sends (eventLines R k data) (message R k data) := by
  have hDigits := ge_of_mem_number hNumber
  have hSome : data ++ [10] ≠ [] := List.append_ne_nil_of_right_ne_nil data (List.cons_ne_nil _ _)
  have hDispatch : ∀ s : Source, s.Idle → ((eventLines R k data).foldl Source.processLine s).dispatch =
      { s with
        retry := some 3000
        lastEventId := R.unsigned k
        dispatched := s.dispatched ++ [message R k data] } := by
    intro s hIdle
    rw [processLines_event hNumber, Source.dispatch]
    simp only [hIdle.data, List.nil_append, hSome, if_false, List.dropLast_concat]
    rw [if_neg (by simp [letters]), hIdle.type]
    rfl
  refine ⟨?_, fun s hIdle => ?_, fun s hIdle => by rw [hDispatch s hIdle]⟩
  · have hText : ∀ (s : String) {t : Text}, ascii s ≠ [] ∧ (ascii s).all (fun c => 32 ≤ c) →
        (∀ c ∈ t, 32 ≤ c) → Source.Plain (ascii s ++ t) ∧ ascii s ++ t ≠ [] := fun s t hFront hBack =>
      ⟨plain_of_ge fun c hc => (List.mem_append.mp hc).elim (ge_of_mem_ascii hFront.2 c) (hBack c),
        List.append_ne_nil_of_left_ne_nil hFront.1 t⟩
    have hRetry := hText "retry: 3000" (by simp [ascii]) (List.forall_mem_nil _)
    have hType := hText "event: metrics" (by simp [ascii]) (List.forall_mem_nil _)
    rw [List.append_nil] at hRetry hType
    simp only [eventLines, liveLines, List.forall_mem_append, List.forall_mem_cons, List.not_mem_nil,
      false_imp_iff, implies_true, and_true]
    exact ⟨⟨hRetry, hText ": heartbeat " (by simp [ascii]) hDigits, hText "id: " (by simp [ascii]) hDigits,
      hType⟩, hText "data: " (by simp [ascii]) hData⟩
  · rw [hDispatch s hIdle]
    exact ⟨⟨hIdle.line, hIdle.afterReturn⟩, hIdle.data, hIdle.type⟩

/-- The text of an event is its lines and an empty one. -/
theorem format_eventText (clock : Clock w) (k : BitVec w) (sh : Shctx w) :
    R.format (heartbeat k ++ ssePayload clock k sh) =
      Source.eventText (eventLines R k (liveValue R clock k sh).text) := by
  rw [format_event, Source.eventText, Source.lines, eventLines, List.flatMap_append]
  simp

end Event

variable (core : Core w)

abbrev Shown (w : Nat) := Clock w × Shctx w

def eventBody (R : Vslprintf w) (shown : Shown w) (k : Nat) : Bytes :=
  R.format (heartbeat (BitVec.ofNat w k) ++ ssePayload shown.1 (BitVec.ofNat w k) shown.2)

/-- What a step from one state to another shows when it hands something over. -/
def shownBy (clock : Clock w) (s t : State w) : Option (Shown w) :=
  if handedOver t = handedOver s then none else s.getShctx.map fun sh => (clock, sh)

def shownOf (st st' : Stream w) : Label w → Option (Shown w)
  | .tick clock _ _ => shownBy clock st.state st'.state
  | _ => none

/-- What the steps of a run show, in order. -/
def shownAlong : Stream w → List (Label w) → List (Shown w)
  | _, [] => []
  | st, label :: labels =>
    match step core st label with
    | none => []
    | some st' => (shownOf st st' label).toList ++ shownAlong st' labels

/-- What a stream has shown from its start on. -/
def shown (clock : Clock w) (answer : Rc) (conf : MainConf w) (s : State w) (labels : List (Label w)) :
    List (Shown w) :=
  (shownBy clock s (opened core clock answer conf s).state).toList ++
    shownAlong core (opened core clock answer conf s) labels

theorem sseText_eq {R : Vslprintf w} {clock : Clock w} {k : BitVec w} {sh : Shctx w}
    (h : (sseText R clock k sh).length ≠ sseBuffer) :
    sseText R clock k sh = R.format (heartbeat k ++ ssePayload clock k sh) := by
  simp only [sseText, slprintf, List.nil_append] at h ⊢
  have hBelow : ((R.format (heartbeat k)).take sseBuffer ++
      R.format (ssePayload clock k sh)).length < sseBuffer := by
    rw [List.length_take] at h
    omega
  have hHead : (R.format (heartbeat k)).length < sseBuffer := by
    rw [List.length_append, List.length_take] at hBelow
    omega
  rw [List.take_of_length_le hBelow.le, format_append, List.take_of_length_le hHead.le]

/-- A write hands over nothing, or the event of the zone that it finds. -/
theorem handedOver_sseAdvance (client : SseClient w) (s : State w) :
    handedOver (sseAdvance core client s).2 = handedOver s ∨
    ∃ sh, s.getShctx = some sh ∧ handedOver (sseAdvance core client s).2 = handedOver s ++
      [core.vslprintf.format (heartbeat client.sequence ++ ssePayload core.clock client.sequence sh)] := by
  rw [sseAdvance, sseWrite]
  cases hZone : s.getShctx with
  | none => exact Or.inl (by simp [body?])
  | some sh =>
    dsimp only
    by_cases hFull : (sseText core.vslprintf core.clock client.sequence sh).length = sseBuffer
    · rw [if_pos hFull]
      exact Or.inl (by simp [body?])
    · rw [if_neg hFull]
      refine Or.inr ⟨sh, rfl, ?_⟩
      rw [← sseText_eq hFull]
      split
      · simp [State.outputFilter, body?]
      · rw [if_neg (by decide : rcOk ≠ rcError)]
        simp [State.outputFilter, addTimer, body?]

/-- What a write hands over is what it shows, with the number of the events
before it. -/
theorem shownBy_sseAdvance {client : SseClient w} {s : State w}
    (hSequence : client.sequence = BitVec.ofNat w (handedOver s).length) :
    handedOver (sseAdvance core client s).2 = handedOver s ++
      (shownBy core.clock s (sseAdvance core client s).2).toList.map
        (eventBody core.vslprintf · (handedOver s).length) := by
  rw [shownBy]
  rcases handedOver_sseAdvance core client s with hSame | ⟨sh, hZone, hHanded⟩
  · rw [hSame, if_pos rfl]
    exact (List.append_nil _).symm
  · have hMore : handedOver (sseAdvance core client s).2 ≠ handedOver s := by
      rw [hHanded]
      exact fun hSame => List.cons_ne_nil _ _ (List.append_right_eq_self.mp hSame)
    rw [if_neg hMore, hHanded, hZone, hSequence]
    rfl

theorem shownOf_step {st st' : Stream w} {label : Label w}
    (h : Numbered core.vslprintf st.client (handedOver st.state)) (hStep : step core st label = some st') :
    handedOver st'.state = handedOver st.state ++
      (shownOf st st' label).toList.map (eventBody core.vslprintf · (handedOver st.state).length) := by
  cases label with
  | tick clock answer connectionError =>
    rw [step] at hStep
    split at hStep
    · rename_i hSet
      obtain rfl := Option.some.inj hStep
      simp only [Stream.after, sseTimer, shownOf]
      split
      · simp [shownBy, body?]
      · split
        · simp [shownBy, addTimer, body?]
        · have hSequence : ({ st.client with timerSet := false } : SseClient w).sequence =
              BitVec.ofNat w (handedOver st.state).length := h.next hSet
          exact shownBy_sseAdvance (coreAt core clock answer) hSequence
    · cases hStep
  | sent =>
    rw [step] at hStep
    split at hStep
    · cases hStep
    · obtain rfl := Option.some.inj hStep
      exact (List.append_nil _).symm
  | zone sh =>
    obtain rfl := Option.some.inj hStep
    exact (List.append_nil _).symm
  | close =>
    obtain ⟨client, -, rfl⟩ := Option.map_eq_some_iff.mp hStep
    exact (List.append_nil _).symm

/-- The bodies of writes that show these, numbered from `k` on. -/
def bodiesFrom (R : Vslprintf w) (k : Nat) (shown : List (Shown w)) : List Bytes :=
  (shown.zipIdx k).map fun e => eventBody R e.1 e.2

theorem bodiesFrom_append (R : Vslprintf w) (k : Nat) (first second : List (Shown w)) :
    bodiesFrom R k (first ++ second) = bodiesFrom R k first ++ bodiesFrom R (k + first.length) second := by
  rw [bodiesFrom, List.zipIdx_append, List.map_append]
  rfl

theorem bodiesFrom_toList (R : Vslprintf w) (k : Nat) (shown : Option (Shown w)) :
    bodiesFrom R k shown.toList = shown.toList.map (eventBody R · k) := by
  cases shown <;> rfl

theorem length_bodiesFrom (R : Vslprintf w) (k : Nat) (shown : List (Shown w)) :
    (bodiesFrom R k shown).length = shown.length := by
  rw [bodiesFrom, List.length_map, List.length_zipIdx]

theorem shownAlong_run {start st : Stream w} {labels : List (Label w)}
    (h : Numbered core.vslprintf start.client (handedOver start.state))
    (hRun : run (step core) (fun _ _ => True) start labels = some st) :
    handedOver st.state = handedOver start.state ++
      bodiesFrom core.vslprintf (handedOver start.state).length (shownAlong core start labels) := by
  induction labels generalizing start with
  | nil =>
    obtain rfl : start = st := Option.some.inj hRun
    exact (List.append_nil _).symm
  | cons label labels ih =>
    rw [run, if_pos trivial] at hRun
    obtain ⟨next, hStep, hRest⟩ := Option.bind_eq_some_iff.mp hRun
    have hShown := shownOf_step core h hStep
    have hTail := ih (numbered_step core h hStep) hRest
    rw [shownAlong, hStep]
    dsimp only
    rw [bodiesFrom_append, bodiesFrom_toList, ← List.append_assoc, ← hShown, hTail, hShown, List.length_append,
      List.length_map]

theorem handedOver_shown {s : State w} (hFresh : handedOver s = []) {clock : Clock w} {answer : Rc}
    {conf : MainConf w} {labels : List (Label w)} {st : Stream w}
    (hRun : run (step core) (fun _ _ => True) (opened core clock answer conf s) labels = some st) :
    handedOver st.state = bodiesFrom core.vslprintf 0 (shown core clock answer conf s labels) := by
  have hStart : handedOver (opened core clock answer conf s).state =
      bodiesFrom core.vslprintf 0 (shownBy clock s (opened core clock answer conf s).state).toList := by
    have hLogged : handedOver (s.log .retain) = [] := by simp [hFresh, body?]
    have hSequence : (openedClient conf).sequence = BitVec.ofNat w (handedOver (s.log .retain)).length := by
      rw [hLogged]
      rfl
    have hFirst := shownBy_sseAdvance (coreAt core clock answer) hSequence
    rw [hLogged, List.nil_append] at hFirst
    have hSame : ∀ t, shownBy clock (s.log .retain) t = shownBy clock s t := by
      intro t
      rw [shownBy, shownBy, hLogged, hFresh, getShctx_log]
    rw [bodiesFrom_toList, ← hSame]
    exact hFirst
  have hLength := congrArg List.length hStart
  rw [length_bodiesFrom] at hLength
  rw [shownAlong_run core (numbered_opened core hFresh) hRun, shown, bodiesFrom_append, ← hStart, hLength,
    Nat.zero_add]

/-- The messages of writes that show these, numbered from zero on. -/
def messages (R : Vslprintf w) (shown : List (Shown w)) : List Message :=
  shown.zipIdx.map fun e =>
    message R (BitVec.ofNat w e.2) (liveValue R e.1.1 (BitVec.ofNat w e.2) e.1.2).text

/-- An event source that receives any part of what a stream has handed over, in
chunks of any size, dispatches one message for each event that has arrived as a
whole: the events in order, numbered from zero on, each with the data of the
zone that its write found. When everything has arrived these are all of them.
The data of each is read back as one JSON value. -/
theorem stream_reads_as_events (hR : core.vslprintf.Numeric) {s t : State w} {conf : MainConf w}
    (hAdmit : admitSse core s = .ok (conf, t)) (hFresh : handedOver s = []) (sh : Shctx w) (clock : Clock w)
    (answer : Rc) (labels : List (Label w)) {st : Stream w}
    (hRun : run (step core) (fun _ _ => True) (opened core clock answer conf (seeZone sh t)) labels = some st)
    {chunks : List Chunk} (hChunks : chunks.flatten <+: (handedOver st.state).flatten) :
    let seen := shown core clock answer conf (seeZone sh t) labels
    (chunks.foldl Source.receive Source.start).dispatched =
        (messages core.vslprintf seen).take (Source.arrived (handedOver st.state) chunks.flatten.length) ∧
      (chunks.flatten = (handedOver st.state).flatten →
        (chunks.foldl Source.receive Source.start).dispatched = messages core.vslprintf seen) ∧
      ∀ e ∈ seen.zipIdx, parse (liveValue core.vslprintf e.1.1 (BitVec.ofNat w e.2) e.1.2).text =
        some (liveValue core.vslprintf e.1.1 (BitVec.ofNat w e.2) e.1.2) := by
  intro seen
  have hStart : handedOver (seeZone sh t) = [] := by
    rw [handedOver_seeZone, handedOver_admitSse core hAdmit, hFresh]
  have hBodies : handedOver st.state = bodiesFrom core.vslprintf 0 seen := handedOver_shown core hStart hRun
  let events : List (List Chunk × Message) := seen.zipIdx.map fun e =>
    let k := BitVec.ofNat w e.2
    let data := (liveValue core.vslprintf e.1.1 k e.1.2).text
    (eventLines core.vslprintf k data, message core.vslprintf k data)
  have hTexts : (events.map fun e => Source.eventText e.1) = handedOver st.state := by
    rw [hBodies, bodiesFrom, List.map_map]
    exact List.map_congr_left fun e _ => (format_eventText e.1.1 (BitVec.ofNat w e.2) e.1.2).symm
  have hSends : ∀ e ∈ events, Source.Sends e.1 e.2 := by
    intro e he
    obtain ⟨⟨⟨clock, zone⟩, k⟩, -, rfl⟩ := List.mem_map.mp he
    exact sends_event (hR.unsigned _) (ge_of_mem_text (wellFormed_live hR clock _ zone))
  have hPrefix : chunks.flatten <+: events.flatMap fun e => Source.eventText e.1 := by
    rw [List.flatMap_def, hTexts]
    exact hChunks
  have hMessages : events.map Prod.snd = messages core.vslprintf seen := List.map_map
  have hDispatched : (chunks.foldl Source.receive Source.start).dispatched =
      (messages core.vslprintf seen).take (Source.arrived (handedOver st.state) chunks.flatten.length) := by
    rw [Source.receive_flatten, Source.dispatched_receive hSends Source.idle_start hPrefix, hTexts, hMessages]
    rfl
  have hLength : (handedOver st.state).length = (messages core.vslprintf seen).length := by
    rw [hBodies, length_bodiesFrom, messages, List.length_map, List.length_zipIdx]
  refine ⟨hDispatched, fun hAll => ?_, fun e _ => parse_live hR e.1.1 (BitVec.ofNat w e.2) e.1.2⟩
  rw [hDispatched, hAll, Source.arrived_flatten, hLength, List.take_length]

theorem stream_reads_as_events_slow_client : ∃ (t : State 64) (st : Stream 64),
    admitSse Handlers.acceptingCore Handlers.freshState = .ok (Handlers.defaultMain.conf, t) ∧
      run (step Handlers.acceptingCore) (fun _ _ => True)
        (opened Handlers.acceptingCore ⟨1, 0⟩ rcAgain Handlers.defaultMain.conf (seeZone countedZone t))
        slowTicks = some st ∧
      (handedOver st.state).length = 2 ∧
      let bytes := (handedOver st.state).flatten
      let sent := messages Handlers.acceptingCore.vslprintf (shown Handlers.acceptingCore ⟨1, 0⟩ rcAgain
        Handlers.defaultMain.conf (seeZone countedZone t) slowTicks)
      ([bytes.take 40].foldl Source.receive Source.start).dispatched = [] ∧
        ([bytes.take 40, bytes.drop 40].foldl Source.receive Source.start).dispatched = sent := by
  obtain ⟨t, hAdmit⟩ : ∃ t, admitSse Handlers.acceptingCore Handlers.freshState =
      .ok (Handlers.defaultMain.conf, t) := ⟨_, rfl⟩
  have hTwo : (run (step Handlers.acceptingCore) (fun _ _ => True)
      (opened Handlers.acceptingCore ⟨1, 0⟩ rcAgain Handlers.defaultMain.conf (seeZone countedZone t))
        slowTicks).map (fun st => ((handedOver st.state).length, Source.arrived (handedOver st.state) 40)) =
        some (2, 0) := by
    obtain rfl := (Prod.mk.inj (Except.ok.inj hAdmit)).2
    decide +kernel
  obtain ⟨st, hRun, hCounted⟩ := Option.map_eq_some_iff.mp hTwo
  obtain ⟨hLength, hArrived⟩ := Prod.mk.inj hCounted
  have hNumeric : Handlers.acceptingCore.vslprintf.Numeric := JsonSize.numeric_decimals
  have hCut : [(handedOver st.state).flatten.take 40].flatten <+: (handedOver st.state).flatten := by
    rw [List.flatten_singleton]
    exact List.take_prefix 40 _
  have hBoth : [(handedOver st.state).flatten.take 40, (handedOver st.state).flatten.drop 40].flatten =
      (handedOver st.state).flatten := by
    rw [List.flatten_cons, List.flatten_singleton, List.take_append_drop]
  have hWhole : [(handedOver st.state).flatten.take 40, (handedOver st.state).flatten.drop 40].flatten <+:
      (handedOver st.state).flatten := by
    rw [hBoth]
  have hMost : Source.arrived (handedOver st.state) [(handedOver st.state).flatten.take 40].flatten.length = 0 := by
    refine Nat.le_zero.mp (hArrived ▸ Source.arrived_mono _ ?_)
    rw [List.flatten_singleton]
    exact List.length_take_le 40 _
  obtain ⟨hFirst, -, -⟩ := stream_reads_as_events Handlers.acceptingCore hNumeric hAdmit rfl countedZone ⟨1, 0⟩
    rcAgain slowTicks hRun hCut
  obtain ⟨-, hAll, -⟩ := stream_reads_as_events Handlers.acceptingCore hNumeric hAdmit rfl countedZone ⟨1, 0⟩
    rcAgain slowTicks hRun hWhole
  refine ⟨t, st, hAdmit, hRun, hLength, ?_, hAll hBoth⟩
  rw [hFirst, hMost, List.take_zero]

end HttpMonitoring.LiveWire
