import Mathlib

/-!
# Streams of server-sent events

What a browser's event source makes of the bytes of a `text/event-stream`, one
byte at a time: lines, fields, and the messages it dispatches at empty lines. A
byte order mark in front of the stream is not looked for.
-/

namespace HttpMonitoring.Library.EventStream

abbrev Chunk := List UInt8

def letters (s : String) : Chunk := s.toList.map fun c => UInt8.ofNat c.toNat

structure Message where
  type : Chunk
  data : Chunk
  lastEventId : Chunk
deriving DecidableEq

/-- `line` is the unfinished line, and `afterReturn` says that a line feed now
belongs to the carriage return before it. -/
structure Source where
  line : Chunk
  afterReturn : Bool
  data : Chunk
  type : Chunk
  lastEventId : Chunk
  retry : Option Nat
  dispatched : List Message
deriving DecidableEq

namespace Source

def start : Source := ⟨[], false, [], [], [], none, []⟩

def isDigit (c : UInt8) : Bool := 48 ≤ c && c ≤ 57

def digitsValue (value : Chunk) : Nat := value.foldl (fun n c => 10 * n + (c.toNat - 48)) 0

def field (name value : Chunk) (s : Source) : Source :=
  if name = letters "event" then { s with type := value }
  else if name = letters "data" then { s with data := s.data ++ value ++ [10] }
  else if name = letters "id" then if 0 ∈ value then s else { s with lastEventId := value }
  else if name = letters "retry" then
    if value ≠ [] ∧ value.all isDigit then { s with retry := some (digitsValue value) } else s
  else s

/-- An event without data is dropped; otherwise the last line feed of the data
goes. -/
def dispatch (s : Source) : Source :=
  if s.data = [] then { s with type := [] }
  else
    { s with
      data := []
      type := []
      dispatched := s.dispatched ++
        [⟨if s.type = [] then letters "message" else s.type, s.data.dropLast, s.lastEventId⟩] }

/-- What stands behind the first colon of a line, without one space in front. -/
def fieldValue (line : Chunk) : Chunk :=
  let value := (line.dropWhile (· ≠ 58)).tail
  if value.head? = some 32 then value.tail else value

def processLine (s : Source) (line : Chunk) : Source :=
  if line = [] then s.dispatch
  else if line.head? = some 58 then s
  else s.field (line.takeWhile (· ≠ 58)) (fieldValue line)

def feed (s : Source) (c : UInt8) : Source :=
  if c = 10 ∧ s.afterReturn then { s with afterReturn := false }
  else if c = 10 ∨ c = 13 then
    { processLine { s with line := [] } s.line with afterReturn := c = 13 }
  else { s with line := s.line ++ [c], afterReturn := false }

/-- The source after it has received the bytes. -/
def receive (s : Source) (bytes : Chunk) : Source := bytes.foldl feed s

/-- However the bytes are cut into chunks. -/
theorem receive_flatten (s : Source) (chunks : List Chunk) :
    chunks.foldl receive s = s.receive chunks.flatten := by
  induction chunks generalizing s with
  | nil => rfl
  | cons chunk chunks ih =>
    rw [List.foldl_cons, ih, List.flatten_cons, receive, receive, receive, List.foldl_append]

theorem processLine_comment (s : Source) (line : Chunk) : s.processLine (58 :: line) = s := by
  rw [processLine, if_neg (List.cons_ne_nil _ _), List.head?_cons, if_pos rfl]

/-- A field with a space behind its colon. -/
theorem processLine_field (s : Source) (name : Chunk) (hSome : name ≠ []) (hName : ∀ c ∈ name, c ≠ 58)
    (value : Chunk) : s.processLine (name ++ 58 :: 32 :: value) = s.field name value := by
  have hPlain : ∀ c ∈ name, decide (c ≠ 58) = true := fun c hc => decide_eq_true (hName c hc)
  have hTake : (name ++ 58 :: 32 :: value).takeWhile (· ≠ 58) = name := by
    rw [List.takeWhile_append_of_pos hPlain]
    simp
  have hDrop : (name ++ 58 :: 32 :: value).dropWhile (· ≠ 58) = 58 :: 32 :: value := by
    rw [List.dropWhile_append_of_pos hPlain]
    rfl
  have hFirst : (name ++ 58 :: 32 :: value).head? ≠ some 58 := by
    rw [List.head?_append_of_ne_nil _ hSome]
    exact fun hColon => hName 58 (List.mem_of_mem_head? hColon) rfl
  have hLine : name ++ 58 :: 32 :: value ≠ [] := fun hNone => hSome (List.append_eq_nil_iff.mp hNone).1
  rw [processLine, if_neg hLine, if_neg hFirst, hTake, fieldValue, hDrop]
  rfl

/-- A line without a line end in it. -/
def Plain (line : Chunk) : Prop := ∀ c ∈ line, c ≠ 10 ∧ c ≠ 13

def lines (texts : List Chunk) : Chunk := texts.flatMap fun line => line ++ [10]

/-- At the start of a line. -/
structure Ready (s : Source) : Prop where
  line : s.line = []
  afterReturn : s.afterReturn = false

theorem receive_append (s : Source) (t u : Chunk) : s.receive (t ++ u) = (s.receive t).receive u :=
  List.foldl_append

theorem receive_open {s : Source} (h : s.afterReturn = false) {t : Chunk} (ht : Plain t) :
    s.receive t = { s with line := s.line ++ t } := by
  induction t generalizing s with
  | nil =>
    rw [List.append_nil]
    rfl
  | cons c t ih =>
    obtain ⟨⟨hFeed, hReturn⟩, ht⟩ := List.forall_mem_cons.mp ht
    have hNext : s.feed c = { s with line := s.line ++ [c] } := by
      rw [feed, if_neg fun hBoth => hFeed hBoth.1, if_neg (not_or.mpr ⟨hFeed, hReturn⟩), h]
    have hRest : (s.feed c).receive t = { s.feed c with line := (s.feed c).line ++ t } :=
      ih (by rw [hNext]; exact h) ht
    rw [receive, List.foldl_cons, ← receive, hRest, hNext]
    simp only [List.append_assoc, List.singleton_append]

theorem ready_field {s : Source} (h : s.Ready) (name value : Chunk) : (s.field name value).Ready := by
  rw [field]
  split_ifs <;> exact ⟨h.line, h.afterReturn⟩

theorem ready_dispatch {s : Source} (h : s.Ready) : s.dispatch.Ready := by
  rw [dispatch]
  split <;> exact ⟨h.line, h.afterReturn⟩

theorem ready_processLine {s : Source} (h : s.Ready) (line : Chunk) : (s.processLine line).Ready := by
  rw [processLine]
  split
  · exact ready_dispatch h
  · split
    · exact h
    · exact ready_field h _ _

/-- A line that has arrived with its line feed has been processed. -/
theorem receive_line {s : Source} (h : s.Ready) {line : Chunk} (hLine : Plain line) :
    s.receive (line ++ [10]) = s.processLine line := by
  have hReady := ready_processLine h line
  have hSame : { s with line := [] } = s := by rw [← h.line]
  have hFeed : ({ s with line := line } : Source).feed 10 =
      { s.processLine line with afterReturn := false } := by
    rw [feed, if_neg (by simp [h.afterReturn]), if_pos (Or.inl rfl)]
    simp only [hSame]
    rfl
  rw [receive_append, receive_open h.afterReturn hLine, h.line, List.nil_append, receive, List.foldl_cons,
    List.foldl_nil, hFeed, ← hReady.afterReturn]

theorem receive_lines {s : Source} (h : s.Ready) {texts : List Chunk} (hTexts : ∀ line ∈ texts, Plain line) :
    s.receive (lines texts) = texts.foldl processLine s := by
  induction texts generalizing s with
  | nil => rfl
  | cons line texts ih =>
    obtain ⟨hLine, hTexts⟩ := List.forall_mem_cons.mp hTexts
    rw [lines, List.flatMap_cons, receive_append, receive_line h hLine, List.foldl_cons]
    exact ih (ready_processLine h line) hTexts

theorem prefix_append_cases {p t u : Chunk} (h : p <+: t ++ u) : p <+: t ∨ ∃ q, p = t ++ q ∧ q <+: u := by
  rcases List.prefix_or_prefix_of_prefix h (List.prefix_append t u) with hFront | ⟨q, rfl⟩
  · exact Or.inl hFront
  · exact Or.inr ⟨q, rfl, (List.prefix_append_right_inj t).mp h⟩

theorem dispatched_processLine {s : Source} {line : Chunk} (h : line ≠ []) :
    (s.processLine line).dispatched = s.dispatched := by
  rw [processLine, if_neg h, field]
  split_ifs <;> rfl

/-- Only an empty line dispatches. -/
theorem dispatched_receive_prefix {s : Source} (h : s.Ready) {texts : List Chunk}
    (hTexts : ∀ line ∈ texts, Plain line ∧ line ≠ []) {p : Chunk} (hp : p <+: lines texts) :
    (s.receive p).dispatched = s.dispatched := by
  induction texts generalizing s p with
  | nil =>
    obtain rfl := List.prefix_nil.mp hp
    rfl
  | cons line texts ih =>
    obtain ⟨⟨hLine, hSome⟩, hTexts⟩ := List.forall_mem_cons.mp hTexts
    rw [lines, List.flatMap_cons] at hp
    rcases prefix_append_cases hp with hOpen | ⟨q, rfl, hq⟩
    · rcases prefix_append_cases hOpen with hInside | ⟨q, rfl, hq⟩
      · have hPlain : Plain p := fun c hc => hLine c (hInside.subset hc)
        rw [receive_open h.afterReturn hPlain]
      · rcases List.prefix_cons_iff.mp hq with rfl | ⟨rest, rfl, hRest⟩
        · rw [List.append_nil, receive_open h.afterReturn hLine]
        · obtain rfl := List.prefix_nil.mp hRest
          rw [receive_line h hLine, dispatched_processLine hSome]
    · rw [receive_append, receive_line h hLine, ih (ready_processLine h line) hTexts hq,
        dispatched_processLine hSome]

structure Idle (s : Source) : Prop extends Ready s where
  data : s.data = []
  type : s.type = []

theorem idle_start : start.Idle := ⟨⟨rfl, rfl⟩, rfl, rfl⟩

def eventText (texts : List Chunk) : Chunk := lines texts ++ [10]

/-- Between two events the lines stand for the message. -/
structure Sends (texts : List Chunk) (message : Message) : Prop where
  plain : ∀ line ∈ texts, Plain line ∧ line ≠ []
  idle : ∀ s : Source, s.Idle → (texts.foldl processLine s).dispatch.Idle
  dispatched : ∀ s : Source, s.Idle →
    (texts.foldl processLine s).dispatch.dispatched = s.dispatched ++ [message]

theorem receive_event {s : Source} (h : s.Ready) {texts : List Chunk} (hTexts : ∀ line ∈ texts, Plain line) :
    s.receive (eventText texts) = (texts.foldl processLine s).dispatch := by
  have hLines := receive_lines h hTexts
  have hReady : (texts.foldl processLine s).Ready := by
    clear hLines hTexts
    induction texts generalizing s with
    | nil => exact h
    | cons line texts ih => exact ih (ready_processLine h line)
  have hEmpty : Plain [] := List.forall_mem_nil _
  have hEnd := receive_line hReady hEmpty
  rw [eventText, receive_append, hLines]
  exact hEnd

/-- How many of the texts are whole among the first bytes of all of them. -/
def arrived : List Chunk → Nat → Nat
  | [], _ => 0
  | text :: texts, received =>
    if text.length ≤ received then arrived texts (received - text.length) + 1 else 0

theorem arrived_mono (texts : List Chunk) {received received' : Nat} (h : received ≤ received') :
    arrived texts received ≤ arrived texts received' := by
  induction texts generalizing received received' with
  | nil => exact le_rfl
  | cons text texts ih =>
    rw [arrived, arrived]
    split
    · rw [if_pos (by omega)]
      exact Nat.succ_le_succ (ih (by omega))
    · exact Nat.zero_le _

theorem arrived_flatten (texts : List Chunk) : arrived texts texts.flatten.length = texts.length := by
  induction texts with
  | nil => rfl
  | cons text texts ih =>
    rw [arrived, List.flatten_cons, List.length_append, if_pos (Nat.le_add_right _ _), Nat.add_sub_cancel_left, ih,
      List.length_cons]

/-- Of a stream that stops anywhere, exactly the events that have arrived as a
whole are dispatched. -/
theorem dispatched_receive {events : List (List Chunk × Message)} (hEvents : ∀ e ∈ events, Sends e.1 e.2)
    {s : Source} (h : s.Idle) {p : Chunk} (hp : p <+: events.flatMap fun e => eventText e.1) :
    (s.receive p).dispatched = s.dispatched ++
      (events.map Prod.snd).take (arrived (events.map fun e => eventText e.1) p.length) := by
  induction events generalizing s p with
  | nil =>
    obtain rfl := List.prefix_nil.mp hp
    exact (List.append_nil _).symm
  | cons e events ih =>
    obtain ⟨hEvent, hEvents⟩ := List.forall_mem_cons.mp hEvents
    have hWhole : s.receive (eventText e.1) = (e.1.foldl processLine s).dispatch :=
      receive_event h.toReady fun line hLine => (hEvent.plain line hLine).1
    rw [List.flatMap_cons] at hp
    rw [List.map_cons, List.map_cons, arrived]
    by_cases hLength : (eventText e.1).length ≤ p.length
    · obtain ⟨q, rfl, hq⟩ : ∃ q, p = eventText e.1 ++ q ∧ q <+: events.flatMap fun e => eventText e.1 := by
        rcases prefix_append_cases hp with hFront | hBehind
        · exact ⟨[], by rw [List.append_nil]; exact hFront.eq_of_length_le hLength, List.nil_prefix⟩
        · exact hBehind
      have hRest := ih hEvents (hEvent.idle s h) hq
      rw [if_pos hLength, receive_append, hWhole, hRest, hEvent.dispatched s h, List.take_succ_cons,
        List.append_assoc, List.singleton_append, List.length_append, Nat.add_sub_cancel_left]
    · have hInside : p <+: lines e.1 := by
        rcases prefix_append_cases hp with hFront | ⟨q, rfl, -⟩
        · rcases List.prefix_concat_iff.mp hFront with rfl | hFront
          · exact absurd le_rfl hLength
          · exact hFront
        · exact absurd (by rw [List.length_append]; exact Nat.le_add_right _ _) hLength
      rw [if_neg hLength, List.take_zero, List.append_nil]
      exact dispatched_receive_prefix h.toReady hEvent.plain hInside

end Source

end HttpMonitoring.Library.EventStream
