import HttpMonitoring.Handlers
import HttpMonitoring.Library.Interleaving

/-!
# What a live stream hands over

One stream from its start on, with ticks of its timer, any answers of the
output filters and a connection that sends when it can. A buffer that was
handed over and not sent is not touched, and the events handed over are
complete and numbered without gap.
-/

namespace HttpMonitoring.LiveStreamEvents

open Nginx Accounting JsonWriter JsonSections Exchange LiveStream Handlers Library.Interleaving

variable {w : Nat}

/-- `unsent` are the slots of the buffers that the connection still has to send,
oldest first. -/
structure Stream (w : Nat) where
  client : SseClient w
  state : State w
  unsent : List Nat

inductive Label (w : Nat)
  | tick (clock : Clock w) (answer : Rc) (connectionError : Bool)
  | sent
  | zone (sh : Shctx w)
  | close

def body? : Event → Option Bytes
  | .outputFilter body => some body
  | _ => none

def handedOver (s : State w) : List Bytes := s.trace.filterMap body?

/-- The core at a moment, with the answer of its output filters. -/
def coreAt (core : Core w) (clock : Clock w) (answer : Rc) : Core w :=
  { core with clock := clock, outputFilter := fun _ => answer }

/-- The stream after a write. Unless the filters have sent everything, the buffer
handed over stays with the connection. -/
def Stream.after (st : Stream w) (answer : Rc) (p : SseClient w × State w) : Stream w where
  client := p.1
  state := p.2
  unsent := if handedOver p.2 = handedOver st.state then st.unsent
    else if answer = rcOk then [] else st.unsent ++ [p.1.slot]

variable (core : Core w)

def opened (clock : Clock w) (answer : Rc) (conf : MainConf w) (s : State w) : Stream w :=
  Stream.after ⟨openedClient conf, s, []⟩ answer (startSse (coreAt core clock answer) conf s)

/-- `connection->buffered` is set while a buffer of the stream is unsent. -/
def step (st : Stream w) : Label w → Option (Stream w)
  | .tick clock answer connectionError =>
    if st.client.timerSet then
      some (st.after answer (sseTimer (coreAt core clock answer) connectionError
        (!st.unsent.isEmpty) { st.client with timerSet := false } st.state))
    else none
  | .sent =>
    match st.unsent with
    | [] => none
    | _ :: rest => some { st with unsent := rest }
  | .zone sh => some { st with state := seeZone sh st.state }
  | .close => (sseClose st.client).map fun client => { st with client := client }

/-- A complete event with the number `k` that fits its buffer. -/
def IsEvent (R : Vslprintf w) (k : BitVec w) (body : Bytes) : Prop :=
  body.length < sseBuffer ∧ ∃ clock sh, body = R.format (heartbeat k ++ ssePayload clock k sh)

@[simp] theorem handedOver_log (s : State w) (e : Event) :
    handedOver (s.log e) = handedOver s ++ (body? e).toList := by
  rw [handedOver, trace_log, List.filterMap_append]
  cases e <;> rfl

@[simp] theorem handedOver_putShctx (s : State w) (sh : Shctx w) :
    handedOver (s.putShctx sh) = handedOver s :=
  rfl

@[simp] theorem handedOver_seeZone (sh : Shctx w) (s : State w) :
    handedOver (seeZone sh s) = handedOver s :=
  rfl

theorem format_append (R : Vslprintf w) (first second : List (Piece w)) :
    R.format (first ++ second) = R.format first ++ R.format second := by
  simp [Vslprintf.format]

theorem isEvent_sseText {R : Vslprintf w} {clock : Clock w} {k : BitVec w} {sh : Shctx w}
    (h : (sseText R clock k sh).length ≠ sseBuffer) : IsEvent R k (sseText R clock k sh) := by
  simp only [sseText, slprintf, List.nil_append] at h ⊢
  have hBelow : ((R.format (heartbeat k)).take sseBuffer ++
      R.format (ssePayload clock k sh)).length < sseBuffer := by
    rw [List.length_take] at h
    omega
  have hHead : (R.format (heartbeat k)).length < sseBuffer := by
    rw [List.length_append, List.length_take] at hBelow
    omega
  rw [List.take_of_length_le hBelow.le]
  refine ⟨hBelow, clock, sh, ?_⟩
  rw [format_append, List.take_of_length_le hHead.le]

/-- A write hands nothing over and fails, or it hands over the next event and
goes on to the next number unless the filters fail. -/
theorem sseAdvance_cases (client : SseClient w) (s : State w) :
    (handedOver (sseAdvance core client s).2 = handedOver s ∧
      (sseAdvance core client s).1.timerSet = client.timerSet) ∨
    ∃ body, IsEvent core.vslprintf client.sequence body ∧
      handedOver (sseAdvance core client s).2 = handedOver s ++ [body] ∧
      ((sseAdvance core client s).1.timerSet = client.timerSet ∨
        (sseAdvance core client s).1.sequence = client.sequence + 1) := by
  rw [sseAdvance, sseWrite]
  cases hZone : s.getShctx with
  | none => exact Or.inl ⟨by simp [body?], rfl⟩
  | some sh =>
    dsimp only
    by_cases hFull : (sseText core.vslprintf core.clock client.sequence sh).length = sseBuffer
    · rw [if_pos hFull]
      exact Or.inl ⟨by simp [body?], rfl⟩
    · rw [if_neg hFull]
      refine Or.inr ⟨_, isEvent_sseText hFull, ?_⟩
      split
      · exact ⟨by simp [State.outputFilter, body?], Or.inl rfl⟩
      · rw [if_neg (by decide : rcOk ≠ rcError)]
        exact ⟨by simp [State.outputFilter, addTimer, body?], Or.inr rfl⟩

/-- The events handed over are numbered from zero on, and a stream that goes on
has the next number. -/
structure Numbered (R : Vslprintf w) (client : SseClient w) (handed : List Bytes) : Prop where
  events : ∀ (k : Nat) (hk : k < handed.length), IsEvent R (BitVec.ofNat w k) handed[k]
  next : client.timerSet = true → client.sequence = BitVec.ofNat w handed.length

theorem Numbered.push {R : Vslprintf w} {client client' : SseClient w} {handed : List Bytes}
    {body : Bytes} (h : Numbered R client handed)
    (hBody : IsEvent R (BitVec.ofNat w handed.length) body)
    (hNext : client'.timerSet = true → client'.sequence = BitVec.ofNat w (handed.length + 1)) :
    Numbered R client' (handed ++ [body]) := by
  refine ⟨fun k hk => ?_, fun hSet => ?_⟩
  · rw [List.length_append, List.length_singleton] at hk
    rcases Nat.lt_succ_iff_lt_or_eq.mp hk with hLess | rfl
    · rw [List.getElem_append_left hLess]
      exact h.events k hLess
    · rw [List.getElem_concat_length rfl]
      exact hBody
  · rw [List.length_append, List.length_singleton]
    exact hNext hSet

theorem numbered_sseAdvance {client : SseClient w} {s : State w} (hFired : client.timerSet = false)
    (hSequence : client.sequence = BitVec.ofNat w (handedOver s).length)
    (h : Numbered core.vslprintf client (handedOver s)) :
    Numbered core.vslprintf (sseAdvance core client s).1 (handedOver (sseAdvance core client s).2) := by
  rcases sseAdvance_cases core client s with ⟨hHanded, hTimer⟩ | ⟨body, hBody, hHanded, hTimer⟩
  · rw [hHanded]
    refine ⟨h.events, fun hSet => ?_⟩
    rw [hTimer, hFired] at hSet
    cases hSet
  · rw [hHanded]
    refine h.push (hSequence ▸ hBody) fun hSet => ?_
    rcases hTimer with hTimer | hNext
    · rw [hTimer, hFired] at hSet
      cases hSet
    · rw [hNext, hSequence, BitVec.ofNat_add]
      rfl

theorem numbered_opened {clock : Clock w} {answer : Rc} {conf : MainConf w} {s : State w}
    (hFresh : handedOver s = []) :
    Numbered core.vslprintf (opened core clock answer conf s).client
      (handedOver (opened core clock answer conf s).state) := by
  have hHanded : handedOver (s.log .retain) = [] := by simp [hFresh, body?]
  refine numbered_sseAdvance (coreAt core clock answer) (s := s.log .retain) rfl ?_ ⟨?_, nofun⟩
  · rw [hHanded]
    rfl
  · rw [hHanded]
    exact fun k hk => absurd hk (Nat.not_lt_zero k)

theorem numbered_step {st st' : Stream w} {label : Label w}
    (h : Numbered core.vslprintf st.client (handedOver st.state))
    (hStep : step core st label = some st') :
    Numbered core.vslprintf st'.client (handedOver st'.state) := by
  cases label with
  | tick clock answer connectionError =>
    rw [step] at hStep
    split at hStep
    · rename_i hSet
      obtain rfl := Option.some.inj hStep
      have hFired : Numbered core.vslprintf { st.client with timerSet := false }
          (handedOver st.state) := ⟨h.events, nofun⟩
      simp only [Stream.after, sseTimer]
      split
      · simpa [body?] using hFired
      · split
        · refine ⟨?_, fun _ => ?_⟩
          · simpa [addTimer, body?] using h.events
          · simpa [addTimer, body?] using h.next hSet
        · exact numbered_sseAdvance (coreAt core clock answer) rfl (h.next hSet) hFired
    · cases hStep
  | sent =>
    rw [step] at hStep
    split at hStep
    · cases hStep
    · obtain rfl := Option.some.inj hStep
      exact h
  | zone sh =>
    obtain rfl := Option.some.inj hStep
    exact h
  | close =>
    obtain ⟨client, hClose, rfl⟩ := Option.map_eq_some_iff.mp hStep
    rw [sseClose] at hClose
    split at hClose
    · cases hClose
    · obtain rfl := Option.some.inj hClose
      exact ⟨h.events, nofun⟩

def slotMemory (client : SseClient w) (slot : Nat) : Bytes × Option SseBuf × Option SseChain :=
  (client.data slot, client.bufs slot, client.chains slot)

/-- With a buffer unsent a tick hands nothing over and takes no number. -/
theorem tick_unsent {st st' : Stream w} {clock : Clock w} {answer : Rc} {connectionError : Bool}
    (hUnsent : st.unsent ≠ []) (hStep : step core st (.tick clock answer connectionError) = some st') :
    handedOver st'.state = handedOver st.state ∧ st'.client.sequence = st.client.sequence ∧
      slotMemory st'.client = slotMemory st.client := by
  rw [step] at hStep
  split at hStep
  · obtain rfl := Option.some.inj hStep
    have hBuffered : (!st.unsent.isEmpty) = true := by simpa using hUnsent
    simp only [Stream.after, sseTimer, hBuffered, if_true]
    split
    · exact ⟨by simp [body?], rfl, rfl⟩
    · exact ⟨by simp [addTimer, body?], rfl, rfl⟩
  · cases hStep

theorem unsent_untouched {st st' : Stream w} {label : Label w}
    (hStep : step core st label = some st') {slot : Nat} (hSlot : slot ∈ st.unsent) :
    slotMemory st'.client slot = slotMemory st.client slot := by
  cases label with
  | tick clock answer connectionError =>
    obtain ⟨-, -, hSame⟩ := tick_unsent core (List.ne_nil_of_mem hSlot) hStep
    rw [hSame]
  | sent =>
    rw [step] at hStep
    split at hStep
    · cases hStep
    · obtain rfl := Option.some.inj hStep
      rfl
  | zone sh =>
    obtain rfl := Option.some.inj hStep
    rfl
  | close =>
    obtain ⟨client, hClose, rfl⟩ := Option.map_eq_some_iff.mp hStep
    rw [sseClose] at hClose
    split at hClose
    · cases hClose
    · obtain rfl := Option.some.inj hClose
      rfl

@[simp] theorem handedOver_sseHead (s : State w) : handedOver (sseHead core s) = handedOver s := by
  rw [handedOver, trace_sseHead, handedOver]

@[simp] theorem handedOver_sendHeader (s : State w) :
    handedOver (s.sendHeader core).2 = handedOver s := by
  rw [handedOver, trace_sendHeader, List.filterMap_append]
  exact List.append_nil _

theorem handedOver_admitSse {s t : State w} {conf : MainConf w}
    (h : admitSse core s = .ok (conf, t)) : handedOver t = handedOver s := by
  simp only [admitSse] at h
  split at h
  · split_ifs at h
    obtain ⟨rfl, rfl⟩ := Prod.mk.inj (Except.ok.inj h)
    simp [body?]
  · cases h

/-- The zone and the configuration of the example behind the count. -/
def countedZone : Shctx 64 := countClient (Zone.freshZone defaultMain.conf)

/-- The second tick still finds the first event unsent. -/
def slowTicks : List (Label 64) :=
  [.tick ⟨2, 0⟩ rcOk false, .sent, .tick ⟨3, 0⟩ rcAgain false]

end HttpMonitoring.LiveStreamEvents
