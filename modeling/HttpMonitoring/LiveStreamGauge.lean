import HttpMonitoring.Handlers
import HttpMonitoring.Library.Interleaving

/-!
# The gauge of the live streams

Any number of streams over one zone. A stream is opened, writes and is cleaned
up in steps of its own, and between any two of them others may move. Streams of
one worker do not interrupt each other; letting them do so only adds runs.
-/

namespace HttpMonitoring.LiveStreamGauge

open Nginx Accounting JsonWriter Exchange LiveStream Handlers Library.Interleaving

variable {w : Nat} {ι : Type*} [DecidableEq ι]

inductive Phase (w : Nat)
  | idle
  | refused
  | admitted (conf : MainConf w) (s : State w)
  | counted (conf : MainConf w) (s : State w)
  | running (client : SseClient w) (s : State w)
  | closing (client : SseClient w) (s : State w)
  | subtracting (client : SseClient w) (s : State w)

/-- The zone, and for the statements how often a stream was subtracted. -/
structure Shared (ι : Type*) (w : Nat) where
  sh : Shctx w
  subtracted : ι → Nat

inductive Label (ι : Type*) (w : Nat)
  | arrive (i : ι) (core : Core w) (s : State w)
  | count (i : ι)
  | start (i : ι) (core : Core w)
  | tick (i : ι) (core : Core w) (connectionError buffered : Bool)
  | close (i : ι)
  | test (i : ι)
  | subtract (i : ι)
  | other (sh : Shctx w)

def Shared.adopt (shared : Shared ι w) (s : State w) : Shared ι w :=
  { shared with sh := s.getShctx.getD shared.sh }

def step (cfg : Config ι (Shared ι w) (Phase w)) :
    Label ι w → Option (Config ι (Shared ι w) (Phase w))
  | .arrive i core s =>
    match cfg.phase i with
    | .idle =>
      match admitSse core (seeZone cfg.shared.sh s) with
      | .error answer => some (cfg.put i .refused (cfg.shared.adopt answer.2))
      | .ok (conf, t) => some (cfg.put i (.admitted conf t) (cfg.shared.adopt t))
    | _ => none
  | .count i =>
    match cfg.phase i with
    | .admitted conf s =>
      some (cfg.put i (.counted conf s) { cfg.shared with sh := countClient cfg.shared.sh })
    | _ => none
  | .start i core =>
    match cfg.phase i with
    | .counted conf s =>
      let p := startSse core conf (seeZone cfg.shared.sh s)
      some (cfg.put i (.running p.1 p.2) (cfg.shared.adopt p.2))
    | _ => none
  | .tick i core connectionError buffered =>
    match cfg.phase i with
    | .running client s =>
      if client.timerSet then
        let p := sseTimer core connectionError buffered { client with timerSet := false }
          (seeZone cfg.shared.sh s)
        some (cfg.put i (.running p.1 p.2) (cfg.shared.adopt p.2))
      else none
    | _ => none
  | .close i =>
    match cfg.phase i with
    | .running client s =>
      match sseClose client with
      | none => some cfg
      | some client => some (cfg.put i (.closing client s) cfg.shared)
    | _ => none
  | .test i =>
    match cfg.phase i with
    | .closing client s =>
      if s.getShctx.isSome && countsClients cfg.shared.sh then
        some (cfg.put i (.subtracting client s) cfg.shared)
      else some (cfg.put i (.running client s) cfg.shared)
    | _ => none
  | .subtract i =>
    match cfg.phase i with
    | .subtracting client s =>
      some (cfg.put i (.running client s)
        ⟨uncountClient cfg.shared.sh,
          Function.update cfg.shared.subtracted i (cfg.shared.subtracted i + 1)⟩)
    | _ => none
  | .other sh =>
    if sh.connections.sseClients = cfg.shared.sh.connections.sseClients then
      some { cfg with shared := { cfg.shared with sh := sh } }
    else none

def start (sh : Shctx w) : Config ι (Shared ι w) (Phase w) where
  shared := ⟨sh, fun _ => 0⟩
  phase _ := .idle

/-- The word of the gauge has room for the stream that is counted. -/
def Fits (cfg : Config ι (Shared ι w) (Phase w)) : Label ι w → Prop
  | .count _ => cfg.shared.sh.connections.sseClients.toNat + 1 < 2 ^ w
  | _ => True

instance (cfg : Config ι (Shared ι w) (Phase w)) : ∀ label, Decidable (Fits cfg label)
  | .count _ => inferInstanceAs (Decidable (_ < _))
  | .arrive .. | .start .. | .tick .. | .close _ | .test _ | .subtract _ | .other _ =>
    inferInstanceAs (Decidable True)

/-- Registered, and the cleanup has not run to its end. -/
def Phase.Live : Phase w → Prop
  | .idle | .refused | .admitted .. => False
  | .counted .. | .closing .. | .subtracting .. => True
  | .running client _ => client.closed = false

def liveStreams (cfg : Config ι (Shared ι w) (Phase w)) : Set ι := {i | (cfg.phase i).Live}

def gauge? (s : State w) : Option (BitVec w) := s.getShctx.map fun sh => sh.connections.sseClients

@[simp] theorem gauge?_log (s : State w) (e : Event) : gauge? (s.log e) = gauge? s := rfl

@[simp] theorem getShctx_seeZone (sh : Shctx w) (s : State w) :
    (seeZone sh s).getShctx = s.getShctx.map fun _ => sh := by
  simp only [State.getShctx, seeZone]
  cases s.mmcf <;> rfl

theorem getShctx_putShctx {s : State w} {sh : Shctx w} (hZone : s.getShctx = some sh)
    (sh' : Shctx w) : (s.putShctx sh').getShctx = some sh' := by
  obtain ⟨main, hMain, -⟩ := Option.bind_eq_some_iff.mp hZone
  simp [State.getShctx, State.putShctx, hMain]

@[simp] theorem gauge?_outputFilter (core : Core w) (s : State w) (body : Bytes) :
    gauge? (s.outputFilter core body).2 = gauge? s :=
  rfl

theorem gauge?_sseWrite (core : Core w) (client : SseClient w) (s : State w) :
    gauge? (sseWrite core client s).2.2 = gauge? s ∧
      (sseWrite core client s).2.1.closed = client.closed := by
  rw [sseWrite]
  cases hZone : s.getShctx with
  | none => exact ⟨rfl, rfl⟩
  | some sh =>
    dsimp only
    split
    · exact ⟨rfl, rfl⟩
    · split
      · exact ⟨rfl, rfl⟩
      · refine ⟨?_, rfl⟩
        have hFiltered : ∀ body, (s.outputFilter core body).2.getShctx = some sh := fun _ => hZone
        rw [gauge?, getShctx_putShctx (hFiltered _), gauge?, hZone]
        rfl

theorem gauge?_sseAdvance (core : Core w) (client : SseClient w) (s : State w) :
    gauge? (sseAdvance core client s).2 = gauge? s ∧
      (sseAdvance core client s).1.closed = client.closed := by
  obtain ⟨hGauge, hClosed⟩ := gauge?_sseWrite core client s
  rw [sseAdvance]
  dsimp only
  split
  · exact ⟨hGauge, hClosed⟩
  · exact ⟨hGauge, hClosed⟩

theorem gauge?_sseTimer (core : Core w) (connectionError buffered : Bool) (client : SseClient w)
    (s : State w) : gauge? (sseTimer core connectionError buffered client s).2 = gauge? s ∧
      (sseTimer core connectionError buffered client s).1.closed = client.closed := by
  rw [sseTimer]
  split
  · exact ⟨rfl, rfl⟩
  · split
    · exact ⟨rfl, rfl⟩
    · exact gauge?_sseAdvance core client s

@[simp] theorem getShctx_sseHead (core : Core w) (s : State w) :
    (sseHead core s).getShctx = s.getShctx := by
  have hAdd : ∀ (t : State w) (key : String) (value : Bytes),
      (t.addHeader core key value).getShctx = t.getShctx := by
    intro t key value
    rw [State.addHeader, State.pushHeader]
    split <;> rfl
  rw [sseHead]
  simp only [hAdd]
  rfl

/-- Before the count the zone is only looked at. -/
theorem getShctx_admitSse (core : Core w) (s : State w) : (match admitSse core s with
    | .error answer => answer.2.getShctx = s.getShctx
    | .ok (_, t) => t.getShctx = s.getShctx ∧ s.getShctx.isSome) := by
  have hHeader : ((sseHead core ((s.log (.send .sse)).log .discardBody)).sendHeader core).2.getShctx =
      s.getShctx := getShctx_sseHead core _
  rw [admitSse]
  dsimp only
  cases hMain : s.mmcf with
  | none => simp [hMain]
  | some main =>
    cases hZone : s.getShctx with
    | none => simp [hMain, hZone]
    | some sh =>
      simp only [mmcf_log, getShctx_log, hMain, hZone] at hHeader ⊢
      split_ifs
      · exact hHeader
      · exact hHeader
      · exact hHeader
      · exact ⟨hHeader, rfl⟩

theorem isSome_of_gauge? {s t : State w} (h : gauge? t = gauge? s) :
    t.getShctx.isSome = s.getShctx.isSome := by
  simpa [gauge?] using congrArg Option.isSome h

omit [DecidableEq ι] in
theorem adopt_gauge {shared : Shared ι w} {s t : State w}
    (h : gauge? t = gauge? (seeZone shared.sh s)) :
    (shared.adopt t).sh.connections.sseClients = shared.sh.connections.sseClients := by
  rw [gauge?, gauge?, getShctx_seeZone, Option.map_map] at h
  rw [Shared.adopt]
  cases hZone : t.getShctx with
  | none => rfl
  | some sh =>
    rw [hZone] at h
    cases hPointer : s.getShctx with
    | none =>
      rw [hPointer] at h
      cases h
    | some old =>
      rw [hPointer] at h
      exact Option.some.inj h

theorem seeZone_eq_putShctx {s : State w} (hPointer : s.getShctx.isSome) (sh : Shctx w) :
    seeZone sh s = s.putShctx sh := by
  obtain ⟨old, hZone⟩ := Option.isSome_iff_exists.mp hPointer
  obtain ⟨main, hMain, hSh⟩ := Option.bind_eq_some_iff.mp hZone
  simp [seeZone, State.putShctx, hMain, hSh]

theorem alone_opens (cfg : Config ι (Shared ι w) (Phase w)) (i : ι) (hIdle : cfg.phase i = .idle)
    (hRoom : cfg.shared.sh.connections.sseClients.toNat + 1 < 2 ^ w) (core : Core w) {s : State w}
    (hPointer : s.getShctx.isSome) : ∃ cfg', Reaches step Fits cfg cfg' ∧
      (sendSse core (seeZone cfg.shared.sh s)).2.getShctx = some cfg'.shared.sh := by
  have hZone : (seeZone cfg.shared.sh s).getShctx = some cfg.shared.sh := by
    rw [getShctx_seeZone]
    cases hOld : s.getShctx with
    | none =>
      rw [hOld] at hPointer
      cases hPointer
    | some old => rfl
  have hAdmit := getShctx_admitSse core (seeZone cfg.shared.sh s)
  rw [sendSse_eq core _ hZone]
  cases hAnswer : admitSse core (seeZone cfg.shared.sh s) with
  | error answer =>
    rw [hAnswer] at hAdmit
    have hLeft : answer.2.getShctx = some cfg.shared.sh := hAdmit.trans hZone
    refine ⟨cfg.put i .refused (cfg.shared.adopt answer.2), ?_, ?_⟩
    · exact .next (l := .arrive i core s) .start trivial (by simp [step, hIdle, hAnswer])
    · simp [Shared.adopt, hLeft]
  | ok p =>
    obtain ⟨conf, t⟩ := p
    rw [hAnswer] at hAdmit
    have hLeft : t.getShctx = some cfg.shared.sh := hAdmit.1.trans hZone
    have hAdopt : cfg.shared.adopt t = cfg.shared := by simp [Shared.adopt, hLeft]
    have hSame : seeZone (countClient cfg.shared.sh) t = t.putShctx (countClient cfg.shared.sh) :=
      seeZone_eq_putShctx (by rw [hLeft]; rfl) _
    let q := startSse core conf (t.putShctx (countClient cfg.shared.sh))
    have hStarted : q.2.getShctx.isSome := by
      have hGauge := (gauge?_sseAdvance core (openedClient conf)
        ((t.putShctx (countClient cfg.shared.sh)).log .retain)).1
      rw [show q = sseAdvance core (openedClient conf)
        ((t.putShctx (countClient cfg.shared.sh)).log .retain) from rfl,
        isSome_of_gauge? hGauge, getShctx_log, getShctx_putShctx hLeft]
      rfl
    obtain ⟨sh, hSh⟩ := Option.isSome_iff_exists.mp hStarted
    let counted : Shared ι w := { cfg.shared with sh := countClient cfg.shared.sh }
    refine ⟨cfg.put i (.running q.1 q.2) (counted.adopt q.2), ?_, ?_⟩
    · have hFirst : Reaches step Fits cfg (cfg.put i (.admitted conf t) cfg.shared) :=
        .next (l := .arrive i core s) .start trivial (by simp [step, hIdle, hAnswer, hAdopt])
      have hSecond : Reaches step Fits cfg (cfg.put i (.counted conf t) counted) :=
        .next (l := .count i) hFirst hRoom (by simp [step, Config.put_put, counted])
      exact .next (l := .start i core) hSecond trivial
        (by simp [step, Config.put_put, counted, hSame, q])
    · show q.2.getShctx = _
      simp [Shared.adopt, hSh]

/-- What is known of a stream that was subtracted `n` times. -/
def Phase.Sound : Phase w → Nat → Prop
  | .idle, n | .refused, n => n = 0
  | .admitted _ s, n | .counted _ s, n => s.getShctx.isSome ∧ n = 0
  | .running client s, n => s.getShctx.isSome ∧ n = if client.closed then 1 else 0
  | .closing client s, n | .subtracting client s, n =>
    s.getShctx.isSome ∧ client.closed = true ∧ n = 0

structure Counts (cfg : Config ι (Shared ι w) (Phase w)) : Prop where
  finite : (liveStreams cfg).Finite
  gauge : cfg.shared.sh.connections.sseClients.toNat = (liveStreams cfg).ncard
  sound : ∀ i, (cfg.phase i).Sound (cfg.shared.subtracted i)

omit [DecidableEq ι] in
theorem mem_liveStreams {cfg : Config ι (Shared ι w) (Phase w)} {i : ι} :
    i ∈ liveStreams cfg ↔ (cfg.phase i).Live :=
  Iff.rfl

theorem liveStreams_put_live (cfg : Config ι (Shared ι w) (Phase w)) (i : ι) {l : Phase w}
    (hLive : l.Live) (shared : Shared ι w) :
    liveStreams (cfg.put i l shared) = insert i (liveStreams cfg) := by
  ext j
  rcases eq_or_ne j i with rfl | hOther
  · simp [liveStreams, hLive]
  · simp [liveStreams, Config.put_phase_of_ne _ _ _ hOther, hOther]

theorem liveStreams_put_ended (cfg : Config ι (Shared ι w) (Phase w)) (i : ι) {l : Phase w}
    (hEnded : ¬ l.Live) (shared : Shared ι w) :
    liveStreams (cfg.put i l shared) = liveStreams cfg \ {i} := by
  ext j
  rcases eq_or_ne j i with rfl | hOther
  · simp [liveStreams, hEnded]
  · simp [liveStreams, Config.put_phase_of_ne _ _ _ hOther, hOther]

section Steps

variable {cfg : Config ι (Shared ι w) (Phase w)}

/-- A step that leaves the gauge alone and the stream live or not as it was. -/
theorem Counts.move (h : Counts cfg) (i : ι) {l : Phase w} {shared : Shared ι w}
    (hLive : l.Live ↔ (cfg.phase i).Live)
    (hGauge : shared.sh.connections.sseClients = cfg.shared.sh.connections.sseClients)
    (hSubtracted : shared.subtracted = cfg.shared.subtracted)
    (hSound : l.Sound (cfg.shared.subtracted i)) : Counts (cfg.put i l shared) := by
  have hSame : liveStreams (cfg.put i l shared) = liveStreams cfg := by
    by_cases hNow : l.Live
    · rw [liveStreams_put_live _ _ hNow]
      exact Set.insert_eq_of_mem (mem_liveStreams.mpr (hLive.mp hNow))
    · rw [liveStreams_put_ended _ _ hNow]
      exact Set.sdiff_singleton_eq_self fun hi => hNow (hLive.mpr (mem_liveStreams.mp hi))
  refine ⟨hSame ▸ h.finite, ?_, fun j => ?_⟩
  · rw [hSame, Config.put_shared, hGauge, h.gauge]
  · rw [Config.put_shared, hSubtracted]
    exact Config.forall_put (P := fun j (l : Phase w) => l.Sound (cfg.shared.subtracted j)) hSound
      (fun j _ => h.sound j) j

theorem Counts.count (h : Counts cfg) {i : ι} {conf : MainConf w} {s : State w}
    (hPhase : cfg.phase i = .admitted conf s)
    (hRoom : cfg.shared.sh.connections.sseClients.toNat + 1 < 2 ^ w) :
    Counts (cfg.put i (.counted conf s)
      { cfg.shared with sh := countClient cfg.shared.sh }) := by
  have hNew : i ∉ liveStreams cfg := by simp [liveStreams, hPhase, Phase.Live]
  have hLive : (Phase.counted conf s).Live := trivial
  have hAdmitted := h.sound i
  rw [hPhase] at hAdmitted
  have hSound : (Phase.counted conf s).Sound (cfg.shared.subtracted i) := hAdmitted
  refine ⟨?_, ?_, fun j => ?_⟩
  · rw [liveStreams_put_live _ _ hLive]
    exact h.finite.insert i
  · rw [liveStreams_put_live _ _ hLive, Set.ncard_insert_of_notMem hNew h.finite, ← h.gauge]
    show (cfg.shared.sh.connections.sseClients + 1).toNat = _
    rw [BitVec.toNat_add, BitVec.ofNat_eq_ofNat, BitVec.toNat_ofNat, Nat.add_mod_mod,
      Nat.mod_eq_of_lt hRoom]
  · exact Config.forall_put (P := fun j (l : Phase w) => l.Sound (cfg.shared.subtracted j)) hSound
      (fun j _ => h.sound j) j

omit [DecidableEq ι] in
theorem Counts.gauge_pos (h : Counts cfg) {i : ι} (hLive : (cfg.phase i).Live) :
    0 < cfg.shared.sh.connections.sseClients.toNat := by
  rw [h.gauge]
  exact (Set.ncard_pos h.finite).mpr ⟨i, hLive⟩

theorem Counts.subtract (h : Counts cfg) {i : ι} {client : SseClient w} {s : State w}
    (hPhase : cfg.phase i = .subtracting client s) :
    Counts (cfg.put i (.running client s) ⟨uncountClient cfg.shared.sh,
      Function.update cfg.shared.subtracted i (cfg.shared.subtracted i + 1)⟩) := by
  have hLive : (cfg.phase i).Live := by rw [hPhase]; trivial
  have hPositive := h.gauge_pos hLive
  have hSound := h.sound i
  rw [hPhase] at hSound
  obtain ⟨hPointer, hClosed, hNever⟩ := hSound
  have hEnded : ¬ (Phase.running client s).Live := by simp [Phase.Live, hClosed]
  refine ⟨?_, ?_, fun j => ?_⟩
  · rw [liveStreams_put_ended _ _ hEnded]
    exact h.finite.sdiff
  · rw [liveStreams_put_ended _ _ hEnded,
      Set.ncard_sdiff_singleton_of_mem (mem_liveStreams.mpr hLive), ← h.gauge]
    show (cfg.shared.sh.connections.sseClients - 1).toNat = _
    have hBound := cfg.shared.sh.connections.sseClients.isLt
    rw [BitVec.toNat_sub, BitVec.ofNat_eq_ofNat, BitVec.toNat_ofNat]
    rw [Nat.mod_eq_of_lt (by omega : 1 < 2 ^ w),
      show 2 ^ w - 1 + cfg.shared.sh.connections.sseClients.toNat =
        cfg.shared.sh.connections.sseClients.toNat - 1 + 2 ^ w by omega,
      Nat.add_mod_right, Nat.mod_eq_of_lt (by omega)]
  · rcases eq_or_ne j i with rfl | hOther
    · simp only [Config.put_phase_self, Config.put_shared, Function.update_self, hNever]
      exact ⟨hPointer, by rw [hClosed]; rfl⟩
    · simp only [Config.put_phase_of_ne _ _ _ hOther, Config.put_shared,
        Function.update_of_ne hOther]
      exact h.sound j

theorem admit_shared {cfg' : Config ι (Shared ι w) (Phase w)} {i : ι} {core : Core w} {s : State w}
    (hStep : step cfg (.arrive i core s) = some cfg') : cfg'.shared = cfg.shared := by
  have hSame : ∀ t : State w, t.getShctx = (seeZone cfg.shared.sh s).getShctx →
      cfg.shared.adopt t = cfg.shared := by
    intro t hZone
    rw [Shared.adopt, hZone, getShctx_seeZone]
    cases s.getShctx <;> rfl
  have hAdmit := getShctx_admitSse core (seeZone cfg.shared.sh s)
  rw [step] at hStep
  split at hStep
  · split at hStep
    · rename_i answer hAnswer
      rw [hAnswer] at hAdmit
      obtain rfl := Option.some.inj hStep
      exact hSame _ hAdmit
    · rename_i conf t hAnswer
      rw [hAnswer] at hAdmit
      obtain rfl := Option.some.inj hStep
      exact hSame _ hAdmit.1
  · cases hStep

theorem Counts.arrive (h : Counts cfg) {cfg' : Config ι (Shared ι w) (Phase w)} {i : ι}
    {core : Core w} {s : State w} (hStep : step cfg (.arrive i core s) = some cfg') : Counts cfg' := by
  have hShared := admit_shared hStep
  have hAdmit := getShctx_admitSse core (seeZone cfg.shared.sh s)
  rw [step] at hStep
  split at hStep
  · rename_i hPhase
    have hNever := h.sound i
    rw [hPhase] at hNever
    have hEnded : ¬ (cfg.phase i).Live := by simp [hPhase, Phase.Live]
    split at hStep
    · obtain rfl := Option.some.inj hStep
      rw [Config.put_shared] at hShared
      exact h.move i (iff_of_false id hEnded) (by rw [hShared]) (by rw [hShared]) hNever
    · rename_i conf t hAnswer
      rw [hAnswer] at hAdmit
      obtain rfl := Option.some.inj hStep
      rw [Config.put_shared] at hShared
      refine h.move i (iff_of_false id hEnded) (by rw [hShared]) (by rw [hShared]) ⟨?_, hNever⟩
      rw [hAdmit.1]
      exact hAdmit.2
  · cases hStep

/-- A call that keeps the gauge and the flag of the cleanup, made for a stream
that is not closed or no longer counted. -/
theorem Counts.call (h : Counts cfg) {i : ι} {s : State w} {closed : Bool}
    {p : SseClient w × State w} (hGauge : gauge? p.2 = gauge? (seeZone cfg.shared.sh s))
    (hClosed : p.1.closed = closed) (hLive : closed = false ↔ (cfg.phase i).Live)
    (hPointer : s.getShctx.isSome) (hNumber : cfg.shared.subtracted i = if closed then 1 else 0) :
    Counts (cfg.put i (.running p.1 p.2) (cfg.shared.adopt p.2)) := by
  refine h.move i ?_ (adopt_gauge hGauge) rfl ⟨?_, ?_⟩
  · rw [← hLive, ← hClosed]
    rfl
  · rw [isSome_of_gauge? hGauge, getShctx_seeZone, Option.isSome_map, hPointer]
  · rw [hClosed, hNumber]

theorem Counts.start (h : Counts cfg) {i : ι} {conf : MainConf w} {s : State w}
    (hPhase : cfg.phase i = .counted conf s) (core : Core w) :
    let p := startSse core conf (seeZone cfg.shared.sh s)
    Counts (cfg.put i (.running p.1 p.2) (cfg.shared.adopt p.2)) := by
  have hSound := h.sound i
  rw [hPhase] at hSound
  obtain ⟨hGauge, hClosed⟩ := gauge?_sseAdvance core (openedClient conf) ((seeZone cfg.shared.sh s).log .retain)
  have hLive : (cfg.phase i).Live := by rw [hPhase]; trivial
  exact h.call hGauge hClosed (iff_of_true rfl hLive) hSound.1 hSound.2

theorem Counts.tick (h : Counts cfg) {i : ι} {client : SseClient w} {s : State w}
    (hPhase : cfg.phase i = .running client s) (core : Core w) (connectionError buffered : Bool) :
    let p := sseTimer core connectionError buffered { client with timerSet := false } (seeZone cfg.shared.sh s)
    Counts (cfg.put i (.running p.1 p.2) (cfg.shared.adopt p.2)) := by
  have hSound := h.sound i
  rw [hPhase] at hSound
  obtain ⟨hGauge, hClosed⟩ := gauge?_sseTimer core connectionError buffered { client with timerSet := false }
    (seeZone cfg.shared.sh s)
  have hLive : client.closed = false ↔ (cfg.phase i).Live := by rw [hPhase]; rfl
  exact h.call hGauge hClosed hLive hSound.1 hSound.2

theorem Counts.close (h : Counts cfg) {i : ι} {client client' : SseClient w} {s : State w}
    (hPhase : cfg.phase i = .running client s) (hClose : sseClose client = some client') :
    Counts (cfg.put i (.closing client' s) cfg.shared) := by
  have hSound := h.sound i
  rw [hPhase] at hSound
  obtain ⟨hPointer, hNumber⟩ := hSound
  rw [sseClose] at hClose
  split at hClose
  · cases hClose
  · rename_i hOpen
    obtain rfl := Option.some.inj hClose
    have hLive : (cfg.phase i).Live := by
      rw [hPhase]
      exact Bool.eq_false_iff.mpr hOpen
    rw [if_neg hOpen] at hNumber
    exact h.move i (iff_of_true trivial hLive) rfl rfl ⟨hPointer, rfl, hNumber⟩

/-- The cleanup of a counted stream finds the gauge above zero. -/
theorem Counts.test (h : Counts cfg) {i : ι} {client : SseClient w} {s : State w}
    (hPhase : cfg.phase i = .closing client s) :
    (s.getShctx.isSome && countsClients cfg.shared.sh) = true ∧
      Counts (cfg.put i (.subtracting client s) cfg.shared) := by
  have hLive : (cfg.phase i).Live := by rw [hPhase]; trivial
  have hSound := h.sound i
  rw [hPhase] at hSound
  refine ⟨?_, h.move i (iff_of_true trivial hLive) rfl rfl hSound⟩
  simpa [countsClients] using ⟨hSound.1, h.gauge_pos hLive⟩

omit [DecidableEq ι] in
theorem Counts.other (h : Counts cfg) {sh : Shctx w}
    (hGauge : sh.connections.sseClients = cfg.shared.sh.connections.sseClients) :
    Counts { cfg with shared := { cfg.shared with sh := sh } } := by
  refine ⟨h.finite, ?_, h.sound⟩
  show sh.connections.sseClients.toNat = _
  rw [hGauge, h.gauge]
  rfl

theorem Counts.next (h : Counts cfg) {cfg' : Config ι (Shared ι w) (Phase w)} {label : Label ι w}
    (hFits : Fits cfg label) (hStep : step cfg label = some cfg') : Counts cfg' := by
  cases label with
  | arrive i core s => exact h.arrive hStep
  | count i =>
    rw [step] at hStep
    split at hStep
    · rename_i hPhase
      obtain rfl := Option.some.inj hStep
      exact h.count hPhase hFits
    · cases hStep
  | start i core =>
    rw [step] at hStep
    split at hStep
    · rename_i hPhase
      obtain rfl := Option.some.inj hStep
      exact h.start hPhase core
    · cases hStep
  | tick i core connectionError buffered =>
    rw [step] at hStep
    split at hStep
    · rename_i hPhase
      split at hStep
      · obtain rfl := Option.some.inj hStep
        exact h.tick hPhase core connectionError buffered
      · cases hStep
    · cases hStep
  | close i =>
    rw [step] at hStep
    split at hStep
    · rename_i hPhase
      split at hStep
      · obtain rfl := Option.some.inj hStep
        exact h
      · rename_i hClose
        obtain rfl := Option.some.inj hStep
        exact h.close hPhase hClose
    · cases hStep
  | test i =>
    rw [step] at hStep
    split at hStep
    · rename_i hPhase
      obtain ⟨hTest, hCounts⟩ := h.test hPhase
      rw [if_pos hTest] at hStep
      obtain rfl := Option.some.inj hStep
      exact hCounts
    · cases hStep
  | subtract i =>
    rw [step] at hStep
    split at hStep
    · rename_i hPhase
      obtain rfl := Option.some.inj hStep
      exact h.subtract hPhase
    · cases hStep
  | other sh =>
    rw [step] at hStep
    split at hStep
    · rename_i hGauge
      obtain rfl := Option.some.inj hStep
      exact h.other hGauge
    · cases hStep

end Steps

omit [DecidableEq ι] in
theorem counts_start {sh : Shctx w} (hNone : sh.connections.sseClients = 0) :
    Counts (start (ι := ι) sh) := by
  have hEmpty : liveStreams (start (ι := ι) sh) = ∅ := by
    ext i
    simp [liveStreams, start, Phase.Live]
  refine ⟨?_, ?_, fun _ => rfl⟩
  · rw [hEmpty]
    exact Set.finite_empty
  · rw [hEmpty, Set.ncard_empty]
    simp [start, hNone]

/-- The gauge is the number of the streams that were registered and whose
cleanup has not run; a subtraction finds it above zero, no stream is subtracted
twice, and an opening that is refused leaves the zone as it was. -/
theorem gauge_counts_streams {sh : Shctx w} (hNone : sh.connections.sseClients = 0)
    {cfg : Config ι (Shared ι w) (Phase w)} (h : Reaches step Fits (start sh) cfg) :
    cfg.shared.sh.connections.sseClients.toNat = (liveStreams cfg).ncard ∧
      (liveStreams cfg).Finite ∧
      (∀ i client s, cfg.phase i = .subtracting client s →
        0 < cfg.shared.sh.connections.sseClients.toNat) ∧
      (∀ i, cfg.shared.subtracted i ≤ 1) ∧
      ∀ i core s cfg', step cfg (.arrive i core s) = some cfg' → cfg'.shared = cfg.shared := by
  have hCounts : Counts cfg :=
    h.invariant (counts_start hNone) fun _ _ _ hInv hFits hStep => hInv.next hFits hStep
  refine ⟨hCounts.gauge, hCounts.finite, fun i client s hPhase => ?_, fun i => ?_,
    fun i core s cfg' hStep => admit_shared hStep⟩
  · exact hCounts.gauge_pos (by rw [hPhase]; trivial)
  · have hSound := hCounts.sound i
    cases hPhase : cfg.phase i with
    | idle | refused =>
      rw [hPhase] at hSound
      exact hSound.le.trans (Nat.zero_le 1)
    | admitted conf s | counted conf s =>
      rw [hPhase] at hSound
      exact hSound.2.le.trans (Nat.zero_le 1)
    | running client s =>
      rw [hPhase] at hSound
      rw [hSound.2]
      split <;> decide
    | closing client s | subtracting client s =>
      rw [hPhase] at hSound
      exact hSound.2.2.le.trans (Nat.zero_le 1)

/-- The second stream opens while the first is cleaned up. -/
def twoStreams : List (Label (Fin 2) 64) :=
  [.arrive 0 acceptingCore freshState, .count 0, .start 0 acceptingCore,
    .arrive 1 acceptingCore freshState, .close 0, .test 0, .count 1, .subtract 0, .close 0,
    .start 1 acceptingCore]

theorem gauge_counts_two_streams : ∃ cfg : Config (Fin 2) (Shared (Fin 2) 64) (Phase 64),
    run step Fits (start (Zone.freshZone defaultMain.conf)) twoStreams = some cfg ∧
      cfg.shared.sh.connections.sseClients = 1 ∧ cfg.shared.sh.connections.sseClients.toNat =
        (liveStreams cfg).ncard := by
  have hOne : (run step Fits (start (Zone.freshZone defaultMain.conf)) twoStreams).map
      (fun cfg => cfg.shared.sh.connections.sseClients) = some 1 := by
    decide +kernel
  obtain ⟨cfg, hRun, hGauge⟩ := Option.map_eq_some_iff.mp hOne
  exact ⟨cfg, hRun, hGauge, (gauge_counts_streams rfl (.of_run hRun)).1⟩

end HttpMonitoring.LiveStreamGauge
