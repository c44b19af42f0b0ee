import HttpMonitoring.JsonSize
import HttpMonitoring.Reload

/-!
# Room for the documents

The buffer of `send_json` over whole runs: requests that are accounted, passes
of the collectors and passes of `collect_history`.
-/

namespace HttpMonitoring.JsonRoom

open Library.BoundedWriter Library.CString Library.JsonText Library.SlotTable TopTable Accounting Zone History
  JsonWriter JsonNames JsonSections JsonDocument JsonSize

variable {w : Nat}

/-- The fields that the collectors fill from the system. -/
structure Readings (w : Nat) where
  system : SystemMetric w
  connections : ConnectionMetric w
  ifaceCount : BitVec w
  ifaces : Nat → IfaceMetric w
  diskCount : BitVec w
  disks : Nat → DiskMetric w
  fsCount : BitVec w
  filesystems : Nat → FsMetric w
  workers : Nat → WorkerMetric w

def storeReadings (r : Readings w) (sh : Shctx w) : Shctx w :=
  { sh with
    system := r.system
    connections := r.connections
    ifaceCount := r.ifaceCount
    ifaces := r.ifaces
    diskCount := r.diskCount
    disks := r.disks
    fsCount := r.fsCount
    filesystems := r.filesystems
    workers := r.workers }

inductive ServiceStep (w : Nat)
  | request (c : Call w)
  | readings (r : Readings w)
  | history (clock : Clock w)

section Runs

variable (crc32 : Bytes → BitVec 32) (shpool : Bool) (conf : MainConf w)

def ServiceStep.apply : ServiceStep w → Shctx w → Shctx w
  | .request c => accountRequest crc32 conf shpool c
  | .readings r => storeReadings r
  | .history clock => collectHistory conf clock

def serviceRun (steps : List (ServiceStep w)) : Shctx w :=
  steps.foldl (fun sh s => s.apply crc32 shpool conf sh) (freshZone conf)

end Runs

structure CleanRequest (r : Request w) : Prop where
  uri : ∀ c ∈ r.uri, Printable c
  userAgent : ∀ u ∈ r.userAgent, ∀ c ∈ u, Printable c
  peers : ∀ s ∈ r.upstreamStates, ∀ p ∈ s.peer, ∀ c ∈ p, Printable c

structure CleanReadings (r : Readings w) : Prop where
  ifaces : ∀ i < ifacesMax, CleanName nameLen (r.ifaces i).name
  disks : ∀ i < disksMax, CleanName nameLen (r.disks i).name
  paths : ∀ i < filesystemsMax, CleanName keyLen (r.filesystems i).path
  types : ∀ i < filesystemsMax, CleanName nameLen (r.filesystems i).type

def ServiceStep.Clean : ServiceStep w → Prop
  | .request c => CleanRequest c.request
  | .readings r => CleanReadings r
  | .history _ => True

section Tables

variable {crc32 : Bytes → BitVec 32}

theorem clean_stored {s : Bytes} (hs : ∀ c ∈ s, Printable c) :
    CleanName keyLen (fill keyLen (s.take (min s.length (keyLen - 1)))) := by
  refine clean_fill (fun c hc => hs c (List.mem_of_mem_take hc)) ?_
  have hKeyLen : keyLen = 128 := rfl
  rw [List.length_take]
  omega

theorem clean_updateTop (crc32 : Bytes → BitVec 32) (shpool : Bool) (capacity : Nat)
    {entries : Nat → TopEntry w} {n : Nat} {c : TopCall w} (hKey : ∀ b ∈ c.key, Printable b)
    (h : ∀ i < n, CleanName keyLen (entries i).key) :
    ∀ i < n, CleanName keyLen (updateTop crc32 shpool entries capacity c i).key := by
  intro i hi
  unfold updateTop
  split
  · exact h i hi
  · cases chooseSlot crc32 entries capacity c.key with
    | found j =>
      rcases eq_or_ne i j with rfl | hij
      · rw [writeSlot, Function.update_self, (applyOps_identity _ _).1]
        exact h i hi
      · rw [writeSlot, Function.update_of_ne hij]
        exact h i hi
    | rewrite j =>
      rcases eq_or_ne i j with rfl | hij
      · rw [writeSlot, Function.update_self, (applyOps_identity _ _).1]
        exact clean_stored hKey
      · rw [writeSlot, Function.update_of_ne hij]
        exact h i hi

theorem peer_countUpstream (c : UpstreamCall w) (e : UpstreamEntry w) :
    (countUpstream c e).peer = e.peer := by
  unfold countUpstream countStatus
  split_ifs <;> rfl

theorem clean_updateUpstreamSlot {entries : Nat → UpstreamEntry w} {capacity n : Nat}
    {c : UpstreamCall w} (hPeer : ∀ b ∈ c.peer, Printable b)
    (h : ∀ i < n, CleanName keyLen (entries i).peer) :
    ∀ i < n, CleanName keyLen (updateUpstreamSlot crc32 entries capacity c i).peer := by
  intro i hi
  rw [updateUpstreamSlot_eq]
  split
  · exact h i hi
  · generalize scan _ _ _ _ _ _ = choice
    unfold writeUpstream
    cases choice with
    | found j =>
      rcases eq_or_ne i j with rfl | hij
      · simp only [Function.update_self, peer_countUpstream]
        exact h i hi
      · simp only [Function.update_of_ne hij]
        exact h i hi
    | rewrite j =>
      rcases eq_or_ne i j with rfl | hij
      · simp only [Function.update_self, peer_countUpstream]
        exact clean_stored hPeer
      · simp only [Function.update_of_ne hij]
        exact h i hi

end Tables

/-- What the size of a document rests on. -/
structure Roomy (conf : MainConf w) (sh : Shctx w) : Prop where
  clean : CleanZone sh
  small : ∀ j, SmallSample (sh.history j)
  capacity : sh.historyCapacity.toNat = historyCapacity conf
  count : sh.historyCount.toNat ≤ historyCapacity conf

section Keeps

variable {crc32 : Bytes → BitVec 32} {shpool : Bool} {conf : MainConf w} {sh : Shctx w}

theorem roomy_freshZone (hWord : historyMax < 2 ^ w) (conf : MainConf w) :
    Roomy conf (freshZone conf) := by
  obtain ⟨-, hMax⟩ := historyCapacity_bounds conf
  refine ⟨clean_freshZone conf, fun _ => small_zeroedSample, ?_, ?_⟩
  · simp [freshZone, Nat.mod_eq_of_lt (by omega : historyCapacity conf < 2 ^ w)]
  · simp [freshZone, zeroedShctx]

theorem Roomy.readings (h : Roomy conf sh) {r : Readings w} (hr : CleanReadings r) :
    Roomy conf (storeReadings r sh) :=
  ⟨{ h.clean with ifaces := hr.ifaces, disks := hr.disks, paths := hr.paths, types := hr.types },
    h.small, h.capacity, h.count⟩

/-- The counters of a request lie outside the tables and the ring. -/
theorem Roomy.ops (h : Roomy conf sh) (ops : List (AccountOp w)) :
    Roomy conf (Accounting.applyOps ops sh) := by
  obtain ⟨⟨hUrls, hAgents, hUpstreams, hIfaces, hDisks, hPaths, hTypes⟩, hSmall, hCapacity, hCount⟩ := h
  obtain ⟨requests, connections, workers, hCounts⟩ := applyOps_writes ops sh
  rw [hCounts]
  exact ⟨⟨hUrls, hAgents, hUpstreams, hIfaces, hDisks, hPaths, hTypes⟩, hSmall, hCapacity, hCount⟩

theorem Roomy.urls (h : Roomy conf sh) {c : Call w} (hc : CleanRequest c.request) :
    Roomy conf (updateUrls crc32 conf shpool c sh) :=
  have hKey : ∀ b ∈ (c.topCall c.request.uri).key, Printable b := hc.uri
  have hUrls := clean_updateTop crc32 shpool (min conf.maxTopUrls topUrlsMax) hKey h.clean.urls
  ⟨{ h.clean with urls := hUrls }, h.small, h.capacity, h.count⟩

theorem Roomy.userAgents (h : Roomy conf sh) {c : Call w} (hc : CleanRequest c.request) :
    Roomy conf (updateUserAgents crc32 shpool c sh) := by
  unfold updateUserAgents
  split
  · rename_i userAgent hSome
    have hKey : ∀ b ∈ (c.topCall userAgent).key, Printable b := hc.userAgent userAgent hSome
    have hAgents := clean_updateTop crc32 shpool topUaMax hKey h.clean.userAgents
    exact ⟨{ h.clean with userAgents := hAgents }, h.small, h.capacity, h.count⟩
  · exact h

theorem printable_peer {c : Call w} {state : UpstreamState w}
    (h : ∀ p ∈ state.peer, ∀ b ∈ p, Printable b) : ∀ b ∈ (c.upstreamCall state).peer, Printable b := by
  have hUnknown : ∀ b ∈ ascii "unknown", Printable b := by simp [ascii, Printable]
  simp only [Call.upstreamCall]
  split
  · split
    · exact h _ (by assumption)
    · exact hUnknown
  · exact hUnknown

theorem Roomy.upstreams (h : Roomy conf sh) {c : Call w} (hc : CleanRequest c.request) :
    Roomy conf (accountUpstream crc32 shpool c sh) := by
  have hFold : ∀ (states : List (UpstreamState w)) (entries : Nat → UpstreamEntry w),
      (∀ s ∈ states, ∀ p ∈ s.peer, ∀ b ∈ p, Printable b) →
      (∀ i < upstreamsMax, CleanName keyLen (entries i).peer) →
      ∀ i < upstreamsMax, CleanName keyLen (states.foldl (fun entries state =>
        updateUpstreamSlot crc32 entries upstreamsMax (c.upstreamCall state)) entries i).peer := by
    intro states
    induction states with
    | nil => exact fun _ _ hEntries => hEntries
    | cons state states ih =>
      intro entries hStates hEntries
      exact ih _ (fun s hs => hStates s (List.mem_cons_of_mem _ hs)) (clean_updateUpstreamSlot
        (printable_peer (hStates state List.mem_cons_self)) hEntries)
  unfold accountUpstream
  split
  · exact h
  · have hUpstreams := hFold _ _ hc.peers h.clean.upstreams
    exact ⟨{ h.clean with upstreams := hUpstreams }, h.small, h.capacity, h.count⟩

theorem Roomy.request (h : Roomy conf sh) {c : Call w} (hc : CleanRequest c.request) :
    Roomy conf (accountRequest crc32 conf shpool c sh) :=
  (((h.ops c.countOps).urls hc).userAgents hc).upstreams hc

theorem clean_collectHistory (h : CleanZone sh) (clock : Clock w) :
    CleanZone (collectHistory conf clock sh) := by
  unfold collectHistory
  split
  · exact h
  · unfold averaged withAverages
    split
    · exact ⟨h.urls, h.userAgents, h.upstreams, h.ifaces, h.disks, h.paths, h.types⟩
    · exact ⟨h.urls, h.userAgents, h.upstreams, h.ifaces, h.disks, h.paths, h.types⟩

theorem percentileScan_small (cells : Nat → BitVec w) (target : BitVec w) {bounds : List Nat}
    (h : ∀ bound ∈ bounds, bound < 10 ^ 5) (i : Nat) (count : BitVec w) :
    0 ≤ percentileScan cells target bounds i count ∧
      percentileScan cells target bounds i count < 10 ^ 5 := by
  induction bounds generalizing i count with
  | nil => norm_num [percentileScan]
  | cons bound bounds ih =>
    rw [percentileScan]
    split
    · exact ⟨Nat.cast_nonneg bound, by exact_mod_cast h bound List.mem_cons_self⟩
    · exact ih (fun b hb => h b (List.mem_cons_of_mem _ hb)) _ _

theorem percentile_small (m : RequestMetric w) (p : ℚ) :
    0 ≤ roundedPercentile m p ∧ roundedPercentile m p < 10 ^ 5 := by
  simp only [roundedPercentile, doublePercentile]
  split
  · norm_num
  · exact percentileScan_small _ _ (by decide) 0 0

theorem milli_small (hWord : w ≤ 64) (x : BitVec w) : 0 ≤ milli x ∧ milli x < 10 ^ 17 := by
  have hPow : 2 ^ w ≤ 2 ^ 64 := Nat.pow_le_pow_right (by omega) hWord
  have hLess : x.toNat < 10 ^ 20 := by have := x.isLt; omega
  have hCast : (x.toNat : ℚ) < 10 ^ 20 := by exact_mod_cast hLess
  refine ⟨by unfold milli; positivity, ?_⟩
  rw [milli, div_lt_iff₀ (by norm_num)]
  calc (x.toNat : ℚ) < 10 ^ 20 := hCast
    _ = 10 ^ 17 * 1000 := by norm_num

theorem small_recordedSample (hWord : w ≤ 64) (conf : MainConf w) (clock : Clock w) (sh : Shctx w) :
    SmallSample (recordedSample conf clock sh) := by
  constructor <;> simp only [recordedSample, sampleOf]
  · exact milli_small hWord _
  · exact milli_small hWord _
  · exact milli_small hWord _
  · exact percentile_small _ _

theorem count_push_le {r : RingCells w} {capacity : Nat} {sample : HistorySample w}
    (h : r.count.toNat ≤ capacity) : (r.push sample capacity).count.toNat ≤ capacity := by
  rcases Nat.lt_or_ge r.count.toNat capacity with hLess | hFull
  · rw [RingCells.push, if_pos hLess, BitVec.toNat_add]
    refine (Nat.mod_le _ _).trans ?_
    have hOne : (1 : BitVec w).toNat ≤ 1 := by
      rw [BitVec.ofNat_eq_ofNat, BitVec.toNat_ofNat]
      exact Nat.mod_le _ _
    omega
  · rwa [RingCells.push, if_neg (by omega)]

theorem Roomy.history (hWord : w ≤ 64) (h : Roomy conf sh) (clock : Clock w) :
    Roomy conf (collectHistory conf clock sh) := by
  by_cases hEarly : TooEarly conf (nowMsec clock) sh
  · rwa [collectHistory, if_pos hEarly]
  · have hRing := ringCells_collectHistory hEarly
    obtain ⟨hPositive, hMax⟩ := historyCapacity_bounds conf
    rw [Reload.writerCapacity_eq h.capacity hPositive hMax] at hRing
    refine ⟨clean_collectHistory h.clean clock, fun j => ?_, ?_, ?_⟩
    · have hSlots : (collectHistory conf clock sh).history = _ := congrArg RingCells.samples hRing
      rw [hSlots]
      simp only [RingCells.push, Function.update_apply]
      split
      · exact small_recordedSample hWord conf clock sh
      · exact h.small j
    · have hCapacity : (collectHistory conf clock sh).historyCapacity = _ :=
        congrArg RingCells.capacity hRing
      rw [hCapacity]
      exact h.capacity
    · have hCount : (collectHistory conf clock sh).historyCount = _ := congrArg RingCells.count hRing
      rw [hCount]
      exact count_push_le h.count

theorem roomy_serviceRun (hLow : historyMax < 2 ^ w) (hHigh : w ≤ 64) {steps : List (ServiceStep w)}
    (hSteps : ∀ s ∈ steps, s.Clean) : Roomy conf (serviceRun crc32 shpool conf steps) := by
  induction steps using List.reverseRecOn with
  | nil => exact roomy_freshZone hLow conf
  | append_singleton steps s ih =>
    have hBefore := ih fun t ht => hSteps t (List.mem_append_left _ ht)
    have hStep := hSteps s (List.mem_append_right _ (List.mem_singleton_self s))
    rw [serviceRun, List.foldl_append]
    cases s with
    | request c => exact hBefore.request hStep
    | readings r => exact hBefore.readings hStep
    | history clock => exact hBefore.history hHigh clock

theorem length_historySamples (sh : Shctx w) :
    (historySamples sh).length = if readerCapacity sh = 0 then 0 else readerCount sh := by
  unfold historySamples
  split
  · rfl
  · rw [List.length_map, List.length_range]

theorem Roomy.length_le (h : Roomy conf sh) : (historySamples sh).length ≤ historyCapacity conf := by
  rw [length_historySamples]
  split
  · exact Nat.zero_le _
  · exact (Nat.min_le_left _ _).trans h.count

end Keeps

/-- The largest ring that leaves room for all other slots. -/
def ringRoom : Nat := 304

theorem slotBytes_le {sh : Shctx w} (h : (historySamples sh).length ≤ ringRoom) :
    slotBytes sh ≤ slotRoom := by
  obtain ⟨hWorkers, hUpstreams, hUrls, hAgents, hIfaces, hDisks, hSystems⟩ := slotCounts_le sh
  simp only [ringRoom] at h
  simp only [slotBytes, slotRoom]
  omega

/-- In a run without control bytes every document of a section fits the buffer.
The full one fits under a ring of at most 304 samples, and under a larger ring
as long as few enough slots are in use. The names of interfaces, disks and mounts are as
clean as those of the requests, and the arrays of the two lists were allocated. -/
theorem document_fits_in_runs {R : Vslprintf w} (hR : Narrow R) (hLow : historyMax < 2 ^ w)
    (hHigh : w ≤ 64) (crc32 : Bytes → BitVec 32) (shpool : Bool) (conf : MainConf w)
    {steps : List (ServiceStep w)} (hSteps : ∀ s ∈ steps, s.Clean) {env : Env w}
    (hUrls : env.urlViews = true) (hAgents : env.userAgentViews = true) {endpoint : Endpoint}
    (hRoom : endpoint = .apiFull → historyCapacity conf ≤ ringRoom ∨
      slotBytes (serviceRun crc32 shpool conf steps) ≤ slotRoom) :
    (jsonDocument R env (serviceRun crc32 shpool conf steps) endpoint (.start jsonBuffer)).failed =
      false := by
  have hRun : Roomy conf (serviceRun crc32 shpool conf steps) := roomy_serviceRun hLow hHigh hSteps
  refine document_fits hR hUrls hAgents hRun.clean hRun.small fun hFull => ?_
  rcases hRoom hFull with hRing | hSlots
  · exact slotBytes_le (hRun.length_le.trans hRing)
  · exact hSlots

/-- The default ring after one request and one pass. -/
theorem document_fits_in_runs_default :
    (jsonDocument decimals ⟨⟨1700000002, 0⟩, 7, true, true⟩
      (serviceRun (fun _ => 0) true (withDefaults (createMainConf (w := 64)))
        [.request ⟨⟨1700000000, 0, 200, 512, 2, false, 1, [47, 97], some [99], []⟩,
          ⟨1700000000, 3⟩, ⟨0, 7⟩⟩, .history ⟨1700000001, 0⟩])
      .apiFull (.start jsonBuffer)).failed = false := by
  refine document_fits_in_runs (narrow_decimals le_rfl) (by decide) le_rfl _ _ _ ?_ rfl rfl ?_
  · intro s hs
    simp only [List.mem_cons, List.not_mem_nil, or_false] at hs
    rcases hs with rfl | rfl
    · exact ⟨by simp [Printable], by simp [Printable], by simp⟩
    · trivial
  · exact fun _ => Or.inl (by decide)

section Overflow

variable {R : Vslprintf w} (hR : R.Numeric)
include hR

set_option maxRecDepth 2000 in
theorem length_sample_ge (s : HistorySample w) : 229 ≤ (sampleValue R s).text.length := by
  have hWord := fun x => (hR.unsigned x).length_pos
  have hSigned := fun n => (hR.signed n).length_pos
  have hFixed := fun q => (hR.fixed 3 q).length_pos
  simp [sampleValue, memberText, quoted, comma, ascii]
  grind

/-- From 2280 samples on the full document never fits, whatever their values. -/
theorem document_overflows {env : Env w} {sh : Shctx w} (h : 2280 ≤ (historySamples sh).length) :
    (jsonDocument R env sh .apiFull (.start jsonBuffer)).failed = true := by
  by_contra hWritten
  rw [Bool.not_eq_true] at hWritten
  have hRenders : Renders (env.urlViews = true ∧ env.userAgentViews = true)
      (jsonDocument R env sh .apiFull) _ := renders_document R And.left And.right sh .apiFull
  have hLength := hRenders.length_le hWritten
  have hHistory : (historyValue R sh).text.length ≤
      ((sections .apiFull).flatMap fun s => comma :: memberText (ascii s.key, s.value R sh)).length := by
    rw [List.length_flatMap]
    have hMember : Section.history ∈ sections .apiFull := by decide
    refine le_trans ?_ (List.single_le_sum (fun _ _ => Nat.zero_le _) _
      (List.mem_map_of_mem hMember))
    simp only [memberText, Section.value, List.length_cons, List.length_append]
    omega
  have hSamples : (historySamples sh).length * 230 ≤
      (commaSep (((historySamples sh).map (sampleValue R)).map Value.text)).length + 1 := by
    have hSizes : ∀ t ∈ ((historySamples sh).map (sampleValue R)).map Value.text, 229 ≤ t.length := by
      simpa using fun s _ => length_sample_ge hR s
    simpa using commaSep_length_ge hSizes
  rw [documentMembers, object_text, List.flatMap_map] at hLength
  simp only [List.length_append, List.length_cons] at hLength
  simp only [historyValue, text_array, List.length_cons, List.length_append] at hHistory
  simp only [jsonBuffer] at hLength
  omega

end Overflow

/-- `monitor_history 1h` with the default resolution of a second. -/
def hourly : Directives 64 := { createMainConf with history := some 3600000 }

def everySecond (n : Nat) : List (ServiceStep 64) :=
  (List.range n).map fun k : Nat => .history ⟨k + 1, 0⟩

theorem nowMsec_everySecond (n : Nat) :
    nowMsec (⟨n + 1, 0⟩ : Clock 64) = BitVec.ofNat 64 ((n + 1) * 1000) := by
  have hCast : ((n : Int) + 1) * 1000 = (((n + 1) * 1000 : Nat) : Int) := by push_cast; rfl
  rw [nowMsec, hCast, BitVec.ofInt_natCast, BitVec.ofNat_eq_ofNat, BitVec.add_zero]

theorem everySecond_due {conf : MainConf 64} {sh : Shctx 64} {n : Nat}
    (hPrevious : sh.prevHistoryMsec = BitVec.ofNat 64 (n * 1000))
    (hResolution : conf.resolution.toNat ≤ 1000) :
    ¬ TooEarly conf (nowMsec ⟨n + 1, 0⟩) sh := by
  rintro ⟨-, hLess⟩
  have hStep : (n + 1) * 1000 - n * 1000 = 1000 := by omega
  rw [nowMsec_everySecond, hPrevious, Reload.ofNat_sub_ofNat (by omega), hStep] at hLess
  simp at hLess
  omega

theorem run_everySecond (crc32 : Bytes → BitVec 32) (shpool : Bool) {conf : MainConf 64}
    (hResolution : conf.resolution.toNat ≤ 1000) (n : Nat) (hn : n ≤ historyCapacity conf) :
    (serviceRun crc32 shpool conf (everySecond n)).prevHistoryMsec = BitVec.ofNat 64 (n * 1000) ∧
      (serviceRun crc32 shpool conf (everySecond n)).historyCount.toNat = n := by
  obtain ⟨hPositive, hMax⟩ := historyCapacity_bounds conf
  have hMaxLess : historyMax = 3600 := rfl
  induction n with
  | zero => exact ⟨rfl, rfl⟩
  | succ n ih =>
    obtain ⟨hPrevious, hCount⟩ := ih (by omega)
    have hClean : ∀ s ∈ everySecond n, s.Clean := by simp [everySecond, ServiceStep.Clean]
    have hRun : Roomy conf (serviceRun crc32 shpool conf (everySecond n)) :=
      roomy_serviceRun (by decide) le_rfl hClean
    have hDue := everySecond_due hPrevious hResolution
    have hLast : serviceRun crc32 shpool conf (everySecond (n + 1)) =
        collectHistory conf ⟨n + 1, 0⟩ (serviceRun crc32 shpool conf (everySecond n)) := by
      rw [serviceRun, everySecond, List.range_succ, List.map_append, List.foldl_append]
      rfl
    rw [hLast]
    constructor
    · rw [← nowMsec_everySecond, collectHistory, if_neg hDue]
      rfl
    · have hRing := congrArg RingCells.count (ringCells_collectHistory hDue)
      rw [Reload.writerCapacity_eq hRun.capacity hPositive hMax] at hRing
      simp only [ringCells, RingCells.push, hCount, if_pos (show n < historyCapacity conf by omega)]
        at hRing
      rw [hRing, BitVec.toNat_add, hCount]
      have hRoom : n + 1 < 2 ^ 64 := by omega
      exact Nat.mod_eq_of_lt hRoom

theorem hour_of_samples_overflows :
    initMainConf hourly = .ok (withDefaults hourly) ∧
    (jsonDocument decimals ⟨⟨3601, 0⟩, 7, true, true⟩
      (serviceRun (fun _ => 0) true (withDefaults hourly) (everySecond 3600)) .apiFull
      (.start jsonBuffer)).failed = true := by
  have hCapacity : historyCapacity (withDefaults hourly) = 3600 := by decide
  have hClean : ∀ s ∈ everySecond 3600, s.Clean := by simp [everySecond, ServiceStep.Clean]
  have hRun : Roomy (withDefaults hourly)
      (serviceRun (fun _ => 0) true (withDefaults hourly) (everySecond 3600)) :=
    roomy_serviceRun (by decide) le_rfl hClean
  have hResolution : (withDefaults hourly).resolution.toNat ≤ 1000 := by decide
  obtain ⟨-, hCount⟩ := run_everySecond (fun _ => 0) true hResolution 3600 hCapacity.ge
  refine ⟨by decide, document_overflows numeric_decimals ?_⟩
  have hReader : readerCapacity (serviceRun (fun _ => 0) true (withDefaults hourly)
      (everySecond 3600)) = 3600 := by
    rw [readerCapacity, hRun.capacity, hCapacity]
    rfl
  rw [length_historySamples, hReader, if_neg (by decide), readerCount, hCount]
  decide

end HttpMonitoring.JsonRoom
