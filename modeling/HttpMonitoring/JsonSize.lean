import HttpMonitoring.JsonDocument
import HttpMonitoring.JsonNames
import HttpMonitoring.Library.Decimal

/-!
# The size of the documents

What the slots in use can take at most, and that a document of this size fits
the buffer of `send_json`.
-/

namespace HttpMonitoring.JsonSize

open Library.BoundedWriter Library.CString Library.JsonText Library.Decimal TopTable Accounting
  History Zone JsonWriter JsonNames JsonSections JsonDocument

variable {w : Nat}

/-- How wide the core prints: a 64-bit integer takes at most 20 bytes, and a
double a sign and two of them, unless its value is known to be small. -/
structure Narrow (R : Vslprintf w) : Prop where
  unsigned : ∀ x, (R.unsigned x).length ≤ 20
  msec : ∀ x, (R.msec x).length ≤ 20
  signed : ∀ n, (R.signed n).length ≤ 20
  fixed : ∀ digits ≤ 20, ∀ q, (R.fixed digits q).length ≤ 42
  fixedSmall : ∀ digits k q, k ≤ 18 → 0 ≤ q → q < 10 ^ k →
    (R.fixed digits q).length ≤ k + 2 + digits

/-- The decimal conversions: an integer argument has 64 bits, and a double
beyond them has no defined text. Behind the modifiers of the numeric escape the
loop copies the terminator of the format; the next byte in memory ends it here. -/
def decimals : Vslprintf w where
  unsigned x := natText x.toNat
  msec x := if x = -1 then intText (-1) else natText x.toNat
  signed n := intText (BitVec.ofInt 64 n).toInt
  fixed digits q := if |q| < 2 ^ 63 then fixedText digits q else natText 0
  hex4 _ := [0]

theorem numeric_decimals : (decimals (w := w)).Numeric where
  unsigned _ := isNumber_natText _
  msec x := by
    simp only [decimals]
    split
    · exact isNumber_intText _
    · exact isNumber_natText _
  signed _ := isNumber_intText _
  fixed digits q := by
    simp only [decimals]
    split
    · exact isNumber_fixedText digits q
    · exact isNumber_natText 0

theorem narrow_decimals (hWord : w ≤ 64) : Narrow (decimals (w := w)) := by
  have hWide : ∀ x : BitVec w, (natText x.toNat).length ≤ 20 := fun x => by
    refine natText_length_le (by omega) ?_
    have hPow : 2 ^ w ≤ 2 ^ 64 := Nat.pow_le_pow_right (by omega) hWord
    have hLess := x.isLt
    omega
  refine ⟨hWide, fun x => ?_, fun n => ?_, fun digits hDigits q => ?_, fun digits k q hk hq hLess => ?_⟩
  · simp only [decimals]
    split
    · decide
    · exact hWide x
  · refine intText_length_le (k := 19) (by omega) ?_
    have hLow := BitVec.le_toInt (BitVec.ofInt 64 n)
    have hHigh := BitVec.toInt_lt (x := BitVec.ofInt 64 n)
    omega
  · simp only [decimals]
    split
    · rename_i hLess
      have hLength := fixedText_length_le digits (k := 19) (hLess.trans (by norm_num))
      split at hLength <;> omega
    · decide
  · simp only [decimals]
    split
    · have hLength := fixedText_length_le digits (abs_of_nonneg hq ▸ hLess)
      rw [if_neg (not_lt.mpr hq)] at hLength
      omega
    · simp [natText_of_lt]
      omega

/-- The fields of a sample that can only be small. -/
structure SmallSample (s : HistorySample w) : Prop where
  cpuUsage : 0 ≤ s.cpuUsage ∧ s.cpuUsage < 10 ^ 17
  requestsPerSec : 0 ≤ s.requestsPerSec ∧ s.requestsPerSec < 10 ^ 17
  responsesPerSec : 0 ≤ s.responsesPerSec ∧ s.responsesPerSec < 10 ^ 17
  latencyP95 : 0 ≤ s.latencyP95 ∧ s.latencyP95 < 10 ^ 5

theorem small_zeroedSample : SmallSample (zeroedSample : HistorySample w) := by
  constructor <;> norm_num [zeroedSample]

theorem array_length_le {ι : Type*} {items : List ι} {value : ι → Value} {size n : Nat}
    (hItems : items.length ≤ n) (h : ∀ i ∈ items, (value i).text.length ≤ size) :
    (Value.array (items.map value)).text.length ≤ 2 + n * (size + 1) := by
  have hSizes : ∀ t ∈ (items.map value).map Value.text, t.length ≤ size := by simpa using h
  have hTexts := commaSep_length_le hSizes
  have hMul := Nat.mul_le_mul_right (size + 1) hItems
  simp only [List.length_map] at hTexts
  simp only [text_array, List.length_cons, List.length_append, List.length_nil]
  omega

section Values

variable {R : Vslprintf w} (hR : Narrow R)
include hR

theorem length_iface {m : IfaceMetric w} (h : CleanName nameLen m.name) :
    (ifaceValue R m).text.length ≤ 346 := by
  have hWord := hR.unsigned
  have hName := h.escaped_length R
  simp only [nameLen] at hName
  cases hUp : ifaceUp m <;>
    simp [ifaceValue, memberText, quoted, comma, ascii, boolText, hUp] <;> grind

theorem length_device {m : DiskMetric w} (h : CleanName nameLen m.name) :
    (deviceValue R m).text.length ≤ 294 := by
  have hWord := hR.unsigned
  have hName := h.escaped_length R
  simp only [nameLen] at hName
  simp [deviceValue, memberText, quoted, comma, ascii]
  grind

theorem length_filesystem {m : FsMetric w} (hPath : CleanName keyLen m.path)
    (hType : CleanName nameLen m.type) : (filesystemValue R m).text.length ≤ 578 := by
  have hWord := hR.unsigned
  have hPathText := hPath.escaped_length R
  have hTypeText := hType.escaped_length R
  simp only [nameLen, keyLen] at hPathText hTypeText
  simp [filesystemValue, memberText, quoted, comma, ascii]
  grind

theorem length_worker (i : Nat) (m : WorkerMetric w) : (workerValue R i m).text.length ≤ 335 := by
  have hWord := hR.unsigned
  cases hActive : workerActive m <;>
    simp [workerValue, memberText, quoted, comma, ascii, boolText, hActive] <;> grind

theorem length_topEntry (keyName : String) {v : TopView w} (h : CleanName keyLen v.key) :
    (topEntryValue R keyName v).text.length ≤ 438 + (ascii keyName).length := by
  have hWord := hR.unsigned
  have hFixed := hR.fixed 3 (by omega)
  have hName := h.escaped_length R
  simp only [keyLen] at hName
  simp [topEntryValue, memberText, quoted, comma]
  simp [ascii]
  grind

theorem length_upstream {u : UpstreamEntry w} (h : CleanName keyLen u.peer) :
    (upstreamValue R u).text.length ≤ 487 := by
  have hWord := hR.unsigned
  have hFixed := hR.fixed 3 (by omega)
  have hName := h.escaped_length R
  simp only [keyLen] at hName
  simp [upstreamValue, memberText, quoted, comma, ascii]
  grind

set_option maxRecDepth 2000 in
theorem length_sample {s : HistorySample w} (h : SmallSample s) :
    (sampleValue R s).text.length ≤ 623 := by
  have hWord := hR.unsigned
  have hSigned := hR.signed
  have hFixed := hR.fixed 3 (by omega)
  have hCpu := hR.fixedSmall 3 17 _ (by omega) h.cpuUsage.1 h.cpuUsage.2
  have hRequests := hR.fixedSmall 3 17 _ (by omega) h.requestsPerSec.1 h.requestsPerSec.2
  have hResponses := hR.fixedSmall 3 17 _ (by omega) h.responsesPerSec.1 h.responsesPerSec.2
  have hLatency := hR.fixedSmall 3 5 _ (by omega) h.latencyP95.1 h.latencyP95.2
  simp [sampleValue, memberText, quoted, comma, ascii]
  grind

theorem length_workers (sh : Shctx w) : (workersValue R sh).text.length ≤
    2 + (occupied workersMax fun i => (sh.workers i).pid ≠ 0) * 336 :=
  array_length_le (length_filter_range _).le fun i _ => length_worker hR i _

set_option maxRecDepth 2000 in
theorem length_system (sh : Shctx w) : (systemValue R sh).text.length ≤ 582 := by
  have hWord := hR.unsigned
  have hFixed := hR.fixed 3 (by omega)
  have hWhole := hR.fixed 0 (by omega)
  simp [systemValue, memberText, quoted, comma, ascii]
  grind

theorem length_network {sh : Shctx w} (h : CleanZone sh) : (networkValue R sh).text.length ≤
    215 + min sh.ifaceCount.toNat ifacesMax * 347 := by
  have hWord := hR.unsigned
  have hIfaces : (Value.array ((List.range (min sh.ifaceCount.toNat ifacesMax)).map fun i =>
      ifaceValue R (sh.ifaces i))).text.length ≤ 2 + min sh.ifaceCount.toNat ifacesMax * 347 :=
    array_length_le List.length_range.le fun i hi =>
      length_iface hR (h.ifaces i (by simp at hi; omega))
  unfold networkValue
  generalize Value.array _ = ifaces at *
  simp [memberText, quoted, comma, ascii]
  grind

theorem length_disk {sh : Shctx w} (h : CleanZone sh) : (diskValue R sh).text.length ≤
    159 + min sh.diskCount.toNat disksMax * 295 + min sh.fsCount.toNat filesystemsMax * 579 := by
  have hWord := hR.unsigned
  have hDevices : (Value.array ((List.range (min sh.diskCount.toNat disksMax)).map fun i =>
      deviceValue R (sh.disks i))).text.length ≤ 2 + min sh.diskCount.toNat disksMax * 295 :=
    array_length_le List.length_range.le fun i hi =>
      length_device hR (h.disks i (by simp at hi; omega))
  have hSystems : (Value.array ((List.range (min sh.fsCount.toNat filesystemsMax)).map fun i =>
      filesystemValue R (sh.filesystems i))).text.length ≤
      2 + min sh.fsCount.toNat filesystemsMax * 579 := by
    refine array_length_le List.length_range.le fun i hi => ?_
    have hLess : i < filesystemsMax := by simp at hi; omega
    exact length_filesystem hR (h.paths i hLess) (h.types i hLess)
  unfold diskValue
  generalize Value.array ((List.range (min sh.diskCount.toNat disksMax)).map _) = devices at *
  generalize Value.array _ = systems at *
  simp [memberText, quoted, comma, ascii]
  grind

theorem length_processes (sh : Shctx w) : (processesValue R sh).text.length ≤
    218 + (occupied workersMax fun i => (sh.workers i).pid ≠ 0) * 336 := by
  have hWord := hR.unsigned
  have hWorkers := length_workers hR sh
  simp [processesValue, memberText, quoted, comma, ascii]
  grind

set_option maxRecDepth 2000 in
theorem length_nginx (sh : Shctx w) : (nginxValue R sh).text.length ≤
    536 + (occupied workersMax fun i => (sh.workers i).pid ≠ 0) * 336 := by
  have hWord := hR.unsigned
  have hFixed := hR.fixed 3 (by omega)
  have hWorkers := length_workers hR sh
  simp [nginxValue, memberText, quoted, comma, ascii]
  grind

set_option maxRecDepth 2000 in
theorem length_connections (sh : Shctx w) : (connectionsValue R sh).text.length ≤ 408 := by
  have hWord := hR.unsigned
  simp [connectionsValue, memberText, quoted, comma, ascii]
  grind

theorem length_upstreams {sh : Shctx w} (h : CleanZone sh) : (upstreamsValue R sh).text.length ≤
    2 + (occupied upstreamsMax fun i => (sh.upstreams i).requests ≠ 0) * 488 := by
  refine array_length_le (length_filter_range _).le fun i hi => ?_
  exact length_upstream hR (h.upstreams i (List.mem_range.mp (List.mem_of_mem_filter hi)))

theorem length_history {sh : Shctx w} (h : ∀ j, SmallSample (sh.history j)) :
    (historyValue R sh).text.length ≤ 2 + (historySamples sh).length * 624 := by
  refine array_length_le le_rfl fun s hs => ?_
  unfold historySamples at hs
  split at hs
  · cases hs
  · obtain ⟨i, -, rfl⟩ := List.mem_map.mp hs
    exact length_sample hR (h _)

theorem length_topEntries {entries : Nat → TopEntry w} {capacity : Nat} (keyName : String)
    (h : ∀ i < capacity, CleanName keyLen (entries i).key) :
    (topEntriesValue R entries capacity keyName).text.length ≤
      2 + (occupied capacity fun i => (entries i).hits ≠ 0) * (439 + (ascii keyName).length) := by
  have hArray : (topEntriesValue R entries capacity keyName).text.length ≤
      2 + (occupied capacity fun i => (entries i).hits ≠ 0) * (438 + (ascii keyName).length + 1) := by
    refine array_length_le (length_sortTop entries capacity).le fun v hv => ?_
    obtain ⟨i, hi, rfl⟩ := mem_sortTop hv
    exact length_topEntry hR keyName (clean_viewOf (h i hi))
  rwa [Nat.add_right_comm] at hArray

theorem length_bucket {le : Value} (hLe : le.text.length ≤ 20) (count : BitVec w) :
    (fields ["le", "count"] [le, word R count]).text.length ≤ 56 := by
  have hWord := hR.unsigned
  simp [memberText, quoted, comma, ascii]
  grind

theorem length_latencies (m : RequestMetric w) :
    (Value.array ((List.range latencyBuckets).map (latencyBucketValue R m))).text.length ≤ 800 := by
  refine array_length_le List.length_range.le fun i _ => length_bucket hR ?_ _
  split
  · simpa using hR.unsigned _
  · simp [quoted, ascii]

theorem length_sizes (m : RequestMetric w) :
    (Value.array ((List.range sizeBuckets).map (sizeBucketValue R m))).text.length ≤ 686 := by
  refine array_length_le List.length_range.le fun i _ => length_bucket hR ?_ _
  split
  · simpa using hR.signed _
  · simp [quoted, ascii]

theorem length_methods (m : RequestMetric w) :
    (fields methodNames ((List.range methods).map fun i => word R (m.method i))).text.length ≤
      230 := by
  have hWord := hR.unsigned
  simp [methods, methodNames, List.range, List.range.loop, memberText, quoted, comma, ascii]
  grind

set_option maxRecDepth 4000 in
theorem length_requests {sh : Shctx w} (h : CleanZone sh) : (requestsValue R sh).text.length ≤
    2473 + (occupied topUrlsMax fun i => (sh.urls i).hits ≠ 0) * 442 +
      (occupied topUaMax fun i => (sh.userAgents i).hits ≠ 0) * 449 := by
  have hWord := hR.unsigned
  have hFixed := hR.fixed 3 (by omega)
  have hRate := hR.fixed 6 (by omega)
  have hMethods := length_methods hR sh.requests
  have hLatencies := length_latencies hR sh.requests
  have hSizes := length_sizes hR sh.requests
  have hUrls := length_topEntries hR "url" h.urls
  have hAgents := length_topEntries hR "user_agent" h.userAgents
  have hUrlKey : (ascii "url").length = 3 := by simp [ascii]
  have hAgentKey : (ascii "user_agent").length = 10 := by simp [ascii]
  rw [hUrlKey] at hUrls
  rw [hAgentKey] at hAgents
  simp only [requestsValue]
  generalize fields methodNames _ = methodTable at *
  generalize Value.array ((List.range latencyBuckets).map _) = latencies at *
  generalize Value.array ((List.range sizeBuckets).map _) = sizes at *
  generalize topEntriesValue R sh.urls topUrlsMax "url" = urls at *
  generalize topEntriesValue R sh.userAgents topUaMax "user_agent" = agents at *
  generalize (occupied topUrlsMax fun i => (sh.urls i).hits ≠ 0) = usedUrls at *
  generalize (occupied topUaMax fun i => (sh.userAgents i).hits ≠ 0) = usedAgents at *
  simp [memberText, quoted, comma, ascii]
  grind

end Values

section Documents

variable (sh : Shctx w)

def liveWorkerCount : Nat := occupied workersMax fun i => (sh.workers i).pid ≠ 0
def upstreamCount : Nat := occupied upstreamsMax fun i => (sh.upstreams i).requests ≠ 0
def urlCount : Nat := occupied topUrlsMax fun i => (sh.urls i).hits ≠ 0
def userAgentCount : Nat := occupied topUaMax fun i => (sh.userAgents i).hits ≠ 0
def ifaceCount : Nat := min sh.ifaceCount.toNat ifacesMax
def diskCount : Nat := min sh.diskCount.toNat disksMax
def fsCount : Nat := min sh.fsCount.toNat filesystemsMax

def sectionSize : Section → Nat
  | .system => 582
  | .nginx => 536 + liveWorkerCount sh * 336
  | .network => 215 + ifaceCount sh * 347
  | .disk => 159 + diskCount sh * 295 + fsCount sh * 579
  | .processes => 218 + liveWorkerCount sh * 336
  | .upstreams => 2 + upstreamCount sh * 488
  | .connections => 408
  | .requests => 2473 + urlCount sh * 442 + userAgentCount sh * 449
  | .history => 2 + (historySamples sh).length * 624

/-- What the slots in use can take at most in the full document. -/
def slotBytes : Nat :=
  624 * (historySamples sh).length + 442 * urlCount sh + 449 * userAgentCount sh +
    488 * upstreamCount sh + 672 * liveWorkerCount sh + 347 * ifaceCount sh + 295 * diskCount sh +
    579 * fsCount sh

/-- The room that the fixed part of the full document leaves to the slots. -/
def slotRoom : Nat := 519396

theorem slotCounts_le : liveWorkerCount sh ≤ 128 ∧ upstreamCount sh ≤ 128 ∧ urlCount sh ≤ 256 ∧
    userAgentCount sh ≤ 64 ∧ ifaceCount sh ≤ 32 ∧ diskCount sh ≤ 32 ∧ fsCount sh ≤ 32 :=
  ⟨occupied_le _ _, occupied_le _ _, occupied_le _ _, occupied_le _ _, Nat.min_le_right _ _,
    Nat.min_le_right _ _, Nat.min_le_right _ _⟩

variable {sh} {R : Vslprintf w} (hR : Narrow R)
include hR

theorem length_section (hClean : CleanZone sh) (hSamples : ∀ j, SmallSample (sh.history j))
    (s : Section) : (s.value R sh).text.length ≤ sectionSize sh s := by
  cases s with
  | system => exact length_system hR sh
  | nginx => exact length_nginx hR sh
  | network => exact length_network hR hClean
  | disk => exact length_disk hR hClean
  | processes => exact length_processes hR sh
  | upstreams => exact length_upstreams hR hClean
  | connections => exact length_connections hR sh
  | requests => exact length_requests hR hClean
  | history => exact length_history hR hSamples

theorem length_envelope (env : Env w) (endpoint : Endpoint) :
    (commaSep ((envelope R env (scope endpoint)).map memberText)).length ≤ 157 := by
  have hSigned := hR.signed
  have hMsec := hR.msec
  have hScope : (ascii (scope endpoint)).length ≤ 11 := by
    cases endpoint <;> simp [scope, ascii]
  generalize scope endpoint = s at *
  simp [envelope, memberText, quoted, comma, moduleVersion]
  simp [ascii] at *
  grind

theorem length_document (hClean : CleanZone sh) (hSamples : ∀ j, SmallSample (sh.history j))
    (env : Env w) (endpoint : Endpoint) :
    ((Value.object (documentMembers R env sh endpoint)).text ++ ascii "\n").length ≤
      160 + ((sections endpoint).map fun s => 15 + sectionSize sh s).sum := by
  have hEnvelope := length_envelope hR env endpoint
  have hSections : ((sections endpoint).flatMap fun s =>
      comma :: memberText (ascii s.key, s.value R sh)).length ≤
        ((sections endpoint).map fun s => 15 + sectionSize sh s).sum := by
    rw [List.length_flatMap]
    refine List.sum_le_sum fun s _ => ?_
    have hKey : (ascii s.key).length ≤ 11 := by cases s <;> simp [Section.key, ascii]
    have hValue := length_section hR hClean hSamples s
    simp only [memberText, quoted, List.length_cons, List.length_append, List.length_nil]
    omega
  have hNewline : (ascii "\n").length = 1 := by simp [ascii]
  rw [documentMembers, object_text, List.flatMap_map]
  simp only [List.length_append, List.length_cons, List.length_nil, hNewline]
  omega

/-- A document fits the buffer; the full one does when few enough slots are in
use. -/
theorem document_fits {env : Env w} (hUrls : env.urlViews = true)
    (hAgents : env.userAgentViews = true) (hClean : CleanZone sh)
    (hSamples : ∀ j, SmallSample (sh.history j)) {endpoint : Endpoint}
    (hSlots : endpoint = .apiFull → slotBytes sh ≤ slotRoom) :
    (jsonDocument R env sh endpoint (.start jsonBuffer)).failed = false := by
  have hRenders : Renders True (jsonDocument R env sh endpoint) _ :=
    renders_document R (fun _ => hUrls) (fun _ => hAgents) sh endpoint
  have hLength := length_document hR hClean hSamples env endpoint
  refine hRenders.fits_start trivial ?_
  suffices hSum : 160 + ((sections endpoint).map fun s => 15 + sectionSize sh s).sum + 1 <
      jsonBuffer by omega
  obtain ⟨hWorkers, hUpstreams, hTopUrls, hTopAgents, hIfaces, hDisks, hSystems⟩ := slotCounts_le sh
  simp only [slotBytes, slotRoom] at hSlots
  cases endpoint <;>
    simp [sections, Section.all, Section.endpoint, sectionSize, jsonBuffer] at hSlots ⊢ <;> omega

end Documents

end HttpMonitoring.JsonSize
