import HttpMonitoring.JsonSize

/-!
# The JSON answers are well formed

For every JSON endpoint and every zone with clean names, what the writer holds
when it has not failed is the text of one object and a newline.
-/

namespace HttpMonitoring.JsonAnswers

open Library.BoundedWriter Library.CString Library.JsonText TopTable Accounting History JsonWriter
  JsonNames JsonSections JsonDocument JsonSize Zone

variable {w : Nat}

/-- Keys of an object: distinct and without anything to escape. -/
def KeysOk (keys : List String) : Prop :=
  (keys.map ascii).Nodup ∧ ∀ k ∈ keys.map ascii, ∀ c ∈ k, 32 ≤ c ∧ c ≠ 34 ∧ c ≠ 92

theorem wellFormed_fields {keys : List String} {values : List Value} (hKeys : KeysOk keys)
    (hValues : ∀ v ∈ values, WellFormed v) : WellFormed (fields keys values) :=
  .record hKeys.1 hKeys.2 hValues

theorem wellFormed_map {ι : Type*} {items : List ι} {value : ι → Value}
    (h : ∀ i ∈ items, WellFormed (value i)) : WellFormed (.array (items.map value)) :=
  .array (by simpa using h)

theorem wellFormed_plain {s : String} (h : KeysOk [s]) : WellFormed (.string (ascii s)) :=
  .string (isBody_of_plain (h.2 (ascii s) (by simp)))

section Values

variable {R : Vslprintf w} (hR : R.Numeric)
include hR

theorem wellFormed_word (x : BitVec w) : WellFormed (word R x) := .number (hR.unsigned x)

theorem wellFormed_fixed (digits : Nat) (x : ℚ) : WellFormed (fixed R digits x) :=
  .number (hR.fixed digits x)

theorem wellFormed_signed (n : Int) : WellFormed (.number (R.signed n)) := .number (hR.signed n)

omit hR in
theorem wellFormed_name {size : Nat} {buffer : Bytes} (h : CleanName size buffer) : WellFormed (name R buffer) :=
  .string (isBody_escaped R h.printable)

theorem wellFormed_system (sh : Shctx w) : WellFormed (systemValue R sh) := by
  have hArray : ∀ x y z : ℚ, WellFormed (.array [fixed R 3 x, fixed R 3 y, fixed R 3 z]) :=
    fun x y z => .array (by simp [wellFormed_fixed hR])
  refine wellFormed_fields (by simp [KeysOk, ascii]) ?_
  simp only [List.forall_mem_cons, List.not_mem_nil, false_imp_iff, implies_true, and_true]
  refine ⟨wellFormed_fields (by simp [KeysOk, ascii]) ?_, wellFormed_fields (by simp [KeysOk, ascii]) ?_,
    wellFormed_fields (by simp [KeysOk, ascii]) ?_, wellFormed_word hR _⟩
  all_goals simp [wellFormed_word hR, wellFormed_fixed hR, hArray]

theorem wellFormed_iface {m : IfaceMetric w} (h : CleanName nameLen m.name) : WellFormed (ifaceValue R m) :=
  wellFormed_fields (by simp [KeysOk, ascii])
    (by simp [wellFormed_name h, wellFormed_word hR, WellFormed.bool])

theorem wellFormed_network {sh : Shctx w} (h : CleanZone sh) : WellFormed (networkValue R sh) := by
  have hIfaces : WellFormed (.array ((List.range (min sh.ifaceCount.toNat ifacesMax)).map fun i =>
      ifaceValue R (sh.ifaces i))) :=
    wellFormed_map fun i hi => wellFormed_iface hR (h.ifaces i (by simp at hi; omega))
  exact wellFormed_fields (by simp [KeysOk, ascii]) (by simp [wellFormed_word hR, hIfaces])

theorem wellFormed_device {m : DiskMetric w} (h : CleanName nameLen m.name) : WellFormed (deviceValue R m) :=
  wellFormed_fields (by simp [KeysOk, ascii]) (by simp [wellFormed_name h, wellFormed_word hR])

theorem wellFormed_filesystem {m : FsMetric w} (hPath : CleanName keyLen m.path) (hType : CleanName nameLen m.type) :
    WellFormed (filesystemValue R m) :=
  wellFormed_fields (by simp [KeysOk, ascii])
    (by simp [wellFormed_name hPath, wellFormed_name hType, wellFormed_word hR])

theorem wellFormed_disk {sh : Shctx w} (h : CleanZone sh) : WellFormed (diskValue R sh) := by
  have hDevices : WellFormed (.array ((List.range (min sh.diskCount.toNat disksMax)).map fun i =>
      deviceValue R (sh.disks i))) :=
    wellFormed_map fun i hi => wellFormed_device hR (h.disks i (by simp at hi; omega))
  have hSystems : WellFormed (.array ((List.range (min sh.fsCount.toNat filesystemsMax)).map fun i =>
      filesystemValue R (sh.filesystems i))) := by
    refine wellFormed_map fun i hi => ?_
    have hLess : i < filesystemsMax := by simp at hi; omega
    exact wellFormed_filesystem hR (h.paths i hLess) (h.types i hLess)
  exact wellFormed_fields (by simp [KeysOk, ascii])
    (by simp [wellFormed_word hR, hDevices, hSystems])

theorem wellFormed_worker (i : Nat) (m : WorkerMetric w) : WellFormed (workerValue R i m) :=
  wellFormed_fields (by simp [KeysOk, ascii]) (by simp [wellFormed_word hR, WellFormed.bool])

theorem wellFormed_workers (sh : Shctx w) : WellFormed (workersValue R sh) :=
  wellFormed_map fun i _ => wellFormed_worker hR i _

theorem wellFormed_processes (sh : Shctx w) : WellFormed (processesValue R sh) := by
  refine wellFormed_fields (by simp [KeysOk, ascii]) ?_
  simp only [List.forall_mem_cons, List.not_mem_nil, false_imp_iff, implies_true, and_true]
  refine ⟨wellFormed_word hR _, wellFormed_fields (by simp [KeysOk, ascii]) ?_,
    wellFormed_fields (by simp [KeysOk, ascii]) ?_, wellFormed_workers hR sh⟩
  all_goals simp [wellFormed_word hR]

theorem wellFormed_nginx (sh : Shctx w) : WellFormed (nginxValue R sh) := by
  refine wellFormed_fields (by simp [KeysOk, ascii]) ?_
  simp only [List.forall_mem_cons, List.not_mem_nil, false_imp_iff, implies_true, and_true]
  refine ⟨wellFormed_fields (by simp [KeysOk, ascii]) ?_, wellFormed_fields (by simp [KeysOk, ascii]) ?_,
    wellFormed_fields (by simp [KeysOk, ascii]) ?_, wellFormed_fields (by simp [KeysOk, ascii]) ?_,
    wellFormed_workers hR sh⟩
  all_goals simp [wellFormed_word hR, wellFormed_fixed hR]

theorem wellFormed_connections (sh : Shctx w) : WellFormed (connectionsValue R sh) :=
  wellFormed_fields (by simp [KeysOk, ascii]) (by simp [wellFormed_word hR])

theorem wellFormed_upstreams {sh : Shctx w} (h : CleanZone sh) : WellFormed (upstreamsValue R sh) := by
  refine wellFormed_map fun i hi => wellFormed_fields (by simp [KeysOk, ascii]) ?_
  have hLess : i < upstreamsMax := by simp [usedUpstreams] at hi; exact hi.1
  simp [wellFormed_word hR, wellFormed_fixed hR, wellFormed_name (h.upstreams i hLess)]

theorem wellFormed_sample (s : HistorySample w) : WellFormed (sampleValue R s) :=
  wellFormed_fields (by simp [KeysOk, ascii])
    (by simp [wellFormed_signed hR, wellFormed_word hR, wellFormed_fixed hR])

theorem wellFormed_history (sh : Shctx w) : WellFormed (historyValue R sh) :=
  wellFormed_map fun s _ => wellFormed_sample hR s

theorem wellFormed_bucket {le : Value} (h : WellFormed le) (count : BitVec w) :
    WellFormed (fields ["le", "count"] [le, word R count]) :=
  wellFormed_fields (by simp [KeysOk, ascii]) (by simp [h, wellFormed_word hR])

theorem wellFormed_latencyBucket (m : RequestMetric w) (i : Nat) :
    WellFormed (latencyBucketValue R m i) := by
  refine wellFormed_bucket hR ?_ _
  split
  · exact wellFormed_word hR _
  · exact wellFormed_plain (by simp [KeysOk, ascii])

theorem wellFormed_sizeBucket (m : RequestMetric w) (i : Nat) :
    WellFormed (sizeBucketValue R m i) := by
  refine wellFormed_bucket hR ?_ _
  split
  · exact wellFormed_signed hR _
  · exact wellFormed_plain (by simp [KeysOk, ascii])

theorem wellFormed_topEntries {entries : Nat → TopEntry w} {capacity : Nat} {keyName : String}
    (hKeys : KeysOk [keyName, "hits", "errors", "bytes", "avg_latency", "last_seen"])
    (h : ∀ i < capacity, CleanName keyLen (entries i).key) :
    WellFormed (topEntriesValue R entries capacity keyName) := by
  refine wellFormed_map fun v hv => wellFormed_fields hKeys ?_
  obtain ⟨i, hi, rfl⟩ : ∃ i ∈ (List.range capacity).filter fun i => (entries i).hits ≠ 0,
      viewOf (entries i) = v := by
    simpa [topViews] using (sortTop_perm _).mem_iff.mp hv
  have hClean := clean_viewOf (h i (by simp at hi; exact hi.1))
  simp [wellFormed_name hClean, wellFormed_word hR, wellFormed_fixed hR]

theorem wellFormed_requests {sh : Shctx w} (h : CleanZone sh) : WellFormed (requestsValue R sh) := by
  refine wellFormed_fields (by simp [KeysOk, ascii]) ?_
  simp only [List.forall_mem_cons, List.not_mem_nil, false_imp_iff, implies_true, and_true]
  refine ⟨wellFormed_word hR _, wellFormed_word hR _, wellFormed_word hR _, wellFormed_fixed hR _ _,
    wellFormed_fixed hR _ _, wellFormed_fixed hR _ _, wellFormed_fields (by simp [KeysOk, ascii]) ?_,
    wellFormed_fields (by simp [KeysOk, ascii]) ?_,
    wellFormed_fields (by simp [KeysOk, ascii, methodNames]) ?_,
    wellFormed_map fun i _ => wellFormed_latencyBucket hR _ i,
    wellFormed_map fun i _ => wellFormed_sizeBucket hR _ i,
    wellFormed_topEntries hR (by simp [KeysOk, ascii]) h.urls,
    wellFormed_topEntries hR (by simp [KeysOk, ascii]) h.userAgents⟩
  all_goals simp [wellFormed_word hR, wellFormed_fixed hR]

theorem wellFormed_section {sh : Shctx w} (h : CleanZone sh) (s : Section) :
    WellFormed (s.value R sh) := by
  cases s with
  | system => exact wellFormed_system hR sh
  | nginx => exact wellFormed_nginx hR sh
  | network => exact wellFormed_network hR h
  | disk => exact wellFormed_disk hR h
  | processes => exact wellFormed_processes hR sh
  | upstreams => exact wellFormed_upstreams hR h
  | connections => exact wellFormed_connections hR sh
  | requests => exact wellFormed_requests hR h
  | history => exact wellFormed_history hR sh

end Values

def envelopeKeys : List String := ["version", "module", "timestamp", "msec", "scope", "pid"]

def healthKeys : List String := ["status", "generation", "sse_clients"]

def jsonEndpoints : List Endpoint := .apiFull :: .health :: [.apiSystem, .apiNginx, .apiNetwork,
  .apiDisk, .apiProcesses, .apiUpstreams, .apiConnections, .apiRequests]

/-- The writer at the end of `send_json` or `send_health`. -/
def jsonAnswer (R : Vslprintf w) (env : Env w) (sh : Shctx w) (endpoint : Endpoint) : Jw :=
  if endpoint = .health then healthDocument R env sh (.start healthBuffer)
  else jsonDocument R env sh endpoint (.start jsonBuffer)

def answerKeys (endpoint : Endpoint) : List String :=
  envelopeKeys ++ if endpoint = .health then healthKeys else (sections endpoint).map Section.key

def answerMembers (R : Vslprintf w) (env : Env w) (sh : Shctx w) (endpoint : Endpoint) :
    List (Text × Value) :=
  if endpoint = .health then healthMembers R env sh else documentMembers R env sh endpoint

theorem keysOk_answerKeys {endpoint : Endpoint} (h : endpoint ∈ jsonEndpoints) :
    KeysOk (answerKeys endpoint) := by
  simp only [jsonEndpoints, List.mem_cons, List.not_mem_nil, or_false] at h
  rcases h with rfl | rfl | rfl | rfl | rfl | rfl | rfl | rfl | rfl | rfl <;>
    simp [answerKeys, envelopeKeys, healthKeys, sections, Section.all, Section.key, Section.endpoint,
      KeysOk, ascii]

theorem keysOk_scope (endpoint : Endpoint) : KeysOk [scope endpoint] := by
  cases endpoint <;> simp [scope, KeysOk, ascii]

theorem keys_answerMembers (R : Vslprintf w) (env : Env w) (sh : Shctx w) (endpoint : Endpoint) :
    (answerMembers R env sh endpoint).map Prod.fst = (answerKeys endpoint).map ascii := by
  unfold answerMembers answerKeys
  split
  · rfl
  · simp only [documentMembers, List.map_append, List.map_map]
    rfl

/-- The arrays of a section that list slots or buckets, by their paths, with the
number of what they list. -/
def sectionArrays (sh : Shctx w) : Section → List (List String × Nat)
  | .system => []
  | .nginx => [(["workers"], occupied workersMax fun i => (sh.workers i).pid ≠ 0)]
  | .network => [(["interfaces"], min sh.ifaceCount.toNat ifacesMax)]
  | .disk => [(["devices"], min sh.diskCount.toNat disksMax),
    (["filesystems"], min sh.fsCount.toNat filesystemsMax)]
  | .processes => [(["workers"], occupied workersMax fun i => (sh.workers i).pid ≠ 0)]
  | .upstreams => [([], occupied upstreamsMax fun i => (sh.upstreams i).requests ≠ 0)]
  | .connections => []
  | .requests => [(["latency_histogram"], latencyBuckets), (["size_histogram"], sizeBuckets),
    (["top_urls"], occupied topUrlsMax fun i => (sh.urls i).hits ≠ 0),
    (["user_agents"], occupied topUaMax fun i => (sh.userAgents i).hits ≠ 0)]
  | .history => [([], if readerCapacity sh = 0 then 0 else readerCount sh)]

theorem hasArray_fields (i : Nat) {keys : List String} {values : List Value} {k : String} {v : Value}
    {path : List Text} {n : Nat} (hKeys : (keys.map ascii).Nodup) (hKey : keys[i]? = some k)
    (hValue : values[i]? = some v) (h : HasArray v path n) :
    HasArray (fields keys values) (ascii k :: path) n := by
  refine HasArray.member (hKeys.sublist (zip_keys_sublist _ _)) ?_ h
  refine List.mem_of_getElem? (List.getElem?_zip_eq_some.mpr ⟨?_, hValue⟩) (i := i)
  rw [List.getElem?_map, hKey, Option.map_some]

theorem hasArray_map {ι : Type*} (items : List ι) (value : ι → Value) {n : Nat}
    (h : items.length = n) : HasArray (.array (items.map value)) [] n :=
  ⟨_, rfl, by rw [List.length_map, h]⟩

theorem hasArray_section (R : Vslprintf w) (sh : Shctx w) (s : Section) :
    ∀ a ∈ sectionArrays sh s, HasArray (s.value R sh) (a.1.map ascii) a.2 := by
  cases s with
  | system => simp [sectionArrays]
  | nginx =>
    simp only [sectionArrays, List.forall_mem_singleton]
    exact hasArray_fields 4 (by simp [ascii]) rfl rfl (hasArray_map _ _ (length_filter_range _))
  | network =>
    simp only [sectionArrays, List.forall_mem_singleton]
    exact hasArray_fields 6 (by simp [ascii]) rfl rfl (hasArray_map _ _ List.length_range)
  | disk =>
    simp only [sectionArrays, List.forall_mem_cons, List.not_mem_nil, false_imp_iff, implies_true,
      and_true]
    exact ⟨hasArray_fields 4 (by simp [ascii]) rfl rfl (hasArray_map _ _ List.length_range),
      hasArray_fields 5 (by simp [ascii]) rfl rfl (hasArray_map _ _ List.length_range)⟩
  | processes =>
    simp only [sectionArrays, List.forall_mem_singleton]
    exact hasArray_fields 3 (by simp [ascii]) rfl rfl (hasArray_map _ _ (length_filter_range _))
  | upstreams =>
    simp only [sectionArrays, List.forall_mem_singleton]
    exact hasArray_map _ _ (length_filter_range _)
  | connections => simp [sectionArrays]
  | requests =>
    have hKeys : (["total", "responses", "bytes", "requests_per_sec", "responses_per_sec",
      "error_rate", "latency", "status", "methods", "latency_histogram", "size_histogram",
      "top_urls", "user_agents"].map ascii).Nodup := by simp [ascii]
    simp only [sectionArrays, List.forall_mem_cons, List.not_mem_nil, false_imp_iff, implies_true,
      and_true]
    exact ⟨hasArray_fields 9 hKeys rfl rfl (hasArray_map _ _ List.length_range),
      hasArray_fields 10 hKeys rfl rfl (hasArray_map _ _ List.length_range),
      hasArray_fields 11 hKeys rfl rfl (hasArray_map _ _ (length_sortTop _ _)),
      hasArray_fields 12 hKeys rfl rfl (hasArray_map _ _ (length_sortTop _ _))⟩
  | history =>
    simp only [sectionArrays, List.forall_mem_singleton]
    refine hasArray_map _ _ ?_
    unfold historySamples
    split
    · rfl
    · rw [List.length_map, List.length_range]

section Answers

variable {R : Vslprintf w} (hR : R.Numeric)
include hR

theorem wellFormed_envelope (env : Env w) {s : String} (hScope : KeysOk [s]) :
    ∀ m ∈ envelope R env s, WellFormed m.2 := by
  have hModule : WellFormed (.string moduleVersion) := wellFormed_plain (by simp [KeysOk, ascii])
  simp [envelope, hModule, wellFormed_plain hScope, wellFormed_signed hR, WellFormed.number (hR.msec _)]

theorem wellFormed_answer (env : Env w) {sh : Shctx w} (hClean : CleanZone sh) {endpoint : Endpoint}
    (hEndpoint : endpoint ∈ jsonEndpoints) :
    WellFormed (.object (answerMembers R env sh endpoint)) := by
  obtain ⟨hDistinct, hPlain⟩ := keysOk_answerKeys hEndpoint
  have hKeys := keys_answerMembers R env sh endpoint
  refine .object (fun m hm => ?_) (fun m hm => ?_) (hKeys ▸ hDistinct)
  · exact isBody_of_plain (hPlain m.1 (hKeys ▸ List.mem_map_of_mem hm))
  · unfold answerMembers at hm
    split at hm
    · rcases List.mem_append.mp hm with hm | hm
      · exact wellFormed_envelope hR env (by simp [KeysOk, ascii]) m hm
      · have hOk : WellFormed (.string (ascii "ok")) := wellFormed_plain (by simp [KeysOk, ascii])
        have hFields := wellFormed_word hR
        simp at hm
        rcases hm with rfl | rfl | rfl
        · exact hOk
        · exact hFields _
        · exact hFields _
    · rcases List.mem_append.mp hm with hm | hm
      · exact wellFormed_envelope hR env (keysOk_scope endpoint) m hm
      · obtain ⟨s, -, rfl⟩ := List.mem_map.mp hm
        exact wellFormed_section hR hClean s

/-- What a JSON endpoint answers when its writer has not failed: one object with
the fields of the envelope and of the endpoint, its arrays as long as there are
occupied slots, and a newline. -/
theorem jsonAnswer_wellFormed (env : Env w) {sh : Shctx w} (hClean : CleanZone sh)
    {endpoint : Endpoint} (hEndpoint : endpoint ∈ jsonEndpoints)
    (hWritten : (jsonAnswer R env sh endpoint).failed = false) : ∃ members : List (Text × Value),
      (jsonAnswer R env sh endpoint).out = (Value.object members).text ++ ascii "\n" ∧
      WellFormed (.object members) ∧
      members.map Prod.fst = (answerKeys endpoint).map ascii ∧
      ∀ s ∈ sections endpoint, ∀ a ∈ sectionArrays sh s,
        HasArray (.object members) ((s.key :: a.1).map ascii) a.2 := by
  refine ⟨answerMembers R env sh endpoint, ?_, wellFormed_answer hR env hClean hEndpoint,
    keys_answerMembers R env sh endpoint, fun s hs a ha => ?_⟩
  · unfold jsonAnswer answerMembers at *
    split at hWritten <;> rename_i hHealth
    · rw [if_pos hHealth, if_pos hHealth]
      have hRenders : Renders True (healthDocument R env sh) _ := renders_health R env sh
      exact hRenders.out_start hWritten
    · rw [if_neg hHealth, if_neg hHealth]
      have hRenders : Renders (env.urlViews = true ∧ env.userAgentViews = true)
          (jsonDocument R env sh endpoint) _ := renders_document R And.left And.right sh endpoint
      exact hRenders.out_start hWritten
  · have hSections : endpoint ≠ .health := by rintro rfl; cases hs
    rw [answerMembers, if_neg hSections]
    have hDistinct : ((documentMembers R env sh endpoint).map Prod.fst).Nodup := by
      have hKeys := keys_answerMembers R env sh endpoint
      rw [answerMembers, if_neg hSections] at hKeys
      exact hKeys ▸ (keysOk_answerKeys hEndpoint).1
    exact HasArray.member hDistinct
      (List.mem_append_right _ (List.mem_map_of_mem hs)) (hasArray_section R sh s a ha)

end Answers

/-- A zone with two peers that are not neighbours. -/
def twoPeers : Shctx 64 :=
  let peer : UpstreamEntry 64 :=
    ⟨5, 1, 40, 0, 1, 1700000000, 7, fill keyLen [49, 48, 46, 48, 34, 92, 10]⟩
  { freshZone (withDefaults createMainConf) with
    upstreams := fun i => if i = 3 ∨ i = 9 then peer else zeroedUpstream }

theorem jsonAnswer_wellFormed_two_peers : ∃ members : List (Text × Value),
    (jsonAnswer decimals ⟨⟨1700000000, 250⟩, 42, true, true⟩ twoPeers .apiUpstreams).out =
      (Value.object members).text ++ ascii "\n" ∧
    WellFormed (.object members) ∧
    members.map Prod.fst = (answerKeys .apiUpstreams).map ascii ∧
    ∀ s ∈ sections .apiUpstreams, ∀ a ∈ sectionArrays twoPeers s,
      HasArray (.object members) ((s.key :: a.1).map ascii) a.2 := by
  have hFresh := clean_freshZone (withDefaults (createMainConf (w := 64)))
  have hClean : CleanZone twoPeers := by
    refine { hFresh with upstreams := fun i hi => ?_ }
    simp only [twoPeers]
    split
    · exact clean_fill (by simp [Printable]) (by simp [keyLen])
    · exact hFresh.upstreams i hi
  have hSamples : ∀ j, SmallSample (twoPeers.history j) := fun _ => small_zeroedSample
  have hWritten : (jsonAnswer decimals ⟨⟨1700000000, 250⟩, 42, true, true⟩ twoPeers
      .apiUpstreams).failed = false := by
    rw [jsonAnswer, if_neg (by decide)]
    exact document_fits (narrow_decimals le_rfl) rfl rfl hClean hSamples (by simp)
  exact jsonAnswer_wellFormed numeric_decimals _ hClean (by decide) hWritten

end HttpMonitoring.JsonAnswers
