import HttpMonitoring.Library.DeepMerge
import HttpMonitoring.JsonRoom
import HttpMonitoring.LiveDocument
import HttpMonitoring.ReadAnswers

/-!
# The documents as trees

What a script finds in a parsed document. An object is a node and everything
else a leaf. The full document and the data of a live event each have one
outline, whatever is in the zone.
-/

namespace HttpMonitoring.DocumentTrees

open Library.JsonText Library.JsonParser Library.DeepMerge Accounting JsonWriter JsonNames JsonSections JsonDocument
  JsonAnswers LiveStream LiveDocument Senders Handlers ReadAnswers

variable {w : Nat}

mutual

def tree : Value → Doc Text Value
  | .number digits => .leaf (.number digits)
  | .string body => .leaf (.string body)
  | .bool b => .leaf (.bool b)
  | .array elements => .leaf (.array elements)
  | .object members => .node (treeMembers members)

def treeMembers : List (Text × Value) → List (Text × Doc Text Value)
  | [] => []
  | (k, v) :: members => (k, tree v) :: treeMembers members

end

/-- The members of a parsed object. -/
abbrev Data := List (Text × Doc Text Value)

theorem treeMembers_eq (members : List (Text × Value)) :
    treeMembers members = members.map fun m => (m.1, tree m.2) := by
  induction members with
  | nil => rw [treeMembers]; rfl
  | cons m members ih =>
    obtain ⟨k, v⟩ := m
    rw [treeMembers, ih]
    rfl

theorem distinct_tree {v : Value} (h : WellFormed v) : (tree v).Distinct := by
  induction h with
  | number h => rw [tree]; exact .leaf _
  | string h => rw [tree]; exact .leaf _
  | bool b => rw [tree]; exact .leaf _
  | array h ih => rw [tree]; exact .leaf _
  | object hKeys hValues hDistinct ih =>
    rw [tree, treeMembers_eq]
    refine .node (by rwa [List.map_map]) fun m hm => ?_
    obtain ⟨n, hn, rfl⟩ := List.mem_map.mp hm
    exact ih n hn

def figure : Doc Text Unit := .leaf ()

def outlineOf (keys : List String) (outlines : List (Doc Text Unit)) : Doc Text Unit :=
  .node ((keys.map ascii).zip outlines)

def figures (keys : List String) : Doc Text Unit := outlineOf keys (keys.map fun _ => figure)

def liveOutline : Doc Text Unit :=
  outlineOf ["version", "timestamp", "sequence", "system", "requests", "connections", "network", "disk"]
    [figure, figure, figure,
    outlineOf ["cpu", "memory"] [figures ["usage", "cores"], figures ["used_pct", "total", "available"]],
    outlineOf ["total", "requests_per_sec", "responses_per_sec", "latency", "status"]
      [figure, figure, figure, figures ["p95", "p99"], figures ["4xx", "5xx"]],
    figures ["active", "reading", "writing", "waiting", "sse_clients", "keepalive_requests"],
    figures ["rx_bytes", "tx_bytes"], figures ["read_bytes", "write_bytes"]]

def sectionOutline : Section → Doc Text Unit
  | .system => outlineOf ["cpu", "memory", "swap", "uptime"] [figures ["usage", "cores", "load"],
    figures ["total", "available", "free", "used", "used_pct"], figures ["total", "free", "used_pct"], figure]
  | .nginx => outlineOf ["connections", "requests", "ssl", "keepalive", "workers"]
    [figures ["accepted", "handled", "active", "reading", "writing", "waiting"],
    figures ["total", "responses", "requests_per_sec", "responses_per_sec"], figures ["requests", "handshakes"],
    figures ["requests"], figure]
  | .network => figures ["rx_bytes", "tx_bytes", "rx_packets", "tx_packets", "rx_errors", "tx_errors",
    "interfaces"]
  | .disk => figures ["reads", "writes", "read_bytes", "write_bytes", "devices", "filesystems"]
  | .processes => outlineOf ["process_count", "tcp", "sockets", "workers"]
    [figure, figures ["established", "listen"], figures ["used", "tcp", "udp"], figure]
  | .upstreams => figure
  | .connections => figures ["accepted", "handled", "active", "reading", "writing", "waiting", "ssl_requests",
    "ssl_handshakes", "keepalive_requests", "sse_clients", "sse_events", "rate_limited"]
  | .requests => outlineOf ["total", "responses", "bytes", "requests_per_sec", "responses_per_sec", "error_rate",
      "latency", "status", "methods", "latency_histogram", "size_histogram", "top_urls", "user_agents"]
    [figure, figure, figure, figure, figure, figure, figures ["avg", "p50", "p90", "p95", "p99"],
    figures ["1xx", "2xx", "3xx", "4xx", "5xx"], figures methodNames, figure, figure, figure, figure]
  | .history => figure

def documentOutline : Doc Text Unit :=
  .node ((envelopeKeys.map fun k => (ascii k, figure)) ++
    Section.all.map fun s => (ascii s.key, sectionOutline s))

section Outlines

variable (R : Vslprintf w)

theorem shape_fields (keys : List String) (values : List Value) :
    (tree (fields keys values)).shape = outlineOf keys (values.map fun v => (tree v).shape) := by
  rw [fields, record, tree, treeMembers_eq, Doc.shape_node, outlineOf, List.map_map, List.zip_map_right]
  rfl

theorem shape_number (digits : Text) : (tree (.number digits)).shape = figure := by
  rw [tree, Doc.shape, Doc.map, figure]

theorem shape_array (elements : List Value) : (tree (.array elements)).shape = figure := by
  rw [tree, Doc.shape, Doc.map, figure]

theorem shape_string (body : Text) : (tree (.string body)).shape = figure := by
  rw [tree, Doc.shape, Doc.map, figure]

theorem shape_word (x : BitVec w) : (tree (word R x)).shape = figure := shape_number _

theorem shape_fixed (digits : Nat) (x : ℚ) : (tree (fixed R digits x)).shape = figure := shape_number _

theorem shape_live (clock : Clock w) (k : BitVec w) (sh : Shctx w) :
    (tree (liveValue R clock k sh)).shape = liveOutline := by
  simp only [liveValue, liveSystem, liveRequests, liveConnections, liveNetwork, liveDisk, liveOutline, figures,
    shape_fields, shape_number, shape_word, shape_fixed, List.map_cons, List.map_nil]

theorem shape_section (sh : Shctx w) (s : Section) : (tree (s.value R sh)).shape = sectionOutline s := by
  cases s with
  | system =>
    simp only [Section.value, systemValue, sectionOutline, figures, shape_fields, shape_word, shape_fixed,
      shape_array, List.map_cons, List.map_nil]
  | nginx =>
    simp only [Section.value, nginxValue, workersValue, sectionOutline, figures, shape_fields, shape_word,
      shape_fixed, shape_array, List.map_cons, List.map_nil]
  | network =>
    simp only [Section.value, networkValue, sectionOutline, figures, shape_fields, shape_word, shape_array,
      List.map_cons, List.map_nil]
  | disk =>
    simp only [Section.value, diskValue, sectionOutline, figures, shape_fields, shape_word, shape_array,
      List.map_cons, List.map_nil]
  | processes =>
    simp only [Section.value, processesValue, workersValue, sectionOutline, figures, shape_fields, shape_word,
      shape_array, List.map_cons, List.map_nil]
  | upstreams => exact shape_array _
  | connections =>
    simp only [Section.value, connectionsValue, sectionOutline, figures, shape_fields, shape_word, List.map_cons,
      List.map_nil]
  | requests =>
    simp only [Section.value, requestsValue, topEntriesValue, sectionOutline, figures, shape_fields, shape_word,
      shape_fixed, shape_array, List.map_map, Function.comp_def, List.map_cons, List.map_nil]
    rfl
  | history => exact shape_array _

theorem shape_document (env : Env w) (sh : Shctx w) :
    (tree (.object (documentMembers R env sh .apiFull))).shape = documentOutline := by
  have hEnvelope : (envelope R env (scope .apiFull)).map (fun m => (m.1, (tree m.2).shape)) =
      envelopeKeys.map fun k => (ascii k, figure) := by
    simp only [envelope, envelopeKeys, shape_number, shape_string, List.map_cons, List.map_nil,
      List.zip_cons_cons, List.zip_nil_right]
  rw [tree, treeMembers_eq, Doc.shape_node, documentMembers, documentOutline, List.map_map, List.map_append,
    List.map_map]
  simp only [Function.comp_def, hEnvelope, shape_section]
  rfl

end Outlines

theorem fits_documentOutline : Doc.Fits (some documentOutline) liveOutline :=
  .of_test (by decide +kernel)

theorem fits_live (R : Vslprintf w) (env : Env w) (sh : Shctx w) (clock : Clock w) (k : BitVec w) (sh' : Shctx w) :
    Doc.Fits (some (tree (.object (documentMembers R env sh .apiFull)))) (tree (liveValue R clock k sh')) :=
  .of_shapes (by rw [shape_document, shape_live]; exact fits_documentOutline)

section Within

variable (R : Vslprintf w)

theorem nodup_documentKeys (env : Env w) (sh : Shctx w) :
    ((documentMembers R env sh .apiFull).map Prod.fst).Nodup := by
  have hKeys : (documentMembers R env sh .apiFull).map Prod.fst = (answerKeys .apiFull).map ascii :=
    keys_answerMembers R env sh .apiFull
  have hListed : Endpoint.apiFull ∈ jsonEndpoints := by decide
  rw [hKeys]
  exact (keysOk_answerKeys hListed).1

theorem names_treeMembers (members : List (Text × Value)) :
    (treeMembers members).map Prod.fst = members.map Prod.fst := by
  rw [treeMembers_eq, List.map_map]
  rfl

theorem mem_treeMembers {members : List (Text × Value)} {k : Text} {v : Value} (h : (k, v) ∈ members) :
    (k, tree v) ∈ treeMembers members := by
  rw [treeMembers_eq]
  exact List.mem_map.mpr ⟨_, h, rfl⟩

theorem section_mem (env : Env w) (sh : Shctx w) (s : Section) :
    (ascii s.key, s.value R sh) ∈ documentMembers R env sh .apiFull := by
  have hShown : s ∈ sections .apiFull := by cases s <;> decide
  exact List.mem_append_right _ (List.mem_map.mpr ⟨s, hShown, rfl⟩)

theorem get_section (env : Env w) (sh : Shctx w) (s : Section) :
    Doc.get (treeMembers (documentMembers R env sh .apiFull)) (ascii s.key) = some (tree (s.value R sh)) :=
  Doc.get_of_mem (by rw [names_treeMembers]; exact nodup_documentKeys R env sh)
    (mem_treeMembers (section_mem R env sh s))

theorem within_object {patch members : List (Text × Value)} (hNames : (members.map Prod.fst).Nodup)
    (h : ∀ m ∈ patch, ∃ v, (m.1, v) ∈ members ∧ Doc.Within (tree m.2) (tree v)) :
    Doc.Within (tree (.object patch)) (tree (.object members)) := by
  rw [tree, tree]
  refine Doc.Within.node (by rwa [names_treeMembers]) ?_
  rw [treeMembers_eq patch]
  simp only [List.forall_mem_map]
  intro m hm
  obtain ⟨v, hMem, hWithin⟩ := h m hm
  exact ⟨tree v, mem_treeMembers hMem, hWithin⟩

theorem within_fields {keys keys' : List String} {values values' : List Value} (hNames : (keys'.map ascii).Nodup)
    (h : ∀ m ∈ keys.zip values, ∃ v, (m.1, v) ∈ keys'.zip values' ∧ Doc.Within (tree m.2) (tree v)) :
    Doc.Within (tree (fields keys values)) (tree (fields keys' values')) := by
  refine within_object (hNames.sublist (zip_keys_sublist _ _)) ?_
  simp only [List.zip_map_left, List.forall_mem_map]
  intro m hm
  obtain ⟨v, hMem, hWithin⟩ := h m hm
  exact ⟨v, List.mem_map.mpr ⟨(m.1, v), hMem, rfl⟩, hWithin⟩

theorem within_fields_of_subset {keys keys' : List String} {values values' : List Value}
    (hNames : (keys'.map ascii).Nodup) (h : keys.zip values ⊆ keys'.zip values') :
    Doc.Within (tree (fields keys values)) (tree (fields keys' values')) :=
  within_fields hNames fun m hm => ⟨m.2, h hm, .refl _⟩

theorem within_system (sh : Shctx w) : Doc.Within (tree (liveSystem R sh)) (tree (systemValue R sh)) := by
  refine within_fields (by simp [ascii]) ?_
  simp only [List.zip_cons_cons, List.zip_nil_right, List.forall_mem_cons, List.not_mem_nil, false_imp_iff,
    implies_true, and_true]
  constructor
  · exact ⟨_, List.mem_cons_self, within_fields_of_subset (by simp [ascii]) (by simp)⟩
  · exact ⟨_, List.mem_cons_of_mem _ List.mem_cons_self, within_fields_of_subset (by simp [ascii]) (by simp)⟩

theorem within_requests (sh : Shctx w) : Doc.Within (tree (liveRequests R sh)) (tree (requestsValue R sh)) := by
  refine within_fields (by simp [ascii]) ?_
  simp only [List.zip_cons_cons, List.zip_nil_right, List.forall_mem_cons, List.not_mem_nil, false_imp_iff,
    implies_true, and_true]
  refine ⟨⟨_, by simp, .refl _⟩, ⟨_, by simp, .refl _⟩, ⟨_, by simp, .refl _⟩, ?_, ?_⟩
  · exact ⟨_, List.mem_of_getElem? (i := 6) rfl, within_fields_of_subset (by simp [ascii]) (by simp)⟩
  · exact ⟨_, List.mem_of_getElem? (i := 7) rfl, within_fields_of_subset (by simp [ascii]) (by simp)⟩

theorem within_connections (sh : Shctx w) :
    Doc.Within (tree (liveConnections R sh)) (tree (connectionsValue R sh)) :=
  within_fields_of_subset (by simp [ascii]) (by simp)

theorem within_network (sh : Shctx w) : Doc.Within (tree (liveNetwork R sh)) (tree (networkValue R sh)) := by
  have hReceived : sseSumNet sh false = sumIfaces sh IfaceMetric.rxBytes := rfl
  have hSent : sseSumNet sh true = sumIfaces sh IfaceMetric.txBytes := rfl
  exact within_fields_of_subset (by simp [ascii]) (by simp [hReceived, hSent])

theorem within_disk (sh : Shctx w) : Doc.Within (tree (liveDisk R sh)) (tree (diskValue R sh)) := by
  have hRead : sseSumDisk sh false = sumDisks sh DiskMetric.readBytes := rfl
  have hWritten : sseSumDisk sh true = sumDisks sh DiskMetric.writeBytes := rfl
  exact within_fields_of_subset (by simp [ascii]) (by simp [hRead, hWritten])

/-- What an event shows at a path stands there in the full document, the number
of the event apart. -/
theorem find_live_document (env : Env w) (k : BitVec w) (sh : Shctx w) {path : List Text} {a : Value}
    (hPath : path ≠ [ascii "sequence"]) (hLeaf : (tree (liveValue R env.clock k sh)).find path = some (.leaf a)) :
    (tree (.object (documentMembers R env sh .apiFull))).find path = some (.leaf a) := by
  cases path with
  | nil => cases hLeaf
  | cons name path =>
    have hDocument : ∀ {v v' : Value}, (name, v) ∈ documentMembers R env sh .apiFull →
        Doc.Within (tree v') (tree v) → (tree v').find path = some (.leaf a) →
        (tree (.object (documentMembers R env sh .apiFull))).find (name :: path) = some (.leaf a) := by
      intro v v' hMem hWithin hFind
      have hNames := nodup_documentKeys R env sh
      rw [← names_treeMembers] at hNames
      rw [tree, Doc.find_cons, Doc.get_of_mem hNames (mem_treeMembers hMem)]
      exact hWithin path a hFind
    obtain ⟨child, hChild, hBelow⟩ := Option.bind_eq_some_iff.mp ((Doc.find_cons _ name path).symm.trans hLeaf)
    have hMember := Doc.mem_of_get hChild
    rw [treeMembers_eq] at hMember
    simp only [List.map_cons, List.map_nil, List.zip_cons_cons, List.zip_nil_right, List.mem_cons,
      List.not_mem_nil, or_false, Prod.mk.injEq] at hMember
    rcases hMember with ⟨rfl, rfl⟩ | ⟨rfl, rfl⟩ | ⟨rfl, rfl⟩ | ⟨rfl, rfl⟩ | ⟨rfl, rfl⟩ | ⟨rfl, rfl⟩ | ⟨rfl, rfl⟩ |
      ⟨rfl, rfl⟩
    · exact hDocument (List.mem_append_left _ List.mem_cons_self) (.refl _) hBelow
    · exact hDocument (List.mem_append_left _ (List.mem_of_getElem? (i := 2) rfl)) (.refl _) hBelow
    · cases path with
      | nil => exact absurd rfl hPath
      | cons k path => cases hBelow
    · exact hDocument (section_mem R env sh .system) (within_system R sh) hBelow
    · exact hDocument (section_mem R env sh .requests) (within_requests R sh) hBelow
    · exact hDocument (section_mem R env sh .connections) (within_connections R sh) hBelow
    · exact hDocument (section_mem R env sh .network) (within_network R sh) hBelow
    · exact hDocument (section_mem R env sh .disk) (within_disk R sh) hBelow

end Within

section Events

variable {R : Vslprintf w} (hR : R.Numeric)
include hR

/-- An event and an answer that are written from the same zone in the same
second agree: what is read from the data of the event at any path is read from
the body of the answer there, the number of the event apart. -/
theorem event_agrees_with_answer (env : Env w) {sh : Shctx w} (hClean : CleanZone sh)
    (hWritten : (jsonAnswer R env sh .apiFull).failed = false) (k : BitVec w) :
    ∃ data live full, R.format (heartbeat k ++ ssePayload env.clock k sh) =
        (liveLines R k).flatMap (fun line => line ++ [10]) ++ (ascii "data: " ++ data ++ [10, 10]) ∧
      parse data = some live ∧ parse (jsonAnswer R env sh .apiFull).out = some full ∧
      ∀ path a, path ≠ [ascii "sequence"] → (tree live).find path = some (.leaf a) →
        (tree full).find path = some (.leaf a) :=
  have hListed : Endpoint.apiFull ∈ jsonEndpoints := by decide
  ⟨_, _, _, format_event R env.clock k sh, parse_live hR env.clock k sh, parse_jsonAnswer hR hClean hListed hWritten,
    fun _ _ hPath hLeaf => find_live_document R env k sh hPath hLeaf⟩

end Events

theorem written_twoPeers :
    (jsonAnswer acceptingCore.vslprintf (env acceptingCore) twoPeers .apiFull).failed = false := by
  have hNoSample : History.readerCount twoPeers = 0 := rfl
  have hSamples : (History.historySamples twoPeers).length ≤ JsonRoom.ringRoom := by
    rw [History.historySamples, hNoSample]
    split <;> exact Nat.zero_le _
  rw [jsonAnswer, if_neg (by decide)]
  exact JsonSize.document_fits (JsonSize.narrow_decimals le_rfl) rfl rfl clean_twoPeers
    (fun _ => JsonSize.small_zeroedSample) (fun _ => JsonRoom.slotBytes_le hSamples)

theorem event_agrees_with_answer_two_peers : ∃ data live full,
    acceptingCore.vslprintf.format (heartbeat 0 ++ ssePayload (env acceptingCore).clock 0 twoPeers) =
      (liveLines acceptingCore.vslprintf 0).flatMap (fun line => line ++ [10]) ++
        (ascii "data: " ++ data ++ [10, 10]) ∧
      parse data = some live ∧
      parse (jsonAnswer acceptingCore.vslprintf (env acceptingCore) twoPeers .apiFull).out = some full ∧
      ∀ path a, path ≠ [ascii "sequence"] → (tree live).find path = some (.leaf a) →
        (tree full).find path = some (.leaf a) :=
  event_agrees_with_answer JsonSize.numeric_decimals (env acceptingCore) clean_twoPeers written_twoPeers 0

end HttpMonitoring.DocumentTrees
