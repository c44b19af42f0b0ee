import HttpMonitoring.JsonSize
import HttpMonitoring.Library.Exposition
import HttpMonitoring.ReadAnswers

/-!
# The answer for scrapers

`send_prometheus` hands over a text of five metrics, which is read back as the
figures of the zone.
-/

namespace HttpMonitoring.PrometheusText

open Library Nginx Accounting History JsonWriter JsonSections JsonSize JsonAnswers Exchange Senders Handlers
  LiveStreamEvents WholeAnswers ReadAnswers Library.BoundedWriter Library.JsonText Library.Exposition

variable {w : Nat}

section Text

variable (R : Vslprintf w)

def metric (name help : String) (kind : Kind) (value : Bytes) : Metric := ⟨ascii name, ascii help, kind, value⟩

def memoryRatio (s : SystemMetric w) : Bytes :=
  if 0 < s.memTotal.toNat then R.fixed 3 ((s.memTotal - s.memAvailable).toNat / s.memTotal.toNat) else ascii "0"

def metrics (sh : Shctx w) : List Metric :=
  [metric "nginx_monitor_requests_total" "Total HTTP requests observed by ngx_http_monitoring_module" .counter
      (R.unsigned sh.requests.total),
    metric "nginx_monitor_active_connections" "Active nginx connections" .gauge (R.unsigned sh.connections.active),
    metric "nginx_monitor_cpu_usage_ratio" "CPU usage ratio" .gauge (R.fixed 3 (sh.system.usageMilli.toNat / 100000)),
    metric "nginx_monitor_memory_used_ratio" "Memory usage ratio" .gauge (memoryRatio R sh.system),
    metric "nginx_monitor_latency_p95_ms" "Estimated p95 request latency" .gauge
      (R.fixed 3 (roundedPercentile sh.requests 95))]

def kindName : Kind → String
  | .counter => "counter"
  | .gauge => "gauge"
  | .untyped => "untyped"

/-- The lines with help and type. -/
def opening (name help : String) (kind : Kind) : Bytes :=
  ascii ("# HELP " ++ name ++ " " ++ help ++ "\n# TYPE " ++ name ++ " " ++ kindName kind ++ "\n")

theorem text_metric (name help : String) (kind : Kind) (value : Bytes) :
    (metric name help kind value).text = opening name help kind ++ (ascii name ++ 32 :: value ++ [10]) := by
  cases kind <;> simp [metric, opening, kindName, Kind.text, Metric.text, Metric.texts, helpWord, typeWord, ascii]

theorem renders_sample (name : String) (piece : Piece w) :
    Renders True (jsonPrintf R [.lit name, piece, .lit "\n"]) (ascii name ++ R.piece piece ++ [10]) :=
  (renders_printf R _).cast (by
    simp only [format_cons, format_nil, List.append_nil, List.append_assoc]
    rfl)

theorem renders_metric {head : Bytes} {name help : String} {kind : Kind} {label : String} {value : Bytes}
    {sample : Jw → Jw}
    (hHead : head = opening name help kind) (hLabel : label = name ++ " ")
    (hSample : Renders True sample (ascii label ++ value ++ [10])) :
    Renders True (fun jw => sample (jsonAppend head jw)) (metric name help kind value).text :=
  ((renders_append head).comp hSample).cast (by rw [text_metric, hHead, hLabel]; simp [ascii])

theorem renders_memoryRatio (s : SystemMetric w) :
    Renders True (if 0 < s.memTotal.toNat then
        jsonPrintf R [.lit "nginx_monitor_memory_used_ratio ",
          .f 3 ((s.memTotal - s.memAvailable).toNat / s.memTotal.toNat), .lit "\n"]
      else jsonAppend (ascii "nginx_monitor_memory_used_ratio 0\n"))
      (ascii "nginx_monitor_memory_used_ratio " ++ memoryRatio R s ++ [10]) := by
  rw [memoryRatio]
  split
  · exact renders_sample R _ _
  · exact (renders_append _).cast (by simp [ascii])

theorem renders_prometheus (sh : Shctx w) :
    Renders True (prometheusDocument R sh) ((metrics R sh).flatMap Metric.text) := by
  have hTotal : ascii ("# HELP nginx_monitor_requests_total Total HTTP requests observed by " ++
      "ngx_http_monitoring_module\n" ++ "# TYPE nginx_monitor_requests_total counter\n") =
      opening "nginx_monitor_requests_total" "Total HTTP requests observed by ngx_http_monitoring_module" .counter :=
    congrArg ascii rfl
  have hActive : ascii ("# HELP nginx_monitor_active_connections Active nginx connections\n" ++
      "# TYPE nginx_monitor_active_connections gauge\n") =
      opening "nginx_monitor_active_connections" "Active nginx connections" .gauge :=
    congrArg ascii rfl
  have hUsage : ascii ("# HELP nginx_monitor_cpu_usage_ratio CPU usage ratio\n" ++
      "# TYPE nginx_monitor_cpu_usage_ratio gauge\n") =
      opening "nginx_monitor_cpu_usage_ratio" "CPU usage ratio" .gauge :=
    congrArg ascii rfl
  have hMemory : ascii ("# HELP nginx_monitor_memory_used_ratio Memory usage ratio\n" ++
      "# TYPE nginx_monitor_memory_used_ratio gauge\n") =
      opening "nginx_monitor_memory_used_ratio" "Memory usage ratio" .gauge :=
    congrArg ascii rfl
  have hLatency : ascii ("# HELP nginx_monitor_latency_p95_ms Estimated p95 request latency\n" ++
      "# TYPE nginx_monitor_latency_p95_ms gauge\n") =
      opening "nginx_monitor_latency_p95_ms" "Estimated p95 request latency" .gauge :=
    congrArg ascii rfl
  have hAll := ((((renders_metric hTotal rfl
      (renders_sample R "nginx_monitor_requests_total " (.uA sh.requests.total))).comp
    (renders_metric hActive rfl
      (renders_sample R "nginx_monitor_active_connections " (.uA sh.connections.active)))).comp
    (renders_metric hUsage rfl
      (renders_sample R "nginx_monitor_cpu_usage_ratio " (.f 3 (sh.system.usageMilli.toNat / 100000))))).comp
    (renders_metric hMemory rfl (renders_memoryRatio R sh.system))).comp
    (renders_metric hLatency rfl
      (renders_sample R "nginx_monitor_latency_p95_ms " (.f 3 (roundedPercentile sh.requests 95))))
  refine (hAll.cast ?_).congr fun jw => rfl
  simp only [metrics, List.flatMap_cons, List.flatMap_nil, List.append_nil, List.append_assoc]
  rfl

end Text

section Reading

variable {R : Vslprintf w}

theorem valid_metric {name help : String} (kind : Kind) {value : Bytes} (hName : IsName (ascii name))
    (hHelp : ∀ c ∈ ascii help, c ≠ 92 ∧ c ≠ 10) (hStarts : ∀ c ∈ (ascii help).head?, isBlank c = false)
    (hValue : IsNumber value) : (metric name help kind value).Valid :=
  ⟨hName, hHelp, hStarts, hValue⟩

theorem valid_metrics (hR : R.Numeric) (sh : Shctx w) : ∀ m ∈ metrics R sh, m.Valid := by
  have hRatio : IsNumber (memoryRatio R sh.system) := by
    rw [memoryRatio]
    split
    · exact hR.fixed _ _
    · exact Library.Decimal.isNumber_natText 0
  simp only [metrics, List.forall_mem_cons, List.not_mem_nil, false_imp_iff, implies_true, and_true]
  exact ⟨valid_metric _ (by simp [IsName, isLetter, ascii]) (by simp [ascii]) (by simp [isBlank, ascii])
      (hR.unsigned _),
    valid_metric _ (by simp [IsName, isLetter, ascii]) (by simp [ascii]) (by simp [isBlank, ascii]) (hR.unsigned _),
    valid_metric _ (by simp [IsName, isLetter, ascii]) (by simp [ascii]) (by simp [isBlank, ascii]) (hR.fixed _ _),
    valid_metric _ (by simp [IsName, isLetter, ascii]) (by simp [ascii]) (by simp [isBlank, ascii]) hRatio,
    valid_metric _ (by simp [IsName, isLetter, Scanf.isDigit, ascii]) (by simp [ascii]) (by simp [isBlank, ascii])
      (hR.fixed _ _)⟩

theorem length_metric {name help : String} (kind : Kind) {value : Bytes} (hName : name.length ≤ 40)
    (hHelp : help.length ≤ 70) (hValue : value.length ≤ 42) : (metric name help kind value).text.length ≤ 400 := by
  have hKind : (kindName kind).length ≤ 7 := by
    cases kind <;> decide
  have hAscii : ∀ s : String, (ascii s).length = s.length := fun s => by
    rw [ascii, List.length_map, String.length_toList]
  have hHead : "# HELP ".length = 7 := rfl
  have hType : "\n# TYPE ".length = 8 := rfl
  have hBlank : " ".length = 1 := rfl
  have hEnd : "\n".length = 1 := rfl
  simp only [text_metric, opening, List.length_append, List.length_cons, List.length_nil, hAscii, String.length_append,
    hHead, hType, hBlank, hEnd]
  omega

theorem written_prometheus (hR : Narrow R) (sh : Shctx w) :
    (prometheusDocument R sh (Output.start prometheusBuffer)).failed = false := by
  refine (renders_prometheus R sh).fits_start trivial ?_
  have hUnsigned : ∀ x, (R.unsigned x).length ≤ 42 := fun x => (hR.unsigned x).trans (by decide)
  have hFixed := hR.fixed 3 (by decide)
  have hRatio : (memoryRatio R sh.system).length ≤ 42 := by
    rw [memoryRatio]
    split
    · exact hFixed _
    · decide
  have hMetrics : ∀ m ∈ metrics R sh, m.text.length ≤ 400 := by
    simp only [metrics, List.forall_mem_cons, List.not_mem_nil, false_imp_iff, implies_true, and_true]
    exact ⟨length_metric _ (by decide) (by decide) (hUnsigned _), length_metric _ (by decide) (by decide) (hUnsigned _),
      length_metric _ (by decide) (by decide) (hFixed _), length_metric _ (by decide) (by decide) hRatio,
      length_metric _ (by decide) (by decide) (hFixed _)⟩
  have hLength := List.sum_le_card_nsmul ((metrics R sh).map fun m => m.text.length) 400 (by simpa using hMetrics)
  rw [List.length_flatMap]
  simp only [List.length_map] at hLength
  have hFive : (metrics R sh).length = 5 := rfl
  rw [hFive] at hLength
  refine lt_of_le_of_lt (Nat.add_le_add_right hLength 1) (by decide)

/-- Scrapers get an error, or a header with the length of one text that is written
to its end and read as the five metrics of the zone. -/
theorem metrics_read_back {core : Core w} (hR : core.vslprintf.Numeric) (hNarrow : Narrow core.vslprintf)
    (r : HttpRequest w) {s : State w} {sh : Shctx w} (hZone : s.getShctx = some sh) :
    (prometheusDocument core.vslprintf sh (Output.start prometheusBuffer)).failed = false ∧
    ((sendPrometheus core r s).1 ∈ senderErrors ∧
        (sendPrometheus core r s).2.trace = s.trace ++ [.send .prometheus] ∨
      ∃ response : Response, ∃ body : Bytes, response.status = httpOk ∧ response.contentLength = body.length ∧
        (sendPrometheus core r s).2.trace = s.trace ++ .send .prometheus :: delivery r response body ∧
        parse body = some ((metrics core.vslprintf sh).map Metric.family)) := by
  have hWritten := written_prometheus hNarrow sh
  refine ⟨hWritten, (sendDocument_cases core r .prometheus prometheusBuffer
    (prometheusDocument core.vslprintf) _ s).imp id ?_⟩
  rintro ⟨sh', response, hZone', -, hStatus, hLength, hTrace⟩
  obtain rfl := Option.some.inj (hZone.symm.trans hZone')
  refine ⟨response, _, hStatus, hLength, hTrace, ?_⟩
  rw [(renders_prometheus core.vslprintf sh).out_start hWritten]
  exact parse_metrics (valid_metrics hR sh) (by simp [metrics, metric, ascii])

/-- Twelve requests, and a quarter of the memory still available. -/
def busyZone : Shctx 64 :=
  { JsonAnswers.twoPeers with
    requests := { JsonAnswers.twoPeers.requests with total := 12 }
    system := { JsonAnswers.twoPeers.system with usageMilli := 42500, memTotal := 4096, memAvailable := 1024 } }

def busyState : State 64 := { freshState with mmcf := some { defaultMain with sh := some busyZone } }

theorem metrics_read_back_busy : ∃ response : Response, ∃ body families, response.contentLength = body.length ∧
    (sendPrometheus acceptingCore (getRequest (ascii "/monitor/metrics")) busyState).2.trace =
      [.send .prometheus, .discardBody, .sendHeader response, .outputFilter body] ∧
    parse body = some families ∧
    ⟨ascii "nginx_monitor_requests_total",
      some (ascii "Total HTTP requests observed by ngx_http_monitoring_module"), some .counter, some (ascii "12")⟩ ∈
      families ∧
    ⟨ascii "nginx_monitor_memory_used_ratio", some (ascii "Memory usage ratio"), some .gauge, some (ascii "0.750")⟩ ∈
      families := by
  have hNumeric : acceptingCore.vslprintf.Numeric := numeric_decimals
  have hZone : busyState.getShctx = some busyZone := rfl
  have hRatio : memoryRatio acceptingCore.vslprintf busyZone.system = ascii "0.750" := by
    decide +kernel
  obtain ⟨hWritten, hError | ⟨response, body, -, hLength, hTrace, hParsed⟩⟩ :=
    metrics_read_back hNumeric (narrow_decimals le_rfl) (getRequest (ascii "/monitor/metrics")) hZone
  · have hSent : (sendPrometheus acceptingCore (getRequest (ascii "/monitor/metrics")) busyState).1 = rcOk := by
      have hLogged : (busyState.log (.send .prometheus)).getShctx = some busyZone := rfl
      rw [sendPrometheus, sendDocument]
      simp only [hLogged, hWritten]
      rfl
    rw [hSent] at hError
    exact absurd hError.1 (by decide)
  · exact ⟨response, body, _, hLength, hTrace, hParsed, List.mem_of_getElem? (i := 0) rfl,
      hRatio ▸ List.mem_of_getElem? (i := 3) rfl⟩

end Reading

end HttpMonitoring.PrometheusText
