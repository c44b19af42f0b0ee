import HttpMonitoring.PageRender
import HttpMonitoring.Library.Doubles

/-!
# The lines of the charts

`line` draws a chart on a canvas: four lines of a grid and one path through the
values. The arithmetic is exact, that of an ordered field; what rounding does to
the newest point is said beside it.
-/

namespace HttpMonitoring.ChartLines

open History JsonWriter JsonNames JsonSections JsonDocument JsonAnswers Senders DashboardTables PageData PageRender
open Handlers (acceptingCore)

variable {w : Nat} {K : Type} [Field K] [LinearOrder K]

/-- The lines of the grid, and the path with its color, up to the device's scale. -/
structure Drawing (K : Type) where
  grid : List ((K × K) × (K × K))
  path : List (K × K)
  color : Library.HtmlText.Units

section Line

variable (width height : K)

def bound (arr : List K) (limit : Option Nat) : K :=
  match limit with
  | some m => if m = 0 then arr.foldr max 1 else m
  | none => arr.foldr max 1

/-- `Math.max(1, r.width / (arr.length - 1 || 1))` -/
def stride (n : Nat) : K := max 1 (width / (if n - 1 = 0 then 1 else (n - 1 : Nat)))

def point (m : K) (n i : Nat) (v : K) : K × K :=
  (i * stride width n, height - 8 - min v m / m * (height - 18))

def line (arr : List K) (color : Library.HtmlText.Units) (limit : Option Nat) : Drawing K where
  grid := (List.range 4).map fun i =>
    let y := 10 + i * (height - 20) / 3
    ((0, y), (width, y))
  path := arr.mapIdx (point width height (bound arr limit) arr.length)
  color := color

end Line

variable [IsStrictOrderedRing K] {width height : K}

theorem one_le_bound (arr : List K) (limit : Option Nat) : 1 ≤ bound arr limit := by
  have hLargest : (1 : K) ≤ arr.foldr max 1 := by
    induction arr with
    | nil => exact le_rfl
    | cons v arr ih => exact le_max_of_le_right ih
  cases limit with
  | none => exact hLargest
  | some m =>
    by_cases hm : m = 0
    · simpa only [bound, if_pos hm] using hLargest
    · simp only [bound, if_neg hm]
      exact_mod_cast Nat.one_le_iff_ne_zero.mpr hm

/-- Within the frame, and the higher the larger the value is. -/
theorem height_point (width : K) {m : K} (hm : 1 ≤ m) (hHeight : 18 ≤ height) (n i : Nat) {v : K} (hv : 0 ≤ v) :
    10 ≤ (point width height m n i v).2 ∧ (point width height m n i v).2 ≤ height - 8 := by
  have hPositive : 0 < m := lt_of_lt_of_le zero_lt_one hm
  have hRange : 0 ≤ height - 18 := sub_nonneg.mpr hHeight
  have hShare : 0 ≤ min v m / m := div_nonneg (le_min hv hPositive.le) hPositive.le
  have hWhole : min v m / m ≤ 1 := (div_le_one hPositive).mpr (min_le_right v m)
  have hUpper : min v m / m * (height - 18) ≤ height - 18 := mul_le_of_le_one_left hRange hWhole
  have hLower : 0 ≤ min v m / m * (height - 18) := mul_nonneg hShare hRange
  rw [point]
  constructor
  · linarith
  · linarith

theorem point_le_point {m : K} (hm : 1 ≤ m) (hHeight : 18 ≤ height) (n i j : Nat) {v u : K} (h : v ≤ u) :
    (point width height m n j u).2 ≤ (point width height m n i v).2 := by
  have hPositive : 0 < m := lt_of_lt_of_le zero_lt_one hm
  have hShares : min v m / m ≤ min u m / m := div_le_div_of_nonneg_right (min_le_min_right m h) hPositive.le
  have hScaled := mul_le_mul_of_nonneg_right hShares (sub_nonneg.mpr hHeight)
  rw [point, point]
  linarith

/-- A point is on the canvas exactly if the points in front of it have room at one
pixel each, or all points have. -/
theorem point_le_width (hWidth : 0 ≤ width) (m : K) {n i : Nat} (hi : i < n) (v : K) :
    (point width height m n i v).1 ≤ width ↔ (i : K) ≤ width := by
  have hIndex : (0 : K) ≤ i := Nat.cast_nonneg i
  rw [point, stride]
  constructor
  · intro h
    exact (le_mul_of_one_le_right hIndex (le_max_left _ _)).trans h
  · intro h
    by_cases hOne : n - 1 = 0
    · have hFirst : i = 0 := by omega
      simpa [hFirst] using hWidth
    · have hCount : (0 : K) < (n - 1 : Nat) := by exact_mod_cast Nat.pos_of_ne_zero hOne
      have hLast : (i : K) ≤ (n - 1 : Nat) := by exact_mod_cast Nat.le_sub_one_of_lt hi
      have hSpread : i * (width / (n - 1 : Nat)) ≤ width := by
        rw [mul_div_assoc', div_le_iff₀ hCount, mul_comm]
        exact mul_le_mul_of_nonneg_left hLast hWidth
      rw [if_neg hOne, mul_max_of_nonneg _ _ hIndex, mul_one]
      exact max_le h hSpread

section Rounded

open Library.Doubles

/-- How far right the newest of `n + 1` samples is drawn in doubles. -/
def roundedRight (D : Rounding) (width : ℚ) (n : Nat) : ℚ :=
  D.round (n * max 1 (D.round (width / (if n = 0 then 1 else n))))

/-- More samples than pixels leave the canvas in doubles too; fewer stay on it but
for the last places of two roundings. -/
theorem roundedRight_cases {D : Rounding} (hD : D.Ordered) {width : ℚ} (hWidth : 0 ≤ width) (hScreen : width ≤ 2 ^ 53)
    {n : Nat} (hn : n ≤ 2 ^ 53) : (width < n → roundedRight D width n = n) ∧
      (n ≤ width → roundedRight D width n ≤ width * (1 + 1 / 2 ^ 51)) := by
  rcases Nat.eq_zero_or_pos n with rfl | hPositive
  · have hZero : roundedRight D width (0 : ℕ) = 0 := by simp [roundedRight, D.round_zero]
    rw [hZero]
    exact ⟨fun _ => Nat.cast_zero.symm, fun _ => by positivity⟩
  · have hCount : (1 : ℚ) ≤ n := by exact_mod_cast hPositive
    have hOne : D.round 1 = 1 := by exact_mod_cast D.whole 1 (by norm_num)
    rw [roundedRight, if_neg hPositive.ne']
    constructor
    · intro hMore
      have hShort : D.round (width / n) ≤ 1 := by
        rw [← hOne]
        exact hD _ _ (by positivity) ((div_le_one (by linarith)).mpr hMore.le)
      rw [max_eq_left hShort, mul_one, D.whole n hn]
    · intro hRoom
      have hLong : 1 ≤ width / n := (one_le_div (by linarith)).mpr hRoom
      have hMost : width / n ≤ width := div_le_self hWidth hCount
      have hLeast : 1 ≤ D.round (width / n) := hOne ▸ hD _ _ zero_le_one hLong
      have hStride := D.round_le (x := width / n) (by linarith) (by linarith)
      have hProduct : n * D.round (width / n) ≤ width * (1 + 1 / 2 ^ 53) := by
        calc n * D.round (width / n) ≤ n * (width / n * (1 + 1 / 2 ^ 53)) :=
              mul_le_mul_of_nonneg_left hStride (by linarith)
          _ = width * (1 + 1 / 2 ^ 53) := by field_simp
      have hFirst : 1 ≤ n * D.round (width / n) := one_le_mul_of_one_le_of_one_le hCount hLeast
      have hRight := D.round_le (x := n * D.round (width / n)) (by linarith) (by linarith)
      rw [max_eq_right hLeast]
      linarith

end Rounded

omit [IsStrictOrderedRing K] in
theorem getElem_path (arr : List K) (color : Library.HtmlText.Units) (limit : Option Nat) {i : Nat}
    (hi : i < arr.length) : (line width height arr color limit).path[i]? =
      some (point width height (bound arr limit) arr.length i arr[i]) := by
  rw [line, List.getElem?_mapIdx, List.getElem?_eq_getElem hi, Option.map_some]

/-- On a canvas of at least 18 pixels the path stays between the margins, goes up where the
values do, and on to the right by at least one pixel for each value. A hidden
canvas has height zero, and what is drawn there is not seen. -/
theorem line_in_frame (hHeight : 18 ≤ height) {arr : List K} (hArr : ∀ v ∈ arr, 0 ≤ v)
    (color : Library.HtmlText.Units) (limit : Option Nat) {i j : Nat} (hi : i < arr.length) (hj : j < arr.length) :
    ∃ p q, (line width height arr color limit).path[i]? = some p ∧
      (line width height arr color limit).path[j]? = some q ∧
        10 ≤ p.2 ∧ p.2 ≤ height - 8 ∧ (arr[i] ≤ arr[j] → q.2 ≤ p.2) ∧ (i < j → p.1 + 1 ≤ q.1) := by
  have hBound := one_le_bound arr limit
  obtain ⟨hUpper, hLower⟩ := height_point width hBound hHeight arr.length i (hArr _ (List.getElem_mem hi))
  refine ⟨_, _, getElem_path arr color limit hi, getElem_path arr color limit hj, hUpper, hLower,
    fun h => point_le_point hBound hHeight _ i j h, fun h => ?_⟩
  have hStep : ((i : K) + 1) * stride width arr.length ≤ j * stride width arr.length := by
    refine mul_le_mul_of_nonneg_right ?_ (zero_le_one.trans (le_max_left _ _))
    exact_mod_cast h
  have hStride : (1 : K) ≤ stride width arr.length := le_max_left _ _
  simp only [point]
  linarith

theorem line_in_frame_one_peak : ∃ p q, (line 300 210 [1, 3, (2 : ℚ)] [] none).path[0]? = some p ∧
    (line 300 210 [1, 3, (2 : ℚ)] [] none).path[1]? = some q ∧ q.2 ≤ p.2 ∧ p.1 + 1 ≤ q.1 := by
  have hHeight : (18 : ℚ) ≤ 210 := by norm_num
  have hArr : ∀ v ∈ [1, 3, (2 : ℚ)], 0 ≤ v := by norm_num
  obtain ⟨p, q, hFirst, hSecond, -, -, hUp, hRight⟩ := line_in_frame (i := 0) (j := 1) hHeight hArr [] none (by decide)
    (by decide)
  exact ⟨p, q, hFirst, hSecond, hUp (by norm_num), hRight (by decide)⟩

def draw (B : Browser K) (width height : K) (c : Chart K) : Drawing K :=
  line width height (c.values.map B.toNumber) c.color c.max

/-- The charts with what each of them draws of a sample. -/
def chartSeries (B : Browser K) (R : Vslprintf w) : List (Library.HtmlText.Units × (HistorySample w → K)) :=
  let fixed := fun x : ℚ => B.value (number (R.fixed 3 x))
  let cpu := fun s : HistorySample w => B.toNumber (fixed s.cpuUsage)
  [(Library.HtmlText.units "cpuChart", cpu), (Library.HtmlText.units "cpuChart2", cpu),
    (Library.HtmlText.units "rpsChart", fun s => B.toNumber (fixed s.requestsPerSec)),
    (Library.HtmlText.units "netChart", fun s =>
      B.div (B.toNumber (B.plus (fixed s.networkRxPerSec) (fixed s.networkTxPerSec))) (B.ofNat 1024)),
    (Library.HtmlText.units "latChart", fun s => B.toNumber (fixed s.latencyP95)),
    (Library.HtmlText.units "memChart", fun s => B.toNumber (fixed s.memoryUsedPct)),
    (Library.HtmlText.units "errChart", fun s => B.toNumber (B.plus (B.orZero (number (R.unsigned s.status4xx)))
      (B.orZero (number (R.unsigned s.status5xx)))))]

omit [Field K] [LinearOrder K] [IsStrictOrderedRing K] in
theorem chartFigures_series (B : Browser K) (R : Vslprintf w) (samples : List (HistorySample w)) :
    List.Forall₂ (fun (c : Chart K) series => c.id = series.1 ∧ c.values.map B.toNumber = samples.map series.2)
      (chartFigures B R samples) (chartSeries B R) := by
  simp only [chartFigures, chartSeries, List.forall₂_cons, List.forall₂_nil_left_iff, List.map_map, true_and, and_true]
  exact ⟨rfl, rfl, rfl, rfl, rfl, rfl, rfl⟩

/-- The path of a chart: sample by sample from left to right. -/
def DrawsSamples (B : Browser K) (width height : K) (samples : List (HistorySample w)) (c : Chart K)
    (series : Library.HtmlText.Units × (HistorySample w → K)) : Prop :=
  c.id = series.1 ∧ (draw B width height c).path =
    samples.mapIdx fun i s => point width height (bound (samples.map series.2) c.max) samples.length i (series.2 s)

/-- Once an answer has come in each chart shows the samples of its zone one after
the other, and the newest of them is on the canvas exactly if all of them have
room at one pixel each. -/
theorem newest_sample_in_view {R : Vslprintf w} (hR : R.Numeric) (B : Browser K) {heard : List (Heard w)}
    (hSound : ∀ x ∈ heard, x.Sound R) (inputs : Inputs) {env : Env w} {polled : Shctx w}
    (hPoll : (heard.foldl Known.note Known.start).poll = some (env, polled)) (height : K)
    (hWidth : 0 ≤ width) (hSamples : historySamples polled ≠ []) :
    ∃ screen, render B inputs ((heard.map (Heard.input R)).foldl (receive B.isZero) Page.start) = some screen ∧
      List.Forall₂ (DrawsSamples B width height (historySamples polled)) screen.charts (chartSeries B R) ∧
      ∀ c ∈ screen.charts, ∃ newest, (draw B width height c).path.getLast? = some newest ∧
        (newest.1 ≤ width ↔ ((historySamples polled).length : K) ≤ width + 1) := by
  have hDrawn : List.Forall₂ (DrawsSamples B width height (historySamples polled))
      (chartFigures B R (historySamples polled)) (chartSeries B R) := by
    refine List.Forall₂.imp ?_ (chartFigures_series B R (historySamples polled))
    rintro c series ⟨hId, hValues⟩
    refine ⟨hId, ?_⟩
    rw [draw, line, hValues, List.length_map]
    refine List.ext_getElem? fun i => ?_
    rw [List.getElem?_mapIdx, List.getElem?_mapIdx, List.getElem?_map, Option.map_map]
    rfl
  refine ⟨_, render_run hR B hSound inputs hPoll, hDrawn, ?_⟩
  intro c hc
  have hLength : (c.values.map B.toNumber).length = (historySamples polled).length := by
    rw [List.length_map, length_chartFigures B R _ c hc]
  have hPath : (draw B width height c).path.length = (historySamples polled).length := by
    rw [draw, line, List.length_mapIdx, hLength]
  have hPositive := List.length_pos_iff.mpr hSamples
  have hLast : (historySamples polled).length - 1 < (c.values.map B.toNumber).length := by omega
  obtain ⟨newest, hAt, hView⟩ : ∃ newest,
      (draw B width height c).path[(historySamples polled).length - 1]? = some newest ∧
        (newest.1 ≤ width ↔ (((historySamples polled).length - 1 : Nat) : K) ≤ width) :=
    ⟨_, getElem_path _ _ _ hLast, point_le_width hWidth _ hLast _⟩
  refine ⟨newest, by rw [List.getLast?_eq_getElem?, hPath, hAt], ?_⟩
  rw [hView, Nat.cast_sub hPositive, Nat.cast_one, sub_le_iff_le_add]

def wholeText (x : ℚ) : Library.HtmlText.Units := Library.HtmlText.units (toString ⌊x⌋)

def exactBrowser : Browser ℚ where
  ofNat n := n
  nan := 0
  isTruthy x := x ≠ 0
  abs x := |x|
  atLeast x y := y ≤ x
  sub x y := x - y
  div x y := x / y
  rem x y := x - y * ⌊x / y⌋
  toFixed x _ := wholeText x
  numberText := wholeText
  parseNumber _ := 0
  toLowerCase s := s
  localeCompare s t := if s = t then 0 else if s < t then -1 else 1
  stringify _ := []
  sort compare a := a.mergeSort fun x y => compare x y ≤ 0
  sort_perm _ a := List.mergeSort_perm a _
  add x y := x + y
  mul x y := x * y
  literal digits := (Library.Scanf.digitsValue (digits.takeWhile Library.Scanf.isDigit) : ℚ)
  decode body := body.map fun c => UInt16.ofNat c.toNat
  primitive _ := []

def twoSamples : Shctx 64 := { twoPeers with historyWrite := 2, historyCount := 2 }

theorem clean_twoSamples : CleanZone twoSamples := by
  obtain ⟨hUrls, hAgents, hUpstreams, hIfaces, hDisks, hPaths, hTypes⟩ := ReadAnswers.clean_twoPeers
  exact ⟨hUrls, hAgents, hUpstreams, hIfaces, hDisks, hPaths, hTypes⟩

theorem newest_sample_in_view_two_samples : ∃ screen,
    render exactBrowser (fun _ => none) (receive exactBrowser.isZero Page.start
        (Heard.input acceptingCore.vslprintf (.polled (env acceptingCore) twoSamples))) = some screen ∧
      List.Forall₂ (DrawsSamples exactBrowser 640 210 (historySamples twoSamples)) screen.charts
        (chartSeries exactBrowser acceptingCore.vslprintf) ∧
      ∀ c ∈ screen.charts, ∃ newest, (draw exactBrowser 640 210 c).path.getLast? = some newest ∧ newest.1 ≤ 640 := by
  have hCount : readerCount twoSamples = 2 := rfl
  have hCapacity : readerCapacity twoSamples = 300 := rfl
  have hLength : (historySamples twoSamples).length = 2 := by
    rw [historySamples, hCapacity, hCount]
    rfl
  have hWritten : (jsonAnswer acceptingCore.vslprintf (env acceptingCore) twoSamples .apiFull).failed = false := by
    rw [jsonAnswer, if_neg (by decide)]
    exact JsonSize.document_fits (JsonSize.narrow_decimals le_rfl) rfl rfl clean_twoSamples
      (fun _ => JsonSize.small_zeroedSample) (fun _ => JsonRoom.slotBytes_le (by rw [hLength]; decide))
  have hSound : ∀ x ∈ [Heard.polled (env acceptingCore) twoSamples], x.Sound acceptingCore.vslprintf :=
    List.forall_mem_singleton.mpr ⟨clean_twoSamples, hWritten⟩
  have hSamples : historySamples twoSamples ≠ [] := by
    intro hNil
    rw [hNil] at hLength
    cases hLength
  have hWidth : (0 : ℚ) ≤ 640 := by norm_num
  obtain ⟨screen, hScreen, hDrawn, hCharts⟩ := newest_sample_in_view JsonSize.numeric_decimals exactBrowser hSound
    (fun _ => none) rfl 210 hWidth hSamples
  rw [List.map_singleton, List.foldl_cons, List.foldl_nil] at hScreen
  refine ⟨screen, hScreen, hDrawn, fun c hc => ?_⟩
  obtain ⟨newest, hNewest, hView⟩ := hCharts c hc
  exact ⟨newest, hNewest, hView.mpr (by rw [hLength]; norm_num)⟩

end HttpMonitoring.ChartLines
