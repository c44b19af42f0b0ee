import HttpMonitoring.Percentiles
import HttpMonitoring.ErrorCounters

/-!
# The order of the percentiles

A larger percentile has a larger rank, and the scan for a larger rank ends at a
larger bound. Requests behind the last bound raise the ranks and leave the
counts that are scanned, as long as the total does not wrap. Rounding keeps the
order of the ranks, but near the end of the machine words it may round a rank up
to one that no word holds.
-/

namespace HttpMonitoring.PercentileOrder

open Accounting Zone History Percentiles ErrorCounters Library.Buckets

variable {w : Nat}

theorem le_percentileScan {cells : Nat → BitVec w} {target : BitVec w} {least : Nat} {bounds : List Nat}
    (hBounds : ∀ b ∈ bounds, least ≤ b) (hLast : least ≤ 30000) (i : Nat) (count : BitVec w) :
    (least : ℚ) ≤ percentileScan cells target bounds i count := by
  induction bounds generalizing i count with
  | nil =>
    rw [percentileScan]
    exact_mod_cast hLast
  | cons bound bounds ih =>
    obtain ⟨hFirst, hRest⟩ := List.forall_mem_cons.mp hBounds
    rw [percentileScan]
    split
    · exact_mod_cast hFirst
    · exact ih hRest (i + 1) (count + cells i)

theorem percentileScan_mono {cells cells' : Nat → BitVec w} {target target' : BitVec w}
    (hTarget : target.toNat ≤ target'.toNat) {bounds : List Nat} (hSorted : bounds.Pairwise (· ≤ ·))
    (hLast : ∀ b ∈ bounds, b ≤ 30000) {i : Nat} (hCells : ∀ j < i + bounds.length, cells' j = cells j)
    (count : BitVec w) :
    percentileScan cells target bounds i count ≤ percentileScan cells' target' bounds i count := by
  induction bounds generalizing i count with
  | nil => exact le_rfl
  | cons bound bounds ih =>
    obtain ⟨hFirst, hRest⟩ := List.pairwise_cons.mp hSorted
    obtain ⟨hBound, hBounds⟩ := List.forall_mem_cons.mp hLast
    rw [List.length_cons] at hCells
    rw [percentileScan, percentileScan, hCells i (by omega)]
    split
    · split
      · exact le_rfl
      · exact le_percentileScan hFirst hBound (i + 1) (count + cells i)
    · rename_i hShort
      rw [if_neg fun hReached => hShort (hTarget.trans hReached)]
      exact ih hRest hBounds (fun j hj => hCells j (by omega)) (count + cells i)

section Ranks

variable {D : Library.Doubles.Rounding} (hD : D.Ordered)
include hD

theorem doubleRank_mono {total total' : BitVec w} (hTotal : total.toNat ≤ total'.toNat) {p q : ℚ} (hp : 0 ≤ p)
    (hpq : p ≤ q) : doubleRank D total p ≤ doubleRank D total' q := by
  have hFirst : D.round total.toNat ≤ D.round total'.toNat := hD _ _ (Nat.cast_nonneg _) (Nat.cast_le.mpr hTotal)
  have hNonneg := hD.round_nonneg (Nat.cast_nonneg total.toNat)
  have hProduct : D.round total.toNat * p ≤ D.round total'.toNat * q :=
    mul_le_mul hFirst hpq hp (hNonneg.trans hFirst)
  have hSecond := hD _ _ (mul_nonneg hNonneg hp) hProduct
  exact hD _ _ (div_nonneg (hD.round_nonneg (mul_nonneg hNonneg hp)) (by norm_num))
    (div_le_div_of_nonneg_right hSecond (by norm_num))

/-- Three roundings make the total larger by less than four of its last places. -/
theorem doubleRank_le (hw : w ≤ 64) (total : BitVec w) :
    doubleRank D total 100 ≤ total.toNat + total.toNat / 2 ^ 51 := by
  rcases Nat.eq_zero_or_pos total.toNat with hNone | hSome
  · simp [doubleRank, hNone, D.round_zero]
  · have hOne : (1 : ℚ) ≤ total.toNat := by exact_mod_cast hSome
    have hMost : (total.toNat : ℚ) ≤ 2 ^ 64 := by
      exact_mod_cast total.isLt.le.trans (Nat.pow_le_pow_right (by norm_num) hw)
    have hLeast : 1 ≤ D.round total.toNat := by
      exact_mod_cast hD.le_round (n := 1) (by norm_num) (by exact_mod_cast hSome)
    have hTotal := D.round_le (x := total.toNat) (by linarith) (by linarith)
    have hLeast' : 100 ≤ D.round (D.round total.toNat * 100) := by
      exact_mod_cast hD.le_round (n := 100) (by norm_num) (by push_cast; linarith)
    have hProduct := D.round_le (x := D.round total.toNat * 100) (by linarith) (by linarith)
    have hQuotient := D.round_le (x := D.round (D.round total.toNat * 100) / 100) (by linarith) (by linarith)
    rw [doubleRank]
    linarith

end Ranks

/-- So much below the end of the words that no rank is rounded up to it. -/
def HoldsRanks (w total : Nat) : Prop := total + total / 2 ^ 51 < 2 ^ w

instance (w total : Nat) : Decidable (HoldsRanks w total) := inferInstanceAs (Decidable (_ < _))

theorem doublePercentile_nonneg (D : Library.Doubles.Rounding) (m : RequestMetric w) (p : ℚ) :
    0 ≤ doublePercentile D m p := by
  rw [doublePercentile]
  split
  · exact le_rfl
  · have hLeast : ∀ b ∈ latencyBounds, 0 ≤ b := fun b _ => Nat.zero_le b
    exact_mod_cast le_percentileScan hLeast (Nat.zero_le _) 0 0

section Targets

variable {D : Library.Doubles.Rounding} (hD : D.Ordered) (hw : w ≤ 64)
include hD hw

theorem floor_doubleRank_lt {total : BitVec w} (hHolds : HoldsRanks w total.toNat) {p : ℚ} (hp : 0 ≤ p)
    (hp' : p ≤ 100) : ⌊doubleRank D total p⌋₊ < 2 ^ w := by
  have hRank := (doubleRank_mono hD (le_refl total.toNat) hp hp').trans (doubleRank_le hD hw total)
  have hFloor : ⌊(total.toNat : ℚ) + total.toNat / 2 ^ 51⌋₊ = total.toNat + total.toNat / 2 ^ 51 := by
    have hPart : ⌊(total.toNat : ℚ) / (2 ^ 51 : ℕ)⌋₊ = total.toNat / 2 ^ 51 := Nat.floor_div_eq_div _ _
    rw [add_comm (total.toNat : ℚ), Nat.floor_add_natCast (by positivity), add_comm, ← hPart]
    norm_num
  exact (Nat.floor_le_floor hRank).trans_lt (hFloor ▸ hHolds)

theorem toNat_doubleTarget {total : BitVec w} (hSome : total ≠ 0) (hHolds : HoldsRanks w total.toNat) {p : ℚ}
    (hp : 0 ≤ p) (hp' : p ≤ 100) : (doubleTarget D total p).toNat = max 1 ⌊doubleRank D total p⌋₊ := by
  have hRank : (BitVec.ofNat w ⌊doubleRank D total p⌋₊).toNat = ⌊doubleRank D total p⌋₊ := by
    rw [BitVec.toNat_ofNat, Nat.mod_eq_of_lt (floor_doubleRank_lt hD hw hHolds hp hp')]
  have hWide : 1 < 2 ^ w := by
    rcases Nat.eq_zero_or_pos w with rfl | hPositive
    · exact absurd (BitVec.eq_of_zero_length rfl) hSome
    · exact Nat.one_lt_two_pow hPositive.ne'
  have hOne : (1 : BitVec w).toNat = 1 := Nat.mod_eq_of_lt hWide
  rw [doubleTarget]
  split
  · rename_i hZero
    rw [hZero] at hRank
    rw [hOne, ← hRank]
    rfl
  · rename_i hPositive
    rw [hRank]
    refine (max_eq_right (Nat.one_le_iff_ne_zero.mpr fun hZero => hPositive ?_)).symm
    rw [hZero]
    rfl

theorem toNat_doubleTarget_mono {total total' : BitVec w} (hSome : total ≠ 0) (hTotal : total.toNat ≤ total'.toNat)
    (hHolds : HoldsRanks w total'.toNat) {p q : ℚ} (hp : 0 ≤ p) (hpq : p ≤ q) (hq : q ≤ 100) :
    (doubleTarget D total p).toNat ≤ (doubleTarget D total' q).toNat := by
  have hSome' : total' ≠ 0 := by
    rintro rfl
    exact hSome (BitVec.eq_of_toNat_eq (Nat.le_zero.mp hTotal))
  have hHolds' : HoldsRanks w total.toNat :=
    (Nat.add_le_add hTotal (Nat.div_le_div_right hTotal)).trans_lt hHolds
  rw [toNat_doubleTarget hD hw hSome hHolds' hp (hpq.trans hq),
    toNat_doubleTarget hD hw hSome' hHolds (hp.trans hpq) hq]
  exact max_le_max_left 1 (Nat.floor_le_floor (doubleRank_mono hD hTotal hp hpq))

/-- A histogram with the same counts below the last bound and no smaller total
has no smaller percentiles. -/
theorem doublePercentile_le {m m' : RequestMetric w}
    (hCells : ∀ i < latencyBounds.length, m'.latencyBucket i = m.latencyBucket i)
    (hTotal : (bucketTotal m.latencyBucket latencyBuckets).toNat ≤
      (bucketTotal m'.latencyBucket latencyBuckets).toNat)
    (hHolds : HoldsRanks w (bucketTotal m'.latencyBucket latencyBuckets).toNat)
    {p q : ℚ} (hp : 0 ≤ p) (hpq : p ≤ q) (hq : q ≤ 100) : doublePercentile D m p ≤ doublePercentile D m' q := by
  by_cases hNone : bucketTotal m.latencyBucket latencyBuckets = 0
  · have hZero : doublePercentile D m p = 0 := by rw [doublePercentile, if_pos hNone]
    rw [hZero]
    exact doublePercentile_nonneg D m' q
  · have hSome' : bucketTotal m'.latencyBucket latencyBuckets ≠ 0 := by
      intro hZero
      rw [hZero] at hTotal
      exact hNone (BitVec.eq_of_toNat_eq (Nat.le_zero.mp hTotal))
    rw [doublePercentile, doublePercentile, if_neg hNone, if_neg hSome']
    refine percentileScan_mono (toNat_doubleTarget_mono hD hw hNone hTotal hHolds hp hpq hq) (by decide)
      (by decide) ?_ 0
    rw [Nat.zero_add]
    exact hCells

end Targets

section Recording

variable (crc32 : Bytes → BitVec 32)

def furtherRequests (sh : Shctx w) (calls : List (AccountedCall w)) : Shctx w :=
  calls.foldl (fun sh a => a.apply crc32 sh) sh

theorem latencyBucket_furtherRequests (sh : Shctx w) (calls : List (AccountedCall w)) (i : Nat) :
    (furtherRequests crc32 sh calls).requests.latencyBucket i =
      sh.requests.latencyBucket i + BitVec.ofNat w (calls.countP fun a => latencyBucket a.call.latency = i) := by
  induction calls generalizing sh with
  | nil => simp [furtherRequests]
  | cons a calls ih =>
    have hCell : (a.apply crc32 sh).requests.latencyBucket i = _ :=
      read_accountRequest (.latencyBucket i) crc32 a.conf a.shpool a.call sh
    rw [callHits_latencyBucket] at hCell
    rw [furtherRequests, List.foldl_cons, ← furtherRequests, ih, hCell, Counter.read, List.countP_cons,
      Nat.add_comm, BitVec.ofNat_add, add_assoc]
    by_cases hHit : latencyBucket a.call.latency = i <;> simp [hHit]

/-- A run from the fresh zone counts the latencies of its requests. -/
theorem countsLatencies_accountedRun (conf : MainConf w) {calls : List (AccountedCall w)} (h : calls.length < 2 ^ w) :
    CountsLatencies (accountedRun crc32 conf calls).requests (calls.map fun a => a.call.latency.toNat) := by
  intro i _
  have hCell := latencyBucket_furtherRequests crc32 (freshZone conf) calls i
  have hZero : (freshZone conf).requests.latencyBucket i = 0 := rfl
  rw [hZero, zero_add] at hCell
  rw [accountedRun, ← furtherRequests, hCell, BitVec.toNat_ofNat,
    Nat.mod_eq_of_lt (List.countP_le_length.trans_lt h), List.countP_map]
  rfl

def atMost (calls : List (AccountedCall w)) (b : Nat) : Nat := calls.countP fun a => a.call.latency.toNat ≤ b

/-- After a run the answer is the first bound that as many requests as the rank
did not exceed, or 30000 behind them all. -/
theorem percentile_accountedRun (D : Library.Doubles.Rounding) (conf : MainConf w) {calls : List (AccountedCall w)}
    (hSome : calls ≠ []) (hWord : calls.length < 2 ^ w) (hDouble : calls.length < 2 ^ 46) {p : Nat} (hp : p ≤ 100) :
    (∃ k, ∃ hk : k < latencyBounds.length, rank calls.length p ≤ atMost calls latencyBounds[k] ∧
        (∀ j, ∀ hj : j < latencyBounds.length, j < k → atMost calls latencyBounds[j] < rank calls.length p) ∧
        doublePercentile D (accountedRun crc32 conf calls).requests p = latencyBounds[k]) ∨
      (∀ b ∈ latencyBounds, atMost calls b < rank calls.length p) ∧
        doublePercentile D (accountedRun crc32 conf calls).requests p = 30000 := by
  have hCounts := countsLatencies_accountedRun crc32 conf hWord
  have hLength := recorded_eq_length hCounts
  rw [List.length_map] at hLength
  have hCumulative : ∀ k, ∀ hk : k < latencyBounds.length,
      cumulative (accountedRun crc32 conf calls).requests k = atMost calls latencyBounds[k] := by
    intro k hk
    rw [cumulative_eq_countP hCounts hk, List.countP_map]
    rfl
  have hTotal := toNat_bucketTotal (n := latencyBuckets) (hLength.trans_lt hWord)
  have hPositive := List.length_pos_of_ne_nil hSome
  rw [doublePercentile_eq D (by rw [hTotal]; exact hLength.trans_lt hDouble) hp]
  have hCases := percentile_cases (m := (accountedRun crc32 conf calls).requests) (p := p) (by omega) (by omega) hp
  rw [hLength] at hCases
  rcases hCases with ⟨k, hk, hReached, hBefore, hAnswer⟩ | ⟨hAll, hAnswer⟩
  · refine Or.inl ⟨k, hk, hCumulative k hk ▸ hReached, fun j hj hLess => ?_, hAnswer⟩
    exact hCumulative j hj ▸ hBefore j hLess
  · refine Or.inr ⟨fun b hb => ?_, hAnswer⟩
    obtain ⟨k, hk, rfl⟩ := List.getElem_of_mem hb
    exact hCumulative k hk ▸ hAll k hk

/-- Slower than every finite bound. -/
def Slow (c : Call w) : Prop := ∀ b ∈ latencyBounds, b < c.latency.toNat

instance (c : Call w) : Decidable (Slow c) := inferInstanceAs (Decidable (∀ b ∈ latencyBounds, _))

theorem latencyBucket_slow {c : Call w} (h : Slow c) : latencyBucket c.latency = latencyBounds.length := by
  refine le_antisymm (bucketIndex_le _ _) (Nat.le_of_not_lt fun hFinite => ?_)
  have hBound := (bucketIndex_le_iff (by decide) c.latency.toNat hFinite).mp le_rfl
  exact absurd (h _ (List.getElem_mem hFinite)) (not_lt.mpr hBound)

theorem latencyBucket_slowRequests {calls : List (AccountedCall w)} (h : ∀ a ∈ calls, Slow a.call)
    (sh : Shctx w) (i : Nat) : (furtherRequests crc32 sh calls).requests.latencyBucket i =
      sh.requests.latencyBucket i + if i = latencyBounds.length then BitVec.ofNat w calls.length else 0 := by
  rw [latencyBucket_furtherRequests]
  congr 1
  split
  · rename_i hLast
    refine congrArg _ (List.countP_eq_length.mpr fun a ha => ?_)
    exact decide_eq_true ((latencyBucket_slow (h a ha)).trans hLast.symm)
  · rename_i hFinite
    have hNone : (calls.countP fun a => latencyBucket a.call.latency = i) = 0 := by
      refine List.countP_eq_zero.mpr fun a ha => ?_
      rw [latencyBucket_slow (h a ha), decide_eq_true_eq]
      exact Ne.symm hFinite
    rw [hNone]
    rfl

theorem bucketTotal_slowRequests {calls : List (AccountedCall w)} (h : ∀ a ∈ calls, Slow a.call)
    (sh : Shctx w) : bucketTotal (furtherRequests crc32 sh calls).requests.latencyBucket latencyBuckets =
      bucketTotal sh.requests.latencyBucket latencyBuckets + BitVec.ofNat w calls.length := by
  have hCells := latencyBucket_slowRequests crc32 h sh
  have hLast : ∀ cells : Nat → BitVec w, bucketTotal cells latencyBuckets =
      bucketTotal cells latencyBounds.length + cells latencyBounds.length := by
    intro cells
    rw [bucketTotal, bucketTotal, latencyBuckets, List.range_succ, List.map_append, List.sum_append,
      List.map_singleton, List.sum_singleton]
    rfl
  have hFirst : bucketTotal (furtherRequests crc32 sh calls).requests.latencyBucket latencyBounds.length =
      bucketTotal sh.requests.latencyBucket latencyBounds.length := by
    rw [bucketTotal, bucketTotal]
    refine congrArg List.sum (List.map_congr_left fun i hi => ?_)
    rw [hCells, if_neg (List.mem_range.mp hi).ne, add_zero]
  rw [hLast, hLast, hFirst, hCells, if_pos rfl, add_assoc]

def NeverLowers (D : Library.Doubles.Rounding) (sh : Shctx w) (calls : List (AccountedCall w)) : Prop :=
  ∀ p : ℚ, 0 ≤ p → p ≤ 100 →
    doublePercentile D sh.requests p ≤ doublePercentile D (furtherRequests crc32 sh calls).requests p

/-- In one zone the percentiles are ordered, and further slow requests lower
none of them, as long as the words hold the ranks. -/
theorem percentiles_ordered {D : Library.Doubles.Rounding} (hD : D.Ordered) (hw : w ≤ 64) (sh : Shctx w) :
    (HoldsRanks w (bucketTotal sh.requests.latencyBucket latencyBuckets).toNat → ∀ p q : ℚ, 0 ≤ p → p ≤ q →
        q ≤ 100 → doublePercentile D sh.requests p ≤ doublePercentile D sh.requests q) ∧
      ∀ calls : List (AccountedCall w), (∀ a ∈ calls, Slow a.call) →
        HoldsRanks w ((bucketTotal sh.requests.latencyBucket latencyBuckets).toNat + calls.length) →
          NeverLowers crc32 D sh calls := by
  constructor
  · intro hHolds p q hp hpq hq
    exact doublePercentile_le hD hw (fun _ _ => rfl) le_rfl hHolds hp hpq hq
  · intro calls hSlow hHolds p hp hp'
    have hRoom : (bucketTotal sh.requests.latencyBucket latencyBuckets).toNat + calls.length < 2 ^ w :=
      (Nat.le_add_right _ _).trans_lt hHolds
    have hTotal : (bucketTotal (furtherRequests crc32 sh calls).requests.latencyBucket latencyBuckets).toNat =
        (bucketTotal sh.requests.latencyBucket latencyBuckets).toNat + calls.length := by
      rw [bucketTotal_slowRequests crc32 hSlow, BitVec.toNat_add, BitVec.toNat_ofNat,
        Nat.mod_eq_of_lt (a := calls.length) (by omega), Nat.mod_eq_of_lt hRoom]
    refine doublePercentile_le hD hw (fun i hi => ?_) ?_ ?_ hp le_rfl hp'
    · rw [latencyBucket_slowRequests crc32 hSlow, if_neg hi.ne, add_zero]
    · rw [hTotal]
      exact Nat.le_add_right _ _
    · rw [hTotal]
      exact hHolds

end Recording

def slowRequest : AccountedCall 32 where
  conf := withDefaults createMainConf
  shpool := true
  call := ⟨⟨1710000000, 0, 200, 10, 2, false, 1, ascii "/", none, []⟩, ⟨1710000031, 0⟩, ⟨0, 4000⟩⟩

/-- As many requests of at most one millisecond. -/
def fastRequests (n : BitVec 32) : Shctx 32 :=
  { zeroedShctx with requests := { zeroedRequests with latencyBucket := fun i => if i = 0 then n else 0 } }

theorem percentiles_ordered_thousand :
    doublePercentile Library.Doubles.toNearest (fastRequests 1000).requests (999 / 10) ≤
        doublePercentile Library.Doubles.toNearest (fastRequests 1000).requests 100 ∧
      NeverLowers (fun _ => 0) Library.Doubles.toNearest (fastRequests 1000) [slowRequest, slowRequest] := by
  have hOrdered := percentiles_ordered (fun _ => 0) Library.Doubles.toNearest_ordered (by decide) (fastRequests 1000)
  have hSlow : ∀ a ∈ [slowRequest, slowRequest], Slow a.call := by
    decide +kernel
  refine ⟨hOrdered.1 (by decide +kernel) _ _ (by norm_num) (by norm_num) le_rfl, hOrdered.2 _ hSlow ?_⟩
  decide +kernel

/-- One request more than a word of 32 bits can count, and the median falls from
a millisecond to nothing. -/
theorem wrapped_total_lowers : 0 < recorded (fastRequests (-1)).requests ∧ Slow slowRequest.call ∧
    ¬ NeverLowers (fun _ => 0) Library.Doubles.toNearest (fastRequests (-1)) [slowRequest] := by
  have hBefore : doublePercentile Library.Doubles.toNearest (fastRequests (-1)).requests (50 : ℕ) = 1 := by
    rw [doublePercentile_eq _ (by decide +kernel) (by norm_num)]
    decide +kernel
  have hSlow : Slow slowRequest.call := by
    decide +kernel
  have hTotal : bucketTotal (furtherRequests (fun _ => 0) (fastRequests (-1)) [slowRequest]).requests.latencyBucket
      latencyBuckets = 0 := by
    rw [bucketTotal_slowRequests _ (by simpa using hSlow)]
    decide +kernel
  refine ⟨by decide +kernel, hSlow, fun h => ?_⟩
  have hLower := h (50 : ℕ) (by norm_num) (by norm_num)
  rw [hBefore, doublePercentile, if_pos hTotal] at hLower
  exact absurd hLower (by norm_num)

end HttpMonitoring.PercentileOrder
