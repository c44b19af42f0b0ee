import HttpMonitoring.History

/-!
# What a percentile covers

The rank of a percentile is cut off to a whole number of latencies, at least
one, and the answer is the bound of the first bucket that reaches it. The rank
is computed in doubles, which for a whole percentile of fewer than 2^46
latencies is as good as exact.
-/

namespace HttpMonitoring.Percentiles

open Accounting History Library.Buckets

variable {w : Nat}

def inFirst (cells : Nat → BitVec w) (n : Nat) : Nat := ∑ i ∈ Finset.range n, (cells i).toNat

def cumulative (m : RequestMetric w) (k : Nat) : Nat := inFirst m.latencyBucket (k + 1)

def recorded (m : RequestMetric w) : Nat := inFirst m.latencyBucket latencyBuckets

theorem inFirst_succ (cells : Nat → BitVec w) (n : Nat) :
    inFirst cells (n + 1) = inFirst cells n + (cells n).toNat := Finset.sum_range_succ _ n

theorem inFirst_mono (cells : Nat → BitVec w) {n n' : Nat} (h : n ≤ n') :
    inFirst cells n ≤ inFirst cells n' :=
  Finset.sum_le_sum_of_subset (Finset.range_mono h)

theorem cumulative_mono (m : RequestMetric w) {k k' : Nat} (h : k ≤ k') :
    cumulative m k ≤ cumulative m k' :=
  inFirst_mono _ (Nat.succ_le_succ h)

theorem toNat_bucketTotal {cells : Nat → BitVec w} {n : Nat} (h : inFirst cells n < 2 ^ w) :
    (bucketTotal cells n).toNat = inFirst cells n := by
  induction n with
  | zero => rfl
  | succ n ih =>
    have hEarlier : inFirst cells n < 2 ^ w := (inFirst_mono cells (Nat.le_succ n)).trans_lt h
    rw [inFirst_succ] at h ⊢
    have hLast : bucketTotal cells (n + 1) = bucketTotal cells n + cells n := by
      rw [bucketTotal, List.range_succ, List.map_append, List.sum_append, bucketTotal]
      simp
    rw [hLast, BitVec.toNat_add, ih hEarlier, Nat.mod_eq_of_lt h]

/-- The cells count latencies by their buckets. -/
def CountsLatencies (m : RequestMetric w) (latencies : List Nat) : Prop :=
  ∀ i < latencyBuckets,
    (m.latencyBucket i).toNat = latencies.countP fun ms => bucketIndex latencyBounds ms = i

section Latencies

variable {m : RequestMetric w} {latencies : List Nat} (h : CountsLatencies m latencies)
include h

theorem inFirst_eq_countP {n : Nat} (hn : n ≤ latencyBuckets) :
    inFirst m.latencyBucket n = latencies.countP fun ms => bucketIndex latencyBounds ms < n := by
  rw [← sum_countP_bucketIndex]
  exact Finset.sum_congr rfl fun i hi => h i ((Finset.mem_range.mp hi).trans_le hn)

theorem cumulative_eq_countP {k : Nat} (hk : k < latencyBounds.length) :
    cumulative m k = latencies.countP fun ms => ms ≤ latencyBounds[k] := by
  rw [cumulative, inFirst_eq_countP h (Nat.succ_le_succ (Nat.le_of_lt_succ (Nat.lt_succ_of_lt hk)))]
  refine List.countP_congr fun ms _ => ?_
  rw [decide_eq_true_eq, decide_eq_true_eq, Nat.lt_succ_iff]
  exact bucketIndex_le_iff (by decide) ms hk

theorem recorded_eq_length : recorded m = latencies.length := by
  rw [recorded, inFirst_eq_countP h le_rfl, List.countP_eq_length]
  intro ms _
  exact decide_eq_true (Nat.lt_succ_of_le (bucketIndex_le latencyBounds ms))

end Latencies

/-- The first of the bounds that reaches the target, or 30000 behind them all. -/
theorem percentileScan_cases {cells : Nat → BitVec w} (target : BitVec w) (bounds : List Nat)
    (i : Nat) {count : BitVec w} (hCount : count.toNat = inFirst cells i)
    (hFits : inFirst cells (i + bounds.length) < 2 ^ w) :
    (∃ k, ∃ hk : k < bounds.length, target.toNat ≤ inFirst cells (i + k + 1) ∧
        (∀ j < k, inFirst cells (i + j + 1) < target.toNat) ∧
        percentileScan cells target bounds i count = bounds[k]) ∨
      (∀ j < bounds.length, inFirst cells (i + j + 1) < target.toNat) ∧
        percentileScan cells target bounds i count = 30000 := by
  induction bounds generalizing i count with
  | nil => exact Or.inr ⟨fun j hj => absurd hj (Nat.not_lt_zero j), rfl⟩
  | cons bound bounds ih =>
    rw [List.length_cons] at hFits
    have hNext : (count + cells i).toNat = inFirst cells (i + 1) := by
      have hBelow : inFirst cells (i + 1) < 2 ^ w := (inFirst_mono cells (by omega)).trans_lt hFits
      rw [inFirst_succ] at hBelow ⊢
      rw [BitVec.toNat_add, hCount, Nat.mod_eq_of_lt hBelow]
    rw [percentileScan]
    split
    · rename_i hReached
      refine Or.inl ⟨0, Nat.zero_lt_succ _, hNext ▸ hReached, fun j hj => absurd hj (Nat.not_lt_zero j), ?_⟩
      rfl
    · rename_i hShort
      have hFirst : inFirst cells (i + 0 + 1) < target.toNat := hNext ▸ Nat.lt_of_not_le hShort
      have hShift : ∀ j, i + 1 + j + 1 = i + (j + 1) + 1 := fun j => by omega
      rcases ih (i + 1) hNext (by rwa [show i + 1 + bounds.length = i + (bounds.length + 1) by omega]) with
        ⟨k, hk, hReached, hBefore, hScan⟩ | ⟨hAll, hScan⟩
      · refine Or.inl ⟨k + 1, Nat.succ_lt_succ hk, hShift k ▸ hReached, ?_, hScan⟩
        intro j hj
        cases j with
        | zero => exact hFirst
        | succ j => exact hShift j ▸ hBefore j (Nat.lt_of_succ_lt_succ hj)
      · refine Or.inr ⟨?_, hScan⟩
        intro j hj
        cases j with
        | zero => exact hFirst
        | succ j => exact hShift j ▸ hAll j (Nat.lt_of_succ_lt_succ hj)

def rank (n p : Nat) : Nat := if p * n / 100 = 0 then 1 else p * n / 100

theorem toNat_target {n p : Nat} (hn : 0 < n) (hWord : n < 2 ^ w) (hp : p ≤ 100) :
    (if BitVec.ofNat w ⌊(n : ℚ) * p / 100⌋₊ = 0 then 1 else BitVec.ofNat w ⌊(n : ℚ) * p / 100⌋₊).toNat =
      rank n p := by
  have hFloor : ⌊(n : ℚ) * p / 100⌋₊ = p * n / 100 := by
    have hCast : (n : ℚ) * p / 100 = ((p * n : Nat) : ℚ) / (100 : Nat) := by
      push_cast
      ring
    rw [hCast, Nat.floor_div_eq_div]
  have hSmall : p * n / 100 < 2 ^ w := by
    have hAll : p * n ≤ 100 * n := Nat.mul_le_mul_right n hp
    omega
  have hToNat : (BitVec.ofNat w (p * n / 100)).toNat = p * n / 100 := by
    rw [BitVec.toNat_ofNat, Nat.mod_eq_of_lt hSmall]
  have hZero : BitVec.ofNat w (p * n / 100) = 0 ↔ p * n / 100 = 0 := by
    rw [← BitVec.toNat_inj, hToNat]
    rfl
  rw [hFloor, rank]
  by_cases hNone : p * n / 100 = 0
  · have hWide : 1 < 2 ^ w := by omega
    rw [if_pos (hZero.mpr hNone), if_pos hNone]
    exact Nat.mod_eq_of_lt hWide
  · rw [if_neg (mt hZero.mp hNone), if_neg hNone, hToNat]

theorem percentile_cases {m : RequestMetric w} {p : Nat} (hn : 0 < recorded m)
    (hWord : recorded m < 2 ^ w) (hp : p ≤ 100) :
    (∃ k, ∃ hk : k < latencyBounds.length, rank (recorded m) p ≤ cumulative m k ∧
        (∀ j < k, cumulative m j < rank (recorded m) p) ∧ percentile m p = latencyBounds[k]) ∨
      (∀ j < latencyBounds.length, cumulative m j < rank (recorded m) p) ∧ percentile m p = 30000 := by
  have hTotal : (bucketTotal m.latencyBucket latencyBuckets).toNat = recorded m := toNat_bucketTotal hWord
  have hSome : bucketTotal m.latencyBucket latencyBuckets ≠ 0 := by
    intro hNone
    rw [hNone] at hTotal
    exact hn.ne hTotal
  have hFits : inFirst m.latencyBucket (0 + latencyBounds.length) < 2 ^ w :=
    (inFirst_mono _ (by decide)).trans_lt hWord
  have hStart : (0 : BitVec w).toNat = inFirst m.latencyBucket 0 := rfl
  have hScan := percentileScan_cases (if BitVec.ofNat w ⌊(recorded m : ℚ) * p / 100⌋₊ = 0 then 1
    else BitVec.ofNat w ⌊(recorded m : ℚ) * p / 100⌋₊) latencyBounds 0 hStart hFits
  rw [toNat_target hn hWord hp] at hScan
  simp only [Nat.zero_add] at hScan
  rw [percentile, if_neg hSome, hTotal]
  exact hScan

section Doubles

variable (D : Library.Doubles.Rounding)

theorem floor_doubleRank {total : BitVec w} (hTotal : total.toNat < 2 ^ 46) {p : ℕ} (hp : p ≤ 100) :
    ⌊doubleRank D total p⌋₊ = ⌊(total.toNat : ℚ) * p / 100⌋₊ := by
  have hProduct : total.toNat * p < 100 * 2 ^ 46 := by
    have hMost := Nat.mul_le_mul_left total.toNat hp
    omega
  have hExact : (total.toNat : ℚ) * p = (total.toNat * p : ℕ) := (Nat.cast_mul _ _).symm
  have hFloor : ⌊((total.toNat * p : ℕ) : ℚ) / 100⌋₊ = total.toNat * p / 100 :=
    Nat.floor_div_eq_div (K := ℚ) _ 100
  rw [doubleRank, D.whole _ (by omega), hExact, D.whole _ (by omega), D.floor_hundredths hProduct, hFloor]

/-- Nothing is lost of a whole percentile of fewer than 2^46 latencies. -/
theorem doublePercentile_eq {m : RequestMetric w}
    (hTotal : (bucketTotal m.latencyBucket latencyBuckets).toNat < 2 ^ 46) {p : ℕ} (hp : p ≤ 100) :
    doublePercentile D m p = percentile m p := by
  simp only [doublePercentile, doubleTarget, floor_doubleRank D hTotal hp, percentile]

end Doubles

/-- Fewer than `p` percent of the latencies are at or below the bound. -/
def Under (m : RequestMetric w) (p k : Nat) : Prop := 100 * cumulative m k < p * recorded m

/-- A finite answer covers the percentage and no smaller bound does; behind the
last bound the answer is 30000 too. -/
structure Covers (m : RequestMetric w) (p : Nat) : Prop where
  enough : ∀ k, ∀ hk : k < latencyBounds.length, percentile m p = latencyBounds[k] →
    p * recorded m ≤ 100 * cumulative m k ∨ k = 12 ∧ Under m p 12
  least : ∀ k, ∀ hk : k < latencyBounds.length, percentile m p = latencyBounds[k] →
    ∀ j < k, Under m p j
  beyond : Under m p 12 → percentile m p = 30000

theorem latencyBounds_inj {k k' : Nat} (hk : k < latencyBounds.length) (hk' : k' < latencyBounds.length)
    (h : (latencyBounds[k] : ℚ) = latencyBounds[k']) : k = k' := by
  have hNodup : latencyBounds.Nodup := by decide
  exact hNodup.getElem_inj_iff.mp (Nat.cast_injective h)

theorem under_of_short {m : RequestMetric w} {p j : Nat} (hp : 0 < p) (hn : 0 < recorded m)
    (h : cumulative m j < rank (recorded m) p) : Under m p j := by
  rw [rank] at h
  rw [Under]
  split at h
  · have hSome : 0 < p * recorded m := Nat.mul_pos hp hn
    omega
  · omega

/-- The cut off rank misses the percentage exactly if it is that of a bound
below 30000, is not zero, and lost a fraction. -/
theorem percentile_covers_iff {m : RequestMetric w} {p : Nat} (hp : 0 < p) (hp' : p ≤ 100)
    (hn : 0 < recorded m) (hWord : recorded m < 2 ^ w) :
    Covers m p ↔ ∀ k < 12, cumulative m k = p * recorded m / 100 →
      100 ∣ p * recorded m ∨ p * recorded m < 100 := by
  have hLast : latencyBounds.length = 13 := rfl
  have hCases := percentile_cases hn hWord hp'
  constructor
  · intro h k hk hSame
    by_contra hLost
    rw [not_or] at hLost
    have hRank : rank (recorded m) p = p * recorded m / 100 := if_neg (by omega)
    rcases hCases with ⟨i, hi, hReached, hBefore, hAnswer⟩ | ⟨hAll, -⟩
    · have hik : i ≤ k := by
        by_contra hAfter
        have hShort := hBefore k (by omega)
        omega
      have hMono := cumulative_mono m hik
      have hUnder : 100 * cumulative m i < p * recorded m := by omega
      rcases h.enough i hi hAnswer with hEnough | ⟨hEdge, -⟩
      · omega
      · omega
    · have hShort := hAll k (by omega)
      omega
  · intro h
    rcases hCases with ⟨i, hi, hReached, hBefore, hAnswer⟩ | ⟨hAll, hAnswer⟩
    · have hSame : ∀ k, ∀ hk : k < latencyBounds.length, percentile m p = latencyBounds[k] → k = i :=
        fun k hk hk' => latencyBounds_inj hk hi (hk'.symm.trans hAnswer)
      have hEnough : i < 12 → p * recorded m ≤ 100 * cumulative m i := by
        intro hEarly
        rw [rank] at hReached
        split at hReached
        · omega
        · have hExact := h i hEarly
          omega
      have hEdge : ¬ i < 12 → i = 12 := by omega
      refine ⟨fun k hk hk' => ?_, fun k hk hk' j hj => ?_, fun hUnder => ?_⟩
      · obtain rfl := hSame k hk hk'
        by_cases hEarly : k < 12
        · exact Or.inl (hEnough hEarly)
        · by_cases hUnder : Under m p 12
          · exact Or.inr ⟨hEdge hEarly, hUnder⟩
          · rw [hEdge hEarly]
            exact Or.inl (not_lt.mp hUnder)
      · obtain rfl := hSame k hk hk'
        exact under_of_short hp hn (hBefore j hj)
      · by_cases hEarly : i < 12
        · have hMono := cumulative_mono m hEarly.le
          have hCovered := hEnough hEarly
          rw [Under] at hUnder
          omega
        · obtain rfl := hEdge hEarly
          exact hAnswer
    · have hUnder : ∀ j < 13, Under m p j := fun j hj => under_of_short hp hn (hAll j hj)
      have hSame : ∀ k, ∀ hk : k < latencyBounds.length, percentile m p = latencyBounds[k] → k = 12 :=
        fun k hk hk' => latencyBounds_inj hk (by decide) (hk'.symm.trans hAnswer)
      refine ⟨fun k hk hk' => Or.inr ⟨hSame k hk hk', hUnder 12 (by decide)⟩, ?_, fun _ => hAnswer⟩
      intro k hk hk' j hj
      exact hUnder j (hj.trans hk)

/-- A request of at most one millisecond and `n` of two to five. -/
def oneFast (n : Nat) : RequestMetric 64 :=
  { Zone.zeroedRequests with
    latencyBucket := fun i => if i = 0 then 1 else if i = 1 then BitVec.ofNat 64 n else 0 }

/-- The median of three latencies is said to be the least one. -/
theorem median_of_three_missed : ¬ Covers (oneFast 2) 50 := by
  have hAnswer : percentile (oneFast 2) (50 : Nat) = (latencyBounds[0] : Nat) := by
    decide +kernel
  intro h
  rcases h.enough 0 (by decide) hAnswer with hEnough | ⟨hEdge, -⟩
  · exact absurd hEnough (by decide)
  · cases hEdge

theorem median_of_four_covers : Covers (oneFast 3) 50 :=
  (percentile_covers_iff (by decide) (by decide) (by decide) (by decide)).mpr (by decide)

end HttpMonitoring.Percentiles
