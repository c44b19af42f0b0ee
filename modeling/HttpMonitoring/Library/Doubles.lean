import Mathlib

/-!
# Rounding to doubles

What programs rest on when they compute with non-negative doubles: a result is
off by a small part of itself, and whole numbers that are not too large are
exact. Rounding to the nearest of the numbers with 53 bits does so.
-/

namespace HttpMonitoring.Library.Doubles

/-- Neither too small nor too large for a normal double. -/
def Normal (x : ℚ) : Prop := 1 / 2 ^ 1022 ≤ x ∧ x ≤ 2 ^ 1023

structure Rounding where
  round : ℚ → ℚ
  error : ∀ x, Normal x → |round x - x| ≤ x / 2 ^ 53
  whole : ∀ n : ℕ, n ≤ 2 ^ 53 → round n = n

theorem normal_of_bounds {x : ℚ} (hLow : 1 / 2 ^ 10 ≤ x) (hHigh : x ≤ 2 ^ 100) : Normal x := by
  have hSmall : (2 : ℚ) ^ 10 ≤ 2 ^ 1022 := pow_le_pow_right₀ (by norm_num) (by norm_num)
  have hLarge : (2 : ℚ) ^ 100 ≤ 2 ^ 1023 := pow_le_pow_right₀ (by norm_num) (by norm_num)
  exact ⟨(one_div_le_one_div_of_le (by positivity) hSmall).trans hLow, hHigh.trans hLarge⟩

namespace Rounding

variable (D : Rounding)

/-- A larger number is not rounded to a smaller one. -/
def Ordered : Prop := ∀ x y, 0 ≤ x → x ≤ y → D.round x ≤ D.round y

theorem round_zero : D.round 0 = 0 := by simpa using D.whole 0 (Nat.zero_le _)

theorem Ordered.round_nonneg {D : Rounding} (h : D.Ordered) {x : ℚ} (hx : 0 ≤ x) : 0 ≤ D.round x :=
  D.round_zero ▸ h 0 x le_rfl hx

theorem Ordered.le_round {D : Rounding} (h : D.Ordered) {n : ℕ} (hn : n ≤ 2 ^ 53) {x : ℚ} (hx : n ≤ x) :
    n ≤ D.round x :=
  (D.whole n hn).ge.trans (h n x (Nat.cast_nonneg n) hx)

theorem round_le {x : ℚ} (hLow : 1 / 2 ^ 10 ≤ x) (hHigh : x ≤ 2 ^ 100) : D.round x ≤ x * (1 + 1 / 2 ^ 53) := by
  have hError := (abs_le.mp (D.error x (normal_of_bounds hLow hHigh))).2
  linarith

/-- Hundredths keep their whole part. -/
theorem floor_hundredths {n : ℕ} (hn : n < 100 * 2 ^ 46) : ⌊D.round ((n : ℚ) / 100)⌋₊ = n / 100 := by
  have hSplit : (n : ℚ) = 100 * (n / 100 : ℕ) + (n % 100 : ℕ) := by exact_mod_cast (Nat.div_add_mod n 100).symm
  have hMost : ((n / 100 : ℕ) : ℚ) + 1 ≤ 2 ^ 46 := by exact_mod_cast (by omega : n / 100 + 1 ≤ 2 ^ 46)
  rcases Nat.eq_zero_or_pos (n % 100) with hWhole | hPart
  · have hExact : (n : ℚ) / 100 = (n / 100 : ℕ) := by
      rw [hWhole] at hSplit
      rw [hSplit]
      push_cast
      ring
    rw [hExact, D.whole _ (by omega), Nat.floor_natCast]
  · have hLow : (1 : ℚ) ≤ (n % 100 : ℕ) := by exact_mod_cast hPart
    have hHigh : ((n % 100 : ℕ) : ℚ) ≤ 99 := by exact_mod_cast Nat.lt_succ_iff.mp (Nat.mod_lt n (by norm_num))
    have hNonneg : (0 : ℚ) ≤ (n / 100 : ℕ) := Nat.cast_nonneg _
    have hValue : (n : ℚ) / 100 = (n / 100 : ℕ) + (n % 100 : ℕ) / 100 := by
      rw [hSplit]
      ring
    have hNormal : Normal ((n : ℚ) / 100) :=
      normal_of_bounds (by rw [hValue]; linarith) (by rw [hValue]; linarith)
    have hError := abs_le.mp (D.error (n / 100) hNormal)
    rw [hValue] at hError ⊢
    obtain ⟨hBelow, hAbove⟩ := hError
    rw [Nat.floor_eq_iff (by linarith)]
    constructor <;> linarith

end Rounding

/-- The nearest integer, an even one in the middle between two. -/
def nearestEven (x : ℚ) : ℤ :=
  if x - ⌊x⌋ < 1 / 2 then ⌊x⌋
  else if 1 / 2 < x - ⌊x⌋ then ⌊x⌋ + 1
  else if 2 ∣ ⌊x⌋ then ⌊x⌋ else ⌊x⌋ + 1

/-- The weight of the last of the 53 bits. -/
def lastPlace (x : ℚ) : ℚ := 2 ^ (Int.log 2 x - 52)

def nearest (x : ℚ) : ℚ := nearestEven (x / lastPlace x) * lastPlace x

theorem abs_nearestEven_sub (x : ℚ) : |(nearestEven x : ℚ) - x| ≤ 1 / 2 := by
  have hFloor := Int.floor_le x
  have hNext := Int.lt_floor_add_one x
  rw [nearestEven, abs_le]
  split_ifs
  · constructor <;> linarith
  · push_cast
    constructor <;> linarith
  · constructor <;> linarith
  · push_cast
    constructor <;> linarith

theorem nearestEven_intCast (n : ℤ) : nearestEven n = n := by
  rw [nearestEven, Int.floor_intCast, sub_self, if_pos (by norm_num)]

theorem lastPlace_pos (x : ℚ) : 0 < lastPlace x := zpow_pos (by norm_num) _

theorem lastPlace_le {x : ℚ} (hx : 0 < x) : lastPlace x ≤ x / 2 ^ 52 := by
  have hLog : (2 : ℚ) ^ Int.log 2 x ≤ x := by
    have h := Int.zpow_log_le_self (b := 2) (by norm_num) hx
    exact_mod_cast h
  rw [lastPlace, zpow_sub₀ (by norm_num)]
  exact div_le_div_of_nonneg_right hLog (by norm_num)

theorem nearest_error {x : ℚ} (hx : 0 < x) : |nearest x - x| ≤ x / 2 ^ 53 := by
  have hPlace := lastPlace_pos x
  have hSplit : nearest x - x = (nearestEven (x / lastPlace x) - x / lastPlace x) * lastPlace x := by
    rw [nearest]
    field_simp
  calc |nearest x - x| = |(nearestEven (x / lastPlace x) : ℚ) - x / lastPlace x| * lastPlace x := by
        rw [hSplit, abs_mul, abs_of_pos hPlace]
    _ ≤ 1 / 2 * (x / 2 ^ 52) :=
        mul_le_mul (abs_nearestEven_sub _) (lastPlace_le hx) hPlace.le (by norm_num)
    _ = x / 2 ^ 53 := by ring

theorem nearest_of_multiple {x : ℚ} {n : ℤ} (h : x = n * lastPlace x) : nearest x = x := by
  have hPlace := (lastPlace_pos x).ne'
  have hQuotient : x / lastPlace x = n := by
    rw [div_eq_iff hPlace]
    exact h
  rw [nearest, hQuotient, nearestEven_intCast, ← h]

theorem nearest_whole {n : ℕ} (hn : n ≤ 2 ^ 53) : nearest n = n := by
  rcases Nat.lt_or_ge n (2 ^ 53) with hLess | hMost
  · have hLog : Nat.log 2 n ≤ 52 := Nat.lt_succ_iff.mp (Nat.log_lt_of_lt_pow' (by norm_num) hLess)
    refine nearest_of_multiple (n := n * 2 ^ (52 - Nat.log 2 n)) ?_
    have hPlace : lastPlace (n : ℚ) = 1 / 2 ^ (52 - Nat.log 2 n) := by
      have hExponent : ((Nat.log 2 n : ℕ) : ℤ) - 52 = -((52 - Nat.log 2 n : ℕ) : ℤ) := by omega
      rw [lastPlace, Int.log_natCast, hExponent, zpow_neg, zpow_natCast, one_div]
    rw [hPlace]
    push_cast
    field_simp
  · obtain rfl : n = 2 ^ 53 := le_antisymm hn hMost
    refine nearest_of_multiple (n := 2 ^ 52) ?_
    have hPlace : lastPlace ((2 ^ 53 : ℕ) : ℚ) = 2 := by
      rw [lastPlace, Int.log_natCast, Nat.log_pow (by norm_num)]
      norm_num
    rw [hPlace]
    norm_num

theorem nearestEven_mono {x y : ℚ} (h : x ≤ y) : nearestEven x ≤ nearestEven y := by
  by_contra hNot
  have hNext : nearestEven y + 1 ≤ nearestEven x := Int.add_one_le_iff.mpr (not_le.mp hNot)
  have hGap : (nearestEven y : ℚ) + 1 ≤ nearestEven x := by exact_mod_cast hNext
  have hBelow := abs_le.mp (abs_nearestEven_sub x)
  have hAbove := abs_le.mp (abs_nearestEven_sub y)
  obtain rfl : x = y := by linarith
  exact hNot le_rfl

theorem two_zpow_le_nearest {x : ℚ} (hx : 0 < x) : (2 : ℚ) ^ Int.log 2 x ≤ nearest x := by
  have hLog : (2 : ℚ) ^ Int.log 2 x ≤ x := by exact_mod_cast Int.zpow_log_le_self (b := 2) (by norm_num) hx
  have hPower : (2 : ℚ) ^ Int.log 2 x = (2 ^ 52 : ℤ) * lastPlace x := by
    rw [lastPlace, zpow_sub₀ (by norm_num)]
    push_cast
    field_simp
  have hQuotient : ((2 ^ 52 : ℤ) : ℚ) ≤ x / lastPlace x := by
    rwa [le_div_iff₀ (lastPlace_pos x), ← hPower]
  have hMono := nearestEven_mono hQuotient
  rw [nearestEven_intCast] at hMono
  rw [hPower, nearest]
  exact mul_le_mul_of_nonneg_right (by exact_mod_cast hMono) (lastPlace_pos x).le

theorem nearest_le_two_zpow (x : ℚ) : nearest x ≤ (2 : ℚ) ^ (Int.log 2 x + 1) := by
  have hLog : x < (2 : ℚ) ^ (Int.log 2 x + 1) := by exact_mod_cast Int.lt_zpow_succ_log_self (b := 2) (by norm_num) x
  have hPower : (2 : ℚ) ^ (Int.log 2 x + 1) = (2 ^ 53 : ℤ) * lastPlace x := by
    rw [lastPlace, zpow_add₀ (by norm_num), zpow_sub₀ (by norm_num)]
    push_cast
    ring
  have hQuotient : x / lastPlace x ≤ ((2 ^ 53 : ℤ) : ℚ) := by
    rw [div_le_iff₀ (lastPlace_pos x), ← hPower]
    exact hLog.le
  have hMono := nearestEven_mono hQuotient
  rw [nearestEven_intCast] at hMono
  rw [hPower, nearest]
  exact mul_le_mul_of_nonneg_right (by exact_mod_cast hMono) (lastPlace_pos x).le

theorem nearest_zero : nearest 0 = 0 := by simpa using nearest_whole (Nat.zero_le _)

/-- Between numbers of different length there is a power of two. -/
theorem nearest_mono {x y : ℚ} (hx : 0 ≤ x) (h : x ≤ y) : nearest x ≤ nearest y := by
  rcases hx.eq_or_lt with rfl | hPositive
  · rw [nearest_zero]
    rcases h.eq_or_lt with rfl | hy
    · exact nearest_zero.ge
    · exact (zpow_pos (by norm_num) _).le.trans (two_zpow_le_nearest hy)
  · rcases (Int.log_mono_right (b := 2) hPositive h).eq_or_lt with hSame | hLonger
    · have hPlace : lastPlace x = lastPlace y := by rw [lastPlace, lastPlace, hSame]
      have hQuotient := div_le_div_of_nonneg_right h (lastPlace_pos y).le
      rw [nearest, nearest, hPlace]
      exact mul_le_mul_of_nonneg_right (by exact_mod_cast nearestEven_mono hQuotient) (lastPlace_pos y).le
    · calc nearest x ≤ 2 ^ (Int.log 2 x + 1) := nearest_le_two_zpow x
        _ ≤ 2 ^ Int.log 2 y := zpow_le_zpow_right₀ (by norm_num) hLonger
        _ ≤ nearest y := two_zpow_le_nearest (hPositive.trans_le h)

/-- Doubles that are rounded to the nearest, as long as none is too large. -/
def toNearest : Rounding where
  round := nearest
  error x hx := nearest_error (lt_of_lt_of_le (by norm_num) hx.1)
  whole _ hn := nearest_whole hn

theorem toNearest_ordered : toNearest.Ordered := fun _ _ hx h => nearest_mono hx h

end HttpMonitoring.Library.Doubles
