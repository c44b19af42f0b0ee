import Mathlib

/-!
# A part and its whole cut to words

The residues of a part and of the whole add up as the numbers do unless a borrow
is lost. Their ratio is the true one exactly if what is cut off is in the same
proportion.
-/

namespace HttpMonitoring.Library.WordRatio

variable {m part whole : ℕ}

theorem div_le (h : part ≤ whole) : part / m ≤ whole / m := Nat.div_le_div_right h

theorem mod_sub (h : part ≤ whole) (hMod : part % m ≤ whole % m) :
    (whole - part) % m = whole % m - part % m := by
  rcases Nat.eq_zero_or_pos m with rfl | hm
  · rw [Nat.mod_zero, Nat.mod_zero, Nat.mod_zero]
  · have hPart := Nat.div_add_mod part m
    have hWhole := Nat.div_add_mod whole m
    have hQuotients : m * (part / m) ≤ m * (whole / m) := Nat.mul_le_mul_left m (div_le h)
    have hSplit : whole - part = whole % m - part % m + m * (whole / m - part / m) := by
      rw [Nat.mul_sub]
      omega
    have hSmall : whole % m - part % m < m := (Nat.sub_le _ _).trans_lt (Nat.mod_lt _ hm)
    rw [hSplit, Nat.add_mul_mod_self_left, Nat.mod_eq_of_lt hSmall]

/-- The rest and the part give the whole back just when there is no borrow. -/
theorem rest_add_part_iff (h : part ≤ whole) :
    ((whole - part) % m ≤ whole % m ∧ (whole - part) % m + part % m = whole % m) ↔
      part % m ≤ whole % m := by
  constructor
  · rintro ⟨-, hSum⟩
    omega
  · intro hMod
    rw [mod_sub h hMod]
    omega

/-- What is cut off is in proportion to what is left. -/
def Proportional (m whole part : ℕ) : Prop :=
  part / m * (whole % m) = whole / m * (part % m) ∧ (whole % m = 0 → part = whole)

instance (m whole part : ℕ) : Decidable (Proportional m whole part) :=
  inferInstanceAs (Decidable (_ ∧ _))

theorem proportional_of_lt (hPart : part ≤ whole) (h : whole < m) : Proportional m whole part := by
  constructor
  · rw [Nat.div_eq_of_lt h, Nat.div_eq_of_lt (hPart.trans_lt h), Nat.zero_mul, Nat.zero_mul]
  · intro hZero
    rw [Nat.mod_eq_of_lt h] at hZero
    omega

theorem cross_iff : part % m * whole = part * (whole % m) ↔
    m * (part / m * (whole % m)) = m * (whole / m * (part % m)) := by
  have hPart := Nat.div_add_mod part m
  have hWhole := Nat.div_add_mod whole m
  have hLeft : part % m * whole = m * (whole / m * (part % m)) + part % m * (whole % m) := by
    calc
      part % m * whole = part % m * (m * (whole / m) + whole % m) := by rw [hWhole]
      _ = m * (whole / m * (part % m)) + part % m * (whole % m) := by ring
  have hRight : part * (whole % m) = m * (part / m * (whole % m)) + part % m * (whole % m) := by
    calc
      part * (whole % m) = (m * (part / m) + part % m) * (whole % m) := by rw [hPart]
      _ = m * (part / m * (whole % m)) + part % m * (whole % m) := by ring
  rw [hLeft, hRight, Nat.add_right_cancel_iff]
  exact eq_comm

theorem Proportional.mod_le (hm : 0 < m) (hPart : part ≤ whole) (h : Proportional m whole part) :
    part % m ≤ whole % m := by
  rcases Nat.eq_zero_or_pos (whole / m) with hNone | hSome
  · have hWhole : whole < m := (Nat.div_eq_zero_iff.mp hNone).resolve_left hm.ne'
    rw [Nat.mod_eq_of_lt hWhole, Nat.mod_eq_of_lt (hPart.trans_lt hWhole)]
    exact hPart
  · refine Nat.le_of_mul_le_mul_left ?_ hSome
    rw [← h.1]
    exact Nat.mul_le_mul_right _ (div_le hPart)

theorem eq_of_ratio_zero (hRatio : 100 * ((whole : ℚ) - part) / whole = 0) (hPart : part ≤ whole) :
    part = whole := by
  rcases Nat.eq_zero_or_pos whole with rfl | hWhole
  · exact Nat.le_zero.mp hPart
  · have hNonzero : (whole : ℚ) ≠ 0 := Nat.cast_ne_zero.mpr hWhole.ne'
    have hRest : 100 * ((whole : ℚ) - part) = 0 := (div_eq_zero_iff.mp hRatio).resolve_right hNonzero
    have hSame : (part : ℚ) = whole := by linarith
    exact_mod_cast hSame

theorem ratio_eq_iff_cross (hSome : 0 < whole % m) (hLe : part % m ≤ whole % m) :
    ((whole % m - part % m : ℕ) : ℚ) * 100 / (whole % m : ℕ) = 100 * ((whole : ℚ) - part) / whole ↔
      part % m * whole = part * (whole % m) := by
  have hWhole : whole ≠ 0 := by
    rintro rfl
    rw [Nat.zero_mod] at hSome
    exact hSome.false
  have hMod : ((whole % m : ℕ) : ℚ) ≠ 0 := Nat.cast_ne_zero.mpr hSome.ne'
  have hNonzero : (whole : ℚ) ≠ 0 := Nat.cast_ne_zero.mpr hWhole
  rw [Nat.cast_sub hLe, div_eq_div_iff hMod hNonzero, ← @Nat.cast_inj ℚ, Nat.cast_mul, Nat.cast_mul]
  constructor
  · intro hCross
    linarith
  · intro hCross
    linarith

/-- The residues have the ratio of the numbers just when they are proportional. -/
theorem ratio_iff (hm : 0 < m) (hPart : part ≤ whole) :
    (part % m ≤ whole % m ∧
        (if 0 < whole % m then ((whole % m - part % m : ℕ) : ℚ) * 100 / (whole % m : ℕ) else 0) =
          100 * ((whole : ℚ) - part) / whole) ↔ Proportional m whole part := by
  rcases Nat.eq_zero_or_pos (whole % m) with hZero | hSome
  · rw [if_neg (by omega)]
    constructor
    · rintro ⟨-, hRatio⟩
      have hAll := eq_of_ratio_zero hRatio.symm hPart
      exact ⟨by rw [hAll], fun _ => hAll⟩
    · intro h
      rw [h.2 hZero]
      simp
  · rw [if_pos hSome]
    constructor
    · rintro ⟨hLe, hRatio⟩
      have hCross := cross_iff.mp ((ratio_eq_iff_cross hSome hLe).mp hRatio)
      exact ⟨Nat.eq_of_mul_eq_mul_left hm hCross, fun hZero => absurd hZero hSome.ne'⟩
    · intro h
      have hLe := h.mod_le hm hPart
      exact ⟨hLe, (ratio_eq_iff_cross hSome hLe).mpr (cross_iff.mpr (congrArg (m * ·) h.1))⟩

end HttpMonitoring.Library.WordRatio
