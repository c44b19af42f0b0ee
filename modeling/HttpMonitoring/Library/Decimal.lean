import HttpMonitoring.Library.JsonText

/-!
# Decimal texts of numbers

Naturals, integers and rationals with a fixed number of decimals, as bytes.
The texts are JSON numbers and their lengths are bounded by the values.
-/

namespace HttpMonitoring.Library.Decimal

open JsonText

def natText (n : Nat) : Text := (Nat.toDigits 10 n).map fun c => UInt8.ofNat c.toNat

def intText (z : Int) : Text := if z < 0 then 45 :: natText z.natAbs else natText z.natAbs

/-- The last `digits` decimal digits of a natural. -/
def paddedText : Nat → Nat → Text
  | 0, _ => []
  | digits + 1, n => paddedText digits (n / 10) ++ [UInt8.ofNat (48 + n % 10)]

/-- A rational with a number of decimals, rounded half up; without decimals it
is cut off. -/
def fixedText (digits : Nat) (q : ℚ) : Text :=
  let magnitude := |q|
  let sign : Text := if q < 0 then [45] else []
  if digits = 0 then sign ++ natText ⌊magnitude⌋₊
  else
    let scaled := ⌊magnitude * 10 ^ digits + 1 / 2⌋₊
    sign ++ natText (scaled / 10 ^ digits) ++ 46 :: paddedText digits scaled

theorem isDigit_ofNat {d : Nat} (h : d < 10) : IsDigit (UInt8.ofNat (48 + d)) := by
  rw [IsDigit, UInt8.le_iff_toNat_le, UInt8.le_iff_toNat_le, UInt8.toNat_ofNat']
  constructor <;> simp <;> omega

theorem byte_digitChar {d : Nat} (h : d < 10) :
    UInt8.ofNat d.digitChar.toNat = UInt8.ofNat (48 + d) := by
  rw [Nat.toNat_digitChar_of_lt_ten h]

theorem natText_of_lt {n : Nat} (h : n < 10) : natText n = [UInt8.ofNat (48 + n)] := by
  rw [natText, Nat.toDigits_of_lt_base h, List.map_singleton, byte_digitChar h]

theorem natText_of_ge {n : Nat} (h : 10 ≤ n) :
    natText n = natText (n / 10) ++ [UInt8.ofNat (48 + n % 10)] := by
  rw [natText, Nat.toDigits_of_base_le (by omega) h, List.map_append, List.map_singleton,
    byte_digitChar (Nat.mod_lt n (by omega)), natText]

theorem isDigit_of_mem_natText {n : Nat} {c : UInt8} (hc : c ∈ natText n) : IsDigit c := by
  induction n using Nat.strong_induction_on with
  | _ n ih =>
    rcases Nat.lt_or_ge n 10 with hLess | hGe
    · rw [natText_of_lt hLess, List.mem_singleton] at hc
      exact hc ▸ isDigit_ofNat hLess
    · rw [natText_of_ge hGe, List.mem_append, List.mem_singleton] at hc
      rcases hc with hc | rfl
      · exact ih (n / 10) (by omega) hc
      · exact isDigit_ofNat (Nat.mod_lt n (by omega))

theorem natText_ne_nil (n : Nat) : natText n ≠ [] := by
  simp [natText]

theorem head_natText {n : Nat} (h : 0 < n) : (natText n).head? ≠ some 48 := by
  induction n using Nat.strong_induction_on with
  | _ n ih =>
    rcases Nat.lt_or_ge n 10 with hLess | hGe
    · rw [natText_of_lt hLess]
      interval_cases n <;> decide
    · rw [natText_of_ge hGe, List.head?_append_of_ne_nil _ (natText_ne_nil _)]
      exact ih (n / 10) (by omega) (by omega)

theorem isInteger_natText (n : Nat) : IsInteger (natText n) := by
  refine ⟨⟨natText_ne_nil n, fun c hc => isDigit_of_mem_natText hc⟩, fun h => ?_⟩
  rcases Nat.eq_zero_or_pos n with rfl | hn
  · rfl
  · exact absurd h (head_natText hn)

theorem isNumber_of_integer {sign t : Text} (hSign : sign = [] ∨ sign = [45]) (h : IsInteger t) :
    IsNumber (sign ++ t) :=
  ⟨sign, t, [], [], hSign, h, Or.inl rfl, Or.inl rfl, by simp⟩

theorem isNumber_natText (n : Nat) : IsNumber (natText n) :=
  isNumber_of_integer (Or.inl rfl) (isInteger_natText n)

theorem isNumber_intText (z : Int) : IsNumber (intText z) := by
  rw [intText]
  split
  · exact isNumber_of_integer (Or.inr rfl) (isInteger_natText _)
  · exact isNumber_natText _

theorem paddedText_length (digits n : Nat) : (paddedText digits n).length = digits := by
  induction digits generalizing n with
  | zero => rfl
  | succ digits ih => rw [paddedText, List.length_append, ih, List.length_singleton]

theorem isDigit_of_mem_paddedText {digits n : Nat} {c : UInt8} (hc : c ∈ paddedText digits n) :
    IsDigit c := by
  induction digits generalizing n with
  | zero => cases hc
  | succ digits ih =>
    rw [paddedText, List.mem_append, List.mem_singleton] at hc
    rcases hc with hc | rfl
    · exact ih hc
    · exact isDigit_ofNat (Nat.mod_lt n (by omega))

theorem isNumber_fixedText (digits : Nat) (q : ℚ) : IsNumber (fixedText digits q) := by
  have hSign : (if q < 0 then [45] else [] : Text) = [] ∨ (if q < 0 then [45] else [] : Text) = [45] := by
    split
    · exact Or.inr rfl
    · exact Or.inl rfl
  simp only [fixedText]
  split
  · exact isNumber_of_integer hSign (isInteger_natText _)
  · rename_i hDigits
    generalize ⌊|q| * 10 ^ digits + 1 / 2⌋₊ = scaled
    have hPadded : IsDigits (paddedText digits scaled) := by
      refine ⟨fun hNil => hDigits ?_, fun c hc => isDigit_of_mem_paddedText hc⟩
      rw [← paddedText_length digits scaled, hNil, List.length_nil]
    exact ⟨_, natText (scaled / 10 ^ digits), 46 :: paddedText digits scaled, [], hSign,
      isInteger_natText _, Or.inr ⟨_, hPadded, rfl⟩, Or.inl rfl, by simp⟩

theorem natText_length_le {n k : Nat} (hk : 0 < k) (h : n < 10 ^ k) : (natText n).length ≤ k := by
  rw [natText, List.length_map]
  exact (Nat.length_toDigits_le_iff (by omega) hk).mpr h

theorem intText_length_le {z : Int} {k : Nat} (hk : 0 < k) (h : z.natAbs < 10 ^ k) :
    (intText z).length ≤ k + 1 := by
  have hDigits := natText_length_le hk h
  rw [intText]
  split
  · rw [List.length_cons]
    omega
  · omega

theorem fixedText_length_le (digits : Nat) {k : Nat} {q : ℚ} (h : |q| < 10 ^ k) :
    (fixedText digits q).length ≤ (if q < 0 then 1 else 0) + k + 2 + digits := by
  have hSign : (if q < 0 then [45] else [] : Text).length = if q < 0 then 1 else 0 := by
    split <;> rfl
  have hMore : 10 ^ k < 10 ^ (k + 1) := Nat.pow_lt_pow_right (by omega) (Nat.lt_succ_self k)
  simp only [fixedText]
  split
  · have hFloor : ⌊|q|⌋₊ < 10 ^ k := (Nat.floor_lt (abs_nonneg q)).mpr (by exact_mod_cast h)
    have hWhole := natText_length_le (Nat.succ_pos k) (hFloor.trans hMore)
    rw [List.length_append, hSign]
    omega
  · have hScaled : ⌊|q| * 10 ^ digits + 1 / 2⌋₊ < 10 ^ k * 10 ^ digits + 1 := by
      refine (Nat.floor_lt (by positivity)).mpr ?_
      have hTimes : |q| * 10 ^ digits < 10 ^ k * 10 ^ digits :=
        mul_lt_mul_of_pos_right h (by positivity)
      push_cast
      linarith
    have hQuotient : ⌊|q| * 10 ^ digits + 1 / 2⌋₊ / 10 ^ digits ≤ 10 ^ k :=
      Nat.div_le_of_le_mul (Nat.mul_comm _ _ ▸ Nat.le_of_lt_succ hScaled)
    have hWhole := natText_length_le (Nat.succ_pos k) (hQuotient.trans_lt hMore)
    simp only [List.length_append, List.length_cons, hSign, paddedText_length]
    omega

end HttpMonitoring.Library.Decimal
