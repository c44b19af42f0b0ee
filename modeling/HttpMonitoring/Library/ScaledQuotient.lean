import Mathlib

/-!
# Quotients of products in machine words

A difference is scaled up in words and divided afterwards. The quotient is the
true one exactly if the product did not wrap, and otherwise it is too small.
-/

namespace HttpMonitoring.Library.ScaledQuotient

theorem mod_div_le (n m d : ℕ) : n % m / d ≤ n / d := Nat.div_le_div_right (Nat.mod_le n m)

/-- A wrap loses at least one unit of the quotient when the divisor is a word. -/
theorem mod_div_eq_iff {n m d : ℕ} (hd : 0 < d) (hWord : d < m) : n % m / d = n / d ↔ n < m := by
  constructor
  · intro hSame
    by_contra hWrap
    have hQuotient : 1 ≤ n / m := (Nat.one_le_div_iff (by omega)).mpr (not_lt.mp hWrap)
    have hLost : n % m + d ≤ n := by
      calc
        n % m + d ≤ n % m + m * (n / m) :=
          Nat.add_le_add_left (hWord.le.trans (Nat.le_mul_of_pos_right m hQuotient)) _
        _ = n := Nat.mod_add_div n m
    have hUnit : n % m / d + 1 ≤ n / d := by
      rw [← Nat.add_div_right _ hd]
      exact Nat.div_le_div_right hLost
    omega
  · intro hFits
    rw [Nat.mod_eq_of_lt hFits]

/-- Cut off to words, a number that did not fall grows by no more than it did. -/
theorem mod_sub_mod_le {a b m : ℕ} (h : a ≤ b) : b % m - a % m ≤ b - a := by
  have hA := Nat.mod_add_div a m
  have hB := Nat.mod_add_div b m
  have hQuotients : m * (a / m) ≤ m * (b / m) := Nat.mul_le_mul_left m (Nat.div_le_div_right h)
  omega

variable {w : ℕ}

theorem toNat_clampedSub (now prev : BitVec w) :
    (if prev.toNat ≤ now.toNat then now - prev else 0).toNat = now.toNat - prev.toNat := by
  split
  · rename_i hGrown
    rw [BitVec.toNat_sub_of_le (BitVec.le_def.mpr hGrown)]
  · rename_i hNot
    rw [BitVec.ofNat_eq_ofNat, BitVec.toNat_ofNat, Nat.zero_mod]
    omega

theorem toNat_scaledQuotient {scale : ℕ} (hScale : scale < 2 ^ w) (x d : BitVec w) :
    (x * BitVec.ofNat w scale / d).toNat = x.toNat * scale % 2 ^ w / d.toNat := by
  rw [BitVec.toNat_udiv, BitVec.toNat_mul, BitVec.toNat_ofNat, Nat.mod_eq_of_lt hScale]

end HttpMonitoring.Library.ScaledQuotient
