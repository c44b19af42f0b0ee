import Mathlib

/-!
# Octal escapes

Special bytes become a backslash and three octal digits. When the special bytes
include the backslash, a backslash in the result always starts an escape.
-/

namespace HttpMonitoring.Library.OctalEscape

def isOctal (c : UInt8) : Bool := 48 ≤ c && c ≤ 55

def octalDigit (n : Nat) : UInt8 := UInt8.ofNat (48 + n)

/-- The value of three digits. -/
def octalValue (a b c : UInt8) : Nat := (a.toNat - 48) * 64 + (b.toNat - 48) * 8 + (c.toNat - 48)

def escapeByte (c : UInt8) : List UInt8 :=
  [92, octalDigit (c.toNat / 64), octalDigit (c.toNat / 8 % 8), octalDigit (c.toNat % 8)]

variable (special : UInt8 → Prop) [DecidablePred special]

def escape (s : List UInt8) : List UInt8 := s.flatMap fun c => if special c then escapeByte c else [c]

theorem toNat_octalDigit {n : Nat} (h : n < 8) : (octalDigit n).toNat = 48 + n := by
  rw [octalDigit, UInt8.toNat_ofNat']
  omega

theorem isOctal_octalDigit {n : Nat} (h : n < 8) : isOctal (octalDigit n) = true := by
  rw [isOctal, Bool.and_eq_true, decide_eq_true_eq, decide_eq_true_eq, UInt8.le_iff_toNat_le,
    UInt8.le_iff_toNat_le, toNat_octalDigit h]
  constructor
  · exact Nat.le_add_right 48 n
  · exact Nat.add_le_add_left (Nat.le_of_lt_succ h) 48

theorem escapeByte_digits (c : UInt8) : c.toNat / 64 < 8 ∧ c.toNat / 8 % 8 < 8 ∧ c.toNat % 8 < 8 := by
  have hByte : c.toNat < 256 := c.toNat_lt
  omega

theorem octalValue_escapeByte (c : UInt8) : octalValue (octalDigit (c.toNat / 64))
    (octalDigit (c.toNat / 8 % 8)) (octalDigit (c.toNat % 8)) = c.toNat := by
  obtain ⟨hHigh, hMiddle, hLow⟩ := escapeByte_digits c
  rw [octalValue, toNat_octalDigit hHigh, toNat_octalDigit hMiddle, toNat_octalDigit hLow]
  omega

theorem mem_escapeByte {b c : UInt8} (h : b ∈ escapeByte c) : b = 92 ∨ isOctal b = true := by
  obtain ⟨hHigh, hMiddle, hLow⟩ := escapeByte_digits c
  simp only [escapeByte, List.mem_cons, List.not_mem_nil, or_false] at h
  rcases h with rfl | rfl | rfl | rfl
  · exact Or.inl rfl
  · exact Or.inr (isOctal_octalDigit hHigh)
  · exact Or.inr (isOctal_octalDigit hMiddle)
  · exact Or.inr (isOctal_octalDigit hLow)

@[simp] theorem escape_nil : escape special [] = [] := rfl

@[simp] theorem escape_cons (c : UInt8) (s : List UInt8) :
    escape special (c :: s) = (if special c then escapeByte c else [c]) ++ escape special s :=
  List.flatMap_cons

/-- A byte of the result is plain or belongs to an escape. -/
theorem mem_escape {b : UInt8} {s : List UInt8} (h : b ∈ escape special s) :
    (b ∈ s ∧ ¬ special b) ∨ b = 92 ∨ isOctal b = true := by
  obtain ⟨c, hc, hb⟩ := List.mem_flatMap.mp h
  split at hb
  · exact Or.inr (mem_escapeByte hb)
  · rename_i hPlain
    obtain rfl := List.mem_singleton.mp hb
    exact Or.inl ⟨hc, hPlain⟩

theorem escape_ne_nil {s : List UInt8} (h : s ≠ []) : escape special s ≠ [] := by
  cases s with
  | nil => exact absurd rfl h
  | cons c s =>
    rw [escape_cons]
    split
    · exact List.cons_ne_nil _ _
    · exact List.cons_ne_nil _ _

/-- A special byte that no escape contains is gone. -/
theorem notMem_escape {b : UInt8} {s : List UInt8} (hGone : b ∈ s → special b) (hBackslash : b ≠ 92)
    (hOctal : isOctal b = false) : b ∉ escape special s := by
  intro h
  rcases mem_escape special h with ⟨hMem, hPlain⟩ | hEscape | hEscape
  · exact hPlain (hGone hMem)
  · exact hBackslash hEscape
  · rw [hOctal] at hEscape
    exact Bool.false_ne_true hEscape

end HttpMonitoring.Library.OctalEscape
