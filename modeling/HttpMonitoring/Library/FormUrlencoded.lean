import Mathlib

/-!
# The serializer of form data

Bytes that stay as they are, the space that becomes a plus sign, and the bytes
that become a percent sign with two hexadecimal digits.
-/

namespace HttpMonitoring.Library.FormUrlencoded

/-- A letter, a digit or one of `*`, `-`, `.` and `_`. -/
def Unreserved (b : UInt8) : Prop :=
  (48 ≤ b ∧ b ≤ 57) ∨ (65 ≤ b ∧ b ≤ 90) ∨ (97 ≤ b ∧ b ≤ 122) ∨ b = 42 ∨ b = 45 ∨ b = 46 ∨ b = 95

instance (b : UInt8) : Decidable (Unreserved b) :=
  inferInstanceAs (Decidable (_ ∨ _))

def hexDigit (n : Nat) : UInt8 := UInt8.ofNat (if n < 10 then 48 + n else 55 + n)

def percentByte (b : UInt8) : List UInt8 := [37, hexDigit (b.toNat / 16), hexDigit (b.toNat % 16)]

def encodeByte (b : UInt8) : List UInt8 :=
  if Unreserved b then [b] else if b = 32 then [43] else percentByte b

def encode (text : List UInt8) : List UInt8 := text.flatMap encodeByte

@[simp] theorem encode_cons (b : UInt8) (text : List UInt8) :
    encode (b :: text) = encodeByte b ++ encode text := List.flatMap_cons

theorem length_le_encode (text : List UInt8) : text.length ≤ (encode text).length := by
  induction text with
  | nil => exact Nat.le_refl 0
  | cons b text ih =>
    have hByte : 1 ≤ (encodeByte b).length := by
      rw [encodeByte]
      split
      · exact Nat.le_refl 1
      · split
        · exact Nat.le_refl 1
        · rw [percentByte]
          exact Nat.le_add_left 1 2
    rw [encode_cons, List.length_append, List.length_cons]
    omega

/-- The serializer leaves exactly the texts of unreserved bytes alone. -/
theorem encode_eq_self_iff (text : List UInt8) : encode text = text ↔ ∀ b ∈ text, Unreserved b := by
  induction text with
  | nil => exact iff_of_true rfl fun b hb => absurd hb List.not_mem_nil
  | cons b text ih =>
    rw [encode_cons, List.forall_mem_cons, encodeByte]
    split
    · rename_i hByte
      rw [List.singleton_append, List.cons_inj_right, ih, and_iff_right hByte]
    · rename_i hByte
      refine iff_of_false (fun hSame => ?_) fun h => hByte h.1
      split at hSame
      · rename_i hSpace
        have hHead : (43 : UInt8) = b := (List.cons.inj hSame).1
        rw [hSpace] at hHead
        exact absurd hHead (by decide)
      · have hLength := congrArg List.length hSame
        have hRest := length_le_encode text
        rw [List.length_append, List.length_cons, percentByte, List.length_cons, List.length_cons,
          List.length_cons, List.length_nil] at hLength
        omega

theorem unreserved_ne_ampersand {b : UInt8} (h : Unreserved b) : b ≠ 38 := by
  rintro rfl
  exact absurd h (by decide)

theorem hexDigit_ne_ampersand {n : Nat} (h : n < 16) : hexDigit n ≠ 38 := by
  interval_cases n <;> decide

/-- A serialized text has no separator of parameters. -/
theorem ampersand_notMem_encode (text : List UInt8) : (38 : UInt8) ∉ encode text := by
  induction text with
  | nil => exact List.not_mem_nil
  | cons b text ih =>
    rw [encode_cons, List.mem_append, not_or]
    refine ⟨?_, ih⟩
    rw [encodeByte]
    split
    · rename_i hByte
      rw [List.mem_singleton]
      exact (unreserved_ne_ampersand hByte).symm
    · split
      · decide
      · have hByte : b.toNat < 256 := b.toNat_lt
        have hHigh := hexDigit_ne_ampersand (n := b.toNat / 16) (by omega)
        have hLow := hexDigit_ne_ampersand (n := b.toNat % 16) (by omega)
        simp [percentByte, hHigh.symm, hLow.symm]

end HttpMonitoring.Library.FormUrlencoded
