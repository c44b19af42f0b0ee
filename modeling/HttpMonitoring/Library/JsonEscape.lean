import HttpMonitoring.Library.JsonText

/-!
# Undoing the escapes of a JSON string

The bytes a string body stands for. A `\u` escape stands for the UTF-8 bytes of
its code unit, and every other byte from 0x20 on for itself.
-/

namespace HttpMonitoring.Library.JsonEscape

open JsonText

def simpleEscape (c : UInt8) : Option UInt8 :=
  if c = 34 ∨ c = 92 ∨ c = 47 then some c
  else if c = 98 then some 8
  else if c = 102 then some 12
  else if c = 110 then some 10
  else if c = 114 then some 13
  else if c = 116 then some 9
  else none

def hexDigit (c : UInt8) : Option Nat :=
  if 48 ≤ c ∧ c ≤ 57 then some (c.toNat - 48)
  else if 65 ≤ c ∧ c ≤ 70 then some (c.toNat - 55)
  else if 97 ≤ c ∧ c ≤ 102 then some (c.toNat - 87)
  else none

def codeUnit (a b c d : UInt8) : Option Nat := do
  return (((← hexDigit a) * 16 + (← hexDigit b)) * 16 + (← hexDigit c)) * 16 + (← hexDigit d)

/-- A code unit in UTF-8; the halves of a surrogate pair are taken one by one. -/
def utf8 (n : Nat) : Text :=
  if n < 128 then [UInt8.ofNat n]
  else if n < 2048 then [UInt8.ofNat (192 + n / 64), UInt8.ofNat (128 + n % 64)]
  else [UInt8.ofNat (224 + n / 4096), UInt8.ofNat (128 + n / 64 % 64), UInt8.ofNat (128 + n % 64)]

/-- The bytes a body stands for, or `none` when it is no body. -/
def unescape : Text → Option Text
  | [] => some []
  | c :: rest =>
    if c = 92 then
      match rest with
      | 117 :: p :: q :: r :: s :: rest => do
        let n ← codeUnit p q r s
        return utf8 n ++ (← unescape rest)
      | d :: rest => do
        let e ← simpleEscape d
        return e :: (← unescape rest)
      | [] => none
    else if 32 ≤ c ∧ c ≠ 34 then (unescape rest).map (c :: ·)
    else none

@[simp] theorem unescape_nil : unescape [] = some [] := rfl

theorem unescape_plain {c : UInt8} (hc : 32 ≤ c ∧ c ≠ 34 ∧ c ≠ 92) (rest : Text) :
    unescape (c :: rest) = (unescape rest).map (c :: ·) := by
  rw [unescape.eq_def]
  exact (if_neg hc.2.2).trans (if_pos ⟨hc.1, hc.2.1⟩)

theorem unescape_simple {c d : UInt8} (h : simpleEscape c = some d) (rest : Text) :
    unescape (92 :: c :: rest) = (unescape rest).map (d :: ·) := by
  have hLetter : c ≠ 117 := by
    rintro rfl
    cases h
  rw [unescape, if_pos rfl, h]
  · cases unescape rest <;> rfl
  · rintro p q r s rest hUnit -
    exact hLetter hUnit

/-- A string body, piece by piece: what is escaped byte by byte is undone byte
by byte. -/
theorem unescape_flatMap {escape : UInt8 → Text} {data : Text}
    (h : ∀ c ∈ data, ∀ rest, unescape (escape c ++ rest) = (unescape rest).map (c :: ·)) :
    unescape (data.flatMap escape) = some data := by
  induction data with
  | nil => rfl
  | cons c data ih =>
    have hTail := ih fun d hd => h d (List.mem_cons_of_mem _ hd)
    rw [List.flatMap_cons, h c List.mem_cons_self, hTail, Option.map_some]

end HttpMonitoring.Library.JsonEscape
