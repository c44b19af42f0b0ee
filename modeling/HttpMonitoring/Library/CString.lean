import Mathlib

/-!
# NUL-terminated strings in fixed buffers

A buffer is the list of its cells and zero is the terminator. The comparison
is the one of `strncmp`: it stops at the bound, at a difference, or at a
terminator common to both sides.
-/

namespace HttpMonitoring.Library.CString

variable {α : Type*} [Zero α] [DecidableEq α]

def text (buffer : List α) : List α := buffer.takeWhile (· ≠ 0)

/-- A zeroed buffer of `size` cells after the copy of `s` to its front. -/
def fill (size : Nat) (s : List α) : List α := s ++ List.replicate (size - s.length) 0

def strncmpEq : Nat → List α → List α → Bool
  | 0, _, _ => true
  | n + 1, a, b => a.headD 0 == b.headD 0 && (a.headD 0 == 0 || strncmpEq n a.tail b.tail)

omit [Zero α] [DecidableEq α] in
theorem getD_of_append (s t : List α) (d : α) : (s ++ t).getD s.length d = t.headD d := by
  cases t <;> simp

theorem text_of_not_mem {s : List α} (hs : (0 : α) ∉ s) : text s = s := by
  rw [text, List.takeWhile_eq_self_iff]
  intro a ha
  have hNe : a ≠ 0 := fun h => hs (h ▸ ha)
  simpa using hNe

theorem text_append_zero {s : List α} (hs : (0 : α) ∉ s) (rest : List α) :
    text (s ++ 0 :: rest) = s := by
  have hAll : ∀ a ∈ s, (decide (a ≠ 0)) = true := by
    intro a ha
    have hNe : a ≠ 0 := fun h => hs (h ▸ ha)
    simpa using hNe
  rw [text, List.takeWhile_append_of_pos hAll]
  simp

theorem text_fill {s : List α} (hs : (0 : α) ∉ s) (size : Nat) : text (fill size s) = s := by
  cases hn : size - s.length with
  | zero =>
    rw [fill, hn, List.replicate_zero, List.append_nil]
    exact text_of_not_mem hs
  | succ n =>
    rw [fill, hn, List.replicate_succ]
    exact text_append_zero hs _

theorem text_length_lt {buffer : List α} (h : (0 : α) ∈ buffer) :
    (text buffer).length < buffer.length := by
  induction buffer with
  | nil => cases h
  | cons a buffer ih =>
    rcases List.mem_cons.mp h with rfl | hRest
    · simp [text]
    · simp only [text, List.takeWhile_cons] at *
      split
      · simpa using ih hRest
      · simp

/-- Against a string without terminators `strncmp` compares prefixes. -/
theorem strncmpEq_iff_take (n : Nat) (a b : List α) (hLength : n ≤ b.length)
    (hb : (0 : α) ∉ b.take n) : strncmpEq n a b = true ↔ a.take n = b.take n := by
  induction n generalizing a b with
  | zero => simp [strncmpEq]
  | succ n ih =>
    cases b with
    | nil => simp at hLength
    | cons y b =>
      simp only [List.take_succ_cons, List.mem_cons, not_or] at hb
      have hy : y ≠ 0 := fun h => hb.1 h.symm
      cases a with
      | nil => simp [strncmpEq, hy.symm]
      | cons x a =>
        have hRest := ih a b (by simpa using hLength) hb.2
        simp only [strncmpEq, List.headD_cons, List.tail_cons, List.take_succ_cons,
          Bool.and_eq_true, Bool.or_eq_true, beq_iff_eq, List.cons.injEq, hRest]
        constructor
        · rintro ⟨rfl, h | h⟩
          · exact absurd h hy
          · exact ⟨rfl, h⟩
        · rintro ⟨rfl, h⟩
          exact ⟨rfl, Or.inr h⟩

/-- Equal lengths and a comparison over that length decide equality. -/
theorem strncmpEq_length_iff {s name : List α} (hName : (0 : α) ∉ name) :
    (s.length = name.length ∧ strncmpEq name.length s name = true) ↔ s = name := by
  have hCompare := strncmpEq_iff_take name.length s name le_rfl fun h => hName (List.mem_of_mem_take h)
  rw [hCompare, List.take_length]
  constructor
  · rintro ⟨hLength, hTake⟩
    rwa [← hLength, List.take_length] at hTake
  · rintro rfl
    exact ⟨rfl, List.take_length⟩

/-- A bounded comparison together with the terminator behind it decides
equality with the stored string. -/
theorem fill_matches_iff {s key : List α} {size : Nat} (hs : (0 : α) ∉ s)
    (hKey : (0 : α) ∉ key) (n : Nat) (hn : n ≤ key.length) (hSize : s.length < size) :
    (strncmpEq n (fill size s) key = true ∧ (fill size s).getD n 0 = 0) ↔ s = key.take n := by
  have hTake : (0 : α) ∉ key.take n := fun h => hKey (List.mem_of_mem_take h)
  rw [strncmpEq_iff_take n _ key hn hTake]
  constructor
  · rintro ⟨hPrefix, hEnd⟩
    have hSplit : fill size s = key.take n ++ (fill size s).drop n := by
      rw [← hPrefix, List.take_append_drop]
    have hLength : (key.take n).length = n := by simp [hn]
    have hNext : ((fill size s).drop n).headD 0 = 0 := by
      rw [← getD_of_append (key.take n), ← hSplit, hLength]
      exact hEnd
    have hText : text (fill size s) = key.take n := by
      rw [hSplit]
      cases hDrop : (fill size s).drop n with
      | nil =>
        rw [List.append_nil]
        exact text_of_not_mem hTake
      | cons c rest =>
        rw [hDrop, List.headD_cons] at hNext
        rw [hNext]
        exact text_append_zero hTake rest
    rwa [text_fill hs] at hText
  · intro h
    have hLength : s.length = n := by simp [h, hn]
    rw [← h, ← hLength, fill, List.take_left, getD_of_append]
    refine ⟨rfl, ?_⟩
    cases hPad : size - s.length with
    | zero => omega
    | succ m => simp [List.replicate_succ]

end HttpMonitoring.Library.CString
