import Mathlib

/-!
# Tables filled from the front

A loop over lines that stores what it can read of a line in the next row of a
bounded table. The rows that it leaves are those behind the last one stored.
-/

namespace HttpMonitoring.Library.RowTable

variable {ι ρ τ : Type*}

/-- The loop, with the count and the rows it keeps. -/
def readRows (bound : Nat) (parse : ι → Option ρ) (store : ρ → τ → τ) :
    List ι → Nat → (Nat → τ) → Nat × (Nat → τ)
  | [], count, rows => (count, rows)
  | line :: lines, count, rows =>
    if count < bound then
      match parse line with
      | none => readRows bound parse store lines count rows
      | some r =>
        readRows bound parse store lines (count + 1) (Function.update rows count (store r (rows count)))
    else readRows bound parse store lines count rows

def stored (bound : Nat) (parse : ι → Option ρ) (lines : List ι) : List ρ :=
  (lines.filterMap parse).take bound

variable {bound : Nat} {parse : ι → Option ρ} {store : ρ → τ → τ}

theorem readRows_spec (lines : List ι) {count : Nat} (hCount : count ≤ bound) (rows : Nat → τ) :
    let read := stored (bound - count) parse lines
    readRows bound parse store lines count rows = (count + read.length,
      fun i => if i < count then rows i else
        match read[i - count]? with
        | none => rows i
        | some r => store r (rows i)) := by
  induction lines generalizing count rows with
  | nil => simp [readRows, stored]
  | cons line lines ih =>
    rw [readRows]
    split
    · rename_i hRoom
      cases hLine : parse line with
      | none =>
        simp only [stored, List.filterMap_cons_none hLine]
        exact ih hCount rows
      | some r =>
        have hBound : bound - count = bound - (count + 1) + 1 := by omega
        simp only [stored, List.filterMap_cons_some hLine, hBound, List.take_succ_cons,
          List.length_cons]
        have hNext : count + 1 ≤ bound := hRoom
        rw [ih hNext]
        refine Prod.ext (by simp only [stored]; omega) (funext fun i => ?_)
        rcases Nat.lt_trichotomy i count with hBefore | rfl | hBehind
        · simp only [if_pos hBefore, if_pos (Nat.lt_succ_of_lt hBefore),
            Function.update_of_ne hBefore.ne]
        · simp
        · have hIndex : i - count = i - (count + 1) + 1 := by omega
          simp only [if_neg (not_lt.mpr hBehind.le),
            if_neg (not_lt.mpr (Nat.succ_le_of_lt hBehind)), hIndex,
            List.getElem?_cons_succ, Function.update_of_ne hBehind.ne', stored]
    · rename_i hFull
      have hNone : bound - count = 0 := by omega
      rw [ih hCount]
      simp [stored, hNone]

theorem readRows_zero (lines : List ι) (rows : Nat → τ) :
    readRows bound parse store lines 0 rows = ((stored bound parse lines).length,
      fun i => match (stored bound parse lines)[i]? with
        | none => rows i
        | some r => store r (rows i)) := by
  have h : readRows bound parse store lines 0 rows = _ := readRows_spec lines (Nat.zero_le bound) rows
  simpa using h

theorem length_stored_le (lines : List ι) : (stored bound parse lines).length ≤ bound :=
  List.length_take_le _ _

variable {M : Type*} [AddCommMonoid M]

/-- A sum over the rows in use is the sum over what was stored in them. -/
theorem sum_rows (value : τ → M) (reading : ρ → M) (hStore : ∀ r row, value (store r row) = reading r)
    (lines : List ι) (rows : Nat → τ) :
    ((List.range (stored bound parse lines).length).map fun i =>
        value ((readRows bound parse store lines 0 rows).2 i)).sum =
      ((stored bound parse lines).map reading).sum := by
  rw [readRows_zero]
  generalize stored bound parse lines = read
  congr 1
  refine List.ext_getElem (by simp) fun i hi _ => ?_
  have hRow : i < read.length := by simpa using hi
  simp [List.getElem?_eq_getElem hRow, hStore]

end HttpMonitoring.Library.RowTable
