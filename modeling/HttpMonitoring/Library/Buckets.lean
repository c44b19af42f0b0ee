import Mathlib

/-!
# Buckets with sorted bounds

A value is put into the first bucket whose bound it does not exceed. The last
bucket has no bound.
-/

namespace HttpMonitoring.Library.Buckets

variable {α : Type*} [LinearOrder α]

def bucketIndex : List α → α → Nat
  | [], _ => 0
  | b :: bounds, v => if v ≤ b then 0 else bucketIndex bounds v + 1

def lowerBound (bounds : List α) : Nat → Option α
  | 0 => none
  | i + 1 => bounds[i]?

def upperBound (bounds : List α) (i : Nat) : Option α := bounds[i]?

/-- The interval of a bucket is open below and closed above. -/
def InBucket (bounds : List α) (i : Nat) (v : α) : Prop :=
  i ≤ bounds.length ∧ (∀ b ∈ lowerBound bounds i, b < v) ∧ ∀ b ∈ upperBound bounds i, v ≤ b

instance (bounds : List α) (i : Nat) (v : α) : Decidable (InBucket bounds i v) :=
  inferInstanceAs (Decidable (_ ∧ _ ∧ _))

theorem bucketIndex_le (bounds : List α) (v : α) : bucketIndex bounds v ≤ bounds.length := by
  induction bounds with
  | nil => exact Nat.le_refl 0
  | cons b bounds ih =>
    rw [bucketIndex, List.length_cons]
    split
    · exact Nat.zero_le _
    · exact Nat.succ_le_succ ih

theorem inBucket_cons_succ {b v : α} (bounds : List α) (i : Nat) (h : b < v) :
    InBucket (b :: bounds) (i + 1) v ↔ InBucket bounds i v := by
  cases i with
  | zero => simp [InBucket, lowerBound, upperBound, h]
  | succ i => simp [InBucket, lowerBound, upperBound]

theorem bucketIndex_eq_iff {bounds : List α} (hSorted : bounds.Pairwise (· < ·)) (v : α) (i : Nat) :
    bucketIndex bounds v = i ↔ InBucket bounds i v := by
  induction bounds generalizing i with
  | nil =>
    rw [bucketIndex]
    constructor
    · rintro rfl
      simp [InBucket, lowerBound, upperBound]
    · rintro ⟨hi, -, -⟩
      exact (Nat.le_zero.mp hi).symm
  | cons b bounds ih =>
    obtain ⟨hFirst, hRest⟩ := List.pairwise_cons.mp hSorted
    rw [bucketIndex]
    split
    · rename_i hLe
      constructor
      · rintro rfl
        simp [InBucket, lowerBound, upperBound, hLe]
      · rintro ⟨hi, hLower, -⟩
        cases i with
        | zero => rfl
        | succ i =>
          have hIndex : i < (b :: bounds).length := hi
          have hBelow := hLower _ (List.getElem?_eq_getElem hIndex)
          rcases List.mem_cons.mp (List.getElem_mem hIndex) with hSame | hMem
          · exact absurd (hSame ▸ hBelow) (not_lt.mpr hLe)
          · exact absurd ((hFirst _ hMem).trans hBelow) (not_lt.mpr hLe)
    · rename_i hNot
      have hLess := not_le.mp hNot
      cases i with
      | zero =>
        constructor
        · intro h
          cases h
        · rintro ⟨-, -, hUpper⟩
          exact absurd (hUpper b rfl) hNot
      | succ i =>
        rw [inBucket_cons_succ bounds i hLess, ← ih hRest i]
        exact Nat.succ_inj

theorem bucketIndex_le_iff {bounds : List α} (hSorted : bounds.Pairwise (· < ·)) (v : α) {k : Nat}
    (hk : k < bounds.length) : bucketIndex bounds v ≤ k ↔ v ≤ bounds[k] := by
  induction bounds generalizing k with
  | nil => exact absurd hk (Nat.not_lt_zero k)
  | cons b bounds ih =>
    obtain ⟨hFirst, hRest⟩ := List.pairwise_cons.mp hSorted
    rw [bucketIndex]
    cases k with
    | zero =>
      rw [List.getElem_cons_zero]
      split
      · rename_i hLe
        exact iff_of_true (Nat.le_refl 0) hLe
      · rename_i hNot
        exact iff_of_false (Nat.not_succ_le_zero _) hNot
    | succ k =>
      have hk' : k < bounds.length := Nat.lt_of_succ_lt_succ hk
      rw [List.getElem_cons_succ]
      split
      · rename_i hLe
        exact iff_of_true (Nat.zero_le _) (hLe.trans (hFirst _ (List.getElem_mem hk')).le)
      · rw [Nat.succ_le_succ_iff]
        exact ih hRest hk'

/-- The values in the first buckets, bucket by bucket. -/
theorem sum_countP_bucketIndex (bounds values : List α) (n : Nat) :
    ∑ i ∈ Finset.range n, values.countP (fun v => bucketIndex bounds v = i) =
      values.countP fun v => bucketIndex bounds v < n := by
  induction values with
  | nil => simp
  | cons v values ih =>
    simp only [List.countP_cons, Finset.sum_add_distrib, ih, decide_eq_true_eq]
    rw [Finset.sum_ite_eq]
    simp only [Finset.mem_range]

end HttpMonitoring.Library.Buckets
