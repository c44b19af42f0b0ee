import Mathlib

/-!
# Rings addressed by a counter

A ring of `capacity` slots stores its `k`-th value in slot `k % capacity`. A
reader of the last `count` values starts `count` slots before the counter.
The two readings compared below use the same slots under two capacities.
-/

namespace HttpMonitoring.Library.RingIndex

/-- The slot of the `i`-th of the last `count` values, oldest first. -/
def readSlot (capacity counter count i : Nat) : Nat := (counter + capacity - count + i) % capacity

theorem mod_add_eq_of_lt {a i c : Nat} (hi : a % c + i < c) : (a + i) % c = a % c + i := by
  rw [Nat.add_mod, Nat.mod_eq_of_lt (Nat.lt_of_le_of_lt (Nat.le_add_left i _) hi),
    Nat.mod_eq_of_lt hi]

theorem readSlot_of_all {capacity counter i : Nat} (hi : i < counter) (h : counter ≤ capacity) :
    readSlot capacity counter counter i = i := by
  have hStart : counter + capacity - counter + i = capacity + i := by omega
  rw [readSlot, hStart, Nat.add_mod_left, Nat.mod_eq_of_lt (by omega)]

/-- The whole of a small ring lies in the same slots of a larger one exactly
when both rings start at slot zero. -/
theorem forall_readSlot_eq_iff {c d : Nat} (hc : 0 < c) (hLess : c < d) (counter : Nat) :
    (∀ i < c, readSlot c counter c i = readSlot d counter c i) ↔
      counter % c = 0 ∧ counter % d = c := by
  have hSmall : ∀ i, readSlot c counter c i = (counter + i) % c := by
    intro i
    rw [readSlot, Nat.add_sub_cancel]
  have hLarge : ∀ i, readSlot d counter c i = (counter + (d - c) + i) % d := by
    intro i
    rw [readSlot, Nat.add_sub_assoc hLess.le]
  simp only [hSmall, hLarge]
  constructor
  · intro h
    have hStart := h 0 hc
    rw [Nat.add_zero, Nat.add_zero] at hStart
    have hZero : counter % c = 0 := by
      by_contra hNonzero
      -- the position at which the small ring starts over
      have hBound := Nat.mod_lt counter hc
      have hTurn := h (c - counter % c) (by omega)
      rw [mod_add_eq_of_lt (c := d) (by omega), ← hStart, Nat.add_mod,
        Nat.mod_eq_of_lt (by omega : c - counter % c < c), Nat.add_sub_cancel' hBound.le,
        Nat.mod_self] at hTurn
      omega
    refine ⟨hZero, ?_⟩
    rw [hZero] at hStart
    have hSum : (counter + (d - c) + c) % d = c := by
      rw [mod_add_eq_of_lt (by omega), ← hStart, Nat.zero_add]
    rwa [Nat.add_assoc, Nat.sub_add_cancel hLess.le, Nat.add_mod_right] at hSum
  · rintro ⟨hZero, hOffset⟩ i hi
    have hTurns : (counter + (d - c)) % d = 0 := by
      rw [Nat.add_mod, hOffset, Nat.mod_eq_of_lt (by omega : d - c < d),
        Nat.add_sub_cancel' hLess.le, Nat.mod_self]
    rw [mod_add_eq_of_lt (by omega), mod_add_eq_of_lt (by omega), hZero, hTurns]

theorem forall_readSlot_iff {c d counter count : Nat} (hc : 0 < c) (hd : 0 < d)
    (hCount : count = c ∨ (count = counter ∧ counter < c)) :
    (∀ i < min count d, readSlot d counter (min count d) i = readSlot c counter (min count d) i) ↔
      c = d ∨ (count = counter ∧ counter ≤ d) ∨
        (counter % max c d = min c d ∧ counter % min c d = 0) := by
  rcases Nat.lt_trichotomy c d with hLess | rfl | hLess
  · rw [Nat.max_eq_right hLess.le, Nat.min_eq_left hLess.le]
    rcases hCount with rfl | ⟨rfl, hBelow⟩
    · rw [Nat.min_eq_left hLess.le]
      have hIff := forall_readSlot_eq_iff hc hLess counter
      constructor
      · intro h
        obtain ⟨hZero, hOffset⟩ := hIff.mp fun i hi => (h i hi).symm
        exact Or.inr (Or.inr ⟨hOffset, hZero⟩)
      · rintro (rfl | ⟨rfl, hLe⟩ | ⟨hOffset, hZero⟩)
        · exact absurd hLess (Nat.lt_irrefl _)
        · intro i hi
          rw [readSlot_of_all hi hLe, readSlot_of_all hi (Nat.le_refl _)]
        · intro i hi
          exact (hIff.mpr ⟨hZero, hOffset⟩ i hi).symm
    · rw [Nat.min_eq_left (by omega : count ≤ d)]
      constructor
      · exact fun _ => Or.inr (Or.inl ⟨rfl, by omega⟩)
      · intro _ i hi
        rw [readSlot_of_all hi (by omega), readSlot_of_all hi (by omega)]
  · exact ⟨fun _ => Or.inl rfl, fun _ _ _ => rfl⟩
  · rw [Nat.max_eq_left hLess.le, Nat.min_eq_right hLess.le]
    by_cases hShort : count = counter ∧ counter ≤ d
    · obtain ⟨rfl, hLe⟩ := hShort
      rw [Nat.min_eq_left hLe]
      constructor
      · exact fun _ => Or.inr (Or.inl ⟨rfl, hLe⟩)
      · intro _ i hi
        rw [readSlot_of_all hi hLe, readSlot_of_all hi (by omega)]
    · have hMin : min count d = d := by omega
      rw [hMin, forall_readSlot_eq_iff hd hLess counter]
      constructor
      · rintro ⟨hZero, hOffset⟩
        exact Or.inr (Or.inr ⟨hOffset, hZero⟩)
      · rintro (rfl | hAll | ⟨hOffset, hZero⟩)
        · exact absurd hLess (Nat.lt_irrefl _)
        · exact absurd hAll hShort
        · exact ⟨hZero, hOffset⟩

section Values

variable {α : Type*} {capacity : Nat} {values : List α} {slots : Nat → α}

/-- The last values are in their slots; earlier ones may be overwritten. -/
def HoldsLast (capacity : Nat) (values : List α) (slots : Nat → α) : Prop :=
  ∀ (k : Nat) (hk : k < values.length), values.length ≤ k + capacity →
    slots (k % capacity) = values[k]

theorem holdsLast_nil : HoldsLast capacity [] slots := fun k hk => absurd hk (Nat.not_lt_zero k)

theorem mod_ne_of_lt {k n : Nat} (hLess : k < n) (hNear : n < k + capacity) :
    k % capacity ≠ n % capacity := by
  intro hSame
  have hDvd : capacity ∣ n - k :=
    Nat.dvd_of_mod_eq_zero (Nat.sub_mod_eq_zero_of_mod_eq hSame.symm)
  have hLe := Nat.le_of_dvd (Nat.sub_pos_of_lt hLess) hDvd
  omega

theorem HoldsLast.push (h : HoldsLast capacity values slots) (value : α) :
    HoldsLast capacity (values ++ [value])
      (Function.update slots (values.length % capacity) value) := by
  intro k hk hNear
  rw [List.length_append, List.length_singleton] at hk hNear
  rcases Nat.lt_succ_iff_lt_or_eq.mp hk with hLess | rfl
  · rw [Function.update_of_ne (mod_ne_of_lt hLess (by omega)), List.getElem_append_left hLess]
    exact h k hLess (by omega)
  · rw [Function.update_self, List.getElem_concat_length]
    rfl

theorem HoldsLast.read (h : HoldsLast capacity values slots) {count : Nat}
    (hCapacity : count ≤ capacity) (hLength : count ≤ values.length) :
    (List.range count).map (fun i => slots (readSlot capacity values.length count i)) =
      values.drop (values.length - count) := by
  apply List.ext_getElem
  · rw [List.length_map, List.length_range, List.length_drop, Nat.sub_sub_self hLength]
  · intro i hi _
    rw [List.length_map, List.length_range] at hi
    have hStart : values.length + capacity - count + i = values.length - count + i + capacity := by
      omega
    rw [List.getElem_map, List.getElem_range, List.getElem_drop, readSlot, hStart,
      Nat.add_mod_right]
    exact h _ (by omega) (by omega)

end Values

end HttpMonitoring.Library.RingIndex
