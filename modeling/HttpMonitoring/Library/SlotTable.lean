import Mathlib

/-!
# Bounded tables of counted slots

A table of `capacity` slots is searched in one pass for the slot of a key.
The pass remembers the first slot with count zero and the first slot with the
least count, and proposes one of them when the key is in no slot.
-/

namespace HttpMonitoring.Library.SlotTable

structure Scan where
  empty : Nat
  victim : Nat
  minHits : Nat
deriving DecidableEq, Repr

inductive Choice
  | found (slot : Nat)
  | rewrite (slot : Nat)
deriving DecidableEq, Repr

def Choice.slot : Choice → Nat
  | .found i => i
  | .rewrite i => i

section Pass

variable {ε : Type*} (hits : ε → Nat) (isKey : ε → Bool) (capacity : Nat) (table : Nat → ε)

def scan : List Nat → Scan → Choice
  | [], s => .rewrite (if s.empty ≠ capacity then s.empty else s.victim)
  | i :: rest, s =>
    if hits (table i) = 0 ∧ s.empty = capacity then scan rest { s with empty := i }
    else if isKey (table i) then .found i
    else if hits (table i) < s.minHits then
      scan rest { s with minHits := hits (table i), victim := i }
    else scan rest s

/-- What the pass may propose: the first slot of the key or, when there is
none, the first empty slot or the first slot with the least count of a full
table. -/
def Selects : Choice → Prop
  | .found i => i < capacity ∧ isKey (table i) = true ∧ ∀ j < i, isKey (table j) = false
  | .rewrite i => i < capacity ∧ (∀ j < capacity, isKey (table j) = false) ∧
      ((hits (table i) = 0 ∧ ∀ j < i, hits (table j) ≠ 0) ∨
        ((∀ j < capacity, hits (table j) ≠ 0) ∧
          (∀ j < capacity, hits (table i) ≤ hits (table j)) ∧
          ∀ j < i, hits (table i) < hits (table j)))

/-- The least count among the slots before `i`, at its first position. -/
def Least (top i : Nat) (s : Scan) : Prop :=
  (s.victim = 0 ∧ s.minHits = top ∧ ∀ j < i, top ≤ hits (table j)) ∨
    (s.victim < i ∧ s.minHits = hits (table s.victim) ∧
      (∀ j < i, s.minHits ≤ hits (table j)) ∧ ∀ j < s.victim, s.minHits < hits (table j))

structure Scanned (top i : Nat) (s : Scan) : Prop where
  absent : ∀ j < i, isKey (table j) = false
  progress : (s.empty = capacity ∧ (∀ j < i, hits (table j) ≠ 0) ∧ Least hits table top i s) ∨
    (s.empty < i ∧ hits (table s.empty) = 0 ∧ ∀ j < s.empty, hits (table j) ≠ 0)

variable {hits isKey capacity table}

theorem forall_lt_succ {P : Nat → Prop} {i : Nat} (h : ∀ j < i, P j) (hi : P i) :
    ∀ j < i + 1, P j := by
  intro j hj
  rcases Nat.lt_succ_iff_lt_or_eq.mp hj with hj | rfl
  · exact h j hj
  · exact hi

theorem Least.next {top i : Nat} {s : Scan} (h : Least hits table top i s) :
    Least hits table top (i + 1)
      (if hits (table i) < s.minHits then { s with minHits := hits (table i), victim := i } else s) := by
  split
  · rename_i hLess
    refine Or.inr ⟨Nat.lt_succ_self i, rfl, ?_, ?_⟩
    · refine forall_lt_succ (P := fun j => hits (table i) ≤ hits (table j)) ?_ (Nat.le_refl _)
      intro j hj
      rcases h with ⟨-, hTop, hAll⟩ | ⟨-, -, hAll, -⟩
      · exact (hLess.trans_le (hTop ▸ hAll j hj)).le
      · exact (hLess.trans_le (hAll j hj)).le
    · intro j hj
      rcases h with ⟨-, hTop, hAll⟩ | ⟨-, -, hAll, -⟩
      · exact hLess.trans_le (hTop ▸ hAll j hj)
      · exact hLess.trans_le (hAll j hj)
  · rename_i hNot
    rcases h with ⟨hVictim, hTop, hAll⟩ | ⟨hVictim, hMin, hAll, hFirst⟩
    · exact Or.inl ⟨hVictim, hTop, forall_lt_succ hAll (hTop ▸ Nat.le_of_not_lt hNot)⟩
    · exact Or.inr ⟨Nat.lt_succ_of_lt hVictim, hMin,
        forall_lt_succ hAll (Nat.le_of_not_lt hNot), hFirst⟩

theorem Scanned.selects {top : Nat} {s : Scan} (hCapacity : 0 < capacity)
    (hTop : ∀ j < capacity, hits (table j) ≤ top)
    (h : Scanned hits isKey capacity table top capacity s) :
    Selects hits isKey capacity table
      (.rewrite (if s.empty ≠ capacity then s.empty else s.victim)) := by
  rcases h.progress with ⟨hEmpty, hFull, hLeast⟩ | ⟨hEmpty, hZero, hFirst⟩
  · rw [if_neg (not_not.mpr hEmpty)]
    rcases hLeast with ⟨hVictim, -, hAll⟩ | ⟨hVictim, hMin, hAll, hFirst⟩
    · rw [hVictim]
      refine ⟨hCapacity, h.absent, Or.inr ⟨hFull, ?_, ?_⟩⟩
      · intro j hj
        exact (hTop 0 hCapacity).trans (hAll j hj)
      · intro j hj
        omega
    · exact ⟨hVictim, h.absent, Or.inr ⟨hFull, hMin ▸ hAll, hMin ▸ hFirst⟩⟩
  · rw [if_pos (Nat.ne_of_lt hEmpty)]
    exact ⟨hEmpty, h.absent, Or.inl ⟨hZero, hFirst⟩⟩

theorem scan_range'_selects {top : Nat} (hCapacity : 0 < capacity)
    (hTop : ∀ j < capacity, hits (table j) ≤ top)
    (hBlank : ∀ j < capacity, hits (table j) = 0 → isKey (table j) = false) (n i : Nat)
    (hn : i + n = capacity) (s : Scan) (h : Scanned hits isKey capacity table top i s) :
    Selects hits isKey capacity table (scan hits isKey capacity table (List.range' i n) s) := by
  induction n generalizing i s with
  | zero =>
    obtain rfl : i = capacity := by omega
    exact h.selects hCapacity hTop
  | succ n ih =>
    have hi : i < capacity := by omega
    rw [List.range'_succ, scan]
    split
    · rename_i hEmpty
      obtain ⟨hZero, hNone⟩ := hEmpty
      apply ih (i + 1) (by omega)
      refine ⟨forall_lt_succ h.absent (hBlank i hi hZero), Or.inr ⟨Nat.lt_succ_self i, hZero, ?_⟩⟩
      rcases h.progress with ⟨-, hFull, -⟩ | ⟨hLess, -, -⟩
      · exact hFull
      · omega
    · rename_i hNotEmpty
      split
      · rename_i hKey
        exact ⟨hi, hKey, h.absent⟩
      · rename_i hKey
        have hAbsent := forall_lt_succ h.absent (Bool.eq_false_iff.mpr hKey)
        rw [← apply_ite (scan hits isKey capacity table (List.range' (i + 1) n))]
        apply ih (i + 1) (by omega)
        refine ⟨hAbsent, ?_⟩
        rcases h.progress with ⟨hNone, hFull, hLeast⟩ | ⟨hLess, hZero, hFirst⟩
        · have hNonzero : hits (table i) ≠ 0 := fun hZero => hNotEmpty ⟨hZero, hNone⟩
          refine Or.inl ⟨?_, forall_lt_succ hFull hNonzero, hLeast.next⟩
          split <;> exact hNone
        · have hSame : (if hits (table i) < s.minHits then
              { s with minHits := hits (table i), victim := i } else s).empty = s.empty := by
            split <;> rfl
          rw [hSame]
          exact Or.inr ⟨Nat.lt_succ_of_lt hLess, hZero, hFirst⟩

/-- The whole pass, started with the sentinel `capacity` and the greatest
count. Empty slots are required not to look like slots of the key. -/
theorem scan_selects {top : Nat} (hCapacity : 0 < capacity)
    (hTop : ∀ j < capacity, hits (table j) ≤ top)
    (hBlank : ∀ j < capacity, hits (table j) = 0 → isKey (table j) = false) :
    Selects hits isKey capacity table
      (scan hits isKey capacity table (List.range capacity) ⟨capacity, 0, top⟩) := by
  rw [List.range_eq_range']
  apply scan_range'_selects hCapacity hTop hBlank capacity 0 (by omega)
  exact ⟨by simp, Or.inl ⟨rfl, by simp, Or.inl ⟨rfl, rfl, by simp⟩⟩⟩

/-- Whatever the table holds, the pass proposes one of its slots, and takes only
a slot of the key for one. -/
theorem scan_slot {slots : List Nat} {s : Scan} (hSlots : ∀ i ∈ slots, i < capacity)
    (hVictim : s.victim < capacity) (hEmpty : s.empty ≤ capacity) :
    (scan hits isKey capacity table slots s).slot < capacity ∧
      ∀ i, scan hits isKey capacity table slots s = .found i → isKey (table i) = true := by
  induction slots generalizing s with
  | nil =>
    refine ⟨?_, nofun⟩
    rw [scan, Choice.slot]
    split
    · omega
    · exact hVictim
  | cons i slots ih =>
    have hRest : ∀ j ∈ slots, j < capacity := fun j hj => hSlots j (List.mem_cons_of_mem _ hj)
    have hi := hSlots i List.mem_cons_self
    rw [scan]
    split
    · exact ih hRest hVictim hi.le
    · split
      · rename_i hKey
        refine ⟨hi, fun j hFound => ?_⟩
        obtain rfl := Choice.found.inj hFound
        exact hKey
      · split
        · exact ih hRest hi hEmpty
        · exact ih hRest hVictim hEmpty

/-- When only one slot looks like a slot of the key, the pass proposes it, even
when it takes the slot for the first empty one. -/
theorem scan_slot_of_unique {slots : List Nat} {s : Scan} {i : Nat} (hi : i < capacity)
    (hKey : isKey (table i) = true) (hOnly : ∀ j ∈ slots, isKey (table j) = true → j = i)
    (hAhead : i ∈ slots ∨ s.empty = i) : (scan hits isKey capacity table slots s).slot = i := by
  induction slots generalizing s with
  | nil =>
    have hEmpty : s.empty = i := hAhead.resolve_left List.not_mem_nil
    rw [scan, Choice.slot, if_pos (by omega), hEmpty]
  | cons k slots ih =>
    have hRest : ∀ j ∈ slots, isKey (table j) = true → j = i :=
      fun j hj => hOnly j (List.mem_cons_of_mem _ hj)
    have hLater : k ≠ i → i ∈ slots ∨ s.empty = i := by
      rintro hOther
      rcases hAhead with hMember | hEmpty
      · exact Or.inl ((List.mem_cons.mp hMember).resolve_left hOther.symm)
      · exact Or.inr hEmpty
    rw [scan]
    split
    · rename_i hFirst
      refine ih hRest ?_
      rcases eq_or_ne k i with rfl | hOther
      · exact Or.inr rfl
      · rcases hLater hOther with hMember | hEmpty
        · exact Or.inl hMember
        · omega
    · split
      · rename_i hFound
        exact hOnly k List.mem_cons_self hFound
      · rename_i hNot
        have hOther : k ≠ i := fun h => hNot (h ▸ hKey)
        split
        · exact ih hRest (hLater hOther)
        · exact ih hRest (hLater hOther)

/-- The pass looks at the counts and at the matches only. -/
theorem scan_congr {ε' : Type*} {hits' : ε' → Nat} {isKey' : ε' → Bool} {table' : Nat → ε'}
    (hHits : ∀ i, hits (table i) = hits' (table' i)) (hKey : ∀ i, isKey (table i) = isKey' (table' i))
    (slots : List Nat) (s : Scan) :
    scan hits isKey capacity table slots s = scan hits' isKey' capacity table' slots s := by
  induction slots generalizing s with
  | nil => rfl
  | cons i slots ih =>
    rw [scan, scan, hHits, hKey, ih, ih, ih]

end Pass

end HttpMonitoring.Library.SlotTable
