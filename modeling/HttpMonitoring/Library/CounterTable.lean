import Mathlib

/-!
# Counting with a bounded number of counters

A table of counters for keys. A new key takes a free counter or, when there is
none, that of a key with the least count, and begins at one. What a key loses
when its counter is taken is paid for by the accesses of the other keys.
-/

namespace HttpMonitoring.Library.CounterTable

variable {α : Type*} {capacity : ℕ} {m m' : α →₀ ℕ} {k key : α}

open Finsupp

variable (capacity) in
/-- One access; a key without a counter has the count zero. -/
inductive Access (m : α →₀ ℕ) (k : α) : (α →₀ ℕ) → Prop
  | hit (present : m k ≠ 0) : Access m k (m + single k 1)
  | fill (absent : m k = 0) (room : m.support.card < capacity) : Access m k (m + single k 1)
  | evict (victim : α) (absent : m k = 0) (full : m.support.card = capacity)
      (held : m victim ≠ 0) (least : ∀ j, m j ≠ 0 → m victim ≤ m j) :
      Access m k (m.erase victim + single k 1)

variable (capacity) in
inductive Run : List α → (α →₀ ℕ) → Prop
  | nil : Run [] 0
  | snoc {keys : List α} {m m' : α →₀ ℕ} {k : α} (earlier : Run keys m)
      (access : Access capacity m k m') : Run (keys ++ [k]) m'

/-- The sum of the counts of the keys but one. -/
noncomputable def others (k : α) (m : α →₀ ℕ) : ℕ := (m.erase k).degree

theorem others_add (k : α) (m : α →₀ ℕ) : others k m + m k = m.degree := by
  have hSplit := congrArg Finsupp.degree (Finsupp.erase_add_single k m)
  rwa [map_add, Finsupp.degree_single] at hSplit

theorem others_of_absent (h : m k = 0) : others k m = m.degree := by
  have hSum := others_add k m
  omega

theorem others_add_single_self : others k (m + single k 1) = others k m := by
  have hNew := others_add k (m + single k 1)
  have hOld := others_add k m
  rw [map_add, Finsupp.degree_single, Finsupp.add_apply, Finsupp.single_eq_same] at hNew
  omega

theorem others_add_single_of_ne (h : key ≠ k) : others k (m + single key 1) = others k m + 1 := by
  have hNew := others_add k (m + single key 1)
  have hOld := others_add k m
  rw [map_add, Finsupp.degree_single, Finsupp.add_apply, Finsupp.single_eq_of_ne h.symm] at hNew
  omega

/-- The keys whose counts are not below that of `k` weigh at least so much. -/
theorem mul_le_others (hHeld : m k ≠ 0) (hLeast : ∀ j, m j ≠ 0 → m k ≤ m j) :
    (m.support.card - 1) * m k ≤ others k m := by
  classical
  have hSupport : (m.erase k).support = m.support.erase k := Finsupp.support_erase
  have hCard : (m.erase k).support.card = m.support.card - 1 := by
    rw [hSupport, Finset.card_erase_of_mem (Finsupp.mem_support_iff.mpr hHeld)]
  rw [others, Finsupp.degree_apply, ← hCard, ← smul_eq_mul]
  refine Finset.card_nsmul_le_sum _ _ _ fun j hj => ?_
  rw [hSupport, Finset.mem_erase, Finsupp.mem_support_iff] at hj
  rw [Finsupp.erase_ne hj.1]
  exact hLeast j hj.2

theorem card_support_evict {victim : α} (hHeld : m victim ≠ 0) (hAbsent : m k = 0) :
    (m.erase victim + single k 1).support.card = m.support.card := by
  classical
  have hNe : k ≠ victim := fun h => hHeld (h ▸ hAbsent)
  have hSupport : (m.erase victim + single k 1).support = insert k (m.support.erase victim) := by
    ext j
    rcases eq_or_ne j k with rfl | hj
    · simp
    · rcases eq_or_ne j victim with rfl | hv
      · simp [hj]
      · simp [hj, hv, Finsupp.single_eq_of_ne hj]
  have hPositive : 0 < m.support.card := Finset.card_pos.mpr ⟨victim, Finsupp.mem_support_iff.mpr hHeld⟩
  rw [hSupport, Finset.card_insert_of_notMem (by simp [hNe, hAbsent]),
    Finset.card_erase_of_mem (Finsupp.mem_support_iff.mpr hHeld)]
  omega

variable (capacity m k) in
/-- The accounts of the key `k`: its own accesses, those of the other keys, how
often its counter was taken and how much it had counted then. While it has no
counter in a full table, the access that took the last one is still unpaid. -/
structure Balance (own foreign evictions lost : ℕ) : Prop where
  total : own = lost + m k
  unpaid : others k m + evictions ≤
    foreign + if m k = 0 ∧ m.support.card = capacity then 1 else 0
  fewer : evictions ≤ foreign
  charged : (capacity - 1) * lost ≤ evictions * (foreign - evictions)

section Steps

variable {own foreign evictions lost : ℕ}

theorem Balance.own_step (h : Balance capacity m k own foreign evictions lost)
    (hAccess : Access capacity m k m') : Balance capacity m' k (own + 1) foreign evictions lost := by
  have hPaid : ∀ m'' : α →₀ ℕ, m'' k ≠ 0 → ¬ (m'' k = 0 ∧ m''.support.card = capacity) :=
    fun _ hHeld hBoth => hHeld hBoth.1
  have hSelf : (m + single k 1 : α →₀ ℕ) k = m k + 1 := by simp
  have hOwn := h.total
  have hOthers := h.unpaid
  cases hAccess with
  | hit hPresent =>
    rw [if_neg (hPaid m hPresent)] at hOthers
    refine ⟨by omega, ?_, h.fewer, h.charged⟩
    rw [others_add_single_self, if_neg (hPaid _ (by omega))]
    exact hOthers
  | fill hAbsent hRoom =>
    rw [if_neg (fun hBoth => hRoom.ne hBoth.2)] at hOthers
    refine ⟨by omega, ?_, h.fewer, h.charged⟩
    rw [others_add_single_self, if_neg (hPaid _ (by omega))]
    exact hOthers
  | evict victim hAbsent hFull hHeld hLeast =>
    have hNe : k ≠ victim := fun hSame => hHeld (hSame ▸ hAbsent)
    have hErased : (m.erase victim) k = 0 := by rw [Finsupp.erase_ne hNe, hAbsent]
    have hNew : (m.erase victim + single k 1 : α →₀ ℕ) k = 1 := by simp [hErased]
    have hTaken := others_add victim m
    rw [if_pos ⟨hAbsent, hFull⟩, others_of_absent hAbsent] at hOthers
    refine ⟨by omega, ?_, h.fewer, h.charged⟩
    rw [others_add_single_self, others_of_absent hErased, if_neg (hPaid _ (by omega))]
    have hRest : (m.erase victim).degree = others victim m := rfl
    omega

theorem Balance.foreign_step (h : Balance capacity m k own foreign evictions lost) (hKey : key ≠ k)
    (hAccess : Access capacity m key m') :
    ∃ evictions' lost', Balance capacity m' k own (foreign + 1) evictions' lost' := by
  have hMore : evictions * (foreign - evictions) ≤ evictions * (foreign + 1 - evictions) :=
    Nat.mul_le_mul_left _ (by omega)
  have hEvictions := h.fewer
  have hOwn := h.total
  have hOthers := h.unpaid
  cases hAccess with
  | hit hPresent =>
    have hSame : (m + single key 1 : α →₀ ℕ) k = m k := by simp [hKey]
    have hSupport : (m + single key 1).support = m.support := by
      ext j
      rcases eq_or_ne j key with rfl | hj
      · simp [hPresent]
      · simp [Finsupp.single_eq_of_ne hj]
    refine ⟨evictions, lost, by rw [hSame]; exact hOwn, ?_, by omega, h.charged.trans hMore⟩
    rw [others_add_single_of_ne hKey, hSame, hSupport]
    omega
  | fill hAbsent hRoom =>
    have hSame : (m + single key 1 : α →₀ ℕ) k = m k := by simp [hKey]
    rw [if_neg (fun hBoth => hRoom.ne hBoth.2)] at hOthers
    refine ⟨evictions, lost, by rw [hSame]; exact hOwn, ?_, by omega, h.charged.trans hMore⟩
    rw [others_add_single_of_ne hKey]
    omega
  | evict victim hAbsent hFull hHeld hLeast =>
    have hCard := (card_support_evict hHeld hAbsent).trans hFull
    have hTaken := others_add victim m
    rcases eq_or_ne k victim with rfl | hNe
    · -- the counter of `k` goes: what it had counted is charged to this eviction
      have hGone : (m.erase k + single key 1 : α →₀ ℕ) k = 0 := by simp [hKey]
      have hWeight := mul_le_others hHeld hLeast
      rw [if_neg (fun hBoth => hHeld hBoth.1)] at hOthers
      rw [hFull] at hWeight
      refine ⟨evictions + 1, lost + m k, by rw [hGone]; exact hOwn, ?_, by omega, ?_⟩
      · rw [others_add_single_of_ne hKey, if_pos ⟨hGone, hCard⟩, others_of_absent (by simp)]
        have hRest : (m.erase k).degree = others k m := rfl
        omega
      · have hUnits : foreign + 1 - (evictions + 1) = foreign - evictions := by omega
        calc
          (capacity - 1) * (lost + m k) = (capacity - 1) * lost + (capacity - 1) * m k := Nat.mul_add _ _ _
          _ ≤ evictions * (foreign - evictions) + (foreign - evictions) :=
            Nat.add_le_add h.charged (hWeight.trans (by omega))
          _ = (evictions + 1) * (foreign + 1 - (evictions + 1)) := by rw [hUnits, Nat.succ_mul]
    · have hSame : (m.erase victim + single key 1 : α →₀ ℕ) k = m k := by
        simp [hKey, Finsupp.erase_ne hNe]
      have hErased : others k (m.erase victim) + m victim = others k m := by
        have hLeft := others_add k (m.erase victim)
        have hRight := others_add k m
        have hRest : (m.erase victim).degree = others victim m := rfl
        rw [Finsupp.erase_ne hNe] at hLeft
        omega
      refine ⟨evictions, lost, by rw [hSame]; exact hOwn, ?_, by omega, h.charged.trans hMore⟩
      rw [others_add_single_of_ne hKey, hSame, hCard]
      rw [hFull] at hOthers
      omega

end Steps

variable [DecidableEq α]

theorem Run.balance {keys : List α} (h : Run capacity keys m) (k : α) :
    ∃ evictions lost,
      Balance capacity m k (keys.countP (· = k)) (keys.countP (· ≠ k)) evictions lost := by
  induction h with
  | nil => exact ⟨0, 0, by simp, by simp [others], Nat.le_refl 0, by simp⟩
  | @snoc keys m m' key earlier access ih =>
    obtain ⟨evictions, lost, hBalance⟩ := ih
    rcases eq_or_ne key k with rfl | hKey
    · refine ⟨evictions, lost, ?_⟩
      have hStep := hBalance.own_step access
      simpa [List.countP_append] using hStep
    · obtain ⟨evictions', lost', hStep⟩ := hBalance.foreign_step hKey access
      refine ⟨evictions', lost', ?_⟩
      simpa [List.countP_append, hKey] using hStep

/-- A key whose accesses outweigh the square of those of the others has a
counter. -/
theorem Run.held {keys : List α} (h : Run capacity keys m) {k : α}
    (hOften : keys.countP (· ≠ k) ^ 2 < 4 * (capacity - 1) * keys.countP (· = k)) : m k ≠ 0 := by
  obtain ⟨evictions, lost, hBalance⟩ := h.balance k
  intro hAbsent
  have hOwn : keys.countP (· = k) = lost := by
    have hSum := hBalance.total
    omega
  have hSplit : evictions + (keys.countP (· ≠ k) - evictions) = keys.countP (· ≠ k) :=
    Nat.add_sub_cancel' hBalance.fewer
  have hSquare := four_mul_le_sq_add evictions (keys.countP (· ≠ k) - evictions)
  rw [hSplit, mul_assoc] at hSquare
  have hLost := Nat.mul_le_mul_left 4 hBalance.charged
  rw [← hOwn, ← mul_assoc] at hLost
  omega

end HttpMonitoring.Library.CounterTable
