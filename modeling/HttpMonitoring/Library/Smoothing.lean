import Mathlib

/-!
# Smoothed series

A running average follows a series of rates. Each step either takes the rate
over or mixes it with the average before by a weighted mean that is cut off to
a natural number.
-/

namespace HttpMonitoring.Library.Smoothing

def mean (a b x y : Nat) : Nat := (a * x + b * y) / (a + b)

theorem min_le_mean {a b : Nat} (h : 0 < a + b) (x y : Nat) : min x y ≤ mean a b x y := by
  rw [mean, Nat.le_div_iff_mul_le h, Nat.mul_comm, Nat.add_mul]
  exact Nat.add_le_add (Nat.mul_le_mul_left a (min_le_left x y)) (Nat.mul_le_mul_left b (min_le_right x y))

theorem mean_le_max (a b x y : Nat) : mean a b x y ≤ max x y := by
  refine Nat.div_le_of_le_mul ?_
  rw [Nat.add_mul]
  exact Nat.add_le_add (Nat.mul_le_mul_left a (le_max_left x y)) (Nat.mul_le_mul_left b (le_max_right x y))

theorem mean_self {a b : Nat} (h : 0 < a + b) (x : Nat) : mean a b x x = x := by
  rw [mean, ← Nat.add_mul, Nat.mul_div_cancel_left x h]

theorem mean_zero_lt {a b x : Nat} (hb : 0 < b) (hx : 0 < x) : mean a b x 0 < x := by
  rw [mean, Nat.mul_zero, Nat.add_zero, Nat.div_lt_iff_lt_mul (Nat.add_pos_right a hb), Nat.mul_comm x,
    Nat.add_mul]
  exact Nat.lt_add_of_pos_right (Nat.mul_pos hb hx)

structure Step where
  before : Nat
  rate : Nat
  after : Nat
deriving DecidableEq

/-- The first step and every restart take the rate over. -/
structure Follows (a b : Nat) (steps : List Step) : Prop where
  start : ∀ s, steps.head? = some s → s.before = 0 ∧ s.after = s.rate
  linked : steps.IsChain fun s t => t.before = s.after
  mixes : ∀ s ∈ steps, s.after = s.rate ∨ s.after = mean a b s.before s.rate

/-- The average stays within what was measured, keeps a constant rate and dies
out without one. -/
structure Smoothed (steps : List Step) : Prop where
  within : ∀ s ∈ steps, min s.before s.rate ≤ s.after ∧ s.after ≤ max s.before s.rate
  bounded : ∀ n s, steps[n]? = some s → ∃ t ∈ steps.take (n + 1), s.after ≤ t.rate
  fixed : ∀ s ∈ steps, s.rate = s.before → s.after = s.before
  constant : ∀ r, (∀ s ∈ steps, s.rate = r) → ∀ s ∈ steps, s.after = r
  falls : ∀ s ∈ steps, s.rate = 0 → 0 < s.before → s.after < s.before
  dies : ∀ n m (s t : Step), steps[n]? = some s → steps[n + m]? = some t →
    (∀ i (u : Step), n < i → i ≤ n + m → steps[i]? = some u → u.rate = 0) → t.after ≤ s.after - m

namespace Follows

variable {a b : Nat} {steps : List Step} (h : Follows a b steps)
include h

theorem before_eq {n : Nat} {s t : Step} (hs : steps[n]? = some s) (ht : steps[n + 1]? = some t) :
    t.before = s.after := by
  obtain ⟨hn, rfl⟩ := List.getElem?_eq_some_iff.mp hs
  obtain ⟨hn', rfl⟩ := List.getElem?_eq_some_iff.mp ht
  exact List.isChain_iff_getElem.mp h.linked n hn'

theorem within (hWeights : 0 < a + b) {s : Step} (hs : s ∈ steps) :
    min s.before s.rate ≤ s.after ∧ s.after ≤ max s.before s.rate := by
  rcases h.mixes s hs with hTaken | hMixed
  · rw [hTaken]
    exact ⟨min_le_right _ _, le_max_right _ _⟩
  · rw [hMixed]
    exact ⟨min_le_mean hWeights _ _, mean_le_max a b _ _⟩

theorem bounded (hWeights : 0 < a + b) {n : Nat} {s : Step} (hs : steps[n]? = some s) :
    ∃ t ∈ steps.take (n + 1), s.after ≤ t.rate := by
  induction n generalizing s with
  | zero =>
    have hFirst := (h.start s (List.head?_eq_getElem? ▸ hs)).2
    obtain ⟨hn, rfl⟩ := List.getElem?_eq_some_iff.mp hs
    exact ⟨steps[0], List.mem_take_iff_getElem.mpr ⟨0, by simpa using hn, rfl⟩, hFirst.le⟩
  | succ n ih =>
    obtain ⟨hn, hIndex⟩ := List.getElem?_eq_some_iff.mp hs
    have hPrevious : steps[n]? = some steps[n] := List.getElem?_eq_getElem (Nat.lt_of_succ_lt hn)
    have hMax := (h.within hWeights (hIndex ▸ List.getElem_mem hn)).2
    rcases le_max_iff.mp hMax with hBefore | hRate
    · obtain ⟨t, ht, hLe⟩ := ih hPrevious
      rw [h.before_eq hPrevious hs] at hBefore
      exact ⟨t, List.take_subset_take_left steps (Nat.le_succ (n + 1)) ht, hBefore.trans hLe⟩
    · exact ⟨s, List.mem_take_iff_getElem.mpr ⟨n + 1, by omega, hIndex⟩, hRate⟩

theorem fixed (hWeights : 0 < a + b) {s : Step} (hs : s ∈ steps) (hRate : s.rate = s.before) :
    s.after = s.before := by
  rcases h.mixes s hs with hTaken | hMixed
  · exact hTaken.trans hRate
  · rw [hMixed, hRate, mean_self hWeights]

theorem constant (hWeights : 0 < a + b) {r : Nat} (hRates : ∀ s ∈ steps, s.rate = r) {n : Nat} {s : Step}
    (hs : steps[n]? = some s) : s.after = r := by
  have hMem : s ∈ steps := List.mem_of_getElem? hs
  induction n generalizing s with
  | zero => exact (h.start s (List.head?_eq_getElem? ▸ hs)).2.trans (hRates s hMem)
  | succ n ih =>
    have hn : n < steps.length := Nat.lt_of_succ_lt (List.getElem?_eq_some_iff.mp hs).1
    have hPrevious : steps[n]? = some steps[n] := List.getElem?_eq_getElem hn
    have hBefore : s.before = r := (h.before_eq hPrevious hs).trans (ih hPrevious (List.getElem_mem hn))
    exact (h.fixed hWeights hMem ((hRates s hMem).trans hBefore.symm)).trans hBefore

theorem falls (hWeight : 0 < b) {s : Step} (hs : s ∈ steps) (hRate : s.rate = 0) (hBefore : 0 < s.before) :
    s.after < s.before := by
  rcases h.mixes s hs with hTaken | hMixed
  · omega
  · rw [hMixed, hRate]
    exact mean_zero_lt hWeight hBefore

theorem dies (hWeight : 0 < b) {n m : Nat} {s t : Step} (hs : steps[n]? = some s)
    (ht : steps[n + m]? = some t)
    (hRates : ∀ i u, n < i → i ≤ n + m → steps[i]? = some u → u.rate = 0) : t.after ≤ s.after - m := by
  induction m generalizing t with
  | zero => rw [Option.some.inj (hs.symm.trans ht), Nat.sub_zero]
  | succ m ih =>
    have hn : n + m < steps.length := Nat.lt_of_succ_lt (List.getElem?_eq_some_iff.mp ht).1
    have hPrevious : steps[n + m]? = some steps[n + m] := List.getElem?_eq_getElem hn
    have hEarlier := ih hPrevious fun i u hi hi' => hRates i u hi (by omega)
    have hBefore := h.before_eq hPrevious ht
    have hRate := hRates (n + (m + 1)) t (by omega) le_rfl ht
    have hMem : t ∈ steps := List.mem_of_getElem? ht
    have hMax := (h.within (Nat.add_pos_right a hWeight) hMem).2
    rcases Nat.eq_zero_or_pos t.before with hZero | hSome
    · omega
    · have hLess := h.falls hWeight hMem hRate hSome
      omega

theorem smoothed (hWeight : 0 < b) : Smoothed steps := by
  have hWeights : 0 < a + b := Nat.add_pos_right a hWeight
  refine ⟨fun s hs => h.within hWeights hs, fun n s hs => h.bounded hWeights hs,
    fun s hs => h.fixed hWeights hs, fun r hRates s hs => ?_, fun s hs => h.falls hWeight hs,
    fun n m s t hs ht => h.dies hWeight hs ht⟩
  obtain ⟨n, hn⟩ := List.mem_iff_getElem?.mp hs
  exact h.constant hWeights hRates hn

end Follows

end HttpMonitoring.Library.Smoothing
