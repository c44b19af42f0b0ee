import Mathlib

/-!
# Workers over shared memory, one atomic step at a time

A label names the worker that moves and the step it takes. A run is guarded
when every step is taken in a state that meets the guard, and an invariant
only has to survive the guarded steps.
-/

namespace HttpMonitoring.Library.Interleaving

section Runs

variable {S L : Type*} (step : S → L → Option S)

/-- Executes the labels in order as long as every step meets the guard. -/
def run (guard : S → L → Prop) [∀ s l, Decidable (guard s l)] : S → List L → Option S
  | s, [] => some s
  | s, l :: ls => if guard s l then (step s l).bind fun t => run guard t ls else none

inductive Reaches (guard : S → L → Prop) (start : S) : S → Prop
  | start : Reaches guard start start
  | next {s t : S} {l : L} (earlier : Reaches guard start s) (allowed : guard s l)
      (moves : step s l = some t) : Reaches guard start t

variable {step}

theorem Reaches.invariant {guard : S → L → Prop} {start : S} {P : S → Prop} (hStart : P start)
    (hStep : ∀ s l t, P s → guard s l → step s l = some t → P t) {s : S}
    (h : Reaches step guard start s) : P s := by
  induction h with
  | start => exact hStart
  | next _ hGuard hMoves ih => exact hStep _ _ _ ih hGuard hMoves

theorem Reaches.mono {guard guard' : S → L → Prop} (hGuard : ∀ s l, guard s l → guard' s l)
    {start s : S} (h : Reaches step guard start s) : Reaches step guard' start s := by
  induction h with
  | start => exact .start
  | next _ hAllowed hMoves ih => exact .next ih (hGuard _ _ hAllowed) hMoves

theorem Reaches.trans {guard : S → L → Prop} {start middle s : S}
    (hFirst : Reaches step guard start middle) (hRest : Reaches step guard middle s) :
    Reaches step guard start s := by
  induction hRest with
  | start => exact hFirst
  | next _ hAllowed hMoves ih => exact .next ih hAllowed hMoves

/-- A run whose steps are matched by at most one step each is matched as a whole. -/
theorem Reaches.simulate {S' L' : Type*} {step' : S' → L' → Option S'} {guard : S → L → Prop}
    {guard' : S' → L' → Prop} {R : S → S' → Prop} {start : S} {start' : S'} (hStart : R start start')
    (hStep : ∀ s l t s', R s s' → guard s l → step s l = some t →
      R t s' ∨ ∃ l' t', guard' s' l' ∧ step' s' l' = some t' ∧ R t t') {s : S}
    (h : Reaches step guard start s) : ∃ s', Reaches step' guard' start' s' ∧ R s s' := by
  induction h with
  | start => exact ⟨start', .start, hStart⟩
  | next _ hAllowed hMoves ih =>
    obtain ⟨s', hReaches, hRelated⟩ := ih
    rcases hStep _ _ _ s' hRelated hAllowed hMoves with hSame | ⟨l', t', hGuard, hMoves', hNext⟩
    · exact ⟨s', hReaches, hSame⟩
    · exact ⟨t', .next hReaches hGuard hMoves', hNext⟩

theorem Reaches.of_run {guard : S → L → Prop} [∀ s l, Decidable (guard s l)] {start s : S}
    {labels : List L} (h : run step guard start labels = some s) : Reaches step guard start s := by
  suffices hAll : ∀ (labels : List L) (t : S), Reaches step guard start t →
      run step guard t labels = some s → Reaches step guard start s from
    hAll labels start .start h
  intro labels
  induction labels with
  | nil =>
    intro t hReach hRun
    obtain rfl : t = s := Option.some.inj hRun
    exact hReach
  | cons l labels ih =>
    intro t hReach hRun
    rw [run] at hRun
    split at hRun
    · rename_i hGuard
      obtain ⟨u, hMoves, hRest⟩ := Option.bind_eq_some_iff.mp hRun
      exact ih u (.next hReach hGuard hMoves) hRest
    · cases hRun

end Runs

theorem sum_update_add {ι κ M : Type*} [DecidableEq ι] [AddCommMonoid M] {cells : Finset ι} {i : ι}
    (hi : i ∈ cells) (g : κ → M) (f : ι → κ) (v : κ) (amount : M) (h : g v = g (f i) + amount) :
    ∑ j ∈ cells, g (Function.update f i v j) = ∑ j ∈ cells, g (f j) + amount := by
  have hRest : ∑ j ∈ cells.erase i, g (Function.update f i v j) = ∑ j ∈ cells.erase i, g (f j) := by
    apply Finset.sum_congr rfl
    intro j hj
    rw [Function.update_of_ne (Finset.ne_of_mem_erase hj)]
  rw [← Finset.add_sum_erase _ _ hi, hRest, Function.update_self, h, ← Finset.add_sum_erase _ _ hi]
  ac_rfl

/-- Shared memory and the local state of every worker. -/
structure Config (ι σ ℓ : Type*) where
  shared : σ
  phase : ι → ℓ

namespace Config

variable {ι σ ℓ M : Type*} [DecidableEq ι]

def put (c : Config ι σ ℓ) (i : ι) (l : ℓ) (s : σ) : Config ι σ ℓ where
  shared := s
  phase := Function.update c.phase i l

@[simp] theorem put_shared (c : Config ι σ ℓ) (i : ι) (l : ℓ) (s : σ) : (c.put i l s).shared = s := rfl

@[simp] theorem put_phase_self (c : Config ι σ ℓ) (i : ι) (l : ℓ) (s : σ) :
    (c.put i l s).phase i = l := by
  simp [put]

theorem put_phase_of_ne (c : Config ι σ ℓ) {i j : ι} (l : ℓ) (s : σ) (h : j ≠ i) :
    (c.put i l s).phase j = c.phase j := by
  simp [put, h]

theorem put_put (c : Config ι σ ℓ) (i : ι) (l l' : ℓ) (s s' : σ) :
    (c.put i l s).put i l' s' = c.put i l' s' := by
  simp [put]

theorem forall_put {P : ι → ℓ → Prop} {c : Config ι σ ℓ} {i : ι} {l : ℓ} {s : σ}
    (hSelf : P i l) (hOther : ∀ j, j ≠ i → P j (c.phase j)) (j : ι) : P j ((c.put i l s).phase j) := by
  by_cases hj : j = i
  · subst hj
    rwa [put_phase_self]
  · rw [put_phase_of_ne c l s hj]
    exact hOther j hj

variable [Fintype ι] [AddCommMonoid M]

/-- What the shared memory records together with what the workers still owe. -/
def balance (value : σ → M) (due : ℓ → M) (c : Config ι σ ℓ) : M :=
  value c.shared + ∑ i, due (c.phase i)

omit [DecidableEq ι] in
theorem balance_of_idle {value : σ → M} {due : ℓ → M} {c : Config ι σ ℓ}
    (h : ∀ i, due (c.phase i) = 0) : c.balance value due = value c.shared := by
  simp [balance, h]

theorem balance_put (value : σ → M) (due : ℓ → M) (c : Config ι σ ℓ) (i : ι) (l : ℓ) (s : σ)
    (amount : M) (h : value s + due l = value c.shared + due (c.phase i) + amount) :
    (c.put i l s).balance value due = c.balance value due + amount := by
  have hRest : ∑ j ∈ Finset.univ.erase i, due ((c.put i l s).phase j) =
      ∑ j ∈ Finset.univ.erase i, due (c.phase j) := by
    apply Finset.sum_congr rfl
    intro j hj
    rw [put_phase_of_ne c l s (Finset.ne_of_mem_erase hj)]
  calc
    (c.put i l s).balance value due
        = value s + due l + ∑ j ∈ Finset.univ.erase i, due (c.phase j) := by
          rw [balance, put_shared, ← Finset.add_sum_erase _ _ (Finset.mem_univ i), hRest,
            put_phase_self, add_assoc]
    _ = value c.shared + due (c.phase i) + amount + ∑ j ∈ Finset.univ.erase i, due (c.phase j) := by
          rw [h]
    _ = c.balance value due + amount := by
          rw [balance, ← Finset.add_sum_erase _ _ (Finset.mem_univ i)]
          ac_rfl

theorem balance_put_same (value : σ → M) (due : ℓ → M) (c : Config ι σ ℓ) (i : ι) (l : ℓ) (s : σ)
    (h : value s + due l = value c.shared + due (c.phase i)) :
    (c.put i l s).balance value due = c.balance value due := by
  simpa using balance_put value due c i l s 0 (by simpa using h)

end Config

end HttpMonitoring.Library.Interleaving
