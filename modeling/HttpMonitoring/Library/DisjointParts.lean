import Mathlib

/-!
# Writers of separate parts

A state has parts that are looked at one by one, and each writer depends on one
part and changes only this part. Runs that have the same writers of each part in
the same order agree.
-/

namespace HttpMonitoring.Library.DisjointParts

variable {σ ι : Type*} {V : ι → Type*}

structure Writer (get : ∀ i, σ → V i) where
  part : ι
  run : σ → σ
  keeps : ∀ i s, i ≠ part → get i (run s) = get i s
  own : ∀ s t, get part s = get part t → get part (run s) = get part (run t)

namespace Writer

variable {get : ∀ i, σ → V i}

def runAll (writers : List (Writer get)) (s : σ) : σ := writers.foldl (fun s x => x.run s) s

theorem runAll_append (first second : List (Writer get)) (s : σ) :
    runAll (first ++ second) s = runAll second (runAll first s) :=
  List.foldl_append

theorem get_runAll_congr {writers : List (Writer get)} {i : ι} {s t : σ} (h : get i s = get i t) :
    get i (runAll writers s) = get i (runAll writers t) := by
  induction writers generalizing s t with
  | nil => exact h
  | cons x writers ih =>
    refine ih ?_
    by_cases hPart : i = x.part
    · subst hPart
      exact x.own s t h
    · rw [x.keeps i s hPart, x.keeps i t hPart, h]

theorem get_runAll_of_notMem {writers : List (Writer get)} {i : ι} (h : i ∉ writers.map Writer.part) (s : σ) :
    get i (runAll writers s) = get i s := by
  induction writers generalizing s with
  | nil => rfl
  | cons x writers ih =>
    obtain ⟨hFirst, hRest⟩ := not_or.mp (mt List.mem_cons.mpr h)
    exact (ih hRest (x.run s)).trans (x.keeps i s hFirst)

/-- A writer that is the only one of its part has run alone, as far as this part
goes. -/
theorem get_runAll_of_mem {writers : List (Writer get)} (hParts : (writers.map Writer.part).Nodup) {x : Writer get}
    (hMem : x ∈ writers) (s : σ) : get x.part (runAll writers s) = get x.part (x.run s) := by
  obtain ⟨before, behind, rfl⟩ := List.append_of_mem hMem
  rw [List.map_append, List.map_cons] at hParts
  obtain ⟨hBefore, hBehind⟩ := (List.nodup_middle.mp hParts |> List.nodup_cons.mp).1 |> mt List.mem_append.mpr |>
    not_or.mp
  have hFront : get x.part (runAll before s) = get x.part s := get_runAll_of_notMem hBefore s
  rw [runAll_append]
  exact (get_runAll_of_notMem hBehind _).trans (x.own _ _ hFront)

section Filter

variable [DecidableEq ι]

/-- Only the writers of a part count for it. -/
theorem get_runAll_filter (writers : List (Writer get)) (i : ι) (s : σ) :
    get i (runAll writers s) = get i (runAll (writers.filter fun x => x.part = i) s) := by
  induction writers generalizing s with
  | nil => rfl
  | cons x writers ih =>
    by_cases h : x.part = i
    · rw [List.filter_cons_of_pos (by simpa using h)]
      exact ih (x.run s)
    · rw [List.filter_cons_of_neg (by simpa using h)]
      exact (ih (x.run s)).trans (get_runAll_congr (x.keeps i s (Ne.symm h)))

/-- Runs with the same writers of each part end alike. -/
theorem runAll_eq (hParts : ∀ s t, (∀ i, get i s = get i t) → s = t) {writers writers' : List (Writer get)}
    (h : ∀ i, (writers.filter fun x => x.part = i) = writers'.filter fun x => x.part = i) (s : σ) :
    runAll writers s = runAll writers' s := by
  refine hParts _ _ fun i => ?_
  have hLeft := get_runAll_filter writers i s
  have hRight := get_runAll_filter writers' i s
  rw [h i] at hLeft
  exact hLeft.trans hRight.symm

end Filter

end Writer

end HttpMonitoring.Library.DisjointParts
