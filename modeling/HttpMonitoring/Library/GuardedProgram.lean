import Mathlib

/-!
# Programs of single accesses to guarded cells

A program loads and stores the cells of a memory one at a time while others
write to the rest of the memory. Alone with its cells it yields what it would
have yielded in between the others, for some readings of the rest.
-/

namespace HttpMonitoring.Library.GuardedProgram

/-- The cells of a memory, and a part of it that no access through them changes. -/
structure Memory (σ κ v γ : Type*) [DecidableEq κ] where
  get : σ → κ → v
  set : κ → v → σ → σ
  frame : σ → γ
  get_set : ∀ c x s, get (set c x s) = Function.update (get s) c x
  frame_set : ∀ c x s, frame (set c x s) = frame s

variable {σ κ v γ ρ : Type*} [DecidableEq κ]

/-- A write that leaves the cells and the frame alone. -/
structure Outside (M : Memory σ κ v γ) where
  apply : σ → σ
  get_apply : ∀ s, M.get (apply s) = M.get s
  frame_apply : ∀ s, M.frame (apply s) = M.frame s

def Outside.nothing (M : Memory σ κ v γ) : Outside M := ⟨id, fun _ => rfl, fun _ => rfl⟩

/-- An input reads outside of the cells; an atomic addition there also changes
what it reads. -/
inductive Program (M : Memory σ κ v γ) (ρ : Type*)
  | ret (r : ρ)
  | load (c : κ) (next : v → Program M ρ)
  | store (c : κ) (x : v) (next : Program M ρ)
  | input (read : σ → v) (change : Outside M) (next : v → Program M ρ)
  | write (change : Outside M) (next : Program M ρ)

namespace Program

variable {M : Memory σ κ v γ}

def step : Program M ρ → σ → ρ ⊕ (Program M ρ × σ)
  | .ret r, _ => .inl r
  | .load c next, s => .inr (next (M.get s c), s)
  | .store c x next, s => .inr (next, M.set c x s)
  | .input read change next, s => .inr (next (read s), change.apply s)
  | .write change next, s => .inr (next, change.apply s)

/-- All accesses without anything in between. -/
def alone : Program M ρ → σ → σ × ρ
  | .ret r, s => (s, r)
  | .load c next, s => (next (M.get s c)).alone s
  | .store c x next, s => next.alone (M.set c x s)
  | .input read change next, s => (next (read s)).alone (change.apply s)
  | .write change next, s => next.alone (change.apply s)

/-- Started on these cells the program may end with those cells and a result. -/
def Yields : Program M ρ → (κ → v) → (κ → v) → ρ → Prop
  | .ret r, cells, left, result => left = cells ∧ result = r
  | .load c next, cells, left, result => (next (cells c)).Yields cells left result
  | .store c x next, cells, left, result => next.Yields (Function.update cells c x) left result
  | .input _ _ next, cells, left, result => ∃ x, (next x).Yields cells left result
  | .write _ next, cells, left, result => next.Yields cells left result

theorem yields_alone (p : Program M ρ) (s : σ) :
    p.Yields (M.get s) (M.get (p.alone s).1) (p.alone s).2 := by
  induction p generalizing s with
  | ret r => exact ⟨rfl, rfl⟩
  | load c next ih => exact ih (M.get s c) s
  | store c x next ih =>
    have hRest := ih (M.set c x s)
    rwa [M.get_set] at hRest
  | input read change next ih =>
    have hRest := ih (read s) (change.apply s)
    rw [change.get_apply] at hRest
    exact ⟨read s, hRest⟩
  | write change next ih =>
    have hRest := ih (change.apply s)
    rwa [change.get_apply] at hRest

theorem yields_of_step {p p' : Program M ρ} {s s' : σ} (hStep : p.step s = .inr (p', s'))
    {left : κ → v} {result : ρ} (h : p'.Yields (M.get s') left result) :
    p.Yields (M.get s) left result := by
  cases p with
  | ret r => cases hStep
  | load c next =>
    obtain ⟨rfl, rfl⟩ := Prod.mk.inj (Sum.inr.inj hStep)
    exact h
  | store c x next =>
    obtain ⟨rfl, rfl⟩ := Prod.mk.inj (Sum.inr.inj hStep)
    rwa [M.get_set] at h
  | input read change next =>
    obtain ⟨rfl, rfl⟩ := Prod.mk.inj (Sum.inr.inj hStep)
    rw [change.get_apply] at h
    exact ⟨read s, h⟩
  | write change next =>
    obtain ⟨rfl, rfl⟩ := Prod.mk.inj (Sum.inr.inj hStep)
    rwa [change.get_apply] at h

theorem frame_step {p p' : Program M ρ} {s s' : σ} (hStep : p.step s = .inr (p', s')) :
    M.frame s' = M.frame s := by
  cases p with
  | ret r => cases hStep
  | load c next =>
    obtain ⟨rfl, rfl⟩ := Prod.mk.inj (Sum.inr.inj hStep)
    rfl
  | store c x next =>
    obtain ⟨rfl, rfl⟩ := Prod.mk.inj (Sum.inr.inj hStep)
    exact M.frame_set c x s
  | input read change next =>
    obtain ⟨rfl, rfl⟩ := Prod.mk.inj (Sum.inr.inj hStep)
    exact change.frame_apply s
  | write change next =>
    obtain ⟨rfl, rfl⟩ := Prod.mk.inj (Sum.inr.inj hStep)
    exact change.frame_apply s

theorem yields_of_result {p : Program M ρ} {s : σ} {r : ρ} (hStep : p.step s = .inl r) :
    p.Yields (M.get s) (M.get s) r := by
  cases p with
  | ret r' => exact ⟨rfl, (Sum.inl.inj hStep).symm⟩
  | load c next => cases hStep
  | store c x next => cases hStep
  | input read change next => cases hStep
  | write change next => cases hStep

variable [Add v]

def sum (cells : List (σ → v)) (total : v) (next : v → Program M ρ) : Program M ρ :=
  match cells with
  | [] => next total
  | cell :: cells => .input cell (.nothing M) fun x => sum cells (total + x) next

theorem yields_sum {cells : List (σ → v)} {total : v} {next : v → Program M ρ}
    {base left : κ → v} {result : ρ} (h : (sum cells total next).Yields base left result) :
    ∃ x, (next x).Yields base left result := by
  induction cells generalizing total with
  | nil => exact ⟨total, h⟩
  | cons cell cells ih =>
    obtain ⟨x, hRest⟩ := h
    exact ih hRest

theorem alone_sum (cells : List (σ → v)) (total : v) (next : v → Program M ρ) (s : σ) :
    (sum cells total next).alone s = (next (cells.foldl (fun x cell => x + cell s) total)).alone s := by
  induction cells generalizing total with
  | nil => rfl
  | cons cell cells ih => exact ih (total + cell s)

end Program

end HttpMonitoring.Library.GuardedProgram
