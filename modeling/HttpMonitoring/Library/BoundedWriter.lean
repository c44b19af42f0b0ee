import Mathlib

/-!
# Writing into a bounded buffer

A writer appends to a buffer of fixed size. When the room does not suffice it
fails, and from then on it writes nothing. An action renders a text when it
either appends exactly this text or fails.
-/

namespace HttpMonitoring.Library.BoundedWriter

structure Output (α : Type*) where
  out : List α
  room : Nat
  failed : Bool
deriving DecidableEq

variable {α : Type*} {ok : Prop}

def Output.start (size : Nat) : Output α := ⟨[], size, false⟩

def Output.put (s : List α) (jw : Output α) : Output α :=
  { jw with out := jw.out ++ s, room := jw.room - s.length }

def Output.fail (jw : Output α) : Output α := { jw with failed := true }

/-- `f` appends exactly `s` or fails; under `ok` it fails only for want of
room, with a byte for a terminator and one to spare. -/
structure Renders (ok : Prop) (f : Output α → Output α) (s : List α) : Prop where
  sticky : ∀ jw, jw.failed = true → (f jw).failed = true
  emits : ∀ jw, (f jw).failed = false → (f jw).out = jw.out ++ s ∧ (f jw).room + s.length = jw.room
  fits : ok → ∀ jw, jw.failed = false → s.length + 1 < jw.room → (f jw).failed = false

namespace Renders

variable {f g : Output α → Output α} {s t : List α}

theorem notFailed (h : Renders ok f s) {jw : Output α} (hf : (f jw).failed = false) :
    jw.failed = false := by
  cases hFailed : jw.failed with
  | false => rfl
  | true => rw [h.sticky jw hFailed] at hf; exact hf

theorem skip : Renders ok (fun jw : Output α => jw) [] where
  sticky _ h := h
  emits jw _ := by simp
  fits _ _ h _ := h

theorem fail (hOk : ¬ ok) (s : List α) : Renders ok Output.fail s where
  sticky _ _ := rfl
  emits _ h := by cases h
  fits h := absurd h hOk

theorem comp (hf : Renders ok f s) (hg : Renders ok g t) :
    Renders ok (fun jw => g (f jw)) (s ++ t) where
  sticky jw h := hg.sticky _ (hf.sticky jw h)
  emits jw h := by
    obtain ⟨hOut, hRoom⟩ := hg.emits _ h
    obtain ⟨hOut', hRoom'⟩ := hf.emits jw (hg.notFailed h)
    refine ⟨by rw [hOut, hOut', List.append_assoc], ?_⟩
    rw [List.length_append]
    omega
  fits hOk jw h hRoom := by
    rw [List.length_append] at hRoom
    have hFirst := hf.fits hOk jw h (by omega)
    obtain ⟨-, hLeft⟩ := hf.emits jw hFirst
    exact hg.fits hOk _ hFirst (by omega)

theorem cast (h : Renders ok f s) (hText : s = t) : Renders ok f t := hText ▸ h

theorem congr (h : Renders ok f s) (hSame : ∀ jw, f jw = g jw) : Renders ok g s :=
  funext hSame ▸ h

/-- A call that either fails or appends the text, and appends it when there are
two bytes to spare. -/
theorem of_cases (hSticky : ∀ jw, jw.failed = true → f jw = jw)
    (hCases : ∀ jw, jw.failed = false → f jw = jw.fail ∨ (f jw = jw.put s ∧ s.length ≤ jw.room))
    (hSpare : ∀ jw, jw.failed = false → s.length + 1 < jw.room → f jw = jw.put s) : Renders ok f s where
  sticky jw h := by rw [hSticky jw h, h]
  emits jw h := by
    cases hFailed : jw.failed with
    | true => rw [hSticky jw hFailed, hFailed] at h; cases h
    | false =>
      rcases hCases jw hFailed with hFail | ⟨hPut, hRoom⟩
      · rw [hFail] at h; cases h
      · rw [hPut]
        exact ⟨rfl, Nat.sub_add_cancel hRoom⟩
  fits _ jw h hLess := by rw [hSpare jw h hLess]; exact h

theorem put (s : List α) : Renders ok
    (fun jw => if jw.failed then jw else if jw.room < s.length then jw.fail else jw.put s) s := by
  refine .of_cases (fun jw h => by simp [h]) (fun jw h => ?_) (fun jw h hSpare => ?_)
  · rcases Nat.lt_or_ge jw.room s.length with hLess | hRoom
    · exact Or.inl (by simp [h, hLess])
    · exact Or.inr ⟨by simp [h, Nat.not_lt.mpr hRoom], hRoom⟩
  · simp [h, show ¬ jw.room < s.length by omega]

theorem unlessFailed (h : Renders ok f s) :
    Renders ok (fun jw => if jw.failed then jw else f jw) s where
  sticky jw hFailed := by simp [hFailed]
  emits jw hf := by
    cases hFailed : jw.failed with
    | true => simp [hFailed] at hf
    | false =>
      rw [hFailed] at hf
      exact h.emits jw hf
  fits hOk jw hFailed hSpare := by
    rw [hFailed]
    exact h.fits hOk jw hFailed hSpare

theorem foldl {ι : Type*} {body : ι → Output α → Output α} {text : ι → List α} (items : List ι)
    (h : ∀ i ∈ items, Renders ok (body i) (text i)) :
    Renders ok (fun jw => items.foldl (fun jw i => body i jw) jw) (items.flatMap text) := by
  induction items with
  | nil => exact skip
  | cons i items ih =>
    rw [List.flatMap_cons]
    exact (h i List.mem_cons_self).comp (ih fun j hj => h j (List.mem_cons_of_mem _ hj))

theorem out_start (h : Renders ok f s) {size : Nat} (hf : (f (.start size)).failed = false) :
    (f (.start size)).out = s := by
  rw [(h.emits _ hf).1, Output.start, List.nil_append]

theorem length_le (h : Renders ok f s) {size : Nat} (hf : (f (.start size)).failed = false) :
    s.length ≤ size := by
  have hRoom := (h.emits _ hf).2
  simp only [Output.start] at hRoom
  omega

theorem fits_start (h : Renders ok f s) (hOk : ok) {size : Nat} (hSize : s.length + 1 < size) :
    (f (.start size)).failed = false :=
  h.fits hOk _ rfl hSize

end Renders

end HttpMonitoring.Library.BoundedWriter
