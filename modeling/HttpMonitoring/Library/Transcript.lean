import Mathlib

/-!
# Transcripts

A transcript lists what was done, oldest first. A call continues it; what the
call adds is known by its kind.
-/

namespace HttpMonitoring.Library.Transcript

variable {ε : Type*} {P Q : ε → Prop} {r s t : List ε}

/-- `t` is `s` continued by entries of the kind `P`. -/
def Continues (P : ε → Prop) (s t : List ε) : Prop := ∃ new, t = s ++ new ∧ ∀ e ∈ new, P e

namespace Continues

@[refl] theorem refl (P : ε → Prop) (s : List ε) : Continues P s s := ⟨[], by simp⟩

theorem one (s : List ε) {e : ε} (h : P e) : Continues P s (s ++ [e]) := ⟨[e], rfl, by simpa using h⟩

theorem trans (h : Continues P r s) (h' : Continues P s t) : Continues P r t := by
  obtain ⟨new, rfl, hNew⟩ := h
  obtain ⟨new', rfl, hNew'⟩ := h'
  refine ⟨new ++ new', List.append_assoc r new new', fun e he => ?_⟩
  rcases List.mem_append.mp he with he | he
  · exact hNew e he
  · exact hNew' e he

theorem mono (h : Continues P s t) (hImp : ∀ e, P e → Q e) : Continues Q s t := by
  obtain ⟨new, rfl, hNew⟩ := h
  exact ⟨new, rfl, fun e he => hImp e (hNew e he)⟩

theorem filter_eq {q : ε → Bool} (h : Continues P s t) (hNot : ∀ e, P e → q e = false) :
    t.filter q = s.filter q := by
  obtain ⟨new, rfl, hNew⟩ := h
  have hNone : new.filter q = [] := List.filter_eq_nil_iff.mpr fun e he => by simp [hNot e (hNew e he)]
  rw [List.filter_append, hNone, List.append_nil]

end Continues

end HttpMonitoring.Library.Transcript
