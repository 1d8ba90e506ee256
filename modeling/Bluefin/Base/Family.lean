import Mathlib.Logic.Function.Basic

/-!
# Families of components

A system of many alike components is a function from their names to their states, and a
step of one of them an update at its name. What holds of every component, or of some
component, after the step is settled by the component that took it and by a frame for
the others.
-/

namespace Base
namespace Family

section

variable {ι σ : Type*} [DecidableEq ι] {f : ι → σ} {i : ι} {s : σ} {P Q : ι → σ → Prop}

theorem forall_update (hself : Q i s) (hothers : ∀ j, j ≠ i → P j (f j) → Q j (f j))
    (h : ∀ j, P j (f j)) : ∀ j, Q j (Function.update f i s j) := by
  rw [Function.forall_update_iff f]
  exact ⟨hself, fun j hj => hothers j hj (h j)⟩

theorem exists_update (hself : P i (f i) → Q i s) (hothers : ∀ j, j ≠ i → P j (f j) → Q j (f j))
    (h : ∃ j, P j (f j)) : ∃ j, Q j (Function.update f i s j) := by
  obtain ⟨j, hj⟩ := h
  refine ⟨j, ?_⟩
  by_cases hji : j = i
  · subst hji
    rw [Function.update_self]
    exact hself hj
  · rw [Function.update_of_ne hji]
    exact hothers j hji hj

end

end Family
end Base
