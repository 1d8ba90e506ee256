import Mathlib.Data.Option.Basic
import Mathlib.Tactic.Common

/-!
# Step functions that match

A system with many states can be followed on one with few: its step function
matches the other's on related states. Runs then correspond in both directions,
and a rank on the small system bounds the steps of the large one, apart from
those that are idle.
-/

namespace Base

variable {σ α ε : Type}

theorem foldlM_step {f : σ → ε → Option σ} {s t u : σ} {e : ε} {es : List ε}
    (h : f s e = some t) (hes : es.foldlM f t = some u) : (e :: es).foldlM f s = some u := by
  rw [List.foldlM_cons, h]
  exact hes

theorem rel_ite {R : σ → α → Prop} {p : Prop} [Decidable p] {o : Option σ} {a : α}
    (hyes : p → ∃ s, o = some s ∧ R s a) (hno : ¬ p → o = none) :
    Option.Rel R o (if p then some a else none) := by
  by_cases hp : p
  · obtain ⟨s, rfl, hs⟩ := hyes hp
    rw [if_pos hp]
    exact .some hs
  · rw [if_neg hp, hno hp]
    exact .none

/-- On related states the two step functions are both undefined, or lead to
related states. -/
def Matches (f : σ → ε → Option σ) (g : α → ε → Option α) (R : σ → α → Prop) : Prop :=
  ∀ s a e, R s a → Option.Rel R (f s e) (g a e)

/-- The steps of a run that are not idle. -/
def movesAlong (f : σ → ε → Option σ) (idle : σ → ε → Bool) : σ → List ε → ℕ
  | _, [] => 0
  | s, e :: es => match f s e with
    | none => 0
    | some t => (if idle s e then 0 else 1) + movesAlong f idle t es

namespace Matches

variable {f : σ → ε → Option σ} {g : α → ε → Option α} {R : σ → α → Prop}
  (h : Matches f g R)

include h

theorem run {s : σ} {a : α} (hR : R s a) (es : List ε) :
    Option.Rel R (es.foldlM f s) (es.foldlM g a) := by
  induction es generalizing s a with
  | nil => exact .some hR
  | cons e es ih =>
    have hrel := h s a e hR
    rw [List.foldlM_cons, List.foldlM_cons]
    generalize f s e = next at hrel
    generalize g a e = next' at hrel
    cases hrel with
    | some hnext => exact ih hnext
    | none => exact .none

theorem run_left {s t : σ} {a : α} (hR : R s a) {es : List ε} (hrun : es.foldlM f s = some t) :
    ∃ b, es.foldlM g a = some b ∧ R t b := by
  have hrel := h.run hR es
  rw [hrun] at hrel
  generalize es.foldlM g a = last at hrel
  cases hrel with
  | some hb => exact ⟨_, rfl, hb⟩

theorem run_right {s : σ} {a b : α} (hR : R s a) {es : List ε} (hrun : es.foldlM g a = some b) :
    ∃ t, es.foldlM f s = some t ∧ R t b := by
  have hrel := h.run hR es
  rw [hrun] at hrel
  generalize es.foldlM f s = last at hrel
  cases hrel with
  | some ht => exact ⟨_, rfl, ht⟩

theorem movesAlong_le {idle : σ → ε → Bool} {rank : α → ℕ}
    (hrank : ∀ s a e b, R s a → g a e = some b →
      (if idle s e then 0 else 1) + rank b ≤ rank a)
    {s : σ} {a : α} (hR : R s a) (es : List ε) : movesAlong f idle s es ≤ rank a := by
  induction es generalizing s a with
  | nil => exact Nat.zero_le _
  | cons e es ih =>
    rw [movesAlong]
    have hrel := h s a e hR
    cases hf : f s e with
    | none => exact Nat.zero_le _
    | some t =>
      rw [hf] at hrel
      generalize hg : g a e = next at hrel
      cases hrel with
      | some hnext =>
        have hstep := hrank s a e _ hR hg
        have htail := ih hnext
        simp only
        omega

end Matches

end Base
