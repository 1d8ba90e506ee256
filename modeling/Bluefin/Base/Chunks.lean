import Mathlib.Data.List.Basic
import Mathlib.Tactic.Common

/-!
# Cutting a list into pieces of a fixed length

`CutInto k xs cs`: the pieces `cs` are `xs` cut from the front into pieces of
length `k`, of which only the last may be shorter and none is empty.
`chunksOf k xs` computes them.
-/

namespace Base

variable {α : Type}

structure CutInto (k : ℕ) (xs : List α) (cs : List (List α)) : Prop where
  flatten_eq : cs.flatten = xs
  ne_nil : ∀ c ∈ cs, c ≠ []
  length_le : ∀ c ∈ cs, c.length ≤ k
  full : ∀ c ∈ cs.dropLast, c.length = k

def chunksOf (k : ℕ) (xs : List α) : List (List α) :=
  if _h : xs = [] ∨ k = 0 then [] else xs.take k :: chunksOf k (xs.drop k)
termination_by xs.length
decreasing_by
  have hpos : 0 < xs.length := List.length_pos_iff.mpr (fun he => _h (Or.inl he))
  rw [List.length_drop]
  omega

@[simp] theorem chunksOf_nil (k : ℕ) : chunksOf k ([] : List α) = [] := by
  rw [chunksOf, dif_pos (Or.inl rfl)]

theorem chunksOf_cons {k : ℕ} {xs : List α} (hk : 0 < k) (hne : xs ≠ []) :
    chunksOf k xs = xs.take k :: chunksOf k (xs.drop k) := by
  rw [chunksOf, dif_neg]
  rintro (he | he)
  · exact hne he
  · omega

theorem chunksOf_short {k : ℕ} {xs : List α} (hne : xs ≠ []) (hle : xs.length ≤ k) :
    chunksOf k xs = [xs] := by
  have hpos : 0 < xs.length := List.length_pos_iff.mpr hne
  rw [chunksOf_cons (by omega) hne, List.take_of_length_le hle, List.drop_of_length_le hle,
    chunksOf_nil]

theorem chunksOf_cut {k : ℕ} (hk : 0 < k) (xs : List α) : CutInto k xs (chunksOf k xs) := by
  fun_induction chunksOf k xs with
  | case1 xs h =>
    have hnil : xs = [] := h.resolve_right (by omega)
    exact ⟨hnil.symm, by simp, by simp, by simp⟩
  | case2 xs h ih =>
    obtain ⟨hflat, hnil, hle, hfull⟩ := ih
    have hpos : 0 < xs.length := List.length_pos_iff.mpr (fun he => h (Or.inl he))
    have hfirst : xs.take k ≠ [] := by
      intro he
      have hl := congrArg List.length he
      rw [List.length_take, List.length_nil] at hl
      omega
    refine ⟨?_, ?_, ?_, ?_⟩
    · rw [List.flatten_cons, hflat, List.take_append_drop]
    · intro c hc
      rcases List.mem_cons.mp hc with rfl | hc
      · exact hfirst
      · exact hnil c hc
    · intro c hc
      rcases List.mem_cons.mp hc with rfl | hc
      · exact List.length_take_le ..
      · exact hle c hc
    · intro c hc
      by_cases hlast : chunksOf k (xs.drop k) = []
      · rw [hlast] at hc
        simp at hc
      · rw [List.dropLast_cons_of_ne_nil hlast] at hc
        rcases List.mem_cons.mp hc with rfl | hc
        · have hrest : xs.drop k ≠ [] := by
            intro he
            rw [he, chunksOf_nil] at hlast
            exact hlast rfl
          have hl := List.length_pos_iff.mpr hrest
          rw [List.length_drop] at hl
          rw [List.length_take]
          omega
        · exact hfull c hc

theorem chunksOf_length_le {k m : ℕ} (hk : 0 < k) (xs : List α) (h : xs.length ≤ k * m) :
    (chunksOf k xs).length ≤ m := by
  induction m generalizing xs with
  | zero =>
    have hnil : xs = [] := List.eq_nil_of_length_eq_zero (by omega)
    rw [hnil, chunksOf_nil]
    exact Nat.le_refl 0
  | succ m ih =>
    by_cases hne : xs = []
    · rw [hne, chunksOf_nil]
      exact Nat.zero_le _
    · rw [chunksOf_cons hk hne, List.length_cons]
      refine Nat.succ_le_succ (ih _ ?_)
      rw [List.length_drop]
      rw [Nat.mul_succ] at h
      omega

end Base
