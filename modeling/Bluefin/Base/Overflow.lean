import Bluefin.Base.Outcome
import Mathlib.Algebra.Group.Nat.Defs

/-!
# 64-bit arithmetic with and without overflow checks

A program is built with overflow checks, where an addition that does not fit or
a subtraction that goes below zero panics, or without them, where the result
wraps around. The kind of build is a parameter of an operation and `none` is the
panic; where nothing overflows the two builds agree.
-/

namespace Base

def addIn (checks : Bool) (a b : UInt64) : Option UInt64 :=
  if checks = true ∧ 2 ^ 64 ≤ a.toNat + b.toNat then none else some (a + b)

def subIn (checks : Bool) (a b : UInt64) : Option UInt64 :=
  if checks = true ∧ a.toNat < b.toNat then none else some (a - b)

theorem addIn_eq {checks : Bool} {a b : UInt64}
    (h : checks = false ∨ a.toNat + b.toNat < 2 ^ 64) : addIn checks a b = some (a + b) := by
  apply if_neg
  rintro ⟨rfl, hover⟩
  rcases h with h | h
  · cases h
  · omega

theorem subIn_eq {checks : Bool} {a b : UInt64} (h : checks = false ∨ b.toNat ≤ a.toNat) :
    subIn checks a b = some (a - b) := by
  apply if_neg
  rintro ⟨rfl, hunder⟩
  rcases h with h | h
  · cases h
  · omega

theorem addIn_overflow {a b : UInt64} (h : 2 ^ 64 ≤ a.toNat + b.toNat) : addIn true a b = none :=
  if_pos ⟨rfl, h⟩

theorem toNat_add_of_lt {a b : UInt64} (h : a.toNat + b.toNat < 2 ^ 64) :
    (a + b).toNat = a.toNat + b.toNat := by
  rw [UInt64.toNat_add, Nat.mod_eq_of_lt h]

namespace Outcome

variable {ε μ α β σ : Type}

/-- The `?` operator where the rest of the function may overflow. -/
def orReturnIn (x : Outcome ε μ α) (s : σ) (k : α → Option (Outcome ε μ β × σ)) :
    Option (Outcome ε μ β × σ) :=
  match x with
  | ok a => k a
  | err e => some (err e, s)
  | panicked f => some (panicked f, s)

theorem orReturnIn_eq {x : Outcome ε μ α} {s : σ} {k : α → Option (Outcome ε μ β × σ)}
    {k' : α → Outcome ε μ β × σ} (h : ∀ a, k a = some (k' a)) :
    x.orReturnIn s k = some (x.orReturn s k') := by
  cases x with
  | ok a => exact h a
  | err e => rfl
  | panicked f => rfl

end Outcome

end Base
