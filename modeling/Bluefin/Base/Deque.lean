import Mathlib.Data.Nat.ModEq
import Mathlib.Tactic.Common

/-!
# Bounded deques and rings of cells

A bounded deque is a list that refuses a push once it has `cap` elements. A ring
keeps `cap` cells and reads its elements off them from a head position on, going
round at the end; `circular` is this reading. A push writes the cell after the
last element or the one before the first, a pop moves the head.
-/

namespace Base

variable {α : Type}

/-! ### The deque -/

namespace Deque

inductive Op (α : Type) where
  | pushBack (value : α)
  | pushFront (value : α)
  | popFront
  | front
  | clear

/-- What an operation returns (a refused value, or the element asked for), and the list after it. -/
def apply (cap : ℕ) (xs : List α) : Op α → Option α × List α
  | .pushBack value => if xs.length = cap then (some value, xs) else (none, xs ++ [value])
  | .pushFront value => if xs.length = cap then (some value, xs) else (none, value :: xs)
  | .popFront => (xs.head?, xs.tail)
  | .front => (xs.head?, xs)
  | .clear => (none, [])

def applyAll (cap : ℕ) (xs : List α) : List (Op α) → List (Option α) × List α
  | [] => ([], xs)
  | op :: ops =>
    let (reply, xs) := apply cap xs op
    let (replies, xs) := applyAll cap xs ops
    (reply :: replies, xs)

end Deque

/-! ### The ring -/

/-- The `n` elements of a ring of `cap` cells from `head` on. -/
def circular (cell : ℕ → α) (cap head n : ℕ) : List α :=
  (List.range n).map fun i => cell ((head + i) % cap)

@[simp] theorem circular_length (cell : ℕ → α) (cap head n : ℕ) :
    (circular cell cap head n).length = n := by
  rw [circular, List.length_map, List.length_range]

theorem circular_zero (cell : ℕ → α) (cap head : ℕ) : circular cell cap head 0 = [] := rfl

theorem circular_mod (cell : ℕ → α) (cap head n : ℕ) :
    circular cell cap (head % cap) n = circular cell cap head n := by
  simp only [circular, Nat.mod_add_mod]

theorem round_mod {cap i : ℕ} (h : i < cap) : (i + 1 + (cap - 1)) % cap = i := by
  rw [Nat.add_assoc, Nat.add_sub_cancel' (Nat.zero_lt_of_lt h), Nat.add_mod_right,
    Nat.mod_eq_of_lt h]

theorem circular_snoc (cell : ℕ → α) (cap head n : ℕ) :
    circular cell cap head (n + 1) = circular cell cap head n ++ [cell ((head + n) % cap)] := by
  rw [circular, List.range_succ, List.map_append]
  rfl

theorem circular_cons (cell : ℕ → α) (cap head n : ℕ) :
    circular cell cap head (n + 1) = cell (head % cap) :: circular cell cap (head + 1) n := by
  rw [circular, List.range_succ_eq_map, List.map_cons, List.map_map, Nat.add_zero, circular]
  congr 1
  apply List.map_congr_left
  intro i _
  simp only [Function.comp, Nat.add_assoc, Nat.add_comm 1]

theorem offset_inj {cap head i j : ℕ} (hi : i < cap) (hj : j < cap)
    (h : (head + i) % cap = (head + j) % cap) : i = j := by
  have hmod : i % cap = j % cap := Nat.ModEq.add_left_cancel' head h
  rwa [Nat.mod_eq_of_lt hi, Nat.mod_eq_of_lt hj] at hmod

theorem circular_write {cell cell' : ℕ → α} {cap head n j : ℕ} (hn : n ≤ j) (hj : j < cap)
    (hother : ∀ k, k ≠ (head + j) % cap → cell' k = cell k) :
    circular cell' cap head n = circular cell cap head n := by
  apply List.map_congr_left
  intro i hi
  rw [List.mem_range] at hi
  apply hother
  intro he
  have hij := offset_inj (by omega) hj he
  omega

end Base
