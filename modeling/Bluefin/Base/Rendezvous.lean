import Mathlib.Data.List.Basic
import Mathlib.Tactic.Common

/-!
# A rendezvous of two streams

Takers and items come in any order and in any number, each to one critical
section: a taker gets the oldest item that waits or else waits itself, an item
goes to the oldest taker that waits or else waits itself while there is room for
it. Never do both sides wait, and the `k`-th taker is matched with the `k`-th
item that was not dropped.
-/

namespace Base

variable {α β : Type}

/-- The takers that wait and the items that wait, the oldest first. -/
structure Rendezvous (α β : Type) where
  takers : List α
  items : List β

inductive Handling (α : Type) where
  | handed (a : α)
  | kept
  | dropped

namespace Rendezvous

def empty : Rendezvous α β := ⟨[], []⟩

def take (r : Rendezvous α β) (a : α) : Option β × Rendezvous α β :=
  match r.items with
  | b :: items => (some b, { r with items := items })
  | [] => (none, { r with takers := r.takers ++ [a] })

def put (capacity : ℕ) (r : Rendezvous α β) (b : β) : Handling α × Rendezvous α β :=
  match r.takers with
  | a :: takers => (.handed a, { r with takers := takers })
  | [] =>
    if r.items.length < capacity then (.kept, { r with items := r.items ++ [b] })
    else (.dropped, r)

/-- What has happened so far: all takers and all items that were not dropped, each
in the order they came, and the matches that were made. -/
structure Matched (capacity : ℕ) (r : Rendezvous α β) (came : List α) (kept : List β)
    (handed : List (α × β)) : Prop where
  came_eq : came = handed.map Prod.fst ++ r.takers
  kept_eq : kept = handed.map Prod.snd ++ r.items
  one_side : r.takers = [] ∨ r.items = []
  bound : r.items.length ≤ capacity

variable {capacity : ℕ} {r : Rendezvous α β} {came : List α} {kept : List β}
  {handed : List (α × β)}

theorem matched_empty : Matched capacity (empty : Rendezvous α β) [] [] [] :=
  ⟨rfl, rfl, .inl rfl, Nat.zero_le _⟩

theorem matched_take (h : Matched capacity r came kept handed) (a : α) :
    Matched capacity (r.take a).2 (came ++ [a]) kept
      (handed ++ (r.take a).1.toList.map (Prod.mk a)) := by
  obtain ⟨takers, items⟩ := r
  cases items with
  | nil =>
    constructor
    case came_eq => simp [take, h.came_eq]
    case kept_eq => simp [take, h.kept_eq]
    case one_side => exact .inr rfl
    case bound => exact h.bound
  | cons b items =>
    -- an item waits, so no taker does
    obtain rfl : takers = [] := h.one_side.resolve_right (by simp)
    have hbound := h.bound
    rw [List.length_cons] at hbound
    constructor
    case came_eq => simp [take, h.came_eq]
    case kept_eq => simp [take, h.kept_eq]
    case one_side => exact .inl rfl
    case bound => exact Nat.le_of_succ_le hbound

theorem matched_put (h : Matched capacity r came kept handed) (b : β) :
    match r.put capacity b with
    | (.handed a, r') => Matched capacity r' came (kept ++ [b]) (handed ++ [(a, b)])
    | (.kept, r') => Matched capacity r' came (kept ++ [b]) handed
    | (.dropped, r') => Matched capacity r' came kept handed ∧ r.items.length = capacity := by
  obtain ⟨takers, items⟩ := r
  cases takers with
  | cons a takers =>
    obtain rfl : items = [] := h.one_side.resolve_left (by simp)
    constructor
    case came_eq => simp [h.came_eq]
    case kept_eq => simp [h.kept_eq]
    case one_side => exact .inr rfl
    case bound => exact Nat.zero_le _
  | nil =>
    simp only [put]
    by_cases hroom : items.length < capacity
    · rw [if_pos hroom]
      constructor
      case came_eq => exact h.came_eq
      case kept_eq => simp [h.kept_eq]
      case one_side => exact .inl rfl
      case bound =>
        rw [List.length_append, List.length_singleton]
        exact hroom
    · rw [if_neg hroom]
      exact ⟨h, Nat.le_antisymm h.bound (Nat.le_of_not_lt hroom)⟩

theorem Matched.handed_eq (h : Matched capacity r came kept handed) :
    handed = came.zip kept := by
  have hlen : (handed.map Prod.fst).length = (handed.map Prod.snd).length := by
    rw [List.length_map, List.length_map]
  have hwaiting : r.takers.zip r.items = [] := by
    rcases h.one_side with hnil | hnil
    · rw [hnil, List.zip_nil_left]
    · rw [hnil, List.zip_nil_right]
  calc handed = (handed.map Prod.fst).zip (handed.map Prod.snd) := List.zip_of_prod rfl rfl
    _ = (handed.map Prod.fst).zip (handed.map Prod.snd) ++ r.takers.zip r.items := by
      rw [hwaiting, List.append_nil]
    _ = came.zip kept := by rw [h.came_eq, h.kept_eq, List.zip_append hlen]

theorem Matched.takers_eq (h : Matched capacity r came kept handed) :
    r.takers = came.drop handed.length := by
  rw [h.came_eq, List.drop_left' (List.length_map ..)]

theorem Matched.items_eq (h : Matched capacity r came kept handed) :
    r.items = kept.drop handed.length := by
  rw [h.kept_eq, List.drop_left' (List.length_map ..)]

end Rendezvous

end Base
