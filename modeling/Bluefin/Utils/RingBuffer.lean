import Bluefin.Base.Deque
import Bluefin.Base.Outcome

/-!
# The ring buffer of the writer tasks (utils/ring_buffer.rs)

The vector is a list of `capacity` cells that is indexed with a bounds check,
and `%` and `-` are checked as well, so that "no index is out of bounds" is that
no call panics. The buffer is a bounded deque read off its cells; the position
of the next `push_back` is a field of its own that has to stay behind the last
element.
-/

namespace Bluefin
open Base

inductive RingPanic where
  | remByZero
  | subtractOverflow
  deriving DecidableEq, Repr

/-- No function of the module returns an error. -/
abbrev RingResult (α : Type) := Outcome Empty RingPanic α

/-- The assignment `xs[i] = x`. -/
def setIndex {α : Type} (xs : List α) (i : ℕ) (x : α) : RingResult (List α) :=
  if i < xs.length then .ok (xs.set i x) else .panicked (.bounds i xs.length)

/-- The remainder `a % b`, which panics for `b = 0`. -/
def checkedRem (a b : ℕ) : RingResult ℕ :=
  if b = 0 then .panicked (.raised .remByZero) else .ok (a % b)

/-- The difference `a - b` on `usize`, which panics below zero. -/
def checkedSub (a b : ℕ) : RingResult ℕ :=
  if b ≤ a then .ok (a - b) else .panicked (.raised .subtractOverflow)

theorem setIndex_ok {α : Type} {xs : List α} {i : ℕ} (x : α) (h : i < xs.length) :
    setIndex xs i x = .ok (xs.set i x) := if_pos h

theorem checkedRem_ok (a : ℕ) {b : ℕ} (h : 0 < b) : checkedRem a b = .ok (a % b) :=
  if_neg (by omega)

theorem checkedSub_ok {a b : ℕ} (h : b ≤ a) : checkedSub a b = .ok (a - b) := if_pos h

/-- Both `tail + 1` and `len + 1` are at most `capacity`, which is a `usize`. -/
structure RingBuffer (α : Type) where
  buffer : List α
  capacity : ℕ
  head : ℕ
  tail : ℕ
  len : ℕ

namespace RingBuffer

variable {α : Type} [Inhabited α]

def new (capacity : ℕ) : RingBuffer α where
  buffer := List.replicate capacity default
  capacity := capacity
  head := 0
  tail := 0
  len := 0

def isEmpty (r : RingBuffer α) : Bool := decide (r.len = 0)

def isFull (r : RingBuffer α) : Bool := decide (r.len = r.capacity)

/-- ring_buffer.rs:52-61. -/
def pushBack (r : RingBuffer α) (value : α) : RingResult (Option α × RingBuffer α) :=
  if r.isFull then .ok (some value, r)
  else do
    let buffer ← setIndex r.buffer r.tail value
    let tail ← checkedRem (r.tail + 1) r.capacity
    pure (none, { r with buffer := buffer, tail := tail, len := r.len + 1 })

/-- ring_buffer.rs:66-79. -/
def pushFront (r : RingBuffer α) (value : α) : RingResult (Option α × RingBuffer α) :=
  if r.isFull then .ok (some value, r)
  else do
    let head ← (if r.head = 0 then checkedSub r.capacity 1 else checkedSub r.head 1 : RingResult ℕ)
    let buffer ← setIndex r.buffer head value
    pure (none, { r with buffer := buffer, head := head, len := r.len + 1 })

/-- ring_buffer.rs:84-96. `mem::take` leaves the default value in the cell. -/
def popFront (r : RingBuffer α) : RingResult (Option α × RingBuffer α) :=
  if r.isEmpty then .ok (none, r)
  else do
    let value ← index r.buffer r.head
    let buffer ← setIndex r.buffer r.head default
    let head ← checkedRem (r.head + 1) r.capacity
    let len ← checkedSub r.len 1
    pure (some value, { r with buffer := buffer, head := head, len := len })

/-- ring_buffer.rs:100-105. -/
def front (r : RingBuffer α) : RingResult (Option α) :=
  if r.isEmpty then .ok none
  else do
    let value ← index r.buffer r.head
    pure (some value)

theorem popFront_len {r r' : RingBuffer α} {reply : Option α} (hne : r.isEmpty = false)
    (h : r.popFront = .ok (reply, r')) : r'.len < r.len := by
  have hlen : r.len ≠ 0 := of_decide_eq_false hne
  have hsub : checkedSub r.len 1 = .ok (r.len - 1) := checkedSub_ok (by omega)
  simp only [popFront, hne, Bool.false_eq_true, if_false, hsub] at h
  cases hvalue : (index r.buffer r.head : RingResult α) with
  | err e => cases e
  | panicked f =>
    rw [hvalue] at h
    cases h
  | ok value =>
    cases hbuffer : setIndex r.buffer r.head default with
    | err e => cases e
    | panicked f =>
      rw [hvalue, hbuffer] at h
      cases h
    | ok buffer =>
      cases hhead : checkedRem (r.head + 1) r.capacity with
      | err e => cases e
      | panicked f =>
        rw [hvalue, hbuffer, hhead] at h
        cases h
      | ok head =>
        rw [hvalue, hbuffer, hhead] at h
        cases h
        dsimp only
        omega

/-- ring_buffer.rs:109-116. -/
def clear (r : RingBuffer α) : RingResult (RingBuffer α) :=
  match _he : r.isEmpty with
  | true => .ok r
  | false => match _hp : r.popFront with
    | .ok (_, r') => clear r'
    | .err e => .err e
    | .panicked f => .panicked f
termination_by r.len
decreasing_by exact popFront_len _he _hp

/-! ### The invariant -/

def cell (r : RingBuffer α) (i : ℕ) : α := r.buffer.getD i default

/-- The buffer holds the elements `xs` of a deque, first at `head`, and `tail` is
the cell behind the last. -/
structure Represents (r : RingBuffer α) (xs : List α) : Prop where
  buffer_length : r.buffer.length = r.capacity
  len_le : r.len ≤ r.capacity
  head_lt : 0 < r.capacity → r.head < r.capacity
  tail_eq : 0 < r.capacity → r.tail = (r.head + r.len) % r.capacity
  contents : circular r.cell r.capacity r.head r.len = xs

theorem Represents.length_eq {r : RingBuffer α} {xs : List α} (h : r.Represents xs) :
    xs.length = r.len := by
  rw [← h.contents, circular_length]

theorem Represents.first {r : RingBuffer α} {xs : List α} (h : r.Represents xs) (hne : r.len ≠ 0) :
    0 < r.capacity ∧ r.head < r.buffer.length ∧
      ∃ n, r.len = n + 1 ∧ xs = r.cell r.head :: circular r.cell r.capacity (r.head + 1) n := by
  have hle := h.len_le
  have hpos : 0 < r.capacity := by omega
  have hhead := h.head_lt hpos
  obtain ⟨n, hn⟩ := Nat.exists_eq_succ_of_ne_zero hne
  refine ⟨hpos, by rwa [h.buffer_length], n, hn, ?_⟩
  rw [← h.contents, hn, circular_cons, Nat.mod_eq_of_lt hhead]

theorem represents_new (capacity : ℕ) : (new capacity : RingBuffer α).Represents [] where
  buffer_length := List.length_replicate
  len_le := Nat.zero_le capacity
  head_lt := fun h => h
  tail_eq := fun _ => (Nat.zero_mod capacity).symm
  contents := rfl

theorem index_cell {r : RingBuffer α} {i : ℕ} (h : i < r.buffer.length) :
    (index r.buffer i : RingResult α) = .ok (r.cell i) := by
  simp [index, cell, List.getElem?_eq_getElem h]

theorem getD_set_self {xs : List α} {i : ℕ} (x : α) (h : i < xs.length) :
    (xs.set i x).getD i default = x := by
  simp [List.getD_eq_getElem?_getD, h]

theorem getD_set_ne {xs : List α} {i k : ℕ} (x : α) (h : k ≠ i) :
    (xs.set i x).getD k default = xs.getD k default := by
  simp [List.getD_eq_getElem?_getD, List.getElem?_set_ne (Ne.symm h)]

/-! ### One operation -/

section

variable {r : RingBuffer α} {xs : List α}

theorem represents_pushBack (h : r.Represents xs) (value : α) :
    ∃ r', r.pushBack value = .ok ((Deque.apply r.capacity xs (.pushBack value)).1, r') ∧
      r'.Represents (Deque.apply r.capacity xs (.pushBack value)).2 ∧
      r'.capacity = r.capacity := by
  have hlen := h.length_eq
  by_cases hfull : r.len = r.capacity
  · simp only [pushBack, isFull, hfull, decide_true, if_true, Deque.apply, hlen]
    exact ⟨r, rfl, h, rfl⟩
  · have hle := h.len_le
    have hpos : 0 < r.capacity := by omega
    have htail := h.tail_eq hpos
    have hbound : r.tail < r.buffer.length := by
      rw [h.buffer_length, htail]
      exact Nat.mod_lt _ hpos
    simp only [pushBack, isFull, hfull, decide_false, Bool.false_eq_true, if_false,
      setIndex_ok value hbound, checkedRem_ok _ hpos, Outcome.ok_bind, Outcome.pure_eq,
      Deque.apply, hlen]
    refine ⟨_, rfl, ?_, rfl⟩
    constructor
    case buffer_length => exact List.length_set.trans h.buffer_length
    case len_le =>
      dsimp only
      omega
    case head_lt => exact h.head_lt
    case tail_eq =>
      intro _
      dsimp only
      rw [htail, Nat.mod_add_mod, Nat.add_assoc]
    case contents =>
      -- the cell behind the last element is written and then read
      dsimp only
      rw [circular_snoc, ← h.contents]
      congr 1
      · apply circular_write (Nat.le_refl r.len) (by omega)
        intro k hk
        exact getD_set_ne value (by rwa [htail])
      · simp only [cell, ← htail]
        rw [getD_set_self value hbound]

theorem head_before (h : r.Represents xs) (hpos : 0 < r.capacity) :
    ∃ head, (if r.head = 0 then checkedSub r.capacity 1 else checkedSub r.head 1) = .ok head ∧
      head < r.capacity ∧ (head + 1) % r.capacity = r.head := by
  have hhead := h.head_lt hpos
  by_cases hzero : r.head = 0
  · refine ⟨r.capacity - 1, ?_, by omega, ?_⟩
    · rw [if_pos hzero, checkedSub_ok (by omega)]
    · rw [Nat.sub_add_cancel hpos, Nat.mod_self, hzero]
  · refine ⟨r.head - 1, ?_, by omega, ?_⟩
    · rw [if_neg hzero, checkedSub_ok (by omega)]
    · rw [Nat.sub_add_cancel (by omega), Nat.mod_eq_of_lt hhead]

theorem represents_pushFront (h : r.Represents xs) (value : α) :
    ∃ r', r.pushFront value = .ok ((Deque.apply r.capacity xs (.pushFront value)).1, r') ∧
      r'.Represents (Deque.apply r.capacity xs (.pushFront value)).2 ∧
      r'.capacity = r.capacity := by
  have hlen := h.length_eq
  by_cases hfull : r.len = r.capacity
  · simp only [pushFront, isFull, hfull, decide_true, if_true, Deque.apply, hlen]
    exact ⟨r, rfl, h, rfl⟩
  · have hle := h.len_le
    have hpos : 0 < r.capacity := by omega
    obtain ⟨head, hcomputed, hlt, hnext⟩ := head_before h hpos
    have hbound : head < r.buffer.length := by rwa [h.buffer_length]
    have hround : ∀ n, (head + (n + 1)) % r.capacity = (r.head + n) % r.capacity := by
      intro n
      rw [← hnext, Nat.mod_add_mod, Nat.add_assoc, Nat.add_comm 1]
    simp only [pushFront, isFull, hfull, decide_false, Bool.false_eq_true, if_false, hcomputed,
      setIndex_ok value hbound, Outcome.ok_bind, Outcome.pure_eq, Deque.apply, hlen]
    refine ⟨_, rfl, ?_, rfl⟩
    constructor
    case buffer_length => exact List.length_set.trans h.buffer_length
    case len_le =>
      dsimp only
      omega
    case head_lt => exact fun _ => hlt
    case tail_eq =>
      intro _
      dsimp only
      rw [hround]
      exact h.tail_eq hpos
    case contents =>
      -- the old elements are one place after the new head
      dsimp only
      rw [circular_cons, ← h.contents]
      congr 1
      · rw [Nat.mod_eq_of_lt hlt]
        exact getD_set_self value hbound
      · rw [← circular_mod, hnext]
        have hlast : (r.head + (r.capacity - 1)) % r.capacity = head := by
          rw [← hnext, Nat.mod_add_mod, round_mod hlt]
        apply circular_write (j := r.capacity - 1) (by omega) (by omega)
        intro k hk
        rw [hlast] at hk
        exact getD_set_ne value hk

theorem represents_popFront (h : r.Represents xs) :
    ∃ r', r.popFront = .ok ((Deque.apply r.capacity xs .popFront).1, r') ∧
      r'.Represents (Deque.apply r.capacity xs .popFront).2 ∧ r'.capacity = r.capacity := by
  by_cases hempty : r.len = 0
  · have hnil : xs = [] := by rw [← h.contents, hempty, circular_zero]
    simp only [popFront, isEmpty, decide_eq_true hempty, if_true, Deque.apply, hnil]
    rw [hnil] at h
    exact ⟨r, rfl, h, rfl⟩
  · obtain ⟨hpos, hbound, n, hn, hxs⟩ := h.first hempty
    have hle := h.len_le
    have hhead := h.head_lt hpos
    simp only [popFront, isEmpty, decide_eq_false hempty, Bool.false_eq_true, if_false,
      index_cell hbound, setIndex_ok default hbound, checkedRem_ok _ hpos,
      checkedSub_ok (show 1 ≤ r.len by omega), Outcome.ok_bind, Outcome.pure_eq, Deque.apply, hxs,
      List.head?_cons, List.tail_cons]
    refine ⟨_, rfl, ?_, rfl⟩
    constructor
    case buffer_length => exact List.length_set.trans h.buffer_length
    case len_le =>
      dsimp only
      omega
    case head_lt => exact fun _ => Nat.mod_lt _ hpos
    case tail_eq =>
      intro _
      dsimp only
      rw [Nat.mod_add_mod, h.tail_eq hpos, hn, Nat.add_sub_cancel, Nat.add_assoc, Nat.add_comm 1]
    case contents =>
      -- the emptied cell is a whole round after the new head
      dsimp only
      rw [hn, Nat.add_sub_cancel, circular_mod]
      apply circular_write (j := r.capacity - 1) (by omega) (by omega)
      intro k hk
      rw [round_mod hhead] at hk
      exact getD_set_ne default hk

theorem represents_front (h : r.Represents xs) : r.front = .ok xs.head? := by
  by_cases hempty : r.len = 0
  · have hnil : xs = [] := by rw [← h.contents, hempty, circular_zero]
    simp only [front, isEmpty, decide_eq_true hempty, if_true, hnil, List.head?_nil]
  · obtain ⟨-, hbound, n, -, hxs⟩ := h.first hempty
    simp only [front, isEmpty, decide_eq_false hempty, Bool.false_eq_true, if_false,
      index_cell hbound, Outcome.ok_bind, Outcome.pure_eq, hxs, List.head?_cons]

/-- The loop of `clear` pops the elements one by one. -/
theorem represents_clear (h : r.Represents xs) :
    ∃ r', r.clear = .ok r' ∧ r'.Represents [] ∧ r'.capacity = r.capacity := by
  induction xs generalizing r with
  | nil =>
    have hempty : r.isEmpty = true := decide_eq_true h.length_eq.symm
    rw [clear]
    split
    · exact ⟨r, rfl, h, rfl⟩
    · rename_i hne
      rw [hempty] at hne
      cases hne
  | cons x xs ih =>
    have hne : r.isEmpty = false := by
      apply decide_eq_false
      rw [← h.length_eq, List.length_cons]
      omega
    obtain ⟨r', hpop, hrep, hcap⟩ := represents_popFront h
    obtain ⟨r'', hclear, hnil, hcap'⟩ := ih hrep
    rw [clear]
    split
    · rename_i htrue
      rw [hne] at htrue
      cases htrue
    · split
      · rename_i reply r₁ hpop₁
        rw [hpop] at hpop₁
        cases hpop₁
        exact ⟨r'', hclear, hnil, hcap'.trans hcap⟩
      · rename_i e _
        cases e
      · rename_i f hpop₁
        rw [hpop] at hpop₁
        cases hpop₁

end

/-! ### Every sequence of operations -/

/-- The replies are put as those of the deque. -/
def call (r : RingBuffer α) : Deque.Op α → RingResult (Option α × RingBuffer α)
  | .pushBack value => r.pushBack value
  | .pushFront value => r.pushFront value
  | .popFront => r.popFront
  | .front => r.front.map (·, r)
  | .clear => r.clear.map (none, ·)

def calls (r : RingBuffer α) : List (Deque.Op α) → RingResult (List (Option α) × RingBuffer α)
  | [] => .ok ([], r)
  | op :: ops => do
    let (reply, r) ← r.call op
    let (replies, r) ← r.calls ops
    pure (reply :: replies, r)

theorem represents_call {r : RingBuffer α} {xs : List α} (h : r.Represents xs)
    (op : Deque.Op α) :
    ∃ r', r.call op = .ok ((Deque.apply r.capacity xs op).1, r') ∧
      r'.Represents (Deque.apply r.capacity xs op).2 ∧ r'.capacity = r.capacity := by
  cases op with
  | pushBack value => exact represents_pushBack h value
  | pushFront value => exact represents_pushFront h value
  | popFront => exact represents_popFront h
  | front =>
    rw [call, represents_front h]
    exact ⟨r, rfl, h, rfl⟩
  | clear =>
    obtain ⟨r', hclear, hrep, hcap⟩ := represents_clear h
    rw [call, hclear]
    exact ⟨r', rfl, hrep, hcap⟩

theorem represents_calls {r : RingBuffer α} {xs : List α} (h : r.Represents xs)
    (ops : List (Deque.Op α)) :
    ∃ r', r.calls ops = .ok ((Deque.applyAll r.capacity xs ops).1, r') ∧
      r'.Represents (Deque.applyAll r.capacity xs ops).2 ∧ r'.capacity = r.capacity := by
  induction ops generalizing r xs with
  | nil => exact ⟨r, rfl, h, rfl⟩
  | cons op ops ih =>
    obtain ⟨r₁, hcall, hrep₁, hcap₁⟩ := represents_call h op
    obtain ⟨r₂, hcalls, hrep₂, hcap₂⟩ := ih hrep₁
    rw [hcap₁] at hcalls hrep₂
    refine ⟨r₂, ?_, hrep₂, hcap₂.trans hcap₁⟩
    simp only [calls, hcall, Outcome.ok_bind, hcalls, Outcome.pure_eq, Deque.applyAll]

/-- Any sequence of calls on a new buffer returns, each call answers as the
bounded deque does, and the buffer then holds the deque's elements. -/
theorem refines_deque (capacity : ℕ) (ops : List (Deque.Op α)) :
    ∃ r : RingBuffer α,
      (new capacity).calls ops = .ok ((Deque.applyAll capacity [] ops).1, r) ∧
      r.Represents (Deque.applyAll capacity [] ops).2 ∧
      (Deque.applyAll capacity ([] : List α) ops).2.length ≤ capacity := by
  obtain ⟨r, hcalls, hrep, hcap⟩ := represents_calls (represents_new capacity) ops
  refine ⟨r, hcalls, hrep, ?_⟩
  have hle := hrep.len_le
  rw [hcap, ← hrep.length_eq] at hle
  exact hle

end RingBuffer

end Bluefin
