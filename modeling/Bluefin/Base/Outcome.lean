import Mathlib.Tactic.Common

/-!
# Outcomes of a fallible computation that may also panic

A Rust function returning `Result<T, E>` has three outcomes: it returns a
value, it returns an error, or it unwinds with a panic. `Outcome` keeps the
three apart, so that "never panics" and "every index is in bounds" are
statements about a value and not about the shape of a definition.
-/

namespace Base

/-- Why a computation panicked: an index or a slice outside its sequence, or
a panic raised by the program itself. -/
inductive Fault (μ : Type) where
  | bounds (index len : ℕ)
  | raised (m : μ)
  deriving DecidableEq, Repr

inductive Outcome (ε μ α : Type) where
  | ok (a : α)
  | err (e : ε)
  | panicked (f : Fault μ)
  deriving DecidableEq, Repr

namespace Outcome

variable {ε μ α β γ : Type}

def bind (x : Outcome ε μ α) (k : α → Outcome ε μ β) : Outcome ε μ β :=
  match x with
  | ok a => k a
  | err e => err e
  | panicked f => panicked f

instance : Monad (Outcome ε μ) where
  pure := ok
  bind := bind

@[simp] theorem pure_eq (a : α) : (pure a : Outcome ε μ α) = ok a := rfl

@[simp] theorem ok_bind (a : α) (k : α → Outcome ε μ β) : (ok a >>= k) = k a := rfl

@[simp] theorem err_bind (e : ε) (k : α → Outcome ε μ β) :
    ((err e : Outcome ε μ α) >>= k) = err e := rfl

@[simp] theorem panicked_bind (f : Fault μ) (k : α → Outcome ε μ β) :
    ((panicked f : Outcome ε μ α) >>= k) = panicked f := rfl

def map (g : α → β) (x : Outcome ε μ α) : Outcome ε μ β :=
  match x with
  | ok a => ok (g a)
  | err e => err e
  | panicked f => panicked f

@[simp] theorem map_ok (g : α → β) (a : α) : (ok a : Outcome ε μ α).map g = ok (g a) := rfl

@[simp] theorem map_err (g : α → β) (e : ε) : (err e : Outcome ε μ α).map g = err e := rfl

@[simp] theorem map_panicked (g : α → β) (f : Fault μ) :
    (panicked f : Outcome ε μ α).map g = panicked f := rfl

@[simp] theorem map_map (g : α → β) (h : β → γ) (x : Outcome ε μ α) :
    (x.map g).map h = x.map (h ∘ g) := by
  cases x <;> rfl

theorem map_eq_ok {g : α → β} {x : Outcome ε μ α} {b : β} :
    x.map g = ok b ↔ ∃ a, x = ok a ∧ g a = b := by
  cases x <;> simp

theorem map_eq_panicked {g : α → β} {x : Outcome ε μ α} {f : Fault μ} :
    x.map g = panicked f ↔ x = panicked f := by
  cases x <;> simp

/-- The `?` operator of a function that also owns a state: on an error or a panic it leaves with the
state as it is. -/
def orReturn {σ : Type} (x : Outcome ε μ α) (s : σ) (k : α → Outcome ε μ β × σ) :
    Outcome ε μ β × σ :=
  match x with
  | ok a => k a
  | err e => (err e, s)
  | panicked f => (panicked f, s)

def isOk : Outcome ε μ α → Bool
  | ok _ => true
  | _ => false

def isErr : Outcome ε μ α → Bool
  | err _ => true
  | _ => false

def isPanic : Outcome ε μ α → Bool
  | panicked _ => true
  | _ => false

@[simp] theorem isOk_ok (a : α) : (ok a : Outcome ε μ α).isOk = true := rfl
@[simp] theorem isOk_err (e : ε) : (err e : Outcome ε μ α).isOk = false := rfl
@[simp] theorem isErr_ok (a : α) : (ok a : Outcome ε μ α).isErr = false := rfl
@[simp] theorem isErr_err (e : ε) : (err e : Outcome ε μ α).isErr = true := rfl
@[simp] theorem isPanic_ok (a : α) : (ok a : Outcome ε μ α).isPanic = false := rfl
@[simp] theorem isPanic_err (e : ε) : (err e : Outcome ε μ α).isPanic = false := rfl
@[simp] theorem isPanic_panicked (f : Fault μ) :
    (panicked f : Outcome ε μ α).isPanic = true := rfl

theorem isOk_eq_false {x : Outcome ε μ α} (h : ∀ a, x = ok a → False) : x.isOk = false := by
  cases x with
  | ok a => exact (h a rfl).elim
  | err e => rfl
  | panicked f => rfl

@[simp] theorem isPanic_map (g : α → β) (x : Outcome ε μ α) :
    (x.map g).isPanic = x.isPanic := by
  cases x <;> rfl

end Outcome

/-! ### Checked indexing -/

section Checked

variable {ε μ α : Type}

/-- `xs[i]`: the element, or a bounds panic. -/
def index (xs : List α) (i : ℕ) : Outcome ε μ α :=
  match xs[i]? with
  | some x => .ok x
  | none => .panicked (.bounds i xs.length)

/-- `xs[start..stop]`: the sublist, or a bounds panic. -/
def slice (xs : List α) (start stop : ℕ) : Outcome ε μ (List α) :=
  if start ≤ stop ∧ stop ≤ xs.length then .ok ((xs.take stop).drop start)
  else .panicked (.bounds stop xs.length)

theorem slice_ok (xs : List α) (start stop : ℕ) (h : start ≤ stop) (hs : stop ≤ xs.length) :
    (slice xs start stop : Outcome ε μ (List α)) = .ok ((xs.drop start).take (stop - start)) := by
  simp only [slice, h, hs, and_self, if_true]
  rw [List.drop_take]

end Checked

end Base
