import Bluefin.Base.Trace
import Mathlib.Data.List.Basic
import Mathlib.Data.List.Range
import Mathlib.Data.Nat.Basic

/-!
# Ordered reassembly of numbered chunks

The abstract receiver of an ordered byte stream: the number that is expected
next, the chunks held in a window of `W` numbers above it, and the elements of
a chunk that was taken only in part. Chunks are accepted in any order, once
each, and taken from the front. `run_history` accounts for a whole run: what
was handed out, followed by what is pending, is the concatenation of the
accepted chunks from the first number to the next expected one.
-/

namespace Base

/-! ### The run at the front of a numbered family -/

section Front

variable {β γ : Type}

/-- The values at `n, n + 1, ...`, up to the first gap and at most `w`. -/
def front (f : ℕ → Option β) : ℕ → ℕ → List β
  | _, 0 => []
  | n, w + 1 => match f n with
    | none => []
    | some x => x :: front f (n + 1) w

theorem front_none {f : ℕ → Option β} {n : ℕ} (h : f n = none) (w : ℕ) : front f n w = [] := by
  cases w with
  | zero => rfl
  | succ w => simp only [front, h]

theorem front_some {f : ℕ → Option β} {n : ℕ} {x : β} (h : f n = some x) (w : ℕ) :
    front f n (w + 1) = x :: front f (n + 1) w := by
  simp only [front, h]

theorem front_length_le (f : ℕ → Option β) (n w : ℕ) : (front f n w).length ≤ w := by
  induction w generalizing n with
  | zero => simp [front]
  | succ w ih =>
    cases h : f n with
    | none => simp [front_none h]
    | some x => simpa [front_some h] using ih (n + 1)

theorem front_congr {f g : ℕ → Option β} {n w : ℕ} (h : ∀ i, n ≤ i → i < n + w → f i = g i) :
    front f n w = front g n w := by
  induction w generalizing n with
  | zero => rfl
  | succ w ih =>
    have hn : f n = g n := h n le_rfl (by omega)
    have htail := ih (n := n + 1) fun i hi hw => h i (by omega) (by omega)
    simp only [front, hn, htail]

theorem front_mono {f g : ℕ → Option β} (h : ∀ i x, f i = some x → g i = some x) (n w : ℕ) :
    front f n w <+: front g n w := by
  induction w generalizing n with
  | zero => exact List.prefix_refl _
  | succ w ih =>
    cases hn : f n with
    | none =>
      rw [front_none hn]
      exact List.nil_prefix
    | some x =>
      rw [front_some hn, front_some (h n x hn)]
      exact (List.prefix_cons_inj x).mpr (ih (n + 1))

theorem front_map (f : ℕ → Option β) (g : β → γ) (n w : ℕ) :
    (front f n w).map g = front (fun i => (f i).map g) n w := by
  induction w generalizing n with
  | zero => rfl
  | succ w ih =>
    cases h : f n with
    | none => simp only [front, h, List.map_nil, Option.map_none]
    | some x => simp only [front, h, List.map_cons, Option.map_some, ih]

theorem front_shift (f : ℕ → Option β) (d n w : ℕ) :
    front (fun i => f (i + d)) n w = front f (n + d) w := by
  induction w generalizing n with
  | zero => rfl
  | succ w ih => simp only [front, ih, Nat.add_right_comm]

theorem front_bound {f : ℕ → Option β} {n w : ℕ} (h : f (n + w) = none) :
    front f n (w + 1) = front f n w := by
  induction w generalizing n with
  | zero => exact front_none h 1
  | succ w ih =>
    have htail := ih (n := n + 1) (by rw [← h]; congr 1; omega)
    rw [front, htail]
    rfl

theorem front_get {f : ℕ → Option β} {n w i : ℕ} (h : i < (front f n w).length) :
    f (n + i) = some ((front f n w).get ⟨i, h⟩) := by
  induction w generalizing n i with
  | zero => simp [front] at h
  | succ w ih =>
    cases hn : f n with
    | none => simp [front_none hn] at h
    | some x =>
      cases i with
      | zero => simp [front_some hn, hn]
      | succ i =>
        have hlt : i < (front f (n + 1) w).length := by simpa [front_some hn] using h
        rw [show n + (i + 1) = n + 1 + i by omega, ih hlt]
        simp [front_some hn]

theorem front_end {f : ℕ → Option β} {n w : ℕ} (h : (front f n w).length < w) :
    f (n + (front f n w).length) = none := by
  induction w generalizing n with
  | zero => exact absurd h (Nat.not_lt_zero _)
  | succ w ih =>
    cases hn : f n with
    | none => simp [front_none hn, hn]
    | some x =>
      rw [front_some hn, List.length_cons] at h ⊢
      rw [Nat.add_comm _ 1, ← Nat.add_assoc]
      exact ih (Nat.lt_of_succ_lt_succ h)

end Front

/-! ### Concatenation of the chunks in a range of numbers -/

section Chunks

variable {α : Type}

/-- The chunks numbered `lo, ..., hi - 1`, one after the other. -/
def chunks (f : ℕ → Option (List α)) (lo hi : ℕ) : List α :=
  (List.range' lo (hi - lo)).flatMap fun n => (f n).getD []

@[simp] theorem chunks_self (f : ℕ → Option (List α)) (lo : ℕ) : chunks f lo lo = [] := by
  simp [chunks]

theorem chunks_congr {f g : ℕ → Option (List α)} {lo hi : ℕ}
    (h : ∀ n, lo ≤ n → n < hi → f n = g n) : chunks f lo hi = chunks g lo hi := by
  simp only [chunks, List.flatMap]
  congr 1
  refine List.map_congr_left fun n hn => ?_
  rw [List.mem_range'_1] at hn
  rw [h n hn.1 (by omega)]

theorem chunks_append (f : ℕ → Option (List α)) {lo mid hi : ℕ} (h1 : lo ≤ mid) (h2 : mid ≤ hi) :
    chunks f lo mid ++ chunks f mid hi = chunks f lo hi := by
  have hsplit : List.range' lo (mid - lo) ++ List.range' mid (hi - mid) =
      List.range' lo (hi - lo) := by
    have happ := List.range'_append_1 (s := lo) (m := mid - lo) (n := hi - mid)
    rw [show lo + (mid - lo) = mid by omega, show mid - lo + (hi - mid) = hi - lo by omega] at happ
    exact happ
  simp only [chunks]
  rw [← List.flatMap_append, hsplit]

theorem chunks_succ (f : ℕ → Option (List α)) {lo hi : ℕ} (h : lo ≤ hi) :
    chunks f lo (hi + 1) = chunks f lo hi ++ (f hi).getD [] := by
  rw [← chunks_append f h (Nat.le_succ hi)]
  simp [chunks]

theorem chunks_of_list (f : ℕ → Option (List α)) (cs : List (List α)) (lo k : ℕ)
    (h : ∀ i, i < k → f (lo + i) = cs[i]?) : chunks f lo (lo + k) = (cs.take k).flatten := by
  induction k with
  | zero => simp
  | succ k ih =>
    have hlast := h k (Nat.lt_succ_self k)
    rw [← Nat.add_assoc, chunks_succ f (Nat.le_add_right lo k), ih fun i hi => h i (by omega), hlast,
      List.take_add_one, List.flatten_append]
    congr 1
    cases cs[k]? <;> simp

theorem front_take_flatten (f : ℕ → Option (List α)) (n w k : ℕ) (hk : k ≤ (front f n w).length) :
    ((front f n w).take k).flatten = chunks f n (n + k) := by
  induction k with
  | zero => simp
  | succ k ih =>
    have hlt : k < (front f n w).length := hk
    have hget := front_get hlt
    rw [List.take_add_one, List.flatten_append, ih (by omega), List.getElem?_eq_getElem hlt,
      ← Nat.add_assoc, chunks_succ f (Nat.le_add_right n k), hget]
    simp

end Chunks

/-! ### The abstract receiver -/

/-- How many chunks of the front have to be taken for `n` elements. -/
def takeCount {α : Type} : ℕ → List (List α) → ℕ
  | _, [] => 0
  | 0, _ :: _ => 0
  | n + 1, xs :: rest => takeCount (n + 1 - xs.length) rest + 1

theorem takeCount_le {α : Type} (n : ℕ) (r : List (List α)) : takeCount n r ≤ r.length := by
  induction r generalizing n with
  | nil => simp [takeCount]
  | cons xs r ih =>
    cases n with
    | zero => simp [takeCount]
    | succ n => simpa [takeCount] using ih (n + 1 - xs.length)

theorem takeCount_flatten {α : Type} (n : ℕ) (r : List (List α)) :
    ((r.take (takeCount n r)).flatten).take n = r.flatten.take n := by
  induction r generalizing n with
  | nil => simp
  | cons xs r ih =>
    cases n with
    | zero => simp
    | succ n =>
      simp only [takeCount, List.take_succ_cons, List.flatten_cons, List.take_append, ih]

theorem takeCount_drop {α : Type} (n : ℕ) (r : List (List α)) :
    (r.take (takeCount n r)).flatten.drop n ++ (r.drop (takeCount n r)).flatten =
      r.flatten.drop n := by
  induction r generalizing n with
  | nil => simp
  | cons xs r ih =>
    cases n with
    | zero => simp [takeCount]
    | succ n =>
      simp only [takeCount, List.take_succ_cons, List.drop_succ_cons, List.flatten_cons,
        List.drop_append, List.append_assoc, ih]

/-- `held` is a finite map: nothing outside the window of `W` numbers from
`next` on is in it. -/
structure Reassembly (W : ℕ) (α : Type) where
  next : ℕ
  held : ℕ → Option (List α)
  pending : List α
  held_window : ∀ n xs, held n = some xs → next ≤ n ∧ n < next + W

namespace Reassembly

variable {W : ℕ} {α : Type}

@[ext] theorem ext' {a b : Reassembly W α} (hn : a.next = b.next) (hh : a.held = b.held)
    (hp : a.pending = b.pending) : a = b := by
  cases a
  cases b
  simp_all

def init (start : ℕ) : Reassembly W α where
  next := start
  held := fun _ => none
  pending := []
  held_window := by simp

/-- The chunks that can be taken: those from `next` up to the first gap. -/
def run (a : Reassembly W α) : List (List α) := front a.held a.next W

def Accepts (a : Reassembly W α) (n : ℕ) : Prop :=
  a.next ≤ n ∧ n < a.next + W ∧ a.held n = none

def insert (a : Reassembly W α) (n : ℕ) (xs : List α) (h : a.Accepts n) : Reassembly W α where
  next := a.next
  held := fun m => if m = n then some xs else a.held m
  pending := a.pending
  held_window := by
    intro m ys hm
    by_cases he : m = n
    · rw [he]
      exact ⟨h.1, h.2.1⟩
    · rw [if_neg he] at hm
      exact a.held_window m ys hm

/-- Take `k` chunks off the front and leave `rest` pending. -/
def pop (a : Reassembly W α) (k : ℕ) (rest : List α) : Reassembly W α where
  next := a.next + k
  held := fun m => if m < a.next + k then none else a.held m
  pending := rest
  held_window := by
    intro m xs hm
    by_cases he : m < a.next + k
    · rw [if_pos he] at hm
      cases hm
    · rw [if_neg he] at hm
      have := a.held_window m xs hm
      omega

@[simp] theorem pop_next (a : Reassembly W α) (k : ℕ) (rest : List α) :
    (a.pop k rest).next = a.next + k := rfl

@[simp] theorem pop_pending (a : Reassembly W α) (k : ℕ) (rest : List α) :
    (a.pop k rest).pending = rest := rfl

theorem pop_held (a : Reassembly W α) (k : ℕ) (rest : List α) (m : ℕ) :
    (a.pop k rest).held m = if m < a.next + k then none else a.held m := rfl

theorem held_eq_none (a : Reassembly W α) {n : ℕ} (h : n < a.next ∨ a.next + W ≤ n) :
    a.held n = none := by
  cases hn : a.held n with
  | none => rfl
  | some xs =>
    have := a.held_window n xs hn
    omega

theorem pop_zero (a : Reassembly W α) (rest : List α) :
    a.pop 0 rest = { a with pending := rest } := by
  refine ext' rfl ?_ rfl
  funext m
  rw [pop_held, Nat.add_zero]
  by_cases hm : m < a.next
  · rw [if_pos hm, a.held_eq_none (Or.inl hm)]
  · rw [if_neg hm]

theorem pop_pop (a : Reassembly W α) (j k : ℕ) (r r' : List α) :
    (a.pop j r).pop k r' = a.pop (j + k) r' := by
  refine ext' (Nat.add_assoc ..) ?_ rfl
  funext m
  rw [pop_held, pop_held, pop_held, pop_next, Nat.add_assoc]
  by_cases h : m < a.next + j
  · rw [if_pos h, ite_self, if_pos (by omega)]
  · rw [if_neg h]

theorem run_of_none (a : Reassembly W α) (h : a.held a.next = none) : a.run = [] :=
  front_none h W

theorem run_of_some (a : Reassembly W α) {xs : List α} (h : a.held a.next = some xs)
    (rest : List α) : a.run = xs :: (a.pop 1 rest).run := by
  have hpos : 0 < W := by
    have := a.held_window _ _ h
    omega
  obtain ⟨w, rfl⟩ := Nat.exists_eq_add_one.mpr hpos
  have hlast : (a.pop 1 rest).held ((a.pop 1 rest).next + w) = none := by
    rw [pop_held, a.held_eq_none (Or.inr (by rw [pop_next]; omega)), ite_self]
  have hsame : front (a.pop 1 rest).held (a.next + 1) w = front a.held (a.next + 1) w := by
    refine front_congr fun i hi _ => ?_
    rw [pop_held, if_neg (by omega)]
  rw [run, front_some h, run, front_bound hlast, pop_next, hsame]

theorem run_end (a : Reassembly W α) : a.held (a.next + a.run.length) = none := by
  rcases Nat.lt_or_ge a.run.length W with hlt | hge
  · exact front_end hlt
  · exact a.held_eq_none (.inr (by omega))

/-! ### Steps, and the account of a whole run -/

/-- What an observer sees of a step. -/
inductive Event (α : Type) where
  | accepted (n : ℕ) (xs : List α)
  | rejected (n : ℕ)
  | delivered (out : List α)
  deriving DecidableEq

/-- Chunks are accepted in the window and once, and leave from the front. -/
inductive Step : Reassembly W α → Event α → Reassembly W α → Prop
  | accept {a : Reassembly W α} {n : ℕ} (xs : List α) (h : a.Accepts n) :
      Step a (.accepted n xs) (a.insert n xs h)
  | reject {a : Reassembly W α} {n : ℕ} (h : ¬ a.Accepts n) : Step a (.rejected n) a
  | deliver {a : Reassembly W α} {k : ℕ} (out rest : List α) (hk : k ≤ a.run.length)
      (h : out ++ rest = a.pending ++ (a.run.take k).flatten) :
      Step a (.delivered out) (a.pop k rest)

/-- The chunk accepted under a number, if there was one. -/
def acceptedAt : List (Event α) → ℕ → Option (List α)
  | [], _ => none
  | .accepted m xs :: es, n => if m = n then some xs else acceptedAt es n
  | .rejected _ :: es, n => acceptedAt es n
  | .delivered _ :: es, n => acceptedAt es n

/-- The numbers of the accepted chunks, in the order of acceptance. -/
def acceptedNumbers (es : List (Event α)) : List ℕ :=
  es.filterMap fun e => match e with
    | .accepted n _ => some n
    | _ => none

/-- Everything handed out. -/
def delivered (es : List (Event α)) : List α :=
  es.flatMap fun e => match e with
    | .delivered out => out
    | _ => []

theorem acceptedAt_snoc (es : List (Event α)) (e : Event α) (n : ℕ) :
    acceptedAt (es ++ [e]) n = (acceptedAt es n).or (acceptedAt [e] n) := by
  induction es with
  | nil => rfl
  | cons f es ih =>
    cases f with
    | accepted m xs =>
      simp only [List.cons_append, acceptedAt]
      by_cases h : m = n
      · rw [if_pos h, if_pos h, Option.some_or]
      · rw [if_neg h, if_neg h, ih]
    | rejected m => exact ih
    | delivered out => exact ih

theorem mem_acceptedNumbers (es : List (Event α)) (n : ℕ) :
    n ∈ acceptedNumbers es ↔ acceptedAt es n ≠ none := by
  induction es with
  | nil => simp [acceptedNumbers, acceptedAt]
  | cons e es ih =>
    cases e with
    | accepted m xs =>
      have hcons : acceptedNumbers (.accepted m xs :: es) = m :: acceptedNumbers es := rfl
      rw [hcons, List.mem_cons, ih]
      simp only [acceptedAt]
      by_cases h : m = n
      · simp [h]
      · rw [if_neg h]
        simp [Ne.symm h]
    | rejected m => exact ih
    | delivered out => exact ih

/-- A number that was taken or is held stays so, and only accepting a chunk adds one. -/
theorem covered_step {a a' : Reassembly W α} {e : Event α} (h : Step a e a')
    (hno : ∀ n, acceptedAt [e] n = none) (n : ℕ) :
    n < a'.next ∨ a'.held n ≠ none ↔ n < a.next ∨ a.held n ≠ none := by
  cases h with
  | @accept m xs h =>
    have hm := hno m
    simp [acceptedAt] at hm
  | reject h => exact Iff.rfl
  | @deliver k out rest hk h =>
    rw [pop_next, pop_held]
    rcases Nat.lt_or_ge n (a.next + k) with hlt | hge
    · refine ⟨fun _ => ?_, fun _ => .inl hlt⟩
      rcases Nat.lt_or_ge n a.next with hbelow | hle
      · exact .inl hbelow
      · obtain ⟨i, rfl⟩ := Nat.exists_eq_add_of_le hle
        have hget := @front_get _ a.held a.next W i (by rw [← run]; omega)
        rw [hget]
        exact .inr (Option.some_ne_none _)
    · rw [if_neg (by omega)]
      exact or_congr_left ⟨fun h => absurd h (by omega), fun h => absurd h (by omega)⟩

/-- The account kept along a run that started at `start`. -/
structure Account (start : ℕ) (es : List (Event α)) (a : Reassembly W α) : Prop where
  start_le : start ≤ a.next
  below : ∀ n, n < start → acceptedAt es n = none
  taken : ∀ n, start ≤ n → n < a.next → acceptedAt es n ≠ none
  kept : ∀ n, a.next ≤ n → acceptedAt es n = a.held n
  once : (acceptedNumbers es).Nodup
  content : delivered es ++ a.pending = chunks (acceptedAt es) start a.next

theorem account_init (start : ℕ) : Account start [] (init start : Reassembly W α) where
  start_le := le_rfl
  below := fun _ _ => rfl
  taken := fun n h1 h2 => absurd h2 (Nat.not_lt.mpr h1)
  kept := fun _ _ => rfl
  once := List.nodup_nil
  content := by simp [delivered, init]

theorem account_accept {start : ℕ} {es : List (Event α)} {a : Reassembly W α} {n : ℕ}
    (xs : List α) (h : a.Accepts n) (ha : Account start es a) :
    Account start (es ++ [.accepted n xs]) (a.insert n xs h) := by
  have hsingle : ∀ m, acceptedAt [.accepted n xs] m = if n = m then some xs else none := fun _ => rfl
  have hother : ∀ m, m ≠ n → acceptedAt (es ++ [.accepted n xs]) m = acceptedAt es m := by
    intro m hm
    rw [acceptedAt_snoc, hsingle, if_neg (Ne.symm hm), Option.or_none]
  have hfree : acceptedAt es n = none := by rw [ha.kept n h.1, h.2.2]
  have hnext : (a.insert n xs h).next = a.next := rfl
  have hle := h.1
  refine ⟨ha.start_le, ?_, ?_, ?_, ?_, ?_⟩
  · intro m hm
    have hstart := ha.start_le
    rw [hother m (by omega)]
    exact ha.below m hm
  · intro m h1 h2
    rw [hnext] at h2
    rw [hother m (by omega)]
    exact ha.taken m h1 h2
  · intro m hm
    rw [hnext] at hm
    simp only [insert]
    by_cases he : m = n
    · rw [if_pos he, he, acceptedAt_snoc, hfree, hsingle, if_pos rfl, Option.none_or]
    · rw [if_neg he, hother m he, ha.kept m hm]
  · have hnum : acceptedNumbers (es ++ [.accepted n xs]) = acceptedNumbers es ++ [n] := by
      simp [acceptedNumbers]
    have hnot : n ∉ acceptedNumbers es := by
      rw [mem_acceptedNumbers]
      exact fun hne => hne hfree
    rw [hnum, List.nodup_append]
    refine ⟨ha.once, by simp, ?_⟩
    intro m hm k hk he
    rw [List.mem_singleton.mp hk] at he
    rw [he] at hm
    exact hnot hm
  · have hdel : delivered (es ++ [.accepted n xs]) = delivered es := by simp [delivered]
    rw [hdel, hnext]
    refine ha.content.trans (chunks_congr fun m _ hm => ?_)
    rw [hother m (by omega)]

theorem account_deliver {start k : ℕ} {es : List (Event α)} {a : Reassembly W α}
    (out rest : List α) (hk : k ≤ a.run.length)
    (h : out ++ rest = a.pending ++ (a.run.take k).flatten) (ha : Account start es a) :
    Account start (es ++ [.delivered out]) (a.pop k rest) := by
  have hsame : acceptedAt (es ++ [.delivered out]) = acceptedAt es := by
    funext m
    rw [acceptedAt_snoc]
    exact Option.or_none
  have hnum : acceptedNumbers (es ++ [.delivered out]) = acceptedNumbers es := by
    simp [acceptedNumbers]
  have hdel : delivered (es ++ [.delivered out]) = delivered es ++ out := by
    simp [delivered]
  have hstart := ha.start_le
  refine ⟨?_, ?_, ?_, ?_, ?_, ?_⟩
  · rw [pop_next]
    omega
  · rw [hsame]
    exact ha.below
  · intro m h1 h2
    rw [hsame]
    rw [pop_next] at h2
    by_cases hm : m < a.next
    · exact ha.taken m h1 hm
    · have hlt : m - a.next < a.run.length := by omega
      have hget := front_get (f := a.held) hlt
      rw [show a.next + (m - a.next) = m by omega] at hget
      rw [ha.kept m (by omega), hget]
      exact Option.some_ne_none _
  · intro m hm
    rw [pop_next] at hm
    rw [hsame, pop_held, if_neg (by omega), ha.kept m (by omega)]
  · rw [hnum]
    exact ha.once
  · have hrun : (a.run.take k).flatten = chunks (acceptedAt es) a.next (a.next + k) := by
      rw [run, front_take_flatten a.held _ _ _ hk]
      exact chunks_congr fun m hm _ => (ha.kept m hm).symm
    calc delivered (es ++ [.delivered out]) ++ (a.pop k rest).pending
        = delivered es ++ (out ++ rest) := by rw [hdel, pop_pending, List.append_assoc]
      _ = (delivered es ++ a.pending) ++ (a.run.take k).flatten := by rw [h, List.append_assoc]
      _ = chunks (acceptedAt es) start a.next ++ chunks (acceptedAt es) a.next (a.next + k) := by
        rw [ha.content, hrun]
      _ = chunks (acceptedAt (es ++ [.delivered out])) start (a.pop k rest).next := by
        rw [hsame, pop_next, chunks_append _ hstart (Nat.le_add_right ..)]

theorem account_reject {start : ℕ} {es : List (Event α)} {a : Reassembly W α} (n : ℕ)
    (ha : Account start es a) : Account start (es ++ [.rejected n]) a := by
  have hsame : acceptedAt (es ++ [.rejected n]) = acceptedAt es := by
    funext m
    rw [acceptedAt_snoc]
    exact Option.or_none
  have hnum : acceptedNumbers (es ++ [.rejected n]) = acceptedNumbers es := by
    simp [acceptedNumbers]
  have hdel : delivered (es ++ [.rejected n]) = delivered es := by
    simp [delivered]
  obtain ⟨hstart, hbelow, htaken, hkept, honce, hcontent⟩ := ha
  rw [← hsame] at hbelow htaken hkept hcontent
  rw [← hnum] at honce
  rw [← hdel] at hcontent
  exact ⟨hstart, hbelow, htaken, hkept, honce, hcontent⟩

/-- Along every run each accepted chunk is accounted for once: handed out,
pending, or held. -/
theorem run_account {start : ℕ} {es : List (Event α)} {a : Reassembly W α}
    (hr : Run Step (init start) es a) : Account start es a := by
  refine Run.invariant (P := fun es a => Account start es a) (account_init start) ?_ hr
  intro es a e b _ ha hstep
  cases hstep with
  | accept xs h => exact account_accept xs h ha
  | reject h => exact account_reject _ ha
  | deliver out rest hk h => exact account_deliver out rest hk h ha

end Reassembly

end Base
