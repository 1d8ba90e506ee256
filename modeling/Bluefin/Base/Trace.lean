import Mathlib.Data.List.Forall2
import Mathlib.Tactic.Common

/-!
# Runs of a labelled transition system

A run is a finite sequence of labelled steps, extended at its end. Runs are
composed, computed from a step function, and carry every invariant of one step
to the states that they reach. Where the tasks of a system are a list, the one
that acts is split off it.
-/

namespace Base

variable {σ ε : Type}

inductive Run (step : σ → ε → σ → Prop) (start : σ) : List ε → σ → Prop
  | nil : Run step start [] start
  | snoc {es : List ε} {e : ε} {s t : σ} (hr : Run step start es s) (hs : step s e t) :
      Run step start (es ++ [e]) t

namespace Run

variable {step : σ → ε → σ → Prop} {start : σ}

theorem append {es fs : List ε} {s t : σ} (hr : Run step start es s) (hr' : Run step s fs t) :
    Run step start (es ++ fs) t := by
  induction hr' with
  | nil => rwa [List.append_nil]
  | snoc _ hs ih =>
    rw [← List.append_assoc]
    exact ih.snoc hs

theorem mono {step' : σ → ε → σ → Prop} (h : ∀ s e t, step s e t → step' s e t) {es : List ε}
    {s : σ} (hr : Run step start es s) : Run step' start es s := by
  induction hr with
  | nil => exact .nil
  | snoc _ hs ih => exact ih.snoc (h _ _ _ hs)

theorem of_foldlM {f : σ → ε → Option σ} (es : List ε) {s t : σ}
    (hf : ∀ e ∈ es, ∀ s t, f s e = some t → step s e t) (h : es.foldlM f s = some t) :
    Run step s es t := by
  induction es generalizing s with
  | nil =>
    cases h
    exact .nil
  | cons e es ih =>
    rw [List.foldlM_cons] at h
    obtain ⟨u, hu, hrest⟩ := Option.bind_eq_some_iff.mp h
    have hfirst : Run step s [e] u := Run.nil.snoc (hf e (List.mem_cons_self ..) s u hu)
    exact hfirst.append (ih (fun d hd => hf d (List.mem_cons_of_mem _ hd)) hrest)

theorem exists_of_foldlM {β : Type} {f : σ → ε → Option σ} (g : σ → β) (es : List ε) {s : σ}
    {b : β} (hf : ∀ e ∈ es, ∀ s t, f s e = some t → step s e t)
    (h : (es.foldlM f s).map g = some b) : ∃ t, Run step s es t ∧ g t = b := by
  obtain ⟨t, ht, hb⟩ := Option.map_eq_some_iff.mp h
  exact ⟨t, of_foldlM es hf ht, hb⟩

theorem invariant {P : List ε → σ → Prop} (h0 : P [] start)
    (hstep : ∀ es s e t, Run step start es s → P es s → step s e t → P (es ++ [e]) t)
    {es : List ε} {s : σ} (hr : Run step start es s) : P es s := by
  induction hr with
  | nil => exact h0
  | snoc hr hs ih => exact hstep _ _ _ _ hr ih hs

theorem snoc_inv {es : List ε} {e : ε} {t : σ} (h : Run step start (es ++ [e]) t) :
    ∃ s, Run step start es s ∧ step s e t := by
  generalize hes : es ++ [e] = fs at h
  cases h with
  | nil => simp at hes
  | snoc hr hs =>
    obtain ⟨rfl, he⟩ := List.append_inj' hes rfl
    cases he
    exact ⟨_, hr, hs⟩

/-! ### Deterministic steps -/

section

variable (hdet : ∀ s e t u, step s e t → step s e u → t = u)

include hdet

theorem unique {es : List ε} {s t : σ} (hr : Run step start es s) (hr' : Run step start es t) :
    s = t := by
  induction hr generalizing t with
  | nil =>
    generalize hes : ([] : List ε) = es at hr'
    cases hr' with
    | nil => rfl
    | snoc => simp at hes
  | snoc hr hs ih =>
    obtain ⟨u, hu, hs'⟩ := snoc_inv hr'
    rw [ih hu] at hs
    exact hdet _ _ _ _ hs hs'

theorem when_snoc_iff {allowed : σ → ε → Prop} {es : List ε} {e : ε} {s t : σ}
    (hr : Run step start es s) (hs : step s e t) :
    Run (fun s e t => allowed s e ∧ step s e t) start (es ++ [e]) t ↔
      Run (fun s e t => allowed s e ∧ step s e t) start es s ∧ allowed s e := by
  constructor
  · intro h
    obtain ⟨u, hu, ha, hs'⟩ := snoc_inv h
    have hsame := unique hdet hr (mono (fun _ _ _ h => h.2) hu)
    rw [hsame]
    exact ⟨hu, ha⟩
  · rintro ⟨h, ha⟩
    exact h.snoc ⟨ha, hs⟩

theorem passes_snoc_iff {P : σ → Prop} {es : List ε} {e : ε} {s t : σ}
    (hr : Run step start es s) (hs : step s e t) :
    (∀ fs u, fs <+: es ++ [e] → Run step start fs u → P u) ↔
      (∀ fs u, fs <+: es → Run step start fs u → P u) ∧ P t := by
  constructor
  · intro h
    exact ⟨fun fs u hfs hu => h fs u (hfs.trans (List.prefix_append ..)) hu,
      h _ t (List.prefix_refl _) (hr.snoc hs)⟩
  · rintro ⟨hpast, ht⟩ fs u hfs hu
    rcases List.prefix_concat_iff.mp hfs with rfl | hfs
    · rw [unique hdet hu (hr.snoc hs)]
      exact ht
    · exact hpast fs u hfs hu

/-- A property that a step keeps exactly if it is allowed holds along exactly the runs whose steps
are all allowed. -/
theorem always_iff {P : σ → Prop} {allowed : σ → ε → Prop} (h0 : P start)
    (hstep : ∀ es s e t, Run step start es s → P s → step s e t → (P t ↔ allowed s e))
    {es : List ε} {s : σ} (hr : Run step start es s) :
    (∀ fs u, fs <+: es → Run step start fs u → P u) ↔
      Run (fun s e t => allowed s e ∧ step s e t) start es s := by
  induction hr with
  | nil =>
    refine ⟨fun _ => .nil, fun _ fs u hfs hu => ?_⟩
    obtain rfl := List.prefix_nil.mp hfs
    rw [unique hdet hu .nil]
    exact h0
  | snoc hr hs ih =>
    rw [passes_snoc_iff hdet hr hs, when_snoc_iff hdet hr hs, ih]
    refine and_congr_right fun hallowed => ?_
    exact hstep _ _ _ _ hr (ih.mpr hallowed _ _ (List.prefix_refl _) hr) hs

end

end Run

/-! ### Lists of concurrent tasks -/

theorem split_at {α : Type} {xs : List α} {i : ℕ} {c : α} (h : xs[i]? = some c) :
    ∃ pre post, xs = pre ++ c :: post ∧ (∀ c', xs.set i c' = pre ++ c' :: post) ∧
      xs.eraseIdx i = pre ++ post := by
  obtain ⟨hlt, hget⟩ := List.getElem?_eq_some_iff.mp h
  obtain ⟨pre, post, hxs, hlen, -⟩ := @List.exists_of_set _ i c xs hlt
  rw [hget] at hxs
  refine ⟨pre, post, hxs, fun c' => ?_, ?_⟩
  · rw [hxs, ← hlen, List.set_append_right _ _ (Nat.le_refl _), Nat.sub_self, List.set_cons_zero]
  · rw [hxs, ← hlen, List.eraseIdx_append_of_length_le (Nat.le_refl _), Nat.sub_self,
      List.eraseIdx_cons_zero]

section

variable {α : Type} {pre post : List α} {c c' d : α}

theorem mem_of_removed (h : d ∈ pre ++ post) : d ∈ pre ++ c :: post := by
  rcases List.mem_append.mp h with h | h
  · exact List.mem_append_left _ h
  · exact List.mem_append_right _ (List.mem_cons_of_mem _ h)

theorem mem_of_replaced (h : d ∈ pre ++ c' :: post) : d = c' ∨ d ∈ pre ++ c :: post := by
  rcases List.mem_append.mp h with h | h
  · exact .inr (List.mem_append_left _ h)
  · rcases List.mem_cons.mp h with h | h
    · exact .inl h
    · exact .inr (List.mem_append_right _ (List.mem_cons_of_mem _ h))

end

theorem forall₂_replace {α β : Type} {R : α → β → Prop} {pre post : List α} {c c' : α}
    {ys : List β} (h : List.Forall₂ R (pre ++ c :: post) ys) (hc : ∀ y, R c y → R c' y) :
    List.Forall₂ R (pre ++ c' :: post) ys := by
  induction pre generalizing ys with
  | nil =>
    cases h with
    | cons hy hrest => exact .cons (hc _ hy) hrest
  | cons x pre ih =>
    cases h with
    | cons hy hrest => exact .cons hy (ih hrest)

end Base
