import Bluefin.Utils.Window

/-!
# What the window of acknowledged numbers means

The deque is strictly increasing and within 40000 numbers from the smallest
expected one, whatever was inserted (`Sound`). With this an insert says whether
the number was missing, and `consume` takes the longest run of numbers from the
smallest expected one on.
-/

namespace Bluefin
open Base

namespace SlidingWindow

def InWindow (w : SlidingWindow) (n : UInt64) : Prop :=
  w.smallestExpectedPacketNumber.toNat ≤ n.toNat ∧
    n.toNat < w.smallestExpectedPacketNumber.toNat + maxSlidingWindowSize

structure Sound (w : SlidingWindow) : Prop where
  sorted : w.orderedPacketNumbers.Pairwise (· < ·)
  within : ∀ n ∈ w.orderedPacketNumbers, w.InWindow n

theorem sound_new (s : UInt64) : (new s).Sound := ⟨.nil, by simp [new]⟩

/-! ### Insertion -/

theorem mem_insertSorted (n x : UInt64) (ns : List UInt64) :
    x ∈ insertSorted n ns ↔ x = n ∨ x ∈ ns := by
  have hsplit : x ∈ ns ↔ x ∈ ns.takeWhile (· < n) ∨ x ∈ ns.dropWhile (· < n) := by
    rw [← List.mem_append, List.takeWhile_append_dropWhile]
  rw [insertSorted, List.mem_append, List.mem_cons, hsplit]
  exact or_left_comm

theorem insertSorted_cons_lt {n a : UInt64} (ns : List UInt64) (h : a < n) :
    insertSorted n (a :: ns) = a :: insertSorted n ns := by
  simp [insertSorted, h]

theorem insertSorted_cons_ge {n a : UInt64} (ns : List UInt64) (h : ¬ a < n) :
    insertSorted n (a :: ns) = n :: a :: ns := by
  simp [insertSorted, h]

theorem sorted_insertSorted {n : UInt64} {ns : List UInt64} (hs : ns.Pairwise (· < ·))
    (hn : n ∉ ns) : (insertSorted n ns).Pairwise (· < ·) := by
  induction ns with
  | nil => simp [insertSorted]
  | cons a ns ih =>
    obtain ⟨hhead, htail⟩ := List.pairwise_cons.mp hs
    have hne : n ≠ a := fun he => hn (by rw [he]; exact List.mem_cons_self ..)
    have hnot : n ∉ ns := fun he => hn (List.mem_cons_of_mem _ he)
    by_cases ha : a < n
    · rw [insertSorted_cons_lt ns ha]
      refine List.pairwise_cons.mpr ⟨fun x hx => ?_, ih htail hnot⟩
      rcases (mem_insertSorted n x ns).mp hx with rfl | hx
      · exact ha
      · exact hhead x hx
    · rw [insertSorted_cons_ge ns ha]
      have hlt : n < a := by
        rw [UInt64.lt_iff_toNat_lt] at ha ⊢
        have hne' : n.toNat ≠ a.toNat := fun he => hne (UInt64.toNat_inj.mp he)
        omega
      refine List.pairwise_cons.mpr ⟨fun x hx => ?_, hs⟩
      rcases List.mem_cons.mp hx with rfl | hx
      · exact hlt
      · exact UInt64.lt_trans hlt (hhead x hx)

theorem insertSorted_last {n : UInt64} (ns : List UInt64) (h : ∀ a ∈ ns, a < n) :
    insertSorted n ns = ns ++ [n] := by
  induction ns with
  | nil => rfl
  | cons a ns ih =>
    rw [insertSorted_cons_lt ns (h a (List.mem_cons_self ..)),
      ih (fun b hb => h b (List.mem_cons_of_mem _ hb)), List.cons_append]

theorem le_getLast {ns : List UInt64} {last : UInt64} (hs : ns.Pairwise (· < ·))
    (hlast : ns.getLast? = some last) : ∀ a ∈ ns, a ≤ last := by
  obtain ⟨front, rfl⟩ := List.getLast?_eq_some_iff.mp hlast
  intro a ha
  rcases List.mem_append.mp ha with ha | ha
  · exact UInt64.le_of_lt ((List.pairwise_append.mp hs).2.2 a ha last (List.mem_singleton_self _))
  · rw [List.mem_singleton.mp ha]
    exact UInt64.le_refl _

/-- All four paths of `insert_packet_number` on a sound window. -/
theorem insertPacketNumber_cases {w : SlidingWindow} (h : w.Sound) (n : UInt64) :
    (w.InWindow n ∧ n ∉ w.orderedPacketNumbers ∧ w.insertPacketNumber n =
      (.ok (), { w with orderedPacketNumbers := insertSorted n w.orderedPacketNumbers })) ∨
    (¬ (w.InWindow n ∧ n ∉ w.orderedPacketNumbers) ∧
      (w.insertPacketNumber n).1.isOk = false ∧ (w.insertPacketNumber n).2 = w) := by
  unfold insertPacketNumber
  by_cases hlow : n < w.smallestExpectedPacketNumber
  · right
    rw [if_pos hlow]
    refine ⟨fun hin => ?_, rfl, rfl⟩
    have hle := hin.1.1
    rw [UInt64.lt_iff_toNat_lt] at hlow
    omega
  · have hsub : (n - w.smallestExpectedPacketNumber).toNat =
        n.toNat - w.smallestExpectedPacketNumber.toNat :=
      UInt64.toNat_sub_of_le _ _ (UInt64.not_lt.mp hlow)
    have hle := UInt64.le_iff_toNat_le.mp (UInt64.not_lt.mp hlow)
    rw [if_neg hlow]
    by_cases hfar : (n - w.smallestExpectedPacketNumber).toNat ≥ maxSlidingWindowSize
    · right
      rw [if_pos hfar]
      refine ⟨fun hin => ?_, rfl, rfl⟩
      have hlt := hin.1.2
      omega
    · have hin : w.InWindow n := ⟨hle, by omega⟩
      rw [if_neg hfar]
      cases hlast : w.orderedPacketNumbers.getLast? with
      | none =>
        have hnil := List.getLast?_eq_none_iff.mp hlast
        left
        simp [hnil, hin, insertSorted]
      | some last =>
        have hmem : last ∈ w.orderedPacketNumbers := List.mem_of_getLast? hlast
        have hmax := le_getLast h.sorted hlast
        simp only
        by_cases hback : n > last
        · have hnot : n ∉ w.orderedPacketNumbers := by
            intro hn
            exact absurd (hmax n hn) (UInt64.not_le.mpr hback)
          left
          rw [if_pos hback, insertSorted_last _ (fun a ha =>
            UInt64.lt_of_le_of_lt (hmax a ha) hback)]
          exact ⟨hin, hnot, rfl⟩
        · rw [if_neg hback]
          by_cases heq : n = last
          · right
            rw [if_pos heq, heq]
            exact ⟨fun hin => hin.2 hmem, rfl, rfl⟩
          · rw [if_neg heq]
            by_cases hin' : n ∈ w.orderedPacketNumbers
            · right
              rw [if_pos hin']
              exact ⟨fun hboth => hboth.2 hin', rfl, rfl⟩
            · left
              rw [if_neg hin']
              exact ⟨hin, hin', rfl⟩

/-- What an insertion does to a sound window: it stays sound, and it only gets
numbers of the inserted ones. -/
structure Extends (w w' : SlidingWindow) (ns : List UInt64) : Prop where
  sound : w'.Sound
  smallest : w'.smallestExpectedPacketNumber = w.smallestExpectedPacketNumber
  kept : ∀ n ∈ w.orderedPacketNumbers, n ∈ w'.orderedPacketNumbers
  source : ∀ n ∈ w'.orderedPacketNumbers, n ∈ w.orderedPacketNumbers ∨ n ∈ ns

theorem extends_refl {w : SlidingWindow} (h : w.Sound) (ns : List UInt64) : Extends w w ns :=
  ⟨h, rfl, fun _ hn => hn, fun _ hn => .inl hn⟩

theorem insertPacketNumber_extends {w : SlidingWindow} (h : w.Sound) (n : UInt64) :
    Extends w (w.insertPacketNumber n).2 [n] := by
  rcases insertPacketNumber_cases h n with ⟨hin, hnot, heq⟩ | ⟨-, -, heq⟩
  · rw [heq]
    refine ⟨⟨sorted_insertSorted h.sorted hnot, fun x hx => ?_⟩, rfl, fun x hx => ?_, fun x hx => ?_⟩
    · rcases (mem_insertSorted n x _).mp hx with rfl | hx
      · exact hin
      · exact h.within x hx
    · exact (mem_insertSorted n x _).mpr (.inr hx)
    · rcases (mem_insertSorted n x _).mp hx with rfl | hx
      · exact .inr (List.mem_singleton_self _)
      · exact .inl hx
  · rw [heq]
    exact extends_refl h _

theorem Extends.trans {w w' w'' : SlidingWindow} {n : UInt64} {ns : List UInt64}
    (h : Extends w w' [n]) (h' : Extends w' w'' ns) : Extends w w'' (n :: ns) := by
  refine ⟨h'.sound, h'.smallest.trans h.smallest, fun x hx => h'.kept x (h.kept x hx),
    fun x hx => ?_⟩
  rcases h'.source x hx with hx | hx
  · rcases h.source x hx with hx | hx
    · exact .inl hx
    · rw [List.mem_singleton.mp hx]
      exact .inr (List.mem_cons_self ..)
  · exact .inr (List.mem_cons_of_mem _ hx)

theorem insertEach_extends {w : SlidingWindow} (h : w.Sound) (ns : List UInt64) :
    Extends w (w.insertEach ns).2 ns := by
  induction ns generalizing w with
  | nil => exact extends_refl h _
  | cons n ns ih =>
    have hone := insertPacketNumber_extends h n
    unfold insertEach
    rcases hres : w.insertPacketNumber n with ⟨res, w'⟩
    rw [hres] at hone
    cases res with
    | ok _ => exact hone.trans (ih hone.sound)
    | err e => exact hone.trans (extends_refl hone.sound ns)
    | panicked f => exact hone.trans (extends_refl hone.sound ns)

theorem mem_rangeInclusive {base last n : UInt64} :
    n ∈ rangeInclusive base last ↔ base.toNat ≤ n.toNat ∧ n.toNat ≤ last.toNat := by
  have hlast := last.toNat_lt
  rw [rangeInclusive, List.mem_map]
  constructor
  · rintro ⟨i, hi, rfl⟩
    rw [List.mem_range] at hi
    rw [UInt64.toNat_add, UInt64.toNat_ofNat']
    omega
  · rintro ⟨hle, hle'⟩
    refine ⟨n.toNat - base.toNat, by rw [List.mem_range]; omega, ?_⟩
    rw [← UInt64.toNat_inj, UInt64.toNat_add, UInt64.toNat_ofNat']
    omega

theorem sorted_rangeInclusive (base last : UInt64) :
    (rangeInclusive base last).Pairwise (· < ·) := by
  have hlast := last.toNat_lt
  refine List.pairwise_map.mpr (List.Pairwise.imp_of_mem ?_ List.pairwise_lt_range)
  intro i j hi hj hij
  rw [List.mem_range] at hi hj
  rw [UInt64.lt_iff_toNat_lt]
  simp only [UInt64.toNat_add, UInt64.toNat_ofNat']
  omega

theorem extendsCleanly_lt {w : SlidingWindow} {base : UInt64} (h : w.Sound)
    (hclean : w.extendsCleanly base = true) : ∀ n ∈ w.orderedPacketNumbers, n < base := by
  -- the range is after the back: none of its numbers is there yet
  intro n hn
  unfold extendsCleanly at hclean
  split at hclean
  · rename_i hnone
    rw [List.getLast?_eq_none_iff.mp hnone] at hn
    cases hn
  · rename_i back hback
    exact UInt64.lt_of_le_of_lt (le_getLast h.sorted hback n hn) (of_decide_eq_true hclean)

theorem range_within {w : SlidingWindow} {base last n : UInt64}
    (hlow : ¬ base < w.smallestExpectedPacketNumber)
    (hnear : ¬ (last - w.smallestExpectedPacketNumber).toNat ≥ maxSlidingWindowSize)
    (hn : n ∈ rangeInclusive base last) : w.InWindow n := by
  obtain ⟨hle, hle'⟩ := mem_rangeInclusive.mp hn
  rw [UInt64.lt_iff_toNat_lt] at hlow
  rw [UInt64.toNat_sub_of_le _ _ (by rw [UInt64.le_iff_toNat_le]; omega)] at hnear
  exact ⟨by omega, by omega⟩

theorem insertRange_extends {w : SlidingWindow} (h : w.Sound) (base : UInt64) (count : UInt16) :
    Extends w (w.insertRange base count).2
      (if count = 0 then [] else rangeInclusive base (base + count.toUInt64 - 1)) := by
  unfold insertRange
  by_cases hcount : count = 0
  · simp only [if_pos hcount]
    exact extends_refl h _
  · simp only [if_neg hcount]
    by_cases hlow : base < w.smallestExpectedPacketNumber
    · simp only [if_pos hlow]
      exact extends_refl h _
    · simp only [if_neg hlow]
      by_cases hfar : (base + count.toUInt64 - 1 - w.smallestExpectedPacketNumber).toNat ≥
          maxSlidingWindowSize
      · simp only [if_pos hfar]
        exact extends_refl h _
      · simp only [if_neg hfar]
        by_cases hclean : w.extendsCleanly base = true
        · simp only [if_pos hclean]
          refine ⟨⟨?_, fun n hn => ?_⟩, rfl, fun n hn => List.mem_append_left _ hn,
            fun n hn => List.mem_append.mp hn⟩
          · refine List.pairwise_append.mpr
              ⟨h.sorted, sorted_rangeInclusive _ _, fun a ha b hb => ?_⟩
            have hbase := (mem_rangeInclusive.mp hb).1
            have hlt := UInt64.lt_iff_toNat_lt.mp (extendsCleanly_lt h hclean a ha)
            rw [UInt64.lt_iff_toNat_lt]
            omega
          · rcases List.mem_append.mp hn with hn | hn
            · exact h.within n hn
            · exact range_within hlow hfar hn
        · simp only [if_neg hclean]
          exact insertEach_extends h _

theorem insertEach_isOk_iff {w : SlidingWindow} (h : w.Sound) (ns : List UInt64)
    (hnodup : ns.Pairwise (· < ·)) :
    (w.insertEach ns).1.isOk = true ↔ ∀ n ∈ ns, w.InWindow n ∧ n ∉ w.orderedPacketNumbers := by
  induction ns generalizing w with
  | nil => simp [insertEach]
  | cons n ns ih =>
    obtain ⟨hhead, htail⟩ := List.pairwise_cons.mp hnodup
    unfold insertEach
    rcases insertPacketNumber_cases h n with ⟨hin, hnot, heq⟩ | ⟨hbad, herr, -⟩
    · have hsound := (insertPacketNumber_extends h n).sound
      rw [heq] at hsound
      simp only [heq, Outcome.orReturn, ih hsound htail, List.forall_mem_cons, hin, hnot,
        not_false_eq_true, and_self, true_and, mem_insertSorted, not_or]
      refine forall_congr' (fun x => forall_congr' (fun hx => ?_))
      have hne : x ≠ n := fun he => UInt64.lt_irrefl _ (he ▸ hhead x hx)
      simp only [hne, not_false_eq_true, true_and]
      rfl
    · rcases hres : w.insertPacketNumber n with ⟨res, w'⟩
      rw [hres] at herr
      have hfail : ¬ ∀ x ∈ n :: ns, w.InWindow x ∧ x ∉ w.orderedPacketNumbers :=
        fun hall => hbad (hall n (List.mem_cons_self ..))
      cases res with
      | ok _ => cases herr
      | err e => simp only [Outcome.orReturn, Outcome.isOk_err, Bool.false_eq_true, hfail]
      | panicked f => simp only [Outcome.orReturn, Outcome.isOk, Bool.false_eq_true, hfail]

theorem lastOfRange {base : UInt64} {count : UInt16} (hcount : count ≠ 0)
    (hsum : base.toNat + count.toNat ≤ 2 ^ 64) :
    (base + count.toUInt64 - 1).toNat = base.toNat + count.toNat - 1 := by
  have hpos : count.toNat ≠ 0 := fun he => hcount (UInt16.toNat_inj.mp he)
  have hbase := base.toNat_lt
  rw [UInt64.toNat_sub, UInt64.toNat_add, UInt16.toNat_toUInt64]
  simp only [UInt64.toNat_one]
  omega

theorem mem_rangeOfCount {base : UInt64} {count : UInt16} (hcount : count ≠ 0)
    (hsum : base.toNat + count.toNat ≤ 2 ^ 64) (n : UInt64) :
    n ∈ rangeInclusive base (base + count.toUInt64 - 1) ↔
      base.toNat ≤ n.toNat ∧ n.toNat < base.toNat + count.toNat := by
  have hpos : count.toNat ≠ 0 := fun he => hcount (UInt16.toNat_inj.mp he)
  rw [mem_rangeInclusive, lastOfRange hcount hsum]
  omega

/-- A range goes in exactly if each of its numbers could. -/
theorem insertRange_isOk_iff {w : SlidingWindow} (h : w.Sound) {base : UInt64} {count : UInt16}
    (hsum : base.toNat + count.toNat ≤ 2 ^ 64) :
    (w.insertRange base count).1.isOk = true ↔
      ∀ n : UInt64, base.toNat ≤ n.toNat → n.toNat < base.toNat + count.toNat →
        w.InWindow n ∧ n ∉ w.orderedPacketNumbers := by
  unfold insertRange
  by_cases hcount : count = 0
  · rw [if_pos hcount, hcount]
    refine iff_of_true rfl (fun n hle hlt => ?_)
    simp only [UInt16.toNat_zero] at hlt
    omega
  · have hpos : count.toNat ≠ 0 := fun he => hcount (UInt16.toNat_inj.mp he)
    have hlast := lastOfRange hcount hsum
    have hmem := mem_rangeOfCount hcount hsum
    rw [if_neg hcount]
    by_cases hlow : base < w.smallestExpectedPacketNumber
    · rw [if_pos hlow]
      refine iff_of_false (by simp) (fun hall => ?_)
      have hbase := (hall base (Nat.le_refl _) (by omega)).1.1
      rw [UInt64.lt_iff_toNat_lt] at hlow
      omega
    · rw [if_neg hlow]
      simp only
      by_cases hfar : (base + count.toUInt64 - 1 - w.smallestExpectedPacketNumber).toNat ≥
          maxSlidingWindowSize
      · rw [if_pos hfar]
        refine iff_of_false (by simp) (fun hall => ?_)
        have hend := (hall (base + count.toUInt64 - 1) (by omega) (by omega)).1
        rw [UInt64.toNat_sub_of_le _ _ (UInt64.le_iff_toNat_le.mpr hend.1)] at hfar
        obtain ⟨hle, hlt⟩ := hend
        omega
      · rw [if_neg hfar]
        by_cases hclean : w.extendsCleanly base = true
        · rw [if_pos hclean]
          refine iff_of_true rfl (fun n hle hlt => ⟨?_, fun hn => ?_⟩)
          · exact range_within hlow hfar ((hmem n).mpr ⟨hle, hlt⟩)
          · have hbefore := UInt64.lt_iff_toNat_lt.mp (extendsCleanly_lt h hclean n hn)
            omega
        · rw [if_neg hclean, insertEach_isOk_iff h _ (sorted_rangeInclusive _ _)]
          simp only [hmem, and_imp]

/-! ### `consume` -/

/-- Every number from the smallest expected one up to `m` is there. -/
def Contiguous (w : SlidingWindow) (m : UInt64) : Prop :=
  w.smallestExpectedPacketNumber ≤ m ∧
    ∀ n, w.smallestExpectedPacketNumber ≤ n → n ≤ m → n ∈ w.orderedPacketNumbers

structure RunFrom (first : UInt64) (numbers : List UInt64) (last : UInt64) (rest : List UInt64) :
    Prop where
  le : first.toNat ≤ last.toNat
  all : ∀ n : UInt64, first.toNat ≤ n.toNat → n.toNat ≤ last.toNat → n ∈ first :: numbers
  gap : ∀ n : UInt64, n.toNat = last.toNat + 1 → n ∉ numbers
  rest_iff : ∀ n : UInt64, n ∈ rest ↔ n ∈ numbers ∧ last.toNat < n.toNat
  sublist : rest.Sublist numbers

theorem consumeLoop_run (first : UInt64) (numbers : List UInt64)
    (hs : (first :: numbers).Pairwise (· < ·)) :
    RunFrom first numbers (consumeLoop first numbers).1 (consumeLoop first numbers).2 := by
  induction numbers generalizing first with
  | nil =>
    refine ⟨Nat.le_refl _, fun n hle hle' => ?_, by simp, by simp [consumeLoop], .slnil⟩
    have he : n.toNat = first.toNat := Nat.le_antisymm hle' hle
    rw [UInt64.toNat_inj.mp he]
    exact List.mem_cons_self ..
  | cons p numbers ih =>
    obtain ⟨hhead, htail⟩ := List.pairwise_cons.mp hs
    have hp := UInt64.lt_iff_toNat_lt.mp (hhead p (List.mem_cons_self ..))
    have hafter : ∀ n ∈ numbers, p.toNat < n.toNat := fun n hn =>
      UInt64.lt_iff_toNat_lt.mp ((List.pairwise_cons.mp htail).1 n hn)
    have hbound := p.toNat_lt
    have hsucc : p = first + 1 ↔ p.toNat = first.toNat + 1 := by
      rw [← UInt64.toNat_inj, UInt64.toNat_add]
      simp only [UInt64.toNat_one]
      omega
    unfold consumeLoop
    by_cases hnext : p = first + 1
    · obtain ⟨hle, hall, hgap, hrest, hsub⟩ := ih p htail
      rw [if_pos hnext]
      have hp' := hsucc.mp hnext
      refine ⟨by omega, fun n hn hn' => ?_, fun n hn => ?_, fun n => ?_, hsub.cons p⟩
      · by_cases he : n.toNat = first.toNat
        · rw [UInt64.toNat_inj.mp he]
          exact List.mem_cons_self ..
        · exact List.mem_cons_of_mem _ (hall n (by omega) hn')
      · rw [List.mem_cons, not_or]
        refine ⟨fun he => ?_, hgap n hn⟩
        rw [he] at hn
        omega
      · rw [hrest n, List.mem_cons]
        constructor
        · rintro ⟨hn, hlt⟩
          exact ⟨.inr hn, hlt⟩
        · rintro ⟨rfl | hn, hlt⟩
          · omega
          · exact ⟨hn, hlt⟩
    · rw [if_neg hnext]
      dsimp only
      have hp' := mt hsucc.mpr hnext
      refine ⟨Nat.le_refl _, fun n hle hle' => ?_, fun n hn hmem => ?_, fun n => ?_,
        List.Sublist.refl _⟩
      · rw [UInt64.toNat_inj.mp (Nat.le_antisymm hle' hle)]
        exact List.mem_cons_self ..
      · rcases List.mem_cons.mp hmem with rfl | hmem
        · exact hp' hn
        · have hlt := hafter n hmem
          omega
      · refine ⟨fun hn => ⟨hn, ?_⟩, fun hn => hn.1⟩
        exact UInt64.lt_iff_toNat_lt.mp (hhead n hn)

theorem consume_none {w : SlidingWindow} (h : w.Sound)
    (hmissing : w.smallestExpectedPacketNumber ∉ w.orderedPacketNumbers) :
    w.consume = (none, w) := by
  unfold consume
  cases hnumbers : w.orderedPacketNumbers with
  | nil => rfl
  | cons first rest =>
    have hmem : first ∈ w.orderedPacketNumbers := by simp [hnumbers]
    have hne : first ≠ w.smallestExpectedPacketNumber := fun he => hmissing (he ▸ hmem)
    have hlt : first > w.smallestExpectedPacketNumber := by
      have hle := (h.within first hmem).1
      have hne' : first.toNat ≠ w.smallestExpectedPacketNumber.toNat :=
        fun he => hne (UInt64.toNat_inj.mp he)
      rw [gt_iff_lt, UInt64.lt_iff_toNat_lt]
      omega
    simp only [if_pos hlt]

/-- What `consume` takes out of a sound window that has the number it waits for. -/
structure Takes (w : SlidingWindow) (m : UInt64) : Prop where
  result : w.consume.1 = some ⟨m, m - w.smallestExpectedPacketNumber + 1⟩
  smallest : w.consume.2.smallestExpectedPacketNumber = m + 1
  contiguous : w.Contiguous m
  gap : ∀ n : UInt64, n.toNat = m.toNat + 1 → n ∉ w.orderedPacketNumbers
  rest : ∀ n : UInt64, n ∈ w.consume.2.orderedPacketNumbers ↔
    n ∈ w.orderedPacketNumbers ∧ m < n
  sound : w.consume.2.Sound

theorem consume_takes {w : SlidingWindow} (h : w.Sound)
    (hthere : w.smallestExpectedPacketNumber ∈ w.orderedPacketNumbers) : ∃ m, w.Takes m := by
  obtain ⟨smallest, numbers⟩ := w
  obtain ⟨hsorted, hwithin⟩ := h
  simp only [InWindow] at hsorted hwithin hthere
  cases numbers with
  | nil => cases hthere
  | cons first rest =>
    have hbound := hwithin first (List.mem_cons_self ..)
    have hfirst : first = smallest := by
      rcases List.mem_cons.mp hthere with he | hmem
      · exact he.symm
      · have hlt := UInt64.lt_iff_toNat_lt.mp ((List.pairwise_cons.mp hsorted).1 _ hmem)
        omega
    subst hfirst
    obtain ⟨hle, hall, hgap, hrest, hsub⟩ := consumeLoop_run first rest hsorted
    have hconsume : (mk first (first :: rest)).consume =
        (some ⟨(consumeLoop first rest).1, (consumeLoop first rest).1 - first + 1⟩,
          ⟨(consumeLoop first rest).1 + 1, (consumeLoop first rest).2⟩) := by
      simp only [consume, gt_iff_lt, UInt64.lt_irrefl, if_false]
    refine ⟨(consumeLoop first rest).1, ?_, ?_, ⟨?_, ?_⟩, ?_, ?_, ?_⟩
    · rw [hconsume]
    · rw [hconsume]
    · exact UInt64.le_iff_toNat_le.mpr hle
    · intro n hn hn'
      exact hall n (UInt64.le_iff_toNat_le.mp hn) (UInt64.le_iff_toNat_le.mp hn')
    · intro n hn hmem
      rcases List.mem_cons.mp hmem with rfl | hmem
      · omega
      · exact hgap n hn hmem
    · intro n
      rw [hconsume, hrest n, List.mem_cons, UInt64.lt_iff_toNat_lt]
      constructor
      · rintro ⟨hn, hlt⟩
        exact ⟨.inr hn, hlt⟩
      · rintro ⟨rfl | hn, hlt⟩
        · omega
        · exact ⟨hn, hlt⟩
    · rw [hconsume]
      refine ⟨(List.pairwise_cons.mp hsorted).2.sublist hsub, fun n hn => ?_⟩
      obtain ⟨hmem, hlt⟩ := (hrest n).mp hn
      have hin := hwithin n (List.mem_cons_of_mem _ hmem)
      have hnlt := n.toNat_lt
      have hsucc : ((consumeLoop first rest).1 + 1).toNat =
          (consumeLoop first rest).1.toNat + 1 := by
        rw [UInt64.toNat_add]
        simp only [UInt64.toNat_one]
        omega
      simp only [InWindow, hsucc]
      omega

theorem consume_sound {w : SlidingWindow} (h : w.Sound) : w.consume.2.Sound := by
  by_cases hthere : w.smallestExpectedPacketNumber ∈ w.orderedPacketNumbers
  · obtain ⟨m, hm⟩ := consume_takes h hthere
    exact hm.sound
  · rw [consume_none h hthere]
    exact h

/-! ### Every sequence of calls -/

inductive Call where
  | insertPacketNumber (packetNumber : UInt64)
  | insertRange (base : UInt64) (count : UInt16)
  | consume
  deriving DecidableEq, Repr

/-- No number or sum of the call comes to `2 ^ 64 - 1` or beyond. -/
def Call.Small : Call → Prop
  | .insertPacketNumber packetNumber => packetNumber.toNat + 1 < 2 ^ 64
  | .insertRange base count => base.toNat + count.toNat < 2 ^ 64
  | .consume => True

instance : DecidablePred Call.Small := fun c => match c with
  | .insertPacketNumber packetNumber =>
    inferInstanceAs (Decidable (packetNumber.toNat + 1 < 2 ^ 64))
  | .insertRange base count => inferInstanceAs (Decidable (base.toNat + count.toNat < 2 ^ 64))
  | .consume => inferInstanceAs (Decidable True)

def call (st : SlidingWindow × List SlidingWindowConsumeResult) :
    Call → SlidingWindow × List SlidingWindowConsumeResult
  | .insertPacketNumber packetNumber => ((st.1.insertPacketNumber packetNumber).2, st.2)
  | .insertRange base count => ((st.1.insertRange base count).2, st.2)
  | .consume => (st.1.consume.2, st.2 ++ st.1.consume.1.toList)

def calls (s : UInt64) (cs : List Call) : SlidingWindow × List SlidingWindowConsumeResult :=
  cs.foldl call (new s, [])

def totalAcks (results : List SlidingWindowConsumeResult) : ℕ :=
  (results.map fun r => r.numAcksConsumed.toNat).sum

/-- The window is sound, its numbers are small, and it has moved by what was consumed. -/
structure Kept (s : UInt64) (st : SlidingWindow × List SlidingWindowConsumeResult) : Prop where
  sound : st.1.Sound
  small : ∀ n ∈ st.1.orderedPacketNumbers, n.toNat + 1 < 2 ^ 64
  total : st.1.smallestExpectedPacketNumber.toNat = s.toNat + totalAcks st.2
  last : ∀ r ∈ st.2.getLast?, r.largestPacketNumber.toNat + 1 =
    st.1.smallestExpectedPacketNumber.toNat

theorem kept_extends {s : UInt64} {w w' : SlidingWindow} {ns : List UInt64}
    {results : List SlidingWindowConsumeResult} (hkept : Kept s (w, results))
    (h : Extends w w' ns) (hsmall : ∀ n ∈ ns, n.toNat + 1 < 2 ^ 64) : Kept s (w', results) := by
  refine ⟨h.sound, fun n hn => ?_, ?_, ?_⟩
  · rcases h.source n hn with hn | hn
    · exact hkept.small n hn
    · exact hsmall n hn
  · simp only [h.smallest]
    exact hkept.total
  · simp only [h.smallest]
    exact hkept.last

theorem takes_small {w : SlidingWindow} {m : UInt64} (h : w.Takes m)
    (hsmall : ∀ n ∈ w.orderedPacketNumbers, n.toNat + 1 < 2 ^ 64) :
    (m + 1).toNat = m.toNat + 1 ∧
      (m - w.smallestExpectedPacketNumber + 1).toNat + w.smallestExpectedPacketNumber.toNat =
        m.toNat + 1 := by
  have hle := h.contiguous.1
  have hm := hsmall m (h.contiguous.2 m hle (UInt64.le_refl _))
  have hle' := UInt64.le_iff_toNat_le.mp hle
  refine ⟨?_, ?_⟩
  · rw [UInt64.toNat_add]
    simp only [UInt64.toNat_one]
    omega
  · rw [UInt64.toNat_add, UInt64.toNat_sub_of_le _ _ hle]
    simp only [UInt64.toNat_one]
    omega

theorem kept_call {s : UInt64} {st : SlidingWindow × List SlidingWindowConsumeResult}
    (hkept : Kept s st) (c : Call) (hc : c.Small) : Kept s (call st c) := by
  obtain ⟨w, results⟩ := st
  have hsound : w.Sound := hkept.sound
  cases c with
  | insertPacketNumber n =>
    refine kept_extends hkept (insertPacketNumber_extends hsound n) (fun x hx => ?_)
    rw [List.mem_singleton.mp hx]
    exact hc
  | insertRange base count =>
    refine kept_extends hkept (insertRange_extends hsound base count) (fun x hx => ?_)
    by_cases hcount : count = 0
    · rw [if_pos hcount] at hx
      cases hx
    · rw [if_neg hcount] at hx
      have hsum : base.toNat + count.toNat < 2 ^ 64 := hc
      have hlt := ((mem_rangeOfCount hcount (Nat.le_of_lt hsum) x).mp hx).2
      omega
  | consume =>
    by_cases hthere : w.smallestExpectedPacketNumber ∈ w.orderedPacketNumbers
    · obtain ⟨m, hm⟩ := consume_takes hsound hthere
      obtain ⟨hsucc, hcount⟩ := takes_small hm hkept.small
      have htotal : w.smallestExpectedPacketNumber.toNat = s.toNat + totalAcks results :=
        hkept.total
      refine ⟨hm.sound, fun n hn => hkept.small n ((hm.rest n).mp hn).1, ?_, ?_⟩
      · simp only [call, hm.result, hm.smallest, Option.toList_some, totalAcks, List.map_append,
          List.sum_append, List.map_cons, List.map_nil, List.sum_singleton, hsucc]
        simp only [totalAcks] at htotal
        omega
      · intro r hr
        simp only [call, hm.result, Option.toList_some, List.getLast?_concat,
          Option.mem_def, Option.some.injEq] at hr
        simp only [call, hm.smallest, hsucc, ← hr]
    · simp only [call, consume_none hsound hthere, Option.toList_none, List.append_nil]
      exact hkept

theorem kept_calls (s : UInt64) (cs : List Call) (hcs : ∀ c ∈ cs, c.Small) :
    Kept s (calls s cs) := by
  have hstart : Kept s (new s, []) := ⟨sound_new s, by simp [new], rfl, by simp⟩
  unfold calls
  revert hstart
  generalize ((new s, []) : SlidingWindow × List SlidingWindowConsumeResult) = st
  intro hstart
  induction cs generalizing st with
  | nil => exact hstart
  | cons c cs ih =>
    exact ih (fun d hd => hcs d (List.mem_cons_of_mem _ hd)) _
      (kept_call hstart c (hcs c (List.mem_cons_self ..)))

/-- What a window tells, with the results of the `consume` calls so far. -/
structure Meaning (s : UInt64) (w : SlidingWindow) (results : List SlidingWindowConsumeResult) :
    Prop where
  sorted : w.orderedPacketNumbers.Pairwise (· < ·)
  within : ∀ n ∈ w.orderedPacketNumbers, w.InWindow n
  insert_iff : ∀ n, (w.insertPacketNumber n).1.isOk = true ↔
    w.InWindow n ∧ n ∉ w.orderedPacketNumbers
  insert_ok : ∀ n, (w.insertPacketNumber n).1.isOk = true →
    ∀ x, x ∈ (w.insertPacketNumber n).2.orderedPacketNumbers ↔ x = n ∨ x ∈ w.orderedPacketNumbers
  insert_err : ∀ n, (w.insertPacketNumber n).1.isOk = false → (w.insertPacketNumber n).2 = w
  range_iff : ∀ base count, base.toNat + count.toNat < 2 ^ 64 →
    ((w.insertRange base count).1.isOk = true ↔
      ∀ n : UInt64, base.toNat ≤ n.toNat → n.toNat < base.toNat + count.toNat →
        w.InWindow n ∧ n ∉ w.orderedPacketNumbers)
  consume_missing : w.smallestExpectedPacketNumber ∉ w.orderedPacketNumbers →
    w.consume = (none, w)
  consume_there : w.smallestExpectedPacketNumber ∈ w.orderedPacketNumbers → ∃ r,
    w.consume.1 = some r ∧ w.Contiguous r.largestPacketNumber ∧
    (∀ m, w.Contiguous m → m ≤ r.largestPacketNumber) ∧
    (∀ n, n ∈ w.consume.2.orderedPacketNumbers ↔
      n ∈ w.orderedPacketNumbers ∧ r.largestPacketNumber < n) ∧
    w.consume.2.smallestExpectedPacketNumber.toNat = r.largestPacketNumber.toNat + 1
  total : ∀ r ∈ results.getLast?,
    s.toNat + totalAcks results = r.largestPacketNumber.toNat + 1

/-- After any sequence of calls the window means what it should. -/
theorem window_meaning (s : UInt64) (cs : List Call) (hcs : ∀ c ∈ cs, c.Small) :
    Meaning s (calls s cs).1 (calls s cs).2 := by
  have hkept := kept_calls s cs hcs
  rcases hst : calls s cs with ⟨w, results⟩
  rw [hst] at hkept
  have hsound : w.Sound := hkept.sound
  have hcases := insertPacketNumber_cases hsound
  refine ⟨hsound.sorted, hsound.within, fun n => ?_, fun n hok x => ?_, fun n herr => ?_,
    fun base count hsum => insertRange_isOk_iff hsound (Nat.le_of_lt hsum), consume_none hsound, fun hthere => ?_,
    fun r hr => ?_⟩
  · rcases hcases n with ⟨hin, hnot, heq⟩ | ⟨hbad, herr, -⟩
    · exact iff_of_true (by rw [heq]; rfl) ⟨hin, hnot⟩
    · exact iff_of_false (by rw [herr]; simp) hbad
  · rcases hcases n with ⟨-, -, heq⟩ | ⟨-, herr, -⟩
    · rw [heq]
      exact mem_insertSorted n x _
    · rw [herr] at hok
      cases hok
  · rcases hcases n with ⟨-, -, heq⟩ | ⟨-, -, hsame⟩
    · rw [heq] at herr
      cases herr
    · exact hsame
  · obtain ⟨m, hm⟩ := consume_takes hsound hthere
    refine ⟨_, hm.result, hm.contiguous, fun m' hm' => ?_, hm.rest, ?_⟩
    · -- the number after the run is missing
      have hle := UInt64.le_iff_toNat_le.mp hm.contiguous.1
      have hlt := m'.toNat_lt
      by_contra hgt
      rw [UInt64.not_le, UInt64.lt_iff_toNat_lt] at hgt
      dsimp only at hle hgt
      have hnext : (UInt64.ofNat (m.toNat + 1)).toNat = m.toNat + 1 := by
        rw [UInt64.toNat_ofNat']
        omega
      refine hm.gap _ hnext (hm'.2 _ ?_ ?_)
      · rw [UInt64.le_iff_toNat_le]
        dsimp only
        omega
      · rw [UInt64.le_iff_toNat_le]
        omega
    · rw [hm.smallest]
      exact (takes_small hm hkept.small).1
  · exact hkept.total.symm.trans (hkept.last r hr).symm

/-- Numbers out of order, a gap, and a range that closes it and then overlaps. -/
def sampleCalls : List Call :=
  [.insertPacketNumber 4, .consume, .insertPacketNumber 3, .consume, .insertRange 7 2, .consume,
    .insertRange 5 3, .consume]

theorem window_meaning_sampleCalls :
    calls 3 sampleCalls = (⟨9, []⟩, [⟨4, 2⟩, ⟨8, 4⟩]) ∧
      Meaning 3 (calls 3 sampleCalls).1 (calls 3 sampleCalls).2 :=
  ⟨by decide, window_meaning 3 sampleCalls (by decide)⟩

end SlidingWindow

end Bluefin
