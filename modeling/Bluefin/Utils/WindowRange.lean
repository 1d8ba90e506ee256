import Bluefin.Base.Overflow
import Bluefin.Utils.WindowInvariant

/-!
# A range against its numbers one by one

`insert_range` is meant to do what `insert_packet_number` does on each number of
the range in turn, apart from a range that does not fit into the window, which
is refused as a whole. The sum `base + count` is computed on the way to the last
number of the range and does not fit into 64 bits for a range that ends with
`2 ^ 64 - 1`; what happens then depends on the build.
-/

namespace Bluefin
open Base

namespace SlidingWindow

/-- window.rs:92-132 in a build with or without overflow checks: the result, or `none` for the panic
of an overflow, and the window as it is left. -/
def insertRangeIn (checks : Bool) (w : SlidingWindow) (base : UInt64) (count : UInt16) :
    Option (BluefinResult Unit) × SlidingWindow :=
  if count = 0 then (some (.ok ()), w)
  else if base < w.smallestExpectedPacketNumber then (some (.err .unexpectedPacketNumberError), w)
  else match (do
      let sum ← addIn checks base count.toUInt64
      let last ← subIn checks sum 1
      let ahead ← subIn checks last w.smallestExpectedPacketNumber
      pure (last, ahead)) with
    | none => (none, w)
    | some (last, ahead) =>
      if ahead.toNat ≥ maxSlidingWindowSize then
        (some (.err (.bufferFullError "Sliding window buffer is full")), w)
      else if w.extendsCleanly base then
        (some (.ok ()), { w with
          orderedPacketNumbers := w.orderedPacketNumbers ++ rangeInclusive base last })
      else
        let (res, w) := w.insertEach (rangeInclusive base last)
        (some res, w)

/-- The numbers `base`, `base + 1`, ... of the range. -/
def numbersFrom (base : UInt64) (count : UInt16) : List UInt64 :=
  (List.range count.toNat).map fun i => base + UInt64.ofNat i

/-- One `insert_packet_number` for each of them, up to the first failure. -/
def insertOneByOne (w : SlidingWindow) (base : UInt64) (count : UInt16) :
    BluefinResult Unit × SlidingWindow := w.insertEach (numbersFrom base count)

/-! ### The two builds -/

theorem range_arithmetic {checks : Bool} {w : SlidingWindow} {base : UInt64} {count : UInt16}
    (hcount : count ≠ 0) (hlow : ¬ base < w.smallestExpectedPacketNumber)
    (h : checks = false ∨ base.toNat + count.toNat < 2 ^ 64) :
    (do
      let sum ← addIn checks base count.toUInt64
      let last ← subIn checks sum 1
      let ahead ← subIn checks last w.smallestExpectedPacketNumber
      pure (last, ahead)) =
      some (base + count.toUInt64 - 1,
        base + count.toUInt64 - 1 - w.smallestExpectedPacketNumber) := by
  have hpos : count.toNat ≠ 0 := fun he => hcount (UInt16.toNat_inj.mp he)
  have hsum : checks = false ∨ base.toNat + count.toUInt64.toNat < 2 ^ 64 := by
    rwa [UInt16.toNat_toUInt64]
  have hone : checks = false ∨ (1 : UInt64).toNat ≤ (base + count.toUInt64).toNat := by
    refine hsum.imp_right fun hfits => ?_
    rw [toNat_add_of_lt hfits, UInt16.toNat_toUInt64, UInt64.toNat_one]
    omega
  have hsmallest : checks = false ∨
      w.smallestExpectedPacketNumber.toNat ≤ (base + count.toUInt64 - 1).toNat := by
    refine h.imp_right fun hfits => ?_
    have hlast := lastOfRange hcount (Nat.le_of_lt hfits)
    rw [UInt64.lt_iff_toNat_lt] at hlow
    omega
  simp only [addIn_eq hsum, subIn_eq hone, subIn_eq hsmallest, Option.bind_eq_bind,
    Option.bind_some, Option.pure_def]

/-- Unless the sum overflows with checks, the two builds do the same. -/
theorem insertRangeIn_eq (checks : Bool) (w : SlidingWindow) {base : UInt64} {count : UInt16}
    (h : checks = false ∨ base.toNat + count.toNat < 2 ^ 64 ∨ count = 0 ∨
      base.toNat < w.smallestExpectedPacketNumber.toNat) :
    w.insertRangeIn checks base count =
      (some (w.insertRange base count).1, (w.insertRange base count).2) := by
  unfold insertRangeIn insertRange
  by_cases hcount : count = 0
  · rw [if_pos hcount, if_pos hcount]
  · rw [if_neg hcount, if_neg hcount]
    by_cases hlow : base < w.smallestExpectedPacketNumber
    · rw [if_pos hlow, if_pos hlow]
    · rw [if_neg hlow, if_neg hlow]
      have hfits : checks = false ∨ base.toNat + count.toNat < 2 ^ 64 := by
        rcases h with hchecks | hfits | hzero | hbelow
        · exact .inl hchecks
        · exact .inr hfits
        · exact absurd hzero hcount
        · exact absurd (UInt64.lt_iff_toNat_lt.mpr hbelow) hlow
      rw [range_arithmetic hcount hlow hfits]
      dsimp only
      by_cases hfar : (base + count.toUInt64 - 1 - w.smallestExpectedPacketNumber).toNat ≥
          maxSlidingWindowSize
      · rw [if_pos hfar, if_pos hfar]
      · rw [if_neg hfar, if_neg hfar]
        by_cases hclean : w.extendsCleanly base = true
        · rw [if_pos hclean, if_pos hclean]
        · rw [if_neg hclean, if_neg hclean]

theorem insertRangeIn_overflow {w : SlidingWindow} {base : UInt64} {count : UInt16}
    (hcount : count ≠ 0) (hlow : ¬ base < w.smallestExpectedPacketNumber)
    (hover : 2 ^ 64 ≤ base.toNat + count.toNat) : w.insertRangeIn true base count = (none, w) := by
  have hsum : 2 ^ 64 ≤ base.toNat + count.toUInt64.toNat := by rwa [UInt16.toNat_toUInt64]
  unfold insertRangeIn
  rw [if_neg hcount, if_neg hlow, addIn_overflow hsum]
  rfl

/-! ### The loop -/

theorem numbersFrom_eq {base : UInt64} {count : UInt16} (hcount : count ≠ 0)
    (hsum : base.toNat + count.toNat ≤ 2 ^ 64) :
    numbersFrom base count = rangeInclusive base (base + count.toUInt64 - 1) := by
  have hpos : count.toNat ≠ 0 := fun he => hcount (UInt16.toNat_inj.mp he)
  rw [numbersFrom, rangeInclusive, lastOfRange hcount hsum]
  congr 2
  omega

theorem aheadOfRange {s base : UInt64} {count : UInt16} (hcount : count ≠ 0)
    (hsum : base.toNat + count.toNat ≤ 2 ^ 64) (hlow : s.toNat ≤ base.toNat) :
    (base + count.toUInt64 - 1 - s).toNat = base.toNat + count.toNat - 1 - s.toNat := by
  have hpos : count.toNat ≠ 0 := fun he => hcount (UInt16.toNat_inj.mp he)
  have hlast := lastOfRange hcount hsum
  have hle : s ≤ base + count.toUInt64 - 1 := by
    rw [UInt64.le_iff_toNat_le]
    omega
  rw [UInt64.toNat_sub_of_le _ _ hle, hlast]

theorem insertEach_append {w : SlidingWindow} (h : w.Sound) (ns : List UInt64)
    (hsorted : ns.Pairwise (· < ·)) (hin : ∀ n ∈ ns, w.InWindow n)
    (hafter : ∀ n ∈ ns, ∀ a ∈ w.orderedPacketNumbers, a < n) :
    w.insertEach ns =
      (.ok (), { w with orderedPacketNumbers := w.orderedPacketNumbers ++ ns }) := by
  induction ns generalizing w with
  | nil => simp [insertEach]
  | cons n ns ih =>
    obtain ⟨hhead, htail⟩ := List.pairwise_cons.mp hsorted
    have hback := hafter n (List.mem_cons_self ..)
    have hnot : n ∉ w.orderedPacketNumbers := fun hmem => UInt64.lt_irrefl n (hback n hmem)
    have hone := insertPacketNumber_extends h n
    rcases insertPacketNumber_cases h n with ⟨-, -, heq⟩ | ⟨hbad, -, -⟩
    · rw [heq, insertSorted_last _ hback] at hone
      have hrest := ih hone.sound htail (fun x hx => hin x (List.mem_cons_of_mem _ hx))
        (by
          intro x hx a ha
          rcases List.mem_append.mp ha with ha | ha
          · exact hafter x (List.mem_cons_of_mem _ hx) a ha
          · rw [List.mem_singleton.mp ha]
            exact hhead x hx)
      rw [insertEach, heq, insertSorted_last _ hback]
      simp only [Outcome.orReturn]
      rw [hrest, List.append_assoc, List.singleton_append]
    · exact absurd ⟨hin n (List.mem_cons_self ..), hnot⟩ hbad

/-- Without overflow a range inside the window is inserted as by the loop, on both paths. -/
theorem insertRange_inside {w : SlidingWindow} (h : w.Sound) {base : UInt64} {count : UInt16}
    (hsum : base.toNat + count.toNat ≤ 2 ^ 64)
    (hlow : w.smallestExpectedPacketNumber.toNat ≤ base.toNat)
    (hnear : base.toNat + count.toNat ≤
      w.smallestExpectedPacketNumber.toNat + maxSlidingWindowSize) :
    w.insertRange base count = w.insertOneByOne base count := by
  by_cases hcount : count = 0
  · rw [insertRange, if_pos hcount, hcount]
    rfl
  · have hpos : count.toNat ≠ 0 := fun he => hcount (UInt16.toNat_inj.mp he)
    have hmem := mem_rangeOfCount hcount hsum
    have hnotlow : ¬ base < w.smallestExpectedPacketNumber := by
      rw [UInt64.lt_iff_toNat_lt]
      omega
    have hahead := aheadOfRange hcount hsum hlow
    have hnotfar : ¬ (base + count.toUInt64 - 1 - w.smallestExpectedPacketNumber).toNat ≥
        maxSlidingWindowSize := by omega
    rw [insertOneByOne, numbersFrom_eq hcount hsum, insertRange, if_neg hcount, if_neg hnotlow]
    dsimp only
    rw [if_neg hnotfar]
    by_cases hclean : w.extendsCleanly base = true
    · rw [if_pos hclean, insertEach_append h _ (sorted_rangeInclusive _ _)
        (fun n hn => range_within hnotlow hnotfar hn)]
      intro n hn a ha
      have hbefore := UInt64.lt_iff_toNat_lt.mp (extendsCleanly_lt h hclean a ha)
      have hle := ((hmem n).mp hn).1
      rw [UInt64.lt_iff_toNat_lt]
      omega
    · rw [if_neg hclean]

theorem isOk_iff_eq {x : BluefinResult Unit} : x.isOk = true ↔ x = .ok () := by
  cases x <;> simp [Outcome.isOk]

/-- A range that is not inside the window as a whole: refused, with the window as it was, and the
loop fails too. -/
theorem insertRange_outside {w : SlidingWindow} (h : w.Sound) {base : UInt64} {count : UInt16}
    (hsum : base.toNat + count.toNat ≤ 2 ^ 64) (hcount : count ≠ 0)
    (hout : base.toNat < w.smallestExpectedPacketNumber.toNat ∨
      w.smallestExpectedPacketNumber.toNat + maxSlidingWindowSize < base.toNat + count.toNat) :
    (w.insertRange base count).1 ≠ .ok () ∧ (w.insertRange base count).2 = w ∧
      (w.insertOneByOne base count).1 ≠ .ok () := by
  have hpos : count.toNat ≠ 0 := fun he => hcount (UInt16.toNat_inj.mp he)
  have hlast := lastOfRange hcount hsum
  have hmem := mem_rangeOfCount hcount hsum
  -- the first number is below the window, or the last one is above it
  have hbad : ∃ n, n ∈ rangeInclusive base (base + count.toUInt64 - 1) ∧ ¬ w.InWindow n := by
    rcases hout with hlow | hfar
    · refine ⟨base, (hmem base).mpr ⟨Nat.le_refl _, by omega⟩, fun hin => ?_⟩
      have hle := hin.1
      omega
    · refine ⟨base + count.toUInt64 - 1, (hmem _).mpr ⟨by omega, by omega⟩, fun hin => ?_⟩
      have hlt := hin.2
      omega
  obtain ⟨n, hn, hnot⟩ := hbad
  refine ⟨?_, ?_, ?_⟩
  · rw [ne_eq, ← isOk_iff_eq, insertRange_isOk_iff h hsum]
    intro hall
    obtain ⟨hle, hlt⟩ := (hmem n).mp hn
    exact hnot (hall n hle hlt).1
  · unfold insertRange
    rw [if_neg hcount]
    by_cases hlow : base < w.smallestExpectedPacketNumber
    · rw [if_pos hlow]
    · have hle := UInt64.le_iff_toNat_le.mp (UInt64.not_lt.mp hlow)
      have hahead := aheadOfRange hcount hsum hle
      rw [if_neg hlow]
      dsimp only
      rw [if_pos (by omega)]
  · rw [insertOneByOne, numbersFrom_eq hcount hsum, ne_eq, ← isOk_iff_eq,
      insertEach_isOk_iff h _ (sorted_rangeInclusive _ _)]
    intro hall
    exact hnot (hall n hn).1

/-! ### Reachable windows -/

theorem sound_call {st : SlidingWindow × List SlidingWindowConsumeResult} (h : st.1.Sound)
    (c : Call) : (call st c).1.Sound := by
  cases c with
  | insertPacketNumber n => exact (insertPacketNumber_extends h n).sound
  | insertRange base count => exact (insertRange_extends h base count).sound
  | consume => exact consume_sound h

theorem sound_calls (s : UInt64) (cs : List Call) : (calls s cs).1.Sound := by
  suffices h : ∀ st : SlidingWindow × List SlidingWindowConsumeResult, st.1.Sound →
      (cs.foldl call st).1.Sound from h _ (sound_new s)
  induction cs with
  | nil => exact fun st hst => hst
  | cons c cs ih => exact fun st hst => ih (call st c) (sound_call hst c)

/-- `insert_range` on a window does what the loop does: it succeeds exactly if the
loop does, with the same window; a range that is not inside the window leaves it
as it was; any other range ends as the loop stopped at its first failure. -/
structure MatchesLoop (checks : Bool) (w : SlidingWindow) (base : UInt64) (count : UInt16) :
    Prop where
  ok_iff : (w.insertRangeIn checks base count).1 = some (.ok ()) ↔
    (w.insertOneByOne base count).1 = .ok ()
  ok_same : (w.insertRangeIn checks base count).1 = some (.ok ()) →
    (w.insertRangeIn checks base count).2 = (w.insertOneByOne base count).2
  outside : base.toNat < w.smallestExpectedPacketNumber.toNat ∨
      w.smallestExpectedPacketNumber.toNat + maxSlidingWindowSize < base.toNat + count.toNat →
    (w.insertRangeIn checks base count).2 = w
  inside : w.smallestExpectedPacketNumber.toNat ≤ base.toNat →
    base.toNat + count.toNat ≤ w.smallestExpectedPacketNumber.toNat + maxSlidingWindowSize →
    w.insertRangeIn checks base count =
      (some (w.insertOneByOne base count).1, (w.insertOneByOne base count).2)

/-- The sum that is computed on the way does not panic where the range is inside the window. -/
def SumFits (checks : Bool) (w : SlidingWindow) (base : UInt64) (count : UInt16) : Prop :=
  checks = false ∨ base.toNat + count.toNat < 2 ^ 64 ∨ count = 0 ∨
    base.toNat < w.smallestExpectedPacketNumber.toNat ∨
    w.smallestExpectedPacketNumber.toNat + maxSlidingWindowSize < base.toNat + count.toNat

theorem matchesLoop_of_fails {checks : Bool} {w : SlidingWindow} {base : UInt64} {count : UInt16}
    (hfails : (w.insertRangeIn checks base count).1 ≠ some (.ok ()))
    (hsame : (w.insertRangeIn checks base count).2 = w)
    (hloop : (w.insertOneByOne base count).1 ≠ .ok ())
    (hout : base.toNat < w.smallestExpectedPacketNumber.toNat ∨
      w.smallestExpectedPacketNumber.toNat + maxSlidingWindowSize < base.toNat + count.toNat) :
    w.MatchesLoop checks base count where
  ok_iff := iff_of_false hfails hloop
  ok_same := fun hok => absurd hok hfails
  outside := fun _ => hsame
  inside := by
    intro hlow hnear
    omega

theorem matchesLoop_of_same {checks : Bool} {w : SlidingWindow} {base : UInt64} {count : UInt16}
    (heq : w.insertRangeIn checks base count =
      (some (w.insertOneByOne base count).1, (w.insertOneByOne base count).2))
    (hout : base.toNat < w.smallestExpectedPacketNumber.toNat ∨
        w.smallestExpectedPacketNumber.toNat + maxSlidingWindowSize < base.toNat + count.toNat →
      (w.insertOneByOne base count).2 = w) :
    w.MatchesLoop checks base count where
  ok_iff := by rw [heq, Option.some.injEq]
  ok_same := by
    intro _
    rw [heq]
  outside := by
    rw [heq]
    exact hout
  inside := fun _ _ => heq

theorem matchesLoop_of_eq {checks : Bool} {w : SlidingWindow} (h : w.Sound) {base : UInt64}
    {count : UInt16} (hsum : base.toNat + count.toNat ≤ 2 ^ 64)
    (heq : w.insertRangeIn checks base count =
      (some (w.insertRange base count).1, (w.insertRange base count).2)) :
    w.MatchesLoop checks base count := by
  by_cases hinside : w.smallestExpectedPacketNumber.toNat ≤ base.toNat ∧
      base.toNat + count.toNat ≤ w.smallestExpectedPacketNumber.toNat + maxSlidingWindowSize
  · rw [insertRange_inside h hsum hinside.1 hinside.2] at heq
    apply matchesLoop_of_same heq
    intro hout
    omega
  · by_cases hcount : count = 0
    · -- the empty range: nothing happens on either side
      subst hcount
      exact matchesLoop_of_same rfl (fun _ => rfl)
    · have hout : base.toNat < w.smallestExpectedPacketNumber.toNat ∨
          w.smallestExpectedPacketNumber.toNat + maxSlidingWindowSize <
            base.toNat + count.toNat := by omega
      obtain ⟨hfails, hsame, hloop⟩ := insertRange_outside h hsum hcount hout
      apply matchesLoop_of_fails _ _ hloop hout
      · rwa [heq, ne_eq, Option.some.injEq]
      · rw [heq, hsame]

theorem insert_range_matches_iff (checks : Bool) (s : UInt64) (cs : List Call) (base : UInt64)
    (count : UInt16) (hsum : base.toNat + count.toNat ≤ 2 ^ 64) :
    (calls s cs).1.MatchesLoop checks base count ↔ (calls s cs).1.SumFits checks base count := by
  have hsound := sound_calls s cs
  generalize (calls s cs).1 = w at hsound ⊢
  by_cases hplain : checks = false ∨ base.toNat + count.toNat < 2 ^ 64 ∨ count = 0 ∨
      base.toNat < w.smallestExpectedPacketNumber.toNat
  · apply iff_of_true (matchesLoop_of_eq hsound hsum (insertRangeIn_eq checks w hplain))
    rcases hplain with hchecks | hfits | hcount | hlow
    · exact .inl hchecks
    · exact .inr (.inl hfits)
    · exact .inr (.inr (.inl hcount))
    · exact .inr (.inr (.inr (.inl hlow)))
  · obtain ⟨hchecks, hover, hcount, hlow⟩ := by simpa only [not_or] using hplain
    rw [Bool.not_eq_false] at hchecks
    subst hchecks
    have hpanic : w.insertRangeIn true base count = (none, w) :=
      insertRangeIn_overflow hcount (by rwa [UInt64.lt_iff_toNat_lt]) (by omega)
    by_cases hfar : w.smallestExpectedPacketNumber.toNat + maxSlidingWindowSize <
        base.toNat + count.toNat
    · -- the range is refused as a whole, if only by the panic
      have hloop := (insertRange_outside hsound hsum hcount (.inr hfar)).2.2
      apply iff_of_true _ (.inr (.inr (.inr (.inr hfar))))
      apply matchesLoop_of_fails _ _ hloop (.inr hfar)
      · rw [hpanic]
        simp
      · rw [hpanic]
    · apply iff_of_false
      · intro hmatch
        have hinside := hmatch.inside (by omega) (by omega)
        rw [hpanic] at hinside
        cases hinside
      · rintro (hchecks | hfits | hzero | hbelow | habove)
        · cases hchecks
        · exact hover hfits
        · exact hcount hzero
        · exact hlow hbelow
        · exact hfar habove

/-- A range over a number that is already there: the two before it go in. -/
theorem insert_range_matches_overlap :
    (calls 5 [.insertPacketNumber 7]).1.insertRangeIn true 5 4 =
      (some (.err .unexpectedPacketNumberError),
        (calls 5 [.insertPacketNumber 5, .insertPacketNumber 6, .insertPacketNumber 7]).1) ∧
      (calls 5 [.insertPacketNumber 7]).1.MatchesLoop true 5 4 :=
  ⟨by decide +kernel, (insert_range_matches_iff true 5 [.insertPacketNumber 7] 5 4
    (by decide)).mpr (.inr (.inl (by decide)))⟩

/-- The largest number can be inserted on its own, and as a range of one it panics in a build with
overflow checks. -/
theorem insert_range_of_largest :
    ((calls 0xffffffffffffffff []).1.insertRangeIn true 0xffffffffffffffff 1).1 = none ∧
      ((calls 0xffffffffffffffff []).1.insertOneByOne 0xffffffffffffffff 1).1 = .ok () ∧
      ¬ (calls 0xffffffffffffffff []).1.MatchesLoop true 0xffffffffffffffff 1 := by
  have hpanic : ((calls 0xffffffffffffffff []).1.insertRangeIn true 0xffffffffffffffff 1).1 =
      none := by
    decide +kernel
  have hloop : ((calls 0xffffffffffffffff []).1.insertOneByOne 0xffffffffffffffff 1).1 =
      .ok () := by
    decide +kernel
  refine ⟨hpanic, hloop, fun hmatch => ?_⟩
  have hok := hmatch.ok_iff.mpr hloop
  rw [hpanic] at hok
  cases hok

end SlidingWindow

end Bluefin
