import Bluefin.Core.Codec
import Bluefin.Net.OrderedBytesRefinement

/-!
# `peek` against `consume`

`peek` looks at the head slot, `consume` counts the bytes it copied. The two
agree as long as the packets at the head have payload bytes. The parsers let
packets without payload through (control packets, and data packets of length
zero that are not the last of their datagram), so the condition is not implied
by what can arrive.
-/

namespace Bluefin
open Base

namespace OrderedBytes

/-- A packet that `from_bytes_into` hands out for some datagram. -/
def Producible (p : BluefinPacket) : Prop :=
  ∃ buf n ps, BluefinPacket.fromBytesInto buf [] = (.ok n, ps) ∧ p ∈ ps

/-- The states of a buffer fed with packets off the wire, in any order, and
consumed at any time. -/
inductive Reachable : OrderedBytes → Prop
  | new (connId : UInt32) (start : UInt64) : Reachable (new connId start)
  | buffer {s : OrderedBytes} {p : BluefinPacket} (hs : Reachable s) (hp : Producible p) :
      Reachable (s.bufferInPacket p).2
  | consume {s : OrderedBytes} {len : ℕ} {buf : Bytes} (hs : Reachable s)
      (hbuf : len ≤ buf.length) : Reachable (s.consume len buf).2.1
  | consumeBytes {s : OrderedBytes} (out : List Bytes) (maxPackets : ℕ) (hs : Reachable s) :
      Reachable (s.consumeBytes out maxPackets).2.1

theorem carryOf_ne (xs : Bytes) : carryOf xs ≠ some [] := by
  unfold carryOf
  by_cases h : xs = []
  · rw [if_pos h]
    exact (Option.some_ne_none _).symm
  · rw [if_neg h]
    intro he
    exact h (Option.some.inj he)

theorem bufferInPacket_keeps (s : OrderedBytes) (p : BluefinPacket) :
    (s.bufferInPacket p).2.carryOverBytes = s.carryOverBytes ∧
      ∀ j q, s.slotAt j = some q → (s.bufferInPacket p).2.slotAt j = some q := by
  by_cases h : ∃ k, s.Fits p k
  · obtain ⟨k, hk⟩ := h
    obtain ⟨_, hslots, f, hs⟩ := bufferInPacket_fits s p hk
    refine ⟨by rw [hs], ?_⟩
    intro j q hq
    rw [hslots j]
    by_cases he : j = k
    · rw [he, hk.2.2] at hq
      cases hq
    · rw [if_neg he, hq]
  · have hsame := (bufferInPacket_not_fits s p (fun k hk => h ⟨k, hk⟩)).2
    rw [hsame]
    exact ⟨rfl, fun _ _ hq => hq⟩

theorem reachable_carry {s : OrderedBytes} (h : Reachable s) : s.carryOverBytes ≠ some [] := by
  induction h with
  | new connId start => exact (Option.some_ne_none _).symm
  | buffer hs hp ih =>
    rw [(bufferInPacket_keeps _ _).1]
    exact ih
  | @consume s len buf hs hbuf ih =>
    rw [consume_eq s len buf hbuf]
    by_cases hlong : len < s.carryBytes.length
    · rw [if_pos hlong]
      intro he
      have hl := congrArg List.length (Option.some.inj he)
      rw [List.length_drop, List.length_nil] at hl
      omega
    · rw [if_neg hlong]
      exact carryOf_ne _
  | consumeBytes out maxPackets hs ih =>
    rw [consumeBytes_eq]
    simp only [popAll_setCarry]
    exact (Option.some_ne_none _).symm

theorem taken_eq (s : OrderedBytes) (n : ℕ) : s.taken n = (payloads s.run).flatten.take n := by
  rw [taken, takeBytes, payloads, List.map_take, ← takeCount_flatten n (payloads s.run)]
  rfl

/-- The run has a byte to give. -/
def HasBytes (s : OrderedBytes) : Prop := ∃ p ∈ s.run, p.payload ≠ []

theorem taken_eq_nil_iff (s : OrderedBytes) {n : ℕ} (hn : 0 < n) :
    s.taken n = [] ↔ ¬ s.HasBytes := by
  have hflat : (payloads s.run).flatten = [] ↔ ¬ s.HasBytes := by
    simp [payloads, HasBytes, List.flatten_eq_nil_iff]
  rw [taken_eq, ← hflat]
  constructor
  · intro h
    have hl := congrArg List.length h
    rw [List.length_take, List.length_nil] at hl
    exact List.length_eq_zero_iff.mp (by omega)
  · intro h
    rw [h, List.take_nil]

theorem peek_isOk_iff (s : OrderedBytes) :
    s.peek.isOk = true ↔ s.carryOverBytes ≠ none ∨ s.slotAt 0 ≠ none := by
  unfold peek
  rw [slotAt_zero]
  cases s.carryOverBytes <;> cases s.packets s.smallestPacketNumberIndex <;> simp

theorem consume_isOk_iff (s : OrderedBytes) {len : ℕ} {buf : Bytes} (hlen : 0 < len)
    (hbuf : len ≤ buf.length) (hcarry : s.carryOverBytes ≠ some []) :
    (s.consume len buf).1.isOk = true ↔ s.carryOverBytes ≠ none ∨ s.HasBytes := by
  rw [consume_eq s len buf hbuf]
  cases hc : s.carryOverBytes with
  | none =>
    have hbytes : s.carryBytes = [] := by rw [carryBytes, hc]; rfl
    have hrun : (s.setCarry none).HasBytes ↔ s.HasBytes := Iff.rfl
    rw [hbytes, if_neg (by simp)]
    simp only [List.length_nil, Nat.sub_zero, List.nil_append]
    by_cases hnil : (s.setCarry none).taken len = []
    · rw [if_pos hnil]
      rw [taken_eq_nil_iff _ hlen, hrun] at hnil
      simp [hnil]
    · rw [if_neg hnil]
      rw [taken_eq_nil_iff _ hlen, hrun, not_not] at hnil
      simp [hnil]
  | some c =>
    have hbytes : s.carryBytes = c := by rw [carryBytes, hc]; rfl
    have hne : c ≠ [] := fun he => hcarry (by rw [hc, he])
    rw [hbytes]
    by_cases hlong : len < c.length
    · rw [if_pos hlong]
      simp
    · rw [if_neg hlong]
      simp [hne]

theorem consume_no_panic (s : OrderedBytes) {len : ℕ} {buf : Bytes} (hbuf : len ≤ buf.length) :
    (s.consume len buf).1.isPanic = false := by
  rw [consume_eq s len buf hbuf]
  by_cases hlong : len < s.carryBytes.length
  · rw [if_pos hlong]
    rfl
  · rw [if_neg hlong]
    simp only
    split <;> rfl

/-- What producers do between a reader's `peek` and its `consume`. -/
def bufferAll (s : OrderedBytes) (ps : List BluefinPacket) : OrderedBytes :=
  ps.foldl (fun s p => (s.bufferInPacket p).2) s

theorem bufferAll_cons (s : OrderedBytes) (p : BluefinPacket) (ps : List BluefinPacket) :
    s.bufferAll (p :: ps) = (s.bufferInPacket p).2.bufferAll ps := rfl

theorem bufferAll_keeps (s : OrderedBytes) (ps : List BluefinPacket) :
    (s.bufferAll ps).carryOverBytes = s.carryOverBytes ∧ s.run <+: (s.bufferAll ps).run := by
  induction ps generalizing s with
  | nil => exact ⟨rfl, List.prefix_refl _⟩
  | cons p ps ih =>
    obtain ⟨hcarry, hslots⟩ := bufferInPacket_keeps s p
    obtain ⟨hcarry', hrun'⟩ := ih (s.bufferInPacket p).2
    refine ⟨hcarry'.trans hcarry, ?_⟩
    exact (front_mono hslots 0 maxBufferSize).trans hrun'

/-- `peek` and `consume` agree on a state: both Ok or both not, an error of
`consume` changes nothing, and a reader whose `peek` was Ok can unwrap its
`consume` whatever producers buffered in between. -/
structure PeekAgrees (s : OrderedBytes) (len : ℕ) (buf : Bytes) : Prop where
  ok_iff : s.peek.isOk = true ↔ (s.consume len buf).1.isOk = true
  err_unchanged : (s.consume len buf).1.isErr = true → (s.consume len buf).2.1 = s
  unwrap_ok : s.peek.isOk = true → ∀ ps, ((s.bufferAll ps).consume len buf).1.isOk = true

theorem consume_unchanged (s : OrderedBytes) {len : ℕ} {buf : Bytes} (hbuf : len ≤ buf.length)
    (hcarry : s.carryOverBytes = none) (hhead : s.slotAt 0 = none) :
    (s.consume len buf).2.1 = s := by
  have hbytes : s.carryBytes = [] := by rw [carryBytes, hcarry]; rfl
  have hset : s.setCarry none = s := by
    cases s
    simp_all [setCarry]
  rw [consume_eq s len buf hbuf, hbytes, if_neg (by simp), hset]
  exact afterTake_nil s _ (takeBytes_of_run_nil s _ (run_of_none s hhead)) hcarry

theorem peekAgrees_iff_hasBytes (s : OrderedBytes) {len : ℕ} {buf : Bytes} (hlen : 0 < len)
    (hbuf : len ≤ buf.length) (hcarry : s.carryOverBytes ≠ some []) :
    s.PeekAgrees len buf ↔ s.carryOverBytes ≠ none ∨ s.slotAt 0 = none ∨ s.HasBytes := by
  have hpeek := peek_isOk_iff s
  have hconsume := consume_isOk_iff s hlen hbuf hcarry
  constructor
  · intro h
    by_cases hc : s.carryOverBytes = none
    · right
      by_cases hh : s.slotAt 0 = none
      · exact Or.inl hh
      · right
        have hok := h.ok_iff.mp (hpeek.mpr (Or.inr hh))
        exact (hconsume.mp hok).resolve_left (fun hn => hn hc)
    · exact Or.inl hc
  · intro h
    have hagree : s.carryOverBytes ≠ none ∨ s.slotAt 0 ≠ none ↔
        s.carryOverBytes ≠ none ∨ s.HasBytes := by
      constructor
      · rintro (hc | hh)
        · exact Or.inl hc
        · rcases h with hc | hn | hb
          · exact Or.inl hc
          · exact absurd hn hh
          · exact Or.inr hb
      · rintro (hc | ⟨p, hp, _⟩)
        · exact Or.inl hc
        · right
          intro hn
          rw [run_of_none s hn] at hp
          cases hp
    refine ⟨by rw [hpeek, hconsume, hagree], ?_, ?_⟩
    · intro herr
      have hnot : ¬ (s.consume len buf).1.isOk = true := by
        cases hr : (s.consume len buf).1 with
        | ok r =>
          rw [hr] at herr
          cases herr
        | err e => simp
        | panicked f => simp [Outcome.isOk]
      rw [hconsume, ← hagree, not_or, not_not, not_not] at hnot
      exact consume_unchanged s hbuf hnot.1 hnot.2
    · intro hok ps
      obtain ⟨hkeep, hrun⟩ := bufferAll_keeps s ps
      rw [consume_isOk_iff _ hlen hbuf (by rw [hkeep]; exact hcarry), hkeep]
      rw [hpeek, hagree] at hok
      rcases hok with hc | ⟨p, hp, hne⟩
      · exact Or.inl hc
      · exact Or.inr ⟨p, hrun.subset hp, hne⟩

/-- On every state fed off the wire, `peek` and `consume` agree exactly if there
is a carry-over, or the head slot is empty, or some packet of the run at the
head has payload bytes. -/
theorem peek_consume_agree_iff {s : OrderedBytes} (hs : Reachable s) {len : ℕ} {buf : Bytes}
    (hlen : 0 < len) (hbuf : len ≤ buf.length) :
    s.PeekAgrees len buf ↔
      s.carryOverBytes ≠ none ∨ s.slotAt 0 = none ∨ ∃ p ∈ s.run, p.payload ≠ [] :=
  peekAgrees_iff_hasBytes s hlen hbuf (reachable_carry hs)

theorem producible_of_encodable {p : BluefinPacket} (h : p.Encodable) : Producible p := by
  have hinto := BluefinPacket.fromBytesInto_serialiseAll [p] (by simp) (by simpa using h)
  exact ⟨_, 1, [p], hinto, List.mem_singleton_self _⟩

/-- A `ClientAck` numbered 7, as the parsers hand it out: no payload. -/
def strayClientAck : BluefinPacket :=
  ⟨(BluefinHeader.new 2 1 .clientAck 0 .default).withPacketNumber 7, []⟩

theorem strayClientAck_producible : Producible strayClientAck :=
  producible_of_encodable ⟨⟨by decide, by decide, by decide⟩, by decide⟩

def twoByteData (packetNumber : UInt64) : BluefinPacket :=
  ⟨(BluefinHeader.new 2 1 .unencryptedData 2 .default).withPacketNumber packetNumber, [5, 6]⟩

theorem twoByteData_producible (packetNumber : UInt64) : Producible (twoByteData packetNumber) := by
  have hversion : (twoByteData packetNumber).header.version.toNat < 16 := Nat.zero_lt_succ 15
  exact producible_of_encodable ⟨⟨hversion, fun _ => rfl, fun hother => absurd rfl hother⟩,
    fun _ => List.cons_ne_nil 5 [6]⟩

/-- The stray packet in the window of a fresh buffer. -/
def strayHeld : OrderedBytes := ((new 1 7).bufferInPacket strayClientAck).2

/-- Data comes in behind the stray packet and behind a gap. -/
def strayFollowed : OrderedBytes := strayHeld.bufferAll [twoByteData 10, twoByteData 8]

theorem strayFollowed_reachable : Reachable strayFollowed :=
  .buffer (.buffer (.buffer (.new 1 7) strayClientAck_producible) (twoByteData_producible 10))
    (twoByteData_producible 8)

/-- The first call takes the stray packet and one byte. The next finds the other byte in front of
the gap. -/
theorem peek_consume_agree_followed :
    (strayFollowed.peek = .ok () ∧ (strayFollowed.consume 1 [0]).1 = .ok ⟨2, 7, 1⟩ ∧
      strayFollowed.PeekAgrees 1 [0]) ∧
    (strayFollowed.consume 1 [0]).2.1.slotAt 0 = none ∧
      (strayFollowed.consume 1 [0]).2.1.PeekAgrees 1 [0] := by
  have hnext := @Reachable.consume strayFollowed 1 [0] strayFollowed_reachable (by decide)
  refine ⟨⟨by decide +kernel, by decide +kernel, ?_⟩, by decide +kernel, ?_⟩
  · refine (peek_consume_agree_iff strayFollowed_reachable (by decide) (by decide)).mpr ?_
    exact .inr (.inr ⟨twoByteData 8, by decide +kernel, by decide⟩)
  · refine (peek_consume_agree_iff hnext (by decide) (by decide)).mpr (.inl ?_)
    decide +kernel

/-- `peek` is Ok, `consume` is an error and moves the window all the same. -/
theorem peek_consume_disagree :
    Reachable strayHeld ∧ strayHeld.smallestPacketNumber = 7 ∧ strayHeld.peek = .ok () ∧
      (strayHeld.consume 1 [0]).1 = .err .bufferEmptyError ∧
      (strayHeld.consume 1 [0]).2.1.smallestPacketNumber = 8 := by
  refine ⟨.buffer (.new 1 7) strayClientAck_producible, ?_⟩
  decide +kernel

end OrderedBytes

end Bluefin
