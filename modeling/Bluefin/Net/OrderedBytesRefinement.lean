import Bluefin.Net.OrderedBytes

/-!
# `OrderedBytes` refines the abstract reassembly

`Represents` relates a buffer object to an abstract receiver with a window of
2000 numbers: the slot `k` places after the head slot holds the chunk numbered
`next + k`, and the carry-over is what is pending. Every call on the buffer is
one step of the abstract receiver with the same observable event
(`simulates`), so that the account of a whole run holds of the code.
-/

namespace Bluefin
open Base

namespace OrderedBytes

abbrev AbstractReceiver := Reassembly maxBufferSize UInt8

structure Represents (s : OrderedBytes) (a : AbstractReceiver) : Prop where
  next_eq : a.next = s.smallestPacketNumber.toNat
  slot_payload : ∀ k, k < maxBufferSize →
    (s.slotAt k).map BluefinPacket.payload = a.held (a.next + k)
  slot_number : ∀ k p, s.slotAt k = some p → p.header.packetNumber.toNat = a.next + k
  held_small : ∀ n xs, a.held n = some xs → n < 2 ^ 64 - 1
  carry_eq : s.carryOverBytes = carryOf a.pending

theorem represents_new (connId : UInt32) (start : UInt64) :
    Represents (new connId start) (Reassembly.init start.toNat) where
  next_eq := rfl
  slot_payload := by
    intro k hk
    rw [slotAt_of_lt _ hk]
    rfl
  slot_number := by
    intro k p hp
    unfold slotAt at hp
    split at hp <;> cases hp
  held_small := by
    intro n xs h
    cases h
  carry_eq := rfl

/-! ### The run at the head -/

theorem represents_run {s : OrderedBytes} {a : AbstractReceiver} (h : Represents s a) :
    payloads s.run = a.run := by
  have hshift : a.run = front (fun i => a.held (i + a.next)) 0 maxBufferSize := by
    rw [front_shift, Nat.zero_add]
    rfl
  rw [payloads, run, front_map, hshift]
  refine front_congr fun i _ hi => ?_
  rw [h.slot_payload i (by omega), Nat.add_comm]

theorem represents_pop {s : OrderedBytes} {a : AbstractReceiver} {p : BluefinPacket}
    (h : Represents s a) (hp : s.slotAt 0 = some p) (rest : Bytes) :
    Represents ((s.pop p).setCarry (carryOf rest)) (a.pop 1 rest) where
  next_eq := by
    have hnum := h.slot_number 0 p hp
    have hheld : a.held a.next = some p.payload := by
      have hslot := h.slot_payload 0 (by decide)
      rw [hp, Nat.add_zero] at hslot
      exact hslot.symm
    have hsmall := h.held_small _ _ hheld
    simp only [pop, advance, setCarry, Reassembly.pop_next]
    rw [UInt64.toNat_add, hnum]
    simp only [UInt64.toNat_one]
    omega
  slot_payload := by
    intro k hk
    rw [slotAt_setCarry, slotAt_pop, Reassembly.pop_held, Reassembly.pop_next, if_neg (by omega)]
    by_cases hk' : k + 1 < maxBufferSize
    · rw [h.slot_payload (k + 1) hk', Nat.add_assoc, Nat.add_comm 1 k]
    · rw [slotAt_of_le s (by omega), a.held_eq_none (Or.inr (by omega))]
      rfl
  slot_number := by
    intro k q hq
    rw [slotAt_setCarry, slotAt_pop] at hq
    rw [h.slot_number (k + 1) q hq, Reassembly.pop_next]
    omega
  held_small := by
    intro n xs hn
    rw [Reassembly.pop_held] at hn
    split at hn
    · cases hn
    · exact h.held_small n xs hn
  carry_eq := rfl

theorem represents_carry {s : OrderedBytes} {a : AbstractReceiver} (h : Represents s a)
    (rest : Bytes) : Represents (s.setCarry (carryOf rest)) (a.pop 0 rest) := by
  rw [Reassembly.pop_zero]
  exact ⟨h.next_eq, h.slot_payload, h.slot_number, h.held_small, rfl⟩

theorem represents_popAll {s : OrderedBytes} {a : AbstractReceiver} (h : Represents s a) (k : ℕ)
    (hk : k ≤ s.run.length) (rest : Bytes) :
    Represents ((s.popAll (s.run.take k)).setCarry (carryOf rest)) (a.pop k rest) := by
  induction k generalizing s a with
  | zero => exact represents_carry h rest
  | succ k ih =>
    cases hp : s.slotAt 0 with
    | none =>
      rw [run_of_none s hp] at hk
      simp at hk
    | some p =>
      have hcons := run_of_some s hp
      have hpop := represents_pop h hp []
      rw [hcons, List.length_cons] at hk
      have htail := ih hpop (Nat.le_of_succ_le_succ hk)
      rw [Reassembly.pop_pop, Nat.add_comm 1 k, run_setCarry, popAll_setCarry] at htail
      rw [hcons, List.take_succ_cons]
      exact htail

/-! ### The three calls -/

theorem fits_iff_accepts {s : OrderedBytes} {a : AbstractReceiver} (h : Represents s a)
    (p : BluefinPacket) :
    (∃ k, s.Fits p k) ↔ a.Accepts p.header.packetNumber.toNat := by
  have hnext := h.next_eq
  constructor
  · rintro ⟨k, hk, hnum, hfree⟩
    have hslot := h.slot_payload k hk
    rw [hfree, Option.map_none] at hslot
    refine ⟨by omega, by omega, ?_⟩
    rw [hnum, ← hnext, ← hslot]
  · rintro ⟨hle, hlt, hnone⟩
    refine ⟨p.header.packetNumber.toNat - a.next, by omega, by omega, ?_⟩
    have hslot := h.slot_payload (p.header.packetNumber.toNat - a.next) (by omega)
    rw [show a.next + (p.header.packetNumber.toNat - a.next) = p.header.packetNumber.toNat by omega,
      hnone] at hslot
    exact Option.map_eq_none_iff.mp hslot

theorem represents_insert {s : OrderedBytes} {a : AbstractReceiver} (h : Represents s a)
    (p : BluefinPacket) (hsmall : p.header.packetNumber.toNat < 2 ^ 64 - 1)
    (hacc : a.Accepts p.header.packetNumber.toNat) :
    Represents (s.bufferInPacket p).2 (a.insert _ p.payload hacc) := by
  obtain ⟨k, hfits⟩ := (fits_iff_accepts h p).mpr hacc
  obtain ⟨_, hslots, f, hs⟩ := bufferInPacket_fits s p hfits
  obtain ⟨hk, hnum, _⟩ := hfits
  have hnext := h.next_eq
  have hk' : p.header.packetNumber.toNat = a.next + k := by omega
  refine ⟨?_, ?_, ?_, ?_, ?_⟩
  · rw [hs]
    exact h.next_eq
  · intro j hj
    rw [hslots j]
    simp only [Reassembly.insert, hk']
    by_cases he : j = k
    · rw [if_pos he, if_pos (by omega)]
      rfl
    · rw [if_neg he, if_neg (by omega), h.slot_payload j hj]
  · intro j q hq
    rw [hslots j] at hq
    by_cases he : j = k
    · rw [if_pos he] at hq
      cases hq
      rw [he]
      exact hk'
    · rw [if_neg he] at hq
      exact h.slot_number j q hq
  · intro n xs hn
    simp only [Reassembly.insert] at hn
    by_cases he : n = p.header.packetNumber.toNat
    · omega
    · rw [if_neg he] at hn
      exact h.held_small n xs hn
  · rw [hs]
    exact h.carry_eq

/-- A packet is taken by `buffer_in_packet` exactly if the abstract receiver accepts the number, and
a refused packet leaves the buffer as it is. -/
theorem bufferInPacket_ok_iff {s : OrderedBytes} {a : AbstractReceiver} (h : Represents s a)
    (p : BluefinPacket) :
    ((s.bufferInPacket p).1 = .ok () ↔ a.Accepts p.header.packetNumber.toNat) ∧
      ((s.bufferInPacket p).1 ≠ .ok () → (s.bufferInPacket p).2 = s) := by
  by_cases hacc : a.Accepts p.header.packetNumber.toNat
  · obtain ⟨k, hfits⟩ := (fits_iff_accepts h p).mpr hacc
    have hok := (bufferInPacket_fits s p hfits).1
    exact ⟨⟨fun _ => hacc, fun _ => hok⟩, fun hne => absurd hok hne⟩
  · have hnone : ∀ k, ¬ s.Fits p k := fun k hk => hacc ((fits_iff_accepts h p).mp ⟨k, hk⟩)
    obtain ⟨herr, hsame⟩ := bufferInPacket_not_fits s p hnone
    refine ⟨⟨?_, fun hyes => absurd hyes hacc⟩, fun _ => hsame⟩
    intro hok
    rw [hok] at herr
    cases herr

theorem carryBytes_eq {s : OrderedBytes} {a : AbstractReceiver} (h : Represents s a) :
    s.carryBytes = a.pending := by
  rw [carryBytes, h.carry_eq, carryOf]
  by_cases hp : a.pending = []
  · rw [if_pos hp, hp]
    rfl
  · rw [if_neg hp]
    rfl

theorem carryOf_ne_nil {xs : Bytes} (h : xs ≠ []) : carryOf xs = some xs := if_neg h

theorem consume_delivers {s : OrderedBytes} {a : AbstractReceiver} (h : Represents s a) (len : ℕ)
    (buf : Bytes) (hbuf : len ≤ buf.length) :
    ∃ out a', Reassembly.Step a (.delivered out) a' ∧ Represents (s.consume len buf).2.1 a' ∧
      (s.consume len buf).2.2 = overwrite buf 0 out ∧ out.length ≤ len ∧
      ((∃ r, (s.consume len buf).1 = .ok r ∧ r.bytesConsumed = out.length) ∨
        ((s.consume len buf).1 = .err .bufferEmptyError ∧ out = [])) := by
  rw [consume_eq s len buf hbuf, carryBytes_eq h]
  by_cases hlong : len < a.pending.length
  · rw [if_pos hlong]
    have hrest : a.pending.drop len ≠ [] := by
      intro he
      have hl := congrArg List.length he
      rw [List.length_drop, List.length_nil] at hl
      omega
    have hlen : (a.pending.take len).length = len := by
      rw [List.length_take]
      omega
    refine ⟨a.pending.take len, a.pop 0 (a.pending.drop len), ?_, ?_, rfl, by omega, Or.inl ?_⟩
    · exact .deliver _ _ (Nat.zero_le _) (by simp)
    · rw [← carryOf_ne_nil hrest]
      exact represents_carry h _
    · exact ⟨_, rfl, hlen.symm⟩
  · rw [if_neg hlong]
    have hrun := represents_run h
    have hcount := takeCount_le (len - a.pending.length) (payloads s.run)
    have hflat : (payloads (s.takeBytes (len - a.pending.length))).flatten =
        (a.run.take (takeCount (len - a.pending.length) (payloads s.run))).flatten := by
      rw [← hrun, takeBytes, payloads, List.map_take]
      rfl
    have hkeep := taken_length_le s (len - a.pending.length)
    refine ⟨a.pending ++ s.taken (len - a.pending.length),
      a.pop (takeCount (len - a.pending.length) (payloads s.run))
        ((payloads (s.takeBytes (len - a.pending.length))).flatten.drop (len - a.pending.length)),
      ?_, ?_, rfl, ?_, ?_⟩
    · refine .deliver _ _ (by rw [← hrun]; exact hcount) ?_
      rw [List.append_assoc, taken, List.take_append_drop, hflat]
    · have hpop := represents_popAll h (takeCount (len - a.pending.length) (payloads s.run))
        (by simpa [payloads] using hcount)
        ((payloads (s.takeBytes (len - a.pending.length))).flatten.drop (len - a.pending.length))
      simp only [afterTake, popAll_setCarry]
      exact hpop
    · rw [List.length_append]
      omega
    · by_cases hnil : a.pending ++ s.taken (len - a.pending.length) = []
      · exact Or.inr ⟨if_pos hnil, hnil⟩
      · exact Or.inl ⟨_, if_neg hnil, rfl⟩

theorem consumeBytes_delivers {s : OrderedBytes} {a : AbstractReceiver} (h : Represents s a)
    (out : List Bytes) (maxPackets : ℕ) :
    ∃ pieces a', Reassembly.Step a (.delivered pieces.flatten) a' ∧
      Represents (s.consumeBytes out maxPackets).2.1 a' ∧
      (s.consumeBytes out maxPackets).2.2 = out ++ pieces ∧
      ((∃ r, (s.consumeBytes out maxPackets).1 = .ok r ∧ r.bytesConsumed = pieces.flatten.length) ∨
        ((s.consumeBytes out maxPackets).1 = .err .bufferEmptyError ∧ pieces = [])) := by
  have hlead : s.carryOverBytes.toList.flatten = a.pending := by
    rw [← carryBytes_eq h, carryBytes]
    cases s.carryOverBytes with
    | none => rfl
    | some c => simp
  have hrun := represents_run h
  rw [consumeBytes_eq]
  simp only
  generalize hn : maxPackets - s.carryOverBytes.toList.length = n
  have htake : s.run.take n = s.run.take (min n s.run.length) := by
    rw [List.take_eq_take_min]
  have hle : min n s.run.length ≤ s.run.length := Nat.min_le_right ..
  have hflat : (payloads (s.run.take n)).flatten = (a.run.take (min n s.run.length)).flatten := by
    rw [htake, ← hrun, payloads, List.map_take]
    rfl
  refine ⟨s.carryOverBytes.toList ++ payloads (s.run.take n), a.pop (min n s.run.length) [],
    ?_, ?_, rfl, ?_⟩
  · refine .deliver _ _ (by rw [← hrun, payloads, List.length_map]; exact hle) ?_
    rw [List.append_nil, List.flatten_append, hlead, hflat]
  · have hpop := represents_popAll h (min n s.run.length) hle []
    rw [popAll_setCarry, htake]
    exact hpop
  · by_cases hnil : s.carryOverBytes.toList ++ payloads (s.run.take n) = []
    · exact Or.inr ⟨if_pos hnil, hnil⟩
    · exact Or.inl ⟨_, if_neg hnil, rfl⟩

/-! ### Calls and their events -/

inductive Call where
  | bufferInPacket (packet : BluefinPacket)
  | consume (len : ℕ) (buf : Bytes)
  | consumeBytes (out : List Bytes) (maxPackets : ℕ)

/-- Packet numbers below the last one, and a slice with room for `len` bytes. -/
def Call.Valid : Call → Prop
  | .bufferInPacket packet => packet.header.packetNumber.toNat < 2 ^ 64 - 1
  | .consume len buf => len ≤ buf.length
  | .consumeBytes _ _ => True

def call (s : OrderedBytes) : Call → OrderedBytes
  | .bufferInPacket packet => (s.bufferInPacket packet).2
  | .consume len buf => (s.consume len buf).2.1
  | .consumeBytes out maxPackets => (s.consumeBytes out maxPackets).2.1

/-- What the caller sees: whether the packet was taken in, the first
`bytes_consumed` bytes of the slice, the pieces pushed on the vector. -/
def event (s : OrderedBytes) : Call → Reassembly.Event UInt8
  | .bufferInPacket packet =>
    if (s.bufferInPacket packet).1 = .ok () then
      .accepted packet.header.packetNumber.toNat packet.payload
    else .rejected packet.header.packetNumber.toNat
  | .consume len buf => match s.consume len buf with
    | (.ok r, _, buf') => .delivered (buf'.take r.bytesConsumed)
    | _ => .delivered []
  | .consumeBytes out maxPackets =>
    .delivered ((s.consumeBytes out maxPackets).2.2.drop out.length).flatten

/-- One call is one step of the abstract receiver with the same event. -/
theorem simulates {s : OrderedBytes} {a : AbstractReceiver} (h : Represents s a) (c : Call)
    (hc : c.Valid) : ∃ a', Reassembly.Step a (s.event c) a' ∧ Represents (s.call c) a' := by
  cases c with
  | bufferInPacket packet =>
    obtain ⟨hiff, hsame⟩ := bufferInPacket_ok_iff h packet
    by_cases hacc : a.Accepts packet.header.packetNumber.toNat
    · refine ⟨a.insert _ packet.payload hacc, ?_, represents_insert h packet hc hacc⟩
      rw [event, if_pos (hiff.mpr hacc)]
      exact .accept packet.payload hacc
    · have hne : (s.bufferInPacket packet).1 ≠ .ok () := fun hok => hacc (hiff.mp hok)
      refine ⟨a, ?_, ?_⟩
      · rw [event, if_neg hne]
        exact .reject hacc
      · rw [call, hsame hne]
        exact h
  | consume len buf =>
    obtain ⟨out, a', hstep, hrep, hbuf, hlen, hres⟩ := consume_delivers h len buf hc
    refine ⟨a', ?_, hrep⟩
    have hevent : s.event (.consume len buf) = .delivered out := by
      unfold event
      rcases hr : s.consume len buf with ⟨res, s', buf'⟩
      rw [hr] at hbuf hres
      simp only at hbuf hres
      rcases hres with ⟨r, hok, hcount⟩ | ⟨herr, hnil⟩
      · have hover : overwrite buf 0 out = out ++ buf.drop out.length := by
          simp [overwrite]
        simp only [hr, hok, hbuf, hover]
        rw [hcount, List.take_left' rfl]
      · simp only [hr, herr, hnil]
    rw [hevent]
    exact hstep
  | consumeBytes out maxPackets =>
    obtain ⟨pieces, a', hstep, hrep, hout, _⟩ := consumeBytes_delivers h out maxPackets
    refine ⟨a', ?_, hrep⟩
    have hevent : s.event (.consumeBytes out maxPackets) = .delivered pieces.flatten := by
      simp only [event, hout, List.drop_left' rfl]
    rw [hevent]
    exact hstep

/-! ### Whole sequences of calls -/

def calls (s : OrderedBytes) (cs : List Call) : OrderedBytes := cs.foldl call s

def events (s : OrderedBytes) : List Call → List (Reassembly.Event UInt8)
  | [] => []
  | c :: cs => s.event c :: (s.call c).events cs

theorem simulates_calls {start : ℕ} {s : OrderedBytes} {a : AbstractReceiver}
    {es : List (Reassembly.Event UInt8)} (h : Represents s a)
    (hr : Run Reassembly.Step (Reassembly.init start) es a) (cs : List Call)
    (hcs : ∀ c ∈ cs, c.Valid) :
    ∃ a', Run Reassembly.Step (Reassembly.init start) (es ++ s.events cs) a' ∧
      Represents (s.calls cs) a' := by
  induction cs generalizing s a es with
  | nil =>
    refine ⟨a, ?_, h⟩
    rw [events, List.append_nil]
    exact hr
  | cons c cs ih =>
    obtain ⟨b, hstep, hb⟩ := simulates h c (hcs c (List.mem_cons_self ..))
    have htail : ∀ c ∈ cs, c.Valid := fun d hd => hcs d (List.mem_cons_of_mem _ hd)
    obtain ⟨a', hr', ha'⟩ := ih hb (hr.snoc hstep) htail
    refine ⟨a', ?_, ha'⟩
    rw [events, ← List.singleton_append, ← List.append_assoc]
    exact hr'

/-- From a fresh buffer, every sequence of calls keeps the buffer at an
abstract receiver: the abstract run has the events of the calls, each chunk is
accounted for once, every further call is one more abstract step, and a packet
is taken in exactly if its number is in the window and not held. -/
theorem refines_reassembly (connId : UInt32) (start : UInt64) (cs : List Call)
    (hcs : ∀ c ∈ cs, c.Valid) :
    ∃ a : AbstractReceiver,
      Represents ((new connId start).calls cs) a ∧
      Run Reassembly.Step (Reassembly.init start.toNat) ((new connId start).events cs) a ∧
      Reassembly.Account start.toNat ((new connId start).events cs) a ∧
      (∀ c : Call, c.Valid → ∃ a',
        Reassembly.Step a (((new connId start).calls cs).event c) a' ∧
          Represents (((new connId start).calls cs).call c) a') ∧
      ∀ p : BluefinPacket,
        ((((new connId start).calls cs).bufferInPacket p).1 = .ok () ↔
          a.Accepts p.header.packetNumber.toNat) ∧
        ((((new connId start).calls cs).bufferInPacket p).1 ≠ .ok () →
          (((new connId start).calls cs).bufferInPacket p).2 = (new connId start).calls cs) := by
  obtain ⟨a, hr, ha⟩ := simulates_calls (represents_new connId start) .nil cs hcs
  rw [List.nil_append] at hr
  exact ⟨a, ha, hr, Reassembly.run_account hr, fun c hc => simulates ha c hc,
    fun p => bufferInPacket_ok_iff ha p⟩

/-- Packet 8 before packet 7, then both are read. -/
def outOfOrder : List Call :=
  [.bufferInPacket ⟨(BluefinHeader.new 2 1 .unencryptedData 1 .default).withPacketNumber 8, [6]⟩,
    .bufferInPacket ⟨(BluefinHeader.new 2 1 .unencryptedData 1 .default).withPacketNumber 7, [5]⟩,
    .consumeBytes [] 2]

theorem outOfOrder_valid : ∀ c ∈ outOfOrder, c.Valid := by
  simp only [outOfOrder, List.forall_mem_cons, List.not_mem_nil, false_imp_iff, implies_true,
    and_true]
  exact ⟨show (8 : UInt64).toNat < 2 ^ 64 - 1 by decide,
    show (7 : UInt64).toNat < 2 ^ 64 - 1 by decide, trivial⟩

theorem refines_reassembly_outOfOrder :
    (new 1 7).events outOfOrder = [.accepted 8 [6], .accepted 7 [5], .delivered [5, 6]] ∧
      ∃ a : AbstractReceiver, Represents ((new 1 7).calls outOfOrder) a ∧
        Reassembly.Account 7 ((new 1 7).events outOfOrder) a := by
  refine ⟨by decide +kernel, ?_⟩
  obtain ⟨a, ha, _, haccount, _⟩ := refines_reassembly 1 7 outOfOrder outOfOrder_valid
  exact ⟨a, ha, haccount⟩

end OrderedBytes

end Bluefin
