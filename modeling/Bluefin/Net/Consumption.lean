import Bluefin.Net.Peek

/-!
# The packets that a consume takes

A consume takes the packets with the next numbers out of the reassembly buffer
and reports how many and from which number on. This is said here for every
call, also for a slice that is shorter than the bytes asked for, as long as the
call does not write outside it.
-/

namespace Bluefin
open Base

namespace OrderedBytes

/-- The bytes that can be read: the carry-over, and the payloads up to the first gap. -/
def readable (s : OrderedBytes) : Bytes := s.carryBytes ++ (payloads s.run).flatten

/-- Each packet stands in the slot of its number. -/
def InOrder (s : OrderedBytes) : Prop :=
  ∀ k p, s.slotAt k = some p → p.header.packetNumber.toNat = s.smallestPacketNumber.toNat + k

def Holds (s : OrderedBytes) (n : UInt64) : Prop :=
  ∃ k p, s.slotAt k = some p ∧ p.header.packetNumber = n

/-- `s'` is `s` without its first `m` packets. -/
structure Took (s : OrderedBytes) (m : ℕ) (s' : OrderedBytes) : Prop where
  front : ∀ k, k < m → ∃ p, s.slotAt k = some p
  slots : ∀ k, s'.slotAt k = s.slotAt (k + m)
  smallest : s'.smallestPacketNumber = s.smallestPacketNumber + UInt64.ofNat m

/-! ### Buffering -/

theorem inOrder_new (connId : UInt32) (start : UInt64) : (new connId start).InOrder := by
  intro k p hp
  unfold slotAt at hp
  split at hp <;> cases hp

theorem bufferInPacket_slot {s : OrderedBytes} {p q : BluefinPacket} {j : ℕ}
    (h : (s.bufferInPacket p).2.slotAt j = some q) : s.slotAt j = some q ∨ q = p ∧ s.Fits p j := by
  by_cases hfits : ∃ k, s.Fits p k
  · obtain ⟨k, hk⟩ := hfits
    rw [(bufferInPacket_fits s p hk).2.1 j] at h
    by_cases hj : j = k
    · rw [if_pos hj] at h
      cases h
      rw [hj]
      exact Or.inr ⟨rfl, hk⟩
    · rw [if_neg hj] at h
      exact Or.inl h
  · rw [(bufferInPacket_not_fits s p (fun k hk => hfits ⟨k, hk⟩)).2] at h
    exact Or.inl h

theorem inOrder_bufferInPacket {s : OrderedBytes} (h : s.InOrder) (p : BluefinPacket) :
    (s.bufferInPacket p).2.InOrder := by
  intro j q hq
  rw [bufferInPacket_smallest]
  rcases bufferInPacket_slot hq with hold | ⟨rfl, hfits⟩
  · exact h j q hold
  · exact hfits.2.1

theorem inOrder_bufferAll {s : OrderedBytes} (h : s.InOrder) (ps : List BluefinPacket) :
    (s.bufferAll ps).InOrder := by
  induction ps generalizing s with
  | nil => exact h
  | cons p ps ih => exact ih (inOrder_bufferInPacket h p)

theorem bufferAll_smallest (s : OrderedBytes) (ps : List BluefinPacket) :
    (s.bufferAll ps).smallestPacketNumber = s.smallestPacketNumber := by
  induction ps generalizing s with
  | nil => rfl
  | cons p ps ih => exact (ih _).trans (bufferInPacket_smallest s p)

theorem bufferAll_slot {s : OrderedBytes} {ps : List BluefinPacket} {q : BluefinPacket} {j : ℕ}
    (h : (s.bufferAll ps).slotAt j = some q) : s.slotAt j = some q ∨ q ∈ ps := by
  induction ps generalizing s with
  | nil => exact Or.inl h
  | cons p ps ih =>
    rcases ih h with hold | hnew
    · rcases bufferInPacket_slot hold with hold | ⟨rfl, _⟩
      · exact Or.inl hold
      · exact Or.inr (List.mem_cons_self ..)
    · exact Or.inr (List.mem_cons_of_mem _ hnew)

theorem holds_bufferAll {s : OrderedBytes} {n : UInt64} (h : s.Holds n) (ps : List BluefinPacket) :
    (s.bufferAll ps).Holds n := by
  induction ps generalizing s with
  | nil => exact h
  | cons p ps ih =>
    obtain ⟨k, q, hq, hn⟩ := h
    exact ih ⟨k, q, (bufferInPacket_keeps s p).2 k q hq, hn⟩

theorem slotAt_bufferAll_new (connId : UInt32) (start : UInt64) (ps : List BluefinPacket)
    (hnum : ∀ k p, ps[k]? = some p → p.header.packetNumber.toNat = start.toNat + k)
    (hlen : ps.length ≤ maxBufferSize) (j : ℕ) :
    ((new connId start).bufferAll ps).slotAt j = ps[j]? := by
  induction ps using List.reverseRecOn generalizing j with
  | nil =>
    rw [List.getElem?_nil, bufferAll, List.foldl_nil, slotAt]
    split <;> rfl
  | append_singleton ps p ih =>
    rw [List.length_append, List.length_singleton] at hlen
    have hbefore : ∀ k q, ps[k]? = some q → q.header.packetNumber.toNat = start.toNat + k := by
      intro k q hq
      apply hnum
      rw [List.getElem?_append_left (List.getElem?_eq_some_iff.mp hq).1]
      exact hq
    have hslots := ih hbefore (by omega)
    have hfits : ((new connId start).bufferAll ps).Fits p ps.length := by
      refine ⟨by omega, ?_, by rw [hslots, List.getElem?_eq_none (Nat.le_refl _)]⟩
      rw [bufferAll_smallest]
      exact hnum ps.length p (by simp)
    have happend : (new connId start).bufferAll (ps ++ [p]) =
        (((new connId start).bufferAll ps).bufferInPacket p).2 := by
      rw [bufferAll, List.foldl_append]
      rfl
    rw [happend, (bufferInPacket_fits _ p hfits).2.1 j, hslots]
    by_cases hj : j = ps.length
    · rw [if_pos hj, hj, List.getElem?_concat_length]
    · rw [if_neg hj]
      by_cases hlt : j < ps.length
      · rw [List.getElem?_append_left hlt]
      · rw [List.getElem?_eq_none (by omega), List.getElem?_eq_none (by simp; omega)]

theorem run_of_slots {s : OrderedBytes} {ps : List BluefinPacket} (h : ∀ j, s.slotAt j = ps[j]?)
    (hlen : ps.length ≤ maxBufferSize) : s.run = ps := by
  have hfront : ∀ w n, front s.slotAt n w = (ps.drop n).take w := by
    intro w
    induction w with
    | zero => intro n; rw [List.take_zero]; rfl
    | succ w ih =>
      intro n
      cases hn : ps[n]? with
      | none =>
        rw [front_none (by rw [h, hn]), List.drop_eq_nil_of_le (List.getElem?_eq_none_iff.mp hn),
          List.take_nil]
      | some p =>
        obtain ⟨hlt, hget⟩ := List.getElem?_eq_some_iff.mp hn
        rw [front_some (by rw [h, hn]), ih, List.drop_eq_getElem_cons hlt, List.take_succ_cons, hget]
  rw [run, hfront, List.drop_zero, List.take_of_length_le hlen]

/-! ### Taking -/

theorem took_zero (s : OrderedBytes) : s.Took 0 s where
  front := fun k hk => absurd hk (Nat.not_lt_zero k)
  slots := fun k => by rw [Nat.add_zero]
  smallest := by simp

theorem took_setCarry {s s' : OrderedBytes} {m : ℕ} (h : s.Took m s') (c : Option Bytes) :
    s.Took m (s'.setCarry c) := ⟨h.front, h.slots, h.smallest⟩

theorem took_le {s s' : OrderedBytes} {m : ℕ} (hin : s.InOrder) (h : s.Took m s') :
    s.smallestPacketNumber.toNat + m ≤ 2 ^ 64 := by
  cases m with
  | zero => exact Nat.le_of_lt s.smallestPacketNumber.toNat_lt
  | succ m =>
    obtain ⟨p, hp⟩ := h.front m (Nat.lt_succ_self m)
    have hnum := hin m p hp
    have hlt := p.header.packetNumber.toNat_lt
    omega

theorem took_inOrder {s s' : OrderedBytes} {m : ℕ} (hin : s.InOrder) (h : s.Took m s') :
    s'.InOrder := by
  intro k p hp
  rw [h.slots k] at hp
  have hnum := hin (k + m) p hp
  have hlt := p.header.packetNumber.toNat_lt
  rw [h.smallest, UInt64.toNat_add, UInt64.toNat_ofNat', hnum]
  omega

theorem took_left_iff {s s' : OrderedBytes} {m : ℕ} (hin : s.InOrder) (h : s.Took m s')
    (n : UInt64) :
    (s.Holds n ∧ ¬ s'.Holds n) ↔
      s.smallestPacketNumber.toNat ≤ n.toNat ∧ n.toNat < s.smallestPacketNumber.toNat + m := by
  constructor
  · rintro ⟨⟨k, p, hp, rfl⟩, hleft⟩
    have hnum := hin k p hp
    have hk : k < m := by
      by_contra hge
      apply hleft
      refine ⟨k - m, p, ?_, rfl⟩
      rw [h.slots, Nat.sub_add_cancel (Nat.le_of_not_lt hge)]
      exact hp
    omega
  · rintro ⟨hle, hlt⟩
    obtain ⟨p, hp⟩ := h.front (n.toNat - s.smallestPacketNumber.toNat) (by omega)
    have hnum := hin _ p hp
    refine ⟨⟨_, p, hp, UInt64.toNat_inj.mp (by omega)⟩, ?_⟩
    rintro ⟨k, q, hq, rfl⟩
    rw [h.slots k] at hq
    have hnum' := hin _ q hq
    omega

theorem took_pop {s s' : OrderedBytes} {m : ℕ} {p : BluefinPacket} (hin : s.InOrder)
    (hp : s.slotAt 0 = some p) (h : (s.pop p).Took m s') : s.Took (m + 1) s' where
  front := by
    intro k hk
    cases k with
    | zero => exact ⟨p, hp⟩
    | succ k =>
      rw [← slotAt_pop s p k]
      exact h.front k (Nat.lt_of_succ_lt_succ hk)
  slots := by
    intro k
    rw [h.slots k, slotAt_pop]
    rfl
  smallest := by
    have hnum : p.header.packetNumber = s.smallestPacketNumber := UInt64.toNat_inj.mp (hin 0 p hp)
    have hpop : (s.pop p).smallestPacketNumber = s.smallestPacketNumber + 1 := by
      rw [← hnum]
      rfl
    rw [h.smallest, hpop, UInt64.ofNat_add, UInt64.add_assoc, UInt64.add_comm 1]
    rfl

theorem inOrder_pop {s : OrderedBytes} {p : BluefinPacket} (hin : s.InOrder)
    (hp : s.slotAt 0 = some p) : (s.pop p).InOrder :=
  took_inOrder hin (took_pop hin hp (took_zero _))

theorem took_popAll {s : OrderedBytes} (hin : s.InOrder) (m : ℕ) (hm : m ≤ s.run.length) :
    s.Took m (s.popAll (s.run.take m)) := by
  induction m generalizing s with
  | zero => exact took_zero s
  | succ m ih =>
    cases hp : s.slotAt 0 with
    | none =>
      rw [run_of_none s hp] at hm
      cases hm
    | some p =>
      have hcons := run_of_some s hp
      rw [hcons, List.length_cons] at hm
      have htail := ih (inOrder_pop hin hp) (Nat.le_of_succ_le_succ hm)
      rw [hcons, List.take_succ_cons]
      exact took_pop hin hp htail

/-! ### A slice shorter than the bytes asked for -/

theorem copyFromSlice_pad (buf pad : Bytes) (i : ℕ) (xs : Bytes) :
    (∃ f, copyFromSlice buf i xs = .panicked f) ∨
      copyFromSlice buf i xs = .ok (overwrite buf i xs) ∧
        copyFromSlice (buf ++ pad) i xs = .ok (overwrite buf i xs ++ pad) := by
  by_cases h : i + xs.length ≤ buf.length
  · refine Or.inr ⟨copyFromSlice_ok _ _ _ h, ?_⟩
    have hpad : i + xs.length ≤ (buf ++ pad).length := by
      rw [List.length_append]
      omega
    rw [copyFromSlice_ok _ _ _ hpad]
    simp only [overwrite]
    rw [List.take_append_of_le_length (by omega), List.drop_append_of_le_length h,
      ← List.append_assoc]
  · exact Or.inl ⟨_, if_neg h⟩

/-- With more room behind the slice nothing changes, if the call did not panic. -/
def Padded {α : Type} (pad : Bytes) (short long : BluefinResult α × (OrderedBytes × Bytes)) : Prop :=
  (∃ f, short.1 = .panicked f) ∨ long = (short.1, short.2.1, short.2.2 ++ pad)

theorem consumeLoop_pad (pad : Bytes) (base : Fin maxBufferSize) (len : ℕ) (s : OrderedBytes)
    (buf : Bytes) (numBytes writerIx ix : ℕ) :
    Padded pad (consumeLoop base len s buf numBytes writerIx ix)
      (consumeLoop base len s (buf ++ pad) numBytes writerIx ix) := by
  rw [consumeLoop, consumeLoop]
  by_cases h : ix < maxBufferSize
  · rw [dif_pos h, dif_pos h]
    cases hp : s.packets (wrapIndex base ⟨ix, h⟩) with
    | none =>
      simp only [hp]
      exact Or.inr rfl
    | some packet =>
      simp only [hp]
      by_cases hmore : numBytes < len
      · rw [if_pos hmore, if_pos hmore]
        by_cases hlong : packet.payload.length > len - numBytes
        · rw [if_pos hlong, if_pos hlong]
          rcases copyFromSlice_pad buf pad writerIx (packet.payload.take (len - numBytes)) with
            ⟨f, hf⟩ | ⟨hok, hpad⟩
          · rw [hf]
            exact Or.inl ⟨f, rfl⟩
          · rw [hok, hpad]
            exact consumeLoop_pad ..
        · rw [if_neg hlong, if_neg hlong]
          rcases copyFromSlice_pad buf pad writerIx packet.payload with ⟨f, hf⟩ | ⟨hok, hpad⟩
          · rw [hf]
            exact Or.inl ⟨f, rfl⟩
          · rw [hok, hpad]
            exact consumeLoop_pad ..
      · rw [if_neg hmore, if_neg hmore]
        exact Or.inr rfl
  · rw [dif_neg h, dif_neg h]
    exact Or.inr rfl
termination_by maxBufferSize - ix

theorem consumePackets_pad (pad : Bytes) (s : OrderedBytes) (len : ℕ) (buf : Bytes)
    (numBytes writerIx : ℕ) :
    Padded pad (s.consumePackets len buf numBytes writerIx)
      (s.consumePackets len (buf ++ pad) numBytes writerIx) := by
  rcases consumeLoop_pad pad s.smallestPacketNumberIndex len s buf numBytes writerIx 0 with
    ⟨f, hf⟩ | hlong
  · left
    simp only [consumePackets]
    rw [hf]
    exact ⟨f, rfl⟩
  · rcases hshort : consumeLoop s.smallestPacketNumberIndex len s buf numBytes writerIx 0 with
      ⟨res, s', buf'⟩
    rw [hshort] at hlong
    simp only [consumePackets, hshort, hlong]
    cases res with
    | ok a =>
      simp only [Outcome.orReturn]
      by_cases hzero : a.2 = 0
      · rw [if_pos hzero, if_pos hzero]
        exact Or.inr rfl
      · rw [if_neg hzero, if_neg hzero]
        exact Or.inr rfl
    | err e => exact Or.inr rfl
    | panicked f => exact Or.inl ⟨f, rfl⟩

theorem consume_pad (pad : Bytes) (s : OrderedBytes) (len : ℕ) (buf : Bytes) :
    Padded pad (s.consume len buf) (s.consume len (buf ++ pad)) := by
  unfold consume
  cases s.carryOverBytes with
  | none => exact consumePackets_pad ..
  | some c =>
    simp only
    by_cases hfit : c.length ≤ len
    · rw [if_pos hfit, if_pos hfit]
      rcases copyFromSlice_pad buf pad 0 c with ⟨f, hf⟩ | ⟨hok, hpad⟩
      · rw [hf]
        exact Or.inl ⟨f, rfl⟩
      · rw [hok, hpad]
        exact consumePackets_pad ..
    · rw [if_neg hfit, if_neg hfit]
      rcases copyFromSlice_pad buf pad 0 (c.take len) with ⟨f, hf⟩ | ⟨hok, hpad⟩
      · rw [hf]
        exact Or.inl ⟨f, rfl⟩
      · rw [hok, hpad]
        exact Or.inr rfl

/-! ### What a consume reports -/

/-- A consume with the result `res` took `m` packets: it reports their number
and the first of them, and an error means that none with a payload was taken. -/
structure Reports (s : OrderedBytes) (res : BluefinResult ConsumeResult) (m : ℕ) : Prop where
  size : m ≤ maxBufferSize
  ok : ∀ r, res = .ok r →
    r.numPacketsConsumed = m ∧ (0 < m → r.basePacketNumber = s.smallestPacketNumber)
  err : res.isOk = false → (∀ k p, s.slotAt k = some p → p.payload ≠ []) → m = 0

theorem basePacketNumber_eq {s : OrderedBytes} (hin : s.InOrder) {p : BluefinPacket}
    (hp : s.slotAt 0 = some p) : s.basePacketNumber = s.smallestPacketNumber := by
  have hnum : p.header.packetNumber = s.smallestPacketNumber := UInt64.toNat_inj.mp (hin 0 p hp)
  rw [slotAt_zero] at hp
  rw [basePacketNumber, hp]
  exact hnum

theorem takeBytes_eq_nil {s : OrderedBytes} {n : ℕ} (hfull : ∀ k p, s.slotAt k = some p → p.payload ≠ [])
    (h : s.taken n = []) : s.takeBytes n = [] := by
  by_cases hn : 0 < n
  · cases hp : s.slotAt 0 with
    | none => exact takeBytes_of_run_nil s n (run_of_none s hp)
    | some p =>
      have hbytes : s.HasBytes := by
        refine ⟨p, ?_, hfull 0 p hp⟩
        rw [run_of_some s hp]
        exact List.mem_cons_self ..
      exact absurd hbytes ((taken_eq_nil_iff s hn).mp h)
  · rw [Nat.eq_zero_of_not_pos hn, takeBytes_zero]

theorem took_take {s : OrderedBytes} (hin : s.InOrder) (j : ℕ) :
    s.Took (s.run.take j).length (s.popAll (s.run.take j)) := by
  have h := took_popAll hin (min j s.run.length) (Nat.min_le_right ..)
  rw [← List.take_eq_take_min] at h
  rw [List.length_take]
  exact h

theorem reports_take {s : OrderedBytes} (hin : s.InOrder) (j bytes : ℕ) {α : Type} (out : List α)
    [DecidableEq α] (hempty : out = [] → (∀ k p, s.slotAt k = some p → p.payload ≠ []) →
      s.run.take j = []) :
    s.Reports (if out = [] then .err .bufferEmptyError
      else .ok ⟨(s.run.take j).length, s.basePacketNumber, bytes⟩) (s.run.take j).length where
  size := (List.length_take_le' ..).trans (run_length_le s)
  ok := by
    intro r hr
    split at hr
    · cases hr
    · cases hr
      refine ⟨rfl, fun hpos => ?_⟩
      cases hp : s.slotAt 0 with
      | none =>
        rw [run_of_none s hp, List.take_nil] at hpos
        cases hpos
      | some p => exact basePacketNumber_eq hin hp
  err := by
    intro hres hfull
    split at hres
    · rename_i hnil
      rw [hempty hnil hfull]
      rfl
    · cases hres

/-- The packets at the head that `len` bytes after the carry-over need. -/
def consumeCount (s : OrderedBytes) (len : ℕ) : ℕ := (s.takeBytes (len - s.carryBytes.length)).length

/-- The packets at the head that make up `maxPackets` pieces with the carry-over. -/
def consumeBytesCount (s : OrderedBytes) (maxPackets : ℕ) : ℕ :=
  (s.run.take (maxPackets - s.carryOverBytes.toList.length)).length

theorem consume_took {s : OrderedBytes} (hin : s.InOrder) (len : ℕ) (buf : Bytes)
    (hret : ∀ f, (s.consume len buf).1 ≠ .panicked f) :
    s.Took (s.consumeCount len) (s.consume len buf).2.1 ∧
      s.Reports (s.consume len buf).1 (s.consumeCount len) := by
  -- the same call on a slice that is long enough
  rcases consume_pad (List.replicate len 0) s len buf with ⟨f, hf⟩ | hpad
  · exact absurd hf (hret f)
  have hlen : len ≤ (buf ++ List.replicate len 0).length := by
    rw [List.length_append, List.length_replicate]
    omega
  have hres := congrArg Prod.fst hpad
  have hs := congrArg (fun x => x.2.1) hpad
  simp only at hres hs
  rw [← hres, ← hs, consume_eq s len _ hlen]
  by_cases hlong : len < s.carryBytes.length
  · have hcount : s.consumeCount len = 0 := by
      rw [consumeCount, Nat.sub_eq_zero_of_le (Nat.le_of_lt hlong), takeBytes_zero]
      rfl
    rw [if_pos hlong, hcount]
    refine ⟨took_setCarry (took_zero s) _, Nat.zero_le _, fun r hr => ?_, fun _ _ => rfl⟩
    cases hr
    exact ⟨rfl, fun hpos => absurd hpos (Nat.lt_irrefl 0)⟩
  · rw [if_neg hlong, consumeCount]
    generalize len - s.carryBytes.length = n
    constructor
    · simp only [afterTake, popAll_setCarry]
      exact took_setCarry (took_setCarry (took_take hin _) _) _
    · refine reports_take hin _ _ _ fun hout hfull => ?_
      exact takeBytes_eq_nil hfull (List.append_eq_nil_iff.mp hout).2

theorem consumeBytes_took {s : OrderedBytes} (hin : s.InOrder) (out : List Bytes) (maxPackets : ℕ) :
    s.Took (s.consumeBytesCount maxPackets) (s.consumeBytes out maxPackets).2.1 ∧
      s.Reports (s.consumeBytes out maxPackets).1 (s.consumeBytesCount maxPackets) := by
  rw [consumeBytes_eq]
  simp only [popAll_setCarry]
  refine ⟨took_setCarry (took_take hin _) _, reports_take hin _ _ _ fun hout _ => ?_⟩
  exact List.map_eq_nil_iff.mp (List.append_eq_nil_iff.mp hout).2

end OrderedBytes

end Bluefin
