import Bluefin.Base.Trace
import Bluefin.Net.Consumption
import Bluefin.Worker.ReaderTx

/-!
# What a consume reports against what it did

The byte count, the packet count and the base number of a `ConsumeResult` are
found in different places; acks are made from the last two. They describe the
call as long as each packet stands in the slot of its number, and that is kept
by every call but one: `set_start_packet_number` renumbers the slots, with
whatever is in them.
-/

namespace Bluefin
open Base

namespace OrderedBytes

/-- The packets that left on the way from `s` to `s'` are those that `r` names,
and the smallest number is the one after them. -/
structure Removed (s : OrderedBytes) (r : ConsumeResult) (s' : OrderedBytes) : Prop where
  atMost : r.numPacketsConsumed ≤ maxBufferSize
  fits : r.basePacketNumber.toNat + r.numPacketsConsumed ≤ 2 ^ 64
  left_iff : ∀ n, (s.Holds n ∧ ¬ s'.Holds n) ↔ r.basePacketNumber.toNat ≤ n.toNat ∧
    n.toNat < r.basePacketNumber.toNat + r.numPacketsConsumed
  others : ∀ k, s'.slotAt k = s.slotAt (k + r.numPacketsConsumed)
  smallest : s'.smallestPacketNumber = r.basePacketNumber + UInt64.ofNat r.numPacketsConsumed

/-- The next call on `s` that succeeds describes what it did. -/
structure Describes (s : OrderedBytes) : Prop where
  count : ∀ len buf r, 0 < len → len ≤ buf.length → (s.consume len buf).1 = .ok r →
    r.bytesConsumed = min len s.readable.length
  written : ∀ len buf r, 0 < len → len ≤ buf.length → (s.consume len buf).1 = .ok r →
    (s.consume len buf).2.2.take r.bytesConsumed = s.readable.take r.bytesConsumed
  rest : ∀ len buf r, 0 < len → len ≤ buf.length → (s.consume len buf).1 = .ok r →
    (s.consume len buf).2.2.drop r.bytesConsumed = buf.drop r.bytesConsumed
  consume : ∀ len buf r, (s.consume len buf).1 = .ok r → 0 < r.numPacketsConsumed →
    s.Removed r (s.consume len buf).2.1
  consumeBytes : ∀ out maxPackets r, (s.consumeBytes out maxPackets).1 = .ok r →
    0 < r.numPacketsConsumed → s.Removed r (s.consumeBytes out maxPackets).2.1

/-! ### Bytes -/

theorem consume_ok {s : OrderedBytes} {len : ℕ} {buf : Bytes} {r : ConsumeResult}
    (hbuf : len ≤ buf.length) (h : (s.consume len buf).1 = .ok r) :
    r.bytesConsumed = min len s.readable.length ∧
      (s.consume len buf).2.2 = overwrite buf 0 (s.readable.take len) := by
  rw [consume_eq s len buf hbuf] at h ⊢
  by_cases hlong : len < s.carryBytes.length
  · rw [if_pos hlong] at h ⊢
    cases h
    have htake : s.readable.take len = s.carryBytes.take len :=
      List.take_append_of_le_length (Nat.le_of_lt hlong)
    rw [htake, readable, List.length_append]
    exact ⟨by simp only; omega, rfl⟩
  · rw [if_neg hlong] at h ⊢
    have hout : s.carryBytes ++ (s.setCarry none).taken (len - s.carryBytes.length) =
        s.readable.take len := by
      rw [taken_eq, run_setCarry, readable, List.take_append,
        List.take_of_length_le (Nat.le_of_not_lt hlong)]
    simp only [hout] at h ⊢
    by_cases hnil : s.readable.take len = []
    · rw [if_pos hnil] at h
      cases h
    · rw [if_neg hnil] at h
      cases h
      exact ⟨List.length_take, trivial⟩

/-! ### Packets -/

theorem removed_of_took {s s' : OrderedBytes} {res : BluefinResult ConsumeResult}
    {r : ConsumeResult} {m : ℕ} (hin : s.InOrder) (htook : s.Took m s') (hreports : s.Reports res m)
    (hres : res = .ok r) (hpos : 0 < r.numPacketsConsumed) : s.Removed r s' := by
  obtain ⟨hcount, hbase⟩ := hreports.ok r hres
  rw [hcount] at hpos
  have hbase := hbase hpos
  constructor
  case atMost =>
    rw [hcount]
    exact hreports.size
  case fits =>
    rw [hcount, hbase]
    exact took_le hin htook
  case left_iff =>
    rw [hcount, hbase]
    exact took_left_iff hin htook
  case others =>
    rw [hcount]
    exact htook.slots
  case smallest =>
    rw [hcount, hbase]
    exact htook.smallest

theorem describes_of_inOrder {s : OrderedBytes} (hin : s.InOrder) : s.Describes where
  count := fun _ _ _ _ hbuf h => (consume_ok hbuf h).1
  written := by
    intro len buf r _ hbuf h
    obtain ⟨hcount, hwritten⟩ := consume_ok hbuf h
    have hlen : (s.readable.take len).length = r.bytesConsumed := by
      rw [hcount, List.length_take]
    have htake : s.readable.take len = s.readable.take r.bytesConsumed := by
      rw [hcount, List.take_eq_take_min]
    rw [hwritten, overwrite, List.take_zero, List.nil_append, ← hlen, List.take_left, hlen, htake]
  rest := by
    intro len buf r _ hbuf h
    obtain ⟨hcount, hwritten⟩ := consume_ok hbuf h
    have hlen : (s.readable.take len).length = r.bytesConsumed := by
      rw [hcount, List.length_take]
    rw [hwritten, overwrite, List.take_zero, List.nil_append, ← hlen, List.drop_left, Nat.zero_add]
  consume := by
    intro len buf r h hpos
    obtain ⟨htook, hreports⟩ := consume_took hin len buf (by
      intro f hf
      rw [hf] at h
      cases h)
    exact removed_of_took hin htook hreports h hpos
  consumeBytes := by
    intro out maxPackets r h hpos
    obtain ⟨htook, hreports⟩ := consumeBytes_took hin out maxPackets
    exact removed_of_took hin htook hreports h hpos

/-! ### Runs -/

inductive Operation where
  | bufferInPacket (packet : BluefinPacket)
  | setStartPacketNumber (startPacketNumber : UInt64)
  | consume (len : ℕ) (buf : Bytes)
  | consumeBytes (out : List Bytes) (maxPackets : ℕ)

/-- An operation that panics leaves no buffer: its mutex is poisoned. -/
def operate (s : OrderedBytes) : Operation → Option OrderedBytes
  | .bufferInPacket packet => some (s.bufferInPacket packet).2
  | .setStartPacketNumber startPacketNumber => some (s.setStartPacketNumber startPacketNumber)
  | .consume len buf =>
    if (s.consume len buf).1.isPanic then none else some (s.consume len buf).2.1
  | .consumeBytes out maxPackets => some (s.consumeBytes out maxPackets).2.1

/-- The start number is not moved under a packet that is buffered. -/
def KeepsNumbers (s : OrderedBytes) : Operation → Prop
  | .setStartPacketNumber startPacketNumber =>
    (∀ k, s.slotAt k = none) ∨ startPacketNumber = s.smallestPacketNumber
  | _ => True

theorem inOrder_operate {s t : OrderedBytes} (hin : s.InOrder) {c : Operation} (hkeeps : s.KeepsNumbers c)
    (h : s.operate c = some t) : t.InOrder := by
  cases c with
  | bufferInPacket packet =>
    cases h
    exact inOrder_bufferInPacket hin packet
  | setStartPacketNumber startPacketNumber =>
    cases h
    intro k p hp
    have hslot : s.slotAt k = some p := hp
    rcases hkeeps with hempty | rfl
    · rw [hempty k] at hslot
      cases hslot
    · exact hin k p hslot
  | consume len buf =>
    simp only [operate] at h
    by_cases hpanic : (s.consume len buf).1.isPanic = true
    · rw [if_pos hpanic] at h
      cases h
    · rw [if_neg hpanic] at h
      cases h
      apply took_inOrder hin (consume_took hin len buf _).1
      intro f hf
      rw [hf] at hpanic
      exact hpanic rfl
  | consumeBytes out maxPackets =>
    cases h
    exact took_inOrder hin (consumeBytes_took hin out maxPackets).1

theorem inOrder_run {connId : UInt32} {start : UInt64} {cs : List Operation} {s : OrderedBytes}
    (hrun : Run (fun s c t => s.KeepsNumbers c ∧ s.operate c = some t) (new connId start) cs s) :
    s.InOrder := by
  induction hrun with
  | nil => exact inOrder_new connId start
  | snoc _ hs ih => exact inOrder_operate ih hs.1 hs.2

def dataFrom (srcConnId : UInt32) (packetNumber : UInt64) (payload : Bytes) : BluefinPacket :=
  ⟨(BluefinHeader.new srcConnId 1 .unencryptedData 0 .default).withPacketNumber packetNumber,
    payload⟩

theorem consume_describes {connId : UInt32} {start : UInt64} {cs : List Operation} {s : OrderedBytes}
    (hrun : Run (fun s c t => s.KeepsNumbers c ∧ s.operate c = some t) (new connId start) cs s) :
    s.Describes := describes_of_inOrder (inOrder_run hrun)

/-- The start number is set, two packets arrive, and one byte of the first is read. -/
theorem consume_describes_half : ∃ s : OrderedBytes, s.readable = [2, 3] ∧
    (s.consume 2 [0, 0, 0]).1 = .ok ⟨1, 6, 2⟩ ∧ s.Describes := by
  have hrun : Run (fun s c t => s.KeepsNumbers c ∧ s.operate c = some t) (new 1 0)
      [.setStartPacketNumber 5, .bufferInPacket (dataFrom 2 5 [1, 2]),
        .bufferInPacket (dataFrom 2 6 [3]), .consume 1 [0]] _ :=
    (((Run.nil.snoc ⟨.inl (fun k => by unfold slotAt; split <;> rfl), rfl⟩).snoc
      ⟨trivial, rfl⟩).snoc ⟨trivial, rfl⟩).snoc
        ⟨trivial, if_neg (by decide +kernel)⟩
  exact ⟨_, by decide +kernel, by decide +kernel, consume_describes hrun⟩

/-- A client before its ServerHello: its connection has the key (1, 0). -/
def waitingClient : ConnectionManagedBuffers :=
  ⟨.new 1 .client, .new 0, .new, none⟩

def serverHello : BluefinPacket :=
  ⟨(BluefinHeader.new 2 1 .unencryptedServerHello 0 .default).withPacketNumber 4, []⟩

/-- Packets that arrive at the client one by one, each alone in its datagram. -/
def clientAfter (packets : List BluefinPacket) : ConnectionManagedBuffers :=
  packets.foldl (fun buffers packet => (ReaderTxChannel.bufferInData
    (isHelloPacket .client packet) .client packet 0 buffers).2.1) waitingClient

/-- Data with the source id 0 has the key (1, 0) and is buffered before the ServerHello, which then
moves the start number: packet 0 stays in the slot of packet 5. A `consume` takes it with packet 6
and reports 0 and 1. -/
theorem early_data_misreported : ∃ s : OrderedBytes,
    (clientAfter [dataFrom 0 0 [1], serverHello, dataFrom 0 6 [2]]).connBuff.orderedBytes = s ∧
      (∀ state n, ReaderTxChannel.classify .client state [dataFrom 0 n [1]] 0 =
        .goOn (state, some ⟨false, (1, 0), [dataFrom 0 n [1]], 0⟩)) ∧
      Run (fun s c t => s.operate c = some t) (new 1 0) [.bufferInPacket (dataFrom 0 0 [1]),
        .setStartPacketNumber 5, .bufferInPacket (dataFrom 0 6 [2])] s ∧
      (s.consume 2 [0, 0]).1 = .ok ⟨2, 0, 2⟩ ∧
      (s.consume 2 [0, 0]).2.1.smallestPacketNumber = 7 ∧ ¬ s.Describes := by
  have hrun : Run (fun s c t => s.operate c = some t) (new 1 0)
      [.bufferInPacket (dataFrom 0 0 [1]), .setStartPacketNumber 5,
        .bufferInPacket (dataFrom 0 6 [2])] _ :=
    ((Run.nil.snoc rfl).snoc rfl).snoc rfl
  refine ⟨_, rfl, fun _ _ => rfl, hrun, by decide +kernel, by decide +kernel, fun h => ?_⟩
  have hremoved := h.consume 2 [0, 0] ⟨2, 0, 2⟩ (by decide +kernel) (by decide)
  have hsmallest := hremoved.smallest
  revert hsmallest
  decide +kernel

end OrderedBytes

end Bluefin
