import Bluefin.Net.CheckedBuffers
import Bluefin.Net.Handshake

/-!
# Packet numbers off the wire

A peer chooses the packet numbers and ack counts that the receive path computes
with. `Receiver` is what one connection keeps of them: its buffers, and the
number that `accept` remembers of the ClientHello. Its calls are those of the
reader workers, of `accept` and of the application, in any order; in a build
with overflow checks a call may panic.
-/

namespace Bluefin
open Base

structure Receiver where
  connBuff : ConnectionBuffer
  ackBuff : AckBuffer
  -- `client_packet_num` of `accept`, once it has a ClientHello
  clientPacketNum : Option UInt64

namespace Receiver

def new (srcConnId : UInt32) (hostType : BluefinHost) (firstSent : UInt64) : Receiver where
  connBuff := .new srcConnId hostType
  ackBuff := .new firstSent
  clientPacketNum := none

inductive Call where
  | bufferInPacket (packet : BluefinPacket)
  | bufferInAddr (addr : SocketAddr)
  | bufferInBytes (packet : BluefinPacket)
  | bufferInAckPacket (packet : BluefinPacket)
  -- server.rs:110-125: the hello was queued, or it is read from the slot
  | queuedHello (packet : BluefinPacket)
  | readHello
  -- server.rs:163-168
  | readClientAck
  | consumeAcks
  | consume (len : ℕ) (buf : Bytes)
  | consumeBytes (out : List Bytes) (maxPackets : ℕ)

/-- Only `accept` keeps the number of a hello. -/
def keepNumber (r : Receiver) (packet : BluefinPacket) : Receiver :=
  match r.connBuff.hostType with
  | .packLeader => { r with clientPacketNum := some packet.header.packetNumber }
  | .client | .packFollower => r

def callIn (checks : Bool) (r : Receiver) : Call → Option Receiver
  | .bufferInPacket packet => do
    let (_, b) ← r.connBuff.bufferInPacketIn checks packet
    pure { r with connBuff := b }
  | .bufferInAddr addr => some { r with connBuff := (r.connBuff.bufferInAddr addr).2 }
  | .bufferInBytes packet => do
    let (_, b) ← r.connBuff.bufferInBytesIn checks packet
    pure { r with connBuff := b }
  | .bufferInAckPacket packet => do
    let (_, b) ← r.ackBuff.bufferInAckPacketIn checks packet
    pure { r with ackBuff := b }
  | .queuedHello packet => some (r.keepNumber packet)
  | .readHello => match r.connBuff.pollHandshake Handshake.callWaker with
    | (some (packet, _), b) => some ({ r with connBuff := b }.keepNumber packet)
    | (none, b) => some { r with connBuff := b }
  | .readClientAck => match r.clientPacketNum, r.connBuff.pollHandshake Handshake.callWaker with
    | some clientPacketNum, (some _, b) => do
      -- the ack's number is compared with this sum
      let _ ← addIn checks clientPacketNum 1
      pure { r with connBuff := b }
    | _, (_, b) => some { r with connBuff := b }
  | .consumeAcks => do
    let (_, acks) ← r.ackBuff.receivedAcks.consumeIn checks
    pure { r with ackBuff := { r.ackBuff with receivedAcks := acks } }
  | .consume len buf => do
    let (_, b, _) ← r.connBuff.consumeIn checks len buf
    pure { r with connBuff := b }
  | .consumeBytes out maxPackets => do
    let (_, b, _) ← r.connBuff.consumeBytesIn checks out maxPackets
    pure { r with connBuff := b }

def callsIn (checks : Bool) (r : Receiver) (cs : List Call) : Option Receiver :=
  cs.foldlM (callIn checks) r

/-- What a packet's number and count leave room for, by the way it comes in. -/
def Call.Small (hostType : BluefinHost) : Call → Prop
  | .bufferInPacket packet =>
    packet.header.packetNumber.toNat + ConnectionBuffer.startOffset hostType < 2 ^ 64
  | .bufferInBytes packet => packet.header.packetNumber.toNat + 1 < 2 ^ 64
  | .bufferInAckPacket packet => packet.header.typeSpecificPayload = 0 ∨
    packet.header.packetNumber.toNat + packet.header.typeSpecificPayload.toNat < 2 ^ 64
  | .queuedHello packet =>
    hostType = .packLeader → packet.header.packetNumber.toNat + 1 < 2 ^ 64
  | _ => True

instance (hostType : BluefinHost) : DecidablePred (Call.Small hostType)
  | .bufferInPacket packet => inferInstanceAs (Decidable
      (packet.header.packetNumber.toNat + ConnectionBuffer.startOffset hostType < 2 ^ 64))
  | .bufferInBytes packet => inferInstanceAs (Decidable
      (packet.header.packetNumber.toNat + 1 < 2 ^ 64))
  | .bufferInAckPacket packet => inferInstanceAs (Decidable
      (packet.header.typeSpecificPayload = 0 ∨
        packet.header.packetNumber.toNat + packet.header.typeSpecificPayload.toNat < 2 ^ 64))
  | .queuedHello packet => inferInstanceAs (Decidable
      (hostType = .packLeader → packet.header.packetNumber.toNat + 1 < 2 ^ 64))
  | .bufferInAddr _ | .readHello | .readClientAck | .consumeAcks | .consume _ _ |
    .consumeBytes _ _ => inferInstanceAs (Decidable True)

/-! ### Calls that leave room -/

/-- What is buffered leaves room for the sums that are still to come. -/
structure Fits (r : Receiver) : Prop where
  bytes : r.connBuff.orderedBytes.NumbersFit
  acks : r.ackBuff.receivedAcks.Sound ∧ r.ackBuff.receivedAcks.NumbersFit
  slot : r.connBuff.hostType = .packLeader → ∀ p, r.connBuff.packet = some p →
    p.header.packetNumber.toNat + 1 < 2 ^ 64
  hello : ∀ n, r.clientPacketNum = some n → n.toNat + 1 < 2 ^ 64

theorem fits_new (srcConnId : UInt32) (hostType : BluefinHost) (firstSent : UInt64) :
    (new srcConnId hostType firstSent).Fits where
  bytes := by
    intro i p hp
    cases hp
  acks := by
    refine ⟨SlidingWindow.sound_new firstSent, ?_⟩
    intro n hn
    cases hn
  slot := by
    intro _ p hp
    cases hp
  hello := by
    intro n hn
    cases hn

/-- A call in a receiver of the host `hostType`: the two builds end the same, and the receiver still
fits. -/
def Safe (hostType : BluefinHost) (r : Receiver) (c : Call) : Prop :=
  ∃ r', (∀ checks, callIn checks r c = some r') ∧ r'.Fits ∧ r'.connBuff.hostType = hostType

section

variable {hostType : BluefinHost} {r : Receiver} (hfits : r.Fits)
  (hhost : r.connBuff.hostType = hostType)

include hfits hhost

theorem safe_bufferInPacket {packet : BluefinPacket}
    (hsmall : (Call.bufferInPacket packet).Small hostType) :
    Safe hostType r (.bufferInPacket packet) := by
  have hsum : packet.header.packetNumber.toNat +
      ConnectionBuffer.startOffset r.connBuff.hostType < 2 ^ 64 := by
    rw [hhost]
    exact hsmall
  refine ⟨{ r with connBuff := (r.connBuff.bufferInPacket packet).2 }, fun checks => ?_, ?_, ?_⟩
  · rw [callIn, ConnectionBuffer.bufferInPacketIn_eq checks _ _ (.inr hsum)]
    rfl
  · -- the start number does not touch the slots
    have hstart : ∀ bytes : OrderedBytes, bytes.NumbersFit → (ConnectionBuffer.startNumber
        r.connBuff.hostType packet.header.packetNumber bytes).NumbersFit := by
      intro bytes h
      cases r.connBuff.hostType <;> exact h
    have hslot : r.connBuff.hostType = .packLeader →
        packet.header.packetNumber.toNat + 1 < 2 ^ 64 := by
      intro hleader
      rw [hleader] at hsum
      simp only [ConnectionBuffer.startOffset] at hsum
      omega
    constructor
    case bytes =>
      simp only [ConnectionBuffer.bufferInPacket]
      split
      · exact hfits.bytes
      · split
        · exact hfits.bytes
        · exact hstart _ hfits.bytes
    case acks => exact hfits.acks
    case slot =>
      simp only [ConnectionBuffer.bufferInPacket]
      split
      · exact hfits.slot
      · split
        · rintro hleader p ⟨⟩
          exact hslot hleader
        · rintro hleader p ⟨⟩
          exact hslot hleader
    case hello => exact hfits.hello
  · simp only [ConnectionBuffer.bufferInPacket]
    split
    · exact hhost
    · split <;> exact hhost

theorem safe_bufferInBytes {packet : BluefinPacket}
    (hsmall : (Call.bufferInBytes packet).Small hostType) :
    Safe hostType r (.bufferInBytes packet) := by
  refine ⟨{ r with connBuff := (r.connBuff.bufferInBytes packet).2 }, fun checks => ?_, ?_, hhost⟩
  · rw [callIn, ConnectionBuffer.bufferInBytesIn_eq]
    rfl
  · exact { hfits with bytes := OrderedBytes.numbersFit_bufferInPacket hfits.bytes hsmall }

theorem safe_bufferInAckPacket {packet : BluefinPacket}
    (hsmall : (Call.bufferInAckPacket packet).Small hostType) :
    Safe hostType r (.bufferInAckPacket packet) := by
  have hextends := SlidingWindow.insertRange_extends hfits.acks.1 packet.header.packetNumber
    packet.header.typeSpecificPayload
  refine ⟨{ r with ackBuff := (r.ackBuff.bufferInAckPacket packet).2 }, fun checks => ?_, ?_, hhost⟩
  · have hplain : checks = false ∨ packet.header.packetNumber.toNat +
          packet.header.typeSpecificPayload.toNat < 2 ^ 64 ∨
        packet.header.typeSpecificPayload = 0 ∨ packet.header.packetNumber.toNat <
          r.ackBuff.receivedAcks.smallestExpectedPacketNumber.toNat := by
      rcases hsmall with hzero | hlt
      · exact .inr (.inr (.inl hzero))
      · exact .inr (.inl hlt)
    simp only [callIn, AckBuffer.bufferInAckPacketIn,
      SlidingWindow.insertRangeIn_eq checks r.ackBuff.receivedAcks hplain]
    rfl
  · have hnumbers : (r.ackBuff.bufferInAckPacket packet).2.receivedAcks.NumbersFit := by
      intro n hn
      rcases hextends.source n hn with hold | hnew
      · exact hfits.acks.2 n hold
      · by_cases hcount : packet.header.typeSpecificPayload = 0
        · rw [if_pos hcount] at hnew
          cases hnew
        · have hsum := hsmall.resolve_left hcount
          rw [if_neg hcount] at hnew
          have hlt := ((SlidingWindow.mem_rangeOfCount hcount (Nat.le_of_lt hsum) n).mp hnew).2
          omega
    exact { hfits with acks := ⟨hextends.sound, hnumbers⟩ }

omit hfits in
theorem keepNumber_hostType (packet : BluefinPacket) :
    (r.keepNumber packet).connBuff.hostType = hostType := by
  unfold keepNumber
  split <;> exact hhost

theorem fits_keepNumber {packet : BluefinPacket}
    (hnum : hostType = .packLeader → packet.header.packetNumber.toNat + 1 < 2 ^ 64) :
    (r.keepNumber packet).Fits := by
  unfold keepNumber
  split
  · rename_i hleader
    have hlt := hnum (hhost.symm.trans hleader)
    exact { hfits with
      hello := by
        rintro n ⟨⟩
        exact hlt }
  · exact hfits
  · exact hfits

theorem fits_poll {read : Option (BluefinPacket × SocketAddr)} {b : ConnectionBuffer}
    (h : r.connBuff.pollHandshake Handshake.callWaker = (read, b)) :
    { r with connBuff := b : Receiver }.Fits ∧ b.hostType = hostType ∧
      ∀ p addr, read = some (p, addr) → hostType = .packLeader →
        p.header.packetNumber.toNat + 1 < 2 ^ 64 := by
  unfold ConnectionBuffer.pollHandshake at h
  split at h
  · rename_i packet addr hpacket _
    cases h
    refine ⟨⟨hfits.bytes, hfits.acks, ?_, hfits.hello⟩, hhost, ?_⟩
    · intro _ p hp
      cases hp
    · rintro p addr ⟨⟩ hleader
      exact hfits.slot (hhost.trans hleader) _ hpacket
  · cases h
    refine ⟨⟨hfits.bytes, hfits.acks, ?_, hfits.hello⟩, hhost, ?_⟩
    · intro _ p hp
      cases hp
    · intro p addr hp
      cases hp

theorem safe_readHello : Safe hostType r .readHello := by
  rcases hpoll : r.connBuff.pollHandshake Handshake.callWaker with ⟨read, b⟩
  obtain ⟨hpolled, hb, hnum⟩ := fits_poll hfits hhost hpoll
  cases read with
  | none =>
    refine ⟨{ r with connBuff := b }, fun checks => ?_, hpolled, hb⟩
    simp only [callIn, hpoll]
  | some read =>
    obtain ⟨packet, addr⟩ := read
    refine ⟨{ r with connBuff := b }.keepNumber packet, fun checks => ?_, ?_, ?_⟩
    · simp only [callIn, hpoll]
    · exact fits_keepNumber hpolled hb (hnum packet addr rfl)
    · exact keepNumber_hostType (r := { r with connBuff := b }) hb packet

theorem safe_readClientAck : Safe hostType r .readClientAck := by
  rcases hpoll : r.connBuff.pollHandshake Handshake.callWaker with ⟨read, b⟩
  obtain ⟨hpolled, hb, -⟩ := fits_poll hfits hhost hpoll
  refine ⟨{ r with connBuff := b }, fun checks => ?_, hpolled, hb⟩
  cases hnumber : r.clientPacketNum with
  | none => simp only [callIn, hpoll, hnumber]
  | some n =>
    have hsum : addIn checks n 1 = some (n + 1) := addIn_eq (.inr (hfits.hello n hnumber))
    cases read with
    | none => simp only [callIn, hpoll, hnumber]
    | some read =>
      simp only [callIn, hpoll, hnumber, hsum]
      rfl

theorem safe_consumeAcks : Safe hostType r .consumeAcks := by
  refine ⟨{ r with ackBuff := { r.ackBuff with receivedAcks := r.ackBuff.receivedAcks.consume.2 } },
    fun checks => ?_, ?_, hhost⟩
  · rw [callIn, SlidingWindow.consumeIn_eq checks (.inr hfits.acks)]
    rfl
  · have hnumbers : r.ackBuff.receivedAcks.consume.2.NumbersFit := by
      by_cases hthere : r.ackBuff.receivedAcks.smallestExpectedPacketNumber ∈
          r.ackBuff.receivedAcks.orderedPacketNumbers
      · obtain ⟨m, hm⟩ := SlidingWindow.consume_takes hfits.acks.1 hthere
        intro n hn
        exact hfits.acks.2 n ((hm.rest n).mp hn).1
      · rw [SlidingWindow.consume_none hfits.acks.1 hthere]
        exact hfits.acks.2
    exact { hfits with acks := ⟨SlidingWindow.consume_sound hfits.acks.1, hnumbers⟩ }

theorem fits_slots {b : ConnectionBuffer} {bytes : OrderedBytes} (hbytes : bytes.NumbersFit)
    (hb : b = r.connBuff ∨ b = { r.connBuff with orderedBytes := bytes }) :
    { r with connBuff := b : Receiver }.Fits ∧ b.hostType = hostType := by
  rcases hb with rfl | rfl
  · exact ⟨hfits, hhost⟩
  · exact ⟨{ hfits with bytes := hbytes }, hhost⟩

theorem safe_consume (len : ℕ) (buf : Bytes) : Safe hostType r (.consume len buf) := by
  refine ⟨{ r with connBuff := (r.connBuff.consume len buf).2.1 }, fun checks => ?_,
    fits_slots hfits hhost (OrderedBytes.numbersFit_consume hfits.bytes len buf) ?_⟩
  · rw [callIn, ConnectionBuffer.consumeIn_eq checks _ _ _ (.inr hfits.bytes)]
    rfl
  · cases haddr : r.connBuff.addr with
    | none =>
      left
      simp only [ConnectionBuffer.consume, haddr]
    | some addr =>
      right
      rw [ConnectionBuffer.consume_of_addr haddr]

theorem safe_consumeBytes (out : List Bytes) (maxPackets : ℕ) :
    Safe hostType r (.consumeBytes out maxPackets) := by
  refine ⟨{ r with connBuff := (r.connBuff.consumeBytes out maxPackets).2.1 }, fun checks => ?_,
    fits_slots hfits hhost (OrderedBytes.numbersFit_consumeBytes hfits.bytes out maxPackets) ?_⟩
  · rw [callIn, ConnectionBuffer.consumeBytesIn_eq checks _ _ _ (.inr hfits.bytes)]
    rfl
  · cases haddr : r.connBuff.addr with
    | none =>
      left
      simp only [ConnectionBuffer.consumeBytes, haddr]
    | some addr =>
      right
      rw [ConnectionBuffer.consumeBytes_of_addr haddr]

theorem safe_bufferInAddr (addr : SocketAddr) : Safe hostType r (.bufferInAddr addr) := by
  refine ⟨{ r with connBuff := (r.connBuff.bufferInAddr addr).2 }, fun checks => rfl, ?_, ?_⟩
  · unfold ConnectionBuffer.bufferInAddr
    split
    · exact hfits
    · exact ⟨hfits.bytes, hfits.acks, hfits.slot, hfits.hello⟩
  · unfold ConnectionBuffer.bufferInAddr
    split <;> exact hhost

theorem safe_of_small {c : Call} (hsmall : c.Small hostType) : Safe hostType r c := by
  cases c with
  | bufferInPacket packet => exact safe_bufferInPacket hfits hhost hsmall
  | bufferInAddr addr => exact safe_bufferInAddr hfits hhost addr
  | bufferInBytes packet => exact safe_bufferInBytes hfits hhost hsmall
  | bufferInAckPacket packet => exact safe_bufferInAckPacket hfits hhost hsmall
  | queuedHello packet =>
    exact ⟨r.keepNumber packet, fun _ => rfl, fits_keepNumber hfits hhost hsmall,
      keepNumber_hostType hhost packet⟩
  | readHello => exact safe_readHello hfits hhost
  | readClientAck => exact safe_readClientAck hfits hhost
  | consumeAcks => exact safe_consumeAcks hfits hhost
  | consume len buf => exact safe_consume hfits hhost len buf
  | consumeBytes out maxPackets => exact safe_consumeBytes hfits hhost out maxPackets

theorem callsIn_of_small {cs : List Call} (hsmall : ∀ c ∈ cs, c.Small hostType) :
    ∃ r', ∀ checks, callsIn checks r cs = some r' := by
  -- by induction on the calls
  induction cs generalizing r with
  | nil => exact ⟨r, fun _ => rfl⟩
  | cons c cs ih =>
    obtain ⟨s, hs, hfits', hhost'⟩ := safe_of_small hfits hhost (hsmall c (List.mem_cons_self ..))
    obtain ⟨r', hr'⟩ := ih hfits' hhost' (fun d hd => hsmall d (List.mem_cons_of_mem _ hd))
    refine ⟨r', fun checks => ?_⟩
    rw [callsIn, List.foldlM_cons, hs checks]
    exact hr' checks

end

/-! ### Calls that do not -/

def handshakePacket (packetNumber : UInt64) : BluefinPacket :=
  buildEmptyEncryptedPacket 1 0 packetNumber .unencryptedClientHello

@[simp] theorem handshakePacket_number (packetNumber : UInt64) :
    (handshakePacket packetNumber).header.packetNumber = packetNumber := rfl

theorem bufferInPacket_overflows (srcConnId : UInt32) {hostType : BluefinHost}
    {packet : BluefinPacket} (h : ¬ (Call.bufferInPacket packet).Small hostType) :
    callsIn true (new srcConnId hostType 0) [.bufferInPacket packet] = none := by
  simp only [Call.Small, Nat.not_lt] at h
  have hnone : (ConnectionBuffer.new srcConnId hostType).bufferInPacketIn true packet = none :=
    ConnectionBuffer.bufferInPacketIn_overflow rfl rfl h
  simp only [callsIn, List.foldlM_cons, callIn, new, hnone]
  rfl

theorem bufferInAckPacket_overflows (srcConnId : UInt32) {hostType : BluefinHost}
    {packet : BluefinPacket} (h : ¬ (Call.bufferInAckPacket packet).Small hostType) :
    callsIn true (new srcConnId hostType 0) [.bufferInAckPacket packet] = none := by
  obtain ⟨hcount, hover⟩ := not_or.mp h
  have hnone : (SlidingWindow.new 0).insertRangeIn true packet.header.packetNumber
      packet.header.typeSpecificPayload = (none, .new 0) := by
    apply SlidingWindow.insertRangeIn_overflow hcount
    · rw [UInt64.lt_iff_toNat_lt]
      exact Nat.not_lt_zero _
    · omega
  simp only [callsIn, List.foldlM_cons, callIn, new, AckBuffer.new, AckBuffer.bufferInAckPacketIn,
    hnone]
  rfl

theorem consumeBytesIn_overflow {s : OrderedBytes} {p : BluefinPacket} (hp : s.slotAt 0 = some p)
    (hcarry : s.carryOverBytes = none) (hnum : 2 ^ 64 ≤ p.header.packetNumber.toNat + 1) :
    s.consumeBytesIn true [] 1 = none := by
  have hover : addIn true p.header.packetNumber 1 = none := addIn_overflow hnum
  rw [OrderedBytes.slotAt_zero] at hp
  simp only [OrderedBytes.consumeBytesIn, hcarry]
  rw [OrderedBytes.consumeBytesLoopIn, dif_pos (by decide)]
  simp only [OrderedBytes.wrapIndex_zero, hp, OrderedBytes.advanceIn, hover]
  rfl

theorem head_overflows {s : OrderedBytes} {packet : BluefinPacket}
    (hstart : s.smallestPacketNumber.toNat + 1 = 2 ^ 64) (hempty : s.slotAt 0 = none)
    (hcarry : s.carryOverBytes = none) (hnum : 2 ^ 64 ≤ packet.header.packetNumber.toNat + 1) :
    (s.bufferInPacket packet).2.consumeBytesIn true [] 1 = none := by
  have hlt := packet.header.packetNumber.toNat_lt
  have hfits : s.Fits packet 0 := ⟨by decide, by omega, hempty⟩
  obtain ⟨-, hslots, f, hs⟩ := OrderedBytes.bufferInPacket_fits s packet hfits
  apply consumeBytesIn_overflow _ _ hnum
  · rw [hslots 0, if_pos rfl]
  · rw [hs]
    exact hcarry

/-- A receiver after its first handshake packet. -/
def started (srcConnId : UInt32) (hostType : BluefinHost) (hello : BluefinPacket)
    (bytes : OrderedBytes) : Receiver where
  connBuff := {
    ConnectionBuffer.new srcConnId hostType with
    orderedBytes := bytes
    addr := some 0
    packet := some hello
    startPacketNumberSet := true }
  ackBuff := .new 0
  clientPacketNum := none

theorem started_run {srcConnId : UInt32} {hostType : BluefinHost} {hello : BluefinPacket}
    {bytes : OrderedBytes} (h : ConnectionBuffer.startNumberIn true hostType
      hello.header.packetNumber (.new srcConnId 0) = some bytes) :
    callsIn true (new srcConnId hostType 0) [.bufferInPacket hello, .bufferInAddr 0] =
      some (started srcConnId hostType hello bytes) := by
  simp only [callsIn, List.foldlM_cons, callIn, new, ConnectionBuffer.bufferInPacketIn,
    ConnectionBuffer.new, h]
  rfl

theorem started_largest (srcConnId : UInt32) {hostType : BluefinHost}
    (hhost : hostType ≠ .packFollower) : ∃ hello, (Call.bufferInPacket hello).Small hostType ∧
      callsIn true (new srcConnId hostType 0) [.bufferInPacket hello, .bufferInAddr 0] =
        some (started srcConnId hostType hello
          ((OrderedBytes.new srcConnId 0).setStartPacketNumber 0xffffffffffffffff)) := by
  cases hostType with
  | packLeader =>
    have hsum : addIn true 0xfffffffffffffffd 2 = some 0xffffffffffffffff := by decide
    refine ⟨handshakePacket 0xfffffffffffffffd, ?_, started_run ?_⟩
    · rw [Call.Small, handshakePacket_number, ConnectionBuffer.startOffset]
      decide
    · rw [handshakePacket_number, ConnectionBuffer.startNumberIn, hsum]
      rfl
  | client =>
    have hsum : addIn true 0xfffffffffffffffe 1 = some 0xffffffffffffffff := by decide
    refine ⟨handshakePacket 0xfffffffffffffffe, ?_, started_run ?_⟩
    · rw [Call.Small, handshakePacket_number, ConnectionBuffer.startOffset]
      decide
    · rw [handshakePacket_number, ConnectionBuffer.startNumberIn, hsum]
      rfl
  | packFollower => exact absurd rfl hhost

theorem bufferInBytes_overflows (srcConnId : UInt32) (hostType : BluefinHost)
    (hello : BluefinPacket) {packet : BluefinPacket}
    (h : ¬ (Call.bufferInBytes packet).Small hostType) :
    callsIn true (started srcConnId hostType hello
        ((OrderedBytes.new srcConnId 0).setStartPacketNumber 0xffffffffffffffff))
      [.bufferInBytes packet, .consumeBytes [] 1] = none := by
  have hempty : ((OrderedBytes.new srcConnId 0).setStartPacketNumber 0xffffffffffffffff).slotAt 0 =
      none := by
    rw [OrderedBytes.slotAt_zero]
    rfl
  have hlargest : (0xffffffffffffffff : UInt64).toNat + 1 = 2 ^ 64 := by decide
  have hstart : ((OrderedBytes.new srcConnId 0).setStartPacketNumber
      0xffffffffffffffff).smallestPacketNumber.toNat + 1 = 2 ^ 64 := by
    rw [OrderedBytes.setStartPacketNumber, hlargest]
  have hnone := head_overflows hstart hempty rfl (Nat.le_of_not_lt h)
  simp only [callsIn, List.foldlM_cons, callIn, ConnectionBuffer.bufferInBytesIn_eq,
    Option.bind_eq_bind, Option.bind_some, Option.pure_def, ConnectionBuffer.bufferInBytes,
    ConnectionBuffer.consumeBytesIn, started]
  rw [hnone]
  rfl

theorem queuedHello_overflows (srcConnId : UInt32) {packet : BluefinPacket}
    (h : 2 ^ 64 ≤ packet.header.packetNumber.toNat + 1) (ack : BluefinPacket)
    (hack : (Call.bufferInPacket ack).Small .packLeader) :
    callsIn true (new srcConnId .packLeader 0)
      [.queuedHello packet, .bufferInPacket ack, .bufferInAddr 0, .readClientAck] = none := by
  have hover : addIn true packet.header.packetNumber 1 = none := addIn_overflow h
  have hstart := ConnectionBuffer.startNumberIn_eq true .packLeader ack.header.packetNumber
    (.new srcConnId 0) (.inr hack)
  simp only [callsIn, List.foldlM_cons, callIn, new, keepNumber,
    ConnectionBuffer.bufferInPacketIn, ConnectionBuffer.new, ConnectionBuffer.bufferInAddr,
    ConnectionBuffer.pollHandshake, Bool.false_eq_true, if_false, hstart, hover,
    Option.bind_eq_bind, Option.bind_some, Option.pure_def]
  rfl

theorem callsIn_append {checks : Bool} {r r' : Receiver} {cs : List Call} (ds : List Call)
    (h : callsIn checks r cs = some r') : callsIn checks r (cs ++ ds) = callsIn checks r' ds := by
  rw [callsIn, List.foldlM_append]
  exact congrArg (Option.bind · _) h

/-- A run in which all calls but `c` leave room, and that panics in a build with
overflow checks. -/
def Overflows (srcConnId : UInt32) (hostType : BluefinHost) (c : Call) : Prop :=
  ∃ firstSent before after, (∀ d ∈ before ++ after, d.Small hostType) ∧
    callsIn true (new srcConnId hostType firstSent) (before ++ c :: after) = none

theorem overflows_of_not_small (srcConnId : UInt32) {hostType : BluefinHost}
    (hhost : hostType ≠ .packFollower) {c : Call} (h : ¬ c.Small hostType) :
    Overflows srcConnId hostType c := by
  cases c with
  | bufferInPacket packet =>
    exact ⟨0, [], [], by simp, bufferInPacket_overflows srcConnId h⟩
  | bufferInAckPacket packet =>
    exact ⟨0, [], [], by simp, bufferInAckPacket_overflows srcConnId h⟩
  | bufferInBytes packet =>
    obtain ⟨hello, hsmall, hrun⟩ := started_largest srcConnId hhost
    refine ⟨0, [.bufferInPacket hello, .bufferInAddr 0], [.consumeBytes [] 1], ?_, ?_⟩
    · intro d hd
      simp only [List.cons_append, List.nil_append, List.mem_cons, List.not_mem_nil,
        or_false] at hd
      rcases hd with rfl | rfl | rfl
      · exact hsmall
      · trivial
      · trivial
    · rw [callsIn_append _ hrun]
      exact bufferInBytes_overflows srcConnId hostType hello h
  | queuedHello packet =>
    obtain ⟨rfl, hnum⟩ := Classical.not_imp.mp h
    have hack : (Call.bufferInPacket (handshakePacket 0)).Small .packLeader := by
      rw [Call.Small, handshakePacket_number, ConnectionBuffer.startOffset]
      decide
    refine ⟨0, [], [.bufferInPacket (handshakePacket 0), .bufferInAddr 0, .readClientAck], ?_,
      queuedHello_overflows srcConnId (Nat.le_of_not_lt hnum) _ hack⟩
    intro d hd
    simp only [List.nil_append, List.mem_cons, List.not_mem_nil, or_false] at hd
    rcases hd with rfl | rfl | rfl
    · exact hack
    · trivial
    · trivial
  | bufferInAddr addr => exact absurd trivial h
  | readHello => exact absurd trivial h
  | readClientAck => exact absurd trivial h
  | consumeAcks => exact absurd trivial h
  | consume len buf => exact absurd trivial h
  | consumeBytes out maxPackets => exact absurd trivial h

/-- No sum overflows in a run whose calls all leave room, and any call that does
not makes some run overflow. -/
theorem wire_numbers_fit (srcConnId : UInt32) (hostType : BluefinHost) :
    (∀ firstSent cs, (∀ c ∈ cs, c.Small hostType) → ∃ r, ∀ checks,
      callsIn checks (new srcConnId hostType firstSent) cs = some r) ∧
    (hostType ≠ .packFollower → ∀ c, ¬ c.Small hostType → Overflows srcConnId hostType c) := by
  constructor
  · intro firstSent cs hsmall
    exact callsIn_of_small (fits_new srcConnId hostType firstSent) rfl hsmall
  · intro hhost c h
    exact overflows_of_not_small srcConnId hhost h

/-- A handshake, one data packet and one ack at a server, with the largest numbers that leave
room. -/
def largestSmall : List Call :=
  [.bufferInPacket (handshakePacket 0xfffffffffffffffc), .bufferInAddr 9, .readHello,
    .bufferInPacket (handshakePacket 0xfffffffffffffffd), .readClientAck,
    .bufferInBytes ⟨(BluefinHeader.new 1 2 .unencryptedData 1 .default).withPacketNumber
      0xfffffffffffffffe, [5]⟩,
    .bufferInAckPacket ⟨(BluefinHeader.new 1 2 .ack 7 .default).withPacketNumber
      0xfffffffffffffff8, []⟩,
    .consumeAcks, .consume 1 [0]]

theorem wire_numbers_fit_largest : (∀ c ∈ largestSmall, c.Small .packLeader) ∧
    ∃ r, (∀ checks, callsIn checks (new 2 .packLeader 0xfffffffffffffff8) largestSmall = some r) ∧
      r.clientPacketNum = some 0xfffffffffffffffc ∧
      r.connBuff.orderedBytes.smallestPacketNumber = 0xffffffffffffffff ∧
      r.ackBuff.receivedAcks.smallestExpectedPacketNumber = 0xffffffffffffffff := by
  have hsmall : ∀ c ∈ largestSmall, c.Small .packLeader := by decide
  obtain ⟨r, hr⟩ := (wire_numbers_fit 2 .packLeader).1 0xfffffffffffffff8 largestSmall hsmall
  have hcomputed : (callsIn true (new 2 .packLeader 0xfffffffffffffff8) largestSmall).map
      (fun r => (r.clientPacketNum, r.connBuff.orderedBytes.smallestPacketNumber,
        r.ackBuff.receivedAcks.smallestExpectedPacketNumber)) =
      some (some 0xfffffffffffffffc, 0xffffffffffffffff, 0xffffffffffffffff) := by
    decide +kernel
  rw [hr true, Option.map_some, Option.some.injEq] at hcomputed
  obtain ⟨hhello, hnumbers⟩ := Prod.mk.inj hcomputed
  obtain ⟨hbytes, hacks⟩ := Prod.mk.inj hnumbers
  exact ⟨hsmall, r, hr, hhello, hbytes, hacks⟩

/-- An ack of the largest number and six more. -/
def wrappedAck : BluefinPacket :=
  ⟨(BluefinHeader.new 1 2 .ack 7 .default).withPacketNumber 0xffffffffffffffff, []⟩

/-- A ClientHello with the largest number, and an ack that runs past it. With checks both panic.
Without, the server takes data from number 1 on, and the ack is taken as good with nothing inserted.
-/
theorem largest_numbers_overflow :
    isHelloPacket .packLeader (handshakePacket 0xffffffffffffffff) = true ∧
      (callsIn true (new 2 .packLeader 5)
        [.bufferInPacket (handshakePacket 0xffffffffffffffff)]).isNone = true ∧
      ((ConnectionBuffer.new 2 .packLeader).bufferInPacket
        (handshakePacket 0xffffffffffffffff)).2.orderedBytes.smallestPacketNumber = 1 ∧
      (callsIn true (new 2 .packLeader 5) [.bufferInAckPacket wrappedAck]).isNone = true ∧
      (AckBuffer.new 5).bufferInAckPacket wrappedAck = (.ok (), AckBuffer.new 5) := by
  decide +kernel

end Receiver

end Bluefin
