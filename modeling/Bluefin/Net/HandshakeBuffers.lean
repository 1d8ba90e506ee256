import Bluefin.Net.Handshake

/-!
# What a handshake packet does to a connection's buffers

`Fills` says what a worker's step can do to the part of the buffers that the
handshake is about: nothing, or one packet comes in, and the first one to do so
fixes where the connection's data starts.
-/

namespace Bluefin
open Base

/-- Where a connection's data starts, once a handshake packet has said so. -/
def ConnectionBuffer.start (b : ConnectionBuffer) : Option UInt64 :=
  if b.startPacketNumberSet then some b.orderedBytes.smallestPacketNumber else none

namespace Handshake

/-! ### What reaches a buffer -/

theorem handshakePacket_encodable (src dst : UInt32) (num : UInt64) {type : PacketType}
    (h : type ≠ .unencryptedData) : (buildEmptyEncryptedPacket src dst num type).Encodable where
  version_lt := show (0 : UInt8).toNat < 16 by decide
  data_length := fun ht => absurd ht h
  control_nil := fun _ => rfl
  data_ne_nil := fun ht => absurd ht h

theorem receive_serialise {p : BluefinPacket} (hp : p.Encodable) (hostType : BluefinHost)
    (state : HelloState) (addr : SocketAddr) :
    ReaderTxChannel.receive hostType state p.serialise addr =
      ReaderTxChannel.classify hostType state [p] addr := by
  have hone : p.serialise = BluefinPacket.serialiseAll [p] := by simp
  have hparse := BluefinPacket.fromBytesInto_serialiseAll [p] (by simp) (by simpa using hp)
  rw [ReaderTxChannel.receive, hone, hparse]

/-- A worker of the server with a datagram of one packet. A hello needs a slot to be passed on;
without one it can only be queued. -/
structure ServerTakes (p : BluefinPacket) (state state' : HelloState)
    (o : Option ReaderTxChannel.Delivery) : Prop where
  queue : ∀ x ∈ state'.helloQueue, x ∈ state.helloQueue ∨
    x.1 = p ∧ isHelloPacket .packLeader p = true
  no_slot : state.pendingAcceptIds = [] →
    state'.pendingAcceptIds = [] ∧ ∀ d ∈ o, d.isHello = false
  delivery : ∀ d ∈ o, d.packets = [p] ∧ d.isHello = isHelloPacket .packLeader p

theorem classify_packLeader {p : BluefinPacket} {addr : SocketAddr} {state state' : HelloState}
    {o : Option ReaderTxChannel.Delivery}
    (h : ReaderTxChannel.classify .packLeader state [p] addr = .goOn (state', o)) :
    ServerTakes p state state' o := by
  by_cases hhello : isHelloPacket .packLeader p = true
  · cases hids : state.pendingAcceptIds with
    | cons id ids =>
      simp only [ReaderTxChannel.classify, ReaderTxChannel.handleHelloSingle, hhello, hids,
        if_true] at h
      cases h
      refine ⟨fun x hx => .inl hx, ?_, ?_⟩
      · intro hnil
        rw [hids] at hnil
        cases hnil
      · intro d hd
        cases hd
        exact ⟨rfl, hhello.symm⟩
    | nil =>
      by_cases hroom : state.helloQueue.length < maxQueuedHellos
      · simp only [ReaderTxChannel.classify, ReaderTxChannel.handleHelloSingle, hhello, hids,
          hroom, if_true] at h
        cases h
        refine ⟨?_, fun _ => ⟨rfl, by simp⟩, by simp⟩
        intro x hx
        rcases List.mem_append.mp hx with hx | hx
        · exact .inl hx
        · rw [List.mem_singleton.mp hx]
          exact .inr ⟨rfl, hhello⟩
      · simp only [ReaderTxChannel.classify, ReaderTxChannel.handleHelloSingle, hhello, hids,
          hroom, if_true, if_false] at h
        cases h
        exact ⟨fun x hx => .inl hx, fun _ => ⟨hids, by simp⟩, by simp⟩
  · rw [Bool.not_eq_true] at hhello
    simp only [ReaderTxChannel.classify, ReaderTxChannel.handleHelloSingle, hhello, if_true,
      Bool.false_eq_true, if_false] at h
    cases h
    refine ⟨fun x hx => .inl hx, fun hids => ⟨hids, ?_⟩, ?_⟩
    · intro d hd
      cases hd
      rfl
    · intro d hd
      cases hd
      exact ⟨rfl, hhello.symm⟩

theorem classify_client {p : BluefinPacket} {addr : SocketAddr} {state state' : HelloState}
    {o : Option ReaderTxChannel.Delivery}
    (h : ReaderTxChannel.classify .client state [p] addr = .goOn (state', o)) :
    ∀ d ∈ o, d.packets = [p] := by
  by_cases hhello : isHelloPacket .client p = true
  · simp only [ReaderTxChannel.classify, ReaderTxChannel.handleHelloSingle, hhello, if_true] at h
    cases h
    intro d hd
    cases hd
    rfl
  · rw [Bool.not_eq_true] at hhello
    simp only [ReaderTxChannel.classify, ReaderTxChannel.handleHelloSingle, hhello, if_true,
      Bool.false_eq_true, if_false] at h
    cases h
    intro d hd
    cases hd
    rfl

/-- The part of the buffers that the handshake is about, before and after a worker's step with the
datagrams `hand`: no change, or one packet has come in. -/
inductive Fills (hostType : BluefinHost)
    (hand : List (ReaderTxChannel.Delivery × Option BufferRef))
    (b b' : ConnectionManagedBuffers) : Prop
  | same (hacks : b'.ackBuff = b.ackBuff)
      (hhost : b'.connBuff.hostType = b.connBuff.hostType)
      (hpacket : b'.connBuff.packet = b.connBuff.packet)
      (hstart : b'.connBuff.start = b.connBuff.start)
  | packet {d : ReaderTxChannel.Delivery} {ref : Option BufferRef} {p : BluefinPacket}
      (hd : (d, ref) ∈ hand) (hp : d.packets = [p])
      (hkind : d.isHello = true ∨ isClientAckPacket hostType p = true)
      (hacks : b'.ackBuff = b.ackBuff)
      (hhost : b'.connBuff.hostType = b.connBuff.hostType)
      (hpacket : b'.connBuff.packet = some p)
      (hstart : b'.connBuff.start = some (b.connBuff.start.getD
        (ConnectionBuffer.startNumber b.connBuff.hostType p.header.packetNumber
          b.connBuff.orderedBytes).smallestPacketNumber))

theorem bufferInBytes_frame (b : ConnectionBuffer) (p : BluefinPacket) :
    (b.bufferInBytes p).2.hostType = b.hostType ∧ (b.bufferInBytes p).2.packet = b.packet ∧
      (b.bufferInBytes p).2.start = b.start := by
  have hsmallest : (b.orderedBytes.bufferInPacket p).2.smallestPacketNumber =
      b.orderedBytes.smallestPacketNumber := by
    unfold OrderedBytes.bufferInPacket
    dsimp only
    split
    · rfl
    · split
      · rfl
      · split <;> rfl
  refine ⟨rfl, rfl, ?_⟩
  unfold ConnectionBuffer.start
  rw [show (b.bufferInBytes p).2.orderedBytes = (b.orderedBytes.bufferInPacket p).2 from rfl,
    hsmallest]
  rfl

theorem bufferInPacket_some {b : ConnectionBuffer} {q : BluefinPacket} (h : b.packet = some q)
    (p : BluefinPacket) : (b.bufferInPacket p).1.isOk = false ∧ (b.bufferInPacket p).2 = b := by
  simp [ConnectionBuffer.bufferInPacket, h]

theorem bufferInPacket_none {b : ConnectionBuffer} (h : b.packet = none) (p : BluefinPacket) :
    (b.bufferInPacket p).1 = .ok () ∧ (b.bufferInPacket p).2.hostType = b.hostType ∧
      (b.bufferInPacket p).2.packet = some p ∧
      (b.bufferInPacket p).2.start = some (b.start.getD
        (ConnectionBuffer.startNumber b.hostType p.header.packetNumber
          b.orderedBytes).smallestPacketNumber) := by
  unfold ConnectionBuffer.bufferInPacket ConnectionBuffer.start
  rw [h]
  cases b.startPacketNumberSet <;> simp

/-- What `buffer_to_conn_buffer` does after the packet is in, the address, the peer's id and the
waker, is of no account here. -/
theorem bufferToConnBuffer_frame (b : ConnectionBuffer) (p : BluefinPacket) (addr : SocketAddr)
    (isHello isClientAck : Bool) :
    let b' := (ReaderTxChannel.bufferToConnBuffer b p addr isHello isClientAck).2.1
    let put := if !isHello && !isClientAck then (b.bufferInBytes p).2 else (b.bufferInPacket p).2
    b'.hostType = put.hostType ∧ b'.packet = put.packet ∧ b'.start = put.start := by
  unfold ReaderTxChannel.bufferToConnBuffer
  dsimp only
  cases hdata : (!isHello && !isClientAck) with
  | true =>
    simp only [if_true]
    rcases hput : b.bufferInBytes p with ⟨res, b'⟩
    cases res with
    | ok u =>
      simp only [Outcome.orReturn]
      split <;> exact ⟨rfl, rfl, rfl⟩
    | err e => exact ⟨rfl, rfl, rfl⟩
    | panicked f => exact ⟨rfl, rfl, rfl⟩
  | false =>
    simp only [Bool.false_eq_true, if_false]
    rcases hput : b.bufferInPacket p with ⟨res, b'⟩
    cases res with
    | ok u =>
      have haddr : (b'.bufferInAddr addr).2.hostType = b'.hostType ∧
          (b'.bufferInAddr addr).2.packet = b'.packet ∧
          (b'.bufferInAddr addr).2.start = b'.start := by
        unfold ConnectionBuffer.bufferInAddr
        split <;> exact ⟨rfl, rfl, rfl⟩
      simp only [Outcome.orReturn]
      split <;> exact haddr
    | err e => exact ⟨rfl, rfl, rfl⟩
    | panicked f => exact ⟨rfl, rfl, rfl⟩

theorem bufferInData_fills {d : ReaderTxChannel.Delivery} {ref : Option BufferRef}
    {p : BluefinPacket} {hand : List (ReaderTxChannel.Delivery × Option BufferRef)}
    {hostType : BluefinHost} (hd : (d, ref) ∈ hand) (hp : d.packets = [p])
    (htype : p.header.typeField ≠ .ack) (b : ConnectionManagedBuffers) :
    Fills hostType hand b (ReaderTxChannel.bufferInData d.isHello hostType p d.addr b).2.1 := by
  have hnot : (!isClientAckPacket hostType p && !d.isHello && decide (p.header.typeField = .ack)) =
      false := by
    simp [htype]
  have hframe := bufferToConnBuffer_frame b.connBuff p d.addr d.isHello
    (isClientAckPacket hostType p)
  unfold ReaderTxChannel.bufferInData
  simp only [hnot, Bool.false_eq_true, if_false]
  cases hdata : (!d.isHello && !isClientAckPacket hostType p) with
  | true =>
    simp only [hdata, if_true] at hframe
    obtain ⟨hhost, hpacket, hstart⟩ := hframe
    obtain ⟨hhost', hpacket', hstart'⟩ := bufferInBytes_frame b.connBuff p
    exact .same rfl (hhost.trans hhost') (hpacket.trans hpacket') (hstart.trans hstart')
  | false =>
    simp only [hdata, Bool.false_eq_true, if_false] at hframe
    obtain ⟨hhost, hpacket, hstart⟩ := hframe
    cases hslot : b.connBuff.packet with
    | some q =>
      rw [(bufferInPacket_some hslot p).2] at hhost hpacket hstart
      exact .same rfl hhost hpacket hstart
    | none =>
      obtain ⟨_, hhost', hpacket', hstart'⟩ := bufferInPacket_none hslot p
      have hkind : d.isHello = true ∨ isClientAckPacket hostType p = true := by
        cases hh : d.isHello
        · rw [hh] at hdata
          exact .inr (by simpa using hdata)
        · exact .inl rfl
      exact .packet hd hp hkind rfl (hhost.trans hhost') (hpacket.trans hpacket')
        (hstart.trans hstart')

section

variable {hostType : BluefinHost} {sent : List Bytes} {addr : SocketAddr} {side side' : Side}

theorem worker_fills (h : WorkerMoves hostType sent addr side side')
    (hone : ∀ x ∈ side.inHand, ∃ p, x.1.packets = [p] ∧ p.header.typeField ≠ .ack) :
    Fills hostType side.inHand (side.host.buffers connRef) (side'.host.buffers connRef) := by
  cases h with
  | keeps => exact .same rfl rfl rfl rfl
  | takes => exact .same rfl rfl rfl rfl
  | drops => exact .same rfl rfl rfl rfl
  | finds => exact .same rfl rfl rfl rfl
  | @buffers i d ref hd =>
    have hmem := List.mem_of_getElem? hd
    obtain ⟨p, hp, htype⟩ : ∃ p, d.packets = [p] ∧ p.header.typeField ≠ .ack := hone _ hmem
    by_cases href : connRef = ref
    · subst href
      have hput : Fills hostType side.inHand (side.host.buffers connRef) _ :=
        bufferInData_fills hmem hp htype (side.host.buffers connRef)
      simpa [ReaderTxChannel.buffer, hp] using hput
    · have hsame : (ReaderTxChannel.buffer hostType side.host d ref).buffers connRef =
          side.host.buffers connRef := by
        simp only [ReaderTxChannel.buffer]
        exact Function.update_of_ne href _ _
      dsimp only
      rw [hsame]
      exact .same rfl rfl rfl rfl

theorem worker_hand (h : WorkerMoves hostType sent addr side side') {x}
    (hx : x ∈ side'.inHand) :
    (∃ y ∈ side.inHand, x.1 = y.1) ∨ ∃ datagram ∈ sent,
      ReaderTxChannel.receive hostType side.host.helloState datagram addr =
        .goOn (side'.host.helloState, some x.1) := by
  cases h with
  | keeps => exact .inl ⟨x, hx, rfl⟩
  | takes hsent hrecv =>
    rcases List.mem_append.mp hx with hx | hx
    · exact .inl ⟨x, hx, rfl⟩
    · rw [List.mem_singleton.mp hx]
      exact .inr ⟨_, hsent, hrecv⟩
  | drops => exact .inl ⟨x, List.mem_of_mem_eraseIdx hx, rfl⟩
  | finds hd =>
    rcases List.mem_or_eq_of_mem_set hx with hx | rfl
    · exact .inl ⟨x, hx, rfl⟩
    · exact .inl ⟨_, List.mem_of_getElem? hd, rfl⟩
  | buffers hd => exact .inl ⟨x, List.mem_of_mem_eraseIdx hx, rfl⟩

theorem worker_hello (h : WorkerMoves hostType sent addr side side') :
    side'.host.helloState = side.host.helloState ∨ ∃ datagram ∈ sent, ∃ o,
      ReaderTxChannel.receive hostType side.host.helloState datagram addr =
        .goOn (side'.host.helloState, o) := by
  cases h with
  | keeps hsent hrecv => exact .inr ⟨_, hsent, _, hrecv⟩
  | takes hsent hrecv => exact .inr ⟨_, hsent, _, hrecv⟩
  | drops => exact .inl rfl
  | finds => exact .inl rfl
  | buffers => exact .inl rfl

end

theorem poll_none {b b' : ConnectionBuffer} (h : b.pollHandshake callWaker = (none, b')) :
    b'.hostType = b.hostType ∧ b'.packet = none ∧ b'.start = b.start := by
  unfold ConnectionBuffer.pollHandshake at h
  split at h <;> cases h
  exact ⟨rfl, rfl, rfl⟩

theorem poll_some {b b' : ConnectionBuffer} {p : BluefinPacket} {addr : SocketAddr}
    (h : b.pollHandshake callWaker = (some (p, addr), b')) :
    b.packet = some p ∧ b'.hostType = b.hostType ∧ b'.packet = none ∧ b'.start = b.start := by
  unfold ConnectionBuffer.pollHandshake at h
  split at h <;> cases h
  rename_i hpacket _
  exact ⟨hpacket, rfl, rfl, rfl⟩

end Handshake

end Bluefin
