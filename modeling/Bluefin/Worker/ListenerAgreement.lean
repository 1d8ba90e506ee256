import Bluefin.Worker.Dispatch
import Bluefin.Worker.ReaderTx

/-!
# The listener against the connection's own reader

A datagram of an established connection can still reach the listener, which
looks the connection up by its ids and passes every packet to `buffer_in_data`;
later datagrams go to `buffer_in_packets` of the connection's reader. Data and
acknowledgements end in the same buffers on both ways. The listener has no case
for the packets of the close handshake: it puts them into the reassembly buffer.
-/

namespace Bluefin
open Base BluefinPacket

namespace ReaderTxChannel

open ConnReaderHandler (types IsClose ackAll inline_goes_on)

/-- Equal but for the wakers, the data about the peer that the handshake sets,
and the channel to the FinAck sender. -/
structure SameBuffers (a b : ConnectionManagedBuffers) : Prop where
  bytes : a.connBuff.orderedBytes = b.connBuff.orderedBytes
  acks : a.ackBuff.receivedAcks = b.ackBuff.receivedAcks
  close : a.closeBuff = b.closeBuff

/-- All packets are data, or all are acknowledgements, or there is one `Fin` or
`FinAck`. -/
def SingleClass (packets : List BluefinPacket) : Prop :=
  (∀ p ∈ packets, p.header.typeField = .unencryptedData) ∨
    (∀ p ∈ packets, p.header.typeField = .ack) ∨
    ∃ p, packets = [p] ∧ IsClose p.header.typeField

/-- The packet has nothing to say to the close buffer: a `Fin` after the peer's
`Fin` or after the close, with no FinAck left to send, or a `FinAck` that was
received already. -/
def NoNews (b : CloseBuffer) (p : BluefinPacket) : Prop :=
  (p.header.typeField = .fin → b.pendingFinAckSend = none ∧
    (b.state = .closed ∨ ∃ n, b.state = .peerFinReceived n)) ∧
  (p.header.typeField = .finAck → b.receivedFinAckFor = some p.header.packetNumber)

/-- No slot of the reassembly window is free for the packet's number. -/
def Refused (s : OrderedBytes) (p : BluefinPacket) : Prop := ∀ k, ¬ s.Fits p k

/-- Both readers go on after the datagram, with the same buffers of the
connection. -/
def PathsAgree (hostType : BluefinHost) (host : Host) (ref : BufferRef) (datagram : Bytes)
    (addr : SocketAddr) : Prop :=
  ∃ host' bufs, run hostType host datagram addr = .goOn host' ∧
    ConnReaderHandler.recvAndBufferInline (host.buffers ref) datagram = .goOn bufs ∧
    SameBuffers (host'.buffers ref) bufs

/-! ### The listener's way -/

theorem notHello {hostType : BluefinHost} {p : BluefinPacket} (hhost : hostType ≠ .packFollower)
    (hclient : p.header.typeField ≠ .unencryptedClientHello)
    (hserver : p.header.typeField ≠ .unencryptedServerHello) :
    isHelloPacket hostType p = false := by
  cases hostType with
  | packLeader => simp [isHelloPacket, hclient]
  | client => simp [isHelloPacket, hserver]
  | packFollower => exact absurd rfl hhost

/-- The types of an established connection. -/
def Established (t : PacketType) : Prop := t = .unencryptedData ∨ t = .ack ∨ IsClose t

theorem established_of_singleClass {packets : List BluefinPacket} (h : SingleClass packets) :
    ∀ p ∈ packets, Established p.header.typeField := by
  intro p hp
  rcases h with h | h | ⟨q, rfl, hq⟩
  · exact .inl (h p hp)
  · exact .inr (.inl (h p hp))
  · rw [List.mem_singleton.mp hp]
    exact .inr (.inr hq)

theorem Established.notHandshake {t : PacketType} (h : Established t) :
    t ≠ .unencryptedClientHello ∧ t ≠ .unencryptedServerHello ∧ t ≠ .clientAck := by
  rcases h with rfl | rfl | rfl | rfl <;> decide

theorem classify_established {hostType : BluefinHost} {state : HelloState} {p : BluefinPacket}
    {packets : List BluefinPacket} {addr : SocketAddr} (hhost : hostType ≠ .packFollower)
    (hp : Established p.header.typeField) :
    classify hostType state (p :: packets) addr = .goOn (state, some
      ⟨false, (p.header.destinationConnectionId, p.header.sourceConnectionId), p :: packets,
        addr⟩) := by
  obtain ⟨hclient, hserver, -⟩ := hp.notHandshake
  have hsingle : handleHelloSingle hostType state p addr = (.ok .notHello, state) := by
    unfold handleHelloSingle
    rw [notHello hhost hclient hserver]
    rfl
  unfold classify
  by_cases hrest : packets = []
  · simp only [hrest, if_true, hsingle]
    rfl
  · simp only [hrest, if_false]
    rfl

/-- All packets of a delivery, one after the other. -/
def bufferInAll (hostType : BluefinHost) (addr : SocketAddr) (bufs : ConnectionManagedBuffers)
    (packets : List BluefinPacket) : ConnectionManagedBuffers :=
  packets.foldl (fun bufs p => (bufferInData false hostType p addr bufs).2.1) bufs

theorem run_established {hostType : BluefinHost} {host : Host} {ref : BufferRef} {datagram : Bytes}
    {addr : SocketAddr} {n : ℕ} {p : BluefinPacket} {packets : List BluefinPacket}
    (hhost : hostType ≠ .packFollower)
    (hparse : fromBytesInto datagram [] = (.ok n, p :: packets))
    (hp : Established p.header.typeField)
    (hids : host.connManager (p.header.destinationConnectionId, p.header.sourceConnectionId) =
      some ref) :
    ∃ host', run hostType host datagram addr = .goOn host' ∧
      host'.buffers ref = bufferInAll hostType addr (host.buffers ref) (p :: packets) := by
  have hrecv : receive hostType host.helloState datagram addr =
      .goOn (host.helloState, some ⟨false,
        (p.header.destinationConnectionId, p.header.sourceConnectionId), p :: packets, addr⟩) := by
    rw [receive, hparse]
    exact classify_established hhost hp
  refine ⟨buffer hostType host ⟨false,
    (p.header.destinationConnectionId, p.header.sourceConnectionId), p :: packets, addr⟩ ref, ?_, ?_⟩
  · rw [run, hrecv]
    simp only [hids]
  · simp only [buffer, Function.update_self]
    rfl

theorem bufferInData_ack {hostType : BluefinHost} {p : BluefinPacket} {addr : SocketAddr}
    {bufs : ConnectionManagedBuffers} (hp : p.header.typeField = .ack) :
    SameBuffers (bufferInData false hostType p addr bufs).2.1
      { bufs with ackBuff := (bufs.ackBuff.bufferInAckPacket p).2 } := by
  have hclientAck : isClientAckPacket hostType p = false := by simp [isClientAckPacket, hp]
  have hwindow : ∀ b : AckBuffer, (bufferToAckBuffer b p).2.1 = (b.bufferInAckPacket p).2 := by
    intro b
    unfold bufferToAckBuffer
    rcases b.bufferInAckPacket p with ⟨res, b'⟩
    cases res with
    | ok _ => cases hw : b'.waker <;> simp [Outcome.orReturn, hw]
    | err e => rfl
    | panicked f => rfl
  simp only [bufferInData, hclientAck, hp, Bool.not_false, Bool.and_self, decide_true, if_true]
  exact ⟨rfl, congrArg AckBuffer.receivedAcks (hwindow _), rfl⟩

theorem bufferInData_bytes {hostType : BluefinHost} {p : BluefinPacket} {addr : SocketAddr}
    {bufs : ConnectionManagedBuffers} (hack : p.header.typeField ≠ .ack)
    (hclientAck : p.header.typeField ≠ .clientAck) :
    SameBuffers (bufferInData false hostType p addr bufs).2.1
      { bufs with connBuff.orderedBytes := (bufs.connBuff.orderedBytes.bufferInPacket p).2 } := by
  have hno : isClientAckPacket hostType p = false := by simp [isClientAckPacket, hclientAck]
  have hbytes : ∀ b : ConnectionBuffer, (bufferToConnBuffer b p addr false false).2.1.orderedBytes =
      (b.orderedBytes.bufferInPacket p).2 := by
    intro b
    unfold bufferToConnBuffer ConnectionBuffer.bufferInBytes
    rcases b.orderedBytes.bufferInPacket p with ⟨res, bytes⟩
    cases res with
    | ok _ => cases hw : b.waker <;> simp [Outcome.orReturn, ConnectionBuffer.setDstConnId]
    | err e => rfl
    | panicked f => rfl
  simp only [bufferInData, hno, hack, decide_false, Bool.and_false, Bool.false_eq_true, if_false]
  exact ⟨hbytes _, rfl, rfl⟩

theorem bufferInAll_acks (hostType : BluefinHost) (addr : SocketAddr)
    (packets : List BluefinPacket) (a b : ConnectionManagedBuffers) (hsame : SameBuffers a b)
    (h : ∀ p ∈ packets, p.header.typeField = .ack) :
    SameBuffers (bufferInAll hostType addr a packets)
      { b with ackBuff := ackAll b.ackBuff packets } := by
  induction packets generalizing a b with
  | nil => exact hsame
  | cons p packets ih =>
    have hone := @bufferInData_ack hostType p addr a (h p (List.mem_cons_self ..))
    refine ih _ { b with ackBuff := (b.ackBuff.bufferInAckPacket p).2 } ⟨?_, ?_, ?_⟩
      (fun q hq => h q (List.mem_cons_of_mem _ hq))
    · exact hone.bytes.trans hsame.bytes
    · refine hone.acks.trans ?_
      simp only [AckBuffer.bufferInAckPacket, hsame.acks]
    · exact hone.close.trans hsame.close

theorem bufferInAll_data (hostType : BluefinHost) (addr : SocketAddr)
    (packets : List BluefinPacket) (a b : ConnectionManagedBuffers) (hsame : SameBuffers a b)
    (h : ∀ p ∈ packets, p.header.typeField = .unencryptedData) :
    SameBuffers (bufferInAll hostType addr a packets)
      { b with connBuff.orderedBytes := b.connBuff.orderedBytes.bufferAll packets } := by
  induction packets generalizing a b with
  | nil => exact hsame
  | cons p packets ih =>
    have hp := h p (List.mem_cons_self ..)
    have hone := @bufferInData_bytes hostType p addr a (by simp [hp]) (by simp [hp])
    refine ih _ { b with
        connBuff.orderedBytes := (b.connBuff.orderedBytes.bufferInPacket p).2 } ⟨?_, ?_, ?_⟩
      (fun q hq => h q (List.mem_cons_of_mem _ hq))
    · refine hone.bytes.trans ?_
      simp only [hsame.bytes]
    · exact hone.acks.trans hsame.acks
    · exact hone.close.trans hsame.close

/-! ### The connection's own way -/

theorem buffered_same_iff (s : OrderedBytes) (p : BluefinPacket) :
    (s.bufferInPacket p).2 = s ↔ Refused s p := by
  constructor
  · intro hsame k hk
    have hslot := (OrderedBytes.bufferInPacket_fits s p hk).2.1 k
    rw [hsame, hk.2.2, if_pos rfl] at hslot
    cases hslot
  · intro h
    exact (OrderedBytes.bufferInPacket_not_fits s p h).2

theorem bufferInFin_same_iff (b : CloseBuffer) (p : BluefinPacket) :
    b = (b.bufferInFin p).takePendingFinAckSend.2 ↔
      b.pendingFinAckSend = none ∧ (b.state = .closed ∨ ∃ n, b.state = .peerFinReceived n) := by
  obtain ⟨state, pending, received, observed⟩ := b
  cases state with
  | active => simp [CloseBuffer.bufferInFin, CloseBuffer.takePendingFinAckSend]
  | localFinSent n => simp [CloseBuffer.bufferInFin, CloseBuffer.takePendingFinAckSend]
  | closed => simp [CloseBuffer.bufferInFin, CloseBuffer.takePendingFinAckSend]
  | peerFinReceived n =>
    by_cases hn : n = p.header.packetNumber
    · simp [CloseBuffer.bufferInFin, CloseBuffer.takePendingFinAckSend, hn]
    · simp [CloseBuffer.bufferInFin, CloseBuffer.takePendingFinAckSend, hn]

theorem closeAll_same_iff (b : CloseBuffer) (p : BluefinPacket) (h : IsClose p.header.typeField) :
    b = ConnReaderHandler.closeAll b [p] ↔ NoNews b p := by
  rcases h with h | h
  · simp [ConnReaderHandler.closeAll, types, h, ConnReaderHandler.closeOne, NoNews,
      bufferInFin_same_iff]
  · obtain ⟨state, pending, received, observed⟩ := b
    simp [ConnReaderHandler.closeAll, types, h, ConnReaderHandler.closeOne, NoNews,
      CloseBuffer.bufferInFinAck]

theorem oneClass_of_singleClass {packets : List BluefinPacket} (h : SingleClass packets) :
    ConnReaderHandler.OneClass (types packets) := by
  rcases h with h | h | ⟨p, rfl, hclose⟩
  · exact .inr (.inl (by simpa [types] using h))
  · exact .inl (by simpa [types] using h)
  · exact .inr (.inr (by simpa [types] using hclose))

theorem pathsAgree_iff_buffers {hostType : BluefinHost} {host : Host} {ref : BufferRef}
    {datagram : Bytes} {addr : SocketAddr} {n : ℕ} {p : BluefinPacket}
    {packets : List BluefinPacket} (hhost : hostType ≠ .packFollower)
    (hparse : fromBytesInto datagram [] = (.ok n, p :: packets))
    (hclass : SingleClass (p :: packets))
    (hids : host.connManager (p.header.destinationConnectionId, p.header.sourceConnectionId) =
      some ref) :
    PathsAgree hostType host ref datagram addr ↔
      SameBuffers (bufferInAll hostType addr (host.buffers ref) (p :: packets))
        (ConnReaderHandler.bufferInPackets (p :: packets) (host.buffers ref)).2.1 := by
  -- neither way ends in a panic, so that the buffers decide
  have hp := established_of_singleClass hclass p (List.mem_cons_self ..)
  obtain ⟨host', hrun, hlistener⟩ := @run_established _ _ _ _ addr _ _ _ hhost hparse hp hids
  have hrespects := ConnReaderHandler.respects_of_oneClass _ (host.buffers ref)
    (oneClass_of_singleClass hclass)
  have hinline := inline_goes_on hparse hrespects.returns
  constructor
  · rintro ⟨host'', bufs, hrun', hinline', hsame⟩
    rw [hrun] at hrun'
    rw [hinline] at hinline'
    cases hrun'
    cases hinline'
    rwa [hlistener] at hsame
  · intro hsame
    refine ⟨host', _, hrun, hinline, ?_⟩
    rwa [hlistener]

theorem sameBuffers_close_iff (hostType : BluefinHost) (addr : SocketAddr)
    (bufs : ConnectionManagedBuffers) {p : BluefinPacket} (hclose : IsClose p.header.typeField) :
    SameBuffers (bufferInAll hostType addr bufs [p])
        (ConnReaderHandler.bufferInPackets [p] bufs).2.1 ↔
      Refused bufs.connBuff.orderedBytes p ∧ NoNews bufs.closeBuff p := by
  have hp : Established p.header.typeField := .inr (.inr hclose)
  obtain ⟨-, -, hclientAck⟩ := hp.notHandshake
  have hack : p.header.typeField ≠ .ack := by
    rcases hclose with h | h <;> simp [h]
  have hbytes := @bufferInData_bytes hostType p addr bufs hack hclientAck
  obtain ⟨-, queue, hconn⟩ := ConnReaderHandler.bufferInClosePackets_eq bufs [p]
    (by simpa using hclose)
  rw [ConnReaderHandler.bufferInPackets_close p [] _ hclose, hconn, ← buffered_same_iff,
    ← closeAll_same_iff _ _ hclose]
  constructor
  · intro hsame
    exact ⟨hbytes.bytes.symm.trans hsame.bytes, hbytes.close.symm.trans hsame.close⟩
  · rintro ⟨hsame, hclosed⟩
    exact ⟨hbytes.bytes.trans hsame, hbytes.acks, hbytes.close.trans hclosed⟩

/-- A datagram of one class leaves the same buffers on both ways, exactly if
every `Fin` or `FinAck` in it is refused by the reassembly buffer and no news to
the close buffer. -/
theorem paths_agree_iff (hostType : BluefinHost) (host : Host) (ref : BufferRef)
    (datagram : Bytes) (addr : SocketAddr) (n : ℕ) (packets : List BluefinPacket)
    (hhost : hostType ≠ .packFollower)
    (hparse : fromBytesInto datagram [] = (.ok n, packets)) (hclass : SingleClass packets)
    (hids : ∀ p ∈ packets,
      host.connManager (p.header.destinationConnectionId, p.header.sourceConnectionId) = some ref) :
    PathsAgree hostType host ref datagram addr ↔
      ∀ p ∈ packets, IsClose p.header.typeField →
        Refused (host.buffers ref).connBuff.orderedBytes p ∧ NoNews (host.buffers ref).closeBuff p := by
  have hself : SameBuffers (host.buffers ref) (host.buffers ref) := ⟨rfl, rfl, rfl⟩
  rcases packets with _ | ⟨first, rest⟩
  · refine iff_of_true ⟨host, host.buffers ref, ?_, inline_goes_on hparse rfl, hself⟩ (by simp)
    rw [run, receive, hparse]
    rfl
  have hfirst := List.mem_cons_self (a := first) (l := rest)
  rw [pathsAgree_iff_buffers hhost hparse hclass (hids first hfirst)]
  rcases hclass with h | h | ⟨p, hp, hclose⟩
  · have hp := h first hfirst
    rw [(ConnReaderHandler.bufferInPackets_other first rest _ (by simp [hp])
      (by simp [hp, IsClose])).2]
    refine iff_of_true (bufferInAll_data hostType addr _ _ _ hself h) (fun q hq hclose => ?_)
    rw [h q hq] at hclose
    simp [IsClose] at hclose
  · rw [(ConnReaderHandler.bufferInPackets_ack first rest _ (h first hfirst)).2]
    refine iff_of_true (bufferInAll_acks hostType addr _ _ _ hself h) (fun q hq hclose => ?_)
    rw [h q hq] at hclose
    simp [IsClose] at hclose
  · cases hp
    rw [sameBuffers_close_iff hostType addr _ hclose]
    simp only [List.mem_singleton, forall_eq, hclose, forall_const]

/-! ### One data packet, and one `Fin` -/

/-- A server's side of a connection whose client's first data packet is 12. -/
def establishedBuffers : ConnectionManagedBuffers where
  connBuff := { ConnectionBuffer.new 2 .packLeader with
    orderedBytes := .new 2 12, addr := some 0, waker := some 0, dstConnId := 1
    startPacketNumberSet := true }
  ackBuff := { AckBuffer.new 21 with waker := some 1 }
  closeBuff := .new
  finAckTx := some []

def oneConnection : Host where
  connManager := fun key => if key = (2, 1) then some 0 else none
  buffers := fun _ => establishedBuffers
  helloState := ⟨[], []⟩

def firstData : BluefinPacket :=
  ⟨(BluefinHeader.new 1 2 .unencryptedData 1 .default).withPacketNumber 12, [5]⟩

def finOnly : BluefinPacket := ⟨(BluefinHeader.new 1 2 .fin 0 .default).withPacketNumber 12, []⟩

theorem firstData_parses : fromBytesInto (serialiseAll [firstData]) [] = (.ok 1, [firstData]) := by
  refine fromBytesInto_serialiseAll _ (by simp) (fun p hp => ?_)
  rw [List.mem_singleton.mp hp]
  exact ⟨⟨by decide, by decide, by decide⟩, by decide⟩

theorem finOnly_parses : fromBytesInto (serialiseAll [finOnly]) [] = (.ok 1, [finOnly]) := by
  refine fromBytesInto_serialiseAll _ (by simp) (fun p hp => ?_)
  rw [List.mem_singleton.mp hp]
  exact ⟨⟨by decide, by decide, by decide⟩, by decide⟩

theorem paths_agree_firstData :
    PathsAgree .packLeader oneConnection 0 (serialiseAll [firstData]) 0 := by
  have hdata : ∀ p ∈ [firstData], p.header.typeField = .unencryptedData := by
    intro p hp
    rw [List.mem_singleton.mp hp]
    rfl
  refine (paths_agree_iff .packLeader oneConnection 0 (serialiseAll [firstData]) 0 1 [firstData]
    (by decide) firstData_parses (.inl hdata) (fun p hp => ?_)).mpr (fun p hp hclose => ?_)
  · rw [List.mem_singleton.mp hp]
    rfl
  · rw [hdata p hp] at hclose
    simp [IsClose] at hclose

/-- The listener takes a `Fin` for data and leaves the close buffer as it was. -/
theorem paths_disagree_fin :
    ∃ host' bufs,
      run .packLeader oneConnection (serialiseAll [finOnly]) 0 = .goOn host' ∧
      ConnReaderHandler.recvAndBufferInline (oneConnection.buffers 0) (serialiseAll [finOnly]) =
        .goOn bufs ∧
      (host'.buffers 0).connBuff.orderedBytes.slotAt 0 = some finOnly ∧
      (host'.buffers 0).closeBuff.state = .active ∧
      bufs.connBuff.orderedBytes.slotAt 0 = none ∧
      bufs.closeBuff.state = .peerFinReceived 12 := by
  obtain ⟨host', hrun, hlistener⟩ := @run_established .packLeader oneConnection 0
    (serialiseAll [finOnly]) 0 1 finOnly [] (by decide) finOnly_parses (.inr (.inr (.inl rfl))) rfl
  have hinline := @inline_goes_on (oneConnection.buffers 0) _ _ _ finOnly_parses rfl
  refine ⟨host', _, hrun, hinline, ?_, ?_, rfl, rfl⟩
  · rw [hlistener]
    rfl
  · rw [hlistener]
    rfl

end ReaderTxChannel

end Bluefin
