import Bluefin.Core.Codec
import Bluefin.Worker.ConnReader

/-!
# The listener's receive path (worker/reader.rs, `ReaderTxChannel`)

A host keeps its connections' buffers behind reference counts: an entry of the
`ConnectionManager` and a task that works on a connection share one set. Here
the buffers stand in a store and a reference is an index into it.
-/

namespace Bluefin
open Base

abbrev BufferRef := ℕ

abbrev ConnKey := UInt32 × UInt32

abbrev maxQueuedHellos : ℕ := 64

structure HelloState where
  pendingAcceptIds : List UInt32
  helloQueue : List (BluefinPacket × SocketAddr)

structure Host where
  connManager : ConnKey → Option BufferRef
  buffers : BufferRef → ConnectionManagedBuffers
  helloState : HelloState

/-! ### Handshake packets (net/mod.rs:221-270) -/

def isHelloPacket (hostType : BluefinHost) (packet : BluefinPacket) : Bool :=
  let otherId := packet.header.sourceConnectionId
  let thisId := packet.header.destinationConnectionId
  if hostType = .packLeader ∧ packet.header.typeField ≠ .unencryptedClientHello then false
  else if hostType = .client ∧ packet.header.typeField ≠ .unencryptedServerHello then false
  else if hostType = .client ∧ (otherId = 0x0 ∨ thisId = 0x0) then false
  else if hostType = .packLeader ∧ otherId = 0x0 then false
  else if hostType = .packLeader ∧ thisId ≠ 0x0 then false
  else true

def isClientAckPacket (hostType : BluefinHost) (packet : BluefinPacket) : Bool :=
  decide (hostType = .packLeader ∧ packet.header.typeField = .clientAck ∧
    packet.header.sourceConnectionId ≠ 0x0 ∧ packet.header.destinationConnectionId ≠ 0x0)

namespace ReaderTxChannel

inductive HelloAction where
  | notHello
  | routed (id : UInt32)
  | queued
  deriving DecidableEq, Repr

/-- reader.rs:277-313: what becomes of a datagram with one packet, and the state shared with
`accept()`. -/
def handleHelloSingle (hostType : BluefinHost) (state : HelloState) (packet : BluefinPacket)
    (addr : SocketAddr) : BluefinResult HelloAction × HelloState :=
  if isHelloPacket hostType packet then
    match hostType with
    | .packLeader => match state.pendingAcceptIds with
      | id :: ids => (.ok (.routed id), { state with pendingAcceptIds := ids })
      | [] =>
        if state.helloQueue.length < maxQueuedHellos then
          (.ok .queued, { state with helloQueue := state.helloQueue ++ [(packet, addr)] })
        else (.ok .queued, state)
    | .client => (.ok (.routed 0), state)
    | .packFollower => (.panicked (.raised .unimplementedHost), state)
  else (.ok .notHello, state)

def buildConnBuffKey (isHello : Bool) (srcConnId dstConnId : UInt32) : ConnKey :=
  if isHello then (srcConnId, 0) else (srcConnId, dstConnId)

/-- reader.rs:324-349. The waker is called under the lock. -/
def bufferToConnBuffer (connBuff : ConnectionBuffer) (packet : BluefinPacket) (addr : SocketAddr)
    (isHello isClientAck : Bool) : BluefinResult Unit × (ConnectionBuffer × Option Waker) :=
  let packetSrcConnId := packet.header.sourceConnectionId
  let (res, connBuff) :=
    if !isHello && !isClientAck then connBuff.bufferInBytes packet
    else match connBuff.bufferInPacket packet with
      | (.ok (), connBuff) => (.ok (), (connBuff.bufferInAddr addr).2)
      | (res, connBuff) => (res, connBuff)
  res.orReturn (connBuff, none) fun _ =>
    let connBuff := connBuff.setDstConnId packetSrcConnId
    match connBuff.waker with
    | some w => (.ok (), connBuff, some w)
    | none => (.err .noSuchWakerError, connBuff, none)

/-- reader.rs:352-355. -/
def bufferToAckBuffer (ackBuff : AckBuffer) (packet : BluefinPacket) :
    BluefinResult Unit × (AckBuffer × Option Waker) :=
  let (res, ackBuff) := ackBuff.bufferInAckPacket packet
  res.orReturn (ackBuff, none) fun _ => match ackBuff.waker with
    | some w => (.ok (), ackBuff, some w)
    | none => (.err .noSuchWakerError, ackBuff, none)

/-- reader.rs:358-374. -/
def bufferInData (isHello : Bool) (hostType : BluefinHost) (packet : BluefinPacket)
    (addr : SocketAddr) (buffers : ConnectionManagedBuffers) :
    BluefinResult Unit × (ConnectionManagedBuffers × Option Waker) :=
  let isClientAck := isClientAckPacket hostType packet
  if !isClientAck && !isHello && packet.header.typeField = .ack then
    let (res, ackBuff, woken) := bufferToAckBuffer buffers.ackBuff packet
    (res, { buffers with ackBuff := ackBuff }, woken)
  else
    let (res, connBuff, woken) :=
      bufferToConnBuffer buffers.connBuff packet addr isHello isClientAck
    (res, { buffers with connBuff := connBuff }, woken)

/-- What a worker holds between the two parts of a round: the packets of one
datagram and the connection they are for. -/
structure Delivery where
  isHello : Bool
  key : ConnKey
  packets : List BluefinPacket
  addr : SocketAddr

/-- reader.rs:415-435, on the packets of a datagram: the key to look up, or nothing if a hello was
queued. -/
def classify (hostType : BluefinHost) (state : HelloState) (packets : List BluefinPacket)
    (addr : SocketAddr) : LoopStep (HelloState × Option Delivery) :=
  match packets with
  | [] => .goOn (state, none)
  | first :: rest =>
    let srcConnId := first.header.destinationConnectionId
    let dstConnId := first.header.sourceConnectionId
    if rest = [] then
      match handleHelloSingle hostType state first addr with
      | (.ok (.routed id), state) =>
        let srcConnId := if hostType = .packLeader then id else srcConnId
        .goOn (state, some ⟨true, buildConnBuffKey true srcConnId dstConnId, packets, addr⟩)
      | (.ok .notHello, state) =>
        .goOn (state, some ⟨false, buildConnBuffKey false srcConnId dstConnId, packets, addr⟩)
      | (.ok .queued, state) => .goOn (state, none)
      | (.err e, _) => .ended e
      | (.panicked f, _) => .crashed f
    else .goOn (state, some ⟨false, buildConnBuffKey false srcConnId dstConnId, packets, addr⟩)

/-- reader.rs:403-435: a received datagram up to the lookup of its connection. -/
def receive (hostType : BluefinHost) (state : HelloState) (datagram : Bytes)
    (addr : SocketAddr) : LoopStep (HelloState × Option Delivery) :=
  match BluefinPacket.fromBytesInto datagram [] with
  | (.panicked f, _) => .crashed f
  | (.err _, _) => .goOn (state, none)
  | (.ok _, packets) => classify hostType state packets addr

/-- reader.rs:447-452: the packets go into the buffers that were found. -/
def buffer (hostType : BluefinHost) (host : Host) (d : Delivery) (ref : BufferRef) : Host :=
  let buffers := d.packets.foldl
    (fun buffers p => (bufferInData d.isHello hostType p d.addr buffers).2.1) (host.buffers ref)
  { host with buffers := Function.update host.buffers ref buffers }

/-- reader.rs:382-454, one round from the received datagram on. -/
def run (hostType : BluefinHost) (host : Host) (datagram : Bytes) (addr : SocketAddr) :
    LoopStep Host :=
  match receive hostType host.helloState datagram addr with
  | .crashed f => .crashed f
  | .ended e => .ended e
  | .goOn (state, none) => .goOn { host with helloState := state }
  | .goOn (state, some d) =>
    let host := { host with helloState := state }
    match host.connManager d.key with
    | none => .goOn host
    | some ref => .goOn (buffer hostType host d ref)

end ReaderTxChannel

/-! ### Datagrams with an unknown packet type -/

section

open BluefinPacket

/-- What the receive path needs of its parsers on a datagram: they return, and
a datagram with an unknown packet type is an error that each loop drops. -/
structure Handled (datagram : Bytes) : Prop where
  fromBytes_returns : (fromBytes datagram).isPanic = false
  fromBytesInto_returns : ∀ packets, (fromBytesInto datagram packets).1.isPanic = false
  rejected : ReachesUnknownType datagram → (fromBytes datagram).isErr = true ∧
    ∀ packets, (fromBytesInto datagram packets).1.isErr = true
  run_drops : ReachesUnknownType datagram → ∀ hostType host addr,
    ReaderTxChannel.run hostType host datagram addr = .goOn host
  inline_drops : ReachesUnknownType datagram → ∀ bufs,
    ConnReaderHandler.recvAndBufferInline bufs datagram = .goOn bufs
  tx_drops : ReachesUnknownType datagram → ∀ sent,
    ConnReaderHandler.txImpl sent datagram = .goOn sent

/-- All three loops unwind on a datagram with an unknown type, with the panic of `from_u8`. -/
theorem loops_crash {datagram : Bytes} (h : ReachesUnknownType datagram) :
    ∃ v, (∀ hostType host addr, ReaderTxChannel.run hostType host datagram addr =
        .crashed (.raised (.unknownPacketType v))) ∧
      (∀ bufs, ConnReaderHandler.recvAndBufferInline bufs datagram =
        .crashed (.raised (.unknownPacketType v))) ∧
      ∀ sent, ConnReaderHandler.txImpl sent datagram =
        .crashed (.raised (.unknownPacketType v)) := by
  obtain ⟨v, hpanic⟩ := fromBytesInto_unknown h []
  rcases hparse : fromBytesInto datagram [] with ⟨res, packets⟩
  rw [hparse] at hpanic
  obtain rfl : res = .panicked (.raised (.unknownPacketType v)) := hpanic
  refine ⟨v, fun hostType host addr => ?_, fun bufs => ?_, fun sent => ?_⟩
  · simp only [ReaderTxChannel.run, ReaderTxChannel.receive, hparse]
  · simp only [ConnReaderHandler.recvAndBufferInline, hparse]
  · simp only [ConnReaderHandler.txImpl, hparse]

/-- The parsers return on a datagram, and the loops are safe from it, exactly if
no header that they come to has an unknown packet type. -/
theorem datagram_handled_iff (datagram : Bytes) :
    Handled datagram ↔ ¬ ReachesUnknownType datagram := by
  constructor
  · intro h hunknown
    have hpanic := (fromBytes_panic_iff datagram).mpr hunknown
    rw [h.fromBytes_returns] at hpanic
    cases hpanic
  · intro h
    refine ⟨?_, ?_, ?_, ?_, ?_, ?_⟩
    · rw [← Bool.not_eq_true, fromBytes_panic_iff]
      exact h
    · intro packets
      rw [← Bool.not_eq_true, fromBytesInto_panic_iff]
      exact h
    all_goals exact fun hunknown => absurd hunknown h

/-- A header whose type nibble is 7, and nothing else. -/
def unknownTypeDatagram : Bytes := 0x07 :: List.replicate 19 0

theorem unknownType_reached : ReachesUnknownType unknownTypeDatagram :=
  ⟨unknownTypeDatagram, .here (by decide), by decide⟩

theorem unknown_type_crashes :
    (fromBytes unknownTypeDatagram).isPanic = true ∧
      (fromBytesInto unknownTypeDatagram []).1.isPanic = true ∧
      ∃ f, (∀ host addr, ReaderTxChannel.run .packLeader host unknownTypeDatagram addr =
          .crashed f) ∧
        (∀ bufs, ConnReaderHandler.recvAndBufferInline bufs unknownTypeDatagram = .crashed f) ∧
        ∀ sent, ConnReaderHandler.txImpl sent unknownTypeDatagram = .crashed f := by
  refine ⟨(fromBytes_panic_iff _).mpr unknownType_reached,
    (fromBytesInto_panic_iff _ _).mpr unknownType_reached, ?_⟩
  obtain ⟨v, hrun, hinline, htx⟩ := loops_crash unknownType_reached
  exact ⟨_, hrun .packLeader, hinline, htx⟩

end

end Bluefin
