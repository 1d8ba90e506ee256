import Bluefin.Base.Trace
import Bluefin.Core.Codec
import Bluefin.Worker.ConnReader

/-!
# The Fin exchange of two endpoints (close_handler.rs, `BluefinConnection::close`)

Each endpoint has its `CloseBuffer`, reader tasks that put the packets of the
peer into it and pass on the number of the FinAck they owe, a drainer task that
sends the FinAck, and one `close()`. One action is one section under the mutex,
one channel operation or one send of one of them. The network keeps every
datagram that was sent, and an endpoint may receive any of them at any time and
any number of times: this covers loss, duplication and reordering.
-/

namespace Bluefin
open Base

namespace Close

/-- writer.rs:596-619. -/
def controlDatagram (srcConnId dstConnId : UInt32) (packetType : PacketType)
    (packetNumber : UInt64) : Bytes :=
  ((BluefinHeader.new srcConnId dstConnId packetType 0x0 .default).withPacketNumber
    packetNumber).serialiseInto (List.replicate 20 0)

abbrev maxFinAttempts : ℕ := 3

def closeTimedOut : BluefinError :=
  .timedOut "close: peer did not send FinAck within retransmit budget"

/-- connection.rs:477-539, from the reserved number on. `notified`: a FinAck came since
`notified()`. -/
inductive ClosePc where
  | idle
  | record (finPn : UInt64)
  | sendFin (finPn : UInt64) (attempt : ℕ)
  | register (finPn : UInt64) (attempt : ℕ)
  | check (finPn : UInt64) (attempt : ℕ) (notified : Bool)
  | wait (finPn : UInt64) (attempt : ℕ) (notified : Bool)
  | recheck (finPn : UInt64) (attempt : ℕ)
  | markClosed (finPn : UInt64) (res : BluefinResult Unit)
  | returned (finPn : UInt64) (res : BluefinResult Unit)
  deriving DecidableEq

def ClosePc.wake : ClosePc → ClosePc
  | .check finPn attempt _ => .check finPn attempt true
  | .wait finPn attempt _ => .wait finPn attempt true
  | c => c

def nextAttempt (finPn : UInt64) (attempt : ℕ) : ClosePc :=
  if attempt + 1 < maxFinAttempts then .sendFin finPn (attempt + 1)
  else .markClosed finPn (.err closeTimedOut)

/-- In `handing` are the numbers that reader tasks have taken out of the close buffer and not yet
offered to the channel, in `processed` the numbers of the Fins that went through `buffer_in_fin`,
which the program does not keep. -/
structure Endpoint where
  closeBuff : CloseBuffer
  handing : List UInt64
  finAckTx : Option (List UInt64)
  drainer : Option UInt64
  closer : ClosePc
  wire : List Bytes
  processed : List UInt64

def Endpoint.new : Endpoint where
  closeBuff := .new
  handing := []
  finAckTx := some []
  drainer := none
  closer := .idle
  wire := []
  processed := []

/-! ### Receiving -/

def finNumbers (packets : List BluefinPacket) : List UInt64 :=
  (packets.filter fun p => p.header.typeField = .fin).map fun p => p.header.packetNumber

/-- The part of `buffer_in_close_packets` under its guard; a FinAck notifies. -/
def receiveClose (e : Endpoint) (packets : List BluefinPacket) : Option Endpoint :=
  let closer :=
    if packets.any (fun p => p.header.typeField = .finAck) then e.closer.wake else e.closer
  let processed := e.processed ++ finNumbers packets
  match ConnReaderHandler.bufferInClose e.closeBuff false packets with
  | (.ok true, guard) =>
    let (pn, guard) := guard.takePendingFinAckSend
    some { e with
      closeBuff := guard, handing := e.handing ++ pn.toList, closer := closer
      processed := processed }
  | (.ok false, guard) =>
    some { e with closeBuff := guard, closer := closer, processed := processed }
  | _ => none

/-- One round of `recv_and_buffer_inline`. Data and acks do not reach the close buffer. -/
def receive (e : Endpoint) (datagram : Bytes) : Option Endpoint :=
  match BluefinPacket.fromBytesInto datagram [] with
  | (.panicked _, _) => none
  | (.err _, _) => some e
  | (.ok _, []) => some e
  | (.ok _, first :: packets) => match first.header.typeField with
    | .fin => receiveClose e (first :: packets)
    | .finAck => receiveClose e (first :: packets)
    | _ => some e

/-! ### Steps -/

section

variable (srcConnId dstConnId : UInt32)

/-- One step of `close()`; a wait ends with a notification or with its timeout. -/
def closeStep (e : Endpoint) : Option Endpoint :=
  match e.closer with
  | .idle => none
  | .record finPn => some { e with
      closeBuff := e.closeBuff.recordLocalFinSent finPn, closer := .sendFin finPn 0 }
  | .sendFin finPn attempt => some { e with
      wire := e.wire ++ [controlDatagram srcConnId dstConnId .fin finPn]
      closer := .register finPn attempt }
  | .register finPn attempt => some { e with closer := .check finPn attempt false }
  | .check finPn attempt notified => some { e with
      closer := if e.closeBuff.receivedFinAckFor = some finPn then .markClosed finPn (.ok ())
        else .wait finPn attempt notified }
  | .wait finPn attempt true => some { e with closer := .recheck finPn attempt }
  | .wait _ _ false => none
  | .recheck finPn attempt => some { e with
      closer := if e.closeBuff.receivedFinAckFor = some finPn then .markClosed finPn (.ok ())
        else nextAttempt finPn attempt }
  | .markClosed finPn res => some { e with
      closeBuff := e.closeBuff.markClosed, closer := .returned finPn res }
  | .returned _ _ => none

/-- With `deliver i` the `i`-th datagram that the peer has sent comes. In `sendFails` the socket
fails under `send_fin`; under `send_fin_ack` the drainer ignores that. -/
inductive Action where
  | deliver (i : ℕ)
  | handOver (i : ℕ)
  | drainerTake
  | drainerSend
  | drainerFails
  | closeBegin (finPn : UInt64)
  | close
  | timeout
  | sendFails (err : BluefinError)

def Endpoint.step (incoming : List Bytes) (e : Endpoint) : Action → Option Endpoint
  | .deliver i => incoming[i]?.bind (receive e)
  | .handOver i => e.handing[i]?.map fun pn => { e with
      handing := e.handing.eraseIdx i
      finAckTx := ConnReaderHandler.trySendFinAck e.finAckTx (some pn) }
  | .drainerTake => match e.drainer, e.finAckTx with
    | none, some (pn :: queue) => some { e with drainer := some pn, finAckTx := some queue }
    | _, _ => none
  | .drainerSend => e.drainer.map fun pn => { e with
      drainer := none, wire := e.wire ++ [controlDatagram srcConnId dstConnId .finAck pn] }
  | .drainerFails => e.drainer.map fun _ => { e with drainer := none }
  | .closeBegin finPn => match e.closer with
    | .idle => some { e with closer := .record finPn }
    | _ => none
  | .close => closeStep srcConnId dstConnId e
  | .timeout => match e.closer with
    | .wait finPn attempt false => some { e with closer := nextAttempt finPn attempt }
    | _ => none
  | .sendFails err => match e.closer with
    | .sendFin finPn _ => some { e with closer := .returned finPn (.err err) }
    | _ => none

end

inductive Side where
  | a
  | b
  deriving DecidableEq, Repr

def Side.peer : Side → Side
  | .a => .b
  | .b => .a

theorem Side.peer_ne (x : Side) : x.peer ≠ x := by
  cases x <;> decide

theorem Side.eq_peer {x y : Side} (h : x ≠ y) : x.peer = y := by
  cases x <;> cases y <;> first | rfl | exact absurd rfl h

abbrev State := Side → Endpoint

def init : State := fun _ => .new

section

variable (ids : Side → UInt32)

def step (st : State) (act : Side × Action) : Option State :=
  ((st act.1).step (ids act.1) (ids act.1.peer) (st act.1.peer).wire act.2).map
    (Function.update st act.1)

def Step (st : State) (act : Side × Action) (st' : State) : Prop := step ids st act = some st'

def datagram (x : Side) (packetType : PacketType) (packetNumber : UInt64) : Bytes :=
  controlDatagram (ids x) (ids x.peer) packetType packetNumber

end

/-! ### One control packet -/

/-- What the peer's parser makes of a control datagram. -/
def controlPacket (srcConnId dstConnId : UInt32) (packetType : PacketType)
    (packetNumber : UInt64) : BluefinPacket :=
  ⟨(BluefinHeader.new srcConnId dstConnId packetType 0x0 .default).withPacketNumber packetNumber, []⟩

theorem fromBytesInto_control {srcConnId dstConnId : UInt32} {packetType : PacketType}
    (htype : packetType ≠ .unencryptedData) (packetNumber : UInt64) :
    BluefinPacket.fromBytesInto (controlDatagram srcConnId dstConnId packetType packetNumber) [] =
      (.ok 1, [controlPacket srcConnId dstConnId packetType packetNumber]) := by
  have hbytes : controlDatagram srcConnId dstConnId packetType packetNumber =
      BluefinPacket.serialiseAll
        [controlPacket srcConnId dstConnId packetType packetNumber] := by
    rw [controlDatagram, BluefinHeader.serialiseInto_eq, List.drop_of_length_le (by simp),
      BluefinPacket.serialiseAll_cons, BluefinPacket.serialise]
    rfl
  rw [hbytes]
  apply BluefinPacket.fromBytesInto_serialiseAll _ (List.cons_ne_nil _ _)
  intro p hp
  rw [List.mem_singleton.mp hp]
  have hversion : (0x0 : UInt8).toNat < 16 := by decide
  exact ⟨⟨hversion, fun h => absurd h htype, fun _ => rfl⟩, fun h => absurd h htype⟩

theorem receive_fin (e : Endpoint) (srcConnId dstConnId : UInt32) (pn : UInt64) :
    receive e (controlDatagram srcConnId dstConnId .fin pn) =
      let b := e.closeBuff.bufferInFin (controlPacket srcConnId dstConnId .fin pn)
      some { e with
        closeBuff := { b with pendingFinAckSend := none }
        handing := e.handing ++ b.pendingFinAckSend.toList
        processed := e.processed ++ [pn] } := by
  unfold receive
  rw [fromBytesInto_control (by decide)]
  rfl

theorem receive_finAck (e : Endpoint) (srcConnId dstConnId : UInt32) (pn : UInt64) :
    receive e (controlDatagram srcConnId dstConnId .finAck pn) =
      some { e with
        closeBuff := { e.closeBuff with receivedFinAckFor := some pn }
        closer := e.closer.wake } := by
  unfold receive
  rw [fromBytesInto_control (by decide)]
  show some { e with
    closeBuff := { e.closeBuff with receivedFinAckFor := some pn }
    closer := e.closer.wake
    processed := e.processed ++ [] } = _
  rw [List.append_nil]

/-- The guard and the offers to the channel together are `buffer_in_close_packets`. -/
theorem receiveClose_bufferInClosePackets {e e' : Endpoint} {bufs : ConnectionManagedBuffers}
    {packets : List BluefinPacket} (hclose : bufs.closeBuff = e.closeBuff)
    (htx : bufs.finAckTx = e.finAckTx) (h : receiveClose e packets = some e') :
    ∃ bufs' woken pns,
      ConnReaderHandler.bufferInClosePackets bufs packets = (.ok (), bufs', woken) ∧
      bufs'.closeBuff = e'.closeBuff ∧ e'.handing = e.handing ++ pns ∧
      bufs'.finAckTx = pns.foldl
        (fun tx pn => ConnReaderHandler.trySendFinAck tx (some pn)) e'.finAckTx := by
  rcases hres : ConnReaderHandler.bufferInClose e.closeBuff false packets with ⟨res, guard⟩
  cases res with
  | ok sawFin =>
    cases sawFin with
    | true =>
      simp only [receiveClose, hres, CloseBuffer.takePendingFinAckSend] at h
      cases h
      simp only [ConnReaderHandler.bufferInClosePackets, hclose, hres,
        CloseBuffer.takePendingFinAckSend, htx]
      refine ⟨_, _, guard.pendingFinAckSend.toList, rfl, rfl, rfl, ?_⟩
      cases guard.pendingFinAckSend with
      | none => rfl
      | some pn => rfl
    | false =>
      simp only [receiveClose, hres] at h
      cases h
      simp only [ConnReaderHandler.bufferInClosePackets, hclose, hres]
      exact ⟨_, _, [], rfl, rfl, (List.append_nil _).symm, htx⟩
  | err _ | panicked _ =>
    simp only [receiveClose, hres] at h
    cases h

end Close

end Bluefin
