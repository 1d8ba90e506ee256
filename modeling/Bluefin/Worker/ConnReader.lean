import Bluefin.Net.Buffers
import Bluefin.Net.Peek

/-!
# The receive path of a connection (worker/conn_reader.rs)

Each of the `buffer_in_*` functions returns its result together with the
buffers it leaves and the task it wakes after it has dropped its guard.
-/

namespace Bluefin
open Base

namespace ConnReaderHandler

/-- The loop of `buffer_in_data_packets` with its last error. -/
def bufferInData (g : ConnectionBuffer) (e : Option BluefinError) :
    List BluefinPacket → Option BluefinError × ConnectionBuffer
  | [] => (e, g)
  | p :: packets => match g.bufferInBytes p with
    | (.err err, g) => bufferInData g (some err) packets
    | (_, g) => bufferInData g e packets

/-- The loop of `buffer_in_ack_packets` with its last error. -/
def bufferInAcks (g : AckBuffer) (e : Option BluefinError) :
    List BluefinPacket → Option BluefinError × AckBuffer
  | [] => (e, g)
  | p :: packets => match g.bufferInAckPacket p with
    | (.err err, g) => bufferInAcks g (some err) packets
    | (_, g) => bufferInAcks g e packets

/-- The common end of the two: the waker is called, and the last error returned. -/
def wakeResult (waker : Option Waker) (e : Option BluefinError) : BluefinResult Unit :=
  match waker, e with
  | none, _ => .err .noSuchWakerError
  | some _, some err => .err err
  | some _, none => .ok ()

/-- conn_reader.rs:407-433. -/
def bufferInDataPackets (guard : ConnectionBuffer) (packets : List BluefinPacket) :
    BluefinResult Unit × (ConnectionBuffer × Option Waker) :=
  let (e, guard) := bufferInData guard none packets
  (wakeResult guard.waker e, guard, guard.waker)

/-- conn_reader.rs:366-404. -/
def bufferInAckPackets (guard : AckBuffer) (packets : List BluefinPacket) :
    BluefinResult Unit × (AckBuffer × Option Waker) :=
  let (e, guard) := bufferInAcks guard none packets
  (wakeResult guard.waker e, guard, guard.waker)

/-- The loop under the close-buffer guard: whether a Fin was among the packets. -/
def bufferInClose (guard : CloseBuffer) (sawFin : Bool) :
    List BluefinPacket → BluefinResult Bool × CloseBuffer
  | [] => (.ok sawFin, guard)
  | p :: packets => match p.header.typeField with
    | .fin => bufferInClose (guard.bufferInFin p) true packets
    | .finAck => bufferInClose (guard.bufferInFinAck p) sawFin packets
    | _ => (.panicked (.raised .unreachableClosePacket), guard)

/-- As in `try_send` on the FinAck channel, a full channel drops the number. -/
def trySendFinAck (finAckTx : Option (List UInt64)) (pn : Option UInt64) : Option (List UInt64) :=
  match pn, finAckTx with
  | some pn, some queue => some (if queue.length < finAckChannelBound then queue ++ [pn] else queue)
  | _, finAckTx => finAckTx

/-- conn_reader.rs:298-363. -/
def bufferInClosePackets (bufs : ConnectionManagedBuffers) (packets : List BluefinPacket) :
    BluefinResult Unit × (ConnectionManagedBuffers × Option Waker) :=
  match bufferInClose bufs.closeBuff false packets with
  | (.ok true, guard) =>
    let (pn, guard) := guard.takePendingFinAckSend
    (.ok (), { bufs with closeBuff := guard, finAckTx := trySendFinAck bufs.finAckTx pn },
      bufs.connBuff.waker)
  | (.ok false, guard) => (.ok (), { bufs with closeBuff := guard }, none)
  | (.err e, guard) => (.err e, { bufs with closeBuff := guard }, none)
  | (.panicked f, guard) => (.panicked f, { bufs with closeBuff := guard }, none)

/-- conn_reader.rs:255-286: the type of the first packet decides. -/
def bufferInPackets (packets : List BluefinPacket) (bufs : ConnectionManagedBuffers) :
    BluefinResult Unit × (ConnectionManagedBuffers × Option Waker) :=
  match packets with
  | [] => (.ok (), bufs, none)
  | first :: _ => match first.header.typeField with
    | .ack =>
      let (res, ackBuff, woken) := bufferInAckPackets bufs.ackBuff packets
      (res, { bufs with ackBuff := ackBuff }, woken)
    | .fin | .finAck => bufferInClosePackets bufs packets
    | _ =>
      let (res, connBuff, woken) := bufferInDataPackets bufs.connBuff packets
      (res, { bufs with connBuff := connBuff }, woken)

/-! ### The receive loops -/

end ConnReaderHandler

/-- One round of a task's endless loop: it goes on, or the task ends with an error, or it unwinds.
-/
inductive LoopStep (σ : Type) where
  | goOn (s : σ)
  | ended (e : BluefinError)
  | crashed (f : Fault PanicMsg)

namespace ConnReaderHandler

/-- conn_reader.rs:213-252, from the received datagram on. -/
def recvAndBufferInline (bufs : ConnectionManagedBuffers) (datagram : Bytes) :
    LoopStep ConnectionManagedBuffers :=
  match BluefinPacket.fromBytesInto datagram [] with
  | (.panicked f, _) => .crashed f
  | (.err _, _) => .goOn bufs
  | (.ok _, packets) => match bufferInPackets packets bufs with
    | (.panicked f, _) => .crashed f
    | (_, bufs, _) => .goOn bufs

/-- conn_reader.rs:121-186, from the received datagram on. `sent` are the batches handed to the
consumer; the carrier is empty at the start of every round. -/
def txImpl (sent : List (List BluefinPacket)) (datagram : Bytes) :
    LoopStep (List (List BluefinPacket)) :=
  match BluefinPacket.fromBytesInto datagram [] with
  | (.panicked f, _) => .crashed f
  | (.err e, _) => .ended e
  | (.ok _, packets) => .goOn (sent ++ [packets])

/-! ### What a datagram of the peer does -/

theorem bufferInData_eq (g : ConnectionBuffer) (e : Option BluefinError)
    (packets : List BluefinPacket) :
    (bufferInData g e packets).2 =
      { g with orderedBytes := g.orderedBytes.bufferAll packets } := by
  induction packets generalizing g e with
  | nil => rfl
  | cons p packets ih =>
    unfold bufferInData
    simp only [ConnectionBuffer.bufferInBytes]
    split
    · rename_i err g' heq
      rw [ih, ← (Prod.mk.inj heq).2]
      rfl
    · rename_i res g' _ heq
      rw [ih, ← (Prod.mk.inj heq).2]
      rfl

theorem bufferInPackets_data (packets : List BluefinPacket) (bufs : ConnectionManagedBuffers)
    (hne : packets ≠ []) (htype : ∀ p ∈ packets, p.header.typeField = .unencryptedData) :
    (bufferInPackets packets bufs).2 =
      ({ bufs with connBuff.orderedBytes := bufs.connBuff.orderedBytes.bufferAll packets },
        bufs.connBuff.waker) := by
  obtain ⟨first, rest, rfl⟩ := List.exists_cons_of_ne_nil hne
  have hfirst := htype first (List.mem_cons_self ..)
  simp only [bufferInPackets, hfirst, bufferInDataPackets, bufferInData_eq]

theorem bufferInPackets_fin (p : BluefinPacket) (bufs : ConnectionManagedBuffers)
    (htype : p.header.typeField = .fin) :
    (bufferInPackets [p] bufs).2 =
      ({ bufs with
          closeBuff := (bufs.closeBuff.bufferInFin p).takePendingFinAckSend.2
          finAckTx := trySendFinAck bufs.finAckTx
            (bufs.closeBuff.bufferInFin p).takePendingFinAckSend.1 },
        bufs.connBuff.waker) := by
  simp only [bufferInPackets, htype, bufferInClosePackets, bufferInClose]

end ConnReaderHandler

end Bluefin
