import Bluefin.Core.Codec
import Bluefin.Utils.WindowInvariant
import Bluefin.Worker.Packetiser
import Bluefin.Worker.Receiver

/-!
# The way of an ack (worker/writer.rs, net/ack_handler.rs)

A reader's `send_ack` puts a range into a channel. The writer's ack task packs
the ranges into datagrams, the peer parses them into its ack window, and its
consumer stores the end of what is contiguous there. The network may drop,
repeat and reorder the datagrams: everything ever sent stays deliverable.
-/

namespace Bluefin
open Base

/-- The pair of `base_packet_num` and `num_packets_consumed`. -/
abbrev AckData := UInt64 × ℕ

/-! ### The ack task of the writer -/

namespace WriterHandler

section

variable (srcConnId dstConnId : UInt32)

def ackHeader (a : AckData) : BluefinHeader :=
  { (BluefinHeader.new srcConnId dstConnId .ack 0 .default).withPacketNumber a.1 with
    typeSpecificPayload := UInt16.ofNat a.2 }

/-- writer.rs:963-968. The bytes that `set_len` exposes stand as zeros. -/
def appendHeader (bytes : Bytes) (header : BluefinHeader) : Bytes :=
  let currentLen := bytes.length
  let bytes := bytes ++ List.replicate 20 0
  overwrite bytes currentLen (header.serialiseInto (bytes.drop currentLen))

/-- writer.rs:956-969: the queue that is left and the datagram. -/
def consumeAcksLoop : List AckData → Bytes → List AckData × Bytes
  | [], bytes => ([], bytes)
  | a :: queue, bytes =>
    if bytes.length + 20 > maxBluefinBytesInUdpDatagram then (a :: queue, bytes)
    else consumeAcksLoop queue (appendHeader bytes (ackHeader srcConnId dstConnId a))

/-- writer.rs:938-972. -/
def consumeAcksInto (queue : List AckData) (bytes : Bytes) : Bool × (List AckData × Bytes) :=
  if queue.isEmpty then (false, queue, bytes)
  else
    let (queue, bytes) := consumeAcksLoop srcConnId dstConnId queue bytes
    (!bytes.isEmpty, queue, bytes)

end

end WriterHandler

/-- At `pack i` the task is in the `i`-th round of the loop that sends a batch. -/
inductive AckPc where
  | top
  | pack (i : ℕ)
  deriving DecidableEq, Repr

structure AckTask where
  pc : AckPc
  ackQueue : List AckData
  pendingSend : Option Bytes
  deriving DecidableEq, Repr

namespace AckTask

def new : AckTask := ⟨.top, [], none⟩

/-- writer.rs:154-211, the next step of `read_ack`: what is left in the channel, the task, and the
datagram that went out. `sendOk` is the answer of the socket's `try_send`. The task waits while it
has nothing to send and the channel is empty. -/
def step (srcConnId dstConnId : UInt32) (sendOk : Bool) (chan : List AckData) (t : AckTask) :
    Option (List AckData × AckTask × Option Bytes) :=
  match t.pc, t.pendingSend with
  | .top, some data =>
    if sendOk then some (chan, { t with pendingSend := none }, some data)
    else some (chan, t, none)
  | .top, none =>
    if chan.isEmpty then none
    else some (chan.drop 20,
      { t with pc := .pack 0, ackQueue := t.ackQueue ++ chan.take 20 }, none)
  | .pack i, _ => match WriterHandler.consumeAcksInto srcConnId dstConnId t.ackQueue [] with
    | (false, queue, _) => some (chan, { t with pc := .top, ackQueue := queue }, none)
    | (true, queue, datagram) =>
      if sendOk then
        some (chan, { t with pc := if i + 1 < 12 then .pack (i + 1) else .top, ackQueue := queue },
          some datagram)
      else some (chan, ⟨.top, queue, some datagram⟩, none)

end AckTask

/-! ### The ack consumer of the sender -/

namespace AckBuffer

/-- ack_handler.rs:74-87. -/
def poll (waker : Waker) (b : AckBuffer) : Option SlidingWindowConsumeResult × AckBuffer :=
  match b.receivedAcks.consume with
  | (some res, acks) => (some res, { b with receivedAcks := acks })
  | (none, acks) => (none, ⟨acks, some waker⟩)

end AckBuffer

/-- In `res` is what the future returned and `run` has not stored yet, in `stored` the values of
`largest_recv_acked_packet_num` so far. -/
structure AckConsumer where
  res : Option SlidingWindowConsumeResult
  stored : List UInt64
  deriving DecidableEq, Repr

namespace AckConsumer

def new : AckConsumer := ⟨none, []⟩

/-- ack_handler.rs:108-116, the next step of `run`. -/
def step (b : AckBuffer) (c : AckConsumer) : AckBuffer × AckConsumer :=
  match c.res with
  | some res => (b, ⟨none, c.stored ++ [res.largestPacketNumber]⟩)
  | none => ((b.poll 0).2, { c with res := (b.poll 0).1 })

end AckConsumer

/-! ### Both ends -/

namespace AckPath

structure State where
  receiver : Receiver.State
  chan : List AckData
  task : AckTask
  sent : List Bytes
  ackBuff : AckBuffer
  consumer : AckConsumer

inductive Action where
  | receiver (act : Reader.Action)
  | readAck (sendOk : Bool)
  | deliver (i : ℕ)
  | consumer

/-- The sender's reader: a datagram that does not parse is skipped. -/
def received (b : AckBuffer) (datagram : Bytes) : AckBuffer :=
  match BluefinPacket.fromBytesInto datagram [] with
  | (.ok _, packets) => (ConnReaderHandler.bufferInAckPackets b packets).2.1
  | _ => b

def step (srcConnId dstConnId : UInt32) (st : State) : Action → Option State
  | .receiver act => (Receiver.step st.receiver act).map fun receiver =>
    { st with
      receiver := receiver
      chan := st.chan ++ receiver.rx.acksSent.drop st.receiver.rx.acksSent.length }
  | .readAck sendOk => (st.task.step srcConnId dstConnId sendOk st.chan).map
    fun (chan, task, datagram) =>
      { st with chan := chan, task := task, sent := st.sent ++ datagram.toList }
  | .deliver i => st.sent[i]?.map fun datagram =>
    { st with ackBuff := received st.ackBuff datagram }
  | .consumer =>
    let (ackBuff, consumer) := st.consumer.step st.ackBuff
    some { st with ackBuff := ackBuff, consumer := consumer }

def Step (srcConnId dstConnId : UInt32) (st : State) (act : Action) (st' : State) : Prop :=
  step srcConnId dstConnId st act = some st'

/-- A receiver before its first read, and a sender whose first data packet has the number `first`.
-/
def init (receiver : Receiver.State) (first : UInt64) : State where
  receiver := receiver
  chan := []
  task := .new
  sent := []
  ackBuff := .new first
  consumer := .new

end AckPath

end Bluefin
