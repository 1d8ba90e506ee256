import Bluefin.Net.OrderedBytes
import Bluefin.Utils.Window

/-!
# The buffers of one connection (net/connection.rs, ack_handler.rs, close_handler.rs)

What `ConnectionManagedBuffers` holds, each part behind its own mutex. A waker
is the identity of the task it wakes. `peer_fin_observed` is one atomic cell
that `CloseBuffer` sets and the read path loads; it stands in `CloseBuffer`.
-/

namespace Bluefin
open Base

abbrev SocketAddr := ℕ
abbrev Waker := ℕ

inductive BluefinHost where
  | packLeader
  | packFollower
  | client
  deriving DecidableEq, Repr

/-! ### `AckBuffer` -/

structure AckBuffer where
  receivedAcks : SlidingWindow
  waker : Option Waker
  deriving DecidableEq, Repr

namespace AckBuffer

def new (smallestExpectedRecvPacketNum : UInt64) : AckBuffer where
  receivedAcks := .new smallestExpectedRecvPacketNum
  waker := none

/-- ack_handler.rs:33-42. -/
def bufferInAckPacket (b : AckBuffer) (packet : BluefinPacket) : BluefinResult Unit × AckBuffer :=
  let (res, acks) :=
    b.receivedAcks.insertRange packet.header.packetNumber packet.header.typeSpecificPayload
  (res, { b with receivedAcks := acks })

end AckBuffer

/-! ### `CloseBuffer` -/

inductive CloseState where
  | active
  | peerFinReceived (finPacketNum : UInt64)
  | localFinSent (finPacketNum : UInt64)
  | closed
  deriving DecidableEq, Repr

structure CloseBuffer where
  state : CloseState
  pendingFinAckSend : Option UInt64
  receivedFinAckFor : Option UInt64
  peerFinObserved : Bool
  deriving DecidableEq, Repr

namespace CloseBuffer

def new : CloseBuffer where
  state := .active
  pendingFinAckSend := none
  receivedFinAckFor := none
  peerFinObserved := false

/-- close_handler.rs:95-128. Both branches of the crossed-Fin case set the same state. -/
def bufferInFin (b : CloseBuffer) (packet : BluefinPacket) : CloseBuffer :=
  let pn := packet.header.packetNumber
  match b.state with
  | .active => { b with
      state := .peerFinReceived pn, pendingFinAckSend := some pn, peerFinObserved := true }
  | .localFinSent _ => { b with
      state := .peerFinReceived pn, pendingFinAckSend := some pn, peerFinObserved := true }
  | .peerFinReceived finPacketNum =>
    if finPacketNum = pn then { b with pendingFinAckSend := some pn } else b
  | .closed => b

def bufferInFinAck (b : CloseBuffer) (packet : BluefinPacket) : CloseBuffer :=
  { b with receivedFinAckFor := some packet.header.packetNumber }

def takePendingFinAckSend (b : CloseBuffer) : Option UInt64 × CloseBuffer :=
  (b.pendingFinAckSend, { b with pendingFinAckSend := none })

def markClosed (b : CloseBuffer) : CloseBuffer := { b with state := .closed }

/-- close_handler.rs:170-189. -/
def recordLocalFinSent (b : CloseBuffer) (packetNumber : UInt64) : CloseBuffer :=
  match b.state with
  | .active => { b with state := .localFinSent packetNumber }
  | .peerFinReceived _ => { b with state := .localFinSent packetNumber }
  | .localFinSent _ => b
  | .closed => b

theorem bufferInFin_flag (b : CloseBuffer) (packet : BluefinPacket)
    (h : b.peerFinObserved = true) : (b.bufferInFin packet).peerFinObserved = true := by
  unfold bufferInFin
  dsimp only
  split
  · rfl
  · rfl
  · split <;> exact h
  · exact h

end CloseBuffer

/-! ### `ConnectionBuffer` -/

structure ConnectionBuffer where
  orderedBytes : OrderedBytes
  addr : Option SocketAddr
  waker : Option Waker
  packet : Option BluefinPacket
  dstConnId : UInt32
  hostType : BluefinHost
  startPacketNumberSet : Bool

namespace ConnectionBuffer

def new (srcConnId : UInt32) (hostType : BluefinHost) : ConnectionBuffer where
  orderedBytes := .new srcConnId 0x0
  addr := none
  waker := none
  packet := none
  dstConnId := 0
  hostType := hostType
  startPacketNumberSet := false

def setDstConnId (b : ConnectionBuffer) (dstConnId : UInt32) : ConnectionBuffer :=
  { b with dstConnId := dstConnId }

/-- connection.rs:121-130. -/
def bufferInAddr (b : ConnectionBuffer) (addr : SocketAddr) :
    BluefinResult Unit × ConnectionBuffer :=
  match b.addr with
  | some _ => (.err (.unexpected "Address already exists"), b)
  | none => (.ok (), { b with addr := some addr })

def bufferInBytes (b : ConnectionBuffer) (packet : BluefinPacket) :
    BluefinResult Unit × ConnectionBuffer :=
  let (res, bytes) := b.orderedBytes.bufferInPacket packet
  (res, { b with orderedBytes := bytes })

/-- connection.rs:151-158: the first handshake packet sets where data starts, two numbers further on
a server, one on a client. -/
def startNumber (hostType : BluefinHost) (packetNum : UInt64) (bytes : OrderedBytes) :
    OrderedBytes :=
  match hostType with
  | .packLeader => bytes.setStartPacketNumber (packetNum + 2)
  | .client => bytes.setStartPacketNumber (packetNum + 1)
  | .packFollower => bytes

/-- connection.rs:138-161. -/
def bufferInPacket (b : ConnectionBuffer) (packet : BluefinPacket) :
    BluefinResult Unit × ConnectionBuffer :=
  match b.packet with
  | some _ => (.err (.bufferFullError
      "Buffer already contains a packet. Could not buffer another packet."), b)
  | none =>
    let packetNum := packet.header.packetNumber
    let b := { b with packet := some packet }
    if b.startPacketNumberSet then (.ok (), b)
    else (.ok (), { b with
      orderedBytes := startNumber b.hostType packetNum b.orderedBytes
      startPacketNumberSet := true })

def noAddr : BluefinError := .unexpected "Cannot consume buffer because addr is field is none"

/-- connection.rs:164-177: the result, the buffer object and the caller's slice. -/
def consume (b : ConnectionBuffer) (bytesToRead : ℕ) (buf : Bytes) :
    BluefinResult (ConsumeResult × SocketAddr) × (ConnectionBuffer × Bytes) :=
  match b.addr with
  | none => (.err noAddr, b, buf)
  | some addr =>
    let (res, bytes, buf) := b.orderedBytes.consume bytesToRead buf
    (res.map (·, addr), { b with orderedBytes := bytes }, buf)

/-- connection.rs:183-196: the result, the buffer object and the caller's vector. -/
def consumeBytes (b : ConnectionBuffer) (out : List Bytes) (maxPackets : ℕ) :
    BluefinResult (ConsumeResult × SocketAddr) × (ConnectionBuffer × List Bytes) :=
  match b.addr with
  | none => (.err noAddr, b, out)
  | some addr =>
    let (res, bytes, out) := b.orderedBytes.consumeBytes out maxPackets
    (res.map (·, addr), { b with orderedBytes := bytes }, out)

theorem consume_of_addr {b : ConnectionBuffer} {addr : SocketAddr} (h : b.addr = some addr)
    (bytesToRead : ℕ) (buf : Bytes) :
    b.consume bytesToRead buf =
      ((b.orderedBytes.consume bytesToRead buf).1.map (·, addr),
        { b with orderedBytes := (b.orderedBytes.consume bytesToRead buf).2.1 },
        (b.orderedBytes.consume bytesToRead buf).2.2) := by
  unfold consume
  split
  · rename_i hnone
    rw [hnone] at h
    cases h
  · rename_i addr' hsome
    rw [hsome] at h
    cases h
    rfl

theorem consumeBytes_of_addr {b : ConnectionBuffer} {addr : SocketAddr} (h : b.addr = some addr)
    (out : List Bytes) (maxPackets : ℕ) :
    b.consumeBytes out maxPackets =
      ((b.orderedBytes.consumeBytes out maxPackets).1.map (·, addr),
        { b with orderedBytes := (b.orderedBytes.consumeBytes out maxPackets).2.1 },
        (b.orderedBytes.consumeBytes out maxPackets).2.2) := by
  unfold consumeBytes
  split
  · rename_i hnone
    rw [hnone] at h
    cases h
  · rename_i addr' hsome
    rw [hsome] at h
    cases h
    rfl

def peek (b : ConnectionBuffer) : BluefinResult Unit :=
  match b.addr with
  | none => .err noAddr
  | some _ => b.orderedBytes.peek

/-- In `set_waker_if_changed`, keeping an equal waker and storing it are the same. -/
def setWakerIfChanged (b : ConnectionBuffer) (waker : Waker) : ConnectionBuffer :=
  { b with waker := some waker }

end ConnectionBuffer

/-! ### All of them -/

abbrev finAckChannelBound : ℕ := 8

/-- The channel `finAckTx` is `None` during the handshake; else it is the queue of packet numbers
for which a FinAck is to be sent. -/
structure ConnectionManagedBuffers where
  connBuff : ConnectionBuffer
  ackBuff : AckBuffer
  closeBuff : CloseBuffer
  finAckTx : Option (List UInt64)

end Bluefin
