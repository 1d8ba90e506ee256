import Bluefin.Net.Delivery
import Bluefin.Worker.ConnReader

/-!
# Reading from a connection (worker/reader.rs, `ReaderRxChannel`)

A `read` or `read_bytes` call polls a future, loads the `peer_fin_observed`
flag, peeks for the end of the stream and consumes, and takes the buffer's lock
anew each time; datagrams are buffered in between. One reader with the producers
around it is a machine on the connection's buffers.
-/

namespace Bluefin
open Base

/-! ### One call (reader.rs:78-241) -/

/-- In `acksSent` are the arguments of the `send_ack` calls made so far. -/
structure ReaderRxChannel where
  packetsConsumed : ℕ
  packetsConsumedBeforeAck : ℕ
  acksSent : List (UInt64 × ℕ)
  deriving DecidableEq, Repr

namespace ReaderRxChannel

def new : ReaderRxChannel where
  packetsConsumed := 0
  packetsConsumedBeforeAck := 200
  acksSent := []

/-- The bookkeeping after a successful consume, the same in both calls. -/
def account (rx : ReaderRxChannel) (res : ConsumeResult) : ReaderRxChannel :=
  let rx := { rx with packetsConsumed := rx.packetsConsumed + res.numPacketsConsumed }
  if res.numPacketsConsumed > 0 ∧ res.basePacketNumber ≠ 0 ∧
      rx.packetsConsumed ≥ rx.packetsConsumedBeforeAck then
    { rx with
      acksSent := rx.acksSent ++ [(res.basePacketNumber, res.numPacketsConsumed)]
      packetsConsumed := 0 }
  else rx

end ReaderRxChannel

namespace Reader

inductive ReadCall where
  | read (bytesToRead : ℕ) (buf : Bytes)
  | readBytes (out : List Bytes) (maxPackets : ℕ)
  deriving DecidableEq, Repr

/-- What a call returns, and the bytes it put into the caller's slice or vector. -/
structure Reply where
  result : BluefinResult (ℕ × SocketAddr)
  bytes : Bytes
  deriving DecidableEq, Repr

/-- At `parked` the future returned `Pending`, at `crashed` the call panicked. -/
inductive Pc where
  | idle
  | polling (c : ReadCall)
  | parked (c : ReadCall)
  | resolved (c : ReadCall)
  | finSeen (c : ReadCall)
  | consuming (c : ReadCall)
  | crashed
  deriving DecidableEq, Repr

structure Task where
  rx : ReaderRxChannel
  pc : Pc
  replies : List Reply
  deriving DecidableEq, Repr

def Task.new : Task := ⟨.new, .idle, []⟩

def Task.reply (t : Task) (r : Reply) : Task :=
  { t with pc := .idle, replies := t.replies ++ [r] }

def Task.crash (t : Task) (f : Fault PanicMsg) : Task :=
  { t with pc := .crashed, replies := t.replies ++ [⟨.panicked f, []⟩] }

def Task.wake (t : Task) : Task :=
  match t.pc with
  | .parked c => { t with pc := .polling c }
  | _ => t

/-- reader.rs:78-96. -/
def poll (waker : Waker) (b : ConnectionManagedBuffers) (t : Task) (c : ReadCall) :
    ConnectionManagedBuffers × Task :=
  match b.connBuff.peek with
  | .ok _ => (b, { t with pc := .resolved c })
  | _ =>
    if b.closeBuff.peerFinObserved then (b, { t with pc := .resolved c })
    else ({ b with connBuff := b.connBuff.setWakerIfChanged waker }, { t with pc := .parked c })

/-- reader.rs:132-139: under the lock, with the flag seen set. -/
def checkEof (b : ConnectionManagedBuffers) (t : Task) (c : ReadCall) : Task :=
  match b.connBuff.peek, b.connBuff.addr with
  | .ok _, _ => { t with pc := .consuming c }
  | _, some addr => t.reply ⟨.ok (0, addr), []⟩
  | _, none => { t with pc := .consuming c }

/-- The end of a call whose consume gave `res`. -/
def Task.settle (t : Task) (res : BluefinResult (ConsumeResult × SocketAddr))
    (bytes : ConsumeResult → Bytes) : Task :=
  match res with
  | .ok (r, addr) => { t with rx := t.rx.account r }.reply ⟨.ok (r.bytesConsumed, addr), bytes r⟩
  | .err e => t.reply ⟨.err e, []⟩
  | .panicked f => t.crash f

/-- The result is unwrapped by `read`, while `read_bytes` returns an error to its caller. -/
def unwrap {α : Type} : BluefinResult α → BluefinResult α
  | .ok a => .ok a
  | .err e => .panicked (.raised (.unwrapOnErr e))
  | .panicked f => .panicked f

def finish (b : ConnectionManagedBuffers) (t : Task) : ReadCall → ConnectionManagedBuffers × Task
  | .read bytesToRead buf =>
    let (res, connBuff, buf) := b.connBuff.consume bytesToRead buf
    ({ b with connBuff := connBuff }, t.settle (unwrap res) fun r => buf.take r.bytesConsumed)
  | .readBytes out maxPackets =>
    let (res, connBuff, out') := b.connBuff.consumeBytes out maxPackets
    ({ b with connBuff := connBuff }, t.settle res fun _ => (out'.drop out.length).flatten)

/-- The next atomic step of a call. -/
def taskStep (waker : Waker) (b : ConnectionManagedBuffers) (t : Task) :
    Option (ConnectionManagedBuffers × Task) :=
  match t.pc with
  | .idle => none
  | .polling c => some (poll waker b t c)
  | .parked _ => none
  | .resolved c => some (b, { t with
      pc := if b.closeBuff.peerFinObserved then .finSeen c else .consuming c })
  | .finSeen c => some (b, checkEof b t c)
  | .consuming c => some (finish b t c)
  | .crashed => none

/-! ### One reader and its producers -/

structure State where
  bufs : ConnectionManagedBuffers
  task : Task

inductive Action where
  | arrive (packets : List BluefinPacket)
  | call (c : ReadCall)
  | task

def step (st : State) : Action → Option State
  | .arrive packets =>
    let (_, bufs, woken) := ConnReaderHandler.bufferInPackets packets st.bufs
    some { bufs := bufs, task := if woken.isSome then st.task.wake else st.task }
  | .call c => match st.task.pc with
    | .idle => some { st with task := { st.task with pc := .polling c } }
    | _ => none
  | .task => (taskStep 0 st.bufs st.task).map fun (bufs, task) => ⟨bufs, task⟩

/-! ### The peer's datagrams -/

section

variable (start : UInt64) (cs : List Bytes)

/-- The peer numbers its chunks from `start` on, and its Fin after the last. A datagram has data
packets only, or the Fin alone. -/
def PeerDatagram (packets : List BluefinPacket) : Prop :=
  (packets ≠ [] ∧ ∀ p ∈ packets, p.header.typeField = .unencryptedData ∧
    ∃ k, p.header.packetNumber.toNat = start.toNat + k ∧ cs[k]? = some p.payload) ∨
  ∃ p, packets = [p] ∧ p.header.typeField = .fin ∧
    p.header.packetNumber = start + UInt64.ofNat cs.length

def ReadCall.Valid : ReadCall → Prop
  | .read bytesToRead buf => 0 < bytesToRead ∧ bytesToRead ≤ buf.length
  | .readBytes _ maxPackets => 0 < maxPackets

/-- The packet numbered `n` was taken into the buffer. -/
def TakenIn (s : OrderedBytes) (n : ℕ) : Prop :=
  n < s.smallestPacketNumber.toNat ∨
    ∃ i p, s.slotAt i = some p ∧ p.header.packetNumber.toNat = n

/-- A call that has seen the flag and finds nothing to read does so only when every data packet of
the peer was taken in. -/
def EofSettled (st : State) : Prop :=
  (∃ c, st.task.pc = .finSeen c) → st.bufs.connBuff.peek.isOk = false →
    ∀ k, k < cs.length → TakenIn st.bufs.connBuff.orderedBytes (start.toNat + k)

/-- The peer's datagrams, in any order and number, and calls that ask for something. -/
def Permitted : Action → Prop
  | .arrive packets => PeerDatagram start cs packets
  | .call c => c.Valid
  | .task => True

def Step (st : State) (act : Action) (st' : State) : Prop :=
  Permitted start cs act ∧ (act = .task → EofSettled start cs st) ∧ step st act = some st'

end

end Reader

end Bluefin
