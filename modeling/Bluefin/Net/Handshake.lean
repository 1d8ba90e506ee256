import Bluefin.Worker.ReaderTx
import Bluefin.Worker.Writer

/-!
# The handshake (net/client.rs, net/server.rs)

One `connect()` and one `accept()`, the reader workers of both hosts and the
network between them. `connect` and `accept` are program counters; a step ends
where another task can come in between: at an `await`, and around each access
to the connection manager, to the hello state and to a buffer. A host has any
number of workers, each with at most one datagram in hand.
-/

namespace Bluefin
open Base

/-- net/mod.rs:273-284. `BluefinSecurityFields::new(false, 0x0)` is the default. -/
def buildEmptyEncryptedPacket (srcConnId dstConnId : UInt32) (packetNumber : UInt64)
    (packetType : PacketType) : BluefinPacket where
  header := (BluefinHeader.new srcConnId dstConnId packetType 0x0 .default).withPacketNumber
    packetNumber
  payload := []

/-- connection.rs:71-83. The packet is taken before the address is looked at. -/
def ConnectionBuffer.pollHandshake (b : ConnectionBuffer) (waker : Waker) :
    Option (BluefinPacket × SocketAddr) × ConnectionBuffer :=
  match b.packet, b.addr with
  | some packet, some addr => (some (packet, addr), { b with packet := none })
  | _, _ => (none, { b with packet := none }.setWakerIfChanged waker)

abbrev Hello := BluefinPacket × SocketAddr

/-- server.rs:111-124. -/
def BluefinServer.popHelloOrPushSlot (state : HelloState) (srcConnId : UInt32) :
    Option Hello × HelloState :=
  match state.helloQueue with
  | hello :: queue => (some hello, { state with helloQueue := queue })
  | [] => (none, { state with pendingAcceptIds := state.pendingAcceptIds ++ [srcConnId] })

namespace Host

/-- No entry refers to the store yet, so what it holds is of no account. -/
def new : Host where
  connManager := fun _ => none
  buffers := fun _ => ⟨.new 0 .client, .new 0, .new, none⟩
  helloState := ⟨[], []⟩

/-- As in `DashMap::insert`, with whether the key had an entry. -/
def insert (host : Host) (key : ConnKey) (ref : BufferRef) : Bool × Host :=
  ((host.connManager key).isSome,
    { host with connManager := Function.update host.connManager key (some ref) })

def remove (host : Host) (key : ConnKey) : Bool × Host :=
  ((host.connManager key).isSome,
    { host with connManager := Function.update host.connManager key none })

def store (host : Host) (ref : BufferRef) (buffers : ConnectionManagedBuffers) : Host :=
  { host with buffers := Function.update host.buffers ref buffers }

def setConnBuff (host : Host) (ref : BufferRef) (b : ConnectionBuffer) : Host :=
  host.store ref { host.buffers ref with connBuff := b }

theorem insert_frame {host host' : Host} {key : ConnKey} {ref : BufferRef} {had : Bool}
    (h : host.insert key ref = (had, host')) :
    host'.buffers = host.buffers ∧ host'.helloState = host.helloState := by
  cases h
  exact ⟨rfl, rfl⟩

theorem remove_frame {host host' : Host} {key : ConnKey} {had : Bool}
    (h : host.remove key = (had, host')) :
    host'.buffers = host.buffers ∧ host'.helloState = host.helloState := by
  cases h
  exact ⟨rfl, rfl⟩

theorem store_buffers (host : Host) (ref : BufferRef) (b : ConnectionManagedBuffers) :
    (host.store ref b).buffers ref = b := by
  simp [store]

theorem setConnBuff_buffers (host : Host) (ref : BufferRef) (b : ConnectionBuffer) :
    (host.setConnBuff ref b).buffers ref = { host.buffers ref with connBuff := b } :=
  host.store_buffers ref _

end Host

/-- What `BluefinConnection::new` is given, apart from the shared buffers. -/
structure BluefinConnection where
  srcConnId : UInt32
  dstConnId : UInt32
  nextSendPacketNum : UInt64
  deriving DecidableEq, Repr

/-- connection.rs:315-320: the writer it starts. -/
def BluefinConnection.writer (c : BluefinConnection) : Writer.State :=
  Writer.init c.nextSendPacketNum

namespace Handshake

/-- What the two calls draw at random, and the addresses of the two sockets. -/
structure Setup where
  clientConnId : UInt32
  serverConnId : UInt32
  clientPacketNumber : UInt64
  serverPacketNumber : UInt64
  clientAddr : SocketAddr
  serverAddr : SocketAddr

inductive ConnectPc where
  | start
  | registered
  | waiting
  | gotHello (serverHello : BluefinPacket)
  | removed (dstConnId : UInt32)
  | inserted (dstConnId : UInt32)
  | done (conn : BluefinConnection)
  | failed (e : BluefinError)

inductive AcceptPc where
  | start
  | registered
  | waiting
  | gotHello (packet : BluefinPacket) (addr : SocketAddr)
  | removed (dstConnId : UInt32) (clientPacketNum : UInt64) (addr : SocketAddr)
  | inserted (dstConnId : UInt32) (clientPacketNum : UInt64) (addr : SocketAddr)
  | awaitAck (dstConnId : UInt32) (clientPacketNum : UInt64)
  | done (conn : BluefinConnection)
  | failed (e : BluefinError)

/-- A host and the datagrams its workers hold: before the lookup of the connection, or with the
buffers that it found. -/
structure Side where
  host : Host
  inHand : List (ReaderTxChannel.Delivery × Option BufferRef)

structure State where
  client : Side
  connect : ConnectPc
  server : Side
  accept : AcceptPc
  -- every datagram sent so far; a delivery does not take one away
  toServer : List Bytes
  toClient : List Bytes

def init : State where
  client := ⟨.new, []⟩
  connect := .start
  server := ⟨.new, []⟩
  accept := .start
  toServer := []
  toClient := []

/-- The buffers of the one connection of each host, and the task that waits. -/
abbrev connRef : BufferRef := 0
abbrev callWaker : Waker := 0

def newBuffers (srcConnId : UInt32) (hostType : BluefinHost) (firstSent : UInt64) :
    ConnectionManagedBuffers where
  connBuff := .new srcConnId hostType
  ackBuff := .new firstSent
  closeBuff := .new
  finAckTx := none

def State.atConnect (st : State) (host : Host) (pc : ConnectPc) : State :=
  { st with client := { st.client with host := host }, connect := pc }

def State.atAccept (st : State) (host : Host) (pc : AcceptPc) : State :=
  { st with server := { st.server with host := host }, accept := pc }

@[simp] theorem State.atAccept_accept (st : State) (host : Host) (pc : AcceptPc) :
    (st.atAccept host pc).accept = pc := rfl

/-! ### The two calls -/

section

variable (ref : BufferRef) (srcConnId : UInt32) (packetNumber : UInt64)

/-- server.rs:82-180, with the call's buffers at `ref`. The sums wrap as in a release build. -/
def acceptCall (host : Host) : AcceptPc → Option (Host × AcceptPc)
  | .start =>
    let buffers := newBuffers srcConnId .packLeader (packetNumber + 1)
    match (host.store ref buffers).insert (srcConnId, 0) ref with
    | (true, host) => some (host, .failed .connectionAlreadyExists)
    | (false, host) => some (host, .registered)
  | .registered =>
    match BluefinServer.popHelloOrPushSlot host.helloState srcConnId with
    | (some (packet, addr), state) => some ({ host with helloState := state }, .gotHello packet addr)
    | (none, state) => some ({ host with helloState := state }, .waiting)
  | .waiting =>
    match (host.buffers ref).connBuff.pollHandshake callWaker with
    | (none, b) => some (host.setConnBuff ref b, .waiting)
    | (some (packet, addr), b) => some (host.setConnBuff ref b, .gotHello packet addr)
  | .gotHello packet addr =>
    if packet.header.packetNumber = 0 then some (host, .failed .unexpectedPacketNumberError)
    else match host.remove (srcConnId, 0) with
      | (false, host) => some (host, .failed .noSuchConnectionError)
      | (true, host) => some (host,
          .removed packet.header.sourceConnectionId packet.header.packetNumber addr)
  | .removed dstConnId clientPacketNum addr =>
    match host.insert (srcConnId, dstConnId) ref with
    | (true, host) => some (host, .failed .connectionAlreadyExists)
    | (false, host) => some (host, .inserted dstConnId clientPacketNum addr)
  | .inserted dstConnId clientPacketNum _ => some (host, .awaitAck dstConnId clientPacketNum)
  | .awaitAck dstConnId clientPacketNum =>
    match (host.buffers ref).connBuff.pollHandshake callWaker with
    | (none, b) => some (host.setConnBuff ref b, .awaitAck dstConnId clientPacketNum)
    | (some (clientAck, _), b) =>
      if clientAck.header.packetNumber ≠ clientPacketNum + 1 then
        some (host.setConnBuff ref b, .failed .unexpectedPacketNumberError)
      else some (host.setConnBuff ref b, .done ⟨srcConnId, dstConnId, packetNumber + 1⟩)
  | .done _ | .failed _ => none

/-- client.rs:84-174. -/
def connectCall (host : Host) : ConnectPc → Option (Host × ConnectPc)
  | .start =>
    let buffers := newBuffers srcConnId .client (packetNumber + 2)
    match (host.store ref buffers).insert (srcConnId, 0) ref with
    | (true, host) => some (host, .failed .connectionAlreadyExists)
    | (false, host) => some (host, .registered)
  | .registered => some (host, .waiting)
  | .waiting =>
    match (host.buffers ref).connBuff.pollHandshake callWaker with
    | (none, b) => some (host.setConnBuff ref b, .waiting)
    | (some (packet, _), b) => some (host.setConnBuff ref b, .gotHello packet)
  | .gotHello serverHello =>
    if serverHello.header.packetNumber = 0x0 then some (host, .failed .unexpectedPacketNumberError)
    else match host.remove (srcConnId, 0) with
      | (false, host) => some (host, .failed .noSuchConnectionError)
      | (true, host) => some (host, .removed serverHello.header.sourceConnectionId)
  | .removed dstConnId =>
    match host.insert (srcConnId, dstConnId) ref with
    | (true, host) => some (host, .failed .connectionAlreadyExists)
    | (false, host) => some (host, .inserted dstConnId)
  | .inserted dstConnId => some (host, .done ⟨srcConnId, dstConnId, packetNumber + 2⟩)
  | .done _ | .failed _ => none

/-- server.rs:147-158: the ServerHello, with the address it goes to. -/
def acceptSends : AcceptPc → List (SocketAddr × Bytes)
  | .inserted dstConnId _ addr => [(addr, (buildEmptyEncryptedPacket srcConnId dstConnId
      packetNumber .unencryptedServerHello).serialise)]
  | _ => []

/-- client.rs:115-126 and client.rs:149-160. -/
def connectSends : ConnectPc → List Bytes
  | .registered => [(buildEmptyEncryptedPacket srcConnId 0x0 packetNumber
      .unencryptedClientHello).serialise]
  | .inserted dstConnId => [(buildEmptyEncryptedPacket srcConnId dstConnId (packetNumber + 1)
      .clientAck).serialise]
  | _ => []

end

def connectStep (P : Setup) (st : State) : Option State :=
  (connectCall connRef P.clientConnId P.clientPacketNumber st.client.host st.connect).map
    fun (host, pc) => { st.atConnect host pc with
      toServer := st.toServer ++ connectSends P.clientConnId P.clientPacketNumber st.connect }

def acceptStep (P : Setup) (st : State) : Option State :=
  let sent := acceptSends P.serverConnId P.serverPacketNumber st.accept
  (acceptCall connRef P.serverConnId P.serverPacketNumber st.server.host st.accept).map
    fun (host, pc) => { st.atAccept host pc with
      toClient := st.toClient ++ (sent.filter (·.1 = P.clientAddr)).map Prod.snd }

theorem connectStep_eq {P : Setup} {st : State} {host : Host} {pc : ConnectPc}
    (hcall : connectCall connRef P.clientConnId P.clientPacketNumber st.client.host st.connect =
      some (host, pc))
    (hsends : connectSends P.clientConnId P.clientPacketNumber st.connect = []) :
    connectStep P st = some (st.atConnect host pc) := by
  rw [connectStep, hcall, hsends, List.append_nil]
  rfl

theorem acceptStep_eq {P : Setup} {st : State} {host : Host} {pc : AcceptPc}
    (hcall : acceptCall connRef P.serverConnId P.serverPacketNumber st.server.host st.accept =
      some (host, pc))
    (hsends : acceptSends P.serverConnId P.serverPacketNumber st.accept = []) :
    acceptStep P st = some (st.atAccept host pc) := by
  simp only [acceptStep, hcall, hsends, List.filter_nil, List.map_nil, List.append_nil]
  rfl

def handshakeTimedOut : BluefinError :=
  .timedOut "Failed to read from handshake connection buffer"

/-! ### The reader workers -/

inductive WorkerAction where
  | receive (datagram : Bytes)
  | lookup (i : ℕ)
  | buffer (i : ℕ)

/-- One of the parts of `ReaderTxChannel::run`, for a datagram that the peer at `addr` has sent. A
worker that ends or unwinds changes nothing. -/
def workerStep (hostType : BluefinHost) (sent : List Bytes) (addr : SocketAddr) (side : Side) :
    WorkerAction → Option Side
  | .receive datagram =>
    if datagram ∈ sent then
      match ReaderTxChannel.receive hostType side.host.helloState datagram addr with
      | .goOn (state, none) => some { side with host := { side.host with helloState := state } }
      | .goOn (state, some d) => some {
          host := { side.host with helloState := state }
          inHand := side.inHand ++ [(d, none)] }
      | .ended _ | .crashed _ => none
    else none
  | .lookup i =>
    match side.inHand[i]? with
    | some (d, none) =>
      match side.host.connManager d.key with
      | none => some { side with inHand := side.inHand.eraseIdx i }
      | some ref => some { side with inHand := side.inHand.set i (d, some ref) }
    | _ => none
  | .buffer i =>
    match side.inHand[i]? with
    | some (d, some ref) => some {
        host := ReaderTxChannel.buffer hostType side.host d ref
        inHand := side.inHand.eraseIdx i }
    | _ => none

inductive Action where
  | connect
  | connectTimeout
  | accept
  | acceptTimeout
  | atClient (act : WorkerAction)
  | atServer (act : WorkerAction)

def step (P : Setup) (st : State) : Action → Option State
  | .connect => connectStep P st
  | .connectTimeout => match st.connect with
    | .waiting => some { st with connect := .failed handshakeTimedOut }
    | _ => none
  | .accept => acceptStep P st
  | .acceptTimeout => match st.accept with
    | .awaitAck _ _ => some { st with accept := .failed handshakeTimedOut }
    | _ => none
  | .atClient act => (workerStep .client st.toClient P.serverAddr st.client act).map
      fun side => { st with client := side }
  | .atServer act => (workerStep .packLeader st.toServer P.clientAddr st.server act).map
      fun side => { st with server := side }

/-- The steps that meet a condition on the state before them. -/
def StepWhen (P : Setup) (allowed : State → Action → Prop) (st : State) (act : Action)
    (st' : State) : Prop :=
  allowed st act ∧ step P st act = some st'

/-! ### What one step can do -/

section

variable (ref : BufferRef) (srcConnId : UInt32) (packetNumber : UInt64) (host : Host)

/-- The steps of `connect()` on a host. -/
inductive ConnectCallMoves : ConnectPc → Host → ConnectPc → Prop
  | opens {had : Bool} {host' : Host} {pc : ConnectPc}
      (hins : (host.store ref (newBuffers srcConnId .client (packetNumber + 2))).insert
        (srcConnId, 0) ref = (had, host'))
      (hnext : pc = .registered ∨ ∃ e, pc = .failed e) : ConnectCallMoves .start host' pc
  | greets : ConnectCallMoves .registered host .waiting
  | pends {b : ConnectionBuffer}
      (hpoll : (host.buffers ref).connBuff.pollHandshake callWaker = (none, b)) :
      ConnectCallMoves .waiting (host.setConnBuff ref b) .waiting
  | reads {packet : BluefinPacket} {addr : SocketAddr} {b : ConnectionBuffer}
      (hpoll : (host.buffers ref).connBuff.pollHandshake callWaker = (some (packet, addr), b)) :
      ConnectCallMoves .waiting (host.setConnBuff ref b) (.gotHello packet)
  | unnumbered {serverHello : BluefinPacket} {e : BluefinError} :
      ConnectCallMoves (.gotHello serverHello) host (.failed e)
  | unlisted {serverHello : BluefinPacket} {host' : Host} {e : BluefinError}
      (hrem : host.remove (srcConnId, 0) = (false, host')) :
      ConnectCallMoves (.gotHello serverHello) host' (.failed e)
  | removes {serverHello : BluefinPacket} {host' : Host}
      (hrem : host.remove (srcConnId, 0) = (true, host')) :
      ConnectCallMoves (.gotHello serverHello) host'
        (.removed serverHello.header.sourceConnectionId)
  | collides {dst : UInt32} {host' : Host} {e : BluefinError}
      (hins : host.insert (srcConnId, dst) ref = (true, host')) :
      ConnectCallMoves (.removed dst) host' (.failed e)
  | inserts {dst : UInt32} {host' : Host}
      (hins : host.insert (srcConnId, dst) ref = (false, host')) :
      ConnectCallMoves (.removed dst) host' (.inserted dst)
  | acks {dst : UInt32} :
      ConnectCallMoves (.inserted dst) host (.done ⟨srcConnId, dst, packetNumber + 2⟩)

/-- The steps of `accept()` on a host. -/
inductive AcceptCallMoves : AcceptPc → Host → AcceptPc → Prop
  | opens {had : Bool} {host' : Host} {pc : AcceptPc}
      (hins : (host.store ref (newBuffers srcConnId .packLeader (packetNumber + 1))).insert
        (srcConnId, 0) ref = (had, host'))
      (hnext : pc = .registered ∨ ∃ e, pc = .failed e) : AcceptCallMoves .start host' pc
  | pops {packet : BluefinPacket} {addr : SocketAddr} {queue : List Hello}
      (hqueue : host.helloState.helloQueue = (packet, addr) :: queue) :
      AcceptCallMoves .registered
        { host with helloState := { host.helloState with helloQueue := queue } }
        (.gotHello packet addr)
  | slots (hqueue : host.helloState.helloQueue = []) : AcceptCallMoves .registered
      { host with helloState := { host.helloState with
          pendingAcceptIds := host.helloState.pendingAcceptIds ++ [srcConnId] } } .waiting
  | pends {b : ConnectionBuffer}
      (hpoll : (host.buffers ref).connBuff.pollHandshake callWaker = (none, b)) :
      AcceptCallMoves .waiting (host.setConnBuff ref b) .waiting
  | reads {packet : BluefinPacket} {addr : SocketAddr} {b : ConnectionBuffer}
      (hpoll : (host.buffers ref).connBuff.pollHandshake callWaker = (some (packet, addr), b)) :
      AcceptCallMoves .waiting (host.setConnBuff ref b) (.gotHello packet addr)
  | unnumbered {packet : BluefinPacket} {addr : SocketAddr} {e : BluefinError} :
      AcceptCallMoves (.gotHello packet addr) host (.failed e)
  | unlisted {packet : BluefinPacket} {addr : SocketAddr} {host' : Host} {e : BluefinError}
      (hrem : host.remove (srcConnId, 0) = (false, host')) :
      AcceptCallMoves (.gotHello packet addr) host' (.failed e)
  | removes {packet : BluefinPacket} {addr : SocketAddr} {host' : Host}
      (hrem : host.remove (srcConnId, 0) = (true, host')) :
      AcceptCallMoves (.gotHello packet addr) host'
        (.removed packet.header.sourceConnectionId packet.header.packetNumber addr)
  | collides {dst : UInt32} {num : UInt64} {addr : SocketAddr} {host' : Host} {e : BluefinError}
      (hins : host.insert (srcConnId, dst) ref = (true, host')) :
      AcceptCallMoves (.removed dst num addr) host' (.failed e)
  | inserts {dst : UInt32} {num : UInt64} {addr : SocketAddr} {host' : Host}
      (hins : host.insert (srcConnId, dst) ref = (false, host')) :
      AcceptCallMoves (.removed dst num addr) host' (.inserted dst num addr)
  | answers {dst : UInt32} {num : UInt64} {addr : SocketAddr} :
      AcceptCallMoves (.inserted dst num addr) host (.awaitAck dst num)
  | awaits {dst : UInt32} {num : UInt64} {b : ConnectionBuffer}
      (hpoll : (host.buffers ref).connBuff.pollHandshake callWaker = (none, b)) :
      AcceptCallMoves (.awaitAck dst num) (host.setConnBuff ref b) (.awaitAck dst num)
  | refuses {dst : UInt32} {num : UInt64} {clientAck : BluefinPacket} {addr : SocketAddr}
      {b : ConnectionBuffer} {e : BluefinError}
      (hpoll : (host.buffers ref).connBuff.pollHandshake callWaker =
        (some (clientAck, addr), b)) :
      AcceptCallMoves (.awaitAck dst num) (host.setConnBuff ref b) (.failed e)
  | finishes {dst : UInt32} {num : UInt64} {clientAck : BluefinPacket} {addr : SocketAddr}
      {b : ConnectionBuffer}
      (hpoll : (host.buffers ref).connBuff.pollHandshake callWaker =
        (some (clientAck, addr), b)) :
      AcceptCallMoves (.awaitAck dst num) (host.setConnBuff ref b)
        (.done ⟨srcConnId, dst, packetNumber + 1⟩)

end

section

variable {ref : BufferRef} {srcConnId : UInt32} {packetNumber : UInt64} {host host' : Host}

theorem connectCall_moves {pc pc' : ConnectPc}
    (h : connectCall ref srcConnId packetNumber host pc = some (host', pc')) :
    ConnectCallMoves ref srcConnId packetNumber host pc host' pc' := by
  cases pc with
  | start =>
    simp only [connectCall] at h
    split at h <;> cases h
    · rename_i hins
      exact .opens hins (.inr ⟨_, rfl⟩)
    · rename_i hins
      exact .opens hins (.inl rfl)
  | registered =>
    cases h
    exact .greets
  | waiting =>
    simp only [connectCall] at h
    split at h <;> cases h
    · rename_i hpoll
      exact .pends hpoll
    · rename_i hpoll
      exact .reads hpoll
  | gotHello serverHello =>
    simp only [connectCall] at h
    split at h
    · cases h
      exact .unnumbered
    · split at h <;> cases h
      · rename_i hrem
        exact .unlisted hrem
      · rename_i hrem
        exact .removes hrem
  | removed dst =>
    simp only [connectCall] at h
    split at h <;> cases h
    · rename_i hins
      exact .collides hins
    · rename_i hins
      exact .inserts hins
  | inserted dst =>
    cases h
    exact .acks
  | done | failed => cases h

theorem acceptCall_moves {pc pc' : AcceptPc}
    (h : acceptCall ref srcConnId packetNumber host pc = some (host', pc')) :
    AcceptCallMoves ref srcConnId packetNumber host pc host' pc' := by
  cases pc with
  | start =>
    simp only [acceptCall] at h
    split at h <;> cases h
    · rename_i hins
      exact .opens hins (.inr ⟨_, rfl⟩)
    · rename_i hins
      exact .opens hins (.inl rfl)
  | registered =>
    simp only [acceptCall, BluefinServer.popHelloOrPushSlot] at h
    cases hqueue : host.helloState.helloQueue with
    | cons hello queue =>
      simp only [hqueue] at h
      cases h
      exact .pops hqueue
    | nil =>
      simp only [hqueue] at h
      cases h
      have hmove := @AcceptCallMoves.slots ref srcConnId packetNumber host hqueue
      dsimp only at hmove
      rwa [hqueue] at hmove
  | waiting =>
    simp only [acceptCall] at h
    split at h <;> cases h
    · rename_i hpoll
      exact .pends hpoll
    · rename_i hpoll
      exact .reads hpoll
  | gotHello packet addr =>
    simp only [acceptCall] at h
    split at h
    · cases h
      exact .unnumbered
    · split at h <;> cases h
      · rename_i hrem
        exact .unlisted hrem
      · rename_i hrem
        exact .removes hrem
  | removed dst num addr =>
    simp only [acceptCall] at h
    split at h <;> cases h
    · rename_i hins
      exact .collides hins
    · rename_i hins
      exact .inserts hins
  | inserted dst num addr =>
    cases h
    exact .answers
  | awaitAck dst num =>
    simp only [acceptCall] at h
    split at h
    · cases h
      rename_i hpoll
      exact .awaits hpoll
    · rename_i hpoll
      split at h <;> cases h
      · exact .refuses hpoll
      · exact .finishes hpoll
  | done | failed => cases h

end

section

variable (P : Setup) (st : State)

inductive ConnectMoves : State → Prop
  | opens {host : Host} {pc : ConnectPc} (hpc : st.connect = .start)
      (hnew : host.buffers connRef =
        newBuffers P.clientConnId .client (P.clientPacketNumber + 2))
      (hnext : pc = .registered ∨ ∃ e, pc = .failed e) : ConnectMoves (st.atConnect host pc)
  | greets (hpc : st.connect = .registered) :
      ConnectMoves { st with
        connect := .waiting
        toServer := st.toServer ++ [(buildEmptyEncryptedPacket P.clientConnId 0x0
          P.clientPacketNumber .unencryptedClientHello).serialise] }
  | pends {b : ConnectionBuffer} (hpc : st.connect = .waiting)
      (hpoll : (st.client.host.buffers connRef).connBuff.pollHandshake callWaker = (none, b)) :
      ConnectMoves (st.atConnect (st.client.host.setConnBuff connRef b) .waiting)
  | reads {packet : BluefinPacket} {addr : SocketAddr} {b : ConnectionBuffer}
      (hpc : st.connect = .waiting)
      (hpoll : (st.client.host.buffers connRef).connBuff.pollHandshake callWaker =
        (some (packet, addr), b)) :
      ConnectMoves (st.atConnect (st.client.host.setConnBuff connRef b) (.gotHello packet))
  | fails {host : Host} {e : BluefinError} (hpc : st.connect ≠ .start)
      (hsame : host.buffers = st.client.host.buffers) :
      ConnectMoves (st.atConnect host (.failed e))
  | removes {serverHello : BluefinPacket} {host : Host} (hpc : st.connect = .gotHello serverHello)
      (hsame : host.buffers = st.client.host.buffers) :
      ConnectMoves (st.atConnect host (.removed serverHello.header.sourceConnectionId))
  | inserts {dstConnId : UInt32} {host : Host} (hpc : st.connect = .removed dstConnId)
      (hsame : host.buffers = st.client.host.buffers) :
      ConnectMoves (st.atConnect host (.inserted dstConnId))
  | acks {dstConnId : UInt32} (hpc : st.connect = .inserted dstConnId) :
      ConnectMoves { st with
        connect := .done ⟨P.clientConnId, dstConnId, P.clientPacketNumber + 2⟩
        toServer := st.toServer ++ [(buildEmptyEncryptedPacket P.clientConnId dstConnId
          (P.clientPacketNumber + 1) .clientAck).serialise] }

/-- Only the locked section touches the hello state (`hstate`). -/
inductive AcceptMoves : State → Prop
  | opens {host : Host} {pc : AcceptPc} (hpc : st.accept = .start)
      (hnew : host.buffers connRef =
        newBuffers P.serverConnId .packLeader (P.serverPacketNumber + 1))
      (hstate : host.helloState = st.server.host.helloState)
      (hnext : pc = .registered ∨ ∃ e, pc = .failed e) : AcceptMoves (st.atAccept host pc)
  | pops {packet : BluefinPacket} {addr : SocketAddr} {queue : List (BluefinPacket × SocketAddr)}
      (hpc : st.accept = .registered)
      (hqueue : st.server.host.helloState.helloQueue = (packet, addr) :: queue) :
      AcceptMoves (st.atAccept { st.server.host with
        helloState := { st.server.host.helloState with helloQueue := queue } }
        (.gotHello packet addr))
  | slots (hpc : st.accept = .registered)
      (hqueue : st.server.host.helloState.helloQueue = []) :
      AcceptMoves (st.atAccept { st.server.host with
        helloState := { st.server.host.helloState with
          pendingAcceptIds := st.server.host.helloState.pendingAcceptIds ++ [P.serverConnId] } }
        .waiting)
  | pends {b : ConnectionBuffer}
      (hpc : st.accept = .waiting ∨ ∃ dst num, st.accept = .awaitAck dst num)
      (hpoll : (st.server.host.buffers connRef).connBuff.pollHandshake callWaker = (none, b)) :
      AcceptMoves (st.atAccept (st.server.host.setConnBuff connRef b) st.accept)
  | reads {packet : BluefinPacket} {addr : SocketAddr} {b : ConnectionBuffer}
      (hpc : st.accept = .waiting)
      (hpoll : (st.server.host.buffers connRef).connBuff.pollHandshake callWaker =
        (some (packet, addr), b)) :
      AcceptMoves (st.atAccept (st.server.host.setConnBuff connRef b) (.gotHello packet addr))
  | fails {host : Host} {e : BluefinError}
      (hpc : st.accept ≠ .start ∧ st.accept ≠ .registered ∧ st.accept ≠ .waiting)
      (hsame : host.buffers = st.server.host.buffers)
      (hstate : host.helloState = st.server.host.helloState) :
      AcceptMoves (st.atAccept host (.failed e))
  | removes {packet : BluefinPacket} {addr : SocketAddr} {host : Host}
      (hpc : st.accept = .gotHello packet addr)
      (hsame : host.buffers = st.server.host.buffers)
      (hstate : host.helloState = st.server.host.helloState) :
      AcceptMoves (st.atAccept host
        (.removed packet.header.sourceConnectionId packet.header.packetNumber addr))
  | inserts {dst : UInt32} {num : UInt64} {addr : SocketAddr} {host : Host}
      (hpc : st.accept = .removed dst num addr)
      (hsame : host.buffers = st.server.host.buffers)
      (hstate : host.helloState = st.server.host.helloState) :
      AcceptMoves (st.atAccept host (.inserted dst num addr))
  | answers {dst : UInt32} {num : UInt64} {addr : SocketAddr} {sent : List Bytes}
      (hpc : st.accept = .inserted dst num addr)
      (hsent : sent = st.toClient ∨ sent = st.toClient ++ [(buildEmptyEncryptedPacket
        P.serverConnId dst P.serverPacketNumber .unencryptedServerHello).serialise]) :
      AcceptMoves { st with accept := .awaitAck dst num, toClient := sent }
  | refuses {dst : UInt32} {num : UInt64} {clientAck : BluefinPacket} {addr : SocketAddr}
      {b : ConnectionBuffer} {e : BluefinError} (hpc : st.accept = .awaitAck dst num)
      (hpoll : (st.server.host.buffers connRef).connBuff.pollHandshake callWaker =
        (some (clientAck, addr), b)) :
      AcceptMoves (st.atAccept (st.server.host.setConnBuff connRef b) (.failed e))
  | finishes {dst : UInt32} {num : UInt64} {clientAck : BluefinPacket} {addr : SocketAddr}
      {b : ConnectionBuffer} (hpc : st.accept = .awaitAck dst num)
      (hpoll : (st.server.host.buffers connRef).connBuff.pollHandshake callWaker =
        (some (clientAck, addr), b)) :
      AcceptMoves (st.atAccept (st.server.host.setConnBuff connRef b)
        (.done ⟨P.serverConnId, dst, P.serverPacketNumber + 1⟩))

end

section

variable (hostType : BluefinHost) (sent : List Bytes) (addr : SocketAddr) (side : Side)

inductive WorkerMoves : Side → Prop
  | keeps {datagram : Bytes} {state : HelloState} (hsent : datagram ∈ sent)
      (hrecv : ReaderTxChannel.receive hostType side.host.helloState datagram addr =
        .goOn (state, none)) :
      WorkerMoves { side with host := { side.host with helloState := state } }
  | takes {datagram : Bytes} {state : HelloState} {d : ReaderTxChannel.Delivery}
      (hsent : datagram ∈ sent)
      (hrecv : ReaderTxChannel.receive hostType side.host.helloState datagram addr =
        .goOn (state, some d)) :
      WorkerMoves {
        host := { side.host with helloState := state }
        inHand := side.inHand ++ [(d, none)] }
  | drops {i : ℕ} : WorkerMoves { side with inHand := side.inHand.eraseIdx i }
  | finds {i : ℕ} {d : ReaderTxChannel.Delivery} {ref : BufferRef}
      (hd : side.inHand[i]? = some (d, none)) :
      WorkerMoves { side with inHand := side.inHand.set i (d, some ref) }
  | buffers {i : ℕ} {d : ReaderTxChannel.Delivery} {ref : BufferRef}
      (hd : side.inHand[i]? = some (d, some ref)) :
      WorkerMoves {
        host := ReaderTxChannel.buffer hostType side.host d ref
        inHand := side.inHand.eraseIdx i }

end

/-- Only an `accept` step leaves the locked section. -/
inductive Moves (P : Setup) (st : State) (act : Action) : State → Prop
  | connect {st' : State} (h : ConnectMoves P st st') : Moves P st act st'
  | accept {st' : State} (h : AcceptMoves P st st')
      (hact : st.accept = .registered → act = .accept) : Moves P st act st'
  | atClient {side : Side} (h : WorkerMoves .client st.toClient P.serverAddr st.client side) :
      Moves P st act { st with client := side }
  | atServer {side : Side}
      (h : WorkerMoves .packLeader st.toServer P.clientAddr st.server side) :
      Moves P st act { st with server := side }

theorem connectStep_moves {P : Setup} {st st' : State} (h : connectStep P st = some st') :
    ConnectMoves P st st' := by
  obtain ⟨⟨host, pc⟩, hcall, hst⟩ := Option.map_eq_some_iff.mp h
  have hquiet : connectSends P.clientConnId P.clientPacketNumber st.connect = [] →
      st' = st.atConnect host pc := fun hsends =>
    Option.some.inj (h.symm.trans (connectStep_eq hcall hsends))
  have hmove := connectCall_moves hcall
  generalize hpc : st.connect = pc₀ at hmove hquiet hst
  cases hmove with
  | opens hins hnext =>
    rw [hquiet rfl]
    exact .opens hpc (by rw [(Host.insert_frame hins).1, Host.store_buffers]) hnext
  | greets =>
    rw [← hst]
    exact .greets hpc
  | pends hpoll =>
    rw [hquiet rfl]
    exact .pends hpc hpoll
  | reads hpoll =>
    rw [hquiet rfl]
    exact .reads hpc hpoll
  | unnumbered =>
    rw [hquiet rfl]
    exact .fails (by simp [hpc]) rfl
  | unlisted hrem =>
    rw [hquiet rfl]
    exact .fails (by simp [hpc]) (Host.remove_frame hrem).1
  | removes hrem =>
    rw [hquiet rfl]
    exact .removes hpc (Host.remove_frame hrem).1
  | collides hins =>
    rw [hquiet rfl]
    exact .fails (by simp [hpc]) (Host.insert_frame hins).1
  | inserts hins =>
    rw [hquiet rfl]
    exact .inserts hpc (Host.insert_frame hins).1
  | acks =>
    rw [← hst]
    exact .acks hpc

theorem acceptStep_moves {P : Setup} {st st' : State} (h : acceptStep P st = some st') :
    AcceptMoves P st st' := by
  obtain ⟨⟨host, pc⟩, hcall, hst⟩ := Option.map_eq_some_iff.mp h
  have hquiet : acceptSends P.serverConnId P.serverPacketNumber st.accept = [] →
      st' = st.atAccept host pc := fun hsends =>
    Option.some.inj (h.symm.trans (acceptStep_eq hcall hsends))
  have hmove := acceptCall_moves hcall
  generalize hpc : st.accept = pc₀ at hmove hquiet hst
  cases hmove with
  | opens hins hnext =>
    rw [hquiet rfl]
    exact .opens hpc (by rw [(Host.insert_frame hins).1, Host.store_buffers])
      (Host.insert_frame hins).2 hnext
  | pops hqueue =>
    rw [hquiet rfl]
    exact .pops hpc hqueue
  | slots hqueue =>
    rw [hquiet rfl]
    exact .slots hpc hqueue
  | pends hpoll =>
    rw [hquiet rfl, ← hpc]
    exact .pends (.inl hpc) hpoll
  | reads hpoll =>
    rw [hquiet rfl]
    exact .reads hpc hpoll
  | unnumbered =>
    rw [hquiet rfl]
    exact .fails (by simp [hpc]) rfl rfl
  | unlisted hrem =>
    rw [hquiet rfl]
    exact .fails (by simp [hpc]) (Host.remove_frame hrem).1 (Host.remove_frame hrem).2
  | removes hrem =>
    rw [hquiet rfl]
    exact .removes hpc (Host.remove_frame hrem).1 (Host.remove_frame hrem).2
  | collides hins =>
    rw [hquiet rfl]
    exact .fails (by simp [hpc]) (Host.insert_frame hins).1 (Host.insert_frame hins).2
  | inserts hins =>
    rw [hquiet rfl]
    exact .inserts hpc (Host.insert_frame hins).1 (Host.insert_frame hins).2
  | @answers dst num addr =>
    rw [← hst]
    refine .answers hpc ?_
    by_cases haddr : addr = P.clientAddr
    · exact .inr (by simp [acceptSends, haddr])
    · exact .inl (by simp [acceptSends, haddr])
  | awaits hpoll =>
    rw [hquiet rfl, ← hpc]
    exact .pends (.inr ⟨_, _, hpc⟩) hpoll
  | refuses hpoll =>
    rw [hquiet rfl]
    exact .refuses hpc hpoll
  | finishes hpoll =>
    rw [hquiet rfl]
    exact .finishes hpc hpoll

theorem workerStep_moves {hostType : BluefinHost} {sent : List Bytes} {addr : SocketAddr}
    {side side' : Side} {act : WorkerAction}
    (h : workerStep hostType sent addr side act = some side') :
    WorkerMoves hostType sent addr side side' := by
  cases act with
  | receive datagram =>
    unfold workerStep at h
    dsimp only at h
    split at h
    case isTrue hsent =>
      split at h
      · rename_i hrecv
        cases h
        exact .keeps hsent hrecv
      · rename_i hrecv
        cases h
        exact .takes hsent hrecv
      · cases h
      · cases h
    case isFalse => cases h
  | lookup i =>
    unfold workerStep at h
    dsimp only at h
    split at h
    case h_1 d hd =>
      split at h <;> cases h
      · exact .drops
      · exact .finds hd
    case h_2 => cases h
  | buffer i =>
    unfold workerStep at h
    dsimp only at h
    split at h
    case h_1 d ref hd =>
      cases h
      exact .buffers hd
    case h_2 => cases h

theorem step_moves {P : Setup} {st st' : State} {act : Action} (h : step P st act = some st') :
    Moves P st act st' := by
  cases act with
  | connect => exact .connect (connectStep_moves h)
  | connectTimeout =>
    unfold step at h
    dsimp only at h
    split at h
    case h_1 hpc =>
      cases h
      have hne : st.connect ≠ .start := by rw [hpc]; simp
      exact .connect (.fails hne rfl)
    case h_2 => cases h
  | accept => exact .accept (acceptStep_moves h) fun _ => rfl
  | acceptTimeout =>
    unfold step at h
    dsimp only at h
    split at h
    case h_1 hpc =>
      cases h
      have hlate : st.accept ≠ .start ∧ st.accept ≠ .registered ∧ st.accept ≠ .waiting := by
        rw [hpc]
        simp
      exact .accept (.fails hlate rfl rfl) fun hreg => absurd hreg hlate.2.1
    case h_2 => cases h
  | atClient act =>
    obtain ⟨side, hside, rfl⟩ := Option.map_eq_some_iff.mp h
    exact .atClient (workerStep_moves hside)
  | atServer act =>
    obtain ⟨side, hside, rfl⟩ := Option.map_eq_some_iff.mp h
    exact .atServer (workerStep_moves hside)

end Handshake

end Bluefin
