import Bluefin.Base.Refinement
import Bluefin.Net.HandshakeView
import Bluefin.Net.HandshakeWire

/-!
# The phases of a handshake

Over a reliable network the two hosts go through a few phases. `Phase` has them,
with the step that each action takes, and `phases_match` says that the handshake
is in one of them at any time and moves as they do. For that the ids and numbers
that were drawn have to pass the checks of the other side.
-/

namespace Bluefin
open Base

namespace Handshake

/-! ### The phases of the client -/

inductive ClientPhase where
  | start
  | registered
  | waiting
  | inHand
  | found
  | slot
  | gotHello
  | removed
  | inserted
  | done
  deriving DecidableEq, Repr

namespace ClientPhase

section

variable (P : Setup)

def pc : ClientPhase → ConnectPc
  | start => .start
  | registered => .registered
  | waiting | inHand | found | slot => .waiting
  | gotHello => .gotHello (serverHello P)
  | removed => .removed P.serverConnId
  | inserted => .inserted P.serverConnId
  | done => .done ⟨P.clientConnId, P.serverConnId, P.clientPacketNumber + 2⟩

def helloDelivery : ReaderTxChannel.Delivery :=
  ⟨true, (P.clientConnId, 0), [serverHello P], P.serverAddr⟩

def view : ClientPhase → View
  | start => ⟨false, none, [], none, false⟩
  | registered | waiting => ⟨true, some (P.clientConnId, 0), [], none, false⟩
  | inHand => ⟨true, some (P.clientConnId, 0), [(helloDelivery P, none)], none, false⟩
  | found => ⟨true, some (P.clientConnId, 0), [(helloDelivery P, some connRef)], none, false⟩
  | slot => ⟨true, some (P.clientConnId, 0), [], some (serverHello P), true⟩
  | gotHello => ⟨true, some (P.clientConnId, 0), [], none, true⟩
  | removed => ⟨true, none, [], none, true⟩
  | inserted | done => ⟨true, some (P.clientConnId, P.serverConnId), [], none, true⟩

def sent : ClientPhase → List Bytes
  | start | registered => []
  | done => [(clientHello P).serialise, (clientAck P).serialise]
  | _ => [(clientHello P).serialise]

end

def received : ClientPhase → ℕ
  | start | registered | waiting => 0
  | _ => 1

def connect : ClientPhase → Option ClientPhase
  | start => some registered
  | registered => some waiting
  | waiting => some waiting
  | inHand => some inHand
  | found => some found
  | slot => some gotHello
  | gotHello => some removed
  | removed => some inserted
  | inserted => some done
  | done => none

def receive : ClientPhase → Option ClientPhase
  | waiting => some inHand
  | _ => none

def lookup : ClientPhase → Option ClientPhase
  | inHand => some found
  | _ => none

def buffer : ClientPhase → Option ClientPhase
  | found => some slot
  | _ => none

end ClientPhase

/-! ### The phases of the server -/

/-- From `gotHello` on, `slotted` says whether the hello came through the slot. -/
inductive ServerPhase where
  | start
  | startQueued
  | registered
  | registeredQueued
  | waiting
  | inHand
  | found
  | slot
  | gotHello (slotted : Bool)
  | removed (slotted : Bool)
  | inserted (slotted : Bool)
  | awaitAck (slotted : Bool)
  | ackInHand (slotted : Bool)
  | ackFound (slotted : Bool)
  | ackSlot
  | done
  deriving DecidableEq, Repr

namespace ServerPhase

section

variable (P : Setup)

def pc : ServerPhase → AcceptPc
  | start | startQueued => .start
  | registered | registeredQueued => .registered
  | waiting | inHand | found | slot => .waiting
  | gotHello _ => .gotHello (clientHello P) P.clientAddr
  | removed _ => .removed P.clientConnId P.clientPacketNumber P.clientAddr
  | inserted _ => .inserted P.clientConnId P.clientPacketNumber P.clientAddr
  | awaitAck _ | ackInHand _ | ackFound _ | ackSlot =>
    .awaitAck P.clientConnId P.clientPacketNumber
  | done => .done ⟨P.serverConnId, P.clientConnId, P.serverPacketNumber + 1⟩

def helloDelivery : ReaderTxChannel.Delivery :=
  ⟨true, (P.serverConnId, 0), [clientHello P], P.clientAddr⟩

def ackDelivery : ReaderTxChannel.Delivery :=
  ⟨false, (P.serverConnId, P.clientConnId), [clientAck P], P.clientAddr⟩

def view : ServerPhase → View
  | start | startQueued => ⟨false, none, [], none, false⟩
  | registered | registeredQueued | waiting => ⟨true, some (P.serverConnId, 0), [], none, false⟩
  | inHand => ⟨true, some (P.serverConnId, 0), [(helloDelivery P, none)], none, false⟩
  | found => ⟨true, some (P.serverConnId, 0), [(helloDelivery P, some connRef)], none, false⟩
  | slot => ⟨true, some (P.serverConnId, 0), [], some (clientHello P), true⟩
  | gotHello slotted => ⟨true, some (P.serverConnId, 0), [], none, slotted⟩
  | removed slotted => ⟨true, none, [], none, slotted⟩
  | inserted slotted | awaitAck slotted =>
    ⟨true, some (P.serverConnId, P.clientConnId), [], none, slotted⟩
  | ackInHand slotted =>
    ⟨true, some (P.serverConnId, P.clientConnId), [(ackDelivery P, none)], none, slotted⟩
  | ackFound slotted =>
    ⟨true, some (P.serverConnId, P.clientConnId), [(ackDelivery P, some connRef)], none, slotted⟩
  | ackSlot => ⟨true, some (P.serverConnId, P.clientConnId), [], some (clientAck P), true⟩
  | done => ⟨true, some (P.serverConnId, P.clientConnId), [], none, true⟩

def hellos : ServerPhase → HelloState
  | startQueued | registeredQueued => ⟨[], [(clientHello P, P.clientAddr)]⟩
  | waiting => ⟨[P.serverConnId], []⟩
  | _ => ⟨[], []⟩

def sent : ServerPhase → List Bytes
  | awaitAck _ | ackInHand _ | ackFound _ | ackSlot | done => [(serverHello P).serialise]
  | _ => []

end

def received : ServerPhase → ℕ
  | start | registered | waiting => 0
  | ackInHand _ | ackFound _ | ackSlot | done => 2
  | _ => 1

def accept : ServerPhase → Option ServerPhase
  | start => some registered
  | startQueued => some registeredQueued
  | registered => some waiting
  | registeredQueued => some (gotHello false)
  | waiting => some waiting
  | inHand => some inHand
  | found => some found
  | slot => some (gotHello true)
  | gotHello slotted => some (removed slotted)
  | removed slotted => some (inserted slotted)
  | inserted slotted => some (awaitAck slotted)
  | awaitAck slotted => some (awaitAck slotted)
  | ackInHand slotted => some (ackInHand slotted)
  | ackFound slotted => some (ackFound slotted)
  | ackSlot => some done
  | done => none

def receive : ServerPhase → Option ServerPhase
  | start => some startQueued
  | registered => some registeredQueued
  | waiting => some inHand
  | awaitAck slotted => some (ackInHand slotted)
  | _ => none

def lookup : ServerPhase → Option ServerPhase
  | inHand => some found
  | ackInHand slotted => some (ackFound slotted)
  | _ => none

def buffer : ServerPhase → Option ServerPhase
  | found => some slot
  | ackFound _ => some ackSlot
  | _ => none

end ServerPhase

/-! ### Both -/

structure Phase where
  client : ClientPhase
  server : ServerPhase
  deriving DecidableEq, Repr

def Phase.next (P : Setup) (ph : Phase) : Action → Option Phase
  | .connect => ph.client.connect.map fun c => { ph with client := c }
  | .accept => ph.server.accept.map fun s => { ph with server := s }
  | .connectTimeout | .acceptTimeout => none
  | .atClient (.receive datagram) =>
    if (ph.server.sent P)[ph.client.received]? = some datagram then
      ph.client.receive.map fun c => { ph with client := c }
    else none
  | .atClient (.lookup i) =>
    if i = 0 then ph.client.lookup.map fun c => { ph with client := c } else none
  | .atClient (.buffer i) =>
    if i = 0 then ph.client.buffer.map fun c => { ph with client := c } else none
  | .atServer (.receive datagram) =>
    if (ph.client.sent P)[ph.server.received]? = some datagram then
      ph.server.receive.map fun s => { ph with server := s }
    else none
  | .atServer (.lookup i) =>
    if i = 0 then ph.server.lookup.map fun s => { ph with server := s } else none
  | .atServer (.buffer i) =>
    if i = 0 then ph.server.buffer.map fun s => { ph with server := s } else none

structure ClientAt (P : Setup) (side : Side) (pc : ConnectPc) (sent : List Bytes) (received : ℕ)
    (c : ClientPhase) : Prop where
  pc : pc = c.pc P
  view : side.Is .client P.serverAddr (c.view P)
  sent : sent = c.sent P
  received : received = c.received

structure ServerAt (P : Setup) (side : Side) (pc : AcceptPc) (sent : List Bytes) (received : ℕ)
    (s : ServerPhase) : Prop where
  pc : pc = s.pc P
  view : side.Is .packLeader P.clientAddr (s.view P)
  hellos : side.host.helloState = s.hellos P
  sent : sent = s.sent P
  received : received = s.received

/-- The handshake is in a phase. No host has received more than was sent to it. -/
structure At (P : Setup) (x : Link) (ph : Phase) : Prop where
  client : ClientAt P x.st.client x.st.connect x.st.toServer x.atClient ph.client
  server : ServerAt P x.st.server x.st.accept x.st.toClient x.atServer ph.server
  client_le : ph.client.received ≤ (ph.server.sent P).length
  server_le : ph.server.received ≤ (ph.client.sent P).length

theorem at_fresh (P : Setup) : At P .fresh ⟨.start, .start⟩ where
  client := by
    refine ⟨rfl, ?_, rfl, rfl⟩
    constructor
    case host => exact fun hopened => absurd hopened (by simp [ClientPhase.view])
    case entry => exact fun _ => rfl
    all_goals rfl
  server := by
    refine ⟨rfl, ?_, rfl, rfl, rfl⟩
    constructor
    case host => exact fun hopened => absurd hopened (by simp [ServerPhase.view])
    case entry => exact fun _ => rfl
    all_goals rfl
  client_le := Nat.le_refl 0
  server_le := Nat.le_refl 0

/-- The draws that the checks of the other side let through. -/
structure Setup.Accepted (P : Setup) : Prop where
  clientConnId : P.clientConnId ≠ 0
  serverConnId : P.serverConnId ≠ 0
  clientPacketNumber : P.clientPacketNumber ≠ 0
  serverPacketNumber : P.serverPacketNumber ≠ 0

/-! ### The client's steps -/

section

variable {P : Setup} (hP : P.Accepted)

/-- The client is at `c'` after a step that was its own. -/
def ClientMoved (P : Setup) (st : State) (received : ℕ) (st' : State) (c' : ClientPhase) : Prop :=
  ClientAt P st'.client st'.connect st'.toServer received c' ∧
    st'.server = st.server ∧ st'.accept = st.accept ∧ st'.toClient = st.toClient

theorem connect_polls {st : State} {n : ℕ} {c : ClientPhase}
    (h : ClientAt P st.client st.connect st.toServer n c) (hpc : c.pc P = .waiting)
    (hslot : (c.view P).slot = none) :
    Option.Rel (ClientMoved P st n) (connectStep P st) (some c) := by
  obtain ⟨b, hpoll, his⟩ := is_poll_none h.view hslot
  have hstep : connectStep P st =
      some (st.atConnect (st.client.host.setConnBuff connRef b) .waiting) := by
    refine connectStep_eq ?_ (by rw [h.pc, hpc]; rfl)
    simp only [connectCall, h.pc, hpc, hpoll]
  rw [hstep]
  exact .some ⟨⟨hpc.symm, his, h.sent, h.received⟩, rfl, rfl, rfl⟩

include hP

theorem connect_moved {st : State} {n : ℕ} {c : ClientPhase}
    (h : ClientAt P st.client st.connect st.toServer n c) :
    Option.Rel (ClientMoved P st n) (connectStep P st) c.connect := by
  have hpc := h.pc
  cases c with
  | start =>
    obtain ⟨host', hins, -, his⟩ := is_open h.view rfl P.clientConnId (P.clientPacketNumber + 2)
    have hstep : connectStep P st = some (st.atConnect host' .registered) := by
      refine connectStep_eq ?_ (by rw [hpc]; rfl)
      simp only [connectCall, hpc, ClientPhase.pc, hins]
    rw [hstep]
    exact .some ⟨⟨rfl, his, h.sent, h.received⟩, rfl, rfl, rfl⟩
  | registered =>
    have hsent : st.toServer ++ [(clientHello P).serialise] = [(clientHello P).serialise] := by
      rw [h.sent]
      rfl
    have hstep : connectStep P st = some { st with
        connect := .waiting, toServer := st.toServer ++ [(clientHello P).serialise] } := by
      rw [connectStep, hpc]
      rfl
    rw [hstep]
    exact .some ⟨⟨rfl, h.view, hsent, h.received⟩, rfl, rfl, rfl⟩
  | waiting => exact connect_polls h rfl rfl
  | inHand => exact connect_polls h rfl rfl
  | found => exact connect_polls h rfl rfl
  | slot =>
    obtain ⟨b, hpoll, his⟩ := is_poll_some h.view rfl rfl
    have hstep : connectStep P st = some (st.atConnect (st.client.host.setConnBuff connRef b)
        (.gotHello (serverHello P))) := by
      refine connectStep_eq ?_ (by rw [hpc]; rfl)
      simp only [connectCall, hpc, ClientPhase.pc, hpoll]
    rw [hstep]
    exact .some ⟨⟨rfl, his, h.sent, h.received⟩, rfl, rfl, rfl⟩
  | gotHello =>
    have hnum : (serverHello P).header.packetNumber ≠ 0 := hP.serverPacketNumber
    obtain ⟨host', hrem, -, his⟩ := is_remove h.view rfl
    have hstep : connectStep P st = some (st.atConnect host' (.removed P.serverConnId)) := by
      refine connectStep_eq ?_ (by rw [hpc]; rfl)
      simp only [connectCall, hpc, ClientPhase.pc, hnum, if_false, hrem]
      rfl
    rw [hstep]
    exact .some ⟨⟨rfl, his, h.sent, h.received⟩, rfl, rfl, rfl⟩
  | removed =>
    obtain ⟨host', hins, -, his⟩ := is_insert h.view rfl (P.clientConnId, P.serverConnId)
    have hstep : connectStep P st = some (st.atConnect host' (.inserted P.serverConnId)) := by
      refine connectStep_eq ?_ (by rw [hpc]; rfl)
      simp only [connectCall, hpc, ClientPhase.pc, hins]
    rw [hstep]
    exact .some ⟨⟨rfl, his, h.sent, h.received⟩, rfl, rfl, rfl⟩
  | inserted =>
    have hsent : st.toServer ++ [(clientAck P).serialise] =
        [(clientHello P).serialise, (clientAck P).serialise] := by
      rw [h.sent]
      rfl
    have hstep : connectStep P st = some { st with
        connect := .done ⟨P.clientConnId, P.serverConnId, P.clientPacketNumber + 2⟩
        toServer := st.toServer ++ [(clientAck P).serialise] } := by
      rw [connectStep, hpc]
      rfl
    rw [hstep]
    exact .some ⟨⟨rfl, h.view, hsent, h.received⟩, rfl, rfl, rfl⟩
  | done =>
    have hstep : connectStep P st = none := by
      rw [connectStep, hpc]
      rfl
    rw [hstep]
    exact .none

theorem serverHello_isHello : isHelloPacket .client (serverHello P) = true := by
  have hserver := hP.serverConnId
  have hclient := hP.clientConnId
  simp [isHelloPacket, serverHello, buildEmptyEncryptedPacket, BluefinHeader.new,
    BluefinHeader.withPacketNumber, hserver, hclient]

theorem client_receives {side : Side} {n : ℕ} {sent : List Bytes} {c : ClientPhase}
    {pc : ConnectPc} (h : ClientAt P side pc sent n c) (hc : c = .waiting)
    {arrived : List Bytes} (hdatagram : (serverHello P).serialise ∈ arrived) :
    ∃ side', workerStep .client arrived P.serverAddr side
        (.receive (serverHello P).serialise) = some side' ∧
      ClientAt P side' pc sent (n + 1) .inHand := by
  subst hc
  have hclass : ReaderTxChannel.receive .client side.host.helloState (serverHello P).serialise
      P.serverAddr = .goOn (side.host.helloState, some (ClientPhase.helloDelivery P)) := by
    rw [receive_serialise (serverHello_encodable P)]
    simp only [ReaderTxChannel.classify, ReaderTxChannel.handleHelloSingle,
      serverHello_isHello hP, if_true]
    rfl
  refine ⟨⟨side.host, side.inHand ++ [(ClientPhase.helloDelivery P, none)]⟩, ?_, h.pc,
    is_received h.view _, h.sent, by rw [h.received]; rfl⟩
  simp only [workerStep, hdatagram, if_true, hclass]

omit hP

theorem client_lookup {side : Side} {n : ℕ} {sent arrived : List Bytes} {c : ClientPhase}
    {pc : ConnectPc} (h : ClientAt P side pc sent n c) (i : ℕ) :
    Option.Rel (ClientAt P · pc sent n ·)
      (workerStep .client arrived P.serverAddr side (.lookup i))
      (if i = 0 then c.lookup else none) := by
  cases c with
  | inHand =>
    obtain ⟨hfirst, hother⟩ := is_lookup h.view arrived rfl rfl i
    refine rel_ite (fun hi => ?_) hother
    obtain ⟨side', hstep, -, his⟩ := hfirst hi
    exact ⟨side', hstep, h.pc, his, h.sent, h.received⟩
  | _ =>
    rw [is_lookup_none h.view arrived (by simp [ClientPhase.view]) i, ClientPhase.lookup, ite_self]
    · exact .none
    all_goals simp

theorem client_buffer {side : Side} {n : ℕ} {sent arrived : List Bytes} {c : ClientPhase}
    {pc : ConnectPc} (h : ClientAt P side pc sent n c) (i : ℕ) :
    Option.Rel (ClientAt P · pc sent n ·)
      (workerStep .client arrived P.serverAddr side (.buffer i))
      (if i = 0 then c.buffer else none) := by
  cases c with
  | found =>
    obtain ⟨hfirst, hother⟩ := is_buffer h.view arrived rfl rfl rfl (.inl rfl) rfl i
    refine rel_ite (fun hi => ?_) hother
    obtain ⟨side', hstep, -, his⟩ := hfirst hi
    exact ⟨side', hstep, h.pc, his, h.sent, h.received⟩
  | _ =>
    rw [is_buffer_none h.view arrived (by simp [ClientPhase.view]) i, ClientPhase.buffer, ite_self]
    · exact .none
    all_goals simp

end

/-! ### The server's steps -/

section

variable {P : Setup} (hP : P.Accepted)

def ServerMoved (P : Setup) (st : State) (received : ℕ) (st' : State) (s' : ServerPhase) : Prop :=
  ServerAt P st'.server st'.accept st'.toClient received s' ∧
    st'.client = st.client ∧ st'.connect = st.connect ∧ st'.toServer = st.toServer

theorem accept_opens {st : State} {n : ℕ} {s s' : ServerPhase}
    (h : ServerAt P st.server st.accept st.toClient n s) (hpc : s.pc P = .start)
    (hview : s.view P = ServerPhase.start.view P) (hpc' : s'.pc P = .registered)
    (hview' : s'.view P = ServerPhase.registered.view P) (hhellos : s'.hellos P = s.hellos P)
    (hsent : s'.sent P = s.sent P) (hreceived : s'.received = s.received) :
    Option.Rel (ServerMoved P st n) (acceptStep P st) (some s') := by
  have hside := h.view
  rw [hview] at hside
  obtain ⟨host', hins, hstate, his⟩ := is_open hside rfl P.serverConnId (P.serverPacketNumber + 1)
  have hstep : acceptStep P st = some (st.atAccept host' .registered) := by
    refine acceptStep_eq ?_ (by rw [h.pc, hpc]; rfl)
    simp only [acceptCall, h.pc, hpc, hins]
  rw [hstep]
  refine .some ⟨⟨hpc'.symm, ?_, ?_, h.sent.trans hsent.symm, h.received.trans hreceived.symm⟩,
    rfl, rfl, rfl⟩
  · rw [hview']
    exact his
  · rw [hhellos, ← h.hellos]
    exact hstate

theorem accept_polls {st : State} {n : ℕ} {s : ServerPhase}
    (h : ServerAt P st.server st.accept st.toClient n s)
    (hpc : s.pc P = .waiting ∨ s.pc P = .awaitAck P.clientConnId P.clientPacketNumber)
    (hslot : (s.view P).slot = none) :
    Option.Rel (ServerMoved P st n) (acceptStep P st) (some s) := by
  obtain ⟨b, hpoll, his⟩ := is_poll_none h.view hslot
  have hstep : acceptStep P st =
      some (st.atAccept (st.server.host.setConnBuff connRef b) (s.pc P)) := by
    rcases hpc with hpc | hpc
    · refine acceptStep_eq ?_ (by rw [h.pc, hpc]; rfl)
      simp only [acceptCall, h.pc, hpc, hpoll]
    · refine acceptStep_eq ?_ (by rw [h.pc, hpc]; rfl)
      simp only [acceptCall, h.pc, hpc, hpoll]
  rw [hstep]
  exact .some ⟨⟨rfl, his, h.hellos, h.sent, h.received⟩, rfl, rfl, rfl⟩

include hP

theorem accept_moved {st : State} {n : ℕ} {s : ServerPhase}
    (h : ServerAt P st.server st.accept st.toClient n s) :
    Option.Rel (ServerMoved P st n) (acceptStep P st) s.accept := by
  have hpc := h.pc
  have hhellos := h.hellos
  cases s with
  | start => exact accept_opens h rfl rfl rfl rfl rfl rfl rfl
  | startQueued => exact accept_opens h rfl rfl rfl rfl rfl rfl rfl
  | registered =>
    have hstep : acceptStep P st = some (st.atAccept
        { st.server.host with helloState := ⟨[P.serverConnId], []⟩ } .waiting) := by
      refine acceptStep_eq ?_ (by rw [hpc]; rfl)
      simp only [acceptCall, BluefinServer.popHelloOrPushSlot, hpc, ServerPhase.pc, hhellos,
        ServerPhase.hellos, List.nil_append]
    rw [hstep]
    exact .some ⟨⟨rfl, is_helloState h.view _, rfl, h.sent, h.received⟩, rfl, rfl, rfl⟩
  | registeredQueued =>
    have hstep : acceptStep P st = some (st.atAccept
        { st.server.host with helloState := ⟨[], []⟩ } (.gotHello (clientHello P) P.clientAddr)) := by
      refine acceptStep_eq ?_ (by rw [hpc]; rfl)
      simp only [acceptCall, BluefinServer.popHelloOrPushSlot, hpc, ServerPhase.pc, hhellos,
        ServerPhase.hellos]
    rw [hstep]
    exact .some ⟨⟨rfl, is_helloState h.view _, rfl, h.sent, h.received⟩, rfl, rfl, rfl⟩
  | waiting => exact accept_polls h (.inl rfl) rfl
  | inHand => exact accept_polls h (.inl rfl) rfl
  | found => exact accept_polls h (.inl rfl) rfl
  | slot =>
    obtain ⟨b, hpoll, his⟩ := is_poll_some h.view rfl rfl
    have hstep : acceptStep P st = some (st.atAccept (st.server.host.setConnBuff connRef b)
        (.gotHello (clientHello P) P.clientAddr)) := by
      refine acceptStep_eq ?_ (by rw [hpc]; rfl)
      simp only [acceptCall, hpc, ServerPhase.pc, hpoll]
    rw [hstep]
    exact .some ⟨⟨rfl, his, hhellos, h.sent, h.received⟩, rfl, rfl, rfl⟩
  | gotHello slotted =>
    have hnum : (clientHello P).header.packetNumber ≠ 0 := hP.clientPacketNumber
    obtain ⟨host', hrem, hstate, his⟩ := is_remove h.view rfl
    have hstep : acceptStep P st = some (st.atAccept host'
        (.removed P.clientConnId P.clientPacketNumber P.clientAddr)) := by
      refine acceptStep_eq ?_ (by rw [hpc]; rfl)
      simp only [acceptCall, hpc, ServerPhase.pc, hnum, if_false, hrem]
      rfl
    rw [hstep]
    exact .some ⟨⟨rfl, his, hstate.trans hhellos, h.sent, h.received⟩, rfl, rfl, rfl⟩
  | removed slotted =>
    obtain ⟨host', hins, hstate, his⟩ := is_insert h.view rfl (P.serverConnId, P.clientConnId)
    have hstep : acceptStep P st = some (st.atAccept host'
        (.inserted P.clientConnId P.clientPacketNumber P.clientAddr)) := by
      refine acceptStep_eq ?_ (by rw [hpc]; rfl)
      simp only [acceptCall, hpc, ServerPhase.pc, hins]
    rw [hstep]
    exact .some ⟨⟨rfl, his, hstate.trans hhellos, h.sent, h.received⟩, rfl, rfl, rfl⟩
  | inserted slotted =>
    have hsent : st.toClient ++ [(serverHello P).serialise] = [(serverHello P).serialise] := by
      rw [h.sent]
      rfl
    have hstep : acceptStep P st = some { st with
        accept := .awaitAck P.clientConnId P.clientPacketNumber
        toClient := st.toClient ++ [(serverHello P).serialise] } := by
      simp only [acceptStep, acceptCall, acceptSends, hpc, ServerPhase.pc, List.filter_cons,
        decide_true, if_true, List.filter_nil, List.map_cons, List.map_nil]
      rfl
    rw [hstep]
    exact .some ⟨⟨rfl, h.view, hhellos, hsent, h.received⟩, rfl, rfl, rfl⟩
  | awaitAck slotted => exact accept_polls h (.inr rfl) rfl
  | ackInHand slotted => exact accept_polls h (.inr rfl) rfl
  | ackFound slotted => exact accept_polls h (.inr rfl) rfl
  | ackSlot =>
    have hnum : (clientAck P).header.packetNumber = P.clientPacketNumber + 1 := rfl
    obtain ⟨b, hpoll, his⟩ := is_poll_some h.view rfl rfl
    have hstep : acceptStep P st = some (st.atAccept (st.server.host.setConnBuff connRef b)
        (.done ⟨P.serverConnId, P.clientConnId, P.serverPacketNumber + 1⟩)) := by
      refine acceptStep_eq ?_ (by rw [hpc]; rfl)
      simp only [acceptCall, hpc, ServerPhase.pc, hpoll, hnum, ne_eq, not_true_eq_false, if_false]
    rw [hstep]
    exact .some ⟨⟨rfl, his, hhellos, h.sent, h.received⟩, rfl, rfl, rfl⟩
  | done =>
    have hstep : acceptStep P st = none := by
      rw [acceptStep, hpc]
      rfl
    rw [hstep]
    exact .none

theorem clientHello_isHello : isHelloPacket .packLeader (clientHello P) = true := by
  have hclient := hP.clientConnId
  simp [isHelloPacket, clientHello, buildEmptyEncryptedPacket, BluefinHeader.new,
    BluefinHeader.withPacketNumber, hclient]

theorem clientAck_isClientAck : isClientAckPacket .packLeader (clientAck P) = true := by
  have hserver := hP.serverConnId
  have hclient := hP.clientConnId
  simp [isClientAckPacket, clientAck, buildEmptyEncryptedPacket, BluefinHeader.new,
    BluefinHeader.withPacketNumber, hserver, hclient]

theorem server_receives_hello {side : Side} {n : ℕ} {sent arrived : List Bytes} {s : ServerPhase}
    {pc : AcceptPc} (h : ServerAt P side pc sent n s) (hs : s.received = 0)
    (hdatagram : (clientHello P).serialise ∈ arrived) :
    ∃ side' s', workerStep .packLeader arrived P.clientAddr side
        (.receive (clientHello P).serialise) = some side' ∧ s.receive = some s' ∧
      ServerAt P side' pc sent (n + 1) s' := by
  have hhellos := h.hellos
  have hqueued : s.hellos P = ⟨[], []⟩ →
      workerStep .packLeader arrived P.clientAddr side (.receive (clientHello P).serialise) =
        some { side with host := { side.host with
          helloState := ⟨[], [(clientHello P, P.clientAddr)]⟩ } } := by
    intro hempty
    have hclass : ReaderTxChannel.receive .packLeader side.host.helloState
        (clientHello P).serialise P.clientAddr =
          .goOn (⟨[], [(clientHello P, P.clientAddr)]⟩, none) := by
      rw [receive_serialise (clientHello_encodable P), hhellos, hempty]
      simp only [ReaderTxChannel.classify, ReaderTxChannel.handleHelloSingle,
        clientHello_isHello hP, if_true]
      rfl
    simp only [workerStep, hdatagram, if_true, hclass]
  cases s with
  | start =>
    exact ⟨_, .startQueued, hqueued rfl, rfl, h.pc, is_helloState h.view _, rfl, h.sent,
      by rw [h.received]; rfl⟩
  | registered =>
    exact ⟨_, .registeredQueued, hqueued rfl, rfl, h.pc, is_helloState h.view _, rfl, h.sent,
      by rw [h.received]; rfl⟩
  | waiting =>
    have hclass : ReaderTxChannel.receive .packLeader side.host.helloState
        (clientHello P).serialise P.clientAddr =
          .goOn (⟨[], []⟩, some (ServerPhase.helloDelivery P)) := by
      rw [receive_serialise (clientHello_encodable P), hhellos]
      simp only [ReaderTxChannel.classify, ReaderTxChannel.handleHelloSingle,
        clientHello_isHello hP, if_true, ServerPhase.hellos]
      rfl
    refine ⟨⟨{ side.host with helloState := ⟨[], []⟩ },
      side.inHand ++ [(ServerPhase.helloDelivery P, none)]⟩, .inHand, ?_, rfl, h.pc,
      is_received (is_helloState h.view _) _, rfl, h.sent, by rw [h.received]; rfl⟩
    simp only [workerStep, hdatagram, if_true, hclass]
  | _ => cases hs

omit hP in
theorem server_receives_ack {side : Side} {n : ℕ} {sent arrived : List Bytes} {slotted : Bool}
    {pc : AcceptPc} (h : ServerAt P side pc sent n (.awaitAck slotted))
    (hdatagram : (clientAck P).serialise ∈ arrived) :
    ∃ side', workerStep .packLeader arrived P.clientAddr side
        (.receive (clientAck P).serialise) = some side' ∧
      ServerAt P side' pc sent (n + 1) (.ackInHand slotted) := by
  have hclass : ReaderTxChannel.receive .packLeader side.host.helloState
      (clientAck P).serialise P.clientAddr =
        .goOn (side.host.helloState, some (ServerPhase.ackDelivery P)) := by
    rw [receive_serialise (clientAck_encodable P)]
    simp only [ReaderTxChannel.classify, ReaderTxChannel.handleHelloSingle, clientAck_isHello,
      if_true, Bool.false_eq_true, if_false]
    rfl
  refine ⟨⟨side.host, side.inHand ++ [(ServerPhase.ackDelivery P, none)]⟩, ?_, h.pc,
    is_received h.view _, h.hellos, h.sent, by rw [h.received]; rfl⟩
  simp only [workerStep, hdatagram, if_true, hclass]

omit hP in
theorem server_lookup {side : Side} {n : ℕ} {sent arrived : List Bytes} {s : ServerPhase}
    {pc : AcceptPc} (h : ServerAt P side pc sent n s) (i : ℕ) :
    Option.Rel (ServerAt P · pc sent n ·)
      (workerStep .packLeader arrived P.clientAddr side (.lookup i))
      (if i = 0 then s.lookup else none) := by
  cases s with
  | inHand =>
    obtain ⟨hfirst, hother⟩ := is_lookup h.view arrived rfl rfl i
    refine rel_ite (fun hi => ?_) hother
    obtain ⟨side', hstep, hstate, his⟩ := hfirst hi
    exact ⟨side', hstep, h.pc, his, hstate.trans h.hellos, h.sent, h.received⟩
  | ackInHand slotted =>
    obtain ⟨hfirst, hother⟩ := is_lookup h.view arrived rfl rfl i
    refine rel_ite (fun hi => ?_) hother
    obtain ⟨side', hstep, hstate, his⟩ := hfirst hi
    exact ⟨side', hstep, h.pc, his, hstate.trans h.hellos, h.sent, h.received⟩
  | _ =>
    rw [is_lookup_none h.view arrived (by simp [ServerPhase.view]) i, ServerPhase.lookup, ite_self]
    · exact .none
    all_goals simp

theorem server_buffer {side : Side} {n : ℕ} {sent arrived : List Bytes} {s : ServerPhase}
    {pc : AcceptPc} (h : ServerAt P side pc sent n s) (i : ℕ) :
    Option.Rel (ServerAt P · pc sent n ·)
      (workerStep .packLeader arrived P.clientAddr side (.buffer i))
      (if i = 0 then s.buffer else none) := by
  cases s with
  | found =>
    obtain ⟨hfirst, hother⟩ := is_buffer h.view arrived rfl rfl rfl (.inl rfl) rfl i
    refine rel_ite (fun hi => ?_) hother
    obtain ⟨side', hstep, hstate, his⟩ := hfirst hi
    exact ⟨side', hstep, h.pc, his, hstate.trans h.hellos, h.sent, h.received⟩
  | ackFound slotted =>
    obtain ⟨hfirst, hother⟩ := is_buffer h.view arrived rfl rfl rfl
      (.inr (clientAck_isClientAck hP)) rfl i
    refine rel_ite (fun hi => ?_) hother
    obtain ⟨side', hstep, hstate, his⟩ := hfirst hi
    exact ⟨side', hstep, h.pc, his, hstate.trans h.hellos, h.sent, h.received⟩
  | _ =>
    rw [is_buffer_none h.view arrived (by simp [ServerPhase.view]) i, ServerPhase.buffer, ite_self]
    · exact .none
    all_goals simp

end

/-! ### The phases match -/

section

variable {P : Setup}

/-- What was sent decides what may have been received. -/
theorem ServerPhase.sent_cases (s : ServerPhase) :
    s.sent P = [] ∨ s.sent P = [(serverHello P).serialise] ∧ 1 ≤ s.received := by
  cases s <;> simp [ServerPhase.sent, ServerPhase.received]

theorem ClientPhase.sent_cases (c : ClientPhase) :
    c.sent P = [] ∨ c.sent P = [(clientHello P).serialise] ∨ c = .done := by
  cases c <;> simp [ClientPhase.sent]

theorem ClientPhase.connect_counts {c c' : ClientPhase} (h : c.connect = some c') :
    c'.received = c.received ∧ (c.sent P).length ≤ (c'.sent P).length := by
  cases c <;> cases h <;> simp [ClientPhase.received, ClientPhase.sent]

theorem ServerPhase.accept_counts {s s' : ServerPhase} (h : s.accept = some s') :
    s'.received = s.received ∧ (s.sent P).length ≤ (s'.sent P).length := by
  cases s <;> cases h <;> simp [ServerPhase.received, ServerPhase.sent]

theorem ClientPhase.worker_counts {c c' : ClientPhase} (h : c.lookup = some c' ∨ c.buffer = some c') :
    c'.received = c.received ∧ c'.sent P = c.sent P := by
  rcases h with h | h
  · cases c <;> cases h
    exact ⟨rfl, rfl⟩
  · cases c <;> cases h
    exact ⟨rfl, rfl⟩

theorem ServerPhase.worker_counts {s s' : ServerPhase} (h : s.lookup = some s' ∨ s.buffer = some s') :
    s'.received = s.received ∧ s'.sent P = s.sent P := by
  rcases h with h | h
  · cases s <;> cases h <;> exact ⟨rfl, rfl⟩
  · cases s <;> cases h <;> exact ⟨rfl, rfl⟩

theorem ServerPhase.receive_counts {s s' : ServerPhase} (h : s.receive = some s') :
    s'.received = s.received + 1 ∧ s'.sent P = s.sent P := by
  cases s <;> cases h <;> exact ⟨rfl, rfl⟩

theorem client_next_datagram {ph : Phase} (hle : ph.server.received ≤ (ph.client.sent P).length)
    {datagram : Bytes} (h : (ph.server.sent P)[ph.client.received]? = some datagram) :
    ph.client = .waiting ∧ datagram = (serverHello P).serialise := by
  obtain ⟨c, s⟩ := ph
  simp only at hle h ⊢
  rcases s.sent_cases (P := P) with hsent | ⟨hsent, hs⟩
  · rw [hsent] at h
    cases h
  · rw [hsent] at h
    cases c with
    | start => exact absurd (hs.trans hle) (by simp [ClientPhase.sent])
    | registered => exact absurd (hs.trans hle) (by simp [ClientPhase.sent])
    | waiting =>
      cases h
      exact ⟨rfl, rfl⟩
    | _ => cases h

theorem server_next_datagram {ph : Phase} (hle : ph.client.received ≤ (ph.server.sent P).length)
    {datagram : Bytes} (h : (ph.client.sent P)[ph.server.received]? = some datagram) :
    ph.server.received = 0 ∧ datagram = (clientHello P).serialise ∨
      (∃ slotted, ph.server = .awaitAck slotted) ∧ datagram = (clientAck P).serialise := by
  obtain ⟨c, s⟩ := ph
  simp only at hle h ⊢
  by_cases hs : s.received = 0
  · rw [hs] at h
    cases c <;> cases h <;> exact .inl ⟨hs, rfl⟩
  · right
    rcases c.sent_cases (P := P) with hsent | hsent | rfl
    · rw [hsent] at h
      cases h
    · rw [hsent, List.getElem?_eq_none (by simp; omega)] at h
      cases h
    · cases s with
      | awaitAck slotted =>
        cases h
        exact ⟨⟨slotted, rfl⟩, rfl⟩
      | ackInHand => cases h
      | ackFound => cases h
      | ackSlot => cases h
      | done => cases h
      | start => exact absurd rfl hs
      | registered => exact absurd rfl hs
      | waiting => exact absurd rfl hs
      | _ => exact absurd hle (by simp [ClientPhase.received, ServerPhase.sent])

end

section

variable {P : Setup} {x : Link} {ph : Phase} (hP : P.Accepted) (h : At P x ph)

include hP h

theorem match_connect : Option.Rel (At P) (linkStep P x .connect) (ph.next P .connect) := by
  have hrel := connect_moved hP h.client
  simp only [linkStep, step, Phase.next]
  generalize connectStep P x.st = o at hrel
  generalize hc : ph.client.connect = o' at hrel
  cases hrel with
  | none => exact .none
  | some hmoved =>
    obtain ⟨hclient, hserver, haccept, hsent⟩ := hmoved
    obtain ⟨hreceived, hlength⟩ := ClientPhase.connect_counts (P := P) hc
    refine .some ⟨hclient, ?_, ?_, ?_⟩
    · rw [hserver, haccept, hsent]
      exact h.server
    · rw [hreceived]
      exact h.client_le
    · exact h.server_le.trans hlength

theorem match_accept : Option.Rel (At P) (linkStep P x .accept) (ph.next P .accept) := by
  have hrel := accept_moved hP h.server
  simp only [linkStep, step, Phase.next]
  generalize acceptStep P x.st = o at hrel
  generalize hs : ph.server.accept = o' at hrel
  cases hrel with
  | none => exact .none
  | some hmoved =>
    obtain ⟨hserver, hclient, hconnect, hsent⟩ := hmoved
    obtain ⟨hreceived, hlength⟩ := ServerPhase.accept_counts (P := P) hs
    refine .some ⟨?_, hserver, ?_, ?_⟩
    · rw [hclient, hconnect, hsent]
      exact h.client
    · exact h.client_le.trans hlength
    · rw [hreceived]
      exact h.server_le

theorem match_client_receive (datagram : Bytes) :
    Option.Rel (At P) (linkStep P x (.atClient (.receive datagram)))
      (ph.next P (.atClient (.receive datagram))) := by
  have hsent : x.st.toClient[x.atClient]? = (ph.server.sent P)[ph.client.received]? := by
    rw [h.server.sent, h.client.received]
  simp only [linkStep, step, Phase.next]
  rw [hsent]
  by_cases hnext : (ph.server.sent P)[ph.client.received]? = some datagram
  · obtain ⟨hwaiting, rfl⟩ := client_next_datagram h.server_le hnext
    have hlength := (List.getElem?_eq_some_iff.mp hnext).1
    have hmem := List.mem_of_getElem? hnext
    have hle := h.server_le
    rw [← h.server.sent] at hmem
    obtain ⟨side', hstep, hclient⟩ := client_receives hP h.client hwaiting hmem
    rw [if_pos hnext, if_pos hnext, hstep, hwaiting]
    rw [hwaiting] at hlength hle
    exact .some ⟨hclient, h.server, hlength, hle⟩
  · rw [if_neg hnext, if_neg hnext]
    exact .none

theorem match_server_receive (datagram : Bytes) :
    Option.Rel (At P) (linkStep P x (.atServer (.receive datagram)))
      (ph.next P (.atServer (.receive datagram))) := by
  have hsent : x.st.toServer[x.atServer]? = (ph.client.sent P)[ph.server.received]? := by
    rw [h.client.sent, h.server.received]
  simp only [linkStep, step, Phase.next]
  rw [hsent]
  by_cases hnext : (ph.client.sent P)[ph.server.received]? = some datagram
  · have hlength := (List.getElem?_eq_some_iff.mp hnext).1
    have hmem := List.mem_of_getElem? hnext
    rw [← h.client.sent] at hmem
    -- both kinds of datagram lead to the next phase
    have hstep : ∃ side' s', workerStep .packLeader x.st.toServer P.clientAddr x.st.server
        (.receive datagram) = some side' ∧ ph.server.receive = some s' ∧
        ServerAt P side' x.st.accept x.st.toClient (x.atServer + 1) s' := by
      rcases server_next_datagram h.client_le hnext with ⟨hs, rfl⟩ | ⟨⟨slotted, hs⟩, rfl⟩
      · exact server_receives_hello hP h.server hs hmem
      · have hserver := h.server
        rw [hs] at hserver
        obtain ⟨side', hstep, hnext'⟩ := server_receives_ack hserver hmem
        exact ⟨side', _, hstep, by rw [hs]; rfl, hnext'⟩
    obtain ⟨side', s', hstep, hs', hserver⟩ := hstep
    obtain ⟨hreceived, hkept⟩ := ServerPhase.receive_counts (P := P) hs'
    rw [if_pos hnext, if_pos hnext, hstep, hs']
    refine .some ⟨h.client, hserver, ?_, ?_⟩
    · simp only [hkept]
      exact h.client_le
    · simp only [hreceived]
      exact hlength
  · rw [if_neg hnext, if_neg hnext]
    exact .none

omit hP in
theorem match_client_worker {act : WorkerAction} {o : Option ClientPhase}
    (hrel : Option.Rel (ClientAt P · x.st.connect x.st.toServer x.atClient ·)
      (workerStep .client x.st.toClient P.serverAddr x.st.client act) o)
    (hcounts : ∀ c', o = some c' → c'.received = ph.client.received ∧
      c'.sent P = ph.client.sent P) :
    Option.Rel (At P)
      ((step P x.st (.atClient act)).map fun st => { x with st := st })
      (o.map fun c => { ph with client := c }) := by
  simp only [step]
  generalize workerStep .client x.st.toClient P.serverAddr x.st.client act = side at hrel
  cases hrel with
  | none => exact .none
  | some hclient =>
    obtain ⟨hreceived, hsent⟩ := hcounts _ rfl
    refine .some ⟨hclient, h.server, ?_, ?_⟩
    · simp only [hreceived]
      exact h.client_le
    · simp only [hsent]
      exact h.server_le

omit hP in
theorem match_server_worker {act : WorkerAction} {o : Option ServerPhase}
    (hrel : Option.Rel (ServerAt P · x.st.accept x.st.toClient x.atServer ·)
      (workerStep .packLeader x.st.toServer P.clientAddr x.st.server act) o)
    (hcounts : ∀ s', o = some s' → s'.received = ph.server.received ∧
      s'.sent P = ph.server.sent P) :
    Option.Rel (At P)
      ((step P x.st (.atServer act)).map fun st => { x with st := st })
      (o.map fun s => { ph with server := s }) := by
  simp only [step]
  generalize workerStep .packLeader x.st.toServer P.clientAddr x.st.server act = side at hrel
  cases hrel with
  | none => exact .none
  | some hserver =>
    obtain ⟨hreceived, hsent⟩ := hcounts _ rfl
    refine .some ⟨h.client, hserver, ?_, ?_⟩
    · simp only [hsent]
      exact h.client_le
    · simp only [hreceived]
      exact h.server_le

end

/-- The handshake goes through the phases, step by step. -/
theorem phases_match {P : Setup} (hP : P.Accepted) : Matches (linkStep P) (Phase.next P) (At P) := by
  intro x ph act h
  cases act with
  | connect => exact match_connect hP h
  | accept => exact match_accept hP h
  | connectTimeout => exact .none
  | acceptTimeout => exact .none
  | atClient act =>
    cases act with
    | receive datagram => exact match_client_receive hP h datagram
    | lookup i =>
      have hmatch := match_client_worker h (client_lookup h.client i) fun c' hc' => by
        split at hc'
        · exact ClientPhase.worker_counts (.inl hc')
        · cases hc'
      simp only [Phase.next]
      rwa [apply_ite (Option.map _)] at hmatch
    | buffer i =>
      have hmatch := match_client_worker h (client_buffer h.client i) fun c' hc' => by
        split at hc'
        · exact ClientPhase.worker_counts (.inr hc')
        · cases hc'
      simp only [Phase.next]
      rwa [apply_ite (Option.map _)] at hmatch
  | atServer act =>
    cases act with
    | receive datagram => exact match_server_receive hP h datagram
    | lookup i =>
      have hmatch := match_server_worker h (server_lookup h.server i) fun s' hs' => by
        split at hs'
        · exact ServerPhase.worker_counts (.inl hs')
        · cases hs'
      simp only [Phase.next]
      rwa [apply_ite (Option.map _)] at hmatch
    | buffer i =>
      have hmatch := match_server_worker h (server_buffer hP h.server i) fun s' hs' => by
        split at hs'
        · exact ServerPhase.worker_counts (.inr hs')
        · cases hs'
      simp only [Phase.next]
      rwa [apply_ite (Option.map _)] at hmatch

end Handshake

end Bluefin
