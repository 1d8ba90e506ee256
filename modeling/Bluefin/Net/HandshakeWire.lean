import Bluefin.Net.HandshakeBuffers

/-!
# What is in transit during a handshake

The invariants that hold on both ways a hello can take: only the three
handshake packets are ever sent, queued or in a worker's hand, none of them
before the one that it answers, and each call holds the ids and numbers that it
was sent.
-/

namespace Bluefin
open Base

namespace Handshake

/-! ### What is in transit -/

section

variable (P : Setup)

def clientHello : BluefinPacket :=
  buildEmptyEncryptedPacket P.clientConnId 0x0 P.clientPacketNumber .unencryptedClientHello

def serverHello : BluefinPacket :=
  buildEmptyEncryptedPacket P.serverConnId P.clientConnId P.serverPacketNumber
    .unencryptedServerHello

def clientAck : BluefinPacket :=
  buildEmptyEncryptedPacket P.clientConnId P.serverConnId (P.clientPacketNumber + 1) .clientAck

theorem clientHello_encodable : (clientHello P).Encodable :=
  handshakePacket_encodable _ _ _ (by decide)

theorem serverHello_encodable : (serverHello P).Encodable :=
  handshakePacket_encodable _ _ _ (by decide)

theorem clientAck_encodable : (clientAck P).Encodable :=
  handshakePacket_encodable _ _ _ (by decide)

theorem clientAck_isHello : isHelloPacket .packLeader (clientAck P) = false := by
  simp [isHelloPacket, clientAck, buildEmptyEncryptedPacket, BluefinHeader.new,
    BluefinHeader.withPacketNumber]

theorem clientHello_isClientAck : isClientAckPacket .packLeader (clientHello P) = false := by
  simp [isClientAckPacket, clientHello, buildEmptyEncryptedPacket, BluefinHeader.new,
    BluefinHeader.withPacketNumber]

/-- What is on its way. Before the server has answered (`a`), that is nothing after the hello. -/
structure Wire (a : Prop) (st : State) : Prop where
  to_server : ∀ d ∈ st.toServer,
    d = (clientHello P).serialise ∨ d = (clientAck P).serialise ∧ a
  to_client : ∀ d ∈ st.toClient, d = (serverHello P).serialise ∧ a
  at_server : ∀ x ∈ st.server.inHand, x.1.packets = [clientHello P] ∨
    x.1.packets = [clientAck P] ∧ x.1.isHello = false ∧ a
  at_client : ∀ x ∈ st.client.inHand, x.1.packets = [serverHello P] ∧ a
  queued : ∀ x ∈ st.server.host.helloState.helloQueue, x.1 = clientHello P

/-! ### The client -/

structure ClientBuffer (a : Prop) (b : ConnectionManagedBuffers) : Prop where
  acks : b.ackBuff = .new (P.clientPacketNumber + 2)
  host : b.connBuff.hostType = .client
  start : b.connBuff.start = none ∨ b.connBuff.start = some (P.serverPacketNumber + 1)
  packet : ∀ p, b.connBuff.packet = some p →
    p = serverHello P ∧ a ∧ b.connBuff.start = some (P.serverPacketNumber + 1)

def ConnectPc.Ok (a : Prop) (start : Option UInt64) : ConnectPc → Prop
  | .gotHello p => p = serverHello P ∧ a ∧ start = some (P.serverPacketNumber + 1)
  | .removed dst | .inserted dst =>
    dst = P.serverConnId ∧ a ∧ start = some (P.serverPacketNumber + 1)
  | .done conn => conn = ⟨P.clientConnId, P.serverConnId, P.clientPacketNumber + 2⟩ ∧
    start = some (P.serverPacketNumber + 1)
  | _ => True

structure Client (a : Prop) (host : Host) (pc : ConnectPc) : Prop where
  buffer : pc ≠ .start → ClientBuffer P a (host.buffers connRef)
  pc_ok : pc.Ok P a (host.buffers connRef).connBuff.start

/-! ### The server, on either way -/

structure ServerBuffer (a : Prop) (b : ConnectionManagedBuffers) : Prop where
  acks : b.ackBuff = .new (P.serverPacketNumber + 1)
  host : b.connBuff.hostType = .packLeader
  packet : ∀ p, b.connBuff.packet = some p → p = clientHello P ∨ p = clientAck P ∧ a

def AcceptPc.Ok (a : Prop) : AcceptPc → Prop
  | .start | .registered | .waiting => ¬ a
  | .gotHello p _ => p = clientHello P ∧ ¬ a
  | .removed dst _ _ | .inserted dst _ _ => dst = P.clientConnId ∧ ¬ a
  | .awaitAck dst _ => dst = P.clientConnId
  | .done conn => conn = ⟨P.serverConnId, P.clientConnId, P.serverPacketNumber + 1⟩
  | .failed _ => True

structure Server (a : Prop) (host : Host) (pc : AcceptPc) : Prop where
  buffer : pc ≠ .start → ServerBuffer P a (host.buffers connRef)
  pc_ok : pc.Ok P a

end

variable {P : Setup} {a : Prop}

theorem Client.ok_at {host : Host} {pc pc' : ConnectPc} (h : Client P a host pc) (hpc : pc = pc') :
    pc'.Ok P a (host.buffers connRef).connBuff.start :=
  hpc ▸ h.pc_ok

theorem Server.ok_at {host : Host} {pc pc' : AcceptPc} (h : Server P a host pc) (hpc : pc = pc') :
    pc'.Ok P a :=
  hpc ▸ h.pc_ok

theorem ClientBuffer.fills {hand : List (ReaderTxChannel.Delivery × Option BufferRef)}
    {b b' : ConnectionManagedBuffers} (h : ClientBuffer P a b)
    (hhand : ∀ x ∈ hand, x.1.packets = [serverHello P] ∧ a) (hf : Fills .client hand b b') :
    ClientBuffer P a b' := by
  cases hf with
  | same hacks hhost hpacket hstart =>
    refine ⟨hacks.trans h.acks, hhost.trans h.host, ?_, ?_⟩
    · rw [hstart]
      exact h.start
    · rw [hstart, hpacket]
      exact h.packet
  | @packet d ref p hd hp hkind hacks hhost hpacket hstart =>
    obtain ⟨hd', ha⟩ := hhand _ hd
    obtain rfl : p = serverHello P := by simpa [hp] using hd'
    have hstart' : b'.connBuff.start = some (P.serverPacketNumber + 1) := by
      rw [hstart, h.host]
      rcases h.start with hs | hs <;> rw [hs] <;> rfl
    refine ⟨hacks.trans h.acks, hhost.trans h.host, .inr hstart', ?_⟩
    intro q hq
    rw [hpacket] at hq
    cases hq
    exact ⟨rfl, ha, hstart'⟩

theorem Fills.start_some {hostType : BluefinHost}
    {hand : List (ReaderTxChannel.Delivery × Option BufferRef)}
    {b b' : ConnectionManagedBuffers} {n : UInt64} (hf : Fills hostType hand b b')
    (h : b.connBuff.start = some n) : b'.connBuff.start = some n := by
  cases hf with
  | same _ _ _ hstart => rw [hstart, h]
  | packet _ _ _ _ _ _ hstart => rw [hstart, h, Option.getD_some]

theorem ServerBuffer.fills {hand : List (ReaderTxChannel.Delivery × Option BufferRef)}
    {b b' : ConnectionManagedBuffers} (h : ServerBuffer P a b)
    (hhand : ∀ x ∈ hand, x.1.packets = [clientHello P] ∨
      x.1.packets = [clientAck P] ∧ x.1.isHello = false ∧ a)
    (hf : Fills .packLeader hand b b') : ServerBuffer P a b' := by
  cases hf with
  | same hacks hhost hpacket hstart =>
    refine ⟨hacks.trans h.acks, hhost.trans h.host, ?_⟩
    rw [hpacket]
    exact h.packet
  | @packet d ref p hd hp hkind hacks hhost hpacket hstart =>
    refine ⟨hacks.trans h.acks, hhost.trans h.host, ?_⟩
    intro q hq
    rw [hpacket] at hq
    cases hq
    rcases hhand _ hd with hd' | ⟨hd', _, ha⟩
    · exact .inl (by simpa [hp] using hd')
    · exact .inr ⟨by simpa [hp] using hd', ha⟩

theorem poll_clientBuffer {b : ConnectionManagedBuffers} {c : ConnectionBuffer}
    (h : ClientBuffer P a b) (hhost : c.hostType = b.connBuff.hostType) (hpacket : c.packet = none)
    (hstart : c.start = b.connBuff.start) : ClientBuffer P a { b with connBuff := c } where
  acks := h.acks
  host := hhost.trans h.host
  start := by
    rw [hstart]
    exact h.start
  packet := by
    intro p hp
    rw [hpacket] at hp
    cases hp

theorem ClientBuffer.polled {host : Host} {c : ConnectionBuffer}
    (h : ClientBuffer P a (host.buffers connRef))
    (hhost : c.hostType = (host.buffers connRef).connBuff.hostType) (hpacket : c.packet = none)
    (hstart : c.start = (host.buffers connRef).connBuff.start) :
    ClientBuffer P a ((host.setConnBuff connRef c).buffers connRef) := by
  rw [Host.setConnBuff_buffers]
  exact poll_clientBuffer h hhost hpacket hstart

theorem client_connect {st st' : State} (h : Client P a st.client.host st.connect)
    (hm : ConnectMoves P st st') : Client P a st'.client.host st'.connect := by
  have hbuffer : ∀ {pc : ConnectPc}, st.connect = pc → pc ≠ .start →
      ClientBuffer P a (st.client.host.buffers connRef) := by
    intro pc hpc hne
    exact h.buffer (by rwa [hpc])
  cases hm with
  | @opens host pc hpc hnew hnext =>
    change Client P a host pc
    refine ⟨fun _ => ?_, ?_⟩
    · rw [hnew]
      exact ⟨rfl, rfl, .inl rfl, by simp [newBuffers, ConnectionBuffer.new]⟩
    · rcases hnext with rfl | ⟨e, rfl⟩ <;> exact trivial
  | greets hpc => exact ⟨fun _ => hbuffer hpc (by simp), trivial⟩
  | pends hpc hpoll =>
    obtain ⟨hhost, hpacket, hstart⟩ := poll_none hpoll
    exact ⟨fun _ => (hbuffer hpc (by simp)).polled hhost hpacket hstart, trivial⟩
  | reads hpc hpoll =>
    obtain ⟨hslot, hhost, hpacket, hstart⟩ := poll_some hpoll
    have hb := hbuffer hpc (by simp)
    obtain ⟨hhello, ha, hset⟩ := hb.packet _ hslot
    refine ⟨fun _ => hb.polled hhost hpacket hstart, hhello, ha, ?_⟩
    rw [State.atConnect, Host.setConnBuff_buffers]
    exact hstart.trans hset
  | @fails host e hpc hsame =>
    refine ⟨fun _ => ?_, trivial⟩
    rw [State.atConnect, hsame]
    exact h.buffer hpc
  | @removes p host hpc hsame =>
    have hok := h.ok_at hpc
    obtain ⟨rfl, ha, hset⟩ := hok
    refine ⟨fun _ => ?_, rfl, ha, ?_⟩
    · rw [State.atConnect, hsame]
      exact hbuffer hpc (by simp)
    · rw [State.atConnect, hsame]
      exact hset
  | @inserts dst host hpc hsame =>
    have hok := h.ok_at hpc
    obtain ⟨hdst, ha, hset⟩ := hok
    refine ⟨fun _ => ?_, hdst, ha, ?_⟩
    · rw [State.atConnect, hsame]
      exact hbuffer hpc (by simp)
    · rw [State.atConnect, hsame]
      exact hset
  | @acks dst hpc =>
    have hok := h.ok_at hpc
    obtain ⟨rfl, ha, hset⟩ := hok
    exact ⟨fun _ => hbuffer hpc (by simp), rfl, hset⟩

theorem ConnectPc.Ok.start_some {start start' : Option UInt64} {pc : ConnectPc}
    (h : pc.Ok P a start) (hkeep : ∀ n, start = some n → start' = some n) :
    pc.Ok P a start' := by
  cases pc with
  | gotHello p => exact ⟨h.1, h.2.1, hkeep _ h.2.2⟩
  | removed dst => exact ⟨h.1, h.2.1, hkeep _ h.2.2⟩
  | inserted dst => exact ⟨h.1, h.2.1, hkeep _ h.2.2⟩
  | done conn => exact ⟨h.1, hkeep _ h.2⟩
  | start => exact trivial
  | registered => exact trivial
  | waiting => exact trivial
  | failed e => exact trivial

theorem client_worker {sent : List Bytes} {addr : SocketAddr} {side side' : Side} {pc : ConnectPc}
    (h : Client P a side.host pc)
    (hhand : ∀ x ∈ side.inHand, x.1.packets = [serverHello P] ∧ a)
    (hm : WorkerMoves .client sent addr side side') : Client P a side'.host pc := by
  have hf := worker_fills hm fun x hx => ⟨_, (hhand x hx).1, PacketType.noConfusion⟩
  exact ⟨fun hne => (h.buffer hne).fills hhand hf, h.pc_ok.start_some fun n => hf.start_some⟩

theorem ServerBuffer.mono {a' : Prop} {b : ConnectionManagedBuffers} (h : ServerBuffer P a b)
    (ha : a → a') : ServerBuffer P a' b where
  acks := h.acks
  host := h.host
  packet := fun p hp => (h.packet p hp).imp id fun hack => ⟨hack.1, ha hack.2⟩

theorem poll_serverBuffer {b : ConnectionManagedBuffers} {c : ConnectionBuffer}
    (h : ServerBuffer P a b) (hhost : c.hostType = b.connBuff.hostType)
    (hpacket : c.packet = none) : ServerBuffer P a { b with connBuff := c } where
  acks := h.acks
  host := hhost.trans h.host
  packet := by
    intro p hp
    rw [hpacket] at hp
    cases hp

theorem ServerBuffer.polled {host : Host} {c : ConnectionBuffer}
    (h : ServerBuffer P a (host.buffers connRef))
    (hhost : c.hostType = (host.buffers connRef).connBuff.hostType) (hpacket : c.packet = none) :
    ServerBuffer P a ((host.setConnBuff connRef c).buffers connRef) := by
  rw [Host.setConnBuff_buffers]
  exact poll_serverBuffer h hhost hpacket

abbrev State.Answered (st : State) : Prop := st.toClient ≠ []

theorem accept_answered {st st' : State} (hm : AcceptMoves P st st') (h : st.Answered) :
    st'.Answered := by
  cases hm with
  | answers hpc hsent =>
    rcases hsent with rfl | rfl
    · exact h
    · exact List.append_ne_nil_of_right_ne_nil _ (by simp)
  | _ => exact h

theorem server_accept {st st' : State} (h : Server P st.Answered st.server.host st.accept)
    (hqueue : ∀ x ∈ st.server.host.helloState.helloQueue, x.1 = clientHello P)
    (hm : AcceptMoves P st st') : Server P st'.Answered st'.server.host st'.accept := by
  have hbuffer : ∀ {pc : AcceptPc}, st.accept = pc → pc ≠ .start →
      ServerBuffer P st.Answered (st.server.host.buffers connRef) := by
    intro pc hpc hne
    exact h.buffer (by rwa [hpc])
  cases hm with
  | @opens host pc hpc hnew hstate hnext =>
    have hok := h.ok_at hpc
    refine ⟨fun _ => ?_, ?_⟩
    · rw [State.atAccept, hnew]
      exact ⟨rfl, rfl, by simp [newBuffers, ConnectionBuffer.new]⟩
    · rcases hnext with rfl | ⟨e, rfl⟩
      · exact hok
      · exact trivial
  | @pops packet addr queue hpc hhead =>
    have hok := h.ok_at hpc
    refine ⟨fun _ => hbuffer hpc (by simp), ?_, hok⟩
    exact hqueue (packet, addr) (by rw [hhead]; exact List.mem_cons_self ..)
  | slots hpc hempty =>
    have hok := h.ok_at hpc
    exact ⟨fun _ => hbuffer hpc (by simp), hok⟩
  | @pends b hpc hpoll =>
    obtain ⟨hhost, hpacket, hstart⟩ := poll_none hpoll
    exact ⟨fun hne => (h.buffer hne).polled hhost hpacket, h.pc_ok⟩
  | @reads packet addr b hpc hpoll =>
    obtain ⟨hslot, hhost, hpacket, hstart⟩ := poll_some hpoll
    have hb := hbuffer hpc (by simp)
    have hok := h.ok_at hpc
    refine ⟨fun _ => hb.polled hhost hpacket, ?_, hok⟩
    -- no ack can have come before the answer
    rcases hb.packet _ hslot with hhello | ⟨_, ha⟩
    · exact hhello
    · exact absurd ha hok
  | fails hpc hsame hstate =>
    refine ⟨fun _ => ?_, trivial⟩
    rw [State.atAccept, hsame]
    exact h.buffer hpc.1
  | removes hpc hsame hstate =>
    have hok := h.ok_at hpc
    obtain ⟨rfl, hna⟩ := hok
    refine ⟨fun _ => ?_, rfl, hna⟩
    rw [State.atAccept, hsame]
    exact hbuffer hpc (by simp)
  | inserts hpc hsame hstate =>
    have hok := h.ok_at hpc
    refine ⟨fun _ => ?_, hok⟩
    rw [State.atAccept, hsame]
    exact hbuffer hpc (by simp)
  | answers hpc hsent =>
    have hok := h.ok_at hpc
    have ha := accept_answered (AcceptMoves.answers hpc hsent)
    exact ⟨fun _ => (hbuffer hpc (by simp)).mono ha, hok.1⟩
  | refuses hpc hpoll =>
    obtain ⟨_, hhost, hpacket, _⟩ := poll_some hpoll
    exact ⟨fun _ => (hbuffer hpc (by simp)).polled hhost hpacket, trivial⟩
  | @finishes dst num _ _ b hpc hpoll =>
    obtain ⟨_, hhost, hpacket, _⟩ := poll_some hpoll
    have hok := h.ok_at hpc
    refine ⟨fun _ => (hbuffer hpc (by simp)).polled hhost hpacket, ?_⟩
    obtain rfl : dst = P.clientConnId := hok
    exact rfl

theorem server_fills {sent : List Bytes} {addr : SocketAddr} {side side' : Side}
    (hhand : ∀ x ∈ side.inHand, x.1.packets = [clientHello P] ∨
      x.1.packets = [clientAck P] ∧ x.1.isHello = false ∧ a)
    (hm : WorkerMoves .packLeader sent addr side side') :
    Fills .packLeader side.inHand (side.host.buffers connRef) (side'.host.buffers connRef) := by
  refine worker_fills hm fun x hx => ?_
  rcases hhand x hx with hx | ⟨hx, _⟩
  · exact ⟨_, hx, PacketType.noConfusion⟩
  · exact ⟨_, hx, PacketType.noConfusion⟩

/-! ### The wire -/

theorem Wire.mono {a' : Prop} {st : State} (h : Wire P a st) (ha : a → a') : Wire P a' st where
  to_server := fun d hd => (h.to_server d hd).imp id fun hack => ⟨hack.1, ha hack.2⟩
  to_client := fun d hd => ⟨(h.to_client d hd).1, ha (h.to_client d hd).2⟩
  at_server := fun x hx => (h.at_server x hx).imp id fun hack => ⟨hack.1, hack.2.1, ha hack.2.2⟩
  at_client := fun x hx => ⟨(h.at_client x hx).1, ha (h.at_client x hx).2⟩
  queued := h.queued

theorem wire_connect {st st' : State} (h : Wire P a st)
    (hc : Client P a st.client.host st.connect) (hm : ConnectMoves P st st') : Wire P a st' := by
  cases hm with
  | greets hpc =>
    refine ⟨fun d hd => ?_, h.to_client, h.at_server, h.at_client, h.queued⟩
    rcases List.mem_append.mp hd with hd | hd
    · exact h.to_server d hd
    · exact .inl (List.mem_singleton.mp hd)
  | acks hpc =>
    have hok := hc.ok_at hpc
    obtain ⟨rfl, ha, _⟩ := hok
    refine ⟨fun d hd => ?_, h.to_client, h.at_server, h.at_client, h.queued⟩
    rcases List.mem_append.mp hd with hd | hd
    · exact h.to_server d hd
    · exact .inr ⟨List.mem_singleton.mp hd, ha⟩
  | _ => exact ⟨h.to_server, h.to_client, h.at_server, h.at_client, h.queued⟩

theorem wire_accept {st st' : State} (h : Wire P st.Answered st)
    (hs : Server P st.Answered st.server.host st.accept) (hm : AcceptMoves P st st') :
    Wire P st'.Answered st' := by
  have h' := h.mono (accept_answered hm)
  have hsame : ∀ {host : Host} {pc : AcceptPc}, host.helloState = st.server.host.helloState →
      Wire P st.Answered (st.atAccept host pc) := by
    intro host pc hstate
    refine ⟨h.to_server, h.to_client, h.at_server, h.at_client, ?_⟩
    rw [State.atAccept, hstate]
    exact h.queued
  cases hm with
  | opens hpc hnew hstate hnext => exact hsame hstate
  | pops hpc hhead =>
    refine ⟨h.to_server, h.to_client, h.at_server, h.at_client, fun x hx => h.queued x ?_⟩
    rw [hhead]
    exact List.mem_cons_of_mem _ hx
  | slots => exact ⟨h.to_server, h.to_client, h.at_server, h.at_client, h.queued⟩
  | pends => exact hsame rfl
  | reads => exact hsame rfl
  | fails hpc hbuffers hstate => exact hsame hstate
  | removes hpc hbuffers hstate => exact hsame hstate
  | inserts hpc hbuffers hstate => exact hsame hstate
  | answers hpc hsent =>
    have hok := hs.ok_at hpc
    obtain ⟨rfl, _⟩ := hok
    refine ⟨h'.to_server, fun d hd => ?_, h'.at_server, h'.at_client, h'.queued⟩
    refine ⟨?_, List.ne_nil_of_mem hd⟩
    rcases hsent with rfl | rfl
    · exact (h.to_client d hd).1
    · rcases List.mem_append.mp hd with hd | hd
      · exact (h.to_client d hd).1
      · exact List.mem_singleton.mp hd
  | refuses => exact hsame rfl
  | finishes => exact hsame rfl

theorem wire_client {st : State} {side : Side} (h : Wire P a st)
    (hm : WorkerMoves .client st.toClient P.serverAddr st.client side) :
    Wire P a { st with client := side } := by
  refine ⟨h.to_server, h.to_client, h.at_server, fun x hx => ?_, h.queued⟩
  rcases worker_hand hm hx with ⟨y, hy, hxy⟩ | ⟨datagram, hsent, hrecv⟩
  · rw [hxy]
    exact h.at_client y hy
  · obtain ⟨rfl, ha⟩ := h.to_client datagram hsent
    rw [receive_serialise (serverHello_encodable P)] at hrecv
    exact ⟨classify_client hrecv _ rfl, ha⟩

theorem server_takes {st : State} (h : Wire P a st) {datagram : Bytes}
    (hsent : datagram ∈ st.toServer) {state state' : HelloState}
    {o : Option ReaderTxChannel.Delivery}
    (hrecv : ReaderTxChannel.receive .packLeader state datagram P.clientAddr =
      .goOn (state', o)) :
    ServerTakes (clientHello P) state state' o ∨ ServerTakes (clientAck P) state state' o ∧ a := by
  rcases h.to_server datagram hsent with rfl | ⟨rfl, ha⟩
  · rw [receive_serialise (clientHello_encodable P)] at hrecv
    exact .inl (classify_packLeader hrecv)
  · rw [receive_serialise (clientAck_encodable P)] at hrecv
    exact .inr ⟨classify_packLeader hrecv, ha⟩

theorem wire_server {st : State} {side : Side} (h : Wire P a st)
    (hm : WorkerMoves .packLeader st.toServer P.clientAddr st.server side) :
    Wire P a { st with server := side } := by
  refine ⟨h.to_server, h.to_client, fun x hx => ?_, h.at_client, fun x hx => ?_⟩
  · rcases worker_hand hm hx with ⟨y, hy, hxy⟩ | ⟨datagram, hsent, hrecv⟩
    · rw [hxy]
      exact h.at_server y hy
    · rcases server_takes h hsent hrecv with ht | ⟨ht, ha⟩
      · exact .inl (ht.delivery _ rfl).1
      · obtain ⟨hp, hhello⟩ := ht.delivery _ rfl
        exact .inr ⟨hp, hhello.trans (clientAck_isHello P), ha⟩
  · rcases worker_hello hm with hstate | ⟨datagram, hsent, o, hrecv⟩
    · rw [hstate] at hx
      exact h.queued x hx
    · rcases server_takes h hsent hrecv with ht | ⟨ht, ha⟩
      · rcases ht.queue x hx with hx | ⟨hx, _⟩
        · exact h.queued x hx
        · exact hx
      · rcases ht.queue x hx with hx | ⟨_, hhello⟩
        · exact h.queued x hx
        · rw [clientAck_isHello] at hhello
          cases hhello

end Handshake

end Bluefin
