import Bluefin.Net.HandshakeAgreement
import Bluefin.Net.HandshakePhases
import Bluefin.Worker.Transfer

/-!
# From the handshake to the data

What `accept()` and `connect()` leave in the buffers is what the readers of the two connections
start with. Up to then only handshake packets have come, and none of them goes into the
reassembly buffer: it is empty and starts where the first of them said. A hello that was queued
makes the server start one number late; what the first data packet of the client carries is then
never handed out, and nothing tells the reader so (`session_reads`). The data phase is taken to
begin when both calls have returned.
-/

namespace Bluefin
open Base

namespace Handshake
open Reader (handedOut)

/-! ### The receive buffer during a handshake -/

structure Fresh (b : ConnectionManagedBuffers) : Prop where
  bytes : ∃ connId n, b.connBuff.orderedBytes = .new connId n
  addr : b.connBuff.startPacketNumberSet = true → b.connBuff.addr ≠ none
  flag : b.closeBuff.peerFinObserved = false

theorem fresh_new (srcConnId : UInt32) (hostType : BluefinHost) (first : UInt64) :
    Fresh (newBuffers srcConnId hostType first) where
  bytes := ⟨srcConnId, 0, rfl⟩
  addr := fun h => by cases h
  flag := rfl

theorem startNumber_new (hostType : BluefinHost) (packetNum : UInt64) (connId : UInt32)
    (n : UInt64) : ∃ n', ConnectionBuffer.startNumber hostType packetNum (.new connId n) =
      .new connId n' := by
  cases hostType with
  | packLeader => exact ⟨packetNum + 2, rfl⟩
  | client => exact ⟨packetNum + 1, rfl⟩
  | packFollower => exact ⟨n, rfl⟩

theorem bufferInAddr_addr (b : ConnectionBuffer) (addr : SocketAddr) :
    (b.bufferInAddr addr).2.orderedBytes = b.orderedBytes ∧ (b.bufferInAddr addr).2.addr ≠ none := by
  unfold ConnectionBuffer.bufferInAddr
  split
  · rename_i hsome
    exact ⟨rfl, by rw [hsome]; simp⟩
  · exact ⟨rfl, by simp⟩

/-- A handshake packet goes into its slot, and the first one moves the window. -/
theorem bufferToConnBuffer_fresh {b : ConnectionManagedBuffers} {isHello isClientAck : Bool}
    (h : Fresh b) (hslot : (!isHello && !isClientAck) = false) (p : BluefinPacket)
    (addr : SocketAddr) : Fresh { b with
      connBuff :=
        (ReaderTxChannel.bufferToConnBuffer b.connBuff p addr isHello isClientAck).2.1 } := by
  unfold ReaderTxChannel.bufferToConnBuffer
  simp only [hslot, Bool.false_eq_true, if_false]
  cases hpacket : b.connBuff.packet with
  | some q =>
    obtain ⟨hres, hsame⟩ := bufferInPacket_some hpacket p
    rcases hput : b.connBuff.bufferInPacket p with ⟨res, c⟩
    rw [hput] at hres hsame
    obtain rfl : c = b.connBuff := hsame
    cases res with
    | ok u => cases hres
    | err e => exact h
    | panicked f => exact h
  | none =>
    obtain ⟨connId, n, hbytes⟩ := h.bytes
    have hput : ∃ c n', b.connBuff.bufferInPacket p = (.ok (), c) ∧
        c.orderedBytes = .new connId n' := by
      unfold ConnectionBuffer.bufferInPacket
      rw [hpacket]
      dsimp only
      split
      · exact ⟨_, n, rfl, hbytes⟩
      · obtain ⟨n', hn'⟩ := startNumber_new b.connBuff.hostType p.header.packetNumber connId n
        exact ⟨_, n', rfl, by rw [hbytes, hn']⟩
    obtain ⟨c, n', hput, hnew⟩ := hput
    obtain ⟨hkeep, haddr⟩ := bufferInAddr_addr c addr
    simp only [hput, Outcome.orReturn]
    split
    · exact ⟨⟨connId, n', hkeep.trans hnew⟩, fun _ => haddr, h.flag⟩
    · exact ⟨⟨connId, n', hkeep.trans hnew⟩, fun _ => haddr, h.flag⟩

theorem Fresh.bufferInData {b : ConnectionManagedBuffers} {isHello : Bool} {hostType : BluefinHost}
    {p : BluefinPacket} (h : Fresh b) (addr : SocketAddr)
    (hkind : isHello = true ∨ isClientAckPacket hostType p = true) :
    Fresh (ReaderTxChannel.bufferInData isHello hostType p addr b).2.1 := by
  have hslot : (!isHello && !isClientAckPacket hostType p) = false := by
    rcases hkind with hkind | hkind <;> simp [hkind]
  have hack : (!isClientAckPacket hostType p && !isHello && decide (p.header.typeField = .ack)) =
      false := by
    rcases hkind with hkind | hkind <;> simp [hkind]
  unfold ReaderTxChannel.bufferInData
  simp only [hack, Bool.false_eq_true, if_false]
  exact bufferToConnBuffer_fresh h hslot p addr

theorem Fresh.polled {b : ConnectionManagedBuffers} {res : Option (BluefinPacket × SocketAddr)}
    {c : ConnectionBuffer} (h : Fresh b) (hpoll : b.connBuff.pollHandshake callWaker = (res, c)) :
    Fresh { b with connBuff := c } := by
  unfold ConnectionBuffer.pollHandshake at hpoll
  split at hpoll
  · cases hpoll
    exact ⟨h.bytes, h.addr, h.flag⟩
  · cases hpoll
    exact ⟨h.bytes, h.addr, h.flag⟩

/-! ### The datagrams of a handshake -/

/-- None of the packets in the workers' hands is taken for data. -/
def HandshakeOnly (hostType : BluefinHost)
    (hand : List (ReaderTxChannel.Delivery × Option BufferRef)) : Prop :=
  ∀ x ∈ hand, ∃ p, x.1.packets = [p] ∧ (x.1.isHello = true ∨ isClientAckPacket hostType p = true)

theorem fresh_worker {hostType : BluefinHost} {sent : List Bytes} {addr : SocketAddr}
    {side side' : Side} (h : Fresh (side.host.buffers connRef))
    (hhand : HandshakeOnly hostType side.inHand) (hm : WorkerMoves hostType sent addr side side') :
    Fresh (side'.host.buffers connRef) := by
  cases hm with
  | keeps | takes | drops | finds => exact h
  | @buffers i d ref hd =>
    obtain ⟨p, hp, hkind⟩ : ∃ p, d.packets = [p] ∧
        (d.isHello = true ∨ isClientAckPacket hostType p = true) :=
      hhand _ (List.mem_of_getElem? hd)
    by_cases href : connRef = ref
    · subst href
      have hput := h.bufferInData d.addr hkind
      simpa [ReaderTxChannel.buffer, hp] using hput
    · have hsame : (ReaderTxChannel.buffer hostType side.host d ref).buffers connRef =
          side.host.buffers connRef := by
        simp only [ReaderTxChannel.buffer]
        exact Function.update_of_ne href _ _
      dsimp only
      rw [hsame]
      exact h

section

variable {P : Setup} {st st' : State}

theorem classify_isHello {p : BluefinPacket} {addr : SocketAddr} {state state' : HelloState}
    {o : Option ReaderTxChannel.Delivery} (hhello : isHelloPacket .client p = true)
    (h : ReaderTxChannel.classify .client state [p] addr = .goOn (state', o)) :
    ∀ d ∈ o, d.isHello = true := by
  simp only [ReaderTxChannel.classify, ReaderTxChannel.handleHelloSingle, hhello, if_true] at h
  cases h
  intro d hd
  cases hd
  rfl

theorem handshakeOnly_server {side : Side} (hP : P.Accepted)
    (hw : Wire P st.Answered st) (h : HandshakeOnly .packLeader st.server.inHand)
    (hm : WorkerMoves .packLeader st.toServer P.clientAddr st.server side) :
    HandshakeOnly .packLeader side.inHand := by
  intro x hx
  rcases worker_hand hm hx with ⟨y, hy, hxy⟩ | ⟨datagram, hsent, hrecv⟩
  · rw [hxy]
    exact h y hy
  · rcases server_takes hw hsent hrecv with ht | ⟨ht, -⟩
    · obtain ⟨hp, hhello⟩ := ht.delivery _ rfl
      exact ⟨_, hp, .inl (hhello.trans (clientHello_isHello hP))⟩
    · obtain ⟨hp, -⟩ := ht.delivery _ rfl
      exact ⟨_, hp, .inr (clientAck_isClientAck hP)⟩

theorem handshakeOnly_client {side : Side} (hP : P.Accepted)
    (hw : Wire P st.Answered st) (h : HandshakeOnly .client st.client.inHand)
    (hm : WorkerMoves .client st.toClient P.serverAddr st.client side) :
    HandshakeOnly .client side.inHand := by
  intro x hx
  rcases worker_hand hm hx with ⟨y, hy, hxy⟩ | ⟨datagram, hsent, hrecv⟩
  · rw [hxy]
    exact h y hy
  · obtain ⟨rfl, -⟩ := hw.to_client datagram hsent
    rw [receive_serialise (serverHello_encodable P)] at hrecv
    exact ⟨_, classify_client hrecv _ rfl,
      .inl (classify_isHello (serverHello_isHello hP) hrecv _ rfl)⟩

/-! ### Runs of the handshake -/

structure Clean (st : State) : Prop where
  at_server : HandshakeOnly .packLeader st.server.inHand
  at_client : HandshakeOnly .client st.client.inHand
  server : st.accept ≠ .start → Fresh (st.server.host.buffers connRef)
  client : st.connect ≠ .start → Fresh (st.client.host.buffers connRef)

theorem clean_connect (h : Clean st) (hm : ConnectMoves P st st') : Clean st' := by
  obtain ⟨hatServer, hatClient, hserver, hclient⟩ := h
  cases hm with
  | @opens host pc hpc hnew hnext =>
    refine ⟨hatServer, hatClient, hserver, fun _ => ?_⟩
    rw [State.atConnect, hnew]
    exact fresh_new ..
  | greets hpc => exact ⟨hatServer, hatClient, hserver, fun _ => hclient (by simp [hpc])⟩
  | pends hpc hpoll | reads hpc hpoll =>
    refine ⟨hatServer, hatClient, hserver, fun _ => ?_⟩
    rw [State.atConnect, Host.setConnBuff_buffers]
    exact (hclient (by simp [hpc])).polled hpoll
  | @fails host e hpc hsame =>
    refine ⟨hatServer, hatClient, hserver, fun _ => ?_⟩
    rw [State.atConnect, hsame]
    exact hclient hpc
  | removes hpc hsame | inserts hpc hsame =>
    refine ⟨hatServer, hatClient, hserver, fun _ => ?_⟩
    rw [State.atConnect, hsame]
    exact hclient (by simp [hpc])
  | acks hpc => exact ⟨hatServer, hatClient, hserver, fun _ => hclient (by simp [hpc])⟩

theorem clean_accept (h : Clean st) (hm : AcceptMoves P st st') : Clean st' := by
  obtain ⟨hatServer, hatClient, hserver, hclient⟩ := h
  cases hm with
  | @opens host pc hpc hnew hstate hnext =>
    refine ⟨hatServer, hatClient, fun _ => ?_, hclient⟩
    rw [State.atAccept, hnew]
    exact fresh_new ..
  | pops hpc | slots hpc | answers hpc =>
    exact ⟨hatServer, hatClient, fun _ => hserver (by simp [hpc]), hclient⟩
  | pends hpc hpoll =>
    refine ⟨hatServer, hatClient, fun hne => ?_, hclient⟩
    rw [State.atAccept, Host.setConnBuff_buffers]
    exact (hserver hne).polled hpoll
  | reads hpc hpoll | refuses hpc hpoll | finishes hpc hpoll =>
    refine ⟨hatServer, hatClient, fun _ => ?_, hclient⟩
    rw [State.atAccept, Host.setConnBuff_buffers]
    exact (hserver (by simp [hpc])).polled hpoll
  | fails hpc hsame hstate =>
    refine ⟨hatServer, hatClient, fun _ => ?_, hclient⟩
    rw [State.atAccept, hsame]
    exact hserver hpc.1
  | removes hpc hsame hstate | inserts hpc hsame hstate =>
    refine ⟨hatServer, hatClient, fun _ => ?_, hclient⟩
    rw [State.atAccept, hsame]
    exact hserver (by simp [hpc])

theorem clean_run {acts : List Action} (hP : P.Accepted)
    (hrun : Run (Step P) init acts st) : Clean st := by
  induction hrun with
  | nil =>
    exact ⟨by simp [init, HandshakeOnly], by simp [init, HandshakeOnly], fun h => absurd rfl h,
      fun h => absurd rfl h⟩
  | snoc hr hstep ih =>
    have hw := (run_ways hr).1.wire
    cases step_moves hstep with
    | connect hm => exact clean_connect ih hm
    | accept hm => exact clean_accept ih hm
    | atClient hm =>
      exact ⟨ih.at_server, handshakeOnly_client hP hw ih.at_client hm, ih.server,
        fun hne => fresh_worker (ih.client hne) ih.at_client hm⟩
    | atServer hm =>
      exact ⟨handshakeOnly_server hP hw ih.at_server hm, ih.at_client,
        fun hne => fresh_worker (ih.server hne) ih.at_server hm, ih.client⟩

/-- connection.rs:343-351: the connection adds the channel of its FinAcks. -/
def dataBuffers (b : ConnectionManagedBuffers) : ConnectionManagedBuffers :=
  { b with finAckTx := some [] }

theorem established_of_fresh {b : ConnectionManagedBuffers} {n : UInt64} (h : Fresh b)
    (hstart : b.connBuff.start = some n) : Reader.Established n (dataBuffers b) := by
  obtain ⟨connId, m, hbytes⟩ := h.bytes
  have hsmallest := smallest_of_start hstart
  rw [hbytes] at hsmallest
  obtain rfl : m = n := hsmallest
  refine ⟨⟨connId, hbytes⟩, h.addr ?_, h.flag⟩
  unfold ConnectionBuffer.start at hstart
  split at hstart
  · rename_i hset
    exact hset
  · cases hstart

/-! ### The data after it -/

/-- A run of the data of one side, from what the handshake has left to the reader of the other. -/
abbrev DataRun (sender : BluefinConnection) (reader : Side) (acts : List Transfer.Action)
    (data : Transfer.State) : Prop :=
  Run (Transfer.Step sender.srcConnId sender.dstConnId)
    (Transfer.init sender.nextSendPacketNum (dataBuffers (reader.host.buffers connRef))) acts data

/-- The reader has and can get what has come without a gap, from packet `skip` on. -/
def ReadsFrom (skip : ℕ) (data : Transfer.State) : Prop :=
  handedOut data.reader.task.replies ++ data.reader.bytes.readable =
    ((Transfer.through skip data).map BluefinPacket.payload).flatten

/-- After a handshake that both calls finish. The client reads what the server has sent from its
first packet on. So does the server what the client has sent, if `accept()` had found the hello
queue empty; otherwise it reads on from the second packet and never gets the first. -/
theorem session_reads {acts : List Action} {server client : BluefinConnection}
    (hP : P.Accepted) (hsmall : client.nextSendPacketNum.toNat + 1 < 2 ^ 64)
    (hrun : Run (Step P) init acts st)
    (haccept : st.accept = .done server) (hconnect : st.connect = .done client)
    (dataActs : List Transfer.Action) (data : Transfer.State) :
    (DataRun client st.server dataActs data →
      Transfer.Room client.nextSendPacketNum data →
        (Run (StepWhen P SlotFirst) init acts st → ReadsFrom 0 data) ∧
        (¬ Run (StepWhen P SlotFirst) init acts st → ReadsFrom 1 data)) ∧
    (DataRun server st.client dataActs data →
      Transfer.Room server.nextSendPacketNum data → ReadsFrom 0 data) := by
  have hclean := clean_run hP hrun
  have hfreshS := hclean.server (by simp [haccept])
  have hfreshC := hclean.client (by simp [hconnect])
  obtain ⟨hg, hway⟩ := run_ways hrun
  obtain rfl : server = _ := hg.server.ok_at haccept
  obtain ⟨rfl, hset⟩ := hg.client.ok_at hconnect
  refine ⟨fun hdata hroom => ⟨fun hslot => ?_, fun hqueued => ?_⟩, fun hdata hroom => ?_⟩
  · have hstart := (slot_run hslot).2.got (by rw [haccept]; exact trivial)
    have hb := established_of_fresh hfreshS hstart
    exact (Transfer.aligned_run hb hdata hroom).exact hroom
  · have hstart := (hway.resolve_left hqueued).done _ haccept
    have hlate : P.clientPacketNumber + 1 + 2 = P.clientPacketNumber + 2 + UInt64.ofNat 1 := by
      rw [UInt64.add_assoc, UInt64.add_assoc]
      rfl
    rw [hlate] at hstart
    have hb := established_of_fresh hfreshS hstart
    exact (Transfer.inv_run hsmall hb hdata hroom).exact hroom
  · have hb := established_of_fresh hfreshC hset
    exact (Transfer.aligned_run hb hdata hroom).exact hroom

end

/-- The client sends two bytes, each in a datagram of its own, and the server reads. -/
def twoBytes : List Transfer.Action :=
  List.flatten [Transfer.oneByte 7, List.replicate 2 (.sender (.writer .packetiser)),
    Transfer.oneByte 8,
    [.deliver (.data (BluefinPacket.serialiseAll (WriterHandler.dataPackets 1 2 12 [[7]]))),
      .deliver (.data (BluefinPacket.serialiseAll (WriterHandler.dataPackets 1 2 13 [[8]]))),
      .call (.readBytes [] 5), .task, .task, .task]]

theorem outcome_some {st : State} {server client : BluefinConnection} {n : UInt64}
    (h : st.outcome = some (server, client, n)) :
    st.accept = .done server ∧ st.connect = .done client ∧
      (st.server.host.buffers connRef).connBuff.orderedBytes.smallestPacketNumber = n := by
  unfold State.outcome at h
  split at h
  · rename_i hs hc
    cases h
    exact ⟨hs, hc, rfl⟩
  · cases h

theorem session_reads_queued : ∃ st data, Run (Step oneSetup) init queueActs st ∧
    DataRun ⟨1, 2, 12⟩ st.server twoBytes data ∧ data.sender.accepted = [7, 8] ∧
    handedOut data.reader.task.replies = [8] ∧ ReadsFrom 1 data := by
  have hcomputed : ((queueActs.foldlM (step oneSetup) init).bind fun st =>
      (twoBytes.foldlM (fun data act =>
        if Transfer.ValidCall act then Transfer.step 1 2 data act else none)
          (Transfer.init 12 (dataBuffers (st.server.host.buffers connRef)))).map fun data =>
            (st.outcome, data.sender.accepted, handedOut data.reader.task.replies)) =
      some (some (⟨2, 1, 21⟩, ⟨1, 2, 12⟩, 13), [7, 8], [8]) := by
    decide +kernel
  obtain ⟨st, hst, hrest⟩ := Option.bind_eq_some_iff.mp hcomputed
  obtain ⟨data, hdata, hfields⟩ := @Run.exists_of_foldlM _ _ (Transfer.Step 1 2) _ _ _ twoBytes _ _
    (fun _ _ _ _ h => Option.ite_none_right_eq_some.mp h) hrest
  simp only [Prod.mk.injEq] at hfields
  obtain ⟨hout, haccepted, hhanded⟩ := hfields
  have hrun : Run (Step oneSetup) init queueActs st :=
    Run.of_foldlM queueActs (fun _ _ _ _ h => h) hst
  obtain ⟨haccept, hconnect, hstart⟩ := outcome_some hout
  have hqueued : ¬ Run (StepWhen oneSetup SlotFirst) init queueActs st := by
    intro hslot
    rw [smallest_of_start ((slot_run hslot).2.got (by rw [haccept]; exact trivial))] at hstart
    exact absurd hstart (by decide)
  have hroom : Transfer.Room 12 data := by
    rw [Transfer.Room, haccepted]
    decide
  have hreads := session_reads (P := oneSetup) ⟨by decide, by decide, by decide, by decide⟩
    (by decide) hrun haccept hconnect twoBytes data
  exact ⟨st, data, hrun, hdata, haccepted, hhanded, (hreads.1 hdata hroom).2 hqueued⟩

end Handshake

end Bluefin
