import Bluefin.Net.HandshakeWire

/-!
# The packet numbers after a handshake

The first handshake packet that reaches a `ConnectionBuffer` fixes the number
its receive buffer starts at. On a server that packet is the ClientHello if
`accept()` had its slot ready, and the ClientAck, one number later, if the hello
was taken out of the queue. Hence the two sides agree on their numbers exactly
if `accept()` found the hello queue empty (`numbers_agree_iff`).
-/

namespace Bluefin
open Base

namespace Handshake

variable {P : Setup} {a : Prop}

/-! ### The slot came first -/

def AcceptPc.GotHello : AcceptPc → Prop
  | .gotHello _ _ | .removed _ _ _ | .inserted _ _ _ | .awaitAck _ _ | .done _ => True
  | _ => False

/-- The hello passes through the buffer, and before anything else does. -/
structure SlotWay (P : Setup) (a : Prop) (side : Side) (pc : AcceptPc) : Prop where
  early : pc = .start ∨ pc = .registered →
    side.host.helloState.pendingAcceptIds = [] ∧ ∀ x ∈ side.inHand, x.1.isHello = false
  fresh : pc = .registered → (side.host.buffers connRef).connBuff.start = none ∧
    (side.host.buffers connRef).connBuff.packet = none
  start : pc ≠ .start → ((side.host.buffers connRef).connBuff.start = none ∧
      (side.host.buffers connRef).connBuff.packet = none) ∨
    (side.host.buffers connRef).connBuff.start = some (P.clientPacketNumber + 2)
  answered : a → (side.host.buffers connRef).connBuff.start = some (P.clientPacketNumber + 2)
  got : pc.GotHello →
    (side.host.buffers connRef).connBuff.start = some (P.clientPacketNumber + 2)

/-! ### The hello was queued -/

/-- The hello never reaches the buffer, so that the ack is the first packet in it. -/
structure QueueWay (P : Setup) (side : Side) (pc : AcceptPc) : Prop where
  late : pc ≠ .start ∧ pc ≠ .registered ∧ pc ≠ .waiting
  no_slot : side.host.helloState.pendingAcceptIds = []
  no_hello : ∀ x ∈ side.inHand, x.1.isHello = false
  start : ((side.host.buffers connRef).connBuff.start = none ∧
      (side.host.buffers connRef).connBuff.packet = none) ∨
    (side.host.buffers connRef).connBuff.start = some (P.clientPacketNumber + 1 + 2)
  done : ∀ conn, pc = .done conn →
    (side.host.buffers connRef).connBuff.start = some (P.clientPacketNumber + 1 + 2)

theorem no_hello_worker {st : State} {side : Side} (h : Wire P a st)
    (hm : WorkerMoves .packLeader st.toServer P.clientAddr st.server side)
    (hids : st.server.host.helloState.pendingAcceptIds = [])
    (hhand : ∀ x ∈ st.server.inHand, x.1.isHello = false) :
    side.host.helloState.pendingAcceptIds = [] ∧ ∀ x ∈ side.inHand, x.1.isHello = false := by
  have hslot : ∀ {datagram : Bytes} {state' : HelloState} {o : Option ReaderTxChannel.Delivery},
      datagram ∈ st.toServer →
      ReaderTxChannel.receive .packLeader st.server.host.helloState datagram P.clientAddr =
        .goOn (state', o) →
      state'.pendingAcceptIds = [] ∧ ∀ d ∈ o, d.isHello = false := by
    intro datagram state' o hsent hrecv
    rcases server_takes h hsent hrecv with ht | ⟨ht, _⟩
    · exact ht.no_slot hids
    · exact ht.no_slot hids
  refine ⟨?_, fun x hx => ?_⟩
  · rcases worker_hello hm with hstate | ⟨datagram, hsent, o, hrecv⟩
    · rw [hstate]
      exact hids
    · exact (hslot hsent hrecv).1
  · rcases worker_hand hm hx with ⟨y, hy, hxy⟩ | ⟨datagram, hsent, hrecv⟩
    · rw [hxy]
      exact hhand y hy
    · exact (hslot hsent hrecv).2 _ rfl

theorem fills_ack {hand : List (ReaderTxChannel.Delivery × Option BufferRef)}
    {b b' : ConnectionManagedBuffers}
    (hhand : ∀ x ∈ hand, x.1.packets = [clientHello P] ∨
      x.1.packets = [clientAck P] ∧ x.1.isHello = false ∧ a)
    (hhello : ∀ x ∈ hand, x.1.isHello = false) (hhost : b.connBuff.hostType = .packLeader)
    (hf : Fills .packLeader hand b b') :
    (b'.connBuff.start = b.connBuff.start ∧ b'.connBuff.packet = b.connBuff.packet) ∨
      a ∧ b'.connBuff.start = some (b.connBuff.start.getD (P.clientPacketNumber + 1 + 2)) := by
  cases hf with
  | same hacks hhost' hpacket hstart => exact .inl ⟨hstart, hpacket⟩
  | @packet d ref p hd hp hkind hacks hhost' hpacket hstart =>
    have hd' : d.isHello = false := hhello _ hd
    rcases hhand _ hd with hpackets | ⟨hpackets, _, ha⟩
    · obtain rfl : p = clientHello P := by simpa [hp] using hpackets
      rw [hd', clientHello_isClientAck] at hkind
      rcases hkind with hkind | hkind <;> cases hkind
    · obtain rfl : p = clientAck P := by simpa [hp] using hpackets
      rw [hhost] at hstart
      exact .inr ⟨ha, hstart⟩

theorem slot_worker {st : State} {side : Side} (h : SlotWay P a st.server st.accept)
    (hw : Wire P a st) (hs : Server P a st.server.host st.accept)
    (hm : WorkerMoves .packLeader st.toServer P.clientAddr st.server side) :
    SlotWay P a side st.accept := by
  have hf := server_fills hw.at_server hm
  refine ⟨?_, ?_, ?_, fun ha => hf.start_some (h.answered ha),
    fun hgot => hf.start_some (h.got hgot)⟩
  · intro hearly
    obtain ⟨hids, hhand⟩ := h.early hearly
    exact no_hello_worker hw hm hids hhand
  · intro hpc
    have hok := hs.ok_at hpc
    have hb := hs.buffer (by rw [hpc]; simp)
    rcases fills_ack hw.at_server (h.early (.inr hpc)).2 hb.host hf with
      ⟨hstart, hpacket⟩ | ⟨ha, _⟩
    · rw [hstart, hpacket]
      exact h.fresh hpc
    · exact absurd ha hok
  · intro hne
    rcases h.start hne with ⟨hstart, hpacket⟩ | hstart
    · cases hf with
      | same _ _ hpacket' hstart' =>
        rw [hstart', hpacket']
        exact .inl ⟨hstart, hpacket⟩
      | @packet d ref p hd hp hkind _ _ _ hstart' =>
        rcases hw.at_server _ hd with hpackets | ⟨_, _, ha⟩
        · obtain rfl : p = clientHello P := by simpa [hp] using hpackets
          rw [hstart, (hs.buffer hne).host] at hstart'
          exact .inr hstart'
        · rw [h.answered ha] at hstart
          cases hstart
    · exact .inr (hf.start_some hstart)

theorem queue_worker {st : State} {side : Side} (h : QueueWay P st.server st.accept)
    (hw : Wire P a st) (hs : Server P a st.server.host st.accept)
    (hm : WorkerMoves .packLeader st.toServer P.clientAddr st.server side) :
    QueueWay P side st.accept := by
  have hf := server_fills hw.at_server hm
  obtain ⟨hids, hhand⟩ := no_hello_worker hw hm h.no_slot h.no_hello
  refine ⟨h.late, hids, hhand, ?_, fun conn hpc => hf.start_some (h.done conn hpc)⟩
  rcases h.start with ⟨hstart, hpacket⟩ | hstart
  · rcases fills_ack hw.at_server h.no_hello (hs.buffer h.late.1).host hf with
      ⟨hstart', hpacket'⟩ | ⟨_, hstart'⟩
    · rw [hstart', hpacket']
      exact .inl ⟨hstart, hpacket⟩
    · rw [hstart] at hstart'
      exact .inr hstart'
  · exact .inr (hf.start_some hstart)

theorem SlotWay.later {a' : Prop} {side side' : Side} {pc pc' : AcceptPc}
    (h : SlotWay P a side pc) (hpc : pc ≠ .start) (hpc' : pc' ≠ .start ∧ pc' ≠ .registered)
    (hstart : (side'.host.buffers connRef).connBuff.start =
      (side.host.buffers connRef).connBuff.start)
    (hpacket : (side'.host.buffers connRef).connBuff.packet = none ∨
      (side'.host.buffers connRef).connBuff.packet = (side.host.buffers connRef).connBuff.packet)
    (ha : a' → a ∨ pc.GotHello)
    (hgot : pc'.GotHello →
      (side.host.buffers connRef).connBuff.start = some (P.clientPacketNumber + 2)) :
    SlotWay P a' side' pc' := by
  refine ⟨?_, fun he => absurd he hpc'.2, fun _ => ?_, ?_, ?_⟩
  · rintro (he | he)
    · exact absurd he hpc'.1
    · exact absurd he hpc'.2
  · rw [hstart]
    rcases h.start hpc with ⟨hnone, hempty⟩ | hset
    · refine .inl ⟨hnone, ?_⟩
      rcases hpacket with hpacket | hpacket
      · exact hpacket
      · exact hpacket.trans hempty
    · exact .inr hset
  · intro ha'
    rw [hstart]
    rcases ha ha' with ha | hgot
    · exact h.answered ha
    · exact h.got hgot
  · intro hg
    rw [hstart]
    exact hgot hg

theorem slot_accept {st st' : State} (h : SlotWay P st.Answered st.server st.accept)
    (hs : Server P st.Answered st.server.host st.accept)
    (hempty : st.accept = .registered → st.server.host.helloState.helloQueue = [])
    (hm : AcceptMoves P st st') : SlotWay P st'.Answered st'.server st'.accept := by
  have hpolled : ∀ {b : ConnectionBuffer}, b.packet = none →
      b.start = (st.server.host.buffers connRef).connBuff.start →
      ((st.server.host.setConnBuff connRef b).buffers connRef).connBuff.start =
        (st.server.host.buffers connRef).connBuff.start ∧
      ((st.server.host.setConnBuff connRef b).buffers connRef).connBuff.packet = none := by
    intro b hpacket hstart
    rw [Host.setConnBuff_buffers]
    exact ⟨hstart, hpacket⟩
  have hkept : ∀ {host : Host} {pc : AcceptPc}, host.buffers = st.server.host.buffers →
      st.accept ≠ .start → pc ≠ .start ∧ pc ≠ .registered → (pc.GotHello → st.accept.GotHello) →
      SlotWay P st.Answered (st.atAccept host pc).server pc := by
    intro host pc hsame hne hpc hgot
    refine h.later hne hpc ?_ (.inr ?_) .inl fun hg => h.got (hgot hg)
    · rw [State.atAccept, hsame]
    · rw [State.atAccept, hsame]
  cases hm with
  | @opens host pc hpc hnew hstate hnext =>
    have hok := hs.ok_at hpc
    have hfresh : (host.buffers connRef).connBuff.start = none ∧
        (host.buffers connRef).connBuff.packet = none := by
      rw [hnew]
      exact ⟨rfl, rfl⟩
    refine ⟨fun _ => ?_, fun _ => hfresh, fun _ => .inl hfresh, fun ha => absurd ha hok, ?_⟩
    · rw [State.atAccept, hstate]
      exact h.early (.inl hpc)
    · rcases hnext with rfl | ⟨e, rfl⟩ <;> exact False.elim
  | pops hpc hhead =>
    rw [hempty hpc] at hhead
    cases hhead
  | slots hpc hqueue =>
    exact h.later (by rw [hpc]; simp) (by simp) rfl (.inr rfl) .inl False.elim
  | pends hpc hpoll =>
    obtain ⟨_, hpacket, hstart⟩ := poll_none hpoll
    obtain ⟨hstart', hpacket'⟩ := hpolled hpacket hstart
    have hpc' : st.accept ≠ .start ∧ st.accept ≠ .registered := by
      rcases hpc with hpc | ⟨dst, num, hpc⟩ <;> rw [hpc] <;> simp
    exact h.later hpc'.1 hpc' hstart' (.inl hpacket') .inl h.got
  | reads hpc hpoll =>
    obtain ⟨hslot, _, hpacket, hstart⟩ := poll_some hpoll
    obtain ⟨hstart', hpacket'⟩ := hpolled hpacket hstart
    have hpc' : st.accept ≠ .start := by rw [hpc]; simp
    refine h.later hpc' (by simp) hstart' (.inl hpacket') .inl fun _ => ?_
    rcases h.start hpc' with ⟨_, hnone⟩ | hset
    · rw [hnone] at hslot
      cases hslot
    · exact hset
  | fails hpc hsame hstate => exact hkept hsame hpc.1 (by simp) False.elim
  | removes hpc hsame hstate =>
    have hgot : st.accept.GotHello := by rw [hpc]; exact trivial
    exact hkept hsame (by rw [hpc]; simp) (by simp) fun _ => hgot
  | inserts hpc hsame hstate =>
    have hgot : st.accept.GotHello := by rw [hpc]; exact trivial
    exact hkept hsame (by rw [hpc]; simp) (by simp) fun _ => hgot
  | answers hpc hsent =>
    have hgot : st.accept.GotHello := by rw [hpc]; exact trivial
    exact h.later (by rw [hpc]; simp) (by simp) rfl (.inr rfl) (fun _ => .inr hgot)
      fun _ => h.got hgot
  | refuses hpc hpoll =>
    obtain ⟨_, _, hpacket, hstart⟩ := poll_some hpoll
    obtain ⟨hstart', hpacket'⟩ := hpolled hpacket hstart
    exact h.later (by rw [hpc]; simp) (by simp) hstart' (.inl hpacket') .inl False.elim
  | finishes hpc hpoll =>
    obtain ⟨_, _, hpacket, hstart⟩ := poll_some hpoll
    obtain ⟨hstart', hpacket'⟩ := hpolled hpacket hstart
    have hgot : st.accept.GotHello := by rw [hpc]; exact trivial
    exact h.later (by rw [hpc]; simp) (by simp) hstart' (.inl hpacket') .inl fun _ => h.got hgot

theorem slot_pops {st st' : State} (h : SlotWay P a st.server st.accept)
    (hpc : st.accept = .registered) (hqueue : st.server.host.helloState.helloQueue ≠ [])
    (hm : AcceptMoves P st st') : QueueWay P st'.server st'.accept := by
  have hpcs : ∀ {pc : AcceptPc}, st.accept = pc → pc = .registered := fun he => he.symm.trans hpc
  cases hm with
  | pops _ hhead =>
    -- the one step that changes from this way to the other
    obtain ⟨hids, hhand⟩ := h.early (.inr hpc)
    exact ⟨by simp, hids, hhand, .inl (h.fresh hpc), by simp⟩
  | slots _ hempty => exact absurd hempty hqueue
  | opens hpc' => cases hpcs hpc'
  | pends hpc' =>
    rcases hpc' with hpc' | ⟨dst, num, hpc'⟩
    · cases hpcs hpc'
    · cases hpcs hpc'
  | reads hpc' => cases hpcs hpc'
  | fails hpc' => exact absurd hpc hpc'.2.1
  | removes hpc' => cases hpcs hpc'
  | inserts hpc' => cases hpcs hpc'
  | answers hpc' => cases hpcs hpc'
  | refuses hpc' => cases hpcs hpc'
  | finishes hpc' => cases hpcs hpc'

theorem QueueWay.later {side side' : Side} {pc pc' : AcceptPc} (h : QueueWay P side pc)
    (hpc' : pc' ≠ .start ∧ pc' ≠ .registered ∧ pc' ≠ .waiting)
    (hhand : side'.inHand = side.inHand)
    (hstate : side'.host.helloState = side.host.helloState)
    (hstart : (side'.host.buffers connRef).connBuff.start =
      (side.host.buffers connRef).connBuff.start)
    (hpacket : (side'.host.buffers connRef).connBuff.packet = none ∨
      (side'.host.buffers connRef).connBuff.packet = (side.host.buffers connRef).connBuff.packet)
    (hdone : ∀ conn, pc' = .done conn →
      (side.host.buffers connRef).connBuff.start = some (P.clientPacketNumber + 1 + 2)) :
    QueueWay P side' pc' := by
  refine ⟨hpc', ?_, ?_, ?_, ?_⟩
  · rw [hstate]
    exact h.no_slot
  · rw [hhand]
    exact h.no_hello
  · rw [hstart]
    rcases h.start with ⟨hnone, hempty⟩ | hset
    · refine .inl ⟨hnone, ?_⟩
      rcases hpacket with hpacket | hpacket
      · exact hpacket
      · exact hpacket.trans hempty
    · exact .inr hset
  · intro conn he
    rw [hstart]
    exact hdone conn he

theorem queue_accept {st st' : State} (h : QueueWay P st.server st.accept)
    (hm : AcceptMoves P st st') : QueueWay P st'.server st'.accept := by
  obtain ⟨hstart, hregistered, hwaiting⟩ := h.late
  have hpolled : ∀ {b : ConnectionBuffer} {pc : AcceptPc}, b.packet = none →
      b.start = (st.server.host.buffers connRef).connBuff.start →
      (pc ≠ .start ∧ pc ≠ .registered ∧ pc ≠ .waiting) →
      (∀ conn, pc = .done conn →
        (st.server.host.buffers connRef).connBuff.start = some (P.clientPacketNumber + 1 + 2)) →
      QueueWay P (st.atAccept (st.server.host.setConnBuff connRef b) pc).server pc := by
    intro b pc hpacket hstart hpc hdone
    refine h.later hpc rfl rfl ?_ (.inl ?_) hdone
    · rw [State.atAccept, Host.setConnBuff_buffers]
      exact hstart
    · rw [State.atAccept, Host.setConnBuff_buffers]
      exact hpacket
  have hsame : ∀ {host : Host} {pc : AcceptPc}, host.buffers = st.server.host.buffers →
      host.helloState = st.server.host.helloState →
      (pc ≠ .start ∧ pc ≠ .registered ∧ pc ≠ .waiting ∧ ∀ conn, pc ≠ .done conn) →
      QueueWay P (st.atAccept host pc).server pc := by
    intro host pc hbuffers hstate hpc
    refine h.later ⟨hpc.1, hpc.2.1, hpc.2.2.1⟩ rfl hstate ?_ (.inr ?_)
      fun conn he => absurd he (hpc.2.2.2 conn)
    · rw [State.atAccept, hbuffers]
    · rw [State.atAccept, hbuffers]
  cases hm with
  | opens hpc => exact absurd hpc hstart
  | pops hpc => exact absurd hpc hregistered
  | slots hpc => exact absurd hpc hregistered
  | pends hpc hpoll =>
    obtain ⟨_, hpacket, hstart'⟩ := poll_none hpoll
    exact hpolled hpacket hstart' h.late h.done
  | reads hpc => exact absurd hpc hwaiting
  | fails hpc hbuffers hstate => exact hsame hbuffers hstate (by simp)
  | removes hpc hbuffers hstate => exact hsame hbuffers hstate (by simp)
  | inserts hpc hbuffers hstate => exact hsame hbuffers hstate (by simp)
  | answers hpc hsent => exact h.later (by simp) rfl rfl rfl (.inr rfl) (by simp)
  | refuses hpc hpoll =>
    obtain ⟨_, _, hpacket, hstart'⟩ := poll_some hpoll
    exact hpolled hpacket hstart' (by simp) (by simp)
  | finishes hpc hpoll =>
    obtain ⟨hslot, _, hpacket, hstart'⟩ := poll_some hpoll
    refine hpolled hpacket hstart' (by simp) fun _ _ => ?_
    -- a packet was there, so the number had been set
    rcases h.start with ⟨_, hnone⟩ | hset
    · rw [hnone] at hslot
      cases hslot
    · exact hset

/-! ### Runs -/

structure Genuine (P : Setup) (st : State) : Prop where
  wire : Wire P st.Answered st
  client : Client P st.Answered st.client.host st.connect
  server : Server P st.Answered st.server.host st.accept

theorem Client.mono {a' : Prop} {host : Host} {pc : ConnectPc} (h : Client P a host pc)
    (ha : a → a') : Client P a' host pc := by
  refine ⟨fun hne => ?_, ?_⟩
  · obtain ⟨hacks, hhost, hstart, hpacket⟩ := h.buffer hne
    exact ⟨hacks, hhost, hstart, fun p hp =>
      ⟨(hpacket p hp).1, ha (hpacket p hp).2.1, (hpacket p hp).2.2⟩⟩
  · have hok := h.pc_ok
    cases pc with
    | gotHello p => exact ⟨hok.1, ha hok.2.1, hok.2.2⟩
    | removed dst => exact ⟨hok.1, ha hok.2.1, hok.2.2⟩
    | inserted dst => exact ⟨hok.1, ha hok.2.1, hok.2.2⟩
    | done conn => exact hok
    | start => exact trivial
    | registered => exact trivial
    | waiting => exact trivial
    | failed e => exact trivial

theorem connect_frame {st st' : State} (hm : ConnectMoves P st st') :
    st'.server = st.server ∧ st'.accept = st.accept ∧ st'.toClient = st.toClient := by
  cases hm <;> exact ⟨rfl, rfl, rfl⟩

theorem accept_frame {st st' : State} (hm : AcceptMoves P st st') :
    st'.client = st.client ∧ st'.connect = st.connect := by
  cases hm <;> exact ⟨rfl, rfl⟩

theorem genuine_init : Genuine P init where
  wire := ⟨by simp [init], by simp [init], by simp [init], by simp [init],
    by simp [init, Host.new]⟩
  client := ⟨fun h => absurd rfl h, trivial⟩
  server := ⟨fun h => absurd rfl h, fun h => h rfl⟩

theorem genuine_step {st st' : State} {act : Action} (h : Genuine P st)
    (hm : Moves P st act st') : Genuine P st' := by
  cases hm with
  | connect hm =>
    obtain ⟨hserver, haccept, hsent⟩ := connect_frame hm
    have ha : st'.Answered ↔ st.Answered := by rw [State.Answered, hsent]
    refine ⟨?_, ?_, ?_⟩
    · exact (wire_connect h.wire h.client hm).mono ha.mpr
    · exact (client_connect h.client hm).mono ha.mpr
    · rw [hserver, haccept, ha]
      exact h.server
  | accept hm hact =>
    obtain ⟨hclient, hconnect⟩ := accept_frame hm
    refine ⟨wire_accept h.wire h.server hm, ?_, server_accept h.server h.wire.queued hm⟩
    rw [hclient, hconnect]
    exact h.client.mono (accept_answered hm)
  | atClient hm =>
    exact ⟨wire_client h.wire hm, client_worker h.client h.wire.at_client hm, h.server⟩
  | atServer hm =>
    have hf := server_fills h.wire.at_server hm
    exact ⟨wire_server h.wire hm, h.client,
      fun hne => (h.server.buffer hne).fills h.wire.at_server hf, h.server.pc_ok⟩

/-- Condition on a step: `accept()` finds no queued hello when it enters its
locked section. -/
def SlotFirst (st : State) (act : Action) : Prop :=
  act = .accept → st.accept = .registered → st.server.host.helloState.helloQueue = []

theorem slot_init : SlotWay P init.Answered init.server init.accept :=
  ⟨fun _ => ⟨rfl, by simp [init]⟩, nofun, fun h => absurd rfl h, fun h => absurd rfl h, nofun⟩

theorem slot_step {st st' : State} {act : Action} (hg : Genuine P st)
    (h : SlotWay P st.Answered st.server st.accept) (hfirst : SlotFirst st act)
    (hm : Moves P st act st') : SlotWay P st'.Answered st'.server st'.accept := by
  cases hm with
  | connect hm =>
    obtain ⟨hserver, haccept, hsent⟩ := connect_frame hm
    rw [State.Answered, hserver, haccept, hsent]
    exact h
  | accept hm hact => exact slot_accept h hg.server (fun hpc => hfirst (hact hpc) hpc) hm
  | atClient hm => exact h
  | atServer hm =>
    have h' := slot_worker h hg.wire hg.server hm
    exact h'

theorem queue_step {st st' : State} {act : Action} (hg : Genuine P st)
    (h : QueueWay P st.server st.accept) (hm : Moves P st act st') :
    QueueWay P st'.server st'.accept := by
  cases hm with
  | connect hm =>
    obtain ⟨hserver, haccept, _⟩ := connect_frame hm
    rw [hserver, haccept]
    exact h
  | accept hm hact => exact queue_accept h hm
  | atClient hm => exact h
  | atServer hm =>
    have h' := queue_worker h hg.wire hg.server hm
    exact h'

abbrev Step (P : Setup) (st : State) (act : Action) (st' : State) : Prop :=
  step P st act = some st'

theorem slot_run {acts : List Action} {st : State}
    (hrun : Run (StepWhen P SlotFirst) init acts st) :
    Genuine P st ∧ SlotWay P st.Answered st.server st.accept := by
  induction hrun with
  | nil => exact ⟨genuine_init, slot_init⟩
  | snoc _ hstep ih =>
    obtain ⟨hfirst, hstep⟩ := hstep
    have hm := step_moves hstep
    exact ⟨genuine_step ih.1 hm, slot_step ih.1 ih.2 hfirst hm⟩

/-- A run goes one of the two ways: it meets the condition at every step, or a hello has been taken
out of the queue. -/
theorem run_ways {acts : List Action} {st : State} (hrun : Run (Step P) init acts st) :
    Genuine P st ∧
      (Run (StepWhen P SlotFirst) init acts st ∨ QueueWay P st.server st.accept) := by
  induction hrun with
  | nil => exact ⟨genuine_init, .inl .nil⟩
  | @snoc acts act s t hr hstep ih =>
    obtain ⟨hg, hway⟩ := ih
    have hm := step_moves hstep
    refine ⟨genuine_step hg hm, ?_⟩
    rcases hway with hslot | hqueue
    · by_cases hfirst : SlotFirst s act
      · exact .inl (hslot.snoc ⟨hfirst, hstep⟩)
      · right
        simp only [SlotFirst, Classical.not_imp] at hfirst
        obtain ⟨rfl, hpc, hnonempty⟩ := hfirst
        exact slot_pops (slot_run hslot).2 hpc hnonempty (acceptStep_moves hstep)
    · exact .inr (queue_step hg hqueue hm)

/-! ### Agreement -/

/-- The two connections fit together: mirrored ids, and each side's receive and
ack windows start where the writer they are about starts. -/
structure Agreement (P : Setup) (st : State) (server client : BluefinConnection) : Prop where
  server_ids : server.srcConnId = P.serverConnId ∧ server.dstConnId = P.clientConnId
  client_ids : client.srcConnId = P.clientConnId ∧ client.dstConnId = P.serverConnId
  client_first : client.writer.nextPacketNum = P.clientPacketNumber + 2
  server_first : server.writer.nextPacketNum = P.serverPacketNumber + 1
  server_receives : (st.server.host.buffers connRef).connBuff.orderedBytes.smallestPacketNumber =
    client.writer.nextPacketNum
  client_receives : (st.client.host.buffers connRef).connBuff.orderedBytes.smallestPacketNumber =
    server.writer.nextPacketNum
  server_acks :
    (st.server.host.buffers connRef).ackBuff.receivedAcks.smallestExpectedPacketNumber =
      server.writer.nextPacketNum
  client_acks :
    (st.client.host.buffers connRef).ackBuff.receivedAcks.smallestExpectedPacketNumber =
      client.writer.nextPacketNum

theorem smallest_of_start {b : ConnectionBuffer} {n : UInt64} (h : b.start = some n) :
    b.orderedBytes.smallestPacketNumber = n := by
  unfold ConnectionBuffer.start at h
  split at h <;> cases h
  rfl

theorem agreement_of_start {st : State} {server client : BluefinConnection} (hg : Genuine P st)
    (hs : st.accept = .done server) (hc : st.connect = .done client)
    (hstart : (st.server.host.buffers connRef).connBuff.start =
      some (P.clientPacketNumber + 2)) : Agreement P st server client := by
  obtain rfl : server = _ := hg.server.ok_at hs
  obtain ⟨rfl, hset⟩ := hg.client.ok_at hc
  have hsb := hg.server.buffer (by rw [hs]; simp)
  have hcb := hg.client.buffer (by rw [hc]; simp)
  refine ⟨⟨rfl, rfl⟩, ⟨rfl, rfl⟩, rfl, rfl, smallest_of_start hstart, smallest_of_start hset,
    ?_, ?_⟩
  · rw [hsb.acks]
    rfl
  · rw [hcb.acks]
    rfl

/-- After a handshake that both calls finish, the two connections fit together
exactly if `accept()` had found the hello queue empty. Otherwise the server's
receive buffer starts one past the client's first data packet. -/
theorem numbers_agree_iff {acts : List Action} {st : State} {server client : BluefinConnection}
    (hrun : Run (Step P) init acts st) (hs : st.accept = .done server)
    (hc : st.connect = .done client) :
    Agreement P st server client ↔ Run (StepWhen P SlotFirst) init acts st := by
  constructor
  · intro hagree
    obtain ⟨hg, hslot | hqueue⟩ := run_ways hrun
    · exact hslot
    · have hlate := smallest_of_start (hqueue.done server hs)
      have hfirst := hagree.server_receives.trans hagree.client_first
      rw [hlate, UInt64.add_assoc] at hfirst
      have hone : (1 + 2 : UInt64) = 2 := (UInt64.add_right_inj _).mp hfirst
      exact absurd hone (by decide)
  · intro hslot
    obtain ⟨hg, hway⟩ := slot_run hslot
    exact agreement_of_start hg hs hc (hway.got (by rw [hs]; exact trivial))

/-! ### Two runs -/

/-- How a handshake came out: the two connections, and where the server's data starts. -/
def State.outcome (st : State) : Option (BluefinConnection × BluefinConnection × UInt64) :=
  match st.accept, st.connect with
  | .done server, .done client => some (server, client,
      (st.server.host.buffers connRef).connBuff.orderedBytes.smallestPacketNumber)
  | _, _ => none

theorem run_outcome {acts : List Action} {server client : BluefinConnection} {n : UInt64}
    (h : (acts.foldlM (step P) init).bind State.outcome = some (server, client, n)) :
    ∃ st, Run (Step P) init acts st ∧ st.accept = .done server ∧ st.connect = .done client ∧
      (st.server.host.buffers connRef).connBuff.orderedBytes.smallestPacketNumber = n := by
  obtain ⟨st, hst, hout⟩ := Option.bind_eq_some_iff.mp h
  refine ⟨st, Run.of_foldlM acts (fun _ _ _ _ hs => hs) hst, ?_⟩
  unfold State.outcome at hout
  split at hout
  · rename_i hs hc
    cases hout
    exact ⟨hs, hc, rfl⟩
  · cases hout

def oneSetup : Setup := ⟨1, 2, 10, 20, 100, 200⟩

def atServerAll (p : BluefinPacket) : List Action :=
  [.atServer (.receive p.serialise), .atServer (.lookup 0), .atServer (.buffer 0)]

def atClientAll (p : BluefinPacket) : List Action :=
  [.atClient (.receive p.serialise), .atClient (.lookup 0), .atClient (.buffer 0)]

/-- The answer, the client's side and the ack, after `accept()` has the hello. -/
def finishActs : List Action :=
  [.accept, .accept, .accept] ++ atClientAll (serverHello oneSetup) ++
    [.connect, .connect, .connect, .connect] ++ atServerAll (clientAck oneSetup) ++ [.accept]

def slotActs : List Action :=
  [.accept, .accept, .connect, .connect] ++ atServerAll (clientHello oneSetup) ++ [.accept] ++
    finishActs

theorem slotActs_outcome :
    (slotActs.foldlM (step oneSetup) init).bind State.outcome =
      some (⟨2, 1, 21⟩, ⟨1, 2, 12⟩, 12) := by
  decide +kernel

theorem numbers_agree_one : ∃ st server client, Run (Step oneSetup) init slotActs st ∧
    st.accept = .done server ∧ st.connect = .done client ∧
    Agreement oneSetup st server client := by
  obtain ⟨st, hrun, hs, hc, hstart⟩ := run_outcome slotActs_outcome
  refine ⟨st, _, _, hrun, hs, hc, (numbers_agree_iff hrun hs hc).mpr ?_⟩
  obtain ⟨_, hslot | hqueue⟩ := run_ways hrun
  · exact hslot
  · rw [smallest_of_start (hqueue.done _ hs)] at hstart
    exact absurd hstart (by decide)

/-- The hello is there before `accept()` is called. -/
def queueActs : List Action :=
  [.connect, .connect, .atServer (.receive (clientHello oneSetup).serialise), .accept, .accept] ++
    finishActs

theorem queueActs_outcome :
    (queueActs.foldlM (step oneSetup) init).bind State.outcome =
      some (⟨2, 1, 21⟩, ⟨1, 2, 12⟩, 13) := by
  decide +kernel

theorem numbers_disagree_queued : ∃ st server client, Run (Step oneSetup) init queueActs st ∧
    st.accept = .done server ∧ st.connect = .done client ∧
    client.writer.nextPacketNum = 12 ∧
    (st.server.host.buffers connRef).connBuff.orderedBytes.smallestPacketNumber = 13 ∧
    ¬ Agreement oneSetup st server client := by
  obtain ⟨st, hrun, hs, hc, hstart⟩ := run_outcome queueActs_outcome
  refine ⟨st, _, _, hrun, hs, hc, rfl, hstart, fun hagree => ?_⟩
  have hfirst := hagree.server_receives
  rw [hstart] at hfirst
  exact absurd hfirst (by decide)

end Handshake

end Bluefin
