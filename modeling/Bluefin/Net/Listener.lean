import Mathlib.Data.List.Perm.Basic
import Bluefin.Base.Family
import Bluefin.Net.FailedAttempts
import Bluefin.Net.HandshakeBuffers

/-!
# A server with many `accept()` calls (net/server.rs, worker/reader.rs)

Any number of `accept()` calls on one server, its reader workers, and the datagrams of
any number of clients. A call keeps its buffers at its own index. What a worker does
with a datagram depends on the connection manager and on the hello state; the
invariants say which call a datagram can reach and what a call can find in its buffer.
They are stated for a set of clients of which some are connected, and every one of
them stays true when more clients are.
-/

namespace Bluefin
open Base

namespace Crowd
open Handshake (AcceptPc Side)
open ReaderTxChannel (Delivery)

/-- What the calls draw at random. The clients draw distinct ids that are not zero, and
the calls of the server distinct ids. -/
structure Setup (m n : ℕ) where
  serverConnId : Fin m → UInt32
  serverPacketNumber : Fin m → UInt64
  clientConnId : Fin n → UInt32
  clientPacketNumber : Fin n → UInt64
  server_injective : Function.Injective serverConnId
  client_injective : Function.Injective clientConnId
  client_ne_zero : ∀ k, clientConnId k ≠ 0

/-! ### What a client sends -/

section

variable {m n : ℕ} (P : Setup m n)

def Setup.hello (k : Fin n) : BluefinPacket :=
  buildEmptyEncryptedPacket (P.clientConnId k) 0x0 (P.clientPacketNumber k) .unencryptedClientHello

def Setup.ack (k : Fin n) (dstConnId : UInt32) : BluefinPacket :=
  buildEmptyEncryptedPacket (P.clientConnId k) dstConnId (P.clientPacketNumber k + 1) .clientAck

def Setup.serverHello (i : Fin m) (dstConnId : UInt32) : BluefinPacket :=
  buildEmptyEncryptedPacket (P.serverConnId i) dstConnId (P.serverPacketNumber i)
    .unencryptedServerHello

/-- A packet of an established connection: not one of the handshake. -/
def isTrafficPacket (srcConnId dstConnId : UInt32) (p : BluefinPacket) : Bool :=
  decide (p.header.sourceConnectionId = srcConnId ∧ p.header.destinationConnectionId = dstConnId ∧
    p.header.typeField ≠ .unencryptedClientHello ∧ p.header.typeField ≠ .unencryptedServerHello ∧
    p.header.typeField ≠ .clientAck)

/-- What the datagrams of a client hold. It sends a ClientAck, and anything on the
connection, once it is connected to the id `connected k`. -/
inductive SentBy (connected : Fin n → Option UInt32) (k : Fin n) : List BluefinPacket → Prop
  | hello : SentBy connected k [P.hello k]
  | ack {dst : UInt32} (hconn : connected k = some dst) : SentBy connected k [P.ack k dst]
  | traffic {dst : UInt32} {packets : List BluefinPacket} (hconn : connected k = some dst)
      (ht : ∀ p ∈ packets, isTrafficPacket (P.clientConnId k) dst p = true) :
      SentBy connected k packets

/-- What a worker of the server has made of a datagram of the client `k`. -/
inductive FromClient (connected : Fin n → Option UInt32) (k : Fin n) (d : Delivery) : Prop
  | hello (hpackets : d.packets = [P.hello k]) (hhello : d.isHello = true) (hkey : d.key.2 = 0)
  | later {dst : UInt32} (hconn : connected k = some dst) (hhello : d.isHello = false)
      (hkey : d.key = (dst, P.clientConnId k))
      (hpackets : d.packets = [P.ack k dst] ∨
        ∀ p ∈ d.packets, isTrafficPacket (P.clientConnId k) dst p = true)

end

/-- Clients only ever get connected. -/
def Later {n : ℕ} (connected connected' : Fin n → Option UInt32) : Prop :=
  ∀ k dst, connected k = some dst → connected' k = some dst

section

variable {m n : ℕ} {P : Setup m n} {connected connected' : Fin n → Option UInt32}

theorem SentBy.mono (h : Later connected connected') {k : Fin n} {packets : List BluefinPacket}
    (hs : SentBy P connected k packets) : SentBy P connected' k packets := by
  cases hs with
  | hello => exact .hello
  | ack hconn => exact .ack (h _ _ hconn)
  | traffic hconn ht => exact .traffic (h _ _ hconn) ht

theorem FromClient.mono (h : Later connected connected') {k : Fin n} {d : Delivery}
    (hd : FromClient P connected k d) : FromClient P connected' k d := by
  cases hd with
  | hello hpackets hhello hkey => exact .hello hpackets hhello hkey
  | later hconn hhello hkey hpackets => exact .later (h _ _ hconn) hhello hkey hpackets

theorem hello_isHello (k : Fin n) : isHelloPacket .packLeader (P.hello k) = true := by
  simp [isHelloPacket, Setup.hello, buildEmptyEncryptedPacket, BluefinHeader.new,
    BluefinHeader.withPacketNumber, P.client_ne_zero k]

theorem ack_isHello (k : Fin n) (dst : UInt32) :
    isHelloPacket .packLeader (P.ack k dst) = false := by
  simp [isHelloPacket, Setup.ack, buildEmptyEncryptedPacket, BluefinHeader.new,
    BluefinHeader.withPacketNumber]

theorem isTrafficPacket_iff {src dst : UInt32} {p : BluefinPacket} :
    isTrafficPacket src dst p = true ↔ p.header.sourceConnectionId = src ∧
      p.header.destinationConnectionId = dst ∧ p.header.typeField ≠ .unencryptedClientHello ∧
      p.header.typeField ≠ .unencryptedServerHello ∧ p.header.typeField ≠ .clientAck :=
  decide_eq_true_iff

theorem traffic_isHello {src dst : UInt32} {p : BluefinPacket}
    (h : isTrafficPacket src dst p = true) : isHelloPacket .packLeader p = false := by
  obtain ⟨-, -, htype, -⟩ := isTrafficPacket_iff.mp h
  simp [isHelloPacket, htype]

theorem traffic_isClientAck {src dst : UInt32} {p : BluefinPacket}
    (h : isTrafficPacket src dst p = true) : isClientAckPacket .packLeader p = false := by
  obtain ⟨-, -, -, -, htype⟩ := isTrafficPacket_iff.mp h
  simp [isClientAckPacket, htype]

/-! ### A worker with a datagram -/

/-- The calls that a ClientHello is on its way to: their ids wait for one, or a worker has one for
them in hand. -/
def helloIds (side : Side) : List UInt32 :=
  side.host.helloState.pendingAcceptIds ++
    (side.inHand.filter fun x => x.1.isHello).map fun x => x.1.key.1

/-- What a datagram of a client does to the hello state. A hello goes to the first call
that waits, or is queued; anything else is looked up by the ids of its first packet. -/
inductive Takes (P : Setup m n) (connected : Fin n → Option UInt32) (k : Fin n)
    (state : HelloState) : HelloState → Option Delivery → Prop
  | routed {id : UInt32} {ids : List UInt32} {d : Delivery}
      (hids : state.pendingAcceptIds = id :: ids) (hkey : d.key = (id, 0))
      (hd : FromClient P connected k d) :
      Takes P connected k state { state with pendingAcceptIds := ids } (some d)
  | queued {addr : SocketAddr} :
      Takes P connected k state
        { state with helloQueue := state.helloQueue ++ [(P.hello k, addr)] } none
  | nothing : Takes P connected k state state none
  | looked {d : Delivery} (hhello : d.isHello = false) (hd : FromClient P connected k d) :
      Takes P connected k state state (some d)

theorem classify_hello {k : Fin n} {addr : SocketAddr} {state state' : HelloState}
    {o : Option Delivery}
    (h : ReaderTxChannel.classify .packLeader state [P.hello k] addr = .goOn (state', o)) :
    Takes P connected k state state' o := by
  have hhello := @hello_isHello m n P k
  cases hids : state.pendingAcceptIds with
  | cons id ids =>
    simp only [ReaderTxChannel.classify, ReaderTxChannel.handleHelloSingle, hhello, hids,
      if_true] at h
    cases h
    exact .routed hids rfl (.hello rfl rfl rfl)
  | nil =>
    by_cases hroom : state.helloQueue.length < maxQueuedHellos
    · simp only [ReaderTxChannel.classify, ReaderTxChannel.handleHelloSingle, hhello, hids, hroom,
        if_true] at h
      cases h
      rw [← hids]
      exact .queued
    · simp only [ReaderTxChannel.classify, ReaderTxChannel.handleHelloSingle, hhello, hids, hroom,
        if_true, if_false] at h
      cases h
      exact .nothing

theorem classify_later {k : Fin n} {dst : UInt32} {addr : SocketAddr} {state state' : HelloState}
    {o : Option Delivery} {packets : List BluefinPacket} (hconn : connected k = some dst)
    (hpackets : packets = [P.ack k dst] ∨
      ∀ p ∈ packets, isTrafficPacket (P.clientConnId k) dst p = true)
    (h : ReaderTxChannel.classify .packLeader state packets addr = .goOn (state', o)) :
    Takes P connected k state state' o := by
  cases packets with
  | nil =>
    cases h
    exact .nothing
  | cons first rest =>
    have hids : first.header.destinationConnectionId = dst ∧
        first.header.sourceConnectionId = P.clientConnId k ∧
        isHelloPacket .packLeader first = false := by
      rcases hpackets with hack | ht
      · cases hack
        exact ⟨rfl, rfl, ack_isHello k dst⟩
      · have hfirst := ht first (List.mem_cons_self ..)
        obtain ⟨hsrc, hdst, -⟩ := isTrafficPacket_iff.mp hfirst
        exact ⟨hdst, hsrc, traffic_isHello hfirst⟩
    obtain ⟨hdst, hsrc, hhello⟩ := hids
    have hlooked : ReaderTxChannel.classify .packLeader state (first :: rest) addr =
        .goOn (state, some ⟨false, (dst, P.clientConnId k), first :: rest, addr⟩) := by
      simp only [ReaderTxChannel.classify, ReaderTxChannel.handleHelloSingle, hhello,
        Bool.false_eq_true, if_false, ReaderTxChannel.buildConnBuffKey, hdst, hsrc]
      split <;> rfl
    rw [hlooked] at h
    cases h
    exact .looked rfl (.later hconn rfl rfl hpackets)

theorem receive_takes {k : Fin n} {addr : SocketAddr} {state state' : HelloState}
    {o : Option Delivery} {datagram : Bytes}
    (hsent : ∀ c packets, BluefinPacket.fromBytesInto datagram [] = (.ok c, packets) →
      SentBy P connected k packets)
    (h : ReaderTxChannel.receive .packLeader state datagram addr = .goOn (state', o)) :
    Takes P connected k state state' o := by
  unfold ReaderTxChannel.receive at h
  rcases hparse : BluefinPacket.fromBytesInto datagram [] with ⟨res, packets⟩
  rw [hparse] at h
  cases res with
  | panicked f => cases h
  | err e =>
    cases h
    exact .nothing
  | ok c =>
    cases hsent c packets hparse with
    | hello => exact classify_hello h
    | ack hconn => exact classify_later hconn (.inl rfl) h
    | traffic hconn ht => exact classify_later hconn (.inr ht) h

/-! ### A worker with the buffers of a call -/

/-- The handshake packet that waits in the buffer of a call. -/
def slot (host : Host) (ref : BufferRef) : Option BluefinPacket :=
  (host.buffers ref).connBuff.packet

theorem bufferInData_packet (isHello : Bool) (hostType : BluefinHost) (p : BluefinPacket)
    (addr : SocketAddr) (b : ConnectionManagedBuffers) :
    (ReaderTxChannel.bufferInData isHello hostType p addr b).2.1.connBuff.packet =
        b.connBuff.packet ∨
      (isHello = true ∨ isClientAckPacket hostType p = true) ∧
        (ReaderTxChannel.bufferInData isHello hostType p addr b).2.1.connBuff.packet = some p := by
  unfold ReaderTxChannel.bufferInData
  dsimp only
  split
  · exact .inl rfl
  · have hframe := (Handshake.bufferToConnBuffer_frame b.connBuff p addr isHello
      (isClientAckPacket hostType p)).2.1
    dsimp only
    rw [hframe]
    cases hdata : (!isHello && !isClientAckPacket hostType p) with
    | true => exact .inl rfl
    | false =>
      simp only [Bool.false_eq_true, if_false]
      have hkind : isHello = true ∨ isClientAckPacket hostType p = true := by
        cases isHello with
        | true => exact .inl rfl
        | false => exact .inr (by simpa using hdata)
      cases hslot : b.connBuff.packet with
      | some q =>
        rw [(Handshake.bufferInPacket_some hslot p).2]
        exact .inl hslot
      | none => exact .inr ⟨hkind, (Handshake.bufferInPacket_none hslot p).2.2.1⟩

theorem buffer_plain {hostType : BluefinHost} {packets : List BluefinPacket} (addr : SocketAddr)
    (hplain : ∀ p ∈ packets, isClientAckPacket hostType p = false) (b : ConnectionManagedBuffers) :
    (packets.foldl (fun b p => (ReaderTxChannel.bufferInData false hostType p addr b).2.1)
      b).connBuff.packet = b.connBuff.packet := by
  induction packets generalizing b with
  | nil => rfl
  | cons p packets ih =>
    rw [List.foldl_cons, ih fun q hq => hplain q (List.mem_cons_of_mem _ hq)]
    have hack := hplain p (List.mem_cons_self ..)
    rcases bufferInData_packet false hostType p addr b with h | ⟨hkind, -⟩
    · exact h
    · rw [hack] at hkind
      exact absurd hkind (by simp)

theorem buffer_slot_self (hostType : BluefinHost) (host : Host) (d : Delivery)
    (ref : BufferRef) :
    slot (ReaderTxChannel.buffer hostType host d ref) ref = (d.packets.foldl
      (fun b p => (ReaderTxChannel.bufferInData d.isHello hostType p d.addr b).2.1)
      (host.buffers ref)).connBuff.packet := by
  simp [slot, ReaderTxChannel.buffer]

theorem buffer_slot {k : Fin n} {d : Delivery} (hd : FromClient P connected k d) (host : Host)
    (ref : BufferRef) :
    slot (ReaderTxChannel.buffer .packLeader host d ref) ref = slot host ref ∨
      d.isHello = true ∧
        slot (ReaderTxChannel.buffer .packLeader host d ref) ref = some (P.hello k) ∨
      ∃ dst, connected k = some dst ∧ d.isHello = false ∧ d.key = (dst, P.clientConnId k) ∧
        slot (ReaderTxChannel.buffer .packLeader host d ref) ref = some (P.ack k dst) := by
  rw [buffer_slot_self]
  cases hd with
  | hello hpackets hhello hkey =>
    rw [hpackets, hhello, List.foldl_cons, List.foldl_nil]
    rcases bufferInData_packet true .packLeader (P.hello k) d.addr (host.buffers ref) with h | ⟨-, h⟩
    · exact .inl h
    · exact .inr (.inl ⟨rfl, h⟩)
  | @later dst hconn hhello hkey hpackets =>
    rw [hhello]
    rcases hpackets with hack | ht
    · rw [hack, List.foldl_cons, List.foldl_nil]
      rcases bufferInData_packet false .packLeader (P.ack k dst) d.addr (host.buffers ref) with h | ⟨-, h⟩
      · exact .inl h
      · exact .inr (.inr ⟨dst, hconn, rfl, hkey, h⟩)
    · exact .inl (buffer_plain d.addr (fun p hp => traffic_isClientAck (ht p hp)) (host.buffers ref))

theorem buffer_slot_other (hostType : BluefinHost) (host : Host) (d : Delivery)
    {ref r : BufferRef} (h : r ≠ ref) :
    slot (ReaderTxChannel.buffer hostType host d ref) r = slot host r := by
  simp only [slot, ReaderTxChannel.buffer]
  rw [Function.update_of_ne h]

/-! ### One step of a call -/

def isFailed : AcceptPc → Bool
  | .failed _ => true
  | _ => false

/-- The id of the client, once its entry is in the connection manager. -/
def peer : AcceptPc → Option UInt32
  | .inserted dst _ _ => some dst
  | .awaitAck dst _ => some dst
  | .done conn => some conn.dstConnId
  | _ => none

/-- The second id of the entries that a call has in the connection manager. -/
def Listed : AcceptPc → UInt32 → Prop
  | .start, _ => False
  | .registered, other => other = 0
  | .waiting, other => other = 0
  | .gotHello _ _, other => other = 0
  | .removed _ _ _, _ => False
  | .inserted dst _ _, other => other = dst
  | .awaitAck dst _, other => other = dst
  | .done conn, other => other = conn.dstConnId
  | .failed _, _ => True

/-- The second ids with which a lookup can have found the buffers of a call. -/
def Reaches (pc : AcceptPc) (other : UInt32) : Prop :=
  isFailed pc = true ∨ other = 0 ∨ peer pc = some other

theorem reaches_of_listed {pc : AcceptPc} {other : UInt32} (h : Listed pc other) :
    Reaches pc other := by
  cases pc with
  | start | removed => exact h.elim
  | registered | waiting | gotHello => exact .inr (.inl h)
  | inserted | awaitAck | done => exact .inr (.inr (congrArg some (Eq.symm h)))
  | failed => exact .inl rfl

section

variable (ref : BufferRef) (srcConnId : UInt32) (packetNumber : UInt64) (host : Host)

/-- What a step of a call can do to the host. -/
inductive CallMoves : AcceptPc → Host → AcceptPc → Prop
  | opens {pc : AcceptPc} (hnext : pc = .registered ∨ isFailed pc = true) :
      CallMoves .start ((host.store ref (Handshake.newBuffers srcConnId .packLeader
        (packetNumber + 1))).insert (srcConnId, 0) ref).2 pc
  | pops {packet : BluefinPacket} {addr : SocketAddr} {queue : List Hello}
      (hqueue : host.helloState.helloQueue = (packet, addr) :: queue) :
      CallMoves .registered
        { host with helloState := { host.helloState with helloQueue := queue } }
        (.gotHello packet addr)
  | slots : CallMoves .registered
      { host with helloState := { host.helloState with
          pendingAcceptIds := host.helloState.pendingAcceptIds ++ [srcConnId] } } .waiting
  | pends {pc : AcceptPc} {b : ConnectionBuffer}
      (hpc : pc = .waiting ∨ ∃ dst num, pc = .awaitAck dst num) (hb : b.packet = none) :
      CallMoves pc (host.setConnBuff ref b) pc
  | reads {packet : BluefinPacket} {addr : SocketAddr} {b : ConnectionBuffer}
      (hslot : slot host ref = some packet) (hb : b.packet = none) :
      CallMoves .waiting (host.setConnBuff ref b) (.gotHello packet addr)
  | fails {pc : AcceptPc} {host' : Host} {e : BluefinError}
      (hpc : pc ≠ .start ∧ pc ≠ .registered ∧ pc ≠ .waiting ∧ isFailed pc = false)
      (hbuffers : host'.buffers = host.buffers) (hstate : host'.helloState = host.helloState)
      (hentries : ∀ key r, host'.connManager key = some r →
        host.connManager key = some r ∨ key.1 = srcConnId ∧ r = ref) :
      CallMoves pc host' (.failed e)
  | removes {packet : BluefinPacket} {addr : SocketAddr} :
      CallMoves (.gotHello packet addr) (host.remove (srcConnId, 0)).2
        (.removed packet.header.sourceConnectionId packet.header.packetNumber addr)
  | inserts {dst : UInt32} {num : UInt64} {addr : SocketAddr} :
      CallMoves (.removed dst num addr) (host.insert (srcConnId, dst) ref).2
        (.inserted dst num addr)
  | answers {dst : UInt32} {num : UInt64} {addr : SocketAddr} :
      CallMoves (.inserted dst num addr) host (.awaitAck dst num)
  | refuses {dst : UInt32} {num : UInt64} {b : ConnectionBuffer} {e : BluefinError}
      (hb : b.packet = none) : CallMoves (.awaitAck dst num) (host.setConnBuff ref b) (.failed e)
  | finishes {dst : UInt32} {num : UInt64} {clientAck : BluefinPacket} {b : ConnectionBuffer}
      (hslot : slot host ref = some clientAck) (hb : b.packet = none) :
      CallMoves (.awaitAck dst num) (host.setConnBuff ref b)
        (.done ⟨srcConnId, dst, packetNumber + 1⟩)

end

theorem insert_entries (host : Host) (id other : UInt32) (ref : BufferRef) {key : ConnKey}
    {r : BufferRef} (h : (host.insert (id, other) ref).2.connManager key = some r) :
    host.connManager key = some r ∨ key.1 = id ∧ r = ref := by
  simp only [Host.insert, Function.update_apply] at h
  split at h
  · rename_i hkey
    cases h
    exact .inr ⟨by rw [hkey], rfl⟩
  · exact .inl h

theorem remove_entries (host : Host) (key' : ConnKey) {key : ConnKey} {r : BufferRef}
    (h : (host.remove key').2.connManager key = some r) :
    host.connManager key = some r ∧ key ≠ key' := by
  simp only [Host.remove, Function.update_apply] at h
  split at h
  · cases h
  · rename_i hne
    exact ⟨h, hne⟩

theorem CallMoves.of_acceptCall {ref : BufferRef} {srcConnId : UInt32} {packetNumber : UInt64}
    {host host' : Host} {pc pc' : AcceptPc}
    (h : Handshake.acceptCall ref srcConnId packetNumber host pc = some (host', pc')) :
    CallMoves ref srcConnId packetNumber host pc host' pc' := by
  cases Handshake.acceptCall_moves h with
  | opens hins hnext =>
    obtain rfl := congrArg Prod.snd hins
    refine .opens (hnext.imp_right ?_)
    rintro ⟨e, rfl⟩
    rfl
  | pops hqueue => exact .pops hqueue
  | slots => exact .slots
  | pends hpoll => exact .pends (.inl rfl) (Handshake.poll_none hpoll).2.1
  | reads hpoll =>
    obtain ⟨hslot, -, hb, -⟩ := Handshake.poll_some hpoll
    exact .reads hslot hb
  | unnumbered => exact .fails (by simp [isFailed]) rfl rfl fun _ _ hkey => .inl hkey
  | unlisted hrem =>
    obtain rfl := congrArg Prod.snd hrem
    exact .fails (by simp [isFailed]) rfl rfl fun _ _ hkey => .inl (remove_entries host _ hkey).1
  | removes hrem =>
    obtain rfl := congrArg Prod.snd hrem
    exact .removes
  | collides hins =>
    obtain rfl := congrArg Prod.snd hins
    exact .fails (by simp [isFailed]) rfl rfl fun _ _ hkey => insert_entries host _ _ ref hkey
  | inserts hins =>
    obtain rfl := congrArg Prod.snd hins
    exact .inserts
  | answers => exact .answers
  | awaits hpoll => exact .pends (.inr ⟨_, _, rfl⟩) (Handshake.poll_none hpoll).2.1
  | refuses hpoll =>
    obtain ⟨-, -, hb, -⟩ := Handshake.poll_some hpoll
    exact .refuses hb
  | finishes hpoll =>
    obtain ⟨hslot, -, hb, -⟩ := Handshake.poll_some hpoll
    exact .finishes hslot hb

theorem CallMoves.slot_other {ref r : BufferRef} {srcConnId : UInt32} {packetNumber : UInt64}
    {host host' : Host} {pc pc' : AcceptPc}
    (h : CallMoves ref srcConnId packetNumber host pc host' pc') (hr : r ≠ ref) :
    slot host' r = slot host r := by
  cases h with
  | opens | pends | reads | refuses | finishes =>
    simp [slot, Host.insert, Host.store, Host.setConnBuff, Function.update_of_ne hr]
  | fails hpc hbuffers => simp only [slot, hbuffers]
  | pops | slots | removes | inserts | answers => rfl

theorem slot_setConnBuff (host : Host) (ref : BufferRef) (b : ConnectionBuffer) :
    slot (host.setConnBuff ref b) ref = b.packet := by
  rw [slot, Host.setConnBuff_buffers]

theorem CallMoves.not_failed {ref : BufferRef} {srcConnId : UInt32} {packetNumber : UInt64}
    {host host' : Host} {pc pc' : AcceptPc}
    (h : CallMoves ref srcConnId packetNumber host pc host' pc') : isFailed pc = false := by
  cases h with
  | fails hpc => exact hpc.2.2.2
  | pends hpc =>
    rcases hpc with rfl | ⟨_, _, rfl⟩ <;> rfl
  | _ => rfl

/-! ### The invariants -/

section

variable (P : Setup m n) (connected : Fin n → Option UInt32) (side : Side)

/-- An entry of the connection manager, and a lookup, that belong to a call. -/
structure EntryOf (key : ConnKey) (ref : BufferRef) (i : Fin m) (pc : AcceptPc) : Prop where
  ref_eq : ref = i.val
  id_eq : key.1 = P.serverConnId i
  listed : Listed pc key.2

structure FoundFor (key : ConnKey) (ref : BufferRef) (i : Fin m) (pc : AcceptPc) : Prop where
  ref_eq : ref = i.val
  id_eq : key.1 = P.serverConnId i
  reaches : Reaches pc key.2

/-- A call that a ClientHello can be on its way to: it waits with an empty buffer. -/
structure Expects (id : UInt32) (held : Option BluefinPacket) (i : Fin m) (pc : AcceptPc) :
    Prop where
  id_eq : id = P.serverConnId i
  waits : isFailed pc = true ∨ pc = .waiting ∧ held = none

/-- The packet in the buffer of a call: the hello that it waits for, or the ClientAck of
the client that it has answered. -/
def SlotOk (i : Fin m) (pc : AcceptPc) (q : BluefinPacket) : Prop :=
  isFailed pc = true ∨ pc = .waiting ∧ (∃ k, q = P.hello k) ∨
    ∃ k, peer pc = some (P.clientConnId k) ∧ connected k = some (P.serverConnId i) ∧
      q = P.ack k (P.serverConnId i)

def PcOk (i : Fin m) : AcceptPc → Prop
  | .gotHello q _ => ∃ k, q = P.hello k
  | .removed dst num _ => ∃ k, dst = P.clientConnId k ∧ num = P.clientPacketNumber k
  | .inserted dst num _ => ∃ k, dst = P.clientConnId k ∧ num = P.clientPacketNumber k
  | .awaitAck dst num => ∃ k, dst = P.clientConnId k ∧ num = P.clientPacketNumber k
  | .done conn => ∃ k, conn = ⟨P.serverConnId i, P.clientConnId k, P.serverPacketNumber i + 1⟩ ∧
      connected k = some (P.serverConnId i)
  | _ => True

/-- What a call can find in its buffer and what it has read from it. -/
structure CallOk (held : Option BluefinPacket) (i : Fin m) (pc : AcceptPc) : Prop where
  slots : ∀ q, pc ≠ .start → held = some q → SlotOk P connected i pc q
  pc_ok : PcOk P connected i pc

variable (accepts : Fin m → AcceptPc)

/-- Only the buffers of a call stand under its id, and only lookups with its id have
found them. -/
structure Routed : Prop where
  entries : ∀ key ref, side.host.connManager key = some ref →
    ∃ i, EntryOf P key ref i (accepts i)
  found : ∀ d ref, (d, some ref) ∈ side.inHand → ∃ i, FoundFor P d.key ref i (accepts i)

/-- What the workers hold and what is queued comes from the clients. -/
structure Origin : Prop where
  hand : ∀ x ∈ side.inHand, ∃ k, FromClient P connected k x.1
  queue : ∀ x ∈ side.host.helloState.helloQueue, ∃ k, x.1 = P.hello k

/-- At most one ClientHello is on its way to a call. -/
structure HelloOnce : Prop where
  nodup : (helloIds side).Nodup
  expected : ∀ id ∈ helloIds side, ∃ i, Expects P id (slot side.host i.val) i (accepts i)

structure ServerInv : Prop where
  routed : Routed P side accepts
  origin : Origin P connected side
  hello_once : HelloOnce P side accepts
  calls : ∀ i, CallOk P connected (slot side.host i.val) i (accepts i)

end

theorem serverInv_init (P : Setup m n) (connected : Fin n → Option UInt32) :
    ServerInv P connected ⟨.new, []⟩ fun _ => .start where
  routed := ⟨fun _ _ h => (by cases h), fun _ _ h => (by cases h)⟩
  origin := ⟨fun _ h => (by cases h), fun _ h => (by cases h)⟩
  hello_once := ⟨.nil, fun _ h => (by cases h)⟩
  calls := fun _ => ⟨fun _ h => absurd rfl h, trivial⟩

theorem SlotOk.mono (h : Later connected connected') {i : Fin m} {pc : AcceptPc}
    {q : BluefinPacket} (hs : SlotOk P connected i pc q) : SlotOk P connected' i pc q := by
  refine hs.imp_right (Or.imp_right ?_)
  rintro ⟨k, hpeer, hconn, hq⟩
  exact ⟨k, hpeer, h _ _ hconn, hq⟩

theorem PcOk.mono (h : Later connected connected') {i : Fin m} {pc : AcceptPc}
    (hp : PcOk P connected i pc) : PcOk P connected' i pc := by
  cases pc with
  | done conn =>
    obtain ⟨k, hconn, hk⟩ := hp
    exact ⟨k, hconn, h _ _ hk⟩
  | _ => exact hp

theorem ServerInv.mono {side : Side} {accepts : Fin m → AcceptPc} (h : Later connected connected')
    (hinv : ServerInv P connected side accepts) : ServerInv P connected' side accepts where
  routed := hinv.routed
  origin := by
    refine ⟨fun x hx => ?_, hinv.origin.queue⟩
    obtain ⟨k, hk⟩ := hinv.origin.hand x hx
    exact ⟨k, hk.mono h⟩
  hello_once := hinv.hello_once
  calls := fun i => ⟨fun q hpc hq => ((hinv.calls i).slots q hpc hq).mono h,
    (hinv.calls i).pc_ok.mono h⟩

theorem CallOk.held_none {held : Option BluefinPacket} {i : Fin m} {pc : AcceptPc}
    (h : CallOk P connected held i pc) (hpc : pc ≠ .start ∧ pc ≠ .waiting)
    (hfailed : isFailed pc = false) (hpeer : peer pc = none) : held = none := by
  cases held with
  | none => rfl
  | some q =>
    rcases h.slots q hpc.1 rfl with hf | ⟨hw, -⟩ | ⟨k, hk, -⟩
    · rw [hfailed] at hf
      cases hf
    · exact absurd hw hpc.2
    · rw [hpeer] at hk
      cases hk

/-! ### A step of a call keeps them -/

section

variable {side : Side} {accepts : Fin m → AcceptPc} {i : Fin m} {host' : Host} {pc' : AcceptPc}

theorem CallMoves.reaches {ref : BufferRef} {srcConnId : UInt32} {packetNumber : UInt64}
    {host : Host} {pc : AcceptPc} (h : CallMoves ref srcConnId packetNumber host pc host' pc')
    {other : UInt32} (hr : Reaches pc other) : Reaches pc' other := by
  cases h with
  | pends | answers | finishes => exact hr
  | fails | refuses => exact .inl rfl
  | opens | pops | slots | reads | removes | inserts =>
    rcases hr with hr | hr | hr
    · cases hr
    · exact .inr (.inl hr)
    · cases hr

theorem Routed.call (h : Routed P side accepts)
    (hmove : CallMoves i.val (P.serverConnId i) (P.serverPacketNumber i) side.host (accepts i)
      host' pc') :
    Routed P { side with host := host' } (Function.update accepts i pc') := by
  constructor
  case found =>
    intro d ref hd
    refine Family.exists_update (fun hf => ?_) (fun _ _ hf => hf) (h.found d ref hd)
    exact ⟨hf.ref_eq, hf.id_eq, hmove.reaches hf.reaches⟩
  case entries =>
    intro key ref hkey
    -- an entry that was there, if it still counts for this call
    have hold : side.host.connManager key = some ref →
        (key.1 = P.serverConnId i → Listed (accepts i) key.2 → Listed pc' key.2) →
        ∃ j, EntryOf P key ref j (Function.update accepts i pc' j) := by
      intro hentry hown
      refine Family.exists_update (fun he => ?_) (fun _ _ he => he) (h.entries key ref hentry)
      exact ⟨he.ref_eq, he.id_eq, hown he.id_eq he.listed⟩
    have hnew : key.1 = P.serverConnId i → ref = i.val → Listed pc' key.2 →
        ∃ j, EntryOf P key ref j (Function.update accepts i pc' j) := by
      intro hid href hlisted
      exact ⟨i, href, hid, by rwa [Function.update_self]⟩
    generalize accepts i = pc at hmove hold
    cases hmove with
    | opens hnext =>
      have hlisted : key.2 = 0 → Listed pc' key.2 := by
        intro hzero
        rcases hnext with rfl | hf
        · exact hzero
        · cases pc' <;> trivial
      simp only [Host.insert, Host.store, Function.update_apply] at hkey
      split at hkey
      · rename_i heq
        cases hkey
        exact hnew (by rw [heq]) rfl (hlisted (by rw [heq]))
      · exact hold hkey fun _ hfalse => hfalse.elim
    | fails hpc hbuffers hstate hentries =>
      rcases hentries key ref hkey with hentry | ⟨hid, href⟩
      · exact hold hentry fun _ _ => trivial
      · exact hnew hid href trivial
    | removes =>
      obtain ⟨hentry, hne⟩ := remove_entries side.host _ hkey
      exact hold hentry fun hid (hzero : key.2 = 0) => absurd (Prod.ext hid hzero) hne
    | inserts =>
      simp only [Host.insert, Function.update_apply] at hkey
      split at hkey
      · rename_i heq
        cases hkey
        exact hnew (by rw [heq]) rfl (by rw [heq]; rfl)
      · exact hold hkey fun _ hfalse => hfalse.elim
    | refuses => exact hold hkey fun _ _ => trivial
    | pops | slots | pends | reads | answers | finishes => exact hold hkey fun _ hl => hl

theorem Origin.call (h : Origin P connected side)
    (hmove : CallMoves i.val (P.serverConnId i) (P.serverPacketNumber i) side.host (accepts i)
      host' pc') : Origin P connected { side with host := host' } := by
  refine ⟨h.hand, fun x hx => h.queue x ?_⟩
  generalize accepts i = pc at hmove
  cases hmove with
  | pops hqueue =>
    rw [hqueue]
    exact List.mem_cons_of_mem _ hx
  | fails hpc hbuffers hstate =>
    rw [← hstate]
    exact hx
  | _ => exact hx

theorem HelloOnce.call (h : HelloOnce P side accepts)
    (hcall : CallOk P connected (slot side.host i.val) i (accepts i))
    (hmove : CallMoves i.val (P.serverConnId i) (P.serverPacketNumber i) side.host (accepts i)
      host' pc') :
    HelloOnce P { side with host := host' } (Function.update accepts i pc') := by
  -- the ids that were there before, by what the step does to a call that waits
  have hold : (accepts i = .waiting → slot side.host i.val = none →
      isFailed pc' = true ∨ pc' = .waiting ∧ slot host' i.val = none) →
      ∀ id ∈ helloIds side,
        ∃ j, Expects P id (slot host' j.val) j (Function.update accepts i pc' j) := by
    intro hown id hid
    refine Family.exists_update (fun he => ⟨he.id_eq, ?_⟩) (fun j hj he => ⟨he.id_eq, ?_⟩)
      (h.expected id hid)
    · rcases he.waits with hf | ⟨hw, hempty⟩
      · exact absurd hf (by rw [hmove.not_failed]; simp)
      · exact hown hw hempty
    · rw [hmove.slot_other (fun hij => hj (Fin.ext hij))]
      exact he.waits
  have hids : accepts i ≠ .registered → helloIds { side with host := host' } = helloIds side := by
    intro hpc
    generalize accepts i = pc at hmove hpc
    cases hmove with
    | fails _ _ hstate => simp only [helloIds, hstate]
    | slots => exact absurd rfl hpc
    | _ => rfl
  have hnodup : accepts i ≠ .registered → (helloIds { side with host := host' }).Nodup := by
    intro hpc
    rw [hids hpc]
    exact h.nodup
  generalize hpc : accepts i = pc at hmove hold hcall hids hnodup
  cases hmove with
  | pops => exact ⟨h.nodup, hold (by simp)⟩
  | slots =>
    have hempty : slot side.host i.val = none := hcall.held_none (by simp) rfl rfl
    have hnot : P.serverConnId i ∉ helloIds side := by
      intro hmem
      obtain ⟨j, he⟩ := h.expected _ hmem
      have hwaits := he.waits
      rw [← P.server_injective he.id_eq, hpc] at hwaits
      simp [isFailed] at hwaits
    have hperm : (helloIds { side with host := { side.host with helloState :=
        { side.host.helloState with pendingAcceptIds :=
          side.host.helloState.pendingAcceptIds ++ [P.serverConnId i] } } }).Perm
        (P.serverConnId i :: helloIds side) := by
      simp only [helloIds, List.append_assoc, List.singleton_append]
      exact List.perm_middle
    refine ⟨hperm.nodup_iff.mpr (List.nodup_cons.mpr ⟨hnot, h.nodup⟩), fun id hid => ?_⟩
    rcases List.mem_cons.mp (hperm.mem_iff.mp hid) with rfl | hid
    · exact ⟨i, rfl, .inr ⟨Function.update_self .., hempty⟩⟩
    · exact hold (by simp) id hid
  | pends hpc' hb =>
    have hne : pc' ≠ .registered := by rcases hpc' with rfl | ⟨_, _, rfl⟩ <;> simp
    refine ⟨hnodup hne, fun id hid => hold (fun hw _ => .inr ⟨hw, ?_⟩) id (hids hne ▸ hid)⟩
    rw [slot_setConnBuff, hb]
  | reads hslot =>
    refine ⟨hnodup (by simp), fun id hid => hold (fun _ hempty => ?_) id (hids (by simp) ▸ hid)⟩
    rw [hslot] at hempty
    cases hempty
  | fails hpc' =>
    exact ⟨hnodup hpc'.2.1, fun id hid => hold (fun hw => absurd hw hpc'.2.2.1) id
      (hids hpc'.2.1 ▸ hid)⟩
  | opens | removes | inserts | answers | refuses | finishes =>
    exact ⟨hnodup (by simp), fun id hid => hold (by simp) id (hids (by simp) ▸ hid)⟩

theorem CallMoves.callOk {host : Host} {pc : AcceptPc}
    (hmove : CallMoves i.val (P.serverConnId i) (P.serverPacketNumber i) host pc host' pc')
    (h : CallOk P connected (slot host i.val) i pc)
    (hqueue : ∀ x ∈ host.helloState.helloQueue, ∃ k, x.1 = P.hello k) :
    CallOk P connected (slot host' i.val) i pc' := by
  -- a step that leaves the buffer empty has nothing to say about it
  have hempty : slot host' i.val = none → PcOk P connected i pc' →
      CallOk P connected (slot host' i.val) i pc' := by
    intro hnone hpc
    rw [hnone]
    exact ⟨fun q _ hq => (by cases hq), hpc⟩
  cases hmove with
  | opens hnext =>
    refine hempty ?_ ?_
    · simp [slot, Host.insert, Host.store, Handshake.newBuffers, ConnectionBuffer.new]
    · rcases hnext with rfl | hf
      · trivial
      · cases pc' <;> trivial
  | pops hhead =>
    have hmem := hhead ▸ List.mem_cons_self ..
    exact hempty (h.held_none (by simp) rfl rfl) (hqueue _ hmem)
  | slots => exact hempty (h.held_none (by simp) rfl rfl) trivial
  | pends hpc hb =>
    refine hempty ?_ h.pc_ok
    rw [slot_setConnBuff, hb]
  | @reads packet addr b hslot hb =>
    refine hempty (by rw [slot_setConnBuff, hb]) ?_
    rcases h.slots packet (by simp) hslot with hf | ⟨-, hk⟩ | ⟨k, hk, -⟩
    · cases hf
    · exact hk
    · cases hk
  | fails | refuses => exact ⟨fun _ _ _ => .inl rfl, trivial⟩
  | removes =>
    refine hempty (h.held_none (by simp) rfl rfl) ?_
    obtain ⟨k, rfl⟩ := h.pc_ok
    exact ⟨k, rfl, rfl⟩
  | inserts => exact hempty (h.held_none (by simp) rfl rfl) h.pc_ok
  | answers =>
    refine ⟨fun q _ hq => ?_, h.pc_ok⟩
    rcases h.slots q (by simp) hq with hf | ⟨hw, -⟩ | hk
    · cases hf
    · cases hw
    · exact .inr (.inr hk)
  | @finishes dst num clientAck b hslot hb =>
    refine hempty (by rw [slot_setConnBuff, hb]) ?_
    rcases h.slots clientAck (by simp) hslot with hf | ⟨hw, -⟩ | ⟨k, hk, hconn, -⟩
    · cases hf
    · cases hw
    · cases hk
      exact ⟨k, rfl, hconn⟩

theorem ServerInv.call (h : ServerInv P connected side accepts)
    (hmove : CallMoves i.val (P.serverConnId i) (P.serverPacketNumber i) side.host (accepts i)
      host' pc') :
    ServerInv P connected { side with host := host' } (Function.update accepts i pc') where
  routed := h.routed.call hmove
  origin := h.origin.call hmove
  hello_once := h.hello_once.call (h.calls i) hmove
  calls := by
    refine Family.forall_update (hmove.callOk (h.calls i) h.origin.queue) (fun j hj hc => ?_)
      h.calls
    rwa [hmove.slot_other (r := j.val) (fun hij => hj (Fin.ext hij))]

end

/-! ### A call that ends early, and a connection that is closed -/

section

variable {side : Side} {accepts : Fin m → AcceptPc}

theorem ServerInv.fail (h : ServerInv P connected side accepts) (i : Fin m) (e : BluefinError) :
    ServerInv P connected side (Function.update accepts i (.failed e)) where
  routed := by
    refine ⟨fun key ref hkey => ?_, fun d ref hd => ?_⟩
    · exact Family.exists_update (fun he => ⟨he.ref_eq, he.id_eq, trivial⟩) (fun _ _ he => he)
        (h.routed.entries key ref hkey)
    · exact Family.exists_update (fun hf => ⟨hf.ref_eq, hf.id_eq, .inl rfl⟩) (fun _ _ hf => hf)
        (h.routed.found d ref hd)
  origin := h.origin
  hello_once := by
    refine ⟨h.hello_once.nodup, fun id hid => ?_⟩
    exact Family.exists_update (fun he => ⟨he.id_eq, .inl rfl⟩) (fun _ _ he => he)
      (h.hello_once.expected id hid)
  calls := Family.forall_update ⟨fun _ _ _ => .inl rfl, trivial⟩ (fun _ _ hc => hc) h.calls

theorem ServerInv.remove (h : ServerInv P connected side accepts) (key : ConnKey) :
    ServerInv P connected { side with host := (side.host.remove key).2 } accepts where
  routed := ⟨fun key' ref hkey => h.routed.entries key' ref (remove_entries side.host key hkey).1,
    h.routed.found⟩
  origin := ⟨h.origin.hand, h.origin.queue⟩
  hello_once := ⟨h.hello_once.nodup, h.hello_once.expected⟩
  calls := h.calls

/-! ### A step of a worker keeps them -/

theorem mem_helloIds {d : Delivery} {ref : Option BufferRef} (hd : (d, ref) ∈ side.inHand)
    (hhello : d.isHello = true) : d.key.1 ∈ helloIds side :=
  List.mem_append_right _ (List.mem_map.mpr ⟨(d, ref), List.mem_filter.mpr ⟨hd, hhello⟩, rfl⟩)

theorem helloIds_append (side : Side) (state : HelloState) (d : Delivery) :
    helloIds ⟨{ side.host with helloState := state }, side.inHand ++ [(d, none)]⟩ =
      state.pendingAcceptIds ++ ((side.inHand.filter fun x => x.1.isHello).map fun x => x.1.key.1) ++
        if d.isHello then [d.key.1] else [] := by
  simp only [helloIds, List.filter_append, List.map_append, List.append_assoc]
  cases hd : d.isHello <;> simp [hd]

theorem helloIds_erase {side : Side} {i : ℕ} {d : Delivery} {ref : Option BufferRef}
    (hd : side.inHand[i]? = some (d, ref)) :
    (helloIds side).Perm ((if d.isHello then [d.key.1] else []) ++
      helloIds { side with inHand := side.inHand.eraseIdx i }) := by
  obtain ⟨hi, hget⟩ := List.getElem?_eq_some_iff.mp hd
  have hperm : (side.inHand).Perm ((d, ref) :: side.inHand.eraseIdx i) := by
    rw [← hget]
    exact (List.getElem_cons_eraseIdx_perm hi).symm
  have hids := (hperm.filter fun x => x.1.isHello).map fun x => x.1.key.1
  simp only [helloIds]
  refine (hids.append_left _).trans ?_
  cases hhello : d.isHello with
  | true =>
    simp only [List.filter_cons, hhello, if_true, List.map_cons, List.singleton_append]
    exact List.perm_middle
  | false => simp [hhello]

theorem helloIds_set {side : Side} {i : ℕ} {d : Delivery} {ref ref' : Option BufferRef}
    (hd : side.inHand[i]? = some (d, ref)) :
    helloIds { side with inHand := side.inHand.set i (d, ref') } = helloIds side := by
  have hmap : ∀ l : List (Delivery × Option BufferRef),
      (l.filter fun x => x.1.isHello).map (fun x => x.1.key.1) =
        ((l.map Prod.fst).filter fun x => x.isHello).map fun x => x.key.1 := by
    intro l
    simp [List.filter_map, Function.comp_def]
  have hsame : (side.inHand.set i (d, ref')).map Prod.fst = side.inHand.map Prod.fst := by
    have hfst : (side.inHand.map Prod.fst)[i]? = some d := by simp [hd]
    obtain ⟨hi, hget⟩ := List.getElem?_eq_some_iff.mp hfst
    rw [List.map_set]
    nth_rewrite 1 [← hget]
    exact List.set_getElem_self hi
  simp only [helloIds, hmap, hsame]

theorem ServerInv.receive {k : Fin n} {state : HelloState} {o : Option Delivery}
    (h : ServerInv P connected side accepts)
    (ht : Takes P connected k side.host.helloState state o) :
    ServerInv P connected ⟨{ side.host with helloState := state },
      side.inHand ++ o.toList.map fun d => (d, none)⟩ accepts := by
  have hhand : (∀ d ∈ o, FromClient P connected k d) →
      ∀ x ∈ side.inHand ++ o.toList.map fun d => (d, none), ∃ k, FromClient P connected k x.1 := by
    intro ho x hx
    rcases List.mem_append.mp hx with hx | hx
    · exact h.origin.hand x hx
    · obtain ⟨d, hd, rfl⟩ := List.mem_map.mp hx
      exact ⟨k, ho d (Option.mem_toList.mp hd)⟩
  have hfound : ∀ d ref, (d, some ref) ∈ side.inHand ++ o.toList.map (fun d => (d, none)) →
      ∃ i, FoundFor P d.key ref i (accepts i) := by
    intro d ref hd
    rcases List.mem_append.mp hd with hd | hd
    · exact h.routed.found d ref hd
    · obtain ⟨_, -, hnone⟩ := List.mem_map.mp hd
      cases hnone
  -- the calls that a hello is on its way to are the same, in another order
  have hids : (∀ x ∈ state.helloQueue, ∃ k, x.1 = P.hello k) ∧ (∀ d ∈ o, FromClient P connected k d) ∧
      (helloIds ⟨{ side.host with helloState := state },
        side.inHand ++ o.toList.map fun d => (d, none)⟩).Perm (helloIds side) := by
    cases ht with
    | @routed id ids d hpending hkey hd =>
      refine ⟨h.origin.queue, fun d' hd' => (by cases hd'; exact hd), ?_⟩
      have hhello : d.isHello = true := by
        cases hd with
        | hello _ hhello => exact hhello
        | later _ _ hkey' =>
          rw [hkey] at hkey'
          exact absurd (congrArg Prod.snd hkey').symm (P.client_ne_zero k)
      have happend := helloIds_append side { side.host.helloState with pendingAcceptIds := ids } d
      simp only [Option.toList_some, List.map_cons, List.map_nil]
      rw [happend]
      simp only [helloIds, hpending, hhello, hkey, if_true]
      exact List.perm_append_singleton ..
    | @queued addr =>
      refine ⟨fun x hx => ?_, fun _ hd' => (by cases hd'), ?_⟩
      · rcases List.mem_append.mp hx with hx | hx
        · exact h.origin.queue x hx
        · cases List.mem_singleton.mp hx
          exact ⟨k, rfl⟩
      · simp [helloIds]
    | nothing => exact ⟨h.origin.queue, fun _ hd' => (by cases hd'), by simp [helloIds]⟩
    | @looked d hhello hd =>
      refine ⟨h.origin.queue, fun d' hd' => (by cases hd'; exact hd), ?_⟩
      simp only [Option.toList_some, List.map_cons, List.map_nil]
      rw [helloIds_append, hhello]
      simp [helloIds]
  obtain ⟨hqueue, ho, hperm⟩ := hids
  exact {
    routed := ⟨h.routed.entries, hfound⟩
    origin := ⟨hhand ho, hqueue⟩
    hello_once := ⟨hperm.nodup_iff.mpr h.hello_once.nodup,
      fun id hid => h.hello_once.expected id (hperm.mem_iff.mp hid)⟩
    calls := h.calls }

theorem ServerInv.erase (h : ServerInv P connected side accepts) (i : ℕ) :
    ServerInv P connected { side with inHand := side.inHand.eraseIdx i } accepts where
  routed := ⟨h.routed.entries, fun d ref hd => h.routed.found d ref (List.mem_of_mem_eraseIdx hd)⟩
  origin := ⟨fun x hx => h.origin.hand x (List.mem_of_mem_eraseIdx hx), h.origin.queue⟩
  hello_once := by
    have hsub : (helloIds { side with inHand := side.inHand.eraseIdx i }).Sublist (helloIds side) :=
      (((List.eraseIdx_sublist side.inHand i).filter _).map _).append_left _
    exact ⟨hsub.nodup h.hello_once.nodup, fun id hid => h.hello_once.expected id (hsub.subset hid)⟩
  calls := h.calls

theorem ServerInv.find (h : ServerInv P connected side accepts) {i : ℕ} {d : Delivery}
    {ref : BufferRef} (hd : side.inHand[i]? = some (d, none))
    (hentry : side.host.connManager d.key = some ref) :
    ServerInv P connected { side with inHand := side.inHand.set i (d, some ref) } accepts where
  routed := by
    refine ⟨h.routed.entries, fun d' ref' hd' => ?_⟩
    rcases List.mem_or_eq_of_mem_set hd' with hd' | heq
    · exact h.routed.found d' ref' hd'
    · cases heq
      obtain ⟨j, he⟩ := h.routed.entries d.key ref hentry
      exact ⟨j, he.ref_eq, he.id_eq, reaches_of_listed he.listed⟩
  origin := by
    refine ⟨fun x hx => ?_, h.origin.queue⟩
    rcases List.mem_or_eq_of_mem_set hx with hx | rfl
    · exact h.origin.hand x hx
    · exact h.origin.hand (d, none) (List.mem_of_getElem? hd)
  hello_once := by
    have hids := @helloIds_set side i d none (some ref) hd
    exact ⟨by rw [hids]; exact h.hello_once.nodup,
      fun id hid => h.hello_once.expected id (by rwa [hids] at hid)⟩
  calls := h.calls

theorem ServerInv.buffer (h : ServerInv P connected side accepts) {i : ℕ} {d : Delivery}
    {ref : BufferRef} (hd : side.inHand[i]? = some (d, some ref)) :
    ServerInv P connected ⟨ReaderTxChannel.buffer .packLeader side.host d ref,
      side.inHand.eraseIdx i⟩ accepts := by
  have herase := h.erase i
  have hmem : (d, some ref) ∈ side.inHand := List.mem_of_getElem? hd
  obtain ⟨j, href, hid, hreach⟩ := h.routed.found d ref hmem
  obtain ⟨k, hk⟩ : ∃ k, FromClient P connected k d := h.origin.hand _ hmem
  have hother : ∀ l : Fin m, l ≠ j →
      slot (ReaderTxChannel.buffer .packLeader side.host d ref) l.val = slot side.host l.val := by
    intro l hl
    exact buffer_slot_other _ _ d (fun he => hl (Fin.ext (he.trans href)))
  have hself := buffer_slot hk side.host ref
  subst href
  constructor
  case routed => exact ⟨herase.routed.entries, herase.routed.found⟩
  case origin => exact ⟨herase.origin.hand, herase.origin.queue⟩
  case hello_once =>
    refine ⟨herase.hello_once.nodup, fun id hid' => ?_⟩
    obtain ⟨l, he⟩ := herase.hello_once.expected id hid'
    refine ⟨l, he.id_eq, ?_⟩
    by_cases hl : l = j
    · subst hl
      refine he.waits.imp_right fun ⟨hw, hempty⟩ => ⟨hw, ?_⟩
      rcases hself with hsame | ⟨hhello, -⟩ | ⟨dst, -, -, hkey, -⟩
      · rw [hsame]
        exact hempty
      · -- a second hello for the same call
        have hnodup := (helloIds_erase hd).nodup_iff.mp h.hello_once.nodup
        simp only [hhello, if_true, List.singleton_append, List.nodup_cons] at hnodup
        rw [he.id_eq, ← hid] at hid'
        exact absurd hid' hnodup.1
      · rw [hw, hkey] at hreach
        rcases hreach with hf | hzero | hp
        · cases hf
        · exact absurd hzero (P.client_ne_zero k)
        · cases hp
    · rw [hother l hl]
      exact he.waits
  case calls =>
    intro l
    by_cases hl : l = j
    · subst hl
      have hcall := h.calls l
      rcases hself with hsame | ⟨hhello, hslot⟩ | ⟨dst, hconn, -, hkey, hslot⟩
      · rw [hsame]
        exact hcall
      · refine ⟨fun q _ hq => ?_, hcall.pc_ok⟩
        obtain ⟨l', he⟩ := h.hello_once.expected _ (mem_helloIds hmem hhello)
        obtain rfl := P.server_injective (hid.symm.trans he.id_eq)
        rw [hslot] at hq
        cases hq
        exact he.waits.imp_right fun ⟨hw, _⟩ => .inl ⟨hw, k, rfl⟩
      · refine ⟨fun q _ hq => ?_, hcall.pc_ok⟩
        rw [hslot] at hq
        cases hq
        rw [hkey] at hid hreach
        obtain rfl : dst = P.serverConnId l := hid
        rcases hreach with hf | hzero | hp
        · exact .inl hf
        · exact absurd hzero (P.client_ne_zero k)
        · exact .inr (.inr ⟨k, hp, hconn, rfl⟩)
    · rw [hother l hl]
      exact h.calls l

theorem ServerInv.worker {k : Fin n} {addr : SocketAddr} {sent : List Bytes} {side' : Side}
    {act : Handshake.WorkerAction} (h : ServerInv P connected side accepts)
    (hsent : ∀ datagram ∈ sent, ∀ c packets,
      BluefinPacket.fromBytesInto datagram [] = (.ok c, packets) → SentBy P connected k packets)
    (hstep : Handshake.workerStep .packLeader sent addr side act = some side') :
    ServerInv P connected side' accepts := by
  cases act with
  | receive datagram =>
    simp only [Handshake.workerStep] at hstep
    split at hstep
    · rename_i hmem
      have htakes := @receive_takes _ _ P connected k addr side.host.helloState
      split at hstep <;> cases hstep
      · rename_i state hrecv
        have hinv := h.receive (htakes (hsent datagram hmem) hrecv)
        rwa [Option.toList_none, List.map_nil, List.append_nil] at hinv
      · rename_i state d hrecv
        exact h.receive (htakes (hsent datagram hmem) hrecv)
    · cases hstep
  | lookup i =>
    simp only [Handshake.workerStep] at hstep
    split at hstep
    · rename_i d hd
      split at hstep <;> cases hstep
      · exact h.erase i
      · rename_i ref hentry
        exact h.find hd hentry
    · cases hstep
  | buffer i =>
    simp only [Handshake.workerStep] at hstep
    split at hstep
    · rename_i d ref hd
      cases hstep
      exact h.buffer hd
    · cases hstep

end

end

end Crowd

end Bluefin
