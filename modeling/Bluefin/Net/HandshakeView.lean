import Bluefin.Net.HandshakeBuffers

/-!
# A handshake over a reliable network, one host

Each datagram is delivered once and in order, and no timeout expires: `linkStep`
has the steps that are left. A host is followed in what the handshake depends on
in it, its `View`, through the steps of its call and of its workers.
-/

namespace Bluefin
open Base

namespace Handshake

/-! ### The network -/

/-- A handshake and how many of the datagrams sent to each host it has received. -/
structure Link where
  st : State
  atServer : ℕ
  atClient : ℕ

def Link.fresh : Link := ⟨init, 0, 0⟩

def linkStep (P : Setup) (x : Link) : Action → Option Link
  | .connectTimeout | .acceptTimeout => none
  | .atServer (.receive datagram) =>
    if x.st.toServer[x.atServer]? = some datagram then
      (step P x.st (.atServer (.receive datagram))).map
        fun st => { x with st := st, atServer := x.atServer + 1 }
    else none
  | .atClient (.receive datagram) =>
    if x.st.toClient[x.atClient]? = some datagram then
      (step P x.st (.atClient (.receive datagram))).map
        fun st => { x with st := st, atClient := x.atClient + 1 }
    else none
  | act => (step P x.st act).map fun st => { x with st := st }

/-! ### One host -/

theorem bufferToConnBuffer_slot {b : ConnectionBuffer} (hslot : b.packet = none)
    (p : BluefinPacket) (addr : SocketAddr) {isHello isClientAck : Bool}
    (hkind : isHello = true ∨ isClientAck = true) :
    let b' := (ReaderTxChannel.bufferToConnBuffer b p addr isHello isClientAck).2.1
    b'.hostType = b.hostType ∧ b'.packet = some p ∧ b'.startPacketNumberSet = true ∧
      b'.addr = some (b.addr.getD addr) := by
  have hnot : (!isHello && !isClientAck) = false := by
    rcases hkind with rfl | rfl <;> simp
  obtain ⟨bytes, address, waker, packet, dst, hostType, set⟩ := b
  subst hslot
  simp only [ReaderTxChannel.bufferToConnBuffer, hnot, Bool.false_eq_true, if_false,
    ConnectionBuffer.bufferInPacket]
  cases set <;> cases address <;> cases waker <;> exact ⟨rfl, rfl, rfl, rfl⟩

/-- What the handshake depends on in a host: whether its buffers are there, the one
entry of the connection manager, the datagrams in its workers' hands, the packet
in the slot, and whether the start number is set. -/
structure View where
  opened : Bool
  entry : Option ConnKey
  hand : List (ReaderTxChannel.Delivery × Option BufferRef)
  slot : Option BluefinPacket
  startSet : Bool

structure Side.Is (side : Side) (hostType : BluefinHost) (peer : SocketAddr) (v : View) : Prop where
  host : v.opened = true → (side.host.buffers connRef).connBuff.hostType = hostType
  entry : ∀ key, side.host.connManager key = if v.entry = some key then some connRef else none
  hand : side.inHand = v.hand
  slot : (side.host.buffers connRef).connBuff.packet = v.slot
  startSet : (side.host.buffers connRef).connBuff.startPacketNumberSet = v.startSet
  addr : (side.host.buffers connRef).connBuff.addr = if v.startSet then some peer else none

section

variable {side : Side} {hostType : BluefinHost} {peer : SocketAddr} {v : View}
  (h : side.Is hostType peer v)

include h

theorem is_open (hentry : v.entry = none) (id : UInt32) (firstSent : UInt64) :
    ∃ host', (side.host.store connRef (newBuffers id hostType firstSent)).insert (id, 0) connRef =
        (false, host') ∧ host'.helloState = side.host.helloState ∧
      Side.Is { side with host := host' } hostType peer
        ⟨true, some (id, 0), v.hand, none, false⟩ := by
  have hfree : side.host.connManager (id, 0) = none := by
    rw [h.entry, hentry, if_neg (by simp)]
  refine ⟨((side.host.store connRef (newBuffers id hostType firstSent)).insert (id, 0)
    connRef).2, ?_, rfl, ?_⟩
  · simp only [Host.insert, Host.store, hfree]
    rfl
  · constructor
    case host =>
      intro _
      simp [Host.insert, Host.store, newBuffers, ConnectionBuffer.new]
    case entry =>
      intro key
      simp only [Host.insert, Host.store, Function.update_apply, h.entry, hentry, Option.some.injEq]
      by_cases hkey : key = (id, 0)
      · rw [if_pos hkey, if_pos hkey.symm]
      · rw [if_neg hkey, if_neg (Ne.symm hkey), if_neg (by simp)]
    case hand => exact h.hand
    case slot => simp [Host.insert, Host.store, newBuffers, ConnectionBuffer.new]
    case startSet => simp [Host.insert, Host.store, newBuffers, ConnectionBuffer.new]
    case addr => simp [Host.insert, Host.store, newBuffers, ConnectionBuffer.new]

theorem is_remove {key : ConnKey} (hentry : v.entry = some key) :
    ∃ host', side.host.remove key = (true, host') ∧ host'.helloState = side.host.helloState ∧
      Side.Is { side with host := host' } hostType peer { v with entry := none } := by
  refine ⟨(side.host.remove key).2, ?_, rfl, ?_⟩
  · rw [Host.remove, h.entry, if_pos hentry]
    rfl
  · refine ⟨h.host, fun key' => ?_, h.hand, h.slot, h.startSet, h.addr⟩
    simp only [Host.remove, Function.update_apply, h.entry, hentry, Option.some.injEq]
    by_cases hkey : key' = key
    · rw [if_pos hkey, if_neg (by simp)]
    · rw [if_neg hkey, if_neg (Ne.symm hkey), if_neg (by simp)]

theorem is_insert (hentry : v.entry = none) (key : ConnKey) :
    ∃ host', side.host.insert key connRef = (false, host') ∧
      host'.helloState = side.host.helloState ∧
      Side.Is { side with host := host' } hostType peer { v with entry := some key } := by
  refine ⟨(side.host.insert key connRef).2, ?_, rfl, ?_⟩
  · rw [Host.insert, h.entry, hentry, if_neg (by simp)]
    rfl
  · refine ⟨h.host, fun key' => ?_, h.hand, h.slot, h.startSet, h.addr⟩
    simp only [Host.insert, Function.update_apply, h.entry, hentry, Option.some.injEq]
    by_cases hkey : key' = key
    · rw [if_pos hkey, if_pos hkey.symm]
    · rw [if_neg hkey, if_neg (Ne.symm hkey), if_neg (by simp)]

theorem is_setConnBuff {b : ConnectionBuffer} {slot : Option BluefinPacket}
    (hhost : b.hostType = (side.host.buffers connRef).connBuff.hostType)
    (hslot : b.packet = slot)
    (hset : b.startPacketNumberSet = (side.host.buffers connRef).connBuff.startPacketNumberSet)
    (haddr : b.addr = (side.host.buffers connRef).connBuff.addr) :
    Side.Is { side with host := side.host.setConnBuff connRef b } hostType peer
      { v with slot := slot } := by
  have hbuff : ((side.host.setConnBuff connRef b).buffers connRef).connBuff = b := by
    rw [Host.setConnBuff_buffers]
  constructor
  case host =>
    intro hopened
    simp only [hbuff, hhost]
    exact h.host hopened
  case entry => exact h.entry
  case hand => exact h.hand
  case slot => simp only [hbuff, hslot]
  case startSet => simp only [hbuff, hset, h.startSet]
  case addr => simp only [hbuff, haddr, h.addr]

theorem is_polled :
    Side.Is ⟨side.host.setConnBuff connRef
      ((side.host.buffers connRef).connBuff.pollHandshake callWaker).2, side.inHand⟩ hostType peer
      { v with slot := none } := by
  unfold ConnectionBuffer.pollHandshake
  split
  · exact is_setConnBuff h rfl rfl rfl rfl
  · exact is_setConnBuff h rfl rfl rfl rfl

theorem is_poll_none (hslot : v.slot = none) :
    ∃ b, (side.host.buffers connRef).connBuff.pollHandshake callWaker = (none, b) ∧
      Side.Is { side with host := side.host.setConnBuff connRef b } hostType peer v := by
  have hpolled := is_polled h
  rw [← hslot] at hpolled
  refine ⟨_, ?_, hpolled⟩
  simp only [ConnectionBuffer.pollHandshake, h.slot, hslot]

theorem is_poll_some {p : BluefinPacket} (hslot : v.slot = some p) (hset : v.startSet = true) :
    ∃ b, (side.host.buffers connRef).connBuff.pollHandshake callWaker = (some (p, peer), b) ∧
      Side.Is { side with host := side.host.setConnBuff connRef b } hostType peer
        { v with slot := none } := by
  refine ⟨_, ?_, is_polled h⟩
  simp only [ConnectionBuffer.pollHandshake, h.slot, hslot, h.addr, hset, if_true]

theorem is_helloState (state : HelloState) :
    Side.Is { side with host := { side.host with helloState := state } } hostType peer v :=
  ⟨h.host, h.entry, h.hand, h.slot, h.startSet, h.addr⟩

/-! ### The workers of one host -/

theorem is_received (d : ReaderTxChannel.Delivery) :
    Side.Is ⟨side.host, side.inHand ++ [(d, none)]⟩ hostType peer
      { v with hand := v.hand ++ [(d, none)] } := by
  refine ⟨h.host, h.entry, ?_, h.slot, h.startSet, h.addr⟩
  rw [h.hand]

variable (sent : List Bytes)

theorem is_lookup {d : ReaderTxChannel.Delivery} (hhand : v.hand = [(d, none)])
    (hentry : v.entry = some d.key) (i : ℕ) :
    (i = 0 → ∃ side', workerStep hostType sent peer side (.lookup i) = some side' ∧
      side'.host.helloState = side.host.helloState ∧
      side'.Is hostType peer { v with hand := [(d, some connRef)] }) ∧
    (i ≠ 0 → workerStep hostType sent peer side (.lookup i) = none) := by
  have hin : side.inHand = [(d, none)] := h.hand.trans hhand
  constructor
  · rintro rfl
    refine ⟨{ side with inHand := [(d, some connRef)] }, ?_, rfl,
      ⟨h.host, h.entry, rfl, h.slot, h.startSet, h.addr⟩⟩
    simp only [workerStep, hin, List.getElem?_cons_zero, h.entry, hentry, if_true,
      List.set_cons_zero]
  · intro hi
    obtain ⟨j, rfl⟩ := Nat.exists_eq_succ_of_ne_zero hi
    simp [workerStep, hin]

theorem is_buffer {d : ReaderTxChannel.Delivery} {p : BluefinPacket}
    (hhand : v.hand = [(d, some connRef)]) (hp : d.packets = [p]) (haddr : d.addr = peer)
    (hkind : d.isHello = true ∨ isClientAckPacket hostType p = true)
    (hslot : v.slot = none) (i : ℕ) :
    (i = 0 → ∃ side', workerStep hostType sent peer side (.buffer i) = some side' ∧
      side'.host.helloState = side.host.helloState ∧
      side'.Is hostType peer { v with hand := [], slot := some p, startSet := true }) ∧
    (i ≠ 0 → workerStep hostType sent peer side (.buffer i) = none) := by
  have hin : side.inHand = [(d, some connRef)] := h.hand.trans hhand
  constructor
  · rintro rfl
    refine ⟨⟨ReaderTxChannel.buffer hostType side.host d connRef, []⟩, ?_, rfl, ?_⟩
    · simp only [workerStep, hin, List.getElem?_cons_zero, List.eraseIdx_cons_zero]
    · obtain ⟨hhost, hpacket, hset, haddr'⟩ := bufferToConnBuffer_slot (h.slot.trans hslot) p d.addr
        hkind
      have hdata : (!isClientAckPacket hostType p && !d.isHello &&
          decide (p.header.typeField = .ack)) = false := by
        rcases hkind with hkind | hkind <;> simp [hkind]
      have hbuff : ((ReaderTxChannel.buffer hostType side.host d connRef).buffers connRef).connBuff =
          (ReaderTxChannel.bufferToConnBuffer (side.host.buffers connRef).connBuff p d.addr
            d.isHello (isClientAckPacket hostType p)).2.1 := by
        simp only [ReaderTxChannel.buffer, Function.update_self, hp, List.foldl_cons,
          List.foldl_nil, ReaderTxChannel.bufferInData, hdata, Bool.false_eq_true, if_false]
      constructor
      case host =>
        intro hopened
        simp only [hbuff, hhost]
        exact h.host hopened
      case entry => exact h.entry
      case hand => rfl
      case slot => simp only [hbuff, hpacket]
      case startSet => simp only [hbuff, hset]
      case addr =>
        simp only [hbuff, haddr', if_true]
        rw [h.addr, haddr]
        cases v.startSet <;> rfl
  · intro hi
    obtain ⟨j, rfl⟩ := Nat.exists_eq_succ_of_ne_zero hi
    simp [workerStep, hin]

theorem is_lookup_none (hhand : ∀ d, (d, none) ∉ v.hand) (i : ℕ) :
    workerStep hostType sent peer side (.lookup i) = none := by
  simp only [workerStep]
  split
  · rename_i d hd
    have hmem := List.mem_of_getElem? hd
    rw [h.hand] at hmem
    exact absurd hmem (hhand d)
  · rfl

theorem is_buffer_none (hhand : ∀ d ref, (d, some ref) ∉ v.hand) (i : ℕ) :
    workerStep hostType sent peer side (.buffer i) = none := by
  simp only [workerStep]
  split
  · rename_i d ref hd
    have hmem := List.mem_of_getElem? hd
    rw [h.hand] at hmem
    exact absurd hmem (hhand d ref)
  · rfl

end

end Handshake

end Bluefin
