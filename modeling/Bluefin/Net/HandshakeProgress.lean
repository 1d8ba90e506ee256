import Bluefin.Net.CheckedBuffers
import Bluefin.Net.HandshakePhases

/-!
# The random draws of a handshake

`connect` and `accept` draw their connection ids and first packet numbers from
all values of the type. Over a reliable network both calls return Ok, without an
overflow in a build that checks for it, exactly if the draws pass the checks of
the other side and leave room for the sums that are made of them. With a hello
that was queued the largest of these sums is three more than the client's number.
-/

namespace Bluefin
open Base

namespace Handshake

/-! ### Sums -/

/-- The delivery puts a packet into the slot whose sum overflows. -/
def BufferOverflows (hostType : BluefinHost) (d : ReaderTxChannel.Delivery)
    (buffers : ConnectionManagedBuffers) : Prop :=
  ∃ before p after, d.packets = before ++ p :: after ∧
    (d.isHello = true ∨ isClientAckPacket hostType p = true) ∧
    (before.foldl (fun buffers p => (ReaderTxChannel.bufferInData d.isHello hostType p d.addr
      buffers).2.1) buffers).connBuff.bufferInPacketIn true p = none

/-- A sum of the step does not fit into 64 bits. -/
def StepOverflows (P : Setup) (st : State) : Action → Prop
  | .connect => match st.connect with
    | .start => addIn true P.clientPacketNumber 2 = none
    | .inserted _ =>
      addIn true P.clientPacketNumber 1 = none ∨ addIn true P.clientPacketNumber 2 = none
    | _ => False
  | .accept => match st.accept with
    | .start => addIn true P.serverPacketNumber 1 = none
    | .awaitAck _ clientPacketNum =>
      ((st.server.host.buffers connRef).connBuff.pollHandshake callWaker).1.isSome = true ∧
        (addIn true clientPacketNum 1 = none ∨ addIn true P.serverPacketNumber 1 = none)
    | _ => False
  | .atClient (.buffer i) => match st.client.inHand[i]? with
    | some (d, some ref) => BufferOverflows .client d (st.client.host.buffers ref)
    | _ => False
  | .atServer (.buffer i) => match st.server.inHand[i]? with
    | some (d, some ref) => BufferOverflows .packLeader d (st.server.host.buffers ref)
    | _ => False
  | _ => False

/-! ### Steps that do nothing -/

/-- A call polls the slot and finds nothing. -/
def idle (st : State) : Action → Bool
  | .connect => match st.connect with
    | .waiting => ((st.client.host.buffers connRef).connBuff.pollHandshake callWaker).1.isNone
    | _ => false
  | .accept => match st.accept with
    | .waiting | .awaitAck _ _ =>
      ((st.server.host.buffers connRef).connBuff.pollHandshake callWaker).1.isNone
    | _ => false
  | _ => false

theorem poll_isNone {side : Side} {hostType : BluefinHost} {peer : SocketAddr} {v : View}
    (h : side.Is hostType peer v) (hslot : v.slot = none ∨ v.startSet = true) :
    ((side.host.buffers connRef).connBuff.pollHandshake callWaker).1.isNone =
      decide (v.slot = none) := by
  cases hv : v.slot with
  | none =>
    obtain ⟨b, hpoll, -⟩ := is_poll_none h hv
    rw [hpoll]
    rfl
  | some p =>
    rw [hv] at hslot
    obtain ⟨b, hpoll, -⟩ := is_poll_some h hv (hslot.resolve_left (by simp))
    rw [hpoll]
    rfl

theorem ClientPhase.slot_set (P : Setup) (c : ClientPhase) :
    (c.view P).slot = none ∨ (c.view P).startSet = true := by
  cases c <;> simp [ClientPhase.view]

theorem ServerPhase.slot_set (P : Setup) (s : ServerPhase) :
    (s.view P).slot = none ∨ (s.view P).startSet = true := by
  cases s <;> simp [ServerPhase.view]

section

variable {P : Setup} {x : Link} {ph : Phase} (h : At P x ph)

include h

theorem idle_connect {c' : ClientPhase} (hnext : ph.client.connect = some c') :
    idle x.st .connect = true ↔ c' = ph.client := by
  obtain ⟨c, s⟩ := ph
  have hpc := h.client.pc
  have hpoll := poll_isNone h.client.view (c.slot_set P)
  simp only at hpc hpoll hnext
  cases c <;> cases hnext <;> simp only [idle, hpc, hpoll, ClientPhase.pc, ClientPhase.view] <;>
    simp

theorem idle_accept {s' : ServerPhase} (hnext : ph.server.accept = some s') :
    idle x.st .accept = true ↔ s' = ph.server := by
  obtain ⟨c, s⟩ := ph
  have hpc := h.server.pc
  have hpoll := poll_isNone h.server.view (s.slot_set P)
  simp only at hpc hpoll hnext
  cases s <;> cases hnext <;> simp only [idle, hpc, hpoll, ServerPhase.pc, ServerPhase.view] <;>
    simp

end

/-! ### Progress -/

namespace ClientPhase

/-- The steps of the client that are still to come. -/
def left : ClientPhase → ℕ
  | start => 9
  | registered => 8
  | waiting => 7
  | inHand => 6
  | found => 5
  | slot => 4
  | gotHello => 3
  | removed => 2
  | inserted => 1
  | done => 0

theorem left_step {c c' : ClientPhase}
    (h : c.connect = some c' ∨ c.receive = some c' ∨ c.lookup = some c' ∨ c.buffer = some c') :
    c' = c ∨ c'.left + 1 ≤ c.left := by
  rcases h with h | h | h | h <;> cases c <;> cases h <;> simp [left]

theorem left_worker {c c' : ClientPhase}
    (h : c.receive = some c' ∨ c.lookup = some c' ∨ c.buffer = some c') : c' ≠ c := by
  rcases h with h | h | h <;> cases c <;> cases h <;> simp

end ClientPhase

namespace ServerPhase

/-- At most so many steps of the server are still to come. -/
def left : ServerPhase → ℕ
  | start => 13
  | startQueued => 9
  | registered => 12
  | registeredQueued => 8
  | waiting => 11
  | inHand => 10
  | found => 9
  | slot => 8
  | gotHello _ => 7
  | removed _ => 6
  | inserted _ => 5
  | awaitAck _ => 4
  | ackInHand _ => 3
  | ackFound _ => 2
  | ackSlot => 1
  | done => 0

theorem left_step {s s' : ServerPhase}
    (h : s.accept = some s' ∨ s.receive = some s' ∨ s.lookup = some s' ∨ s.buffer = some s') :
    s' = s ∨ s'.left + 1 ≤ s.left := by
  rcases h with h | h | h | h <;> cases s <;> cases h <;> simp [left]

theorem left_worker {s s' : ServerPhase}
    (h : s.receive = some s' ∨ s.lookup = some s' ∨ s.buffer = some s') : s' ≠ s := by
  rcases h with h | h | h <;> cases s <;> cases h <;> simp

end ServerPhase

def Phase.left (ph : Phase) : ℕ := ph.client.left + ph.server.left

inductive Phase.Nexts (ph : Phase) : Action → Phase → Prop
  | connect {c' : ClientPhase} (h : ph.client.connect = some c') :
      Phase.Nexts ph .connect { ph with client := c' }
  | accept {s' : ServerPhase} (h : ph.server.accept = some s') :
      Phase.Nexts ph .accept { ph with server := s' }
  | atClient {act : WorkerAction} {c' : ClientPhase} (h : ph.client.receive = some c' ∨
      ph.client.lookup = some c' ∨ ph.client.buffer = some c') :
      Phase.Nexts ph (.atClient act) { ph with client := c' }
  | atServer {act : WorkerAction} {s' : ServerPhase} (h : ph.server.receive = some s' ∨
      ph.server.lookup = some s' ∨ ph.server.buffer = some s') :
      Phase.Nexts ph (.atServer act) { ph with server := s' }

theorem Phase.nexts_of_next {P : Setup} {ph ph' : Phase} {act : Action}
    (h : ph.next P act = some ph') : ph.Nexts act ph' := by
  cases act with
  | connect =>
    obtain ⟨c', hc, rfl⟩ := Option.map_eq_some_iff.mp h
    exact .connect hc
  | accept =>
    obtain ⟨s', hs, rfl⟩ := Option.map_eq_some_iff.mp h
    exact .accept hs
  | connectTimeout => cases h
  | acceptTimeout => cases h
  | atClient act =>
    cases act <;>
    · simp only [Phase.next, Option.ite_none_right_eq_some, Option.map_eq_some_iff] at h
      obtain ⟨-, c', hc, rfl⟩ := h
      exact .atClient (by simp only [hc, true_or, or_true])
  | atServer act =>
    cases act <;>
    · simp only [Phase.next, Option.ite_none_right_eq_some, Option.map_eq_some_iff] at h
      obtain ⟨-, s', hs, rfl⟩ := h
      exact .atServer (by simp only [hs, true_or, or_true])

theorem idle_iff {P : Setup} {x : Link} {ph ph' : Phase} (h : At P x ph) {act : Action}
    (hnext : ph.next P act = some ph') : idle x.st act = true ↔ ph' = ph := by
  obtain ⟨c, s⟩ := ph
  cases Phase.nexts_of_next hnext with
  | connect hc =>
    rw [idle_connect h hc, Phase.mk.injEq]
    exact ⟨fun he => ⟨he, rfl⟩, fun he => he.1⟩
  | accept hs =>
    rw [idle_accept h hs, Phase.mk.injEq]
    exact ⟨fun he => ⟨rfl, he⟩, fun he => he.2⟩
  | atClient hc =>
    simp only [idle, Bool.false_eq_true, Phase.mk.injEq, false_iff]
    exact fun he => ClientPhase.left_worker hc he.1
  | atServer hs =>
    simp only [idle, Bool.false_eq_true, Phase.mk.injEq, false_iff]
    exact fun he => ServerPhase.left_worker hs he.2

theorem Phase.left_next {P : Setup} {ph ph' : Phase} {act : Action}
    (h : ph.next P act = some ph') : ph' = ph ∨ ph'.left + 1 ≤ ph.left := by
  obtain ⟨c, s⟩ := ph
  have hclient : ∀ c', c' = c ∨ c'.left + 1 ≤ c.left →
      (⟨c', s⟩ : Phase) = ⟨c, s⟩ ∨ (⟨c', s⟩ : Phase).left + 1 ≤ (⟨c, s⟩ : Phase).left := by
    rintro c' (rfl | hlt)
    · exact .inl rfl
    · right
      simp only [Phase.left]
      omega
  have hserver : ∀ s', s' = s ∨ s'.left + 1 ≤ s.left →
      (⟨c, s'⟩ : Phase) = ⟨c, s⟩ ∨ (⟨c, s'⟩ : Phase).left + 1 ≤ (⟨c, s⟩ : Phase).left := by
    rintro s' (rfl | hlt)
    · exact .inl rfl
    · right
      simp only [Phase.left]
      omega
  cases Phase.nexts_of_next h with
  | connect hc => exact hclient _ (ClientPhase.left_step (.inl hc))
  | accept hs => exact hserver _ (ServerPhase.left_step (.inl hs))
  | atClient hc => exact hclient _ (ClientPhase.left_step (.inr hc))
  | atServer hs => exact hserver _ (ServerPhase.left_step (.inr hs))

/-- Before the end there is a step that leads on. -/
theorem Phase.busy {P : Setup} {ph : Phase}
    (hle : ph.server.received ≤ (ph.client.sent P).length) (hph : ph ≠ ⟨.done, .done⟩) :
    ∃ act ph', ph.next P act = some ph' ∧ ph' ≠ ph := by
  obtain ⟨c, s⟩ := ph
  -- a step of the client, or the client waits for the server or is done
  have hclient : (∃ act ph', Phase.next P ⟨c, s⟩ act = some ph' ∧ ph' ≠ ⟨c, s⟩) ∨
      c = .waiting ∨ c = .done := by
    cases c with
    | waiting => exact .inr (.inl rfl)
    | done => exact .inr (.inr rfl)
    | inHand => exact .inl ⟨.atClient (.lookup 0), _, rfl, by simp⟩
    | found => exact .inl ⟨.atClient (.buffer 0), _, rfl, by simp⟩
    | _ => exact .inl ⟨.connect, _, rfl, by simp⟩
  rcases hclient with hstep | hc
  · exact hstep
  · cases s with
    | waiting =>
      refine ⟨.atServer (.receive (clientHello P).serialise), ⟨c, .inHand⟩, ?_, by simp⟩
      rcases hc with rfl | rfl <;>
        simp [Phase.next, ClientPhase.sent, ServerPhase.received, ServerPhase.receive]
    | awaitAck slotted =>
      rcases hc with rfl | rfl
      · refine ⟨.atClient (.receive (serverHello P).serialise), ⟨.inHand, .awaitAck slotted⟩, ?_,
          by simp⟩
        simp [Phase.next, ServerPhase.sent, ClientPhase.received, ClientPhase.receive]
      · refine ⟨.atServer (.receive (clientAck P).serialise), ⟨.done, .ackInHand slotted⟩, ?_,
          by simp⟩
        simp [Phase.next, ClientPhase.sent, ServerPhase.received, ServerPhase.receive]
    | done =>
      rcases hc with rfl | rfl
      · exact absurd hle (by simp [ServerPhase.received, ClientPhase.sent])
      · exact absurd rfl hph
    | inHand => exact ⟨.atServer (.lookup 0), _, rfl, by simp⟩
    | ackInHand slotted => exact ⟨.atServer (.lookup 0), _, rfl, by simp⟩
    | found => exact ⟨.atServer (.buffer 0), _, rfl, by simp⟩
    | ackFound slotted => exact ⟨.atServer (.buffer 0), _, rfl, by simp⟩
    | _ => exact ⟨.accept, _, rfl, by simp⟩

/-! ### Which draws succeed -/

/-- The packets of both sides pass the checks of the other. Over a reliable network
no sum overflows and no call fails, at most 22 steps are not idle, and when only
idle steps are left both calls have returned. -/
structure Succeeds (P : Setup) : Prop where
  hello : isHelloPacket .packLeader (clientHello P) = true ∧
    (clientHello P).header.packetNumber ≠ 0
  answer : isHelloPacket .client (serverHello P) = true ∧
    (serverHello P).header.packetNumber ≠ 0
  ack : isClientAckPacket .packLeader (clientAck P) = true ∧
    (clientAck P).header.packetNumber = (clientHello P).header.packetNumber + 1
  fits : ∀ (acts : List Action) (x : Link) (act : Action),
    acts.foldlM (linkStep P) .fresh = some x → ¬ StepOverflows P x.st act
  neverFails : ∀ (acts : List Action) (x : Link) (e : BluefinError),
    acts.foldlM (linkStep P) .fresh = some x → x.st.connect ≠ .failed e ∧ x.st.accept ≠ .failed e
  finite : ∀ acts : List Action,
    movesAlong (linkStep P) (fun x act => idle x.st act) .fresh acts ≤ 22
  returns : ∀ (acts : List Action) (x : Link), acts.foldlM (linkStep P) .fresh = some x →
    (∀ act, (linkStep P x act).isSome = true → idle x.st act = true) →
    x.st.connect = .done ⟨P.clientConnId, P.serverConnId, P.clientPacketNumber + 2⟩ ∧
      x.st.accept = .done ⟨P.serverConnId, P.clientConnId, P.serverPacketNumber + 1⟩

/-- The draws that leave room for the sums. After a hello that was queued, the first
packet in the server's slot is the ClientAck, and two more than its number are three
more than the client's. -/
structure Setup.LeavesRoom (P : Setup) : Prop where
  client : P.clientPacketNumber.toNat + 3 < 2 ^ 64
  server : P.serverPacketNumber.toNat + 1 < 2 ^ 64

theorem bufferOverflows_iff {hostType : BluefinHost} {d : ReaderTxChannel.Delivery}
    {p : BluefinPacket} (hp : d.packets = [p])
    (hkind : d.isHello = true ∨ isClientAckPacket hostType p = true)
    (buffers : ConnectionManagedBuffers) :
    BufferOverflows hostType d buffers ↔ buffers.connBuff.bufferInPacketIn true p = none := by
  constructor
  · rintro ⟨before, q, after, hpackets, -, hnone⟩
    rw [hp] at hpackets
    cases before with
    | nil =>
      obtain ⟨rfl, -⟩ := List.cons.inj hpackets
      exact hnone
    | cons b before => simp at hpackets
  · intro hnone
    exact ⟨[], p, [], hp, hkind, hnone⟩

theorem hand_fits {side : Side} {hostType : BluefinHost} {peer : SocketAddr} {v : View}
    (h : side.Is hostType peer v)
    (hsum : ∀ d ref, (d, some ref) ∈ v.hand → v.opened = true ∧ ref = connRef ∧
      ∃ p, d.packets = [p] ∧ (d.isHello = true ∨ isClientAckPacket hostType p = true) ∧
        p.header.packetNumber.toNat + ConnectionBuffer.startOffset hostType < 2 ^ 64)
    {i : ℕ} {d : ReaderTxChannel.Delivery} {ref : BufferRef}
    (hi : side.inHand[i]? = some (d, some ref)) :
    ¬ BufferOverflows hostType d (side.host.buffers ref) := by
  have hmem : (d, some ref) ∈ v.hand := by
    rw [← h.hand]
    exact List.mem_of_getElem? hi
  obtain ⟨hopened, rfl, p, hp, hkind, hlt⟩ := hsum d ref hmem
  rw [bufferOverflows_iff hp hkind,
    ConnectionBuffer.bufferInPacketIn_eq true _ _ (.inr (by rwa [h.host hopened]))]
  simp

section

variable {P : Setup} (hP : P.Accepted) (hroom : P.LeavesRoom)

include hroom

theorem addIn_client (k : UInt64) (hk : k.toNat ≤ 3) :
    addIn true P.clientPacketNumber k ≠ none := by
  have hlt := hroom.client
  rw [addIn_eq (.inr (by omega))]
  simp

theorem addIn_server : addIn true P.serverPacketNumber 1 ≠ none := by
  have hsum : P.serverPacketNumber.toNat + (1 : UInt64).toNat < 2 ^ 64 := hroom.server
  rw [addIn_eq (.inr hsum)]
  simp

theorem connect_fits {x : Link} {ph : Phase} (h : At P x ph) : ¬ StepOverflows P x.st .connect := by
  obtain ⟨c, s⟩ := ph
  have hpc := h.client.pc
  have hone := addIn_client hroom 1 (by decide)
  have htwo := addIn_client hroom 2 (by decide)
  simp only at hpc
  cases c <;> simp [StepOverflows, hpc, ClientPhase.pc, hone, htwo]

theorem accept_fits {x : Link} {ph : Phase} (h : At P x ph) : ¬ StepOverflows P x.st .accept := by
  obtain ⟨c, s⟩ := ph
  have hpc := h.server.pc
  have hclient := addIn_client hroom 1 (by decide)
  have hserver := addIn_server hroom
  simp only at hpc
  cases s <;> simp [StepOverflows, hpc, ServerPhase.pc, hclient, hserver]

theorem client_buffer_fits {x : Link} {ph : Phase} (h : At P x ph) (i : ℕ) :
    ¬ StepOverflows P x.st (.atClient (.buffer i)) := by
  obtain ⟨c, s⟩ := ph
  rcases hi : x.st.client.inHand[i]? with _ | ⟨d, _ | ref⟩ <;> simp only [StepOverflows, hi]
  · exact not_false
  · exact not_false
  · refine hand_fits h.client.view ?_ hi
    intro d ref hmem
    cases c <;> simp only [ClientPhase.view, List.not_mem_nil, List.mem_singleton, Prod.mk.injEq,
      reduceCtorEq, and_false, Option.some.injEq] at hmem
    obtain ⟨rfl, rfl⟩ := hmem
    exact ⟨rfl, rfl, serverHello P, rfl, .inl rfl, hroom.server⟩

include hP

theorem server_buffer_fits {x : Link} {ph : Phase} (h : At P x ph) (i : ℕ) :
    ¬ StepOverflows P x.st (.atServer (.buffer i)) := by
  obtain ⟨c, s⟩ := ph
  have hlt := hroom.client
  have hhello : P.clientPacketNumber.toNat + 2 < 2 ^ 64 := by omega
  have hack : (P.clientPacketNumber + 1).toNat + 2 < 2 ^ 64 := by
    have hone : (1 : UInt64).toNat = 1 := rfl
    rw [toNat_add_of_lt (by omega)]
    omega
  rcases hi : x.st.server.inHand[i]? with _ | ⟨d, _ | ref⟩ <;> simp only [StepOverflows, hi]
  · exact not_false
  · exact not_false
  · refine hand_fits h.server.view ?_ hi
    intro d ref hmem
    cases s <;> simp only [ServerPhase.view, List.not_mem_nil, List.mem_singleton, Prod.mk.injEq,
      reduceCtorEq, and_false, Option.some.injEq] at hmem
    case found =>
      obtain ⟨rfl, rfl⟩ := hmem
      exact ⟨rfl, rfl, clientHello P, rfl, .inl rfl, hhello⟩
    case ackFound slotted =>
      obtain ⟨rfl, rfl⟩ := hmem
      exact ⟨rfl, rfl, clientAck P, rfl, .inr (clientAck_isClientAck hP), hack⟩

theorem step_fits {x : Link} {ph : Phase} (h : At P x ph) (act : Action) :
    ¬ StepOverflows P x.st act := by
  cases act with
  | connect => exact connect_fits hroom h
  | accept => exact accept_fits hroom h
  | connectTimeout => exact id
  | acceptTimeout => exact id
  | atClient act =>
    cases act with
    | buffer i => exact client_buffer_fits hroom h i
    | _ => exact id
  | atServer act =>
    cases act with
    | buffer i => exact server_buffer_fits hP hroom h i
    | _ => exact id

end

section

variable {P : Setup}

theorem At.not_failed {x : Link} {ph : Phase} (h : At P x ph) (e : BluefinError) :
    x.st.connect ≠ .failed e ∧ x.st.accept ≠ .failed e := by
  obtain ⟨c, s⟩ := ph
  constructor
  · rw [h.client.pc]
    cases c <;> simp [ClientPhase.pc]
  · rw [h.server.pc]
    cases s <;> simp [ServerPhase.pc]

variable (hP : P.Accepted)

include hP

theorem moves_le (acts : List Action) :
    movesAlong (linkStep P) (fun x act => idle x.st act) .fresh acts ≤ 22 := by
  have hrank : ∀ x ph act ph', At P x ph → Phase.next P ph act = some ph' →
      (if idle x.st act then 0 else 1) + ph'.left ≤ ph.left := by
    intro x ph act ph' hat hnext
    by_cases hidle : idle x.st act = true
    · rw [if_pos hidle, (idle_iff hat hnext).mp hidle]
      omega
    · have hleft := (Phase.left_next hnext).resolve_left
        fun he => hidle ((idle_iff hat hnext).mpr he)
      rw [if_neg hidle]
      omega
  exact (phases_match hP).movesAlong_le hrank (at_fresh P) acts

theorem At.ended {x : Link} {ph : Phase} (h : At P x ph)
    (hidle : ∀ act, (linkStep P x act).isSome = true → idle x.st act = true) :
    ph = ⟨.done, .done⟩ := by
  by_contra hph
  obtain ⟨act, ph', hnext, hne⟩ := Phase.busy h.server_le hph
  have hrel := phases_match hP x ph act h
  rw [hnext] at hrel
  generalize hstep : linkStep P x act = next at hrel
  cases hrel with
  | some hat =>
    have hact := hidle act (by rw [hstep]; rfl)
    exact hne ((idle_iff h hnext).mp hact)

theorem succeeds_of_room (hroom : P.LeavesRoom) : Succeeds P where
  hello := ⟨clientHello_isHello hP, hP.clientPacketNumber⟩
  answer := ⟨serverHello_isHello hP, hP.serverPacketNumber⟩
  ack := ⟨clientAck_isClientAck hP, rfl⟩
  fits acts x act hrun := by
    obtain ⟨ph, -, hat⟩ := (phases_match hP).run_left (at_fresh P) hrun
    exact step_fits hP hroom hat act
  neverFails acts x e hrun := by
    obtain ⟨ph, -, hat⟩ := (phases_match hP).run_left (at_fresh P) hrun
    exact hat.not_failed e
  finite acts := moves_le hP acts
  returns acts x hrun hidle := by
    obtain ⟨ph, -, hat⟩ := (phases_match hP).run_left (at_fresh P) hrun
    obtain rfl := hat.ended hP hidle
    exact ⟨hat.client.pc, hat.server.pc⟩


/-- The hello arrives before `accept` is called, so that the ClientAck is the first packet in the
server's slot. -/
def queuedRun (P : Setup) : List Action :=
  [.connect, .connect, .atServer (.receive (clientHello P).serialise),
    .accept, .accept, .accept, .accept, .accept,
    .atClient (.receive (serverHello P).serialise), .atClient (.lookup 0), .atClient (.buffer 0),
    .connect, .connect, .connect, .connect,
    .atServer (.receive (clientAck P).serialise), .atServer (.lookup 0)]

omit hP in
theorem queuedRun_phases :
    (queuedRun P).foldlM (Phase.next P) ⟨.start, .start⟩ = some ⟨.done, .ackFound false⟩ := by
  have hhello : Phase.next P ⟨.waiting, .start⟩ (.atServer (.receive (clientHello P).serialise)) =
      some ⟨.waiting, .startQueued⟩ := if_pos rfl
  have hanswer : Phase.next P ⟨.waiting, .awaitAck false⟩
      (.atClient (.receive (serverHello P).serialise)) = some ⟨.inHand, .awaitAck false⟩ :=
    if_pos rfl
  have hack : Phase.next P ⟨.done, .awaitAck false⟩ (.atServer (.receive (clientAck P).serialise)) =
      some ⟨.done, .ackInHand false⟩ := if_pos rfl
  -- every step between the three datagrams is one of the tables
  refine foldlM_step rfl <| foldlM_step rfl <| foldlM_step hhello ?_
  refine foldlM_step rfl <| foldlM_step rfl <| foldlM_step rfl <| foldlM_step rfl <|
    foldlM_step rfl <| foldlM_step hanswer ?_
  refine foldlM_step rfl <| foldlM_step rfl <| foldlM_step rfl <| foldlM_step rfl <|
    foldlM_step rfl <| foldlM_step rfl <| foldlM_step hack ?_
  exact foldlM_step rfl rfl

theorem queuedRun_overflows (hnum : 2 ^ 64 ≤ (P.clientPacketNumber + 1).toNat + 2) :
    ∃ x, (queuedRun P).foldlM (linkStep P) .fresh = some x ∧
      StepOverflows P x.st (.atServer (.buffer 0)) := by
  obtain ⟨x, hrun, hat⟩ := (phases_match hP).run_right (at_fresh P) queuedRun_phases
  refine ⟨x, hrun, ?_⟩
  have hview := hat.server.view
  have hhand : x.st.server.inHand = [(ServerPhase.ackDelivery P, some connRef)] := hview.hand
  have hhost := hview.host rfl
  simp only [StepOverflows, hhand, List.getElem?_cons_zero]
  rw [bufferOverflows_iff rfl (.inr (clientAck_isClientAck hP))]
  apply ConnectionBuffer.bufferInPacketIn_overflow hview.slot hview.startSet
  rw [hhost]
  exact hnum

omit hP in
theorem accepted_of_succeeds (h : Succeeds P) : P.Accepted := by
  have hclient := h.hello.1
  have hserver := h.answer.1
  simp only [isHelloPacket, clientHello, serverHello, buildEmptyEncryptedPacket, BluefinHeader.new,
    BluefinHeader.withPacketNumber] at hclient hserver
  exact ⟨by simpa using hclient, by simp_all, h.hello.2, h.answer.2⟩

theorem room_of_succeeds (h : Succeeds P) : P.LeavesRoom where
  server := by
    by_contra hnum
    have hover : addIn true P.serverPacketNumber 1 = none := addIn_overflow (Nat.not_lt.mp hnum)
    exact h.fits [] .fresh .accept rfl hover
  client := by
    by_contra hnum
    by_cases htwo : P.clientPacketNumber.toNat + 2 < 2 ^ 64
    · have hone : (P.clientPacketNumber + 1).toNat = P.clientPacketNumber.toNat + 1 :=
        toNat_add_of_lt (Nat.lt_trans (Nat.lt_succ_self _) htwo)
      obtain ⟨x, hrun, hover⟩ := queuedRun_overflows hP (by omega)
      exact h.fits _ x _ hrun hover
    · have hover : addIn true P.clientPacketNumber 2 = none := addIn_overflow (Nat.not_lt.mp htwo)
      exact h.fits [] .fresh .connect rfl hover

end

/-- The handshake succeeds exactly for the draws that the other side accepts and that
leave room for the sums. -/
theorem handshake_succeeds_iff (P : Setup) : Succeeds P ↔ P.Accepted ∧ P.LeavesRoom := by
  constructor
  · intro h
    have hP := accepted_of_succeeds h
    exact ⟨hP, room_of_succeeds hP h⟩
  · rintro ⟨hP, hroom⟩
    exact succeeds_of_room hP hroom

def ConnectPc.error : ConnectPc → Option BluefinError
  | .failed e => some e
  | _ => none

theorem ConnectPc.error_eq {pc : ConnectPc} {e : BluefinError} (h : pc.error = some e) :
    pc = .failed e := by
  cases pc <;> cases h
  rfl

/-- The server draws 0 for its packet number. -/
def zeroDraw : Setup := ⟨1, 2, 10, 0, 100, 200⟩

theorem zeroDraw_error :
    (((queuedRun zeroDraw).take 13).foldlM (linkStep zeroDraw) .fresh).bind
      (fun x => x.st.connect.error) = some .unexpectedPacketNumberError := by
  decide +kernel

/-- Every datagram is delivered once and in order, and `connect()` returns an error. -/
theorem zero_draw_fails :
    ¬ Succeeds zeroDraw ∧
      ∃ x, ((queuedRun zeroDraw).take 13).foldlM (linkStep zeroDraw) .fresh = some x ∧
        x.st.connect = .failed .unexpectedPacketNumberError := by
  obtain ⟨x, hrun, herror⟩ := Option.bind_eq_some_iff.mp zeroDraw_error
  have hfailed := ConnectPc.error_eq herror
  exact ⟨fun h => (h.neverFails _ x _ hrun).1 hfailed, x, hrun, hfailed⟩

end Handshake
end Bluefin
