import Bluefin.Net.Listener
import Bluefin.Worker.FinNumber

/-!
# Many clients and one server (net/client.rs, net/server.rs)

Any number of clients, each with one `connect()`, and one server with any number of
`accept()` calls. The network can lose, repeat and reorder datagrams, and can bring one
to any host and from any address. Every call can end early where it awaits, and a
connection can be closed. Whatever the order, an `accept()` that returns names a client
whose `connect()` has returned a connection to that very call, no two of them name the
same client, and what a client sends on its connection is only ever put into the
buffers of the call that it is connected to.
-/

namespace Bluefin
open Base

namespace Crowd
open Handshake (AcceptPc ConnectPc Side WorkerAction)
open ReaderTxChannel (Delivery)

/-- A client with its one call and every datagram that it has sent. -/
structure Client where
  side : Side
  connect : ConnectPc
  sent : List Bytes

structure State (m n : ℕ) where
  server : Side
  accepts : Fin m → AcceptPc
  -- every datagram that the server has sent, to whichever client
  out : List Bytes
  clients : Fin n → Client

def init (m n : ℕ) : State m n where
  server := ⟨.new, []⟩
  accepts := fun _ => .start
  out := []
  clients := fun _ => ⟨⟨.new, []⟩, .start, []⟩

inductive Action (m n : ℕ) where
  | accept (i : Fin m)
  | acceptEnds (i : Fin m) (e : BluefinError)
  | connect (k : Fin n)
  | connectEnds (k : Fin n) (e : BluefinError)
  | serverSends (i : Fin m) (datagram : Bytes)
  | clientSends (k : Fin n) (datagram : Bytes)
  | serverCloses (i : Fin m)
  | clientCloses (k : Fin n)
  | atServer (k : Fin n) (addr : SocketAddr) (act : WorkerAction)
  | atClient (k : Fin n) (addr : SocketAddr) (act : WorkerAction)

/-! ### The steps -/

section

variable {m n : ℕ} (P : Setup m n)

def acceptSends (i : Fin m) (pc : AcceptPc) : List Bytes :=
  (Handshake.acceptSends (P.serverConnId i) (P.serverPacketNumber i) pc).map Prod.snd

def connectSends (k : Fin n) : ConnectPc → List Bytes :=
  Handshake.connectSends (P.clientConnId k) (P.clientPacketNumber k)

def acceptConn : AcceptPc → Option BluefinConnection
  | .done conn => some conn
  | _ => none

def connectConn : ConnectPc → Option BluefinConnection
  | .done conn => some conn
  | _ => none

/-- Whether a datagram is one that the writer of a connection can send. -/
def carries (conn : BluefinConnection) (datagram : Bytes) : Bool :=
  (BluefinPacket.fromBytesInto datagram []).2.all (isTrafficPacket conn.srcConnId conn.dstConnId)

/-- connection.rs:546-550. -/
def deregister (side : Side) (conn : BluefinConnection) : Side :=
  { side with host := (side.host.remove (conn.srcConnId, conn.dstConnId)).2 }

def State.setClient (st : State m n) (k : Fin n) (c : Client) : State m n :=
  { st with clients := Function.update st.clients k c }

def step (st : State m n) : Action m n → Option (State m n)
  | .accept i =>
    (Handshake.acceptCall i.val (P.serverConnId i) (P.serverPacketNumber i) st.server.host
      (st.accepts i)).map fun (host, pc) => { st with
        server := { st.server with host := host }
        accepts := Function.update st.accepts i pc
        out := st.out ++ acceptSends P i (st.accepts i) }
  | .acceptEnds i e =>
    if (Attempt.accept i.val (P.serverConnId i) (P.serverPacketNumber i)).awaits (st.accepts i) then
      some { st with accepts := Function.update st.accepts i (.failed e) }
    else none
  | .connect k =>
    let c := st.clients k
    (Handshake.connectCall Handshake.connRef (P.clientConnId k) (P.clientPacketNumber k) c.side.host
      c.connect).map fun (host, pc) => st.setClient k {
        side := { c.side with host := host }
        connect := pc
        sent := c.sent ++ connectSends P k c.connect }
  | .connectEnds k e =>
    let c := st.clients k
    if (Attempt.connect Handshake.connRef (P.clientConnId k) (P.clientPacketNumber k)).awaits
        c.connect then
      some (st.setClient k { c with connect := .failed e })
    else none
  | .serverSends i datagram => match acceptConn (st.accepts i) with
    | some conn =>
      if carries conn datagram then some { st with out := st.out ++ [datagram] } else none
    | none => none
  | .clientSends k datagram =>
    let c := st.clients k
    match connectConn c.connect with
    | some conn =>
      if carries conn datagram then some (st.setClient k { c with sent := c.sent ++ [datagram] })
      else none
    | none => none
  | .serverCloses i => (acceptConn (st.accepts i)).map fun conn =>
      { st with server := deregister st.server conn }
  | .clientCloses k =>
    let c := st.clients k
    (connectConn c.connect).map fun conn => st.setClient k { c with side := deregister c.side conn }
  | .atServer k addr act =>
    (Handshake.workerStep .packLeader (st.clients k).sent addr st.server act).map fun side =>
      { st with server := side }
  | .atClient k addr act =>
    let c := st.clients k
    (Handshake.workerStep .client st.out addr c.side act).map fun side =>
      st.setClient k { c with side := side }

def Step (st : State m n) (act : Action m n) (st' : State m n) : Prop := step P st act = some st'

end

section

variable {m n : ℕ} {P : Setup m n}

/-- The id that a client sends to, once it has sent its ClientAck. -/
def connectedTo : ConnectPc → Option UInt32
  | .done conn => some conn.dstConnId
  | _ => none

def State.connected (st : State m n) (k : Fin n) : Option UInt32 :=
  connectedTo (st.clients k).connect

/-- The call has sent its ServerHello to the client with this id. -/
def Answered (P : Setup m n) (out : List Bytes) (i : Fin m) (id : UInt32) : Prop :=
  (P.serverHello i id).serialise ∈ out

/-! ### What a client can hold -/

section

variable (P) (answered : Fin m → UInt32 → Prop)

/-- A ServerHello that some call has sent to the client with this id. -/
def HelloFor (id : UInt32) (p : BluefinPacket) : Prop :=
  ∃ i, p = P.serverHello i id ∧ answered i id

def FromServer (packets : List BluefinPacket) : Prop :=
  (∃ id p, packets = [p] ∧ HelloFor P answered id p) ∨
    ∀ p ∈ packets, isHelloPacket .client p = false

def ConnectPcOk (k : Fin n) : ConnectPc → Prop
  | .gotHello p => HelloFor P answered (P.clientConnId k) p
  | .removed dst => ∃ i, dst = P.serverConnId i ∧ answered i (P.clientConnId k)
  | .inserted dst => ∃ i, dst = P.serverConnId i ∧ answered i (P.clientConnId k)
  | .done conn => ∃ i, conn = ⟨P.clientConnId k, P.serverConnId i, P.clientPacketNumber k + 2⟩ ∧
      answered i (P.clientConnId k)
  | _ => True

/-- A client only has its own entry in its connection manager, and every ServerHello that
gets into its buffer was sent to it. -/
structure ClientInv (k : Fin n) (side : Side) (pc : ConnectPc) : Prop where
  entries : ∀ key ref, side.host.connManager key = some ref →
    ref = Handshake.connRef ∧ key.1 = P.clientConnId k
  found : ∀ d ref, (d, some ref) ∈ side.inHand →
    ref = Handshake.connRef ∧ d.key.1 = P.clientConnId k
  hand : ∀ x ∈ side.inHand, x.1.isHello = true →
    ∃ p, x.1.packets = [p] ∧ HelloFor P answered x.1.key.1 p
  slots : ∀ p, slot side.host Handshake.connRef = some p →
    HelloFor P answered (P.clientConnId k) p
  pc_ok : ConnectPcOk P answered k pc

end

section

variable {answered answered' : Fin m → UInt32 → Prop}

theorem HelloFor.mono (h : ∀ i id, answered i id → answered' i id) {id : UInt32}
    {p : BluefinPacket} (hp : HelloFor P answered id p) : HelloFor P answered' id p := by
  obtain ⟨i, rfl, ha⟩ := hp
  exact ⟨i, rfl, h i id ha⟩

theorem FromServer.mono (h : ∀ i id, answered i id → answered' i id) {packets : List BluefinPacket}
    (hp : FromServer P answered packets) : FromServer P answered' packets := by
  refine hp.imp_left ?_
  rintro ⟨id, p, rfl, hfor⟩
  exact ⟨id, p, rfl, hfor.mono h⟩

theorem ConnectPcOk.mono (h : ∀ i id, answered i id → answered' i id) {k : Fin n} {pc : ConnectPc}
    (hp : ConnectPcOk P answered k pc) : ConnectPcOk P answered' k pc := by
  cases pc with
  | gotHello => exact HelloFor.mono h hp
  | removed | inserted | done =>
    obtain ⟨i, heq, ha⟩ := hp
    exact ⟨i, heq, h _ _ ha⟩
  | _ => trivial

theorem ClientInv.mono (h : ∀ i id, answered i id → answered' i id) {k : Fin n} {side : Side}
    {pc : ConnectPc} (hc : ClientInv P answered k side pc) : ClientInv P answered' k side pc where
  entries := hc.entries
  found := hc.found
  hand := by
    intro x hx hhello
    obtain ⟨p, hp, hfor⟩ := hc.hand x hx hhello
    exact ⟨p, hp, hfor.mono h⟩
  slots := fun p hp => (hc.slots p hp).mono h
  pc_ok := hc.pc_ok.mono h

/-! ### A step of a client keeps it -/

variable {k : Fin n} {side : Side} {pc : ConnectPc}

theorem clientInv_init (P : Setup m n) (answered : Fin m → UInt32 → Prop) (k : Fin n) :
    ClientInv P answered k ⟨.new, []⟩ .start where
  entries := fun _ _ h => by cases h
  found := fun _ _ h => by cases h
  hand := fun _ h => by cases h
  slots := fun _ h => by cases h
  pc_ok := trivial

theorem ClientInv.update (h : ClientInv P answered k side pc) {host' : Host} {pc' : ConnectPc}
    (hentries : ∀ key ref, host'.connManager key = some ref →
      side.host.connManager key = some ref ∨ key.1 = P.clientConnId k ∧ ref = Handshake.connRef)
    (hslot : slot host' Handshake.connRef = none ∨
      slot host' Handshake.connRef = slot side.host Handshake.connRef)
    (hpc : ConnectPcOk P answered k pc') :
    ClientInv P answered k { side with host := host' } pc' where
  entries := by
    intro key ref hkey
    rcases hentries key ref hkey with hold | ⟨hid, href⟩
    · exact h.entries key ref hold
    · exact ⟨href, hid⟩
  found := h.found
  hand := h.hand
  slots := by
    intro p hp
    rcases hslot with hnone | hsame
    · exact absurd (hnone.symm.trans hp) (by simp)
    · exact h.slots p (hsame.symm.trans hp)
  pc_ok := hpc

theorem ClientInv.call (h : ClientInv P answered k side pc) {host' : Host} {pc' : ConnectPc}
    (hcall : Handshake.connectCall Handshake.connRef (P.clientConnId k) (P.clientPacketNumber k)
      side.host pc = some (host', pc')) :
    ClientInv P answered k { side with host := host' } pc' := by
  have hsame : ∀ pc', ConnectPcOk P answered k pc' → ClientInv P answered k side pc' :=
    fun pc' hpc' => h.update (fun _ _ hkey => .inl hkey) (.inr rfl) hpc'
  have hremoved : ∀ pc', ConnectPcOk P answered k pc' → ClientInv P answered k { side with
      host := (side.host.remove (P.clientConnId k, 0)).2 } pc' := fun pc' hpc' =>
    h.update (fun _ _ hkey => .inl (remove_entries _ _ hkey).1) (.inr rfl) hpc'
  have hinserted : ∀ dst pc', ConnectPcOk P answered k pc' → ClientInv P answered k { side with
      host := (side.host.insert (P.clientConnId k, dst) Handshake.connRef).2 } pc' :=
    fun dst pc' hpc' => h.update (fun _ _ hkey => insert_entries _ _ _ _ hkey) (.inr rfl) hpc'
  cases Handshake.connectCall_moves hcall with
  | opens hins hnext =>
    obtain rfl := congrArg Prod.snd hins
    refine h.update (fun key ref hkey => insert_entries _ _ _ _ hkey) (.inl ?_) ?_
    · simp [slot, Host.insert, Host.store, Handshake.newBuffers, ConnectionBuffer.new]
    · rcases hnext with rfl | ⟨e, rfl⟩
      · trivial
      · trivial
  | greets => exact hsame _ trivial
  | pends hpoll =>
    refine h.update (fun _ _ hkey => .inl hkey) (.inl ?_) trivial
    rw [slot_setConnBuff, (Handshake.poll_none hpoll).2.1]
  | reads hpoll =>
    obtain ⟨hslot, -, hb, -⟩ := Handshake.poll_some hpoll
    refine h.update (fun _ _ hkey => .inl hkey) (.inl ?_) (h.slots _ hslot)
    rw [slot_setConnBuff, hb]
  | unnumbered => exact hsame _ trivial
  | unlisted hrem =>
    obtain rfl := congrArg Prod.snd hrem
    exact hremoved _ trivial
  | removes hrem =>
    obtain rfl := congrArg Prod.snd hrem
    obtain ⟨i, rfl, ha⟩ := h.pc_ok
    exact hremoved _ ⟨i, rfl, ha⟩
  | collides hins =>
    obtain rfl := congrArg Prod.snd hins
    exact hinserted _ _ trivial
  | inserts hins =>
    obtain rfl := congrArg Prod.snd hins
    exact hinserted _ _ h.pc_ok
  | acks =>
    obtain ⟨i, rfl, ha⟩ := h.pc_ok
    exact hsame _ ⟨i, rfl, ha⟩

theorem ClientInv.remove (h : ClientInv P answered k side pc) (key : ConnKey) :
    ClientInv P answered k { side with host := (side.host.remove key).2 } pc where
  entries := fun key' ref hkey => h.entries key' ref (remove_entries _ _ hkey).1
  found := h.found
  hand := h.hand
  slots := h.slots
  pc_ok := h.pc_ok

theorem ClientInv.fail (h : ClientInv P answered k side pc) (e : BluefinError) :
    ClientInv P answered k side (.failed e) :=
  h.update (fun _ _ hkey => .inl hkey) (.inr rfl) trivial

theorem receive_client {datagram : Bytes} {addr : SocketAddr} {state state' : HelloState}
    {d : Delivery}
    (hout : ∀ c packets, BluefinPacket.fromBytesInto datagram [] = (.ok c, packets) →
      FromServer P answered packets)
    (h : ReaderTxChannel.receive .client state datagram addr = .goOn (state', some d))
    (hhello : d.isHello = true) : ∃ p, d.packets = [p] ∧ HelloFor P answered d.key.1 p := by
  unfold ReaderTxChannel.receive at h
  rcases hparse : BluefinPacket.fromBytesInto datagram [] with ⟨res, packets⟩
  rw [hparse] at h
  cases res with
  | panicked f => cases h
  | err e => cases h
  | ok c =>
    have hfrom := hout c packets hparse
    cases packets with
    | nil => cases h
    | cons first rest =>
      simp only [ReaderTxChannel.classify] at h
      by_cases hrest : rest = []
      · subst hrest
        rw [if_pos rfl] at h
        cases his : isHelloPacket .client first with
        | false =>
          simp only [ReaderTxChannel.handleHelloSingle, his, Bool.false_eq_true, if_false] at h
          cases h
          cases hhello
        | true =>
          simp only [ReaderTxChannel.handleHelloSingle, his, if_true] at h
          cases h
          rcases hfrom with ⟨id, p, hp, i, rfl, ha⟩ | hplain
          · cases hp
            exact ⟨_, rfl, i, rfl, ha⟩
          · rw [hplain first (List.mem_cons_self ..)] at his
            cases his
      · rw [if_neg hrest] at h
        cases h
        cases hhello

theorem isClientAckPacket_client (p : BluefinPacket) : isClientAckPacket .client p = false := by
  simp [isClientAckPacket]

theorem ClientInv.buffer (h : ClientInv P answered k side pc) {i : ℕ} {d : Delivery}
    {ref : BufferRef} (hd : side.inHand[i]? = some (d, some ref)) :
    ClientInv P answered k ⟨ReaderTxChannel.buffer .client side.host d ref,
      side.inHand.eraseIdx i⟩ pc where
  entries := h.entries
  found := fun d' ref' hd' => h.found d' ref' (List.mem_of_mem_eraseIdx hd')
  hand := fun x hx => h.hand x (List.mem_of_mem_eraseIdx hx)
  slots := by
    intro q hq
    have hmem : (d, some ref) ∈ side.inHand := List.mem_of_getElem? hd
    obtain ⟨rfl, hkey⟩ := h.found d ref hmem
    rw [buffer_slot_self] at hq
    cases hhello : d.isHello with
    | false =>
      rw [hhello, buffer_plain d.addr fun p _ => isClientAckPacket_client p] at hq
      exact h.slots q hq
    | true =>
      obtain ⟨p, hp, hfor⟩ := h.hand _ hmem hhello
      dsimp only at hp hfor
      rw [hp, List.foldl_cons, List.foldl_nil] at hq
      rcases bufferInData_packet d.isHello .client p d.addr (side.host.buffers Handshake.connRef)
        with hsame | ⟨-, hset⟩
      · exact h.slots q (hsame.symm.trans hq)
      · rw [hset] at hq
        cases hq
        rwa [hkey] at hfor
  pc_ok := h.pc_ok

theorem ClientInv.worker {out : List Bytes} {addr : SocketAddr} {act : WorkerAction} {side' : Side}
    (h : ClientInv P answered k side pc)
    (hout : ∀ datagram ∈ out, ∀ c packets,
      BluefinPacket.fromBytesInto datagram [] = (.ok c, packets) → FromServer P answered packets)
    (hstep : Handshake.workerStep .client out addr side act = some side') :
    ClientInv P answered k side' pc := by
  cases act with
  | receive datagram =>
    simp only [Handshake.workerStep] at hstep
    split at hstep
    · rename_i hmem
      split at hstep <;> cases hstep
      · exact ⟨h.entries, h.found, h.hand, h.slots, h.pc_ok⟩
      · rename_i state d hrecv
        refine ⟨h.entries, fun d' ref hd' => ?_, fun x hx hhello => ?_, h.slots, h.pc_ok⟩
        · rcases List.mem_append.mp hd' with hd' | hd'
          · exact h.found d' ref hd'
          · cases List.mem_singleton.mp hd'
        · rcases List.mem_append.mp hx with hx | hx
          · exact h.hand x hx hhello
          · cases List.mem_singleton.mp hx
            exact receive_client (hout datagram hmem) hrecv hhello
    · cases hstep
  | lookup i =>
    simp only [Handshake.workerStep] at hstep
    split at hstep
    · rename_i d hd
      split at hstep <;> cases hstep
      · exact ⟨h.entries, fun d' ref' hd' => h.found d' ref' (List.mem_of_mem_eraseIdx hd'),
          fun x hx => h.hand x (List.mem_of_mem_eraseIdx hx), h.slots, h.pc_ok⟩
      · rename_i ref hentry
        refine ⟨h.entries, fun d' ref' hd' => ?_, fun x hx hhello => ?_, h.slots, h.pc_ok⟩
        · rcases List.mem_or_eq_of_mem_set hd' with hd' | heq
          · exact h.found d' ref' hd'
          · cases heq
            exact h.entries _ _ hentry
        · rcases List.mem_or_eq_of_mem_set hx with hx | rfl
          · exact h.hand x hx hhello
          · exact h.hand (d, none) (List.mem_of_getElem? hd) hhello
    · cases hstep
  | buffer i =>
    simp only [Handshake.workerStep] at hstep
    split at hstep
    · rename_i d ref hd
      cases hstep
      exact h.buffer hd
    · cases hstep

end

/-! ### Every run -/

/-- What the packets of every datagram that parses are. -/
def Parses (R : List BluefinPacket → Prop) (datagram : Bytes) : Prop :=
  ∀ c packets, BluefinPacket.fromBytesInto datagram [] = (.ok c, packets) → R packets

theorem parses_serialise {R : List BluefinPacket → Prop} {p : BluefinPacket} (hp : p.Encodable)
    (h : R [p]) : Parses R p.serialise := by
  intro c packets hparse
  have hone : p.serialise = BluefinPacket.serialiseAll [p] := by simp
  rw [hone, BluefinPacket.fromBytesInto_serialiseAll [p] (by simp) (by simpa using hp)] at hparse
  cases hparse
  exact h

theorem parses_carries {conn : BluefinConnection} {datagram : Bytes}
    (h : carries conn datagram = true) :
    Parses (fun packets => ∀ p ∈ packets, isTrafficPacket conn.srcConnId conn.dstConnId p = true)
      datagram := by
  intro c packets hparse
  rw [carries, hparse] at h
  exact List.all_eq_true.mp h

theorem serverHello_serialise {i j : Fin m} {id id' : UInt32}
    (h : (P.serverHello i id).serialise = (P.serverHello j id').serialise) : i = j ∧ id = id' := by
  have hencodable : ∀ (j : Fin m) id, (P.serverHello j id).Encodable := fun j id =>
    Handshake.handshakePacket_encodable _ _ _ (by simp)
  have hparse := parses_serialise (R := fun packets => packets = [P.serverHello i id])
    (hencodable i id) rfl
  rw [h] at hparse
  have hback := BluefinPacket.fromBytesInto_serialiseAll [P.serverHello j id'] (by simp)
    (by simpa using hencodable j id')
  rw [BluefinPacket.serialiseAll_cons, BluefinPacket.serialiseAll_nil, List.append_nil] at hback
  have hsame := hparse _ _ hback
  simp only [List.cons.injEq, and_true] at hsame
  have hheader := congrArg BluefinPacket.header hsame
  have hsrc := congrArg BluefinHeader.sourceConnectionId hheader
  have hdst := congrArg BluefinHeader.destinationConnectionId hheader
  exact ⟨(P.server_injective hsrc).symm, hdst.symm⟩

theorem carries_serverHello (conn : BluefinConnection) (i : Fin m) (id : UInt32) :
    carries conn (P.serverHello i id).serialise = false := by
  cases hc : carries conn (P.serverHello i id).serialise with
  | false => rfl
  | true =>
    have hencodable : (P.serverHello i id).Encodable :=
      Handshake.handshakePacket_encodable _ _ _ (by simp)
    have hback := BluefinPacket.fromBytesInto_serialiseAll [P.serverHello i id] (by simp)
      (by simpa using hencodable)
    rw [BluefinPacket.serialiseAll_cons, BluefinPacket.serialiseAll_nil, List.append_nil] at hback
    have htraffic := parses_carries hc _ _ hback _ (List.mem_singleton_self _)
    obtain ⟨-, -, -, htype, -⟩ := isTrafficPacket_iff.mp htraffic
    exact absurd rfl htype

theorem traffic_isHello_client {src dst : UInt32} {p : BluefinPacket}
    (h : isTrafficPacket src dst p = true) : isHelloPacket .client p = false := by
  obtain ⟨-, -, -, htype, -⟩ := isTrafficPacket_iff.mp h
  simp [isHelloPacket, htype]

theorem mem_datagrams {srcConnId dstConnId : UInt32} {n : UInt64} {css : List (List Bytes)}
    {datagram : Bytes} (h : datagram ∈ Writer.datagrams srcConnId dstConnId n css) :
    ∃ num, ∃ cs ∈ css, datagram =
      BluefinPacket.serialiseAll (WriterHandler.dataPackets srcConnId dstConnId num cs) := by
  induction css generalizing n with
  | nil => cases h
  | cons cs css ih =>
    rcases List.mem_cons.mp h with rfl | h
    · exact ⟨n, cs, List.mem_cons_self .., rfl⟩
    · obtain ⟨num, cs', hcs', rfl⟩ := ih h
      exact ⟨num, cs', List.mem_cons_of_mem _ hcs', rfl⟩

theorem dataPackets_traffic (srcConnId dstConnId : UInt32) (n : UInt64) (cs : List Bytes) :
    ∀ p ∈ WriterHandler.dataPackets srcConnId dstConnId n cs,
      isTrafficPacket srcConnId dstConnId p = true := by
  induction cs generalizing n with
  | nil => exact fun p hp => by cases hp
  | cons c cs ih =>
    intro p hp
    rcases List.mem_cons.mp hp with rfl | hp
    · simp [isTrafficPacket, WriterHandler.dataPacket, BluefinHeader.new,
        BluefinHeader.withPacketNumber]
    · exact ih (n + 1) p hp

/-- Every data datagram of the writer of a connection is one that the connection carries. -/
theorem writer_carries {conn : BluefinConnection} {allowed : Writer.State → Writer.Action → Prop}
    {acts : List Writer.Action} {w : Writer.State}
    (hr : Run (Writer.StepWhen conn.srcConnId conn.dstConnId allowed) conn.writer acts w)
    {datagram : Bytes} (hd : .data datagram ∈ w.wire) : carries conn datagram = true := by
  obtain ⟨-, css, hnumbered⟩ := Writer.numbered_run hr
  have hmem : datagram ∈ Writer.handed w :=
    List.mem_append_left _ (List.mem_flatMap.mpr ⟨_, hd, List.mem_singleton_self _⟩)
  rw [hnumbered.handed_eq] at hmem
  obtain ⟨num, cs, hcs, rfl⟩ := mem_datagrams hmem
  obtain ⟨hne, hchunks⟩ := hnumbered.chunked cs hcs
  rw [carries, WriterHandler.fromBytesInto_dataPackets _ _ num cs hne (fun c hc => (hchunks c hc).1)
    (fun c hc => (hchunks c hc).2), List.all_eq_true]
  exact dataPackets_traffic _ _ num cs

/-- A call that has answered, and whom. -/
def answeredId : AcceptPc → Option UInt32
  | .awaitAck dst _ => some dst
  | .done conn => some conn.dstConnId
  | _ => none

/-- A call answers once, and goes on only with the client that it has answered. -/
structure AnswersOk (P : Setup m n) (out : List Bytes) (accepts : Fin m → AcceptPc) : Prop where
  pcs : ∀ i id, Answered P out i id → isFailed (accepts i) = true ∨ answeredId (accepts i) = some id
  once : ∀ i id id', Answered P out i id → Answered P out i id' → id = id'

structure Inv (P : Setup m n) (st : State m n) : Prop where
  server : ServerInv P st.connected st.server st.accepts
  answers : AnswersOk P st.out st.accepts
  clients : ∀ k, ClientInv P (Answered P st.out) k (st.clients k).side (st.clients k).connect
  out : ∀ datagram ∈ st.out, Parses (FromServer P (Answered P st.out)) datagram
  sent : ∀ k, ∀ datagram ∈ (st.clients k).sent, Parses (SentBy P st.connected k) datagram

theorem inv_init (P : Setup m n) : Inv P (init m n) where
  server := serverInv_init P _
  answers := ⟨fun _ _ h => (by cases h), fun _ _ _ h => (by cases h)⟩
  clients := fun k => clientInv_init P _ k
  out := fun _ h => by cases h
  sent := fun _ _ h => by cases h

section

variable {st : State m n}

theorem Inv.updateServer (h : Inv P st) {side : Side} {accepts : Fin m → AcceptPc} {new : List Bytes}
    (hserver : ServerInv P st.connected side accepts)
    (hanswers : AnswersOk P (st.out ++ new) accepts)
    (hnew : ∀ datagram ∈ new, Parses (FromServer P (Answered P (st.out ++ new))) datagram) :
    Inv P { st with server := side, accepts := accepts, out := st.out ++ new } := by
  have hmono : ∀ i id, Answered P st.out i id → Answered P (st.out ++ new) i id :=
    fun i id ha => List.mem_append_left _ ha
  constructor
  case server => exact hserver
  case answers => exact hanswers
  case clients => exact fun k => (h.clients k).mono hmono
  case out =>
    intro datagram hd
    rcases List.mem_append.mp hd with hd | hd
    · exact fun c packets hparse => (h.out datagram hd c packets hparse).mono hmono
    · exact hnew datagram hd
  case sent => exact h.sent

theorem Inv.updateClient (h : Inv P st) {k : Fin n} {c : Client}
    (hclient : ClientInv P (Answered P st.out) k c.side c.connect)
    (hlater : ∀ dst, connectedTo (st.clients k).connect = some dst →
      connectedTo c.connect = some dst)
    (hsent : ∀ datagram ∈ c.sent, datagram ∈ (st.clients k).sent ∨
      ∀ connected : Fin n → Option UInt32, connected k = connectedTo c.connect →
        Parses (SentBy P connected k) datagram) :
    Inv P (st.setClient k c) := by
  have hconnected : (st.setClient k c).connected =
      Function.update st.connected k (connectedTo c.connect) := by
    funext j
    by_cases hj : j = k
    · subst hj
      simp [State.connected, State.setClient]
    · simp [State.connected, State.setClient, Function.update_of_ne hj]
  have hmono : Later st.connected (st.setClient k c).connected := by
    intro j dst hj
    rw [hconnected]
    by_cases hjk : j = k
    · subst hjk
      rw [Function.update_self]
      exact hlater dst hj
    · rwa [Function.update_of_ne hjk]
  have hkept : ∀ j datagram, Parses (SentBy P st.connected j) datagram →
      Parses (SentBy P (st.setClient k c).connected j) datagram :=
    fun j datagram hd cur packets hparse => (hd cur packets hparse).mono hmono
  constructor
  case server => exact h.server.mono hmono
  case answers => exact h.answers
  case out => exact h.out
  case clients =>
    exact Family.forall_update
      (P := fun j (c : Client) => ClientInv P (Answered P st.out) j c.side c.connect)
      (Q := fun j (c : Client) => ClientInv P (Answered P st.out) j c.side c.connect)
      hclient (fun _ _ hj => hj) h.clients
  case sent =>
    refine Family.forall_update
      (P := fun j (c : Client) => ∀ datagram ∈ c.sent, Parses (SentBy P st.connected j) datagram)
      (Q := fun j (e : Client) => ∀ datagram ∈ e.sent,
        Parses (SentBy P (st.setClient k c).connected j) datagram) ?_ ?_ h.sent
    · intro datagram hd
      rcases hsent datagram hd with hold | hnew
      · exact hkept k datagram (h.sent k datagram hold)
      · exact hnew _ (by rw [hconnected, Function.update_self])
    · exact fun j _ hj datagram hd => hkept j datagram (hj datagram hd)

theorem AnswersOk.keep {out : List Bytes} {accepts accepts' : Fin m → AcceptPc}
    (h : AnswersOk P out accepts)
    (hpcs : ∀ i id, isFailed (accepts i) = true ∨ answeredId (accepts i) = some id →
      isFailed (accepts' i) = true ∨ answeredId (accepts' i) = some id) :
    AnswersOk P out accepts' :=
  ⟨fun i id ha => hpcs i id (h.pcs i id ha), h.once⟩

theorem CallMoves.answered {ref : BufferRef} {srcConnId : UInt32} {packetNumber : UInt64}
    {host host' : Host} {pc pc' : AcceptPc}
    (hmove : CallMoves ref srcConnId packetNumber host pc host' pc') {id : UInt32}
    (h : isFailed pc = true ∨ answeredId pc = some id) :
    isFailed pc' = true ∨ answeredId pc' = some id := by
  rcases h with hf | ha
  · rw [hmove.not_failed] at hf
    cases hf
  · cases hmove with
    | pends | finishes => exact .inr ha
    | fails | refuses => exact .inl rfl
    | _ => cases ha

theorem acceptSends_cases (P : Setup m n) (i : Fin m) (pc : AcceptPc) :
    (∃ dst num addr, pc = .inserted dst num addr) ∨ acceptSends P i pc = [] := by
  cases pc with
  | inserted dst num addr => exact .inl ⟨dst, num, addr, rfl⟩
  | _ => exact .inr rfl

theorem Inv.accept (h : Inv P st) {i : Fin m} {host : Host} {pc : AcceptPc}
    (hmove : CallMoves i.val (P.serverConnId i) (P.serverPacketNumber i) st.server.host
      (st.accepts i) host pc) :
    Inv P { st with
      server := { st.server with host := host }
      accepts := Function.update st.accepts i pc
      out := st.out ++ acceptSends P i (st.accepts i) } := by
  have hkeep : ∀ j id, isFailed (st.accepts j) = true ∨ answeredId (st.accepts j) = some id →
      isFailed (Function.update st.accepts i pc j) = true ∨
        answeredId (Function.update st.accepts i pc j) = some id := by
    intro j id hj
    by_cases hji : j = i
    · subst hji
      rw [Function.update_self]
      exact hmove.answered hj
    · rwa [Function.update_of_ne hji]
  refine h.updateServer (h.server.call hmove) ?_ ?_
  · -- only the step from `inserted` sends, and the call has sent nothing before
    rcases acceptSends_cases P i (st.accepts i) with ⟨dst, num, addr, hpc⟩ | hnothing
    · rw [hpc]
      have hanswered : ∀ j id, Answered P (st.out ++ acceptSends P i (.inserted dst num addr)) j id →
          Answered P st.out j id ∨ j = i ∧ id = dst := by
        intro j id ha
        rcases List.mem_append.mp ha with ha | ha
        · exact .inl ha
        · exact .inr (serverHello_serialise (List.mem_singleton.mp ha))
      have hfirst : ∀ id, ¬ Answered P st.out i id := by
        intro id ha
        have hpcs := h.answers.pcs i id ha
        rw [hpc] at hpcs
        simp [isFailed, answeredId] at hpcs
      constructor
      case pcs =>
        intro j id ha
        rcases hanswered j id ha with ha | ⟨rfl, rfl⟩
        · exact hkeep j id (h.answers.pcs j id ha)
        · rw [Function.update_self]
          rw [hpc] at hmove
          cases hmove with
          | pends hpc' => simp at hpc'
          | fails => exact .inl rfl
          | answers => exact .inr rfl
      case once =>
        intro j id id' ha ha'
        rcases hanswered j id ha with hold | ⟨rfl, rfl⟩
        · rcases hanswered j id' ha' with hold' | ⟨rfl, rfl⟩
          · exact h.answers.once j id id' hold hold'
          · exact absurd hold (hfirst id)
        · rcases hanswered j id' ha' with hold' | ⟨-, rfl⟩
          · exact absurd hold' (hfirst id')
          · rfl
    · rw [hnothing, List.append_nil]
      exact h.answers.keep hkeep
  · intro datagram hd
    rcases acceptSends_cases P i (st.accepts i) with ⟨dst, num, addr, hpc⟩ | hnothing
    · rw [hpc] at hd ⊢
      cases List.mem_singleton.mp hd
      refine parses_serialise (Handshake.handshakePacket_encodable _ _ _ (by simp)) (.inl ?_)
      exact ⟨dst, _, rfl, i, rfl, List.mem_append_right _ (List.mem_singleton_self _)⟩
    · rw [hnothing] at hd
      cases hd

theorem Inv.acceptEnds (h : Inv P st) (i : Fin m) (e : BluefinError) :
    Inv P { st with accepts := Function.update st.accepts i (.failed e) } := by
  have hkeep : AnswersOk P st.out (Function.update st.accepts i (.failed e)) := by
    refine h.answers.keep fun j id hj => ?_
    by_cases hji : j = i
    · subst hji
      rw [Function.update_self]
      exact .inl rfl
    · rwa [Function.update_of_ne hji]
  exact ⟨h.server.fail i e, hkeep, h.clients, h.out, h.sent⟩

theorem Inv.connect (h : Inv P st) {k : Fin n} {host : Host} {pc : ConnectPc}
    (hcall : Handshake.connectCall Handshake.connRef (P.clientConnId k) (P.clientPacketNumber k)
      (st.clients k).side.host (st.clients k).connect = some (host, pc)) :
    Inv P (st.setClient k {
      side := { (st.clients k).side with host := host }
      connect := pc
      sent := (st.clients k).sent ++ connectSends P k (st.clients k).connect }) := by
  have hclient := (h.clients k).call hcall
  generalize hpc : (st.clients k).connect = now at hcall
  refine h.updateClient hclient ?_ fun datagram hd => (List.mem_append.mp hd).imp_right ?_
  · rw [hpc]
    intro dst hdst
    cases now with
    | done => cases hcall
    | _ => cases hdst
  · intro hd connected hconn
    cases now with
    | registered =>
      rw [connectSends] at hd
      cases List.mem_singleton.mp hd
      exact parses_serialise (Handshake.handshakePacket_encodable _ _ _ (by simp)) .hello
    | inserted dst =>
      rw [connectSends] at hd
      cases List.mem_singleton.mp hd
      cases hcall
      exact parses_serialise (Handshake.handshakePacket_encodable _ _ _ (by simp)) (.ack hconn)
    | _ => cases hd

theorem Inv.step (h : Inv P st) {st' : State m n} {act : Action m n}
    (hstep : Step P st act st') : Inv P st' := by
  cases act with
  | accept i =>
    obtain ⟨⟨host, pc⟩, hcall, rfl⟩ := Option.map_eq_some_iff.mp hstep
    exact h.accept (.of_acceptCall hcall)
  | acceptEnds i e =>
    simp only [Step, Crowd.step] at hstep
    split at hstep <;> cases hstep
    exact h.acceptEnds i e
  | connect k =>
    obtain ⟨⟨host, pc⟩, hcall, rfl⟩ := Option.map_eq_some_iff.mp hstep
    exact h.connect hcall
  | connectEnds k e =>
    simp only [Step, Crowd.step] at hstep
    split at hstep <;> cases hstep
    rename_i hawaits
    refine h.updateClient ((h.clients k).fail e) ?_ fun _ hd => .inl hd
    intro dst hdst
    cases hpc : (st.clients k).connect with
    | done => simp [hpc, Attempt.connect] at hawaits
    | _ => simp [hpc, connectedTo] at hdst
  | serverSends i datagram =>
    simp only [Step, Crowd.step] at hstep
    split at hstep
    · rename_i conn hconn
      split at hstep <;> cases hstep
      rename_i hcarries
      refine h.updateServer h.server ?_ fun d hd => ?_
      · have hsame : ∀ j id, Answered P (st.out ++ [datagram]) j id → Answered P st.out j id := by
          intro j id ha
          rcases List.mem_append.mp ha with ha | ha
          · exact ha
          · rw [← List.mem_singleton.mp ha, carries_serverHello] at hcarries
            cases hcarries
        exact ⟨fun j id ha => h.answers.pcs j id (hsame j id ha),
          fun j id id' ha ha' => h.answers.once j id id' (hsame j id ha) (hsame j id' ha')⟩
      · cases List.mem_singleton.mp hd
        exact fun c packets hparse => .inr fun p hp =>
          traffic_isHello_client (parses_carries hcarries c packets hparse p hp)
    · cases hstep
  | clientSends k datagram =>
    simp only [Step, Crowd.step] at hstep
    split at hstep
    · rename_i conn hconn
      split at hstep <;> cases hstep
      rename_i hcarries
      refine h.updateClient (h.clients k) (fun _ hdst => hdst) fun d hd => ?_
      refine (List.mem_append.mp hd).imp_right fun hd connected hconnected => ?_
      cases List.mem_singleton.mp hd
      have hclient := (h.clients k).pc_ok
      cases hpc : (st.clients k).connect with
      | done conn' =>
        rw [hpc] at hconn hconnected hclient
        cases hconn
        obtain ⟨i, rfl, -⟩ := hclient
        exact fun c packets hparse => .traffic hconnected (parses_carries hcarries c packets hparse)
      | _ =>
        rw [hpc] at hconn
        cases hconn
    · cases hstep
  | serverCloses i =>
    obtain ⟨conn, -, rfl⟩ := Option.map_eq_some_iff.mp hstep
    exact ⟨h.server.remove _, h.answers, h.clients, h.out, h.sent⟩
  | clientCloses k =>
    obtain ⟨conn, -, rfl⟩ := Option.map_eq_some_iff.mp hstep
    exact h.updateClient ((h.clients k).remove _) (fun _ hdst => hdst) fun _ hd => .inl hd
  | atServer k addr act =>
    obtain ⟨side, hworker, rfl⟩ := Option.map_eq_some_iff.mp hstep
    exact ⟨h.server.worker (h.sent k) hworker, h.answers, h.clients, h.out, h.sent⟩
  | atClient k addr act =>
    obtain ⟨side, hworker, rfl⟩ := Option.map_eq_some_iff.mp hstep
    exact h.updateClient ((h.clients k).worker h.out hworker) (fun _ hdst => hdst)
      fun _ hd => .inl hd

theorem inv_run {acts : List (Action m n)} (hr : Run (Step P) (init m n) acts st) : Inv P st :=
  hr.invariant (P := fun _ st => Inv P st) (inv_init P) fun _ _ _ _ _ hinv hstep => hinv.step hstep

/-! ### Who is connected to whom -/

theorem connected_done {k : Fin n} {dst : UInt32} (h : Inv P st) (hk : st.connected k = some dst) :
    (st.clients k).connect = .done ⟨P.clientConnId k, dst, P.clientPacketNumber k + 2⟩ := by
  have hok := (h.clients k).pc_ok
  rw [State.connected] at hk
  cases hpc : (st.clients k).connect with
  | done conn =>
    rw [hpc] at hk hok
    obtain ⟨i, rfl, -⟩ := hok
    cases hk
    rfl
  | _ =>
    rw [hpc] at hk
    cases hk

/-! ### Two clients and two calls -/

def pairIds (base : UInt32) (i : Fin 2) : UInt32 := if i = 0 then base else base + 1

theorem pairIds_injective : Function.Injective (pairIds 11) ∧ Function.Injective (pairIds 21) ∧
    ∀ k, pairIds 21 k ≠ 0 := by
  refine ⟨?_, ?_, ?_⟩
  · unfold Function.Injective
    decide
  · unfold Function.Injective
    decide
  · decide

def pairSetup : Setup 2 2 where
  serverConnId := pairIds 11
  serverPacketNumber := fun _ => 100
  clientConnId := pairIds 21
  clientPacketNumber := fun _ => 200
  server_injective := pairIds_injective.1
  client_injective := pairIds_injective.2.1
  client_ne_zero := pairIds_injective.2.2

def atServerAll (k : Fin 2) (p : BluefinPacket) : List (Action 2 2) :=
  [.atServer k 7 (.receive p.serialise), .atServer k 7 (.lookup 0), .atServer k 7 (.buffer 0)]

def atClientAll (k : Fin 2) (p : BluefinPacket) : List (Action 2 2) :=
  [.atClient k 8 (.receive p.serialise), .atClient k 8 (.lookup 0), .atClient k 8 (.buffer 0)]

/-- The client `k` is answered by the call `i`, both up to their connections. -/
def meet (i k : Fin 2) : List (Action 2 2) :=
  [.accept i, .accept i, .accept i, .accept i] ++
    atClientAll k (pairSetup.serverHello i (pairSetup.clientConnId k)) ++
    [.connect k, .connect k, .connect k, .connect k] ++
    atServerAll k (pairSetup.ack k (pairSetup.serverConnId i)) ++ [.accept i]

/-- Both calls wait, and the hello of the second client comes first. -/
def pairActs : List (Action 2 2) :=
  [.accept 0, .accept 0, .accept 1, .accept 1, .connect 0, .connect 0, .connect 1, .connect 1] ++
    atServerAll 1 (pairSetup.hello 1) ++ atServerAll 0 (pairSetup.hello 0) ++ meet 0 1 ++ meet 1 0

def conns (st : State 2 2) : List (Option BluefinConnection) :=
  [acceptConn (st.accepts 0), acceptConn (st.accepts 1), connectConn (st.clients 0).connect,
    connectConn (st.clients 1).connect]

theorem pairActs_conns : (pairActs.foldlM (step pairSetup) (init 2 2)).map conns =
    some [some ⟨11, 22, 101⟩, some ⟨12, 21, 101⟩, some ⟨21, 12, 202⟩, some ⟨22, 11, 202⟩] := by
  decide +kernel

theorem acceptConn_eq {pc : AcceptPc} {conn : BluefinConnection} (h : acceptConn pc = some conn) :
    pc = .done conn := by
  cases pc <;> cases h
  rfl

theorem connectConn_eq {pc : ConnectPc} {conn : BluefinConnection}
    (h : connectConn pc = some conn) : pc = .done conn := by
  cases pc <;> cases h
  rfl

theorem run_pair : ∃ st, Run (Step pairSetup) (init 2 2) pairActs st ∧
    st.accepts 0 = .done ⟨11, 22, 101⟩ ∧ st.accepts 1 = .done ⟨12, 21, 101⟩ ∧
    (st.clients 0).connect = .done ⟨21, 12, 202⟩ ∧
    (st.clients 1).connect = .done ⟨22, 11, 202⟩ := by
  obtain ⟨st, hrun, hconns⟩ :=
    Run.exists_of_foldlM conns pairActs (fun _ _ _ _ h => h) pairActs_conns
  simp only [conns, List.cons.injEq, and_true] at hconns
  obtain ⟨h0, h1, h2, h3⟩ := hconns
  exact ⟨st, hrun, acceptConn_eq h0, acceptConn_eq h1, connectConn_eq h2, connectConn_eq h3⟩

/-- A `connect()` that returns has a connection to a call that has answered it, no call
is connected to two clients, and a call that has not failed goes on with this client. -/
theorem connects_agree {acts : List (Action m n)} (hr : Run (Step P) (init m n) acts st) :
    (∀ k conn, (st.clients k).connect = .done conn → ∃ i,
      conn = ⟨P.clientConnId k, P.serverConnId i, P.clientPacketNumber k + 2⟩ ∧
      (isFailed (st.accepts i) = true ∨ answeredId (st.accepts i) = some (P.clientConnId k))) ∧
    ∀ k l connK connL, (st.clients k).connect = .done connK → (st.clients l).connect = .done connL →
      connK.dstConnId = connL.dstConnId → k = l := by
  have hinv := inv_run hr
  have hcall : ∀ k conn, (st.clients k).connect = .done conn → ∃ i,
      conn = ⟨P.clientConnId k, P.serverConnId i, P.clientPacketNumber k + 2⟩ ∧
      Answered P st.out i (P.clientConnId k) := by
    intro k conn hdone
    have hok := (hinv.clients k).pc_ok
    rwa [hdone] at hok
  constructor
  · intro k conn hdone
    obtain ⟨i, hconn, ha⟩ := hcall k conn hdone
    exact ⟨i, hconn, hinv.answers.pcs i _ ha⟩
  · intro k l connK connL hk hl hsame
    obtain ⟨i, rfl, hi⟩ := hcall k connK hk
    obtain ⟨j, rfl, hj⟩ := hcall l connL hl
    obtain rfl := P.server_injective hsame
    exact P.client_injective (hinv.answers.once i _ _ hi hj)

theorem connects_agree_pair : ∃ st i, Run (Step pairSetup) (init 2 2) pairActs st ∧
    (st.clients 1).connect = .done ⟨22, pairSetup.serverConnId i, 202⟩ ∧
    (isFailed (st.accepts i) = true ∨ answeredId (st.accepts i) = some 22) := by
  obtain ⟨st, hrun, -, -, -, h1⟩ := run_pair
  obtain ⟨i, hconn, ha⟩ := (connects_agree hrun).1 1 _ h1
  refine ⟨st, i, hrun, ?_, ha⟩
  rw [h1, hconn]
  rfl

/-- What a worker of the server is about to put into the buffers of a call that has not
failed is the hello that the call waits for, or comes from the client that the call is
connected to, on that connection. -/
theorem buffers_isolated {acts : List (Action m n)} (hr : Run (Step P) (init m n) acts st)
    {d : Delivery} {ref : BufferRef} (hd : (d, some ref) ∈ st.server.inHand) :
    ∃ i : Fin m, ref = i.val ∧ (isFailed (st.accepts i) = true ∨
      (st.accepts i = .waiting ∧ ∃ k, d.packets = [P.hello k]) ∨
      ∃ k, peer (st.accepts i) = some (P.clientConnId k) ∧
        (st.clients k).connect =
          .done ⟨P.clientConnId k, P.serverConnId i, P.clientPacketNumber k + 2⟩ ∧
        ∀ p ∈ d.packets, p.header.sourceConnectionId = P.clientConnId k ∧
          p.header.destinationConnectionId = P.serverConnId i) := by
  have hinv := inv_run hr
  obtain ⟨i, href, hid, hreach⟩ := hinv.server.routed.found d ref hd
  obtain ⟨k, hfrom⟩ := hinv.server.origin.hand _ hd
  refine ⟨i, href, ?_⟩
  cases hfrom with
  | hello hpackets hhello hkey =>
    obtain ⟨j, he⟩ := hinv.server.hello_once.expected _ (mem_helloIds hd hhello)
    obtain rfl := P.server_injective (hid.symm.trans he.id_eq)
    exact he.waits.imp_right fun ⟨hw, _⟩ => .inl ⟨hw, k, hpackets⟩
  | later hconn hhello hkey hpackets =>
    dsimp only at hkey
    rw [hkey] at hid hreach
    obtain rfl := hid
    rcases hreach with hf | hzero | hp
    · exact .inl hf
    · exact absurd hzero (P.client_ne_zero k)
    · refine .inr (.inr ⟨k, hp, connected_done hinv hconn, fun p hmem => ?_⟩)
      rcases hpackets with hack | htraffic
      · dsimp only at hack
        rw [hack] at hmem
        cases List.mem_singleton.mp hmem
        exact ⟨rfl, rfl⟩
      · obtain ⟨hsrc, hdst, -⟩ := isTrafficPacket_iff.mp (htraffic p hmem)
        exact ⟨hsrc, hdst⟩

/-- The hello of the second client is in hand for the first call. -/
def foundActs : List (Action 2 2) :=
  [.accept 0, .accept 0, .connect 1, .connect 1,
    .atServer 1 7 (.receive (pairSetup.hello 1).serialise), .atServer 1 7 (.lookup 0)]

theorem foundActs_hand : (foundActs.foldlM (step pairSetup) (init 2 2)).map
    (fun st => st.server.inHand.map Prod.snd) = some [some 0] := by
  decide +kernel

theorem buffers_isolated_found : ∃ st d, Run (Step pairSetup) (init 2 2) foundActs st ∧
    (d, some 0) ∈ st.server.inHand ∧ ∃ i : Fin 2, 0 = i.val ∧
      (isFailed (st.accepts i) = true ∨
        (st.accepts i = .waiting ∧ ∃ k, d.packets = [pairSetup.hello k]) ∨
        ∃ k, peer (st.accepts i) = some (pairSetup.clientConnId k) ∧
          (st.clients k).connect = .done ⟨pairSetup.clientConnId k, pairSetup.serverConnId i, 202⟩ ∧
          ∀ p ∈ d.packets, p.header.sourceConnectionId = pairSetup.clientConnId k ∧
            p.header.destinationConnectionId = pairSetup.serverConnId i) := by
  obtain ⟨st, hrun, hhand⟩ := Run.exists_of_foldlM
    (fun st : State 2 2 => st.server.inHand.map Prod.snd)
    foundActs (fun _ _ _ _ h => h) foundActs_hand
  obtain ⟨⟨d, ref⟩, hd, rfl⟩ : ∃ x ∈ st.server.inHand, x.2 = some 0 :=
    List.mem_map.mp (by rw [hhand]; exact List.mem_singleton_self _)
  exact ⟨st, d, hrun, hd, buffers_isolated hrun hd⟩

end

end

end Crowd

end Bluefin
