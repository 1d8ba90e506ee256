import Bluefin.Net.HelloMatching

/-!
# What a failed `accept()` or `connect()` leaves behind (net/server.rs, net/client.rs)

One call on a host in any state, with its own fresh buffers, while the reader
workers of the host go on. The call can end at each of its early returns, by a send
error or a timeout, in a panic of `BluefinConnection::new`, or by its future being
dropped where it awaits. Nothing undoes what the call has put into the connection
manager: every ending after the first `insert` leaves the call's buffers in it.
-/

namespace Bluefin
open Base

namespace Attempt
open Handshake (AcceptPc ConnectPc acceptCall connectCall)

/-! ### An attempt -/

/-- How a call ends without a connection. `setupError` is an error of `get_udp_socket` or of
`handshake_handler.begin`, before anything is registered, and `newPanics` the panic of
`BluefinConnection::new` where it cannot get its socket. -/
inductive Ending where
  | error (e : BluefinError)
  | setupError
  | sendError
  | dropped
  | newPanics
  deriving DecidableEq, Repr

/-- A call with the places at which it can end early. -/
structure Call (Pc : Type) where
  hostType : BluefinHost
  start : Pc
  next : Host → Pc → Option (Host × Pc)
  returned : Pc → Option BluefinError
  setsUp : Pc → Bool
  sends : Pc → Bool
  timed : Pc → Bool
  awaits : Pc → Bool
  connected : Pc → Bool

def accept (ref : BufferRef) (srcConnId : UInt32) (packetNumber : UInt64) : Call AcceptPc where
  hostType := .packLeader
  start := .start
  next := acceptCall ref srcConnId packetNumber
  returned | .failed e => some e | _ => none
  setsUp _ := false
  sends | .inserted _ _ _ => true | _ => false
  timed | .awaitAck _ _ => true | _ => false
  -- a future that was never polled can be dropped as well
  awaits | .start | .waiting | .inserted _ _ _ | .awaitAck _ _ => true | _ => false
  connected | .done _ => true | _ => false

def connect (ref : BufferRef) (srcConnId : UInt32) (packetNumber : UInt64) : Call ConnectPc where
  hostType := .client
  start := .start
  next := connectCall ref srcConnId packetNumber
  returned | .failed e => some e | _ => none
  setsUp | .start => true | _ => false
  sends | .registered | .inserted _ => true | _ => false
  timed | .waiting => true | _ => false
  awaits | .start | .registered | .waiting | .inserted _ => true | _ => false
  connected | .done _ => true | _ => false

structure State (Pc : Type) where
  side : Handshake.Side
  pc : Pc
  ending : Option Ending

inductive Action where
  | call
  | setupFails
  | sendFails
  | timeout
  | drop
  | newPanics
  | worker (addr : SocketAddr) (act : Handshake.WorkerAction)

section

variable {Pc : Type} (call : Call Pc)

def init (side : Handshake.Side) : State Pc := ⟨side, call.start, none⟩

/-- The end of a call that is at a place where it can end in this way. -/
def State.endAt (st : State Pc) (place : Pc → Bool) (ending : Ending) : Option (State Pc) :=
  if st.ending = none ∧ place st.pc = true then some { st with ending := some ending } else none

def received : Handshake.WorkerAction → List Bytes
  | .receive datagram => [datagram]
  | .lookup _ | .buffer _ => []

def step (st : State Pc) : Action → Option (State Pc)
  | .call =>
    if st.ending = none then (call.next st.side.host st.pc).map fun (host, pc) =>
      ⟨{ st.side with host := host }, pc, (call.returned pc).map .error⟩
    else none
  | .setupFails => st.endAt call.setsUp .setupError
  | .sendFails => st.endAt call.sends .sendError
  | .timeout => st.endAt call.timed (.error Handshake.handshakeTimedOut)
  | .drop => st.endAt call.awaits .dropped
  | .newPanics => st.endAt call.connected .newPanics
  | .worker addr act =>
    (Handshake.workerStep call.hostType (received act) addr st.side act).map fun side =>
      { st with side := side }

end

/-- The connection manager has the entries it had before the attempt, and no slot was
added for its id. -/
structure NoTrace (before after : Host) (srcConnId : UInt32) : Prop where
  connManager_eq : after.connManager = before.connManager
  no_slot : after.helloState.pendingAcceptIds.count srcConnId ≤
    before.helloState.pendingAcceptIds.count srcConnId

/-! ### The workers -/

theorem handleHelloSingle_suffix (hostType : BluefinHost) (state : HelloState)
    (packet : BluefinPacket) (addr : SocketAddr) :
    (ReaderTxChannel.handleHelloSingle hostType state packet addr).2.pendingAcceptIds <:+
      state.pendingAcceptIds := by
  obtain ⟨ids, queue⟩ := state
  unfold ReaderTxChannel.handleHelloSingle
  split
  · split
    · dsimp only
      split
      · exact List.suffix_cons _ _
      · split <;> exact List.suffix_rfl
    · exact List.suffix_rfl
    · exact List.suffix_rfl
  · exact List.suffix_rfl

theorem receive_suffix {hostType : BluefinHost} {state state' : HelloState} {datagram : Bytes}
    {addr : SocketAddr} {d : Option ReaderTxChannel.Delivery}
    (h : ReaderTxChannel.receive hostType state datagram addr = .goOn (state', d)) :
    state'.pendingAcceptIds <:+ state.pendingAcceptIds := by
  unfold ReaderTxChannel.receive at h
  split at h
  · cases h
  · cases h
    exact List.suffix_rfl
  · unfold ReaderTxChannel.classify at h
    split at h
    · cases h
      exact List.suffix_rfl
    · rename_i first rest _
      have hsuffix := handleHelloSingle_suffix hostType state first addr
      dsimp only at h
      split at h
      · split at h <;> rename_i hres <;> rw [hres] at hsuffix <;> cases h <;> exact hsuffix
      · cases h
        exact List.suffix_rfl

theorem workerStep_noTrace {hostType : BluefinHost} {sent : List Bytes} {addr : SocketAddr}
    {side side' : Handshake.Side} {act : Handshake.WorkerAction} (srcConnId : UInt32)
    (h : Handshake.workerStep hostType sent addr side act = some side') :
    NoTrace side.host side'.host srcConnId := by
  cases Handshake.workerStep_moves h with
  | keeps _ hrecv => exact ⟨rfl, (receive_suffix hrecv).sublist.count_le _⟩
  | takes _ hrecv => exact ⟨rfl, (receive_suffix hrecv).sublist.count_le _⟩
  | drops => exact ⟨rfl, le_rfl⟩
  | finds hd => exact ⟨rfl, le_rfl⟩
  | buffers hd => exact ⟨rfl, le_rfl⟩

theorem NoTrace.trans {host₁ host₂ host₃ : Host} {srcConnId : UInt32}
    (h : NoTrace host₁ host₂ srcConnId) (h' : NoTrace host₂ host₃ srcConnId) :
    NoTrace host₁ host₃ srcConnId :=
  ⟨h'.connManager_eq.trans h.connManager_eq, h'.no_slot.trans h.no_slot⟩

/-! ### What a call leaves -/

/-- An entry for the buffers at `ref`. -/
def Left (ref : BufferRef) (host : Host) : Prop :=
  ∃ key, host.connManager key = some ref

/-- The places `between` are those of a call between the removal of its hello entry and the
insertion of the entry of the connection. They are the only ones without an entry once the call has
started, and no call ends there. -/
structure Call.Leaves {Pc : Type} (call : Call Pc) (ref : BufferRef) (between : Pc → Prop) :
    Prop where
  start_left : ∀ {host host' pc'}, call.next host call.start = some (host', pc') → Left ref host'
  between_left : ∀ {host pc host' pc'}, between pc → call.next host pc = some (host', pc') →
    Left ref host'
  next_left : ∀ {host pc host' pc'}, Left ref host → call.next host pc = some (host', pc') →
    between pc' ∨ Left ref host'
  no_end : ∀ {pc}, between pc → call.returned pc = none ∧ call.setsUp pc = false ∧
    call.sends pc = false ∧ call.timed pc = false ∧ call.awaits pc = false ∧
    call.connected pc = false

theorem left_insert {host host' : Host} {key : ConnKey} {ref : BufferRef} {had : Bool}
    (h : host.insert key ref = (had, host')) : Left ref host' := by
  cases h
  exact ⟨key, Function.update_self _ _ _⟩

theorem left_remove {host host' : Host} {key : ConnKey} {ref : BufferRef}
    (h : host.remove key = (false, host')) (hleft : Left ref host) : Left ref host' := by
  obtain ⟨key', hkey'⟩ := hleft
  simp only [Host.remove, Prod.mk.injEq, Option.isSome_eq_false_iff, Option.isNone_iff_eq_none] at h
  obtain ⟨hnone, rfl⟩ := h
  have hne : key' ≠ key := by
    rintro rfl
    rw [hnone] at hkey'
    cases hkey'
  exact ⟨key', (Function.update_of_ne hne _ _).trans hkey'⟩

section

variable {ref : BufferRef} {srcConnId : UInt32} {packetNumber : UInt64} {host host' : Host}

theorem acceptCall_start {pc' : AcceptPc}
    (h : acceptCall ref srcConnId packetNumber host .start = some (host', pc')) :
    Left ref host' := by
  cases Handshake.acceptCall_moves h with
  | opens hins => exact left_insert hins

theorem acceptCall_removed {dst : UInt32} {num : UInt64} {addr : SocketAddr} {pc' : AcceptPc}
    (h : acceptCall ref srcConnId packetNumber host (.removed dst num addr) = some (host', pc')) :
    Left ref host' := by
  cases Handshake.acceptCall_moves h with
  | collides hins => exact left_insert hins
  | inserts hins => exact left_insert hins

theorem connectCall_start {pc' : ConnectPc}
    (h : connectCall ref srcConnId packetNumber host .start = some (host', pc')) :
    Left ref host' := by
  cases Handshake.connectCall_moves h with
  | opens hins => exact left_insert hins

theorem connectCall_removed {dst : UInt32} {pc' : ConnectPc}
    (h : connectCall ref srcConnId packetNumber host (.removed dst) = some (host', pc')) :
    Left ref host' := by
  cases Handshake.connectCall_moves h with
  | collides hins => exact left_insert hins
  | inserts hins => exact left_insert hins

theorem acceptCall_left {pc pc' : AcceptPc} (hleft : Left ref host)
    (h : acceptCall ref srcConnId packetNumber host pc = some (host', pc')) :
    (∃ dst num addr, pc' = .removed dst num addr) ∨ Left ref host' := by
  cases Handshake.acceptCall_moves h with
  | opens hins => exact .inr (left_insert hins)
  | unlisted hrem => exact .inr (left_remove hrem hleft)
  | removes => exact .inl ⟨_, _, _, rfl⟩
  | collides hins => exact .inr (left_insert hins)
  | inserts hins => exact .inr (left_insert hins)
  | pops | slots | pends | reads | unnumbered | answers | awaits | refuses | finishes =>
    exact .inr hleft

theorem connectCall_left {pc pc' : ConnectPc} (hleft : Left ref host)
    (h : connectCall ref srcConnId packetNumber host pc = some (host', pc')) :
    (∃ dst, pc' = .removed dst) ∨ Left ref host' := by
  cases Handshake.connectCall_moves h with
  | opens hins => exact .inr (left_insert hins)
  | unlisted hrem => exact .inr (left_remove hrem hleft)
  | removes => exact .inl ⟨_, rfl⟩
  | collides hins => exact .inr (left_insert hins)
  | inserts hins => exact .inr (left_insert hins)
  | greets | pends | reads | unnumbered | acks => exact .inr hleft

end

theorem accept_leaves (ref : BufferRef) (srcConnId : UInt32) (packetNumber : UInt64) :
    (accept ref srcConnId packetNumber).Leaves ref (fun pc => ∃ dst num addr,
      pc = .removed dst num addr) := by
  constructor
  case start_left => exact acceptCall_start
  case between_left =>
    intro host pc host' pc' hbetween h
    obtain ⟨dst, num, addr, rfl⟩ := hbetween
    exact @acceptCall_removed _ _ packetNumber _ _ _ _ _ _ h
  case next_left => exact acceptCall_left
  case no_end =>
    intro pc hbetween
    obtain ⟨dst, num, addr, rfl⟩ := hbetween
    exact ⟨rfl, rfl, rfl, rfl, rfl, rfl⟩

theorem connect_leaves (ref : BufferRef) (srcConnId : UInt32) (packetNumber : UInt64) :
    (connect ref srcConnId packetNumber).Leaves ref (fun pc => ∃ dst, pc = .removed dst) := by
  constructor
  case start_left => exact connectCall_start
  case between_left =>
    intro host pc host' pc' hbetween h
    obtain ⟨dst, rfl⟩ := hbetween
    exact @connectCall_removed _ _ packetNumber _ _ _ _ h
  case next_left => exact connectCall_left
  case no_end =>
    intro pc hbetween
    obtain ⟨dst, rfl⟩ := hbetween
    exact ⟨rfl, rfl, rfl, rfl, rfl, rfl⟩

/-! ### All runs -/

section

variable {Pc : Type} {call : Call Pc} {ref : BufferRef} {between : Pc → Prop}

structure Inv (call : Call Pc) (ref : BufferRef) (between : Pc → Prop) (srcConnId : UInt32)
    (before : Host) (acts : List Action) (st : State Pc) : Prop where
  untouched : .call ∉ acts → st.pc = call.start ∧ NoTrace before st.side.host srcConnId
  left : .call ∈ acts → (between st.pc ∧ st.ending = none) ∨ Left ref st.side.host

inductive Moves (call : Call Pc) (st : State Pc) : Action → State Pc → Prop
  | goesOn {host : Host} {pc : Pc} (h : call.next st.side.host st.pc = some (host, pc)) :
      Moves call st .call
        ⟨{ st.side with host := host }, pc, (call.returned pc).map .error⟩
  | ends {act : Action} {place : Pc → Bool} (ending : Ending) (hact : act ≠ .call)
      (hplace : place ∈ [call.setsUp, call.sends, call.timed, call.awaits, call.connected])
      (h : place st.pc = true) : Moves call st act { st with ending := some ending }
  | worker {addr : SocketAddr} {act : Handshake.WorkerAction} {side : Handshake.Side}
      (h : Handshake.workerStep call.hostType (received act) addr st.side act = some side) :
      Moves call st (.worker addr act) { st with side := side }

theorem State.endAt_moves {st st' : State Pc} {act : Action} {place : Pc → Bool} {ending : Ending}
    (h : st.endAt place ending = some st') (hact : act ≠ .call)
    (hplace : place ∈ [call.setsUp, call.sends, call.timed, call.awaits, call.connected]) :
    Moves call st act st' := by
  unfold State.endAt at h
  split at h
  · rename_i hwhere
    cases h
    exact .ends ending hact hplace hwhere.2
  · cases h

theorem moves_of_step {st st' : State Pc} {act : Action} (h : step call st act = some st') :
    Moves call st act st' := by
  cases act with
  | call =>
    simp only [step] at h
    split at h
    · obtain ⟨⟨host, pc⟩, hnext, rfl⟩ := Option.map_eq_some_iff.mp h
      exact .goesOn hnext
    · cases h
  | setupFails => exact State.endAt_moves h (by intro h; cases h) (by simp)
  | sendFails => exact State.endAt_moves h (by intro h; cases h) (by simp)
  | timeout => exact State.endAt_moves h (by intro h; cases h) (by simp)
  | drop => exact State.endAt_moves h (by intro h; cases h) (by simp)
  | newPanics => exact State.endAt_moves h (by intro h; cases h) (by simp)
  | worker addr act =>
    obtain ⟨side, hside, rfl⟩ := Option.map_eq_some_iff.mp h
    exact .worker hside

theorem Call.Leaves.not_between (hcall : call.Leaves ref between) {pc : Pc} {place : Pc → Bool}
    (hplace : place ∈ [call.setsUp, call.sends, call.timed, call.awaits, call.connected])
    (h : place pc = true) : ¬ between pc := by
  intro hbetween
  obtain ⟨-, hsetsUp, hsends, htimed, hawaits, hconnected⟩ := hcall.no_end hbetween
  simp only [List.mem_cons, List.not_mem_nil, or_false] at hplace
  rcases hplace with rfl | rfl | rfl | rfl | rfl <;> simp_all

theorem inv_step (hcall : call.Leaves ref between) {srcConnId : UInt32} {before : Host}
    {acts : List Action} {act : Action} {st st' : State Pc}
    (hinv : Inv call ref between srcConnId before acts st) (h : step call st act = some st') :
    Inv call ref between srcConnId before (acts ++ [act]) st' := by
  cases moves_of_step h with
  | goesOn hnext =>
    constructor
    case untouched => simp
    case left =>
      intro _
      by_cases hcalled : Action.call ∈ acts
      · rcases hinv.left hcalled with ⟨hbetween, -⟩ | hleft
        · exact .inr (hcall.between_left hbetween hnext)
        · rcases hcall.next_left hleft hnext with hbetween | hleft
          · exact .inl ⟨hbetween, by rw [(hcall.no_end hbetween).1]; rfl⟩
          · exact .inr hleft
      · rw [(hinv.untouched hcalled).1] at hnext
        exact .inr (hcall.start_left hnext)
  | ends ending hact hplace hat =>
    have hsame : Action.call ∈ acts ++ [act] ↔ Action.call ∈ acts := by simp [hact.symm]
    constructor
    case untouched => exact fun hnot => hinv.untouched (hsame.not.mp hnot)
    case left =>
      intro hcalled
      rcases hinv.left (hsame.mp hcalled) with ⟨hbetween, _⟩ | hleft
      · exact absurd hbetween (hcall.not_between hplace hat)
      · exact .inr hleft
  | worker hside =>
    have hframe := workerStep_noTrace srcConnId hside
    constructor
    case untouched =>
      intro hnot
      obtain ⟨hpc, htrace⟩ := hinv.untouched (by simpa using hnot)
      exact ⟨hpc, htrace.trans hframe⟩
    case left =>
      intro hcalled
      refine (hinv.left (by simpa using hcalled)).imp_right ?_
      rintro ⟨key, hkey⟩
      exact ⟨key, by rw [hframe.connManager_eq]; exact hkey⟩

theorem inv_run (hcall : call.Leaves ref between) (srcConnId : UInt32) (side : Handshake.Side)
    {acts : List Action} {st : State Pc}
    (hr : Run (fun st act st' => step call st act = some st') (init call side) acts st) :
    Inv call ref between srcConnId side.host acts st := by
  induction hr with
  | nil => exact ⟨fun _ => ⟨rfl, rfl, le_rfl⟩, by simp⟩
  | snoc _ hs ih => exact inv_step hcall ih hs

theorem noTrace_iff (hcall : call.Leaves ref between) (srcConnId : UInt32)
    {side : Handshake.Side} (hfresh : ¬ Left ref side.host) {acts : List Action} {st : State Pc}
    (hr : Run (fun st act st' => step call st act = some st') (init call side) acts st)
    (hended : st.ending ≠ none) :
    NoTrace side.host st.side.host srcConnId ↔ .call ∉ acts := by
  have hinv := inv_run hcall srcConnId side hr
  constructor
  · intro htrace hcalled
    rcases hinv.left hcalled with ⟨_, hnone⟩ | ⟨key, hkey⟩
    · exact hended hnone
    · rw [htrace.connManager_eq] at hkey
      exact hfresh ⟨key, hkey⟩
  · exact fun hnot => (hinv.untouched hnot).2

end

/-- An `accept()` or `connect()` that ends without a connection, on a host in any state
and among any steps of the reader workers, leaves no trace exactly if it ended before
its code was run up to the first `insert`. -/
theorem failed_attempt_iff (ref : BufferRef) (srcConnId : UInt32) (packetNumber : UInt64)
    (side : Handshake.Side) (hfresh : ¬ Left ref side.host) :
    (∀ acts st, Run (fun st act st' => step (accept ref srcConnId packetNumber) st act = some st')
        (init (accept ref srcConnId packetNumber) side) acts st → st.ending ≠ none →
      (NoTrace side.host st.side.host srcConnId ↔ .call ∉ acts)) ∧
    ∀ acts st, Run (fun st act st' => step (connect ref srcConnId packetNumber) st act = some st')
        (init (connect ref srcConnId packetNumber) side) acts st → st.ending ≠ none →
      (NoTrace side.host st.side.host srcConnId ↔ .call ∉ acts) := by
  constructor
  · intro acts st hr hended
    exact noTrace_iff (accept_leaves ref srcConnId packetNumber) srcConnId hfresh hr hended
  · intro acts st hr hended
    exact noTrace_iff (connect_leaves ref srcConnId packetNumber) srcConnId hfresh hr hended

/-- A host with buffers 3 at the hello key of id 5. -/
def occupied : Host :=
  { Host.new with connManager := fun key => if key = (5, 0) then some 3 else none }

/-- The call with id 5 waits for a hello. -/
def awaited : Handshake.Side := ⟨{ occupied with helloState := ⟨[5], []⟩ }, []⟩

theorem awaited_fresh : ¬ Left 7 awaited.host := by
  rintro ⟨key, hkey⟩
  simp only [awaited, occupied, Option.ite_none_right_eq_some] at hkey
  cases hkey.2

/-- A worker takes a hello from the socket to the buffers it is for. -/
def routed (hello : BluefinPacket) : List Action :=
  [.worker 9 (.receive hello.serialise), .worker 9 (.lookup 0), .worker 9 (.buffer 0)]

def otherClientHello : BluefinPacket := buildEmptyEncryptedPacket 8 0 4 .unencryptedClientHello

def otherServerHello : BluefinPacket := buildEmptyEncryptedPacket 8 5 4 .unencryptedServerHello

/-- An `accept()` that is never polled and a `connect()` whose socket cannot be had, while a hello
comes in for another call. -/
theorem failed_attempt_unstarted :
    (∃ st, Run (fun st act st' => step (accept 7 6 9) st act = some st')
        (init (accept 7 6 9) awaited) (routed otherClientHello ++ [.drop]) st ∧
      st.ending = some .dropped ∧
      (st.side.host.buffers 3).connBuff.packet = some otherClientHello ∧
      NoTrace awaited.host st.side.host 6) ∧
    ∃ st, Run (fun st act st' => step (connect 7 6 9) st act = some st')
        (init (connect 7 6 9) awaited) (routed otherServerHello ++ [.setupFails]) st ∧
      st.ending = some .setupError ∧
      (st.side.host.buffers 3).connBuff.packet = some otherServerHello ∧
      NoTrace awaited.host st.side.host 6 := by
  obtain ⟨haccept, hconnect⟩ := failed_attempt_iff 7 6 9 awaited awaited_fresh
  constructor
  · have hcomputed : ((routed otherClientHello ++ [Action.drop]).foldlM (step (accept 7 6 9))
        (init (accept 7 6 9) awaited)).map (fun st =>
          (st.ending, (st.side.host.buffers 3).connBuff.packet)) =
        some (some .dropped, some otherClientHello) := by decide +kernel
    obtain ⟨st, hr, hst⟩ := Run.exists_of_foldlM _ _ (fun _ _ _ _ h => h) hcomputed
    obtain ⟨hending, hpacket⟩ := Prod.mk.inj hst
    exact ⟨st, hr, hending, hpacket, (haccept _ st hr (by simp [hending])).mpr (by simp [routed])⟩
  · have hcomputed : ((routed otherServerHello ++ [Action.setupFails]).foldlM (step (connect 7 6 9))
        (init (connect 7 6 9) awaited)).map (fun st =>
          (st.ending, (st.side.host.buffers 3).connBuff.packet)) =
        some (some .setupError, some otherServerHello) := by decide +kernel
    obtain ⟨st, hr, hst⟩ := Run.exists_of_foldlM _ _ (fun _ _ _ _ h => h) hcomputed
    obtain ⟨hending, hpacket⟩ := Prod.mk.inj hst
    exact ⟨st, hr, hending, hpacket, (hconnect _ st hr (by simp [hending])).mpr (by simp [routed])⟩

/-- The id collides, and the entry of the other connection is gone although nothing should have been
done; and an `accept()` that is dropped while it waits leaves its hello entry and its slot. -/
theorem failed_accept_leaves :
    (∃ st, Run (fun st act st' => step (accept 7 5 9) st act = some st')
        (init (accept 7 5 9) ⟨occupied, []⟩) [.call] st ∧
      st.ending = some (.error .connectionAlreadyExists) ∧
      occupied.connManager (5, 0) = some 3 ∧ st.side.host.connManager (5, 0) = some 7 ∧
      ¬ NoTrace occupied st.side.host 5) ∧
    ∃ st, Run (fun st act st' => step (accept 7 5 9) st act = some st')
        (init (accept 7 5 9) ⟨.new, []⟩) [.call, .call, .drop] st ∧
      st.ending = some .dropped ∧ st.side.host.connManager (5, 0) = some 7 ∧
      st.side.host.helloState.pendingAcceptIds = [5] ∧ ¬ NoTrace .new st.side.host 5 := by
  constructor
  · have hcomputed : ([Action.call].foldlM (step (accept 7 5 9))
        (init (accept 7 5 9) ⟨occupied, []⟩)).map (fun st =>
          (st.ending, st.side.host.connManager (5, 0))) =
        some (some (.error .connectionAlreadyExists), some 7) := by decide +kernel
    obtain ⟨st, hr, hst⟩ := Run.exists_of_foldlM _ _ (fun _ _ _ _ h => h) hcomputed
    obtain ⟨hending, hentry⟩ := Prod.mk.inj hst
    refine ⟨st, hr, hending, by decide, hentry, ?_⟩
    intro htrace
    rw [htrace.connManager_eq] at hentry
    exact absurd hentry (by decide)
  · have hcomputed : ([Action.call, .call, .drop].foldlM (step (accept 7 5 9))
        (init (accept 7 5 9) ⟨.new, []⟩)).map (fun st =>
          (st.ending, st.side.host.connManager (5, 0),
            st.side.host.helloState.pendingAcceptIds)) =
        some (some .dropped, some 7, [5]) := by decide +kernel
    obtain ⟨st, hr, hst⟩ := Run.exists_of_foldlM _ _ (fun _ _ _ _ h => h) hcomputed
    obtain ⟨hending, hst⟩ := Prod.mk.inj hst
    obtain ⟨hentry, hids⟩ := Prod.mk.inj hst
    refine ⟨st, hr, hending, hentry, hids, ?_⟩
    intro htrace
    rw [htrace.connManager_eq] at hentry
    exact absurd hentry (by decide)

end Attempt

end Bluefin
