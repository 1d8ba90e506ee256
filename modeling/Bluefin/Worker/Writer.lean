import Bluefin.Base.Trace
import Bluefin.Worker.Packetiser

/-!
# The writer as a concurrent machine (worker/writer.rs, `BluefinConnection::close`)

The tasks around one `WriterHandler`: any number of `send_*` and `flush` calls,
the packetiser (`read_data`), the sender task it spawns, and one `close()`. Each
keeps a program counter, and one action is one atomic access, channel operation
or socket operation of one of them; everything between two of these is local.
A socket `try_send` that would block is retried, so only its success is a step.
-/

namespace Bluefin
open Base

namespace Writer

abbrev dataChannelBound : ℕ := 4096
abbrev batchLimit : ℕ := 20
abbrev datagramsPerIteration : ℕ := 12

/-! ### Program counters -/

/-- A full channel fails `send_bytes` and `send_data`, and `send_bytes_async` waits for it. -/
inductive SendKind where
  | sync
  | async
  deriving DecidableEq, Repr

inductive SendPc where
  | start
  | checked
  | accounted
  | failed
  deriving DecidableEq, Repr

structure SendCall where
  kind : SendKind
  payload : Bytes
  pc : SendPc
  deriving DecidableEq, Repr

/-- Waiting for a message is `recv`, and `drain` collects the batch. At `pack i` the task has handed
over `i` datagrams of this iteration, and at `store i` it is about to store the packet number after
handing over `i`. -/
inductive PacketiserPc where
  | recv
  | drain
  | pack (i : ℕ)
  | store (i : ℕ)
  deriving DecidableEq, Repr

inductive SenderPc where
  | idle
  | holding (datagram : Bytes) (payloadBytes : ℕ)
  | sent (payloadBytes : ℕ)
  | notify
  deriving DecidableEq, Repr

/-- writer.rs:481-499. `woken`: a `notify_waiters` came after `notified()`. -/
inductive FlushPc where
  | check
  | register
  | recheck (woken : Bool)
  | parked
  | returned
  deriving DecidableEq, Repr

/-- connection.rs:477-539. `waiting` stands for the wait for the FinAck, which ends in a
retransmission or in the return of the call. -/
inductive CloserPc where
  | idle
  | flushing (f : FlushPc)
  | mark
  | reserve
  | record (finPn : UInt64)
  | sendFin (finPn : UInt64)
  | waiting (finPn : UInt64)
  | done (finPn : UInt64)
  deriving DecidableEq, Repr

/-- What goes out on the socket: a data datagram, or the header-only Fin. -/
inductive Emission where
  | data (datagram : Bytes)
  | fin (packetNumber : UInt64)
  deriving DecidableEq, Repr

structure State where
  closed : Bool
  pendingBytes : ℕ
  nextPacketNumShared : UInt64
  chan : List Bytes
  sends : List SendCall
  packetiser : PacketiserPc
  batch : List Bytes
  dataQueue : List Bytes
  nextPacketNum : UInt64
  sendQueue : List (Bytes × ℕ)
  sender : SenderPc
  flushes : List FlushPc
  closer : CloserPc
  wire : List Emission
  -- what dropped `send_bytes_async` futures had added to `pendingBytes`
  leaked : ℕ

def init (start : UInt64) : State where
  closed := false
  pendingBytes := 0
  nextPacketNumShared := start
  chan := []
  sends := []
  packetiser := .recv
  batch := []
  dataQueue := []
  nextPacketNum := start
  sendQueue := []
  sender := .idle
  flushes := []
  closer := .idle
  wire := []
  leaked := 0

/-! ### One atomic step of each task -/

/-- writer.rs:388-411, 418-441 and 444-465, up to the return. -/
def sendStep (st : State) (i : ℕ) : Option State :=
  match st.sends[i]? with
  | none => none
  | some c => match c.pc with
    | .start =>
      if st.closed then some { st with sends := st.sends.eraseIdx i }
      else some { st with sends := st.sends.set i { c with pc := .checked } }
    | .checked => some { st with
        pendingBytes := st.pendingBytes + c.payload.length
        sends := st.sends.set i { c with pc := .accounted } }
    | .accounted =>
      if st.chan.length < dataChannelBound then
        some { st with chan := st.chan ++ [c.payload], sends := st.sends.eraseIdx i }
      else match c.kind with
        | .sync => some { st with sends := st.sends.set i { c with pc := .failed } }
        | .async => none
    | .failed => some { st with
        pendingBytes := st.pendingBytes - c.payload.length
        sends := st.sends.eraseIdx i }

/-- A `send_bytes_async` future is dropped at its only await. -/
def cancelStep (st : State) (i : ℕ) : Option State :=
  match st.sends[i]? with
  | some ⟨.async, payload, .accounted⟩ => some { st with
      sends := st.sends.eraseIdx i
      leaked := st.leaked + payload.length }
  | _ => none

/-- writer.rs:312-377. -/
def packetiserStep (srcConnId dstConnId : UInt32) (st : State) : Option State :=
  match st.packetiser with
  | .recv => match st.chan with
    | [] => none
    | first :: chan => some { st with chan := chan, batch := [first], packetiser := .drain }
  | .drain =>
    let full := { st with
      dataQueue := st.dataQueue ++ st.batch, batch := [], packetiser := .pack 0 }
    if st.batch.length < batchLimit then match st.chan with
      | [] => some full
      | msg :: chan => some { st with chan := chan, batch := st.batch ++ [msg] }
    else some full
  | .pack i =>
    if i < datagramsPerIteration then
      let (payloadBytes, queue, num, datagram) :=
        WriterHandler.consumeDataInto srcConnId dstConnId st.dataQueue st.nextPacketNum []
      if payloadBytes > 0 then some { st with
        dataQueue := queue
        nextPacketNum := num
        sendQueue := st.sendQueue ++ [(datagram, payloadBytes)]
        packetiser := .pack (i + 1) }
      else some { st with dataQueue := queue, nextPacketNum := num, packetiser := .store i }
    else some { st with packetiser := .store i }
  | .store _ => some { st with nextPacketNumShared := st.nextPacketNum, packetiser := .recv }

def FlushPc.step (pendingBytes : ℕ) : FlushPc → Option FlushPc
  | .check => some (if pendingBytes = 0 then .returned else .register)
  | .register => some (.recheck false)
  | .recheck woken =>
    some (if pendingBytes = 0 then .returned else if woken then .check else .parked)
  | .parked => none
  | .returned => none

/-- The effect of `notify_waiters` on a flush call that may be waiting. -/
def FlushPc.wake : FlushPc → FlushPc
  | .recheck _ => .recheck true
  | .parked => .check
  | f => f

def CloserPc.wake : CloserPc → CloserPc
  | .flushing f => .flushing f.wake
  | c => c

/-- writer.rs:273-310. -/
def senderStep (st : State) : Option State :=
  match st.sender with
  | .idle => match st.sendQueue with
    | [] => none
    | (datagram, payloadBytes) :: sendQueue =>
      some { st with sendQueue := sendQueue, sender := .holding datagram payloadBytes }
  | .holding datagram payloadBytes =>
    some { st with wire := st.wire ++ [.data datagram], sender := .sent payloadBytes }
  | .sent payloadBytes =>
    if payloadBytes > 0 then some { st with
      pendingBytes := st.pendingBytes - payloadBytes
      sender := if st.pendingBytes = payloadBytes then .notify else .idle }
    else some { st with sender := .idle }
  | .notify => some { st with
      flushes := st.flushes.map FlushPc.wake
      closer := st.closer.wake
      sender := .idle }

def flushStep (st : State) (i : ℕ) : Option State :=
  match st.flushes[i]? with
  | none => none
  | some f => (f.step st.pendingBytes).map fun f' => { st with flushes := st.flushes.set i f' }

/-- connection.rs:477-539 up to the send of the Fin. -/
def closeStep (st : State) : Option State :=
  match st.closer with
  | .idle => none
  | .flushing .returned => some { st with closer := .mark }
  | .flushing f => (f.step st.pendingBytes).map fun f' => { st with closer := .flushing f' }
  | .mark => some { st with closed := true, closer := .reserve }
  | .reserve => some { st with
      nextPacketNumShared := st.nextPacketNumShared + 1
      closer := .record st.nextPacketNumShared }
  | .record finPn => some { st with closer := .sendFin finPn }
  | .sendFin finPn => some { st with wire := st.wire ++ [.fin finPn], closer := .waiting finPn }
  | .waiting _ => none
  | .done _ => none

inductive Action where
  | sendBegin (kind : SendKind) (payload : Bytes)
  | send (i : ℕ)
  | cancel (i : ℕ)
  | packetiser
  | sender
  | flushBegin
  | flush (i : ℕ)
  | closeBegin
  | close
  | closeRetransmit
  | closeReturn

section

variable (srcConnId dstConnId : UInt32)

def step (st : State) : Action → Option State
  | .sendBegin kind payload => some { st with sends := st.sends ++ [⟨kind, payload, .start⟩] }
  | .send i => sendStep st i
  | .cancel i => cancelStep st i
  | .packetiser => packetiserStep srcConnId dstConnId st
  | .sender => senderStep st
  | .flushBegin => some { st with flushes := st.flushes ++ [.check] }
  | .flush i => flushStep st i
  | .closeBegin => match st.closer with
    | .idle => some { st with closer := .flushing .check }
    | _ => none
  | .close => closeStep st
  | .closeRetransmit => match st.closer with
    | .waiting finPn => some { st with closer := .sendFin finPn }
    | _ => none
  | .closeReturn => match st.closer with
    | .waiting finPn => some { st with closer := .done finPn }
    | _ => none

/-- A step whose action is allowed in the state before it. -/
def StepWhen (allowed : State → Action → Prop) (st : State) (act : Action) (st' : State) : Prop :=
  allowed st act ∧ step srcConnId dstConnId st act = some st'

/-! ### What one step can do -/

inductive Moves (st : State) : Action → State → Prop
  | sendBegin (kind : SendKind) (payload : Bytes) :
      Moves st (.sendBegin kind payload)
        { st with sends := st.sends ++ [⟨kind, payload, .start⟩] }
  | sendClosed (i : ℕ) (pre post : List SendCall) (c : SendCall)
      (hsends : st.sends = pre ++ c :: post) (hpc : c.pc = .start) (hclosed : st.closed = true) :
      Moves st (.send i) { st with sends := pre ++ post }
  | sendCheck (i : ℕ) (pre post : List SendCall) (c : SendCall)
      (hsends : st.sends = pre ++ c :: post) (hpc : c.pc = .start) (hopen : st.closed = false) :
      Moves st (.send i) { st with sends := pre ++ { c with pc := .checked } :: post }
  | sendAccount (i : ℕ) (pre post : List SendCall) (c : SendCall)
      (hsends : st.sends = pre ++ c :: post) (hpc : c.pc = .checked) :
      Moves st (.send i) { st with
        pendingBytes := st.pendingBytes + c.payload.length
        sends := pre ++ { c with pc := .accounted } :: post }
  | sendEnqueue (i : ℕ) (pre post : List SendCall) (c : SendCall)
      (hsends : st.sends = pre ++ c :: post) (hpc : c.pc = .accounted)
      (hroom : st.chan.length < dataChannelBound) :
      Moves st (.send i) { st with chan := st.chan ++ [c.payload], sends := pre ++ post }
  | sendFull (i : ℕ) (pre post : List SendCall) (c : SendCall)
      (hsends : st.sends = pre ++ c :: post) (hpc : c.pc = .accounted) (hkind : c.kind = .sync)
      (hfull : ¬ st.chan.length < dataChannelBound) :
      Moves st (.send i) { st with sends := pre ++ { c with pc := .failed } :: post }
  | sendUndo (i : ℕ) (pre post : List SendCall) (c : SendCall)
      (hsends : st.sends = pre ++ c :: post) (hpc : c.pc = .failed) :
      Moves st (.send i) { st with
        pendingBytes := st.pendingBytes - c.payload.length, sends := pre ++ post }
  | sendCancel (i : ℕ) (pre post : List SendCall) (c : SendCall)
      (hsends : st.sends = pre ++ c :: post) (hpc : c.pc = .accounted) (hkind : c.kind = .async) :
      Moves st (.cancel i) { st with
        sends := pre ++ post, leaked := st.leaked + c.payload.length }
  | recvFirst (first : Bytes) (chan : List Bytes) (hpc : st.packetiser = .recv)
      (hchan : st.chan = first :: chan) :
      Moves st .packetiser { st with chan := chan, batch := [first], packetiser := .drain }
  | drainOne (msg : Bytes) (chan : List Bytes) (hpc : st.packetiser = .drain)
      (hroom : st.batch.length < batchLimit) (hchan : st.chan = msg :: chan) :
      Moves st .packetiser { st with
        chan := chan, batch := st.batch ++ [msg], packetiser := .drain }
  | drainDone (hpc : st.packetiser = .drain)
      (hstop : ¬ st.batch.length < batchLimit ∨ st.chan = []) :
      Moves st .packetiser { st with
        dataQueue := st.dataQueue ++ st.batch, batch := [], packetiser := .pack 0 }
  | packSome (i n : ℕ) (queue : List Bytes) (num : UInt64) (datagram : Bytes)
      (hpc : st.packetiser = .pack i) (hi : i < 12)
      (hcall : WriterHandler.consumeDataInto srcConnId dstConnId st.dataQueue st.nextPacketNum [] =
        (n, queue, num, datagram)) (hn : 0 < n) :
      Moves st .packetiser { st with
        dataQueue := queue
        nextPacketNum := num
        sendQueue := st.sendQueue ++ [(datagram, n)]
        packetiser := .pack (i + 1) }
  | packNone (i : ℕ) (queue : List Bytes) (num : UInt64) (datagram : Bytes)
      (hpc : st.packetiser = .pack i) (hi : i < 12)
      (hcall : WriterHandler.consumeDataInto srcConnId dstConnId st.dataQueue st.nextPacketNum [] =
        (0, queue, num, datagram)) :
      Moves st .packetiser { st with
        dataQueue := queue, nextPacketNum := num, packetiser := .store i }
  | packDone (i : ℕ) (hpc : st.packetiser = .pack i) (hi : ¬ i < 12) :
      Moves st .packetiser { st with packetiser := .store i }
  | store (i : ℕ) (hpc : st.packetiser = .store i) :
      Moves st .packetiser { st with
        nextPacketNumShared := st.nextPacketNum, packetiser := .recv }
  | senderTake (datagram : Bytes) (n : ℕ) (sendQueue : List (Bytes × ℕ))
      (hpc : st.sender = .idle) (hqueue : st.sendQueue = (datagram, n) :: sendQueue) :
      Moves st .sender { st with sendQueue := sendQueue, sender := .holding datagram n }
  | senderSend (datagram : Bytes) (n : ℕ) (hpc : st.sender = .holding datagram n) :
      Moves st .sender { st with wire := st.wire ++ [.data datagram], sender := .sent n }
  | senderSub (n : ℕ) (hpc : st.sender = .sent n) (hn : 0 < n) :
      Moves st .sender { st with
        pendingBytes := st.pendingBytes - n
        sender := if st.pendingBytes = n then .notify else .idle }
  | senderSkip (hpc : st.sender = .sent 0) : Moves st .sender { st with sender := .idle }
  | senderNotify (hpc : st.sender = .notify) :
      Moves st .sender { st with
        flushes := st.flushes.map FlushPc.wake, closer := st.closer.wake, sender := .idle }
  | flushBegin : Moves st .flushBegin { st with flushes := st.flushes ++ [.check] }
  | flush (i : ℕ) (pre post : List FlushPc) (f f' : FlushPc)
      (hflushes : st.flushes = pre ++ f :: post) (hstep : f.step st.pendingBytes = some f') :
      Moves st (.flush i) { st with flushes := pre ++ f' :: post }
  | closeBegin (hpc : st.closer = .idle) :
      Moves st .closeBegin { st with closer := .flushing .check }
  | closeFlush (f f' : FlushPc) (hpc : st.closer = .flushing f)
      (hstep : f.step st.pendingBytes = some f') :
      Moves st .close { st with closer := .flushing f' }
  | closeFlushed (hpc : st.closer = .flushing .returned) :
      Moves st .close { st with closer := .mark }
  | closeMark (hpc : st.closer = .mark) :
      Moves st .close { st with closed := true, closer := .reserve }
  | closeReserve (hpc : st.closer = .reserve) :
      Moves st .close { st with
        nextPacketNumShared := st.nextPacketNumShared + 1
        closer := .record st.nextPacketNumShared }
  | closeRecord (finPn : UInt64) (hpc : st.closer = .record finPn) :
      Moves st .close { st with closer := .sendFin finPn }
  | closeSendFin (finPn : UInt64) (hpc : st.closer = .sendFin finPn) :
      Moves st .close { st with wire := st.wire ++ [.fin finPn], closer := .waiting finPn }
  | closeRetransmit (finPn : UInt64) (hpc : st.closer = .waiting finPn) :
      Moves st .closeRetransmit { st with closer := .sendFin finPn }
  | closeReturn (finPn : UInt64) (hpc : st.closer = .waiting finPn) :
      Moves st .closeReturn { st with closer := .done finPn }

variable {srcConnId dstConnId}

theorem sendStep_moves {st st' : State} {i : ℕ} (h : sendStep st i = some st') :
    Moves srcConnId dstConnId st (.send i) st' := by
  unfold sendStep at h
  cases hc : st.sends[i]? with
  | none => simp [hc] at h
  | some c =>
    obtain ⟨pre, post, hsends, hset, herase⟩ := split_at hc
    simp only [hc, hset, herase] at h
    cases hpc : c.pc with
    | start =>
      simp only [hpc] at h
      by_cases hclosed : st.closed = true
      · rw [if_pos hclosed] at h
        cases h
        exact .sendClosed i pre post c hsends hpc hclosed
      · rw [if_neg hclosed] at h
        cases h
        exact .sendCheck i pre post c hsends hpc (Bool.eq_false_iff.mpr hclosed)
    | checked =>
      simp only [hpc] at h
      cases h
      exact .sendAccount i pre post c hsends hpc
    | accounted =>
      simp only [hpc] at h
      by_cases hroom : st.chan.length < dataChannelBound
      · rw [if_pos hroom] at h
        cases h
        exact .sendEnqueue i pre post c hsends hpc hroom
      · rw [if_neg hroom] at h
        split at h
        · rename_i hkind
          cases h
          exact .sendFull i pre post c hsends hpc hkind hroom
        · cases h
    | failed =>
      simp only [hpc] at h
      cases h
      exact .sendUndo i pre post c hsends hpc

theorem cancelStep_moves {st st' : State} {i : ℕ} (h : cancelStep st i = some st') :
    Moves srcConnId dstConnId st (.cancel i) st' := by
  unfold cancelStep at h
  split at h
  · rename_i payload hc
    obtain ⟨pre, post, hsends, -, herase⟩ := split_at hc
    rw [herase] at h
    cases h
    exact .sendCancel i pre post _ hsends rfl rfl
  · cases h

theorem packetiserStep_moves {st st' : State}
    (h : packetiserStep srcConnId dstConnId st = some st') :
    Moves srcConnId dstConnId st .packetiser st' := by
  unfold packetiserStep at h
  cases hpc : st.packetiser with
  | recv =>
    simp only [hpc] at h
    cases hchan : st.chan with
    | nil => simp [hchan] at h
    | cons first chan =>
      simp only [hchan] at h
      cases h
      exact .recvFirst first chan hpc hchan
  | drain =>
    rw [hpc] at h
    dsimp only at h
    by_cases hroom : st.batch.length < batchLimit
    · rw [if_pos hroom] at h
      split at h
      · rename_i hchan
        cases h
        exact .drainDone hpc (.inr hchan)
      · rename_i msg chan hchan
        cases h
        exact .drainOne msg chan hpc hroom hchan
    · rw [if_neg hroom] at h
      cases h
      exact .drainDone hpc (.inl hroom)
  | pack i =>
    simp only [hpc] at h
    by_cases hi : i < datagramsPerIteration
    · rw [if_pos hi] at h
      rcases hcall : WriterHandler.consumeDataInto srcConnId dstConnId st.dataQueue
        st.nextPacketNum [] with ⟨n, queue, num, datagram⟩
      simp only [hcall] at h
      by_cases hn : n > 0
      · rw [if_pos hn] at h
        cases h
        exact .packSome i n queue num datagram hpc hi hcall hn
      · rw [if_neg hn] at h
        cases h
        obtain rfl : n = 0 := Nat.eq_zero_of_not_pos hn
        exact .packNone i queue num datagram hpc hi hcall
    · rw [if_neg hi] at h
      cases h
      exact .packDone i hpc hi
  | store i =>
    simp only [hpc] at h
    cases h
    exact .store i hpc

theorem senderStep_moves {st st' : State} (h : senderStep st = some st') :
    Moves srcConnId dstConnId st .sender st' := by
  unfold senderStep at h
  cases hpc : st.sender with
  | idle =>
    simp only [hpc] at h
    cases hqueue : st.sendQueue with
    | nil => simp [hqueue] at h
    | cons e sendQueue =>
      simp only [hqueue] at h
      cases h
      exact .senderTake e.1 e.2 sendQueue hpc hqueue
  | holding datagram n =>
    simp only [hpc] at h
    cases h
    exact .senderSend datagram n hpc
  | sent n =>
    simp only [hpc] at h
    by_cases hn : n > 0
    · rw [if_pos hn] at h
      cases h
      exact .senderSub n hpc hn
    · rw [if_neg hn] at h
      cases h
      obtain rfl : n = 0 := Nat.eq_zero_of_not_pos hn
      exact .senderSkip hpc
  | notify =>
    simp only [hpc] at h
    cases h
    exact .senderNotify hpc

theorem flushStep_moves {st st' : State} {i : ℕ} (h : flushStep st i = some st') :
    Moves srcConnId dstConnId st (.flush i) st' := by
  unfold flushStep at h
  cases hf : st.flushes[i]? with
  | none => simp [hf] at h
  | some f =>
    obtain ⟨pre, post, hflushes, hset, -⟩ := split_at hf
    simp only [hf, hset] at h
    obtain ⟨f', hstep, rfl⟩ := Option.map_eq_some_iff.mp h
    exact .flush i pre post f f' hflushes hstep

theorem closeStep_moves {st st' : State} (h : closeStep st = some st') :
    Moves srcConnId dstConnId st .close st' := by
  unfold closeStep at h
  split at h
  · cases h
  · rename_i hpc
    cases h
    exact .closeFlushed hpc
  · rename_i f _ hpc
    obtain ⟨f', hstep, rfl⟩ := Option.map_eq_some_iff.mp h
    exact .closeFlush f f' hpc hstep
  · rename_i hpc
    cases h
    exact .closeMark hpc
  · rename_i hpc
    cases h
    exact .closeReserve hpc
  · rename_i finPn hpc
    cases h
    exact .closeRecord finPn hpc
  · rename_i finPn hpc
    cases h
    exact .closeSendFin finPn hpc
  · cases h
  · cases h

theorem step_moves {st st' : State} {act : Action}
    (h : step srcConnId dstConnId st act = some st') :
    Moves srcConnId dstConnId st act st' := by
  cases act with
  | sendBegin kind payload =>
    cases h
    exact .sendBegin kind payload
  | send i => exact sendStep_moves h
  | cancel i => exact cancelStep_moves h
  | packetiser => exact packetiserStep_moves h
  | sender => exact senderStep_moves h
  | flushBegin =>
    cases h
    exact .flushBegin
  | flush i => exact flushStep_moves h
  | closeBegin =>
    simp only [step] at h
    split at h
    · rename_i hpc
      cases h
      exact .closeBegin hpc
    · cases h
  | close => exact closeStep_moves h
  | closeRetransmit =>
    simp only [step] at h
    split at h
    · rename_i finPn hpc
      cases h
      exact .closeRetransmit finPn hpc
    · cases h
  | closeReturn =>
    simp only [step] at h
    split at h
    · rename_i finPn hpc
      cases h
      exact .closeReturn finPn hpc
    · cases h

end

end Writer

end Bluefin
