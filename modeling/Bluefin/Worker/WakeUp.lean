import Bluefin.Worker.Dispatch
import Bluefin.Worker.Reader
import Bluefin.Worker.ReaderTx

/-!
# The waker of a parked reader (worker/reader.rs, worker/conn_reader.rs)

One task that polls `ReaderRxChannelFuture`, and any number of calls of
`buffer_in_data_packets`, `buffer_in_close_packets` and `buffer_to_conn_buffer`. What
the two mutexes protect changes under them, but `peer_fin_observed` is set under the
close buffer's mutex and loaded under the other, and most wakers are called with no
mutex held. So a poll is three steps, a close call one for each packet and three more,
and every call of a waker is a step of its own.
-/

namespace Bluefin
open Base

namespace WakeUp

open ConnReaderHandler (IsClose types)

/-- Who holds the mutex of the connection buffer, and where in its section: a poll that found
nothing to read, or found the flag unset as well, with the waker of its context; or a
`buffer_to_conn_buffer` that is about to call the waker. -/
inductive ConnLock where
  | free
  | peeked (w : Waker)
  | loaded (w : Waker)
  | delivering (w : Waker)
  deriving DecidableEq, Repr

/-- The same for the close buffer. The mutex is poisoned by a panic under it. -/
inductive CloseLock where
  | free
  | walking (packets : List BluefinPacket) (sawFin : Bool)
  | poisoned
  deriving DecidableEq

/-- What is left of a call of a producer that holds no mutex. -/
inductive Producer where
  | sendFinAck (pn : Option UInt64)
  | taking
  | waking (w : Waker)
  deriving DecidableEq, Repr

/-- At `parked` the last poll returned `Pending`, with this waker in its context, and the waker has
not been called since. -/
inductive Polled where
  | running
  | parked (w : Waker)
  deriving DecidableEq, Repr

def Polled.wake (reader : Polled) (w : Waker) : Polled :=
  if reader = .parked w then .running else reader

structure State where
  bufs : ConnectionManagedBuffers
  connLock : ConnLock
  closeLock : CloseLock
  producers : List Producer
  reader : Polled

abbrev State.flag (st : State) : Bool := st.bufs.closeBuff.peerFinObserved

def init (bufs : ConnectionManagedBuffers) : State := ⟨bufs, .free, .free, [], .running⟩

/-- The reader's poll (reader.rs:78-96), which may come at any time, is `poll`, `load` and
`register`. A `walk` is the next packet of the call that holds the close buffer, or the end of its
section, and a `produce` the next step of a call that holds no mutex. -/
inductive Action where
  | poll (w : Waker)
  | load
  | register
  | consume (bytesToRead : ℕ) (buf : Bytes)
  | consumeBytes (out : List Bytes) (maxPackets : ℕ)
  | data (packets : List BluefinPacket)
  | deliver (packet : BluefinPacket) (addr : SocketAddr) (isHello isClientAck : Bool)
  | deliverWake
  | close (packets : List BluefinPacket)
  | walk
  | produce (i : ℕ)

/-- conn_reader.rs:305-339, for the call that holds the close buffer. -/
def walk (st : State) (sawFin : Bool) : List BluefinPacket → State
  | [] =>
    if sawFin then
      let (pn, closeBuff) := st.bufs.closeBuff.takePendingFinAckSend
      { st with
        bufs.closeBuff := closeBuff
        closeLock := .free
        producers := st.producers ++ [.sendFinAck pn] }
    else { st with closeLock := .free }
  | p :: packets => match p.header.typeField with
    | .fin => { st with
        bufs.closeBuff := st.bufs.closeBuff.bufferInFin p
        closeLock := .walking packets true }
    | .finAck => { st with
        bufs.closeBuff := st.bufs.closeBuff.bufferInFinAck p
        closeLock := .walking packets sawFin }
    | _ => { st with closeLock := .poisoned }

/-- A `lock` of a poisoned mutex panics and changes nothing. -/
def step (st : State) : Action → Option State
  | .poll w => match st.connLock with
    | .free =>
      if st.bufs.connBuff.peek.isOk then some { st with reader := .running }
      else some { st with reader := .running, connLock := .peeked w }
    | _ => none
  | .load => match st.connLock with
    | .peeked w => some { st with connLock := if st.flag then .free else .loaded w }
    | _ => none
  | .register => match st.connLock with
    | .loaded w => some { st with
        bufs.connBuff := st.bufs.connBuff.setWakerIfChanged w
        connLock := .free
        reader := .parked w }
    | _ => none
  | .consume bytesToRead buf => match st.connLock, st.reader with
    | .free, .running =>
      some { st with bufs.connBuff := (st.bufs.connBuff.consume bytesToRead buf).2.1 }
    | _, _ => none
  | .consumeBytes out maxPackets => match st.connLock, st.reader with
    | .free, .running =>
      some { st with bufs.connBuff := (st.bufs.connBuff.consumeBytes out maxPackets).2.1 }
    | _, _ => none
  | .data packets => match st.connLock with
    | .free =>
      let (_, connBuff, waker) := ConnReaderHandler.bufferInDataPackets st.bufs.connBuff packets
      some { st with
        bufs.connBuff := connBuff
        producers := st.producers ++ waker.toList.map .waking }
    | _ => none
  | .deliver packet addr isHello isClientAck => match st.connLock with
    | .free =>
      let (_, connBuff, waker) := ReaderTxChannel.bufferToConnBuffer st.bufs.connBuff packet addr
        isHello isClientAck
      some { st with
        bufs.connBuff := connBuff
        connLock := match waker with
          | some w => .delivering w
          | none => .free }
    | _ => none
  | .deliverWake => match st.connLock with
    | .delivering w => some { st with reader := st.reader.wake w, connLock := .free }
    | _ => none
  | .close packets => match st.closeLock with
    | .free => some { st with closeLock := .walking packets false }
    | _ => none
  | .walk => match st.closeLock with
    | .walking packets sawFin => some (walk st sawFin packets)
    | _ => none
  | .produce i => match st.producers[i]? with
    | some (.sendFinAck pn) => some { st with
        bufs.finAckTx := ConnReaderHandler.trySendFinAck st.bufs.finAckTx pn
        producers := st.producers.set i .taking }
    | some .taking => match st.connLock, st.bufs.connBuff.waker with
      | .free, some w => some { st with producers := st.producers.set i (.waking w) }
      | .free, none => some { st with producers := st.producers.eraseIdx i }
      | _, _ => none
    | some (.waking w) => some { st with
        reader := st.reader.wake w, producers := st.producers.eraseIdx i }
    | none => none

def Step (st : State) (act : Action) (st' : State) : Prop := step st act = some st'

/-! ### A lost wake-up -/

/-- A read would not wait. -/
def Ready (st : State) : Prop := st.bufs.connBuff.peek.isOk = true ∨ st.flag = true

/-- A close call that has seen a Fin and will call the waker it finds. -/
def FinPending (st : State) : Prop :=
  (∃ packets, st.closeLock = .walking packets true ∧ ∀ t ∈ types packets, IsClose t) ∨
    .taking ∈ st.producers ∨ ∃ pn, .sendFinAck pn ∈ st.producers

/-- A producer will call this waker. -/
def AboutToWake (st : State) (w : Waker) : Prop :=
  st.connLock = .delivering w ∨ .waking w ∈ st.producers ∨
    (st.bufs.connBuff.waker = some w ∧ FinPending st)

/-- The reader is parked, no producer will call its waker, and there is something to
read or the stream has ended. -/
def LostWakeUp (st : State) : Prop :=
  ∃ w, st.reader = .parked w ∧ ¬ AboutToWake st w ∧ Ready st

/-- A packet of another class comes after a Fin, with close packets only before it. -/
def OtherAfterFin (ts : List PacketType) : Prop :=
  ∃ before t after, ts = before ++ t :: after ∧ (∀ u ∈ before, IsClose u) ∧ .fin ∈ before ∧
    ¬ IsClose t

/-! ### What one step can do -/

inductive Moves (st : State) : Action → State → Prop
  | resolves (w : Waker) : Moves st (.poll w) { st with reader := .running }
  | peeks (w : Waker) (hfree : st.connLock = .free) (hempty : st.bufs.connBuff.peek.isOk = false) :
      Moves st (.poll w) { st with reader := .running, connLock := .peeked w }
  | loads {w : Waker} (hlock : st.connLock = .peeked w) :
      Moves st .load { st with connLock := if st.flag then .free else .loaded w }
  | parks {w : Waker} (hlock : st.connLock = .loaded w) :
      Moves st .register { st with
        bufs.connBuff.waker := some w, connLock := .free, reader := .parked w }
  | consumes {act : Action} (connBuff : ConnectionBuffer) (hfree : st.connLock = .free)
      (hrunning : st.reader = .running) : Moves st act { st with bufs.connBuff := connBuff }
  | inserts {act : Action} (connBuff : ConnectionBuffer) (producers : List Producer)
      (lock : ConnLock) (hfree : st.connLock = .free)
      (hwaker : connBuff.waker = st.bufs.connBuff.waker) (hkeep : st.producers ⊆ producers)
      (hlock : lock = .free ∨ ∃ w, lock = .delivering w)
      (hwakes : connBuff.peek.isOk = true → ∀ w, connBuff.waker = some w →
        st.bufs.connBuff.peek.isOk = true ∨ .waking w ∈ producers ∨ lock = .delivering w) :
      Moves st act { st with
        bufs.connBuff := connBuff, producers := producers, connLock := lock }
  | wakesLocked {w : Waker} (hlock : st.connLock = .delivering w) :
      Moves st .deliverWake { st with reader := st.reader.wake w, connLock := .free }
  | opens (packets : List BluefinPacket) (hfree : st.closeLock = .free) :
      Moves st (.close packets) { st with closeLock := .walking packets false }
  | walks {packets : List BluefinPacket} {sawFin : Bool}
      (hlock : st.closeLock = .walking packets sawFin) : Moves st .walk (walk st sawFin packets)
  | sends {i : ℕ} {pn : Option UInt64} {before after : List Producer}
      (finAckTx : Option (List UInt64)) (hat : st.producers = before ++ .sendFinAck pn :: after) :
      Moves st (.produce i) { st with
        bufs.finAckTx := finAckTx, producers := before ++ .taking :: after }
  | takes {i : ℕ} {before after : List Producer} {w : Waker} (hfree : st.connLock = .free)
      (hat : st.producers = before ++ .taking :: after) (hwaker : st.bufs.connBuff.waker = some w) :
      Moves st (.produce i) { st with producers := before ++ .waking w :: after }
  | takesNone {i : ℕ} {before after : List Producer} (hfree : st.connLock = .free)
      (hat : st.producers = before ++ .taking :: after) (hwaker : st.bufs.connBuff.waker = none) :
      Moves st (.produce i) { st with producers := before ++ after }
  | wakes {i : ℕ} {before after : List Producer} {w : Waker}
      (hat : st.producers = before ++ .waking w :: after) :
      Moves st (.produce i) { st with
        reader := st.reader.wake w, producers := before ++ after }

theorem bufferInBytes_err {b b' : ConnectionBuffer} {p : BluefinPacket} {r : BluefinResult Unit}
    (h : b.bufferInBytes p = (r, b')) :
    b'.waker = b.waker ∧ (r = .ok () ∨ ∃ e, r = .err e ∧ b' = b) := by
  unfold ConnectionBuffer.bufferInBytes OrderedBytes.bufferInPacket at h
  dsimp only at h
  split at h
  · cases h
    exact ⟨rfl, .inr ⟨_, rfl, rfl⟩⟩
  · split at h
    · cases h
      exact ⟨rfl, .inr ⟨_, rfl, rfl⟩⟩
    · split at h
      · cases h
        exact ⟨rfl, .inr ⟨_, rfl, rfl⟩⟩
      · cases h
        exact ⟨rfl, .inl rfl⟩

theorem bufferInPacket_err {b b' : ConnectionBuffer} {p : BluefinPacket} {r : BluefinResult Unit}
    (h : b.bufferInPacket p = (r, b')) :
    b'.waker = b.waker ∧ (r = .ok () ∨ ∃ e, r = .err e ∧ b' = b) := by
  unfold ConnectionBuffer.bufferInPacket at h
  split at h
  · cases h
    exact ⟨rfl, .inr ⟨_, rfl, rfl⟩⟩
  · dsimp only at h
    split at h <;> cases h <;> exact ⟨rfl, .inl rfl⟩

theorem bufferInAddr_waker (b : ConnectionBuffer) (addr : SocketAddr) :
    (b.bufferInAddr addr).2.waker = b.waker := by
  unfold ConnectionBuffer.bufferInAddr
  split <;> rfl

/-- The waker is found by `buffer_to_conn_buffer` unless it has changed nothing. -/
theorem bufferToConnBuffer_wakes (b : ConnectionBuffer) (packet : BluefinPacket) (addr : SocketAddr)
    (isHello isClientAck : Bool) :
    let res := ReaderTxChannel.bufferToConnBuffer b packet addr isHello isClientAck
    res.2.1.waker = b.waker ∧ (res.2.1 = b ∨ res.2.2 = res.2.1.waker) := by
  have hend : ∀ b' : ConnectionBuffer, b'.waker = b.waker →
      let res := (match (b'.setDstConnId packet.header.sourceConnectionId).waker with
        | some w => (.ok (), b'.setDstConnId packet.header.sourceConnectionId, some w)
        | none => (.err .noSuchWakerError, b'.setDstConnId packet.header.sourceConnectionId, none) :
          BluefinResult Unit × (ConnectionBuffer × Option Waker))
      res.2.1.waker = b.waker ∧ (res.2.1 = b ∨ res.2.2 = res.2.1.waker) := by
    intro b' hb'
    split <;> rename_i hw <;> exact ⟨hb', .inr hw.symm⟩
  unfold ReaderTxChannel.bufferToConnBuffer
  by_cases hdata : (!isHello && !isClientAck) = true
  · rcases hres : b.bufferInBytes packet with ⟨r, b'⟩
    obtain ⟨hwaker, rfl | ⟨e, rfl, rfl⟩⟩ := bufferInBytes_err hres
    · simp only [if_pos hdata, Outcome.orReturn]
      exact hend b' hwaker
    · simp only [if_pos hdata, Outcome.orReturn]
      exact ⟨trivial, .inl trivial⟩
  · rcases hres : b.bufferInPacket packet with ⟨r, b'⟩
    obtain ⟨hwaker, rfl | ⟨e, rfl, rfl⟩⟩ := bufferInPacket_err hres
    · simp only [if_neg hdata, Outcome.orReturn]
      exact hend _ ((bufferInAddr_waker b' addr).trans hwaker)
    · simp only [if_neg hdata, Outcome.orReturn]
      exact ⟨trivial, .inl trivial⟩

theorem moves_deliver {st st' : State} {packet : BluefinPacket} {addr : SocketAddr}
    {isHello isClientAck : Bool} (h : Step st (.deliver packet addr isHello isClientAck) st') :
    Moves st (.deliver packet addr isHello isClientAck) st' := by
  obtain ⟨hwaker, hwoken⟩ :=
    bufferToConnBuffer_wakes st.bufs.connBuff packet addr isHello isClientAck
  simp only [Step, step] at h
  split at h
  · rename_i hfree
    cases h
    refine .inserts _ st.producers _ hfree hwaker (List.Subset.refl _) ?_ ?_
    · split
      · exact .inr ⟨_, rfl⟩
      · exact .inl rfl
    · intro hok w hw
      rcases hwoken with hsame | hwoken
      · exact .inl (by rw [← hsame]; exact hok)
      · rw [hwoken, hw]
        exact .inr (.inr rfl)
  · cases h

theorem moves_produce {st st' : State} {i : ℕ} (h : Step st (.produce i) st') :
    Moves st (.produce i) st' := by
  simp only [Step, step] at h
  split at h
  · rename_i pn hi
    obtain ⟨before, after, hat, hset, -⟩ := split_at hi
    rw [hset] at h
    cases h
    exact .sends _ hat
  · rename_i hi
    obtain ⟨before, after, hat, hset, herase⟩ := split_at hi
    split at h
    · rename_i w hfree hwaker
      rw [hset] at h
      cases h
      exact .takes hfree hat hwaker
    · rename_i hfree hwaker
      rw [herase] at h
      cases h
      exact .takesNone hfree hat hwaker
    · cases h
  · rename_i w hi
    obtain ⟨before, after, hat, -, herase⟩ := split_at hi
    rw [herase] at h
    cases h
    exact .wakes hat
  · cases h

theorem moves_of_step {st st' : State} {act : Action} (h : Step st act st') : Moves st act st' := by
  cases act with
  | poll w =>
    simp only [Step, step] at h
    split at h
    · rename_i hfree
      split at h <;> cases h
      · exact .resolves w
      · rename_i hempty
        exact .peeks w hfree (Bool.eq_false_iff.mpr hempty)
    · cases h
  | load =>
    simp only [Step, step] at h
    split at h
    · rename_i w hlock
      cases h
      exact .loads hlock
    · cases h
  | register =>
    simp only [Step, step] at h
    split at h
    · rename_i w hlock
      cases h
      exact .parks hlock
    · cases h
  | consume bytesToRead buf =>
    simp only [Step, step] at h
    split at h
    · rename_i hfree hrunning
      cases h
      exact .consumes _ hfree hrunning
    · cases h
  | consumeBytes out maxPackets =>
    simp only [Step, step] at h
    split at h
    · rename_i hfree hrunning
      cases h
      exact .consumes _ hfree hrunning
    · cases h
  | data packets =>
    simp only [Step, step, ConnReaderHandler.bufferInDataPackets,
      ConnReaderHandler.bufferInData_eq] at h
    split at h
    · rename_i hfree
      cases h
      refine .inserts _ _ st.connLock hfree rfl (List.subset_append_left _ _) (.inl hfree) ?_
      intro _ w hw
      exact .inr (.inl (List.mem_append_right _ (by simpa using hw)))
    · cases h
  | deliver packet addr isHello isClientAck => exact moves_deliver h
  | deliverWake =>
    simp only [Step, step] at h
    split at h
    · rename_i w hlock
      cases h
      exact .wakesLocked hlock
    · cases h
  | close packets =>
    simp only [Step, step] at h
    split at h
    · rename_i hfree
      cases h
      exact .opens packets hfree
    · cases h
  | walk =>
    simp only [Step, step] at h
    split at h
    · rename_i packets sawFin hlock
      cases h
      exact .walks hlock
    · cases h
  | produce i => exact moves_produce h

/-! ### The types that a close call meets -/

/-- The walk comes to a packet of another class after a Fin; `sawFin` is what it has seen before
these types. -/
def Unwoken (sawFin : Bool) : List PacketType → Prop
  | [] => False
  | .fin :: ts => Unwoken true ts
  | .finAck :: ts => Unwoken sawFin ts
  | _ :: _ => sawFin = true

theorem unwoken_other {sawFin : Bool} {t : PacketType} {ts : List PacketType} (h : ¬ IsClose t) :
    Unwoken sawFin (t :: ts) ↔ sawFin = true := by
  cases t with
  | fin => exact absurd (.inl rfl) h
  | finAck => exact absurd (.inr rfl) h
  | _ => rfl

theorem isClose_of_not_unwoken {ts : List PacketType} (h : ¬ Unwoken true ts) :
    ∀ t ∈ ts, IsClose t := by
  induction ts with
  | nil => simp
  | cons t ts ih =>
    have htail : ¬ Unwoken true ts → ∀ u ∈ t :: ts, IsClose t → IsClose u := by
      intro hts u hu ht
      rcases List.mem_cons.mp hu with rfl | hu
      · exact ht
      · exact ih hts u hu
    intro u hu
    by_cases ht : IsClose t
    · rcases ht with rfl | rfl
      · exact htail h u hu (.inl rfl)
      · exact htail h u hu (.inr rfl)
    · exact absurd ((unwoken_other ht).mpr rfl) h

theorem unwoken_iff (sawFin : Bool) (ts : List PacketType) :
    Unwoken sawFin ts ↔ ∃ before t after, ts = before ++ t :: after ∧ (∀ u ∈ before, IsClose u) ∧
      (sawFin = true ∨ .fin ∈ before) ∧ ¬ IsClose t := by
  induction ts generalizing sawFin with
  | nil =>
    constructor
    · exact False.elim
    · rintro ⟨before, t, after, hts, -⟩
      simp at hts
  | cons t ts ih =>
    constructor
    · intro h
      by_cases ht : IsClose t
      · rcases ht with rfl | rfl
        · obtain ⟨before, u, after, rfl, hclose, -, hother⟩ := (ih true).mp h
          exact ⟨.fin :: before, u, after, rfl, by simpa [IsClose] using hclose, by simp, hother⟩
        · obtain ⟨before, u, after, rfl, hclose, hfin, hother⟩ := (ih sawFin).mp h
          exact ⟨.finAck :: before, u, after, rfl, by simpa [IsClose] using hclose,
            hfin.imp_right (List.mem_cons_of_mem _), hother⟩
      · exact ⟨[], t, ts, rfl, by simp, .inl ((unwoken_other ht).mp h), ht⟩
    · rintro ⟨before, u, after, hts, hclose, hfin, hother⟩
      cases before with
      | nil =>
        cases hts
        exact (unwoken_other hother).mpr (by simpa using hfin)
      | cons b before =>
        cases hts
        have htail := fun u hu => hclose u (List.mem_cons_of_mem _ hu)
        rcases hclose t (List.mem_cons_self ..) with rfl | rfl
        · exact (ih true).mpr ⟨before, u, after, rfl, htail, .inl rfl, hother⟩
        · exact (ih sawFin).mpr ⟨before, u, after, rfl, htail, by simpa using hfin, hother⟩

theorem unwoken_false_iff (ts : List PacketType) : Unwoken false ts ↔ OtherAfterFin ts := by
  rw [unwoken_iff, OtherAfterFin]
  simp only [Bool.false_eq_true, false_or]

/-! ### The invariant -/

structure Inv (st : State) : Prop where
  registered : ∀ w, st.reader = .parked w → st.bufs.connBuff.waker = some w
  informed : ∀ w, st.reader = .parked w → Ready st → AboutToWake st w
  empty : ∀ w, st.connLock = .peeked w ∨ st.connLock = .loaded w →
    st.bufs.connBuff.peek.isOk = false
  seen : ∀ w, st.connLock = .loaded w → st.flag = true → FinPending st
  woken : ∀ packets sawFin, st.closeLock = .walking packets sawFin →
    ¬ Unwoken sawFin (types packets)

theorem inv_init (bufs : ConnectionManagedBuffers) : Inv (init bufs) := by
  constructor <;> intros <;> simp_all [init]

theorem wake_parked {reader : Polled} {w w' : Waker} (h : reader.wake w = .parked w') :
    reader = .parked w' ∧ w ≠ w' := by
  unfold Polled.wake at h
  split at h
  · cases h
  · rename_i hne
    refine ⟨h, ?_⟩
    rintro rfl
    exact hne h

theorem FinPending.mono {st st' : State} (h : FinPending st)
    (hlock : st'.closeLock = st.closeLock)
    (htaking : .taking ∈ st.producers → .taking ∈ st'.producers)
    (hsend : ∀ pn, .sendFinAck pn ∈ st.producers → FinPending st') : FinPending st' := by
  rcases h with ⟨packets, hwalk, hclose⟩ | ht | ⟨pn, hpn⟩
  · exact .inl ⟨packets, hlock.trans hwalk, hclose⟩
  · exact .inr (.inl (htaking ht))
  · exact hsend pn hpn

theorem FinPending.walked {st st' : State} (h : FinPending st) {packets : List BluefinPacket}
    {sawFin : Bool} (hlock : st.closeLock = .walking packets sawFin)
    (hproducers : st'.producers = st.producers)
    (hwalking : sawFin = true → (∀ t ∈ types packets, IsClose t) → FinPending st') :
    FinPending st' := by
  rcases h with ⟨packets', hwalk, hclose⟩ | hrest
  · rw [hlock] at hwalk
    cases hwalk
    exact hwalking rfl hclose
  · right
    rw [hproducers]
    exact hrest

theorem AboutToWake.mono {st st' : State} {w : Waker} (h : AboutToWake st w)
    (hlock : st.connLock = .delivering w → st'.connLock = .delivering w)
    (hwaker : st'.bufs.connBuff.waker = st.bufs.connBuff.waker)
    (hwaking : .waking w ∈ st.producers → .waking w ∈ st'.producers)
    (hpending : FinPending st → FinPending st') : AboutToWake st' w := by
  rcases h with hdeliver | hwakes | ⟨hsome, hfin⟩
  · exact .inl (hlock hdeliver)
  · exact .inr (.inl (hwaking hwakes))
  · exact .inr (.inr ⟨hwaker.trans hsome, hpending hfin⟩)

/-- A step that leaves the connection buffer alone. The flag may have been set by a call that is
still to come to its wake, and no other call may have been taken away. -/
theorem Inv.transfer {st st' : State} (hinv : Inv st)
    (hbuff : st'.bufs.connBuff = st.bufs.connBuff)
    (hreader : ∀ w, st'.reader = .parked w → st.reader = .parked w)
    (hpeeked : ∀ w, st'.connLock = .peeked w → st.connLock = .peeked w)
    (hloaded : ∀ w, st'.connLock = .loaded w →
      st.connLock = .loaded w ∨ st.connLock = .peeked w ∧ st'.flag = false)
    (hflag : st'.flag = true → st.flag = true ∨ FinPending st')
    (hwake : ∀ w, st'.reader = .parked w → AboutToWake st w → AboutToWake st' w)
    (hpending : ∀ w, st'.connLock = .loaded w → FinPending st → FinPending st')
    (hwoken : ∀ packets sawFin, st'.closeLock = .walking packets sawFin →
      ¬ Unwoken sawFin (types packets)) : Inv st' := by
  constructor
  case registered =>
    intro w hw
    rw [hbuff]
    exact hinv.registered w (hreader w hw)
  case informed =>
    intro w hw hready
    have hinformed := hinv.informed w (hreader w hw)
    rcases hready with hok | hset
    · rw [hbuff] at hok
      exact hwake w hw (hinformed (.inl hok))
    · rcases hflag hset with hset | hfin
      · exact hwake w hw (hinformed (.inr hset))
      · exact .inr (.inr ⟨by rw [hbuff]; exact hinv.registered w (hreader w hw), hfin⟩)
  case empty =>
    intro w hw
    rw [hbuff]
    rcases hw with hw | hw
    · exact hinv.empty w (.inl (hpeeked w hw))
    · rcases hloaded w hw with hw | ⟨hw, -⟩
      · exact hinv.empty w (.inr hw)
      · exact hinv.empty w (.inl hw)
  case seen =>
    intro w hw hset
    rcases hloaded w hw with hw' | ⟨-, hunset⟩
    · rcases hflag hset with hset | hfin
      · exact hpending w hw (hinv.seen w hw' hset)
      · exact hfin
    · rw [hunset] at hset
      cases hset
  case woken => exact hwoken

theorem Inv.transfer_same {st st' : State} (hinv : Inv st)
    (hbuff : st'.bufs.connBuff = st.bufs.connBuff) (hlock : st'.connLock = st.connLock)
    (hreader : ∀ w, st'.reader = .parked w → st.reader = .parked w)
    (hflag : st'.flag = true → st.flag = true ∨ FinPending st')
    (hwake : ∀ w, st'.reader = .parked w → AboutToWake st w → AboutToWake st' w)
    (hpending : ∀ w, st.connLock = .loaded w → FinPending st → FinPending st')
    (hwoken : ∀ packets sawFin, st'.closeLock = .walking packets sawFin →
      ¬ Unwoken sawFin (types packets)) : Inv st' := by
  apply hinv.transfer hbuff hreader
  case hpeeked => exact fun w hw => hlock.symm.trans hw
  case hloaded => exact fun w hw => .inl (hlock.symm.trans hw)
  case hflag => exact hflag
  case hwake => exact hwake
  case hpending => exact fun w hw => hpending w (hlock.symm.trans hw)
  case hwoken => exact hwoken

theorem Inv.transfer_walk {st st' : State} (hinv : Inv st)
    (hbuff : st'.bufs.connBuff = st.bufs.connBuff) (hlock : st'.connLock = st.connLock)
    (hreader : st'.reader = st.reader) (hsub : st.producers ⊆ st'.producers)
    (hflag : st'.flag = st.flag ∨ FinPending st') (hpending : FinPending st → FinPending st')
    (hwoken : ∀ packets sawFin, st'.closeLock = .walking packets sawFin →
      ¬ Unwoken sawFin (types packets)) : Inv st' := by
  apply hinv.transfer_same hbuff hlock
  case hreader => exact fun w hw => hreader.symm.trans hw
  case hflag => exact fun hset => hflag.imp_left (fun hsame => hsame.symm.trans hset)
  case hwake =>
    intro w _ habout
    exact habout.mono (fun h => hlock.trans h) (by rw [hbuff]) (fun h => hsub h) hpending
  case hpending => exact fun _ _ => hpending
  case hwoken => exact hwoken

/-! ### The steps of the reader -/

theorem inv_load {st : State} (hinv : Inv st) {w : Waker} (hlock : st.connLock = .peeked w) :
    Inv { st with connLock := if st.flag then .free else .loaded w } := by
  apply hinv.transfer
  case hbuff => rfl
  case hreader => exact fun _ hw => hw
  case hpeeked =>
    intro w' hw'
    dsimp only at hw'
    split at hw' <;> cases hw'
  case hloaded =>
    intro w' hw'
    dsimp only at hw'
    split at hw'
    · cases hw'
    · rename_i hunset
      cases hw'
      exact .inr ⟨hlock, Bool.eq_false_iff.mpr hunset⟩
  case hflag => exact .inl
  case hwake => exact fun w _ habout => habout.mono (by simp [hlock]) rfl id id
  case hpending => exact fun _ _ => id
  case hwoken => exact hinv.woken

theorem inv_register {st : State} (hinv : Inv st) {w : Waker} (hlock : st.connLock = .loaded w) :
    Inv { st with bufs.connBuff.waker := some w, connLock := .free, reader := .parked w } := by
  constructor
  case registered => simp
  case informed =>
    intro w' hw' hready
    cases hw'
    rcases hready with hok | hset
    · have hempty := hinv.empty w (.inr hlock)
      have hsame : ({ st.bufs.connBuff with waker := some w } : ConnectionBuffer).peek =
        st.bufs.connBuff.peek := rfl
      rw [hsame, hempty] at hok
      cases hok
    · -- the flag was set after it was loaded, by a call that has yet to take the waker
      have hpending := (hinv.seen w hlock hset).mono rfl id (fun pn h => .inr (.inr ⟨pn, h⟩))
      exact .inr (.inr ⟨rfl, hpending⟩)
  case empty => simp
  case seen => simp
  case woken => exact hinv.woken

/-! ### The steps of the producers -/

theorem inv_insert {st : State} (hinv : Inv st) {connBuff : ConnectionBuffer}
    {producers : List Producer} {lock : ConnLock} (hfree : st.connLock = .free)
    (hwaker : connBuff.waker = st.bufs.connBuff.waker) (hkeep : st.producers ⊆ producers)
    (hlock : lock = .free ∨ ∃ w, lock = .delivering w)
    (hwakes : connBuff.peek.isOk = true → ∀ w, connBuff.waker = some w →
      st.bufs.connBuff.peek.isOk = true ∨ .waking w ∈ producers ∨ lock = .delivering w) :
    Inv { st with bufs.connBuff := connBuff, producers := producers, connLock := lock } := by
  have hpending : FinPending st → FinPending
      { st with bufs.connBuff := connBuff, producers := producers, connLock := lock } :=
    fun h => h.mono rfl (fun ht => hkeep ht) (fun pn hpn => .inr (.inr ⟨pn, hkeep hpn⟩))
  constructor
  case registered => exact fun w hw => hwaker.trans (hinv.registered w hw)
  case informed =>
    intro w hw hready
    have hmono : AboutToWake st w → AboutToWake
        { st with bufs.connBuff := connBuff, producers := producers, connLock := lock } w :=
      fun h => h.mono (by simp [hfree]) hwaker (fun hw => hkeep hw) hpending
    rcases hready with hok | hset
    · rcases hwakes hok w (hwaker.trans (hinv.registered w hw)) with hok | hwaking | hdeliver
      · exact hmono (hinv.informed w hw (.inl hok))
      · exact .inr (.inl hwaking)
      · exact .inl hdeliver
    · exact hmono (hinv.informed w hw (.inr hset))
  case empty => rcases hlock with rfl | ⟨w, rfl⟩ <;> simp
  case seen => rcases hlock with rfl | ⟨w, rfl⟩ <;> simp
  case woken => exact hinv.woken

theorem inv_deliverWake {st : State} (hinv : Inv st) {w : Waker}
    (hlock : st.connLock = .delivering w) :
    Inv { st with reader := st.reader.wake w, connLock := .free } := by
  apply hinv.transfer
  case hbuff => rfl
  case hreader => exact fun _ hw => (wake_parked hw).1
  case hpeeked => simp
  case hloaded => simp
  case hflag => exact .inl
  case hwake =>
    intro w' hw' habout
    have hne := (wake_parked hw').2
    exact habout.mono (by simp [hlock, hne]) rfl id id
  case hpending => simp
  case hwoken => exact hinv.woken

theorem inv_close {st : State} (hinv : Inv st) {packets : List BluefinPacket}
    (hfree : st.closeLock = .free) (hallowed : ¬ OtherAfterFin (types packets)) :
    Inv { st with closeLock := .walking packets false } := by
  apply hinv.transfer_walk
  case hbuff => rfl
  case hlock => rfl
  case hreader => rfl
  case hsub => exact List.Subset.refl _
  case hflag => exact .inl rfl
  case hpending =>
    intro h
    rcases h with ⟨packets', hwalk, -⟩ | hrest
    · rw [hfree] at hwalk
      cases hwalk
    · exact .inr hrest
  case hwoken =>
    intro packets' sawFin h
    cases h
    rw [unwoken_false_iff]
    exact hallowed

/-- The end of the section: a call that saw a Fin is still to wake the reader. -/
theorem inv_walk_nil {st : State} (hinv : Inv st) {sawFin : Bool}
    (hlock : st.closeLock = .walking [] sawFin) : Inv (walk st sawFin []) := by
  cases sawFin with
  | true =>
    have hfin : FinPending (walk st true []) :=
      .inr (.inr ⟨_, List.mem_append_right _ (List.mem_singleton_self _)⟩)
    apply hinv.transfer_walk
    case hbuff => rfl
    case hlock => rfl
    case hreader => rfl
    case hsub => exact List.subset_append_left _ _
    case hflag => exact .inr hfin
    case hpending => exact fun _ => hfin
    case hwoken => simp [walk]
  | false =>
    apply hinv.transfer_walk
    case hbuff => rfl
    case hlock => rfl
    case hreader => rfl
    case hsub => exact List.Subset.refl _
    case hflag => exact .inl rfl
    case hpending =>
      intro h
      apply h.walked hlock
      case hproducers => rfl
      case hwalking => simp
    case hwoken => simp [walk]

theorem inv_walk_cons {st : State} (hinv : Inv st) {p : BluefinPacket}
    {packets : List BluefinPacket} {sawFin : Bool}
    (hlock : st.closeLock = .walking (p :: packets) sawFin) :
    Inv (walk st sawFin (p :: packets)) := by
  have hwoken := hinv.woken (p :: packets) sawFin hlock
  cases hp : p.header.typeField with
  | fin =>
    simp only [walk, hp]
    simp only [types, List.map_cons, hp, Unwoken] at hwoken
    have hfin : FinPending { st with
        bufs.closeBuff := st.bufs.closeBuff.bufferInFin p, closeLock := .walking packets true } :=
      .inl ⟨packets, rfl, isClose_of_not_unwoken hwoken⟩
    apply hinv.transfer_walk
    case hbuff => rfl
    case hlock => rfl
    case hreader => rfl
    case hsub => exact List.Subset.refl _
    case hflag => exact .inr hfin
    case hpending => exact fun _ => hfin
    case hwoken =>
      intro packets' sawFin' h
      cases h
      exact hwoken
  | finAck =>
    simp only [walk, hp]
    simp only [types, List.map_cons, hp, Unwoken] at hwoken
    apply hinv.transfer_walk
    case hbuff => rfl
    case hlock => rfl
    case hreader => rfl
    case hsub => exact List.Subset.refl _
    case hflag => exact .inl rfl
    case hpending =>
      intro h
      apply h.walked hlock
      case hproducers => rfl
      intro hsaw hclose
      exact .inl ⟨packets, by rw [hsaw], fun t ht => hclose t (List.mem_cons_of_mem _ ht)⟩
    case hwoken =>
      intro packets' sawFin' h
      cases h
      exact hwoken
  | _ =>
    simp only [walk, hp]
    apply hinv.transfer_walk
    case hbuff => rfl
    case hlock => rfl
    case hreader => rfl
    case hsub => exact List.Subset.refl _
    case hflag => exact .inl rfl
    case hpending =>
      intro h
      apply h.walked hlock
      case hproducers => rfl
      intro _ hclose
      have hother := hclose p.header.typeField (List.mem_cons_self ..)
      rw [hp] at hother
      rcases hother with hother | hother <;> cases hother
    case hwoken => simp

theorem inv_sendFinAck {st : State} (hinv : Inv st) {pn : Option UInt64}
    {before after : List Producer} (finAckTx : Option (List UInt64))
    (hat : st.producers = before ++ .sendFinAck pn :: after) :
    Inv { st with bufs.finAckTx := finAckTx, producers := before ++ .taking :: after } := by
  have hpending : FinPending
      { st with bufs.finAckTx := finAckTx, producers := before ++ .taking :: after } :=
    .inr (.inl (by simp))
  apply hinv.transfer_same
  case hbuff => rfl
  case hlock => rfl
  case hreader => exact fun _ hw => hw
  case hflag => exact .inl
  case hwake => exact fun w _ habout => habout.mono id rfl (by simp [hat]) (fun _ => hpending)
  case hpending => exact fun _ _ _ => hpending
  case hwoken => exact hinv.woken

theorem inv_take {st : State} (hinv : Inv st) {producers : List Producer}
    (hfree : st.connLock = .free)
    (hwaking : ∀ w, st.bufs.connBuff.waker = some w → .waking w ∈ producers) :
    Inv { st with producers := producers } := by
  apply hinv.transfer_same
  case hbuff => rfl
  case hlock => rfl
  case hreader => exact fun _ hw => hw
  case hflag => exact .inl
  case hwake => exact fun w hw _ => .inr (.inl (hwaking w (hinv.registered w hw)))
  case hpending => simp [hfree]
  case hwoken => exact hinv.woken

theorem inv_wake {st : State} (hinv : Inv st) {before after : List Producer} {w : Waker}
    (hat : st.producers = before ++ .waking w :: after) :
    Inv { st with reader := st.reader.wake w, producers := before ++ after } := by
  have hpending : FinPending st → FinPending
      { st with reader := st.reader.wake w, producers := before ++ after } := by
    intro h
    exact h.mono rfl (by simp [hat]) (fun pn hpn => .inr (.inr ⟨pn, by simpa [hat] using hpn⟩))
  apply hinv.transfer_same
  case hbuff => rfl
  case hlock => rfl
  case hreader => exact fun _ hw => (wake_parked hw).1
  case hflag => exact .inl
  case hwake =>
    intro w' hw' habout
    have hne := (wake_parked hw').2
    exact habout.mono id rfl (by simp [hat, hne.symm]) hpending
  case hpending => exact fun _ _ => hpending
  case hwoken => exact hinv.woken

/-! ### All interleavings -/

theorem inv_step {st st' : State} {act : Action} (hinv : Inv st)
    (hallowed : ∀ packets, act = .close packets → ¬ OtherAfterFin (types packets))
    (h : Step st act st') : Inv st' := by
  cases moves_of_step h with
  | resolves w => exact ⟨by simp, by simp, hinv.empty, hinv.seen, hinv.woken⟩
  | peeks w hfree hempty => exact ⟨by simp, by simp, fun _ _ => hempty, by simp, hinv.woken⟩
  | loads hlock => exact inv_load hinv hlock
  | parks hlock => exact inv_register hinv hlock
  | consumes connBuff hfree hrunning =>
    exact ⟨by simp [hrunning], by simp [hrunning], by simp [hfree], by simp [hfree], hinv.woken⟩
  | inserts connBuff producers lock hfree hwaker hkeep hlock hwakes =>
    exact inv_insert hinv hfree hwaker hkeep hlock hwakes
  | wakesLocked hlock => exact inv_deliverWake hinv hlock
  | opens packets hfree => exact inv_close hinv hfree (hallowed packets rfl)
  | @walks packets sawFin hlock =>
    cases packets with
    | nil => exact inv_walk_nil hinv hlock
    | cons p packets => exact inv_walk_cons hinv hlock
  | sends finAckTx hat => exact inv_sendFinAck hinv finAckTx hat
  | takes hfree hat hwaker => exact inv_take hinv hfree (by simp [hwaker])
  | takesNone hfree hat hwaker => exact inv_take hinv hfree (by simp [hwaker])
  | wakes hat => exact inv_wake hinv hat

theorem inv_run {bufs : ConnectionManagedBuffers} {acts : List Action} {st : State}
    (hallowed : ∀ packets, .close packets ∈ acts → ¬ OtherAfterFin (types packets))
    (hr : Run Step (init bufs) acts st) : Inv st := by
  induction hr with
  | nil => exact inv_init bufs
  | snoc _ hs ih =>
    apply inv_step (ih (fun packets hmem => hallowed packets (List.mem_append_left _ hmem))) ?_ hs
    rintro packets rfl
    exact hallowed packets (List.mem_append_right _ (List.mem_singleton_self _))

/-! ### Calls that are left alone -/

/-- The steps of a poll in one go do what `Reader.poll` does. -/
theorem poll_run (st : State) (hfree : st.connLock = .free) (w : Waker) (t : Reader.Task)
    (c : Reader.ReadCall) :
    ∃ acts, Run Step st acts { st with
      bufs := (Reader.poll w st.bufs t c).1
      reader := if (Reader.poll w st.bufs t c).2.pc = .parked c then .parked w else .running } := by
  have hpoll : st.bufs.connBuff.peek.isOk = true → Step st (.poll w) { st with reader := .running } := by
    intro hok
    simp only [Step, step, hfree, hok, if_true]
  have hpeek : st.bufs.connBuff.peek.isOk = false →
      Run Step st [.poll w] { st with reader := .running, connLock := .peeked w } := by
    intro hempty
    refine .snoc .nil ?_
    simp [Step, step, hfree, hempty]
  unfold Reader.poll
  split
  · rename_i hok
    exact ⟨[.poll w], by simpa using .snoc .nil (hpoll (by rw [hok]; rfl))⟩
  · rename_i hempty
    have hempty := hpeek (Outcome.isOk_eq_false hempty)
    by_cases hflag : st.bufs.closeBuff.peerFinObserved = true
    · refine ⟨[.poll w, .load], ?_⟩
      have hload := hempty.snoc (e := .load) (t := { st with reader := .running })
        (by simp [Step, step, State.flag, hflag, hfree])
      simpa [hflag] using hload
    · refine ⟨[.poll w, .load, .register], ?_⟩
      have hload := hempty.snoc (e := .load)
        (t := { st with reader := .running, connLock := .loaded w })
        (by simp [Step, step, State.flag, hflag])
      have hregister := hload.snoc (e := .register) (t := { st with
        bufs.connBuff := st.bufs.connBuff.setWakerIfChanged w, reader := .parked w })
        (by simp [Step, step, hfree])
      simpa [hflag] using hregister

theorem walk_run (st : State) {packets : List BluefinPacket} {sawFin : Bool}
    (hlock : st.closeLock = .walking packets sawFin) :
    ∃ n, Run Step st (List.replicate n .walk) { st with
      bufs.closeBuff := (ConnReaderHandler.bufferInClose st.bufs.closeBuff sawFin packets).2
      closeLock := match (ConnReaderHandler.bufferInClose st.bufs.closeBuff sawFin packets).1 with
        | .ok sawFin => .walking [] sawFin
        | _ => .poisoned } := by
  induction packets generalizing st sawFin with
  | nil =>
    refine ⟨0, ?_⟩
    simp only [ConnReaderHandler.bufferInClose, ← hlock]
    exact .nil
  | cons p packets ih =>
    have hfirst : Run Step st [.walk] (walk st sawFin (p :: packets)) := by
      refine .snoc .nil ?_
      simp only [Step, step, hlock]
    have hrest : ∀ closeBuff sawFin', walk st sawFin (p :: packets) = { st with
          bufs.closeBuff := closeBuff, closeLock := .walking packets sawFin' } →
        ConnReaderHandler.bufferInClose st.bufs.closeBuff sawFin (p :: packets) =
          ConnReaderHandler.bufferInClose closeBuff sawFin' packets →
        ∃ n, Run Step st (List.replicate n .walk) { st with
          bufs.closeBuff :=
            (ConnReaderHandler.bufferInClose st.bufs.closeBuff sawFin (p :: packets)).2
          closeLock :=
            match (ConnReaderHandler.bufferInClose st.bufs.closeBuff sawFin (p :: packets)).1 with
            | .ok sawFin => .walking [] sawFin
            | _ => .poisoned } := by
      intro closeBuff sawFin' hwalk hclose
      rw [hwalk] at hfirst
      obtain ⟨n, hn⟩ := ih { st with
        bufs.closeBuff := closeBuff, closeLock := .walking packets sawFin' } rfl
      rw [hclose]
      exact ⟨n + 1, hfirst.append hn⟩
    cases hp : p.header.typeField with
    | fin =>
      apply hrest (st.bufs.closeBuff.bufferInFin p) true
      · simp only [walk, hp]
      · simp only [ConnReaderHandler.bufferInClose, hp]
    | finAck =>
      apply hrest (st.bufs.closeBuff.bufferInFinAck p) sawFin
      · simp only [walk, hp]
      · simp only [ConnReaderHandler.bufferInClose, hp]
    | _ =>
      simp only [walk, hp] at hfirst
      refine ⟨1, ?_⟩
      simp only [ConnReaderHandler.bufferInClose, hp]
      exact hfirst

theorem wakeReader_run (st : State) (hconn : st.connLock = .free) (pn : Option UInt64) :
    ∃ acts, Run Step { st with producers := st.producers ++ [.sendFinAck pn] } acts { st with
      bufs.finAckTx := ConnReaderHandler.trySendFinAck st.bufs.finAckTx pn
      reader := match st.bufs.connBuff.waker with
        | some w => st.reader.wake w
        | none => st.reader } := by
  have hsend : Run Step { st with producers := st.producers ++ [.sendFinAck pn] }
      [.produce st.producers.length] { st with
        bufs.finAckTx := ConnReaderHandler.trySendFinAck st.bufs.finAckTx pn
        producers := st.producers ++ [.taking] } := by
    refine .snoc .nil ?_
    simp [Step, step]
  cases hwaker : st.bufs.connBuff.waker with
  | none =>
    refine ⟨_, hsend.snoc (e := .produce st.producers.length) ?_⟩
    simp [Step, step, hconn, hwaker, List.eraseIdx_append_of_length_le]
  | some w =>
    have htake := hsend.snoc (e := .produce st.producers.length) (t := { st with
        bufs.finAckTx := ConnReaderHandler.trySendFinAck st.bufs.finAckTx pn
        producers := st.producers ++ [.waking w] }) (by simp [Step, step, hconn, hwaker])
    refine ⟨_, htake.snoc (e := .produce st.producers.length) ?_⟩
    simp [Step, step, List.eraseIdx_append_of_length_le]

theorem close_run (st : State) (hclose : st.closeLock = .free) (hconn : st.connLock = .free)
    (packets : List BluefinPacket) :
    ∃ acts lock, Run Step st (.close packets :: acts) { st with
      bufs := (ConnReaderHandler.bufferInClosePackets st.bufs packets).2.1
      closeLock := lock
      reader := match (ConnReaderHandler.bufferInClosePackets st.bufs packets).2.2 with
        | some w => st.reader.wake w
        | none => st.reader } := by
  have hopen : Run Step st [.close packets] { st with closeLock := .walking packets false } := by
    refine .snoc .nil ?_
    simp only [Step, step, hclose]
  obtain ⟨n, hwalks⟩ := walk_run { st with closeLock := .walking packets false } rfl
  have hsection := hopen.append hwalks
  unfold ConnReaderHandler.bufferInClosePackets
  rcases hres : ConnReaderHandler.bufferInClose st.bufs.closeBuff false packets with ⟨res, closeBuff⟩
  rw [hres] at hsection
  cases res with
  | ok sawFin =>
    cases sawFin with
    | true =>
      have hend := hsection.snoc (e := .walk) (t := { st with
        bufs.closeBuff := closeBuff.takePendingFinAckSend.2
        producers := st.producers ++ [.sendFinAck closeBuff.takePendingFinAckSend.1] })
        (by simp [Step, step, walk, hclose])
      obtain ⟨acts, hwake⟩ := wakeReader_run { st with
        bufs.closeBuff := closeBuff.takePendingFinAckSend.2 } hconn
        closeBuff.takePendingFinAckSend.1
      exact ⟨_, st.closeLock, hend.append hwake⟩
    | false =>
      have hend := hsection.snoc (e := .walk) (t := { st with bufs.closeBuff := closeBuff })
        (by simp [Step, step, walk, hclose])
      exact ⟨_, st.closeLock, hend⟩
  | err e => exact ⟨_, _, hsection⟩
  | panicked f => exact ⟨_, _, hsection⟩

/-! ### The lost wake-up -/

theorem bufferInClose_unwoken {b : CloseBuffer} {sawFin : Bool} {packets : List BluefinPacket}
    (h : Unwoken sawFin (types packets))
    (hb : b.peerFinObserved = true ∨ b.state = .active ∧ sawFin = false) :
    (ConnReaderHandler.bufferInClose b sawFin packets).1 =
        .panicked (.raised .unreachableClosePacket) ∧
      (ConnReaderHandler.bufferInClose b sawFin packets).2.peerFinObserved = true := by
  induction packets generalizing b sawFin with
  | nil => exact absurd h id
  | cons p packets ih =>
    unfold ConnReaderHandler.bufferInClose
    cases hp : p.header.typeField with
    | fin =>
      have htail : Unwoken true (types packets) := by
        simpa only [types, List.map_cons, hp, Unwoken] using h
      refine ih htail (.inl ?_)
      rcases hb with hset | ⟨hactive, -⟩
      · exact CloseBuffer.bufferInFin_flag b p hset
      · simp only [CloseBuffer.bufferInFin, hactive]
    | finAck =>
      have htail : Unwoken sawFin (types packets) := by
        simpa only [types, List.map_cons, hp, Unwoken] using h
      exact ih htail hb
    | _ =>
      have hsaw : sawFin = true := by
        simpa only [types, List.map_cons, hp, Unwoken] using h
      refine ⟨rfl, ?_⟩
      rcases hb with hset | ⟨-, hnot⟩
      · exact hset
      · rw [hnot] at hsaw
        cases hsaw

def freshBufs : ConnectionManagedBuffers := ⟨.new 0 .client, .new 0, .new, none⟩

def parkedFresh : State where
  bufs := { freshBufs with connBuff.waker := some 0 }
  connLock := .free
  closeLock := .free
  producers := []
  reader := .parked 0

theorem parkedFresh_run : Run Step (init freshBufs) [.poll 0, .load, .register] parkedFresh :=
  Run.of_foldlM _ (fun _ _ _ _ h => h) rfl

theorem lost_of_otherAfterFin {packets : List BluefinPacket} (h : OtherAfterFin (types packets)) :
    ∃ n st, Run Step (init freshBufs)
        ([.poll 0, .load, .register, .close packets] ++ List.replicate n .walk) st ∧
      LostWakeUp st := by
  obtain ⟨hpanics, hset⟩ := bufferInClose_unwoken (b := .new) ((unwoken_false_iff _).mpr h)
    (.inr ⟨rfl, rfl⟩)
  have hopen : Run Step (init freshBufs) [.poll 0, .load, .register, .close packets]
      { parkedFresh with closeLock := .walking packets false } := parkedFresh_run.snoc rfl
  obtain ⟨n, hwalks⟩ := walk_run { parkedFresh with closeLock := .walking packets false } rfl
  refine ⟨n, _, hopen.append hwalks, 0, rfl, ?_, .inr hset⟩
  rintro (hdeliver | hwaking | ⟨-, ⟨packets', hwalk, -⟩ | htaking | ⟨pn, hsend⟩⟩)
  · cases hdeliver
  · cases hwaking
  · change (match (ConnReaderHandler.bufferInClose .new false packets).1 with
      | .ok sawFin => CloseLock.walking [] sawFin
      | _ => .poisoned) = .walking packets' true at hwalk
    rw [hpanics] at hwalk
    cases hwalk
  · cases htaking
  · cases hsend

/-- With close calls for the allowed packets only, no interleaving from any state of the
buffers has a lost wake-up, exactly if no allowed list has a packet of another class
after a Fin. -/
theorem no_lost_wake_up_iff (allowed : List BluefinPacket → Prop) :
    (∀ bufs acts st, (∀ packets, .close packets ∈ acts → allowed packets) →
      Run Step (init bufs) acts st → ¬ LostWakeUp st) ↔
    ∀ packets, allowed packets → ¬ OtherAfterFin (types packets) := by
  constructor
  · intro h packets hallowed hother
    obtain ⟨n, st, hr, hlost⟩ := lost_of_otherAfterFin hother
    refine h freshBufs _ st ?_ hr hlost
    intro packets' hmem
    obtain rfl : packets' = packets := by simpa using hmem
    exact hallowed
  · rintro h bufs acts st hacts hr ⟨w, hparked, hnone, hready⟩
    have hinv := inv_run (fun packets hmem => h packets (hacts packets hmem)) hr
    exact hnone (hinv.informed w hparked hready)

def finThenData : List BluefinPacket :=
  [⟨(BluefinHeader.new 1 2 .fin 0 .default).withPacketNumber 7, []⟩,
    ⟨(BluefinHeader.new 1 2 .unencryptedData 1 .default).withPacketNumber 8, [0]⟩]

/-- The call panics after it has set the flag, and the reader stays parked. -/
theorem fin_then_data_loses :
    ∃ st, Run Step (init freshBufs)
        [.poll 0, .load, .register, .close finThenData, .walk, .walk] st ∧
      LostWakeUp st ∧ st.closeLock = .poisoned ∧ st.producers = [] ∧ st.flag = true := by
  have hcomputed : ([Action.poll 0, .load, .register, .close finThenData, .walk, .walk].foldlM step
      (init freshBufs)).map (fun st =>
        (st.reader, st.connLock, st.closeLock, st.producers, st.flag)) =
      some (.parked 0, .free, .poisoned, [], true) := by decide +kernel
  obtain ⟨st, hr, hst⟩ := Run.exists_of_foldlM _ _ (fun _ _ _ _ h => h) hcomputed
  simp only [Prod.mk.injEq] at hst
  obtain ⟨hreader, hconn, hclose, hproducers, hflag⟩ := hst
  refine ⟨st, hr, ⟨0, hreader, ?_, .inr hflag⟩, hclose, hproducers, hflag⟩
  simp [AboutToWake, FinPending, hconn, hclose, hproducers]

end WakeUp

end Bluefin
