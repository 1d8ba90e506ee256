import Bluefin.Worker.AckPath
import Bluefin.Worker.ReaderTx
import Bluefin.Utils.WindowRange

/-!
# The waker of the ack consumer (net/ack_handler.rs)

The task of `AckConsumer::run`, and any number of calls of `buffer_in_ack_packets` and
`buffer_to_ack_buffer` that put acks into its window. The first of these drops the
mutex before it calls the waker, so the call is a step of its own; the second calls it
under the mutex, but returns at once when `insert_range` fails. A range that overlaps
may have put the number the consumer waits for into the window by then.
-/

namespace Bluefin
open Base

namespace AckWake

/-- Who holds the mutex of the ack buffer: a `buffer_to_ack_buffer` before its call of the waker.
Every other section is one step. -/
inductive AckLock where
  | free
  | delivering (w : Waker)
  deriving DecidableEq, Repr

/-- At `storing` the future has returned and `run` is about to store. At `parked` the last poll
returned `Pending`, and the waker of its context has not been called since. -/
inductive ConsumerPc where
  | running
  | storing (res : SlidingWindowConsumeResult)
  | parked (w : Waker)
  deriving DecidableEq, Repr

def ConsumerPc.wake (c : ConsumerPc) (w : Waker) : ConsumerPc :=
  if c = .parked w then .running else c

/-- The wakers that calls have cloned and not yet called are `producers`, the values of
`largest_recv_acked_packet_num` are `stored`, and the numbers that were ever put into the window,
which the program does not keep, are `seen`. -/
structure State where
  ackBuff : AckBuffer
  lock : AckLock
  producers : List Waker
  consumer : ConsumerPc
  stored : List UInt64
  seen : List UInt64

def init (first : UInt64) : State where
  ackBuff := .new first
  lock := .free
  producers := []
  consumer := .running
  stored := []
  seen := []

abbrev State.window (st : State) : SlidingWindow := st.ackBuff.receivedAcks

def newIn (w w' : SlidingWindow) : List UInt64 :=
  w'.orderedPacketNumbers.filter fun n => !w.orderedPacketNumbers.contains n

/-- A poll may come at any time while the future is not ready. -/
inductive Action where
  | poll (w : Waker)
  | store
  | acks (packets : List BluefinPacket)
  | ack (packet : BluefinPacket)
  | deliverWake
  | produce (i : ℕ)

def step (st : State) : Action → Option State
  | .poll w => match st.lock, st.consumer with
    | .delivering _, _ => none
    | .free, .storing _ => none
    | .free, _ => match st.ackBuff.poll w with
      | (some res, b) => some { st with ackBuff := b, consumer := .storing res }
      | (none, b) => some { st with ackBuff := b, consumer := .parked w }
  | .store => match st.consumer with
    | .storing res => some { st with
        consumer := .running, stored := st.stored ++ [res.largestPacketNumber] }
    | _ => none
  | .acks packets => match st.lock with
    | .delivering _ => none
    | .free =>
      let (_, b, woken) := ConnReaderHandler.bufferInAckPackets st.ackBuff packets
      some { st with
        ackBuff := b
        producers := st.producers ++ woken.toList
        seen := st.seen ++ newIn st.window b.receivedAcks }
  | .ack packet => match st.lock with
    | .delivering _ => none
    | .free =>
      let (_, b, woken) := ReaderTxChannel.bufferToAckBuffer st.ackBuff packet
      some { st with
        ackBuff := b
        lock := woken.elim .free .delivering
        seen := st.seen ++ newIn st.window b.receivedAcks }
  | .deliverWake => match st.lock with
    | .delivering w => some { st with lock := .free, consumer := st.consumer.wake w }
    | .free => none
  | .produce i => st.producers[i]?.map fun w => { st with
      producers := st.producers.eraseIdx i, consumer := st.consumer.wake w }

def Step (st : State) (act : Action) (st' : State) : Prop := step st act = some st'

def StepWhen (allowed : State → Action → Prop) (st : State) (act : Action) (st' : State) : Prop :=
  allowed st act ∧ Step st act st'

theorem step_deterministic (st : State) (act : Action) (t u : State) (ht : Step st act t)
    (hu : Step st act u) : t = u :=
  Option.some.inj (ht.symm.trans hu)

/-! ### What the two producers do to the buffer -/

theorem bufferInAcks_eq (b : AckBuffer) (e : Option BluefinError) (packets : List BluefinPacket) :
    (ConnReaderHandler.bufferInAcks b e packets).2 =
      { b with receivedAcks := packets.foldl (fun w p =>
          (w.insertRange p.header.packetNumber p.header.typeSpecificPayload).2) b.receivedAcks } := by
  induction packets generalizing b e with
  | nil => rfl
  | cons p packets ih =>
    unfold ConnReaderHandler.bufferInAcks
    simp only [AckBuffer.bufferInAckPacket]
    split
    · rename_i err b' heq
      rw [ih, ← (Prod.mk.inj heq).2]
      rfl
    · rename_i res b' _ heq
      rw [ih, ← (Prod.mk.inj heq).2]
      rfl

/-- Insertions into a sound window: numbers are added, and nothing else happens. -/
structure Grows (w w' : SlidingWindow) : Prop where
  sound : w'.Sound
  smallest : w'.smallestExpectedPacketNumber = w.smallestExpectedPacketNumber
  kept : ∀ n ∈ w.orderedPacketNumbers, n ∈ w'.orderedPacketNumbers

theorem grows_insertRange {w : SlidingWindow} (h : w.Sound) (base : UInt64) (count : UInt16) :
    Grows w (w.insertRange base count).2 := by
  have hext := SlidingWindow.insertRange_extends h base count
  exact ⟨hext.sound, hext.smallest, hext.kept⟩

theorem grows_foldl {w : SlidingWindow} (h : w.Sound) (packets : List BluefinPacket) :
    Grows w (packets.foldl (fun w p =>
      (w.insertRange p.header.packetNumber p.header.typeSpecificPayload).2) w) := by
  induction packets generalizing w with
  | nil => exact ⟨h, rfl, fun _ hn => hn⟩
  | cons p packets ih =>
    have hone := grows_insertRange h p.header.packetNumber p.header.typeSpecificPayload
    have hrest := ih hone.sound
    exact ⟨hrest.sound, hrest.smallest.trans hone.smallest,
      fun n hn => hrest.kept n (hone.kept n hn)⟩

theorem bufferToAckBuffer_eq (b : AckBuffer) (packet : BluefinPacket) :
    (ReaderTxChannel.bufferToAckBuffer b packet).2 =
      ({ b with receivedAcks := (b.receivedAcks.insertRange packet.header.packetNumber
          packet.header.typeSpecificPayload).2 },
        if (b.receivedAcks.insertRange packet.header.packetNumber
          packet.header.typeSpecificPayload).1.isOk then b.waker else none) := by
  unfold ReaderTxChannel.bufferToAckBuffer AckBuffer.bufferInAckPacket
  rcases b.receivedAcks.insertRange packet.header.packetNumber
    packet.header.typeSpecificPayload with ⟨res, acks⟩
  cases res with
  | ok u =>
    simp only [Outcome.orReturn, Outcome.isOk, if_true]
    cases b.waker <;> rfl
  | err e => rfl
  | panicked f => rfl

/-! ### What one step can do -/

inductive Moves (st : State) : Action → State → Prop
  | ready {w : Waker} {res : SlidingWindowConsumeResult} {b : AckBuffer} (hlock : st.lock = .free)
      (hpc : ∀ res, st.consumer ≠ .storing res) (hpoll : st.ackBuff.poll w = (some res, b)) :
      Moves st (.poll w) { st with ackBuff := b, consumer := .storing res }
  | parks {w : Waker} {b : AckBuffer} (hlock : st.lock = .free)
      (hpc : ∀ res, st.consumer ≠ .storing res) (hpoll : st.ackBuff.poll w = (none, b)) :
      Moves st (.poll w) { st with ackBuff := b, consumer := .parked w }
  | stores {res : SlidingWindowConsumeResult} (hpc : st.consumer = .storing res) :
      Moves st .store { st with
        consumer := .running, stored := st.stored ++ [res.largestPacketNumber] }
  | acks {packets : List BluefinPacket} {window : SlidingWindow} (hlock : st.lock = .free)
      (hwindow : window = packets.foldl (fun w p =>
        (w.insertRange p.header.packetNumber p.header.typeSpecificPayload).2) st.window) :
      Moves st (.acks packets) { st with
        ackBuff := { st.ackBuff with receivedAcks := window }
        producers := st.producers ++ st.ackBuff.waker.toList
        seen := st.seen ++ newIn st.window window }
  | ack {packet : BluefinPacket} {window : SlidingWindow} {res : BluefinResult Unit}
      (hlock : st.lock = .free)
      (hinsert : st.window.insertRange packet.header.packetNumber
        packet.header.typeSpecificPayload = (res, window)) :
      Moves st (.ack packet) { st with
        ackBuff := { st.ackBuff with receivedAcks := window }
        lock := (if res.isOk then st.ackBuff.waker else none).elim .free .delivering
        seen := st.seen ++ newIn st.window window }
  | delivers {w : Waker} (hlock : st.lock = .delivering w) :
      Moves st .deliverWake { st with lock := .free, consumer := st.consumer.wake w }
  | wakes {i : ℕ} {w : Waker} {pre post : List Waker} (hsplit : st.producers = pre ++ w :: post) :
      Moves st (.produce i) { st with
        producers := pre ++ post, consumer := st.consumer.wake w }

theorem moves_of_step {st st' : State} {act : Action} (h : step st act = some st') :
    Moves st act st' := by
  obtain ⟨ackBuff, lock, producers, consumer, stored, seen⟩ := st
  cases act with
  | poll w =>
    cases lock with
    | delivering => cases h
    | free =>
      rcases hpoll : ackBuff.poll w with ⟨res, b⟩
      cases consumer with
      | storing => cases h
      | running | parked =>
        simp only [step, hpoll] at h
        cases res with
        | some res =>
          cases h
          exact .ready rfl (by simp) hpoll
        | none =>
          cases h
          exact .parks rfl (by simp) hpoll
  | store =>
    cases consumer with
    | storing res =>
      cases h
      exact .stores rfl
    | running | parked => cases h
  | acks packets =>
    cases lock with
    | delivering => cases h
    | free =>
      simp only [step, ConnReaderHandler.bufferInAckPackets, bufferInAcks_eq] at h
      cases h
      exact .acks rfl rfl
  | ack packet =>
    cases lock with
    | delivering => cases h
    | free =>
      simp only [step, bufferToAckBuffer_eq] at h
      cases h
      exact .ack rfl rfl
  | deliverWake =>
    cases lock with
    | delivering w =>
      cases h
      exact .delivers rfl
    | free => cases h
  | produce i =>
    obtain ⟨w, hw, rfl⟩ := Option.map_eq_some_iff.mp h
    obtain ⟨pre, post, hsplit, -, herase⟩ := split_at hw
    dsimp only at hsplit herase ⊢
    rw [herase]
    exact .wakes hsplit

/-! ### A range that fails after the number that is waited for -/

/-- The range begins with the number that the window waits for and runs into one that
the window has. -/
structure FillsHead (w : SlidingWindow) (base : UInt64) (count : UInt16) : Prop where
  head : base = w.smallestExpectedPacketNumber
  missing : base ∉ w.orderedPacketNumbers
  fits : base.toNat + count.toNat ≤ 2 ^ 64
  near : count.toNat ≤ maxSlidingWindowSize
  overlaps : ∃ n ∈ w.orderedPacketNumbers, n.toNat < base.toNat + count.toNat

section

open SlidingWindow

variable {w : SlidingWindow} {base : UInt64} {count : UInt16}

theorem insertRange_low (h : base < w.smallestExpectedPacketNumber) :
    (w.insertRange base count).2 = w := by
  unfold insertRange
  by_cases hcount : count = 0
  · rw [if_pos hcount]
  · rw [if_neg hcount, if_pos h]

theorem insertRange_far (hcount : count ≠ 0)
    (h : (base + count.toUInt64 - 1 - w.smallestExpectedPacketNumber).toNat ≥
      maxSlidingWindowSize) : (w.insertRange base count).2 = w := by
  unfold insertRange
  rw [if_neg hcount]
  split
  · rfl
  · dsimp only
    rw [if_pos h]

theorem range_of_head (h : w.Sound) (hmissing : w.smallestExpectedPacketNumber ∉
      w.orderedPacketNumbers)
    (hin : w.smallestExpectedPacketNumber ∈ (w.insertRange base count).2.orderedPacketNumbers) :
    base = w.smallestExpectedPacketNumber ∧ base.toNat + count.toNat ≤ 2 ^ 64 ∧
      count.toNat ≤ maxSlidingWindowSize := by
  have hsource := (insertRange_extends h base count).source _ hin
  have hcount : count ≠ 0 := by
    rintro rfl
    simp only [if_true] at hsource
    exact hsource.elim hmissing (List.not_mem_nil)
  rw [if_neg hcount] at hsource
  obtain ⟨hlow, hlast⟩ := mem_rangeInclusive.mp (hsource.resolve_left hmissing)
  have hbase : base = w.smallestExpectedPacketNumber := by
    by_contra hne
    have hlt : base < w.smallestExpectedPacketNumber := by
      have hne' : base.toNat ≠ w.smallestExpectedPacketNumber.toNat :=
        fun he => hne (UInt64.toNat_inj.mp he)
      rw [UInt64.lt_iff_toNat_lt]
      omega
    rw [insertRange_low hlt] at hin
    exact hmissing hin
  have hpos : count.toNat ≠ 0 := fun he => hcount (UInt16.toNat_inj.mp he)
  have hbound := count.toNat_lt
  have hmax := base.toNat_lt
  have hfits : base.toNat + count.toNat ≤ 2 ^ 64 := by
    by_contra hover
    rw [← hbase, UInt64.toNat_sub, UInt64.toNat_add, UInt16.toNat_toUInt64,
      UInt64.toNat_one] at hlast
    omega
  refine ⟨hbase, hfits, ?_⟩
  by_contra hfar
  have hahead := aheadOfRange hcount hfits (Nat.le_of_eq (congrArg UInt64.toNat hbase.symm))
  rw [insertRange_far hcount (by rw [hahead, hbase]; omega)] at hin
  exact hmissing hin

theorem fillsHead_of_failed (h : w.Sound) (hmissing : w.smallestExpectedPacketNumber ∉
      w.orderedPacketNumbers) (hfailed : (w.insertRange base count).1.isOk = false)
    (hin : w.smallestExpectedPacketNumber ∈ (w.insertRange base count).2.orderedPacketNumbers) :
    FillsHead w base count := by
  obtain ⟨hbase, hfits, hnear⟩ := range_of_head h hmissing hin
  refine ⟨hbase, hbase ▸ hmissing, hfits, hnear, ?_⟩
  by_contra hnone
  have hok := (insertRange_isOk_iff h hfits).mpr fun n hle hlt => by
    refine ⟨⟨by rwa [← hbase], ?_⟩, fun hn => hnone ⟨n, hn, hlt⟩⟩
    rw [← hbase]
    omega
  rw [hfailed] at hok
  cases hok

theorem FillsHead.fails (h : w.Sound) (hfill : FillsHead w base count) :
    (w.insertRange base count).1.isOk = false := by
  obtain ⟨n, hn, hlt⟩ := hfill.overlaps
  rw [← Bool.not_eq_true, insertRange_isOk_iff h hfill.fits]
  intro hall
  have hle := (h.within n hn).1
  rw [← hfill.head] at hle
  exact (hall n hle hlt).2 hn

theorem FillsHead.adds (h : w.Sound) (hfill : FillsHead w base count) :
    w.smallestExpectedPacketNumber ∈ (w.insertRange base count).2.orderedPacketNumbers := by
  obtain ⟨n, hn, hlt⟩ := hfill.overlaps
  have hle := (h.within n hn).1
  have hhead := hfill.head
  have hnear := hfill.near
  rw [← hhead] at hle
  obtain ⟨k, hk⟩ : ∃ k, count.toNat = k + 1 := ⟨count.toNat - 1, by omega⟩
  rw [insertRange_inside h hfill.fits (Nat.le_of_eq (congrArg UInt64.toNat hhead.symm))
    (by rw [← hhead]; omega), insertOneByOne, numbersFrom, hk, List.range_succ_eq_map,
    List.map_cons, ← hhead]
  have hin : w.InWindow (base + UInt64.ofNat 0) := by
    rw [show base + UInt64.ofNat 0 = base from by simp]
    exact ⟨Nat.le_of_eq (congrArg UInt64.toNat hhead.symm), by rw [← hhead]; omega⟩
  have hfirst := insertPacketNumber_cases h (base + UInt64.ofNat 0)
  have hsound := (insertPacketNumber_extends h (base + UInt64.ofNat 0)).sound
  rw [show base + UInt64.ofNat 0 = base from by simp] at hin hfirst hsound ⊢
  rcases hfirst with ⟨-, -, heq⟩ | ⟨hbad, -, -⟩
  · rw [heq] at hsound
    rw [insertEach, heq]
    exact (insertEach_extends hsound _).kept _ ((mem_insertSorted _ _ _).mpr (.inl rfl))
  · exact absurd ⟨hin, hfill.missing⟩ hbad

end

/-! ### No lost wake-up -/

structure Inv (st : State) : Prop where
  sound : st.window.Sound
  registered : ∀ w, st.consumer = .parked w → st.ackBuff.waker = some w

/-- A parked consumer that could go on is about to be woken. -/
def Informed (st : State) : Prop :=
  ∀ w, st.consumer = .parked w →
    st.window.smallestExpectedPacketNumber ∈ st.window.orderedPacketNumbers →
    w ∈ st.producers ∨ st.lock = .delivering w

/-- `buffer_to_ack_buffer` gets no overlapping range with the number that a parked
consumer waits for, unless a wake-up is due anyway. -/
def HeadSafe (st : State) : Action → Prop
  | .ack packet => ∀ w, st.consumer = .parked w →
      FillsHead st.window packet.header.packetNumber packet.header.typeSpecificPayload →
      w ∈ st.producers
  | _ => True

theorem wake_parked {c : ConsumerPc} {w v : Waker} (h : c.wake w = .parked v) :
    c = .parked v ∧ v ≠ w := by
  unfold ConsumerPc.wake at h
  split at h
  · cases h
  · rename_i hne
    exact ⟨h, fun he => hne (by rw [h, he])⟩

theorem poll_cases {b : AckBuffer} (h : b.receivedAcks.Sound) (w : Waker) :
    (b.receivedAcks.smallestExpectedPacketNumber ∉ b.receivedAcks.orderedPacketNumbers ∧
        b.poll w = (none, { b with waker := some w })) ∨
      ∃ m, b.receivedAcks.Takes m ∧ b.poll w =
        (some ⟨m, m - b.receivedAcks.smallestExpectedPacketNumber + 1⟩,
          { b with receivedAcks := b.receivedAcks.consume.2 }) := by
  by_cases hthere : b.receivedAcks.smallestExpectedPacketNumber ∈
      b.receivedAcks.orderedPacketNumbers
  · obtain ⟨m, hm⟩ := SlidingWindow.consume_takes h hthere
    refine .inr ⟨m, hm, ?_⟩
    have hres := hm.result
    unfold AckBuffer.poll
    rcases hconsume : b.receivedAcks.consume with ⟨res, acks⟩
    rw [hconsume] at hres
    obtain rfl : res = _ := hres
    rfl
  · refine .inl ⟨hthere, ?_⟩
    unfold AckBuffer.poll
    rw [SlidingWindow.consume_none h hthere]

theorem inv_step {st st' : State} {act : Action} (h : Moves st act st') (hinv : Inv st) :
    Inv st' := by
  obtain ⟨hsound, hreg⟩ := hinv
  cases h with
  | ready hlock hpc hpoll =>
    refine ⟨?_, by simp⟩
    rcases poll_cases hsound _ with ⟨-, heq⟩ | ⟨m, hm, heq⟩
    · rw [heq] at hpoll
      cases hpoll
    · rw [heq] at hpoll
      cases hpoll
      exact hm.sound
  | @parks w b hlock hpc hpoll =>
    rcases poll_cases hsound w with ⟨-, heq⟩ | ⟨m, hm, heq⟩
    · rw [heq] at hpoll
      cases hpoll
      refine ⟨hsound, fun v hv => ?_⟩
      cases hv
      rfl
    · rw [heq] at hpoll
      cases hpoll
  | stores hpc => exact ⟨hsound, by simp⟩
  | acks hlock hwindow => exact ⟨hwindow ▸ (grows_foldl hsound _).sound, hreg⟩
  | @ack packet window res hlock hinsert =>
    have hgrows := grows_insertRange hsound packet.header.packetNumber
      packet.header.typeSpecificPayload
    rw [hinsert] at hgrows
    exact ⟨hgrows.sound, hreg⟩
  | delivers hlock => exact ⟨hsound, fun v hv => hreg v (wake_parked hv).1⟩
  | wakes hsplit => exact ⟨hsound, fun v hv => hreg v (wake_parked hv).1⟩

theorem Informed.ack_iff {st : State} {packet : BluefinPacket} {window : SlidingWindow}
    {res : BluefinResult Unit} (hinv : Inv st) (hinf : Informed st) (hlock : st.lock = .free)
    (hinsert : st.window.insertRange packet.header.packetNumber
      packet.header.typeSpecificPayload = (res, window)) :
    Informed { st with
      ackBuff := { st.ackBuff with receivedAcks := window }
      lock := (if res.isOk then st.ackBuff.waker else none).elim .free .delivering
      seen := st.seen ++ newIn st.window window } ↔ HeadSafe st (.ack packet) := by
  have hgrows := grows_insertRange hinv.sound packet.header.packetNumber
    packet.header.typeSpecificPayload
  rw [hinsert] at hgrows
  constructor
  · intro hafter w hparked hfill
    have hadds := hfill.adds hinv.sound
    have hfails := hfill.fails hinv.sound
    rw [hinsert] at hadds hfails
    have hdue := hafter w hparked (by
      show window.smallestExpectedPacketNumber ∈ window.orderedPacketNumbers
      rw [hgrows.smallest]
      exact hadds)
    simp only [hfails, Bool.false_eq_true, if_false, Option.elim] at hdue
    exact hdue.resolve_right (by simp)
  · intro hsafe w hparked hready
    have hwaker := hinv.registered w hparked
    cases hok : res.isOk with
    | true => exact .inr (by simp [hwaker])
    | false =>
      refine .inl ?_
      by_cases hbefore : st.window.smallestExpectedPacketNumber ∈ st.window.orderedPacketNumbers
      · exact (hinf w hparked hbefore).resolve_right (by simp [hlock])
      · refine hsafe w hparked (fillsHead_of_failed hinv.sound hbefore ?_ ?_)
        · rw [hinsert]
          exact hok
        · rw [hinsert, ← hgrows.smallest]
          exact hready

theorem informed_step_iff {st st' : State} {act : Action} (h : Moves st act st') (hinv : Inv st)
    (hinf : Informed st) : Informed st' ↔ HeadSafe st act := by
  cases h with
  | ready => exact iff_of_true (fun w hw => by cases hw) trivial
  | @parks w b hlock hpc hpoll =>
    refine iff_of_true (fun v hv hready => ?_) trivial
    rcases poll_cases hinv.sound w with ⟨hmissing, heq⟩ | ⟨m, hm, heq⟩
    · rw [heq] at hpoll
      cases hpoll
      exact absurd hready hmissing
    · rw [heq] at hpoll
      cases hpoll
  | stores => exact iff_of_true (fun w hw => by cases hw) trivial
  | acks hlock hwindow =>
    refine iff_of_true (fun w hw _ => .inl (List.mem_append_right _ ?_)) trivial
    rw [hinv.registered w hw]
    exact List.mem_singleton_self _
  | ack hlock hinsert => exact Informed.ack_iff hinv hinf hlock hinsert
  | delivers hlock =>
    refine iff_of_true (fun v hv hready => ?_) trivial
    obtain ⟨hv, hne⟩ := wake_parked hv
    refine .inl ((hinf v hv hready).resolve_right fun hdue => hne ?_)
    rw [hlock] at hdue
    cases hdue
    rfl
  | wakes hsplit =>
    refine iff_of_true (fun v hv hready => ?_) trivial
    obtain ⟨hv, hne⟩ := wake_parked hv
    refine (hinf v hv hready).imp_left fun hmem => ?_
    rw [hsplit] at hmem
    rcases List.mem_append.mp hmem with hmem | hmem
    · exact List.mem_append_left _ hmem
    · exact List.mem_append_right _ ((List.mem_cons.mp hmem).resolve_left hne)

theorem inv_run {first : UInt64} {acts : List Action} {st : State}
    (hr : Run Step (init first) acts st) : Inv st := by
  refine Run.invariant (P := fun _ st => Inv st) ⟨SlidingWindow.sound_new first, by simp [init]⟩
    ?_ hr
  intro acts st act st' _ hinv hstep
  exact inv_step (moves_of_step hstep) hinv

/-- A run never leaves the consumer parked with acks to consume and no wake-up due,
exactly if no overlapping range with the number it waits for comes over the listener's
path while it is parked. -/
theorem ack_wakes_iff {first : UInt64} {acts : List Action} {st : State}
    (hr : Run Step (init first) acts st) :
    (∀ fs u, fs <+: acts → Run Step (init first) fs u → Informed u) ↔
      Run (StepWhen HeadSafe) (init first) acts st := by
  refine Run.always_iff step_deterministic (fun w hw => by cases hw) ?_ hr
  intro acts st act st' hr hinf hstep
  exact informed_step_iff (moves_of_step hstep) (inv_run hr) hinf

def ackFor (base : UInt64) (count : UInt16) : BluefinPacket :=
  ⟨(BluefinHeader.new 1 2 .ack count .default).withPacketNumber base, []⟩

/-- The consumer parks, and an ack comes on the connection's own path. -/
theorem ack_wakes_iff_conn_reader : ∃ st,
    Run Step (init 3) [.poll 0, .acks [ackFor 3 2]] st ∧ st.consumer = .parked 0 ∧
      st.window.orderedPacketNumbers = [3, 4] ∧
      ∀ fs u, fs <+: [.poll 0, .acks [ackFor 3 2]] → Run Step (init 3) fs u → Informed u := by
  have hcomputed : ([Action.poll 0, .acks [ackFor 3 2]].foldlM step (init 3)).map
      (fun st => (st.consumer, st.window.orderedPacketNumbers)) = some (.parked 0, [3, 4]) := by
    decide +kernel
  obtain ⟨st, hr, hfields⟩ := @Run.exists_of_foldlM _ _ (StepWhen HeadSafe) _ _ _ _ _ _
    (fun act hact _ _ h => ⟨by
      simp only [List.mem_cons, List.not_mem_nil, or_false] at hact
      rcases hact with rfl | rfl <;> trivial, h⟩) hcomputed
  obtain ⟨hparked, hwindow⟩ := Prod.mk.inj hfields
  have hreach : Run Step (init 3) [.poll 0, .acks [ackFor 3 2]] st := hr.mono fun _ _ _ h => h.2
  exact ⟨st, hreach, hparked, hwindow, (ack_wakes_iff hreach).mpr hr⟩

/-- Over the listener's path the ack of 5 comes first, and then one of 3 to 5. It fails at 5 with 3
and 4 in the window, and the consumer sleeps on. -/
theorem overlapping_ack_loses_wake_up : ∃ st,
    Run Step (init 3) [.poll 0, .ack (ackFor 5 1), .deliverWake, .poll 0, .ack (ackFor 3 3)] st ∧
      st.consumer = .parked 0 ∧ st.producers = [] ∧ st.lock = .free ∧
      st.window.orderedPacketNumbers = [3, 4, 5] ∧ ¬ Informed st := by
  have hcomputed : ([Action.poll 0, .ack (ackFor 5 1), .deliverWake, .poll 0,
      .ack (ackFor 3 3)].foldlM step (init 3)).map (fun st => (st.consumer, st.producers, st.lock,
        st.window)) = some (.parked 0, [], .free, ⟨3, [3, 4, 5]⟩) := by
    decide +kernel
  obtain ⟨st, hr, hfields⟩ := Run.exists_of_foldlM _ _ (fun _ _ _ _ h => h) hcomputed
  simp only [Prod.mk.injEq] at hfields
  obtain ⟨hparked, hproducers, hlock, hwindow⟩ := hfields
  refine ⟨st, hr, hparked, hproducers, hlock, by rw [hwindow], fun hinf => ?_⟩
  rcases hinf 0 hparked (by rw [hwindow]; decide) with hdue | hdue
  · rw [hproducers] at hdue
    cases hdue
  · rw [hlock] at hdue
    cases hdue

/-! ### What has been stored at rest -/

/-- No sum of the acks comes to `2 ^ 64` or beyond. -/
def SmallAcks : Action → Prop
  | .acks packets => ∀ p ∈ packets,
      p.header.packetNumber.toNat + p.header.typeSpecificPayload.toNat < 2 ^ 64
  | .ack packet =>
      packet.header.packetNumber.toNat + packet.header.typeSpecificPayload.toNat < 2 ^ 64
  | _ => True

/-- The number after the last value of a list, which begins before `first`. -/
def nextAfter (first : UInt64) (values : List UInt64) : ℕ :=
  (values.getLast?.map fun m => m.toNat + 1).getD first.toNat

theorem nextAfter_concat (first m : UInt64) (values : List UInt64) :
    nextAfter first (values ++ [m]) = m.toNat + 1 := by
  simp [nextAfter]

def ConsumerPc.result : ConsumerPc → List UInt64
  | .storing res => [res.largestPacketNumber]
  | _ => []

theorem result_wake (c : ConsumerPc) (w : Waker) : (c.wake w).result = c.result := by
  unfold ConsumerPc.wake
  split
  · rename_i h
    rw [h]
    rfl
  · rfl

theorem result_nil {c : ConsumerPc} (h : ∀ res, c ≠ .storing res) : c.result = [] := by
  cases c with
  | storing res => exact absurd rfl (h res)
  | running | parked => rfl

/-- The numbers that the window has moved past and those in it are the ones ever put
into it, and it has moved to the one after the last that was stored or is about to be. -/
structure Follows (first : UInt64) (st : State) : Prop where
  small : ∀ n ∈ st.window.orderedPacketNumbers, n.toNat + 1 < 2 ^ 64
  started : first.toNat ≤ st.window.smallestExpectedPacketNumber.toNat
  seen_iff : ∀ n, n ∈ st.seen ↔ first.toNat ≤ n.toNat ∧
      n.toNat < st.window.smallestExpectedPacketNumber.toNat ∨ n ∈ st.window.orderedPacketNumbers
  last : nextAfter first (st.stored ++ st.consumer.result) =
    st.window.smallestExpectedPacketNumber.toNat

theorem small_insertRange {w : SlidingWindow} (h : w.Sound)
    (hsmall : ∀ n ∈ w.orderedPacketNumbers, n.toNat + 1 < 2 ^ 64) {base : UInt64} {count : UInt16}
    (hsum : base.toNat + count.toNat < 2 ^ 64) :
    ∀ n ∈ (w.insertRange base count).2.orderedPacketNumbers, n.toNat + 1 < 2 ^ 64 := by
  intro n hn
  rcases (SlidingWindow.insertRange_extends h base count).source n hn with hn | hn
  · exact hsmall n hn
  · by_cases hcount : count = 0
    · rw [if_pos hcount] at hn
      cases hn
    · rw [if_neg hcount, SlidingWindow.mem_rangeOfCount hcount (Nat.le_of_lt hsum)] at hn
      omega

theorem small_foldl {w : SlidingWindow} (h : w.Sound)
    (hsmall : ∀ n ∈ w.orderedPacketNumbers, n.toNat + 1 < 2 ^ 64) {packets : List BluefinPacket}
    (hsum : ∀ p ∈ packets,
      p.header.packetNumber.toNat + p.header.typeSpecificPayload.toNat < 2 ^ 64) :
    ∀ n ∈ (packets.foldl (fun w p => (w.insertRange p.header.packetNumber
      p.header.typeSpecificPayload).2) w).orderedPacketNumbers, n.toNat + 1 < 2 ^ 64 := by
  induction packets generalizing w with
  | nil => exact hsmall
  | cons p packets ih =>
    exact ih (grows_insertRange h _ _).sound
      (small_insertRange h hsmall (hsum p (List.mem_cons_self ..)))
      fun q hq => hsum q (List.mem_cons_of_mem _ hq)

theorem Follows.inserted {first : UInt64} {st : State} {window : SlidingWindow}
    (h : Follows first st) (hgrows : Grows st.window window)
    (hsmall : ∀ n ∈ window.orderedPacketNumbers, n.toNat + 1 < 2 ^ 64) (lock : AckLock)
    (producers : List Waker) :
    Follows first { st with
      ackBuff := { st.ackBuff with receivedAcks := window }
      lock := lock
      producers := producers
      seen := st.seen ++ newIn st.window window } := by
  have hsame := congrArg UInt64.toNat hgrows.smallest
  refine ⟨hsmall, ?_, fun n => ?_, ?_⟩
  · exact h.started.trans (Nat.le_of_eq hsame.symm)
  · have hkept := hgrows.kept n
    simp only [List.mem_append, h.seen_iff n, newIn, List.mem_filter, Bool.not_eq_true',
      List.contains_iff_mem, ← Bool.not_eq_true, hsame]
    by_cases hn : n ∈ st.window.orderedPacketNumbers
    · simp only [hn, hkept hn, or_true, true_or]
    · simp only [hn, or_false, not_false_eq_true, and_true]
  · exact h.last.trans hsame.symm

theorem Follows.polled {first : UInt64} {st : State} {m : UInt64} {res : SlidingWindowConsumeResult}
    (h : Follows first st) (hsound : st.window.Sound) (hm : st.window.Takes m)
    (hres : res.largestPacketNumber = m) :
    Follows first { st with
      ackBuff := { st.ackBuff with receivedAcks := st.window.consume.2 }
      consumer := .storing res } := by
  obtain ⟨hsucc, -⟩ := SlidingWindow.takes_small hm h.small
  have hle := UInt64.le_iff_toNat_le.mp hm.contiguous.1
  have hnext : st.window.consume.2.smallestExpectedPacketNumber.toNat = m.toNat + 1 := by
    rw [hm.smallest, hsucc]
  have hstarted := h.started
  refine ⟨fun n hn => h.small n ((hm.rest n).mp hn).1, ?_, fun n => ?_, ?_⟩
  · show first.toNat ≤ st.window.consume.2.smallestExpectedPacketNumber.toNat
    omega
  · show n ∈ st.seen ↔ first.toNat ≤ n.toNat ∧
        n.toNat < st.window.consume.2.smallestExpectedPacketNumber.toNat ∨
      n ∈ st.window.consume.2.orderedPacketNumbers
    rw [h.seen_iff n, hm.rest n, hnext, UInt64.lt_iff_toNat_lt]
    have hcontiguous := hm.contiguous.2 n
    rw [UInt64.le_iff_toNat_le, UInt64.le_iff_toNat_le] at hcontiguous
    constructor
    · rintro (⟨hfirst, hlt⟩ | hn)
      · exact .inl ⟨hfirst, by omega⟩
      · by_cases hlt : m.toNat < n.toNat
        · exact .inr ⟨hn, hlt⟩
        · have hlow := (hsound.within n hn).1
          exact .inl ⟨by omega, by omega⟩
    · rintro (⟨hfirst, hlt⟩ | ⟨hn, -⟩)
      · by_cases hpast : n.toNat < st.window.smallestExpectedPacketNumber.toNat
        · exact .inl ⟨hfirst, hpast⟩
        · exact .inr (hcontiguous (by omega) (by omega))
      · exact .inr hn
  · show nextAfter first (st.stored ++ [res.largestPacketNumber]) = _
    rw [nextAfter_concat, hres]
    exact hnext.symm

theorem follows_step {first : UInt64} {st st' : State} {act : Action} (h : Moves st act st')
    (hinv : Inv st) (hsmall : SmallAcks act) (hfol : Follows first st) : Follows first st' := by
  cases h with
  | @ready w res b hlock hpc hpoll =>
    rcases poll_cases hinv.sound w with ⟨-, heq⟩ | ⟨m, hm, heq⟩
    · rw [heq] at hpoll
      cases hpoll
    · rw [heq] at hpoll
      cases hpoll
      exact hfol.polled hinv.sound hm rfl
  | @parks w b hlock hpc hpoll =>
    rcases poll_cases hinv.sound w with ⟨-, heq⟩ | ⟨m, hm, heq⟩
    · rw [heq] at hpoll
      cases hpoll
      have hlast := hfol.last
      rw [result_nil hpc] at hlast
      exact ⟨hfol.small, hfol.started, hfol.seen_iff, hlast⟩
    · rw [heq] at hpoll
      cases hpoll
  | stores hpc =>
    have hlast := hfol.last
    rw [hpc] at hlast
    refine ⟨hfol.small, hfol.started, hfol.seen_iff, ?_⟩
    rw [← hlast]
    exact congrArg _ (List.append_nil _)
  | acks hlock hwindow =>
    subst hwindow
    exact hfol.inserted (grows_foldl hinv.sound _) (small_foldl hinv.sound hfol.small hsmall) _ _
  | @ack packet window res hlock hinsert =>
    have hgrows := grows_insertRange hinv.sound packet.header.packetNumber
      packet.header.typeSpecificPayload
    have hsmall' := small_insertRange hinv.sound hfol.small hsmall
    rw [hinsert] at hgrows hsmall'
    exact hfol.inserted hgrows hsmall' _ _
  | delivers hlock =>
    refine ⟨hfol.small, hfol.started, hfol.seen_iff, ?_⟩
    rw [← hfol.last, result_wake]
  | wakes hsplit =>
    refine ⟨hfol.small, hfol.started, hfol.seen_iff, ?_⟩
    rw [← hfol.last, result_wake]

/-- No ack comes in, and only a woken consumer polls. -/
def Internal (st : State) : Action → Prop
  | .poll _ => st.consumer = .running
  | .acks _ => False
  | .ack _ => False
  | _ => True

instance (st : State) : DecidablePred (Internal st)
  | .poll _ => inferInstanceAs (Decidable (st.consumer = .running))
  | .acks _ => inferInstanceAs (Decidable False)
  | .ack _ => inferInstanceAs (Decidable False)
  | .store => inferInstanceAs (Decidable True)
  | .deliverWake => inferInstanceAs (Decidable True)
  | .produce _ => inferInstanceAs (Decidable True)

/-- No task has a step of its own left. -/
def NoneMoves (st : State) : Prop := ∀ act, Internal st act → step st act = none

theorem NoneMoves.parked {st : State} (h : NoneMoves st) :
    st.lock = .free ∧ st.producers = [] ∧ ∃ w, st.consumer = .parked w := by
  have hdeliver := h .deliverWake trivial
  have hproduce := h (.produce 0) trivial
  have hstore := h .store trivial
  have hpoll := h (.poll 0)
  have hlock : st.lock = .free := by
    cases hlock : st.lock with
    | free => rfl
    | delivering w => simp [step, hlock] at hdeliver
  have hproducers : st.producers = [] := by
    cases hproducers : st.producers with
    | nil => rfl
    | cons w ws => simp [step, hproducers] at hproduce
  refine ⟨hlock, hproducers, ?_⟩
  cases hpc : st.consumer with
  | running =>
    have hnone := hpoll hpc
    simp only [step, hlock, hpc] at hnone
    split at hnone <;> cases hnone
  | storing res => simp [step, hpc] at hstore
  | parked w => exact ⟨w, rfl⟩

/-- The consumer has parked, and an ack of 3 and 4 has come in. -/
def acked : State := ⟨⟨⟨3, [3, 4]⟩, some 0⟩, .free, [0], .parked 0, [], [3, 4]⟩

end AckWake

end Bluefin
