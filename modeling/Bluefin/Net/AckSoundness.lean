import Bluefin.Worker.AckPath

/-!
# A stored ack number means consumed packets

Every range that a reader acknowledges is a range of packets it has consumed,
and the range survives the 16-bit count and the encoding. So the peer's window
only ever holds consumed packets, whatever the network does with the datagrams,
and what its consumer stores is the end of a run of them.
-/

namespace Bluefin
open Base

namespace AckPath

/-- The range has at most as many packets as the reassembly buffer, it does not
wrap, and each of its packets is consumed. -/
structure GoodAck (consumed : Set UInt64) (a : AckData) : Prop where
  base_ne : a.1 ≠ 0
  pos : 0 < a.2
  le : a.2 ≤ maxBufferSize
  bound : a.1.toNat + a.2 ≤ 2 ^ 64
  covered : ∀ n : UInt64, a.1.toNat ≤ n.toNat → n.toNat < a.1.toNat + a.2 → n ∈ consumed

theorem goodAck_mono {c c' : Set UInt64} (h : c ⊆ c') {a : AckData} (ha : GoodAck c a) :
    GoodAck c' a :=
  ⟨ha.base_ne, ha.pos, ha.le, ha.bound, fun n hle hlt => h (ha.covered n hle hlt)⟩

/-! ### The receiver -/

theorem consumed_mono {st st' : Receiver.State} {act : Reader.Action}
    (h : Receiver.step st act = some st') : st.consumed ⊆ st'.consumed := by
  obtain ⟨reader, _, rfl⟩ := Option.map_eq_some_iff.mp h
  exact Set.subset_union_left

theorem acksSent_step {st st' : Receiver.State} {act : Reader.Action}
    (hin : st.crashed ∨ st.bytes.InOrder) (h : Receiver.step st act = some st') :
    ∃ new, st'.rx.acksSent = st.rx.acksSent ++ new ∧ ∀ a ∈ new, GoodAck st'.consumed a := by
  cases Receiver.step_effect hin h with
  | buffered packets _ _ _ hrx => exact ⟨[], by rw [hrx, List.append_nil], by simp⟩
  | crashed _ hrx => exact ⟨[], by rw [hrx, List.append_nil], by simp⟩
  | took res _ htook hreports hrx hconsumed hin =>
    cases res with
    | err e => exact ⟨[], by rw [hrx, List.append_nil]; rfl, by simp⟩
    | panicked f => exact ⟨[], by rw [hrx, List.append_nil]; rfl, by simp⟩
    | ok r =>
      obtain ⟨hnum, hbase⟩ := hreports.ok r rfl
      simp only [Receiver.accountFor, ReaderRxChannel.account, hnum] at hrx
      split at hrx
      · rename_i hsend
        rw [hbase hsend.1] at hrx hsend
        refine ⟨[(st.bytes.smallestPacketNumber, Receiver.takes st.reader)], by rw [hrx], ?_⟩
        intro a ha
        rw [List.mem_singleton.mp ha]
        refine ⟨hsend.2.1, hsend.1, hreports.size, OrderedBytes.took_le hin htook, ?_⟩
        intro n hle hlt
        rw [hconsumed]
        exact Or.inr ⟨hle, hlt⟩
      · exact ⟨[], by rw [hrx, List.append_nil], by simp⟩

/-! ### The datagrams -/

section

variable (srcConnId dstConnId : UInt32)

def ackPacket (a : AckData) : BluefinPacket := ⟨WriterHandler.ackHeader srcConnId dstConnId a, []⟩

def ackDatagram (acks : List AckData) : Bytes :=
  BluefinPacket.serialiseAll (acks.map (ackPacket srcConnId dstConnId))

theorem appendHeader_eq (bytes : Bytes) (header : BluefinHeader) :
    WriterHandler.appendHeader bytes header = bytes ++ header.serialise := by
  have hdrop : (bytes ++ List.replicate 20 0).drop bytes.length = List.replicate 20 0 :=
    List.drop_left' rfl
  have hzeros : (List.replicate 20 (0 : UInt8)).drop 20 = [] := rfl
  simp only [WriterHandler.appendHeader]
  rw [hdrop, BluefinHeader.serialiseInto_eq, hzeros, List.append_nil, overwrite_append _ _ _ rfl,
    BluefinHeader.serialise_length, hzeros, List.append_nil]

theorem consumeAcksLoop_eq (queue : List AckData) (bytes : Bytes) :
    ∃ acks, queue = acks ++ (WriterHandler.consumeAcksLoop srcConnId dstConnId queue bytes).1 ∧
      (WriterHandler.consumeAcksLoop srcConnId dstConnId queue bytes).2 =
        bytes ++ ackDatagram srcConnId dstConnId acks := by
  induction queue generalizing bytes with
  | nil => exact ⟨[], rfl, by simp [WriterHandler.consumeAcksLoop, ackDatagram]⟩
  | cons a queue ih =>
    unfold WriterHandler.consumeAcksLoop
    by_cases hfull : bytes.length + 20 > maxBluefinBytesInUdpDatagram
    · rw [if_pos hfull]
      exact ⟨[], rfl, by simp [ackDatagram]⟩
    · rw [if_neg hfull, appendHeader_eq]
      obtain ⟨acks, hqueue, hbytes⟩ := ih (bytes ++
        (WriterHandler.ackHeader srcConnId dstConnId a).serialise)
      refine ⟨a :: acks, ?_, ?_⟩
      · rw [List.cons_append, ← hqueue]
      · rw [hbytes, List.append_assoc]
        simp [ackDatagram, ackPacket, BluefinPacket.serialise]

theorem ackPacket_encodable (a : AckData) : (ackPacket srcConnId dstConnId a).Encodable where
  version_lt := show (0 : UInt8).toNat < 16 by decide
  data_length := by
    intro h
    cases h
  control_nil := fun _ => rfl
  data_ne_nil := by
    intro h
    cases h

theorem received_ackDatagram (b : AckBuffer) {acks : List AckData} (hne : acks ≠ []) :
    received b (ackDatagram srcConnId dstConnId acks) =
      ConnReaderHandler.ackAll b (acks.map (ackPacket srcConnId dstConnId)) := by
  have hparse := BluefinPacket.fromBytesInto_serialiseAll
    (acks.map (ackPacket srcConnId dstConnId)) (by simpa using hne) (fun p hp => by
      obtain ⟨a, -, rfl⟩ := List.mem_map.mp hp
      exact ackPacket_encodable srcConnId dstConnId a)
  rw [received, ackDatagram, hparse]
  exact ConnReaderHandler.bufferInAcks_eq _ _ _

def GoodDatagram (consumed : Set UInt64) (datagram : Bytes) : Prop :=
  ∃ acks, acks ≠ [] ∧ datagram = ackDatagram srcConnId dstConnId acks ∧
    ∀ a ∈ acks, GoodAck consumed a

/-- The ack task passes on what it got: from the channel to its queue, and from the queue to
datagrams. -/
structure GoodTask (consumed : Set UInt64) (chan : List AckData) (t : AckTask) : Prop where
  chan : ∀ a ∈ chan, GoodAck consumed a
  queue : ∀ a ∈ t.ackQueue, GoodAck consumed a
  pending : ∀ d ∈ t.pendingSend, GoodDatagram srcConnId dstConnId consumed d

variable {srcConnId dstConnId}

theorem goodTask_mono {c c' : Set UInt64} (hc : c ⊆ c') {chan : List AckData} {t : AckTask}
    (h : GoodTask srcConnId dstConnId c chan t) : GoodTask srcConnId dstConnId c' chan t where
  chan := fun a ha => goodAck_mono hc (h.chan a ha)
  queue := fun a ha => goodAck_mono hc (h.queue a ha)
  pending := by
    intro d hd
    obtain ⟨acks, hne, heq, hgood⟩ := h.pending d hd
    exact ⟨acks, hne, heq, fun a ha => goodAck_mono hc (hgood a ha)⟩

theorem consumeAcksInto_good {consumed : Set UInt64} {queue queue' : List AckData} {d : Bytes}
    {full : Bool} (hgood : ∀ a ∈ queue, GoodAck consumed a)
    (h : WriterHandler.consumeAcksInto srcConnId dstConnId queue [] = (full, queue', d)) :
    (∀ a ∈ queue', GoodAck consumed a) ∧
      (full = true → GoodDatagram srcConnId dstConnId consumed d) := by
  unfold WriterHandler.consumeAcksInto at h
  split at h
  · cases h
    exact ⟨hgood, fun hf => nomatch hf⟩
  · obtain ⟨acks, hqueue, hbytes⟩ := consumeAcksLoop_eq srcConnId dstConnId queue []
    rcases hloop : WriterHandler.consumeAcksLoop srcConnId dstConnId queue [] with ⟨rest, bytes⟩
    rw [hloop] at h hqueue hbytes
    simp only [List.nil_append] at hqueue hbytes
    cases h
    rw [hqueue] at hgood
    refine ⟨fun a ha => hgood a (List.mem_append_right _ ha), fun hfull => ?_⟩
    refine ⟨acks, ?_, hbytes, fun a ha => hgood a (List.mem_append_left _ ha)⟩
    rintro rfl
    rw [hbytes] at hfull
    cases hfull

theorem goodTask_step {consumed : Set UInt64} {chan chan' : List AckData} {t t' : AckTask}
    {sendOk : Bool} {out : Option Bytes} (h : GoodTask srcConnId dstConnId consumed chan t)
    (hs : t.step srcConnId dstConnId sendOk chan = some (chan', t', out)) :
    GoodTask srcConnId dstConnId consumed chan' t' ∧
      ∀ d ∈ out, GoodDatagram srcConnId dstConnId consumed d := by
  unfold AckTask.step at hs
  split at hs
  · rename_i data _ hpending
    have hdata := h.pending data (by rw [hpending]; rfl)
    split at hs
    · cases hs
      refine ⟨⟨h.chan, h.queue, by simp⟩, fun d hd => ?_⟩
      cases hd
      exact hdata
    · cases hs
      exact ⟨h, by simp⟩
  · rename_i hnone
    split at hs
    · cases hs
    · cases hs
      refine ⟨⟨fun a ha => h.chan a (List.mem_of_mem_drop ha), fun a ha => ?_, ?_⟩, by simp⟩
      · rcases List.mem_append.mp ha with ha | ha
        · exact h.queue a ha
        · exact h.chan a (List.mem_of_mem_take ha)
      · exact h.pending
  · rcases hres : WriterHandler.consumeAcksInto srcConnId dstConnId t.ackQueue [] with
      ⟨full, queue, d⟩
    obtain ⟨hqueue, hd⟩ := consumeAcksInto_good h.queue hres
    rw [hres] at hs
    cases full with
    | false =>
      cases hs
      exact ⟨⟨h.chan, hqueue, h.pending⟩, by simp⟩
    | true =>
      simp only at hs
      split at hs
      · cases hs
        refine ⟨⟨h.chan, hqueue, h.pending⟩, fun d' hd' => ?_⟩
        cases hd'
        exact hd rfl
      · cases hs
        refine ⟨⟨h.chan, hqueue, fun d' hd' => ?_⟩, by simp⟩
        cases hd'
        exact hd rfl

end

/-! ### The sender's window -/

/-- The window holds consumed packets only, and so are the ones below `next`,
where it starts. -/
structure WindowUpTo (first : UInt64) (consumed : Set UInt64) (next : ℕ) (w : SlidingWindow) :
    Prop where
  sound : w.Sound
  numbers : ∀ n ∈ w.orderedPacketNumbers, n ≠ 0 ∧ n ∈ consumed
  bound : next ≤ 2 ^ 64
  smallest : w.smallestExpectedPacketNumber.toNat = next % 2 ^ 64
  upTo : ∀ n : UInt64, first.toNat ≤ n.toNat → n.toNat < next → n ∈ consumed

theorem windowUpTo_new (first : UInt64) (consumed : Set UInt64) :
    WindowUpTo first consumed first.toNat (.new first) where
  sound := SlidingWindow.sound_new first
  numbers := by simp [SlidingWindow.new]
  bound := Nat.le_of_lt first.toNat_lt
  smallest := (Nat.mod_eq_of_lt first.toNat_lt).symm
  upTo := by
    intro n hle hlt
    omega

theorem windowUpTo_mono {first : UInt64} {c c' : Set UInt64} (hc : c ⊆ c') {next : ℕ}
    {w : SlidingWindow} (h : WindowUpTo first c next w) : WindowUpTo first c' next w :=
  ⟨h.sound, fun n hn => ⟨(h.numbers n hn).1, hc (h.numbers n hn).2⟩, h.bound, h.smallest,
    fun n hle hlt => hc (h.upTo n hle hlt)⟩

theorem goodAck_range {consumed : Set UInt64} {a : AckData} (h : GoodAck consumed a) (n : UInt64)
    (hn : n ∈ SlidingWindow.rangeInclusive a.1 (a.1 + (UInt16.ofNat a.2).toUInt64 - 1)) :
    n ≠ 0 ∧ n ∈ consumed := by
  have hmax : maxBufferSize = 2000 := rfl
  have hpos := h.pos
  have hle := h.le
  have hbound := h.bound
  have hbase : a.1.toNat ≠ 0 := fun he => h.base_ne (UInt64.toNat_inj.mp he)
  obtain ⟨hlow, hhigh⟩ := SlidingWindow.mem_rangeInclusive.mp hn
  rw [UInt64.toNat_sub, UInt64.toNat_add, UInt16.toNat_toUInt64, UInt16.toNat_ofNat',
    UInt64.toNat_one] at hhigh
  refine ⟨fun hzero => ?_, h.covered n hlow (by omega)⟩
  rw [hzero, UInt64.toNat_zero] at hlow
  omega

theorem windowUpTo_ack {srcConnId dstConnId : UInt32} {first : UInt64} {consumed : Set UInt64}
    {next : ℕ} {b : AckBuffer} {a : AckData} (h : WindowUpTo first consumed next b.receivedAcks)
    (ha : GoodAck consumed a) :
    WindowUpTo first consumed next
      (b.bufferInAckPacket (ackPacket srcConnId dstConnId a)).2.receivedAcks := by
  have hext := SlidingWindow.insertRange_extends h.sound a.1 (UInt16.ofNat a.2)
  refine ⟨hext.sound, fun n hn => ?_, h.bound, ?_, h.upTo⟩
  · rcases hext.source n hn with hold | hnew
    · exact h.numbers n hold
    · split at hnew
      · cases hnew
      · exact goodAck_range ha n hnew
  · exact (congrArg UInt64.toNat hext.smallest).trans h.smallest

theorem windowUpTo_ackAll {srcConnId dstConnId : UInt32} {first : UInt64} {consumed : Set UInt64}
    {next : ℕ} {b : AckBuffer} (acks : List AckData)
    (h : WindowUpTo first consumed next b.receivedAcks) (hacks : ∀ a ∈ acks, GoodAck consumed a) :
    WindowUpTo first consumed next
      (ConnReaderHandler.ackAll b (acks.map (ackPacket srcConnId dstConnId))).receivedAcks := by
  induction acks generalizing b with
  | nil => exact h
  | cons a acks ih =>
    rw [List.map_cons, ConnReaderHandler.ackAll_cons]
    apply ih
    · exact windowUpTo_ack h (hacks a (List.mem_cons_self ..))
    · exact fun x hx => hacks x (List.mem_cons_of_mem _ hx)

/-- What the consumer gets is the end of the run that starts at `next`. A window that has wrapped
around to zero gives nothing: number zero is never in it. -/
theorem windowUpTo_consume {first : UInt64} {consumed : Set UInt64} {next : ℕ} {w : SlidingWindow}
    (h : WindowUpTo first consumed next w) :
    (w.consume.1 = none ∧ WindowUpTo first consumed next w.consume.2) ∨
      ∃ res, w.consume.1 = some res ∧ next ≤ res.largestPacketNumber.toNat ∧
        WindowUpTo first consumed (res.largestPacketNumber.toNat + 1) w.consume.2 := by
  by_cases hthere : w.smallestExpectedPacketNumber ∈ w.orderedPacketNumbers
  · right
    obtain ⟨m, hm⟩ := SlidingWindow.consume_takes h.sound hthere
    have hsmallest := h.smallest
    have hbound := h.bound
    have hne : w.smallestExpectedPacketNumber.toNat ≠ 0 :=
      fun he => (h.numbers _ hthere).1 (UInt64.toNat_inj.mp he)
    have hle := UInt64.le_iff_toNat_le.mp hm.contiguous.1
    have hlt := m.toNat_lt
    have hnext : next ≤ m.toNat := by omega
    refine ⟨_, hm.result, hnext, hm.sound, ?_, Nat.succ_le_of_lt hlt, ?_, ?_⟩
    · intro n hn
      exact h.numbers n ((hm.rest n).mp hn).1
    · rw [hm.smallest, UInt64.toNat_add]
      rfl
    · intro n hfirst hn
      by_cases hold : n.toNat < next
      · exact h.upTo n hfirst hold
      · apply (h.numbers n _).2
        apply hm.contiguous.2
        · rw [UInt64.le_iff_toNat_le]
          omega
        · rw [UInt64.le_iff_toNat_le]
          exact Nat.le_of_lt_succ hn
  · left
    rw [SlidingWindow.consume_none h.sound hthere]
    exact ⟨rfl, h⟩

/-! ### Whole runs -/

/-- What the consumer has stored, and what it will store next. -/
def values (c : AckConsumer) : List UInt64 :=
  c.stored ++ (c.res.map SlidingWindowConsumeResult.largestPacketNumber).toList

structure Inv (srcConnId dstConnId : UInt32) (first : UInt64) (next : ℕ) (st : State) : Prop where
  receiver : st.receiver.crashed ∨ st.receiver.bytes.InOrder
  task : GoodTask srcConnId dstConnId st.receiver.consumed st.chan st.task
  sent : ∀ d ∈ st.sent, GoodDatagram srcConnId dstConnId st.receiver.consumed d
  window : WindowUpTo first st.receiver.consumed next st.ackBuff.receivedAcks
  sorted : (values st.consumer).Pairwise (· ≤ ·)
  below : ∀ m ∈ values st.consumer, m.toNat < next

theorem inv_init (srcConnId dstConnId : UInt32) {start : UInt64} {receiver : Receiver.State}
    (first : UInt64) (h : Receiver.Init start receiver) :
    Inv srcConnId dstConnId first first.toNat (init receiver first) where
  receiver := Or.inr (Receiver.init_inOrder h)
  task := ⟨by simp [init], by simp [init, AckTask.new], by simp [init, AckTask.new]⟩
  sent := by simp [init]
  window := windowUpTo_new first _
  sorted := .nil
  below := by simp [values, init, AckConsumer.new]

variable {srcConnId dstConnId : UInt32} {first : UInt64}

theorem inv_receiver {next : ℕ} {st : State} {receiver : Receiver.State} {act : Reader.Action}
    (h : Inv srcConnId dstConnId first next st)
    (hs : Receiver.step st.receiver act = some receiver) :
    Inv srcConnId dstConnId first next { st with
      receiver := receiver
      chan := st.chan ++ receiver.rx.acksSent.drop st.receiver.rx.acksSent.length } := by
  have hmono := consumed_mono hs
  have htask := goodTask_mono hmono h.task
  obtain ⟨new, hacks, hgood⟩ := acksSent_step h.receiver hs
  refine ⟨Receiver.step_inOrder h.receiver hs, ⟨fun a ha => ?_, htask.queue, htask.pending⟩,
    fun d hd => ?_, windowUpTo_mono hmono h.window, h.sorted, h.below⟩
  · rw [hacks, List.drop_left' rfl] at ha
    rcases List.mem_append.mp ha with ha | ha
    · exact htask.chan a ha
    · exact hgood a ha
  · obtain ⟨acks, hne, heq, hall⟩ := h.sent d hd
    exact ⟨acks, hne, heq, fun a ha => goodAck_mono hmono (hall a ha)⟩

theorem inv_consumer {next : ℕ} {st : State} (h : Inv srcConnId dstConnId first next st) :
    ∃ next', Inv srcConnId dstConnId first next' { st with
      ackBuff := (st.consumer.step st.ackBuff).1, consumer := (st.consumer.step st.ackBuff).2 } := by
  obtain ⟨receiver, chan, task, sent, ackBuff, ⟨res, stored⟩⟩ := st
  cases res with
  | some res =>
    have hvalues : values (AckConsumer.step ackBuff ⟨some res, stored⟩).2 =
        values ⟨some res, stored⟩ := by
      simp [values, AckConsumer.step]
    refine ⟨next, h.receiver, h.task, h.sent, h.window, ?_, ?_⟩
    · rw [hvalues]
      exact h.sorted
    · rw [hvalues]
      exact h.below
  | none =>
    have hbelow := h.below
    have hsorted := h.sorted
    simp only [values, Option.map_none, Option.toList_none, List.append_nil] at hbelow hsorted
    have hwindow := windowUpTo_consume h.window
    rcases hres : ackBuff.receivedAcks.consume with ⟨res, acks⟩
    simp only [hres] at hwindow
    rcases hwindow with ⟨rfl, hacks⟩ | ⟨res, rfl, hnext, hacks⟩
    · have hstep : AckConsumer.step ackBuff ⟨none, stored⟩ = (⟨acks, some 0⟩, ⟨none, stored⟩) := by
        simp only [AckConsumer.step, AckBuffer.poll, hres]
      rw [hstep]
      exact ⟨next, h.receiver, h.task, h.sent, hacks, h.sorted, h.below⟩
    · have hstep : AckConsumer.step ackBuff ⟨none, stored⟩ =
          ({ ackBuff with receivedAcks := acks }, ⟨some res, stored⟩) := by
        simp only [AckConsumer.step, AckBuffer.poll, hres]
      rw [hstep]
      refine ⟨res.largestPacketNumber.toNat + 1, h.receiver, h.task, h.sent, hacks, ?_, ?_⟩
      · refine List.pairwise_append.mpr ⟨hsorted, List.pairwise_singleton .., fun m hm x hx => ?_⟩
        have hlt := hbelow m hm
        rw [List.mem_singleton.mp hx, UInt64.le_iff_toNat_le]
        omega
      · intro m hm
        rcases List.mem_append.mp hm with hm | hm
        · have hlt := hbelow m hm
          omega
        · rw [List.mem_singleton.mp hm]
          exact Nat.lt_succ_self _

theorem inv_step {next : ℕ} {st st' : State} {act : Action}
    (h : Inv srcConnId dstConnId first next st) (hs : Step srcConnId dstConnId st act st') :
    ∃ next', Inv srcConnId dstConnId first next' st' := by
  cases act with
  | receiver act =>
    obtain ⟨receiver, hreceiver, rfl⟩ := Option.map_eq_some_iff.mp hs
    exact ⟨next, inv_receiver h hreceiver⟩
  | readAck sendOk =>
    obtain ⟨⟨chan, task, out⟩, htask, rfl⟩ := Option.map_eq_some_iff.mp hs
    obtain ⟨hgood, hout⟩ := goodTask_step h.task htask
    refine ⟨next, h.receiver, hgood, fun d hd => ?_, h.window, h.sorted, h.below⟩
    rcases List.mem_append.mp hd with hd | hd
    · exact h.sent d hd
    · exact hout d (Option.mem_toList.mp hd)
  | deliver i =>
    obtain ⟨datagram, hsent, rfl⟩ := Option.map_eq_some_iff.mp hs
    obtain ⟨acks, hne, rfl, hgood⟩ := h.sent datagram (List.mem_of_getElem? hsent)
    refine ⟨next, h.receiver, h.task, h.sent, ?_, h.sorted, h.below⟩
    rw [received_ackDatagram _ _ _ hne]
    exact windowUpTo_ackAll acks h.window hgood
  | consumer =>
    cases hs
    exact inv_consumer h

/-- However acks are lost, repeated and reordered: when the sender has stored
`m`, every packet from its first one up to `m` has been consumed by the
receiver, and the stored values never decrease. -/
theorem acks_sound (srcConnId dstConnId : UInt32) (start first : UInt64)
    (receiver : Receiver.State) (acts : List Action) (st : State)
    (hinit : Receiver.Init start receiver)
    (hr : Run (Step srcConnId dstConnId) (init receiver first) acts st) :
    (∀ m ∈ st.consumer.stored, ∀ n : UInt64, first ≤ n → n ≤ m → n ∈ st.receiver.consumed) ∧
      st.consumer.stored.Pairwise (· ≤ ·) := by
  have hinv : ∃ next, Inv srcConnId dstConnId first next st := by
    refine Run.invariant (P := fun _ st => ∃ next, Inv srcConnId dstConnId first next st)
      ⟨_, inv_init srcConnId dstConnId first hinit⟩ ?_ hr
    rintro es s e t _ ⟨next, h⟩ hs
    exact inv_step h hs
  obtain ⟨next, h⟩ := hinv
  constructor
  · intro m hm n hfirst hle
    have hlt := h.below m (List.mem_append_left _ hm)
    rw [UInt64.le_iff_toNat_le] at hfirst hle
    exact h.window.upTo n hfirst (by omega)
  · exact (List.pairwise_append.mp h.sorted).1

theorem run_receiver {acts : List Reader.Action} {r r' : Receiver.State} (st : State)
    (hin : r.crashed ∨ r.bytes.InOrder) (h : acts.foldlM Receiver.step r = some r') :
    Run (Step srcConnId dstConnId) { st with receiver := r, chan := r.rx.acksSent }
      (acts.map .receiver) { st with receiver := r', chan := r'.rx.acksSent } := by
  induction acts generalizing r with
  | nil =>
    cases h
    exact .nil
  | cons act acts ih =>
    rw [List.foldlM_cons] at h
    obtain ⟨u, hu, hrest⟩ := Option.bind_eq_some_iff.mp h
    obtain ⟨new, hacks, -⟩ := acksSent_step hin hu
    have hfirst : Step srcConnId dstConnId { st with receiver := r, chan := r.rx.acksSent }
        (.receiver act) { st with receiver := u, chan := u.rx.acksSent } := by
      rw [Step, step, hu, hacks]
      simp only [Option.map_some, hacks, List.drop_left' rfl]
    exact (Run.nil.snoc hfirst).append (ih (Receiver.step_inOrder hin hu) hrest)

/-- The 200 packets are read by one call, and their ack arrives twice. -/
theorem acks_sound_two_hundred : ∃ acts st,
    Run (Step 2 1) (init Receiver.waiting 7) acts st ∧ st.consumer.stored = [206] ∧
      ∀ n : UInt64, 7 ≤ n → n ≤ 206 → n ∈ st.receiver.consumed := by
  have hcount : 200 ≤ maxBufferSize := by decide
  obtain ⟨r₁, h₁, hread₁, hrx₁⟩ := Receiver.readUpTo_arrive (by decide) hcount
  obtain ⟨r₂, b₂, h₂, -, hrx₂⟩ := Receiver.readUpTo_read hread₁ hcount (by decide)
    (show 0 < 1000 by decide)
  have hreads : (.arrive (Receiver.firstPackets 200) :: Receiver.readBytes 1000).foldlM Reader.step
      Receiver.waiting.reader = some r₂ := by
    rw [List.foldlM_cons, h₁]
    exact h₂
  obtain ⟨r, hr, rfl⟩ := Receiver.foldlM_of_reader hreads
  have hacks : r.rx.acksSent = [(7, 200)] := by
    rw [Receiver.State.rx, hrx₂, hrx₁]
    rfl
  have hrun := @run_receiver 2 1 _ _ _ (init Receiver.waiting 7)
    (Or.inr (Receiver.init_inOrder Receiver.waiting_init)) hr
  rw [hacks] at hrun
  let d := ackDatagram 2 1 [(7, 200)]
  let quiet : State := ⟨r, [], ⟨.top, [], none⟩, [], .new 7, .new⟩
  have hrecv : Step 2 1 { quiet with chan := [(7, 200)] } (.readAck true)
      { quiet with task := ⟨.pack 0, [(7, 200)], none⟩ } := rfl
  have hpack : Step 2 1 { quiet with task := ⟨.pack 0, [(7, 200)], none⟩ } (.readAck true)
      { quiet with task := ⟨.pack 1, [], none⟩, sent := [d] } := by
    have hinto : WriterHandler.consumeAcksInto 2 1 [(7, 200)] [] = (true, [], d) := by
      decide +kernel
    simp only [Step, step, AckTask.step, hinto]
    rfl
  have hdeliver : ∀ b, Step 2 1
      { quiet with task := ⟨.pack 1, [], none⟩, sent := [d], ackBuff := b } (.deliver 0)
      { quiet with task := ⟨.pack 1, [], none⟩, sent := [d], ackBuff := received b d } :=
    fun _ => rfl
  have hstored : ∀ b c, Step 2 1
      { quiet with task := ⟨.pack 1, [], none⟩, sent := [d], ackBuff := b, consumer := c } .consumer
      { quiet with
        task := ⟨.pack 1, [], none⟩, sent := [d], ackBuff := (c.step b).1, consumer := (c.step b).2 } :=
    fun _ _ => rfl
  have hall := (((((hrun.snoc hrecv).snoc hpack).snoc (hdeliver _)).snoc (hdeliver _)).snoc
    (hstored _ _)).snoc (hstored _ _)
  have hvalue : ((AckConsumer.step (received (received (.new 7) d) d) .new).2.step
      (AckConsumer.step (received (received (.new 7) d) d) .new).1).2.stored = [206] := by
    decide +kernel
  refine ⟨_, _, hall, hvalue, fun n hle hge => ?_⟩
  refine (acks_sound 2 1 7 7 Receiver.waiting _ _ Receiver.waiting_init hall).1 206 ?_ n hle hge
  rw [hvalue]
  exact List.mem_singleton_self _

end AckPath

end Bluefin
