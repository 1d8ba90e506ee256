import Bluefin.Core.Codec
import Bluefin.Worker.ConnReader

/-!
# Dispatch by packet type (worker/conn_reader.rs, `buffer_in_packets`)

`buffer_in_packets` looks at the type of the first packet and passes the whole
datagram to the loop for this type. The loops look at the type again only in
the close path, which panics on a packet of another class. So the dispatch is
right exactly for the sequences of types that stay within one class.
-/

namespace Bluefin
open Base BluefinPacket

namespace ConnReaderHandler

def types (packets : List BluefinPacket) : List PacketType :=
  packets.map fun p => p.header.typeField

def IsClose (t : PacketType) : Prop := t = .fin ∨ t = .finAck

instance : DecidablePred IsClose := fun t => inferInstanceAs (Decidable (t = .fin ∨ t = .finAck))

/-! ### What each buffer does with a list of packets -/

def ackAll (g : AckBuffer) (packets : List BluefinPacket) : AckBuffer :=
  packets.foldl (fun g p => (g.bufferInAckPacket p).2) g

theorem ackAll_cons (g : AckBuffer) (p : BluefinPacket) (packets : List BluefinPacket) :
    ackAll g (p :: packets) = ackAll (g.bufferInAckPacket p).2 packets := rfl

def closeOne (g : CloseBuffer) (p : BluefinPacket) : CloseBuffer :=
  match p.header.typeField with
  | .fin => g.bufferInFin p
  | .finAck => g.bufferInFinAck p
  | _ => g

/-- The FinAck to send is taken out once, after the last packet. -/
def closeAll (g : CloseBuffer) (packets : List BluefinPacket) : CloseBuffer :=
  if .fin ∈ types packets then (packets.foldl closeOne g).takePendingFinAckSend.2
  else packets.foldl closeOne g

/-- One call of `buffer_in_packets` returns, and each buffer ends as if some of
the packets of its own class, in their order, had been passed to it and no
others. -/
structure RespectsTypes (packets : List BluefinPacket) (bufs : ConnectionManagedBuffers) :
    Prop where
  returns : (bufferInPackets packets bufs).1.isPanic = false
  acks : ∃ as, as.Sublist packets ∧ (∀ p ∈ as, p.header.typeField = .ack) ∧
    (bufferInPackets packets bufs).2.1.ackBuff = ackAll bufs.ackBuff as
  data : ∃ ds, ds.Sublist packets ∧ (∀ p ∈ ds, p.header.typeField = .unencryptedData) ∧
    (bufferInPackets packets bufs).2.1.connBuff =
      { bufs.connBuff with orderedBytes := bufs.connBuff.orderedBytes.bufferAll ds }
  close : ∃ cs, cs.Sublist packets ∧ (∀ p ∈ cs, IsClose p.header.typeField) ∧
    (bufferInPackets packets bufs).2.1.closeBuff = closeAll bufs.closeBuff cs

/-- All types are of one class. -/
def OneClass (ts : List PacketType) : Prop :=
  (∀ t ∈ ts, t = .ack) ∨ (∀ t ∈ ts, t = .unencryptedData) ∨ (∀ t ∈ ts, IsClose t)

/-! ### Datagrams of one class -/

theorem bufferInAcks_eq (g : AckBuffer) (e : Option BluefinError) (packets : List BluefinPacket) :
    (bufferInAcks g e packets).2 = ackAll g packets := by
  induction packets generalizing g e with
  | nil => rfl
  | cons p packets ih =>
    have htail : ∀ e, (bufferInAcks (g.bufferInAckPacket p).2 e packets).2 =
        ackAll g (p :: packets) := fun e => ih _ e
    unfold bufferInAcks
    split
    · rename_i err g' heq
      rw [heq] at htail
      exact htail _
    · rename_i res g' _ heq
      rw [heq] at htail
      exact htail _

theorem wakeResult_returns (waker : Option Waker) (e : Option BluefinError) :
    (wakeResult waker e).isPanic = false := by
  cases waker with
  | none => rfl
  | some w => cases e <;> rfl

theorem bufferInClose_eq (g : CloseBuffer) (sawFin : Bool) (packets : List BluefinPacket)
    (h : ∀ p ∈ packets, IsClose p.header.typeField) :
    bufferInClose g sawFin packets =
      (.ok (sawFin || decide (.fin ∈ types packets)), packets.foldl closeOne g) := by
  induction packets generalizing g sawFin with
  | nil => simp [bufferInClose, types]
  | cons p packets ih =>
    have htail := fun q hq => h q (List.mem_cons_of_mem _ hq)
    unfold bufferInClose
    rcases h p (List.mem_cons_self ..) with hp | hp
    · simp [hp, ih _ _ htail, closeOne, types]
    · simp [hp, ih _ _ htail, closeOne, types]

theorem bufferInClose_panics (g : CloseBuffer) (sawFin : Bool) (packets : List BluefinPacket)
    (h : ∃ p ∈ packets, ¬ IsClose p.header.typeField) :
    (bufferInClose g sawFin packets).1 = .panicked (.raised .unreachableClosePacket) := by
  induction packets generalizing g sawFin with
  | nil => simp at h
  | cons p packets ih =>
    have htail : IsClose p.header.typeField → ∃ q ∈ packets, ¬ IsClose q.header.typeField := by
      intro hp
      obtain ⟨q, hq, hother⟩ := h
      rcases List.mem_cons.mp hq with rfl | hq
      · exact absurd hp hother
      · exact ⟨q, hq, hother⟩
    unfold bufferInClose
    cases ht : p.header.typeField with
    | fin => exact ih _ _ (htail (.inl ht))
    | finAck => exact ih _ _ (htail (.inr ht))
    | _ => rfl

theorem bufferInPackets_ack (p : BluefinPacket) (packets : List BluefinPacket)
    (bufs : ConnectionManagedBuffers) (hp : p.header.typeField = .ack) :
    (bufferInPackets (p :: packets) bufs).1.isPanic = false ∧
      (bufferInPackets (p :: packets) bufs).2.1 =
        { bufs with ackBuff := ackAll bufs.ackBuff (p :: packets) } := by
  simp only [bufferInPackets, hp, bufferInAckPackets, bufferInAcks_eq, wakeResult_returns]
  exact ⟨trivial, trivial⟩

theorem bufferInPackets_other (p : BluefinPacket) (packets : List BluefinPacket)
    (bufs : ConnectionManagedBuffers) (hack : p.header.typeField ≠ .ack)
    (hclose : ¬ IsClose p.header.typeField) :
    (bufferInPackets (p :: packets) bufs).1.isPanic = false ∧
      (bufferInPackets (p :: packets) bufs).2.1 =
        { bufs with connBuff.orderedBytes :=
            bufs.connBuff.orderedBytes.bufferAll (p :: packets) } := by
  cases hp : p.header.typeField with
  | ack => exact absurd hp hack
  | fin => exact absurd (.inl hp) hclose
  | finAck => exact absurd (.inr hp) hclose
  | _ =>
    simp only [bufferInPackets, hp, bufferInDataPackets, bufferInData_eq, wakeResult_returns]
    exact ⟨trivial, trivial⟩

theorem bufferInPackets_close (p : BluefinPacket) (packets : List BluefinPacket)
    (bufs : ConnectionManagedBuffers) (hp : IsClose p.header.typeField) :
    bufferInPackets (p :: packets) bufs = bufferInClosePackets bufs (p :: packets) := by
  rcases hp with hp | hp
  · simp only [bufferInPackets, hp]
  · simp only [bufferInPackets, hp]

theorem bufferInClosePackets_eq (bufs : ConnectionManagedBuffers) (packets : List BluefinPacket)
    (h : ∀ p ∈ packets, IsClose p.header.typeField) :
    (bufferInClosePackets bufs packets).1 = .ok () ∧
      ∃ queue, (bufferInClosePackets bufs packets).2.1 =
        { bufs with closeBuff := closeAll bufs.closeBuff packets, finAckTx := queue } := by
  unfold bufferInClosePackets closeAll
  rw [bufferInClose_eq _ _ _ h]
  by_cases hfin : PacketType.fin ∈ types packets
  · simp only [hfin, decide_true, Bool.or_true, if_true]
    exact ⟨trivial, _, rfl⟩
  · simp only [hfin, decide_false, Bool.or_false, if_false]
    exact ⟨trivial, bufs.finAckTx, rfl⟩

theorem respects_nil (bufs : ConnectionManagedBuffers) : RespectsTypes [] bufs where
  returns := rfl
  acks := ⟨[], .slnil, by simp, rfl⟩
  data := ⟨[], .slnil, by simp, rfl⟩
  close := ⟨[], .slnil, by simp, rfl⟩

/-- A datagram of one class is taken whole by the buffer of this class. -/
theorem respects_of_oneClass (packets : List BluefinPacket) (bufs : ConnectionManagedBuffers)
    (h : OneClass (types packets)) : RespectsTypes packets bufs := by
  cases packets with
  | nil => exact respects_nil bufs
  | cons p packets =>
    have hmem : ∀ q ∈ p :: packets, q.header.typeField ∈ types (p :: packets) :=
      fun q hq => List.mem_map_of_mem hq
    have hnil : ([] : List BluefinPacket).Sublist (p :: packets) := List.nil_sublist _
    have hfirst := hmem p (List.mem_cons_self ..)
    rcases h with hall | hall | hall
    · obtain ⟨hret, heq⟩ := bufferInPackets_ack p packets bufs (hall _ hfirst)
      refine ⟨hret, ⟨p :: packets, List.Sublist.refl _, fun q hq => hall _ (hmem q hq), ?_⟩,
        ⟨[], hnil, by simp, ?_⟩, ⟨[], hnil, by simp, ?_⟩⟩
      all_goals rw [heq]
      all_goals rfl
    · have hp := hall _ hfirst
      obtain ⟨hret, heq⟩ := bufferInPackets_other p packets bufs (by simp [hp]) (by simp [hp, IsClose])
      refine ⟨hret, ⟨[], hnil, by simp, ?_⟩,
        ⟨p :: packets, List.Sublist.refl _, fun q hq => hall _ (hmem q hq), ?_⟩,
        ⟨[], hnil, by simp, ?_⟩⟩
      all_goals rw [heq]
      all_goals rfl
    · have hclose : ∀ q ∈ p :: packets, IsClose q.header.typeField :=
        fun q hq => hall _ (hmem q hq)
      obtain ⟨hok, queue, heq⟩ := bufferInClosePackets_eq bufs (p :: packets) hclose
      rw [← bufferInPackets_close p packets bufs (hall _ hfirst)] at hok heq
      refine ⟨by rw [hok]; rfl, ⟨[], hnil, by simp, ?_⟩, ⟨[], hnil, by simp, ?_⟩,
        ⟨p :: packets, List.Sublist.refl _, hclose, ?_⟩⟩
      all_goals rw [heq]
      all_goals rfl

theorem inline_goes_on {bufs : ConnectionManagedBuffers} {datagram : Bytes} {n : ℕ}
    {packets : List BluefinPacket} (hparse : fromBytesInto datagram [] = (.ok n, packets))
    (hret : (bufferInPackets packets bufs).1.isPanic = false) :
    recvAndBufferInline bufs datagram =
      .goOn (bufferInPackets packets bufs).2.1 := by
  rw [recvAndBufferInline, hparse]
  rcases hres : bufferInPackets packets bufs with ⟨res, bufs', woken⟩
  rw [hres] at hret
  cases res with
  | ok _ => simp only [hres]
  | err e => simp only [hres]
  | panicked f => cases hret

/-! ### Datagrams that mix classes -/

/-- A packet of each type. An `Ack` here covers no number, so that what enters the window is not an
acknowledgement; the data packet is not the next expected one. -/
def sample (t : PacketType) : BluefinPacket :=
  match t with
  | .ack => ⟨BluefinHeader.new 2 1 .ack 0 .default, []⟩
  | .unencryptedData =>
    ⟨(BluefinHeader.new 2 1 .unencryptedData 1 .default).withPacketNumber 1, [0]⟩
  | t => ⟨BluefinHeader.new 2 1 t 1 .default, []⟩

theorem sample_type (t : PacketType) : (sample t).header.typeField = t := by
  cases t <;> rfl

theorem types_sample (ts : List PacketType) : types (ts.map sample) = ts := by
  induction ts with
  | nil => rfl
  | cons t ts ih =>
    simp only [types, List.map_cons, sample_type] at ih ⊢
    rw [ih]

theorem sample_encodable (t : PacketType) : (sample t).Encodable := by
  cases t <;> exact ⟨⟨by decide, by decide, by decide⟩, by decide⟩

theorem sample_datagram (ts : List PacketType) (h : ts ≠ []) :
    fromBytesInto (serialiseAll (ts.map sample)) [] = (.ok (ts.map sample).length, ts.map sample) := by
  refine fromBytesInto_serialiseAll _ (by simpa using h) (fun p hp => ?_)
  obtain ⟨t, -, rfl⟩ := List.mem_map.mp hp
  exact sample_encodable t

/-- The buffers of a connection whose peer starts at 0. -/
def freshBuffers : ConnectionManagedBuffers where
  connBuff := .new 1 .client
  ackBuff := .new 0
  closeBuff := .new
  finAckTx := some []

theorem insertPacketNumber_ne_nil (w : SlidingWindow) (n : UInt64)
    (h : w.orderedPacketNumbers ≠ []) : (w.insertPacketNumber n).2.orderedPacketNumbers ≠ [] := by
  unfold SlidingWindow.insertPacketNumber
  split
  · exact h
  · split
    · exact h
    · split
      · simp
      · split
        · simp
        · split
          · exact h
          · split
            · exact h
            · simp [SlidingWindow.insertSorted]

theorem insertEach_ne_nil (ns : List UInt64) (w : SlidingWindow)
    (h : w.orderedPacketNumbers ≠ []) : (w.insertEach ns).2.orderedPacketNumbers ≠ [] := by
  induction ns generalizing w with
  | nil => exact h
  | cons n ns ih =>
    have hone := insertPacketNumber_ne_nil w n h
    unfold SlidingWindow.insertEach
    rcases hres : w.insertPacketNumber n with ⟨res, w'⟩
    rw [hres] at hone
    cases res with
    | ok _ => exact ih w' hone
    | err e => exact hone
    | panicked f => exact hone

theorem insertRange_ne_nil (w : SlidingWindow) (base : UInt64) (count : UInt16)
    (h : w.orderedPacketNumbers ≠ []) : (w.insertRange base count).2.orderedPacketNumbers ≠ [] := by
  unfold SlidingWindow.insertRange
  by_cases hcount : count = 0
  · rw [if_pos hcount]
    exact h
  · rw [if_neg hcount]
    split
    · exact h
    · dsimp only
      split
      · exact h
      · split
        · simp [h]
        · exact insertEach_ne_nil _ _ h

theorem ackAll_ne_nil (packets : List BluefinPacket) (g : AckBuffer)
    (h : g.receivedAcks.orderedPacketNumbers ≠ []) :
    (ackAll g packets).receivedAcks.orderedPacketNumbers ≠ [] := by
  induction packets generalizing g with
  | nil => exact h
  | cons p packets ih => exact ih _ (insertRange_ne_nil _ _ _ h)

theorem ackAll_sample_ack (packets : List BluefinPacket) (g : AckBuffer)
    (h : ∀ p ∈ packets, p = sample .ack) : ackAll g packets = g := by
  induction packets generalizing g with
  | nil => rfl
  | cons p packets ih =>
    obtain rfl : p = sample .ack := h p (List.mem_cons_self ..)
    exact ih _ (fun q hq => h q (List.mem_cons_of_mem _ hq))

theorem ackAll_sample_other (ts : List PacketType) (h : ∃ t ∈ ts, t ≠ .ack) :
    (ackAll (.new 0) (ts.map sample)).receivedAcks.orderedPacketNumbers ≠ [] := by
  induction ts with
  | nil => simp at h
  | cons t ts ih =>
    by_cases ht : t = .ack
    · subst ht
      obtain ⟨t, hmem, hne⟩ := h
      rcases List.mem_cons.mp hmem with rfl | hmem
      · exact absurd rfl hne
      · exact ih ⟨t, hmem, hne⟩
    · -- the first packet that is no Ack enters the empty window
      rw [List.map_cons, ackAll_cons]
      refine ackAll_ne_nil _ _ ?_
      cases t <;> first | exact absurd rfl ht | decide

theorem ack_first_confuses (ts : List PacketType) (h : ∃ t ∈ ts, t ≠ .ack) :
    ¬ RespectsTypes (sample .ack :: ts.map sample) freshBuffers := by
  intro hr
  obtain ⟨as, hsub, htype, heq⟩ := hr.acks
  rw [(bufferInPackets_ack _ _ _ (sample_type .ack)).2] at heq
  have hall : ∀ p ∈ as, p = sample .ack := by
    intro p hp
    have hmem := hsub.subset hp
    rw [← List.map_cons] at hmem
    obtain ⟨t, -, rfl⟩ := List.mem_map.mp hmem
    rw [← htype _ hp, sample_type]
  rw [ackAll_sample_ack as _ hall] at heq
  exact ackAll_sample_other ts h (congrArg (·.receivedAcks.orderedPacketNumbers) heq)

theorem sample_fits_zero {s : OrderedBytes} {t : PacketType} (ht : t ≠ .unencryptedData)
    (hs : s.smallestPacketNumber = 0) (hfree : s.slotAt 0 = none) : s.Fits (sample t) 0 := by
  refine ⟨by decide, ?_, hfree⟩
  rw [hs]
  cases t <;> first | rfl | exact absurd rfl ht

theorem bufferAll_sample_data (packets : List BluefinPacket) (s : OrderedBytes)
    (h : ∀ p ∈ packets, p = sample .unencryptedData) (hs : s.smallestPacketNumber = 0)
    (hfree : s.slotAt 0 = none) : (s.bufferAll packets).slotAt 0 = none := by
  induction packets generalizing s with
  | nil => exact hfree
  | cons p packets ih =>
    obtain rfl : p = sample .unencryptedData := h p (List.mem_cons_self ..)
    rw [OrderedBytes.bufferAll_cons]
    refine ih _ (fun q hq => h q (List.mem_cons_of_mem _ hq)) ?_ ?_
    · rw [OrderedBytes.bufferInPacket_smallest, hs]
    · by_cases hfit : ∃ k, s.Fits (sample .unencryptedData) k
      · obtain ⟨k, hk⟩ := hfit
        have hone : k = 1 := by
          have hnum := hk.2.1
          rw [hs] at hnum
          simpa [sample, BluefinHeader.withPacketNumber] using hnum.symm
        rw [(OrderedBytes.bufferInPacket_fits s _ hk).2.1 0, hone]
        exact hfree
      · rw [(OrderedBytes.bufferInPacket_not_fits s _ (fun k hk => hfit ⟨k, hk⟩)).2]
        exact hfree

theorem bufferAll_keeps_slot (packets : List BluefinPacket) (s : OrderedBytes) {q : BluefinPacket}
    (h : s.slotAt 0 = some q) : (s.bufferAll packets).slotAt 0 = some q := by
  induction packets generalizing s with
  | nil => exact h
  | cons p packets ih => exact ih _ ((OrderedBytes.bufferInPacket_keeps s p).2 0 q h)

theorem bufferAll_sample_other (ts : List PacketType) (s : OrderedBytes)
    (h : ∃ t ∈ ts, t ≠ .unencryptedData) (hs : s.smallestPacketNumber = 0) :
    (s.bufferAll (ts.map sample)).slotAt 0 ≠ none := by
  induction ts generalizing s with
  | nil => simp at h
  | cons t ts ih =>
    by_cases hhead : (s.bufferInPacket (sample t)).2.slotAt 0 = none
    · have ht : t = .unencryptedData := by
        by_contra ht
        cases hslot : s.slotAt 0 with
        | none =>
          have hfit := sample_fits_zero ht hs hslot
          rw [(OrderedBytes.bufferInPacket_fits s _ hfit).2.1 0, if_pos rfl] at hhead
          cases hhead
        | some q =>
          rw [(OrderedBytes.bufferInPacket_keeps s _).2 0 q hslot] at hhead
          cases hhead
      obtain ⟨t', hmem, hne⟩ := h
      rcases List.mem_cons.mp hmem with rfl | hmem
      · exact absurd ht hne
      · exact ih _ ⟨t', hmem, hne⟩ (by rw [OrderedBytes.bufferInPacket_smallest, hs])
    · obtain ⟨q, hq⟩ := Option.ne_none_iff_exists'.mp hhead
      have hkept := bufferAll_keeps_slot (ts.map sample) _ hq
      rw [List.map_cons, OrderedBytes.bufferAll_cons]
      exact fun hnone => Option.some_ne_none q (hkept.symm.trans hnone)

theorem other_first_confuses (t : PacketType) (ts : List PacketType) (hack : t ≠ .ack)
    (hclose : ¬ IsClose t) (h : ∃ t' ∈ t :: ts, t' ≠ .unencryptedData) :
    ¬ RespectsTypes (sample t :: ts.map sample) freshBuffers := by
  intro hr
  obtain ⟨ds, hsub, htype, heq⟩ := hr.data
  rw [(bufferInPackets_other _ _ _ (by rwa [sample_type]) (by rwa [sample_type])).2] at heq
  have hall : ∀ p ∈ ds, p = sample .unencryptedData := by
    intro p hp
    have hmem := hsub.subset hp
    rw [← List.map_cons] at hmem
    obtain ⟨t', -, rfl⟩ := List.mem_map.mp hmem
    rw [← htype _ hp, sample_type]
  have hbytes := congrArg ConnectionBuffer.orderedBytes heq
  have hnone := bufferAll_sample_data ds freshBuffers.connBuff.orderedBytes hall rfl
    (OrderedBytes.slotAt_zero _)
  have hsome := bufferAll_sample_other (t :: ts) freshBuffers.connBuff.orderedBytes h rfl
  rw [List.map_cons] at hsome
  refine hsome ?_
  rw [← hnone]
  exact congrArg (OrderedBytes.slotAt · 0) hbytes

theorem close_first_panics (p : BluefinPacket) (packets : List BluefinPacket)
    (bufs : ConnectionManagedBuffers) (hclose : IsClose p.header.typeField)
    (h : ∃ q ∈ packets, ¬ IsClose q.header.typeField) :
    (bufferInPackets (p :: packets) bufs).1 = .panicked (.raised .unreachableClosePacket) := by
  obtain ⟨q, hq, hother⟩ := h
  have hpanic := bufferInClose_panics bufs.closeBuff false (p :: packets)
    ⟨q, List.mem_cons_of_mem _ hq, hother⟩
  rw [bufferInPackets_close p packets bufs hclose, bufferInClosePackets]
  rcases hres : bufferInClose bufs.closeBuff false (p :: packets) with ⟨res, g⟩
  rw [hres] at hpanic
  obtain rfl : res = .panicked (.raised .unreachableClosePacket) := hpanic
  rfl

/-- A sequence of types is dispatched right in every datagram that has it and
for every state of the buffers, exactly if all types are of one class. -/
theorem dispatch_respects_iff (ts : List PacketType) :
    (∀ datagram n packets bufs, fromBytesInto datagram [] = (.ok n, packets) →
      types packets = ts → RespectsTypes packets bufs) ↔ OneClass ts := by
  constructor
  · intro h
    cases ts with
    | nil => exact .inl (by simp)
    | cons t ts =>
      have hsample := h _ _ _ freshBuffers (sample_datagram (t :: ts) (by simp))
        (types_sample (t :: ts))
      rw [List.map_cons] at hsample
      by_cases hack : t = .ack
      · subst hack
        refine .inl (fun t' ht' => ?_)
        by_contra hne
        rcases List.mem_cons.mp ht' with rfl | ht'
        · exact hne rfl
        · exact ack_first_confuses ts ⟨t', ht', hne⟩ hsample
      · by_cases hclose : IsClose t
        · refine .inr (.inr (fun t' ht' => ?_))
          by_contra hother
          rcases List.mem_cons.mp ht' with rfl | ht'
          · exact hother hclose
          · have hpanic := close_first_panics (sample t) (ts.map sample) freshBuffers
              (by rwa [sample_type]) ⟨sample t', List.mem_map_of_mem ht', by rwa [sample_type]⟩
            have hreturns := hsample.returns
            rw [hpanic] at hreturns
            cases hreturns
        · refine .inr (.inl (fun t' ht' => ?_))
          by_contra hne
          exact other_first_confuses t ts hack hclose ⟨t', ht', hne⟩ hsample
  · intro h datagram n packets bufs _ htypes
    rw [← htypes] at h
    exact respects_of_oneClass packets bufs h

/-- One datagram for each of the three loops: a data packet behind a `Fin`, a data packet behind an
`Ack`, and a `Fin` behind a data packet. -/
theorem mixed_datagrams_confused :
    (bufferInPackets [sample .fin, sample .unencryptedData] freshBuffers).1 =
        .panicked (.raised .unreachableClosePacket) ∧
      (bufferInPackets [sample .ack, sample .unencryptedData] freshBuffers).2.1.ackBuff =
        { freshBuffers.ackBuff with receivedAcks := ⟨0, [1]⟩ } ∧
      (bufferInPackets [sample .unencryptedData, sample .fin]
        freshBuffers).2.1.connBuff.orderedBytes.slotAt 0 = some (sample .fin) ∧
      ∀ t t', fromBytesInto (serialiseAll [sample t, sample t']) [] =
        (.ok 2, [sample t, sample t']) := by
  refine ⟨by rfl, by decide, by rfl, ?_⟩
  intro t t'
  exact sample_datagram [t, t'] (by simp)

end ConnReaderHandler

end Bluefin
