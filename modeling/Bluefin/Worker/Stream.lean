import Bluefin.Net.Delivery
import Bluefin.Worker.Packetiser

/-!
# One direction of a connection, end to end

The sender's channel and `data_queue`, the datagrams it has put on the network
and the receiver's reassembly buffer, in one state. The network delivers any
datagram that was emitted, any number of times and in any order, or never. What
the application was handed is always a prefix of what was sent
(`handed_prefix_sent`).
-/

namespace Bluefin
open Base

namespace Stream

structure State where
  chan : List Bytes
  dataQueue : List Bytes
  nextPacketNum : UInt64
  datagrams : List Bytes
  receiver : OrderedBytes
  -- what the two applications have seen so far
  sent : Bytes
  handed : Bytes

def init (connId : UInt32) (start : UInt64) : State where
  chan := []
  dataQueue := []
  nextPacketNum := start
  datagrams := []
  receiver := .new connId start
  sent := []
  handed := []

inductive Action where
  | send (payload : Bytes)
  | move
  | pack
  | deliver (datagram : Bytes)
  | consume (len : ℕ) (buf : Bytes)
  | consumeBytes (out : List Bytes) (maxPackets : ℕ)

section

variable (srcConnId dstConnId : UInt32)

def packed (st : State) : ℕ × List Bytes × UInt64 × Bytes :=
  WriterHandler.consumeDataInto srcConnId dstConnId st.dataQueue st.nextPacketNum []

/-- A payload is moved only if there is one, the packet numbers do not wrap, the network delivers
what was emitted, and a slice has room for what is asked. -/
def Enabled (st : State) : Action → Prop
  | .send _ => True
  | .move => st.chan ≠ []
  | .pack => st.nextPacketNum ≤ (packed srcConnId dstConnId st).2.2.1
  | .deliver datagram => datagram ∈ st.datagrams
  | .consume len buf => len ≤ buf.length
  | .consumeBytes _ _ => True

instance (st : State) : DecidablePred (Enabled srcConnId dstConnId st)
  | .send _ => inferInstanceAs (Decidable True)
  | .move => inferInstanceAs (Decidable (st.chan ≠ []))
  | .pack => inferInstanceAs (Decidable (st.nextPacketNum ≤ (packed srcConnId dstConnId st).2.2.1))
  | .deliver datagram => inferInstanceAs (Decidable (datagram ∈ st.datagrams))
  | .consume len buf => inferInstanceAs (Decidable (len ≤ buf.length))
  | .consumeBytes _ _ => inferInstanceAs (Decidable True)

/-- A parsed datagram goes into the buffer packet by packet, whatever `buffer_in_packet` returns;
one that does not parse is dropped. -/
def receive (s : OrderedBytes) (datagram : Bytes) : OrderedBytes :=
  match BluefinPacket.fromBytesInto datagram [] with
  | (.ok _, packets) => s.bufferAll packets
  | _ => s

def apply (st : State) : Action → State
  | .send payload => { st with chan := st.chan ++ [payload], sent := st.sent ++ payload }
  | .move => { st with
      chan := st.chan.tail
      dataQueue := st.dataQueue ++ st.chan.head?.toList }
  | .pack =>
    let (packedBytes, queue, num, datagram) := packed srcConnId dstConnId st
    { st with
      dataQueue := queue
      nextPacketNum := num
      datagrams := if packedBytes = 0 then st.datagrams else st.datagrams ++ [datagram] }
  | .deliver datagram => { st with receiver := receive st.receiver datagram }
  | .consume len buf => { st with
      receiver := st.receiver.call (.consume len buf)
      handed := st.handed ++ st.receiver.handedBy (.consume len buf) }
  | .consumeBytes out maxPackets => { st with
      receiver := st.receiver.call (.consumeBytes out maxPackets)
      handed := st.handed ++ st.receiver.handedBy (.consumeBytes out maxPackets) }

def Step (st : State) (a : Action) (st' : State) : Prop :=
  Enabled srcConnId dstConnId st a ∧ st' = apply srcConnId dstConnId st a

end

/-! ### What is on the network -/

theorem dataPackets_carry (srcConnId dstConnId : UInt32) (start : ℕ) (cs ds : List Bytes)
    (n : UInt64) (hn : n.toNat = start + cs.length) (hsmall : n.toNat + ds.length < 2 ^ 64) :
    ∀ p ∈ WriterHandler.dataPackets srcConnId dstConnId n ds,
      OrderedBytes.Carries start (cs ++ ds) p := by
  induction ds generalizing cs n with
  | nil =>
    intro p hp
    cases hp
  | cons d ds ih =>
    rw [List.length_cons] at hsmall
    have hsucc : (n + 1).toNat = start + (cs ++ [d]).length := by
      rw [UInt64.toNat_add, List.length_append]
      simp only [UInt64.toNat_one, List.length_singleton]
      omega
    intro p hp
    rw [WriterHandler.dataPackets, List.mem_cons] at hp
    rcases hp with rfl | hp
    · have hnum : (WriterHandler.dataPacket srcConnId dstConnId n d).header.packetNumber = n := rfl
      refine ⟨by rw [hnum]; omega, cs.length, by rw [hnum, hn], ?_⟩
      rw [List.getElem?_append_right (Nat.le_refl _), Nat.sub_self]
      rfl
    · have htail := ih (cs ++ [d]) (n + 1) hsucc 
        (by rw [hsucc, List.length_append, List.length_singleton]; omega) p hp
      rw [List.append_assoc, List.singleton_append] at htail
      exact htail

/-- A datagram that parses into packets of the sender. -/
def Genuine (start : ℕ) (cs : List Bytes) (datagram : Bytes) : Prop :=
  ∃ ps, BluefinPacket.fromBytesInto datagram [] = (.ok ps.length, ps) ∧
    ∀ p ∈ ps, OrderedBytes.Carries start cs p

/-! ### The invariant -/

/-- All chunks cut so far are `cs`, the abstract run of the receiver is `es` and `a`. -/
structure Good (start : ℕ) (st : State) (cs : List Bytes) (es : List (Reassembly.Event UInt8))
    (a : OrderedBytes.AbstractReceiver) : Prop where
  num_eq : st.nextPacketNum.toNat = start + cs.length
  content : cs.flatten ++ (st.dataQueue.flatten ++ st.chan.flatten) = st.sent
  genuine : ∀ d ∈ st.datagrams, Genuine start cs d
  fed : st.receiver.Fed start cs es a
  handed_eq : Reassembly.delivered es = st.handed

theorem good_init (connId : UInt32) (start : UInt64) :
    Good start.toNat (init connId start) [] [] (Reassembly.init start.toNat) where
  num_eq := rfl
  content := rfl
  genuine := by
    intro d hd
    cases hd
  fed := OrderedBytes.fed_new connId start []
  handed_eq := rfl

theorem good_pack (srcConnId dstConnId : UInt32) {start : ℕ} {st : State} {cs : List Bytes}
    {es : List (Reassembly.Event UInt8)} {a : OrderedBytes.AbstractReceiver}
    (h : Good start st cs es a)
    (hnum : st.nextPacketNum ≤ (packed srcConnId dstConnId st).2.2.1) :
    ∃ cs', Good start (apply srcConnId dstConnId st .pack) cs' es a := by
  obtain ⟨rest, hcall, hrest⟩ :=
    WriterHandler.consumeDataInto_eq srcConnId dstConnId st.dataQueue st.nextPacketNum []
  rw [packed, hcall] at hnum
  have hcut := WriterHandler.cut_cutInto st.dataQueue.flatten
  have hcount := WriterHandler.cut_length_le st.dataQueue.flatten
  have hpieces := WriterHandler.cut_ne_nil st.dataQueue.flatten
  simp only [apply, packed, hcall, List.nil_append]
  generalize WriterHandler.cut 10 st.dataQueue.flatten = ds at hnum hcut hcount hpieces ⊢
  have hsum : (st.nextPacketNum + UInt64.ofNat ds.length).toNat =
      (st.nextPacketNum.toNat + ds.length) % 2 ^ 64 := by
    rw [UInt64.toNat_add, UInt64.toNat_ofNat', Nat.add_mod_mod]
  have hle : st.nextPacketNum.toNat ≤ (st.nextPacketNum + UInt64.ofNat ds.length).toNat :=
    UInt64.le_iff_toNat_le.mp hnum
  have hlt := st.nextPacketNum.toNat_lt
  have hwrap : st.nextPacketNum.toNat + ds.length < 2 ^ 64 := by omega
  have hcarry := dataPackets_carry srcConnId dstConnId start cs ds _ h.num_eq hwrap
  refine ⟨cs ++ ds, ?_, ?_, ?_, OrderedBytes.fed_append h.fed ds, h.handed_eq⟩
  · rw [hsum, Nat.mod_eq_of_lt hwrap, h.num_eq, List.length_append, Nat.add_assoc]
  · simp only [List.flatten_append, hcut.flatten_eq, hrest]
    rw [← h.content, List.append_assoc, ← List.append_assoc (st.dataQueue.flatten.take 15000),
      List.take_append_drop]
  · intro d hd
    have hold : ∀ d ∈ st.datagrams, Genuine start (cs ++ ds) d := by
      intro d hd
      obtain ⟨ps, hps, hgen⟩ := h.genuine d hd
      exact ⟨ps, hps, fun p hp => OrderedBytes.carries_append (hgen p hp) ds⟩
    by_cases hzero : min st.dataQueue.flatten.length 15000 = 0
    · simp only [if_pos hzero] at hd
      exact hold d hd
    · simp only [if_neg hzero] at hd
      rcases List.mem_append.mp hd with hd | hd
      · exact hold d hd
      · rw [List.mem_singleton.mp hd]
        have hds : ds ≠ [] := hpieces (fun hnil => hzero (by rw [hnil]; rfl))
        exact ⟨_, WriterHandler.fromBytesInto_dataPackets _ _ _ ds hds hcut.ne_nil hcut.length_le,
          hcarry⟩

theorem good_step (srcConnId dstConnId : UInt32) {start : ℕ} {st st' : State} {act : Action}
    (hstep : Step srcConnId dstConnId st act st') (h : ∃ cs es a, Good start st cs es a) :
    ∃ cs es a, Good start st' cs es a := by
  obtain ⟨cs, es, a, h⟩ := h
  obtain ⟨hen, rfl⟩ := hstep
  cases act with
  | send payload =>
    refine ⟨cs, es, a, h.num_eq, ?_, h.genuine, h.fed, h.handed_eq⟩
    simp [apply, ← h.content, List.append_assoc]
  | move =>
    refine ⟨cs, es, a, h.num_eq, ?_, h.genuine, h.fed, h.handed_eq⟩
    obtain ⟨c, rest, hc⟩ := List.exists_cons_of_ne_nil hen
    simp [apply, ← h.content, hc]
  | pack =>
    obtain ⟨cs', h'⟩ := good_pack srcConnId dstConnId h hen
    exact ⟨cs', es, a, h'⟩
  | deliver datagram =>
    obtain ⟨ps, hps, hgen⟩ := h.genuine datagram hen
    obtain ⟨es', a', hfed, hsame⟩ := OrderedBytes.fed_bufferAll h.fed ps hgen
    refine ⟨cs, es', a', h.num_eq, h.content, h.genuine, ?_, hsame.trans h.handed_eq⟩
    simp only [apply, receive, hps]
    exact hfed
  | consume len buf =>
    obtain ⟨es', a', hfed, hmore⟩ := OrderedBytes.fed_consume h.fed len buf hen
    refine ⟨cs, es', a', h.num_eq, h.content, h.genuine, hfed, ?_⟩
    rw [hmore, h.handed_eq]
    rfl
  | consumeBytes out maxPackets =>
    obtain ⟨es', a', hfed, hmore⟩ := OrderedBytes.fed_consumeBytes h.fed out maxPackets
    refine ⟨cs, es', a', h.num_eq, h.content, h.genuine, hfed, ?_⟩
    rw [hmore, h.handed_eq]
    rfl

theorem good_prefix {start : ℕ} {st : State} {cs : List Bytes} {es : List (Reassembly.Event UInt8)}
    {a : OrderedBytes.AbstractReceiver} (h : Good start st cs es a) : st.handed <+: st.sent := by
  have hsent : cs.flatten <+: st.sent := by
    rw [← h.content]
    exact List.prefix_append ..
  rw [← h.handed_eq]
  exact (OrderedBytes.fed_prefix h.fed).trans hsent

/-- In every run, whatever the network delivers and whatever the application
asks for, the bytes handed out are a prefix of the bytes sent. -/
theorem handed_prefix_sent (srcConnId dstConnId connId : UInt32) (start : UInt64)
    (acts : List Action) (st : State)
    (hrun : Run (Step srcConnId dstConnId) (init connId start) acts st) :
    st.handed <+: st.sent := by
  obtain ⟨cs, es, a, h⟩ := Run.invariant
    (P := fun _ st => ∃ cs es a, Good start.toNat st cs es a)
    ⟨_, _, _, good_init connId start⟩
    (fun _ _ _ _ _ h hstep => good_step srcConnId dstConnId hstep h) hrun
  exact good_prefix h

/-- The datagram of one byte. -/
def byteDatagram (packetNumber : UInt64) (byte : UInt8) : Bytes :=
  BluefinPacket.serialiseAll (WriterHandler.dataPackets 2 1 packetNumber [[byte]])

/-- Two packets that come in the wrong order, the second one twice. -/
def overtaking : List Action :=
  [.send [5], .move, .pack, .send [6], .move, .pack, .deliver (byteDatagram 8 6),
    .consumeBytes [] 2, .deliver (byteDatagram 7 5), .deliver (byteDatagram 8 6),
    .consume 1 [0], .deliver (byteDatagram 8 6), .consume 1 [0]]

theorem handed_prefix_sent_overtaking : ∃ st, Run (Step 2 1) (init 1 7) overtaking st ∧
    st.handed = [5, 6] ∧ st.handed <+: st.sent := by
  have hcomputed : (overtaking.foldlM (fun st act =>
      if Enabled 2 1 st act then some (apply 2 1 st act) else none) (init 1 7)).map
        (·.handed) = some [5, 6] := by
    decide +kernel
  obtain ⟨st, hr, hhanded⟩ := @Run.exists_of_foldlM _ _ (Step 2 1) _ _ _ _ _ _
    (fun act _ s t h => by
      obtain ⟨henabled, happly⟩ := Option.ite_none_right_eq_some.mp h
      exact ⟨henabled, (Option.some.inj happly).symm⟩) hcomputed
  exact ⟨st, hr, hhanded, handed_prefix_sent 2 1 1 7 _ _ hr⟩

end Stream

end Bluefin
