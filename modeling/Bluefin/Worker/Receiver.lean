import Bluefin.Net.Consumption
import Bluefin.Worker.Dispatch
import Bluefin.Worker.Eof

/-!
# The reader and the packets it has consumed

The machine of `Reader` with a record of the packet numbers that have left the
reassembly buffer. Every packet may arrive and every call may be made. A step
buffers packets, or takes the next ones out and accounts for them, or it is a
call that panics and leaves the reader crashed for good.
-/

namespace Bluefin
open Base

namespace Receiver

/-- The history variable `consumed` is not kept by the program. -/
structure State where
  reader : Reader.State
  consumed : Set UInt64

abbrev State.bytes (st : State) : OrderedBytes := st.reader.bytes

abbrev State.rx (st : State) : ReaderRxChannel := st.reader.task.rx

abbrev State.crashed (st : State) : Prop := st.reader.task.pc = .crashed

def step (st : State) (act : Reader.Action) : Option State :=
  (Reader.step st.reader act).map fun reader =>
    ⟨reader, st.consumed ∪ {n | st.bytes.Holds n ∧ ¬ reader.bytes.Holds n}⟩

/-- A connection after its handshake, before the first read: the reassembly buffer waits for the
packet numbered `start`. -/
structure Init (start : UInt64) (st : State) : Prop where
  bytes : ∃ connId, st.bytes = .new connId start
  task : st.reader.task = .new
  consumed : st.consumed = ∅

/-! ### What one step can do -/

/-- The numbers of the `m` packets from the smallest expected one on. -/
def nextNumbers (s : OrderedBytes) (m : ℕ) : Set UInt64 :=
  {n | s.smallestPacketNumber.toNat ≤ n.toNat ∧ n.toNat < s.smallestPacketNumber.toNat + m}

/-- What a call does to the channel's counters once its consume gave `res`. -/
def accountFor (rx : ReaderRxChannel) : BluefinResult ConsumeResult → ReaderRxChannel
  | .ok r => rx.account r
  | _ => rx

/-- How many packets a call takes out of the buffer. -/
def callCount (b : ConnectionManagedBuffers) (c : Reader.ReadCall) : ℕ :=
  match b.connBuff.addr, c with
  | none, _ => 0
  | some _, .read bytesToRead _ => b.connBuff.orderedBytes.consumeCount bytesToRead
  | some _, .readBytes _ maxPackets => b.connBuff.orderedBytes.consumeBytesCount maxPackets

/-- How many packets the next step of the call in progress takes. -/
def takes (st : Reader.State) : ℕ :=
  match st.task.pc with
  | .consuming c => callCount st.bufs c
  | _ => 0

inductive Effect (st : State) (act : Reader.Action) (st' : State) : Prop
  | buffered (packets : List BluefinPacket) (hact : packets = [] ∨ act = .arrive packets)
      (htakes : act = .task → takes st.reader = 0)
      (hbytes : st'.bytes = st.bytes.bufferAll packets) (hrx : st'.rx = st.rx)
      (hconsumed : st'.consumed = st.consumed)
  | took (res : BluefinResult ConsumeResult) (hact : act = .task)
      (htook : st.bytes.Took (takes st.reader) st'.bytes)
      (hreports : st.bytes.Reports res (takes st.reader)) (hrx : st'.rx = accountFor st.rx res)
      (hconsumed : st'.consumed = st.consumed ∪ nextNumbers st.bytes (takes st.reader))
      (hin : st.bytes.InOrder)
  | crashed (hpc : st'.crashed) (hrx : st'.rx = st.rx) (hconsumed : st.consumed ⊆ st'.consumed)

theorem woken_rx {t t' : Reader.Task} (h : Reader.Woken t t') : t'.rx = t.rx := by
  rcases h with rfl | rfl
  · rfl
  · unfold Reader.Task.wake
    split <;> rfl

theorem woken_crashed {t t' : Reader.Task} (h : Reader.Woken t t') (hpc : t.pc = .crashed) :
    t'.pc = .crashed := by
  rcases h with rfl | rfl
  · exact hpc
  · simp only [Reader.Task.wake, hpc]

theorem arrive_woken {st st' : Reader.State} {packets : List BluefinPacket}
    (h : Reader.step st (.arrive packets) = some st') :
    st'.bufs = (ConnReaderHandler.bufferInPackets packets st.bufs).2.1 ∧
      Reader.Woken st.task st'.task := by
  rcases hres : ConnReaderHandler.bufferInPackets packets st.bufs with ⟨res, bufs, woken⟩
  simp only [Reader.step, hres, Option.some.injEq] at h
  rw [← h]
  refine ⟨rfl, ?_⟩
  cases woken with
  | none => exact Or.inl rfl
  | some w => exact Or.inr rfl

theorem settle_rx (t : Reader.Task) (res : BluefinResult (ConsumeResult × SocketAddr))
    (bytes : ConsumeResult → Bytes) :
    (t.settle res bytes).rx = accountFor t.rx (res.map Prod.fst) := by
  unfold Reader.Task.settle
  cases res <;> rfl

theorem bufferInPackets_bytes (packets : List BluefinPacket) (bufs : ConnectionManagedBuffers) :
    ∃ added, (added = [] ∨ added = packets) ∧
      (ConnReaderHandler.bufferInPackets packets bufs).2.1.connBuff.orderedBytes =
        bufs.connBuff.orderedBytes.bufferAll added := by
  cases packets with
  | nil => exact ⟨[], .inl rfl, rfl⟩
  | cons p packets =>
    by_cases hack : p.header.typeField = .ack
    · refine ⟨[], .inl rfl, ?_⟩
      rw [(ConnReaderHandler.bufferInPackets_ack p packets bufs hack).2]
      rfl
    by_cases hclose : ConnReaderHandler.IsClose p.header.typeField
    · refine ⟨[], .inl rfl, ?_⟩
      rw [ConnReaderHandler.bufferInPackets_close p packets bufs hclose]
      unfold ConnReaderHandler.bufferInClosePackets
      split <;> rfl
    · refine ⟨p :: packets, .inr rfl, ?_⟩
      rw [(ConnReaderHandler.bufferInPackets_other p packets bufs hack hclose).2]

theorem finish_effect (b : ConnectionManagedBuffers) (t : Reader.Task) (c : Reader.ReadCall)
    (hin : b.connBuff.orderedBytes.InOrder) :
    ((Reader.finish b t c).2.pc = .crashed ∧ (Reader.finish b t c).2.rx = t.rx) ∨
      ∃ res, b.connBuff.orderedBytes.Took (callCount b c)
          (Reader.finish b t c).1.connBuff.orderedBytes ∧
        b.connBuff.orderedBytes.Reports res (callCount b c) ∧
        (Reader.finish b t c).2.rx = accountFor t.rx res := by
  cases c with
  | read bytesToRead buf =>
    simp only [Reader.finish, ConnectionBuffer.consume]
    cases haddr : b.connBuff.addr with
    | none => exact Or.inl ⟨rfl, rfl⟩
    | some addr =>
      have htook := OrderedBytes.consume_took hin bytesToRead buf
      rcases hres : b.connBuff.orderedBytes.consume bytesToRead buf with ⟨res, bytes, buf'⟩
      rw [hres] at htook
      cases res with
      | ok r =>
        obtain ⟨hm, hreports⟩ := htook (fun f hf => by cases hf)
        rw [show callCount b (.read bytesToRead buf) =
          b.connBuff.orderedBytes.consumeCount bytesToRead by simp only [callCount, haddr]]
        exact Or.inr ⟨.ok r, hm, hreports, rfl⟩
      | err e => exact Or.inl ⟨rfl, rfl⟩
      | panicked f => exact Or.inl ⟨rfl, rfl⟩
  | readBytes out maxPackets =>
    right
    simp only [Reader.finish, ConnectionBuffer.consumeBytes]
    cases haddr : b.connBuff.addr with
    | none =>
      rw [show callCount b (.readBytes out maxPackets) = 0 by simp only [callCount, haddr]]
      refine ⟨.err ConnectionBuffer.noAddr, OrderedBytes.took_zero _, ?_, rfl⟩
      exact ⟨Nat.zero_le _, (fun r hr => by cases hr), fun _ _ => rfl⟩
    | some addr =>
      obtain ⟨hm, hreports⟩ := OrderedBytes.consumeBytes_took hin out maxPackets
      rcases hres : b.connBuff.orderedBytes.consumeBytes out maxPackets with ⟨res, bytes, out'⟩
      rw [hres] at hm hreports
      rw [show callCount b (.readBytes out maxPackets) =
        b.connBuff.orderedBytes.consumeBytesCount maxPackets by simp only [callCount, haddr]]
      refine ⟨res, hm, hreports, ?_⟩
      rw [settle_rx, Outcome.map_map]
      cases res <;> rfl

theorem consumed_bufferAll (consumed : Set UInt64) {s s' : OrderedBytes}
    {packets : List BluefinPacket} (h : s' = s.bufferAll packets) :
    consumed ∪ {n | s.Holds n ∧ ¬ s'.Holds n} = consumed := by
  subst h
  apply Set.union_eq_self_of_subset_right
  rintro n ⟨hbefore, hafter⟩
  exact absurd (OrderedBytes.holds_bufferAll hbefore packets) hafter

theorem consumed_took {s s' : OrderedBytes} {m : ℕ} (hin : s.InOrder) (h : s.Took m s') :
    {n | s.Holds n ∧ ¬ s'.Holds n} = nextNumbers s m :=
  Set.ext fun n => OrderedBytes.took_left_iff hin h n

theorem taskStep_quiet {b b' : ConnectionManagedBuffers} {t t' : Reader.Task}
    (hpc : ∀ c, t.pc ≠ .consuming c) (h : Reader.taskStep 0 b t = some (b', t')) :
    b'.connBuff.orderedBytes = b.connBuff.orderedBytes ∧ t'.rx = t.rx := by
  unfold Reader.taskStep at h
  split at h
  · cases h
  · unfold Reader.poll at h
    split at h
    · cases h
      exact ⟨rfl, rfl⟩
    · split at h
      · cases h
        exact ⟨rfl, rfl⟩
      · cases h
        exact ⟨rfl, rfl⟩
  · cases h
  · cases h
    exact ⟨rfl, rfl⟩
  · unfold Reader.checkEof at h
    cases h
    refine ⟨rfl, ?_⟩
    split <;> rfl
  · rename_i c hconsuming
    exact absurd hconsuming (hpc c)
  · cases h

theorem step_effect {st st' : State} {act : Reader.Action} (hin : st.crashed ∨ st.bytes.InOrder)
    (h : step st act = some st') : Effect st act st' := by
  obtain ⟨reader, hstep, rfl⟩ := Option.map_eq_some_iff.mp h
  cases act with
  | arrive packets =>
    obtain ⟨hbufs, hwoken⟩ := arrive_woken hstep
    obtain ⟨added, hadded, hbytes⟩ := bufferInPackets_bytes packets st.reader.bufs
    rw [← hbufs] at hbytes
    refine .buffered added ?_ (fun h => by cases h) hbytes (woken_rx hwoken)
      (consumed_bufferAll _ hbytes)
    rcases hadded with h | rfl
    · exact Or.inl h
    · exact Or.inr rfl
  | call c =>
    have hbytes : reader.bytes = st.bytes.bufferAll [] ∧ reader.task.rx = st.rx := by
      simp only [Reader.step] at hstep
      split at hstep
      · cases hstep
        exact ⟨rfl, rfl⟩
      · cases hstep
    exact .buffered [] (.inl rfl) (fun h => by cases h) hbytes.1 hbytes.2
      (consumed_bufferAll _ hbytes.1)
  | task =>
    obtain ⟨⟨bufs, task⟩, htask, rfl⟩ := Option.map_eq_some_iff.mp hstep
    by_cases hpc : ∃ c, st.reader.task.pc = .consuming c
    · obtain ⟨c, hpc⟩ := hpc
      have hbytes : st.bytes.InOrder := by
        rcases hin with hcrashed | hbytes
        · rw [State.crashed, hpc] at hcrashed
          cases hcrashed
        · exact hbytes
      have htakes : takes st.reader = callCount st.reader.bufs c := by rw [takes, hpc]
      have hfin := finish_effect st.reader.bufs st.reader.task c hbytes
      simp only [Reader.taskStep, hpc] at htask
      rw [Option.some.inj htask, ← htakes] at hfin
      rcases hfin with ⟨hcrash, hrx⟩ | ⟨res, htook, hreports, hrx⟩
      · exact .crashed hcrash hrx Set.subset_union_left
      · refine .took res rfl htook hreports hrx ?_ hbytes
        exact congrArg (st.consumed ∪ ·) (consumed_took hbytes htook)
    · obtain ⟨hbytes, hrx⟩ := taskStep_quiet (fun c hc => hpc ⟨c, hc⟩) htask
      have htakes : takes st.reader = 0 := by
        unfold takes
        split
        · rename_i c hc
          exact absurd ⟨c, hc⟩ hpc
        · rfl
      exact @Effect.buffered st .task _ [] (.inl rfl) (fun _ => htakes) hbytes hrx
        (@consumed_bufferAll _ _ _ [] hbytes)

/-! ### Whole runs -/

theorem crashed_step {st st' : State} {act : Reader.Action} (h : st.crashed)
    (hs : step st act = some st') : st'.crashed := by
  obtain ⟨reader, hstep, rfl⟩ := Option.map_eq_some_iff.mp hs
  cases act with
  | arrive packets => exact woken_crashed (arrive_woken hstep).2 h
  | call c =>
    simp only [Reader.step, h] at hstep
    cases hstep
  | task =>
    simp only [Reader.step, Reader.taskStep, h] at hstep
    cases hstep

theorem step_inOrder {st st' : State} {act : Reader.Action} (hin : st.crashed ∨ st.bytes.InOrder)
    (h : step st act = some st') : st'.crashed ∨ st'.bytes.InOrder := by
  rcases hin with hcrashed | hin
  · -- a crashed reader does nothing any more
    exact Or.inl (crashed_step hcrashed h)
  · cases step_effect (Or.inr hin) h with
    | buffered packets _ _ hbytes =>
      rw [hbytes]
      exact Or.inr (OrderedBytes.inOrder_bufferAll hin packets)
    | took res _ htook => exact Or.inr (OrderedBytes.took_inOrder hin htook)
    | crashed hpc => exact Or.inl hpc

theorem init_inOrder {start : UInt64} {st : State} (h : Init start st) : st.bytes.InOrder := by
  obtain ⟨connId, hbytes⟩ := h.bytes
  rw [hbytes]
  exact OrderedBytes.inOrder_new connId start

/-! ### One `read_bytes` call from start to end -/

theorem foldlM_of_reader {acts : List Reader.Action} {st : State} {r : Reader.State}
    (h : acts.foldlM Reader.step st.reader = some r) :
    ∃ st', acts.foldlM step st = some st' ∧ st'.reader = r := by
  induction acts generalizing st with
  | nil =>
    cases h
    exact ⟨st, rfl, rfl⟩
  | cons act acts ih =>
    rw [List.foldlM_cons] at h
    obtain ⟨u, hu, hrest⟩ := Option.bind_eq_some_iff.mp h
    obtain ⟨st', hst', hreader⟩ :=
      @ih ⟨u, st.consumed ∪ {n | st.bytes.Holds n ∧ ¬ u.bytes.Holds n}⟩ hrest
    refine ⟨st', ?_, hreader⟩
    rw [List.foldlM_cons, step, hu]
    exact hst'

theorem arrive_reader {r : Reader.State} (hidle : r.task.pc = .idle) {p : BluefinPacket}
    (hp : p.header.typeField = .unencryptedData) (ps : List BluefinPacket) :
    Reader.step r (.arrive (p :: ps)) =
      some { r with bufs.connBuff.orderedBytes := r.bytes.bufferAll (p :: ps) } := by
  have hstep : ∃ r', Reader.step r (.arrive (p :: ps)) = some r' := ⟨_, rfl⟩
  obtain ⟨⟨bufs, task⟩, hr'⟩ := hstep
  obtain ⟨hbufs, hwoken⟩ := arrive_woken hr'
  have htask : task = r.task := by
    rcases hwoken with h | h
    · exact h
    · rw [Reader.Task.wake, hidle] at h
      exact h
  rw [(ConnReaderHandler.bufferInPackets_other p ps r.bufs (by simp [hp])
    (by simp [hp, ConnReaderHandler.IsClose])).2] at hbufs
  simp only at hbufs
  rw [hr', htask, hbufs]

def readBytes (maxPackets : ℕ) : List Reader.Action :=
  [.call (.readBytes [] maxPackets), .task, .task, .task]

theorem readBytes_reader {r : Reader.State} {addr : SocketAddr} {p : BluefinPacket}
    {ps : List BluefinPacket} {maxPackets : ℕ} (hidle : r.task.pc = .idle)
    (hflag : r.flag = false) (haddr : r.bufs.connBuff.addr = some addr)
    (hcarry : r.bytes.carryOverBytes = none) (hrun : r.bytes.run = p :: ps) (hmax : 0 < maxPackets) :
    ∃ bytes replies, (readBytes maxPackets).foldlM Reader.step r = some
      { bufs := { r.bufs with connBuff.orderedBytes :=
          (r.bytes.setCarry none).popAll ((p :: ps).take maxPackets) }
        task := ⟨r.task.rx.account
          ⟨((p :: ps).take maxPackets).length, r.bytes.basePacketNumber, bytes⟩, .idle, replies⟩ } := by
  obtain ⟨bufs, task⟩ := r
  dsimp only [Reader.State.bytes, Reader.State.flag] at hidle hflag haddr hcarry hrun ⊢
  have hpeek : bufs.connBuff.peek = .ok () := by
    have hhead : bufs.connBuff.orderedBytes.slotAt 0 ≠ none := by
      intro hnone
      rw [OrderedBytes.run_of_none _ hnone] at hrun
      cases hrun
    rw [OrderedBytes.slotAt_zero] at hhead
    simp [ConnectionBuffer.peek, OrderedBytes.peek, haddr, Option.isSome_iff_ne_none, hhead]
  have hconsume := OrderedBytes.consumeBytes_eq bufs.connBuff.orderedBytes [] maxPackets
  have hpieces : OrderedBytes.payloads ((p :: ps).take maxPackets) ≠ [] := by
    obtain ⟨k, rfl⟩ := Nat.exists_eq_add_one.mpr hmax
    simp [OrderedBytes.payloads]
  simp only [hcarry, hrun, Option.toList_none, List.length_nil, Nat.sub_zero, List.nil_append,
    if_neg hpieces] at hconsume
  refine ⟨(OrderedBytes.payloads ((p :: ps).take maxPackets)).flatten.length, task.replies ++
    [⟨.ok ((OrderedBytes.payloads ((p :: ps).take maxPackets)).flatten.length, addr),
      (OrderedBytes.payloads ((p :: ps).take maxPackets)).flatten⟩], ?_⟩
  simp only [readBytes, List.foldlM_cons, List.foldlM_nil, Reader.step, hidle, Reader.taskStep,
    Reader.poll, hpeek, hflag, Reader.finish, ConnectionBuffer.consumeBytes, haddr, hconsume,
    Option.bind_eq_bind, Option.bind_some, Option.map_some, Bool.false_eq_true, if_false,
    Outcome.map_ok, Reader.Task.settle, Reader.Task.reply]
  rfl

/-! ### A stream of small packets -/

def waiting : State := ⟨⟨Reader.clientBufs, .new⟩, ∅⟩

theorem waiting_init : Init 7 waiting := ⟨⟨1, rfl⟩, rfl, rfl⟩

/-- The first `count` data packets from 7 on, of one byte each. -/
def firstPackets (count : ℕ) : List BluefinPacket := (List.range count).map fun k =>
  ⟨(BluefinHeader.new 2 1 .unencryptedData 1 .default).withPacketNumber (UInt64.ofNat (7 + k)), [0]⟩

theorem firstPackets_number {count k : ℕ} {p : BluefinPacket} (h : (firstPackets count)[k]? = some p)
    (hcount : count ≤ maxBufferSize) :
    p.header.packetNumber.toNat = (7 : UInt64).toNat + k ∧ k < count := by
  simp only [firstPackets, List.getElem?_map, Option.map_eq_some_iff, List.getElem?_eq_some_iff,
    List.length_range, List.getElem_range] at h
  obtain ⟨j, ⟨hlt, rfl⟩, rfl⟩ := h
  have hmax : maxBufferSize = 2000 := rfl
  refine ⟨?_, hlt⟩
  change (UInt64.ofNat (7 + k)).toNat = 7 + k
  rw [UInt64.toNat_ofNat']
  omega

theorem firstPackets_length (count : ℕ) : (firstPackets count).length = count := by
  rw [firstPackets, List.length_map, List.length_range]

/-- The reader of `waiting` once `count` packets have arrived and `k` of them
were read. -/
structure ReadUpTo (count k : ℕ) (r : Reader.State) : Prop where
  idle : r.task.pc = .idle
  flag : r.flag = false
  addr : r.bufs.connBuff.addr = some 9
  carry : r.bytes.carryOverBytes = none
  inOrder : r.bytes.InOrder
  smallest : r.bytes.smallestPacketNumber = UInt64.ofNat (7 + k)
  slots : ∀ j, r.bytes.slotAt j = (firstPackets count)[k + j]?

theorem readUpTo_arrive {count : ℕ} (hpos : 0 < count) (hcount : count ≤ maxBufferSize) :
    ∃ r, Reader.step waiting.reader (.arrive (firstPackets count)) = some r ∧
      ReadUpTo count 0 r ∧ r.task.rx = .new := by
  have hslots := OrderedBytes.slotAt_bufferAll_new 1 7 (firstPackets count)
    (fun k p hp => (firstPackets_number hp hcount).1) (by rw [firstPackets_length]; exact hcount)
  have hcarry := (OrderedBytes.bufferAll_keeps (.new 1 7) (firstPackets count)).1
  have hin := OrderedBytes.inOrder_bufferAll (OrderedBytes.inOrder_new 1 7) (firstPackets count)
  have hsmallest := OrderedBytes.bufferAll_smallest (.new 1 7) (firstPackets count)
  obtain ⟨p, ps, hps⟩ := List.exists_cons_of_length_pos
    (show 0 < (firstPackets count).length by rw [firstPackets_length]; exact hpos)
  have hp : p.header.typeField = .unencryptedData := by
    have hmem : p ∈ firstPackets count := by
      rw [hps]
      exact List.mem_cons_self ..
    obtain ⟨k, -, rfl⟩ := List.mem_map.mp hmem
    rfl
  rw [hps] at hslots hcarry hin hsmallest ⊢
  refine ⟨_, arrive_reader rfl hp ps, ⟨rfl, rfl, rfl, hcarry, hin, hsmallest, fun j => ?_⟩, rfl⟩
  rw [hps, Nat.zero_add]
  exact hslots j

theorem readUpTo_read {count k m : ℕ} {r : Reader.State} (h : ReadUpTo count k r)
    (hcount : count ≤ maxBufferSize) (hk : k < count) (hm : 0 < m) :
    ∃ r' bytes, (readBytes m).foldlM Reader.step r = some r' ∧
      ReadUpTo count (k + min m (count - k)) r' ∧
      r'.task.rx = r.task.rx.account ⟨min m (count - k), UInt64.ofNat (7 + k), bytes⟩ := by
  have hlen := firstPackets_length count
  have hrun : r.bytes.run = (firstPackets count).drop k := by
    apply OrderedBytes.run_of_slots
    · intro j
      rw [h.slots j, List.getElem?_drop]
    · rw [List.length_drop, hlen]
      omega
  have hcons := List.drop_eq_getElem_cons (show k < (firstPackets count).length by omega)
  have htaken : (((firstPackets count).drop k).take m).length = min m (count - k) := by
    rw [List.length_take, List.length_drop, hlen]
  have hbase : r.bytes.basePacketNumber = UInt64.ofNat (7 + k) := by
    have hhead := h.slots 0
    rw [OrderedBytes.slotAt_zero, Nat.add_zero, List.getElem?_eq_getElem (by omega)] at hhead
    rw [OrderedBytes.basePacketNumber, hhead]
    simp [firstPackets, BluefinHeader.withPacketNumber]
  have hread := readBytes_reader h.idle h.flag h.addr h.carry (hrun.trans hcons) hm
  rw [← hcons, htaken, hbase] at hread
  obtain ⟨bytes, replies, hread⟩ := hread
  have htook := OrderedBytes.took_take h.inOrder m
  rw [hrun, htaken] at htook
  have htook' := OrderedBytes.took_setCarry htook none
  rw [← OrderedBytes.popAll_setCarry] at htook'
  refine ⟨_, bytes, hread, ⟨rfl, h.flag, h.addr, ?_, ?_, ?_, fun j => ?_⟩, rfl⟩
  · simp only [Reader.State.bytes, OrderedBytes.popAll_setCarry]
    rfl
  · exact OrderedBytes.took_inOrder h.inOrder htook'
  · rw [Reader.State.bytes, htook'.smallest, h.smallest, ← UInt64.ofNat_add, Nat.add_assoc]
  · rw [Reader.State.bytes, htook'.slots j, h.slots]
    congr 1
    omega

end Receiver

end Bluefin
