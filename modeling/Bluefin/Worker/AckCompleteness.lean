import Bluefin.Worker.Receiver

/-!
# Which consumed packets are acknowledged

A reader counts the packets of several calls until it acknowledges, but the ack
covers the packets of its last consume only. Right after each ack everything
consumed is acknowledged exactly if no call that acknowledges follows a call
that took packets and did not.
-/

namespace Bluefin
open Base

namespace Receiver

/-- Data packets with a payload, numbered from 1 on. -/
def DataArrival : Reader.Action → Prop
  | .arrive packets => ∀ p ∈ packets, p.header.typeField = .unencryptedData ∧ p.payload ≠ [] ∧
      p.header.packetNumber ≠ 0
  | _ => True

def Step (st : State) (act : Reader.Action) (st' : State) : Prop :=
  DataArrival act ∧ step st act = some st'

/-- The union of the ranges given to `send_ack`. -/
def acked (rx : ReaderRxChannel) : Set UInt64 :=
  {n | ∃ a ∈ rx.acksSent, a.1.toNat ≤ n.toNat ∧ n.toNat < a.1.toNat + a.2}

def Complete (st : State) : Prop := acked st.rx = st.consumed

def Sends (st st' : State) : Prop := st'.rx.acksSent ≠ st.rx.acksSent

/-- At every moment of the run right after a `send_ack`, everything consumed is
acknowledged and nothing else. -/
def CompleteAfterSends (init : State) (acts : List Reader.Action) : Prop :=
  ∀ pre act post st st', acts = pre ++ act :: post → Run Step init pre st → Step st act st' →
    Sends st st' → Complete st'

/-- A call that takes packets does so with the counter at zero, or leaves the counter below the
threshold. -/
def FreshCounter (st : State) (act : Reader.Action) : Prop :=
  act = .task → takes st.reader = 0 ∨ st.rx.packetsConsumed = 0 ∨
    st.rx.packetsConsumed + takes st.reader < st.rx.packetsConsumedBeforeAck

def StepWhen (allowed : State → Reader.Action → Prop) (st : State) (act : Reader.Action)
    (st' : State) : Prop := allowed st act ∧ Step st act st'

theorem step_unique (s : State) (e : Reader.Action) (t u : State) (ht : Step s e t)
    (hu : Step s e u) : t = u := Option.some.inj (ht.2.symm.trans hu.2)

/-! ### The consumed packets are a run of numbers -/

/-- The packets numbered from `start` up to `next` are consumed, and the packets
in the buffer are some of the following ones. -/
structure ConsumedUpTo (start next : ℕ) (st : State) : Prop where
  inOrder : st.bytes.InOrder
  data : ∀ k p, st.bytes.slotAt k = some p → p.payload ≠ [] ∧ p.header.packetNumber ≠ 0
  le : start ≤ next
  bound : next ≤ 2 ^ 64
  smallest : st.bytes.smallestPacketNumber.toNat = next % 2 ^ 64
  consumed : ∀ n, n ∈ st.consumed ↔ start ≤ n.toNat ∧ n.toNat < next

theorem consumedUpTo_init {start : UInt64} {st : State} (h : Init start st) :
    ConsumedUpTo start.toNat start.toNat st := by
  obtain ⟨connId, hbytes⟩ := h.bytes
  refine ⟨init_inOrder h, ?_, Nat.le_refl _, Nat.le_of_lt start.toNat_lt, ?_, ?_⟩
  · intro k p hp
    rw [hbytes] at hp
    unfold OrderedBytes.slotAt at hp
    split at hp <;> cases hp
  · rw [hbytes]
    exact (Nat.mod_eq_of_lt start.toNat_lt).symm
  · intro n
    rw [h.consumed]
    simp only [Set.mem_empty_iff_false, false_iff]
    omega

theorem takes_bound {start next : ℕ} {st st' : State} (h : ConsumedUpTo start next st)
    (htook : st.bytes.Took (takes st.reader) st'.bytes) (hpos : 0 < takes st.reader) :
    st.bytes.smallestPacketNumber.toNat = next ∧ st.bytes.smallestPacketNumber ≠ 0 ∧
      next + takes st.reader ≤ 2 ^ 64 := by
  -- the head does not wrap around while packets are taken: number zero never arrives
  obtain ⟨p, hp⟩ := htook.front 0 hpos
  have hnum : p.header.packetNumber = st.bytes.smallestPacketNumber :=
    UInt64.toNat_inj.mp (h.inOrder 0 p hp)
  have hne : st.bytes.smallestPacketNumber ≠ 0 := by
    rw [← hnum]
    exact (h.data 0 p hp).2
  have hzero : st.bytes.smallestPacketNumber.toNat ≠ 0 := by
    intro he
    exact hne (UInt64.toNat_inj.mp he)
  have hle := OrderedBytes.took_le h.inOrder htook
  have hsmallest := h.smallest
  have hbound := h.bound
  have heq : st.bytes.smallestPacketNumber.toNat = next := by omega
  exact ⟨heq, hne, by omega⟩

theorem consumedUpTo_buffered {start next : ℕ} {st st' : State} {act : Reader.Action}
    {packets : List BluefinPacket} (h : ConsumedUpTo start next st) (hdata : DataArrival act)
    (hact : packets = [] ∨ act = .arrive packets)
    (hbytes : st'.bytes = st.bytes.bufferAll packets) (hconsumed : st'.consumed = st.consumed) :
    ConsumedUpTo start next st' where
  inOrder := by
    rw [hbytes]
    exact OrderedBytes.inOrder_bufferAll h.inOrder packets
  data := by
    intro k p hp
    rw [hbytes] at hp
    rcases OrderedBytes.bufferAll_slot hp with hold | hnew
    · exact h.data k p hold
    · rcases hact with rfl | rfl
      · cases hnew
      · exact (hdata p hnew).2
  le := h.le
  bound := h.bound
  smallest := by
    rw [hbytes, OrderedBytes.bufferAll_smallest]
    exact h.smallest
  consumed := by
    rw [hconsumed]
    exact h.consumed

theorem consumedUpTo_took {start next : ℕ} {st st' : State} (h : ConsumedUpTo start next st)
    (htook : st.bytes.Took (takes st.reader) st'.bytes)
    (hconsumed : st'.consumed = st.consumed ∪ nextNumbers st.bytes (takes st.reader)) :
    ConsumedUpTo start (next + takes st.reader) st' := by
  have hle := h.le
  have hbound := h.bound
  have hsmallest := h.smallest
  have hwindow : next + takes st.reader ≤ 2 ^ 64 ∧
      (0 < takes st.reader → st.bytes.smallestPacketNumber.toNat = next) := by
    by_cases hpos : 0 < takes st.reader
    · obtain ⟨heq, _, hnext⟩ := takes_bound h htook hpos
      exact ⟨hnext, fun _ => heq⟩
    · exact ⟨by omega, fun hp => absurd hp hpos⟩
  refine ⟨OrderedBytes.took_inOrder h.inOrder htook, ?_, by omega, hwindow.1, ?_, ?_⟩
  · intro k p hp
    rw [htook.slots k] at hp
    exact h.data _ p hp
  · rw [htook.smallest, UInt64.toNat_add, UInt64.toNat_ofNat', hsmallest]
    omega
  · intro n
    rw [hconsumed, Set.mem_union, h.consumed n]
    simp only [nextNumbers, Set.mem_ofPred_eq]
    omega

/-! ### The acknowledged packets -/

/-- The packets numbered from `start` up to `last` are acknowledged, the others that were consumed
are in the counter. -/
structure AckedUpTo (start last next : ℕ) (rx : ReaderRxChannel) : Prop where
  le : start ≤ last
  counter : last + rx.packetsConsumed = next
  acked : ∀ n, n ∈ acked rx ↔ start ≤ n.toNat ∧ n.toNat < last

theorem ackedUpTo_new (start : ℕ) : AckedUpTo start start start .new := by
  refine ⟨Nat.le_refl _, rfl, fun n => ?_⟩
  simp only [acked, ReaderRxChannel.new, List.not_mem_nil, false_and, exists_false,
    Set.mem_ofPred_eq, false_iff]
  omega

theorem mem_acked_snoc (acks : List (UInt64 × ℕ)) (a : UInt64 × ℕ) (n : UInt64) (c t : ℕ) :
    n ∈ acked ⟨c, t, acks ++ [a]⟩ ↔
      n ∈ acked ⟨c, t, acks⟩ ∨ (a.1.toNat ≤ n.toNat ∧ n.toNat < a.1.toNat + a.2) := by
  simp only [acked, Set.mem_ofPred_eq, List.mem_append, List.mem_singleton, or_and_right,
    exists_or, exists_eq_left]

theorem took_rx {start next : ℕ} {st st' : State} {res : BluefinResult ConsumeResult}
    (h : ConsumedUpTo start next st) (htook : st.bytes.Took (takes st.reader) st'.bytes)
    (hreports : st.bytes.Reports res (takes st.reader)) :
    accountFor st.rx res =
      if 0 < takes st.reader ∧
          st.rx.packetsConsumedBeforeAck ≤ st.rx.packetsConsumed + takes st.reader then
        ⟨0, st.rx.packetsConsumedBeforeAck,
          st.rx.acksSent ++ [(st.bytes.smallestPacketNumber, takes st.reader)]⟩
      else { st.rx with packetsConsumed := st.rx.packetsConsumed + takes st.reader } := by
  cases hres : res.isOk with
  | false =>
    have hzero := hreports.err hres fun k p hp => (h.data k p hp).1
    rw [hzero, if_neg (fun hc => Nat.lt_irrefl 0 hc.1)]
    cases res with
    | ok r => cases hres
    | err e => rfl
    | panicked f => rfl
  | true =>
    cases res with
    | err e => cases hres
    | panicked f => cases hres
    | ok r =>
      obtain ⟨hnum, hbase⟩ := hreports.ok r rfl
      simp only [accountFor, ReaderRxChannel.account, hnum]
      by_cases hpos : 0 < takes st.reader
      · rw [hbase hpos]
        have hne := (takes_bound h htook hpos).2.1
        by_cases hthr : st.rx.packetsConsumedBeforeAck ≤ st.rx.packetsConsumed + takes st.reader
        · rw [if_pos ⟨hpos, hne, hthr⟩, if_pos ⟨hpos, hthr⟩]
        · rw [if_neg (fun hc => hthr hc.2.2), if_neg (fun hc => hthr hc.2)]
      · rw [if_neg (fun hc => hpos hc.1), if_neg (fun hc => hpos hc.1)]

/-- The ack of the packets from `next` on completes the acknowledged ones exactly if none was left
out before. -/
theorem complete_iff {start last next : ℕ} {st st' : State} (h : ConsumedUpTo start next st)
    (ha : AckedUpTo start last next st.rx) (hnext : ConsumedUpTo start (next + takes st.reader) st')
    (hsmallest : st.bytes.smallestPacketNumber.toNat = next)
    (hrx : st'.rx = ⟨0, st.rx.packetsConsumedBeforeAck,
      st.rx.acksSent ++ [(st.bytes.smallestPacketNumber, takes st.reader)]⟩) :
    Complete st' ↔ st.rx.packetsConsumed = 0 := by
  have hmem : ∀ n, n ∈ acked st'.rx ↔ (start ≤ n.toNat ∧ n.toNat < last) ∨
      (next ≤ n.toNat ∧ n.toNat < next + takes st.reader) := by
    intro n
    rw [hrx, mem_acked_snoc, ← hsmallest]
    exact or_congr_left (ha.acked n)
  have hcounter := ha.counter
  have hle := ha.le
  constructor
  · intro hcomplete
    by_contra hne
    -- the first packet in the counter is consumed and not acknowledged
    have hbound := h.bound
    have hlast : (UInt64.ofNat last).toNat = last := by
      rw [UInt64.toNat_ofNat']
      omega
    have hin : UInt64.ofNat last ∈ st'.consumed := (hnext.consumed _).mpr (by omega)
    rw [← hcomplete] at hin
    have hcovered := (hmem _).mp hin
    omega
  · intro hzero
    apply Set.ext
    intro n
    rw [hmem n, hnext.consumed n]
    omega

theorem fresh_silent {st st' : State} {act : Reader.Action}
    (hacks : st'.rx.acksSent = st.rx.acksSent) (hfresh : FreshCounter st act) :
    (Sends st st' → Complete st') ↔ FreshCounter st act :=
  iff_of_true (fun hsend => absurd hacks hsend) hfresh

theorem fresh_sends {start last next : ℕ} {st st' : State} {act : Reader.Action}
    (h : ConsumedUpTo start next st) (ha : AckedUpTo start last next st.rx) (hact : act = .task)
    (hnext : ConsumedUpTo start (next + takes st.reader) st')
    (hsmallest : st.bytes.smallestPacketNumber.toNat = next)
    (hack : 0 < takes st.reader ∧
      st.rx.packetsConsumedBeforeAck ≤ st.rx.packetsConsumed + takes st.reader)
    (hrx : st'.rx = ⟨0, st.rx.packetsConsumedBeforeAck,
      st.rx.acksSent ++ [(st.bytes.smallestPacketNumber, takes st.reader)]⟩) :
    ((Sends st st' → Complete st') ↔ FreshCounter st act) ∧
      (FreshCounter st act →
        AckedUpTo start (next + takes st.reader) (next + takes st.reader) st'.rx) := by
  have hsend : Sends st st' := by
    rw [Sends, hrx]
    simp
  have hcomplete := complete_iff h ha hnext hsmallest hrx
  have hfresh : FreshCounter st act ↔ st.rx.packetsConsumed = 0 := by
    constructor
    · intro hf
      have hcases := hf hact
      omega
    · exact fun hzero _ => Or.inr (Or.inl hzero)
  have hle := ha.le
  have hcounter := ha.counter
  constructor
  · rw [hfresh, ← hcomplete]
    exact ⟨fun hc => hc hsend, fun hc _ => hc⟩
  · intro hf
    refine ⟨by omega, by rw [hrx]; rfl, fun n => ?_⟩
    rw [hcomplete.mpr (hfresh.mp hf)]
    exact hnext.consumed n

/-- One step: an ack covers everything consumed exactly if the counter was fresh, and then all but
the counted packets stay acknowledged. -/
theorem fresh_step {start last next : ℕ} {st st' : State} {act : Reader.Action}
    (h : ConsumedUpTo start next st) (ha : AckedUpTo start last next st.rx)
    (hs : Step st act st') (hlive : ¬ st'.crashed) :
    ((Sends st st' → Complete st') ↔ FreshCounter st act) ∧
      (FreshCounter st act → ∃ last' next', ConsumedUpTo start next' st' ∧
        AckedUpTo start last' next' st'.rx) := by
  cases step_effect (Or.inr h.inOrder) hs.2 with
  | crashed hpc => exact absurd hpc hlive
  | buffered packets hact htakes hbytes hrx hconsumed =>
    have hfresh : FreshCounter st act := fun hact => Or.inl (htakes hact)
    refine ⟨fresh_silent (by rw [hrx]) hfresh, fun _ => ⟨last, next, ?_, ?_⟩⟩
    · exact consumedUpTo_buffered h hs.1 hact hbytes hconsumed
    · rw [hrx]
      exact ha
  | took res hact htook hreports hrx hconsumed =>
    have hnext := consumedUpTo_took h htook hconsumed
    rw [took_rx h htook hreports] at hrx
    by_cases hack : 0 < takes st.reader ∧
        st.rx.packetsConsumedBeforeAck ≤ st.rx.packetsConsumed + takes st.reader
    · rw [if_pos hack] at hrx
      have hsmallest := (takes_bound h htook hack.1).1
      obtain ⟨hiff, hacked⟩ := fresh_sends h ha hact hnext hsmallest hack hrx
      exact ⟨hiff, fun hf => ⟨_, _, hnext, hacked hf⟩⟩
    · rw [if_neg hack] at hrx
      have hfresh : FreshCounter st act := by
        intro _
        omega
      refine ⟨fresh_silent (by rw [hrx]) hfresh, fun _ => ⟨last, _, hnext, ha.le, ?_, ?_⟩⟩
      · have hcounter := ha.counter
        rw [hrx]
        simp only
        omega
      · rw [hrx]
        exact ha.acked

/-! ### Whole runs -/

theorem live_of_step {st st' : State} {act : Reader.Action} (hs : Step st act st')
    (hlive : ¬ st'.crashed) : ¬ st.crashed := fun h => hlive (crashed_step h hs.2)

theorem consumed_run {start : UInt64} {init st : State} {acts : List Reader.Action}
    (hinit : Init start init) (hr : Run Step init acts st) (hlive : ¬ st.crashed) :
    ∃ next, ConsumedUpTo start.toNat next st := by
  induction hr with
  | nil => exact ⟨_, consumedUpTo_init hinit⟩
  | snoc hr hs ih =>
    obtain ⟨next, h⟩ := ih (live_of_step hs hlive)
    cases step_effect (Or.inr h.inOrder) hs.2 with
    | crashed hpc => exact absurd hpc hlive
    | buffered packets hact _ hbytes _ hconsumed =>
      exact ⟨next, consumedUpTo_buffered h hs.1 hact hbytes hconsumed⟩
    | took res _ htook _ _ hconsumed => exact ⟨_, consumedUpTo_took h htook hconsumed⟩

theorem completeAfterSends_snoc {init st st' : State} {acts : List Reader.Action}
    {act : Reader.Action} (hr : Run Step init acts st) (hs : Step st act st') :
    CompleteAfterSends init (acts ++ [act]) ↔
      CompleteAfterSends init acts ∧ (Sends st st' → Complete st') := by
  constructor
  · intro h
    constructor
    · rintro pre a post s s' rfl hpre hstep hsend
      exact h pre a (post ++ [act]) s s' (by simp) hpre hstep hsend
    · intro hsend
      exact h acts act [] st st' rfl hr hs hsend
  · rintro ⟨hbefore, hlast⟩ pre a post s s' hacts hpre hstep hsend
    rcases List.eq_nil_or_concat post with rfl | ⟨post', b, rfl⟩
    · obtain ⟨rfl, heq⟩ := List.append_inj' hacts rfl
      cases heq
      obtain rfl := Run.unique step_unique hr hpre
      obtain rfl := step_unique _ _ _ _ hs hstep
      exact hlast hsend
    · have hsplit : acts = pre ++ a :: post' := by
        rw [List.concat_eq_append, ← List.cons_append, ← List.append_assoc] at hacts
        exact (List.append_inj' hacts rfl).1
      exact hbefore pre a post' s s' hsplit hpre hstep hsend

theorem acks_run {start : UInt64} {init st : State} {acts : List Reader.Action}
    (hinit : Init start init) (hr : Run Step init acts st) (hlive : ¬ st.crashed) :
    (CompleteAfterSends init acts ↔ Run (StepWhen FreshCounter) init acts st) ∧
      (Run (StepWhen FreshCounter) init acts st → ∃ last next,
        ConsumedUpTo start.toNat next st ∧ AckedUpTo start.toNat last next st.rx) := by
  induction hr with
  | nil =>
    constructor
    · refine iff_of_true ?_ .nil
      rintro pre a post s s' hacts
      simp at hacts
    · intro _
      refine ⟨start.toNat, start.toNat, consumedUpTo_init hinit, ?_⟩
      rw [State.rx, hinit.task]
      exact ackedUpTo_new _
  | @snoc acts act s t hr hs ih =>
    obtain ⟨hiff, hinv⟩ := ih (live_of_step hs hlive)
    have hwhen : Run (StepWhen FreshCounter) init (acts ++ [act]) t ↔
        Run (StepWhen FreshCounter) init acts s ∧ FreshCounter s act :=
      Run.when_snoc_iff step_unique hr hs
    rw [completeAfterSends_snoc hr hs, hwhen, hiff]
    constructor
    · apply and_congr_right
      intro hfresh
      obtain ⟨last, next, hcons, hacked⟩ := hinv hfresh
      exact (fresh_step hcons hacked hs hlive).1
    · rintro ⟨hfresh, hlast⟩
      obtain ⟨last, next, hcons, hacked⟩ := hinv hfresh
      exact (fresh_step hcons hacked hs hlive).2 hlast

/-- From a connection's first read on, whatever data packets arrive and whatever
calls are made, as long as none panics: right after every `send_ack` the
acknowledged packets are the consumed ones, exactly if every call that takes
packets starts with a fresh counter or stays below the threshold. -/
theorem acks_complete_iff (start : UInt64) (init st : State) (acts : List Reader.Action)
    (hinit : Init start init) (hr : Run Step init acts st) (hlive : ¬ st.crashed) :
    CompleteAfterSends init acts ↔ Run (StepWhen FreshCounter) init acts st :=
  (acks_run hinit hr hlive).1

theorem firstPackets_arrive {count : ℕ} (hcount : count ≤ maxBufferSize) :
    DataArrival (.arrive (firstPackets count)) := by
  intro p hp
  obtain ⟨k, hk⟩ := List.getElem?_of_mem hp
  have hnum := (firstPackets_number hk hcount).1
  obtain ⟨j, -, rfl⟩ := List.mem_map.mp hp
  refine ⟨rfl, by simp, fun hzero => ?_⟩
  rw [hzero] at hnum
  simp only [UInt64.reduceToNat] at hnum
  omega

theorem dataArrival_reads {count : ℕ} (hcount : count ≤ maxBufferSize) (ns : List ℕ) :
    ∀ act ∈ .arrive (firstPackets count) :: ns.flatMap readBytes, DataArrival act := by
  intro act ha
  rcases List.mem_cons.mp ha with rfl | ha
  · exact firstPackets_arrive hcount
  · obtain ⟨n, -, hn⟩ := List.mem_flatMap.mp ha
    simp only [readBytes, List.mem_cons, List.not_mem_nil, or_false] at hn
    rcases hn with rfl | rfl | rfl | rfl <;> trivial

theorem run_reads {count : ℕ} (hcount : count ≤ maxBufferSize) (ns : List ℕ) {r : Reader.State}
    (h : (.arrive (firstPackets count) :: ns.flatMap readBytes).foldlM Reader.step waiting.reader =
      some r) :
    ∃ st, Run Step waiting (.arrive (firstPackets count) :: ns.flatMap readBytes) st ∧
      st.reader = r := by
  obtain ⟨st, hst, hreader⟩ := foldlM_of_reader h
  refine ⟨st, ?_, hreader⟩
  apply Run.of_foldlM _ _ hst
  exact fun act ha _ _ hs => ⟨dataArrival_reads hcount ns act ha, hs⟩

theorem polling_rx {r r' : Reader.State} {c : Reader.ReadCall} (hpc : r.task.pc = .polling c)
    (h : Reader.step r .task = some r') :
    r'.task.rx = r.task.rx ∧ (r'.task.pc = .resolved c ∨ r'.task.pc = .parked c) := by
  simp only [Reader.step, Reader.taskStep, hpc, Option.map_some, Option.some.injEq] at h
  rw [← h, Reader.poll]
  split
  · exact ⟨rfl, .inl rfl⟩
  · split
    · exact ⟨rfl, .inl rfl⟩
    · exact ⟨rfl, .inr rfl⟩

theorem resolved_rx {r r' : Reader.State} {c : Reader.ReadCall}
    (hpc : r.task.pc = .resolved c ∨ r.task.pc = .parked c)
    (h : Reader.step r .task = some r') : r'.task.rx = r.task.rx := by
  rcases hpc with hpc | hpc
  · simp only [Reader.step, Reader.taskStep, hpc, Option.map_some, Option.some.injEq] at h
    rw [← h]
  · simp only [Reader.step, Reader.taskStep, hpc, Option.map_none] at h
    cases h

theorem freshCounter_call {st st' : State} {c : Reader.ReadCall}
    (hidle : st.reader.task.pc = .idle) (hzero : st.rx.packetsConsumed = 0)
    (h : [Reader.Action.call c, .task, .task, .task].foldlM step st = some st') :
    Run (StepWhen FreshCounter) st [.call c, .task, .task, .task] st' := by
  simp only [List.foldlM_cons, List.foldlM_nil, Option.bind_eq_bind, Option.bind_eq_some_iff] at h
  obtain ⟨s₁, h₁, s₂, h₂, s₃, h₃, s₄, h₄, hlast⟩ := h
  cases hlast
  have hreader : ∀ {s t : State} {act : Reader.Action}, step s act = some t →
      Reader.step s.reader act = some t.reader := by
    intro s t act hs
    obtain ⟨r, hr, rfl⟩ := Option.map_eq_some_iff.mp hs
    exact hr
  have hcalled : s₁.reader = { st.reader with task.pc := .polling c } := by
    have hr := hreader h₁
    simp only [Reader.step, hidle, Option.some.injEq] at hr
    exact hr.symm
  obtain ⟨hrx₂, hpc₂⟩ := polling_rx (c := c) (by rw [hcalled]) (hreader h₂)
  have hrx₃ := resolved_rx hpc₂ (hreader h₃)
  have hzero₃ : s₃.rx.packetsConsumed = 0 := by
    rw [State.rx, hrx₃, hrx₂, hcalled]
    exact hzero
  have htakes₁ : takes s₁.reader = 0 := by rw [hcalled]; rfl
  have htakes₂ : takes s₂.reader = 0 := by
    rcases hpc₂ with hpc | hpc <;> simp only [takes, hpc]
  exact (((Run.nil.snoc ⟨fun hact => (by cases hact), trivial, h₁⟩).snoc
    ⟨fun _ => .inl htakes₁, trivial, h₂⟩).snoc ⟨fun _ => .inl htakes₂, trivial, h₃⟩).snoc
    ⟨fun _ => .inr (.inl hzero₃), trivial, h₄⟩

/-- All 200 packets are taken by one call, whose ack names them. -/
theorem acks_complete_one_call :
    ∃ acts st, Run Step waiting acts st ∧ st.rx.acksSent = [(7, 200)] ∧
      CompleteAfterSends waiting acts := by
  have hcount : 200 ≤ maxBufferSize := by decide
  obtain ⟨r₁, h₁, hread₁, hrx₁⟩ := readUpTo_arrive (by decide) hcount
  obtain ⟨r₂, b₂, h₂, hread₂, hrx₂⟩ := readUpTo_read hread₁ hcount (by decide)
    (show 0 < 1000 by decide)
  let arrived : State := ⟨r₁, waiting.consumed ∪ {n | waiting.bytes.Holds n ∧ ¬ r₁.bytes.Holds n}⟩
  have harrive : step waiting (.arrive (firstPackets 200)) = some arrived := by
    rw [step, h₁]
    rfl
  obtain ⟨st, hst, hreader⟩ := @foldlM_of_reader _ arrived r₂ h₂
  have hcall := freshCounter_call hread₁.idle (by rw [State.rx, hrx₁]; rfl) hst
  have hwhen : Run (StepWhen FreshCounter) waiting (.arrive (firstPackets 200) :: readBytes 1000) st :=
    (Run.nil.snoc ⟨fun hact => (by cases hact), firstPackets_arrive hcount, harrive⟩).append hcall
  have hr := hwhen.mono fun _ _ _ hs => hs.2
  have hacks : st.rx.acksSent = [(7, 200)] := by
    rw [State.rx, hreader, hrx₂, hrx₁]
    rfl
  have hlive : ¬ st.crashed := by
    rw [State.crashed, hreader, hread₂.idle]
    exact fun hc => by cases hc
  exact ⟨_, st, hr, hacks, (acks_complete_iff 7 waiting st _ waiting_init hr hlive).mpr hwhen⟩

/-- One packet is read alone and then the other 199: the ack names these, and the first packet is
never acknowledged. -/
theorem acks_skip_first_packet :
    ∃ acts st, Run Step waiting acts st ∧ st.rx.acksSent = [(8, 199)] ∧ 7 ∈ st.consumed ∧
      ¬ CompleteAfterSends waiting acts := by
  have hcount : 200 ≤ maxBufferSize := by decide
  obtain ⟨r₁, h₁, hread₁, hrx₁⟩ := readUpTo_arrive (by decide) hcount
  obtain ⟨r₂, b₂, h₂, hread₂, hrx₂⟩ := readUpTo_read hread₁ hcount (by decide) Nat.zero_lt_one
  obtain ⟨r₃, b₃, h₃, hread₃, hrx₃⟩ := readUpTo_read hread₂ hcount (by decide)
    (show 0 < 1000 by decide)
  rw [hrx₂, hrx₁] at hrx₃
  obtain ⟨st, hr, hreader⟩ := @run_reads 200 hcount [1, 1000] r₃ (by
    simp only [List.flatMap_cons, List.flatMap_nil, List.append_nil, List.foldlM_cons,
      List.foldlM_append, h₁, h₂, h₃, Option.bind_eq_bind, Option.bind_some])
  have hacks : st.rx.acksSent = [(8, 199)] := by
    rw [State.rx, hreader, hrx₃]
    rfl
  have hlive : ¬ st.crashed := by
    rw [State.crashed, hreader, hread₃.idle]
    exact fun hc => by cases hc
  have hseven : ∀ next, ConsumedUpTo (7 : UInt64).toNat next st → (7 : UInt64).toNat < next := by
    intro next hnext
    have hmod := hnext.smallest
    rw [State.bytes, hreader, hread₃.smallest] at hmod
    have hle := hnext.le
    have hvalue : (UInt64.ofNat (7 + (0 + min 1 (200 - 0) + min 1000 (200 - (0 + min 1 (200 - 0)))))).toNat
        = 207 := rfl
    rw [hvalue] at hmod
    simp only [UInt64.reduceToNat] at hle ⊢
    omega
  obtain ⟨next, hnext⟩ := consumed_run waiting_init hr hlive
  refine ⟨_, st, hr, hacks, (hnext.consumed 7).mpr ⟨Nat.le_refl _, hseven next hnext⟩, ?_⟩
  intro hcomplete
  -- otherwise packet 7 would be acknowledged
  have hinv := acks_run waiting_init hr hlive
  obtain ⟨last, next, hnext, hacked⟩ := hinv.2 (hinv.1.mp hcomplete)
  have hzero : st.rx.packetsConsumed = 0 := by
    rw [State.rx, hreader, hrx₃]
    rfl
  have hcounter := hacked.counter
  have hlt := hseven next hnext
  obtain ⟨a, ha, hle, -⟩ := (hacked.acked 7).mpr ⟨Nat.le_refl _, by omega⟩
  rw [hacks, List.mem_singleton] at ha
  rw [ha] at hle
  revert hle
  decide

end Receiver

end Bluefin
