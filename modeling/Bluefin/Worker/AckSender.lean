import Bluefin.Net.AckSoundness

/-!
# The ack sender (worker/writer.rs, `read_ack`)

The task in isolation: anybody puts ranges into its channel, `recv_many` hands
out batches of any size up to its limit, and the socket refuses datagrams at
will. A datagram has room for 760 acks and a batch has 20, so that one datagram
takes the whole queue: the task comes back to the channel with nothing left.
-/

namespace Bluefin
open Base

namespace AckSender
open AckPath

/-- In `received` is what `recv_many` has handed out, in `sent` what the socket has accepted. -/
structure State where
  chan : List AckData
  task : AckTask
  received : List AckData
  sent : List Bytes
  deriving DecidableEq, Repr

/-- A `readAck sendOk batch` is the next step of the task, with the socket's answer and the number
of acks that `recv_many` sees in the channel. -/
inductive Action where
  | send (a : AckData)
  | readAck (sendOk : Bool) (batch : ℕ)
  deriving DecidableEq, Repr

def init : State := ⟨[], .new, [], []⟩

section

variable (srcConnId dstConnId : UInt32)

def step (st : State) : Action → Option State
  | .send a => some { st with chan := st.chan ++ [a] }
  | .readAck sendOk batch =>
    (st.task.step srcConnId dstConnId sendOk (st.chan.take batch)).map
      fun (left, task, datagram) =>
        { chan := left ++ st.chan.drop batch
          task := task
          received := st.received ++
            (st.chan.take batch).take ((st.chan.take batch).length - left.length)
          sent := st.sent ++ datagram.toList }

def Step (st : State) (act : Action) (st' : State) : Prop :=
  step srcConnId dstConnId st act = some st'

/-- The task is in `recv_many`: with nothing in the channel it has no step. -/
def Waits (t : AckTask) : Prop := ∀ sendOk, t.step srcConnId dstConnId sendOk [] = none

/-! ### What one datagram takes -/

theorem ackDatagram_length (acks : List AckData) :
    (ackDatagram srcConnId dstConnId acks).length = 20 * acks.length := by
  induction acks with
  | nil => rfl
  | cons a acks ih =>
    rw [ackDatagram] at ih ⊢
    rw [List.map_cons, BluefinPacket.serialiseAll_cons, List.length_append, ih,
      BluefinPacket.serialise_length, List.length_cons]
    simp only [ackPacket, List.length_nil]
    omega

theorem consumeAcksLoop_take (queue : List AckData) (bytes : Bytes) (i : ℕ)
    (hlen : bytes.length = 20 * i) (hi : i ≤ 760) :
    WriterHandler.consumeAcksLoop srcConnId dstConnId queue bytes =
      (queue.drop (760 - i),
        bytes ++ ackDatagram srcConnId dstConnId (queue.take (760 - i))) := by
  induction queue generalizing bytes i with
  | nil => simp [WriterHandler.consumeAcksLoop, ackDatagram]
  | cons a queue ih =>
    unfold WriterHandler.consumeAcksLoop
    have hmax : maxBluefinBytesInUdpDatagram = 15200 := rfl
    by_cases hfull : i = 760
    · rw [if_pos (by omega), hfull]
      simp [ackDatagram]
    · have hroom : 760 - i = 760 - (i + 1) + 1 := by omega
      have hnext : (bytes ++ (WriterHandler.ackHeader srcConnId dstConnId a).serialise).length =
          20 * (i + 1) := by
        rw [List.length_append, BluefinHeader.serialise_length]
        omega
      rw [if_neg (by omega), appendHeader_eq, ih _ (i + 1) hnext (by omega), hroom,
        List.drop_succ_cons, List.take_succ_cons, List.append_assoc]
      simp [ackDatagram, ackPacket, BluefinPacket.serialise]

theorem ackDatagram_eq_nil (acks : List AckData) :
    ackDatagram srcConnId dstConnId acks = [] ↔ acks = [] := by
  rw [← List.length_eq_zero_iff, ackDatagram_length, ← List.length_eq_zero_iff]
  omega

theorem consumeAcksInto_eq (queue : List AckData) :
    WriterHandler.consumeAcksInto srcConnId dstConnId queue [] =
      (!queue.isEmpty, queue.drop 760, ackDatagram srcConnId dstConnId (queue.take 760)) := by
  have hloop := consumeAcksLoop_take srcConnId dstConnId queue [] 0 rfl (by omega)
  cases queue with
  | nil => rfl
  | cons a queue =>
    simp only [WriterHandler.consumeAcksInto, List.isEmpty_cons, Bool.false_eq_true, if_false]
    rw [hloop]
    have hne : (ackDatagram srcConnId dstConnId ((a :: queue).take 760)).isEmpty = false := by
      rw [List.isEmpty_eq_false_iff, Ne, ackDatagram_eq_nil]
      simp
    simp only [Nat.sub_zero, List.nil_append, hne]

theorem fromBytes_ackDatagram {acks : List AckData} (hne : acks ≠ []) :
    BluefinPacket.fromBytes (ackDatagram srcConnId dstConnId acks) =
      .ok (acks.map (ackPacket srcConnId dstConnId)) := by
  have hencodable : ∀ p ∈ acks.map (ackPacket srcConnId dstConnId), p.Encodable := by
    intro p hp
    obtain ⟨a, -, rfl⟩ := List.mem_map.mp hp
    exact ackPacket_encodable srcConnId dstConnId a
  have hlen : 20 ≤ (ackDatagram srcConnId dstConnId acks).length := by
    have hpos := List.length_pos_iff.mpr hne
    rw [ackDatagram_length]
    omega
  rw [BluefinPacket.fromBytes_parse _ hlen]
  exact BluefinPacket.parse_serialiseAll _ hencodable

/-- The base number and the count of each packet. -/
def acksOf (packets : List BluefinPacket) : List AckData :=
  packets.map fun p => (p.header.packetNumber, p.header.typeSpecificPayload.toNat)

theorem acksOf_ackPackets (acks : List AckData) :
    acksOf (acks.map (ackPacket srcConnId dstConnId)) = acks.map fun a => (a.1, a.2 % 65536) := by
  simp only [acksOf, List.map_map]
  apply List.map_congr_left
  intro a _
  simp only [Function.comp_apply, ackPacket, WriterHandler.ackHeader, BluefinHeader.withPacketNumber]
  rw [UInt16.toNat_ofNat']

theorem map_count_eq {acks : List AckData} (h : ∀ a ∈ acks, a.2 ≤ 65535) :
    acks.map (fun a => (a.1, a.2 % 65536)) = acks := by
  calc acks.map (fun a => (a.1, a.2 % 65536)) = acks.map id := by
        apply List.map_congr_left
        intro a ha
        have hle := h a ha
        rw [Nat.mod_eq_of_lt (by omega), id]
    _ = acks := List.map_id acks

/-! ### Runs of the task -/

/-- The acks of each datagram that went out are `groups`, those of the one that waits for the socket
`pending`. -/
structure Holds (st : State) (groups : List (List AckData)) (pending : List AckData) : Prop where
  sent_eq : st.sent = groups.map (ackDatagram srcConnId dstConnId)
  groups_ne : ∀ g ∈ groups, g ≠ []
  received_eq : st.received = groups.flatten ++ pending ++ st.task.ackQueue
  at_top : st.task.pc = .top → st.task.ackQueue = []
  in_batch : st.task.pc ≠ .top → st.task.pendingSend = none ∧ st.task.ackQueue.length ≤ 20
  pending_none : st.task.pendingSend = none → pending = []
  pending_some : ∀ d, st.task.pendingSend = some d →
    pending ≠ [] ∧ d = ackDatagram srcConnId dstConnId pending

variable {srcConnId dstConnId}

theorem holds_init : Holds srcConnId dstConnId init [] [] where
  sent_eq := rfl
  groups_ne := by simp
  received_eq := rfl
  at_top := fun _ => rfl
  in_batch := fun h => absurd rfl h
  pending_none := fun _ => rfl
  pending_some := by
    intro d h
    cases h

theorem holds_retry {st : State} {groups : List (List AckData)} {pending : List AckData}
    {data : Bytes} (h : Holds srcConnId dstConnId st groups pending) (hpc : st.task.pc = .top)
    (hdata : st.task.pendingSend = some data) :
    Holds srcConnId dstConnId
      { st with task := { st.task with pendingSend := none }, sent := st.sent ++ [data] }
      (groups ++ [pending]) [] := by
  obtain ⟨hne, heq⟩ := h.pending_some data hdata
  constructor
  case sent_eq => simp [h.sent_eq, heq]
  case groups_ne =>
    exact List.forall_mem_append.mpr ⟨h.groups_ne, List.forall_mem_singleton.mpr hne⟩
  case received_eq => simp [h.received_eq]
  case at_top => exact h.at_top
  case in_batch => exact fun hne => absurd hpc hne
  case pending_none => exact fun _ => rfl
  case pending_some =>
    intro d hd
    cases hd

theorem holds_receive {st : State} {groups : List (List AckData)} {pending : List AckData}
    {batch : List AckData} (chan : List AckData) (h : Holds srcConnId dstConnId st groups pending)
    (hpc : st.task.pc = .top) (hnone : st.task.pendingSend = none) (hle : batch.length ≤ 20) :
    Holds srcConnId dstConnId
      { st with
        chan := chan
        task := { st.task with pc := .pack 0, ackQueue := st.task.ackQueue ++ batch }
        received := st.received ++ batch } groups pending where
  sent_eq := h.sent_eq
  groups_ne := h.groups_ne
  received_eq := by simp [h.received_eq]
  at_top := by
    intro hpc
    cases hpc
  in_batch := by
    intro _
    rw [h.at_top hpc, List.nil_append]
    exact ⟨hnone, hle⟩
  pending_none := h.pending_none
  pending_some := h.pending_some

/-- A round of the batch loop with an empty queue ends the loop; with acks in the queue all of them
go into one datagram. -/
theorem pack_cases {st : State} {groups : List (List AckData)} {pending : List AckData} {i : ℕ}
    (h : Holds srcConnId dstConnId st groups pending) (hpc : st.task.pc = .pack i) :
    (st.task.ackQueue = [] ∧
      WriterHandler.consumeAcksInto srcConnId dstConnId st.task.ackQueue [] = (false, [], [])) ∨
    (st.task.ackQueue ≠ [] ∧
      WriterHandler.consumeAcksInto srcConnId dstConnId st.task.ackQueue [] =
        (true, [], ackDatagram srcConnId dstConnId st.task.ackQueue)) := by
  have hle : st.task.ackQueue.length ≤ 20 := (h.in_batch (by rw [hpc]; simp)).2
  rw [consumeAcksInto_eq, List.drop_of_length_le (by omega), List.take_of_length_le (by omega)]
  by_cases hnil : st.task.ackQueue = []
  · left
    rw [hnil]
    exact ⟨rfl, rfl⟩
  · right
    refine ⟨hnil, ?_⟩
    rw [List.isEmpty_eq_false_iff.mpr hnil]
    rfl

theorem holds_sent {st : State} {groups : List (List AckData)} {pending : List AckData}
    (pc : AckPc) (h : Holds srcConnId dstConnId st groups pending) (hpc : st.task.pc ≠ .top)
    (hne : st.task.ackQueue ≠ []) :
    Holds srcConnId dstConnId
      { st with
        task := { st.task with pc := pc, ackQueue := [] }
        sent := st.sent ++ [ackDatagram srcConnId dstConnId st.task.ackQueue] }
      (groups ++ [st.task.ackQueue]) pending := by
  obtain ⟨hnone, _⟩ := h.in_batch hpc
  constructor
  case sent_eq => simp [h.sent_eq]
  case groups_ne =>
    exact List.forall_mem_append.mpr ⟨h.groups_ne, List.forall_mem_singleton.mpr hne⟩
  case received_eq => simp [h.received_eq, h.pending_none hnone]
  case at_top => exact fun _ => rfl
  case in_batch => exact fun _ => ⟨hnone, by simp⟩
  case pending_none => exact h.pending_none
  case pending_some => exact h.pending_some

theorem holds_refused {st : State} {groups : List (List AckData)} {pending : List AckData}
    (h : Holds srcConnId dstConnId st groups pending) (hpc : st.task.pc ≠ .top)
    (hne : st.task.ackQueue ≠ []) :
    Holds srcConnId dstConnId
      { st with task := ⟨.top, [], some (ackDatagram srcConnId dstConnId st.task.ackQueue)⟩ }
      groups st.task.ackQueue where
  sent_eq := h.sent_eq
  groups_ne := h.groups_ne
  received_eq := by
    obtain ⟨hnone, _⟩ := h.in_batch hpc
    simp [h.received_eq, h.pending_none hnone]
  at_top := fun _ => rfl
  in_batch := fun hne => absurd rfl hne
  pending_none := by
    intro hnone
    cases hnone
  pending_some := by
    intro d hd
    cases hd
    exact ⟨hne, rfl⟩

theorem holds_batch_end {st : State} {groups : List (List AckData)} {pending : List AckData}
    (h : Holds srcConnId dstConnId st groups pending) (hnil : st.task.ackQueue = []) :
    Holds srcConnId dstConnId { st with task := { st.task with pc := .top, ackQueue := [] } }
      groups pending where
  sent_eq := h.sent_eq
  groups_ne := h.groups_ne
  received_eq := by rw [h.received_eq, hnil]
  at_top := fun _ => rfl
  in_batch := fun hne => absurd rfl hne
  pending_none := h.pending_none
  pending_some := h.pending_some

theorem holds_task {st : State} {groups : List (List AckData)} {pending : List AckData}
    {sendOk : Bool} {batch : ℕ} {left : List AckData} {task : AckTask} {datagram : Option Bytes}
    (h : Holds srcConnId dstConnId st groups pending)
    (hstep : st.task.step srcConnId dstConnId sendOk (st.chan.take batch) =
      some (left, task, datagram)) :
    ∃ groups' pending', Holds srcConnId dstConnId
      { chan := left ++ st.chan.drop batch
        task := task
        received := st.received ++
          (st.chan.take batch).take ((st.chan.take batch).length - left.length)
        sent := st.sent ++ datagram.toList } groups' pending' := by
  unfold AckTask.step at hstep
  split at hstep
  · rename_i data hpc hdata
    split at hstep
    · cases hstep
      refine ⟨groups ++ [pending], [], ?_⟩
      simpa using holds_retry h hpc hdata
    · cases hstep
      refine ⟨groups, pending, ?_⟩
      simpa using h
  · rename_i hpc hnone
    split at hstep
    · cases hstep
    · cases hstep
      have htaken : (st.chan.take batch).take
          ((st.chan.take batch).length - ((st.chan.take batch).drop 20).length) =
          (st.chan.take batch).take 20 := by
        rw [List.length_drop, List.take_eq_take_iff]
        omega
      refine ⟨groups, pending, ?_⟩
      rw [htaken]
      simpa using holds_receive _ h hpc hnone (List.length_take_le 20 (st.chan.take batch))
  · rename_i i hpc
    have hbatch : st.task.pc ≠ .top := by
      rw [hpc]
      simp
    rcases pack_cases h hpc with ⟨hnil, hpack⟩ | ⟨hne, hpack⟩
    · rw [hpack] at hstep
      cases hstep
      refine ⟨groups, pending, ?_⟩
      simpa using holds_batch_end h hnil
    · rw [hpack] at hstep
      simp only at hstep
      split at hstep
      · cases hstep
        refine ⟨groups ++ [st.task.ackQueue], pending, ?_⟩
        simpa using holds_sent _ h hbatch hne
      · cases hstep
        refine ⟨groups, st.task.ackQueue, ?_⟩
        simpa using holds_refused h hbatch hne

theorem holds_step {st st' : State} {act : Action} {groups : List (List AckData)}
    {pending : List AckData} (h : Holds srcConnId dstConnId st groups pending)
    (hstep : step srcConnId dstConnId st act = some st') :
    ∃ groups' pending', Holds srcConnId dstConnId st' groups' pending' := by
  cases act with
  | send a =>
    cases hstep
    exact ⟨groups, pending, h.sent_eq, h.groups_ne, h.received_eq, h.at_top, h.in_batch,
      h.pending_none, h.pending_some⟩
  | readAck sendOk batch =>
    obtain ⟨⟨left, task, datagram⟩, htask, rfl⟩ := Option.map_eq_some_iff.mp hstep
    exact holds_task h htask

theorem holds_run {acts : List Action} {st : State}
    (h : Run (Step srcConnId dstConnId) init acts st) :
    ∃ groups pending, Holds srcConnId dstConnId st groups pending := by
  induction h with
  | nil => exact ⟨[], [], holds_init⟩
  | snoc _ hstep ih =>
    obtain ⟨groups, pending, hholds⟩ := ih
    exact holds_step hholds hstep

theorem fromBytes_groups {groups : List (List AckData)} (hne : ∀ g ∈ groups, g ≠ []) :
    (groups.map (ackDatagram srcConnId dstConnId)).map BluefinPacket.fromBytes =
      (groups.map fun g => g.map (ackPacket srcConnId dstConnId)).map .ok := by
  rw [List.map_map, List.map_map]
  apply List.map_congr_left
  intro g hg
  exact fromBytes_ackDatagram srcConnId dstConnId (hne g hg)

theorem waits_top {t : AckTask} (h : Waits srcConnId dstConnId t) :
    t.pc = .top ∧ t.pendingSend = none := by
  have hstep := h true
  unfold AckTask.step at hstep
  split at hstep
  · cases hstep
  · rename_i hpc hnone
    exact ⟨hpc, hnone⟩
  · split at hstep <;> cases hstep

/-- The acks that the actions put into the channel. -/
def handedIn : List Action → List AckData
  | [] => []
  | .send a :: acts => a :: handedIn acts
  | .readAck _ _ :: acts => handedIn acts

theorem handedIn_append (acts acts' : List Action) :
    handedIn (acts ++ acts') = handedIn acts ++ handedIn acts' := by
  induction acts with
  | nil => rfl
  | cons act acts ih =>
    cases act with
    | send a => simp [handedIn, ih]
    | readAck sendOk batch => simp [handedIn, ih]

theorem left_of_step {t task : AckTask} {sendOk : Bool} {chan left : List AckData}
    {datagram : Option Bytes}
    (h : t.step srcConnId dstConnId sendOk chan = some (left, task, datagram)) :
    chan.take (chan.length - left.length) ++ left = chan := by
  have hdrop : ∃ k, left = chan.drop k := by
    unfold AckTask.step at h
    split at h
    · split at h <;> cases h <;> exact ⟨0, rfl⟩
    · split at h
      · cases h
      · cases h
        exact ⟨20, rfl⟩
    · split at h
      · cases h
        exact ⟨0, rfl⟩
      · split at h <;> cases h <;> exact ⟨0, rfl⟩
  obtain ⟨k, rfl⟩ := hdrop
  rw [List.length_drop]
  by_cases hk : k ≤ chan.length
  · rw [show chan.length - (chan.length - k) = k by omega, List.take_append_drop]
  · rw [List.drop_of_length_le (by omega), List.append_nil, List.take_of_length_le (by omega)]

theorem received_run {acts : List Action} {st : State}
    (h : Run (Step srcConnId dstConnId) init acts st) :
    st.received ++ st.chan = handedIn acts := by
  induction h with
  | nil => rfl
  | @snoc acts act s t _ hstep ih =>
    rw [handedIn_append, ← ih]
    cases act with
    | send a =>
      cases hstep
      simp [handedIn]
    | readAck sendOk batch =>
      obtain ⟨⟨left, task, datagram⟩, htask, rfl⟩ := Option.map_eq_some_iff.mp hstep
      have hleft := left_of_step htask
      simp only [handedIn, List.append_nil]
      rw [List.append_assoc, ← List.append_assoc _ left, hleft, List.take_append_drop]

end

/-- In every run: `recv_many` hands out the acks in the order they were put in; the
datagrams that the socket accepted parse, one by one, to the acks at the front of
what was received, with counts of 16 bits; a count that fits is the count itself;
and the task waits with nothing in its hands, once all that was received is sent. -/
theorem ack_sender (srcConnId dstConnId : UInt32) (acts : List Action) (st : State)
    (h : Run (Step srcConnId dstConnId) init acts st) :
    st.received ++ st.chan = handedIn acts ∧
    (∃ packets : List (List BluefinPacket),
      st.sent.map BluefinPacket.fromBytes = packets.map .ok ∧
      (∀ p ∈ packets.flatten, p.header.typeField = .ack) ∧
      ∃ m, acksOf packets.flatten = (st.received.take m).map (fun a => (a.1, a.2 % 65536)) ∧
        ((∀ a ∈ st.received, a.2 ≤ 65535) → acksOf packets.flatten = st.received.take m) ∧
        (Waits srcConnId dstConnId st.task → m = st.received.length)) ∧
    (Waits srcConnId dstConnId st.task → st.task.ackQueue = [] ∧ st.task.pendingSend = none) := by
  obtain ⟨groups, pending, hholds⟩ := holds_run h
  have htake : st.received.take groups.flatten.length = groups.flatten := by
    rw [hholds.received_eq, List.append_assoc, List.take_left' rfl]
  have hflat : (groups.map fun g => g.map (ackPacket srcConnId dstConnId)).flatten =
      groups.flatten.map (ackPacket srcConnId dstConnId) := List.map_flatten.symm
  refine ⟨received_run h, ?_, ?_⟩
  · refine ⟨groups.map fun g => g.map (ackPacket srcConnId dstConnId), ?_, ?_,
      groups.flatten.length, ?_, ?_, ?_⟩
    · rw [hholds.sent_eq, fromBytes_groups hholds.groups_ne]
    · intro p hp
      rw [hflat] at hp
      obtain ⟨a, -, rfl⟩ := List.mem_map.mp hp
      rfl
    · rw [hflat, acksOf_ackPackets, htake]
    · intro hcounts
      rw [hflat, acksOf_ackPackets, htake]
      apply map_count_eq
      intro a ha
      exact hcounts a (by rw [← htake] at ha; exact List.mem_of_mem_take ha)
    · intro hwaits
      obtain ⟨hpc, hnone⟩ := waits_top hwaits
      rw [hholds.received_eq, hholds.pending_none hnone, hholds.at_top hpc, List.append_nil,
        List.append_nil]
  · intro hwaits
    obtain ⟨hpc, hnone⟩ := waits_top hwaits
    exact ⟨hholds.at_top hpc, hnone⟩

/-- The socket refuses the datagram once; it goes out at the next turn. -/
def refusedOnce : List Action :=
  [.send (7, 3), .send (9, 1), .readAck true 2, .readAck false 0, .readAck true 0]

theorem ack_sender_refusedOnce : ∃ st, Run (Step 2 1) init refusedOnce st ∧
    Waits 2 1 st.task ∧ st.sent.length = 1 ∧
    ∃ packets : List (List BluefinPacket),
      st.sent.map BluefinPacket.fromBytes = packets.map .ok ∧
      acksOf packets.flatten = [(7, 3), (9, 1)] := by
  have hcomputed : (refusedOnce.foldlM (step 2 1) init).map
      (fun st => (st.received, st.sent.length, st.task)) =
        some ([(7, 3), (9, 1)], 1, AckTask.new) := by decide +kernel
  obtain ⟨st, hrun, hst⟩ := Run.exists_of_foldlM _ refusedOnce (fun _ _ _ _ h => h) hcomputed
  obtain ⟨hreceived, hst⟩ := Prod.mk.inj hst
  obtain ⟨hsent, htask⟩ := Prod.mk.inj hst
  have hwaits : Waits 2 1 st.task := by
    rw [htask]
    exact fun _ => rfl
  obtain ⟨-, ⟨packets, hparse, -, m, -, hexact, hall⟩, -⟩ := ack_sender 2 1 refusedOnce st hrun
  have hcounts : ∀ a ∈ st.received, a.2 ≤ 65535 := by
    rw [hreceived]
    decide
  refine ⟨st, hrun, hwaits, hsent, packets, hparse, ?_⟩
  rw [hexact hcounts, hall hwaits, List.take_length, hreceived]

/-- A count of 65536 goes out as 0. -/
def longRange : List Action := [.send (5, 65536), .readAck true 1, .readAck true 0]

theorem ack_sender_count_cut : ∃ st, Run (Step 2 1) init longRange st ∧
    st.received = [(5, 65536)] ∧
    ¬ ∃ packets : List (List BluefinPacket),
      st.sent.map BluefinPacket.fromBytes = packets.map .ok ∧
      ∃ m, acksOf packets.flatten = st.received.take m := by
  have hcomputed : (longRange.foldlM (step 2 1) init).map (fun st => (st.received, st.sent)) =
      some ([(5, 65536)], [ackDatagram 2 1 [(5, 65536)]]) := by decide +kernel
  obtain ⟨st, hrun, hst⟩ := Run.exists_of_foldlM _ longRange (fun _ _ _ _ h => h) hcomputed
  obtain ⟨hreceived, hsent⟩ := Prod.mk.inj hst
  refine ⟨st, hrun, hreceived, ?_⟩
  rintro ⟨packets, hparse, m, hfront⟩
  rw [hsent, List.map_singleton, fromBytes_ackDatagram 2 1 (by decide)] at hparse
  have hpackets : packets = [[ackPacket 2 1 (5, 65536)]] := by
    cases packets with
    | nil => cases hparse
    | cons ps rest =>
      obtain ⟨hps, hrest⟩ := List.cons.inj hparse
      cases hps
      rw [List.map_eq_nil_iff.mp hrest.symm]
      rfl
  rw [hpackets, hreceived] at hfront
  cases m with
  | zero => cases hfront
  | succ m => cases hfront

end AckSender

end Bluefin
