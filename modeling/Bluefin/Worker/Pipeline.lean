import Bluefin.Base.Trace
import Bluefin.Worker.Dispatch

/-!
# The two receive pipelines (worker/conn_reader.rs)

`n` copies of `tx_impl` read one connected socket and feed one `rx_impl` over a
bounded channel; `recv_and_buffer_inline` does the work of both in one task. A
datagram goes to whichever task reads next. The two differ in what a datagram
that does not parse does: the inline loop goes on, `tx_impl` returns. They also
differ after one that makes the dispatch panic: the inline loop hands over no
more, `tx_impl` may have sent a later datagram before it.
-/

namespace Bluefin
open Base BluefinPacket

namespace Pipeline

open ConnReaderHandler

abbrev channelBound : ℕ := 1024

/-! ### The machine -/

inductive TxPc where
  | receiving
  | sending (batches : List (List BluefinPacket))
  | ended
  deriving DecidableEq

def TxPc.batches : TxPc → List (List BluefinPacket)
  | .receiving => []
  | .sending batches => batches
  | .ended => []

structure State where
  socket : List Bytes
  tasks : List TxPc
  channel : List (List BluefinPacket)
  -- the buffers `rx_impl` works on, `none` once it has unwound
  consumer : Option ConnectionManagedBuffers
  handed : List (List BluefinPacket)
  -- the datagrams that were read from the socket, in their order
  taken : List Bytes

def init (n : ℕ) (bufs : ConnectionManagedBuffers) : State where
  socket := []
  tasks := List.replicate n .receiving
  channel := []
  consumer := some bufs
  handed := []
  taken := []

def State.arrived (st : State) : List Bytes := st.taken ++ st.socket

inductive Action where
  | arrive (datagram : Bytes)
  | recv (i : ℕ)
  | send (i : ℕ)
  | deliver

/-- Where a round of `tx_impl` leads: to the send, or out of the loop. -/
def afterRecv (datagram : Bytes) : TxPc :=
  match txImpl [] datagram with
  | .goOn batches => .sending batches
  | .ended _ => .ended
  | .crashed _ => .ended

def recvStep (st : State) (i : ℕ) : Option State :=
  match st.tasks[i]?, st.socket with
  | some .receiving, datagram :: socket => some { st with
      socket := socket
      tasks := st.tasks.set i (afterRecv datagram)
      taken := st.taken ++ [datagram] }
  | _, _ => none

/-- The send `tx.send(to_send).await` waits for room; without a receiver it fails, and the result is
ignored. -/
def sendStep (st : State) (i : ℕ) : Option State :=
  match st.tasks[i]? with
  | some (.sending batches) => match st.consumer with
    | none => some { st with tasks := st.tasks.set i .receiving }
    | some _ =>
      if st.channel.length < channelBound then some { st with
        channel := st.channel ++ batches, tasks := st.tasks.set i .receiving }
      else none
  | _ => none

/-- What `rx_impl` is left with after one call of `buffer_in_packets`. -/
def afterDeliver (packets : List BluefinPacket) (bufs : ConnectionManagedBuffers) :
    Option ConnectionManagedBuffers :=
  match bufferInPackets packets bufs with
  | (.panicked _, _) => none
  | (_, bufs, _) => some bufs

/-- conn_reader.rs:191-200. -/
def deliverStep (st : State) : Option State :=
  match st.consumer, st.channel with
  | some bufs, packets :: channel => match afterDeliver packets bufs with
    | some bufs' => some { st with
        channel := channel, consumer := some bufs', handed := st.handed ++ [packets] }
    -- the task unwinds and drops the receiver, with all that waits in the channel
    | none => some { st with channel := [], consumer := none, handed := st.handed ++ [packets] }
  | _, _ => none

def step (st : State) : Action → Option State
  | .arrive datagram => some { st with socket := st.socket ++ [datagram] }
  | .recv i => recvStep st i
  | .send i => sendStep st i
  | .deliver => deliverStep st

def Step (st : State) (act : Action) (st' : State) : Prop := step st act = some st'

inductive Moves (st : State) : State → Prop
  | arrive (datagram : Bytes) : Moves st { st with socket := st.socket ++ [datagram] }
  | recv (pre post : List TxPc) (datagram : Bytes) (socket : List Bytes)
      (htasks : st.tasks = pre ++ .receiving :: post) (hsocket : st.socket = datagram :: socket) :
      Moves st { st with
        socket := socket
        tasks := pre ++ afterRecv datagram :: post
        taken := st.taken ++ [datagram] }
  | send (pre post : List TxPc) (batches : List (List BluefinPacket))
      (htasks : st.tasks = pre ++ .sending batches :: post) :
      Moves st { st with channel := st.channel ++ batches, tasks := pre ++ .receiving :: post }
  | sendLost (pre post : List TxPc) (batches : List (List BluefinPacket))
      (htasks : st.tasks = pre ++ .sending batches :: post) (hgone : st.consumer = none) :
      Moves st { st with tasks := pre ++ .receiving :: post }
  | deliver (bufs bufs' : ConnectionManagedBuffers) (packets : List BluefinPacket)
      (channel : List (List BluefinPacket)) (hchannel : st.channel = packets :: channel)
      (hafter : afterDeliver packets bufs = some bufs') :
      Moves st { st with
        channel := channel, consumer := some bufs', handed := st.handed ++ [packets] }
  | unwind (bufs : ConnectionManagedBuffers) (packets : List BluefinPacket)
      (channel : List (List BluefinPacket)) (hchannel : st.channel = packets :: channel)
      (hafter : afterDeliver packets bufs = none) :
      Moves st { st with channel := [], consumer := none, handed := st.handed ++ [packets] }

theorem recvStep_moves {st st' : State} {i : ℕ} (h : recvStep st i = some st') : Moves st st' := by
  unfold recvStep at h
  split at h
  · rename_i datagram socket htask hsocket
    obtain ⟨pre, post, htasks, hset, -⟩ := split_at htask
    rw [hset] at h
    cases h
    exact .recv pre post datagram socket htasks hsocket
  · cases h

theorem sendStep_moves {st st' : State} {i : ℕ} (h : sendStep st i = some st') : Moves st st' := by
  unfold sendStep at h
  split at h
  · rename_i batches htask
    obtain ⟨pre, post, htasks, hset, -⟩ := split_at htask
    rw [hset] at h
    split at h
    · rename_i hgone
      cases h
      exact .sendLost pre post batches htasks hgone
    · split at h
      · cases h
        exact .send pre post batches htasks
      · cases h
  · cases h

theorem step_moves {st st' : State} {act : Action} (h : step st act = some st') : Moves st st' := by
  cases act with
  | arrive datagram =>
    cases h
    exact .arrive datagram
  | recv i => exact recvStep_moves h
  | send i => exact sendStep_moves h
  | deliver =>
    simp only [step, deliverStep] at h
    split at h
    · rename_i bufs packets channel hconsumer hchannel
      split at h
      · rename_i bufs' hafter
        cases h
        exact .deliver bufs bufs' packets channel hchannel hafter
      · rename_i hafter
        cases h
        exact .unwind bufs packets channel hchannel hafter
    · cases h

/-! ### What the inline loop hands over -/

/-- The packets of a datagram that parses. -/
def parsed (datagram : Bytes) : Option (List BluefinPacket) :=
  match fromBytesInto datagram [] with
  | (.ok _, packets) => some packets
  | _ => none

/-- The batches that `recv_and_buffer_inline` passes to `buffer_in_packets` as
the datagrams come in; after a panic it passes no more. -/
def inlineBatches (bufs : ConnectionManagedBuffers) : List Bytes → List (List BluefinPacket)
  | [] => []
  | datagram :: datagrams =>
    (parsed datagram).toList ++ match recvAndBufferInline bufs datagram with
      | .goOn bufs => inlineBatches bufs datagrams
      | .ended _ => []
      | .crashed _ => []

/-- The dispatch of the packets does not panic: a batch that begins with a packet
of the close handshake has no others. -/
def DispatchSafe (packets : List BluefinPacket) : Prop :=
  ∀ p ∈ packets.head?, IsClose p.header.typeField → ∀ q ∈ packets, IsClose q.header.typeField

theorem bufferInPackets_returns {packets : List BluefinPacket} (h : DispatchSafe packets)
    (bufs : ConnectionManagedBuffers) : (bufferInPackets packets bufs).1.isPanic = false := by
  cases packets with
  | nil => rfl
  | cons p packets =>
    by_cases hclose : IsClose p.header.typeField
    · have hall := h p rfl hclose
      rw [bufferInPackets_close p packets bufs hclose, (bufferInClosePackets_eq bufs _ hall).1]
      rfl
    · by_cases hack : p.header.typeField = .ack
      · exact (bufferInPackets_ack p packets bufs hack).1
      · exact (bufferInPackets_other p packets bufs hack hclose).1

theorem bufferInPackets_unwinds {packets : List BluefinPacket} (h : ¬ DispatchSafe packets)
    (bufs : ConnectionManagedBuffers) :
    (bufferInPackets packets bufs).1 = .panicked (.raised .unreachableClosePacket) := by
  cases packets with
  | nil => exact absurd (fun p hp => by cases hp) h
  | cons p packets =>
    by_cases hclose : IsClose p.header.typeField
    · refine close_first_panics p packets bufs hclose ?_
      by_contra hnone
      refine h (fun _ _ _ q hq => ?_)
      rcases List.mem_cons.mp hq with rfl | hq
      · exact hclose
      · exact by_contra fun hother => hnone ⟨q, hq, hother⟩
    · refine absurd (fun q hq hq' => ?_) h
      obtain rfl : p = q := Option.some.inj hq
      exact absurd hq' hclose

theorem afterDeliver_eq_none_iff (packets : List BluefinPacket)
    (bufs : ConnectionManagedBuffers) : afterDeliver packets bufs = none ↔ ¬ DispatchSafe packets := by
  unfold afterDeliver
  rcases hres : bufferInPackets packets bufs with ⟨res, bufs', woken⟩
  constructor
  · intro hnone hsafe
    have hret := bufferInPackets_returns hsafe bufs
    rw [hres] at hret
    cases res with
    | ok _ => cases hnone
    | err e => cases hnone
    | panicked f => cases hret
  · intro hpanics
    have hpanic := bufferInPackets_unwinds hpanics bufs
    rw [hres] at hpanic
    obtain rfl : res = .panicked (.raised .unreachableClosePacket) := hpanic
    rfl

theorem parsed_cases {datagram : Bytes} (h : ¬ ReachesUnknownType datagram) :
    (∃ packets, parsed datagram = some packets ∧
        fromBytesInto datagram [] = (.ok packets.length, packets) ∧
        afterRecv datagram = .sending [packets]) ∨
      (parsed datagram = none ∧ (fromBytesInto datagram []).1.isOk = false ∧
        afterRecv datagram = .ended ∧ ∀ bufs, recvAndBufferInline bufs datagram = .goOn bufs) := by
  have hpanic := mt (fromBytesInto_panic_iff datagram []).mp h
  unfold parsed afterRecv txImpl recvAndBufferInline
  rcases hres : fromBytesInto datagram [] with ⟨res, packets⟩
  rw [hres] at hpanic
  cases res with
  | ok n =>
    have hn : n = packets.length := by
      by_cases hlen : 20 ≤ datagram.length
      · obtain ⟨hcount, hvec⟩ := fromBytesInto_parse datagram [] hlen
        rw [hres] at hcount hvec
        obtain ⟨ps, hps, hlen'⟩ := Outcome.map_eq_ok.mp hcount.symm
        have hpackets := hvec ps hps
        rw [← hlen']
        simp only [List.nil_append] at hpackets
        rw [hpackets]
      · rw [fromBytesInto, if_pos (by omega)] at hres
        cases hres
    exact .inl ⟨packets, rfl, by rw [hn], rfl⟩
  | err e => exact .inr ⟨rfl, rfl, rfl, fun bufs => rfl⟩
  | panicked f => exact absurd rfl hpanic

theorem parsed_eq_some {datagram : Bytes} {packets : List BluefinPacket}
    (h : parsed datagram = some packets) :
    (fromBytesInto datagram []).1.isOk = true ∧ (fromBytesInto datagram []).2 = packets := by
  unfold parsed at h
  rcases hres : fromBytesInto datagram [] with ⟨res, vec⟩
  rw [hres] at h
  cases res with
  | ok n =>
    cases h
    exact ⟨rfl, rfl⟩
  | err e => cases h
  | panicked f => cases h

theorem parsed_of_isOk {datagram : Bytes} (h : (fromBytesInto datagram []).1.isOk = true) :
    parsed datagram = some (fromBytesInto datagram []).2 := by
  unfold parsed
  rcases hres : fromBytesInto datagram [] with ⟨res, vec⟩
  rw [hres] at h
  cases res with
  | ok n => rfl
  | err e => cases h
  | panicked f => cases h

theorem known_of_isOk {datagram : Bytes} (h : (fromBytesInto datagram []).1.isOk = true) :
    ¬ ReachesUnknownType datagram := by
  rw [← fromBytesInto_panic_iff datagram []]
  cases hres : (fromBytesInto datagram []).1 with
  | ok n => simp
  | err e => simp
  | panicked f =>
    rw [hres] at h
    cases h

theorem crashed_of_panics {datagram : Bytes} (hok : (fromBytesInto datagram []).1.isOk = true)
    (h : ¬ DispatchSafe (fromBytesInto datagram []).2) (bufs : ConnectionManagedBuffers) :
    recvAndBufferInline bufs datagram = .crashed (.raised .unreachableClosePacket) := by
  have hpanic := bufferInPackets_unwinds h bufs
  unfold recvAndBufferInline
  rcases hres : fromBytesInto datagram [] with ⟨res, packets⟩
  rw [hres] at hok hpanic
  cases res with
  | err e => cases hok
  | panicked f => cases hok
  | ok n =>
    rcases hbuf : bufferInPackets packets bufs with ⟨res, bufs', woken⟩
    rw [hbuf] at hpanic
    obtain rfl : res = .panicked (.raised .unreachableClosePacket) := hpanic
    simp only [hbuf]

section

variable {bufs : ConnectionManagedBuffers}

/-- `from_bytes_into` accepts the datagram, and the dispatch of its packets does not panic. -/
structure Deliverable (datagram : Bytes) : Prop where
  accepted : (fromBytesInto datagram []).1.isOk = true
  safe : DispatchSafe (fromBytesInto datagram []).2

theorem inlineBatches_eq {datagrams : List Bytes} (h : ∀ d ∈ datagrams, Deliverable d)
    (bufs : ConnectionManagedBuffers) : inlineBatches bufs datagrams = datagrams.filterMap parsed := by
  induction datagrams generalizing bufs with
  | nil => rfl
  | cons d datagrams ih =>
    have hrest := ih (fun e he => h e (List.mem_cons_of_mem _ he))
    obtain ⟨hok, hsafe⟩ := h d (List.mem_cons_self ..)
    unfold inlineBatches
    rcases parsed_cases (known_of_isOk hok) with ⟨packets, hparsed, hbytes, -⟩ | ⟨-, hbad, -, -⟩
    · rw [hbytes] at hsafe
      have hret := bufferInPackets_returns hsafe bufs
      simp only [inline_goes_on hbytes hret, hparsed, List.filterMap_cons, hrest]
      rfl
    · rw [hok] at hbad
      cases hbad

/-! ### What holds along every run -/

/-- Batches on their way from a task to the consumer. -/
def inFlight (st : State) : List (List BluefinPacket) :=
  st.channel ++ st.tasks.flatMap TxPc.batches

theorem taken_step {st st' : State} (h : Moves st st') : st.taken <+: st'.taken := by
  cases h with
  | recv pre post datagram socket htasks hsocket => exact List.prefix_append ..
  | _ => exact List.prefix_refl _

theorem length_run {n : ℕ} {acts : List Action} {st : State}
    (hr : Run Step (init n bufs) acts st) : st.tasks.length = n := by
  refine Run.invariant (P := fun _ st => st.tasks.length = n) List.length_replicate ?_ hr
  intro acts st act st' _ hcount hstep
  cases step_moves hstep with
  | arrive | deliver | unwind => exact hcount
  | recv pre post datagram socket htasks hsocket =>
    rw [htasks] at hcount
    simpa using hcount
  | send pre post batches htasks =>
    rw [htasks] at hcount
    simpa using hcount
  | sendLost pre post batches htasks hgone =>
    rw [htasks] at hcount
    simpa using hcount

theorem ended_recv {pre post : List TxPc} {taken : List Bytes} {datagram : Bytes}
    (hknown : ¬ ReachesUnknownType datagram)
    (h : .ended ∈ pre ++ .receiving :: post ↔ ∃ d ∈ taken, parsed d = none) :
    .ended ∈ pre ++ afterRecv datagram :: post ↔ ∃ d ∈ taken ++ [datagram], parsed d = none := by
  have hpc : afterRecv datagram = .ended ↔ parsed datagram = none := by
    rcases parsed_cases hknown with ⟨packets, hparsed, -, hpc⟩ | ⟨hparsed, -, hpc, -⟩
    · simp [hpc, hparsed]
    · simp [hpc, hparsed]
  have hsplit : (∃ d ∈ taken ++ [datagram], parsed d = none) ↔
      (∃ d ∈ taken, parsed d = none) ∨ parsed datagram = none := by
    simp only [List.mem_append, List.mem_singleton, or_and_right, exists_or, exists_eq_left]
  rw [hsplit, ← h, ← hpc, @eq_comm _ (afterRecv datagram)]
  simp only [List.mem_append, List.mem_cons, reduceCtorEq, false_or]
  exact (or_congr_right or_comm).trans or_assoc.symm

/-- A task has ended just if one has read a datagram that does not parse. -/
theorem ended_run {n : ℕ} {acts : List Action} {st : State} (hr : Run Step (init n bufs) acts st)
    (hknown : ∀ d ∈ st.taken, ¬ ReachesUnknownType d) :
    .ended ∈ st.tasks ↔ ∃ d ∈ st.taken, parsed d = none := by
  induction hr with
  | nil => simp [init, List.mem_replicate]
  | snoc _ hs ih =>
    have hmoves := step_moves hs
    have hended := ih (fun d hd => hknown d ((taken_step hmoves).subset hd))
    cases hmoves with
    | arrive | deliver | unwind => exact hended
    | recv pre post datagram socket htasks hsocket =>
      rw [htasks] at hended
      exact ended_recv (hknown datagram (by simp)) hended
    | send pre post batches htasks =>
      rw [htasks] at hended
      simpa using hended
    | sendLost pre post batches htasks hgone =>
      rw [htasks] at hended
      simpa using hended

theorem batches_recv {handed channel : List (List BluefinPacket)} {pre post : List TxPc}
    {taken : List Bytes} {datagram : Bytes} (hknown : ¬ ReachesUnknownType datagram)
    (h : (handed ++ (channel ++ (pre ++ .receiving :: post).flatMap TxPc.batches)).Perm
      (taken.filterMap parsed)) :
    (handed ++ (channel ++ (pre ++ afterRecv datagram :: post).flatMap TxPc.batches)).Perm
      ((taken ++ [datagram]).filterMap parsed) := by
  have hpc : (afterRecv datagram).batches = (parsed datagram).toList := by
    rcases parsed_cases hknown with ⟨packets, hparsed, -, hpc⟩ | ⟨hparsed, -, hpc, -⟩
    · rw [hpc, hparsed]
      rfl
    · rw [hpc, hparsed]
      rfl
  have hlast : [datagram].filterMap parsed = (parsed datagram).toList := by
    cases hparsed : parsed datagram <;> simp [hparsed]
  have hidle : TxPc.receiving.batches = [] := rfl
  simp only [List.flatMap_append, List.flatMap_cons, hpc, hidle, List.nil_append,
    List.filterMap_append, hlast] at h ⊢
  refine List.Perm.trans ?_ (h.append_right _)
  simp only [List.append_assoc, List.perm_append_left_iff]
  exact List.perm_append_comm

structure Inv (st : State) : Prop where
  batches : (st.handed ++ inFlight st).Perm (st.taken.filterMap parsed)
  alive : st.consumer ≠ none

theorem inv_init (n : ℕ) : Inv (init n bufs) := by
  refine ⟨?_, by simp [init]⟩
  have hnone : (List.replicate n TxPc.receiving).flatMap TxPc.batches = [] := by
    rw [List.flatMap_eq_nil_iff]
    intro t ht
    rw [List.eq_of_mem_replicate ht]
    rfl
  simp [inFlight, init, hnone]

theorem Inv.safe {st : State} {packets : List BluefinPacket} {channel : List (List BluefinPacket)}
    (h : Inv st) (hall : ∀ d ∈ st.taken, Deliverable d) (hchannel : st.channel = packets :: channel) :
    DispatchSafe packets := by
  have hin : packets ∈ st.taken.filterMap parsed := by
    refine h.batches.subset ?_
    simp [inFlight, hchannel]
  obtain ⟨d, hd, hparsed⟩ := List.mem_filterMap.mp hin
  rw [← (parsed_eq_some hparsed).2]
  exact (hall d hd).safe

theorem inv_step {st st' : State} (h : Moves st st') (hall : ∀ d ∈ st'.taken, Deliverable d)
    (hinv : Inv st) : Inv st' := by
  obtain ⟨hbatches, halive⟩ := hinv
  cases h with
  | arrive datagram => exact ⟨hbatches, halive⟩
  | recv pre post datagram socket htasks hsocket =>
    have hknown := known_of_isOk (hall datagram (by simp)).accepted
    rw [inFlight, htasks] at hbatches
    exact ⟨batches_recv hknown hbatches, halive⟩
  | send pre post batches htasks =>
    refine ⟨List.Perm.trans ?_ hbatches, halive⟩
    simp only [inFlight, htasks, List.flatMap_append, List.flatMap_cons, TxPc.batches,
      List.append_assoc, List.perm_append_left_iff, List.nil_append]
    exact List.perm_append_comm_assoc ..
  | sendLost pre post batches htasks hgone => exact absurd hgone halive
  | deliver bufs bufs' packets channel hchannel hafter =>
    refine ⟨?_, by simp⟩
    rw [inFlight, hchannel] at hbatches
    simpa [inFlight] using hbatches
  | unwind bufs packets channel hchannel hafter =>
    have hsafe := Inv.safe ⟨hbatches, halive⟩ hall hchannel
    exact absurd hsafe ((afterDeliver_eq_none_iff packets bufs).mp hafter)

theorem inv_run {n : ℕ} {acts : List Action} {st : State} (hr : Run Step (init n bufs) acts st)
    (hall : ∀ d ∈ st.taken, Deliverable d) : Inv st := by
  induction hr with
  | nil => exact inv_init n
  | snoc _ hs ih =>
    have hmoves := step_moves hs
    exact inv_step hmoves hall (ih fun d hd => hall d ((taken_step hmoves).subset hd))

/-! ### Equivalence -/

/-- Nothing is left to do but to wait for datagrams, or for a task to read them. -/
structure Quiescent (st : State) : Prop where
  channel : st.channel = []
  sent : ∀ batches, .sending batches ∉ st.tasks
  idle : st.socket = [] ∨ .receiving ∉ st.tasks

/-- Every task runs, and when nothing is on its way any more, `rx_impl` has
handed over what the inline loop would have, up to order. -/
structure Equivalent (bufs : ConnectionManagedBuffers) (st : State) : Prop where
  running : .ended ∉ st.tasks
  handed : Quiescent st → st.handed.Perm (inlineBatches bufs st.arrived)

theorem equivalent_of_deliverable {n : ℕ} {acts : List Action} {st : State} (hn : 0 < n)
    (hr : Run Step (init n bufs) acts st) (hall : ∀ d ∈ st.taken, Deliverable d) :
    Equivalent bufs st := by
  have hrunning : .ended ∉ st.tasks := by
    rw [ended_run hr fun d hd => known_of_isOk (hall d hd).accepted]
    rintro ⟨d, hd, hnone⟩
    rw [parsed_of_isOk (hall d hd).accepted] at hnone
    cases hnone
  refine ⟨hrunning, fun hq => ?_⟩
  have hcount := length_run hr
  have hsocket : st.socket = [] := by
    refine hq.idle.resolve_right (fun hno => ?_)
    -- some task is there, and it is neither sending nor ended
    obtain ⟨t, ht⟩ := List.exists_mem_of_length_pos (l := st.tasks) (by omega)
    cases t with
    | receiving => exact hno ht
    | ended => exact hrunning ht
    | sending batches => exact hq.sent batches ht
  have hnone : st.tasks.flatMap TxPc.batches = [] := by
    rw [List.flatMap_eq_nil_iff]
    intro t ht
    cases t with
    | receiving => rfl
    | ended => rfl
    | sending batches => exact absurd ht (hq.sent batches)
  have hbatches := (inv_run hr hall).batches
  rw [inFlight, hq.channel, hnone, List.append_nil, List.append_nil] at hbatches
  rw [State.arrived, hsocket, List.append_nil, inlineBatches_eq hall]
  exact hbatches

/-! ### Two datagrams that change places -/

/-- A datagram of one packet. -/
def single (t : PacketType) : Bytes := serialiseAll [sample t]

theorem single_parses (t : PacketType) : fromBytesInto (single t) [] = (.ok 1, [sample t]) :=
  sample_datagram [t] (by simp)

theorem single_deliverable (t : PacketType) : Deliverable (single t) := by
  refine ⟨by rw [single_parses]; rfl, ?_⟩
  rw [single_parses]
  intro p hp hclose q hq
  obtain rfl : sample t = p := Option.some.inj hp
  rwa [List.mem_singleton.mp hq]

theorem afterRecv_of_isOk {datagram : Bytes} (h : (fromBytesInto datagram []).1.isOk = true) :
    afterRecv datagram = .sending [(fromBytesInto datagram []).2] := by
  rcases parsed_cases (known_of_isOk h) with ⟨packets, -, hbytes, hpc⟩ | ⟨-, hbad, -, -⟩
  · rw [hpc, hbytes]
  · rw [h] at hbad
    cases hbad

/-- The second task overtakes the first between the socket and the channel. -/
def overtaken (first second : Bytes) : List Action :=
  [.arrive first, .arrive second, .recv 0, .recv 1, .send 1, .send 0, .deliver, .deliver]

/-- All that was read has been handed over. -/
def handedOver (n : ℕ) (bufs : ConnectionManagedBuffers)
    (consumer : Option ConnectionManagedBuffers) (handed : List (List BluefinPacket))
    (taken : List Bytes) : State :=
  { init n bufs with consumer := consumer, handed := handed, taken := taken }

theorem quiescent_handedOver (n : ℕ) (consumer : Option ConnectionManagedBuffers)
    (handed : List (List BluefinPacket)) (taken : List Bytes) :
    Quiescent (handedOver n bufs consumer handed taken) := by
  refine ⟨rfl, fun batches hmem => ?_, .inl rfl⟩
  cases List.eq_of_mem_replicate hmem

theorem run_overtaken (m : ℕ) {first second : Bytes} {ps qs : List BluefinPacket}
    {bufs' : ConnectionManagedBuffers} (hfirst : afterRecv first = .sending [ps])
    (hsecond : afterRecv second = .sending [qs]) (hafter : afterDeliver qs bufs = some bufs') :
    Run Step (init (m + 2) bufs) (overtaken first second)
      (handedOver (m + 2) bufs (afterDeliver ps bufs') [qs, ps] [first, second]) := by
  let rest := List.replicate m TxPc.receiving
  have hread : Run Step (init (m + 2) bufs) [.arrive first, .arrive second, .recv 0, .recv 1]
      { init (m + 2) bufs with
        tasks := .sending [ps] :: .sending [qs] :: rest, taken := [first, second] } := by
    rw [← hfirst, ← hsecond]
    exact Run.of_foldlM _ (fun _ _ _ _ h => h) rfl
  have hsent : Run Step { init (m + 2) bufs with
        tasks := .sending [ps] :: .sending [qs] :: rest, taken := [first, second] }
      [.send 1, .send 0]
      { init (m + 2) bufs with channel := [qs, ps], taken := [first, second] } :=
    Run.of_foldlM _ (fun _ _ _ _ h => h) rfl
  have hdeliver : Step { init (m + 2) bufs with channel := [qs, ps], taken := [first, second] }
      .deliver { init (m + 2) bufs with
        channel := [ps], consumer := some bufs', handed := [qs], taken := [first, second] } := by
    simp only [Step, step, deliverStep, init, hafter, List.nil_append]
  have hlast : Step { init (m + 2) bufs with
        channel := [ps], consumer := some bufs', handed := [qs], taken := [first, second] }
      .deliver (handedOver (m + 2) bufs (afterDeliver ps bufs') [qs, ps] [first, second]) := by
    simp only [Step, step, deliverStep, handedOver]
    cases afterDeliver ps bufs' <;> rfl
  exact ((hread.append hsent).snoc hdeliver).snoc hlast

theorem Deliverable.afterDeliver {datagram : Bytes} (h : Deliverable datagram)
    (bufs : ConnectionManagedBuffers) :
    ∃ bufs', afterDeliver (fromBytesInto datagram []).2 bufs = some bufs' :=
  Option.ne_none_iff_exists'.mp fun hnone => (afterDeliver_eq_none_iff _ bufs).mp hnone h.safe

theorem overtaken_panics (m : ℕ) {d : Bytes} (hok : (fromBytesInto d []).1.isOk = true)
    (hpanics : ¬ DispatchSafe (fromBytesInto d []).2) :
    ∃ acts st, Run Step (init (m + 2) bufs) acts st ∧ st.taken = [d, single .unencryptedData] ∧
      ¬ Equivalent bufs st := by
  have hgood := single_deliverable .unencryptedData
  obtain ⟨bufs', hafter⟩ := hgood.afterDeliver bufs
  refine ⟨_, _, run_overtaken m (afterRecv_of_isOk hok) (afterRecv_of_isOk hgood.accepted) hafter,
    rfl, fun heq => ?_⟩
  have hlength := (heq.handed (quiescent_handedOver ..)).length_eq
  simp only [State.arrived, handedOver, init, List.cons_append, inlineBatches,
    crashed_of_panics hok hpanics, parsed_of_isOk hok] at hlength
  cases hlength

/-- While every datagram that a task has read is accepted and dispatched without a panic, the
pipelines are equivalent. A task that has read one that is not accepted breaks this. So does,
in some run, every one that is accepted and makes the dispatch panic, if there are two tasks. -/
theorem pipelines_equivalent_iff (n : ℕ) (hn : 0 < n) (bufs : ConnectionManagedBuffers) :
    (∀ acts st, Run Step (init n bufs) acts st → (∀ d ∈ st.taken, Deliverable d) →
      Equivalent bufs st) ∧
    (∀ acts st, Run Step (init n bufs) acts st → (∀ d ∈ st.taken, ¬ ReachesUnknownType d) →
      Equivalent bufs st → ∀ d ∈ st.taken, (fromBytesInto d []).1.isOk = true) ∧
    (2 ≤ n → ∀ d, (fromBytesInto d []).1.isOk = true → ¬ DispatchSafe (fromBytesInto d []).2 →
      ∃ acts st, Run Step (init n bufs) acts st ∧ (∀ e ∈ st.taken, e = d ∨ Deliverable e) ∧
        ¬ Equivalent bufs st) := by
  refine ⟨fun acts st hr hall => equivalent_of_deliverable hn hr hall, ?_, ?_⟩
  · intro acts st hr hknown heq d hd
    by_contra hbad
    refine heq.running ((ended_run hr hknown).mpr ⟨d, hd, ?_⟩)
    by_contra hsome
    obtain ⟨packets, hparsed⟩ := Option.ne_none_iff_exists'.mp hsome
    exact hbad (parsed_eq_some hparsed).1
  · intro htwo d hok hpanics
    obtain ⟨m, rfl⟩ := Nat.exists_eq_add_of_le' htwo
    obtain ⟨acts, st, hr, htaken, hdiffer⟩ := @overtaken_panics bufs m d hok hpanics
    refine ⟨acts, st, hr, fun e he => ?_, hdiffer⟩
    rw [htaken] at he
    rcases List.mem_cons.mp he with rfl | he
    · exact .inl rfl
    · rw [List.mem_singleton.mp he]
      exact .inr (single_deliverable .unencryptedData)

/-- An `Ack` comes in behind a data packet and is handed over before it. -/
theorem pipelines_equivalent_overtaken : ∃ acts st, Run Step (init 2 freshBuffers) acts st ∧
    st.arrived = [single .unencryptedData, single .ack] ∧ Quiescent st ∧
    st.handed = [[sample .ack], [sample .unencryptedData]] ∧ Equivalent freshBuffers st := by
  have hgood := single_deliverable .unencryptedData
  have hack := single_deliverable .ack
  obtain ⟨bufs', hafter⟩ := hack.afterDeliver freshBuffers
  have hr := run_overtaken 0 (afterRecv_of_isOk hgood.accepted) (afterRecv_of_isOk hack.accepted)
    hafter
  refine ⟨_, _, hr, rfl, quiescent_handedOver .., ?_,
    (pipelines_equivalent_iff 2 (by decide) freshBuffers).1 _ _ hr ?_⟩
  · simp only [handedOver, single_parses]
  · intro d hd
    rcases List.mem_cons.mp hd with rfl | hd
    · exact hgood
    · rw [List.mem_singleton.mp hd]
      exact hack

/-- Two datagrams of one byte end both tasks. The next datagram stays in the socket, where the
inline loop hands it over. -/
theorem malformed_datagrams_end_tasks : ∃ acts st, Run Step (init 2 freshBuffers) acts st ∧
    Quiescent st ∧ st.arrived = [[0], [0], single .unencryptedData] ∧
    st.tasks = [.ended, .ended] ∧ st.handed = [] ∧
    inlineBatches freshBuffers st.arrived = [[sample .unencryptedData]] := by
  have hr : Run Step (init 2 freshBuffers)
      [.arrive [0], .arrive [0], .arrive (single .unencryptedData), .recv 0, .recv 1]
      { init 2 freshBuffers with
        socket := [single .unencryptedData], tasks := [.ended, .ended], taken := [[0], [0]] } :=
    Run.of_foldlM _ (fun _ _ _ _ h => h) rfl
  refine ⟨_, _, hr, ⟨rfl, by simp, by simp⟩, rfl, rfl, rfl, ?_⟩
  have hshort : parsed [0] = none := rfl
  have hgoes : recvAndBufferInline freshBuffers [0] = .goOn freshBuffers := rfl
  have hgood : parsed (single .unencryptedData) = some [sample .unencryptedData] := by
    rw [parsed, single_parses]
  have hgoes' := @inline_goes_on freshBuffers _ _ _ (single_parses .unencryptedData) rfl
  simp only [State.arrived, inlineBatches, List.cons_append, List.nil_append, hshort, hgoes, hgood,
    hgoes']
  rfl

end

end Pipeline

end Bluefin
