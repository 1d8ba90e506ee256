import Bluefin.Worker.FinNumber

/-!
# `flush()` as a barrier

The writer's machine with a record of the bytes it has accepted and of how many
there were when each `flush` call began. A call may also find the channel
closed. `pending_bytes` never falls below the accepted bytes that are not on the
wire, so a `flush` that sees zero has them all there.
-/

namespace Bluefin
open Base

namespace Barrier

open Writer

/-- The bytes of the calls that return `Ok` are `accepted`, in the order of the channel; `begun` and
`closeBegun` are how many there were when the `flush` calls and the one of `close()` began. The
program keeps none of the three. -/
structure State where
  writer : Writer.State
  accepted : Bytes
  begun : List ℕ
  closeBegun : ℕ

def init (start : UInt64) : State := ⟨Writer.init start, [], [], 0⟩

/-- With `refuse i` the enqueue of call `i` fails, as it does on a closed channel. -/
inductive Action where
  | writer (act : Writer.Action)
  | refuse (i : ℕ)

def refuseStep (w : Writer.State) (i : ℕ) : Option Writer.State :=
  match w.sends[i]? with
  | some ⟨kind, payload, .accounted⟩ =>
    some { w with sends := w.sends.set i ⟨kind, payload, .failed⟩ }
  | _ => none

/-- The payload that a step of a call puts into the channel. -/
def enqueued (w w' : Writer.State) : Writer.Action → Bytes
  | .send _ => (w'.chan.drop w.chan.length).flatten
  | _ => []

def flushBegins (accepted : ℕ) : Writer.Action → List ℕ
  | .flushBegin => [accepted]
  | _ => []

def closeBegins (accepted closeBegun : ℕ) : Writer.Action → ℕ
  | .closeBegin => accepted
  | _ => closeBegun

section

variable (srcConnId dstConnId : UInt32)

def step (st : State) : Action → Option State
  | .writer act => (Writer.step srcConnId dstConnId st.writer act).map fun w =>
    { writer := w
      accepted := st.accepted ++ enqueued st.writer w act
      begun := st.begun ++ flushBegins st.accepted.length act
      closeBegun := closeBegins st.accepted.length st.closeBegun act }
  | .refuse i => (refuseStep st.writer i).map fun w => { st with writer := w }

def StepWhen (allowed : State → Action → Prop) (st : State) (act : Action) (st' : State) : Prop :=
  allowed st act ∧ step srcConnId dstConnId st act = some st'

def Step (st : State) (act : Action) (st' : State) : Prop := step srcConnId dstConnId st act = some st'

inductive Moves (st : State) : Action → State → Prop
  | writer (act : Writer.Action) (w : Writer.State)
      (hmoves : Writer.Moves srcConnId dstConnId st.writer act w) :
      Moves st (.writer act)
        { writer := w
          accepted := st.accepted ++ enqueued st.writer w act
          begun := st.begun ++ flushBegins st.accepted.length act
          closeBegun := closeBegins st.accepted.length st.closeBegun act }
  | refuse (i : ℕ) (pre post : List SendCall) (c : SendCall)
      (hsends : st.writer.sends = pre ++ c :: post) (hpc : c.pc = .accounted) :
      Moves st (.refuse i)
        { st with writer.sends := pre ++ { c with pc := .failed } :: post }

variable {srcConnId dstConnId}

theorem moves_of_step {st st' : State} {act : Action}
    (h : step srcConnId dstConnId st act = some st') : Moves srcConnId dstConnId st act st' := by
  cases act with
  | writer act =>
    obtain ⟨w, hw, rfl⟩ := Option.map_eq_some_iff.mp h
    exact .writer act w (step_moves hw)
  | refuse i =>
    obtain ⟨w, hw, rfl⟩ := Option.map_eq_some_iff.mp h
    unfold refuseStep at hw
    split at hw
    · rename_i kind payload hc
      obtain ⟨pre, post, hsends, hset, -⟩ := split_at hc
      rw [hset] at hw
      cases hw
      exact .refuse i pre post _ hsends rfl
    · cases hw

/-! ### The bytes on their way -/

/-- The payload bytes of a data datagram. -/
def datagramBytes (datagram : Bytes) : Bytes :=
  (((packetsIn datagram).filter fun p => p.header.typeField = .unencryptedData).map
    BluefinPacket.payload).flatten

/-- The bytes that have been passed to a successful `try_send`. -/
def sentBytes (wire : List Emission) : Bytes :=
  ((dataEmitted wire).map BluefinPacket.payload).flatten

theorem sentBytes_data (wire : List Emission) (d : Bytes) :
    sentBytes (wire ++ [.data d]) = sentBytes wire ++ datagramBytes d := by
  simp [sentBytes, dataEmitted, datagramBytes, Emission.datagram]

theorem sentBytes_fin (wire : List Emission) (pn : UInt64) :
    sentBytes (wire ++ [.fin pn]) = sentBytes wire := by
  simp [sentBytes, dataEmitted, Emission.datagram]

theorem dataPackets_payloads (n : UInt64) (cs : List Bytes) :
    (WriterHandler.dataPackets srcConnId dstConnId n cs).map BluefinPacket.payload = cs := by
  induction cs generalizing n with
  | nil => rfl
  | cons c cs ih =>
    rw [WriterHandler.dataPackets, List.map_cons, ih]
    rfl

theorem datagramBytes_packed {queue queue' : List Bytes} {num num' : UInt64} {n : ℕ}
    {datagram : Bytes} (hcall : WriterHandler.consumeDataInto srcConnId dstConnId queue num [] =
      (n, queue', num', datagram)) (hn : 0 < n) :
    datagramBytes datagram = queue.flatten.take 15000 := by
  obtain ⟨hlen, -, -, rfl⟩ := consumed hcall
  have hne : queue.flatten ≠ [] := by
    intro hnil
    rw [hnil] at hlen
    simp only [List.length_nil] at hlen
    omega
  have hcut := WriterHandler.cut_cutInto queue.flatten
  have hparse := WriterHandler.fromBytesInto_dataPackets srcConnId dstConnId num _
    (WriterHandler.cut_ne_nil _ hne) hcut.ne_nil hcut.length_le
  rw [datagramBytes, packetsIn, hparse]
  simp only [dataPackets_filter, dataPackets_payloads]
  exact hcut.flatten_eq

def load : SenderPc → List (Bytes × ℕ)
  | .holding datagram n => [(datagram, n)]
  | _ => []

theorem load_sent (n : ℕ) : load (.sent n) = [] := rfl

theorem load_subtracted (p : Prop) [Decidable p] :
    load (if p then .notify else .idle) = [] := by
  split <;> rfl

/-- The datagrams that the sender task holds or has before it. -/
def loads (w : Writer.State) : List (Bytes × ℕ) := load w.sender ++ w.sendQueue

/-- Every accepted byte is on the wire or in exactly one stage of the pipeline,
in order, and each datagram is accounted with its payload bytes. -/
structure Flow (st : State) : Prop where
  accounted : Accounted st.writer
  sized : ∀ e ∈ loads st.writer, e.2 = (datagramBytes e.1).length ∧ 0 < e.2
  accepted : st.accepted = sentBytes st.writer.wire ++
    ((loads st.writer).flatMap (fun e => datagramBytes e.1) ++
      (st.writer.dataQueue.flatten ++ (st.writer.batch.flatten ++ st.writer.chan.flatten)))

theorem flow_init (start : UInt64) : Flow (init start) :=
  ⟨⟨rfl, fun _ => rfl⟩, by simp [init, loads, load, Writer.init], rfl⟩

theorem sized_step {w w' : Writer.State} {act : Writer.Action}
    (h : Writer.Moves srcConnId dstConnId w act w')
    (hsized : ∀ e ∈ loads w, e.2 = (datagramBytes e.1).length ∧ 0 < e.2) :
    ∀ e ∈ loads w', e.2 = (datagramBytes e.1).length ∧ 0 < e.2 := by
  cases h with
  | packSome i n queue num datagram hpc hi hcall hn =>
    intro e he
    simp only [loads, ← List.append_assoc] at he
    rcases List.mem_append.mp he with he | he
    · exact hsized e he
    · rw [List.mem_singleton.mp he, datagramBytes_packed hcall hn, List.length_take]
      have hlen := (consumed hcall).1
      exact ⟨by omega, hn⟩
  | senderTake datagram n sendQueue hpc hqueue =>
    simpa only [loads, hpc, hqueue, load, List.nil_append, List.singleton_append] using hsized
  | senderSend datagram n hpc =>
    intro e he
    apply hsized e
    simp only [loads, hpc, load, List.nil_append] at he ⊢
    exact List.mem_append_right _ he
  | senderSub n hpc hn =>
    intro e he
    apply hsized e
    simpa only [loads, hpc, load_sent, load_subtracted] using he
  | senderSkip hpc =>
    simpa only [loads, hpc, load] using hsized
  | senderNotify hpc =>
    simpa only [loads, hpc, load] using hsized
  | _ => exact hsized

theorem accepted_step {w w' : Writer.State} {act : Writer.Action} {accepted : Bytes}
    (h : Writer.Moves srcConnId dstConnId w act w') (hbatch : w.packetiser ≠ .drain → w.batch = [])
    (hacc : accepted = sentBytes w.wire ++
      ((loads w).flatMap (fun e => datagramBytes e.1) ++
        (w.dataQueue.flatten ++ (w.batch.flatten ++ w.chan.flatten)))) :
    accepted ++ enqueued w w' act = sentBytes w'.wire ++
      ((loads w').flatMap (fun e => datagramBytes e.1) ++
        (w'.dataQueue.flatten ++ (w'.batch.flatten ++ w'.chan.flatten))) := by
  subst hacc
  cases h with
  | sendEnqueue i pre post c hsends hpc hroom =>
    simp [enqueued, loads]
  | recvFirst first chan hpc hchan =>
    have hnil : w.batch = [] := hbatch (by simp [hpc])
    simp [enqueued, loads, hchan, hnil]
  | drainOne msg chan hpc hroom hchan => simp [enqueued, loads, hchan]
  | drainDone hpc => simp [enqueued, loads]
  | packSome i n queue num datagram hpc hi hcall hn =>
    have hrest := (consumed hcall).2.1
    have hsplit : datagramBytes datagram ++ queue.flatten = w.dataQueue.flatten := by
      rw [datagramBytes_packed hcall hn, hrest, List.take_append_drop]
    simp only [enqueued, loads, List.append_nil, List.flatMap_append, List.flatMap_cons,
      List.flatMap_nil, List.append_assoc, ← hsplit]
  | packNone i queue num datagram hpc hi hcall =>
    obtain ⟨hlen, hrest, -, -⟩ := consumed hcall
    have hnil : w.dataQueue.flatten = [] := List.eq_nil_of_length_eq_zero (by omega)
    rw [hnil, List.drop_nil] at hrest
    simp [enqueued, loads, hrest, hnil]
  | senderTake datagram n sendQueue hpc hqueue => simp [enqueued, loads, load, hpc, hqueue]
  | senderSend datagram n hpc => simp [enqueued, loads, load, hpc, sentBytes_data]
  | senderSub n hpc hn =>
    simp [enqueued, loads, hpc, load_sent, load_subtracted]
  | senderSkip hpc => simp [enqueued, loads, load, hpc]
  | senderNotify hpc => simp [enqueued, loads, load, hpc]
  | closeSendFin finPn hpc => simp [enqueued, loads, sentBytes_fin]
  | _ => simp [enqueued, loads]

theorem flow_step {st st' : State} {act : Action} (h : Moves srcConnId dstConnId st act st')
    (hflow : Flow st) : Flow st' := by
  obtain ⟨hacc, hsized, haccepted⟩ := hflow
  cases h with
  | writer act w hmoves =>
    exact ⟨accounted_step hmoves hacc, sized_step hmoves hsized,
      accepted_step hmoves hacc.batch_empty haccepted⟩
  | refuse i pre post c hsends hpc =>
    refine ⟨⟨?_, hacc.batch_empty⟩, hsized, haccepted⟩
    have htotal := hacc.total
    simp only [inCalls, unpacked, handedOver, hsends, sum_counted, SendCall.counted, hpc]
      at htotal ⊢
    exact htotal

/-! ### What `pending_bytes` leaves out -/

/-- Bytes on the wire that the sender task has still to subtract. -/
def unsubtracted : SenderPc → ℕ
  | .sent n => n
  | _ => 0

theorem handedOver_loads (w : Writer.State) :
    handedOver w = ((loads w).map Prod.snd).sum + unsubtracted w.sender := by
  rw [handedOver, loads]
  cases w.sender with
  | holding datagram n => simp [load, SenderPc.bytes, unsubtracted, Nat.add_comm]
  | _ => simp [load, SenderPc.bytes, unsubtracted]

theorem length_flatMap_sized {ls : List (Bytes × ℕ)}
    (h : ∀ e ∈ ls, e.2 = (datagramBytes e.1).length ∧ 0 < e.2) :
    (ls.flatMap fun e => datagramBytes e.1).length = (ls.map Prod.snd).sum := by
  induction ls with
  | nil => rfl
  | cons e ls ih =>
    rw [List.flatMap_cons, List.length_append, List.map_cons, List.sum_cons,
      ih fun d hd => h d (List.mem_cons_of_mem _ hd), (h e (List.mem_cons_self ..)).1]

theorem Flow.length {st : State} (hflow : Flow st) :
    st.accepted.length = (sentBytes st.writer.wire).length +
      ((loads st.writer).map Prod.snd).sum + unpacked st.writer := by
  have hlen := congrArg List.length hflow.accepted
  simp only [List.length_append, length_flatMap_sized hflow.sized] at hlen
  rw [unpacked]
  omega

theorem Flow.pending {st : State} (hflow : Flow st) :
    st.writer.pendingBytes + (sentBytes st.writer.wire).length = st.accepted.length +
      st.writer.leaked + inCalls st.writer + unsubtracted st.writer.sender := by
  have hlen := hflow.length
  have htotal := hflow.accounted.total
  have hover := handedOver_loads st.writer
  omega

theorem Flow.on_wire {st : State} (hflow : Flow st) :
    sentBytes st.writer.wire <+: st.accepted :=
  ⟨_, hflow.accepted.symm⟩

theorem Flow.zero {st : State} (hflow : Flow st) (hzero : st.writer.pendingBytes = 0) :
    st.accepted.length ≤ (sentBytes st.writer.wire).length := by
  have hpending := hflow.pending
  omega

/-! ### The flush calls -/

/-- A flush call that began after `b` accepted bytes. -/
def Covers (accepted sent : ℕ) (f : FlushPc) (b : ℕ) : Prop :=
  b ≤ accepted ∧ (f = .returned → b ≤ sent)

structure Flushed (st : State) : Prop where
  calls : List.Forall₂ (Covers st.accepted.length (sentBytes st.writer.wire).length)
    st.writer.flushes st.begun
  close : st.closeBegun ≤ st.accepted.length ∧
    (st.writer.closer.flushed = true → st.closeBegun ≤ (sentBytes st.writer.wire).length)

theorem wake_returned (f : FlushPc) : f.wake = .returned ↔ f = .returned := by
  cases f <;> simp [FlushPc.wake]

theorem Covers.mono {accepted accepted' sent sent' : ℕ} (ha : accepted ≤ accepted')
    (hs : sent ≤ sent') {f : FlushPc} {b : ℕ} (h : Covers accepted sent f b) :
    Covers accepted' sent' f b :=
  ⟨h.1.trans ha, fun hf => (h.2 hf).trans hs⟩

theorem Covers.step {accepted sent n : ℕ} {f f' : FlushPc} {b : ℕ} (hstep : f.step n = some f')
    (hzero : n = 0 → accepted ≤ sent) (h : Covers accepted sent f b) :
    Covers accepted sent f' b := by
  refine ⟨h.1, fun hf => ?_⟩
  rw [hf] at hstep
  exact h.1.trans (hzero (flush_returned hstep))

theorem Covers.wake {accepted sent : ℕ} {f : FlushPc} {b : ℕ} (h : Covers accepted sent f b) :
    Covers accepted sent f.wake b :=
  ⟨h.1, fun hf => h.2 ((wake_returned f).mp hf)⟩

theorem sent_grows {w w' : Writer.State} {act : Writer.Action}
    (h : Writer.Moves srcConnId dstConnId w act w') :
    (sentBytes w.wire).length ≤ (sentBytes w'.wire).length := by
  cases h with
  | senderSend datagram n hpc => simp [sentBytes_data]
  | closeSendFin finPn hpc => rw [sentBytes_fin]
  | _ => exact Nat.le_refl _

theorem calls_step {w w' : Writer.State} {act : Writer.Action} {accepted : ℕ} {begun : List ℕ}
    (h : Writer.Moves srcConnId dstConnId w act w')
    (hzero : w.pendingBytes = 0 → accepted ≤ (sentBytes w.wire).length)
    (hcalls : List.Forall₂ (Covers accepted (sentBytes w.wire).length) w.flushes begun) :
    List.Forall₂ (Covers accepted (sentBytes w.wire).length) w'.flushes
      (begun ++ flushBegins accepted act) := by
  cases h with
  | senderNotify hpc =>
    simp only [flushBegins, List.append_nil]
    exact List.forall₂_map_left_iff.mpr (hcalls.imp fun _ _ h => h.wake)
  | flushBegin =>
    have hnew : Covers accepted (sentBytes w.wire).length .check accepted :=
      ⟨Nat.le_refl _, nofun⟩
    exact List.rel_append hcalls (.cons hnew .nil)
  | flush i pre post f f' hflushes hstep =>
    rw [hflushes] at hcalls
    simp only [flushBegins, List.append_nil]
    exact forall₂_replace hcalls fun _ h => h.step hstep hzero
  | _ => simpa only [flushBegins, List.append_nil] using hcalls

theorem close_step {w w' : Writer.State} {act : Writer.Action} {accepted closeBegun : ℕ}
    (h : Writer.Moves srcConnId dstConnId w act w')
    (hzero : w.pendingBytes = 0 → accepted ≤ (sentBytes w.wire).length)
    (hclose : closeBegun ≤ accepted ∧
      (w.closer.flushed = true → closeBegun ≤ (sentBytes w.wire).length)) :
    closeBegins accepted closeBegun act ≤ accepted ∧ (w'.closer.flushed = true →
      closeBegins accepted closeBegun act ≤ (sentBytes w.wire).length) := by
  cases h with
  | senderNotify hpc =>
    rw [wake_flushed]
    exact hclose
  | closeBegin hpc => exact ⟨Nat.le_refl _, nofun⟩
  | closeFlush f f' hpc hstep =>
    refine ⟨hclose.1, fun hf => ?_⟩
    rw [of_decide_eq_true hf] at hstep
    exact hclose.1.trans (hzero (flush_returned hstep))
  | closeFlushed hpc | closeMark hpc | closeReserve hpc | closeRecord finPn hpc
  | closeSendFin finPn hpc | closeRetransmit finPn hpc | closeReturn finPn hpc =>
    exact ⟨hclose.1, fun _ => hclose.2 (by rw [hpc]; rfl)⟩
  | _ => exact hclose

theorem flushed_step {st st' : State} {act : Action} (h : Moves srcConnId dstConnId st act st')
    (hflow : Flow st) (hflushed : Flushed st) : Flushed st' := by
  cases h with
  | writer act w hmoves =>
    have hsent := sent_grows hmoves
    have haccepted : st.accepted.length ≤ (st.accepted ++ enqueued st.writer w act).length := by
      rw [List.length_append]
      exact Nat.le_add_right _ _
    obtain ⟨hle, hdone⟩ := close_step hmoves hflow.zero hflushed.close
    exact ⟨(calls_step hmoves hflow.zero hflushed.calls).imp fun _ _ h => h.mono haccepted hsent,
      hle.trans haccepted, fun hf => (hdone hf).trans hsent⟩
  | refuse i pre post c hsends hpc => exact ⟨hflushed.calls, hflushed.close⟩

theorem run_flushed {start : UInt64} {acts : List Action} {st : State}
    (hr : Run (Step srcConnId dstConnId) (init start) acts st) : Flow st ∧ Flushed st := by
  have hinit : Flushed (init start) := ⟨.nil, Nat.le_refl _, nofun⟩
  refine Run.invariant (P := fun _ st => Flow st ∧ Flushed st) ⟨flow_init start, hinit⟩ ?_ hr
  rintro acts st act st' - ⟨hflow, hflushed⟩ hstep
  have hmoves := moves_of_step hstep
  exact ⟨flow_step hmoves hflow, flushed_step hmoves hflow hflushed⟩

theorem take_covered {sent accepted : Bytes} {b : ℕ} (h : sent <+: accepted) (hb : b ≤ sent.length) :
    accepted.take b <+: sent := by
  obtain ⟨rest, rfl⟩ := h
  rw [List.take_append_of_le_length hb]
  exact List.take_prefix b sent

/-- In every reachable state the wire has a prefix of the accepted bytes,
`pending_bytes` covers the rest and what the sender task is about to subtract,
and a `flush` that has returned finds all that was accepted before it began on
the wire; so does the one of `close()`. -/
theorem flush_barrier {start : UInt64} {acts : List Action} {st : State}
    (hr : Run (Step srcConnId dstConnId) (init start) acts st) :
    sentBytes st.writer.wire <+: st.accepted ∧
      st.accepted.length - (sentBytes st.writer.wire).length ≤ st.writer.pendingBytes ∧
      (∀ n, st.writer.sender = .sent n → n ≤ st.writer.pendingBytes) ∧
      (∀ i : ℕ, st.writer.flushes[i]? = some .returned → ∃ b, st.begun[i]? = some b ∧
        b ≤ st.accepted.length ∧ st.accepted.take b <+: sentBytes st.writer.wire) ∧
      (st.writer.closer.flushed = true →
        st.accepted.take st.closeBegun <+: sentBytes st.writer.wire) := by
  obtain ⟨hflow, hcalls, hclose⟩ := run_flushed hr
  have hpending := hflow.pending
  have hsent := hflow.on_wire
  have hle := hsent.length_le
  refine ⟨hsent, by omega, fun n hn => ?_, fun i hi => ?_, fun hf => ?_⟩
  · rw [hn] at hpending
    simp only [unsubtracted] at hpending
    omega
  · obtain ⟨hlt, hget⟩ := List.getElem?_eq_some_iff.mp hi
    have hlt' : i < st.begun.length := hcalls.length_eq ▸ hlt
    have hcovers := hcalls.get hlt hlt'
    simp only [List.get_eq_getElem, hget] at hcovers
    exact ⟨_, List.getElem?_eq_getElem hlt', hcovers.1, take_covered hsent (hcovers.2 rfl)⟩
  · exact take_covered hsent (hclose.2 hf)

/-- One byte is accepted and a `flush` waits until the sender task has written it. -/
def flushOneByte : List Action :=
  [.writer (.sendBegin .async [7]), .writer (.send 0), .writer (.send 0), .writer (.send 0),
    .writer .flushBegin, .writer (.flush 0), .writer (.flush 0), .writer (.flush 0),
    .writer .packetiser, .writer .packetiser, .writer .packetiser, .writer .sender,
    .writer .sender, .writer .sender, .writer .sender, .writer (.flush 0)]

theorem flush_barrier_one_byte : ∃ st, Run (Step 2 1) (init 0) flushOneByte st ∧
    st.writer.flushes[0]? = some .returned ∧ st.begun[0]? = some 1 ∧ st.accepted = [7] ∧
    [7] <+: sentBytes st.writer.wire := by
  have hcomputed : ((flushOneByte.foldlM (step 2 1) (init 0)).map fun st =>
      (st.writer.flushes, st.begun, st.accepted)) = some ([.returned], [1], [7]) := by
    decide +kernel
  obtain ⟨st, hr, hfields⟩ := Run.exists_of_foldlM _ flushOneByte (fun _ _ _ _ h => h) hcomputed
  simp only [Prod.mk.injEq] at hfields
  obtain ⟨hflushes, hbegun, haccepted⟩ := hfields
  have hreturned : st.writer.flushes[0]? = some .returned := by rw [hflushes]; rfl
  obtain ⟨b, hb, -, hsent⟩ := (flush_barrier hr).2.2.2.1 0 hreturned
  rw [hbegun] at hb
  cases hb
  rw [haccepted] at hsent
  exact ⟨st, hr, hreturned, by rw [hbegun]; rfl, haccepted, hsent⟩

end

end Barrier

end Bluefin
