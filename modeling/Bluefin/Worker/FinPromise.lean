import Bluefin.Worker.AtRest

/-!
# The promise of the Fin

`close()` flushes, sets the `closed` flag and sends its Fin (connection.rs:477-506);
a `send_*` call tests the flag and enqueues later (writer.rs:388-465). A call of
another clone that has passed its test is not held back by the flag. When none
is at that point and nothing is on its way as the flag is set, all data is on the
wire before the Fin; otherwise some continuation breaks the promise.
-/

namespace Bluefin
open Base

namespace Barrier

open Writer

def isFin : Emission → Bool
  | .data _ => false
  | .fin _ => true

/-- Behind a Fin there is no data datagram, and before it all accepted bytes. -/
def KeepsPromise (st : State) : Prop :=
  ∀ pre pn post, st.writer.wire = pre ++ .fin pn :: post →
    (∀ e ∈ post, isFin e = true) ∧ sentBytes pre = st.accepted

/-- The call has passed its test of the flag and may still enqueue. -/
abbrev pastCheck (c : SendCall) : Prop := c.pc = .checked ∨ c.pc = .accounted

structure Quiet (w : Writer.State) : Prop where
  unpacked : unpacked w = 0
  loads : loads w = []
  calls : ∀ c ∈ w.sends, pastCheck c → c.payload = []

instance (w : Writer.State) : Decidable (Quiet w) :=
  decidable_of_iff
    (Writer.unpacked w = 0 ∧ Barrier.loads w = [] ∧ ∀ c ∈ w.sends, pastCheck c → c.payload = [])
    ⟨fun h => ⟨h.1, h.2.1, h.2.2⟩, fun h => ⟨h.unpacked, h.loads, h.calls⟩⟩

/-- The flag is set in a quiet state. -/
def MarksQuiet (st : State) : Action → Prop
  | .writer .close => st.writer.closer = .mark → Quiet st.writer
  | _ => True

instance (st : State) (act : Action) : Decidable (MarksQuiet st act) := by
  unfold MarksQuiet
  split
  · infer_instance
  · infer_instance

/-! ### A quiet pipeline -/

theorem loads_nil {ls : List (Bytes × ℕ)}
    (h : ∀ e ∈ ls, e.2 = (datagramBytes e.1).length ∧ 0 < e.2)
    (hsum : (ls.map Prod.snd).sum = 0) : ls = [] := by
  cases ls with
  | nil => rfl
  | cons e ls =>
    have hpos := (h e (List.mem_cons_self ..)).2
    rw [List.map_cons, List.sum_cons] at hsum
    omega

theorem Flow.all_sent_iff {st : State} (hflow : Flow st) :
    unpacked st.writer = 0 ∧ loads st.writer = [] ↔
      sentBytes st.writer.wire = st.accepted := by
  have hlen := hflow.length
  constructor
  · rintro ⟨hunpacked, hloads⟩
    rw [hunpacked, hloads] at hlen
    exact hflow.on_wire.eq_of_length hlen.symm
  · intro hsent
    rw [hsent] at hlen
    exact ⟨by omega, loads_nil hflow.sized (by omega)⟩

section

variable {srcConnId dstConnId : UInt32}

theorem wire_step {w w' : Writer.State} {act : Writer.Action}
    (h : Writer.Moves srcConnId dstConnId w act w') :
    w'.wire = w.wire ∨ (∃ d, load w.sender ≠ [] ∧ w'.wire = w.wire ++ [.data d]) ∨
      ∃ pn, w.closer = .sendFin pn ∧ w'.closer = .waiting pn ∧ w'.wire = w.wire ++ [.fin pn] := by
  cases h with
  | senderSend datagram n hpc => exact .inr (.inl ⟨datagram, by simp [hpc, load], rfl⟩)
  | closeSendFin finPn hpc => exact .inr (.inr ⟨finPn, hpc, rfl, rfl⟩)
  | _ => exact .inl rfl

theorem marked_step {w w' : Writer.State} {act : Writer.Action}
    (h : Writer.Moves srcConnId dstConnId w act w') :
    (w.closer.marked = true → w'.closer.marked = true ∧ (w.closed = true → w'.closed = true)) ∧
      (w'.closer.marked = true → w.closer.marked = true ∨
        act = .close ∧ w.closer = .mark ∧ w'.closed = true ∧ w'.sends = w.sends) := by
  cases h with
  | senderNotify hpc =>
    simp only [wake_marked]
    exact ⟨fun hm => ⟨hm, fun hc => hc⟩, .inl⟩
  | closeBegin hpc | closeFlush f f' hpc | closeFlushed hpc =>
    rw [hpc]
    exact ⟨nofun, nofun⟩
  | closeMark hpc =>
    rw [hpc]
    exact ⟨nofun, fun _ => .inr ⟨rfl, rfl, rfl, rfl⟩⟩
  | closeReserve hpc | closeRecord finPn hpc | closeSendFin finPn hpc | closeRetransmit finPn hpc
  | closeReturn finPn hpc =>
    rw [hpc]
    exact ⟨fun _ => ⟨rfl, fun hc => hc⟩, fun _ => .inl rfl⟩
  | _ => exact ⟨fun hm => ⟨hm, fun hc => hc⟩, .inl⟩

/-- Once the flag is set no call passes its test, and those that have passed it add nothing. -/
theorem calls_quiet {w w' : Writer.State} {act : Writer.Action}
    (h : Writer.Moves srcConnId dstConnId w act w') (hclosed : w.closed = true)
    (hcalls : ∀ c ∈ w.sends, pastCheck c → c.payload = []) :
    enqueued w w' act = [] ∧ ∀ c ∈ w'.sends, pastCheck c → c.payload = [] := by
  cases h with
  | sendBegin kind payload =>
    refine ⟨rfl, fun c hc => ?_⟩
    rcases List.mem_append.mp hc with hc | hc
    · exact hcalls c hc
    · rw [List.mem_singleton.mp hc]
      exact fun hpast => by simp [pastCheck] at hpast
  | sendCheck i pre post c hsends hpc hopen =>
    rw [hclosed] at hopen
    cases hopen
  | sendAccount i pre post c hsends hpc | sendFull i pre post c hsends hpc =>
    rw [hsends] at hcalls
    refine ⟨by simp [enqueued], fun d hd hpast => ?_⟩
    rcases mem_of_replaced hd with rfl | hd
    · exact hcalls c (by simp) (by simp [pastCheck, hpc])
    · exact hcalls d hd hpast
  | sendEnqueue i pre post c hsends hpc hroom =>
    rw [hsends] at hcalls
    have hnil := hcalls c (by simp) (.inr hpc)
    exact ⟨by simp [enqueued, hnil], fun d hd => hcalls d (mem_of_removed hd)⟩
  | sendClosed i pre post c hsends hpc | sendUndo i pre post c hsends hpc
  | sendCancel i pre post c hsends hpc =>
    rw [hsends] at hcalls
    exact ⟨by simp [enqueued], fun d hd => hcalls d (mem_of_removed hd)⟩
  | _ => exact ⟨rfl, hcalls⟩

/-! ### Runs that set the flag in a quiet state -/

structure Kept (st : State) : Prop where
  ordered : st.writer.wire.Pairwise fun a b => isFin a = true → isFin b = true
  fins : ∀ e ∈ st.writer.wire, isFin e = true → st.writer.closer.marked = true
  marked : st.writer.closer.marked = true → st.writer.closed = true ∧
    sentBytes st.writer.wire = st.accepted ∧ ∀ c ∈ st.writer.sends, pastCheck c → c.payload = []

theorem sentBytes_append (wire wire' : List Emission) :
    sentBytes (wire ++ wire') = sentBytes wire ++ sentBytes wire' := by
  simp [sentBytes, dataEmitted]

theorem sentBytes_fins {wire : List Emission} (h : ∀ e ∈ wire, isFin e = true) :
    sentBytes wire = [] := by
  induction wire with
  | nil => rfl
  | cons e wire ih =>
    have hrest := ih fun d hd => h d (List.mem_cons_of_mem _ hd)
    cases e with
    | data d => exact absurd (h _ (List.mem_cons_self ..)) (by simp [isFin])
    | fin pn =>
      rw [← List.singleton_append, sentBytes_append, hrest]
      exact sentBytes_fin [] pn

theorem Kept.promise {st : State} (h : Kept st) : KeepsPromise st := by
  intro pre pn post hwire
  have hordered := h.ordered
  rw [hwire, List.pairwise_append, List.pairwise_cons] at hordered
  have hpost : ∀ e ∈ post, isFin e = true := fun e he => hordered.2.1.1 e he rfl
  have hsent := (h.marked (h.fins (.fin pn) (by simp [hwire]) rfl)).2.1
  have hfins : sentBytes (.fin pn :: post) = [] := by
    apply sentBytes_fins
    intro e he
    rcases List.mem_cons.mp he with rfl | he
    · rfl
    · exact hpost e he
  rw [hwire, sentBytes_append, hfins, List.append_nil] at hsent
  exact ⟨hpost, hsent⟩

theorem all_sent_step {st : State} {w : Writer.State} {act : Writer.Action}
    (hmoves : Writer.Moves srcConnId dstConnId st.writer act w)
    (hon : sentBytes w.wire <+: st.accepted ++ enqueued st.writer w act)
    (hsent : sentBytes st.writer.wire = st.accepted) (hnil : enqueued st.writer w act = []) :
    sentBytes w.wire = st.accepted ++ enqueued st.writer w act := by
  have hgrows := sent_grows hmoves
  rw [hnil, List.append_nil] at hon ⊢
  rw [hsent] at hgrows
  exact hon.eq_of_length (Nat.le_antisymm hon.length_le hgrows)

theorem kept_step {st st' : State} {act : Action} (h : Moves srcConnId dstConnId st act st')
    (hquiet : MarksQuiet st act) (hflow : Flow st) (hkept : Kept st) : Kept st' := by
  have hflow' := flow_step h hflow
  obtain ⟨hordered, hfins, hmarked⟩ := hkept
  cases h with
  | refuse i pre post c hsends hpc =>
    refine ⟨hordered, hfins, fun hm => ?_⟩
    obtain ⟨hclosed, hsent, hcalls⟩ := hmarked hm
    rw [hsends] at hcalls
    refine ⟨hclosed, hsent, fun d hd hpast => ?_⟩
    rcases mem_of_replaced hd with rfl | hd
    · simp [pastCheck] at hpast
    · exact hcalls d hd hpast
  | writer act w hmoves =>
    obtain ⟨hstays, hfrom⟩ := marked_step hmoves
    have hon := hflow'.on_wire
    refine ⟨?_, ?_, fun hm => ?_⟩
    · rcases wire_step hmoves with hwire | ⟨d, hload, hwire⟩ | ⟨pn, -, -, hwire⟩
      · rwa [hwire]
      · -- behind a Fin the sender task would have nothing to send
        rw [hwire, List.pairwise_append]
        refine ⟨hordered, List.pairwise_singleton .., fun a ha b _ hfin => ?_⟩
        have hnone := (hflow.all_sent_iff.mpr (hmarked (hfins a ha hfin)).2.1).2
        exact absurd (List.append_eq_nil_iff.mp hnone).1 hload
      · rw [hwire, List.pairwise_append]
        refine ⟨hordered, List.pairwise_singleton .., fun a _ b hb _ => ?_⟩
        rw [List.mem_singleton.mp hb]
        rfl
    · intro e he hfin
      rcases wire_step hmoves with hwire | ⟨d, -, hwire⟩ | ⟨pn, -, hcloser, hwire⟩
      · rw [hwire] at he
        exact (hstays (hfins e he hfin)).1
      · rw [hwire] at he
        rcases List.mem_append.mp he with he | he
        · exact (hstays (hfins e he hfin)).1
        · rw [List.mem_singleton.mp he] at hfin
          cases hfin
      · rw [hcloser]
        rfl
    · rcases hfrom hm with hm | ⟨rfl, hpc, hclosed, hsends⟩
      · obtain ⟨hclosed, hsent, hcalls⟩ := hmarked hm
        obtain ⟨hnil, hcalls'⟩ := calls_quiet hmoves hclosed hcalls
        exact ⟨(hstays hm).2 hclosed, all_sent_step hmoves hon hsent hnil, hcalls'⟩
      · obtain ⟨hunpacked, hloads, hcalls⟩ := hquiet hpc
        have hsent := hflow.all_sent_iff.mp ⟨hunpacked, hloads⟩
        refine ⟨hclosed, all_sent_step hmoves hon hsent rfl, ?_⟩
        rwa [hsends]

theorem run_kept {start : UInt64} {acts : List Action} {st : State}
    (hr : Run (StepWhen srcConnId dstConnId MarksQuiet) (init start) acts st) :
    Flow st ∧ Kept st := by
  have hinit : Kept (init start) := ⟨.nil, nofun, nofun⟩
  refine Run.invariant (P := fun _ st => Flow st ∧ Kept st) ⟨flow_init start, hinit⟩ ?_ hr
  rintro acts st act st' - ⟨hflow, hkept⟩ ⟨hquiet, hstep⟩
  have hmoves := moves_of_step hstep
  exact ⟨flow_step hmoves hflow, kept_step hmoves hquiet hflow hkept⟩

/-! ### What breaks the promise -/

/-- The steps that the packetiser can take without a new message. -/
def rank (w : Writer.State) : ℕ :=
  20 * w.chan.length + match w.packetiser with
    | .recv => 0
    | .drain => 16
    | .pack i => 2 + (13 - i)
    | .store _ => 1

theorem packetiser_frame {w w' : Writer.State}
    (h : Writer.Moves srcConnId dstConnId w .packetiser w') :
    rank w' < rank w ∧ w'.sends = w.sends ∧ w'.wire = w.wire := by
  cases h with
  | recvFirst first chan hpc hchan | drainOne msg chan hpc hroom hchan =>
    refine ⟨?_, rfl, rfl⟩
    simp only [rank, hpc, hchan, List.length_cons]
    omega
  | drainDone hpc | packSome i n queue num datagram hpc hi | packNone i queue num datagram hpc hi
  | packDone i hpc hi | store i hpc =>
    refine ⟨?_, rfl, rfl⟩
    simp only [rank, hpc]
    omega

theorem packetiser_steps (w : Writer.State) :
    w.chan = [] ∨ ∃ w', packetiserStep srcConnId dstConnId w = some w' := by
  cases hchan : w.chan with
  | nil => exact .inl rfl
  | cons msg chan =>
    refine .inr ?_
    cases hpc : w.packetiser with
    | recv => exact ⟨_, by simp only [packetiserStep, hpc, hchan]; rfl⟩
    | drain =>
      by_cases hroom : w.batch.length < batchLimit
      · exact ⟨_, by simp only [packetiserStep, hpc, hchan, if_pos hroom]; rfl⟩
      · exact ⟨_, by simp only [packetiserStep, hpc, if_neg hroom]; rfl⟩
    | pack i =>
      simp only [packetiserStep, hpc]
      split
      · split
        · exact ⟨_, rfl⟩
        · exact ⟨_, rfl⟩
      · exact ⟨_, rfl⟩
    | store i => exact ⟨_, by simp only [packetiserStep, hpc]; rfl⟩

theorem run_drains (st : State) : ∃ acts st', Run (Step srcConnId dstConnId) st acts st' ∧
    st'.writer.chan = [] ∧ st'.writer.sends = st.writer.sends ∧
    st'.writer.wire = st.writer.wire ∧ st'.accepted = st.accepted := by
  induction hrank : rank st.writer using Nat.strong_induction_on generalizing st with
  | _ n ih =>
    rcases @packetiser_steps srcConnId dstConnId st.writer with hnil | ⟨w, hw⟩
    · exact ⟨[], st, .nil, hnil, rfl, rfl, rfl⟩
    · have hstep : Step srcConnId dstConnId st (.writer .packetiser) { st with writer := w } := by
        simp [Step, step, Writer.step, hw, enqueued, flushBegins, closeBegins]
      obtain ⟨hlt, hsends, hwire⟩ := packetiser_frame (packetiserStep_moves hw)
      obtain ⟨acts, st', hr, hchan, hsends', hwire', haccepted⟩ :=
        ih (rank w) (hrank ▸ hlt) { st with writer := w } rfl
      exact ⟨_, st', (Run.nil.snoc hstep).append hr, hchan, hsends'.trans hsends,
        hwire'.trans hwire, haccepted⟩

/-- The call `close()` from the flag to its first Fin. -/
def afterFin (st : State) : State :=
  { st with
    writer.closed := true
    writer.nextPacketNumShared := st.writer.nextPacketNumShared + 1
    writer.closer := .waiting st.writer.nextPacketNumShared
    writer.wire := st.writer.wire ++ [.fin st.writer.nextPacketNumShared] }

theorem run_afterFin {st : State} (hpc : st.writer.closer = .mark) :
    Run (Step srcConnId dstConnId) st (List.replicate 4 (.writer .close)) (afterFin st) := by
  refine Run.of_foldlM _ (fun _ _ _ _ h => h) ?_
  simp [List.replicate_succ, step, Writer.step, closeStep, hpc, enqueued, flushBegins, closeBegins,
    afterFin]

theorem breaks_late {st : State} {i : ℕ} {c : SendCall} {pre : List Emission} {pn : UInt64}
    (hc : st.writer.sends[i]? = some c) (hpc : c.pc = .accounted) (hne : c.payload ≠ [])
    (hwire : st.writer.wire = pre ++ [.fin pn]) (hsent : sentBytes pre = st.accepted) :
    ∃ acts st', Run (Step srcConnId dstConnId) st acts st' ∧ ¬ KeepsPromise st' := by
  obtain ⟨acts, st', hr, hchan, hsends, hwire', haccepted⟩ :=
    @run_drains srcConnId dstConnId st
  have henqueue : Step srcConnId dstConnId st' (.writer (.send i)) { st' with
      writer.chan := [c.payload]
      writer.sends := st'.writer.sends.eraseIdx i
      accepted := st'.accepted ++ c.payload } := by
    simp [Step, step, Writer.step, sendStep, hsends, hc, hpc, hchan, enqueued, flushBegins,
      closeBegins]
  refine ⟨_, _, hr.snoc henqueue, fun hkeeps => ?_⟩
  have hall := (hkeeps pre pn [] (hwire'.trans hwire)).2
  rw [hsent, haccepted] at hall
  exact hne (List.self_eq_append_right.mp hall)

theorem breaks_promise {st : State} (hflow : Flow st) (hpc : st.writer.closer = .mark)
    (hbusy : ¬ Quiet st.writer) :
    ∃ acts st', Run (Step srcConnId dstConnId) st acts st' ∧ ¬ KeepsPromise st' := by
  by_cases hsent : sentBytes st.writer.wire = st.accepted
  · obtain ⟨hunpacked, hloads⟩ := hflow.all_sent_iff.mpr hsent
    have hcall : ∃ c ∈ st.writer.sends, pastCheck c ∧ c.payload ≠ [] := by
      by_contra hnone
      refine hbusy ⟨hunpacked, hloads, fun c hc hpast => ?_⟩
      by_contra hne
      exact hnone ⟨c, hc, hpast, hne⟩
    obtain ⟨c, hmem, hpast, hne⟩ := hcall
    obtain ⟨i, hi⟩ := List.mem_iff_getElem?.mp hmem
    have hfin := @run_afterFin srcConnId dstConnId st hpc
    rcases hpast with hchecked | haccounted
    · let counted : State := { afterFin st with
        writer.pendingBytes := st.writer.pendingBytes + c.payload.length
        writer.sends := st.writer.sends.set i { c with pc := .accounted } }
      have haccount : Step srcConnId dstConnId (afterFin st) (.writer (.send i)) counted := by
        simp [Step, step, Writer.step, sendStep, afterFin, hi, hchecked, enqueued, flushBegins,
          closeBegins, counted]
      have hi' : (st.writer.sends.set i { c with pc := .accounted })[i]? =
          some { c with pc := .accounted } := by
        rw [List.getElem?_set_self (List.getElem?_eq_some_iff.mp hi).1]
      obtain ⟨acts, st', hr, hbroken⟩ :=
        @breaks_late srcConnId dstConnId counted i _ st.writer.wire _ hi' rfl hne rfl hsent
      exact ⟨_, st', (hfin.snoc haccount).append hr, hbroken⟩
    · obtain ⟨acts, st', hr, hbroken⟩ :=
        @breaks_late srcConnId dstConnId (afterFin st) i c st.writer.wire _ hi haccounted hne rfl
          hsent
      exact ⟨_, st', hfin.append hr, hbroken⟩
  · exact ⟨_, _, run_afterFin hpc, fun hkeeps => hsent (hkeeps _ _ [] rfl).2⟩

/-- In every run that sets the flag in a quiet state the Fin keeps its promise,
and from every other state in which the flag is set it can be broken. -/
theorem fin_promise_quiet (start : UInt64) :
    (∀ acts st, Run (StepWhen srcConnId dstConnId MarksQuiet) (init start) acts st →
        KeepsPromise st) ∧
      ∀ acts st, Run (Step srcConnId dstConnId) (init start) acts st → st.writer.closer = .mark →
        ¬ Quiet st.writer →
          ∃ acts' st', Run (Step srcConnId dstConnId) st acts' st' ∧ ¬ KeepsPromise st' := by
  constructor
  · intro acts st hr
    exact (run_kept hr).2.promise
  · intro acts st hr hpc hbusy
    exact breaks_promise (run_flushed hr).1 hpc hbusy

/-- One byte is sent, then the connection is closed. -/
def closeAfterOneByte : List Action :=
  [.writer (.sendBegin .sync [7]), .writer (.send 0), .writer (.send 0), .writer (.send 0),
    .writer .packetiser, .writer .packetiser, .writer .packetiser, .writer .sender,
    .writer .sender, .writer .sender, .writer .sender, .writer .closeBegin, .writer .close,
    .writer .close, .writer .close, .writer .close, .writer .close, .writer .close]

theorem fin_promise_quiet_one_byte : ∃ st,
    Run (StepWhen 2 1 MarksQuiet) (init 0) closeAfterOneByte st ∧
      st.writer.wire.map isFin = [false, true] ∧ KeepsPromise st := by
  have hcomputed : ((closeAfterOneByte.foldlM (fun st act =>
      if MarksQuiet st act then step 2 1 st act else none) (init 0)).map fun st =>
        st.writer.wire.map isFin) = some [false, true] := by
    decide +kernel
  obtain ⟨st, hr, hwire⟩ := @Run.exists_of_foldlM _ _ (StepWhen 2 1 MarksQuiet) _ _ _
    closeAfterOneByte _ _ (fun _ _ _ _ h => Option.ite_none_right_eq_some.mp h) hcomputed
  exact ⟨st, hr, hwire, (fin_promise_quiet 0).1 _ st hr⟩

/-- A clone passes its test of the flag, `close()` goes up to its Fin, and the clone sends its byte.
-/
def closeDuringCall : List Action :=
  [.writer (.sendBegin .sync [7]), .writer (.send 0), .writer .closeBegin, .writer .close,
    .writer .close, .writer .close, .writer .close, .writer .close, .writer .close,
    .writer (.send 0), .writer (.send 0), .writer .packetiser, .writer .packetiser,
    .writer .packetiser, .writer .sender, .writer .sender]

/-- The datagram of that byte; its packet has the number of the Fin. -/
def lateDatagram : Bytes := BluefinPacket.serialiseAll (WriterHandler.dataPackets 2 1 0 [[7]])

theorem data_behind_fin : ∃ st, Run (Step 2 1) (init 0) closeDuringCall st ∧
    st.writer.wire = [.fin 0, .data lateDatagram] ∧ datagramBytes lateDatagram = [7] ∧
    st.accepted = [7] ∧ ¬ KeepsPromise st := by
  have hcomputed : ((closeDuringCall.foldlM (step 2 1) (init 0)).map fun st =>
      (st.writer.wire, st.accepted)) = some ([.fin 0, .data lateDatagram], [7]) := by
    decide +kernel
  obtain ⟨st, hr, hfields⟩ := Run.exists_of_foldlM _ closeDuringCall (fun _ _ _ _ h => h) hcomputed
  obtain ⟨hwire, haccepted⟩ := Prod.mk.inj hfields
  refine ⟨st, hr, hwire, by decide +kernel, haccepted, fun hkeeps => ?_⟩
  have hfin := (hkeeps [] 0 [.data lateDatagram] hwire).1 _ (List.mem_singleton_self _)
  cases hfin

end

end Barrier

end Bluefin
