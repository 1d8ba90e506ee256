import Bluefin.Worker.Writer

/-!
# What `pending_bytes` counts, and when the packetiser sleeps

`pending_bytes` is the sum of what sits in every stage of the pipeline, from a
`send_*` call that has added its length to the datagram the sender has written
but not yet subtracted (`accounted_run`). One outer iteration of the packetiser
takes at most 180000 bytes out of `data_queue`, so what a batch leaves beyond
them stays there until the next message (`recv_waits_drained`).
-/

namespace Bluefin
open Base

namespace Writer

def SendCall.counted (c : SendCall) : ℕ :=
  match c.pc with
  | .start => 0
  | .checked => 0
  | .accounted => c.payload.length
  | .failed => c.payload.length

def SenderPc.bytes : SenderPc → ℕ
  | .idle => 0
  | .holding _ n => n
  | .sent n => n
  | .notify => 0

/-- Bytes in the calls that have added their length and not returned. -/
def inCalls (st : State) : ℕ := (st.sends.map SendCall.counted).sum

/-- Bytes the packetiser has not handed over. -/
def unpacked (st : State) : ℕ :=
  st.chan.flatten.length + st.batch.flatten.length + st.dataQueue.flatten.length

/-- Bytes handed to the sender task and not subtracted. -/
def handedOver (st : State) : ℕ := (st.sendQueue.map Prod.snd).sum + st.sender.bytes

structure Accounted (st : State) : Prop where
  total : st.pendingBytes = st.leaked + inCalls st + unpacked st + handedOver st
  batch_empty : st.packetiser ≠ .drain → st.batch = []

section

variable {srcConnId dstConnId : UInt32}

theorem consumed {queue queue' : List Bytes} {num num' : UInt64} {n : ℕ} {datagram : Bytes}
    (h : WriterHandler.consumeDataInto srcConnId dstConnId queue num [] =
      (n, queue', num', datagram)) :
    n = min queue.flatten.length 15000 ∧ queue'.flatten = queue.flatten.drop 15000 ∧
      num' = num + UInt64.ofNat (WriterHandler.cut 10 queue.flatten).length ∧
      datagram = BluefinPacket.serialiseAll (WriterHandler.dataPackets srcConnId dstConnId num
        (WriterHandler.cut 10 queue.flatten)) := by
  obtain ⟨rest, hcall, hrest⟩ :=
    WriterHandler.consumeDataInto_eq srcConnId dstConnId queue num []
  rw [hcall, List.nil_append] at h
  simp only [Prod.mk.injEq] at h
  obtain ⟨rfl, rfl, rfl, rfl⟩ := h
  exact ⟨rfl, hrest, rfl, rfl⟩

theorem sum_counted (pre post : List SendCall) (c : SendCall) :
    ((pre ++ c :: post).map SendCall.counted).sum =
      ((pre ++ post).map SendCall.counted).sum + c.counted := by
  simp only [List.map_append, List.map_cons, List.sum_append, List.sum_cons]
  omega

theorem batch_step {st st' : State} {act : Action} (h : Moves srcConnId dstConnId st act st')
    (hbatch : st.packetiser ≠ .drain → st.batch = []) :
    st'.packetiser ≠ .drain → st'.batch = [] := by
  cases h with
  | recvFirst | drainOne => exact fun hne => absurd rfl hne
  | drainDone => exact fun _ => rfl
  | packSome i n queue num datagram hpc | packNone i queue num datagram hpc | packDone i hpc
  | store i hpc => exact fun _ => hbatch (by simp [hpc])
  | _ => exact hbatch

theorem accounted_step {st st' : State} {act : Action}
    (h : Moves srcConnId dstConnId st act st') (hacc : Accounted st) : Accounted st' := by
  refine ⟨?_, batch_step h hacc.batch_empty⟩
  obtain ⟨hacc, hbatch⟩ := hacc
  unfold inCalls unpacked handedOver at *
  cases h with
  | sendBegin kind payload => simpa [SendCall.counted] using hacc
  | sendClosed i pre post c hsends hpc | sendCheck i pre post c hsends hpc
  | sendAccount i pre post c hsends hpc | sendFull i pre post c hsends hpc
  | sendUndo i pre post c hsends hpc | sendCancel i pre post c hsends hpc =>
    simp only [hsends, sum_counted, SendCall.counted, hpc] at hacc ⊢
    omega
  | sendEnqueue i pre post c hsends hpc =>
    simp only [hsends, sum_counted, SendCall.counted, hpc, List.flatten_append,
      List.flatten_singleton, List.length_append] at hacc ⊢
    omega
  | recvFirst first chan hpc hchan =>
    have hnil : st.batch = [] := hbatch (by simp [hpc])
    simp only [hchan, hnil, List.flatten_cons, List.flatten_nil, List.append_nil,
      List.length_append, List.length_nil] at hacc ⊢
    omega
  | drainOne msg chan hpc hroom hchan =>
    simp only [hchan, List.flatten_cons, List.flatten_append, List.flatten_nil, List.append_nil,
      List.length_append] at hacc ⊢
    omega
  | drainDone hpc =>
    simp only [List.flatten_append, List.flatten_nil, List.length_append,
      List.length_nil] at hacc ⊢
    omega
  | packSome i n queue num datagram hpc hi hcall hn =>
    obtain ⟨rfl, hrest, -, -⟩ := consumed hcall
    simp only [hrest, List.length_drop, List.map_append, List.sum_append, List.map_cons,
      List.map_nil, List.sum_singleton] at hacc ⊢
    omega
  | packNone i queue num datagram hpc hi hcall =>
    obtain ⟨hn, hrest, -, -⟩ := consumed hcall
    simp only [hrest, List.length_drop] at hacc ⊢
    omega
  | senderTake datagram n sendQueue hpc hqueue =>
    simp only [hpc, hqueue, SenderPc.bytes, List.map_cons, List.sum_cons] at hacc ⊢
    omega
  | senderSend datagram n hpc =>
    simp only [hpc, SenderPc.bytes] at hacc ⊢
    exact hacc
  | senderSub n hpc =>
    have hidle : SenderPc.bytes (if st.pendingBytes = n then .notify else .idle) = 0 := by
      split <;> rfl
    simp only [hpc, SenderPc.bytes] at hacc
    simp only [hidle]
    omega
  | senderSkip hpc =>
    simpa only [hpc, SenderPc.bytes] using hacc
  | senderNotify hpc =>
    simpa only [hpc, SenderPc.bytes] using hacc
  | _ => exact hacc

theorem accounted_run {allowed : State → Action → Prop} {start : UInt64} {acts : List Action}
    {st : State} (hr : Run (StepWhen srcConnId dstConnId allowed) (init start) acts st) :
    Accounted st := by
  refine Run.invariant (P := fun _ st => Accounted st) ⟨rfl, fun _ => rfl⟩ ?_ hr
  intro acts st act st' _ hacc hstep
  exact accounted_step (step_moves hstep.2) hacc

/-! ### The packetiser's iteration -/

/-- More than the datagrams still to come in this iteration can take is in `data_queue` only while a
message waits in the channel. -/
def Drains (st : State) : Prop :=
  match st.packetiser with
  | .recv => st.dataQueue.flatten.length = 0 ∨ st.chan ≠ []
  | .drain => True
  | .pack i => st.dataQueue.flatten.length ≤ 15000 * (12 - i) ∨ st.chan ≠ []
  | .store _ => st.dataQueue.flatten.length = 0 ∨ st.chan ≠ []

/-- The batch is closed on an empty channel only with what one iteration can hand over. -/
def DrainFits (st : State) : Action → Prop
  | .packetiser => st.packetiser = .drain → st.chan = [] →
      (st.dataQueue ++ st.batch).flatten.length ≤ 180000
  | _ => True

theorem drains_of_chan {st : State} (h : st.chan ≠ []) : Drains st := by
  unfold Drains
  split
  · exact .inr h
  · trivial
  · exact .inr h
  · exact .inr h

theorem drains_step {st st' : State} {act : Action} (h : Moves srcConnId dstConnId st act st')
    (hfits : DrainFits st act) (hdrains : Drains st) : Drains st' := by
  cases h with
  | sendEnqueue => exact drains_of_chan (by simp)
  | recvFirst | drainOne => trivial
  | drainDone hpc hstop =>
    by_cases hchan : st.chan = []
    · exact .inl (hfits hpc hchan)
    · exact .inr hchan
  | packSome i n queue num datagram hpc hi hcall hn =>
    obtain ⟨-, hrest, -, -⟩ := consumed hcall
    simp only [Drains, hpc] at hdrains ⊢
    refine hdrains.imp_left (fun hle => ?_)
    rw [hrest, List.length_drop]
    omega
  | packNone i queue num datagram hpc hi hcall =>
    obtain ⟨hn, hrest, -, -⟩ := consumed hcall
    simp only [Drains]
    refine .inl ?_
    rw [hrest, List.length_drop]
    omega
  | packDone i hpc hi =>
    simp only [Drains, hpc] at hdrains ⊢
    refine hdrains.imp_left (fun hle => ?_)
    omega
  | store i hpc =>
    simpa only [Drains, hpc] using hdrains
  | _ => exact hdrains

/-! ### One payload through an idle connection -/

section Round

variable {allowed : State → Action → Prop}

/-- The payload is in `data_queue` and the packetisation loop is about to run. -/
def batched (start : UInt64) (payload : Bytes) : State :=
  { init start with
    pendingBytes := 0 + payload.length
    dataQueue := [payload]
    packetiser := .pack 0 }

theorem run_batched (start : UInt64) (payload : Bytes)
    (hallowed : ∀ st act, act ≠ .closeBegin → st.closer = .idle →
      (st.dataQueue ++ st.batch).flatten.length ≤ payload.length → allowed st act) :
    ∃ acts, Run (StepWhen srcConnId dstConnId allowed) (init start) acts
      (batched start payload) := by
  have hbegin : StepWhen srcConnId dstConnId allowed (init start) (.sendBegin .sync payload)
      { init start with sends := [⟨.sync, payload, .start⟩] } :=
    ⟨hallowed _ _ (by simp) rfl (Nat.zero_le _), rfl⟩
  have hcheck : StepWhen srcConnId dstConnId allowed
      { init start with sends := [⟨.sync, payload, .start⟩] } (.send 0)
      { init start with sends := [⟨.sync, payload, .checked⟩] } :=
    ⟨hallowed _ _ (by simp) rfl (Nat.zero_le _), rfl⟩
  have haccount : StepWhen srcConnId dstConnId allowed
      { init start with sends := [⟨.sync, payload, .checked⟩] } (.send 0)
      { init start with
        pendingBytes := 0 + payload.length, sends := [⟨.sync, payload, .accounted⟩] } :=
    ⟨hallowed _ _ (by simp) rfl (Nat.zero_le _), rfl⟩
  have henqueue : StepWhen srcConnId dstConnId allowed
      { init start with
        pendingBytes := 0 + payload.length, sends := [⟨.sync, payload, .accounted⟩] } (.send 0)
      { init start with pendingBytes := 0 + payload.length, chan := [payload] } :=
    ⟨hallowed _ _ (by simp) rfl (Nat.zero_le _), rfl⟩
  have hrecv : StepWhen srcConnId dstConnId allowed
      { init start with pendingBytes := 0 + payload.length, chan := [payload] } .packetiser
      { init start with
        pendingBytes := 0 + payload.length, batch := [payload], packetiser := .drain } :=
    ⟨hallowed _ _ (by simp) rfl (Nat.zero_le _), rfl⟩
  have hdone : StepWhen srcConnId dstConnId allowed
      { init start with
        pendingBytes := 0 + payload.length, batch := [payload], packetiser := .drain } .packetiser
      (batched start payload) :=
    ⟨hallowed _ _ (by simp) rfl (by simp [init]), rfl⟩
  exact ⟨_, (((((Run.nil.snoc hbegin).snoc hcheck).snoc haccount).snoc henqueue).snoc
    hrecv).snoc hdone⟩

theorem packetiserStep_some {st : State} {i : ℕ} (hpc : st.packetiser = .pack i) (hi : i < 12)
    (hne : st.dataQueue.flatten ≠ []) :
    ∃ queue, queue.flatten = st.dataQueue.flatten.drop 15000 ∧
      packetiserStep srcConnId dstConnId st = some { st with
        dataQueue := queue
        nextPacketNum := st.nextPacketNum +
          UInt64.ofNat (WriterHandler.cut 10 st.dataQueue.flatten).length
        sendQueue := st.sendQueue ++ [(BluefinPacket.serialiseAll
          (WriterHandler.dataPackets srcConnId dstConnId st.nextPacketNum
            (WriterHandler.cut 10 st.dataQueue.flatten)), min st.dataQueue.flatten.length 15000)]
        packetiser := .pack (i + 1) } := by
  obtain ⟨rest, hcall, hrest⟩ :=
    WriterHandler.consumeDataInto_eq srcConnId dstConnId st.dataQueue st.nextPacketNum []
  have hpos : 0 < st.dataQueue.flatten.length := List.length_pos_iff.mpr hne
  have hn : min st.dataQueue.flatten.length 15000 > 0 := by omega
  refine ⟨rest, hrest, ?_⟩
  simp only [packetiserStep, hpc, if_pos hi, hcall, if_pos hn, List.nil_append]

theorem packetiserStep_none {st : State} {i : ℕ} (hpc : st.packetiser = .pack i) (hi : i < 12)
    (hnil : st.dataQueue.flatten = []) :
    ∃ queue, queue.flatten = [] ∧ packetiserStep srcConnId dstConnId st =
      some { st with dataQueue := queue, packetiser := .store i } := by
  obtain ⟨rest, hcall, hrest⟩ :=
    WriterHandler.consumeDataInto_eq srcConnId dstConnId st.dataQueue st.nextPacketNum []
  rw [hnil, WriterHandler.cut_nil] at hcall
  rw [hnil] at hrest
  refine ⟨rest, hrest, ?_⟩
  simp [packetiserStep, hpc, if_pos hi, hcall]

theorem stepWhen_packetiser {st st' : State} (ha : allowed st .packetiser)
    (h : packetiserStep srcConnId dstConnId st = some st') :
    StepWhen srcConnId dstConnId allowed st .packetiser st' := ⟨ha, h⟩

theorem stepWhen_store {st : State} {i : ℕ} (hpc : st.packetiser = .store i)
    (ha : allowed st .packetiser) :
    StepWhen srcConnId dstConnId allowed st .packetiser
      { st with nextPacketNumShared := st.nextPacketNum, packetiser := .recv } := by
  refine stepWhen_packetiser ha ?_
  simp only [packetiserStep, hpc]

theorem run_packs (k : ℕ) {st : State} {i : ℕ} (hpc : st.packetiser = .pack i) (hk : i + k ≤ 12)
    (hlen : 15000 * k < st.dataQueue.flatten.length + 15000)
    (hallowed : ∀ st, st.packetiser ≠ .drain → allowed st .packetiser) :
    ∃ acts st', Run (StepWhen srcConnId dstConnId allowed) st acts st' ∧
      st'.packetiser = .pack (i + k) ∧ st'.chan = st.chan ∧
      st'.dataQueue.flatten = st.dataQueue.flatten.drop (15000 * k) := by
  induction k with
  | zero => exact ⟨[], st, .nil, hpc, rfl, rfl⟩
  | succ k ih =>
    obtain ⟨acts, st', hr, hpc', hchan, hqueue⟩ := ih (by omega) (by omega)
    have hne : st'.dataQueue.flatten ≠ [] := by
      rw [hqueue]
      intro hnil
      have hl := congrArg List.length hnil
      rw [List.length_drop, List.length_nil] at hl
      omega
    obtain ⟨queue, hrest, hstep⟩ :=
      @packetiserStep_some srcConnId dstConnId st' (i + k) hpc' (by omega) hne
    refine ⟨_, _, hr.snoc (stepWhen_packetiser (hallowed st' (by simp [hpc'])) hstep), rfl,
      hchan, ?_⟩
    rw [hrest, hqueue, List.drop_drop, Nat.mul_succ]

end Round

/-! ### The packetiser does not sleep on data -/

theorem recv_waits_drained {start : UInt64} {acts : List Action} {st : State}
    (hr : Run (StepWhen srcConnId dstConnId DrainFits) (init start) acts st)
    (hpc : st.packetiser = .recv) (hchan : st.chan = []) :
    st.dataQueue.flatten = [] ∧ st.pendingBytes = st.leaked + inCalls st + handedOver st := by
  have hdrains : Drains st := by
    have hinit : Drains (init start) := Or.inl rfl
    refine Run.invariant (P := fun _ st => Drains st) hinit ?_ hr
    intro acts st act st' _ hdrains hstep
    exact drains_step (step_moves hstep.2) hstep.1 hdrains
  have hempty : st.dataQueue.flatten = [] := by
    simp only [Drains, hpc, hchan, ne_eq, not_true_eq_false, or_false] at hdrains
    exact List.eq_nil_of_length_eq_zero hdrains
  obtain ⟨htotal, hbatch⟩ := accounted_run hr
  refine ⟨hempty, ?_⟩
  rw [htotal, unpacked, hchan, hempty, hbatch (by simp [hpc])]
  rfl


theorem recv_waits_drained_single : ∃ acts st,
    Run (StepWhen 2 1 DrainFits) (init 0) acts st ∧ st.packetiser = .recv ∧ st.chan = [] ∧
      st.dataQueue.flatten = [] ∧ st.pendingBytes = st.leaked + inCalls st + handedOver st := by
  obtain ⟨acts, hbatched⟩ : ∃ acts, Run (StepWhen 2 1 DrainFits) (init 0) acts (batched 0 [7]) := by
    refine run_batched 0 [7] (fun st act _ _ hle => ?_)
    cases act with
    | packetiser => exact fun _ _ => Nat.le_trans hle (by decide)
    | _ => trivial
  have hnodrain : ∀ st : State, st.packetiser ≠ .drain → DrainFits st .packetiser :=
    fun st hne hpc => absurd hpc hne
  obtain ⟨acts₁, st₁, hr₁, hpc₁, hchan₁, hqueue₁⟩ :=
    @run_packs 2 1 DrainFits 1 (batched 0 [7]) 0 rfl (by decide) (by decide) hnodrain
  obtain ⟨queue, hqueue, hstep⟩ := @packetiserStep_none 2 1 st₁ 1 hpc₁ (by decide) hqueue₁
  have hr := ((hbatched.append hr₁).snoc
    (stepWhen_packetiser (hnodrain st₁ (by simp [hpc₁])) hstep)).snoc
    (stepWhen_store rfl (hnodrain _ (by simp)))
  exact ⟨_, _, hr, rfl, hchan₁, recv_waits_drained hr rfl hchan₁⟩

/-- One payload of 180001 bytes: its last byte stays behind. -/
theorem recv_waits_on_residue : ∃ acts st,
    Run (StepWhen 2 1 fun _ _ => True) (init 0) acts st ∧ st.packetiser = .recv ∧ st.chan = [] ∧
      st.dataQueue.flatten = [0] := by
  obtain ⟨acts, hbatched⟩ := @run_batched 2 1 (fun _ _ => True) 0 (List.replicate 180001 0)
    (fun _ _ _ _ _ => trivial)
  have hlen : (batched 0 (List.replicate 180001 0)).dataQueue.flatten.length = 180001 := by
    simp only [batched, List.flatten_singleton, List.length_replicate]
  obtain ⟨acts₁, st₁, hr₁, hpc₁, hchan₁, hqueue₁⟩ :=
    @run_packs 2 1 (fun _ _ => True) 12 (batched 0 (List.replicate 180001 0)) 0 rfl (by decide)
      (by rw [hlen]; decide) (fun _ _ => trivial)
  have hdone : packetiserStep 2 1 st₁ = some { st₁ with packetiser := .store 12 } := by
    simp [packetiserStep, hpc₁]
  refine ⟨_, _, ((hbatched.append hr₁).snoc (stepWhen_packetiser trivial hdone)).snoc
    (stepWhen_store rfl trivial), rfl, hchan₁, ?_⟩
  rw [hqueue₁]
  simp only [batched, List.flatten_singleton, List.drop_replicate]
  rfl

end

end Writer

end Bluefin
