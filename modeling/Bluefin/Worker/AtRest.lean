import Bluefin.Worker.Barrier

/-!
# `pending_bytes` at rest

While no `send_*` call is in progress, `pending_bytes` should be the bytes in the
channel, in the packetiser and with the sender task. `send_bytes_async` undoes
its increment when the enqueue fails, but a future dropped at the await
(writer.rs:431) undoes nothing, and what it added stays in the counter.
-/

namespace Bluefin
open Base

namespace Barrier

open Writer

/-- The payload bytes in the datagram of the sender task, until it has subtracted them. -/
def heldBytes : SenderPc → ℕ
  | .idle => 0
  | .holding datagram _ => (datagramBytes datagram).length
  | .sent payloadBytes => payloadBytes
  | .notify => 0

/-- The payload bytes in the datagrams queued for or held by the sender task. -/
def inDatagrams (w : Writer.State) : ℕ :=
  (w.sendQueue.map fun e => (datagramBytes e.1).length).sum + heldBytes w.sender

/-- What a step leaves in the counter for good. -/
def leak (w : Writer.State) : Action → ℕ
  | .writer (.cancel i) => (w.sends[i]?.map fun c => c.payload.length).getD 0
  | _ => 0

/-- A future that is dropped while it waits has nothing to send. -/
def NoLeak (st : State) : Action → Prop
  | .writer (.cancel i) => ∀ c, st.writer.sends[i]? = some c → c.payload = []
  | _ => True

theorem noLeak_iff (st : State) (act : Action) : NoLeak st act ↔ leak st.writer act = 0 := by
  unfold NoLeak leak
  split
  · rename_i i
    cases st.writer.sends[i]? with
    | none => simp
    | some c => simp
  · simp

section

variable {srcConnId dstConnId : UInt32}

theorem leaked_step {st st' : State} {act : Action}
    (h : step srcConnId dstConnId st act = some st') :
    st'.writer.leaked = st.writer.leaked + leak st.writer act := by
  by_cases hcancel : ∃ i, act = .writer (.cancel i)
  · obtain ⟨i, rfl⟩ := hcancel
    obtain ⟨w, hw, rfl⟩ := Option.map_eq_some_iff.mp h
    simp only [Writer.step, cancelStep] at hw
    split at hw
    · rename_i payload hc
      cases hw
      simp only [leak, hc, Option.map_some, Option.getD_some]
    · cases hw
  · have hleak : leak st.writer act = 0 := by
      unfold leak
      split
      · exact absurd ⟨_, rfl⟩ hcancel
      · rfl
    rw [hleak, Nat.add_zero]
    cases moves_of_step h with
    | writer act w hmoves =>
      cases hmoves with
      | sendCancel i => exact absurd ⟨i, rfl⟩ hcancel
      | _ => rfl
    | refuse => rfl

theorem step_deterministic (st : State) (act : Action) (t u : State)
    (ht : Step srcConnId dstConnId st act t) (hu : Step srcConnId dstConnId st act u) : t = u :=
  Option.some.inj (ht.symm.trans hu)

theorem leaked_run {start : UInt64} {acts : List Action} {st : State}
    (hr : Run (Step srcConnId dstConnId) (init start) acts st) :
    st.writer.leaked = 0 ↔ Run (StepWhen srcConnId dstConnId NoLeak) (init start) acts st := by
  induction hr with
  | nil => exact ⟨fun _ => .nil, fun _ => rfl⟩
  | snoc hr hs ih =>
    have hlonger := @Run.when_snoc_iff _ _ _ _ step_deterministic NoLeak _ _ _ _ hr hs
    rw [leaked_step hs, Nat.add_eq_zero_iff, ih, ← noLeak_iff]
    exact hlonger.symm

/-- The stages before the sender task agree with what the datagrams carry. -/
theorem Flow.handedOver {st : State} (hflow : Flow st) :
    handedOver st.writer = inDatagrams st.writer := by
  have hsized := hflow.sized
  have hqueue : st.writer.sendQueue.map (fun e => (datagramBytes e.1).length) =
      st.writer.sendQueue.map Prod.snd := by
    apply List.map_congr_left
    intro e he
    exact (hsized e (List.mem_append_right _ he)).1.symm
  have hheld : heldBytes st.writer.sender = st.writer.sender.bytes := by
    cases hpc : st.writer.sender with
    | holding datagram n =>
      have hmem : (datagram, n) ∈ loads st.writer := by simp [loads, load, hpc]
      exact (hsized _ hmem).1.symm
    | _ => rfl
  rw [Writer.handedOver, inDatagrams, hqueue, hheld]

theorem pending_at_rest {st : State} (hflow : Flow st) (hrest : st.writer.sends = []) :
    st.writer.pendingBytes =
      st.writer.leaked + (unpacked st.writer + inDatagrams st.writer) := by
  have htotal := hflow.accounted.total
  rw [hflow.handedOver, inCalls, hrest] at htotal
  rw [htotal]
  simp only [List.map_nil, List.sum_nil]
  omega

/-- At rest the counter is exact just if every future that was dropped had
nothing to send; then, and only then, a `flush` of an empty pipeline returns at
its first check. -/
theorem pending_exact_iff {start : UInt64} {acts : List Action} {st : State}
    (hr : Run (Step srcConnId dstConnId) (init start) acts st) (hrest : st.writer.sends = []) :
    (st.writer.pendingBytes = unpacked st.writer + inDatagrams st.writer ↔
        Run (StepWhen srcConnId dstConnId NoLeak) (init start) acts st) ∧
      (unpacked st.writer = 0 → inDatagrams st.writer = 0 →
        (st.writer.pendingBytes = 0 ∧
            FlushPc.check.step st.writer.pendingBytes = some .returned ↔
          Run (StepWhen srcConnId dstConnId NoLeak) (init start) acts st)) := by
  have hpending := pending_at_rest (run_flushed hr).1 hrest
  rw [← leaked_run hr]
  constructor
  · omega
  · intro hunpacked hdatagrams
    have hleaked : st.writer.pendingBytes = st.writer.leaked := by omega
    rw [hleaked]
    constructor
    · exact fun h => h.1
    · intro hzero
      refine ⟨hzero, ?_⟩
      simp [FlushPc.step, hzero]

end

/-! ### A dropped future -/

/-- Payloads of one byte, `k` of them, wait in the channel, and nothing runs. -/
def filled (k : ℕ) : State where
  writer := { Writer.init 0 with pendingBytes := k, chan := List.replicate k [7] }
  accepted := List.replicate k 7
  begun := []
  closeBegun := 0

def sendOne (kind : SendKind) : List Action :=
  [.writer (.sendBegin kind [7]), .writer (.send 0), .writer (.send 0)]

/-- One more call, up to its enqueue. -/
def calling (kind : SendKind) (k : ℕ) : State :=
  { filled k with
    writer.pendingBytes := k + 1
    writer.sends := [⟨kind, [7], .accounted⟩] }

theorem run_calling (kind : SendKind) (k : ℕ) :
    Run (Step 2 1) (filled k) (sendOne kind) (calling kind k) := by
  refine Run.of_foldlM _ (fun _ _ _ _ h => h) ?_
  simp [sendOne, calling, filled, step, Writer.step, sendStep, Writer.init, enqueued, flushBegins,
    closeBegins]

theorem run_filled (k : ℕ) (hk : k ≤ dataChannelBound) :
    ∃ acts, Run (Step 2 1) (init 0) acts (filled k) := by
  induction k with
  | zero => exact ⟨[], .nil⟩
  | succ k ih =>
    obtain ⟨acts, hr⟩ := ih (by omega)
    have henqueue : Step 2 1 (calling .sync k) (.writer (.send 0)) (filled (k + 1)) := by
      have hroom : k < dataChannelBound := hk
      simp [Step, step, calling, filled, Writer.step, sendStep, Writer.init, enqueued, flushBegins,
        closeBegins, hroom, List.replicate_succ']
    exact ⟨_, (hr.append (run_calling .sync k)).snoc henqueue⟩

/-- The future of the call is dropped. -/
def dropped (k : ℕ) : State :=
  { filled k with writer.pendingBytes := k + 1, writer.leaked := 1 }

theorem step_dropped (k : ℕ) :
    Step 2 1 (calling .async k) (.writer (.cancel 0)) (dropped k) := by
  simp [Step, step, calling, dropped, filled, Writer.step, cancelStep, Writer.init, enqueued,
    flushBegins, closeBegins]

theorem dropped_bytes (k : ℕ) :
    unpacked (dropped k).writer + inDatagrams (dropped k).writer = k := by
  simp [unpacked, inDatagrams, heldBytes, dropped, filled, Writer.init]

theorem pending_exact_iff_one_byte : ∃ st, Run (Step 2 1) (init 0) flushOneByte st ∧
    st.writer.sends = [] ∧ st.accepted = [7] ∧
    st.writer.pendingBytes = unpacked st.writer + inDatagrams st.writer := by
  have hcomputed : ((flushOneByte.foldlM (step 2 1) (init 0)).map fun st =>
      (st.writer.sends, st.accepted)) = some ([], [7]) := by
    decide +kernel
  have hnone : ∀ act ∈ flushOneByte, ∀ st, NoLeak st act := by simp [flushOneByte, NoLeak]
  obtain ⟨st, hwhen, hfields⟩ := @Run.exists_of_foldlM _ _ (StepWhen 2 1 NoLeak) _ _ _
    flushOneByte _ _ (fun act hact s t h => ⟨hnone act hact s, h⟩) hcomputed
  obtain ⟨hsends, haccepted⟩ := Prod.mk.inj hfields
  have hr : Run (Step 2 1) (init 0) flushOneByte st := hwhen.mono fun _ _ _ h => h.2
  exact ⟨st, hr, hsends, haccepted, (pending_exact_iff hr hsends).1.mpr hwhen⟩

/-- The channel is full, an async call waits for space, and its future is dropped: 4096 bytes are in
the pipeline and 4097 in the counter. -/
theorem dropped_future_leaks : ∃ acts st, Run (Step 2 1) (init 0) acts st ∧
    st.writer.sends = [] ∧ st.writer.chan.length = dataChannelBound ∧
    st.writer.pendingBytes = 4097 ∧ unpacked st.writer + inDatagrams st.writer = 4096 := by
  obtain ⟨acts, hr⟩ := run_filled 4096 (Nat.le_refl _)
  exact ⟨_, _, (hr.append (run_calling .async 4096)).snoc (step_dropped 4096), rfl,
    List.length_replicate, rfl, dropped_bytes 4096⟩

end Barrier

end Bluefin
