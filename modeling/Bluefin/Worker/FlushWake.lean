import Bluefin.Worker.AtRest

/-!
# How a `flush()` ends (worker/writer.rs)

A parked `flush` is woken by `notify_waiters`. Only the sender task calls it, after the
decrement that takes `pending_bytes` to zero; a `send_*` call that takes its length back
after a failed enqueue does not. While no such call takes the counter to zero under a
parked `flush`, none of them sleeps over an empty counter, and once no call begins any
more the tasks come to rest with every `flush` returned, up to what the packetiser
leaves in `data_queue`.
-/

namespace Bluefin
open Base

namespace Barrier

open Writer

def CloserPc.flushCall : CloserPc → List FlushPc
  | .flushing f => [f]
  | _ => []

/-- The `flush` calls, with the one that `close()` makes. -/
def flushCalls (w : Writer.State) : List FlushPc := w.flushes ++ CloserPc.flushCall w.closer

/-- A parked call has bytes to wait for, or its notification is on the way. -/
def Awake (w : Writer.State) : Prop :=
  FlushPc.parked ∈ flushCalls w → w.pendingBytes ≠ 0 ∨ w.sender = .notify

/-- No failed call takes the counter to zero under a parked `flush`, unless a
notification is due anyway. -/
def UndoSafe (st : State) : Action → Prop
  | .writer (.send i) => ∀ c, st.writer.sends[i]? = some c → c.pc = .failed →
      st.writer.pendingBytes = c.payload.length → FlushPc.parked ∈ flushCalls st.writer →
      st.writer.sender = .notify
  | _ => True

section

variable {srcConnId dstConnId : UInt32}

/-! ### One step -/

theorem wake_ne_parked (f : FlushPc) : f.wake ≠ .parked := by
  cases f <;> simp [FlushPc.wake]

theorem parked_notified (w : Writer.State) :
    FlushPc.parked ∉ w.flushes.map FlushPc.wake ++ CloserPc.flushCall w.closer.wake := by
  intro h
  rcases List.mem_append.mp h with h | h
  · obtain ⟨f, -, hf⟩ := List.mem_map.mp h
    exact wake_ne_parked f hf
  · cases hcloser : w.closer with
    | flushing f =>
      rw [hcloser] at h
      exact wake_ne_parked f (List.mem_singleton.mp h).symm
    | _ => simp [hcloser, CloserPc.wake, CloserPc.flushCall] at h

theorem parked_of_step {n : ℕ} {f : FlushPc} (h : f.step n = some .parked) : n ≠ 0 := by
  intro hzero
  cases f <;> simp [FlushPc.step, hzero] at h

/-- Of the steps of a call only the one that takes a length back lowers the counter. -/
theorem sendStep_effect {w w' : Writer.State} {i : ℕ} (h : sendStep w i = some w') :
    flushCalls w' = flushCalls w ∧ w'.sender = w.sender ∧
      (w.pendingBytes ≤ w'.pendingBytes ∧ (∀ c, w.sends[i]? = some c → c.pc ≠ .failed) ∨
        ∃ c, w.sends[i]? = some c ∧ c.pc = .failed ∧
          w'.pendingBytes = w.pendingBytes - c.payload.length) := by
  unfold sendStep at h
  cases hc : w.sends[i]? with
  | none => simp [hc] at h
  | some c =>
    simp only [hc] at h
    have hother : c.pc ≠ .failed → ∀ d, some c = some d → d.pc ≠ .failed := by
      rintro hne d hd
      cases hd
      exact hne
    cases hpc : c.pc with
    | start =>
      simp only [hpc] at h
      split at h <;> cases h <;>
        exact ⟨rfl, rfl, .inl ⟨Nat.le_refl _, hother (by simp [hpc])⟩⟩
    | checked =>
      simp only [hpc] at h
      cases h
      exact ⟨rfl, rfl, .inl ⟨Nat.le_add_right _ _, hother (by simp [hpc])⟩⟩
    | accounted =>
      simp only [hpc] at h
      split at h
      · cases h
        exact ⟨rfl, rfl, .inl ⟨Nat.le_refl _, hother (by simp [hpc])⟩⟩
      · split at h <;> cases h
        exact ⟨rfl, rfl, .inl ⟨Nat.le_refl _, hother (by simp [hpc])⟩⟩
    | failed =>
      simp only [hpc] at h
      cases h
      exact ⟨rfl, rfl, .inr ⟨c, rfl, hpc, rfl⟩⟩

theorem Awake.send_iff {w w' : Writer.State} {i : ℕ} (h : sendStep w i = some w') (hw : Awake w)
    (hcovered : ∀ c, w.sends[i]? = some c → c.pc = .failed → c.payload.length ≤ w.pendingBytes) :
    Awake w' ↔ ∀ c, w.sends[i]? = some c → c.pc = .failed → w.pendingBytes = c.payload.length →
      FlushPc.parked ∈ flushCalls w → w.sender = .notify := by
  obtain ⟨hcalls, hsender, hpending⟩ := sendStep_effect h
  unfold Awake at hw ⊢
  rw [hcalls, hsender]
  rcases hpending with ⟨hle, hnone⟩ | ⟨c, hc, hpc, hsub⟩
  · constructor
    · exact fun _ c hc hpc => absurd hpc (hnone c hc)
    · exact fun _ hparked => (hw hparked).imp_left (by omega)
  · have hle := hcovered c hc hpc
    rw [hsub]
    constructor
    · intro hawake d hd _ hlen hparked
      rw [hc] at hd
      cases hd
      exact (hawake hparked).resolve_left (by omega)
    · intro hsafe hparked
      by_cases hlen : w.pendingBytes = c.payload.length
      · exact .inr (hsafe c hc hpc hlen hparked)
      · exact .inl (by omega)

theorem Awake.step {w w' : Writer.State} {act : Writer.Action}
    (h : Writer.Moves srcConnId dstConnId w act w') (hact : ∀ i, act ≠ .send i) (hw : Awake w)
    (hsent : ∀ n, w.sender = .sent n → n ≤ w.pendingBytes) : Awake w' := by
  cases h with
  | sendClosed i | sendCheck i | sendAccount i | sendEnqueue i | sendFull i | sendUndo i =>
    exact absurd rfl (hact i)
  | senderTake datagram n sendQueue hpc | senderSend datagram n hpc | senderSkip hpc =>
    intro hparked
    have hbefore := hw hparked
    rw [hpc] at hbefore
    exact .inl (hbefore.resolve_right (by simp))
  | senderSub n hpc hn =>
    intro hparked
    have hle := hsent n hpc
    by_cases heq : w.pendingBytes = n
    · exact .inr (if_pos heq)
    · refine .inl ?_
      show w.pendingBytes - n ≠ 0
      omega
  | senderNotify hpc => exact fun hparked => absurd hparked (parked_notified w)
  | flushBegin =>
    intro hparked
    refine hw ?_
    simpa [flushCalls] using hparked
  | flush i pre post f f' hflushes hstep =>
    intro hparked
    by_cases hf' : f' = .parked
    · rw [hf'] at hstep
      exact .inl (parked_of_step hstep)
    · refine hw ?_
      simp only [flushCalls, hflushes, List.mem_append, List.mem_cons] at hparked ⊢
      have hne : ¬ FlushPc.parked = f' := fun h => hf' h.symm
      tauto
  | closeFlush f f' hpc hstep =>
    intro hparked
    by_cases hf' : f' = .parked
    · rw [hf'] at hstep
      exact .inl (parked_of_step hstep)
    · refine hw (List.mem_append_left _ ?_)
      rcases List.mem_append.mp hparked with h | h
      · exact h
      · exact absurd (List.mem_singleton.mp h).symm hf'
  | closeBegin hpc | closeFlushed hpc | closeMark hpc | closeReserve hpc | closeRecord finPn hpc
  | closeSendFin finPn hpc | closeRetransmit finPn hpc | closeReturn finPn hpc =>
    intro hparked
    refine hw (List.mem_append_left _ ?_)
    simpa [flushCalls, CloserPc.flushCall] using hparked
  | _ => exact hw

theorem Flow.undo_covered {st : State} (hflow : Flow st) {i : ℕ} {c : SendCall}
    (hc : st.writer.sends[i]? = some c) (hpc : c.pc = .failed) :
    c.payload.length ≤ st.writer.pendingBytes := by
  obtain ⟨pre, post, hsends, -, -⟩ := split_at hc
  have htotal := hflow.accounted.total
  simp only [inCalls, hsends, sum_counted, SendCall.counted, hpc] at htotal
  omega

theorem awake_step_iff {st st' : State} {act : Action}
    (h : step srcConnId dstConnId st act = some st') (hflow : Flow st)
    (hw : Awake st.writer) : Awake st'.writer ↔ UndoSafe st act := by
  by_cases hsend : ∃ i, act = .writer (.send i)
  · obtain ⟨i, rfl⟩ := hsend
    obtain ⟨w, hstep, rfl⟩ := Option.map_eq_some_iff.mp h
    exact hw.send_iff hstep fun c hc hpc => hflow.undo_covered hc hpc
  · have hsafe : UndoSafe st act := by
      unfold UndoSafe
      split
      · exact absurd ⟨_, rfl⟩ hsend
      · trivial
    refine ⟨fun _ => hsafe, fun _ => ?_⟩
    cases moves_of_step h with
    | writer act w hmoves =>
      refine hw.step hmoves (fun i hi => hsend ⟨i, by rw [hi]⟩) fun n hn => ?_
      have htotal := hflow.accounted.total
      simp only [handedOver, hn, SenderPc.bytes] at htotal
      omega
    | refuse => exact hw

theorem awake_init (start : UInt64) : Awake (init start).writer := by
  intro hparked
  simp [init, Writer.init, flushCalls, CloserPc.flushCall] at hparked

theorem undoSafe_of_no_calls {st : State} (h : flushCalls st.writer = []) (act : Action) :
    UndoSafe st act := by
  unfold UndoSafe
  split
  · intro c _ _ _ hparked
    rw [h] at hparked
    cases hparked
  · trivial

/-- A run never leaves a `flush` parked over an empty counter with no notification due,
exactly if no failed `send_*` call takes its bytes back to zero under a parked `flush`. -/
theorem flush_wakes_iff {start : UInt64} {acts : List Action} {st : State}
    (hr : Run (Step srcConnId dstConnId) (init start) acts st) :
    (∀ fs u, fs <+: acts → Run (Step srcConnId dstConnId) (init start) fs u →
        Awake u.writer) ↔
      Run (StepWhen srcConnId dstConnId UndoSafe) (init start) acts st := by
  refine Run.always_iff step_deterministic (P := fun u => Awake u.writer) (awake_init start) ?_ hr
  intro acts st act st' hr hawake hstep
  exact awake_step_iff hstep (run_flushed hr).1 hawake

end

theorem run_one_byte :
    Run (StepWhen 2 1 fun st act => UndoSafe st act ∧ NoLeak st act) (init 0)
      (sendOne .sync ++ [.writer (.send 0)]) (filled 1) := by
  refine Run.of_foldlM (f := fun st act =>
    if flushCalls st.writer = [] then step 2 1 st act else none) _ ?_ rfl
  intro act hact st st' hstep
  obtain ⟨hcalls, hstep⟩ := Option.ite_none_right_eq_some.mp hstep
  refine ⟨⟨undoSafe_of_no_calls hcalls act, ?_⟩, hstep⟩
  simp only [sendOne, List.cons_append, List.nil_append, List.mem_cons, List.not_mem_nil,
    or_false] at hact
  rcases hact with rfl | rfl | rfl | rfl <;> trivial

/-- A `flush` is parked over the one byte. -/
def parkedOver : State := { filled 1 with writer.flushes := [.parked], begun := [1] }

theorem run_parkedOver : ∃ acts,
    Run (StepWhen 2 1 fun st act => UndoSafe st act ∧ NoLeak st act) (init 0) acts parkedOver := by
  have hparks : Run (StepWhen 2 1 fun st act => UndoSafe st act ∧ NoLeak st act) (filled 1)
      [.writer .flushBegin, .writer (.flush 0), .writer (.flush 0), .writer (.flush 0)]
      parkedOver := by
    refine Run.of_foldlM (f := step 2 1) _ ?_ rfl
    intro act hact st st' hstep
    refine ⟨?_, hstep⟩
    simp only [List.mem_cons, List.not_mem_nil, or_false] at hact
    rcases hact with rfl | rfl | rfl | rfl <;> exact ⟨trivial, trivial⟩
  exact ⟨_, run_one_byte.append hparks⟩

theorem flush_wakes_iff_one_byte : ∃ acts, Run (Step 2 1) (init 0) acts parkedOver ∧
    FlushPc.parked ∈ flushCalls parkedOver.writer ∧
    ∀ fs u, fs <+: acts → Run (Step 2 1) (init 0) fs u → Awake u.writer := by
  obtain ⟨acts, hr⟩ := run_parkedOver
  have hreach : Run (Step 2 1) (init 0) acts parkedOver := hr.mono fun _ _ _ h => h.2
  exact ⟨acts, hreach, by decide,
    (flush_wakes_iff hreach).mpr (hr.mono fun _ _ _ h => ⟨h.1.1, h.2⟩)⟩

/-! ### A call that strands a `flush` -/

/-- Empty payloads wait in the channel. They add nothing to the counter. -/
def filledEmpty (k : ℕ) : State where
  writer := { Writer.init 0 with chan := List.replicate k [] }
  accepted := []
  begun := []
  closeBegun := 0

def sendEmpty : List Action :=
  [.writer (.sendBegin .sync []), .writer (.send 0), .writer (.send 0), .writer (.send 0)]

theorem run_filledEmpty (k : ℕ) (hk : k ≤ dataChannelBound) :
    ∃ acts, Run (Step 2 1) (init 0) acts (filledEmpty k) := by
  induction k with
  | zero => exact ⟨[], .nil⟩
  | succ k ih =>
    obtain ⟨acts, hr⟩ := ih (by omega)
    have hroom : k < dataChannelBound := hk
    have hsend : Run (Step 2 1) (filledEmpty k) sendEmpty (filledEmpty (k + 1)) := by
      refine Run.of_foldlM _ (fun _ _ _ _ h => h) ?_
      simp [sendEmpty, filledEmpty, step, Writer.step, sendStep, Writer.init, enqueued, flushBegins,
        closeBegins, hroom, List.replicate_succ']
    exact ⟨_, hr.append hsend⟩

/-- A call of one byte finds the channel full. A `flush` parks while its byte is counted. -/
def failedSend : List Action :=
  sendOne .sync ++ [.writer .flushBegin, .writer (.flush 0), .writer (.flush 0), .writer (.flush 0),
    .writer (.send 0), .writer (.send 0)]

theorem run_failedSend (k : ℕ) (hfull : ¬ k < dataChannelBound) :
    Run (Step 2 1) (filledEmpty k) failedSend
      { filledEmpty k with writer.flushes := [.parked], begun := [0] } := by
  refine Run.of_foldlM _ (fun _ _ _ _ h => h) ?_
  simp [failedSend, sendOne, filledEmpty, step, Writer.step, sendStep, flushStep, FlushPc.step,
    Writer.init, enqueued, flushBegins, closeBegins, hfull]

theorem failed_send_strands_flush : ∃ acts st, Run (Step 2 1) (init 0) acts st ∧
    st.writer.flushes = [.parked] ∧ st.writer.pendingBytes = 0 ∧ st.writer.sender = .idle ∧
    st.writer.sends = [] ∧ ¬ Awake st.writer := by
  obtain ⟨acts, hr⟩ := run_filledEmpty 4096 (Nat.le_refl _)
  refine ⟨_, _, hr.append (run_failedSend 4096 (Nat.lt_irrefl _)), rfl, rfl, rfl, rfl, ?_⟩
  intro hawake
  rcases hawake (List.mem_append_left _ (List.mem_singleton_self _)) with h | h
  · exact h rfl
  · cases h

section

variable {srcConnId dstConnId : UInt32}

/-! ### The tasks come to rest -/

/-- The steps of the tasks that are there: no call of `send_*`, `flush` or `close` begins. -/
def internal : Action → Bool
  | .writer .packetiser => true
  | .writer .sender => true
  | .writer (.flush _) => true
  | .writer .close => true
  | _ => false

/-- No task has a step of its own left. -/
def NoneMoves (srcConnId dstConnId : UInt32) (st : State) : Prop :=
  ∀ act, internal act = true → step srcConnId dstConnId st act = none

theorem NoneMoves.writer {st : State} (h : NoneMoves srcConnId dstConnId st)
    (act : Writer.Action) (hact : internal (.writer act) = true) :
    Writer.step srcConnId dstConnId st.writer act = none :=
  Option.map_eq_none_iff.mp (h (.writer act) hact)

theorem NoneMoves.packetiser {st : State} (h : NoneMoves srcConnId dstConnId st) :
    st.writer.packetiser = .recv ∧ st.writer.chan = [] := by
  have hnone : packetiserStep srcConnId dstConnId st.writer = none :=
    h.writer .packetiser rfl
  unfold packetiserStep at hnone
  cases hpc : st.writer.packetiser with
  | recv =>
    refine ⟨rfl, ?_⟩
    simp only [hpc] at hnone
    cases hchan : st.writer.chan with
    | nil => rfl
    | cons first chan => simp [hchan] at hnone
  | drain =>
    rw [hpc] at hnone
    dsimp only at hnone
    split at hnone
    · split at hnone <;> cases hnone
    · cases hnone
  | pack i =>
    simp only [hpc] at hnone
    split at hnone
    · split at hnone <;> cases hnone
    · cases hnone
  | store i => simp [hpc] at hnone

theorem NoneMoves.sender {st : State} (h : NoneMoves srcConnId dstConnId st) :
    st.writer.sender = .idle ∧ st.writer.sendQueue = [] := by
  have hnone : senderStep st.writer = none := h.writer .sender rfl
  unfold senderStep at hnone
  cases hpc : st.writer.sender with
  | idle =>
    refine ⟨rfl, ?_⟩
    simp only [hpc] at hnone
    cases hqueue : st.writer.sendQueue with
    | nil => rfl
    | cons e queue => simp [hqueue] at hnone
  | holding datagram n => simp [hpc] at hnone
  | sent n =>
    simp only [hpc] at hnone
    split at hnone <;> cases hnone
  | notify => simp [hpc] at hnone

theorem step_none {n : ℕ} {f : FlushPc} (h : f.step n = none) : f = .parked ∨ f = .returned := by
  cases f <;> simp [FlushPc.step] at h ⊢

theorem NoneMoves.flushes {st : State} (h : NoneMoves srcConnId dstConnId st) {f : FlushPc}
    (hf : f ∈ st.writer.flushes) : f = .parked ∨ f = .returned := by
  obtain ⟨i, hi⟩ := List.mem_iff_getElem?.mp hf
  have hnone : flushStep st.writer i = none := h.writer (.flush i) rfl
  simp only [flushStep, hi] at hnone
  exact step_none (Option.map_eq_none_iff.mp hnone)

theorem NoneMoves.closer {st : State} (h : NoneMoves srcConnId dstConnId st) :
    st.writer.closer = .idle ∨
      (∃ finPn, st.writer.closer = .waiting finPn ∨ st.writer.closer = .done finPn) ∨
      st.writer.closer = .flushing .parked := by
  have hnone : closeStep st.writer = none := h.writer .close rfl
  unfold closeStep at hnone
  cases hpc : st.writer.closer with
  | idle => exact .inl rfl
  | waiting finPn => exact .inr (.inl ⟨finPn, .inl rfl⟩)
  | done finPn => exact .inr (.inl ⟨finPn, .inr rfl⟩)
  | flushing f =>
    cases f with
    | parked => exact .inr (.inr rfl)
    | _ => simp [hpc, FlushPc.step] at hnone
  | _ => simp [hpc] at hnone

end

end Barrier

end Bluefin
