import Bluefin.Net.CloseAgreement
import Bluefin.Worker.ReaderTx

/-!
# Who tears a connection down (net/connection.rs)

The two endpoints of `Close` with the `ConnectionManager` of each host. `close()`
ends with `mark_closed` and then `deregister_from_conn_manager`, and nothing else
in the program does either: an endpoint that only answers its peer's Fin stays in
`PeerFinReceived` with its entry in the table.
-/

namespace Bluefin
open Base

namespace TearDown
open Close

/-- The last two steps of `close()`. -/
inductive Progress where
  | running
  | marked
  | deregistered
  deriving DecidableEq, Repr

structure State where
  close : Close.State
  managers : Side → ConnKey → Option BufferRef
  progress : Side → Progress

inductive Action where
  | endpoint (x : Side) (act : Close.Action)
  | deregister (x : Side)

/-- The step in which `close()` calls `mark_closed`. -/
def marks (e : Endpoint) (act : Close.Action) : Bool :=
  match act, e.closer with
  | .close, .markClosed _ _ => true
  | _, _ => false

section

variable (ids : Side → UInt32)

def key (x : Side) : ConnKey := (ids x, ids x.peer)

def step (st : State) : Action → Option State
  | .endpoint x act => (Close.step ids st.close (x, act)).map fun close => { st with
      close := close
      progress := if marks (st.close x) act then Function.update st.progress x .marked
        else st.progress }
  | .deregister x => match st.progress x with
    | .marked => some { st with
        managers := Function.update st.managers x
          (Function.update (st.managers x) (key ids x) none)
        progress := Function.update st.progress x .deregistered }
    | _ => none

def Step (st : State) (act : Action) (st' : State) : Prop := step ids st act = some st'

def init (managers : Side → ConnKey → Option BufferRef) : State where
  close := Close.init
  managers := managers
  progress := fun _ => .running

/-- connection.rs:557-563. -/
def isClosed (st : State) (x : Side) : Bool := (st.close x).closeBuff.state = .closed

/-- The endpoint is closed and its entry is gone. -/
def TornDown (st : State) (x : Side) : Prop :=
  isClosed st x = true ∧ st.managers x (key ids x) = none

/-- A FinAck of `x` is on the wire. -/
def Acked (st : State) (x : Side) : Prop := ∃ pn, datagram ids x .finAck pn ∈ (st.close x).wire

/-- What the application of `x` has to see to: a FinAck goes out only after its own
`close()` has marked the buffer and removed the entry. -/
def Allowed (x : Side) (st : State) (act : Action) : Prop :=
  act = .endpoint x .drainerSend → st.progress x = .deregistered

def StepWhen (x : Side) (st : State) (act : Action) (st' : State) : Prop :=
  Allowed x st act ∧ Step ids st act st'

/-! ### One step of an endpoint -/

theorem bufferInClose_not_closed {guard guard' : CloseBuffer} {sawFin : Bool}
    {res : BluefinResult Bool} {packets : List BluefinPacket}
    (h : ConnReaderHandler.bufferInClose guard sawFin packets = (res, guard'))
    (hclosed : guard'.state = .closed) : guard.state = .closed := by
  induction packets generalizing guard sawFin with
  | nil =>
    cases h
    exact hclosed
  | cons p packets ih =>
    unfold ConnReaderHandler.bufferInClose at h
    split at h
    · have hfin := ih h
      rcases bufferInFin_cases guard p with hsame | ⟨hstate, _⟩
      · rwa [hsame] at hfin
      · rw [hstate] at hfin
        cases hfin
    · have hfinAck : (guard.bufferInFinAck p).state = .closed := ih h
      exact hfinAck
    · cases h
      exact hclosed

theorem receiveClose_closed {e e' : Endpoint} {packets : List BluefinPacket}
    (h : receiveClose e packets = some e') (hclosed : e'.closeBuff.state = .closed) :
    e.closeBuff.state = .closed := by
  rcases hres : ConnReaderHandler.bufferInClose e.closeBuff false packets with ⟨res, guard⟩
  have hguard := bufferInClose_not_closed hres
  cases res with
  | ok sawFin =>
    cases sawFin <;>
    · simp only [receiveClose, hres, CloseBuffer.takePendingFinAckSend] at h
      cases h
      exact hguard hclosed
  | err _ | panicked _ =>
    simp only [receiveClose, hres] at h
    cases h

theorem receive_closed {e e' : Endpoint} {d : Bytes} (h : receive e d = some e')
    (hclosed : e'.closeBuff.state = .closed) : e.closeBuff.state = .closed := by
  unfold receive at h
  split at h
  · cases h
  · cases h
    exact hclosed
  · cases h
    exact hclosed
  · split at h
    · exact receiveClose_closed h hclosed
    · exact receiveClose_closed h hclosed
    · cases h
      exact hclosed

theorem receive_closer {e e' : Endpoint} {d : Bytes} (h : receive e d = some e') :
    e'.closer = e.closer ∨ e'.closer = e.closer.wake := by
  have hclose : ∀ packets, receiveClose e packets = some e' →
      e'.closer = e.closer ∨ e'.closer = e.closer.wake := by
    intro packets hreceive
    unfold receiveClose at hreceive
    dsimp only at hreceive
    split at hreceive <;> cases hreceive <;> dsimp only <;> split <;> simp
  unfold receive at h
  split at h
  · cases h
  · cases h
    exact .inl rfl
  · cases h
    exact .inl rfl
  · split at h
    · exact hclose _ h
    · exact hclose _ h
    · cases h
      exact .inl rfl

/-- What an action does to an endpoint: only `mark_closed` closes it, and a call that has returned
stays so. -/
structure Advance (e e' : Endpoint) (marked : Bool) : Prop where
  closed : e'.closeBuff.state = .closed ↔ e.closeBuff.state = .closed ∨ marked = true
  returned : (∃ pn res, e.closer = .returned pn res) ∨ marked = true →
    ∃ pn res, e'.closer = .returned pn res

theorem advance_of_buff {e e' : Endpoint} (hbuff : e'.closeBuff = e.closeBuff)
    (hcloser : ∀ pn res, e.closer = .returned pn res → e'.closer = .returned pn res) :
    Advance e e' false where
  closed := by simp [hbuff]
  returned := by
    rintro (⟨pn, res, h⟩ | h)
    · exact ⟨pn, res, hcloser pn res h⟩
    · cases h

variable {ids} {srcConnId dstConnId : UInt32}

theorem advance_closeStep {e e' : Endpoint} (h : closeStep srcConnId dstConnId e = some e') :
    Advance e e' (marks e .close) := by
  unfold closeStep at h
  split at h
  · cases h
  · rename_i finPn hpc
    cases h
    have hstate : (e.closeBuff.recordLocalFinSent finPn).state = .closed ↔
        e.closeBuff.state = .closed := by
      unfold CloseBuffer.recordLocalFinSent
      split <;> simp [*]
    exact ⟨by simp [marks, hpc, hstate], by simp [marks, hpc]⟩
  · rename_i finPn attempt hpc
    cases h
    simp only [marks, hpc]
    exact advance_of_buff rfl (by simp [hpc])
  · rename_i finPn attempt hpc
    cases h
    simp only [marks, hpc]
    exact advance_of_buff rfl (by simp [hpc])
  · rename_i finPn attempt notified hpc
    cases h
    simp only [marks, hpc]
    exact advance_of_buff rfl (by simp [hpc])
  · rename_i finPn attempt hpc
    cases h
    simp only [marks, hpc]
    exact advance_of_buff rfl (by simp [hpc])
  · cases h
  · rename_i finPn attempt hpc
    cases h
    simp only [marks, hpc]
    exact advance_of_buff rfl (by simp [hpc])
  · rename_i finPn res hpc
    cases h
    exact ⟨by simp [marks, hpc, CloseBuffer.markClosed], fun _ => ⟨finPn, res, rfl⟩⟩
  · cases h

theorem advance_of_step {incoming : List Bytes} {e e' : Endpoint} {act : Close.Action}
    (h : e.step srcConnId dstConnId incoming act = some e') : Advance e e' (marks e act) := by
  cases act with
  | deliver i =>
    obtain ⟨d, hd, he⟩ := Option.bind_eq_some_iff.mp h
    obtain ⟨-, hclosed⟩ := receive_frame he
    constructor
    · simp only [marks, Bool.false_eq_true, or_false]
      exact ⟨receive_closed he, hclosed⟩
    · simp only [marks, Bool.false_eq_true, or_false]
      rintro ⟨pn, res, hpc⟩
      refine ⟨pn, res, ?_⟩
      rcases receive_closer he with hsame | hsame
      · rw [hsame, hpc]
      · rw [hsame, hpc]
        rfl
  | close => exact advance_closeStep h
  | handOver i | drainerSend | drainerFails =>
    obtain ⟨pn, hpn, rfl⟩ := Option.map_eq_some_iff.mp h
    exact advance_of_buff rfl fun _ _ h => h
  | drainerTake | closeBegin finPn | timeout | sendFails err =>
    simp only [Endpoint.step] at h
    split at h
    · cases h
      exact advance_of_buff rfl (by simp [*])
    · cases h

theorem wire_closeStep {e e' : Endpoint} (h : closeStep srcConnId dstConnId e = some e') :
    e'.wire = e.wire ∨ ∃ pn, e'.wire = e.wire ++ [controlDatagram srcConnId dstConnId .fin pn] := by
  unfold closeStep at h
  split at h <;> cases h
  case h_3.refl finPn attempt hpc => exact .inr ⟨finPn, rfl⟩
  all_goals exact .inl rfl

theorem wire_of_step {incoming : List Bytes} {e e' : Endpoint} {act : Close.Action}
    (h : e.step srcConnId dstConnId incoming act = some e') (hact : act ≠ .drainerSend) :
    e'.wire = e.wire ∨ ∃ pn, e'.wire = e.wire ++ [controlDatagram srcConnId dstConnId .fin pn] := by
  cases act with
  | deliver i =>
    obtain ⟨d, hd, he⟩ := Option.bind_eq_some_iff.mp h
    exact .inl (receive_frame he).1
  | drainerSend => exact absurd rfl hact
  | close => exact wire_closeStep h
  | handOver i | drainerFails =>
    obtain ⟨pn, hpn, rfl⟩ := Option.map_eq_some_iff.mp h
    exact .inl rfl
  | drainerTake | closeBegin finPn | timeout | sendFails err =>
    simp only [Endpoint.step] at h
    split at h
    · cases h
      exact .inl rfl
    · cases h

theorem finAck_of_step {x : Side} {incoming : List Bytes} {e e' : Endpoint} {act : Close.Action}
    (h : e.step (ids x) (ids x.peer) incoming act = some e') :
    (∃ pn, datagram ids x .finAck pn ∈ e'.wire) ↔
      (∃ pn, datagram ids x .finAck pn ∈ e.wire) ∨ act = .drainerSend := by
  by_cases hact : act = .drainerSend
  · subst hact
    obtain ⟨pn, hpn, rfl⟩ := Option.map_eq_some_iff.mp h
    exact ⟨fun _ => .inr rfl, fun _ => ⟨pn, List.mem_append_right _ (List.mem_singleton_self _)⟩⟩
  · rw [or_iff_left hact]
    apply exists_congr
    intro pn
    rcases wire_of_step h hact with hwire | ⟨q, hwire⟩
    · rw [hwire]
    · rw [hwire, List.mem_append, List.mem_singleton, or_iff_left]
      intro heq
      have htype := (controlDatagram_inj (by decide) (by decide) heq).1
      cases htype

/-! ### Runs -/

/-- One side: the flag and the entry of the table follow the progress of `close()`. `registered` is
what the entry was before. -/
structure Follows (registered : Option BufferRef) (e : Endpoint) (entry : Option BufferRef)
    (progress : Progress) : Prop where
  closed : e.closeBuff.state = .closed ↔ progress ≠ .running
  entry_eq : entry = if progress = .deregistered then none else registered
  returned : progress ≠ .running → ∃ pn res, e.closer = .returned pn res

variable {registered entry : Option BufferRef} {progress : Progress}

theorem follows_new : Follows registered .new registered .running where
  closed := by simp [Endpoint.new, CloseBuffer.new]
  entry_eq := rfl
  returned := fun h => absurd rfl h

theorem running_of_marks {e : Endpoint} {act : Close.Action}
    (h : Follows registered e entry progress) (hmarks : marks e act = true) :
    progress = .running := by
  by_contra hne
  obtain ⟨pn, res, hpc⟩ := h.returned hne
  unfold marks at hmarks
  split at hmarks
  · rename_i hmarked
    rw [hmarked] at hpc
    cases hpc
  · cases hmarks

theorem follows_step {incoming : List Bytes} {e e' : Endpoint} {act : Close.Action}
    (h : Follows registered e entry progress)
    (he : e.step srcConnId dstConnId incoming act = some e') :
    Follows registered e' entry (if marks e act then .marked else progress) := by
  have hadvance := advance_of_step he
  cases hmarks : marks e act with
  | false =>
    rw [hmarks] at hadvance
    constructor
    · rw [hadvance.closed]
      simp [h.closed]
    · exact h.entry_eq
    · intro hprogress
      exact hadvance.returned (.inl (h.returned hprogress))
  | true =>
    rw [hmarks] at hadvance
    have hentry := h.entry_eq
    rw [running_of_marks h hmarks] at hentry
    constructor
    · rw [hadvance.closed]
      simp
    · exact hentry
    · intro _
      exact hadvance.returned (.inr rfl)

theorem follows_deregister {e : Endpoint} (h : Follows registered e entry .marked) :
    Follows registered e none .deregistered where
  closed := by
    rw [h.closed]
    simp
  entry_eq := rfl
  returned := fun _ => h.returned (by decide)

def Inv (ids : Side → UInt32) (managers : Side → ConnKey → Option BufferRef) (st : State) : Prop :=
  ∀ x, Follows (managers x (key ids x)) (st.close x) (st.managers x (key ids x)) (st.progress x)

variable {managers : Side → ConnKey → Option BufferRef}

inductive Moves (ids : Side → UInt32) (st : State) : Action → State → Prop
  | endpoint (x : Side) (act : Close.Action) (e' : Endpoint)
      (he : (st.close x).step (ids x) (ids x.peer) (st.close x.peer).wire act = some e') :
      Moves ids st (.endpoint x act) { st with
        close := Function.update st.close x e'
        progress := Function.update st.progress x
          (if marks (st.close x) act then .marked else st.progress x) }
  | deregister (x : Side) (hmarked : st.progress x = .marked) :
      Moves ids st (.deregister x) { st with
        managers := Function.update st.managers x
          (Function.update (st.managers x) (key ids x) none)
        progress := Function.update st.progress x .deregistered }

theorem moves_of_step {st st' : State} {act : Action} (h : step ids st act = some st') :
    Moves ids st act st' := by
  cases act with
  | endpoint x act =>
    obtain ⟨close, hclose, rfl⟩ := Option.map_eq_some_iff.mp h
    obtain ⟨e', he, rfl⟩ := Option.map_eq_some_iff.mp hclose
    have hprogress : (if marks (st.close x) act then Function.update st.progress x .marked
        else st.progress) = Function.update st.progress x
          (if marks (st.close x) act then .marked else st.progress x) := by
      split
      · rfl
      · rw [Function.update_eq_self]
    dsimp only
    rw [hprogress]
    exact .endpoint x act e' he
  | deregister x =>
    simp only [step] at h
    split at h
    · rename_i hmarked
      cases h
      exact .deregister x hmarked
    · cases h

theorem inv_moves {st st' : State} {act : Action} (hi : Inv ids managers st)
    (h : Moves ids st act st') : Inv ids managers st' := by
  intro y
  cases h with
  | endpoint x act e' he =>
    by_cases hyx : y = x
    · subst hyx
      simp only [Function.update_self]
      exact follows_step (hi y) he
    · simp only [Function.update_of_ne hyx]
      exact hi y
  | deregister x hmarked =>
    by_cases hyx : y = x
    · subst hyx
      simp only [Function.update_self]
      have hy := hi y
      rw [hmarked] at hy
      exact follows_deregister hy
    · simp only [Function.update_of_ne hyx]
      exact hi y

theorem inv_run {acts : List Action} {st : State} (hr : Run (Step ids) (init managers) acts st) :
    Inv ids managers st := by
  induction hr with
  | nil => exact fun x => follows_new
  | snoc _ hs ih => exact inv_moves ih (moves_of_step hs)

/-- Only its own `close()` tears an endpoint down. -/
theorem tornDown_iff {st : State} {x : Side} (hi : Inv ids managers st)
    (hentry : managers x (key ids x) ≠ none) :
    TornDown ids st x ↔ st.progress x = .deregistered := by
  rw [TornDown, isClosed, decide_eq_true_iff, (hi x).closed, (hi x).entry_eq]
  constructor
  · rintro ⟨-, hnone⟩
    by_contra hne
    rw [if_neg hne] at hnone
    exact hentry hnone
  · intro hdone
    rw [hdone]
    exact ⟨by decide, if_pos rfl⟩

theorem deregistered_moves {st st' : State} {act : Action} {y : Side} (hi : Inv ids managers st)
    (h : Moves ids st act st') (hdone : st.progress y = .deregistered) :
    st'.progress y = .deregistered := by
  cases h with
  | endpoint x act e' he =>
    by_cases hyx : y = x
    · subst hyx
      have hmarks : marks (st.close y) act = false := by
        rw [Bool.eq_false_iff]
        intro hmarks
        rw [running_of_marks (hi y) hmarks] at hdone
        cases hdone
      simp only [Function.update_self, hmarks, Bool.false_eq_true, if_false]
      exact hdone
    · simp only [Function.update_of_ne hyx]
      exact hdone
  | deregister x hmarked =>
    by_cases hyx : y = x
    · subst hyx
      exact Function.update_self ..
    · simp only [Function.update_of_ne hyx]
      exact hdone

theorem acked_moves {st st' : State} {act : Action} {y : Side} (h : Moves ids st act st') :
    Acked ids st' y ↔ Acked ids st y ∨ act = .endpoint y .drainerSend := by
  cases h with
  | endpoint x act e' he =>
    by_cases hyx : y = x
    · subst hyx
      simp only [Acked, Function.update_self, finAck_of_step he, Action.endpoint.injEq, true_and]
    · simp only [Acked, Function.update_of_ne hyx, Action.endpoint.injEq, Ne.symm hyx, false_and,
        or_false]
  | deregister x hmarked => simp [Acked]

theorem answered_moves {st st' : State} {act : Action} {y : Side} (hi : Inv ids managers st)
    (hentry : managers y (key ids y) ≠ none) (h : Moves ids st act st')
    (hbefore : Acked ids st y → TornDown ids st y) :
    (Acked ids st' y → TornDown ids st' y) ↔ Allowed y st act := by
  rw [acked_moves h, tornDown_iff (inv_moves hi h) hentry, Allowed]
  rw [tornDown_iff hi hentry] at hbefore
  constructor
  · rintro hafter rfl
    have hdone := hafter (.inr rfl)
    cases h with
    | endpoint x act e' he =>
      simpa [marks] using hdone
  · rintro hallowed (hacked | hsend)
    · exact deregistered_moves hi h (hbefore hacked)
    · exact deregistered_moves hi h (hallowed hsend)

theorem step_det (s : State) (act : Action) (t u : State) (ht : Step ids s act t)
    (hu : Step ids s act u) : t = u :=
  Option.some.inj (ht.symm.trans hu)

theorem answered_run {acts : List Action} {st : State} {y : Side}
    (hentry : managers y (key ids y) ≠ none) (hr : Run (Step ids) (init managers) acts st) :
    (∀ acts' t, acts' <+: acts → Run (Step ids) (init managers) acts' t →
      Acked ids t y → TornDown ids t y) ↔
    Run (StepWhen ids y) (init managers) acts st := by
  induction hr with
  | nil =>
    refine ⟨fun _ => .nil, fun _ acts' t hacts ht hacked => ?_⟩
    obtain rfl := List.prefix_nil.mp hacts
    obtain rfl := Run.unique step_det ht .nil
    obtain ⟨pn, hpn⟩ := hacked
    cases hpn
  | @snoc acts act s t hr hs ih =>
    have hpasses := @Run.passes_snoc_iff _ _ _ _ step_det
      (fun t => Acked ids t y → TornDown ids t y) _ _ _ _ hr hs
    have hwhen := @Run.when_snoc_iff _ _ _ _ step_det (Allowed y) _ _ _ _ hr hs
    refine hpasses.trans (Iff.trans ?_ hwhen.symm)
    rw [ih]
    apply and_congr_right
    intro hpast
    exact answered_moves (inv_run hr) hentry (moves_of_step hs)
      (ih.mpr hpast acts s (List.prefix_refl _) hr)

theorem close_run {acts : List Action} {st : State} (hr : Run (Step ids) (init managers) acts st) :
    ∃ acts', Run (Close.Step ids) Close.init acts' st.close := by
  induction hr with
  | nil => exact ⟨[], .nil⟩
  | snoc _ hs ih =>
    obtain ⟨acts', hacts'⟩ := ih
    cases moves_of_step hs with
    | endpoint x act e' he =>
      refine ⟨acts' ++ [(x, act)], hacts'.snoc ?_⟩
      simp [Close.Step, Close.step, he]
    | deregister x hmarked => exact ⟨acts', hacts'⟩

end

/-- Of every run: once a `close()` has returned `Ok`, its FinAck is on the wire; and
the peer is torn down in every state that the run passes through after the peer's
FinAck went out, exactly if each FinAck of the peer goes out after the peer's own
`close()` has torn it down. In such a run the peer of a `close()` that has returned
`Ok` is torn down. -/
theorem peer_torn_down_iff (ids : Side → UInt32) (managers : Side → ConnKey → Option BufferRef)
    (x : Side) (hentry : managers x.peer (key ids x.peer) ≠ none) (acts : List Action) (st : State)
    (hr : Run (Step ids) (init managers) acts st) :
    (∀ pn, (st.close x).closer = .returned pn (.ok ()) →
      datagram ids x.peer .finAck pn ∈ (st.close x.peer).wire) ∧
    ((∀ acts' t, acts' <+: acts → Run (Step ids) (init managers) acts' t →
        Acked ids t x.peer → TornDown ids t x.peer) ↔
      Run (StepWhen ids x.peer) (init managers) acts st) ∧
    (Run (StepWhen ids x.peer) (init managers) acts st →
      ∀ pn, (st.close x).closer = .returned pn (.ok ()) → TornDown ids st x.peer) := by
  have hacked : ∀ pn, (st.close x).closer = .returned pn (.ok ()) →
      datagram ids x.peer .finAck pn ∈ (st.close x.peer).wire := by
    intro pn hpc
    obtain ⟨acts', hclose⟩ := close_run hr
    exact (sound_run hclose x).confirmed pn (by rw [hpc]; rfl)
  have hpasses := answered_run hentry hr
  refine ⟨hacked, hpasses, fun hwhen pn hpc => ?_⟩
  exact hpasses.mpr hwhen acts st (List.prefix_refl _) hr ⟨pn, hacked pn hpc⟩

def registeredOnce : Side → ConnKey → Option BufferRef := fun x k =>
  if k = key twoIds x then some 0 else none

/-- Side `b` has the Fin of `a` in hand, runs its own `close()` to the end, and sends the FinAck
then. -/
def closedFirst : List Action :=
  [.endpoint .a (.closeBegin 7), .endpoint .a .close, .endpoint .a .close,
    .endpoint .b (.closeBegin 40), .endpoint .b .close, .endpoint .b .close, .endpoint .b .close,
    .endpoint .b (.deliver 0), .endpoint .b (.handOver 0), .endpoint .b .drainerTake,
    .endpoint .a (.deliver 0), .endpoint .a (.handOver 0), .endpoint .a .drainerTake,
    .endpoint .a .drainerSend, .endpoint .b (.deliver 1), .endpoint .b .close, .endpoint .b .close,
    .deregister .b, .endpoint .b .drainerSend, .endpoint .a .close, .endpoint .a (.deliver 1),
    .endpoint .a .close, .endpoint .a .close, .deregister .a]

/-- The actions that `StepWhen` allows for `b`. -/
def stepWhenB (st : State) (act : Action) : Option State :=
  match act with
  | .endpoint .b .drainerSend =>
    if st.progress .b = .deregistered then step twoIds st act else none
  | _ => step twoIds st act

theorem stepWhenB_sound (st : State) (act : Action) (st' : State)
    (h : stepWhenB st act = some st') : StepWhen twoIds .b st act st' := by
  unfold stepWhenB at h
  split at h
  · split at h
    · rename_i hdone
      exact ⟨fun _ => hdone, h⟩
    · cases h
  · rename_i hact
    exact ⟨fun heq => absurd heq hact, h⟩

theorem peer_torn_down_closedFirst : ∃ st,
    Run (Step twoIds) (init registeredOnce) closedFirst st ∧
    (st.close .a).closer = .returned 7 (.ok ()) ∧ TornDown twoIds st .b := by
  have hcomputed : ((closedFirst.foldlM stepWhenB (init registeredOnce)).map fun st =>
      (st.close .a).closer) = some (.returned 7 (.ok ())) := by
    decide +kernel
  obtain ⟨st, hwhen, hcloser⟩ := Run.exists_of_foldlM _ closedFirst
    (fun act _ st st' => stepWhenB_sound st act st') hcomputed
  have hrun : Run (Step twoIds) (init registeredOnce) closedFirst st := hwhen.mono fun _ _ _ h => h.2
  obtain ⟨-, -, htorn⟩ := peer_torn_down_iff twoIds registeredOnce .a (by decide) closedFirst st
    hrun
  exact ⟨st, hrun, hcloser, htorn hwhen 7 hcloser⟩

/-- Side `a` closes and `b` does nothing: the Fin is answered, `close()` returns `Ok`, and `b` is
neither closed nor out of its table. -/
def passivePeer : List Action :=
  [.endpoint .a (.closeBegin 7), .endpoint .a .close, .endpoint .a .close,
    .endpoint .b (.deliver 0), .endpoint .b (.handOver 0), .endpoint .b .drainerTake,
    .endpoint .b .drainerSend, .endpoint .a .close, .endpoint .a (.deliver 0),
    .endpoint .a .close, .endpoint .a .close, .deregister .a]

theorem passive_peer_stays : ∃ st, Run (Step twoIds) (init registeredOnce) passivePeer st ∧
    (st.close .a).closer = .returned 7 (.ok ()) ∧ st.progress .a = .deregistered ∧
    datagram twoIds .b .finAck 7 ∈ (st.close .b).wire ∧
    isClosed st .b = false ∧ st.managers .b (key twoIds .b) = some 0 := by
  have hcomputed : ((passivePeer.foldlM (step twoIds) (init registeredOnce)).map fun st =>
      ((st.close .a).closer, st.progress .a, isClosed st .b, st.managers .b (key twoIds .b))) =
      some (.returned 7 (.ok ()), .deregistered, false, some 0) := by
    decide +kernel
  obtain ⟨st, hrun, hst⟩ := Run.exists_of_foldlM _ passivePeer (fun _ _ _ _ h => h) hcomputed
  simp only [Prod.mk.injEq] at hst
  obtain ⟨hcloser, hprogress, hclosed, hentry⟩ := hst
  obtain ⟨_, hclose⟩ := close_run hrun
  have hacked := (sound_run hclose .a).confirmed 7 (by rw [hcloser]; rfl)
  exact ⟨st, hrun, hcloser, hprogress, hacked, hclosed, hentry⟩

end TearDown

end Bluefin
