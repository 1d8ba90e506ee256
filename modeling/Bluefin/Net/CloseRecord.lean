import Bluefin.Net.Close

/-!
# What a close buffer keeps (close_handler.rs)

All sequences of the five operations on a fresh `CloseBuffer`. The number of the
peer's Fin is kept in one state only: `record_local_fin_sent` replaces it, and the
next Fin is taken for the first one. The slot for a FinAck is overwritten by each
FinAck. Which sequences keep their numbers is said exactly.
-/

namespace Bluefin
open Base

namespace CloseRecord

inductive Op where
  | bufferInFin (packet : BluefinPacket)
  | bufferInFinAck (packet : BluefinPacket)
  | takePendingFinAckSend
  | recordLocalFinSent (packetNumber : UInt64)
  | markClosed

/-- The buffer with what has happened to it: the numbers of the Fins that it recorded, the number of
the local Fin that it recorded last, and the numbers for which the local Fin and a FinAck in the
slot have matched. -/
structure History where
  buff : CloseBuffer
  recorded : List UInt64
  localFin : Option UInt64
  matched : List UInt64

def History.new : History := ⟨.new, [], none, []⟩

/-- The states in which `buffer_in_fin` takes the number of the packet over. -/
def takesFin : CloseState → Bool
  | .active => true
  | .localFinSent _ => true
  | .peerFinReceived _ => false
  | .closed => false

/-- The states in which `record_local_fin_sent` takes its argument over. -/
def takesLocalFin : CloseState → Bool
  | .active => true
  | .peerFinReceived _ => true
  | .localFinSent _ => false
  | .closed => false

def step (h : History) : Op → History
  | .bufferInFin packet => { h with
      buff := h.buff.bufferInFin packet
      recorded := if takesFin h.buff.state then packet.header.packetNumber :: h.recorded
        else h.recorded }
  | .bufferInFinAck packet => { h with
      buff := h.buff.bufferInFinAck packet
      matched := if h.localFin = some packet.header.packetNumber
        then packet.header.packetNumber :: h.matched else h.matched }
  | .takePendingFinAckSend => { h with buff := h.buff.takePendingFinAckSend.2 }
  | .recordLocalFinSent pn =>
    if takesLocalFin h.buff.state then { h with
      buff := h.buff.recordLocalFinSent pn
      localFin := some pn
      matched := if h.buff.receivedFinAckFor = some pn then pn :: h.matched else h.matched }
    else { h with buff := h.buff.recordLocalFinSent pn }
  | .markClosed => { h with buff := h.buff.markClosed }

/-- The operation respects what was recorded: a Fin with another number changes
neither the state nor the pending FinAck, a FinAck that is taken is the recorded
one, and the slot holds each number that has matched. -/
structure Ignores (h : History) (op : Op) : Prop where
  fin : ∀ packet, op = .bufferInFin packet → ∀ p ∈ h.recorded, packet.header.packetNumber ≠ p →
    (h.buff.bufferInFin packet).state = h.buff.state ∧
      (h.buff.bufferInFin packet).pendingFinAckSend = h.buff.pendingFinAckSend
  taken : op = .takePendingFinAckSend → ∀ p ∈ h.recorded, ∀ q,
    h.buff.takePendingFinAckSend.1 = some q → q = p
  finAck : ∀ n ∈ (step h op).matched, (step h op).buff.receivedFinAckFor = some n

/-- What the caller has to see to: after the local Fin was recorded the peer's Fin
comes with the number it had, and no other FinAck comes after the matching one. -/
def Allowed (h : History) : Op → Prop
  | .bufferInFin packet => ∀ n, h.buff.state = .localFinSent n →
      ∀ p ∈ h.recorded, packet.header.packetNumber = p
  | .bufferInFinAck packet => ∀ n ∈ h.matched, packet.header.packetNumber = n
  | _ => True

def Along (P : History → Op → Prop) : History → List Op → Prop
  | _, [] => True
  | h, op :: ops => P h op ∧ Along P (step h op) ops

/-! ### One operation -/

structure Kept (h : History) : Prop where
  same : ∀ p ∈ h.recorded, ∀ q ∈ h.recorded, p = q
  state : ∀ q, h.buff.state = .peerFinReceived q → q ∈ h.recorded
  active : h.buff.state = .active → h.recorded = []
  pending : ∀ q, h.buff.pendingFinAckSend = some q → q ∈ h.recorded
  matched : ∀ n ∈ h.matched, h.buff.receivedFinAckFor = some n

theorem kept_new : Kept .new where
  same := by
    intro p hp
    cases hp
  state := by
    intro q hq
    cases hq
  active := fun _ => rfl
  pending := by
    intro q hq
    cases hq
  matched := by
    intro n hn
    cases hn

theorem bufferInFin_takes (b : CloseBuffer) (packet : BluefinPacket)
    (h : takesFin b.state = true) :
    b.bufferInFin packet = { b with
      state := .peerFinReceived packet.header.packetNumber
      pendingFinAckSend := some packet.header.packetNumber
      peerFinObserved := true } := by
  unfold CloseBuffer.bufferInFin
  dsimp only
  split
  · rfl
  · rfl
  · rename_i hstate
    rw [hstate] at h
    cases h
  · rename_i hstate
    rw [hstate] at h
    cases h

theorem bufferInFin_keeps (b : CloseBuffer) (packet : BluefinPacket)
    (h : takesFin b.state = false) :
    b.bufferInFin packet = b ∨
      b.state = .peerFinReceived packet.header.packetNumber ∧
      b.bufferInFin packet = { b with pendingFinAckSend := some packet.header.packetNumber } := by
  unfold CloseBuffer.bufferInFin
  dsimp only
  split
  · rename_i hstate
    rw [hstate] at h
    cases h
  · rename_i hstate
    rw [hstate] at h
    cases h
  · rename_i finPacketNum hstate
    split
    · rename_i heq
      right
      rw [← heq]
      exact ⟨hstate, rfl⟩
    · exact .inl rfl
  · exact .inl rfl

/-- From `active` nothing was recorded, from `localFinSent` it was the same number. -/
theorem recorded_of_takes {h : History} {packet : BluefinPacket} (hk : Kept h)
    (hallowed : Allowed h (.bufferInFin packet)) (htakes : takesFin h.buff.state = true) :
    ∀ p ∈ packet.header.packetNumber :: h.recorded, p = packet.header.packetNumber := by
  intro p hp
  rcases List.mem_cons.mp hp with hp | hp
  · exact hp
  · cases hstate : h.buff.state with
    | active =>
      rw [hk.active hstate] at hp
      cases hp
    | localFinSent n => exact (hallowed n hstate p hp).symm
    | peerFinReceived q =>
      rw [hstate] at htakes
      cases htakes
    | closed =>
      rw [hstate] at htakes
      cases htakes

theorem kept_fin {h : History} (packet : BluefinPacket) (hk : Kept h)
    (hallowed : Allowed h (.bufferInFin packet)) : Kept (step h (.bufferInFin packet)) := by
  cases htakes : takesFin h.buff.state with
  | true =>
    have hrecorded := recorded_of_takes hk hallowed htakes
    simp only [step, htakes, if_true, bufferInFin_takes _ _ htakes]
    constructor
    case same => exact fun p hp q hq => (hrecorded p hp).trans (hrecorded q hq).symm
    case state =>
      intro q hq
      cases hq
      exact List.mem_cons_self ..
    case active =>
      intro hq
      cases hq
    case pending =>
      intro q hq
      cases hq
      exact List.mem_cons_self ..
    case matched => exact hk.matched
  | false =>
    simp only [step, htakes, Bool.false_eq_true, if_false]
    rcases bufferInFin_keeps _ packet htakes with hsame | ⟨hstate, hagain⟩
    · rw [hsame]
      exact hk
    · rw [hagain]
      refine ⟨hk.same, hk.state, hk.active, ?_, hk.matched⟩
      intro q hq
      cases hq
      exact hk.state _ hstate

theorem kept_finAck {h : History} (packet : BluefinPacket) (hk : Kept h)
    (hallowed : Allowed h (.bufferInFinAck packet)) : Kept (step h (.bufferInFinAck packet)) := by
  refine ⟨hk.same, hk.state, hk.active, hk.pending, ?_⟩
  intro n hn
  simp only [step] at hn
  split at hn
  · rcases List.mem_cons.mp hn with hn | hn
    · rw [hn]
      rfl
    · exact congrArg some (hallowed n hn)
  · exact congrArg some (hallowed n hn)

theorem recordLocalFinSent_takes (b : CloseBuffer) (pn : UInt64)
    (h : takesLocalFin b.state = true) :
    b.recordLocalFinSent pn = { b with state := .localFinSent pn } := by
  unfold CloseBuffer.recordLocalFinSent
  split
  · rfl
  · rfl
  · rename_i hstate
    rw [hstate] at h
    cases h
  · rename_i hstate
    rw [hstate] at h
    cases h

theorem recordLocalFinSent_keeps (b : CloseBuffer) (pn : UInt64)
    (h : takesLocalFin b.state = false) : b.recordLocalFinSent pn = b := by
  unfold CloseBuffer.recordLocalFinSent
  split
  · rename_i hstate
    rw [hstate] at h
    cases h
  · rename_i hstate
    rw [hstate] at h
    cases h
  · rfl
  · rfl

theorem kept_recordLocalFinSent {h : History} (pn : UInt64) (hk : Kept h) :
    Kept (step h (.recordLocalFinSent pn)) := by
  cases htakes : takesLocalFin h.buff.state with
  | true =>
    simp only [step, htakes, if_true, recordLocalFinSent_takes _ _ htakes]
    constructor
    case same => exact hk.same
    case state =>
      intro q hq
      cases hq
    case active =>
      intro hq
      cases hq
    case pending => exact hk.pending
    case matched =>
      intro n hn
      split at hn
      · rename_i hreceived
        rcases List.mem_cons.mp hn with hn | hn
        · rw [hn]
          exact hreceived
        · exact hk.matched n hn
      · exact hk.matched n hn
  | false =>
    simp only [step, htakes, Bool.false_eq_true, if_false, recordLocalFinSent_keeps _ _ htakes]
    exact hk

theorem kept_step {h : History} {op : Op} (hk : Kept h) (hallowed : Allowed h op) :
    Kept (step h op) := by
  cases op with
  | bufferInFin packet => exact kept_fin packet hk hallowed
  | bufferInFinAck packet => exact kept_finAck packet hk hallowed
  | takePendingFinAckSend =>
    refine ⟨hk.same, hk.state, hk.active, ?_, hk.matched⟩
    intro q hq
    cases hq
  | recordLocalFinSent pn => exact kept_recordLocalFinSent pn hk
  | markClosed =>
    refine ⟨hk.same, ?_, ?_, hk.pending, hk.matched⟩
    · intro q hq
      cases hq
    · intro hq
      cases hq

/-- While everything recorded is kept, the condition says when the next operation respects it. -/
theorem ignores_iff {h : History} (op : Op) (hk : Kept h) : Ignores h op ↔ Allowed h op := by
  constructor
  · intro hi
    cases op with
    | bufferInFin packet =>
      intro n hstate p hp
      by_contra hne
      have htakes : takesFin h.buff.state = true := by rw [hstate]; rfl
      obtain ⟨hsame, _⟩ := hi.fin packet rfl p hp hne
      rw [bufferInFin_takes _ _ htakes, hstate] at hsame
      cases hsame
    | bufferInFinAck packet =>
      intro n hn
      have hmem : n ∈ (step h (.bufferInFinAck packet)).matched := by
        simp only [step]
        split
        · exact List.mem_cons_of_mem _ hn
        · exact hn
      exact Option.some.inj (hi.finAck n hmem)
    | takePendingFinAckSend => exact trivial
    | recordLocalFinSent pn => exact trivial
    | markClosed => exact trivial
  · intro hallowed
    have hkept := kept_step hk hallowed
    refine ⟨?_, ?_, hkept.matched⟩
    · rintro packet rfl p hp hne
      cases htakes : takesFin h.buff.state with
      | true =>
        -- the packet's number is recorded now, next to `p`
        have hboth := hkept.same
        simp only [step, htakes, if_true] at hboth
        exact absurd (hboth _ (List.mem_cons_self ..) p (List.mem_cons_of_mem _ hp)) hne
      | false =>
        rcases bufferInFin_keeps _ packet htakes with hsame | ⟨hstate, _⟩
        · rw [hsame]
          exact ⟨rfl, rfl⟩
        · exact absurd (hk.same _ (hk.state _ hstate) p hp) hne
    · rintro rfl p hp q hq
      exact hk.same q (hk.pending q hq) p hp

/-! ### All sequences -/

theorem along_iff (ops : List Op) {h : History} (hk : Kept h) :
    Along Ignores h ops ↔ Along Allowed h ops := by
  induction ops generalizing h with
  | nil => exact Iff.rfl
  | cons op ops ih =>
    rw [Along, Along, ignores_iff op hk]
    constructor
    · rintro ⟨hallowed, hrest⟩
      exact ⟨hallowed, (ih (kept_step hk hallowed)).mp hrest⟩
    · rintro ⟨hallowed, hrest⟩
      exact ⟨hallowed, (ih (kept_step hk hallowed)).mpr hrest⟩

/-- A sequence of operations respects all that was recorded exactly if each of them meets the
condition. -/
theorem mismatches_ignored_iff (ops : List Op) :
    Along Ignores .new ops ↔ Along Allowed .new ops :=
  along_iff ops kept_new

def finPacket (pn : UInt64) : BluefinPacket := Close.controlPacket 2 1 .fin pn

def finAckPacket (pn : UInt64) : BluefinPacket := Close.controlPacket 2 1 .finAck pn

/-- The peer's Fin 5, the local Fin 9, and a Fin 6: the buffer now owes a FinAck for 6. The local
Fin 9, its FinAck, and a FinAck 3: the slot holds 3. -/
theorem mismatches_accepted :
    ¬ Along Ignores .new [.bufferInFin (finPacket 5), .recordLocalFinSent 9,
      .bufferInFin (finPacket 6), .takePendingFinAckSend] ∧
    (((CloseBuffer.new.bufferInFin (finPacket 5)).recordLocalFinSent 9).bufferInFin
      (finPacket 6)).takePendingFinAckSend.1 = some 6 ∧
    ¬ Along Ignores .new [.recordLocalFinSent 9, .bufferInFinAck (finAckPacket 9),
      .bufferInFinAck (finAckPacket 3)] ∧
    (((CloseBuffer.new.recordLocalFinSent 9).bufferInFinAck (finAckPacket 9)).bufferInFinAck
      (finAckPacket 3)).receivedFinAckFor = some 3 := by
  refine ⟨?_, rfl, ?_, rfl⟩
  · rintro ⟨_, _, hfin, _⟩
    obtain ⟨hstate, _⟩ := hfin.fin (finPacket 6) rfl 5 (List.mem_cons_self ..) (by decide)
    cases hstate
  · rintro ⟨_, _, hfinAck, _⟩
    have hslot := hfinAck.finAck 9 (List.mem_cons_self ..)
    cases hslot

end CloseRecord

end Bluefin
