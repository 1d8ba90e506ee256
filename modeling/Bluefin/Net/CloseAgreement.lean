import Bluefin.Net.Close

/-!
# What two endpoints know of each other after a close

A FinAck stands for a Fin that the other endpoint has processed: its number went
from `buffer_in_fin` through the slot of the close buffer, a reader task, the
channel and the drainer, and each of these holds only numbers of processed Fins.
`close()` returns `Ok` on the FinAck of its own number alone.
-/

namespace Bluefin
open Base

namespace Close

def ClosePc.finNumber : ClosePc → Option UInt64
  | .idle => none
  | .record finPn => some finPn
  | .sendFin finPn _ => some finPn
  | .register finPn _ => some finPn
  | .check finPn _ _ => some finPn
  | .wait finPn _ _ => some finPn
  | .recheck finPn _ => some finPn
  | .markClosed finPn _ => some finPn
  | .returned finPn _ => some finPn

/-- The call has found its FinAck. -/
def ClosePc.confirmed : ClosePc → Option UInt64
  | .markClosed finPn (.ok _) => some finPn
  | .returned finPn (.ok _) => some finPn
  | _ => none

theorem wake_finNumber (c : ClosePc) : c.wake.finNumber = c.finNumber := by
  cases c <;> rfl

theorem wake_confirmed (c : ClosePc) : c.wake.confirmed = c.confirmed := by
  cases c <;> rfl

theorem nextAttempt_finNumber (finPn : UInt64) (attempt : ℕ) :
    (nextAttempt finPn attempt).finNumber = some finPn := by
  unfold nextAttempt
  split <;> rfl

theorem nextAttempt_confirmed (finPn : UInt64) (attempt : ℕ) :
    (nextAttempt finPn attempt).confirmed = none := by
  unfold nextAttempt
  split <;> rfl

/-! ### What one step can do -/

/-- A step of `close()` that leaves everything else as it is keeps its number, and confirms it only
with the FinAck in the slot. -/
structure Advances (e : Endpoint) (pc : ClosePc) : Prop where
  number : ∀ pn, e.closer.finNumber = some pn → pc.finNumber = some pn
  confirmed : ∀ pn, pc.confirmed = some pn → e.closeBuff.receivedFinAckFor = some pn

section

variable (srcConnId dstConnId : UInt32)

inductive Moves (incoming : List Bytes) (e : Endpoint) : Endpoint → Prop
  | receive (d : Bytes) (e' : Endpoint) (hd : d ∈ incoming) (he : receive e d = some e') :
      Moves incoming e e'
  | handOver (pn : UInt64) (pre post : List UInt64) (hhanding : e.handing = pre ++ pn :: post) :
      Moves incoming e { e with
        handing := pre ++ post
        finAckTx := ConnReaderHandler.trySendFinAck e.finAckTx (some pn) }
  | drainerTake (pn : UInt64) (queue : List UInt64) (htx : e.finAckTx = some (pn :: queue)) :
      Moves incoming e { e with drainer := some pn, finAckTx := some queue }
  | drainerSend (pn : UInt64) (hdrainer : e.drainer = some pn) :
      Moves incoming e { e with
        drainer := none, wire := e.wire ++ [controlDatagram srcConnId dstConnId .finAck pn] }
  | drainerFails : Moves incoming e { e with drainer := none }
  | record (finPn : UInt64) (hpc : e.closer = .record finPn) :
      Moves incoming e { e with
        closeBuff := e.closeBuff.recordLocalFinSent finPn, closer := .sendFin finPn 0 }
  | sendFin (finPn : UInt64) (attempt : ℕ) (hpc : e.closer = .sendFin finPn attempt) :
      Moves incoming e { e with
        wire := e.wire ++ [controlDatagram srcConnId dstConnId .fin finPn]
        closer := .register finPn attempt }
  | markClosed (finPn : UInt64) (res : BluefinResult Unit) (hpc : e.closer = .markClosed finPn res) :
      Moves incoming e { e with
        closeBuff := e.closeBuff.markClosed, closer := .returned finPn res }
  | advance (pc : ClosePc) (hpc : Advances e pc) : Moves incoming e { e with closer := pc }

variable {srcConnId dstConnId}

theorem advances_check {e : Endpoint} {finPn : UInt64} {pc : ClosePc}
    (hnumber : e.closer.finNumber = some finPn) (hpc : pc.finNumber = some finPn)
    (hnone : pc.confirmed = none) :
    Advances e (if e.closeBuff.receivedFinAckFor = some finPn then .markClosed finPn (.ok ())
      else pc) := by
  split
  · rename_i hreceived
    refine ⟨fun pn h => by rw [← h, hnumber]; rfl, fun pn h => ?_⟩
    cases h
    exact hreceived
  · refine ⟨fun pn h => by rw [← h, hnumber, hpc], fun pn h => ?_⟩
    rw [hnone] at h
    cases h

theorem advances_plain {e : Endpoint} {pc : ClosePc}
    (hnumber : e.closer.finNumber = none ∨ pc.finNumber = e.closer.finNumber)
    (hnone : pc.confirmed = none) : Advances e pc := by
  refine ⟨fun pn h => ?_, fun pn h => ?_⟩
  · rcases hnumber with hnumber | hnumber
    · rw [hnumber] at h
      cases h
    · rw [hnumber, h]
  · rw [hnone] at h
    cases h

theorem closeStep_moves {incoming : List Bytes} {e e' : Endpoint}
    (h : closeStep srcConnId dstConnId e = some e') :
    Moves srcConnId dstConnId incoming e e' := by
  unfold closeStep at h
  split at h
  · cases h
  · rename_i finPn hpc
    cases h
    exact .record finPn hpc
  · rename_i finPn attempt hpc
    cases h
    exact .sendFin finPn attempt hpc
  · rename_i finPn attempt hpc
    cases h
    exact .advance _ (advances_plain (.inr (by rw [hpc]; rfl)) rfl)
  · rename_i finPn attempt notified hpc
    cases h
    exact .advance _ (advances_check (by rw [hpc]; rfl) rfl rfl)
  · rename_i finPn attempt hpc
    cases h
    exact .advance _ (advances_plain (.inr (by rw [hpc]; rfl)) rfl)
  · cases h
  · rename_i finPn attempt hpc
    cases h
    exact .advance _ (advances_check (by rw [hpc]; rfl) (nextAttempt_finNumber ..)
      (nextAttempt_confirmed ..))
  · rename_i finPn res hpc
    cases h
    exact .markClosed finPn res hpc
  · cases h

theorem moves_of_step {incoming : List Bytes} {e e' : Endpoint} {act : Action}
    (h : e.step srcConnId dstConnId incoming act = some e') :
    Moves srcConnId dstConnId incoming e e' := by
  cases act with
  | deliver i =>
    obtain ⟨d, hd, he⟩ := Option.bind_eq_some_iff.mp h
    exact .receive d e' (List.mem_of_getElem? hd) he
  | handOver i =>
    obtain ⟨pn, hpn, rfl⟩ := Option.map_eq_some_iff.mp h
    obtain ⟨pre, post, hhanding, -, herase⟩ := split_at hpn
    rw [herase]
    exact .handOver pn pre post hhanding
  | drainerTake =>
    simp only [Endpoint.step] at h
    split at h
    · rename_i pn queue hdrainer htx
      cases h
      exact .drainerTake pn queue htx
    · cases h
  | drainerSend =>
    obtain ⟨pn, hpn, rfl⟩ := Option.map_eq_some_iff.mp h
    exact .drainerSend pn hpn
  | drainerFails =>
    obtain ⟨pn, hpn, rfl⟩ := Option.map_eq_some_iff.mp h
    exact .drainerFails
  | closeBegin finPn =>
    simp only [Endpoint.step] at h
    split at h
    · rename_i hpc
      cases h
      exact .advance _ (advances_plain (.inl (by rw [hpc]; rfl)) rfl)
    · cases h
  | close => exact closeStep_moves h
  | timeout =>
    simp only [Endpoint.step] at h
    split at h
    · rename_i finPn attempt hpc
      cases h
      exact .advance _ (advances_plain (.inr (by rw [hpc, nextAttempt_finNumber]; rfl))
        (nextAttempt_confirmed ..))
    · cases h
  | sendFails err =>
    simp only [Endpoint.step] at h
    split at h
    · rename_i finPn attempt hpc
      cases h
      exact .advance _ (advances_plain (.inr (by rw [hpc]; rfl)) rfl)
    · cases h

end

/-! ### A closed buffer -/

theorem bufferInClose_closed {guard guard' : CloseBuffer} {sawFin : Bool}
    {res : BluefinResult Bool} {packets : List BluefinPacket} (hclosed : guard.state = .closed)
    (h : ConnReaderHandler.bufferInClose guard sawFin packets = (res, guard')) :
    guard'.state = .closed := by
  induction packets generalizing guard sawFin with
  | nil =>
    cases h
    exact hclosed
  | cons p packets ih =>
    unfold ConnReaderHandler.bufferInClose at h
    split at h
    · have hsame : guard.bufferInFin p = guard := by simp only [CloseBuffer.bufferInFin, hclosed]
      rw [hsame] at h
      exact ih hclosed h
    · have hkeeps : (guard.bufferInFinAck p).state = .closed := hclosed
      exact ih hkeeps h
    · cases h
      exact hclosed

theorem receiveClose_frame {e e' : Endpoint} {packets : List BluefinPacket}
    (h : receiveClose e packets = some e') : e'.wire = e.wire ∧
      (e.closeBuff.state = .closed → e'.closeBuff.state = .closed) := by
  rcases hres : ConnReaderHandler.bufferInClose e.closeBuff false packets with ⟨res, guard⟩
  have hguard : e.closeBuff.state = .closed → guard.state = .closed :=
    fun hclosed => bufferInClose_closed hclosed hres
  cases res with
  | ok sawFin =>
    cases sawFin <;>
    · simp only [receiveClose, hres, CloseBuffer.takePendingFinAckSend] at h
      cases h
      exact ⟨rfl, hguard⟩
  | err _ | panicked _ =>
    simp only [receiveClose, hres] at h
    cases h

theorem receive_frame {e e' : Endpoint} {d : Bytes} (h : receive e d = some e') :
    e'.wire = e.wire ∧ (e.closeBuff.state = .closed → e'.closeBuff.state = .closed) := by
  unfold receive at h
  split at h
  · cases h
  · cases h
    exact ⟨rfl, fun hclosed => hclosed⟩
  · cases h
    exact ⟨rfl, fun hclosed => hclosed⟩
  · split at h
    · exact receiveClose_frame h
    · exact receiveClose_frame h
    · cases h
      exact ⟨rfl, fun hclosed => hclosed⟩

theorem closed_moves {srcConnId dstConnId : UInt32} {incoming : List Bytes} {e e' : Endpoint}
    (h : Moves srcConnId dstConnId incoming e e') (hclosed : e.closeBuff.state = .closed) :
    e'.closeBuff.state = .closed := by
  cases h with
  | receive d e' hd he => exact (receive_frame he).2 hclosed
  | record finPn hpc => simp only [CloseBuffer.recordLocalFinSent, hclosed]
  | markClosed => rfl
  | _ => exact hclosed

/-! ### The datagrams of a side -/

theorem controlDatagram_inj {srcConnId dstConnId : UInt32} {t t' : PacketType} {pn pn' : UInt64}
    (ht : t ≠ .unencryptedData) (ht' : t' ≠ .unencryptedData)
    (h : controlDatagram srcConnId dstConnId t pn = controlDatagram srcConnId dstConnId t' pn') :
    t = t' ∧ pn = pn' := by
  have hread := @fromBytesInto_control srcConnId dstConnId t ht pn
  rw [h, fromBytesInto_control ht'] at hread
  simp only [Prod.mk.injEq, List.cons.injEq, and_true, true_and] at hread
  have htype := congrArg (fun p => p.header.typeField) hread
  have hnumber := congrArg (fun p => p.header.packetNumber) hread
  exact ⟨htype.symm, hnumber.symm⟩

theorem bufferInFin_cases (b : CloseBuffer) (p : BluefinPacket) :
    b.bufferInFin p = b ∨
      (b.bufferInFin p).state = .peerFinReceived p.header.packetNumber ∧
      (b.bufferInFin p).pendingFinAckSend = some p.header.packetNumber ∧
      (b.bufferInFin p).receivedFinAckFor = b.receivedFinAckFor ∧
      ((b.bufferInFin p).peerFinObserved = true ∨
        b.state = .peerFinReceived p.header.packetNumber ∧
        (b.bufferInFin p).peerFinObserved = b.peerFinObserved) := by
  unfold CloseBuffer.bufferInFin
  dsimp only
  split
  · exact .inr ⟨rfl, rfl, rfl, .inl rfl⟩
  · exact .inr ⟨rfl, rfl, rfl, .inl rfl⟩
  · rename_i finPacketNum hstate
    split
    · rename_i heq
      rw [← heq]
      exact .inr ⟨hstate, rfl, rfl, .inr ⟨hstate, rfl⟩⟩
    · exact .inl rfl
  · exact .inl rfl

/-! ### What a side knows of its peer -/

/-- The number is that of a Fin which the endpoint has processed and observed. -/
def Answered (e : Endpoint) (pn : UInt64) : Prop :=
  pn ∈ e.processed ∧ e.closeBuff.peerFinObserved = true

/-- The numbers on their way from the close buffer to a FinAck. -/
def owing (e : Endpoint) : List UInt64 :=
  e.closeBuff.pendingFinAckSend.toList ++ (e.handing ++ (e.finAckTx.getD [] ++ e.drainer.toList))

section

variable (ids : Side → UInt32)

structure Sound (x : Side) (e : Endpoint) (incoming : List Bytes) : Prop where
  observed : e.closeBuff.peerFinObserved = true → e.processed ≠ []
  processed : ∀ pn ∈ e.processed, datagram ids x.peer .fin pn ∈ incoming
  state : ∀ pn, e.closeBuff.state = .peerFinReceived pn → Answered e pn
  owing : ∀ pn ∈ owing e, Answered e pn
  received : ∀ pn, e.closeBuff.receivedFinAckFor = some pn →
    datagram ids x.peer .finAck pn ∈ incoming
  confirmed : ∀ pn, e.closer.confirmed = some pn → datagram ids x.peer .finAck pn ∈ incoming
  wire : ∀ d ∈ e.wire, (∃ pn, d = datagram ids x .fin pn ∧ e.closer.finNumber = some pn) ∨
    ∃ pn, d = datagram ids x .finAck pn ∧ Answered e pn

variable {ids}

theorem Sound.more {x : Side} {e : Endpoint} {incoming incoming' : List Bytes}
    (h : Sound ids x e incoming) (hsub : ∀ d ∈ incoming, d ∈ incoming') :
    Sound ids x e incoming' where
  observed := h.observed
  processed pn hpn := hsub _ (h.processed pn hpn)
  state := h.state
  owing := h.owing
  received pn hpn := hsub _ (h.received pn hpn)
  confirmed pn hpn := hsub _ (h.confirmed pn hpn)
  wire := h.wire

theorem sound_new (x : Side) : Sound ids x .new [] where
  observed h := by cases h
  processed pn hpn := by cases hpn
  state pn h := by cases h
  owing pn hpn := by simp [Close.owing, Endpoint.new, CloseBuffer.new] at hpn
  received pn h := by cases h
  confirmed pn h := by cases h
  wire d hd := by cases hd

theorem wire_grows {srcConnId dstConnId : UInt32} {incoming : List Bytes} {e e' : Endpoint}
    (h : Moves srcConnId dstConnId incoming e e') : ∀ d ∈ e.wire, d ∈ e'.wire := by
  intro d hd
  cases h with
  | receive d' e' hd' he => rwa [(receive_frame he).1]
  | drainerSend | sendFin => exact List.mem_append_left _ hd
  | _ => exact hd

theorem sound_fin {x : Side} {e : Endpoint} {incoming : List Bytes} {pn : UInt64}
    (hin : datagram ids x.peer .fin pn ∈ incoming) (h : Sound ids x e incoming) {e' : Endpoint}
    (he : receive e (datagram ids x.peer .fin pn) = some e') : Sound ids x e' incoming := by
  rw [datagram, receive_fin] at he
  generalize hp : controlPacket (ids x.peer) (ids x.peer.peer) .fin pn = p at he
  have hpn : p.header.packetNumber = pn := by
    rw [← hp]
    rfl
  have hcases := bufferInFin_cases e.closeBuff p
  have hflag := CloseBuffer.bufferInFin_flag e.closeBuff p
  rw [hpn] at hcases
  generalize e.closeBuff.bufferInFin p = b at he hcases hflag
  -- an ignored Fin moves what was pending; any other is observed and answered
  have hfin : b = e.closeBuff ∨ b.state = .peerFinReceived pn ∧ b.pendingFinAckSend = some pn ∧
      b.receivedFinAckFor = e.closeBuff.receivedFinAckFor ∧ b.peerFinObserved = true := by
    rcases hcases with hsame | ⟨hstate, hpending, hreceived, hobserved | ⟨hstate', hsame⟩⟩
    · exact .inl hsame
    · exact .inr ⟨hstate, hpending, hreceived, hobserved⟩
    · exact .inr ⟨hstate, hpending, hreceived, hsame.trans (h.state pn hstate').2⟩
  cases he
  have hgrows : ∀ q, Answered e q → Answered { e with
      closeBuff := { b with pendingFinAckSend := none }
      handing := e.handing ++ b.pendingFinAckSend.toList
      processed := e.processed ++ [pn] } q :=
    fun q hq => ⟨List.mem_append_left _ hq.1, hflag hq.2⟩
  have hlast : pn ∈ e.processed ++ [pn] := List.mem_append_right _ (List.mem_singleton_self _)
  refine ⟨fun _ => by simp, fun q hq => ?_, fun q hq => ?_, fun q hq => ?_, fun q hq => ?_,
    h.confirmed, fun d hd => ?_⟩
  · rcases List.mem_append.mp hq with hq | hq
    · exact h.processed q hq
    · rw [List.mem_singleton.mp hq]
      exact hin
  · rcases hfin with rfl | ⟨hstate, -, -, hobserved⟩
    · exact hgrows q (h.state q hq)
    · cases hstate.symm.trans hq
      exact ⟨hlast, hobserved⟩
  · simp only [Close.owing, Option.toList_none, List.nil_append, List.mem_append] at hq
    rcases hq with (hq | hq) | hq
    · exact hgrows q (h.owing q (by simp [Close.owing, hq]))
    · rcases hfin with rfl | ⟨-, hpending, -, hobserved⟩
      · exact hgrows q (h.owing q (List.mem_append_left _ hq))
      · rw [hpending, Option.toList_some, List.mem_singleton] at hq
        rw [hq]
        exact ⟨hlast, hobserved⟩
    · exact hgrows q (h.owing q (by simp only [Close.owing, List.mem_append, hq, or_true]))
  · rcases hfin with rfl | ⟨-, -, hreceived, -⟩
    · exact h.received q hq
    · exact h.received q (hreceived ▸ hq)
  · rcases h.wire d hd with hsent | ⟨q, hq, hanswered⟩
    · exact .inl hsent
    · exact .inr ⟨q, hq, hgrows q hanswered⟩

theorem sound_finAck {x : Side} {e : Endpoint} {incoming : List Bytes} {pn : UInt64}
    (hin : datagram ids x.peer .finAck pn ∈ incoming) (h : Sound ids x e incoming) {e' : Endpoint}
    (he : receive e (datagram ids x.peer .finAck pn) = some e') : Sound ids x e' incoming := by
  rw [datagram, receive_finAck] at he
  cases he
  refine ⟨h.observed, h.processed, h.state, h.owing, fun pn' hpn' => ?_, ?_, ?_⟩
  · cases hpn'
    exact hin
  · simpa only [wake_confirmed] using h.confirmed
  · simp only [wake_finNumber]
    exact h.wire

theorem mem_trySendFinAck {tx : Option (List UInt64)} {pn q : UInt64}
    (h : q ∈ (ConnReaderHandler.trySendFinAck tx (some pn)).getD []) : q ∈ tx.getD [] ∨ q = pn := by
  cases tx with
  | none => exact .inl h
  | some queue =>
    simp only [ConnReaderHandler.trySendFinAck, Option.getD_some] at h
    split at h
    · rcases List.mem_append.mp h with h | h
      · exact .inl h
      · exact .inr (List.mem_singleton.mp h)
    · exact .inl h

theorem owing_drained {e : Endpoint} {wire : List Bytes} {q : UInt64}
    (h : q ∈ owing { e with drainer := none, wire := wire }) : q ∈ owing e := by
  simp only [owing, Option.toList_none, List.append_nil, List.mem_append] at h ⊢
  rcases h with h | h | h
  · exact .inl h
  · exact .inr (.inl h)
  · exact .inr (.inr (.inl h))

theorem recordLocalFinSent_frame (b : CloseBuffer) (pn : UInt64) :
    (b.recordLocalFinSent pn).pendingFinAckSend = b.pendingFinAckSend ∧
      (b.recordLocalFinSent pn).receivedFinAckFor = b.receivedFinAckFor ∧
      (b.recordLocalFinSent pn).peerFinObserved = b.peerFinObserved ∧
      ∀ q, (b.recordLocalFinSent pn).state ≠ .peerFinReceived q := by
  unfold CloseBuffer.recordLocalFinSent
  split
  · exact ⟨rfl, rfl, rfl, nofun⟩
  · exact ⟨rfl, rfl, rfl, nofun⟩
  · rename_i hstate
    exact ⟨rfl, rfl, rfl, by simp [hstate]⟩
  · rename_i hstate
    exact ⟨rfl, rfl, rfl, by simp [hstate]⟩

theorem owing_handOver {e : Endpoint} {pn q : UInt64} {pre post : List UInt64}
    (hhanding : e.handing = pre ++ pn :: post)
    (h : q ∈ owing { e with
      handing := pre ++ post
      finAckTx := ConnReaderHandler.trySendFinAck e.finAckTx (some pn) }) : q ∈ owing e := by
  simp only [owing, hhanding, List.mem_append, List.mem_cons] at h ⊢
  rcases h with h | (h | h) | h | h
  · exact .inl h
  · exact .inr (.inl (.inl h))
  · exact .inr (.inl (.inr (.inr h)))
  · rcases mem_trySendFinAck h with h | h
    · exact .inr (.inr (.inl h))
    · exact .inr (.inl (.inr (.inl h)))
  · exact .inr (.inr (.inr h))

theorem owing_taken {e : Endpoint} {pn q : UInt64} {queue : List UInt64}
    (htx : e.finAckTx = some (pn :: queue))
    (h : q ∈ owing { e with drainer := some pn, finAckTx := some queue }) : q ∈ owing e := by
  simp only [owing, htx, List.mem_append, Option.getD_some, Option.toList_some, List.mem_cons,
    List.not_mem_nil, or_false] at h ⊢
  rcases h with h | h | h | h
  · exact .inl h
  · exact .inr (.inl h)
  · exact .inr (.inr (.inl (.inr h)))
  · exact .inr (.inr (.inl (.inl h)))

theorem Sound.wire_number {x : Side} {e : Endpoint} {incoming : List Bytes} {pc : ClosePc}
    (h : Sound ids x e incoming)
    (hpc : ∀ pn, e.closer.finNumber = some pn → pc.finNumber = some pn) :
    ∀ d ∈ e.wire, (∃ pn, d = datagram ids x .fin pn ∧ pc.finNumber = some pn) ∨
      ∃ pn, d = datagram ids x .finAck pn ∧ Answered e pn := by
  intro d hd
  rcases h.wire d hd with ⟨pn, hpn, hnumber⟩ | hacked
  · exact .inl ⟨pn, hpn, hpc pn hnumber⟩
  · exact .inr hacked

theorem sound_moves {x : Side} {e e' : Endpoint} {incoming : List Bytes}
    (hmoves : Moves (ids x) (ids x.peer) incoming e e')
    (hin : ∀ d ∈ incoming, (∃ pn, d = datagram ids x.peer .fin pn) ∨
      ∃ pn, d = datagram ids x.peer .finAck pn)
    (h : Sound ids x e incoming) : Sound ids x e' incoming := by
  cases hmoves with
  | receive d e' hd he =>
    rcases hin d hd with ⟨pn, rfl⟩ | ⟨pn, rfl⟩
    · exact sound_fin hd h he
    · exact sound_finAck hd h he
  | handOver pn pre post hhanding =>
    exact ⟨h.observed, h.processed, h.state, fun q hq => h.owing q (owing_handOver hhanding hq),
      h.received, h.confirmed, h.wire⟩
  | drainerTake pn queue htx =>
    exact ⟨h.observed, h.processed, h.state, fun q hq => h.owing q (owing_taken htx hq),
      h.received, h.confirmed, h.wire⟩
  | drainerSend pn hdrainer =>
    refine ⟨h.observed, h.processed, h.state, fun q hq => h.owing q (owing_drained hq), h.received,
      h.confirmed, fun d hd => ?_⟩
    rcases List.mem_append.mp hd with hd | hd
    · exact h.wire d hd
    · exact .inr ⟨pn, List.mem_singleton.mp hd, h.owing pn (by simp [Close.owing, hdrainer])⟩
  | drainerFails =>
    exact ⟨h.observed, h.processed, h.state, fun q hq => h.owing q (owing_drained hq), h.received,
      h.confirmed, h.wire⟩
  | record finPn hpc =>
    obtain ⟨hpending, hreceived, hobserved, hstate⟩ := recordLocalFinSent_frame e.closeBuff finPn
    have hanswered : ∀ q, Answered e q → Answered { e with
        closeBuff := e.closeBuff.recordLocalFinSent finPn, closer := .sendFin finPn 0 } q :=
      fun q hq => ⟨hq.1, hobserved.trans hq.2⟩
    have hnumber : ∀ q, e.closer.finNumber = some q → (ClosePc.sendFin finPn 0).finNumber = some q :=
      fun q hq => by rwa [hpc] at hq
    refine ⟨fun ho => h.observed (hobserved ▸ ho), h.processed,
      fun q hq => absurd hq (hstate q), fun q hq => hanswered q (h.owing q ?_),
      fun q hq => h.received q (hreceived ▸ hq), nofun, fun d hd => ?_⟩
    · rwa [Close.owing, hpending] at hq
    · rcases h.wire_number hnumber d hd with hsent | ⟨q, hq, hq'⟩
      · exact .inl hsent
      · exact .inr ⟨q, hq, hanswered q hq'⟩
  | sendFin finPn attempt hpc =>
    have hnumber : ∀ q, e.closer.finNumber = some q →
        (ClosePc.register finPn attempt).finNumber = some q :=
      fun q hq => by rwa [hpc] at hq
    refine ⟨h.observed, h.processed, h.state, h.owing, h.received, nofun, fun d hd => ?_⟩
    rcases List.mem_append.mp hd with hd | hd
    · exact h.wire_number hnumber d hd
    · exact .inl ⟨finPn, List.mem_singleton.mp hd, rfl⟩
  | markClosed finPn res hpc =>
    have hnumber : ∀ q, e.closer.finNumber = some q →
        (ClosePc.returned finPn res).finNumber = some q :=
      fun q hq => by rwa [hpc] at hq
    refine ⟨h.observed, h.processed, nofun, h.owing, h.received, fun q hq => h.confirmed q ?_,
      h.wire_number hnumber⟩
    rw [hpc]
    cases res with
    | ok _ => exact hq
    | err _ | panicked _ => cases hq
  | advance pc hpc =>
    exact ⟨h.observed, h.processed, h.state, h.owing, h.received,
      fun q hq => h.received q (hpc.confirmed q hq), h.wire_number hpc.number⟩

/-! ### Runs of the two sides -/

theorem step_cases {st st' : State} {act : Side × Action} (h : step ids st act = some st') :
    ∃ e', Moves (ids act.1) (ids act.1.peer) (st act.1.peer).wire (st act.1) e' ∧
      st' = Function.update st act.1 e' := by
  obtain ⟨e', he, rfl⟩ := Option.map_eq_some_iff.mp h
  exact ⟨e', moves_of_step he, rfl⟩

theorem sound_run {acts : List (Side × Action)} {st : State}
    (hr : Run (Step ids) init acts st) : ∀ x, Sound ids x (st x) (st x.peer).wire := by
  refine Run.invariant (P := fun _ st => ∀ x, Sound ids x (st x) (st x.peer).wire) sound_new ?_ hr
  intro acts st act st' _ hsound hstep x
  obtain ⟨e', hmoves, rfl⟩ := step_cases hstep
  obtain ⟨y, a⟩ := act
  by_cases hxy : x = y
  · subst hxy
    rw [Function.update_self, Function.update_of_ne x.peer_ne]
    refine sound_moves hmoves (fun d hd => ?_) (hsound x)
    rcases (hsound x.peer).wire d hd with ⟨pn, hpn, -⟩ | ⟨pn, hpn, -⟩
    · exact .inl ⟨pn, hpn⟩
    · exact .inr ⟨pn, hpn⟩
  · rw [Side.eq_peer hxy, Function.update_self, Function.update_of_ne hxy]
    have hold := hsound x
    rw [Side.eq_peer hxy] at hold
    exact hold.more (wire_grows hmoves)

theorem closed_run {st st' : State} {acts : List (Side × Action)} {x : Side}
    (hclosed : (st x).closeBuff.state = .closed) (hr : Run (Step ids) st acts st') :
    (st' x).closeBuff.state = .closed := by
  induction hr with
  | nil => exact hclosed
  | snoc hr hs ih =>
    rename_i act s t
    obtain ⟨e', hmoves, rfl⟩ := step_cases hs
    by_cases hx : x = act.1
    · subst hx
      rw [Function.update_self]
      exact closed_moves hmoves ih
    · rw [Function.update_of_ne hx]
      exact ih

theorem sent_finAck {x : Side} {e : Endpoint} {incoming : List Bytes} {pn : UInt64}
    (h : Sound ids x e incoming) (hd : datagram ids x .finAck pn ∈ e.wire) : Answered e pn := by
  rcases h.wire _ hd with ⟨q, hq, -⟩ | ⟨q, hq, hanswered⟩
  · have htype := (controlDatagram_inj (by decide) (by decide) hq).1
    cases htype
  · rw [(controlDatagram_inj (by decide) (by decide) hq).2]
    exact hanswered

theorem sent_fin {x : Side} {e : Endpoint} {incoming : List Bytes} {pn : UInt64}
    (h : Sound ids x e incoming) (hd : datagram ids x .fin pn ∈ e.wire) :
    e.closer.finNumber = some pn := by
  rcases h.wire _ hd with ⟨q, hq, hnumber⟩ | ⟨q, hq, -⟩
  · rw [(controlDatagram_inj (by decide) (by decide) hq).2]
    exact hnumber
  · have htype := (controlDatagram_inj (by decide) (by decide) hq).1
    cases htype

/-- In every reachable state: a `close()` that has returned `Ok` means that the
peer has processed and observed a Fin of just that number, which is the number of
every Fin of the call; a Fin is observed only if the peer has sent one; and a
closed buffer stays closed in every continuation. -/
theorem close_agreement {acts : List (Side × Action)} {st : State}
    (hr : Run (Step ids) init acts st) (x : Side) :
    (∀ pn, (st x).closer = .returned pn (.ok ()) →
        pn ∈ (st x.peer).processed ∧ (st x.peer).closeBuff.peerFinObserved = true) ∧
      (∀ pn, datagram ids x .fin pn ∈ (st x).wire → (st x).closer.finNumber = some pn) ∧
      ((st x).closeBuff.peerFinObserved = true →
        ∃ pn, datagram ids x.peer .fin pn ∈ (st x.peer).wire) ∧
      ((st x).closeBuff.state = .closed → ∀ acts' st', Run (Step ids) st acts' st' →
        (st' x).closeBuff.state = .closed) := by
  have hsound := sound_run hr
  refine ⟨fun pn hpc => ?_, fun pn hd => sent_fin (hsound x) hd, fun hobserved => ?_,
    fun hclosed acts' st' hr' => closed_run hclosed hr'⟩
  · have hconfirmed := (hsound x).confirmed pn (by rw [hpc]; rfl)
    exact sent_finAck (hsound x.peer) hconfirmed
  · obtain ⟨pn, hpn⟩ := List.exists_mem_of_ne_nil _ ((hsound x).observed hobserved)
    exact ⟨pn, (hsound x).processed pn hpn⟩

end

/-- Both sides close at once, the first Fin of `a` is lost, and `a` gets its FinAck after a
retransmission. -/
def crossedClose : List (Side × Action) :=
  [(.a, .closeBegin 7), (.b, .closeBegin 40), (.a, .close), (.b, .close), (.a, .close),
    (.b, .close), (.a, .close), (.a, .close), (.a, .deliver 0), (.a, .timeout), (.a, .close),
    (.b, .deliver 1), (.b, .handOver 0), (.b, .drainerTake), (.b, .drainerSend), (.a, .close),
    (.a, .deliver 1), (.a, .close), (.a, .close)]

def twoIds : Side → UInt32
  | .a => 1
  | .b => 2

theorem close_agreement_crossed : ∃ st, Run (Step twoIds) init crossedClose st ∧
    (st .a).closer = .returned 7 (.ok ()) ∧ 7 ∈ (st .b).processed ∧
    (st .b).closeBuff.peerFinObserved = true := by
  have hcomputed : ((crossedClose.foldlM (step twoIds) init).map fun st => (st .a).closer) =
      some (.returned 7 (.ok ())) := by
    decide +kernel
  obtain ⟨st, hr, hcloser⟩ := Run.exists_of_foldlM _ crossedClose (fun _ _ _ _ h => h) hcomputed
  exact ⟨st, hr, hcloser, (close_agreement hr .a).1 7 hcloser⟩

end Close

end Bluefin
