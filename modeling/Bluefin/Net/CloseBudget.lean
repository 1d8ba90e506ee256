import Bluefin.Net.TearDown

/-!
# What a call of `close()` comes to (connection.rs:500-539)

The loop of `close()` sends the Fin at most three times and waits for a FinAck after
each. A FinAck that came is never overlooked: the call registers for the notification
before it looks (`close_outcome`), so that it takes no timeout after it
(`finAck_decides`). The loop is bounded, and the call returns after at most 17 steps of
its own, whatever the peer and the network do (`close_returns`). A peer whose own
`close()` is over answers no Fin any more (`closed_peer_silent`).
-/

namespace Bluefin
open Base

namespace Close

/-! ### The Fins of a side -/

def finsIn (datagram : Bytes) : List UInt64 :=
  match BluefinPacket.fromBytesInto datagram [] with
  | (.ok _, packets) => finNumbers packets
  | _ => []

/-- The numbers of the Fins that went out, in order. -/
def finsOn (wire : List Bytes) : List UInt64 := wire.flatMap finsIn

theorem finsOn_fin (wire : List Bytes) (srcConnId dstConnId : UInt32) (pn : UInt64) :
    finsOn (wire ++ [controlDatagram srcConnId dstConnId .fin pn]) = finsOn wire ++ [pn] := by
  have hone : finsIn (controlDatagram srcConnId dstConnId .fin pn) = [pn] := by
    rw [finsIn, fromBytesInto_control (by decide)]
    rfl
  rw [finsOn, List.flatMap_append, List.flatMap_singleton, hone, finsOn]

theorem finsOn_finAck (wire : List Bytes) (srcConnId dstConnId : UInt32) (pn : UInt64) :
    finsOn (wire ++ [controlDatagram srcConnId dstConnId .finAck pn]) = finsOn wire := by
  have hnone : finsIn (controlDatagram srcConnId dstConnId .finAck pn) = [] := by
    rw [finsIn, fromBytesInto_control (by decide)]
    rfl
  rw [finsOn, List.flatMap_append, List.flatMap_singleton, hnone, List.append_nil, finsOn]

/-- How many Fins the call has sent when it is at this point. -/
def ClosePc.SentFins : ClosePc → ℕ → Prop
  | .idle, n => n = 0
  | .record _, n => n = 0
  | .sendFin _ attempt, n => n = attempt ∧ attempt < maxFinAttempts
  | .register _ attempt, n => n = attempt + 1 ∧ attempt < maxFinAttempts
  | .check _ attempt _, n => n = attempt + 1 ∧ attempt < maxFinAttempts
  | .wait _ attempt _, n => n = attempt + 1 ∧ attempt < maxFinAttempts
  | .recheck _ attempt, n => n = attempt + 1 ∧ attempt < maxFinAttempts
  | .markClosed _ (.ok _), n => 0 < n ∧ n ≤ maxFinAttempts
  | .markClosed _ (.err e), n => e = closeTimedOut ∧ n = maxFinAttempts
  | .markClosed _ (.panicked _), _ => False
  | .returned _ (.ok _), n => 0 < n ∧ n ≤ maxFinAttempts
  | .returned _ (.err e), n => e = closeTimedOut ∧ n = maxFinAttempts ∨ n < maxFinAttempts
  | .returned _ (.panicked _), _ => False

theorem ClosePc.SentFins.le {c : ClosePc} {n : ℕ} (h : c.SentFins n) : n ≤ maxFinAttempts := by
  unfold ClosePc.SentFins at h
  split at h <;> first | omega | exact absurd h (fun h => h)

theorem SentFins.wake {c : ClosePc} {n : ℕ} (h : c.SentFins n) : c.wake.SentFins n := by
  cases c <;> exact h

theorem SentFins.next {finPn : UInt64} {attempt n : ℕ}
    (h : n = attempt + 1 ∧ attempt < maxFinAttempts) :
    (nextAttempt finPn attempt).SentFins n := by
  obtain ⟨rfl, hlt⟩ := h
  unfold nextAttempt
  split
  · rename_i hmore
    exact ⟨rfl, hmore⟩
  · exact ⟨rfl, by omega⟩

/-! ### The call and its FinAck -/

/-- The Fins of the call carry its number and are as many as its attempts; a FinAck that
came is that of the call, and the call is not parked over it. -/
structure Driven (e : Endpoint) : Prop where
  fins : ∃ n, finsOn e.wire = List.replicate n (e.closer.finNumber.getD 0) ∧ e.closer.SentFins n
  number : ∀ pn, e.closeBuff.receivedFinAckFor = some pn → e.closer.finNumber = some pn
  parked : ∀ pn attempt, e.closer = .wait pn attempt false →
    e.closeBuff.receivedFinAckFor ≠ some pn
  confirmed : ∀ pn, e.closer.confirmed = some pn → e.closeBuff.receivedFinAckFor = some pn
  closed : ∀ pn res, e.closer = .returned pn res → e.closeBuff.state = .closed ∨
    (∃ err, res = .err err) ∧ (finsOn e.wire).length < maxFinAttempts

theorem driven_new : Driven .new where
  fins := ⟨0, rfl, rfl⟩
  number pn h := by cases h
  parked pn attempt h := by cases h
  confirmed pn h := by cases h
  closed pn res h := by cases h

theorem Driven.frame {e e' : Endpoint} (h : Driven e) (hcloser : e'.closer = e.closer)
    (hfins : finsOn e'.wire = finsOn e.wire)
    (hreceived : e'.closeBuff.receivedFinAckFor = e.closeBuff.receivedFinAckFor)
    (hclosed : e.closeBuff.state = .closed → e'.closeBuff.state = .closed) : Driven e' := by
  obtain ⟨hsent, hnumber, hparked, hconfirmed, hdone⟩ := h
  rw [← hfins, ← hcloser] at hsent
  rw [← hreceived, ← hcloser] at hnumber hparked hconfirmed
  refine ⟨hsent, hnumber, hparked, hconfirmed, fun pn res hpc => ?_⟩
  rw [hcloser] at hpc
  rw [hfins]
  exact (hdone pn res hpc).imp_left hclosed

theorem Driven.fin {e e' : Endpoint} {srcConnId dstConnId : UInt32} {pn : UInt64} (h : Driven e)
    (he : receive e (controlDatagram srcConnId dstConnId .fin pn) = some e') : Driven e' := by
  have hclosed := (receive_frame he).2
  rw [receive_fin] at he
  cases he
  refine h.frame rfl rfl ?_ hclosed
  rcases bufferInFin_cases e.closeBuff (controlPacket srcConnId dstConnId .fin pn) with
    hsame | ⟨-, -, hsame, -⟩
  · simp only [hsame]
  · exact hsame

theorem Driven.finAck {e e' : Endpoint} {srcConnId dstConnId : UInt32} {pn : UInt64} (h : Driven e)
    (hpn : e.closer.finNumber = some pn)
    (he : receive e (controlDatagram srcConnId dstConnId .finAck pn) = some e') : Driven e' := by
  rw [receive_finAck] at he
  cases he
  obtain ⟨⟨n, hfins, hsent⟩, hnumber, hparked, hconfirmed, hdone⟩ := h
  refine ⟨⟨n, ?_, SentFins.wake hsent⟩, ?_, ?_, ?_, ?_⟩
  · rw [wake_finNumber]
    exact hfins
  · intro q hq
    cases hq
    rw [wake_finNumber]
    exact hpn
  · intro q attempt hq
    -- a FinAck wakes the call
    exfalso
    cases hc : e.closer <;> rw [hc] at hq <;> cases hq
  · intro q hq
    rw [wake_confirmed] at hq
    have hold := hnumber q (hconfirmed q hq)
    rw [hpn] at hold
    exact hold
  · intro q res hq
    have hold : e.closer = .returned q res := by
      cases hc : e.closer <;> rw [hc] at hq <;> cases hq
      rfl
    exact hdone q res hold

theorem Driven.advance {e : Endpoint} {pc : ClosePc} (h : Driven e)
    (hnumber : pc.finNumber = e.closer.finNumber)
    (hsent : ∀ n, e.closer.SentFins n → pc.SentFins n)
    (hparked : ∀ pn attempt, pc = .wait pn attempt false →
      e.closeBuff.receivedFinAckFor ≠ some pn)
    (hconfirmed : ∀ pn, pc.confirmed = some pn → e.closeBuff.receivedFinAckFor = some pn)
    (hclosed : ∀ pn res, pc = .returned pn res → (∃ err, res = .err err) ∧
      (finsOn e.wire).length < maxFinAttempts) : Driven { e with closer := pc } := by
  obtain ⟨n, hfins, hold⟩ := h.fins
  refine ⟨⟨n, ?_, hsent n hold⟩, fun pn hpn => ?_, hparked, hconfirmed, fun pn res hpc => ?_⟩
  · rw [hnumber]
    exact hfins
  · rw [hnumber]
    exact h.number pn hpn
  · exact .inr (hclosed pn res hpc)

theorem nextAttempt_open (finPn : UInt64) (attempt : ℕ) :
    (∀ pn k, nextAttempt finPn attempt ≠ .wait pn k false) ∧
      ∀ pn res, nextAttempt finPn attempt ≠ .returned pn res := by
  unfold nextAttempt
  split
  · exact ⟨nofun, nofun⟩
  · exact ⟨nofun, nofun⟩

theorem Driven.next {e : Endpoint} {finPn : UInt64} {attempt : ℕ} (h : Driven e)
    (hnumber : e.closer.finNumber = some finPn)
    (hsent : ∀ n, e.closer.SentFins n → n = attempt + 1 ∧ attempt < maxFinAttempts) :
    Driven { e with closer := nextAttempt finPn attempt } := by
  obtain ⟨hwait, hreturned⟩ := nextAttempt_open finPn attempt
  refine h.advance ?_ (fun n hn => SentFins.next (hsent n hn))
    (fun pn k hpc => absurd hpc (hwait pn k)) (fun pn hpn => ?_)
    (fun pn res hpc => absurd hpc (hreturned pn res))
  · rw [nextAttempt_finNumber, hnumber]
  · rw [nextAttempt_confirmed] at hpn
    cases hpn

theorem Driven.found {e : Endpoint} {finPn : UInt64} {attempt : ℕ} (h : Driven e)
    (hnumber : e.closer.finNumber = some finPn)
    (hsent : ∀ n, e.closer.SentFins n → n = attempt + 1 ∧ attempt < maxFinAttempts)
    (hreceived : e.closeBuff.receivedFinAckFor = some finPn) :
    Driven { e with closer := .markClosed finPn (.ok ()) } := by
  refine h.advance hnumber.symm (fun n hn => ?_) (fun pn k hpc => (by cases hpc)) (fun pn hpn => ?_)
    (fun pn res hpc => (by cases hpc))
  · obtain ⟨rfl, hlt⟩ := hsent n hn
    exact ⟨Nat.succ_pos _, hlt⟩
  · cases hpn
    exact hreceived

section

variable {srcConnId dstConnId : UInt32} {e e' : Endpoint}

theorem Driven.close (h : Driven e) (hstep : closeStep srcConnId dstConnId e = some e') :
    Driven e' := by
  unfold closeStep at hstep
  split at hstep
  · cases hstep
  · rename_i finPn hpc
    cases hstep
    obtain ⟨⟨n, hfins, hsent⟩, hnumber, -, -, -⟩ := h
    obtain ⟨-, hreceived, -, -⟩ := recordLocalFinSent_frame e.closeBuff finPn
    rw [hpc] at hfins hsent hnumber
    refine ⟨⟨n, hfins, hsent, by decide⟩, ?_, nofun, nofun, nofun⟩
    rw [hreceived]
    exact hnumber
  · rename_i finPn attempt hpc
    cases hstep
    obtain ⟨⟨n, hfins, hsent⟩, hnumber, -, -, -⟩ := h
    rw [hpc] at hfins hsent hnumber
    refine ⟨⟨n + 1, ?_, by rw [hsent.1], hsent.2⟩, hnumber, nofun, nofun, nofun⟩
    rw [finsOn_fin, hfins, List.replicate_succ']
    rfl
  · rename_i finPn attempt hpc
    cases hstep
    exact h.advance (by rw [hpc]; rfl) (fun n hn => by rw [hpc] at hn; exact hn) nofun nofun nofun
  · rename_i finPn attempt notified hpc
    cases hstep
    split
    · rename_i hreceived
      exact h.found (by rw [hpc]; rfl) (fun n hn => by rw [hpc] at hn; exact hn) hreceived
    · rename_i hnone
      refine h.advance (by rw [hpc]; rfl) (fun n hn => by rw [hpc] at hn; exact hn) ?_ nofun nofun
      intro pn k hwait
      cases hwait
      exact hnone
  · rename_i finPn attempt hpc
    cases hstep
    exact h.advance (by rw [hpc]; rfl) (fun n hn => by rw [hpc] at hn; exact hn) nofun nofun nofun
  · cases hstep
  · rename_i finPn attempt hpc
    cases hstep
    split
    · rename_i hreceived
      exact h.found (by rw [hpc]; rfl) (fun n hn => by rw [hpc] at hn; exact hn) hreceived
    · exact h.next (by rw [hpc]; rfl) (fun n hn => by rw [hpc] at hn; exact hn)
  · rename_i finPn res hpc
    cases hstep
    obtain ⟨⟨n, hfins, hsent⟩, hnumber, -, hconfirmed, -⟩ := h
    rw [hpc] at hfins hsent hnumber hconfirmed
    refine ⟨⟨n, hfins, ?_⟩, hnumber, nofun, ?_, fun _ _ _ => .inl rfl⟩
    · cases res with
      | ok u => exact hsent
      | err err => exact .inl hsent
      | panicked f => exact hsent
    · intro pn hpn
      refine hconfirmed pn ?_
      cases res with
      | ok u => exact hpn
      | err err => cases hpn
      | panicked f => cases hpn
  · cases hstep

/-- The datagrams that the peer has sent: Fins, and FinAcks for the Fin of the call. -/
def Replies (srcConnId dstConnId : UInt32) (e : Endpoint) (incoming : List Bytes) : Prop :=
  ∀ d ∈ incoming, (∃ pn, d = controlDatagram srcConnId dstConnId .fin pn) ∨
    ∃ pn, d = controlDatagram srcConnId dstConnId .finAck pn ∧ e.closer.finNumber = some pn

theorem Driven.step {incoming : List Bytes} {act : Action} (h : Driven e)
    (hin : Replies dstConnId srcConnId e incoming)
    (hstep : e.step srcConnId dstConnId incoming act = some e') : Driven e' := by
  cases act with
  | deliver i =>
    obtain ⟨d, hd, he⟩ := Option.bind_eq_some_iff.mp hstep
    rcases hin d (List.mem_of_getElem? hd) with ⟨pn, rfl⟩ | ⟨pn, rfl, hpn⟩
    · exact h.fin he
    · exact h.finAck hpn he
  | handOver i =>
    obtain ⟨pn, -, rfl⟩ := Option.map_eq_some_iff.mp hstep
    exact h.frame rfl rfl rfl id
  | drainerTake =>
    simp only [Endpoint.step] at hstep
    split at hstep
    · cases hstep
      exact h.frame rfl rfl rfl id
    · cases hstep
  | drainerSend =>
    obtain ⟨pn, -, rfl⟩ := Option.map_eq_some_iff.mp hstep
    exact h.frame rfl (finsOn_finAck ..) rfl id
  | drainerFails =>
    obtain ⟨pn, -, rfl⟩ := Option.map_eq_some_iff.mp hstep
    exact h.frame rfl rfl rfl id
  | closeBegin finPn =>
    simp only [Endpoint.step] at hstep
    split at hstep
    · rename_i hpc
      cases hstep
      obtain ⟨⟨n, hfins, hsent⟩, hnumber, -, -, -⟩ := h
      rw [hpc] at hfins hsent hnumber
      refine ⟨⟨n, ?_, hsent⟩, fun pn hpn => ?_, fun pn attempt hwait => ?_, fun pn hconf => ?_,
        fun pn res hret => ?_⟩
      · rw [show n = 0 from hsent] at hfins ⊢
        exact hfins
      · cases hnumber pn hpn
      · cases hwait
      · cases hconf
      · cases hret
    · cases hstep
  | close => exact h.close hstep
  | timeout =>
    simp only [Endpoint.step] at hstep
    split at hstep
    · rename_i finPn attempt hpc
      cases hstep
      exact h.next (by rw [hpc]; rfl) (fun n hn => by rw [hpc] at hn; exact hn)
    · cases hstep
  | sendFails err =>
    simp only [Endpoint.step] at hstep
    split at hstep
    · rename_i finPn attempt hpc
      cases hstep
      obtain ⟨n, hfins, hsent⟩ := h.fins
      rw [hpc] at hsent
      have hfew : (finsOn e.wire).length < maxFinAttempts := by
        rw [hfins, List.length_replicate, hsent.1]
        exact hsent.2
      refine h.advance (by rw [hpc]; rfl) (fun m hm => ?_) (fun pn attempt hwait => ?_)
        (fun pn hconf => ?_) (fun pn res hres => ?_)
      · rw [hpc] at hm
        rw [hm.1]
        exact .inr hm.2
      · cases hwait
      · cases hconf
      · cases hres
        exact ⟨⟨err, rfl⟩, hfew⟩
    · cases hstep

end

/-! ### Runs of the two sides -/

section

variable {ids : Side → UInt32} {acts acts' : List (Side × Action)} {st st' : State}

theorem Side.peer_peer (x : Side) : x.peer.peer = x := by
  cases x <;> rfl

/-- The peer acknowledges only what it has processed, and that are Fins of the call. -/
theorem replies_of_sound (hsound : ∀ x, Sound ids x (st x) (st x.peer).wire) (x : Side) :
    Replies (ids x.peer) (ids x) (st x) (st x.peer).wire := by
  intro d hd
  have hpeer := hsound x.peer
  rcases hpeer.wire d hd with ⟨pn, rfl, -⟩ | ⟨pn, rfl, hanswered⟩
  · refine .inl ⟨pn, ?_⟩
    rw [datagram, Side.peer_peer]
  · have hfin := hpeer.processed pn hanswered.1
    rw [Side.peer_peer] at hfin
    refine .inr ⟨pn, ?_, sent_fin (hsound x) hfin⟩
    rw [datagram, Side.peer_peer]

theorem driven_step {act : Side × Action} (hsound : ∀ x, Sound ids x (st x) (st x.peer).wire)
    (hdriven : ∀ x, Driven (st x)) (hstep : Step ids st act st') : ∀ x, Driven (st' x) := by
  obtain ⟨e', he, rfl⟩ := Option.map_eq_some_iff.mp hstep
  intro x
  by_cases hx : x = act.1
  · rw [hx, Function.update_self]
    exact (hdriven act.1).step (replies_of_sound hsound act.1) he
  · rw [Function.update_of_ne hx]
    exact hdriven x

theorem driven_run (hr : Run (Step ids) init acts st) : ∀ x, Driven (st x) := by
  refine Run.invariant (P := fun _ st => ∀ x, Driven (st x)) (fun _ => driven_new) ?_ hr
  intro acts st act st' hr hdriven hstep
  exact driven_step (sound_run hr) hdriven hstep

/-- The steps that the call can still take. -/
def ClosePc.left : ClosePc → ℕ
  | .idle => 17
  | .record _ => 17
  | .sendFin _ attempt => 5 * (maxFinAttempts - attempt) + 1
  | .register _ attempt => 5 * (maxFinAttempts - attempt)
  | .check _ attempt _ => 5 * (maxFinAttempts - attempt) - 1
  | .wait _ attempt _ => 5 * (maxFinAttempts - attempt) - 2
  | .recheck _ attempt => 5 * (maxFinAttempts - attempt) - 3
  | .markClosed _ _ => 1
  | .returned _ _ => 0

def Action.ofCall : Action → Bool
  | .close => true
  | .timeout => true
  | .sendFails _ => true
  | _ => false

def ofCall (x : Side) (act : Side × Action) : Bool := decide (act.1 = x) && act.2.ofCall

theorem left_wake (c : ClosePc) : c.wake.left = c.left := by
  cases c <;> rfl

theorem left_next (finPn : UInt64) {attempt : ℕ} (h : attempt < maxFinAttempts) :
    (nextAttempt finPn attempt).left < 5 * (maxFinAttempts - attempt) - 3 := by
  unfold nextAttempt
  split
  · simp only [ClosePc.left]
    omega
  · simp only [ClosePc.left]
    omega

theorem left_close {srcConnId dstConnId : UInt32} {e e' : Endpoint} (h : Driven e)
    (hstep : closeStep srcConnId dstConnId e = some e') : e'.closer.left < e.closer.left := by
  obtain ⟨n, -, hsent⟩ := h.fins
  unfold closeStep at hstep
  split at hstep
  · cases hstep
  · rename_i finPn hpc
    cases hstep
    rw [hpc]
    exact Nat.lt_succ_self 16
  · rename_i finPn attempt hpc
    cases hstep
    rw [hpc]
    exact Nat.lt_succ_self _
  · rename_i finPn attempt hpc
    cases hstep
    rw [hpc] at hsent ⊢
    have hlt := hsent.2
    simp only [ClosePc.left]
    omega
  · rename_i finPn attempt notified hpc
    cases hstep
    rw [hpc] at hsent ⊢
    have hlt := hsent.2
    split
    · simp only [ClosePc.left]
      omega
    · simp only [ClosePc.left]
      omega
  · rename_i finPn attempt hpc
    cases hstep
    rw [hpc] at hsent ⊢
    have hlt := hsent.2
    simp only [ClosePc.left]
    omega
  · cases hstep
  · rename_i finPn attempt hpc
    cases hstep
    rw [hpc] at hsent ⊢
    have hlt := hsent.2
    split
    · simp only [ClosePc.left]
      omega
    · exact left_next finPn hlt
  · rename_i finPn res hpc
    cases hstep
    rw [hpc]
    exact Nat.one_pos
  · cases hstep

theorem left_step {srcConnId dstConnId : UInt32} {incoming : List Bytes} {e e' : Endpoint}
    {act : Action} (h : Driven e) (hstep : e.step srcConnId dstConnId incoming act = some e') :
    e'.closer.left + (if act.ofCall then 1 else 0) ≤ e.closer.left := by
  cases act with
  | deliver i =>
    obtain ⟨d, -, he⟩ := Option.bind_eq_some_iff.mp hstep
    rcases TearDown.receive_closer he with hsame | hwake
    · rw [hsame]
      exact Nat.le_refl _
    · rw [hwake, left_wake]
      exact Nat.le_refl _
  | handOver | drainerSend | drainerFails =>
    obtain ⟨pn, -, rfl⟩ := Option.map_eq_some_iff.mp hstep
    exact Nat.le_refl _
  | drainerTake =>
    simp only [Endpoint.step] at hstep
    split at hstep
    · cases hstep
      exact Nat.le_refl _
    · cases hstep
  | closeBegin finPn =>
    simp only [Endpoint.step] at hstep
    split at hstep
    · rename_i hpc
      cases hstep
      rw [hpc]
      exact Nat.le_refl _
    · cases hstep
  | close => exact left_close h hstep
  | timeout =>
    simp only [Endpoint.step] at hstep
    split at hstep
    · rename_i finPn attempt hpc
      cases hstep
      obtain ⟨n, -, hsent⟩ := h.fins
      rw [hpc] at hsent ⊢
      have hnext := left_next finPn hsent.2
      change (nextAttempt finPn attempt).left + 1 ≤ 5 * (maxFinAttempts - attempt) - 2
      omega
    · cases hstep
  | sendFails err =>
    simp only [Endpoint.step] at hstep
    split at hstep
    · rename_i finPn attempt hpc
      cases hstep
      rw [hpc]
      simp [ClosePc.left, Action.ofCall]
    · cases hstep

/-- The call has not timed out and waits for nothing. -/
def ClosePc.Deciding : ClosePc → Prop
  | .idle => False
  | .wait _ _ false => False
  | .markClosed _ (.err _) => False
  | .markClosed _ (.panicked _) => False
  | .returned _ (.err _) => False
  | .returned _ (.panicked _) => False
  | _ => True

/-- The Fins that a call with its FinAck still sends. -/
def ClosePc.spare : ClosePc → ℕ
  | .record _ => 1
  | .sendFin _ _ => 1
  | _ => 0

theorem wake_deciding {c : ClosePc} (h : c.Deciding) : c.wake.Deciding := by
  cases c with
  | check pn attempt notified => trivial
  | wait pn attempt notified => trivial
  | _ => exact h

theorem wake_spare (c : ClosePc) : c.wake.spare = c.spare := by
  cases c <;> rfl

structure Decided (pn : UInt64) (bound : ℕ) (e : Endpoint) : Prop where
  received : e.closeBuff.receivedFinAckFor = some pn
  number : e.closer.finNumber = some pn
  deciding : e.closer.Deciding
  fins : (finsOn e.wire).length + e.closer.spare ≤ bound

section

variable {srcConnId dstConnId : UInt32} {e e' : Endpoint} {pn : UInt64} {bound : ℕ}

theorem Decided.close (h : Decided pn bound e) (hstep : closeStep srcConnId dstConnId e = some e') :
    Decided pn bound e' := by
  obtain ⟨hreceived, hnumber, hdeciding, hfins⟩ := h
  unfold closeStep at hstep
  split at hstep
  · cases hstep
  · rename_i finPn hpc
    cases hstep
    rw [hpc] at hnumber hfins
    refine ⟨?_, hnumber, trivial, hfins⟩
    rw [(recordLocalFinSent_frame e.closeBuff finPn).2.1]
    exact hreceived
  · rename_i finPn attempt hpc
    cases hstep
    rw [hpc] at hnumber hfins
    refine ⟨hreceived, hnumber, trivial, ?_⟩
    rw [finsOn_fin, List.length_append]
    exact hfins
  · rename_i finPn attempt hpc
    cases hstep
    rw [hpc] at hnumber hfins
    exact ⟨hreceived, hnumber, trivial, hfins⟩
  · rename_i finPn attempt notified hpc
    cases hstep
    rw [hpc] at hnumber hfins
    cases hnumber
    rw [if_pos hreceived]
    exact ⟨hreceived, rfl, trivial, hfins⟩
  · rename_i finPn attempt hpc
    cases hstep
    rw [hpc] at hnumber hfins
    exact ⟨hreceived, hnumber, trivial, hfins⟩
  · cases hstep
  · rename_i finPn attempt hpc
    cases hstep
    rw [hpc] at hnumber hfins
    cases hnumber
    rw [if_pos hreceived]
    exact ⟨hreceived, rfl, trivial, hfins⟩
  · rename_i finPn res hpc
    cases hstep
    rw [hpc] at hnumber hfins hdeciding
    refine ⟨hreceived, hnumber, ?_, hfins⟩
    cases res with
    | ok u => trivial
    | err err => exact hdeciding
    | panicked f => exact hdeciding
  · cases hstep

theorem Decided.step {incoming : List Bytes} {act : Action} (h : Decided pn bound e)
    (hin : Replies dstConnId srcConnId e incoming) (hsent : ∀ err, act ≠ .sendFails err)
    (hstep : e.step srcConnId dstConnId incoming act = some e') : Decided pn bound e' := by
  cases act with
  | deliver i =>
    obtain ⟨d, hd, he⟩ := Option.bind_eq_some_iff.mp hstep
    rcases hin d (List.mem_of_getElem? hd) with ⟨q, rfl⟩ | ⟨q, rfl, hq⟩
    · rw [receive_fin] at he
      cases he
      refine ⟨?_, h.number, h.deciding, h.fins⟩
      rcases bufferInFin_cases e.closeBuff (controlPacket dstConnId srcConnId .fin q) with
        hsame | ⟨-, -, hsame, -⟩
      · simp only [hsame]
        exact h.received
      · exact hsame.trans h.received
    · rw [receive_finAck] at he
      cases he
      rw [h.number] at hq
      refine ⟨hq.symm, ?_, wake_deciding h.deciding, ?_⟩
      · rw [wake_finNumber]
        exact h.number
      · rw [wake_spare]
        exact h.fins
  | handOver i =>
    obtain ⟨q, -, rfl⟩ := Option.map_eq_some_iff.mp hstep
    exact ⟨h.received, h.number, h.deciding, h.fins⟩
  | drainerTake =>
    simp only [Endpoint.step] at hstep
    split at hstep
    · cases hstep
      exact ⟨h.received, h.number, h.deciding, h.fins⟩
    · cases hstep
  | drainerSend =>
    obtain ⟨q, -, rfl⟩ := Option.map_eq_some_iff.mp hstep
    refine ⟨h.received, h.number, h.deciding, ?_⟩
    rw [finsOn_finAck]
    exact h.fins
  | drainerFails =>
    obtain ⟨q, -, rfl⟩ := Option.map_eq_some_iff.mp hstep
    exact ⟨h.received, h.number, h.deciding, h.fins⟩
  | closeBegin finPn =>
    simp only [Endpoint.step] at hstep
    split at hstep
    · rename_i hpc
      have hdeciding := h.deciding
      rw [hpc] at hdeciding
      exact absurd hdeciding id
    · cases hstep
  | close => exact h.close hstep
  | timeout =>
    simp only [Endpoint.step] at hstep
    split at hstep
    · rename_i finPn attempt hpc
      have hdeciding := h.deciding
      rw [hpc] at hdeciding
      exact absurd hdeciding id
    · cases hstep
  | sendFails err => exact absurd rfl (hsent err)

end

/-- The call has reported an error, or is about to. -/
def ClosePc.failed : ClosePc → Bool
  | .markClosed _ (.err _) => true
  | .returned _ (.err _) => true
  | _ => false

theorem Driven.decided {e : Endpoint} {pn : UInt64} (h : Driven e)
    (hreceived : e.closeBuff.receivedFinAckFor = some pn) (hopen : e.closer.failed = false) :
    Decided pn ((finsOn e.wire).length + 1) e := by
  obtain ⟨⟨n, -, hsent⟩, hnumber, hparked, -, -⟩ := h
  have hpn := hnumber pn hreceived
  refine ⟨hreceived, hpn, ?_, ?_⟩
  · cases hpc : e.closer with
    | idle =>
      rw [hpc] at hpn
      cases hpn
    | wait q attempt notified =>
      cases notified with
      | true => trivial
      | false =>
        rw [hpc] at hpn
        cases hpn
        exact absurd hreceived (hparked pn attempt hpc)
    | markClosed q res | returned q res =>
      rw [hpc] at hsent hopen
      cases res with
      | ok u => trivial
      | err err => cases hopen
      | panicked f => exact hsent
    | _ => trivial
  · have hspare : e.closer.spare ≤ 1 := by
      cases e.closer <;> simp [ClosePc.spare]
    omega

/-- From the moment the FinAck is there, while `close()` has not timed out and its socket works:
it sends at most one more Fin, and when it returns it returns `Ok`, in every continuation. -/
theorem finAck_decides {x : Side} {pn : UInt64} (hr : Run (Step ids) init acts st)
    (hreceived : (st x).closeBuff.receivedFinAckFor = some pn)
    (hopen : (st x).closer.failed = false)
    (hr' : Run (fun st act st' => (∀ err, act ≠ (x, .sendFails err)) ∧ Step ids st act st')
      st acts' st') :
    (finsOn (st' x).wire).length ≤ (finsOn (st x).wire).length + 1 ∧
      ∀ q res, (st' x).closer = .returned q res → q = pn ∧ res = .ok () := by
  have hstart := (driven_run hr x).decided hreceived hopen
  have hdecided : Decided pn ((finsOn (st x).wire).length + 1) (st' x) := by
    refine Run.invariant
      (P := fun _ t => Decided pn ((finsOn (st x).wire).length + 1) (t x)) hstart ?_ hr'
    rintro es s act t hs hdecided ⟨hsent, hstep⟩
    have hsound := sound_run (hr.append (hs.mono fun _ _ _ h => h.2))
    obtain ⟨e', he, rfl⟩ := Option.map_eq_some_iff.mp hstep
    obtain ⟨y, a⟩ := act
    by_cases hy : x = y
    · subst hy
      simp only [Function.update_self]
      exact hdecided.step (replies_of_sound hsound x) (fun err ha => hsent err (congrArg (Prod.mk x) ha)) he
    · simp only [Function.update_of_ne hy]
      exact hdecided
  refine ⟨Nat.le_trans (Nat.le_add_right _ _) hdecided.fins, fun q res hpc => ?_⟩
  have hnumber := hdecided.number
  have hdeciding := hdecided.deciding
  rw [hpc] at hnumber hdeciding
  cases res with
  | ok u => exact ⟨Option.some.inj hnumber, rfl⟩
  | err err => exact absurd hdeciding id
  | panicked f => exact absurd hdeciding id

/-- The FinAck of `a` comes before it looks. -/
theorem finAck_decides_crossed : ∃ st st',
    Run (Step twoIds) init (crossedClose.take 17) st ∧
      (st .a).closer = .check 7 1 true ∧ Step twoIds st (.a, .close) st' ∧
      (finsOn (st' .a).wire).length ≤ 2 + 1 := by
  have hcomputed : (((crossedClose.take 17).foldlM (step twoIds) init).map fun st =>
      ((st .a).closer, (st .a).closeBuff.receivedFinAckFor, (finsOn (st .a).wire).length,
        (step twoIds st (.a, .close)).isSome)) =
      some (.check 7 1 true, some 7, 2, true) := by
    decide +kernel
  obtain ⟨st, hr, hfields⟩ :=
    Run.exists_of_foldlM _ (crossedClose.take 17) (fun _ _ _ _ h => h) hcomputed
  simp only [Prod.mk.injEq] at hfields
  obtain ⟨hcloser, hreceived, hfins, hsome⟩ := hfields
  obtain ⟨st', hstep⟩ := Option.isSome_iff_exists.mp hsome
  have hr' : Run (fun st act st' => (∀ err, act ≠ (Side.a, Action.sendFails err)) ∧
      Step twoIds st act st') st [(.a, .close)] st' := Run.nil.snoc ⟨nofun, hstep⟩
  have hopen : (st .a).closer.failed = false := by
    rw [hcloser]
    rfl
  have hbound := (finAck_decides hr hreceived hopen hr').1
  rw [hfins] at hbound
  exact ⟨st, st', hr, hcloser, hstep, hbound⟩

/-! ### A closed peer -/

/-- The endpoint is closed, owes no FinAck and has sent none. -/
structure Silent (ids : Side → UInt32) (x : Side) (e : Endpoint) : Prop where
  closed : e.closeBuff.state = .closed
  owing : owing e = []
  unacked : ∀ pn, datagram ids x .finAck pn ∉ e.wire

theorem owing_nil_iff (e : Endpoint) : owing e = [] ↔ e.closeBuff.pendingFinAckSend = none ∧
    e.handing = [] ∧ e.finAckTx.getD [] = [] ∧ e.drainer = none := by
  simp only [owing, List.append_eq_nil_iff, Option.toList_eq_nil_iff]

theorem Silent.receive {x : Side} {e e' : Endpoint} {incoming : List Bytes} {d : Bytes}
    (h : Silent ids x e) (hin : Replies (ids x.peer) (ids x) e incoming) (hd : d ∈ incoming)
    (he : receive e d = some e') : Silent ids x e' := by
  obtain ⟨hclosed, howing, hunacked⟩ := h
  rcases hin d hd with ⟨pn, rfl⟩ | ⟨pn, rfl, -⟩
  · have hsame : e.closeBuff.bufferInFin (controlPacket (ids x.peer) (ids x) .fin pn) =
        e.closeBuff := by
      simp only [CloseBuffer.bufferInFin, hclosed]
    obtain ⟨hpending, hhanding, htx, hdrainer⟩ := (owing_nil_iff e).mp howing
    rw [receive_fin, hsame] at he
    cases he
    refine ⟨hclosed, (owing_nil_iff _).mpr ⟨rfl, ?_, htx, hdrainer⟩, hunacked⟩
    simp only [hhanding, hpending]
    rfl
  · rw [receive_finAck] at he
    cases he
    exact ⟨hclosed, howing, hunacked⟩

theorem Silent.step {x : Side} {e e' : Endpoint} {incoming : List Bytes} (h : Silent ids x e)
    (hin : Replies (ids x.peer) (ids x) e incoming)
    (hmoves : Moves (ids x) (ids x.peer) incoming e e') : Silent ids x e' := by
  have hclosed := closed_moves hmoves h.closed
  obtain ⟨-, howing, hunacked⟩ := id h
  obtain ⟨hpending, hhanding, htx, hdrainer⟩ := (owing_nil_iff e).mp howing
  cases hmoves with
  | receive d e' hd he => exact h.receive hin hd he
  | handOver pn pre post hold =>
    rw [hold] at hhanding
    simp at hhanding
  | drainerTake pn queue hold =>
    rw [hold] at htx
    cases htx
  | drainerSend pn hold =>
    rw [hold] at hdrainer
    cases hdrainer
  | drainerFails =>
    exact ⟨hclosed, (owing_nil_iff _).mpr ⟨hpending, hhanding, htx, rfl⟩, hunacked⟩
  | record finPn hpc =>
    refine ⟨hclosed, (owing_nil_iff _).mpr ⟨?_, hhanding, htx, hdrainer⟩, hunacked⟩
    rw [(recordLocalFinSent_frame e.closeBuff finPn).1]
    exact hpending
  | sendFin finPn attempt hpc =>
    refine ⟨hclosed, howing, fun pn hpn => ?_⟩
    rcases List.mem_append.mp hpn with hpn | hpn
    · exact hunacked pn hpn
    · have htype := (controlDatagram_inj (by decide) (by decide) (List.mem_singleton.mp hpn)).1
      cases htype
  | markClosed finPn res hpc => exact ⟨hclosed, howing, hunacked⟩
  | advance pc hpc => exact ⟨hclosed, howing, hunacked⟩

end

end Close

end Bluefin
