import Bluefin.Worker.Reader

/-!
# The end of the stream

A reader returns zero bytes when the Fin was seen and nothing can be read. That
is the end of the stream exactly if every data packet had been taken in by then:
data and Fin come in different datagrams, and nothing compares the number of the
Fin with what is in the buffer.
-/

namespace Bluefin
open Base

namespace Reader

/-- A reply with no bytes. -/
def Reply.Eof (r : Reply) : Prop := ∃ addr, r.result = .ok (0, addr)

def ReadCall.toCall : ReadCall → OrderedBytes.Call
  | .read bytesToRead buf => .consume bytesToRead buf
  | .readBytes out maxPackets => .consumeBytes out maxPackets

def Pc.call : Pc → Option ReadCall
  | .idle => none
  | .polling c => some c
  | .parked c => some c
  | .resolved c => some c
  | .finSeen c => some c
  | .consuming c => some c
  | .crashed => none

abbrev State.bytes (st : State) : OrderedBytes := st.bufs.connBuff.orderedBytes

abbrev State.flag (st : State) : Bool := st.bufs.closeBuff.peerFinObserved

/-! ### What one step can do -/

/-- A producer may have woken the reader. -/
def Woken (t t' : Task) : Prop := t' = t ∨ t' = t.wake

theorem woken_replies {t t' : Task} (h : Woken t t') : t'.replies = t.replies := by
  rcases h with rfl | rfl
  · rfl
  · unfold Task.wake
    split <;> rfl

theorem woken_call {t t' : Task} (h : Woken t t') : t'.pc.call = t.pc.call := by
  rcases h with rfl | rfl
  · rfl
  · unfold Task.wake
    split
    · rename_i hpc
      rw [hpc]
      rfl
    · rfl

theorem woken_pc {t t' : Task} (h : Woken t t') {pc : Pc} (hpc : t'.pc = pc)
    (hne : ∀ c, pc ≠ .polling c) : t.pc = pc := by
  rcases h with rfl | rfl
  · exact hpc
  · unfold Task.wake at hpc
    split at hpc
    · exact absurd hpc.symm (hne _)
    · exact hpc

section

variable (start : UInt64) (cs : List Bytes)

inductive Moves (st : State) : State → Prop
  | data (packets : List BluefinPacket) (task : Task)
      (hcarry : ∀ p ∈ packets, OrderedBytes.Carries start.toNat cs p)
      (hnumber : ∀ p ∈ packets, p.header.packetNumber.toNat < start.toNat + cs.length)
      (hwoken : Woken st.task task) :
      Moves st { st with
        bufs.connBuff.orderedBytes := st.bytes.bufferAll packets, task := task }
  | fin (closeBuff : CloseBuffer) (finAckTx : Option (List UInt64)) (task : Task)
      (hflag : st.flag = true → closeBuff.peerFinObserved = true) (hwoken : Woken st.task task) :
      Moves st { st with
        bufs.closeBuff := closeBuff, bufs.finAckTx := finAckTx, task := task }
  | call (c : ReadCall) (hpc : st.task.pc = .idle) (hc : c.Valid) :
      Moves st { st with task.pc := .polling c }
  | resolve (c : ReadCall) (hpc : st.task.pc = .polling c)
      (hready : st.bufs.connBuff.peek.isOk = true ∨ st.flag = true) :
      Moves st { st with task.pc := .resolved c }
  | park (c : ReadCall) (hpc : st.task.pc = .polling c)
      (hempty : st.bufs.connBuff.peek.isOk = false) (hflag : st.flag = false) :
      Moves st { st with bufs.connBuff.waker := some 0, task.pc := .parked c }
  | seeFin (c : ReadCall) (hpc : st.task.pc = .resolved c) (hflag : st.flag = true) :
      Moves st { st with task.pc := .finSeen c }
  | goOn (c : ReadCall) (hpc : st.task.pc = .resolved c) (hflag : st.flag = false) :
      Moves st { st with task.pc := .consuming c }
  | eof (c : ReadCall) (addr : SocketAddr) (hpc : st.task.pc = .finSeen c)
      (hempty : st.bufs.connBuff.peek.isOk = false)
      (htaken : ∀ k, k < cs.length → TakenIn st.bytes (start.toNat + k)) :
      Moves st { st with task := st.task.reply ⟨.ok (0, addr), []⟩ }
  | noEof (c : ReadCall) (hpc : st.task.pc = .finSeen c)
      (hsome : st.bufs.connBuff.peek.isOk = true ∨ st.bufs.connBuff.addr = none) :
      Moves st { st with task.pc := .consuming c }
  | finish (c : ReadCall) (hpc : st.task.pc = .consuming c) :
      Moves st ⟨(finish st.bufs st.task c).1, (finish st.bufs st.task c).2⟩

variable {start cs}

theorem taskStep_moves {st : State} {b : ConnectionManagedBuffers} {t : Task}
    (hsettled : EofSettled start cs st) (h : taskStep 0 st.bufs st.task = some (b, t)) :
    Moves start cs st ⟨b, t⟩ := by
  unfold taskStep at h
  split at h
  · cases h
  · rename_i c hpc
    unfold poll at h
    split at h
    · rename_i hpeek
      cases h
      exact .resolve c hpc (.inl (by rw [hpeek]; rfl))
    · rename_i hpeek
      have hempty := Outcome.isOk_eq_false hpeek
      split at h
      · rename_i hflag
        cases h
        exact .resolve c hpc (.inr hflag)
      · rename_i hflag
        cases h
        exact .park c hpc hempty (Bool.eq_false_iff.mpr hflag)
  · cases h
  · rename_i c hpc
    by_cases hflag : st.bufs.closeBuff.peerFinObserved = true
    · rw [if_pos hflag] at h
      cases h
      exact .seeFin c hpc hflag
    · rw [if_neg hflag] at h
      cases h
      exact .goOn c hpc (Bool.eq_false_iff.mpr hflag)
  · rename_i c hpc
    unfold checkEof at h
    split at h
    · rename_i hpeek
      cases h
      exact .noEof c hpc (.inl (by rw [hpeek]; rfl))
    · rename_i addr haddr hpeek
      have hempty := Outcome.isOk_eq_false hpeek
      cases h
      exact .eof c addr hpc hempty (hsettled ⟨c, hpc⟩ hempty)
    · rename_i haddr _
      cases h
      exact .noEof c hpc (.inr haddr)
  · rename_i c hpc
    have hmove := @Moves.finish start cs st c hpc
    rw [Option.some.inj h] at hmove
    exact hmove
  · cases h

theorem step_moves {st st' : State} {act : Action} (hlen : start.toNat + cs.length < 2 ^ 64)
    (h : Step start cs st act st') : Moves start cs st st' := by
  obtain ⟨hallowed, hsettled, h⟩ := h
  cases act with
  | arrive packets =>
    have hwoken : ∀ woken : Option Waker,
        Woken st.task (if woken.isSome then st.task.wake else st.task) := by
      intro woken
      split
      · exact .inr rfl
      · exact .inl rfl
    simp only [step] at h
    cases h
    rcases hallowed with ⟨hne, hdata⟩ | ⟨p, rfl, htype, -⟩
    · have hstate := ConnReaderHandler.bufferInPackets_data packets st.bufs hne
        (fun p hp => (hdata p hp).1)
      have hnumber : ∀ p ∈ packets, p.header.packetNumber.toNat < start.toNat + cs.length := by
        intro p hp
        obtain ⟨-, k, hk, hget⟩ := hdata p hp
        have hlt : k < cs.length := (List.getElem?_eq_some_iff.mp hget).1
        omega
      have hcarry : ∀ p ∈ packets, OrderedBytes.Carries start.toNat cs p := by
        intro p hp
        have hlt := hnumber p hp
        exact ⟨by omega, (hdata p hp).2⟩
      simp only [hstate]
      exact .data packets _ hcarry hnumber (hwoken _)
    · have hstate := ConnReaderHandler.bufferInPackets_fin p st.bufs htype
      simp only [hstate]
      exact .fin _ _ _ (CloseBuffer.bufferInFin_flag st.bufs.closeBuff p) (hwoken _)
  | call c =>
    simp only [step] at h
    split at h
    · rename_i hpc
      cases h
      exact .call c hpc hallowed
    · cases h
  | task =>
    simp only [step] at h
    obtain ⟨⟨b, t⟩, hstep, rfl⟩ := Option.map_eq_some_iff.mp h
    exact taskStep_moves (hsettled rfl) hstep

/-! ### The buffer at the end of the stream -/

variable {s : OrderedBytes} {es : List (Reassembly.Event UInt8)} {a : OrderedBytes.AbstractReceiver}

theorem peek_empty_iff (s : OrderedBytes) :
    s.peek.isOk = false ↔ s.carryOverBytes = none ∧ s.slotAt 0 = none := by
  rw [← Bool.not_eq_true, OrderedBytes.peek_isOk_iff, not_or, not_not, not_not]

theorem drained_of_taken (h : s.Fed start.toNat cs es a) (hempty : s.peek.isOk = false)
    (htaken : ∀ k, k < cs.length → TakenIn s (start.toNat + k)) :
    s.smallestPacketNumber.toNat = start.toNat + cs.length ∧
      Reassembly.delivered es = cs.flatten := by
  obtain ⟨hcarry, hhead⟩ := (peek_empty_iff s).mp hempty
  obtain ⟨hstart, hle, hcontent⟩ := OrderedBytes.fed_content h
  have hnext := h.represents.next_eq
  have hpending : a.pending = [] := by
    rw [← OrderedBytes.carryBytes_eq h.represents, OrderedBytes.carryBytes, hcarry]
    rfl
  have hall : a.next - start.toNat = cs.length := by
    by_contra hne
    rcases htaken (a.next - start.toNat) (by omega) with hlt | ⟨i, p, hslot, hnum⟩
    · omega
    · have hoffset := h.represents.slot_number i p hslot
      have hzero : i = 0 := by omega
      rw [hzero, hhead] at hslot
      cases hslot
  rw [hpending, List.append_nil, hall, List.take_length] at hcontent
  exact ⟨by omega, hcontent⟩

theorem run_payload_ne (h : s.Fed start.toNat cs es a) (hcs : ∀ c ∈ cs, c ≠ [])
    {p : BluefinPacket} (hp : p ∈ s.run) : p.payload ≠ [] := by
  have hmem : p.payload ∈ OrderedBytes.payloads s.run := List.mem_map_of_mem hp
  rw [OrderedBytes.represents_run h.represents] at hmem
  obtain ⟨i, hi, hget⟩ := List.getElem_of_mem hmem
  have hheld := front_get hi
  have hkept := (Reassembly.run_account h.run).kept (a.next + i) (by omega)
  obtain ⟨k, -, hk⟩ := h.source _ _ (hkept.trans hheld)
  rw [← hget]
  exact hcs _ (List.mem_of_getElem? hk)

theorem carry_ne (h : s.Fed start.toNat cs es a) : s.carryOverBytes ≠ some [] := by
  rw [h.represents.carry_eq]
  exact OrderedBytes.carryOf_ne _

theorem consume_pos {len : ℕ} {buf : Bytes} (hlen : 0 < len) (hbuf : len ≤ buf.length)
    {r : ConsumeResult} (hok : (s.consume len buf).1 = .ok r) : 0 < r.bytesConsumed := by
  rw [OrderedBytes.consume_eq s len buf hbuf] at hok
  split at hok
  · cases hok
    exact hlen
  · simp only at hok
    split at hok
    · cases hok
    · rename_i hne
      cases hok
      exact List.length_pos_iff.mpr hne

theorem consumeBytes_pos (h : s.Fed start.toNat cs es a) (hcs : ∀ c ∈ cs, c ≠ [])
    {out : List Bytes} {maxPackets : ℕ} {r : ConsumeResult}
    (hok : (s.consumeBytes out maxPackets).1 = .ok r) : 0 < r.bytesConsumed := by
  rw [OrderedBytes.consumeBytes_eq] at hok
  simp only at hok
  split at hok
  · cases hok
  · rename_i hne
    cases hok
    simp only
    refine List.length_pos_iff.mpr (fun hnil => hne ?_)
    rw [List.flatten_eq_nil_iff] at hnil
    refine List.eq_nil_iff_forall_not_mem.mpr (fun x hx => ?_)
    have hxnil := hnil x hx
    rcases List.mem_append.mp hx with hx | hx
    · rw [Option.mem_toList, hxnil] at hx
      exact carry_ne h hx
    · obtain ⟨p, hp, rfl⟩ := List.mem_map.mp hx
      exact run_payload_ne h hcs (List.mem_of_mem_take hp) hxnil

theorem bufferAll_below (packets : List BluefinPacket)
    (h : ∀ p ∈ packets, p.header.packetNumber.toNat < s.smallestPacketNumber.toNat) :
    s.bufferAll packets = s := by
  induction packets with
  | nil => rfl
  | cons p packets ih =>
    have hlt := UInt64.lt_iff_toNat_lt.mpr (h p (List.mem_cons_self ..))
    have hsame : (s.bufferInPacket p).2 = s := by
      simp only [OrderedBytes.bufferInPacket, if_pos hlt]
    have htail := ih (fun q hq => h q (List.mem_cons_of_mem _ hq))
    simp only [OrderedBytes.bufferAll, List.foldl_cons, hsame] at htail ⊢
    exact htail

/-- The reply of a call that got as far as its consume is not an end of stream. -/
structure Replied (t t' : Task) (bytes : Bytes) (r : Reply) : Prop where
  replies : t'.replies = t.replies ++ [r]
  not_eof : ¬ r.Eof
  bytes_eq : r.bytes = bytes
  pc : t'.pc.call = none

theorem settle_replied (t : Task) (res : BluefinResult (ConsumeResult × SocketAddr))
    (bytes : ConsumeResult → Bytes)
    (hpos : ∀ r addr, res = .ok (r, addr) → 0 < r.bytesConsumed) :
    ∃ r, Replied t (t.settle res bytes) (match res with | .ok (r, _) => bytes r | _ => []) r := by
  cases res with
  | ok ra =>
    refine ⟨_, rfl, ?_, rfl, rfl⟩
    rintro ⟨addr, heof⟩
    have hzero := hpos ra.1 ra.2 rfl
    simp only [Outcome.ok.injEq, Prod.mk.injEq] at heof
    omega
  | err e =>
    refine ⟨_, rfl, ?_, rfl, rfl⟩
    rintro ⟨addr, heof⟩
    cases heof
  | panicked f =>
    refine ⟨_, rfl, ?_, rfl, rfl⟩
    rintro ⟨addr, heof⟩
    cases heof

theorem handedBy_consume (s : OrderedBytes) (len : ℕ) (buf : Bytes) :
    s.handedBy (.consume len buf) = match (s.consume len buf).1 with
      | .ok r => (s.consume len buf).2.2.take r.bytesConsumed
      | _ => [] := by
  simp only [OrderedBytes.handedBy, OrderedBytes.event, Reassembly.delivered]
  rcases s.consume len buf with ⟨res, s', buf'⟩
  cases res <;> simp

theorem handedBy_consumeBytes (h : s.Fed start.toNat cs es a) (out : List Bytes)
    (maxPackets : ℕ) :
    s.handedBy (.consumeBytes out maxPackets) = match (s.consumeBytes out maxPackets).1 with
      | .ok _ => ((s.consumeBytes out maxPackets).2.2.drop out.length).flatten
      | _ => [] := by
  obtain ⟨pieces, -, -, -, hout, hres⟩ :=
    OrderedBytes.consumeBytes_delivers h.represents out maxPackets
  simp only [OrderedBytes.handedBy, OrderedBytes.event, Reassembly.delivered, hout]
  rcases hres with ⟨r, hr, -⟩ | ⟨hr, hnil⟩
  · simp [hr]
  · simp [hr, hnil]

theorem finish_replied {b : ConnectionManagedBuffers} {t : Task} {c : ReadCall}
    (h : b.connBuff.orderedBytes.Fed start.toNat cs es a) (hcs : ∀ c ∈ cs, c ≠ [])
    (haddr : b.connBuff.addr ≠ none) (hc : c.Valid) :
    (finish b t c).1 = { b with
        connBuff.orderedBytes := b.connBuff.orderedBytes.call c.toCall } ∧
      ∃ r, Replied t (finish b t c).2 (b.connBuff.orderedBytes.handedBy c.toCall) r := by
  obtain ⟨addr, haddr⟩ := Option.ne_none_iff_exists'.mp haddr
  cases c with
  | read len buf =>
    refine ⟨?_, ?_⟩
    · simp only [finish, ConnectionBuffer.consume_of_addr haddr]
      rfl
    · simp only [finish, ConnectionBuffer.consume_of_addr haddr, ReadCall.toCall, handedBy_consume]
      have hpos := fun r => @consume_pos b.connBuff.orderedBytes len buf hc.1 hc.2 r
      cases hres : (b.connBuff.orderedBytes.consume len buf).1 with
      | ok r =>
        refine settle_replied t (.ok (r, addr)) _ (fun r' addr' he => ?_)
        cases he
        exact hpos r hres
      | err e => exact settle_replied t _ _ (fun r' addr' he => by cases he)
      | panicked f => exact settle_replied t _ _ (fun r' addr' he => by cases he)
  | readBytes out maxPackets =>
    refine ⟨?_, ?_⟩
    · simp only [finish, ConnectionBuffer.consumeBytes_of_addr haddr]
      rfl
    · simp only [finish, ConnectionBuffer.consumeBytes_of_addr haddr, ReadCall.toCall,
        handedBy_consumeBytes h]
      have hpos := fun r => @consumeBytes_pos start cs _ es a h hcs out maxPackets r
      cases hres : (b.connBuff.orderedBytes.consumeBytes out maxPackets).1 with
      | ok r =>
        refine settle_replied t (.ok (r, addr)) _ (fun r' addr' he => ?_)
        cases he
        exact hpos r hres
      | err e => exact settle_replied t _ _ (fun r' addr' he => by cases he)
      | panicked f => exact settle_replied t _ _ (fun r' addr' he => by cases he)

/-! ### The invariant -/

def handedOut (replies : List Reply) : Bytes := replies.flatMap Reply.bytes

structure Good (start : UInt64) (cs : List Bytes) (st : State) : Prop where
  fed : ∃ es a, st.bytes.Fed start.toNat cs es a ∧
    Reassembly.delivered es = handedOut st.task.replies
  addr : st.bufs.connBuff.addr ≠ none
  valid : ∀ c, st.task.pc.call = some c → c.Valid
  flag : ∀ c, st.task.pc = .finSeen c → st.flag = true

/-- The Fin was seen and all the chunks are gone. -/
structure Finished (start : UInt64) (cs : List Bytes) (st : State) : Prop where
  flag : st.flag = true
  next : st.bytes.smallestPacketNumber.toNat = start.toNat + cs.length
  empty : st.bufs.connBuff.peek.isOk = false
  pc : ∀ c, st.task.pc ≠ .consuming c

theorem fed_call {s : OrderedBytes} {c : ReadCall} (h : s.Fed start.toNat cs es a)
    (hc : c.Valid) :
    ∃ es' a', (s.call c.toCall).Fed start.toNat cs es' a' ∧
      Reassembly.delivered es' = Reassembly.delivered es ++ s.handedBy c.toCall := by
  cases c with
  | read len buf => exact OrderedBytes.fed_consume h len buf hc.2
  | readBytes out maxPackets => exact OrderedBytes.fed_consumeBytes h out maxPackets

theorem good_finish {st : State} {c : ReadCall} (hgood : Good start cs st)
    (hcs : ∀ c ∈ cs, c ≠ []) (hpc : st.task.pc = .consuming c) :
    Good start cs ⟨(finish st.bufs st.task c).1, (finish st.bufs st.task c).2⟩ := by
  obtain ⟨es, a, hfed, hout⟩ := hgood.fed
  have hc := hgood.valid c (by rw [hpc]; rfl)
  obtain ⟨hbufs, r, hreplied⟩ :=
    @finish_replied start cs es a st.bufs st.task c hfed hcs hgood.addr hc
  obtain ⟨es', a', hfed', hmore⟩ := fed_call hfed hc
  refine ⟨⟨es', a', ?_, ?_⟩, ?_, ?_, ?_⟩
  · simp only [State.bytes, hbufs]
    exact hfed'
  · rw [hmore, hout, hreplied.replies, handedOut, handedOut, List.flatMap_append,
      List.flatMap_singleton, hreplied.bytes_eq]
  · simp only [hbufs]
    exact hgood.addr
  · intro c' he
    simp only [hreplied.pc] at he
    cases he
  · intro c' he
    have hnone := hreplied.pc
    simp only at he
    rw [he] at hnone
    cases hnone

theorem good_step {st st' : State} (h : Moves start cs st st') (hcs : ∀ c ∈ cs, c ≠ [])
    (hgood : Good start cs st) : Good start cs st' := by
  obtain ⟨⟨es, a, hfed, hout⟩, haddr, hvalid, hflag⟩ := hgood
  cases h with
  | data packets task hcarry hnumber hwoken =>
    obtain ⟨es', a', hfed', hsame⟩ := OrderedBytes.fed_bufferAll hfed packets hcarry
    refine ⟨⟨es', a', hfed', ?_⟩, haddr, ?_, ?_⟩
    · rw [hsame, hout, woken_replies hwoken]
    · intro c hc
      exact hvalid c (by rw [← woken_call hwoken]; exact hc)
    · intro c hc
      exact hflag c (woken_pc hwoken hc (fun c' he => by cases he))
  | fin closeBuff finAckTx task hkeep hwoken =>
    refine ⟨⟨es, a, hfed, ?_⟩, haddr, ?_, ?_⟩
    · rw [hout, woken_replies hwoken]
    · intro c hc
      exact hvalid c (by rw [← woken_call hwoken]; exact hc)
    · intro c hc
      exact hkeep (hflag c (woken_pc hwoken hc (fun c' he => by cases he)))
  | call c hpc hc =>
    refine ⟨⟨es, a, hfed, hout⟩, haddr, ?_, fun c' he => by cases he⟩
    intro c' he
    cases he
    exact hc
  | resolve c hpc | park c hpc | goOn c hpc | noEof c hpc =>
    refine ⟨⟨es, a, hfed, hout⟩, haddr, ?_, fun c' he => by cases he⟩
    intro c' he
    exact hvalid c' (by rw [hpc]; exact he)
  | seeFin c hpc hset =>
    refine ⟨⟨es, a, hfed, hout⟩, haddr, ?_, fun _ _ => hset⟩
    intro c' he
    exact hvalid c' (by rw [hpc]; exact he)
  | eof c addr hpc =>
    refine ⟨⟨es, a, hfed, ?_⟩, haddr, fun c' he => (by cases he), fun c' he => (by cases he)⟩
    rw [hout]
    simp [handedOut, Task.reply]
  | finish c hpc => exact good_finish ⟨⟨es, a, hfed, hout⟩, haddr, hvalid, hflag⟩ hcs hpc

theorem finished_step {st st' : State} (h : Moves start cs st st')
    (haddr : st.bufs.connBuff.addr ≠ none) (hdone : Finished start cs st) :
    Finished start cs st' := by
  obtain ⟨hflag, hnext, hempty, hpc'⟩ := hdone
  cases h with
  | data packets task hcarry hnumber hwoken =>
    have hsame : st.bytes.bufferAll packets = st.bytes :=
      bufferAll_below packets (fun p hp => by rw [hnext]; exact hnumber p hp)
    simp only [hsame]
    exact ⟨hflag, hnext, hempty,
      fun c hc => hpc' c (woken_pc hwoken hc (fun c' he => by cases he))⟩
  | fin closeBuff finAckTx task hkeep hwoken =>
    exact ⟨hkeep hflag, hnext, hempty,
      fun c hc => hpc' c (woken_pc hwoken hc (fun c' he => by cases he))⟩
  | call | resolve | park | seeFin | eof =>
    exact ⟨hflag, hnext, hempty, fun c' he => by cases he⟩
  | goOn c hpc hunset =>
    rw [hunset] at hflag
    cases hflag
  | noEof c hpc hsome =>
    rcases hsome with hsome | hnone
    · rw [hempty] at hsome
      cases hsome
    · exact absurd hnone haddr
  | finish c hpc => exact absurd hpc (hpc' c)

theorem snoc_split {α : Type} {xs pre post : List α} {x y : α}
    (h : xs ++ [x] = pre ++ y :: post) :
    (xs = pre ∧ x = y ∧ post = []) ∨ ∃ rest, post = rest ++ [x] ∧ xs = pre ++ y :: rest := by
  rcases List.eq_nil_or_concat post with rfl | ⟨rest, z, rfl⟩
  · obtain ⟨hxs, hx⟩ := List.append_inj' h rfl
    exact .inl ⟨hxs, (List.cons.inj hx).1, rfl⟩
  · rw [List.concat_eq_append, ← List.cons_append, ← List.append_assoc] at h
    obtain ⟨hxs, hx⟩ := List.append_inj' h rfl
    obtain rfl := (List.cons.inj hx).1
    exact .inr ⟨rest, List.concat_eq_append, hxs⟩

/-- Every reply without bytes came after all the chunks, and only such replies follow it. -/
def Final (start : UInt64) (cs : List Bytes) (st : State) : Prop :=
  ∀ pre r post, st.task.replies = pre ++ r :: post → r.Eof →
    handedOut pre = cs.flatten ∧ (∀ r' ∈ post, r'.Eof) ∧ Finished start cs st

theorem final_step {st st' : State} (h : Moves start cs st st') (hcs : ∀ c ∈ cs, c ≠ [])
    (hgood : Good start cs st) (hfinal : Final start cs st) : Final start cs st' := by
  have hstill : ∀ pre r post, st.task.replies = pre ++ r :: post → r.Eof →
      handedOut pre = cs.flatten ∧ (∀ r' ∈ post, r'.Eof) ∧ Finished start cs st' := by
    intro pre r post hreplies hr
    obtain ⟨hpre, hpost, hdone⟩ := hfinal pre r post hreplies hr
    exact ⟨hpre, hpost, finished_step h hgood.addr hdone⟩
  intro pre r post hreplies hr
  cases h with
  | data packets task hcarry hnumber hwoken =>
    exact hstill pre r post (by rw [← woken_replies hwoken]; exact hreplies) hr
  | fin closeBuff finAckTx task hkeep hwoken =>
    exact hstill pre r post (by rw [← woken_replies hwoken]; exact hreplies) hr
  | call | resolve | park | seeFin | goOn | noEof => exact hstill pre r post hreplies hr
  | eof c addr hpc hempty htaken =>
    rcases snoc_split hreplies with ⟨rfl, rfl, rfl⟩ | ⟨rest, rfl, hold⟩
    · obtain ⟨es, a, hfed, hout⟩ := hgood.fed
      have hbytes : st.bytes.peek.isOk = false := by
        obtain ⟨addr', haddr⟩ := Option.ne_none_iff_exists'.mp hgood.addr
        simpa only [ConnectionBuffer.peek, haddr] using hempty
      obtain ⟨hnext, hall⟩ := drained_of_taken hfed hbytes htaken
      refine ⟨hout.symm.trans hall, fun r' hr' => (by cases hr'), ?_⟩
      exact ⟨hgood.flag c hpc, hnext, hempty, fun c' he => by cases he⟩
    · obtain ⟨hpre, hpost, hdone⟩ := hstill pre r rest hold hr
      refine ⟨hpre, fun r' hr' => ?_, hdone⟩
      rcases List.mem_append.mp hr' with hr' | hr'
      · exact hpost r' hr'
      · rw [List.mem_singleton.mp hr']
        exact ⟨addr, rfl⟩
  | finish c hpc =>
    obtain ⟨es, a, hfed, hout⟩ := hgood.fed
    obtain ⟨-, r', hreplied⟩ := @finish_replied start cs es a st.bufs st.task c hfed hcs hgood.addr
      (hgood.valid c (by rw [hpc]; rfl))
    rw [hreplied.replies] at hreplies
    rcases snoc_split hreplies with ⟨rfl, rfl, rfl⟩ | ⟨rest, rfl, hold⟩
    · exact absurd hr hreplied.not_eof
    · exact absurd hpc ((hfinal pre r rest hold hr).2.2.pc c)

/-- A connection whose data starts at `start`, before the first datagram. -/
structure Established (start : UInt64) (b : ConnectionManagedBuffers) : Prop where
  bytes : ∃ connId, b.connBuff.orderedBytes = .new connId start
  addr : b.connBuff.addr ≠ none
  flag : b.closeBuff.peerFinObserved = false

theorem final_run {b : ConnectionManagedBuffers} {acts : List Action} {st : State}
    (hcs : ∀ c ∈ cs, c ≠ []) (hlen : start.toNat + cs.length < 2 ^ 64)
    (hb : Established start b) (hr : Run (Step start cs) ⟨b, .new⟩ acts st) :
    Good start cs st ∧ Final start cs st := by
  have hinit : Good start cs ⟨b, .new⟩ := by
    obtain ⟨connId, hbytes⟩ := hb.bytes
    refine ⟨⟨[], Reassembly.init start.toNat, ?_, rfl⟩, hb.addr, fun c he => (by cases he), fun c he => (by cases he)⟩
    simp only [State.bytes, hbytes]
    exact OrderedBytes.fed_new connId start cs
  have hfinal : Final start cs ⟨b, .new⟩ := by
    intro pre r post hreplies
    simp [Task.new] at hreplies
  refine Run.invariant (P := fun _ st => Good start cs st ∧ Final start cs st)
    ⟨hinit, hfinal⟩ ?_ hr
  rintro acts st act st' _ ⟨hgood, hfinal⟩ hstep
  have hmoves := step_moves hlen hstep
  exact ⟨good_step hmoves hcs hgood, final_step hmoves hcs hgood hfinal⟩

/-- In every run in which a call reports the end of the stream only after all
data packets were taken in, whatever arrives in whatever order: a reply without
bytes comes after all the peer's bytes, and every later reply has none either. -/
theorem eof_complete_final {b : ConnectionManagedBuffers} {acts : List Action} {st : State}
    (hcs : ∀ c ∈ cs, c ≠ []) (hlen : start.toNat + cs.length < 2 ^ 64)
    (hb : Established start b) (hr : Run (Step start cs) ⟨b, .new⟩ acts st)
    {pre post : List Reply} {r : Reply} (hreplies : st.task.replies = pre ++ r :: post)
    (heof : r.Eof) : handedOut pre = cs.flatten ∧ ∀ r' ∈ post, r'.Eof := by
  obtain ⟨-, hfinal⟩ := final_run hcs hlen hb hr
  obtain ⟨hpre, hpost, -⟩ := hfinal pre r post hreplies heof
  exact ⟨hpre, hpost⟩

end

/-! ### One data packet and a Fin -/

section Example

/-- A client connection whose first data packet is numbered 7. -/
def clientBufs : ConnectionManagedBuffers where
  connBuff := { ConnectionBuffer.new 1 .client with orderedBytes := .new 1 7, addr := some 9 }
  ackBuff := .new 0
  closeBuff := .new
  finAckTx := some []

theorem clientBufs_established : Established 7 clientBufs :=
  ⟨⟨1, rfl⟩, by simp [clientBufs], rfl⟩

def onlyData : BluefinPacket :=
  ⟨(BluefinHeader.new 2 1 .unencryptedData 1 .default).withPacketNumber 7, [5]⟩

def onlyFin : BluefinPacket :=
  ⟨(BluefinHeader.new 2 1 .fin 0 .default).withPacketNumber 8, []⟩

theorem onlyData_arrives : PeerDatagram 7 [[5]] [onlyData] :=
  .inl ⟨by simp, fun p hp => by
    rw [List.mem_singleton.mp hp]
    exact ⟨rfl, 0, rfl, rfl⟩⟩

theorem onlyFin_arrives : PeerDatagram 7 [[5]] [onlyFin] := .inr ⟨onlyFin, rfl, rfl, rfl⟩

theorem onlyData_taken {s : OrderedBytes} (h : 7 < s.smallestPacketNumber.toNat) (k : ℕ)
    (hk : k < [[(5 : UInt8)]].length) : TakenIn s ((7 : UInt64).toNat + k) := by
  obtain rfl : k = 0 := by simpa using hk
  exact .inl h

/-- A call that has seen the flag finds the data packet, or it has been read. -/
def settled (st : State) (act : Action) : Bool :=
  match act, st.task.pc with
  | .task, .finSeen _ =>
    st.bufs.connBuff.peek.isOk || decide (7 < st.bytes.smallestPacketNumber.toNat)
  | _, _ => true

theorem settled_eofSettled {st : State} (h : settled st .task = true) : EofSettled 7 [[5]] st := by
  rintro ⟨c, hpc⟩ hempty
  simp only [settled, hpc, hempty, Bool.false_or, decide_eq_true_eq] at h
  exact onlyData_taken h

/-- The Fin arrives first, and the data between the load of the flag and the peek of a call. -/
def dataAtLast : List Action :=
  [.arrive [onlyFin], .call (.read 1 [0]), .task, .task, .arrive [onlyData], .task, .task,
    .call (.read 1 [0]), .task, .task, .task]

theorem dataAtLast_permitted : ∀ act ∈ dataAtLast, Permitted 7 [[5]] act := by
  intro act hact
  simp only [dataAtLast, List.mem_cons, List.not_mem_nil, or_false] at hact
  rcases hact with rfl | rfl | rfl | rfl | rfl | rfl | rfl | rfl | rfl | rfl | rfl
  · exact onlyFin_arrives
  · exact ⟨by decide, by decide⟩
  · trivial
  · trivial
  · exact onlyData_arrives
  · trivial
  · trivial
  · exact ⟨by decide, by decide⟩
  · trivial
  · trivial
  · trivial

theorem eof_complete_final_race : ∃ st, Run (Step 7 [[5]]) ⟨clientBufs, .new⟩ dataAtLast st ∧
    st.task.replies = [⟨.ok (1, 9), [5]⟩, ⟨.ok (0, 9), []⟩] ∧
      handedOut [⟨.ok (1, 9), [5]⟩] = [[5]].flatten := by
  have hcomputed : (dataAtLast.foldlM (fun st act => if settled st act then step st act else none)
      (State.mk clientBufs .new)).map (·.task.replies) =
        some [⟨.ok (1, 9), [5]⟩, ⟨.ok (0, 9), []⟩] := by
    decide +kernel
  obtain ⟨st, hr, hreplies⟩ := @Run.exists_of_foldlM _ _ (Step 7 [[5]]) _ _ _ _ _ _
    (fun act hact s t h => by
      obtain ⟨hsettled, hstep⟩ := Option.ite_none_right_eq_some.mp h
      refine ⟨dataAtLast_permitted act hact, fun hact => ?_, hstep⟩
      rw [hact] at hsettled
      exact settled_eofSettled hsettled) hcomputed
  refine ⟨st, hr, hreplies, ?_⟩
  exact (@eof_complete_final 7 [[5]] clientBufs _ _ (by simp) (by decide) clientBufs_established
    hr [⟨.ok (1, 9), [5]⟩] [] ⟨.ok (0, 9), []⟩ hreplies ⟨9, rfl⟩).1

/-- The Fin overtakes the data: the first read reports the end of the stream, and the data that
comes after it can still be read. -/
theorem eof_before_data : ∃ acts st,
    Run (fun st act st' => Permitted 7 [[5]] act ∧ step st act = some st') ⟨clientBufs, .new⟩
      acts st ∧
      st.task.replies = [⟨.ok (0, 9), []⟩] ∧ st.bufs.connBuff.peek = .ok () := by
  have hall : ∀ act ∈ [Action.arrive [onlyFin], .call (.read 1 [0]), .task, .task, .task,
      .arrive [onlyData]], Permitted 7 [[5]] act := by
    intro act hact
    simp only [List.mem_cons, List.not_mem_nil, or_false] at hact
    rcases hact with rfl | rfl | rfl | rfl | rfl | rfl
    · exact onlyFin_arrives
    · exact ⟨by decide, by decide⟩
    · trivial
    · trivial
    · trivial
    · exact onlyData_arrives
  refine ⟨_, _, Run.of_foldlM _ (fun e he _ _ hstep => ⟨hall e he, hstep⟩) rfl, ?_, ?_⟩
  · decide
  · decide

end Example

end Reader

end Bluefin
