import Bluefin.Worker.WriterAccounting

/-!
# The packet number of the Fin

`close()` takes the number of its Fin from `next_packet_num_shared`, which the
packetiser stores once per iteration, after it has handed the datagrams of the
iteration over. The number is right exactly if no datagram has been handed over
since the last store (`reserve_exact`), and then it stays right for the rest of
the run (`fin_number_next`).
-/

namespace Bluefin
open Base

namespace Writer

/-! ### Numbered datagrams -/

/-- The datagrams for the chunk lists `css`, numbered from `n` on. -/
def datagrams (srcConnId dstConnId : UInt32) : UInt64 → List (List Bytes) → List Bytes
  | _, [] => []
  | n, cs :: css =>
    BluefinPacket.serialiseAll (WriterHandler.dataPackets srcConnId dstConnId n cs) ::
      datagrams srcConnId dstConnId (n + UInt64.ofNat cs.length) css

def packetsIn (datagram : Bytes) : List BluefinPacket :=
  match BluefinPacket.fromBytesInto datagram [] with
  | (.ok _, packets) => packets
  | _ => []

def Emission.datagram : Emission → List Bytes
  | .data d => [d]
  | .fin _ => []

/-- The data packets that went out, in order. -/
def dataEmitted (wire : List Emission) : List BluefinPacket :=
  ((wire.flatMap Emission.datagram).flatMap packetsIn).filter
    fun p => p.header.typeField = .unencryptedData

def SenderPc.datagram : SenderPc → List Bytes
  | .holding d _ => [d]
  | _ => []

/-- Everything the packetiser has handed over, in order. -/
def handed (st : State) : List Bytes :=
  st.wire.flatMap Emission.datagram ++ (st.sender.datagram ++ st.sendQueue.map Prod.fst)

theorem ofNat_add (n : UInt64) (a b : ℕ) :
    n + UInt64.ofNat a + UInt64.ofNat b = n + UInt64.ofNat (a + b) := by
  rw [UInt64.ofNat_add, UInt64.add_assoc]

theorem add_ofNat_zero (n : UInt64) : n + UInt64.ofNat 0 = n := UInt64.add_zero n

section

variable (srcConnId dstConnId : UInt32)

theorem dataPackets_append (n : UInt64) (cs ds : List Bytes) :
    WriterHandler.dataPackets srcConnId dstConnId n (cs ++ ds) =
      WriterHandler.dataPackets srcConnId dstConnId n cs ++
        WriterHandler.dataPackets srcConnId dstConnId (n + UInt64.ofNat cs.length) ds := by
  induction cs generalizing n with
  | nil =>
    rw [List.length_nil, add_ofNat_zero]
    rfl
  | cons c cs ih =>
    have hnum : n + 1 + UInt64.ofNat cs.length = n + UInt64.ofNat (c :: cs).length := by
      rw [List.length_cons, Nat.add_comm, ← ofNat_add]
      rfl
    rw [List.cons_append, WriterHandler.dataPackets, ih, hnum]
    rfl

theorem datagrams_snoc (n : UInt64) (css : List (List Bytes)) (cs : List Bytes) :
    datagrams srcConnId dstConnId n (css ++ [cs]) = datagrams srcConnId dstConnId n css ++
      [BluefinPacket.serialiseAll (WriterHandler.dataPackets srcConnId dstConnId
        (n + UInt64.ofNat css.flatten.length) cs)] := by
  induction css generalizing n with
  | nil =>
    rw [List.flatten_nil, List.length_nil, add_ofNat_zero]
    rfl
  | cons ds css ih =>
    rw [List.cons_append, datagrams, ih, datagrams, List.flatten_cons, List.length_append,
      ofNat_add]
    rfl

/-- Chunk lists as the packetiser cuts them. -/
def Chunked (css : List (List Bytes)) : Prop :=
  ∀ cs ∈ css, cs ≠ [] ∧ ∀ c ∈ cs, c ≠ [] ∧ c.length ≤ 1500

theorem packetsIn_datagrams (n : UInt64) (css : List (List Bytes)) (h : Chunked css) :
    (datagrams srcConnId dstConnId n css).flatMap packetsIn =
      WriterHandler.dataPackets srcConnId dstConnId n css.flatten := by
  induction css generalizing n with
  | nil => rfl
  | cons cs css ih =>
    obtain ⟨hne, hcs⟩ := h cs (List.mem_cons_self ..)
    have hparse := WriterHandler.fromBytesInto_dataPackets srcConnId dstConnId n cs hne
      (fun c hc => (hcs c hc).1) (fun c hc => (hcs c hc).2)
    have htail : Chunked css := fun ds hds => h ds (List.mem_cons_of_mem _ hds)
    rw [datagrams, List.flatMap_cons, ih _ htail, List.flatten_cons, dataPackets_append, packetsIn,
      hparse]

theorem dataPackets_numbers (n : UInt64) (cs : List Bytes) :
    (WriterHandler.dataPackets srcConnId dstConnId n cs).map (·.header.packetNumber) =
      (List.range cs.length).map fun k => n + UInt64.ofNat k := by
  induction cs generalizing n with
  | nil => rfl
  | cons c cs ih =>
    rw [WriterHandler.dataPackets, List.map_cons, ih, List.length_cons, List.range_succ_eq_map,
      List.map_cons, List.map_map]
    congr 1
    · rw [add_ofNat_zero]
      rfl
    · refine List.map_congr_left (fun k _ => ?_)
      rw [Function.comp_apply, Nat.succ_eq_one_add, ← ofNat_add]
      rfl

theorem dataPackets_filter (n : UInt64) (cs : List Bytes) :
    (WriterHandler.dataPackets srcConnId dstConnId n cs).filter
      (fun p => p.header.typeField = .unencryptedData) =
      WriterHandler.dataPackets srcConnId dstConnId n cs := by
  induction cs generalizing n with
  | nil => rfl
  | cons c cs ih =>
    rw [WriterHandler.dataPackets, List.filter_cons_of_pos (by rfl), ih]

end

/-! ### The numbers of what was handed over -/

section

variable {srcConnId dstConnId : UInt32} {start : UInt64}

/-- The chunk lists of all datagrams handed over so far are `css`. -/
structure Numbered (srcConnId dstConnId : UInt32) (start : UInt64) (st : State)
    (css : List (List Bytes)) : Prop where
  handed_eq : handed st = datagrams srcConnId dstConnId start css
  next_eq : st.nextPacketNum = start + UInt64.ofNat css.flatten.length
  chunked : Chunked css

theorem numbered_pack {st : State} {css : List (List Bytes)} {i n : ℕ} {queue : List Bytes}
    {num : UInt64} {datagram : Bytes} (h : Numbered srcConnId dstConnId start st css)
    (hcall : WriterHandler.consumeDataInto srcConnId dstConnId st.dataQueue st.nextPacketNum [] =
      (n, queue, num, datagram)) (hn : 0 < n) :
    Numbered srcConnId dstConnId start { st with
        dataQueue := queue
        nextPacketNum := num
        sendQueue := st.sendQueue ++ [(datagram, n)]
        packetiser := .pack (i + 1) }
      (css ++ [WriterHandler.cut 10 st.dataQueue.flatten]) := by
  obtain ⟨hlen, -, hnum, hdatagram⟩ := consumed hcall
  have hne : st.dataQueue.flatten ≠ [] := by
    intro hnil
    rw [hnil] at hlen
    simp only [List.length_nil] at hlen
    omega
  have hcut := WriterHandler.cut_cutInto st.dataQueue.flatten
  refine ⟨?_, ?_, ?_⟩
  · have hold := h.handed_eq
    simp only [handed] at hold ⊢
    rw [datagrams_snoc, ← hold, ← h.next_eq, ← hdatagram]
    simp
  · simp only [hnum, h.next_eq, ofNat_add, List.flatten_append, List.flatten_singleton,
      List.length_append]
  · intro cs hcs
    rcases List.mem_append.mp hcs with hcs | hcs
    · exact h.chunked cs hcs
    · rw [List.mem_singleton.mp hcs]
      exact ⟨WriterHandler.cut_ne_nil _ hne, fun c hc => ⟨hcut.ne_nil c hc, hcut.length_le c hc⟩⟩

theorem packNone_num {st : State} {queue : List Bytes} {num : UInt64} {datagram : Bytes}
    (hcall : WriterHandler.consumeDataInto srcConnId dstConnId st.dataQueue st.nextPacketNum [] =
      (0, queue, num, datagram)) : num = st.nextPacketNum := by
  obtain ⟨hlen, -, hnum, -⟩ := consumed hcall
  have hnil : st.dataQueue.flatten = [] := List.eq_nil_of_length_eq_zero (by omega)
  rw [hnum, hnil, WriterHandler.cut_nil, List.length_nil, add_ofNat_zero]

theorem numbered_step {st st' : State} {act : Action} {css : List (List Bytes)}
    (h : Moves srcConnId dstConnId st act st') (hnum : Numbered srcConnId dstConnId start st css) :
    ∃ css', Numbered srcConnId dstConnId start st' css' := by
  obtain ⟨hhanded, hnext, hchunked⟩ := hnum
  unfold handed at hhanded
  cases h with
  | packSome i n queue num datagram hpc hi hcall hn =>
    exact ⟨_, numbered_pack ⟨hhanded, hnext, hchunked⟩ hcall hn⟩
  | packNone i queue num datagram hpc hi hcall =>
    exact ⟨css, hhanded, (packNone_num hcall).trans hnext, hchunked⟩
  | senderTake datagram n sendQueue hpc hqueue =>
    refine ⟨css, ?_, hnext, hchunked⟩
    rw [← hhanded]
    simp [handed, hpc, hqueue, SenderPc.datagram]
  | senderSend datagram n hpc =>
    refine ⟨css, ?_, hnext, hchunked⟩
    rw [← hhanded]
    simp [handed, hpc, SenderPc.datagram, Emission.datagram]
  | senderSub n hpc =>
    refine ⟨css, ?_, hnext, hchunked⟩
    have hidle : SenderPc.datagram (if st.pendingBytes = n then .notify else .idle) = [] := by
      split <;> rfl
    rw [← hhanded]
    simp only [handed, hpc, hidle]
    rfl
  | senderSkip hpc =>
    refine ⟨css, ?_, hnext, hchunked⟩
    rw [← hhanded]
    simp only [handed, hpc]
    rfl
  | senderNotify hpc =>
    refine ⟨css, ?_, hnext, hchunked⟩
    rw [← hhanded]
    simp only [handed, hpc]
    rfl
  | closeSendFin finPn hpc =>
    refine ⟨css, ?_, hnext, hchunked⟩
    rw [← hhanded]
    simp [handed, Emission.datagram]
  | _ => exact ⟨css, hhanded, hnext, hchunked⟩

/-- Every datagram in the sender's hands carries bytes. -/
structure Carrying (st : State) : Prop where
  queue : ∀ e ∈ st.sendQueue, 0 < e.2
  held : ∀ d n, st.sender = .holding d n → 0 < n

theorem carrying_step {st st' : State} {act : Action} (h : Moves srcConnId dstConnId st act st')
    (hc : Carrying st) : Carrying st' := by
  obtain ⟨hqueue, hheld⟩ := hc
  cases h with
  | packSome i n queue num datagram hpc hi hcall hn =>
    refine ⟨fun e he => ?_, hheld⟩
    rcases List.mem_append.mp he with he | he
    · exact hqueue e he
    · rw [List.mem_singleton.mp he]
      exact hn
  | senderTake datagram n sendQueue hpc hsend =>
    have hall := hqueue
    rw [hsend] at hall
    refine ⟨fun e he => hall e (List.mem_cons_of_mem _ he), fun d m hd => ?_⟩
    cases hd
    exact hall (datagram, n) (List.mem_cons_self ..)
  | senderSend => exact ⟨hqueue, fun d m hd => by cases hd⟩
  | senderSub n hpc =>
    refine ⟨hqueue, fun d m hd => ?_⟩
    simp only at hd
    split at hd <;> cases hd
  | senderSkip => exact ⟨hqueue, fun d m hd => by cases hd⟩
  | senderNotify => exact ⟨hqueue, fun d m hd => by cases hd⟩
  | _ => exact ⟨hqueue, hheld⟩

theorem handed_on_wire {st : State} (hc : Carrying st) (h : handedOver st = 0) :
    handed st = st.wire.flatMap Emission.datagram := by
  unfold handedOver at h
  have hqueue : st.sendQueue = [] := by
    cases hq : st.sendQueue with
    | nil => rfl
    | cons e es =>
      have hpos := hc.queue e (by rw [hq]; exact List.mem_cons_self ..)
      rw [hq, List.map_cons, List.sum_cons] at h
      omega
  have hsender : st.sender.datagram = [] := by
    cases hs : st.sender with
    | holding d n =>
      have hpos := hc.held d n hs
      rw [hs] at h
      simp only [SenderPc.bytes] at h
      omega
    | _ => rfl
  rw [handed, hqueue, hsender]
  simp

/-! ### How far the shared number lags behind -/

/-- Datagrams handed over since the last store. -/
def PacketiserPc.handedOver : PacketiserPc → ℕ
  | .recv => 0
  | .drain => 0
  | .pack i => i
  | .store i => i

def CloserPc.finNumber : CloserPc → Option UInt64
  | .record pn => some pn
  | .sendFin pn => some pn
  | .waiting pn => some pn
  | .done pn => some pn
  | _ => none

theorem wake_finNumber (c : CloserPc) : c.wake.finNumber = c.finNumber := by
  cases c <;> rfl

/-- Each datagram handed over carries between one and ten packets. -/
def Lags (st : State) : Prop :=
  st.packetiser.handedOver ≤ 12 ∧ ∃ k, st.packetiser.handedOver ≤ k ∧
    k ≤ 10 * st.packetiser.handedOver ∧ st.nextPacketNum = st.nextPacketNumShared + UInt64.ofNat k

theorem lags_step {st st' : State} {act : Action} (h : Moves srcConnId dstConnId st act st')
    (hlags : st.closer.finNumber = none → Lags st) : st'.closer.finNumber = none → Lags st' := by
  unfold Lags at *
  cases h with
  | recvFirst first chan hpc | drainOne msg chan hpc | drainDone hpc | packDone i hpc =>
    simpa only [hpc, PacketiserPc.handedOver] using hlags
  | packSome i n queue num datagram hpc hi hcall hn =>
    intro hnone
    obtain ⟨-, k, hlo, hhi, hnum⟩ := hlags hnone
    obtain ⟨hlen, -, hnext, -⟩ := consumed hcall
    have hle := WriterHandler.cut_length_le st.dataQueue.flatten
    have hpos : 0 < (WriterHandler.cut 10 st.dataQueue.flatten).length := by
      refine List.length_pos_iff.mpr (WriterHandler.cut_ne_nil _ (fun hnil => ?_))
      rw [hnil, List.length_nil] at hlen
      omega
    simp only [hpc, PacketiserPc.handedOver] at hlo hhi ⊢
    refine ⟨hi, k + (WriterHandler.cut 10 st.dataQueue.flatten).length, by omega, by omega, ?_⟩
    rw [hnext, hnum, ofNat_add]
  | packNone i queue num datagram hpc hi hcall =>
    rw [packNone_num hcall]
    simpa only [hpc, PacketiserPc.handedOver] using hlags
  | store i hpc =>
    exact fun _ => ⟨Nat.zero_le _, 0, Nat.le_refl _, Nat.le_refl _, (add_ofNat_zero _).symm⟩
  | senderNotify => simpa only [wake_finNumber] using hlags
  | closeBegin hpc | closeFlush f f' hpc | closeFlushed hpc | closeMark hpc =>
    exact fun _ => hlags (by rw [hpc]; rfl)
  | closeReserve | closeRecord | closeSendFin | closeRetransmit | closeReturn =>
    exact fun hnone => by cases hnone
  | _ => exact hlags

/-- The shared number is the next one exactly if nothing was handed over since the last store: the
lag is below `2 ^ 64`. -/
theorem reserve_exact {st : State} (h : Lags st) :
    st.nextPacketNumShared = st.nextPacketNum ↔ st.packetiser.handedOver = 0 := by
  obtain ⟨hround, k, hlo, hhi, hnum⟩ := h
  constructor
  · intro heq
    rw [← heq] at hnum
    have hval := congrArg UInt64.toNat hnum
    rw [UInt64.toNat_add, UInt64.toNat_ofNat'] at hval
    have hlt := st.nextPacketNumShared.toNat_lt
    omega
  · intro hzero
    have hk : k = 0 := by omega
    rw [hnum, hk, add_ofNat_zero]

/-! ### What holds while `close()` runs -/

/-- The call's `flush` has seen the counter at zero. -/
def CloserPc.flushed : CloserPc → Bool
  | .idle => false
  | .flushing f => f = .returned
  | _ => true

/-- The `closed` flag is set. -/
def CloserPc.marked : CloserPc → Bool
  | .idle => false
  | .flushing _ => false
  | .mark => false
  | _ => true

theorem wake_idle (c : CloserPc) : c.wake = .idle ↔ c = .idle := by
  cases c <;> simp [CloserPc.wake]

theorem wake_flushed (c : CloserPc) : c.wake.flushed = c.flushed := by
  cases c with
  | flushing f => cases f <;> rfl
  | _ => rfl

theorem wake_marked (c : CloserPc) : c.wake.marked = c.marked := by
  cases c <;> rfl

theorem flush_returned {n : ℕ} {f : FlushPc} (h : f.step n = some .returned) : n = 0 := by
  cases f with
  | check =>
    simp only [FlushPc.step, Option.some.injEq] at h
    split at h
    · assumption
    · cases h
  | register => cases h
  | recheck woken =>
    simp only [FlushPc.step, Option.some.injEq] at h
    split at h
    · assumption
    · split at h <;> cases h
  | parked => cases h
  | returned => cases h

/-- No `send_*` call overlaps `close()`. -/
def NoOverlap (st : State) : Action → Prop
  | .sendBegin _ _ => match st.closer with
    | .idle => True
    | .done _ => True
    | _ => False
  | .closeBegin => st.sends = []
  | _ => True

structure Closing (st : State) : Prop where
  calls : st.closer ≠ .idle → ∀ c ∈ st.sends, c.pc = .start ∧ st.closed = true
  flushed : st.closer.flushed = true → st.pendingBytes = 0
  marked : st.closer.marked = true → st.closed = true

theorem closing_idle {st : State} (h : st.closer = .idle) : Closing st := by
  refine ⟨fun hne => absurd h hne, fun hf => ?_, fun hm => ?_⟩
  · rw [h] at hf
    cases hf
  · rw [h] at hm
    cases hm

/-- Only a call made before `close()` gets beyond its check of the flag. -/
theorem idle_of_active {st : State} (hc : Closing st) {c : SendCall} (hmem : c ∈ st.sends)
    (hact : c.pc ≠ .start ∨ st.closed = false) : st.closer = .idle := by
  by_contra hne
  obtain ⟨hstart, hclosed⟩ := hc.calls hne c hmem
  rcases hact with hact | hact
  · exact hact hstart
  · rw [hact] at hclosed
    cases hclosed

theorem closing_step {st st' : State} {act : Action} (h : Moves srcConnId dstConnId st act st')
    (hover : NoOverlap st act) (hc : Closing st) : Closing st' := by
  have hactive := fun c hmem hact => @idle_of_active st hc c hmem hact
  obtain ⟨hcalls, hflushed, hmarked⟩ := hc
  cases h with
  | sendBegin kind payload =>
    refine ⟨fun hne c hmem => ?_, hflushed, hmarked⟩
    rcases List.mem_append.mp hmem with hmem | hmem
    · exact hcalls hne c hmem
    · rw [List.mem_singleton.mp hmem]
      refine ⟨rfl, hmarked ?_⟩
      simp only [NoOverlap] at hover
      split at hover
      · rename_i hidle
        exact absurd hidle hne
      · rename_i hdone
        rw [hdone]
        rfl
      · exact hover.elim
  | sendClosed i pre post c hsends =>
    rw [hsends] at hcalls
    exact ⟨fun hne d hmem => hcalls hne d (mem_of_removed hmem), hflushed, hmarked⟩
  | sendCheck i pre post c hsends hpc hopen =>
    exact closing_idle (hactive c (by simp [hsends]) (.inr hopen))
  | sendAccount i pre post c hsends hpc | sendEnqueue i pre post c hsends hpc
  | sendFull i pre post c hsends hpc | sendUndo i pre post c hsends hpc
  | sendCancel i pre post c hsends hpc =>
    exact closing_idle (hactive c (by simp [hsends]) (.inl (by simp [hpc])))
  | senderSub n hpc =>
    refine ⟨hcalls, fun hf => ?_, hmarked⟩
    simp only [hflushed hf, Nat.zero_sub]
  | senderNotify hpc =>
    refine ⟨fun hne => hcalls (fun he => hne ((wake_idle _).mpr he)), ?_, ?_⟩
    · simpa only [wake_flushed] using hflushed
    · simpa only [wake_marked] using hmarked
  | closeBegin hpc =>
    have hnone : st.sends = [] := hover
    refine ⟨fun _ c hmem => ?_, fun hf => ?_, fun hm => ?_⟩
    · rw [hnone] at hmem
      cases hmem
    · cases hf
    · cases hm
  | closeFlush f f' hpc hstep =>
    refine ⟨fun _ => hcalls (by simp [hpc]), fun hf => ?_, fun hm => by cases hm⟩
    have hreturned : f' = .returned := of_decide_eq_true hf
    exact flush_returned (hreturned ▸ hstep)
  | closeFlushed hpc =>
    exact ⟨fun _ => hcalls (by simp [hpc]), fun _ => hflushed (by rw [hpc]; rfl),
      fun hm => by cases hm⟩
  | closeMark hpc =>
    exact ⟨fun _ c hmem => ⟨(hcalls (by simp [hpc]) c hmem).1, rfl⟩,
      fun _ => hflushed (by rw [hpc]; rfl), fun _ => rfl⟩
  | closeReserve hpc | closeRecord finPn hpc | closeSendFin finPn hpc | closeRetransmit finPn hpc
  | closeReturn finPn hpc =>
    exact ⟨fun _ => hcalls (by simp [hpc]), fun _ => hflushed (by rw [hpc]; rfl),
      fun _ => hmarked (by rw [hpc]; rfl)⟩
  | _ => exact ⟨hcalls, hflushed, hmarked⟩

/-! ### The number of the Fin -/

/-- The number is reserved by `close()` when no datagram has been handed over since the packetiser
last stored the shared number. -/
def ReserveSettled (st : State) : Action → Prop
  | .close => st.closer = .reserve → st.packetiser.handedOver = 0
  | _ => True

def FinAllowed (st : State) (act : Action) : Prop := NoOverlap st act ∧ ReserveSettled st act

structure FinNext (st : State) : Prop where
  accounted : Accounted st
  lags : st.closer.finNumber = none → Lags st
  closing : Closing st
  reserved : ∀ pn, st.closer.finNumber = some pn → pn = st.nextPacketNum
  emitted : ∀ pn, .fin pn ∈ st.wire → st.closer.finNumber = some pn

theorem finNumber_flushed {c : CloserPc} {pn : UInt64} (h : c.finNumber = some pn) :
    c.flushed = true := by
  cases c with
  | record | sendFin | waiting | done => rfl
  | idle | flushing | mark | reserve => cases h

theorem finNext_step {st st' : State} {act : Action} (h : Moves srcConnId dstConnId st act st')
    (hallowed : FinAllowed st act) (hfin : FinNext st) : FinNext st' := by
  obtain ⟨hacc, hlags, hclosing, hreserved, hemitted⟩ := hfin
  refine ⟨accounted_step h hacc, lags_step h hlags, closing_step h hallowed.1 hclosing, ?_, ?_⟩
  · cases h with
    | packSome i n queue num datagram hpc hi hcall hn =>
      intro pn hpn
      have hpending := hclosing.flushed (finNumber_flushed hpn)
      have htotal := hacc.total
      rw [hpending, unpacked] at htotal
      have hlen := (consumed hcall).1
      omega
    | packNone i queue num datagram hpc hi hcall =>
      intro pn hpn
      exact (hreserved pn hpn).trans (packNone_num hcall).symm
    | senderNotify => simpa only [wake_finNumber] using hreserved
    | closeBegin | closeFlush | closeFlushed | closeMark => exact fun pn hpn => by cases hpn
    | closeReserve hpc =>
      intro pn hpn
      cases hpn
      exact (reserve_exact (hlags (by rw [hpc]; rfl))).mpr (hallowed.2 hpc)
    | closeRecord finPn hpc | closeSendFin finPn hpc | closeRetransmit finPn hpc
    | closeReturn finPn hpc =>
      intro pn hpn
      exact hreserved pn (by rw [hpc]; exact hpn)
    | _ => exact hreserved
  · cases h with
    | senderSend datagram n hpc =>
      intro pn hpn
      exact hemitted pn (by simpa using hpn)
    | senderNotify => simpa only [wake_finNumber] using hemitted
    | closeBegin hpc | closeFlush f f' hpc | closeFlushed hpc | closeMark hpc
    | closeReserve hpc =>
      intro pn hpn
      have hsome := hemitted pn hpn
      rw [hpc] at hsome
      cases hsome
    | closeSendFin finPn hpc =>
      intro pn hpn
      rcases List.mem_append.mp hpn with hpn | hpn
      · have hsome := hemitted pn hpn
        rw [hpc] at hsome
        exact hsome
      · cases List.mem_singleton.mp hpn
        rfl
    | closeRecord finPn hpc | closeRetransmit finPn hpc | closeReturn finPn hpc =>
      intro pn hpn
      have hsome := hemitted pn hpn
      rw [hpc] at hsome
      exact hsome
    | _ => exact hemitted

theorem finNext_run {acts : List Action} {st : State}
    (hr : Run (StepWhen srcConnId dstConnId FinAllowed) (init start) acts st) : FinNext st := by
  have hinit : FinNext (init start) :=
    ⟨⟨rfl, fun _ => rfl⟩,
      fun _ => ⟨Nat.zero_le _, 0, Nat.le_refl _, Nat.le_refl _, (add_ofNat_zero _).symm⟩,
      closing_idle rfl, fun _ hpn => (by cases hpn), fun _ hpn => (by cases hpn)⟩
  refine Run.invariant (P := fun _ st => FinNext st) hinit ?_ hr
  intro acts st act st' _ hfin hstep
  exact finNext_step (step_moves hstep.2) hstep.1 hfin

theorem numbered_run {allowed : State → Action → Prop} {acts : List Action} {st : State}
    (hr : Run (StepWhen srcConnId dstConnId allowed) (init start) acts st) :
    Carrying st ∧ ∃ css, Numbered srcConnId dstConnId start st css := by
  have hinit : Carrying (init start) ∧ ∃ css, Numbered srcConnId dstConnId start (init start) css :=
    ⟨⟨fun _ he => (by cases he), fun _ _ hd => (by cases hd)⟩,
      [], rfl, (add_ofNat_zero _).symm, fun _ hcs => (by cases hcs)⟩
  refine Run.invariant
    (P := fun _ st => Carrying st ∧ ∃ css, Numbered srcConnId dstConnId start st css) hinit ?_ hr
  rintro acts st act st' _ ⟨hcarrying, css, hnumbered⟩ hstep
  exact ⟨carrying_step (step_moves hstep.2) hcarrying,
    numbered_step (step_moves hstep.2) hnumbered⟩

theorem dataEmitted_settled {allowed : State → Action → Prop} {acts : List Action} {st : State}
    (hr : Run (StepWhen srcConnId dstConnId allowed) (init start) acts st)
    (hpending : st.pendingBytes = 0) :
    st.nextPacketNum = start + UInt64.ofNat (dataEmitted st.wire).length ∧
      (dataEmitted st.wire).map (·.header.packetNumber) =
        (List.range (dataEmitted st.wire).length).map fun k => start + UInt64.ofNat k := by
  obtain ⟨hcarrying, css, hnumbered⟩ := numbered_run hr
  have htotal := (accounted_run hr).total
  have hwire := handed_on_wire hcarrying (by omega)
  have hdata : dataEmitted st.wire =
      WriterHandler.dataPackets srcConnId dstConnId start css.flatten := by
    rw [dataEmitted, ← hwire, hnumbered.handed_eq, packetsIn_datagrams _ _ _ _ hnumbered.chunked,
      dataPackets_filter]
  have hnumbers := dataPackets_numbers srcConnId dstConnId start css.flatten
  have hlen := congrArg List.length hnumbers
  rw [List.length_map, List.length_map, List.length_range] at hlen
  rw [hdata, hlen]
  exact ⟨hnumbered.next_eq, hnumbers⟩

theorem fin_number_next {acts : List Action} {st : State} {pn : UInt64}
    (hr : Run (StepWhen srcConnId dstConnId FinAllowed) (init start) acts st)
    (hfin : .fin pn ∈ st.wire) :
    pn = start + UInt64.ofNat (dataEmitted st.wire).length ∧
      (dataEmitted st.wire).map (·.header.packetNumber) =
        (List.range (dataEmitted st.wire).length).map fun k => start + UInt64.ofNat k := by
  have hnext := finNext_run hr
  have hsome := hnext.emitted pn hfin
  have hpending := hnext.closing.flushed (finNumber_flushed hsome)
  obtain ⟨hnum, hnumbers⟩ := dataEmitted_settled hr hpending
  exact ⟨(hnext.reserved pn hsome).trans hnum, hnumbers⟩

theorem run_close {allowed : State → Action → Prop} (st : State) (d : Bytes) (n : ℕ) (hn : 0 < n)
    (hallowed : ∀ st' act, st'.packetiser = st.packetiser → st'.sends = [] →
      act = .sender ∨ act = .closeBegin ∨ act = .close → allowed st' act) :
    ∃ acts st', Run (StepWhen srcConnId dstConnId allowed)
      { st with sendQueue := [(d, n)], sender := .idle, pendingBytes := n, closer := .idle,
                sends := [] } acts st' ∧
      st'.wire = st.wire ++ [.data d, .fin st.nextPacketNumShared] := by
  let sent : State := { st with
    sendQueue := [], sender := .idle, pendingBytes := 0, closer := .idle, sends := []
    wire := st.wire ++ [.data d] }
  let closing (pc : CloserPc) : State := { sent with
    flushes := st.flushes.map FlushPc.wake, closer := pc }
  have hsender : ∀ st', st'.packetiser = st.packetiser → st'.sends = [] → allowed st' .sender :=
    fun st' hp hs => hallowed st' _ hp hs (.inl rfl)
  have hclose : ∀ st', st'.packetiser = st.packetiser → st'.sends = [] → allowed st' .close :=
    fun st' hp hs => hallowed st' _ hp hs (.inr (.inr rfl))
  have hsub : senderStep { sent with pendingBytes := n, sender := .sent n } =
      some { sent with sender := .notify } := by
    simp [senderStep, hn, sent]
  have hsent : Run (StepWhen srcConnId dstConnId allowed)
      { st with sendQueue := [(d, n)], sender := .idle, pendingBytes := n, closer := .idle,
                sends := [] } [.sender, .sender, .sender, .sender] (closing .idle) :=
    (((Run.nil.snoc (t := { st with
        sendQueue := [], sender := .holding d n, pendingBytes := n, closer := .idle, sends := [] })
      ⟨hsender _ rfl rfl, rfl⟩).snoc (t := { sent with pendingBytes := n, sender := .sent n })
      ⟨hsender _ rfl rfl, rfl⟩).snoc (t := { sent with sender := .notify })
      ⟨hsender _ rfl rfl, hsub⟩).snoc ⟨hsender _ rfl rfl, rfl⟩
  have hflushed : Run (StepWhen srcConnId dstConnId allowed) (closing .idle)
      [.closeBegin, .close, .close] (closing .mark) :=
    ((Run.nil.snoc (t := closing (.flushing .check))
      ⟨hallowed _ _ rfl rfl (.inr (.inl rfl)), rfl⟩).snoc (t := closing (.flushing .returned))
      ⟨hclose _ rfl rfl, rfl⟩).snoc ⟨hclose _ rfl rfl, rfl⟩
  have hfin : Run (StepWhen srcConnId dstConnId allowed) (closing .mark)
      [.close, .close, .close, .close] { closing (.waiting st.nextPacketNumShared) with
        closed := true
        nextPacketNumShared := st.nextPacketNumShared + 1
        wire := (st.wire ++ [.data d]) ++ [.fin st.nextPacketNumShared] } :=
    (((Run.nil.snoc (t := { closing .reserve with closed := true })
      ⟨hclose _ rfl rfl, rfl⟩).snoc (t := { closing (.record st.nextPacketNumShared) with
        closed := true, nextPacketNumShared := st.nextPacketNumShared + 1 })
      ⟨hclose _ rfl rfl, rfl⟩).snoc (t := { closing (.sendFin st.nextPacketNumShared) with
        closed := true, nextPacketNumShared := st.nextPacketNumShared + 1 })
      ⟨hclose _ rfl rfl, rfl⟩).snoc ⟨hclose _ rfl rfl, rfl⟩
  exact ⟨_, _, (hsent.append hflushed).append hfin, List.append_assoc ..⟩

/-- A payload of one packet has just been handed over. -/
def oneHanded (srcConnId dstConnId : UInt32) (start : UInt64) (payload : Bytes)
    (queue : List Bytes) : State :=
  { batched start payload with
    dataQueue := queue
    nextPacketNum := start + 1
    sendQueue := [(BluefinPacket.serialiseAll
      (WriterHandler.dataPackets srcConnId dstConnId start [payload]), payload.length)]
    packetiser := .pack 1 }

theorem run_oneHanded {allowed : State → Action → Prop} (start : UInt64) (payload : Bytes)
    (hne : payload ≠ []) (hlen : payload.length ≤ 1500)
    (hidle : ∀ st act, act ≠ .closeBegin → st.closer = .idle → allowed st act) :
    ∃ acts queue, queue.flatten = [] ∧ Run (StepWhen srcConnId dstConnId allowed) (init start) acts
      (oneHanded srcConnId dstConnId start payload queue) := by
  obtain ⟨acts, hr⟩ := @run_batched srcConnId dstConnId allowed start payload
    (fun st act hact hcloser _ => hidle st act hact hcloser)
  have hflat : (batched start payload).dataQueue.flatten = payload := by
    simp only [batched, List.flatten_singleton]
  have hcut : WriterHandler.cut 10 payload = [payload] := WriterHandler.cut_last 9 payload hne hlen
  obtain ⟨queue, hqueue, hstep⟩ := @packetiserStep_some srcConnId dstConnId (batched start payload) 0
    rfl (by decide) (by rw [hflat]; exact hne)
  rw [hflat, List.drop_of_length_le (by omega)] at hqueue
  rw [hflat, hcut, Nat.min_eq_left (by omega)] at hstep
  exact ⟨_, queue, hqueue, hr.snoc (stepWhen_packetiser (hidle _ _ (by simp) rfl) hstep)⟩

theorem finAllowed_idle (st : State) (act : Action) (hact : act ≠ .closeBegin)
    (hcloser : st.closer = .idle) : FinAllowed st act := by
  cases act with
  | sendBegin => exact ⟨by simp [NoOverlap, hcloser], trivial⟩
  | closeBegin => exact absurd rfl hact
  | close => exact ⟨trivial, fun he => by rw [hcloser] at he; cases he⟩
  | _ => exact ⟨trivial, trivial⟩

theorem fin_number_next_single : ∃ acts st,
    Run (StepWhen 2 1 FinAllowed) (init 7) acts st ∧ .fin 8 ∈ st.wire ∧
      (8 : UInt64) = 7 + UInt64.ofNat (dataEmitted st.wire).length := by
  obtain ⟨acts, queue, hqueue, hr⟩ := @run_oneHanded 2 1 FinAllowed 7 [9] (by simp) (by simp)
    finAllowed_idle
  obtain ⟨queue', -, hnone⟩ := @packetiserStep_none 2 1 (oneHanded 2 1 7 [9] queue) 1 rfl
    (by decide) hqueue
  have hstored := (hr.snoc (stepWhen_packetiser (finAllowed_idle _ _ (by simp) rfl) hnone)).snoc
    (stepWhen_store rfl (finAllowed_idle _ _ (by simp) rfl))
  obtain ⟨acts', st', hclosed, hwire⟩ := @run_close 2 1 FinAllowed
    { oneHanded 2 1 7 [9] queue' with nextPacketNumShared := 8, packetiser := .recv }
    (BluefinPacket.serialiseAll (WriterHandler.dataPackets 2 1 7 [[9]])) 1 (by decide) (by
      rintro st' act hpc hsends (rfl | rfl | rfl)
      · exact ⟨trivial, trivial⟩
      · exact ⟨hsends, trivial⟩
      · exact ⟨trivial, fun _ => by rw [hpc]; rfl⟩)
  have hfin : .fin 8 ∈ st'.wire := by rw [hwire]; simp
  have hall := hstored.append hclosed
  exact ⟨_, st', hall, hfin, (fin_number_next hall hfin).1⟩

/-- The sender finishes and `close()` reserves its number before the packetiser stores the shared
one: the Fin repeats the number of the data packet. -/
theorem fin_number_stale : ∃ acts st,
    Run (StepWhen 2 1 NoOverlap) (init 7) acts st ∧ .fin 7 ∈ st.wire ∧
      (dataEmitted st.wire).map (·.header.packetNumber) = [7] := by
  obtain ⟨acts, queue, hqueue, hr⟩ := @run_oneHanded 2 1 NoOverlap 7 [9] (by simp) (by simp)
    (fun st act hact hcloser => (finAllowed_idle st act hact hcloser).1)
  obtain ⟨acts', st', hclosed, hwire⟩ := @run_close 2 1 NoOverlap (oneHanded 2 1 7 [9] queue)
    (BluefinPacket.serialiseAll (WriterHandler.dataPackets 2 1 7 [[9]])) 1 (by decide) (by
      rintro st' act hpc hsends (rfl | rfl | rfl)
      · trivial
      · exact hsends
      · trivial)
  refine ⟨_, st', hr.append hclosed, ?_, ?_⟩
  · rw [hwire]
    simp [oneHanded, batched, init]
  · have hparse := WriterHandler.fromBytesInto_dataPackets 2 1 7 [[9]] (by simp) (by simp) (by simp)
    rw [hwire]
    simp only [oneHanded, batched, init, dataEmitted, List.nil_append, List.flatMap_cons,
      List.flatMap_nil, Emission.datagram, List.append_nil, packetsIn, hparse, dataPackets_filter]
    rfl

end

end Writer

end Bluefin
