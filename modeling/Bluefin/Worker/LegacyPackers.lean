import Mathlib.Data.List.ReduceOption
import Bluefin.Worker.AckSender

/-!
# The packers of the unit tests (worker/writer.rs, `consume_data`, `consume_acks`)

The tests of the writer run on these two, the program on `consume_data_into` and
`consume_acks_into`. `consume_data` enters its loop with an empty running payload
where the other has popped the first element, and so it emits the first packet of
a long first element in another branch; `consume_acks` pops an ack before it asks
for room and pushes it back. Both compute what the shipped packers compute.
-/

namespace Bluefin
open Base

namespace WriterHandler

/-- What `BluefinSecurityFields::new(false, 0x0)` returns. -/
def legacySecurityFields : BluefinSecurityFields := .default

example : BluefinSecurityFields.new false 0x0 = .ok legacySecurityFields := rfl

/-! ### `consume_data` -/

/-- The locals of `consume_data`. -/
structure ConsumeState where
  ans : Bytes
  bytesRemaining : ℕ
  runningPayload : Bytes
  queue : List Bytes
  nextPacketNum : UInt64

section Legacy

variable (srcConnId dstConnId : UInt32)

/-- The emission that the source has four times (writer.rs:822-834, 846-858, 880-892, 911-923). -/
def takePacket (st : ConsumeState) : ConsumeState :=
  let maxBytesToTake :=
    min st.runningPayload.length (min maxBluefinPayloadSizeBytes (st.bytesRemaining - 20))
  let header := (BluefinHeader.new srcConnId dstConnId .unencryptedData 0
    legacySecurityFields).withPacketNumber st.nextPacketNum
  let header := { header with typeSpecificPayload := UInt16.ofNat maxBytesToTake }
  let remaining := st.runningPayload.drop maxBytesToTake
  let payload := st.runningPayload.take maxBytesToTake
  { st with
    runningPayload := remaining
    ans := serializePacketDirect st.ans header payload
    nextPacketNum := st.nextPacketNum + 1
    bytesRemaining := st.bytesRemaining - (maxBytesToTake + 20) }

/-- writer.rs:821-835 and 910-924. -/
def takePackets (st : ConsumeState) : ConsumeState :=
  if _h : st.runningPayload ≠ [] ∧ st.bytesRemaining ≥ 20 then
    takePackets (takePacket srcConnId dstConnId st)
  else st
termination_by st.bytesRemaining
decreasing_by
  simp only [takePacket]
  omega

/-- The end `if !running_payload.is_empty() { queue.push_front(running_payload) }`. -/
def requeue (st : ConsumeState) : ConsumeState :=
  if st.runningPayload ≠ [] then { st with queue := st.runningPayload :: st.queue } else st

/-- writer.rs:910-934: the remaining amount, and `None` for an empty answer. -/
def consumeRest (st : ConsumeState) : Option Bytes × ConsumeState :=
  let st := requeue (takePackets srcConnId dstConnId st)
  (if st.ans.isEmpty then none else some st.ans, st)

/-- writer.rs:816-907. The early return does not look at the answer. -/
def consumeLoop (st : ConsumeState) : Option Bytes × ConsumeState :=
  if _h : st.bytesRemaining > 20 then
    match _hq : st.queue with
    | [] => consumeRest srcConnId dstConnId st
    | data :: queue =>
      if st.runningPayload.length ≥ st.bytesRemaining - 20 then
        let st := requeue (takePackets srcConnId dstConnId st)
        (some st.ans, st)
      else if st.runningPayload.length ≥ maxBluefinPayloadSizeBytes then
        consumeLoop (takePacket srcConnId dstConnId st)
      else
        let merged := { st with runningPayload := st.runningPayload ++ data, queue := queue }
        if data.length + st.runningPayload.length > maxBluefinPayloadSizeBytes then
          consumeLoop (takePacket srcConnId dstConnId merged)
        else consumeLoop merged
  else consumeRest srcConnId dstConnId st
termination_by st.bytesRemaining + st.queue.length
decreasing_by
  all_goals simp only [takePacket, _hq, List.length_cons]
  all_goals omega

/-- The datagram, the queue and the next packet number after the call. -/
def consumeData (queue : List Bytes) (nextPacketNum : UInt64) :
    Option Bytes × List Bytes × UInt64 :=
  let (ans, st) := consumeLoop srcConnId dstConnId
    { ans := [], bytesRemaining := maxBluefinBytesInUdpDatagram, runningPayload := [],
      queue := queue, nextPacketNum := nextPacketNum }
  (ans, st.queue, st.nextPacketNum)

/-- The state of the shipped packer without its count. -/
def PackState.legacy (st : PackState) : ConsumeState where
  ans := st.ans
  bytesRemaining := st.bytesRemaining
  runningPayload := st.runningPayload
  queue := st.queue
  nextPacketNum := st.nextPacketNum

/-- An empty datagram is given as `None`. -/
def datagramOf (ans : Bytes) : Option Bytes := if ans.isEmpty then none else some ans

variable {srcConnId dstConnId}

theorem takePacket_legacy (st : PackState) :
    takePacket srcConnId dstConnId st.legacy = (emitPacket srcConnId dstConnId st).legacy := rfl

theorem takePackets_legacy (st : PackState) :
    takePackets srcConnId dstConnId st.legacy = (drainRunning srcConnId dstConnId st).legacy := by
  fun_induction drainRunning srcConnId dstConnId st with
  | case1 st h ih =>
    have h' : st.legacy.runningPayload ≠ [] ∧ st.legacy.bytesRemaining ≥ 20 := h
    rw [takePackets, dif_pos h', takePacket_legacy]
    exact ih
  | case2 st h =>
    have h' : ¬ (st.legacy.runningPayload ≠ [] ∧ st.legacy.bytesRemaining ≥ 20) := h
    rw [takePackets, dif_neg h']

theorem requeue_legacy (st : PackState) : requeue st.legacy = (putBack st).legacy := by
  obtain ⟨running, queue, remaining, n, ans, packed⟩ := st
  cases running with
  | nil => rfl
  | cons b running => rfl

theorem consumeRest_legacy (st : PackState) :
    consumeRest srcConnId dstConnId st.legacy =
      (datagramOf (putBack (drainRunning srcConnId dstConnId st)).ans,
        (putBack (drainRunning srcConnId dstConnId st)).legacy) := by
  simp only [consumeRest, takePackets_legacy, requeue_legacy]
  rfl

theorem putBack_ans (st : PackState) : (putBack st).ans = st.ans := by
  unfold putBack
  split <;> rfl

theorem emitPacket_ans_length (st : PackState) :
    st.ans.length + 20 ≤ (emitPacket srcConnId dstConnId st).ans.length := by
  simp only [emitPacket, serializePacketDirect_eq, List.length_append,
    BluefinHeader.serialise_length]
  omega

theorem drainRunning_ans_length (st : PackState) :
    st.ans.length ≤ (drainRunning srcConnId dstConnId st).ans.length := by
  fun_induction drainRunning srcConnId dstConnId st with
  | case1 st h ih =>
    have hemit := @emitPacket_ans_length srcConnId dstConnId st
    omega
  | case2 st h => exact Nat.le_refl _

/-- The early return is taken with bytes to pack and room for them, so that its answer is not empty.
-/
theorem drainRunning_ans_ne (st : PackState) (hne : st.runningPayload ≠ [])
    (hroom : st.bytesRemaining ≥ 20) : (drainRunning srcConnId dstConnId st).ans.isEmpty = false := by
  have hemit := @emitPacket_ans_length srcConnId dstConnId st
  have hdrain := @drainRunning_ans_length srcConnId dstConnId (emitPacket srcConnId dstConnId st)
  rw [drainRunning, dif_pos ⟨hne, hroom⟩, List.isEmpty_eq_false_iff, ← List.length_pos_iff]
  omega

theorem consumeLoop_rest (st : PackState) (h : st.queue = [] ∨ ¬ st.bytesRemaining > 20) :
    consumeLoop srcConnId dstConnId st.legacy =
      (datagramOf (putBack (drainRunning srcConnId dstConnId st)).ans,
        (putBack (drainRunning srcConnId dstConnId st)).legacy) := by
  rw [← consumeRest_legacy]
  obtain ⟨running, queue, remaining, n, ans, packed⟩ := st
  rw [consumeLoop]
  by_cases hroom : remaining > 20
  · obtain rfl : queue = [] := h.resolve_right (not_not.mpr hroom)
    exact dif_pos hroom
  · exact dif_neg hroom

theorem consumeLoop_cons (st : PackState) {data : Bytes} {queue : List Bytes}
    (hroom : st.bytesRemaining > 20) (hq : st.queue = data :: queue) :
    consumeLoop srcConnId dstConnId st.legacy =
      if st.runningPayload.length ≥ st.bytesRemaining - 20 then
        (some (putBack (drainRunning srcConnId dstConnId st)).ans,
          (putBack (drainRunning srcConnId dstConnId st)).legacy)
      else if st.runningPayload.length ≥ maxBluefinPayloadSizeBytes then
        consumeLoop srcConnId dstConnId (emitPacket srcConnId dstConnId st).legacy
      else if data.length + st.runningPayload.length > maxBluefinPayloadSizeBytes then
        consumeLoop srcConnId dstConnId (emitPacket srcConnId dstConnId
          { st with runningPayload := st.runningPayload ++ data, queue := queue }).legacy
      else consumeLoop srcConnId dstConnId
        { st with runningPayload := st.runningPayload ++ data, queue := queue }.legacy := by
  have hearly := requeue_legacy (drainRunning srcConnId dstConnId st)
  rw [← takePackets_legacy] at hearly
  rw [← hearly]
  obtain ⟨running, queue', remaining, n, ans, packed⟩ := st
  obtain rfl : queue' = data :: queue := hq
  have hans := congrArg ConsumeState.ans hearly
  rw [consumeLoop]
  rw [show (putBack (drainRunning srcConnId dstConnId
    ⟨running, data :: queue, remaining, n, ans, packed⟩)).ans = _ from hans.symm]
  exact dif_pos hroom

theorem consumeLoop_legacy (st : PackState) :
    consumeLoop srcConnId dstConnId st.legacy =
      (datagramOf (packLoop srcConnId dstConnId st).ans,
        (packLoop srcConnId dstConnId st).legacy) := by
  fun_induction packLoop srcConnId dstConnId st with
  | case1 st h hq => rw [consumeLoop_rest _ (Or.inl hq)]
  | case2 st h data queue hq hlong =>
    have hne : st.runningPayload ≠ [] := by
      intro hnil
      rw [hnil, List.length_nil] at hlong
      omega
    have hans := @drainRunning_ans_ne srcConnId dstConnId st hne (by omega)
    rw [consumeLoop_cons _ h hq, if_pos hlong, datagramOf, putBack_ans, hans]
    rfl
  | case3 st h data queue hq hshort hfull ih =>
    rw [consumeLoop_cons _ h hq, if_neg hshort, if_pos hfull]
    exact ih
  | case4 st h data queue hq hshort hsmall merged hover ih =>
    rw [consumeLoop_cons _ h hq, if_neg hshort, if_neg hsmall, if_pos hover]
    exact ih
  | case5 st h data queue hq hshort hsmall merged hfits ih =>
    rw [consumeLoop_cons _ h hq, if_neg hshort, if_neg hsmall, if_neg hfits]
    exact ih
  | case6 st h => rw [consumeLoop_rest _ (Or.inr h)]

/-- When the running payload alone fills the budget, or nothing else is queued, the loop only drains
it. -/
theorem packLoop_drains (st : PackState)
    (h : st.queue = [] ∨ st.bytesRemaining ≤ 20 ∨
      st.bytesRemaining - 20 ≤ st.runningPayload.length) :
    packLoop srcConnId dstConnId st = putBack (drainRunning srcConnId dstConnId st) := by
  fun_cases packLoop srcConnId dstConnId st with
  | case1 => rfl
  | case2 => rfl
  | case3 hroom data queue hq hshort hfull =>
    exfalso
    rw [hq] at h
    simp only [reduceCtorEq, false_or] at h
    omega
  | case4 hroom data queue hq hshort hsmall merged hover =>
    exfalso
    rw [hq] at h
    simp only [reduceCtorEq, false_or] at h
    omega
  | case5 hroom data queue hq hshort hsmall merged hfits =>
    exfalso
    rw [hq] at h
    simp only [reduceCtorEq, false_or] at h
    omega
  | case6 => rfl

theorem packLoop_full (st : PackState) (hne : st.queue ≠ []) (hroom : st.bytesRemaining > 20)
    (hshort : ¬ st.runningPayload.length ≥ st.bytesRemaining - 20)
    (hfull : st.runningPayload.length ≥ 1500) :
    packLoop srcConnId dstConnId st =
      packLoop srcConnId dstConnId (emitPacket srcConnId dstConnId st) := by
  obtain ⟨running, queue, remaining, n, ans, packed⟩ := st
  obtain ⟨data, queue, rfl⟩ := List.exists_cons_of_ne_nil hne
  rw [packLoop, dif_pos hroom]
  exact (if_neg hshort).trans (if_pos hfull)

theorem packLoop_emit (st : PackState) (j : ℕ) (hrem : st.bytesRemaining = 1520 * (j + 1))
    (hlen : 1500 < st.runningPayload.length) :
    packLoop srcConnId dstConnId (emitPacket srcConnId dstConnId st) =
      packLoop srcConnId dstConnId st := by
  -- the first packet of a long running payload may as well be taken before the loop
  have hne : st.runningPayload ≠ [] := List.length_pos_iff.mp (by omega)
  have hdrain : drainRunning srcConnId dstConnId st =
      drainRunning srcConnId dstConnId (emitPacket srcConnId dstConnId st) := by
    rw [drainRunning, dif_pos ⟨hne, by omega⟩]
  have hafter : (emitPacket srcConnId dstConnId st).queue = st.queue ∧
      (emitPacket srcConnId dstConnId st).bytesRemaining = 1520 * j ∧
      (emitPacket srcConnId dstConnId st).runningPayload.length =
        st.runningPayload.length - 1500 := by
    rw [emitPacket_eq srcConnId dstConnId st j hrem]
    simp only [emitted, List.length_take, List.length_drop]
    exact ⟨trivial, by omega, by omega⟩
  obtain ⟨hqueue, hremaining, hrunning⟩ := hafter
  by_cases hall : st.queue = [] ∨ st.bytesRemaining - 20 ≤ st.runningPayload.length
  · have hst : packLoop srcConnId dstConnId st = putBack (drainRunning srcConnId dstConnId st) :=
      packLoop_drains st (hall.imp_right Or.inr)
    rw [hst, hdrain, packLoop_drains]
    rcases hall with hnil | hlong
    · exact Or.inl (by rw [hqueue, hnil])
    · exact Or.inr (Or.inr (by omega))
  · obtain ⟨hcons, hshort⟩ := not_or.mp hall
    exact (packLoop_full st hcons (by omega) hshort (by omega)).symm

theorem packLoop_pop (st : PackState) (j : ℕ) (hrem : st.bytesRemaining = 1520 * (j + 1))
    (data : Bytes) (queue : List Bytes) :
    packLoop srcConnId dstConnId { st with runningPayload := [], queue := data :: queue } =
      packLoop srcConnId dstConnId { st with runningPayload := data, queue := queue } := by
  -- `consume_data` pops the first element inside its loop; nothing depends on it
  have hroom : st.bytesRemaining > 20 := by omega
  rw [packLoop, dif_pos hroom]
  simp only [List.length_nil, List.nil_append]
  rw [if_neg (by omega), if_neg (by decide)]
  split
  · rename_i hlong
    exact packLoop_emit _ j hrem hlong
  · rfl

end Legacy

theorem consumeData_eq (srcConnId dstConnId : UInt32) (queue : List Bytes) (n : UInt64) :
    consumeData srcConnId dstConnId queue n =
      (datagramOf (consumeDataInto srcConnId dstConnId queue n []).2.2.2,
        (consumeDataInto srcConnId dstConnId queue n []).2.1,
        (consumeDataInto srcConnId dstConnId queue n []).2.2.1) := by
  have hloop := @consumeLoop_legacy srcConnId dstConnId
    ⟨[], queue, maxBluefinBytesInUdpDatagram, n, [], 0⟩
  rw [show consumeData srcConnId dstConnId queue n = _ from
    congrArg (fun r => (r.1, r.2.queue, r.2.nextPacketNum)) hloop]
  cases queue with
  | nil =>
    rw [packLoop_drains _ (Or.inl rfl), drainRunning_stop _ (Or.inl rfl)]
    rfl
  | cons data queue =>
    rw [packLoop_pop ⟨[], data :: queue, maxBluefinBytesInUdpDatagram, n, [], 0⟩ 9 rfl]
    rfl

theorem consumeDataInto_zero (srcConnId dstConnId : UInt32) (queue : List Bytes) (n : UInt64) :
    (consumeDataInto srcConnId dstConnId queue n []).1 = 0 ↔
      (consumeDataInto srcConnId dstConnId queue n []).2.2.2 = [] := by
  obtain ⟨rest, hinto, _⟩ := consumeDataInto_eq srcConnId dstConnId queue n []
  rw [hinto, ← List.length_eq_zero_iff]
  simp only [List.nil_append, dataPackets_length]
  by_cases hnil : queue.flatten = []
  · rw [hnil, cut_nil]
    simp
  · have hpos := List.length_pos_iff.mpr hnil
    have hcut := List.length_pos_iff.mpr (cut_ne_nil queue.flatten hnil)
    omega

/-- The answers of `k` calls in a row, and what is left. -/
def consumeDataCalls (srcConnId dstConnId : UInt32) :
    ℕ → List Bytes → UInt64 → List (Option Bytes) × List Bytes × UInt64
  | 0, queue, n => ([], queue, n)
  | k + 1, queue, n =>
    let (ans, queue, n) := consumeData srcConnId dstConnId queue n
    let (answers, queue, n) := consumeDataCalls srcConnId dstConnId k queue n
    (ans :: answers, queue, n)

/-- Each call with a cleared buffer. -/
def consumeDataIntoCalls (srcConnId dstConnId : UInt32) :
    ℕ → List Bytes → UInt64 → List (ℕ × Bytes) × List Bytes × UInt64
  | 0, queue, n => ([], queue, n)
  | k + 1, queue, n =>
    let (packed, queue, n, ans) := consumeDataInto srcConnId dstConnId queue n []
    let (answers, queue, n) := consumeDataIntoCalls srcConnId dstConnId k queue n
    ((packed, ans) :: answers, queue, n)

/-- The packer of the tests is the shipped packer: one call, and any number of calls in a row. -/
theorem data_packers_agree (srcConnId dstConnId : UInt32) (queue : List Bytes) (n : UInt64) :
    consumeData srcConnId dstConnId queue n =
      (datagramOf (consumeDataInto srcConnId dstConnId queue n []).2.2.2,
        (consumeDataInto srcConnId dstConnId queue n []).2.1,
        (consumeDataInto srcConnId dstConnId queue n []).2.2.1) ∧
    ((consumeDataInto srcConnId dstConnId queue n []).1 = 0 ↔
      (consumeDataInto srcConnId dstConnId queue n []).2.2.2 = []) ∧
    ∀ k, consumeDataCalls srcConnId dstConnId k queue n =
      ((consumeDataIntoCalls srcConnId dstConnId k queue n).1.map (fun r => datagramOf r.2),
        (consumeDataIntoCalls srcConnId dstConnId k queue n).2) := by
  refine ⟨consumeData_eq srcConnId dstConnId queue n,
    consumeDataInto_zero srcConnId dstConnId queue n, ?_⟩
  intro k
  induction k generalizing queue n with
  | zero => rfl
  | succ k ih =>
    simp only [consumeDataCalls, consumeDataIntoCalls, consumeData_eq, ih]
    rfl

/-! ### `consume_acks` -/

section

variable (srcConnId dstConnId : UInt32)

def legacyAckHeader (a : AckData) : BluefinHeader :=
  { BluefinHeader.new srcConnId dstConnId .ack 0 legacySecurityFields with
    packetNumber := a.1
    typeSpecificPayload := UInt16.ofNat a.2 }

/-- writer.rs:989-1007: the queue that is left and the datagram. -/
def legacyAcksLoop : List AckData → Bytes → List AckData × Bytes
  | [], bytes => ([], bytes)
  | data :: queue, bytes =>
    if bytes.length ≤ maxBluefinBytesInUdpDatagram then
      if bytes.length + 20 ≤ maxBluefinBytesInUdpDatagram then
        legacyAcksLoop queue (appendHeader bytes (legacyAckHeader srcConnId dstConnId data))
      else (data :: queue, bytes)
    else (data :: queue, bytes)

/-- writer.rs:978-1014: the datagram and the queue. -/
def consumeAcks (queue : List AckData) : Option Bytes × List AckData :=
  let (queue, bytes) := legacyAcksLoop srcConnId dstConnId queue []
  (if bytes.length = 0 then none else some bytes, queue)

theorem legacyAcksLoop_eq (queue : List AckData) (bytes : Bytes) :
    legacyAcksLoop srcConnId dstConnId queue bytes =
      consumeAcksLoop srcConnId dstConnId queue bytes := by
  induction queue generalizing bytes with
  | nil => rfl
  | cons a queue ih =>
    unfold legacyAcksLoop consumeAcksLoop
    by_cases hroom : bytes.length + 20 ≤ maxBluefinBytesInUdpDatagram
    · rw [if_pos (by omega), if_pos hroom, if_neg (by omega), ih]
      rfl
    · rw [if_pos (Nat.lt_of_not_le hroom)]
      simp only [if_neg hroom, ite_self]

theorem consumeAcks_eq (queue : List AckData) :
    consumeAcks srcConnId dstConnId queue =
      (datagramOf (consumeAcksInto srcConnId dstConnId queue []).2.2,
        (consumeAcksInto srcConnId dstConnId queue []).2.1) := by
  have hloop := AckSender.consumeAcksLoop_take srcConnId dstConnId queue [] 0 rfl (by omega)
  rw [AckSender.consumeAcksInto_eq, consumeAcks, legacyAcksLoop_eq, hloop]
  simp only [datagramOf, List.nil_append, Nat.sub_zero, List.length_eq_zero_iff,
    List.isEmpty_iff]

/-- Calls of either packer in a row, `k` of them, each with a cleared buffer: the datagrams and the
queue that is left. -/
def consumeAcksCalls : ℕ → List AckData → List (Option Bytes) × List AckData
  | 0, queue => ([], queue)
  | k + 1, queue =>
    let (ans, queue) := consumeAcks srcConnId dstConnId queue
    let (answers, queue) := consumeAcksCalls k queue
    (ans :: answers, queue)

def consumeAcksIntoCalls : ℕ → List AckData → List Bytes × List AckData
  | 0, queue => ([], queue)
  | k + 1, queue =>
    let (_, queue, bytes) := consumeAcksInto srcConnId dstConnId queue []
    let (answers, queue) := consumeAcksIntoCalls k queue
    (bytes :: answers, queue)

variable {srcConnId dstConnId}

theorem consumeAcksCalls_eq (k : ℕ) (queue : List AckData) :
    consumeAcksCalls srcConnId dstConnId k queue =
      ((consumeAcksIntoCalls srcConnId dstConnId k queue).1.map datagramOf,
        (consumeAcksIntoCalls srcConnId dstConnId k queue).2) := by
  induction k generalizing queue with
  | zero => rfl
  | succ k ih =>
    simp only [consumeAcksCalls, consumeAcksIntoCalls, consumeAcks_eq, ih]
    rfl

theorem consumeAcksIntoCalls_queue (k : ℕ) (queue : List AckData) :
    (consumeAcksIntoCalls srcConnId dstConnId k queue).2 = queue.drop (760 * k) := by
  induction k generalizing queue with
  | zero => rfl
  | succ k ih =>
    simp only [consumeAcksIntoCalls, AckSender.consumeAcksInto_eq, ih, List.drop_drop]
    congr 1
    omega

theorem fromBytes_packed {queue : List AckData} (hne : queue ≠ [])
    (hcounts : ∀ a ∈ queue, a.2 ≤ 65535) :
    ∃ ps, BluefinPacket.fromBytes (AckPath.ackDatagram srcConnId dstConnId (queue.take 760)) =
        .ok ps ∧
      (∀ p ∈ ps, p.header.typeField = .ack ∧ p.header.sourceConnectionId = srcConnId ∧
        p.header.destinationConnectionId = dstConnId) ∧
      AckSender.acksOf ps = queue.take 760 := by
  have hfirst : queue.take 760 ≠ [] := by
    cases queue with
    | nil => exact absurd rfl hne
    | cons a queue => simp
  refine ⟨_, AckSender.fromBytes_ackDatagram srcConnId dstConnId hfirst, ?_, ?_⟩
  · intro p hp
    obtain ⟨a, -, rfl⟩ := List.mem_map.mp hp
    exact ⟨rfl, rfl, rfl⟩
  · rw [AckSender.acksOf_ackPackets]
    exact AckSender.map_count_eq fun a ha => hcounts a (List.mem_of_mem_take ha)

/-- The datagrams of `k` calls carry the first `760 * k` acks. -/
theorem fromBytes_calls (k : ℕ) (queue : List AckData) (hcounts : ∀ a ∈ queue, a.2 ≤ 65535) :
    ∃ packets : List (List BluefinPacket),
      (consumeAcksCalls srcConnId dstConnId k queue).1.reduceOption.map BluefinPacket.fromBytes =
        packets.map .ok ∧
      AckSender.acksOf packets.flatten = queue.take (760 * k) := by
  induction k generalizing queue with
  | zero => exact ⟨[], rfl, rfl⟩
  | succ k ih =>
    have hrest : ∀ a ∈ queue.drop 760, a.2 ≤ 65535 :=
      fun a ha => hcounts a (List.mem_of_mem_drop ha)
    obtain ⟨packets, hparse, hacks⟩ := ih (queue.drop 760) hrest
    have htake : queue.take (760 * (k + 1)) = queue.take 760 ++ (queue.drop 760).take (760 * k) := by
      rw [← List.take_add]
      congr 1
      omega
    simp only [consumeAcksCalls, consumeAcks_eq, AckSender.consumeAcksInto_eq]
    by_cases hnil : queue = []
    · refine ⟨packets, ?_, ?_⟩
      · rw [hnil] at hparse ⊢
        exact hparse
      · rw [hacks, htake, hnil]
        rfl
    · obtain ⟨ps, hps, _, hfirst⟩ := @fromBytes_packed srcConnId dstConnId queue hnil hcounts
      have hsome : datagramOf (AckPath.ackDatagram srcConnId dstConnId (queue.take 760)) =
          some (AckPath.ackDatagram srcConnId dstConnId (queue.take 760)) := by
        rw [datagramOf, if_neg]
        rw [List.isEmpty_iff, AckSender.ackDatagram_eq_nil, List.take_eq_nil_iff]
        simp [hnil]
      refine ⟨ps :: packets, ?_, ?_⟩
      · rw [hsome, List.reduceOption_cons_of_some, List.map_cons, hparse, hps]
        rfl
      · rw [htake, ← hacks, ← hfirst, List.flatten_cons]
        simp [AckSender.acksOf]

end

/-- Both ack packers, on every queue whose counts fit the header. -/
theorem ack_packers_agree (srcConnId dstConnId : UInt32) (queue : List AckData)
    (hcounts : ∀ a ∈ queue, a.2 ≤ 65535) :
    consumeAcks srcConnId dstConnId queue =
      (datagramOf (consumeAcksInto srcConnId dstConnId queue []).2.2,
        (consumeAcksInto srcConnId dstConnId queue []).2.1) ∧
    ((consumeAcksInto srcConnId dstConnId queue []).1 = true ↔
      (consumeAcksInto srcConnId dstConnId queue []).2.2 ≠ []) ∧
    (consumeAcksInto srcConnId dstConnId queue []).2.2.length ≤ 15200 ∧
    (consumeAcksInto srcConnId dstConnId queue []).2.1 = queue.drop 760 ∧
    (queue ≠ [] → ∃ ps,
      BluefinPacket.fromBytes (consumeAcksInto srcConnId dstConnId queue []).2.2 = .ok ps ∧
      (∀ p ∈ ps, p.header.typeField = .ack ∧ p.header.sourceConnectionId = srcConnId ∧
        p.header.destinationConnectionId = dstConnId) ∧
      AckSender.acksOf ps = queue.take (min queue.length 760)) ∧
    ∀ k, consumeAcksCalls srcConnId dstConnId k queue =
        ((consumeAcksIntoCalls srcConnId dstConnId k queue).1.map datagramOf,
          (consumeAcksIntoCalls srcConnId dstConnId k queue).2) ∧
      (queue.length ≤ 760 * k →
        (consumeAcksCalls srcConnId dstConnId k queue).2 = [] ∧
        ∃ packets : List (List BluefinPacket),
          (consumeAcksCalls srcConnId dstConnId k queue).1.reduceOption.map
            BluefinPacket.fromBytes = packets.map .ok ∧
          AckSender.acksOf packets.flatten = queue) := by
  refine ⟨consumeAcks_eq srcConnId dstConnId queue, ?_, ?_, ?_, ?_, ?_⟩
  · rw [AckSender.consumeAcksInto_eq]
    simp only [Ne, AckSender.ackDatagram_eq_nil, List.take_eq_nil_iff]
    simp
  · rw [AckSender.consumeAcksInto_eq]
    simp only [AckSender.ackDatagram_length, List.length_take]
    omega
  · rw [AckSender.consumeAcksInto_eq]
  · intro hne
    rw [AckSender.consumeAcksInto_eq, Nat.min_comm, ← List.take_eq_take_min]
    exact fromBytes_packed hne hcounts
  · intro k
    refine ⟨consumeAcksCalls_eq k queue, ?_⟩
    intro hk
    obtain ⟨packets, hparse, hacks⟩ := @fromBytes_calls srcConnId dstConnId k queue hcounts
    refine ⟨?_, packets, hparse, ?_⟩
    · rw [consumeAcksCalls_eq, consumeAcksIntoCalls_queue, List.drop_of_length_le hk]
    · rw [hacks, List.take_of_length_le hk]

theorem ack_packers_agree_pair :
    ∃ ps, BluefinPacket.fromBytes (consumeAcksInto 2 1 [(7, 3), (9, 65535)] []).2.2 = .ok ps ∧
      AckSender.acksOf ps = [(7, 3), (9, 65535)] := by
  obtain ⟨_, _, _, _, hdecode, _⟩ := ack_packers_agree 2 1 [(7, 3), (9, 65535)] (by decide)
  obtain ⟨ps, hps, _, hacks⟩ := hdecode (by decide)
  exact ⟨ps, hps, hacks⟩

end WriterHandler

end Bluefin
