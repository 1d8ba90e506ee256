import Bluefin.Base.Chunks
import Bluefin.Core.Codec

/-!
# The packetiser of the writer (worker/writer.rs, `consume_data_into`)

One call packs queued payloads into one datagram: up to ten data packets of
1500 payload bytes each, the last possibly shorter. The budget starts at
`15200 = 10 * (20 + 1500)` and every packet but a last short one takes 1520 off
it, so that while bytes are left to pack the budget is a multiple of 1520 and
the different guards of the source (`> 20`, `>= 20`, `>= budget - 20`) ask for
the same thing: room for a full packet.
-/

namespace Bluefin
open Base

abbrev maxBluefinPayloadSizeBytes : ℕ := 1500
abbrev maxBluefinPacketsInUdpDatagram : ℕ := 10
abbrev maxBluefinBytesInUdpDatagram : ℕ :=
  maxBluefinPacketsInUdpDatagram * (20 + maxBluefinPayloadSizeBytes)

namespace WriterHandler

/-- writer.rs:648-659. The bytes that `set_len` exposes are written before they are read; they stand
as zeros here. -/
def serializePacketDirect (ans : Bytes) (header : BluefinHeader) (payload : Bytes) : Bytes :=
  let currentLen := ans.length
  let packetLen := 20 + payload.length
  let ans := ans ++ List.replicate packetLen 0
  let ans := overwrite ans currentLen (header.serialiseInto ((ans.drop currentLen).take 20))
  overwrite ans (currentLen + 20) payload

/-- The locals of `consume_data_into`. -/
structure PackState where
  runningPayload : Bytes
  queue : List Bytes
  bytesRemaining : ℕ
  nextPacketNum : UInt64
  ans : Bytes
  payloadBytesPacked : ℕ

section Pack

variable (srcConnId dstConnId : UInt32)

/-- The emission that the source has four times (writer.rs:703-715, 725-734, 750-760, 772-782): one
packet off the front of `running_payload`. -/
def emitPacket (st : PackState) : PackState :=
  let maxBytesToTake :=
    min st.runningPayload.length (min maxBluefinPayloadSizeBytes (st.bytesRemaining - 20))
  let header := (BluefinHeader.new srcConnId dstConnId .unencryptedData 0 .default).withPacketNumber
    st.nextPacketNum
  let header := { header with typeSpecificPayload := UInt16.ofNat maxBytesToTake }
  let chunk := st.runningPayload.take maxBytesToTake
  { st with
    runningPayload := st.runningPayload.drop maxBytesToTake
    ans := serializePacketDirect st.ans header chunk
    nextPacketNum := st.nextPacketNum + 1
    bytesRemaining := st.bytesRemaining - (maxBytesToTake + 20)
    payloadBytesPacked := st.payloadBytesPacked + maxBytesToTake }

/-- writer.rs:702-716 and 771-783: packets off `running_payload` alone. -/
def drainRunning (st : PackState) : PackState :=
  if _h : st.runningPayload ≠ [] ∧ st.bytesRemaining ≥ 20 then
    drainRunning (emitPacket srcConnId dstConnId st)
  else st
termination_by st.bytesRemaining
decreasing_by
  simp only [emitPacket]
  omega

/-- The end `if !running_payload.is_empty() { queue.push_front(running_payload) }`. -/
def putBack (st : PackState) : PackState :=
  if st.runningPayload ≠ [] then { st with queue := st.runningPayload :: st.queue } else st

/-- writer.rs:700-789: the merge loop with its early return. -/
def packLoop (st : PackState) : PackState :=
  if _h : st.bytesRemaining > 20 then
    match _hq : st.queue with
    | [] => putBack (drainRunning srcConnId dstConnId st)
    | data :: queue =>
      if st.runningPayload.length ≥ st.bytesRemaining - 20 then
        putBack (drainRunning srcConnId dstConnId st)
      else if st.runningPayload.length ≥ maxBluefinPayloadSizeBytes then
        packLoop (emitPacket srcConnId dstConnId st)
      else
        let merged := { st with runningPayload := st.runningPayload ++ data, queue := queue }
        if data.length + st.runningPayload.length > maxBluefinPayloadSizeBytes then
          packLoop (emitPacket srcConnId dstConnId merged)
        else packLoop merged
  else putBack (drainRunning srcConnId dstConnId st)
termination_by st.bytesRemaining + st.queue.length
decreasing_by
  all_goals simp only [emitPacket, _hq, List.length_cons]
  all_goals omega

/-- The number of payload bytes packed, the queue, the next packet number and the output buffer
after the call. -/
def consumeDataInto (queue : List Bytes) (nextPacketNum : UInt64) (ans : Bytes) :
    ℕ × List Bytes × UInt64 × Bytes :=
  match queue with
  | [] => (0, [], nextPacketNum, ans)
  | runningPayload :: queue =>
    let st := packLoop srcConnId dstConnId
      { runningPayload := runningPayload, queue := queue,
        bytesRemaining := maxBluefinBytesInUdpDatagram, nextPacketNum := nextPacketNum,
        ans := ans, payloadBytesPacked := 0 }
    (st.payloadBytesPacked, st.queue, st.nextPacketNum, st.ans)

end Pack

theorem serializePacketDirect_eq (ans : Bytes) (header : BluefinHeader) (payload : Bytes) :
    serializePacketDirect ans header payload = ans ++ (header.serialise ++ payload) := by
  have hdr : header.serialiseInto (((ans ++ List.replicate (20 + payload.length) 0).drop
      ans.length).take 20) = header.serialise := by
    rw [BluefinHeader.serialiseInto_eq, List.drop_of_length_le (List.length_take_le ..),
      List.append_nil]
  have hlen : (ans ++ header.serialise).length = ans.length + 20 := by
    rw [List.length_append, BluefinHeader.serialise_length]
  simp only [serializePacketDirect]
  rw [hdr, overwrite_append ans _ _ rfl, overwrite_append _ _ _ hlen]
  simp

/-! ### The packets of a datagram -/

def dataPacket (srcConnId dstConnId : UInt32) (n : UInt64) (chunk : Bytes) : BluefinPacket where
  header := { (BluefinHeader.new srcConnId dstConnId .unencryptedData 0 .default).withPacketNumber n
    with typeSpecificPayload := UInt16.ofNat chunk.length }
  payload := chunk

/-- The chunks numbered from `n` on. -/
def dataPackets (srcConnId dstConnId : UInt32) : UInt64 → List Bytes → List BluefinPacket
  | _, [] => []
  | n, c :: cs => dataPacket srcConnId dstConnId n c :: dataPackets srcConnId dstConnId (n + 1) cs

/-- What a budget of `j` full packets makes of the content `xs`. -/
def cut (j : ℕ) (xs : Bytes) : List Bytes :=
  chunksOf 1500 (xs.take (1500 * j))

theorem cut_nil (j : ℕ) : cut j [] = [] := by
  rw [cut, List.take_nil, chunksOf_nil]

theorem cut_zero (xs : Bytes) : cut 0 xs = [] := by
  rw [cut, Nat.mul_zero, List.take_zero, chunksOf_nil]

theorem cut_full (j : ℕ) (xs : Bytes) (h : 1500 ≤ xs.length) :
    cut (j + 1) xs = xs.take 1500 ::
      cut j (xs.drop 1500) := by
  have hne : xs.take (1500 * (j + 1)) ≠ [] := by
    intro he
    have hl := congrArg List.length he
    rw [List.length_take, List.length_nil] at hl
    omega
  rw [cut, chunksOf_cons (by decide) hne, List.take_take, List.drop_take, cut,
    Nat.min_eq_left (by omega),
    show 1500 * (j + 1) - 1500 =
      1500 * j by omega]

theorem cut_last (j : ℕ) (xs : Bytes) (hne : xs ≠ []) (h : xs.length ≤ 1500) :
    cut (j + 1) xs = [xs] := by
  rw [cut, List.take_of_length_le (by omega), chunksOf_short hne h]

/-! ### One emission -/

section Pack

variable (srcConnId dstConnId : UInt32)

/-- An emission takes the chunk `c` off the front of the running payload. -/
def emitted (st : PackState) (c : Bytes) : PackState :=
  { st with
    runningPayload := st.runningPayload.drop c.length
    ans := st.ans ++ (dataPacket srcConnId dstConnId st.nextPacketNum c).serialise
    nextPacketNum := st.nextPacketNum + 1
    bytesRemaining := st.bytesRemaining - (c.length + 20)
    payloadBytesPacked := st.payloadBytesPacked + c.length }

theorem emitPacket_eq (st : PackState) (j : ℕ) (hrem : st.bytesRemaining = 1520 * (j + 1)) :
    emitPacket srcConnId dstConnId st =
      emitted srcConnId dstConnId st (st.runningPayload.take 1500) := by
  have hmin : min st.runningPayload.length
      (min maxBluefinPayloadSizeBytes (st.bytesRemaining - 20)) =
      (st.runningPayload.take 1500).length := by
    rw [List.length_take, hrem]
    simp only [maxBluefinPayloadSizeBytes]
    omega
  have htake : st.runningPayload.take
      (st.runningPayload.take 1500).length =
      st.runningPayload.take 1500 := by
    rw [List.length_take, ← List.take_eq_take_min]
  simp only [emitPacket, hmin, htake, serializePacketDirect_eq]
  rfl

/-- The state `st'` is `st` after the content `xs` was packed with a budget of `j` full packets. -/
structure Packs (st st' : PackState) (j : ℕ) (xs : Bytes) : Prop where
  ans_eq : st'.ans = st.ans ++
    BluefinPacket.serialiseAll (dataPackets srcConnId dstConnId st.nextPacketNum (cut j xs))
  num_eq : st'.nextPacketNum = st.nextPacketNum + UInt64.ofNat (cut j xs).length
  packed_eq : st'.payloadBytesPacked = st.payloadBytesPacked + (xs.take (1500 * j)).length

variable {srcConnId dstConnId}

theorem packs_nothing (st : PackState) (j : ℕ) (xs : Bytes) (h : xs = [] ∨ j = 0) :
    Packs srcConnId dstConnId st st j xs := by
  have hcut : cut j xs = [] := by
    rcases h with rfl | rfl
    · exact cut_nil j
    · exact cut_zero xs
  have htake : xs.take (1500 * j) = [] := by
    rcases h with rfl | rfl
    · exact List.take_nil
    · exact List.take_zero
  refine ⟨?_, ?_, ?_⟩
  · rw [hcut]
    simp [dataPackets]
  · rw [hcut]
    simp
  · rw [htake]
    simp

theorem packs_full {st st' : PackState} {j : ℕ} (rest : Bytes)
    (hlen : 1500 ≤ st.runningPayload.length)
    (h : Packs srcConnId dstConnId
      (emitted srcConnId dstConnId st (st.runningPayload.take 1500)) st' j
      ((st.runningPayload ++ rest).drop 1500)) :
    Packs srcConnId dstConnId st st' (j + 1) (st.runningPayload ++ rest) := by
  have htake : (st.runningPayload ++ rest).take 1500 = st.runningPayload.take 1500 := by
    rw [List.take_append_of_le_length hlen]
  have hcut := cut_full j (st.runningPayload ++ rest) (by rw [List.length_append]; omega)
  rw [htake] at hcut
  refine ⟨?_, ?_, ?_⟩
  · rw [h.ans_eq, hcut]
    simp [emitted, dataPackets, List.append_assoc]
  · rw [h.num_eq, hcut]
    simp only [emitted, List.length_cons, UInt64.ofNat_add, UInt64.ofNat_one]
    rw [UInt64.add_assoc, UInt64.add_comm 1]
  · rw [h.packed_eq]
    simp only [emitted, List.length_take, List.length_drop, List.length_append]
    omega

theorem packs_last {st : PackState} (j : ℕ) (hne : st.runningPayload ≠ [])
    (hlen : st.runningPayload.length ≤ 1500) :
    Packs srcConnId dstConnId st
      (emitted srcConnId dstConnId st (st.runningPayload.take 1500)) (j + 1) st.runningPayload := by
  rw [List.take_of_length_le hlen]
  have hcut := cut_last j st.runningPayload hne hlen
  refine ⟨?_, ?_, ?_⟩
  · rw [hcut]
    simp [emitted, dataPackets]
  · rw [hcut]
    rfl
  · rw [List.take_of_length_le (by omega)]
    rfl

theorem drainRunning_stop (st : PackState) (h : st.runningPayload = [] ∨ st.bytesRemaining < 20) :
    drainRunning srcConnId dstConnId st = st := by
  rw [drainRunning, dif_neg]
  rintro ⟨hne, hge⟩
  rcases h with h | h
  · exact hne h
  · omega

theorem drainRunning_spec (st : PackState) (j : ℕ) (hrem : st.bytesRemaining = 1520 * j) :
    Packs srcConnId dstConnId st (drainRunning srcConnId dstConnId st) j st.runningPayload ∧
      (drainRunning srcConnId dstConnId st).runningPayload = st.runningPayload.drop (1500 * j) ∧
      (drainRunning srcConnId dstConnId st).queue = st.queue := by
  induction j generalizing st with
  | zero =>
    rw [drainRunning_stop st (Or.inr (by omega))]
    exact ⟨packs_nothing st 0 _ (Or.inr rfl), rfl, rfl⟩
  | succ j ih =>
    by_cases hne : st.runningPayload = []
    · rw [drainRunning_stop st (Or.inl hne)]
      exact ⟨packs_nothing st _ _ (Or.inl hne), by rw [hne, List.drop_nil], rfl⟩
    · rw [drainRunning, dif_pos ⟨hne, by omega⟩, emitPacket_eq srcConnId dstConnId st j hrem]
      have hrunning : (emitted srcConnId dstConnId st (st.runningPayload.take 1500)).runningPayload =
          st.runningPayload.drop 1500 := by
        simp only [emitted, List.length_take]
        by_cases hlen : 1500 ≤ st.runningPayload.length
        · rw [Nat.min_eq_left hlen]
        · rw [List.drop_of_length_le (by omega), List.drop_of_length_le (by omega)]
      by_cases hlen : 1500 ≤ st.runningPayload.length
      · have hrem' : (emitted srcConnId dstConnId st
            (st.runningPayload.take 1500)).bytesRemaining = 1520 * j := by
          simp only [emitted, List.length_take]
          omega
        obtain ⟨hpacks, hrest, hqueue⟩ := ih _ hrem'
        rw [hrunning] at hpacks hrest
        refine ⟨?_, ?_, hqueue⟩
        · have hfull := packs_full [] hlen (by rw [List.append_nil]; exact hpacks)
          rw [List.append_nil] at hfull
          exact hfull
        · rw [hrest, List.drop_drop]
          congr 1
          omega
      · have hstop : (emitted srcConnId dstConnId st
            (st.runningPayload.take 1500)).runningPayload = [] := by
          rw [hrunning, List.drop_of_length_le (by omega)]
        rw [drainRunning_stop _ (Or.inl hstop)]
        refine ⟨packs_last j hne (by omega), ?_, rfl⟩
        rw [hstop, List.drop_of_length_le (by omega)]

theorem putBack_packs {st st' : PackState} {j : ℕ} {xs : Bytes}
    (h : Packs srcConnId dstConnId st st' j xs) :
    Packs srcConnId dstConnId st (putBack st') j xs := by
  unfold putBack
  split
  · exact ⟨h.ans_eq, h.num_eq, h.packed_eq⟩
  · exact h

theorem putBack_flatten (st : PackState) :
    (putBack st).queue.flatten = st.runningPayload ++ st.queue.flatten := by
  unfold putBack
  split
  · rfl
  · rename_i h
    rw [not_not] at h
    rw [h, List.nil_append]

theorem finish_spec (st : PackState) (j : ℕ) (hrem : st.bytesRemaining = 1520 * j)
    (hqueue : st.queue.flatten = [] ∨ 1500 * j ≤ st.runningPayload.length) :
    Packs srcConnId dstConnId st (putBack (drainRunning srcConnId dstConnId st)) j
        (st.runningPayload ++ st.queue.flatten) ∧
      (putBack (drainRunning srcConnId dstConnId st)).queue.flatten =
        (st.runningPayload ++ st.queue.flatten).drop (1500 * j) := by
  obtain ⟨hpacks, hrest, hq⟩ := @drainRunning_spec srcConnId dstConnId st j hrem
  rw [putBack_flatten, hrest, hq]
  rcases hqueue with hnil | hlong
  · rw [hnil, List.append_nil, List.append_nil]
    exact ⟨putBack_packs hpacks, rfl⟩
  · have hcut : cut j (st.runningPayload ++ st.queue.flatten) = cut j st.runningPayload := by
      rw [cut, cut, List.take_append_of_le_length hlong]
    refine ⟨⟨?_, ?_, ?_⟩, ?_⟩
    · rw [hcut, (putBack_packs hpacks).ans_eq]
    · rw [hcut, (putBack_packs hpacks).num_eq]
    · rw [List.take_append_of_le_length hlong, (putBack_packs hpacks).packed_eq]
    · rw [List.drop_append_of_le_length hlong]

theorem packs_emit (st : PackState) (j : ℕ) (hrem : st.bytesRemaining = 1520 * (j + 1))
    (hlen : 1500 ≤ st.runningPayload.length)
    (ih : (emitPacket srcConnId dstConnId st).bytesRemaining = 1520 * j →
      Packs srcConnId dstConnId (emitPacket srcConnId dstConnId st)
          (packLoop srcConnId dstConnId (emitPacket srcConnId dstConnId st)) j
          ((emitPacket srcConnId dstConnId st).runningPayload ++
            (emitPacket srcConnId dstConnId st).queue.flatten) ∧
        (packLoop srcConnId dstConnId (emitPacket srcConnId dstConnId st)).queue.flatten =
          ((emitPacket srcConnId dstConnId st).runningPayload ++
            (emitPacket srcConnId dstConnId st).queue.flatten).drop (1500 * j)) :
    Packs srcConnId dstConnId st
        (packLoop srcConnId dstConnId (emitPacket srcConnId dstConnId st)) (j + 1)
        (st.runningPayload ++ st.queue.flatten) ∧
      (packLoop srcConnId dstConnId (emitPacket srcConnId dstConnId st)).queue.flatten =
        (st.runningPayload ++ st.queue.flatten).drop (1500 * (j + 1)) := by
  have htake : (st.runningPayload.take 1500).length = 1500 := by
    rw [List.length_take, Nat.min_eq_left hlen]
  have hdrop : st.runningPayload.drop 1500 ++ st.queue.flatten =
      (st.runningPayload ++ st.queue.flatten).drop 1500 := by
    rw [List.drop_append_of_le_length hlen]
  rw [emitPacket_eq srcConnId dstConnId st j hrem] at ih ⊢
  obtain ⟨hpacks, hrest⟩ := ih (by simp only [emitted, htake]; omega)
  simp only [emitted, htake, hdrop] at hpacks hrest
  refine ⟨packs_full _ hlen ?_, ?_⟩
  · simp only [emitted, htake]
    exact hpacks
  · simp only [emitted, htake]
    rw [hrest, List.drop_drop]
    congr 1
    omega

/-- The merge loop keeps the budget at a multiple of 1520, and packs the content as one string. -/
theorem packLoop_spec (st : PackState) (j : ℕ) (hrem : st.bytesRemaining = 1520 * j) :
    Packs srcConnId dstConnId st (packLoop srcConnId dstConnId st) j
        (st.runningPayload ++ st.queue.flatten) ∧
      (packLoop srcConnId dstConnId st).queue.flatten =
        (st.runningPayload ++ st.queue.flatten).drop (1500 * j) := by
  fun_induction packLoop srcConnId dstConnId st generalizing j with
  | case1 st h hq =>
    exact finish_spec st j hrem (Or.inl (by rw [hq]; rfl))
  | case2 st h data queue hq hlong =>
    exact finish_spec st j hrem (Or.inr (by omega))
  | case3 st h data queue hq hshort hfull ih =>
    obtain ⟨i, rfl⟩ : ∃ i, j = i + 1 := ⟨j - 1, by omega⟩
    exact packs_emit st i hrem hfull (ih i)
  | case4 st h data queue hq hshort hsmall merged hover ih =>
    obtain ⟨i, rfl⟩ : ∃ i, j = i + 1 := ⟨j - 1, by omega⟩
    have hlen : 1500 ≤ merged.runningPayload.length := by
      have hover' : data.length + st.runningPayload.length > 1500 := hover
      simp only [merged, List.length_append]
      omega
    have hmerged := packs_emit merged i hrem hlen (ih i)
    rw [hq, List.flatten_cons, ← List.append_assoc]
    exact ⟨⟨hmerged.1.ans_eq, hmerged.1.num_eq, hmerged.1.packed_eq⟩, hmerged.2⟩
  | case5 st h data queue hq hshort hsmall merged hfits ih =>
    obtain ⟨hpacks, hrest⟩ := ih j hrem
    rw [hq, List.flatten_cons, ← List.append_assoc]
    exact ⟨⟨hpacks.ans_eq, hpacks.num_eq, hpacks.packed_eq⟩, hrest⟩
  | case6 st h =>
    exact finish_spec st j hrem (Or.inr (by omega))

end Pack

/-! ### `consume_data_into` -/

theorem consumeDataInto_eq (srcConnId dstConnId : UInt32) (queue : List Bytes) (n : UInt64)
    (ans : Bytes) :
    ∃ rest, consumeDataInto srcConnId dstConnId queue n ans =
        (min queue.flatten.length 15000, rest, n + UInt64.ofNat (cut 10 queue.flatten).length,
          ans ++ BluefinPacket.serialiseAll
            (dataPackets srcConnId dstConnId n (cut 10 queue.flatten))) ∧
      rest.flatten = queue.flatten.drop 15000 := by
  cases queue with
  | nil =>
    refine ⟨[], ?_, by simp⟩
    rw [List.flatten_nil, cut_nil]
    simp [consumeDataInto, dataPackets]
  | cons runningPayload queue =>
    obtain ⟨hpacks, hrest⟩ := @packLoop_spec srcConnId dstConnId
      { runningPayload := runningPayload, queue := queue,
        bytesRemaining := maxBluefinBytesInUdpDatagram, nextPacketNum := n, ans := ans,
        payloadBytesPacked := 0 } 10 rfl
    refine ⟨_, ?_, hrest⟩
    simp only [consumeDataInto]
    rw [hpacks.ans_eq, hpacks.num_eq, hpacks.packed_eq, Nat.zero_add, List.length_take,
      Nat.min_comm]
    rfl

theorem dataPackets_length (srcConnId dstConnId : UInt32) (n : UInt64) (cs : List Bytes) :
    (BluefinPacket.serialiseAll (dataPackets srcConnId dstConnId n cs)).length =
      20 * cs.length + cs.flatten.length := by
  induction cs generalizing n with
  | nil => rfl
  | cons c cs ih =>
    rw [dataPackets, BluefinPacket.serialiseAll_cons, List.length_append, ih,
      BluefinPacket.serialise_length, List.length_cons, List.flatten_cons, List.length_append]
    simp only [dataPacket]
    omega

theorem dataPackets_encodable (srcConnId dstConnId : UInt32) (n : UInt64) (cs : List Bytes)
    (hne : ∀ c ∈ cs, c ≠ []) (hle : ∀ c ∈ cs, c.length ≤ 1500) :
    ∀ p ∈ dataPackets srcConnId dstConnId n cs, p.Encodable := by
  induction cs generalizing n with
  | nil =>
    intro p hp
    cases hp
  | cons c cs ih =>
    intro p hp
    rw [dataPackets, List.mem_cons] at hp
    rcases hp with rfl | hp
    · have hlen := hle c (List.mem_cons_self ..)
      have hversion : (0x0 : UInt8).toNat < 16 := by decide
      refine ⟨⟨hversion, fun _ => ?_, fun h => absurd rfl h⟩,
        fun _ => hne c (List.mem_cons_self ..)⟩
      simp only [dataPacket, UInt16.toNat_ofNat']
      omega
    · exact ih (n + 1) (fun d hd => hne d (List.mem_cons_of_mem _ hd))
        (fun d hd => hle d (List.mem_cons_of_mem _ hd)) p hp

theorem fromBytesInto_dataPackets (srcConnId dstConnId : UInt32) (n : UInt64) (cs : List Bytes)
    (hcs : cs ≠ []) (hne : ∀ c ∈ cs, c ≠ []) (hle : ∀ c ∈ cs, c.length ≤ 1500) :
    BluefinPacket.fromBytesInto (BluefinPacket.serialiseAll
        (dataPackets srcConnId dstConnId n cs)) [] =
      (.ok (dataPackets srcConnId dstConnId n cs).length,
        dataPackets srcConnId dstConnId n cs) := by
  refine BluefinPacket.fromBytesInto_serialiseAll _ ?_
    (dataPackets_encodable srcConnId dstConnId n cs hne hle)
  obtain ⟨c, cs, rfl⟩ := List.exists_cons_of_ne_nil hcs
  exact List.cons_ne_nil _ _

theorem cut_cutInto (xs : Bytes) : CutInto 1500 (xs.take 15000) (cut 10 xs) :=
  chunksOf_cut (by decide) _

theorem cut_length_le (xs : Bytes) : (cut 10 xs).length ≤ 10 :=
  chunksOf_length_le (by decide) _ (List.length_take_le ..)

theorem cut_ne_nil (xs : Bytes) (h : xs ≠ []) : cut 10 xs ≠ [] := by
  intro hnil
  have hflat := (cut_cutInto xs).flatten_eq
  have hpos : 0 < xs.length := List.length_pos_iff.mpr h
  have hlen := congrArg List.length hflat
  rw [hnil, List.flatten_nil, List.length_nil, List.length_take] at hlen
  omega

/-- One call with an empty output buffer writes the first 15000 queued bytes as
data packets of 1500 bytes each, numbered from `n` on, only the last possibly
shorter; it returns how many bytes these are and leaves the rest queued. -/
theorem consumeDataInto_canonical (srcConnId dstConnId : UInt32) (queue : List Bytes)
    (n : UInt64) :
    ∃ cs rest, CutInto 1500 (queue.flatten.take 15000) cs ∧
      consumeDataInto srcConnId dstConnId queue n [] =
        (min queue.flatten.length 15000, rest, n + UInt64.ofNat cs.length,
          BluefinPacket.serialiseAll (dataPackets srcConnId dstConnId n cs)) ∧
      rest.flatten = queue.flatten.drop 15000 ∧
      (BluefinPacket.serialiseAll (dataPackets srcConnId dstConnId n cs)).length ≤ 15200 ∧
      ((consumeDataInto srcConnId dstConnId queue n []).1 = 0 → queue.flatten = []) := by
  obtain ⟨rest, hcall, hrest⟩ := consumeDataInto_eq srcConnId dstConnId queue n []
  have hcutinto := cut_cutInto queue.flatten
  refine ⟨cut 10 queue.flatten, rest, hcutinto, hcall, hrest, ?_, ?_⟩
  · have hcount := cut_length_le queue.flatten
    have hbytes : (cut 10 queue.flatten).flatten.length ≤ 15000 := by
      rw [hcutinto.flatten_eq]
      exact List.length_take_le ..
    rw [dataPackets_length]
    omega
  · intro hzero
    rw [hcall] at hzero
    simp only at hzero
    exact List.length_eq_zero_iff.mp (by omega)

end WriterHandler

end Bluefin
