import Bluefin.Net.Buffers
import Bluefin.Utils.WindowRange

/-!
# The buffers in a build with overflow checks

The functions of the receive path that compute with packet numbers, with the
kind of build as a parameter; `none` is the panic of an overflow. Without checks
each is the function of `Window.lean`, `OrderedBytes.lean` or `Buffers.lean`, and
so it is with checks on numbers that leave room for the sums.
-/

namespace Bluefin
open Base

/-! ### `SlidingWindow` -/

namespace SlidingWindow

def consumeLoopIn (checks : Bool) (lastPacketNumber : UInt64) :
    List UInt64 → Option (UInt64 × List UInt64)
  | [] => some (lastPacketNumber, [])
  | pNumber :: numbers => do
    let next ← addIn checks lastPacketNumber 1
    if pNumber = next then consumeLoopIn checks pNumber numbers
    else some (lastPacketNumber, pNumber :: numbers)

/-- window.rs:138-173. -/
def consumeIn (checks : Bool) (w : SlidingWindow) :
    Option (Option SlidingWindowConsumeResult × SlidingWindow) :=
  match w.orderedPacketNumbers with
  | [] => some (none, w)
  | first :: rest =>
    if first > w.smallestExpectedPacketNumber then some (none, w)
    else do
      let (lastPacketNumber, numbers) ← consumeLoopIn checks first rest
      let next ← addIn checks lastPacketNumber 1
      let ahead ← subIn checks lastPacketNumber w.smallestExpectedPacketNumber
      let numAcksConsumed ← addIn checks ahead 1
      pure (some ⟨lastPacketNumber, numAcksConsumed⟩, ⟨next, numbers⟩)

def NumbersFit (w : SlidingWindow) : Prop :=
  ∀ n ∈ w.orderedPacketNumbers, n.toNat + 1 < 2 ^ 64

theorem consumeLoop_mem (last : UInt64) (numbers : List UInt64) :
    (consumeLoop last numbers).1 ∈ last :: numbers := by
  induction numbers generalizing last with
  | nil => exact List.mem_cons_self ..
  | cons n numbers ih =>
    rw [consumeLoop]
    by_cases hnext : n = last + 1
    · rw [if_pos hnext]
      exact List.mem_cons_of_mem _ (ih n)
    · rw [if_neg hnext]
      exact List.mem_cons_self ..

theorem consumeLoopIn_eq (checks : Bool) (last : UInt64) (numbers : List UInt64)
    (h : checks = false ∨ ∀ n ∈ last :: numbers, n.toNat + 1 < 2 ^ 64) :
    consumeLoopIn checks last numbers = some (consumeLoop last numbers) := by
  induction numbers generalizing last with
  | nil => rfl
  | cons n numbers ih =>
    have hsum : addIn checks last 1 = some (last + 1) :=
      addIn_eq (h.imp_right fun hfit => hfit last (List.mem_cons_self ..))
    rw [consumeLoopIn, consumeLoop, hsum, Option.bind_eq_bind, Option.bind_some]
    by_cases hnext : n = last + 1
    · rw [if_pos hnext, if_pos hnext]
      exact ih n (h.imp_right fun hfit m hm => hfit m (List.mem_cons_of_mem _ hm))
    · rw [if_neg hnext, if_neg hnext]

theorem consumeIn_eq (checks : Bool) {w : SlidingWindow}
    (h : checks = false ∨ w.Sound ∧ w.NumbersFit) : w.consumeIn checks = some w.consume := by
  unfold consumeIn consume
  cases hnumbers : w.orderedPacketNumbers with
  | nil => rfl
  | cons first rest =>
    dsimp only
    by_cases hmissing : first > w.smallestExpectedPacketNumber
    · rw [if_pos hmissing, if_pos hmissing]
    · rw [if_neg hmissing, if_neg hmissing]
      have hmem := consumeLoop_mem first rest
      have hloop := consumeLoopIn_eq checks first rest (h.imp_right fun hfit => by
        rw [← hnumbers]
        exact hfit.2)
      generalize consumeLoop first rest = taken at hmem hloop
      rw [← hnumbers] at hmem
      have hlow := h.imp_right fun hfit => (hfit.1.within _ hmem).1
      have hnext : addIn checks taken.1 1 = some (taken.1 + 1) :=
        addIn_eq (h.imp_right fun hfit => hfit.2 _ hmem)
      -- the number of acks is at most the last number and one
      have hcount : addIn checks (taken.1 - w.smallestExpectedPacketNumber) 1 =
          some (taken.1 - w.smallestExpectedPacketNumber + 1) := by
        refine addIn_eq (h.imp_right fun hfit => ?_)
        have hlast := hfit.2 _ hmem
        rw [UInt64.toNat_sub_of_le _ _ (UInt64.le_iff_toNat_le.mpr (hfit.1.within _ hmem).1),
          UInt64.toNat_one]
        omega
      simp only [hloop, hnext, subIn_eq hlow, hcount, Option.bind_eq_bind, Option.bind_some,
        Option.pure_def]

end SlidingWindow

/-- ack_handler.rs:33-42. -/
def AckBuffer.bufferInAckPacketIn (checks : Bool) (b : AckBuffer) (packet : BluefinPacket) :
    Option (BluefinResult Unit × AckBuffer) :=
  let (res, acks) := b.receivedAcks.insertRangeIn checks packet.header.packetNumber
    packet.header.typeSpecificPayload
  res.map fun res => (res, { b with receivedAcks := acks })

/-! ### `OrderedBytes` -/

namespace OrderedBytes

/-- ordered_bytes.rs:141-176. -/
def bufferInPacketIn (checks : Bool) (s : OrderedBytes) (packet : BluefinPacket) :
    Option (BluefinResult Unit × OrderedBytes) :=
  let packetNum := packet.header.packetNumber
  if packetNum < s.smallestPacketNumber then some (.err .unexpectedPacketNumberError, s)
  else do
    let difference ← subIn checks packetNum s.smallestPacketNumber
    let offset := difference.toNat
    if h : offset ≥ maxBufferSize then
      some (.err (.bufferFullError "Ordered bytes buffer full"), s)
    else
      let index := wrapIndex s.smallestPacketNumberIndex ⟨offset, Nat.not_le.mp h⟩
      if (s.packets index).isSome then
        some (.err (.unexpected (alreadyBuffered s.connId packetNum index)), s)
      else some (.ok (), { s with packets := Function.update s.packets index (some packet) })

def advanceIn (checks : Bool) (s : OrderedBytes) (slot : Fin maxBufferSize) (packetNum : UInt64) :
    Option OrderedBytes := do
  let next ← addIn checks packetNum 1
  pure { s.advance slot packetNum with smallestPacketNumber := next }

/-- ordered_bytes.rs:238-277. -/
def consumeLoopIn (checks : Bool) (base : Fin maxBufferSize) (len : ℕ) (s : OrderedBytes)
    (buf : Bytes) (numBytes writerIx ix : ℕ) :
    Option (BluefinResult (ℕ × ℕ) × (OrderedBytes × Bytes)) :=
  if h : ix < maxBufferSize then
    let slot := wrapIndex base ⟨ix, h⟩
    match s.packets slot with
    | none => some (.ok (ix, numBytes), s, buf)
    | some packet =>
      if numBytes < len then
        let packetNum := packet.header.packetNumber
        let bytesRemaining := len - numBytes
        let payloadLen := packet.payload.length
        if payloadLen > bytesRemaining then
          (copyFromSlice buf writerIx (packet.payload.take bytesRemaining)).orReturnIn (s, buf)
          fun buf =>
            let s := { s with carryOverBytes := some (packet.payload.drop bytesRemaining) }
            (s.advanceIn checks slot packetNum).bind fun s =>
              consumeLoopIn checks base len s buf (numBytes + bytesRemaining)
                (writerIx + bytesRemaining) (ix + 1)
        else
          (copyFromSlice buf writerIx packet.payload).orReturnIn (s, buf) fun buf =>
            (s.advanceIn checks slot packetNum).bind fun s =>
              consumeLoopIn checks base len s buf (numBytes + payloadLen)
                (writerIx + payloadLen) (ix + 1)
      else some (.ok (ix, numBytes), s, buf)
  else some (.ok (ix, numBytes), s, buf)
termination_by maxBufferSize - ix

/-- ordered_bytes.rs:228-284. -/
def consumePacketsIn (checks : Bool) (s : OrderedBytes) (len : ℕ) (buf : Bytes)
    (numBytes writerIx : ℕ) : Option (BluefinResult ConsumeResult × (OrderedBytes × Bytes)) := do
  let base := s.smallestPacketNumberIndex
  let basePacketNumber := s.basePacketNumber
  let (res, s, buf) ← consumeLoopIn checks base len s buf numBytes writerIx 0
  pure (res.orReturn (s, buf) fun (ix, numBytes) =>
    if numBytes = 0 then (.err .bufferEmptyError, s, buf)
    else (.ok ⟨ix, basePacketNumber, numBytes⟩, s, buf))

/-- ordered_bytes.rs:207-285. -/
def consumeIn (checks : Bool) (s : OrderedBytes) (len : ℕ) (buf : Bytes) :
    Option (BluefinResult ConsumeResult × (OrderedBytes × Bytes)) :=
  match s.carryOverBytes with
  | none => consumePacketsIn checks s len buf 0 0
  | some cBytes =>
    if cBytes.length ≤ len then
      (copyFromSlice buf 0 cBytes).orReturnIn (s, buf) fun buf =>
        consumePacketsIn checks { s with carryOverBytes := none } len buf cBytes.length
          cBytes.length
    else
      (copyFromSlice buf 0 (cBytes.take len)).orReturnIn (s, buf) fun buf =>
        some (.ok ⟨0, 0, len⟩, { s with carryOverBytes := some (cBytes.drop len) }, buf)

/-- ordered_bytes.rs:326-347. -/
def consumeBytesLoopIn (checks : Bool) (base : Fin maxBufferSize) (maxPackets : ℕ)
    (s : OrderedBytes) (out : List Bytes) (pushed totalBytes ix : ℕ) :
    Option ((ℕ × ℕ) × (OrderedBytes × List Bytes)) :=
  if h : ix < maxBufferSize ∧ pushed < maxPackets then
    let slot := wrapIndex base ⟨ix, h.1⟩
    match s.packets slot with
    | none => some ((ix, totalBytes), s, out)
    | some packet =>
      (s.advanceIn checks slot packet.header.packetNumber).bind fun s =>
        consumeBytesLoopIn checks base maxPackets s (out ++ [packet.payload]) (pushed + 1)
          (totalBytes + packet.payload.length) (ix + 1)
  else some ((ix, totalBytes), s, out)
termination_by maxBufferSize - ix

/-- ordered_bytes.rs:304-353. -/
def consumeBytesIn (checks : Bool) (s : OrderedBytes) (out : List Bytes) (maxPackets : ℕ) :
    Option (BluefinResult ConsumeResult × (OrderedBytes × List Bytes)) := do
  let initialLen := out.length
  let (totalBytes, out) := match s.carryOverBytes with
    | some c => (c.length, out ++ [c])
    | none => (0, out)
  let s := { s with carryOverBytes := none }
  let base := s.smallestPacketNumberIndex
  let basePacketNumber := s.basePacketNumber
  let ((ix, totalBytes), s, out) ←
    consumeBytesLoopIn checks base maxPackets s out (out.length - initialLen) totalBytes 0
  pure (if out.length = initialLen then (.err .bufferEmptyError, s, out)
    else (.ok ⟨ix, basePacketNumber, totalBytes⟩, s, out))

/-- There is a number after that of each packet. -/
def NumbersFit (s : OrderedBytes) : Prop :=
  ∀ i p, s.packets i = some p → p.header.packetNumber.toNat + 1 < 2 ^ 64

theorem bufferInPacketIn_eq (checks : Bool) (s : OrderedBytes) (packet : BluefinPacket) :
    s.bufferInPacketIn checks packet = some (s.bufferInPacket packet) := by
  unfold bufferInPacketIn bufferInPacket
  dsimp only
  by_cases hlow : packet.header.packetNumber < s.smallestPacketNumber
  · rw [if_pos hlow, if_pos hlow]
  · -- the difference is taken after the check, so that it does not overflow
    have hle := UInt64.le_iff_toNat_le.mp (UInt64.not_lt.mp hlow)
    rw [if_neg hlow, if_neg hlow, subIn_eq (.inr hle), Option.bind_eq_bind, Option.bind_some]
    by_cases hfar : (packet.header.packetNumber - s.smallestPacketNumber).toNat ≥ maxBufferSize
    · rw [dif_pos hfar, dif_pos hfar]
    · rw [dif_neg hfar, dif_neg hfar]
      split <;> rfl

theorem advanceIn_eq (checks : Bool) (s : OrderedBytes) (slot : Fin maxBufferSize)
    {packetNum : UInt64} (h : checks = false ∨ packetNum.toNat + 1 < 2 ^ 64) :
    s.advanceIn checks slot packetNum = some (s.advance slot packetNum) := by
  have hsum : addIn checks packetNum 1 = some (packetNum + 1) := addIn_eq h
  rw [advanceIn, hsum]
  rfl

theorem numbersFit_setCarry {s : OrderedBytes} (h : s.NumbersFit) (c : Option Bytes) :
    (s.setCarry c).NumbersFit := h

theorem numbersFit_advance {s : OrderedBytes} (h : s.NumbersFit) (slot : Fin maxBufferSize)
    (packetNum : UInt64) : (s.advance slot packetNum).NumbersFit := by
  intro i p hp
  simp only [advance, Function.update_apply] at hp
  split at hp
  · cases hp
  · exact h i p hp

theorem consumeLoopIn_eq (checks : Bool) (base : Fin maxBufferSize) (len : ℕ) (s : OrderedBytes)
    (buf : Bytes) (numBytes writerIx ix : ℕ) (h : checks = false ∨ s.NumbersFit) :
    consumeLoopIn checks base len s buf numBytes writerIx ix =
      some (consumeLoop base len s buf numBytes writerIx ix) := by
  rw [consumeLoopIn, consumeLoop]
  by_cases hix : ix < maxBufferSize
  · rw [dif_pos hix, dif_pos hix]
    cases hp : s.packets (wrapIndex base ⟨ix, hix⟩) with
    | none => simp only [hp]
    | some packet =>
      have hnum := h.imp_right fun hfit => hfit _ packet hp
      simp only [hp]
      by_cases hmore : numBytes < len
      · rw [if_pos hmore, if_pos hmore]
        by_cases hlong : packet.payload.length > len - numBytes
        · rw [if_pos hlong, if_pos hlong]
          apply Outcome.orReturnIn_eq
          intro buf
          rw [advanceIn_eq checks _ _ hnum, Option.bind_some]
          exact consumeLoopIn_eq checks base len _ buf _ _ (ix + 1)
            (h.imp_right fun hfit => numbersFit_advance (numbersFit_setCarry hfit _) _ _)
        · rw [if_neg hlong, if_neg hlong]
          apply Outcome.orReturnIn_eq
          intro buf
          rw [advanceIn_eq checks _ _ hnum, Option.bind_some]
          exact consumeLoopIn_eq checks base len _ buf _ _ (ix + 1)
            (h.imp_right fun hfit => numbersFit_advance hfit _ _)
      · rw [if_neg hmore, if_neg hmore]
  · rw [dif_neg hix, dif_neg hix]
termination_by maxBufferSize - ix

theorem consumeIn_eq (checks : Bool) (s : OrderedBytes) (len : ℕ) (buf : Bytes)
    (h : checks = false ∨ s.NumbersFit) : s.consumeIn checks len buf = some (s.consume len buf) := by
  have hpackets : ∀ (s : OrderedBytes) buf numBytes writerIx, checks = false ∨ s.NumbersFit →
      s.consumePacketsIn checks len buf numBytes writerIx =
        some (s.consumePackets len buf numBytes writerIx) := by
    intro s buf numBytes writerIx h
    rw [consumePacketsIn, consumeLoopIn_eq checks _ len s buf numBytes writerIx 0 h]
    rfl
  unfold consumeIn consume
  cases s.carryOverBytes with
  | none => exact hpackets s buf 0 0 h
  | some c =>
    dsimp only
    by_cases hfit : c.length ≤ len
    · rw [if_pos hfit, if_pos hfit]
      exact Outcome.orReturnIn_eq fun buf => hpackets (s.setCarry none) buf _ _
        (h.imp_right fun hfit => numbersFit_setCarry hfit none)
    · rw [if_neg hfit, if_neg hfit]
      exact Outcome.orReturnIn_eq fun buf => rfl

theorem consumeBytesLoopIn_eq (checks : Bool) (base : Fin maxBufferSize) (maxPackets : ℕ)
    (s : OrderedBytes) (out : List Bytes) (pushed totalBytes ix : ℕ)
    (h : checks = false ∨ s.NumbersFit) :
    consumeBytesLoopIn checks base maxPackets s out pushed totalBytes ix =
      some (consumeBytesLoop base maxPackets s out pushed totalBytes ix) := by
  rw [consumeBytesLoopIn, consumeBytesLoop]
  by_cases hix : ix < maxBufferSize ∧ pushed < maxPackets
  · rw [dif_pos hix, dif_pos hix]
    cases hp : s.packets (wrapIndex base ⟨ix, hix.1⟩) with
    | none => simp only [hp]
    | some packet =>
      simp only [hp]
      rw [advanceIn_eq checks _ _ (h.imp_right fun hfit => hfit _ packet hp), Option.bind_some]
      exact consumeBytesLoopIn_eq checks base maxPackets _ _ _ _ (ix + 1)
        (h.imp_right fun hfit => numbersFit_advance hfit _ _)
  · rw [dif_neg hix, dif_neg hix]
termination_by maxBufferSize - ix

theorem consumeBytesIn_eq (checks : Bool) (s : OrderedBytes) (out : List Bytes) (maxPackets : ℕ)
    (h : checks = false ∨ s.NumbersFit) :
    s.consumeBytesIn checks out maxPackets = some (s.consumeBytes out maxPackets) := by
  have hloop := fun out pushed totalBytes => consumeBytesLoopIn_eq checks
    s.smallestPacketNumberIndex maxPackets (s.setCarry none) out pushed totalBytes 0 h
  simp only [setCarry] at hloop
  simp only [consumeBytesIn, consumeBytes, hloop]
  rfl

/-! ### What stays in the slots -/

theorem numbersFit_bufferInPacket {s : OrderedBytes} (h : s.NumbersFit) {packet : BluefinPacket}
    (hnum : packet.header.packetNumber.toNat + 1 < 2 ^ 64) :
    (s.bufferInPacket packet).2.NumbersFit := by
  unfold bufferInPacket
  dsimp only
  split
  · exact h
  · split
    · exact h
    · split
      · exact h
      · intro i p hp
        simp only [Function.update_apply] at hp
        split at hp
        · cases hp
          exact hnum
        · exact h i p hp

theorem numbersFit_orReturn {α β : Type} {x : BluefinResult α} {s : OrderedBytes} {buf : Bytes}
    {k : α → BluefinResult β × (OrderedBytes × Bytes)} (hs : s.NumbersFit)
    (hk : ∀ a, (k a).2.1.NumbersFit) : (x.orReturn (s, buf) k).2.1.NumbersFit := by
  cases x with
  | ok a => exact hk a
  | err e => exact hs
  | panicked f => exact hs

theorem numbersFit_consumeLoop (base : Fin maxBufferSize) (len : ℕ) {s : OrderedBytes}
    (h : s.NumbersFit) (buf : Bytes) (numBytes writerIx ix : ℕ) :
    (consumeLoop base len s buf numBytes writerIx ix).2.1.NumbersFit := by
  rw [consumeLoop]
  by_cases hix : ix < maxBufferSize
  · rw [dif_pos hix]
    cases hp : s.packets (wrapIndex base ⟨ix, hix⟩) with
    | none =>
      simp only [hp]
      exact h
    | some packet =>
      simp only [hp]
      by_cases hmore : numBytes < len
      · rw [if_pos hmore]
        by_cases hlong : packet.payload.length > len - numBytes
        · rw [if_pos hlong]
          have hcarry := numbersFit_setCarry h (some (packet.payload.drop (len - numBytes)))
          exact numbersFit_orReturn h fun buf =>
            numbersFit_consumeLoop base len (numbersFit_advance hcarry _ _) buf _ _ (ix + 1)
        · rw [if_neg hlong]
          exact numbersFit_orReturn h fun buf =>
            numbersFit_consumeLoop base len (numbersFit_advance h _ _) buf _ _ (ix + 1)
      · rw [if_neg hmore]
        exact h
  · rw [dif_neg hix]
    exact h
termination_by maxBufferSize - ix

theorem numbersFit_consumePackets {s : OrderedBytes} (h : s.NumbersFit) (len : ℕ) (buf : Bytes)
    (numBytes writerIx : ℕ) : (s.consumePackets len buf numBytes writerIx).2.1.NumbersFit := by
  have hloop := numbersFit_consumeLoop s.smallestPacketNumberIndex len h buf numBytes writerIx 0
  simp only [consumePackets]
  apply numbersFit_orReturn hloop
  intro a
  split <;> exact hloop

theorem numbersFit_consume {s : OrderedBytes} (h : s.NumbersFit) (len : ℕ) (buf : Bytes) :
    (s.consume len buf).2.1.NumbersFit := by
  unfold consume
  cases s.carryOverBytes with
  | none => exact numbersFit_consumePackets h len buf 0 0
  | some c =>
    dsimp only
    by_cases hfit : c.length ≤ len
    · rw [if_pos hfit]
      exact numbersFit_orReturn h fun buf =>
        numbersFit_consumePackets (numbersFit_setCarry h none) len buf _ _
    · rw [if_neg hfit]
      exact numbersFit_orReturn h fun buf =>
        numbersFit_setCarry h _

theorem numbersFit_consumeBytes {s : OrderedBytes} (h : s.NumbersFit) (out : List Bytes)
    (maxPackets : ℕ) : (s.consumeBytes out maxPackets).2.1.NumbersFit := by
  have hpop : ∀ (ps : List BluefinPacket) (s : OrderedBytes), s.NumbersFit →
      (s.popAll ps).NumbersFit := by
    intro ps
    induction ps with
    | nil => exact fun s h => h
    | cons p ps ih => exact fun s h => ih (s.pop p) (numbersFit_advance h _ _)
  rw [consumeBytes_eq]
  exact hpop _ (s.setCarry none) h

end OrderedBytes

/-! ### `ConnectionBuffer` -/

namespace ConnectionBuffer

def bufferInBytesIn (checks : Bool) (b : ConnectionBuffer) (packet : BluefinPacket) :
    Option (BluefinResult Unit × ConnectionBuffer) := do
  let (res, bytes) ← b.orderedBytes.bufferInPacketIn checks packet
  pure (res, { b with orderedBytes := bytes })

/-- connection.rs:151-158. -/
def startNumberIn (checks : Bool) (hostType : BluefinHost) (packetNum : UInt64)
    (bytes : OrderedBytes) : Option OrderedBytes :=
  match hostType with
  | .packLeader => (addIn checks packetNum 2).map bytes.setStartPacketNumber
  | .client => (addIn checks packetNum 1).map bytes.setStartPacketNumber
  | .packFollower => some bytes

/-- connection.rs:138-161. -/
def bufferInPacketIn (checks : Bool) (b : ConnectionBuffer) (packet : BluefinPacket) :
    Option (BluefinResult Unit × ConnectionBuffer) :=
  match b.packet with
  | some _ => some (.err (.bufferFullError
      "Buffer already contains a packet. Could not buffer another packet."), b)
  | none =>
    let packetNum := packet.header.packetNumber
    let b := { b with packet := some packet }
    if b.startPacketNumberSet then some (.ok (), b)
    else do
      let bytes ← startNumberIn checks b.hostType packetNum b.orderedBytes
      pure (.ok (), { b with orderedBytes := bytes, startPacketNumberSet := true })

/-- connection.rs:164-177. -/
def consumeIn (checks : Bool) (b : ConnectionBuffer) (bytesToRead : ℕ) (buf : Bytes) :
    Option (BluefinResult (ConsumeResult × SocketAddr) × (ConnectionBuffer × Bytes)) :=
  match b.addr with
  | none => some (.err noAddr, b, buf)
  | some addr => do
    let (res, bytes, buf) ← b.orderedBytes.consumeIn checks bytesToRead buf
    pure (res.map (·, addr), { b with orderedBytes := bytes }, buf)

/-- connection.rs:183-196. -/
def consumeBytesIn (checks : Bool) (b : ConnectionBuffer) (out : List Bytes) (maxPackets : ℕ) :
    Option (BluefinResult (ConsumeResult × SocketAddr) × (ConnectionBuffer × List Bytes)) :=
  match b.addr with
  | none => some (.err noAddr, b, out)
  | some addr => do
    let (res, bytes, out) ← b.orderedBytes.consumeBytesIn checks out maxPackets
    pure (res.map (·, addr), { b with orderedBytes := bytes }, out)

/-- What the first handshake packet of a host adds to its number. -/
def startOffset : BluefinHost → ℕ
  | .packLeader => 2
  | .client => 1
  | .packFollower => 0

theorem bufferInBytesIn_eq (checks : Bool) (b : ConnectionBuffer) (packet : BluefinPacket) :
    b.bufferInBytesIn checks packet = some (b.bufferInBytes packet) := by
  rw [bufferInBytesIn, OrderedBytes.bufferInPacketIn_eq]
  rfl

theorem startNumberIn_eq (checks : Bool) (hostType : BluefinHost) (packetNum : UInt64)
    (bytes : OrderedBytes)
    (h : checks = false ∨ packetNum.toNat + startOffset hostType < 2 ^ 64) :
    startNumberIn checks hostType packetNum bytes = some (startNumber hostType packetNum bytes) := by
  cases hostType with
  | packLeader =>
    have hsum : addIn checks packetNum 2 = some (packetNum + 2) := addIn_eq h
    rw [startNumberIn, hsum]
    rfl
  | client =>
    have hsum : addIn checks packetNum 1 = some (packetNum + 1) := addIn_eq h
    rw [startNumberIn, hsum]
    rfl
  | packFollower => rfl

theorem bufferInPacketIn_eq (checks : Bool) (b : ConnectionBuffer) (packet : BluefinPacket)
    (h : checks = false ∨
      packet.header.packetNumber.toNat + startOffset b.hostType < 2 ^ 64) :
    b.bufferInPacketIn checks packet = some (b.bufferInPacket packet) := by
  unfold bufferInPacketIn bufferInPacket
  cases b.packet with
  | some held => rfl
  | none =>
    dsimp only
    by_cases hset : b.startPacketNumberSet = true
    · rw [if_pos hset, if_pos hset]
    · rw [if_neg hset, if_neg hset, startNumberIn_eq checks b.hostType _ _ h]
      rfl

theorem startNumberIn_overflow {hostType : BluefinHost} {packetNum : UInt64}
    (h : 2 ^ 64 ≤ packetNum.toNat + startOffset hostType) (bytes : OrderedBytes) :
    startNumberIn true hostType packetNum bytes = none := by
  cases hostType with
  | packLeader =>
    have hover : addIn true packetNum 2 = none := addIn_overflow h
    rw [startNumberIn, hover]
    rfl
  | client =>
    have hover : addIn true packetNum 1 = none := addIn_overflow h
    rw [startNumberIn, hover]
    rfl
  | packFollower =>
    have hlt := packetNum.toNat_lt
    simp only [startOffset] at h
    omega

theorem bufferInPacketIn_overflow {b : ConnectionBuffer} (hslot : b.packet = none)
    (hset : b.startPacketNumberSet = false) {packet : BluefinPacket}
    (h : 2 ^ 64 ≤ packet.header.packetNumber.toNat + startOffset b.hostType) :
    b.bufferInPacketIn true packet = none := by
  simp only [bufferInPacketIn, hslot, hset, Bool.false_eq_true, if_false,
    startNumberIn_overflow h]
  rfl

theorem consumeIn_eq (checks : Bool) (b : ConnectionBuffer) (bytesToRead : ℕ) (buf : Bytes)
    (h : checks = false ∨ b.orderedBytes.NumbersFit) :
    b.consumeIn checks bytesToRead buf = some (b.consume bytesToRead buf) := by
  unfold consumeIn consume
  cases b.addr with
  | none => rfl
  | some addr =>
    dsimp only
    rw [OrderedBytes.consumeIn_eq checks _ _ _ h]
    rfl

theorem consumeBytesIn_eq (checks : Bool) (b : ConnectionBuffer) (out : List Bytes)
    (maxPackets : ℕ) (h : checks = false ∨ b.orderedBytes.NumbersFit) :
    b.consumeBytesIn checks out maxPackets = some (b.consumeBytes out maxPackets) := by
  unfold consumeBytesIn consumeBytes
  cases b.addr with
  | none => rfl
  | some addr =>
    dsimp only
    rw [OrderedBytes.consumeBytesIn_eq checks _ _ _ h]
    rfl

end ConnectionBuffer

end Bluefin
