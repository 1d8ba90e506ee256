import Bluefin.Base.Reassembly
import Bluefin.Core.Packet
import Mathlib.Logic.Function.Basic

/-!
# The reassembly buffer (net/ordered_bytes.rs)

`OrderedBytes` keeps at most 2000 packets in a circular array, from the slot of
the smallest expected packet number on. The array is a function on `Fin 2000`,
so that every slot access is in bounds by its type; the caller's `buf` is
written through `copyFromSlice`, which panics outside it. `consume_eq` and
`consumeBytes_eq` give the two consumers in closed form over `run`, the packets
from the head slot up to the first gap.
-/

namespace Bluefin
open Base

/-- The copy `buf[i..i + xs.len()].copy_from_slice(xs)`. -/
def copyFromSlice (buf : Bytes) (i : ℕ) (xs : Bytes) : BluefinResult Bytes :=
  if i + xs.length ≤ buf.length then .ok (overwrite buf i xs)
  else .panicked (.bounds (i + xs.length) buf.length)

abbrev maxBufferSize : ℕ := 2000

/-- ordered_bytes.rs:19-26. Both arguments are below the size at every call. -/
def wrapIndex (base offset : Fin maxBufferSize) : Fin maxBufferSize :=
  let raw := base.val + offset.val
  if h : raw ≥ maxBufferSize then ⟨raw - maxBufferSize, by omega⟩ else ⟨raw, by omega⟩

structure OrderedBytes where
  connId : UInt32
  packets : Fin maxBufferSize → Option BluefinPacket
  smallestPacketNumberIndex : Fin maxBufferSize
  smallestPacketNumber : UInt64
  carryOverBytes : Option Bytes

structure ConsumeResult where
  numPacketsConsumed : ℕ
  basePacketNumber : UInt64
  bytesConsumed : ℕ
  deriving DecidableEq, Repr

namespace OrderedBytes

def new (connId : UInt32) (startPacketNumber : UInt64) : OrderedBytes where
  connId := connId
  packets := fun _ => none
  smallestPacketNumberIndex := ⟨0, by decide⟩
  smallestPacketNumber := startPacketNumber
  carryOverBytes := none

def setStartPacketNumber (s : OrderedBytes) (startPacketNumber : UInt64) : OrderedBytes :=
  { s with smallestPacketNumber := startPacketNumber }

/-- The text of the duplicate error up to the dump of the whole buffer that the source appends to
it. -/
def alreadyBuffered (connId : UInt32) (packetNum : UInt64) (index : Fin maxBufferSize) : String :=
  let i := index.val
  s!"({connId}) Already buffered in packet with packet number: {packetNum} @ index {i}. DEBUG: "

/-- ordered_bytes.rs:141-176. -/
def bufferInPacket (s : OrderedBytes) (packet : BluefinPacket) : BluefinResult Unit × OrderedBytes :=
  let packetNum := packet.header.packetNumber
  if packetNum < s.smallestPacketNumber then (.err .unexpectedPacketNumberError, s)
  else
    let offset := (packetNum - s.smallestPacketNumber).toNat
    if h : offset ≥ maxBufferSize then (.err (.bufferFullError "Ordered bytes buffer full"), s)
    else
      let index := wrapIndex s.smallestPacketNumberIndex ⟨offset, Nat.not_le.mp h⟩
      if (s.packets index).isSome then
        (.err (.unexpected (alreadyBuffered s.connId packetNum index)), s)
      else (.ok (), { s with packets := Function.update s.packets index (some packet) })

/-- ordered_bytes.rs:179-191. -/
def peek (s : OrderedBytes) : BluefinResult Unit :=
  if s.carryOverBytes.isSome then .ok ()
  else if (s.packets s.smallestPacketNumberIndex).isSome then .ok ()
  else .err .bufferEmptyError

def basePacketNumber (s : OrderedBytes) : UInt64 :=
  match s.packets s.smallestPacketNumberIndex with
  | some p => p.header.packetNumber
  | none => 0

/-- The end of a loop body: the slot is emptied and the window moves by one. -/
def advance (s : OrderedBytes) (slot : Fin maxBufferSize) (packetNum : UInt64) : OrderedBytes :=
  { s with
    packets := Function.update s.packets slot none
    smallestPacketNumber := packetNum + 1
    smallestPacketNumberIndex := wrapIndex s.smallestPacketNumberIndex ⟨1, by decide⟩ }

/-- ordered_bytes.rs:238-277. Returns `ix` and `num_bytes`. -/
def consumeLoop (base : Fin maxBufferSize) (len : ℕ) (s : OrderedBytes) (buf : Bytes)
    (numBytes writerIx ix : ℕ) : BluefinResult (ℕ × ℕ) × (OrderedBytes × Bytes) :=
  if h : ix < maxBufferSize then
    let slot := wrapIndex base ⟨ix, h⟩
    match s.packets slot with
    | none => (.ok (ix, numBytes), s, buf)
    | some packet =>
      if numBytes < len then
        let packetNum := packet.header.packetNumber
        let bytesRemaining := len - numBytes
        let payloadLen := packet.payload.length
        if payloadLen > bytesRemaining then
          (copyFromSlice buf writerIx (packet.payload.take bytesRemaining)).orReturn (s, buf)
          fun buf =>
            let s := { s with carryOverBytes := some (packet.payload.drop bytesRemaining) }
            consumeLoop base len (s.advance slot packetNum) buf (numBytes + bytesRemaining)
              (writerIx + bytesRemaining) (ix + 1)
        else
          (copyFromSlice buf writerIx packet.payload).orReturn (s, buf) fun buf =>
            consumeLoop base len (s.advance slot packetNum) buf (numBytes + payloadLen)
              (writerIx + payloadLen) (ix + 1)
      else (.ok (ix, numBytes), s, buf)
  else (.ok (ix, numBytes), s, buf)
termination_by maxBufferSize - ix

/-- ordered_bytes.rs:228-284, after the carry-over was taken. -/
def consumePackets (s : OrderedBytes) (len : ℕ) (buf : Bytes) (numBytes writerIx : ℕ) :
    BluefinResult ConsumeResult × (OrderedBytes × Bytes) :=
  let base := s.smallestPacketNumberIndex
  let basePacketNumber := s.basePacketNumber
  let (res, s, buf) := consumeLoop base len s buf numBytes writerIx 0
  res.orReturn (s, buf) fun (ix, numBytes) =>
  if numBytes = 0 then (.err .bufferEmptyError, s, buf)
  else (.ok ⟨ix, basePacketNumber, numBytes⟩, s, buf)

/-- ordered_bytes.rs:207-285: the result, the buffer object and the caller's slice. -/
def consume (s : OrderedBytes) (len : ℕ) (buf : Bytes) :
    BluefinResult ConsumeResult × (OrderedBytes × Bytes) :=
  match s.carryOverBytes with
  | none => consumePackets s len buf 0 0
  | some cBytes =>
    if cBytes.length ≤ len then
      (copyFromSlice buf 0 cBytes).orReturn (s, buf) fun buf =>
        consumePackets { s with carryOverBytes := none } len buf cBytes.length cBytes.length
    else
      (copyFromSlice buf 0 (cBytes.take len)).orReturn (s, buf) fun buf =>
        (.ok ⟨0, 0, len⟩, { s with carryOverBytes := some (cBytes.drop len) }, buf)

/-- ordered_bytes.rs:326-347. `pushed` is `out.len() - initial_len`. -/
def consumeBytesLoop (base : Fin maxBufferSize) (maxPackets : ℕ) (s : OrderedBytes)
    (out : List Bytes) (pushed totalBytes ix : ℕ) : (ℕ × ℕ) × (OrderedBytes × List Bytes) :=
  if h : ix < maxBufferSize ∧ pushed < maxPackets then
    let slot := wrapIndex base ⟨ix, h.1⟩
    match s.packets slot with
    | none => ((ix, totalBytes), s, out)
    | some packet =>
      consumeBytesLoop base maxPackets (s.advance slot packet.header.packetNumber)
        (out ++ [packet.payload]) (pushed + 1) (totalBytes + packet.payload.length) (ix + 1)
  else ((ix, totalBytes), s, out)
termination_by maxBufferSize - ix

/-- ordered_bytes.rs:304-353: the result, the buffer object and the caller's vector. -/
def consumeBytes (s : OrderedBytes) (out : List Bytes) (maxPackets : ℕ) :
    BluefinResult ConsumeResult × (OrderedBytes × List Bytes) :=
  let initialLen := out.length
  let (totalBytes, out) := match s.carryOverBytes with
    | some c => (c.length, out ++ [c])
    | none => (0, out)
  let s := { s with carryOverBytes := none }
  let base := s.smallestPacketNumberIndex
  let basePacketNumber := s.basePacketNumber
  let ((ix, totalBytes), s, out) :=
    consumeBytesLoop base maxPackets s out (out.length - initialLen) totalBytes 0
  if out.length = initialLen then (.err .bufferEmptyError, s, out)
  else (.ok ⟨ix, basePacketNumber, totalBytes⟩, s, out)

/-! ### The packets at the head of the window -/

theorem wrapIndex_val (b o : Fin maxBufferSize) :
    (wrapIndex b o).val = (b.val + o.val) % 2000 := by
  have hb : b.val < 2000 := b.isLt
  have ho : o.val < 2000 := o.isLt
  have hmax : maxBufferSize = 2000 := rfl
  unfold wrapIndex
  by_cases h : b.val + o.val ≥ maxBufferSize
  · rw [dif_pos h]
    simp only
    omega
  · rw [dif_neg h]
    simp only
    omega

theorem wrapIndex_inj {b i j : Fin maxBufferSize} (h : wrapIndex b i = wrapIndex b j) : i = j := by
  have hv := congrArg Fin.val h
  have hi : i.val < 2000 := i.isLt
  have hj : j.val < 2000 := j.isLt
  rw [wrapIndex_val, wrapIndex_val] at hv
  apply Fin.ext
  omega

/-- The packet `k` slots after the head slot. -/
def slotAt (s : OrderedBytes) (k : ℕ) : Option BluefinPacket :=
  if k < maxBufferSize then
    s.packets ⟨(s.smallestPacketNumberIndex.val + k) % maxBufferSize, Nat.mod_lt _ (by decide)⟩
  else none

theorem slotAt_of_lt (s : OrderedBytes) {k : ℕ} (h : k < maxBufferSize) :
    s.slotAt k = s.packets (wrapIndex s.smallestPacketNumberIndex ⟨k, h⟩) := by
  rw [slotAt, if_pos h]
  congr 1
  apply Fin.ext
  rw [wrapIndex_val]

theorem slotAt_of_le (s : OrderedBytes) {k : ℕ} (h : maxBufferSize ≤ k) : s.slotAt k = none :=
  if_neg (Nat.not_lt.mpr h)

theorem wrapIndex_zero (b : Fin maxBufferSize) : wrapIndex b ⟨0, by decide⟩ = b := by
  apply Fin.ext
  have hb : b.val < 2000 := b.isLt
  rw [wrapIndex_val]
  simp only
  omega

theorem slotAt_zero (s : OrderedBytes) :
    s.slotAt 0 = s.packets s.smallestPacketNumberIndex := by
  rw [slotAt_of_lt s (by decide), wrapIndex_zero]

/-- The packets from the head slot up to the first empty slot. -/
def run (s : OrderedBytes) : List BluefinPacket := front s.slotAt 0 maxBufferSize

def pop (s : OrderedBytes) (p : BluefinPacket) : OrderedBytes :=
  s.advance s.smallestPacketNumberIndex p.header.packetNumber

def popAll (s : OrderedBytes) (ps : List BluefinPacket) : OrderedBytes := ps.foldl pop s

def setCarry (s : OrderedBytes) (c : Option Bytes) : OrderedBytes := { s with carryOverBytes := c }

@[simp] theorem slotAt_setCarry (s : OrderedBytes) (c : Option Bytes) (k : ℕ) :
    (s.setCarry c).slotAt k = s.slotAt k := rfl

@[simp] theorem run_setCarry (s : OrderedBytes) (c : Option Bytes) : (s.setCarry c).run = s.run := rfl

theorem popAll_setCarry (s : OrderedBytes) (c : Option Bytes) (ps : List BluefinPacket) :
    (s.setCarry c).popAll ps = (s.popAll ps).setCarry c := by
  induction ps generalizing s with
  | nil => rfl
  | cons p ps ih => exact ih (s.pop p)

theorem slotAt_pop (s : OrderedBytes) (p : BluefinPacket) (k : ℕ) :
    (s.pop p).slotAt k = s.slotAt (k + 1) := by
  have hmax : maxBufferSize = 2000 := rfl
  have hhead : s.smallestPacketNumberIndex.val < 2000 := s.smallestPacketNumberIndex.isLt
  by_cases hk : k < maxBufferSize
  · rw [slotAt_of_lt _ hk]
    simp only [pop, advance]
    by_cases hk' : k + 1 < maxBufferSize
    · have hindex : wrapIndex (wrapIndex s.smallestPacketNumberIndex ⟨1, by decide⟩) ⟨k, hk⟩ =
          wrapIndex s.smallestPacketNumberIndex ⟨k + 1, hk'⟩ := by
        apply Fin.ext
        simp only [wrapIndex_val]
        omega
      have hne : wrapIndex s.smallestPacketNumberIndex ⟨k + 1, hk'⟩ ≠
          s.smallestPacketNumberIndex := by
        intro he
        have hv := congrArg Fin.val he
        rw [wrapIndex_val] at hv
        simp only at hv
        omega
      rw [hindex, Function.update_of_ne hne, slotAt_of_lt _ hk']
    · have hindex : wrapIndex (wrapIndex s.smallestPacketNumberIndex ⟨1, by decide⟩) ⟨k, hk⟩ =
          s.smallestPacketNumberIndex := by
        apply Fin.ext
        simp only [wrapIndex_val]
        omega
      rw [hindex, Function.update_self, slotAt_of_le _ (by omega)]
  · rw [slotAt_of_le _ (by omega), slotAt_of_le _ (by omega)]

theorem run_of_none (s : OrderedBytes) (h : s.slotAt 0 = none) : s.run = [] := front_none h _

theorem run_of_some (s : OrderedBytes) {p : BluefinPacket} (h : s.slotAt 0 = some p) :
    s.run = p :: (s.pop p).run := by
  have hshift : (s.pop p).slotAt = fun k => s.slotAt (k + 1) := funext (slotAt_pop s p)
  have hlast : s.slotAt (1 + 1999) = none := slotAt_of_le s (by decide)
  rw [run, front_some h, run, hshift, front_shift, front_bound hlast]

theorem run_length_le (s : OrderedBytes) : s.run.length ≤ maxBufferSize := front_length_le ..

/-! ### `consume` in closed form -/

/-- The carry-over left by a partly taken payload. -/
def carryOf (rest : Bytes) : Option Bytes := if rest = [] then none else some rest

def payloads (ps : List BluefinPacket) : List Bytes := ps.map BluefinPacket.payload

end OrderedBytes

theorem overwrite_length (buf : Bytes) (i : ℕ) (xs : Bytes) (h : i + xs.length ≤ buf.length) :
    (overwrite buf i xs).length = buf.length := by
  simp only [overwrite, List.length_append, List.length_take, List.length_drop]
  omega

theorem overwrite_nil (buf : Bytes) (i : ℕ) : overwrite buf i [] = buf := by
  simp [overwrite]

theorem overwrite_overwrite (buf : Bytes) (i : ℕ) (xs ys : Bytes)
    (h : i + xs.length ≤ buf.length) :
    overwrite (overwrite buf i xs) (i + xs.length) ys = overwrite buf i (xs ++ ys) := by
  have hpre : (buf.take i ++ xs).length = i + xs.length := by
    simp only [List.length_append, List.length_take]
    omega
  have hover : overwrite buf i xs = (buf.take i ++ xs) ++ buf.drop (i + xs.length) := rfl
  rw [hover, overwrite_append _ _ _ hpre]
  simp only [overwrite, List.drop_drop, List.length_append, List.append_assoc, Nat.add_assoc]

theorem copyFromSlice_ok (buf : Bytes) (i : ℕ) (xs : Bytes) (h : i + xs.length ≤ buf.length) :
    copyFromSlice buf i xs = .ok (overwrite buf i xs) := if_pos h

namespace OrderedBytes

theorem consumeLoop_done (base : Fin maxBufferSize) (len : ℕ) (s : OrderedBytes) (buf : Bytes)
    (writerIx ix : ℕ) : consumeLoop base len s buf len writerIx ix = (.ok (ix, len), s, buf) := by
  rw [consumeLoop]
  by_cases h : ix < maxBufferSize
  · rw [dif_pos h]
    cases hp : s.packets (wrapIndex base ⟨ix, h⟩) with
    | none => simp only [hp]
    | some packet => simp only [hp, Nat.lt_irrefl, if_false]
  · rw [dif_neg h]

/-- The packets of the run that `n` bytes need. -/
def takeBytes (s : OrderedBytes) (n : ℕ) : List BluefinPacket :=
  s.run.take (takeCount n (payloads s.run))

/-- Those packets gone, and the bytes beyond `n` of the last one kept. -/
def afterTake (s : OrderedBytes) (n : ℕ) : OrderedBytes :=
  (s.popAll (s.takeBytes n)).setCarry (carryOf ((payloads (s.takeBytes n)).flatten.drop n))

theorem takeBytes_zero (s : OrderedBytes) : s.takeBytes 0 = [] := by
  have hzero : takeCount 0 (payloads s.run) = 0 := by
    cases payloads s.run <;> rfl
  rw [takeBytes, hzero, List.take_zero]

theorem takeBytes_of_run_nil (s : OrderedBytes) (n : ℕ) (h : s.run = []) : s.takeBytes n = [] := by
  rw [takeBytes, h, List.take_nil]

theorem takeBytes_cons (s : OrderedBytes) {p : BluefinPacket} {n : ℕ} (h : s.slotAt 0 = some p)
    (hn : 0 < n) : s.takeBytes n = p :: (s.pop p).takeBytes (n - p.payload.length) := by
  obtain ⟨m, rfl⟩ := Nat.exists_eq_add_one.mpr hn
  rw [takeBytes, run_of_some s h]
  rfl

def taken (s : OrderedBytes) (n : ℕ) : Bytes := (payloads (s.takeBytes n)).flatten.take n

theorem taken_length_le (s : OrderedBytes) (n : ℕ) : (s.taken n).length ≤ n :=
  List.length_take_le ..

theorem afterTake_nil (s : OrderedBytes) (n : ℕ) (h : s.takeBytes n = [])
    (hcarry : s.carryOverBytes = none) : s.afterTake n = s := by
  cases s
  simp_all [afterTake, popAll, payloads, carryOf, setCarry]

theorem afterTake_cons (s : OrderedBytes) {p : BluefinPacket} {n : ℕ} (h : s.slotAt 0 = some p)
    (hn : 0 < n) (hfit : p.payload.length ≤ n) :
    s.afterTake n = (s.pop p).afterTake (n - p.payload.length) := by
  have hdrop : (payloads (s.takeBytes n)).flatten.drop n =
      (payloads ((s.pop p).takeBytes (n - p.payload.length))).flatten.drop (n - p.payload.length) := by
    rw [takeBytes_cons s h hn]
    simp only [payloads, List.map_cons, List.flatten_cons]
    rw [List.drop_append, List.drop_of_length_le hfit, List.nil_append]
  rw [afterTake, hdrop, takeBytes_cons s h hn]
  rfl

theorem taken_cons (s : OrderedBytes) {p : BluefinPacket} {n : ℕ} (h : s.slotAt 0 = some p)
    (hn : 0 < n) (hfit : p.payload.length ≤ n) :
    s.taken n = p.payload ++ (s.pop p).taken (n - p.payload.length) := by
  rw [taken, takeBytes_cons s h hn]
  simp only [payloads, List.map_cons, List.flatten_cons]
  rw [List.take_append, List.take_of_length_le hfit]
  rfl

theorem take_partial (s : OrderedBytes) {p : BluefinPacket} {n : ℕ} (h : s.slotAt 0 = some p)
    (hn : 0 < n) (hlong : n < p.payload.length) :
    s.takeBytes n = [p] ∧ s.taken n = p.payload.take n ∧
      s.afterTake n = (s.pop p).setCarry (some (p.payload.drop n)) := by
  have htake : s.takeBytes n = [p] := by
    rw [takeBytes_cons s h hn, show n - p.payload.length = 0 by omega, takeBytes_zero]
  have hrest : p.payload.drop n ≠ [] := by
    intro he
    have hl := congrArg List.length he
    rw [List.length_drop, List.length_nil] at hl
    omega
  refine ⟨htake, ?_, ?_⟩
  · simp [taken, htake, payloads]
  · simp [afterTake, htake, payloads, popAll, carryOf, hrest]

theorem wrapIndex_next {base : Fin maxBufferSize} {ix : ℕ} (s : OrderedBytes) (p : BluefinPacket)
    (hslot : ∀ h : ix < maxBufferSize, wrapIndex base ⟨ix, h⟩ = s.smallestPacketNumberIndex)
    (h : ix + 1 < maxBufferSize) :
    wrapIndex base ⟨ix + 1, h⟩ = (s.pop p).smallestPacketNumberIndex := by
  have hhead := congrArg Fin.val (hslot (by omega))
  rw [wrapIndex_val] at hhead
  apply Fin.ext
  simp only [pop, advance, wrapIndex_val] at hhead ⊢
  omega

theorem run_pop_le (s : OrderedBytes) {p : BluefinPacket} (hp : s.slotAt 0 = some p) {ix : ℕ}
    (hrun : s.run.length ≤ maxBufferSize - ix) :
    (s.pop p).run.length ≤ maxBufferSize - (ix + 1) := by
  rw [run_of_some s hp, List.length_cons] at hrun
  omega

theorem consumeLoop_eq (base : Fin maxBufferSize) (len : ℕ) (s : OrderedBytes) (buf : Bytes)
    (numBytes writerIx ix : ℕ)
    (hslot : ∀ h : ix < maxBufferSize, wrapIndex base ⟨ix, h⟩ = s.smallestPacketNumberIndex)
    (hrun : s.run.length ≤ maxBufferSize - ix) (hcarry : s.carryOverBytes = none)
    (hlen : numBytes ≤ len) (hbuf : writerIx + (len - numBytes) ≤ buf.length) :
    consumeLoop base len s buf numBytes writerIx ix =
      (.ok (ix + (s.takeBytes (len - numBytes)).length, numBytes + (s.taken (len - numBytes)).length),
        s.afterTake (len - numBytes), overwrite buf writerIx (s.taken (len - numBytes))) := by
  -- nothing is taken: an empty head slot, enough bytes, or the whole array walked
  have hstop : s.takeBytes (len - numBytes) = [] →
      ((Outcome.ok (ix, numBytes), s, buf) : BluefinResult (ℕ × ℕ) × (OrderedBytes × Bytes)) =
        (.ok (ix + (s.takeBytes (len - numBytes)).length,
            numBytes + (s.taken (len - numBytes)).length),
          s.afterTake (len - numBytes), overwrite buf writerIx (s.taken (len - numBytes))) := by
    intro hnil
    rw [afterTake_nil s _ hnil hcarry, taken, hnil]
    simp [payloads, overwrite_nil]
  rw [consumeLoop]
  by_cases h : ix < maxBufferSize
  · rw [dif_pos h]
    simp only [hslot h]
    cases hp : s.packets s.smallestPacketNumberIndex with
    | none =>
      have hnil : s.run = [] := run_of_none s (by rw [slotAt_zero, hp])
      exact hstop (takeBytes_of_run_nil s _ hnil)
    | some packet =>
      have hhead : s.slotAt 0 = some packet := by rw [slotAt_zero, hp]
      simp only
      by_cases hmore : numBytes < len
      · rw [if_pos hmore]
        have hpos : 0 < len - numBytes := by omega
        by_cases hlong : packet.payload.length > len - numBytes
        · obtain ⟨htake, htaken, hafter⟩ := take_partial s hhead hpos hlong
          have hcopy : writerIx + (packet.payload.take (len - numBytes)).length ≤ buf.length := by
            rw [List.length_take]
            omega
          rw [if_pos hlong, copyFromSlice_ok _ _ _ hcopy, htake, htaken, hafter,
            show numBytes + (len - numBytes) = len by omega]
          simp only [Outcome.orReturn, consumeLoop_done, List.length_singleton, List.length_take,
            Nat.min_eq_left (Nat.le_of_lt hlong)]
          rw [show numBytes + (len - numBytes) = len by omega]
          rfl
        · have hfit : packet.payload.length ≤ len - numBytes := by omega
          have htail := run_pop_le s hhead hrun
          have hcopy : writerIx + packet.payload.length ≤ buf.length := by omega
          rw [if_neg hlong, copyFromSlice_ok _ _ _ hcopy]
          simp only [Outcome.orReturn]
          have ih := consumeLoop_eq base len (s.pop packet) (overwrite buf writerIx packet.payload)
            (numBytes + packet.payload.length) (writerIx + packet.payload.length) (ix + 1)
            (wrapIndex_next s packet hslot) htail hcarry (by omega)
            (by rw [overwrite_length _ _ _ hcopy]; omega)
          rw [show len - (numBytes + packet.payload.length) = len - numBytes - packet.payload.length
            by omega, ← afterTake_cons s hhead hpos hfit, overwrite_overwrite _ _ _ _ hcopy,
            ← taken_cons s hhead hpos hfit] at ih
          rw [show s.advance s.smallestPacketNumberIndex packet.header.packetNumber =
            s.pop packet from rfl, ih, takeBytes_cons s hhead hpos, taken_cons s hhead hpos hfit,
            List.length_cons, List.length_append, Nat.add_assoc ix 1, Nat.add_comm 1,
            Nat.add_assoc numBytes]
      · have hnil : s.takeBytes (len - numBytes) = [] := by
          rw [show len - numBytes = 0 by omega, takeBytes_zero]
        rw [if_neg hmore]
        exact hstop hnil
  · have hnil : s.run = [] := by
      apply List.eq_nil_of_length_eq_zero
      omega
    rw [dif_neg h]
    exact hstop (takeBytes_of_run_nil s _ hnil)
termination_by maxBufferSize - ix

theorem consumePackets_eq (s : OrderedBytes) (len : ℕ) (buf : Bytes) (numBytes : ℕ)
    (hcarry : s.carryOverBytes = none) (hlen : numBytes ≤ len) (hbuf : len ≤ buf.length) :
    s.consumePackets len buf numBytes numBytes =
      (if numBytes + (s.taken (len - numBytes)).length = 0 then .err .bufferEmptyError
        else .ok ⟨(s.takeBytes (len - numBytes)).length, s.basePacketNumber,
          numBytes + (s.taken (len - numBytes)).length⟩,
        s.afterTake (len - numBytes), overwrite buf numBytes (s.taken (len - numBytes))) := by
  have hloop := consumeLoop_eq s.smallestPacketNumberIndex len s buf numBytes numBytes 0
    (fun _ => wrapIndex_zero _) (run_length_le s) hcarry hlen (by omega)
  rw [Nat.zero_add] at hloop
  simp only [consumePackets, hloop, Outcome.orReturn]
  by_cases h : numBytes + (s.taken (len - numBytes)).length = 0
  · rw [if_pos h, if_pos h]
  · rw [if_neg h, if_neg h]

/-- The part of a carry-over that a consumer of `len` bytes takes whole. -/
def carryBytes (s : OrderedBytes) : Bytes := s.carryOverBytes.getD []

/-- `consume` with room for `len` bytes: part of a long carry-over, or the
whole carry-over and then the bytes of the run. -/
theorem consume_eq (s : OrderedBytes) (len : ℕ) (buf : Bytes) (hbuf : len ≤ buf.length) :
    s.consume len buf =
      if len < s.carryBytes.length then
        (.ok ⟨0, 0, len⟩, s.setCarry (some (s.carryBytes.drop len)),
          overwrite buf 0 (s.carryBytes.take len))
      else
        let n := len - s.carryBytes.length
        let out := s.carryBytes ++ (s.setCarry none).taken n
        (if out = [] then .err .bufferEmptyError
          else .ok ⟨((s.setCarry none).takeBytes n).length, s.basePacketNumber, out.length⟩,
          (s.setCarry none).afterTake n, overwrite buf 0 out) := by
  cases hc : s.carryOverBytes with
  | none =>
    have hbytes : s.carryBytes = [] := by rw [carryBytes, hc]; rfl
    have hdrop : (s.setCarry none) = s := by
      cases s
      simp_all [setCarry]
    have hpackets := consumePackets_eq s len buf 0 hc (Nat.zero_le _) hbuf
    simp only [Nat.zero_add, Nat.sub_zero, List.length_eq_zero_iff] at hpackets
    simp only [consume, hc]
    rw [hpackets, hbytes, hdrop]
    simp only [List.length_nil, Nat.not_lt_zero, if_false, Nat.sub_zero, List.nil_append]
  | some c =>
    have hbytes : s.carryBytes = c := by rw [carryBytes, hc]; rfl
    simp only [consume, hc, hbytes]
    by_cases hfit : c.length ≤ len
    · have hpackets := consumePackets_eq (s.setCarry none) len (overwrite buf 0 c) c.length rfl hfit
        (by rw [overwrite_length _ _ _ (by omega)]; exact hbuf)
      have hover := overwrite_overwrite buf 0 c ((s.setCarry none).taken (len - c.length)) (by omega)
      rw [Nat.zero_add] at hover
      rw [hover, ← List.length_append] at hpackets
      simp only [List.length_eq_zero_iff] at hpackets
      rw [if_pos hfit, if_neg (by omega), copyFromSlice_ok _ _ _ (by omega)]
      exact hpackets
    · have hcopy : 0 + (c.take len).length ≤ buf.length := by
        rw [List.length_take]
        omega
      rw [if_neg hfit, if_pos (by omega), copyFromSlice_ok _ _ _ hcopy]
      rfl

/-! ### `consume_bytes` in closed form -/

theorem consumeBytesLoop_eq (base : Fin maxBufferSize) (maxPackets : ℕ) (s : OrderedBytes)
    (out : List Bytes) (pushed totalBytes ix : ℕ)
    (hslot : ∀ h : ix < maxBufferSize, wrapIndex base ⟨ix, h⟩ = s.smallestPacketNumberIndex)
    (hrun : s.run.length ≤ maxBufferSize - ix) :
    consumeBytesLoop base maxPackets s out pushed totalBytes ix =
      ((ix + (s.run.take (maxPackets - pushed)).length,
          totalBytes + (payloads (s.run.take (maxPackets - pushed))).flatten.length),
        s.popAll (s.run.take (maxPackets - pushed)),
        out ++ payloads (s.run.take (maxPackets - pushed))) := by
  have hstop : s.run.take (maxPackets - pushed) = [] →
      ((ix, totalBytes), s, out) =
        ((ix + (s.run.take (maxPackets - pushed)).length,
            totalBytes + (payloads (s.run.take (maxPackets - pushed))).flatten.length),
          s.popAll (s.run.take (maxPackets - pushed)),
          out ++ payloads (s.run.take (maxPackets - pushed))) := by
    intro hnil
    rw [hnil]
    simp [payloads, popAll]
  rw [consumeBytesLoop]
  by_cases h : ix < maxBufferSize ∧ pushed < maxPackets
  · rw [dif_pos h]
    simp only [hslot h.1]
    cases hp : s.packets s.smallestPacketNumberIndex with
    | none =>
      have hnil : s.run = [] := run_of_none s (by rw [slotAt_zero, hp])
      exact hstop (by rw [hnil, List.take_nil])
    | some packet =>
      have hhead : s.slotAt 0 = some packet := by rw [slotAt_zero, hp]
      have htail := run_pop_le s hhead hrun
      have hsplit : s.run.take (maxPackets - pushed) =
          packet :: (s.pop packet).run.take (maxPackets - (pushed + 1)) := by
        rw [run_of_some s hhead, show maxPackets - pushed = maxPackets - (pushed + 1) + 1 by omega,
          List.take_succ_cons]
      have ih := consumeBytesLoop_eq base maxPackets (s.pop packet) (out ++ [packet.payload])
        (pushed + 1) (totalBytes + packet.payload.length) (ix + 1)
        (wrapIndex_next s packet hslot) htail
      simp only
      rw [show s.advance s.smallestPacketNumberIndex packet.header.packetNumber =
        s.pop packet from rfl, ih, hsplit]
      simp only [payloads, popAll, List.map_cons, List.flatten_cons, List.length_append,
        List.length_cons, List.foldl_cons, List.append_assoc, List.singleton_append]
      rw [Nat.add_assoc ix 1, Nat.add_comm 1, Nat.add_assoc totalBytes]
  · rw [dif_neg h]
    apply hstop
    by_cases hix : ix < maxBufferSize
    · rw [show maxPackets - pushed = 0 by omega, List.take_zero]
    · rw [List.eq_nil_of_length_eq_zero (l := s.run) (by omega), List.take_nil]
termination_by maxBufferSize - ix

/-- `consume_bytes`: the carry-over as one piece, if there is one, and then
whole payloads, `maxPackets` pieces in all. -/
theorem consumeBytes_eq (s : OrderedBytes) (out : List Bytes) (maxPackets : ℕ) :
    s.consumeBytes out maxPackets =
      let lead := s.carryOverBytes.toList
      let ps := s.run.take (maxPackets - lead.length)
      let pieces := lead ++ payloads ps
      (if pieces = [] then .err .bufferEmptyError
        else .ok ⟨ps.length, s.basePacketNumber, pieces.flatten.length⟩,
        (s.setCarry none).popAll ps, out ++ pieces) := by
  have hloop : ∀ out pushed totalBytes,
      consumeBytesLoop s.smallestPacketNumberIndex maxPackets (s.setCarry none) out pushed totalBytes 0 =
        (((s.run.take (maxPackets - pushed)).length,
          totalBytes + (payloads (s.run.take (maxPackets - pushed))).flatten.length),
        (s.setCarry none).popAll (s.run.take (maxPackets - pushed)),
        out ++ payloads (s.run.take (maxPackets - pushed))) := by
    intro out pushed totalBytes
    have h := consumeBytesLoop_eq s.smallestPacketNumberIndex maxPackets (s.setCarry none) out pushed
      totalBytes 0 (fun _ => wrapIndex_zero _) (run_length_le s)
    rw [Nat.zero_add] at h
    exact h
  cases hc : s.carryOverBytes with
  | none =>
    have hl := hloop out 0 0
    simp only [setCarry] at hl
    simp only [consumeBytes, hc, Nat.sub_self, hl]
    by_cases hnil : payloads (s.run.take maxPackets) = []
    · simp [hnil, setCarry]
    · simp [hnil, setCarry, basePacketNumber]
  | some c =>
    have hl := hloop (out ++ [c]) 1 c.length
    simp only [setCarry] at hl
    simp only [consumeBytes, hc, List.length_append, List.length_singleton,
      Nat.add_sub_cancel_left, hl]
    rw [if_neg (by omega)]
    simp [setCarry, basePacketNumber]

/-! ### `buffer_in_packet` -/

/-- The packet's number is in the window and its slot is free. -/
def Fits (s : OrderedBytes) (p : BluefinPacket) (k : ℕ) : Prop :=
  k < maxBufferSize ∧ p.header.packetNumber.toNat = s.smallestPacketNumber.toNat + k ∧
    s.slotAt k = none

theorem bufferInPacket_fits (s : OrderedBytes) (p : BluefinPacket) {k : ℕ} (h : s.Fits p k) :
    (s.bufferInPacket p).1 = .ok () ∧
      (∀ j, (s.bufferInPacket p).2.slotAt j = if j = k then some p else s.slotAt j) ∧
      ∃ f, (s.bufferInPacket p).2 = { s with packets := f } := by
  obtain ⟨hk, hnum, hfree⟩ := h
  have hle : ¬ p.header.packetNumber < s.smallestPacketNumber := by
    rw [UInt64.lt_iff_toNat_lt]
    omega
  have hoffset : (p.header.packetNumber - s.smallestPacketNumber).toNat = k := by
    rw [UInt64.toNat_sub_of_le _ _ (UInt64.not_lt.mp hle)]
    omega
  have hslot : s.packets (wrapIndex s.smallestPacketNumberIndex ⟨k, hk⟩) = none := by
    rw [← slotAt_of_lt s hk, hfree]
  have hput : s.bufferInPacket p = (.ok (), { s with
      packets := Function.update s.packets (wrapIndex s.smallestPacketNumberIndex ⟨k, hk⟩)
        (some p) }) := by
    simp only [bufferInPacket, if_neg hle, hoffset, hslot, Option.isSome_none]
    rw [dif_neg (by omega)]
    simp
  rw [hput]
  refine ⟨rfl, ?_, _, rfl⟩
  intro j
  by_cases hj : j < maxBufferSize
  · rw [slotAt_of_lt _ hj]
    by_cases he : j = k
    · subst he
      simp only [Function.update_self, if_true]
    · have hne : wrapIndex s.smallestPacketNumberIndex ⟨j, hj⟩ ≠
          wrapIndex s.smallestPacketNumberIndex ⟨k, hk⟩ :=
        fun h => he (congrArg Fin.val (wrapIndex_inj h))
      rw [if_neg he, slotAt_of_lt _ hj]
      exact Function.update_of_ne hne ..
  · rw [slotAt_of_le _ (by omega), slotAt_of_le _ (by omega), if_neg (by omega)]

theorem bufferInPacket_not_fits (s : OrderedBytes) (p : BluefinPacket)
    (h : ∀ k, ¬ s.Fits p k) : (s.bufferInPacket p).1.isErr = true ∧ (s.bufferInPacket p).2 = s := by
  unfold bufferInPacket
  by_cases hlt : p.header.packetNumber < s.smallestPacketNumber
  · rw [if_pos hlt]
    exact ⟨rfl, rfl⟩
  · rw [if_neg hlt]
    have hoffset : (p.header.packetNumber - s.smallestPacketNumber).toNat =
        p.header.packetNumber.toNat - s.smallestPacketNumber.toNat :=
      UInt64.toNat_sub_of_le _ _ (UInt64.not_lt.mp hlt)
    have hle : s.smallestPacketNumber.toNat ≤ p.header.packetNumber.toNat :=
      UInt64.le_iff_toNat_le.mp (UInt64.not_lt.mp hlt)
    by_cases hbig : (p.header.packetNumber - s.smallestPacketNumber).toNat ≥ maxBufferSize
    · rw [dif_pos hbig]
      exact ⟨rfl, rfl⟩
    · rw [dif_neg hbig]
      have hnot := h (p.header.packetNumber - s.smallestPacketNumber).toNat
      cases hs : s.packets (wrapIndex s.smallestPacketNumberIndex ⟨_, Nat.not_le.mp hbig⟩) with
      | none =>
        refine absurd ⟨by omega, by omega, ?_⟩ hnot
        rw [slotAt_of_lt s (by omega), hs]
      | some q => simp [hs]

theorem bufferInPacket_smallest (s : OrderedBytes) (p : BluefinPacket) :
    (s.bufferInPacket p).2.smallestPacketNumber = s.smallestPacketNumber := by
  by_cases hfits : ∃ k, s.Fits p k
  · obtain ⟨k, hk⟩ := hfits
    obtain ⟨_, _, f, hs⟩ := bufferInPacket_fits s p hk
    rw [hs]
  · rw [(bufferInPacket_not_fits s p (fun k hk => hfits ⟨k, hk⟩)).2]

end OrderedBytes

end Bluefin
