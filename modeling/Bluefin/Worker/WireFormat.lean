import Bluefin.Worker.Packetiser

/-!
# The writer's view of the wire format

The packet encoders of the project write the same bytes and the header decoder
reads them back. The audit walk of the writer (`payload_bytes_in_datagram`) is a
second decoder of the same stream that does not look at the packet type.
-/

namespace Bluefin
open Base

/-! ### The three encoders -/

namespace BluefinPacket

theorem serialiseInto_eq (p : BluefinPacket) (buf : Bytes) :
    p.serialiseInto buf = p.serialise ++ buf.drop (20 + p.payload.length) := by
  have hshort : (buf.take 20).drop 20 = [] := by
    rw [List.drop_take, Nat.sub_self, List.take_zero]
  have hheader : overwrite buf 0 (p.header.serialiseInto (buf.take 20)) =
      p.header.serialise ++ buf.drop 20 := by
    rw [BluefinHeader.serialiseInto_eq, hshort, List.append_nil]
    simp [overwrite]
  simp only [serialiseInto, hheader]
  rw [overwrite_append _ _ _ p.header.serialise_length, List.drop_drop, serialise]

end BluefinPacket

namespace BluefinHeader

theorem and_nibble_eq_iff (v : UInt8) : v &&& 0x0f = v ↔ v.toNat < 16 :=
  forallByte (P := fun v => v &&& 0x0f = v ↔ v.toNat < 16) (by decide +kernel) v

/-- The only field that decoding can change is the version. -/
theorem deserialise_serialise_iff (h : BluefinHeader) :
    deserialise h.serialise = .ok h ↔ h.version.toNat < 16 := by
  rw [deserialise_serialise, ← and_nibble_eq_iff]
  constructor
  · intro heq
    have hheader : { h with version := h.version &&& 0x0f } = h := by
      injection heq
    exact congrArg BluefinHeader.version hheader
  · intro heq
    rw [heq]

theorem deserialise_known (bs : Bytes) (hlen : bs.length = 20)
    (htype : BluefinPacket.typeNibble bs ≤ 6) :
    ∃ h, deserialise bs = .ok h ∧ h.serialise = bs := by
  have hall : bs.take 20 = bs := List.take_of_length_le (by omega)
  rcases BluefinPacket.deserialise_front bs (by omega) with ⟨hbig, -⟩ | ⟨-, h, hd, -, -⟩
  · omega
  · rw [hall] at hd
    exact ⟨h, hd, serialise_of_deserialise hd⟩

end BluefinHeader

namespace WriterHandler

/-- What the encoders and the header decoder do with one header and payload. -/
structure EncodersAgree (header : BluefinHeader) (payload : Bytes) (encoded : Bytes) : Prop where
  length : encoded.length = 20 + payload.length
  serialise : (BluefinPacket.mk header payload).serialise = encoded
  serialise_into : ∀ buf : Bytes, 20 + payload.length ≤ buf.length →
    (BluefinPacket.mk header payload).serialiseInto buf =
      encoded ++ buf.drop (20 + payload.length)
  direct : ∀ ans : Bytes, serializePacketDirect ans header payload = ans ++ encoded
  decoded : BluefinHeader.deserialise (encoded.take 20) =
    .ok { header with version := header.version &&& 0x0f }
  decoded_iff : BluefinHeader.deserialise (encoded.take 20) = .ok header ↔
    header.version.toNat < 16

theorem encoders_agree :
    (∀ (header : BluefinHeader) (payload : Bytes),
      ∃ encoded, EncodersAgree header payload encoded) ∧
    ∀ bs : Bytes, bs.length = 20 → BluefinPacket.typeNibble bs ≤ 6 →
      ∃ header, BluefinHeader.deserialise bs = .ok header ∧ header.serialise = bs := by
  refine ⟨fun header payload => ?_, BluefinHeader.deserialise_known⟩
  have hfront : (header.serialise ++ payload).take 20 = header.serialise :=
    List.take_left' header.serialise_length
  refine ⟨header.serialise ++ payload, ?_, rfl, ?_, ?_, ?_, ?_⟩
  · rw [List.length_append, header.serialise_length]
  · intro buf _
    exact BluefinPacket.serialiseInto_eq ⟨header, payload⟩ buf
  · intro ans
    exact serializePacketDirect_eq ans header payload
  · rw [hfront, BluefinHeader.deserialise_serialise]
  · rw [hfront]
    exact header.deserialise_serialise_iff

/-! ### The audit walk -/

/-- writer.rs:520-533. -/
def payloadBytesLoop (datagram : Bytes) (cursor total : ℕ) : BluefinResult ℕ :=
  if _h : cursor + 20 ≤ datagram.length then do
    let b1 ← index datagram (cursor + 1)
    let b2 ← index datagram (cursor + 2)
    let payloadLen := (UInt16.ofNat (beVal [b1, b2])).toNat
    if cursor + 20 + payloadLen > datagram.length then .ok total
    else payloadBytesLoop datagram (cursor + (20 + payloadLen)) (total + payloadLen)
  else .ok total
termination_by datagram.length - cursor

/-- writer.rs:519-535. -/
def payloadBytesInDatagram (datagram : Bytes) : BluefinResult ℕ := payloadBytesLoop datagram 0 0

open BluefinPacket in
theorem payloadBytesLoop_step (datagram : Bytes) (cursor total : ℕ)
    (h : cursor + 20 ≤ datagram.length) :
    payloadBytesLoop datagram cursor total =
      if cursor + 20 + lengthField (datagram.drop cursor) > datagram.length then .ok total
      else payloadBytesLoop datagram (cursor + (20 + lengthField (datagram.drop cursor)))
        (total + lengthField (datagram.drop cursor)) := by
  -- both indices are in bounds, so that the round reads the length field of the bytes that are
  -- left
  have hget1 : datagram[cursor + 1]? = some datagram[cursor + 1] :=
    List.getElem?_eq_getElem (by omega)
  have hget2 : datagram[cursor + 2]? = some datagram[cursor + 2] :=
    List.getElem?_eq_getElem (by omega)
  have hfield : lengthField (datagram.drop cursor) =
      beVal [datagram[cursor + 1], datagram[cursor + 2]] := by
    rw [lengthField, List.drop_drop, List.drop_eq_getElem_cons (by omega),
      List.drop_eq_getElem_cons (by omega)]
    rfl
  have hbound : beVal [datagram[cursor + 1], datagram[cursor + 2]] < 256 ^ 2 := beVal_lt _
  have hval : (UInt16.ofNat (lengthField (datagram.drop cursor))).toNat =
      lengthField (datagram.drop cursor) := by
    rw [UInt16.toNat_ofNat', hfield]
    omega
  rw [payloadBytesLoop, dif_pos h]
  simp only [index, hget1, hget2, Outcome.ok_bind, ← hfield, hval]

/-- On any bytes the walk returns, and it has counted no more than it has walked over. -/
theorem payloadBytesLoop_le (datagram : Bytes) (cursor total : ℕ) (htotal : total ≤ cursor)
    (hcursor : cursor ≤ datagram.length) :
    ∃ n, payloadBytesLoop datagram cursor total = .ok n ∧ n ≤ datagram.length := by
  induction hn : datagram.length - cursor using Nat.strong_induction_on
    generalizing cursor total with
  | _ n ih =>
    by_cases h : cursor + 20 ≤ datagram.length
    · rw [payloadBytesLoop_step datagram cursor total h]
      by_cases hbig : cursor + 20 + BluefinPacket.lengthField (datagram.drop cursor) >
          datagram.length
      · rw [if_pos hbig]
        exact ⟨total, rfl, by omega⟩
      · rw [if_neg hbig]
        exact ih _ (by omega) _ _ (by omega) (by omega) rfl
    · rw [payloadBytesLoop, dif_neg h]
      exact ⟨total, rfl, by omega⟩

open BluefinPacket in
theorem lengthField_serialise (p : BluefinPacket) (rest : Bytes) :
    lengthField (p.serialise ++ rest) = p.header.typeSpecificPayload.toNat := by
  have htake : (p.serialise ++ rest).take 20 = p.header.serialise := by
    rw [serialise, List.append_assoc, List.take_left' p.header.serialise_length]
  rw [← lengthField_take, htake, ← p.header.layout_bytes]
  simp only [lengthField, BluefinHeader.Layout.bytes, List.drop_succ_cons, List.drop_zero]
  rw [List.take_left' p.header.layout.tsp_length]
  exact beVal_beBytes_of_lt 2 _ p.header.typeSpecificPayload.toNat_lt

theorem payloadBytesLoop_data (pre : Bytes) (ps : List BluefinPacket) (total : ℕ)
    (hframed : ∀ p ∈ ps, p.Framed)
    (hdata : ∀ p ∈ ps, p.header.typeField = .unencryptedData) :
    payloadBytesLoop (pre ++ BluefinPacket.serialiseAll ps) pre.length total =
      .ok (total + (ps.map fun p => p.payload.length).sum) := by
  induction ps generalizing pre total with
  | nil =>
    rw [BluefinPacket.serialiseAll_nil, List.append_nil, payloadBytesLoop, dif_neg (by omega)]
    rfl
  | cons p ps ih =>
    have hp : p.payload.length = p.header.typeSpecificPayload.toNat :=
      (hframed p (List.mem_cons_self ..)).data_length (hdata p (List.mem_cons_self ..))
    have htail := ih (pre ++ p.serialise) (total + p.payload.length)
      (fun q hq => hframed q (List.mem_cons_of_mem _ hq))
      (fun q hq => hdata q (List.mem_cons_of_mem _ hq))
    rw [List.append_assoc, List.length_append, p.serialise_length] at htail
    have hlen : (pre ++ (p.serialise ++ BluefinPacket.serialiseAll ps)).length =
        pre.length + (20 + p.payload.length + (BluefinPacket.serialiseAll ps).length) := by
      rw [List.length_append, List.length_append, p.serialise_length]
    rw [BluefinPacket.serialiseAll_cons, payloadBytesLoop_step _ _ _ (by omega),
      List.drop_left' rfl, lengthField_serialise, ← hp, if_neg (by omega), htail,
      List.map_cons, List.sum_cons, Nat.add_assoc]

theorem audit_walk_agrees (datagram : Bytes) :
    (∀ ps, BluefinPacket.fromBytes datagram = .ok ps →
      (∀ p ∈ ps, p.header.typeField = .unencryptedData) →
      payloadBytesInDatagram datagram = .ok (ps.map fun p => p.payload.length).sum) ∧
    ∃ n, payloadBytesInDatagram datagram = .ok n ∧ n ≤ datagram.length := by
  constructor
  · intro ps hparsed hdata
    obtain ⟨hbytes, hframed⟩ := BluefinPacket.fromBytes_framed hparsed
    have hwalk := payloadBytesLoop_data [] ps 0 hframed hdata
    rw [List.nil_append, List.length_nil, Nat.zero_add, hbytes] at hwalk
    exact hwalk
  · exact payloadBytesLoop_le datagram 0 0 (Nat.le_refl 0) (Nat.zero_le _)

end WriterHandler

end Bluefin
