import Bluefin.Base.BigEndian
import Bluefin.Base.Outcome

/-!
# The Bluefin header (core/header.rs)

The 20-byte header: version and type nibbles, the 16-bit type-specific
payload, one security byte, the two connection ids and the packet number, all
big-endian. `deserialise` returns an error on a wrong length and panics on a
type nibble above 6 (`PacketType::from_u8`).
-/

namespace Bluefin
open Base

abbrev Bytes := List UInt8

/-- bluefin-proto/src/error.rs: the variants that the modelled functions return. -/
inductive BluefinError where
  | deserialiseError (msg : String)
  | bufferFullError (msg : String)
  | bufferEmptyError
  | readError (msg : String)
  | writeError (msg : String)
  | noSuchConnectionError
  | connectionAlreadyExists
  | noSuchWakerError
  | unexpectedPacketNumberError
  | unexpected (msg : String)
  | timedOut (msg : String)
  | connectionClosed
  deriving DecidableEq, Repr

inductive PanicMsg where
  | unknownPacketType (value : UInt8)
  | maskTooLong
  | unwrapOnErr (e : BluefinError)
  | unreachableClosePacket
  | unimplementedHost
  deriving DecidableEq, Repr

abbrev BluefinResult (α : Type) := Outcome BluefinError PanicMsg α

/-! ### Packet types -/

inductive PacketType where
  | unencryptedClientHello
  | unencryptedServerHello
  | clientAck
  | unencryptedData
  | ack
  | fin
  | finAck
  deriving DecidableEq, Repr

namespace PacketType

def toU8 : PacketType → UInt8
  | unencryptedClientHello => 0x00
  | unencryptedServerHello => 0x01
  | clientAck => 0x02
  | unencryptedData => 0x03
  | ack => 0x04
  | fin => 0x05
  | finAck => 0x06

/-- header.rs:30-41. -/
def fromU8 (value : UInt8) : BluefinResult PacketType :=
  if value = 0x00 then .ok unencryptedClientHello
  else if value = 0x01 then .ok unencryptedServerHello
  else if value = 0x02 then .ok clientAck
  else if value = 0x03 then .ok unencryptedData
  else if value = 0x04 then .ok ack
  else if value = 0x05 then .ok fin
  else if value = 0x06 then .ok finAck
  else .panicked (.raised (.unknownPacketType value))

theorem fromU8_toU8 (t : PacketType) : fromU8 t.toU8 = .ok t := by
  cases t <;> rfl

/-- The decoder of the type nibble has two outcomes only: a type whose code is the nibble, or the
panic. -/
theorem fromU8_cases (v : UInt8) :
    (∃ t : PacketType, fromU8 v = .ok t ∧ t.toU8 = v) ∨
      (6 < v.toNat ∧ fromU8 v = .panicked (.raised (.unknownPacketType v))) := by
  by_cases hv : v.toNat ≤ 6
  · left
    have hv' : v = 0 ∨ v = 1 ∨ v = 2 ∨ v = 3 ∨ v = 4 ∨ v = 5 ∨ v = 6 := by
      simp only [← UInt8.toNat_inj, UInt8.reduceToNat]
      omega
    rcases hv' with rfl | rfl | rfl | rfl | rfl | rfl | rfl
    · exact ⟨unencryptedClientHello, rfl, rfl⟩
    · exact ⟨unencryptedServerHello, rfl, rfl⟩
    · exact ⟨clientAck, rfl, rfl⟩
    · exact ⟨unencryptedData, rfl, rfl⟩
    · exact ⟨ack, rfl, rfl⟩
    · exact ⟨fin, rfl, rfl⟩
    · exact ⟨finAck, rfl, rfl⟩
  · right
    refine ⟨by omega, ?_⟩
    have hne : ∀ k : UInt8, k.toNat ≤ 6 → v ≠ k := by
      intro k hk he
      rw [he] at hv
      exact hv hk
    simp only [fromU8, hne 0 (by decide), hne 1 (by decide), hne 2 (by decide), hne 3 (by decide),
      hne 4 (by decide), hne 5 (by decide), hne 6 (by decide), if_false]

theorem fromU8_ok {v : UInt8} {t : PacketType} (h : fromU8 v = .ok t) : t.toU8 = v := by
  rcases fromU8_cases v with ⟨t', ht, hv⟩ | ⟨_, hp⟩
  · rw [ht] at h
    cases h
    exact hv
  · rw [hp] at h
    cases h

theorem toU8_le (t : PacketType) : t.toU8.toNat ≤ 6 := by
  cases t <;> decide

end PacketType

/-! ### Security fields -/

/-- The encryption flag and the 7-bit mask. The Rust fields are private and
every constructor keeps the mask within 7 bits, hence the bound. -/
structure BluefinSecurityFields where
  headerEncrypted : Bool
  headerProtectionMask : UInt8
  mask_le : headerProtectionMask.toNat ≤ 127
  deriving DecidableEq

namespace BluefinSecurityFields

/-- header.rs:54-62. -/
def new (headerEncrypted : Bool) (headerProtectionMask : UInt8) :
    BluefinResult BluefinSecurityFields :=
  if h : headerProtectionMask.toNat > 127 then .panicked (.raised .maskTooLong)
  else .ok ⟨headerEncrypted, headerProtectionMask, by omega⟩

def default : BluefinSecurityFields := ⟨false, 0, by decide⟩

def serialise (s : BluefinSecurityFields) : Bytes :=
  let byte : UInt8 := if s.headerEncrypted then 0x0 ||| 0x80 else 0x0
  [byte ||| s.headerProtectionMask]

theorem mask_bound (b : UInt8) : (b &&& 0x7f).toNat ≤ 127 := by
  rw [UInt8.toNat_and]
  exact Nat.and_le_right

def deserialise (bytes : Bytes) : BluefinResult BluefinSecurityFields :=
  if bytes.length < 1 then .err (.deserialiseError "Bluefin security fields are one byte")
  else do
    let byte ← index bytes 0
    pure ⟨decide (((byte &&& 0x80) >>> 7) ≠ 0), byte &&& 0x7f, mask_bound byte⟩

end BluefinSecurityFields

/-! ### The header -/

structure BluefinHeader where
  version : UInt8
  typeField : PacketType
  typeSpecificPayload : UInt16
  securityFields : BluefinSecurityFields
  sourceConnectionId : UInt32
  destinationConnectionId : UInt32
  packetNumber : UInt64
  deriving DecidableEq

/-- The effect of `copy_from_slice` into `buf[i..]`: the bytes `xs` replace those of `buf` from
position `i` on. -/
def overwrite (buf : Bytes) (i : ℕ) (xs : Bytes) : Bytes :=
  buf.take i ++ xs ++ buf.drop (i + xs.length)

theorem overwrite_append (pre rest xs : Bytes) {n : ℕ} (hn : pre.length = n) :
    overwrite (pre ++ rest) n xs = (pre ++ xs) ++ rest.drop xs.length := by
  subst hn
  simp [overwrite, List.drop_append]

namespace BluefinHeader

def new (sourceConnectionId destinationConnectionId : UInt32) (typeField : PacketType)
    (typeSpecificPayload : UInt16) (securityFields : BluefinSecurityFields) : BluefinHeader where
  version := 0x0
  typeField := typeField
  typeSpecificPayload := typeSpecificPayload
  securityFields := securityFields
  sourceConnectionId := sourceConnectionId
  destinationConnectionId := destinationConnectionId
  packetNumber := 0x0

def withPacketNumber (h : BluefinHeader) (packetNumber : UInt64) : BluefinHeader :=
  { h with packetNumber := packetNumber }

def firstByte (h : BluefinHeader) : UInt8 := (h.version <<< 4) ||| h.typeField.toU8

/-- header.rs:178-189. -/
def serialise (h : BluefinHeader) : Bytes :=
  [[h.firstByte], beBytes 2 h.typeSpecificPayload.toNat, h.securityFields.serialise,
    beBytes 4 h.sourceConnectionId.toNat, beBytes 4 h.destinationConnectionId.toNat,
    beBytes 8 h.packetNumber.toNat].flatten

/-- header.rs:162-173, the header written field by field over the first 20 bytes of `buf`. -/
def serialiseInto (h : BluefinHeader) (buf : Bytes) : Bytes :=
  let buf := overwrite buf 0 [h.firstByte]
  let buf := overwrite buf 1 (beBytes 2 h.typeSpecificPayload.toNat)
  let buf := overwrite buf 3 (h.securityFields.serialise.take 1)
  let buf := overwrite buf 4 (beBytes 4 h.sourceConnectionId.toNat)
  let buf := overwrite buf 8 (beBytes 4 h.destinationConnectionId.toNat)
  overwrite buf 12 (beBytes 8 h.packetNumber.toNat)

/-- header.rs:192-224. The `expect`s on the slice lengths cannot fail, since a slice `a..b` has `b -
a` bytes. -/
def deserialise (bytes : Bytes) : BluefinResult BluefinHeader :=
  if bytes.length ≠ 20 then
    .err (.deserialiseError "Bluefin header must be exactly 20 bytes")
  else do
    let b3 ← index bytes 3
    let securityFields ← BluefinSecurityFields.deserialise [b3]
    let b0 ← index bytes 0
    let typeField ← PacketType.fromU8 (b0 &&& 0x0f)
    let tsp ← slice bytes 1 3
    let src ← slice bytes 4 8
    let dst ← slice bytes 8 12
    let num ← slice bytes 12 20
    pure {
      version := (b0 &&& 0xf0) >>> 4
      typeField := typeField
      typeSpecificPayload := UInt16.ofNat (beVal tsp)
      securityFields := securityFields
      sourceConnectionId := UInt32.ofNat (beVal src)
      destinationConnectionId := UInt32.ofNat (beVal dst)
      packetNumber := UInt64.ofNat (beVal num) }


/-! ### Round trips of the header -/

theorem forallByte {P : UInt8 → Prop} (h : ∀ n : Fin 256, P (UInt8.ofNat n.val)) (b : UInt8) :
    P b := by
  have hb := h ⟨b.toNat, UInt8.toNat_lt b⟩
  rwa [UInt8.ofNat_toNat] at hb

theorem nibbles_join (b : UInt8) : (((b &&& 0xf0) >>> 4) <<< 4) ||| (b &&& 0x0f) = b :=
  forallByte (P := fun b => (((b &&& 0xf0) >>> 4) <<< 4) ||| (b &&& 0x0f) = b)
    (by decide +kernel) b

theorem firstByte_type (h : BluefinHeader) : h.firstByte &&& 0x0f = h.typeField.toU8 := by
  unfold firstByte
  cases h.typeField <;>
    exact forallByte (P := fun v => ((v <<< 4) ||| _) &&& 0x0f = _) (by decide +kernel) h.version

theorem firstByte_version (h : BluefinHeader) :
    (h.firstByte &&& 0xf0) >>> 4 = h.version &&& 0x0f := by
  unfold firstByte
  cases h.typeField <;>
    exact forallByte (P := fun v => (((v <<< 4) ||| _) &&& 0xf0) >>> 4 = v &&& 0x0f)
      (by decide +kernel) h.version

theorem version_nibble (v : UInt8) (hv : v.toNat < 16) : v &&& 0x0f = v := by
  have key : v.toNat < 16 → v &&& 0x0f = v :=
    forallByte (P := fun v => v.toNat < 16 → v &&& 0x0f = v) (by decide +kernel) v
  exact key hv

end BluefinHeader

namespace BluefinSecurityFields

def byte (s : BluefinSecurityFields) : UInt8 :=
  (if s.headerEncrypted then 0x0 ||| 0x80 else 0x0) ||| s.headerProtectionMask

theorem serialise_eq (s : BluefinSecurityFields) : s.serialise = [s.byte] := rfl

def ofByte (b : UInt8) : BluefinSecurityFields :=
  ⟨decide (((b &&& 0x80) >>> 7) ≠ 0), b &&& 0x7f, mask_bound b⟩

theorem deserialise_singleton (b : UInt8) : deserialise [b] = .ok (ofByte b) := rfl

theorem ofByte_byte (s : BluefinSecurityFields) : ofByte s.byte = s := by
  obtain ⟨e, m, hm⟩ := s
  have hmask : m.toNat ≤ 127 →
      (((if e then (0x0 ||| 0x80 : UInt8) else 0x0) ||| m) &&& 0x7f = m ∧
        decide (((((if e then (0x0 ||| 0x80 : UInt8) else 0x0) ||| m) &&& 0x80) >>> 7) ≠ 0) = e) := by
    cases e
    · exact BluefinHeader.forallByte
        (P := fun m => m.toNat ≤ 127 → (((0x0 : UInt8) ||| m) &&& 0x7f = m ∧
          decide (((((0x0 : UInt8) ||| m) &&& 0x80) >>> 7) ≠ 0) = false)) (by decide +kernel) m
    · exact BluefinHeader.forallByte
        (P := fun m => m.toNat ≤ 127 → (((0x0 ||| 0x80 : UInt8) ||| m) &&& 0x7f = m ∧
          decide (((((0x0 ||| 0x80 : UInt8) ||| m) &&& 0x80) >>> 7) ≠ 0) = true))
        (by decide +kernel) m
  obtain ⟨hm1, he1⟩ := hmask hm
  simp only [ofByte, byte, mk.injEq]
  exact ⟨he1, hm1⟩

theorem byte_ofByte (b : UInt8) : (ofByte b).byte = b :=
  BluefinHeader.forallByte (P := fun b => (ofByte b).byte = b) (by decide +kernel) b

end BluefinSecurityFields

namespace BluefinHeader

/-- A 20-byte header cut into its fields. -/
structure Layout where
  b0 : UInt8
  tsp : Bytes
  b3 : UInt8
  src : Bytes
  dst : Bytes
  num : Bytes
  tsp_length : tsp.length = 2
  src_length : src.length = 4
  dst_length : dst.length = 4
  num_length : num.length = 8

namespace Layout

def bytes (l : Layout) : Bytes :=
  l.b0 :: (l.tsp ++ (l.b3 :: (l.src ++ (l.dst ++ l.num))))

theorem bytes_length (l : Layout) : l.bytes.length = 20 := by
  simp only [bytes, List.length_cons, List.length_append, l.tsp_length, l.src_length,
    l.dst_length, l.num_length]

/-- The header read off the fields, once the type nibble is known. -/
def header (l : Layout) (t : PacketType) : BluefinHeader where
  version := (l.b0 &&& 0xf0) >>> 4
  typeField := t
  typeSpecificPayload := UInt16.ofNat (beVal l.tsp)
  securityFields := .ofByte l.b3
  sourceConnectionId := UInt32.ofNat (beVal l.src)
  destinationConnectionId := UInt32.ofNat (beVal l.dst)
  packetNumber := UInt64.ofNat (beVal l.num)

theorem exists_of_length (bs : Bytes) (h : bs.length = 20) : ∃ l : Layout, l.bytes = bs := by
  have hsplit : ∀ i n, bs.drop i = (bs.drop i).take n ++ bs.drop (i + n) := by
    intro i n
    rw [← List.drop_drop, List.take_append_drop]
  have h0 : bs.drop 0 = bs[0] :: bs.drop 1 := List.drop_eq_getElem_cons (by omega)
  have h3 : bs.drop 3 = bs[3] :: bs.drop 4 := List.drop_eq_getElem_cons (by omega)
  refine ⟨⟨bs[0], (bs.drop 1).take 2, bs[3], (bs.drop 4).take 4, (bs.drop 8).take 4, bs.drop 12,
    ?_, ?_, ?_, ?_⟩, ?_⟩
  · simp only [List.length_take, List.length_drop]; omega
  · simp only [List.length_take, List.length_drop]; omega
  · simp only [List.length_take, List.length_drop]; omega
  · simp only [List.length_drop]; omega
  · simp only [bytes]
    rw [← hsplit 8 4, ← hsplit 4 4, ← h3, ← hsplit 1 2, ← h0, List.drop_zero]

theorem index_zero (l : Layout) :
    (index l.bytes 0 : BluefinResult UInt8) = .ok l.b0 := rfl

theorem index_three (l : Layout) :
    (index l.bytes 3 : BluefinResult UInt8) = .ok l.b3 := by
  have h3 : l.bytes[3]? = some l.b3 := by
    simp only [bytes, List.getElem?_cons_succ]
    rw [List.getElem?_append_right (by rw [l.tsp_length]), l.tsp_length]
    rfl
  simp only [index, h3]

theorem slice_tsp (l : Layout) :
    (slice l.bytes 1 3 : BluefinResult Bytes) = .ok l.tsp := by
  rw [slice_ok _ _ _ (by omega) (by rw [l.bytes_length]; omega)]
  simp only [bytes, List.drop_succ_cons, List.drop_zero]
  rw [List.take_left' l.tsp_length]

theorem drop_four (l : Layout) : l.bytes.drop 4 = l.src ++ (l.dst ++ l.num) := by
  simp only [bytes, List.drop_succ_cons]
  rw [List.drop_append, l.tsp_length, List.drop_of_length_le (by rw [l.tsp_length]; omega)]
  rfl

theorem drop_eight (l : Layout) : l.bytes.drop 8 = l.dst ++ l.num := by
  rw [show 8 = 4 + 4 from rfl, ← List.drop_drop, drop_four, List.drop_left' l.src_length]

theorem drop_twelve (l : Layout) : l.bytes.drop 12 = l.num := by
  rw [show 12 = 8 + 4 from rfl, ← List.drop_drop, drop_eight, List.drop_left' l.dst_length]

theorem slice_src (l : Layout) :
    (slice l.bytes 4 8 : BluefinResult Bytes) = .ok l.src := by
  rw [slice_ok _ _ _ (by omega) (by rw [l.bytes_length]; omega), drop_four,
    List.take_left' l.src_length]

theorem slice_dst (l : Layout) :
    (slice l.bytes 8 12 : BluefinResult Bytes) = .ok l.dst := by
  rw [slice_ok _ _ _ (by omega) (by rw [l.bytes_length]; omega), drop_eight,
    List.take_left' l.dst_length]

theorem slice_num (l : Layout) :
    (slice l.bytes 12 20 : BluefinResult Bytes) = .ok l.num := by
  rw [slice_ok _ _ _ (by omega) (by rw [l.bytes_length]), drop_twelve,
    List.take_of_length_le (by rw [l.num_length])]

/-- Every index and slice of the decoder is in bounds, so the type nibble is the only thing that can
go wrong on 20 bytes. -/
theorem deserialise_bytes (l : Layout) :
    deserialise l.bytes = (PacketType.fromU8 (l.b0 &&& 0x0f)).map l.header := by
  unfold deserialise
  rw [if_neg (by rw [l.bytes_length]; omega), index_three, index_zero, slice_tsp, slice_src,
    slice_dst, slice_num]
  simp only [Outcome.ok_bind, BluefinSecurityFields.deserialise_singleton, Outcome.pure_eq]
  cases PacketType.fromU8 (l.b0 &&& 0x0f) <;> rfl

end Layout

def layout (h : BluefinHeader) : Layout where
  b0 := h.firstByte
  tsp := beBytes 2 h.typeSpecificPayload.toNat
  b3 := h.securityFields.byte
  src := beBytes 4 h.sourceConnectionId.toNat
  dst := beBytes 4 h.destinationConnectionId.toNat
  num := beBytes 8 h.packetNumber.toNat
  tsp_length := beBytes_length ..
  src_length := beBytes_length ..
  dst_length := beBytes_length ..
  num_length := beBytes_length ..

theorem layout_bytes (h : BluefinHeader) : h.layout.bytes = h.serialise := by
  simp only [serialise, layout, Layout.bytes, BluefinSecurityFields.serialise_eq,
    List.flatten_cons, List.flatten_nil, List.append_nil, List.singleton_append]

@[simp] theorem serialise_length (h : BluefinHeader) : h.serialise.length = 20 := by
  rw [← h.layout_bytes, Layout.bytes_length]

/-- The in-place encoder writes the same 20 bytes and leaves the rest of the buffer as it is. -/
theorem serialiseInto_eq (h : BluefinHeader) (buf : Bytes) :
    h.serialiseInto buf = h.serialise ++ buf.drop 20 := by
  have step : ∀ (pre xs : Bytes) (n : ℕ), pre.length = n →
      overwrite (pre ++ buf.drop n) n xs = (pre ++ xs) ++ buf.drop (n + xs.length) := by
    intro pre xs n hn
    rw [overwrite_append pre _ xs hn, List.drop_drop]
  have h0 := step [] [h.firstByte] 0 rfl
  have h1 := step [h.firstByte] (beBytes 2 h.typeSpecificPayload.toNat) 1 rfl
  have h3 := step ([h.firstByte] ++ beBytes 2 h.typeSpecificPayload.toNat)
    [h.securityFields.byte] 3 (by simp)
  have h4 := step ([h.firstByte] ++ beBytes 2 h.typeSpecificPayload.toNat ++
    [h.securityFields.byte]) (beBytes 4 h.sourceConnectionId.toNat) 4 (by simp)
  have h8 := step ([h.firstByte] ++ beBytes 2 h.typeSpecificPayload.toNat ++
    [h.securityFields.byte] ++ beBytes 4 h.sourceConnectionId.toNat)
    (beBytes 4 h.destinationConnectionId.toNat) 8 (by simp)
  have h12 := step ([h.firstByte] ++ beBytes 2 h.typeSpecificPayload.toNat ++
    [h.securityFields.byte] ++ beBytes 4 h.sourceConnectionId.toNat ++
    beBytes 4 h.destinationConnectionId.toNat) (beBytes 8 h.packetNumber.toNat) 12 (by simp)
  simp only [List.nil_append, List.drop_zero, beBytes_length, List.length_singleton,
    Nat.zero_add, Nat.reduceAdd] at h0 h1 h3 h4 h8 h12
  have hbyte : h.securityFields.serialise.take 1 = [h.securityFields.byte] := rfl
  simp only [serialiseInto, hbyte]
  rw [h0, h1, h3, h4, h8, h12, ← layout_bytes]
  simp only [Layout.bytes, layout, List.append_assoc, List.cons_append, List.nil_append]

theorem layout_header (h : BluefinHeader) :
    h.layout.header h.typeField = { h with version := h.version &&& 0x0f } := by
  have htsp := beVal_beBytes_of_lt 2 _ h.typeSpecificPayload.toNat_lt
  have hsrc := beVal_beBytes_of_lt 4 _ h.sourceConnectionId.toNat_lt
  have hdst := beVal_beBytes_of_lt 4 _ h.destinationConnectionId.toNat_lt
  have hnum := beVal_beBytes_of_lt 8 _ h.packetNumber.toNat_lt
  simp only [Layout.header, layout, htsp, hsrc, hdst, hnum, firstByte_version,
    BluefinSecurityFields.ofByte_byte, UInt16.ofNat_toNat, UInt32.ofNat_toNat,
    UInt64.ofNat_toNat]

theorem deserialise_serialise (h : BluefinHeader) :
    deserialise h.serialise = .ok { h with version := h.version &&& 0x0f } := by
  have htype : PacketType.fromU8 (h.layout.b0 &&& 0x0f) = .ok h.typeField := by
    rw [show h.layout.b0 = h.firstByte from rfl, firstByte_type, PacketType.fromU8_toU8]
  rw [← h.layout_bytes, Layout.deserialise_bytes, htype, Outcome.map_ok, layout_header]

theorem deserialise_serialise_of_version (h : BluefinHeader) (hv : h.version.toNat < 16) :
    deserialise h.serialise = .ok h := by
  rw [deserialise_serialise, version_nibble _ hv]

theorem deserialise_length {bs : Bytes} {h : BluefinHeader} (hd : deserialise bs = .ok h) :
    bs.length = 20 := by
  unfold deserialise at hd
  split at hd
  · cases hd
  · omega

theorem serialise_of_deserialise {bs : Bytes} {h : BluefinHeader}
    (hd : deserialise bs = .ok h) : h.serialise = bs := by
  obtain ⟨l, rfl⟩ := Layout.exists_of_length bs (deserialise_length hd)
  rw [Layout.deserialise_bytes, Outcome.map_eq_ok] at hd
  obtain ⟨t, ht, rfl⟩ := hd
  have hfirst : (l.header t).firstByte = l.b0 := by
    simp only [firstByte, Layout.header, PacketType.fromU8_ok ht, nibbles_join]
  have hval : ∀ (n : ℕ) (bs : Bytes), bs.length = n → beVal bs % 256 ^ n = beVal bs := by
    intro n bs hn
    rw [← hn]
    exact Nat.mod_eq_of_lt (beVal_lt bs)
  have hback : ∀ (n : ℕ) (bs : Bytes), bs.length = n → beBytes n (beVal bs) = bs := by
    intro n bs hn
    rw [← hn]
    exact beBytes_beVal bs
  rw [← layout_bytes]
  simp only [layout, Layout.bytes, hfirst]
  simp only [Layout.header, BluefinSecurityFields.byte_ofByte, UInt16.toNat_ofNat',
    UInt32.toNat_ofNat', UInt64.toNat_ofNat']
  rw [show 2 ^ 16 = 256 ^ 2 from rfl, show 2 ^ 32 = 256 ^ 4 from rfl,
    show 2 ^ 64 = 256 ^ 8 from rfl, hval 2 _ l.tsp_length, hval 4 _ l.src_length,
    hval 4 _ l.dst_length, hval 8 _ l.num_length, hback 2 _ l.tsp_length,
    hback 4 _ l.src_length, hback 4 _ l.dst_length, hback 8 _ l.num_length]

theorem version_of_deserialise {bs : Bytes} {h : BluefinHeader}
    (hd : deserialise bs = .ok h) : h.version.toNat < 16 := by
  obtain ⟨l, rfl⟩ := Layout.exists_of_length bs (deserialise_length hd)
  rw [Layout.deserialise_bytes, Outcome.map_eq_ok] at hd
  obtain ⟨t, ht, rfl⟩ := hd
  exact forallByte (P := fun b => ((b &&& 0xf0) >>> 4).toNat < 16) (by decide +kernel) l.b0

end BluefinHeader

end Bluefin
