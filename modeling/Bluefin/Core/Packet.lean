import Bluefin.Core.Header

/-!
# Bluefin packets and the datagram parsers (core/packet.rs)

`fromBytes` is the copying parser of the handshake and of the tests,
`fromBytesInto` the zero-copy parser of the receive loops, which appends to a
caller's vector and leaves in it what it pushed before an error. Both walk the
datagram with a cursor. `parse` is the same grammar over the bytes that are
left: the two loops are shown to compute it, and every property of the parsers
is proved of `parse` first.
-/

namespace Bluefin
open Base

structure BluefinPacket where
  header : BluefinHeader
  payload : Bytes
  deriving DecidableEq

namespace BluefinPacket

def serialise (p : BluefinPacket) : Bytes := p.header.serialise ++ p.payload

def len (p : BluefinPacket) : ℕ := p.payload.length + 20

/-- packet.rs:106-117, into a buffer of at least `len` bytes. -/
def serialiseInto (p : BluefinPacket) (buf : Bytes) : Bytes :=
  let buf := overwrite buf 0 (p.header.serialiseInto (buf.take 20))
  overwrite buf 20 p.payload

/-! ### `from_bytes` (packet.rs:126-173) -/

def fromBytesLoop (bytes : Bytes) (cursor : ℕ) (packets : List BluefinPacket) :
    BluefinResult (ℕ × List BluefinPacket) :=
  if _h : cursor < bytes.length ∧ cursor + 20 ≤ bytes.length then do
    let headerBytes ← slice bytes cursor (cursor + 20)
    let header ← BluefinHeader.deserialise headerBytes
    match header.typeField with
    | .ack | .unencryptedClientHello | .unencryptedServerHello | .clientAck | .fin | .finAck =>
      fromBytesLoop bytes (cursor + 20) (packets ++ [⟨header, []⟩])
    | .unencryptedData =>
      let payloadLen := header.typeSpecificPayload.toNat
      if cursor + 20 ≥ bytes.length ∨ cursor + 19 + payloadLen ≥ bytes.length then
        .err (.readError "Cannot read all bytes specified by header")
      else do
        let payload ← slice bytes (cursor + 20) (cursor + 20 + payloadLen)
        fromBytesLoop bytes (cursor + 20 + payloadLen) (packets ++ [⟨header, payload⟩])
  else .ok (cursor, packets)
termination_by bytes.length - cursor

def fromBytes (bytes : Bytes) : BluefinResult (List BluefinPacket) :=
  if bytes.length < 20 then .err (.readError "Array must be at least 20 bytes")
  else do
    let (cursor, packets) ← fromBytesLoop bytes 0 []
    if cursor ≠ bytes.length then
      .err (.readError "Was not able to read all bytes into bluefin packets")
    else .ok packets

/-! ### `from_bytes_into` (packet.rs:190-240) -/

def fromBytesIntoLoop (buf : Bytes) (cursor : ℕ) (packets : List BluefinPacket) :
    BluefinResult ℕ × List BluefinPacket :=
  if _h : cursor < buf.length ∧ cursor + 20 ≤ buf.length then
    (slice buf cursor (cursor + 20)).orReturn packets fun headerBytes =>
    (BluefinHeader.deserialise headerBytes).orReturn packets fun header =>
    match header.typeField with
    | .ack | .unencryptedClientHello | .unencryptedServerHello | .clientAck | .fin | .finAck =>
      fromBytesIntoLoop buf (cursor + 20) (packets ++ [⟨header, []⟩])
    | .unencryptedData =>
      let payloadLen := header.typeSpecificPayload.toNat
      if cursor + 20 ≥ buf.length ∨ cursor + 19 + payloadLen ≥ buf.length then
        (.err (.readError "Cannot read all bytes specified by header"), packets)
      else
        (slice buf (cursor + 20) (cursor + 20 + payloadLen)).orReturn packets fun payload =>
        fromBytesIntoLoop buf (cursor + 20 + payloadLen) (packets ++ [⟨header, payload⟩])
  else (.ok cursor, packets)
termination_by buf.length - cursor

/-- The result of the call and the caller's vector after it. -/
def fromBytesInto (buf : Bytes) (packets : List BluefinPacket) :
    BluefinResult ℕ × List BluefinPacket :=
  if buf.length < 20 then (.err (.readError "Array must be at least 20 bytes"), packets)
  else
    let initialLen := packets.length
    let (res, packets) := fromBytesIntoLoop buf 0 packets
    res.orReturn packets fun cursor =>
    if cursor ≠ buf.length then
      (.err (.readError "Was not able to read all bytes into bluefin packets"), packets)
    else (.ok (packets.length - initialLen), packets)

/-! ### The grammar over the bytes that are left -/

def parse (bs : Bytes) : BluefinResult (List BluefinPacket) :=
  if bs = [] then .ok []
  else if _h : bs.length < 20 then
    .err (.readError "Was not able to read all bytes into bluefin packets")
  else do
    let header ← BluefinHeader.deserialise (bs.take 20)
    match header.typeField with
    | .unencryptedData =>
      if bs.length ≤ 20 ∨ bs.length ≤ 19 + header.typeSpecificPayload.toNat then
        .err (.readError "Cannot read all bytes specified by header")
      else
        (parse (bs.drop (20 + header.typeSpecificPayload.toNat))).map
          (⟨header, (bs.drop 20).take header.typeSpecificPayload.toNat⟩ :: ·)
    | _ => (parse (bs.drop 20)).map (⟨header, []⟩ :: ·)
termination_by bs.length
decreasing_by all_goals (simp only [List.length_drop]; omega)

theorem parse_step (bs : Bytes) (h : 20 ≤ bs.length) :
    parse bs = (do
      let header ← BluefinHeader.deserialise (bs.take 20)
      match header.typeField with
      | .unencryptedData =>
        if bs.length ≤ 20 ∨ bs.length ≤ 19 + header.typeSpecificPayload.toNat then
          .err (.readError "Cannot read all bytes specified by header")
        else
          (parse (bs.drop (20 + header.typeSpecificPayload.toNat))).map
            (⟨header, (bs.drop 20).take header.typeSpecificPayload.toNat⟩ :: ·)
      | _ => (parse (bs.drop 20)).map (⟨header, []⟩ :: ·)) := by
  have hne : bs ≠ [] := by
    intro he
    rw [he, List.length_nil] at h
    omega
  rw [parse, if_neg hne, dif_neg (by omega)]

theorem parse_short (bs : Bytes) (h : bs.length < 20) :
    parse bs = if bs.length ≠ 0 then
      .err (.readError "Was not able to read all bytes into bluefin packets") else .ok [] := by
  cases bs with
  | nil => rw [parse]; rfl
  | cons b bs => rw [parse, if_neg (by simp), dif_pos h, if_pos (by simp)]

def checkCursor (bytes : Bytes) (r : ℕ × List BluefinPacket) :
    BluefinResult (List BluefinPacket) :=
  if r.1 ≠ bytes.length then
    .err (.readError "Was not able to read all bytes into bluefin packets")
  else .ok r.2

theorem fromBytesLoop_parse (bytes : Bytes) (cursor : ℕ) (packets : List BluefinPacket)
    (hc : cursor ≤ bytes.length) :
    (fromBytesLoop bytes cursor packets >>= checkCursor bytes) =
      (parse (bytes.drop cursor)).map (packets ++ ·) := by
  fun_induction fromBytesLoop bytes cursor packets with
  | case1 cursor packets h ihControl ihData =>
    obtain ⟨_, hle⟩ := h
    have hlen : (bytes.drop cursor).length = bytes.length - cursor := List.length_drop
    rw [slice_ok _ _ _ (by omega) hle, show cursor + 20 - cursor = 20 by omega,
      parse_step _ (by omega), Outcome.ok_bind]
    cases hd : BluefinHeader.deserialise ((bytes.drop cursor).take 20) with
    | err e => rfl
    | panicked f => rfl
    | ok header =>
      simp only [Outcome.ok_bind]
      have hcontrol := ihControl header hle
      have hdata := ihData header
      cases ht : header.typeField with
      | unencryptedData =>
        simp only
        by_cases hshort : cursor + 20 ≥ bytes.length ∨
            cursor + 19 + header.typeSpecificPayload.toNat ≥ bytes.length
        · rw [if_pos hshort, if_pos (by omega)]
          rfl
        · rw [if_neg hshort, if_neg (by omega), slice_ok _ _ _ (by omega) (by omega),
            Outcome.ok_bind, hdata hshort _ (by omega), List.drop_drop, List.drop_drop,
            Nat.add_sub_cancel_left, Nat.add_assoc, Outcome.map_map]
          congr 1
          funext ps
          simp
      | _ =>
        simp only
        rw [hcontrol, List.drop_drop, Outcome.map_map]
        congr 1
        funext ps
        simp
  | case2 cursor packets h =>
    have hlen : (bytes.drop cursor).length = bytes.length - cursor := List.length_drop
    rw [parse_short _ (by omega), hlen]
    simp only [Outcome.ok_bind, checkCursor]
    by_cases he : cursor = bytes.length
    · simp [he]
    · rw [if_pos he, if_pos (by omega)]
      rfl

theorem fromBytes_parse (bytes : Bytes) (h : 20 ≤ bytes.length) : fromBytes bytes = parse bytes := by
  have hloop := fromBytesLoop_parse bytes 0 [] (Nat.zero_le _)
  have hid : ∀ x : BluefinResult (List BluefinPacket), x.map ([] ++ ·) = x := by
    intro x
    cases x <;> rfl
  rw [List.drop_zero, hid] at hloop
  rw [fromBytes, if_neg (by omega), ← hloop]
  rfl

/-- The two loops walk in lockstep: they stop with the same outcome, and the zero-copy one has the
packets of the other in its vector. -/
theorem fromBytesIntoLoop_eq (buf : Bytes) (cursor : ℕ) (packets : List BluefinPacket) :
    (fromBytesIntoLoop buf cursor packets).1.map
        (fun c => (c, (fromBytesIntoLoop buf cursor packets).2)) =
      fromBytesLoop buf cursor packets := by
  fun_induction fromBytesIntoLoop buf cursor packets with
  | case1 cursor packets h ihControl ihData =>
    rw [fromBytesLoop, dif_pos h]
    cases hs : (slice buf cursor (cursor + 20) : BluefinResult Bytes) with
    | err e => rfl
    | panicked f => rfl
    | ok headerBytes =>
      simp only [Outcome.ok_bind, Outcome.orReturn]
      cases hd : BluefinHeader.deserialise headerBytes with
      | err e => rfl
      | panicked f => rfl
      | ok header =>
        simp only [Outcome.ok_bind]
        cases ht : header.typeField with
        | unencryptedData =>
          simp only
          by_cases hshort : cursor + 20 ≥ buf.length ∨
              cursor + 19 + header.typeSpecificPayload.toNat ≥ buf.length
          · rw [if_pos hshort, if_pos hshort]
            rfl
          · rw [if_neg hshort, if_neg hshort]
            cases hp : (slice buf (cursor + 20)
                (cursor + 20 + header.typeSpecificPayload.toNat) : BluefinResult Bytes) with
            | err e => rfl
            | panicked f => rfl
            | ok payload => exact ihData header hshort payload
        | _ => exact ihControl header
  | case2 cursor packets h =>
    rw [fromBytesLoop, dif_neg h]
    rfl

theorem fromBytesInto_parse (buf : Bytes) (packets : List BluefinPacket) (h : 20 ≤ buf.length) :
    (fromBytesInto buf packets).1 = (parse buf).map List.length ∧
      ∀ ps, parse buf = .ok ps → (fromBytesInto buf packets).2 = packets ++ ps := by
  have hloop := fromBytesLoop_parse buf 0 packets (Nat.zero_le _)
  rw [List.drop_zero, ← fromBytesIntoLoop_eq] at hloop
  rw [fromBytesInto, if_neg (by omega)]
  cases hr : fromBytesIntoLoop buf 0 packets with
  | mk res packets' =>
    simp only [hr] at hloop ⊢
    cases res with
    | err e =>
      cases hp : parse buf <;> simp_all [Outcome.orReturn]
    | panicked f =>
      cases hp : parse buf <;> simp_all [Outcome.orReturn]
    | ok c =>
      simp only [Outcome.map_ok, Outcome.ok_bind, checkCursor] at hloop
      simp only [Outcome.orReturn]
      by_cases hc : c = buf.length
      · rw [if_neg (by simpa using hc)] at hloop ⊢
        cases hp : parse buf with
        | ok ps =>
          simp only [hp, Outcome.map_ok, Outcome.ok.injEq] at hloop
          simp [hloop]
        | err e => simp [hp] at hloop
        | panicked f => simp [hp] at hloop
      · rw [if_pos hc] at hloop ⊢
        cases hp : parse buf <;> simp_all

end BluefinPacket

end Bluefin
