import Bluefin.Core.Packet

/-!
# The packet-stream codec

What the two parsers accept, in both directions: a concatenation of encoded
packets parses to the packets, and an accepted datagram is the concatenation of
the encodings of what it parses to. The walk of the parsers over the headers of
a datagram is described by `HeaderAt` on the bytes alone; a header with an
unknown type nibble on this walk is the only way to a panic.
-/

namespace Bluefin
open Base

namespace BluefinPacket

/-- What the parsers hand out: the version is a nibble, a data packet has the
announced number of payload bytes, any other packet has none. -/
structure Framed (p : BluefinPacket) : Prop where
  version_lt : p.header.version.toNat < 16
  data_length : p.header.typeField = .unencryptedData →
    p.payload.length = p.header.typeSpecificPayload.toNat
  control_nil : p.header.typeField ≠ .unencryptedData → p.payload = []

/-- A packet the parsers read back whatever follows it: framed, and not a data
packet without payload. The mask bound is part of `BluefinSecurityFields`. -/
structure Encodable (p : BluefinPacket) : Prop extends Framed p where
  data_ne_nil : p.header.typeField = .unencryptedData → p.payload ≠ []

def serialiseAll (ps : List BluefinPacket) : Bytes := ps.flatMap serialise

@[simp] theorem serialiseAll_nil : serialiseAll [] = [] := rfl

@[simp] theorem serialiseAll_cons (p : BluefinPacket) (ps : List BluefinPacket) :
    serialiseAll (p :: ps) = p.serialise ++ serialiseAll ps := rfl

theorem serialise_length (p : BluefinPacket) : p.serialise.length = 20 + p.payload.length := by
  simp [serialise]

@[simp] theorem parse_nil : parse [] = .ok [] := by
  rw [parse, if_pos rfl]

/-- One encoded packet in front of a stream. A data packet without payload is read back only if
something follows it. -/
theorem parse_serialise_append (p : BluefinPacket) (rest : Bytes) (hp : p.Framed)
    (hlast : p.header.typeField = .unencryptedData → p.payload ≠ [] ∨ rest ≠ []) :
    parse (p.serialise ++ rest) = (parse rest).map (p :: ·) := by
  obtain ⟨header, payload⟩ := p
  have hlen : ((mk header payload).serialise ++ rest).length = 20 + payload.length + rest.length := by
    rw [List.length_append, serialise_length]
  have htake : ((mk header payload).serialise ++ rest).take 20 = header.serialise := by
    rw [serialise, List.append_assoc, List.take_left' header.serialise_length]
  have hdrop : ((mk header payload).serialise ++ rest).drop 20 = payload ++ rest := by
    rw [serialise, List.append_assoc, List.drop_left' header.serialise_length]
  rw [parse_step _ (by omega), htake,
    BluefinHeader.deserialise_serialise_of_version _ hp.version_lt, Outcome.ok_bind]
  have hcontrol : header.typeField ≠ .unencryptedData →
      parse (((mk header payload).serialise ++ rest).drop 20) = parse rest ∧ payload = [] := by
    intro ht
    have hnil : payload = [] := hp.control_nil ht
    rw [hdrop, hnil]
    exact ⟨rfl, rfl⟩
  cases ht : header.typeField with
  | unencryptedData =>
    have hpl : payload.length = header.typeSpecificPayload.toNat := hp.data_length ht
    have hpos : 0 < payload.length + rest.length := by
      rcases hlast ht with h | h
      · exact Nat.add_pos_left (List.length_pos_iff.mpr h) _
      · exact Nat.add_pos_right _ (List.length_pos_iff.mpr h)
    have hnext : ((mk header payload).serialise ++ rest).drop (20 + payload.length) = rest := by
      rw [← List.drop_drop, hdrop, List.drop_left' rfl]
    simp only
    rw [if_neg (by omega), ← hpl, hnext, hdrop, List.take_left' rfl]
  | _ =>
    obtain ⟨hparse, hnil⟩ := hcontrol (by rw [ht]; decide)
    simp only
    rw [hparse, hnil]

theorem parse_serialiseAll (ps : List BluefinPacket) (hps : ∀ p ∈ ps, p.Encodable) :
    parse (serialiseAll ps) = .ok ps := by
  induction ps with
  | nil => exact parse_nil
  | cons p ps ih =>
    have hp : p.Encodable := hps p (List.mem_cons_self ..)
    have htail := ih fun q hq => hps q (List.mem_cons_of_mem _ hq)
    rw [serialiseAll_cons, parse_serialise_append p _ hp.toFramed
      (fun ht => Or.inl (hp.data_ne_nil ht)), htail, Outcome.map_ok]

theorem parse_ok_step {bs : Bytes} {ps : List BluefinPacket} (hlen : 20 ≤ bs.length)
    (h : parse bs = .ok ps) :
    ∃ p rest qs, p.Framed ∧ bs = p.serialise ++ rest ∧ parse rest = .ok qs ∧ ps = p :: qs := by
  rw [parse_step bs hlen] at h
  cases hd : BluefinHeader.deserialise (bs.take 20) with
  | err e =>
    rw [hd] at h
    cases h
  | panicked f =>
    rw [hd] at h
    cases h
  | ok header =>
    have hver := BluefinHeader.version_of_deserialise hd
    have hbytes : bs = header.serialise ++ bs.drop 20 := by
      rw [BluefinHeader.serialise_of_deserialise hd, List.take_append_drop]
    rw [hd, Outcome.ok_bind] at h
    cases ht : header.typeField with
    | unencryptedData =>
      simp only [ht] at h
      by_cases hfit : bs.length ≤ 20 ∨ bs.length ≤ 19 + header.typeSpecificPayload.toNat
      · rw [if_pos hfit] at h
        cases h
      · rw [if_neg hfit, Outcome.map_eq_ok] at h
        obtain ⟨qs, hqs, rfl⟩ := h
        refine ⟨_, _, qs, ⟨hver, fun _ => ?_, fun hne => absurd ht hne⟩, ?_, hqs, rfl⟩
        · simp only [List.length_take, List.length_drop]
          omega
        · rw [serialise, List.append_assoc, ← List.drop_drop, List.take_append_drop]
          exact hbytes
    | _ =>
      simp only [ht, Outcome.map_eq_ok] at h
      obtain ⟨qs, hqs, rfl⟩ := h
      refine ⟨_, _, qs, ⟨hver, ?_, fun _ => rfl⟩, ?_, hqs, rfl⟩
      · intro he
        cases ht.symm.trans he
      · rw [serialise, List.append_nil]
        exact hbytes

theorem parse_ok {bs : Bytes} {ps : List BluefinPacket} (h : parse bs = .ok ps) :
    serialiseAll ps = bs ∧ ∀ p ∈ ps, p.Framed := by
  induction hn : bs.length using Nat.strong_induction_on generalizing bs ps with
  | _ n ih =>
    by_cases hshort : bs.length < 20
    · rw [parse_short bs hshort] at h
      by_cases hz : bs.length = 0
      · rw [if_neg (by omega)] at h
        cases h
        exact ⟨(List.length_eq_zero_iff.mp hz).symm, by simp⟩
      · rw [if_pos hz] at h
        cases h
    · obtain ⟨p, rest, qs, hp, rfl, hqs, rfl⟩ := parse_ok_step (by omega) h
      have hrest : rest.length < n := by
        rw [List.length_append, serialise_length] at hn
        omega
      obtain ⟨hbytes, hframed⟩ := ih _ hrest hqs rfl
      rw [serialiseAll_cons, hbytes]
      exact ⟨rfl, List.forall_mem_cons.mpr ⟨hp, hframed⟩⟩

theorem fromBytes_framed {bytes : Bytes} {ps : List BluefinPacket} (h : fromBytes bytes = .ok ps) :
    serialiseAll ps = bytes ∧ ∀ p ∈ ps, p.Framed := by
  by_cases hlen : 20 ≤ bytes.length
  · rw [fromBytes_parse _ hlen] at h
    exact parse_ok h
  · rw [fromBytes, if_pos (by omega)] at h
    cases h

/-- The parser `from_bytes` inverts the concatenation of encodings, and what it accepts is such a
concatenation. -/
theorem fromBytes_codec :
    (∀ ps : List BluefinPacket, ps ≠ [] → (∀ p ∈ ps, p.Encodable) →
      fromBytes (serialiseAll ps) = .ok ps) ∧
    (∀ (bytes : Bytes) (ps : List BluefinPacket), fromBytes bytes = .ok ps →
      ps ≠ [] ∧ serialiseAll ps = bytes) := by
  refine ⟨?_, ?_⟩
  · intro ps hne hps
    obtain ⟨p, qs, rfl⟩ := List.exists_cons_of_ne_nil hne
    have hlen : 20 ≤ (serialiseAll (p :: qs)).length := by
      rw [serialiseAll_cons, List.length_append, serialise_length]
      omega
    rw [fromBytes_parse _ hlen, parse_serialiseAll _ hps]
  · intro bytes ps h
    by_cases hlen : 20 ≤ bytes.length
    · rw [fromBytes_parse _ hlen] at h
      obtain ⟨hbytes, _⟩ := parse_ok h
      refine ⟨?_, hbytes⟩
      rintro rfl
      rw [← hbytes] at hlen
      simp at hlen
    · rw [fromBytes, if_pos (by omega)] at h
      cases h

def ackThenData : List BluefinPacket :=
  [⟨(BluefinHeader.new 2 1 .ack 3 .default).withPacketNumber 9, []⟩,
    ⟨(BluefinHeader.new 2 1 .unencryptedData 1 .default).withPacketNumber 7, [5]⟩]

theorem fromBytes_codec_ackThenData : fromBytes (serialiseAll ackThenData) = .ok ackThenData ∧
    ackThenData ≠ [] := by
  have hencodable : ∀ p ∈ ackThenData, p.Encodable := by
    intro p hp
    simp only [ackThenData, List.mem_cons, List.not_mem_nil, or_false] at hp
    rcases hp with rfl | rfl
    · exact ⟨⟨by decide, by decide, by decide⟩, by decide⟩
    · exact ⟨⟨by decide, by decide, by decide⟩, by decide⟩
  have hread := fromBytes_codec.1 ackThenData (by decide) hencodable
  exact ⟨hread, (fromBytes_codec.2 _ _ hread).1⟩

theorem fromBytesInto_serialiseAll (ps : List BluefinPacket) (hne : ps ≠ [])
    (hps : ∀ p ∈ ps, p.Encodable) :
    fromBytesInto (serialiseAll ps) [] = (.ok ps.length, ps) := by
  obtain ⟨p, qs, rfl⟩ := List.exists_cons_of_ne_nil hne
  have hlen : 20 ≤ (serialiseAll (p :: qs)).length := by
    rw [serialiseAll_cons, List.length_append, serialise_length]
    omega
  have hparse := parse_serialiseAll _ hps
  obtain ⟨hcount, hvec⟩ := fromBytesInto_parse _ [] hlen
  rw [hparse, Outcome.map_ok] at hcount
  exact Prod.ext hcount (hvec _ hparse)

/-- The two parsers on the same bytes: the same outcome, errors and panics included, and after a
success the zero-copy one has appended the packets of the copying one to whatever the vector held.
-/
theorem fromBytesInto_fromBytes (bytes : Bytes) (packets : List BluefinPacket) :
    (fromBytesInto bytes packets).1 = (fromBytes bytes).map List.length ∧
      ∀ ps, fromBytes bytes = .ok ps → (fromBytesInto bytes packets).2 = packets ++ ps := by
  by_cases hlen : 20 ≤ bytes.length
  · rw [fromBytes_parse _ hlen]
    exact fromBytesInto_parse bytes packets hlen
  · have hshort : bytes.length < 20 := by omega
    rw [fromBytes, fromBytesInto, if_pos hshort, if_pos hshort]
    refine ⟨rfl, ?_⟩
    intro ps h
    cases h

theorem parsers_agree (bytes : Bytes) (packets : List BluefinPacket) :
    (∀ k, (fromBytesInto bytes packets).1 = .ok k ↔
      ∃ ps, fromBytes bytes = .ok ps ∧ ps.length = k) ∧
    (∀ ps, fromBytes bytes = .ok ps →
      fromBytesInto bytes packets = (.ok ps.length, packets ++ ps)) ∧
    (∀ e, (fromBytesInto bytes packets).1 = .err e ↔ fromBytes bytes = .err e) ∧
    (∀ f, (fromBytesInto bytes packets).1 = .panicked f ↔ fromBytes bytes = .panicked f) := by
  obtain ⟨hcount, hvec⟩ := fromBytesInto_fromBytes bytes packets
  refine ⟨?_, ?_, ?_, ?_⟩
  · intro k
    rw [hcount, Outcome.map_eq_ok]
  · intro ps h
    rw [h, Outcome.map_ok] at hcount
    exact Prod.ext hcount (hvec ps h)
  · intro e
    rw [hcount]
    cases fromBytes bytes <;> simp
  · intro f
    rw [hcount]
    cases fromBytes bytes <;> simp

/-! ### Concatenated datagrams -/

/-- A concatenation of encoded packets, each with a known type and a payload of
the announced length. A data packet without payload is allowed. -/
structure Encodes (bytes : Bytes) (ps : List BluefinPacket) : Prop where
  ne_nil : ps ≠ []
  framed : ∀ p ∈ ps, p.Framed
  bytes_eq : serialiseAll ps = bytes

/-- The last packet is a data packet without payload. -/
def EndsEmpty (ps : List BluefinPacket) : Prop :=
  ∃ p ∈ ps.getLast?, p.header.typeField = .unencryptedData ∧ p.payload = []

theorem serialise_ne_nil (p : BluefinPacket) : p.serialise ≠ [] := by
  intro he
  have hlen := p.serialise_length
  rw [he, List.length_nil] at hlen
  omega

theorem serialiseAll_append (ps qs : List BluefinPacket) :
    serialiseAll (ps ++ qs) = serialiseAll ps ++ serialiseAll qs := List.flatMap_append

theorem Encodes.length_le {bytes : Bytes} {ps : List BluefinPacket} (h : Encodes bytes ps) :
    20 ≤ bytes.length := by
  obtain ⟨p, qs, rfl⟩ := List.exists_cons_of_ne_nil h.ne_nil
  rw [← h.bytes_eq, serialiseAll_cons, List.length_append, serialise_length]
  omega

theorem parse_serialiseAll_append (ps : List BluefinPacket) (rest : Bytes)
    (hps : ∀ p ∈ ps, p.Framed) (hrest : rest ≠ []) :
    parse (serialiseAll ps ++ rest) = (parse rest).map (ps ++ ·) := by
  induction ps with
  | nil =>
    rw [serialiseAll_nil, List.nil_append]
    cases parse rest <;> rfl
  | cons p ps ih =>
    have htail := ih fun q hq => hps q (List.mem_cons_of_mem _ hq)
    have hfollowed : serialiseAll ps ++ rest ≠ [] := List.append_ne_nil_of_right_ne_nil _ hrest
    rw [serialiseAll_cons, List.append_assoc, parse_serialise_append p _
      (hps p (List.mem_cons_self ..)) (fun _ => Or.inr hfollowed), htail, Outcome.map_map]
    rfl

theorem parse_single (p : BluefinPacket) (hp : p.Framed) :
    parse p.serialise =
      if p.header.typeField = .unencryptedData ∧ p.payload = [] then
        .err (.readError "Cannot read all bytes specified by header")
      else .ok [p] := by
  by_cases hempty : p.header.typeField = .unencryptedData ∧ p.payload = []
  · obtain ⟨htype, hnil⟩ := hempty
    have hbytes : p.serialise = p.header.serialise := by rw [serialise, hnil, List.append_nil]
    have hlen : p.header.serialise.length = 20 := p.header.serialise_length
    rw [if_pos ⟨htype, hnil⟩, hbytes, parse_step _ (by omega),
      List.take_of_length_le (by omega),
      BluefinHeader.deserialise_serialise_of_version _ hp.version_lt, Outcome.ok_bind]
    simp only [htype]
    rw [if_pos (by omega)]
  · have hread := parse_serialise_append p [] hp fun htype => Or.inl fun hnil => hempty ⟨htype, hnil⟩
    rw [List.append_nil, parse_nil] at hread
    rw [if_neg hempty, hread]
    rfl

theorem fromBytes_encodes {bytes : Bytes} {ps : List BluefinPacket} (h : Encodes bytes ps) :
    (¬ EndsEmpty ps → fromBytes bytes = .ok ps) ∧
      (EndsEmpty ps → (fromBytes bytes).isOk = false) := by
  have hlen := h.length_le
  obtain ⟨hne, hframed, rfl⟩ := h
  obtain ⟨init, last, rfl⟩ : ∃ init last, ps = init ++ [last] :=
    ⟨_, _, (List.dropLast_concat_getLast hne).symm⟩
  have hlast : last.Framed := hframed last (List.mem_append_right _ (List.mem_singleton_self _))
  have hinit : ∀ p ∈ init, p.Framed := fun p hp => hframed p (List.mem_append_left _ hp)
  have hends : EndsEmpty (init ++ [last]) ↔
      last.header.typeField = .unencryptedData ∧ last.payload = [] := by
    simp [EndsEmpty]
  have hsplit : serialiseAll (init ++ [last]) = serialiseAll init ++ last.serialise := by
    rw [serialiseAll_append, serialiseAll_cons, serialiseAll_nil, List.append_nil]
  rw [fromBytes_parse _ hlen, hsplit,
    parse_serialiseAll_append init _ hinit last.serialise_ne_nil, parse_single last hlast, hends]
  constructor
  · intro hnot
    rw [if_neg hnot, Outcome.map_ok]
  · intro hempty
    rw [if_pos hempty]
    rfl

/-- What `from_bytes` accepts are the encodings that do not end with a data packet without payload.
-/
theorem fromBytes_isOk_iff (bytes : Bytes) :
    (fromBytes bytes).isOk = true ↔ ∃ ps, Encodes bytes ps ∧ ¬ EndsEmpty ps := by
  constructor
  · intro hok
    cases hparsed : fromBytes bytes with
    | ok ps =>
      obtain ⟨hbytes, hframed⟩ := fromBytes_framed hparsed
      have hne : ps ≠ [] := by
        intro hnil
        rw [hnil, serialiseAll_nil] at hbytes
        rw [← hbytes] at hparsed
        cases hparsed
      have henc : Encodes bytes ps := ⟨hne, hframed, hbytes⟩
      refine ⟨ps, henc, fun hends => ?_⟩
      rw [(fromBytes_encodes henc).2 hends] at hok
      cases hok
    | err e =>
      rw [hparsed] at hok
      cases hok
    | panicked f =>
      rw [hparsed] at hok
      cases hok
  · intro hex
    obtain ⟨ps, henc, hends⟩ := hex
    rw [(fromBytes_encodes henc).1 hends]
    rfl

theorem fromBytes_append {a b : Bytes} {ps : List BluefinPacket} (ha : Encodes a ps)
    (hb : b ≠ []) :
    ((fromBytes (a ++ b)).isOk = true ↔ (fromBytes b).isOk = true) ∧
      ∀ qs, fromBytes b = .ok qs → fromBytes (a ++ b) = .ok (ps ++ qs) := by
  have hlen := ha.length_le
  have hparse : fromBytes (a ++ b) = (parse b).map (ps ++ ·) := by
    rw [fromBytes_parse _ (by rw [List.length_append]; omega), ← ha.bytes_eq,
      parse_serialiseAll_append ps b ha.framed hb]
  have hpos : b.length ≠ 0 := fun hz => hb (List.length_eq_zero_iff.mp hz)
  by_cases hshort : b.length < 20
  · rw [hparse, parse_short b hshort, if_pos hpos, fromBytes, if_pos hshort]
    refine ⟨Iff.rfl, ?_⟩
    intro qs hqs
    cases hqs
  · rw [hparse, fromBytes_parse b (by omega)]
    constructor
    · cases parse b <;> rfl
    · intro qs hqs
      rw [hqs, Outcome.map_ok]

/-- The datagram `a ++ b` is accepted if and only if both parts are, and then its
packets are theirs. -/
structure Composes (a b : Bytes) : Prop where
  accepted_iff : (fromBytes (a ++ b)).isOk = true ↔
    (fromBytes a).isOk = true ∧ (fromBytes b).isOk = true
  packets : ∀ rs, fromBytes (a ++ b) = .ok rs →
    ∃ ps qs, fromBytes a = .ok ps ∧ fromBytes b = .ok qs ∧ rs = ps ++ qs

theorem composes_iff {a b : Bytes} {ps : List BluefinPacket} (ha : Encodes a ps)
    (hb : b ≠ []) : Composes a b ↔ ¬ EndsEmpty ps ∨ ∀ qs, Encodes b qs → EndsEmpty qs := by
  obtain ⟨hread, hrefused⟩ := fromBytes_encodes ha
  obtain ⟨hok, happend⟩ := fromBytes_append ha hb
  have hothers : (fromBytes b).isOk = false ↔ ∀ qs, Encodes b qs → EndsEmpty qs := by
    rw [← Bool.not_eq_true, fromBytes_isOk_iff]
    push Not
    rfl
  constructor
  · intro hcomp
    by_cases hends : EndsEmpty ps
    · right
      rw [← hothers, ← Bool.not_eq_true, ← hok, hcomp.accepted_iff, hrefused hends]
      simp
    · exact .inl hends
  · intro hcond
    rcases hcond with hends | hall
    · have hparsed := hread hends
      constructor
      case accepted_iff => rw [hok, hparsed, Outcome.isOk_ok, eq_self, true_and]
      case packets =>
        intro rs hrs
        have hbok : (fromBytes b).isOk = true := hok.mp (by rw [hrs]; rfl)
        cases hqs : fromBytes b with
        | ok qs =>
          refine ⟨ps, qs, hparsed, rfl, ?_⟩
          rw [happend qs hqs] at hrs
          cases hrs
          rfl
        | err e =>
          rw [hqs] at hbok
          cases hbok
        | panicked f =>
          rw [hqs] at hbok
          cases hbok
    · have hbad := hothers.mpr hall
      constructor
      case accepted_iff => rw [hok, hbad]; simp
      case packets =>
        intro rs hrs
        have hbok : (fromBytes b).isOk = true := hok.mp (by rw [hrs]; rfl)
        rw [hbad] at hbok
        cases hbok

def emptyData : BluefinPacket :=
  ⟨(BluefinHeader.new 2 1 .unencryptedData 0 .default).withPacketNumber 7, []⟩

def loneAck : BluefinPacket := ⟨(BluefinHeader.new 2 1 .ack 3 .default).withPacketNumber 9, []⟩

theorem encodes_emptyData : Encodes emptyData.serialise [emptyData] :=
  ⟨by decide, by
    intro p hp
    rw [List.mem_singleton.mp hp]
    exact ⟨by decide, by decide, by decide⟩, by decide⟩

theorem encodes_loneAck : Encodes loneAck.serialise [loneAck] :=
  ⟨by decide, by
    intro p hp
    rw [List.mem_singleton.mp hp]
    exact ⟨by decide, by decide, by decide⟩, by decide⟩

theorem not_endsEmpty_loneAck : ¬ EndsEmpty [loneAck] := by
  intro h
  obtain ⟨p, hp, htype, -⟩ := h
  cases hp
  cases htype

theorem fromBytes_emptyData_loneAck :
    fromBytes (emptyData.serialise ++ loneAck.serialise) = .ok [emptyData, loneAck] :=
  (fromBytes_append encodes_emptyData loneAck.serialise_ne_nil).2 _
    ((fromBytes_encodes encodes_loneAck).1 not_endsEmpty_loneAck)

/-- The data packet without payload is refused at the end, and accepted with an acknowledgement
behind it. -/
theorem composes_ack_data :
    Composes loneAck.serialise emptyData.serialise ∧
      fromBytes (loneAck.serialise ++ (emptyData.serialise ++ loneAck.serialise)) =
        .ok [loneAck, emptyData, loneAck] ∧
      Composes loneAck.serialise (emptyData.serialise ++ loneAck.serialise) := by
  have hne : emptyData.serialise ++ loneAck.serialise ≠ [] := by simp [loneAck.serialise_ne_nil]
  refine ⟨(composes_iff encodes_loneAck (by decide)).mpr (.inl not_endsEmpty_loneAck),
    (fromBytes_append encodes_loneAck hne).2 _ fromBytes_emptyData_loneAck,
    (composes_iff encodes_loneAck hne).mpr (.inl not_endsEmpty_loneAck)⟩

theorem empty_data_position :
    Encodes emptyData.serialise [emptyData] ∧ loneAck.serialise ≠ [] ∧
      fromBytes (emptyData.serialise ++ loneAck.serialise) = .ok [emptyData, loneAck] ∧
      fromBytes emptyData.serialise =
        .err (.readError "Cannot read all bytes specified by header") ∧
      ¬ Composes emptyData.serialise loneAck.serialise := by
  have hboth := fromBytes_emptyData_loneAck
  have halone : fromBytes emptyData.serialise =
      .err (.readError "Cannot read all bytes specified by header") := by
    have hframed : emptyData.Framed := encodes_emptyData.framed _ (List.mem_singleton_self _)
    rw [fromBytes_parse _ (by decide), parse_single _ hframed, if_pos ⟨rfl, rfl⟩]
  refine ⟨encodes_emptyData, loneAck.serialise_ne_nil, hboth, halone, fun hcomp => ?_⟩
  have haccepted := hcomp.accepted_iff.mp (by rw [hboth]; rfl)
  rw [halone] at haccepted
  cases haccepted.1

/-! ### The headers a parser looks at -/

def typeNibble (bs : Bytes) : ℕ := (bs.headD 0).toNat % 16

def lengthField (bs : Bytes) : ℕ := beVal ((bs.drop 1).take 2)

/-- The parsers read a header at the front of `rest` when they walk over `bs`:
20 bytes for a control packet, 20 and the announced payload for a data packet
that fits, and no further once a header has an unknown type. -/
inductive HeaderAt : Bytes → Bytes → Prop
  | here {bs : Bytes} (h : 20 ≤ bs.length) : HeaderAt bs bs
  | control {bs rest : Bytes} (h : 20 ≤ bs.length) (hk : typeNibble bs ≤ 6)
      (hc : typeNibble bs ≠ 3) (hr : HeaderAt (bs.drop 20) rest) : HeaderAt bs rest
  | data {bs rest : Bytes} (h : 20 < bs.length) (hd : typeNibble bs = 3)
      (hfit : 20 + lengthField bs ≤ bs.length)
      (hr : HeaderAt (bs.drop (20 + lengthField bs)) rest) : HeaderAt bs rest

/-- Some header on the walk over the datagram has a type nibble that no packet
type has. -/
def ReachesUnknownType (bs : Bytes) : Prop := ∃ rest, HeaderAt bs rest ∧ 6 < typeNibble rest

theorem HeaderAt.length_le {bs rest : Bytes} (h : HeaderAt bs rest) : 20 ≤ bs.length := by
  cases h <;> omega

theorem typeNibble_take (bs : Bytes) : typeNibble (bs.take 20) = typeNibble bs := by
  cases bs <;> rfl

theorem lengthField_take (bs : Bytes) : lengthField (bs.take 20) = lengthField bs := by
  simp [lengthField, List.drop_take, List.take_take]

theorem nibble_toNat (b : UInt8) : (b &&& 0x0f).toNat = b.toNat % 16 :=
  BluefinHeader.forallByte (P := fun b => (b &&& 0x0f).toNat = b.toNat % 16) (by decide +kernel) b

theorem deserialise_front (bs : Bytes) (h : 20 ≤ bs.length) :
    (6 < typeNibble bs ∧ ∃ v, BluefinHeader.deserialise (bs.take 20) =
        .panicked (.raised (.unknownPacketType v))) ∨
      (typeNibble bs ≤ 6 ∧ ∃ header, BluefinHeader.deserialise (bs.take 20) = .ok header ∧
        header.typeField.toU8.toNat = typeNibble bs ∧
        header.typeSpecificPayload.toNat = lengthField bs) := by
  obtain ⟨l, hl⟩ := BluefinHeader.Layout.exists_of_length (bs.take 20)
    (by rw [List.length_take]; omega)
  have hnibble : (l.b0 &&& 0x0f).toNat = typeNibble bs := by
    rw [nibble_toNat, ← typeNibble_take, ← hl]
    rfl
  have hfield : beVal l.tsp = lengthField bs := by
    rw [← lengthField_take, ← hl]
    simp only [lengthField, BluefinHeader.Layout.bytes, List.drop_succ_cons, List.drop_zero]
    rw [List.take_left' l.tsp_length]
  rw [← hl, BluefinHeader.Layout.deserialise_bytes, ← hnibble]
  rcases PacketType.fromU8_cases (l.b0 &&& 0x0f) with ⟨t, ht, hcode⟩ | ⟨hbig, hp⟩
  · right
    refine ⟨?_, l.header t, ?_, ?_, ?_⟩
    · rw [← hcode]
      exact t.toU8_le
    · rw [ht, Outcome.map_ok]
    · rw [← hcode]
      rfl
    · have hlt := beVal_lt l.tsp
      rw [l.tsp_length] at hlt
      rw [← hfield]
      simp only [BluefinHeader.Layout.header, UInt16.toNat_ofNat']
      exact Nat.mod_eq_of_lt hlt
  · left
    refine ⟨hbig, l.b0 &&& 0x0f, ?_⟩
    rw [hp, Outcome.map_panicked]

theorem toU8_eq_three (t : PacketType) : t.toU8.toNat = 3 ↔ t = .unencryptedData := by
  cases t <;> decide

theorem parse_front (bs : Bytes) (h : 20 ≤ bs.length) :
    (6 < typeNibble bs ∧ ∃ v, parse bs = .panicked (.raised (.unknownPacketType v))) ∨
      (typeNibble bs ≤ 6 ∧ typeNibble bs ≠ 3 ∧
        ∃ p, parse bs = (parse (bs.drop 20)).map (p :: ·)) ∨
      (typeNibble bs = 3 ∧ (bs.length ≤ 20 ∨ bs.length < 20 + lengthField bs) ∧
        parse bs = .err (.readError "Cannot read all bytes specified by header")) ∨
      (typeNibble bs = 3 ∧ 20 < bs.length ∧ 20 + lengthField bs ≤ bs.length ∧
        ∃ p, parse bs = (parse (bs.drop (20 + lengthField bs))).map (p :: ·)) := by
  rw [parse_step bs h]
  rcases deserialise_front bs h with ⟨hbig, v, hp⟩ | ⟨hle, header, hd, hcode, hlen⟩
  · left
    refine ⟨hbig, v, ?_⟩
    rw [hp, Outcome.panicked_bind]
  · right
    rw [hd, Outcome.ok_bind]
    by_cases ht : header.typeField = .unencryptedData
    · right
      have h3 : typeNibble bs = 3 := by rw [← hcode, ht]; rfl
      simp only [ht, hlen]
      by_cases hfit : bs.length ≤ 20 ∨ bs.length ≤ 19 + lengthField bs
      · left
        rw [if_pos hfit]
        exact ⟨h3, by omega, rfl⟩
      · right
        rw [if_neg hfit]
        exact ⟨h3, by omega, by omega, _, rfl⟩
    · left
      refine ⟨hle, ?_, ⟨header, []⟩, ?_⟩
      · rw [← hcode]
        exact fun h3 => ht ((toU8_eq_three _).mp h3)
      · cases hf : header.typeField <;> first | rfl | exact absurd hf ht

theorem not_reachesUnknownType_of_short (bs : Bytes) (h : bs.length < 20) :
    ¬ ReachesUnknownType bs := by
  rintro ⟨rest, hrest, _⟩
  have := hrest.length_le
  omega

/-- A walk ends in a panic exactly if it comes to a header with an unknown type, and the panic is
the one of `from_u8`. -/
theorem parse_panic (bs : Bytes) :
    ((parse bs).isPanic = true ↔ ReachesUnknownType bs) ∧
      ∀ f, parse bs = .panicked f → ∃ v, f = .raised (.unknownPacketType v) := by
  induction hn : bs.length using Nat.strong_induction_on generalizing bs with
  | _ n ih =>
    by_cases hshort : bs.length < 20
    · have hunreached := not_reachesUnknownType_of_short bs hshort
      rw [parse_short bs hshort]
      by_cases hz : bs.length = 0
      · rw [if_neg (by omega)]
        simp [hunreached]
      · rw [if_pos hz]
        simp [hunreached]
    · rcases parse_front bs (by omega) with ⟨hbig, v, hp⟩ | ⟨hle, hne, p, hp⟩ |
        ⟨h3, hfit, hp⟩ | ⟨h3, hlen, hfit, p, hp⟩
      · rw [hp]
        refine ⟨?_, ?_⟩
        · have hreached : ReachesUnknownType bs := ⟨bs, .here (by omega), hbig⟩
          simp [hreached]
        · intro f hf
          cases hf
          exact ⟨v, rfl⟩
      · obtain ⟨hiff, hfault⟩ := ih _ (by rw [List.length_drop]; omega) (bs.drop 20) rfl
        rw [hp, Outcome.isPanic_map, hiff]
        refine ⟨⟨?_, ?_⟩, ?_⟩
        · rintro ⟨rest, hrest, hbig⟩
          exact ⟨rest, .control (by omega) hle hne hrest, hbig⟩
        · rintro ⟨rest, hrest, hbig⟩
          cases hrest with
          | here h => omega
          | control h hk hc hr => exact ⟨rest, hr, hbig⟩
          | data h hd hfit hr => omega
        · intro f hf
          exact hfault f (Outcome.map_eq_panicked.mp hf)
      · have hunreached : ¬ ReachesUnknownType bs := by
          rintro ⟨rest, hrest, hbig⟩
          cases hrest <;> omega
        rw [hp]
        simp [hunreached]
      · obtain ⟨hiff, hfault⟩ := ih _ (by rw [List.length_drop]; omega)
          (bs.drop (20 + lengthField bs)) rfl
        rw [hp, Outcome.isPanic_map, hiff]
        refine ⟨⟨?_, ?_⟩, ?_⟩
        · rintro ⟨rest, hrest, hbig⟩
          exact ⟨rest, .data hlen h3 hfit hrest, hbig⟩
        · rintro ⟨rest, hrest, hbig⟩
          cases hrest with
          | here h => omega
          | control h hk hc hr => omega
          | data h hd hfit hr => exact ⟨rest, hr, hbig⟩
        · intro f hf
          exact hfault f (Outcome.map_eq_panicked.mp hf)

theorem fromBytes_panic_iff (bytes : Bytes) :
    (fromBytes bytes).isPanic = true ↔ ReachesUnknownType bytes := by
  by_cases hlen : 20 ≤ bytes.length
  · rw [fromBytes_parse bytes hlen, (parse_panic bytes).1]
  · rw [fromBytes, if_pos (by omega)]
    simp [not_reachesUnknownType_of_short bytes (by omega)]

theorem fromBytesInto_panic_iff (buf : Bytes) (packets : List BluefinPacket) :
    (fromBytesInto buf packets).1.isPanic = true ↔ ReachesUnknownType buf := by
  by_cases hlen : 20 ≤ buf.length
  · rw [(fromBytesInto_parse buf packets hlen).1, Outcome.isPanic_map, (parse_panic buf).1]
  · rw [fromBytesInto, if_pos (by omega)]
    simp [not_reachesUnknownType_of_short buf (by omega)]

theorem fromBytesInto_unknown {buf : Bytes} (h : ReachesUnknownType buf)
    (packets : List BluefinPacket) :
    ∃ v, (fromBytesInto buf packets).1 = .panicked (.raised (.unknownPacketType v)) := by
  have hlen : 20 ≤ buf.length := by
    obtain ⟨rest, hrest, -⟩ := h
    exact hrest.length_le
  obtain ⟨hiff, hfault⟩ := parse_panic buf
  have hpanic := hiff.mpr h
  rw [(fromBytesInto_parse buf packets hlen).1]
  cases hparse : parse buf with
  | ok ps =>
    rw [hparse] at hpanic
    cases hpanic
  | err e =>
    rw [hparse] at hpanic
    cases hpanic
  | panicked f =>
    obtain ⟨v, rfl⟩ := hfault f hparse
    exact ⟨v, rfl⟩

end BluefinPacket

end Bluefin
