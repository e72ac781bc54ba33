/-
MahoRD/Proto/WireFormats.lean

The formats besides the control messages: the handshake, the packets of a
pairing, the media payloads, input events, packet headers, relay frames.

For each of them what was encoded is decoded to itself, and no decoder lets
through a value that the encoder would refuse (`RoundTrips`).
-/
import MahoRD.Proto.Handshake
import MahoRD.Proto.Pairing
import MahoRD.Proto.Media
import MahoRD.Proto.Input
import MahoRD.Proto.Relay

namespace MahoRD

open Parse

/-- A pair of an encoder and a decoder for the values that are `typed`: of the right length where
the source has an array. -/
structure RoundTrips {α : Type} (encode : α → Except CodecError (List UInt8))
    (decode : List UInt8 → Except CodecError α) (typed : α → Prop) : Prop where
  decode_encode : ∀ {v bytes}, typed v → encode v = .ok bytes → decode bytes = .ok v
  encode_accepts : ∀ {v bytes}, decode bytes = .ok v → typed v ∧ ∃ again, encode v = .ok again

theorem RoundTrips.of_iff {α : Type} {encode : α → Except CodecError (List UInt8)}
    {decode : List UInt8 → Except CodecError α} {typed : α → Prop}
    (h : ∀ {input v}, decode input = .ok v ↔ typed v ∧ encode v = .ok input) :
    RoundTrips encode decode typed where
  decode_encode htyped he := h.mpr ⟨htyped, he⟩
  encode_accepts hd := ⟨(h.mp hd).1, _, (h.mp hd).2⟩

/-! ### The handshake -/

namespace Handshake

theorem encode_eq_ok {h : Handshake} {bytes : List UInt8} : h.encode = .ok bytes ↔
    (h.version = protocolVersion ∧ (utf8 h.name).length ≤ maxHandshakeNameBytes ∧
      (utf8 h.pairingId).length ≤ maxPairingIdBytes) ∧
    bytes = Bytes.toLE 2 (utf8 h.name).length ++ (utf8 h.name ++ (Bytes.toLE 2 h.width.toNat ++
      (Bytes.toLE 2 h.height.toNat ++ (Bytes.toLE 4 h.scale.toNat ++ h.version ::
        (Bytes.toLE 8 h.capabilities.bits.toNat ++ (Bytes.toLE 2 (utf8 h.pairingId).length ++
          (utf8 h.pairingId ++ h.sessionSalt))))))) := by
  simp only [encode, except_ite_eq_ok, except_bind_eq_ok, except_throw_eq_ok, checkedBytes_eq_ok,
    usizeToU16_eq_ok, except_pure_eq_ok]
  constructor
  · intro h'
    split at h'
    · simp at h'
    next hversion =>
      obtain ⟨_, ⟨hname, rfl⟩, _, ⟨hid, rfl⟩, nameLength, hn, idLength, hi, rfl⟩ := h'
      exact ⟨⟨not_not.mp hversion, hname, hid⟩, by simp [hn, hi]⟩
  · rintro ⟨⟨hversion, hname, hid⟩, rfl⟩
    obtain ⟨nameLength, hn⟩ := exists_u16 (Nat.lt_of_le_of_lt hname (by decide))
    obtain ⟨idLength, hi⟩ := exists_u16 (Nat.lt_of_le_of_lt hid (by decide))
    rw [if_neg (not_not.mpr hversion)]
    exact ⟨_, ⟨hname, rfl⟩, _, ⟨hid, rfl⟩, nameLength, hn, idLength, hi, by simp [hn, hi]⟩

theorem decode_eq_ok {input : List UInt8} {h : Handshake} :
    decode input = .ok h ↔ h.sessionSalt.length = sessionSaltSize ∧ h.encode = .ok input := by
  rcases h with ⟨name, width, height, scale, version, ⟨capabilities⟩, pairingId, sessionSalt⟩
  simp [decode, decoder, encode_eq_ok]
  constructor
  · rintro ⟨nameLength, idLength, rfl, hname, hn, hid, hi, hsalt, rfl⟩
    rw [hn, hi]
    exact ⟨hsalt, ⟨rfl, hname, hid⟩, rfl⟩
  · rintro ⟨hsalt, ⟨rfl, hname, hid⟩, rfl⟩
    obtain ⟨nameLength, hn⟩ := exists_u16 (Nat.lt_of_le_of_lt hname (by decide))
    obtain ⟨idLength, hi⟩ := exists_u16 (Nat.lt_of_le_of_lt hid (by decide))
    exact ⟨nameLength, idLength, by rw [hn, hi], hn ▸ hname, hn, hi ▸ hid, hi, hsalt, rfl⟩

end Handshake

/-! ### Pairing -/

theorem PairingRequest.decode_eq_ok {input : List UInt8} {v : PairingRequest} :
    decode input = .ok v ↔ v.encode = .ok input := by
  rcases v with ⟨name⟩
  simp [decode, decoder, encode]
  constructor
  · rintro ⟨length, rfl, hle, hlen⟩
    exact ⟨hlen ▸ hle, length, hlen, rfl⟩
  · rintro ⟨hle, length, hlen, rfl⟩
    exact ⟨length, rfl, hlen ▸ hle, hlen⟩

namespace PairingGrant

theorem decode_eq_ok {input : List UInt8} {v : PairingGrant} :
    decode input = .ok v ↔ v.key.length = pairingKeySize ∧ v.encode = .ok input := by
  rcases v with ⟨pairingId, hostName, key⟩
  simp [decode, decoder, encode]
  constructor
  · rintro ⟨idLength, nameLength, keyLength, rfl, hid, hname, hsize, hkey⟩
    refine ⟨hkey.trans hsize, ?_, ?_, idLength, hid, nameLength, hname, ?_⟩
    · have := idLength.toNat_lt
      omega
    · have := nameLength.toNat_lt
      omega
    · rw [← hsize, UInt8.ofNat_toNat]
  · rintro ⟨hkey, -, -, idLength, hid, nameLength, hname, rfl⟩
    exact ⟨idLength, nameLength, _, rfl, hid, hname, rfl, hkey⟩

end PairingGrant

theorem PairingReject.decode_eq_ok {input : List UInt8} {v : PairingReject} :
    decode input = .ok v ↔ v.encode = .ok input := by
  have htry : ∀ byte, PairingRejectReason.tryFrom byte = .ok v.reason ↔
      byte = v.reason.toByte := by
    intro byte
    constructor
    · rcases v with ⟨reason⟩
      fun_cases PairingRejectReason.tryFrom byte <;> rintro ⟨⟩ <;> rfl
    · rintro rfl
      cases v.reason <;> rfl
  rcases v with ⟨reason⟩
  simp [decode, decoder, encode, htry]
  exact eq_comm

/-! ### Media -/

/-- The key flag and the padding are not compared, so the bytes need not be the encoding. -/
theorem FrameHeader.roundTrips : RoundTrips FrameHeader.encode FrameHeader.decode fun _ => True where
  decode_encode _ he := decode_encode he
  encode_accepts {h bytes} hd := by
    simp [decode, decoder] at hd
    obtain ⟨_, _, _, _, _, _, _, rfl, ⟨_, hv⟩, rfl⟩ := hd
    exact ⟨trivial, _, by rw [encode, hv]; rfl⟩

namespace FrameChunk

theorem validate_eq_ok {c : FrameChunk} {u : Unit} : c.validate = .ok u ↔
    c.chunkIndex < maxChunksPerFrame ∧ c.data.length ≤ maxVideoChunkBytes := by
  simp [validate]

theorem decode_eq_ok {input : List UInt8} {c : FrameChunk} :
    decode input = .ok c ↔ c.encode = .ok input := by
  rcases c with ⟨frameId, chunkIndex, data⟩
  simp [decode, decoder, encode, validate_eq_ok, toBytes]
  rw [and_comm, eq_comm]

end FrameChunk

theorem CursorUpdate.decode_eq_ok {input : List UInt8} {v : CursorUpdate} :
    decode input = .ok v ↔ v.encode = .ok input := by
  rcases v with ⟨x, y, cursorType⟩
  simp [decode, decoder, encode]
  exact eq_comm

namespace AudioFragment

theorem decode_eq_ok {input : List UInt8} {f : AudioFragment} :
    decode input = .ok f ↔ f.encode = .ok input := by
  rcases f with ⟨⟨frameId, fragmentIndex, fragmentCount⟩, data⟩
  simp [decode, decoder, encode, validate, AudioFragmentHeader.encode, AudioFragmentHeader.toBytes]
  constructor
  · rintro ⟨rfl, hheader, hdata⟩
    exact ⟨hheader, hdata, hheader, rfl⟩
  · rintro ⟨hheader, hdata, -, rfl⟩
    exact ⟨rfl, hheader, hdata⟩

end AudioFragment

namespace TimestampStats

theorem decode_fields {a b c d e : List UInt8} (ha : a.length = 4) (hb : b.length = 8)
    (hc : c.length = 8) (hd : d.length = 8) (he : e.length = 8) :
    decode (timestampStatsMagic ++ (a ++ (b ++ (c ++ (d ++ e))))) =
      some ⟨UInt32.ofNat (Bytes.ofLE a), UInt64.ofNat (Bytes.ofLE b), UInt64.ofNat (Bytes.ofLE c),
        UInt64.ofNat (Bytes.ofLE d), UInt64.ofNat (Bytes.ofLE e)⟩ := by
  simp [decode, size, timestampStatsMagic, List.drop_append, List.take_append, ha, hb, hc, hd, he,
    List.drop_eq_nil_of_le, List.take_of_length_le]

theorem decode_encode (v : TimestampStats) : decode v.encode = some v := by
  have hparts : v.encode = timestampStatsMagic ++ (Bytes.toLE 4 v.frameId.toNat ++
      (Bytes.toLE 8 v.captureUs.toNat ++ (Bytes.toLE 8 v.encodeStartUs.toNat ++
        (Bytes.toLE 8 v.encodeEndUs.toNat ++ Bytes.toLE 8 v.sendUs.toNat)))) := by
    simp [encode]
  have hword : ∀ w : UInt64, UInt64.ofNat (Bytes.ofLE (Bytes.toLE 8 w.toNat)) = w := by
    intro w
    rw [Bytes.ofLE_toLE _ _ w.toNat_lt, UInt64.ofNat_toNat]
  rw [hparts, decode_fields (by simp) (by simp) (by simp) (by simp) (by simp)]
  simp only [hword]
  rw [Bytes.ofLE_toLE _ _ v.frameId.toNat_lt, UInt32.ofNat_toNat]

theorem encode_of_decode {bytes : List UInt8} {v : TimestampStats} (h : decode bytes = some v) :
    v.encode = bytes := by
  have hsplit : ∀ (l : List UInt8) (n k : ℕ), l.length = n + k →
      ∃ x y, x.length = n ∧ y.length = k ∧ l = x ++ y := by
    intro l n k hl
    exact ⟨l.take n, l.drop n, by simp [hl], by simp [hl], (List.take_append_drop n l).symm⟩
  have hform : bytes.length = size ∧ bytes.take 6 = timestampStatsMagic := by
    rw [decode] at h
    split at h
    · cases h
    next hne => simpa using hne
  obtain ⟨m, _, hm, h₁, rfl⟩ := hsplit bytes 6 36 hform.1
  obtain ⟨a, _, ha, h₂, rfl⟩ := hsplit _ 4 32 h₁
  obtain ⟨b, _, hb, h₃, rfl⟩ := hsplit _ 8 24 h₂
  obtain ⟨c, _, hc, h₄, rfl⟩ := hsplit _ 8 16 h₃
  obtain ⟨d, e, hd, he, rfl⟩ := hsplit _ 8 8 h₄
  obtain rfl : m = timestampStatsMagic := by rw [← hform.2, ← hm, List.take_left']; rfl
  rw [decode_fields ha hb hc hd he] at h
  cases h
  simp only [encode, toLE_u32 ha, toLE_u64 hb, toLE_u64 hc, toLE_u64 hd, toLE_u64 he,
    List.append_assoc]

end TimestampStats

/-! ### Input events and packet headers -/

@[simp] theorem InputEventType.tryFrom_eq_ok {byte : UInt8} {t : InputEventType} :
    tryFrom byte = .ok t ↔ byte = t.toByte := by
  constructor
  · fun_cases tryFrom byte <;> rintro ⟨⟩ <;> rfl
  · rintro rfl
    cases t <;> rfl

theorem InputEvent.decode_eq_ok {input : List UInt8} {e : InputEvent} :
    decode input = .ok e ↔ e.encode = .ok input := by
  rcases e with ⟨eventType, x, y, keyCode, ⟨modifiers⟩, scrollDx, scrollDy⟩
  simp [decode, decoder, encode]
  exact eq_comm

@[simp] theorem PacketType.tryFrom_eq_ok {byte : UInt8} {t : PacketType} :
    tryFrom byte = .ok t ↔ byte = t.toByte := by
  constructor
  · fun_cases tryFrom byte <;> rintro ⟨⟩ <;> rfl
  · rintro rfl
    exact tryFrom_toByte t

theorem PacketHeader.decode_eq_ok {input : List UInt8} {h : PacketHeader} :
    decode input = .ok h ↔ h.encode = .ok input := by
  rcases h with ⟨packetType, sequence, timestampMs, flags⟩
  simp [decode, decoder, encode, toBytes]
  exact eq_comm

/-! ### Relay frames -/

theorem encodeRelayFrame_eq_ok {u : Uuid} {channel : UInt8} {payload bytes : List UInt8} :
    encodeRelayFrame u channel payload = .ok bytes ↔
      (channel = relayChannelTcp ∨ channel = relayChannelUdp) ∧
        payload.length ≤ relayMaxPayloadLen ∧ bytes = u.bytes ++ channel :: payload := by
  rw [encodeRelayFrame]
  split
  next h => simp [h.1, h.2]
  next h =>
    have hchannel : channel = relayChannelTcp ∨ channel = relayChannelUdp := by
      by_contra hne
      exact h (not_or.mp hne)
    split
    next hlong => simp [Nat.not_le.mpr hlong]
    next hshort => simp [hchannel, Nat.not_lt.mp hshort, eq_comm]

/-- Behind sixteen bytes of session id stands the channel, behind the channel the payload. -/
theorem decodeRelayFrame_parts {session payload : List UInt8} {channel : UInt8}
    {frame : RelayFrame} (hlen : session.length = 16) :
    decodeRelayFrame (session ++ channel :: payload) = .ok frame ↔
      (channel = relayChannelTcp ∨ channel = relayChannelUdp) ∧
        payload.length ≤ relayMaxPayloadLen ∧ frame = ⟨session, channel, payload⟩ := by
  have hlong : ¬ (session ++ channel :: payload).length < relayFrameHeaderLen := by
    simp [relayFrameHeaderLen, hlen]
    omega
  have hchannel : (session ++ channel :: payload).getD 16 0 = channel := by
    simp [List.getD, hlen]
  have hrest : (session ++ channel :: payload).length - relayFrameHeaderLen = payload.length := by
    simp [relayFrameHeaderLen, hlen]
    omega
  have htake : (session ++ channel :: payload).take 16 = session := by
    rw [← hlen, List.take_left']
    rfl
  have hdrop : (session ++ channel :: payload).drop relayFrameHeaderLen = payload := by
    simp [relayFrameHeaderLen, List.drop_append, hlen]
  simp only [decodeRelayFrame, if_neg hlong, hchannel, hrest, htake, hdrop]
  split
  next h => simp [h.1, h.2]
  next h =>
    have hknown : channel = relayChannelTcp ∨ channel = relayChannelUdp := by
      by_contra hne
      exact h (not_or.mp hne)
    split
    next hbig => simp [Nat.not_le.mpr hbig]
    next hsmall => simp [hknown, Nat.not_lt.mp hsmall, eq_comm]

theorem decodeRelayFrame_eq_ok {input : List UInt8} {frame : RelayFrame} :
    decodeRelayFrame input = .ok frame ↔ ∃ u : Uuid, u.bytes = frame.sessionId ∧
      encodeRelayFrame u frame.channel frame.payload = .ok input := by
  constructor
  · intro h
    have hlen : 17 ≤ input.length := by
      by_contra hshort
      simp [decodeRelayFrame, relayFrameHeaderLen, Nat.not_le.mp hshort] at h
    obtain ⟨session, channel, payload, hsession, rfl⟩ :
        ∃ (session : List UInt8) (channel : UInt8) (payload : List UInt8),
          session.length = 16 ∧ input = session ++ channel :: payload := by
      refine ⟨input.take 16, input[16], input.drop 17, by simp; omega, ?_⟩
      rw [← List.drop_eq_getElem_cons, List.take_append_drop]
    obtain ⟨hchannel, hpayload, rfl⟩ := (decodeRelayFrame_parts hsession).mp h
    exact ⟨⟨session, hsession⟩, rfl, encodeRelayFrame_eq_ok.mpr ⟨hchannel, hpayload, rfl⟩⟩
  · rcases frame with ⟨session, channel, payload⟩
    rintro ⟨u, rfl, h⟩
    obtain ⟨hchannel, hpayload, rfl⟩ := encodeRelayFrame_eq_ok.mp h
    exact (decodeRelayFrame_parts u.length_eq).mpr ⟨hchannel, hpayload, rfl⟩

/-! ### All of them -/

/-- **Decoding undoes encoding, and no decoder lets through what its encoder refuses.**  Time stamps
are always encoded; a relay frame is encoded from its parts. -/
theorem round_trips :
    RoundTrips Handshake.encode Handshake.decode (fun h => h.sessionSalt.length = sessionSaltSize) ∧
    RoundTrips PairingRequest.encode PairingRequest.decode (fun _ => True) ∧
    RoundTrips PairingGrant.encode PairingGrant.decode (fun g => g.key.length = pairingKeySize) ∧
    RoundTrips PairingReject.encode PairingReject.decode (fun _ => True) ∧
    RoundTrips FrameHeader.encode FrameHeader.decode (fun _ => True) ∧
    RoundTrips FrameChunk.encode FrameChunk.decode (fun _ => True) ∧
    RoundTrips AudioFragment.encode AudioFragment.decode (fun _ => True) ∧
    RoundTrips CursorUpdate.encode CursorUpdate.decode (fun _ => True) ∧
    RoundTrips InputEvent.encode InputEvent.decode (fun _ => True) ∧
    RoundTrips PacketHeader.encode PacketHeader.decode (fun _ => True) ∧
    (∀ v : TimestampStats, TimestampStats.decode v.encode = some v) ∧
    (∀ bytes (v : TimestampStats), TimestampStats.decode bytes = some v → v.encode = bytes) ∧
    (∀ (u : Uuid) channel payload bytes, encodeRelayFrame u channel payload = .ok bytes →
      decodeRelayFrame bytes = .ok ⟨u.bytes, channel, payload⟩) ∧
    ∀ bytes frame, decodeRelayFrame bytes = .ok frame → ∃ u : Uuid, u.bytes = frame.sessionId ∧
      ∃ again, encodeRelayFrame u frame.channel frame.payload = .ok again := by
  refine ⟨.of_iff Handshake.decode_eq_ok, .of_iff (by simp [PairingRequest.decode_eq_ok]),
    .of_iff PairingGrant.decode_eq_ok, .of_iff (by simp [PairingReject.decode_eq_ok]),
    FrameHeader.roundTrips, .of_iff (by simp [FrameChunk.decode_eq_ok]),
    .of_iff (by simp [AudioFragment.decode_eq_ok]), .of_iff (by simp [CursorUpdate.decode_eq_ok]),
    .of_iff (by simp [InputEvent.decode_eq_ok]), .of_iff (by simp [PacketHeader.decode_eq_ok]),
    TimestampStats.decode_encode, fun _ _ => TimestampStats.encode_of_decode, ?_, ?_⟩
  · intro u channel payload bytes h
    exact decodeRelayFrame_eq_ok.mpr ⟨u, rfl, h⟩
  · intro bytes frame h
    obtain ⟨u, hu, he⟩ := decodeRelayFrame_eq_ok.mp h
    exact ⟨u, hu, bytes, he⟩

theorem round_trips_reject : PairingReject.decode [1] = .ok ⟨.lockedOut⟩ :=
  round_trips.2.2.2.1.decode_encode trivial rfl

end MahoRD
