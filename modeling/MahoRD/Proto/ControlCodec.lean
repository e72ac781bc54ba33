/-
MahoRD/Proto/ControlCodec.lean

Encoding and decoding whole control messages.

Every message within the limits of the format is encoded, and decoded to
itself.  In the other direction a byte string that is accepted is the encoding
of the message it decodes to, unless it is an input acknowledgement whose
success byte is neither 0 nor 1.  No message can be cut short or continued,
except the image chunk behind its header: the rest of the message is its
payload.
-/
import MahoRD.Proto.ControlFormat

namespace MahoRD.ControlMessage

open Parse

/-! ### Limits -/

/-- The limits of the format. -/
def WithinLimits : ControlMessage → Prop
  | streamConfigReject v => (utf8 v.message).length ≤ 65535
  | streamConfigError v => (utf8 v.message).length ≤ 65535
  | clipboardSyncUpdate v => (utf8 v.text).length ≤ maxClipboardTextBytes
  | clipboardSyncError v => (utf8 v.message).length ≤ 65535
  | hostDisplayList v => v.WithinLimits
  | hostStatus v => v.WithinLimits
  | pairingTrustRequest v => v.trust.WithinLimits
  | pairingTrustGrant v => v.trust.WithinLimits
  | clipboardImageChunk v => v.WithinLimits
  | _ => True

variable {m : ControlMessage} {v : ClipboardImageChunk}

theorem encode_eq_ok {bytes : List UInt8} : m.encode = .ok bytes ↔
    ∃ body, m.encodeBody = .ok body ∧ m.messageType.toByte :: body = bytes := by
  simp [encode]

theorem encodes_iff : (∃ bytes, m.encode = .ok bytes) ↔ m.WithinLimits := by
  have hbody : (∃ bytes, m.encode = .ok bytes) ↔ ∃ body, m.encodeBody = .ok body := by
    simp only [encode_eq_ok]
    constructor
    · rintro ⟨_, body, h, -⟩
      exact ⟨body, h⟩
    · rintro ⟨body, h⟩
      exact ⟨_, body, h, rfl⟩
  rw [hbody]
  cases m with
  | streamConfigReject v =>
    simp [encodeBody, StreamConfigurationReject.encode, encodeStreamProblem_eq_ok, WithinLimits]
  | streamConfigError v =>
    simp [encodeBody, StreamConfigurationError.encode, encodeStreamProblem_eq_ok, WithinLimits]
  | clipboardSyncUpdate v => simp [encodeBody, ClipboardSyncUpdate.encode_eq_ok, WithinLimits]
  | clipboardSyncError v => simp [encodeBody, ClipboardSyncError.encode_eq_ok, WithinLimits]
  | hostDisplayList v => simp [encodeBody, HostDisplayList.encode_eq_ok, WithinLimits]
  | hostStatus v => simp [encodeBody, HostStatus.encode_eq_ok, WithinLimits]
  | pairingTrustRequest v => exact PairingTrust.encode_accepts
  | pairingTrustGrant v => exact PairingTrust.encode_accepts
  | clipboardImageChunk v => simp [encodeBody, ClipboardImageChunk.encode_eq_ok, WithinLimits]
  | _ => exact ⟨fun _ => trivial, fun _ => ⟨_, rfl⟩⟩

/-! ### Bodies -/

/-- The body of any message but an input acknowledgement decodes to the message that is encoded
so. -/
theorem decodeBody_eq_ok {body : List UInt8} {t : ControlMessageType}
    (ht : t ≠ .inputAck) :
    decodeBody body t = .ok m ↔ m.messageType = t ∧ m.encodeBody = .ok body := by
  constructor
  · intro h
    cases t
    case inputAck => exact absurd rfl ht
    case requestKeyFrame | startStream | stopStream | disconnect | ping | pong =>
      obtain ⟨rfl, rfl⟩ : body = [] ∧ _ = m := by simpa [decodeBody] using h
      exact ⟨rfl, rfl⟩
    all_goals
      simp [decodeBody] at h
      obtain ⟨v, hv, rfl⟩ := h
      exact ⟨rfl, hv⟩
  · rintro ⟨rfl, h⟩
    cases m
    case inputAck => exact absurd rfl ht
    case requestKeyFrame | startStream | stopStream | disconnect | ping | pong =>
      cases h
      simp [messageType, decodeBody]
    all_goals simpa [messageType, decodeBody, encodeBody] using h

theorem decodeBody_inputAck {body : List UInt8} :
    decodeBody body .inputAck = .ok m ↔ ∃ v, InputAckMessage.decode body = .ok v ∧ inputAck v = m := by
  simp only [decodeBody, except_bind_eq_ok, except_pure_eq_ok]

theorem messageType_of_decodeBody {body : List UInt8} {t : ControlMessageType}
    (h : decodeBody body t = .ok m) : m.messageType = t := by
  by_cases ht : t = .inputAck
  · subst ht
    obtain ⟨v, -, rfl⟩ := decodeBody_inputAck.mp h
    rfl
  · exact ((decodeBody_eq_ok ht).mp h).1

theorem decodeBody_of_encodeBody {body : List UInt8}
    (h : m.encodeBody = .ok body) : decodeBody body m.messageType = .ok m := by
  by_cases ht : m.messageType = .inputAck
  · cases m with
    | inputAck v =>
      cases h
      refine decodeBody_inputAck.mpr ⟨v, ?_, rfl⟩
      refine InputAckMessage.decode_eq_ok.mpr ⟨boolByte v.success, ?_, rfl⟩
      cases v.success <;> rfl
    | _ => cases ht
  · exact (decodeBody_eq_ok ht).mpr ⟨rfl, h⟩

theorem closed_decodeBody {body more : List UInt8} {t : ControlMessageType} {m' : ControlMessage}
    (ht : t ≠ .clipboardImageChunk) (h : decodeBody body t = .ok m)
    (h' : decodeBody (body ++ more) t = .ok m') : more = [] := by
  cases t
  case clipboardImageChunk => exact absurd rfl ht
  case requestKeyFrame | startStream | stopStream | disconnect | ping | pong =>
    obtain ⟨⟨-, hmore⟩, -⟩ : (body = [] ∧ more = []) ∧ _ := by simpa [decodeBody] using h'
    exact hmore
  all_goals
    simp only [decodeBody, except_bind_eq_ok, except_pure_eq_ok] at h h'
    obtain ⟨v, hv, -⟩ := h
    obtain ⟨v', hv', -⟩ := h'
  case bitrateAdjust => exact BitrateAdjust.closed_decoder.more_eq_nil hv hv'
  case streamConfigRequest => exact StreamConfigurationRequest.closed_decoder.more_eq_nil hv hv'
  case streamConfigResponse => exact StreamConfigurationResponse.closed_decoder.more_eq_nil hv hv'
  case streamConfigReject => exact StreamConfigurationReject.closed_decoder.more_eq_nil hv hv'
  case streamConfigError => exact StreamConfigurationError.closed_decoder.more_eq_nil hv hv'
  case clipboardSyncRequest => exact ClipboardSyncRequest.closed_decoder.more_eq_nil hv hv'
  case clipboardSyncUpdate => exact ClipboardSyncUpdate.closed_decoder.more_eq_nil hv hv'
  case clipboardSyncError => exact ClipboardSyncError.closed_decoder.more_eq_nil hv hv'
  case inputAck => exact InputAckMessage.closed_decoder.more_eq_nil hv hv'
  case streamOptionsRequest => exact StreamOptionsRequest.closed_decoder.more_eq_nil hv hv'
  case streamOptionsActive => exact StreamOptionsActive.closed_decoder.more_eq_nil hv hv'
  case hostDisplayList => exact HostDisplayList.closed_decoder.more_eq_nil hv hv'
  case hostPolicy => exact HostPolicy.closed_decoder.more_eq_nil hv hv'
  case secureAttentionRequest => exact SecureAttentionRequest.closed_decoder.more_eq_nil hv hv'
  case secureAttentionResponse => exact SecureAttentionResponse.closed_decoder.more_eq_nil hv hv'
  case hostStatus => exact HostStatus.closed_decoder.more_eq_nil hv hv'
  case sessionEnded => exact SessionEnded.closed_decoder.more_eq_nil hv hv'
  case guestPermissions => exact GuestPermissions.closed_decoder.more_eq_nil hv hv'
  case pairingTrustRequest => exact PairingTrustRequest.more_eq_nil hv hv'
  case pairingTrustGrant => exact PairingTrustGrant.more_eq_nil hv hv'
  case rttPing => exact RttProbe.closed_decoder.more_eq_nil hv hv'
  case rttPong => exact RttProbe.closed_decoder.more_eq_nil hv hv'

/-! ### Messages -/

theorem decode_eq_ok {input : List UInt8} : decode input = .ok m ↔
    ∃ body, input = m.messageType.toByte :: body ∧ decodeBody body m.messageType = .ok m := by
  simp only [decode, except_bind_eq_ok, Prod.exists, Decoder.u8_eq_ok,
    ControlMessageType.tryFrom_eq_ok]
  constructor
  · rintro ⟨_, body, rfl, t, rfl, h⟩
    obtain rfl := messageType_of_decodeBody h
    exact ⟨body, rfl, h⟩
  · rintro ⟨body, rfl, h⟩
    exact ⟨_, body, rfl, _, rfl, h⟩

theorem decode_of_encode {bytes : List UInt8} (h : m.encode = .ok bytes) :
    decode bytes = .ok m := by
  obtain ⟨body, hbody, rfl⟩ := encode_eq_ok.mp h
  exact decode_eq_ok.mpr ⟨body, rfl, decodeBody_of_encodeBody hbody⟩

/-- **Every message within the limits of the format is encoded, no other is, and decoding undoes
encoding.** -/
theorem encode_decode (m : ControlMessage) :
    ((∃ bytes, m.encode = .ok bytes) ↔ m.WithinLimits) ∧
      ∀ bytes, m.encode = .ok bytes → decode bytes = .ok m :=
  ⟨encodes_iff, fun _ => decode_of_encode⟩

theorem encode_decode_expiring :
    (pairingTrustGrant ⟨.guestExpiring 5⟩).WithinLimits ∧
      decode [25, 2, 5, 0, 0, 0, 0, 0, 0, 0] = .ok (pairingTrustGrant ⟨.guestExpiring 5⟩) :=
  ⟨(encode_decode (pairingTrustGrant ⟨.guestExpiring 5⟩)).1.mp ⟨_, rfl⟩,
    (encode_decode (pairingTrustGrant ⟨.guestExpiring 5⟩)).2 _ rfl⟩

/-! ### One spelling -/

/-- An input acknowledgement whose success byte is neither 0 nor 1. -/
def LooseAck (bytes : List UInt8) : Prop :=
  bytes.length = 7 ∧ bytes.getD 0 0 = ControlMessageType.inputAck.toByte ∧ 1 < bytes.getD 5 0

theorem decode_inputAck {input : List UInt8} {v : InputAckMessage} :
    decode input = .ok (inputAck v) ↔ ∃ success : UInt8, (success != 0) = v.success ∧
      input = ControlMessageType.inputAck.toByte ::
        (Bytes.toLE 4 v.sequence.toNat ++ [success, v.errorCode]) := by
  rw [decode_eq_ok]
  simp only [messageType, decodeBody_inputAck, inputAck.injEq, exists_eq_right,
    InputAckMessage.decode_eq_ok]
  constructor
  · rintro ⟨_, rfl, success, hsuccess, rfl⟩
    exact ⟨success, hsuccess, rfl⟩
  · rintro ⟨success, hsuccess, rfl⟩
    exact ⟨_, rfl, success, hsuccess, rfl⟩

theorem looseAck_iff {sequence : UInt32} {success errorCode : UInt8} :
    LooseAck (ControlMessageType.inputAck.toByte ::
      (Bytes.toLE 4 sequence.toNat ++ [success, errorCode])) ↔ 1 < success := by
  simp [LooseAck, Bytes.toLE]

theorem LooseAck.decodes {bytes : List UInt8} (h : LooseAck bytes) :
    ∃ v, decode bytes = .ok (inputAck v) := by
  obtain ⟨hlen, htag, -⟩ := h
  obtain ⟨tag, b₀, b₁, b₂, b₃, success, errorCode, rfl⟩ :
      ∃ tag b₀ b₁ b₂ b₃ success errorCode, bytes = [tag, b₀, b₁, b₂, b₃, success, errorCode] := by
    rcases bytes with - | ⟨tag, - | ⟨b₀, - | ⟨b₁, - | ⟨b₂, - | ⟨b₃, - | ⟨success, - | ⟨errorCode,
      - | ⟨b, bs⟩⟩⟩⟩⟩⟩⟩⟩ <;> simp at hlen
    exact ⟨_, _, _, _, _, _, _, rfl⟩
  obtain rfl : tag = ControlMessageType.inputAck.toByte := htag
  refine ⟨⟨UInt32.ofNat (Bytes.ofLE [b₀, b₁, b₂, b₃]), success != 0, errorCode⟩, ?_⟩
  refine decode_inputAck.mpr ⟨success, rfl, ?_⟩
  rw [toLE_u32 rfl]
  rfl

theorem boolByte_ne_zero {b : UInt8} : boolByte (b != 0) = b ↔ ¬ 1 < b := by
  by_cases h0 : b = 0
  · subst h0
    decide
  · have hpos : 0 < b := UInt8.pos_iff_ne_zero.mpr h0
    simp only [boolByte, bne_iff_ne, ne_eq, h0, not_false_eq_true, if_true]
    rw [UInt8.not_lt]
    constructor
    · rintro rfl
      exact UInt8.le_refl 1
    · intro hle
      exact UInt8.le_antisymm (UInt8.le_iff_toNat_le.mpr (UInt8.lt_iff_toNat_lt.mp hpos)) hle

/-- A byte string that is accepted is the encoding of its message, but for the acknowledgements
with another success byte. -/
theorem encode_of_decode {bytes : List UInt8} (h : decode bytes = .ok m) :
    m.encode = .ok bytes ↔ ¬ LooseAck bytes := by
  by_cases ht : m.messageType = .inputAck
  · obtain ⟨v, rfl⟩ : ∃ v, m = inputAck v := by
      cases m <;> first | exact ⟨_, rfl⟩ | cases ht
    obtain ⟨success, hsuccess, rfl⟩ := decode_inputAck.mp h
    rw [looseAck_iff, encode_eq_ok]
    rw [← boolByte_ne_zero, hsuccess]
    constructor
    · rintro ⟨body, hbody, hbytes⟩
      cases hbody
      exact (by simpa [pushU32] using hbytes : _ ∧ _).2
    · intro hsucc
      exact ⟨_, rfl, by simp [messageType, pushU32, hsucc]⟩
  · obtain ⟨body, rfl, hbody⟩ := decode_eq_ok.mp h
    have hloose : ¬ LooseAck (m.messageType.toByte :: body) := by
      rintro ⟨-, htag, -⟩
      refine ht ?_
      have := ControlMessageType.tryFrom_toByte m.messageType
      rw [show m.messageType.toByte = _ from htag] at this
      exact (Except.ok.inj this).symm
    exact iff_of_true (encode_eq_ok.mpr ⟨body, ((decodeBody_eq_ok ht).mp hbody).2, rfl⟩) hloose

/-- **Encodings are canonical, except for the acknowledgements with another success byte**: a byte
string is no encoding of the message it decodes to only if it is one of those, and two others
never decode to one message. -/
theorem canonical (bytes : List UInt8) :
    ((∀ m, decode bytes = .ok m → m.encode = .ok bytes) ↔ ¬ LooseAck bytes) ∧
      ∀ other m, ¬ LooseAck bytes → ¬ LooseAck other →
        decode bytes = .ok m → decode other = .ok m → bytes = other := by
  refine ⟨⟨fun h hloose => ?_, fun hloose m h => (encode_of_decode h).mpr hloose⟩, ?_⟩
  · obtain ⟨v, hv⟩ := hloose.decodes
    exact (encode_of_decode hv).mp (h _ hv) hloose
  · intro other m hb ho h h'
    have he := (encode_of_decode h).mpr hb
    rw [(encode_of_decode h').mpr ho] at he
    exact (Except.ok.inj he).symm

/-- An acknowledgement with success byte 2 reads like the one with 1. -/
theorem canonical_fails :
    (decode [14, 0, 0, 0, 0, 2, 0] = .ok (inputAck ⟨0, true, 0⟩) ∧
      (inputAck ⟨0, true, 0⟩).encode ≠ .ok [14, 0, 0, 0, 0, 2, 0]) ∧
      decode [14, 0, 0, 0, 0, 1, 0] = .ok (inputAck ⟨0, true, 0⟩) :=
  ⟨⟨rfl, nofun⟩, rfl⟩

/-! ### Cut short and continued -/

theorem closed_decode {bytes more : List UInt8} {m' : ControlMessage}
    (ht : m.messageType ≠ .clipboardImageChunk) (h : decode bytes = .ok m)
    (h' : decode (bytes ++ more) = .ok m') : more = [] := by
  obtain ⟨body, rfl, hbody⟩ := decode_eq_ok.mp h
  obtain ⟨body', heq, hbody'⟩ := decode_eq_ok.mp h'
  -- the tag is the same, so both bodies go to one decoder
  obtain ⟨htag, rfl⟩ : m.messageType.toByte = m'.messageType.toByte ∧ body ++ more = body' := by
    simpa using heq
  rw [← ControlMessageType.toByte_inj htag] at hbody'
  exact closed_decodeBody ht hbody hbody'

/-- The tag and the header of an image chunk. -/
def imageHeader (v : ClipboardImageChunk) : List UInt8 :=
  ControlMessageType.clipboardImageChunk.toByte :: (Bytes.toLE 4 v.transferId.toNat ++
    (Bytes.toLE 4 v.totalBytes.toNat ++ Bytes.toLE 4 v.offset.toNat))

theorem decode_image {bytes : List UInt8} :
    decode bytes = .ok (clipboardImageChunk v) ↔
      v.WithinLimits ∧ bytes = imageHeader v ++ v.pngBytes := by
  rw [decode_eq_ok]
  simp only [messageType, decodeBody_eq_ok (show ControlMessageType.clipboardImageChunk ≠ .inputAck
    from nofun), encodeBody, ClipboardImageChunk.encode_eq_ok, true_and]
  constructor
  · rintro ⟨_, rfl, hv, rfl⟩
    exact ⟨hv, by simp [imageHeader]⟩
  · rintro ⟨hv, rfl⟩
    exact ⟨_, rfl, hv, by simp⟩

theorem length_imageHeader (v : ClipboardImageChunk) : (imageHeader v).length = 13 := by
  simp [imageHeader]

theorem imageHeader_inj {v' : ClipboardImageChunk} (h : imageHeader v' = imageHeader v) :
    v'.transferId = v.transferId ∧ v'.totalBytes = v.totalBytes ∧ v'.offset = v.offset := by
  have hword : ∀ w w' : UInt32, Bytes.toLE 4 w'.toNat = Bytes.toLE 4 w.toNat → w' = w :=
    fun w w' hw => UInt32.toNat.inj (Bytes.toLE_inj w'.toNat_lt w.toNat_lt hw)
  obtain ⟨hid, h⟩ := List.append_inj (List.cons.inj h).2 (by simp)
  obtain ⟨htotal, hoffset⟩ := List.append_inj h (by simp)
  exact ⟨hword _ _ hid, hword _ _ htotal, hword _ _ hoffset⟩

theorem image_of_tag {bytes : List UInt8}
    (h : decode bytes = .ok m) (htag : bytes <+: imageHeader v ∨ imageHeader v <+: bytes) :
    ∃ v', m = clipboardImageChunk v' := by
  obtain ⟨body, rfl, -⟩ := decode_eq_ok.mp h
  have hbyte : m.messageType.toByte = ControlMessageType.clipboardImageChunk.toByte := by
    rcases htag with ⟨more, hmore⟩ | ⟨more, hmore⟩
    · exact (List.cons.inj hmore).1
    · exact (List.cons.inj hmore).1.symm
  have ht := ControlMessageType.toByte_inj hbyte
  cases m <;> first | exact ⟨_, rfl⟩ | cases ht

/-- **A message is neither cut short nor continued unnoticed.**  Of an image chunk this is said of
the header; behind it stands the payload, whose length is within the limits. -/
theorem truncation_detected {m : ControlMessage} {e : List UInt8} (he : m.encode = .ok e) :
    (m.messageType ≠ .clipboardImageChunk →
      (∀ p m', p <+: e → p ≠ e → decode p ≠ .ok m') ∧
        ∀ x m', e <+: x → x ≠ e → decode x ≠ .ok m') ∧
    ∀ v, m = clipboardImageChunk v →
      (imageHeader v <+: e ∧ (imageHeader v).length = 13) ∧
      (∀ p m', p <+: imageHeader v → decode p ≠ .ok m') ∧
      ∀ x m', imageHeader v <+: x → decode x = .ok m' → ∃ v', m' = clipboardImageChunk v' ∧
        (v'.transferId = v.transferId ∧ v'.totalBytes = v.totalBytes ∧ v'.offset = v.offset) ∧
        x = imageHeader v ++ v'.pngBytes ∧ 1 ≤ v'.pngBytes.length ∧
        v'.pngBytes.length ≤ maxClipboardImageChunkBytes ∧
        v.offset.toNat + v'.pngBytes.length ≤ v.totalBytes.toNat := by
  have hm := decode_of_encode he
  refine ⟨fun ht => ⟨?_, ?_⟩, ?_⟩
  · rintro p m' ⟨more, rfl⟩ hne h
    -- the message is a continuation of `p`, and both have the tag of `m`
    have ht' : m'.messageType ≠ .clipboardImageChunk := by
      obtain ⟨body, rfl, -⟩ := decode_eq_ok.mp h
      obtain ⟨body', heq, -⟩ := decode_eq_ok.mp hm
      rw [ControlMessageType.toByte_inj (List.cons.inj heq).1]
      exact ht
    rw [closed_decode ht' h hm, List.append_nil] at hne
    exact hne rfl
  · rintro x m' ⟨more, rfl⟩ hne h
    rw [closed_decode ht hm h, List.append_nil] at hne
    exact hne rfl
  · rintro v rfl
    obtain ⟨-, rfl⟩ := decode_image.mp hm
    refine ⟨⟨List.prefix_append _ _, length_imageHeader v⟩, ?_, ?_⟩
    · rintro p m' ⟨more, hp⟩ h
      obtain ⟨v', rfl⟩ := image_of_tag h (.inl ⟨more, hp⟩)
      obtain ⟨hv', rfl⟩ := decode_image.mp h
      -- a chunk with a payload is longer than a header
      have hlen := congrArg List.length hp
      have hpos := List.length_pos_iff.mpr hv'.nonempty
      simp only [List.length_append, length_imageHeader] at hlen
      omega
    · rintro x m' ⟨more, rfl⟩ h
      obtain ⟨v', rfl⟩ := image_of_tag h (.inr ⟨more, rfl⟩)
      obtain ⟨hv', heq⟩ := decode_image.mp h
      obtain ⟨hheader, rfl⟩ := List.append_inj heq (by simp only [length_imageHeader])
      obtain ⟨hid, htotal, hoffset⟩ := imageHeader_inj hheader.symm
      refine ⟨v', rfl, ⟨hid, htotal, hoffset⟩, rfl, List.length_pos_iff.mpr hv'.nonempty,
        hv'.length_le, ?_⟩
      rw [← htotal, ← hoffset]
      exact hv'.inside

theorem truncation_detected_policy :
    decode [18, 1] ≠ .ok (hostPolicy ⟨true, true⟩) ∧
      decode [18, 1, 0, 0] ≠ .ok (hostPolicy ⟨true, false⟩) :=
  have h := (truncation_detected (m := hostPolicy ⟨true, false⟩) (e := [18, 1, 0]) rfl).1 nofun
  ⟨h.1 [18, 1] _ ⟨[0], rfl⟩ nofun, h.2 [18, 1, 0, 0] _ ⟨[0], rfl⟩ nofun⟩

end MahoRD.ControlMessage
