/-
MahoRD/Proto/ControlFormat.lean

What the decoders of the bodies of the control messages accept: exactly the
encodings of the values they return (`decode_eq_ok`), and no continuation of
an accepted input (`closed_decoder`).  The input acknowledgement is the one
that takes more: any byte but zero stands for success.
-/
import MahoRD.Proto.Control
import MahoRD.Proto.ParityFormat

namespace MahoRD

open Parse

/-! ### Types of messages -/

variable {byte : UInt8} {code : StreamConfigurationErrorCode}

@[simp] theorem ControlMessageType.tryFrom_eq_ok {t : ControlMessageType} :
    tryFrom byte = .ok t ↔ byte = t.toByte := by
  constructor
  · fun_cases tryFrom byte <;> rintro ⟨⟩ <;> rfl
  · rintro rfl
    exact tryFrom_toByte t

theorem ControlMessageType.toByte_inj {t t' : ControlMessageType} (h : t.toByte = t'.toByte) :
    t = t' := by
  have ht := tryFrom_toByte t
  rw [h, tryFrom_toByte] at ht
  exact (Except.ok.inj ht).symm

/-! ### Bitrate and input acknowledgements -/

namespace BitrateAdjust

@[simp] theorem decode_eq_ok {input : List UInt8} {v : BitrateAdjust} :
    decode input = .ok v ↔ v.encode = .ok input := by
  rcases v with ⟨targetBitrate⟩
  simp [decode, decoder, encode]
  exact eq_comm

theorem closed_decoder : Closed decoder := by
  repeat refine Closed.bind (by simp) fun _ => ?_
  simp

end BitrateAdjust

namespace InputAckMessage

/-- The byte that says whether the input succeeded is not looked at beyond being zero. -/
theorem decode_eq_ok {input : List UInt8} {v : InputAckMessage} : decode input = .ok v ↔
    ∃ success : UInt8, (success != 0) = v.success ∧
      input = Bytes.toLE 4 v.sequence.toNat ++ [success, v.errorCode] := by
  rcases v with ⟨sequence, ok, errorCode⟩
  simp [decode, decoder]
  constructor
  · rintro ⟨success, rfl, rfl⟩
    exact ⟨success, rfl, rfl⟩
  · rintro ⟨success, rfl, rfl⟩
    exact ⟨success, rfl, rfl⟩

theorem closed_decoder : Closed decoder := by
  repeat refine Closed.bind (by simp) fun _ => ?_
  simp

end InputAckMessage

/-! ### Stream configuration -/

namespace StreamConfiguration

theorem reads_decodeFrom : Reads decodeFrom (fun v => v.encodeInto []) fun _ => True := by
  intro input v rest
  rcases v with ⟨width, height, bitrate, framesPerSecond⟩
  simp [decodeFrom, encodeInto]

theorem encodeInto_eq (v : StreamConfiguration) (output : List UInt8) :
    v.encodeInto output = output ++ v.encodeInto [] := by
  simp [encodeInto]

end StreamConfiguration

namespace StreamConfigurationRequest

@[simp] theorem decode_eq_ok {input : List UInt8} {v : StreamConfigurationRequest} :
    decode input = .ok v ↔ v.encode = .ok input := by
  rcases v with ⟨requestId, desired⟩
  rw [encode, StreamConfiguration.encodeInto_eq]
  simp [decode, decoder, StreamConfiguration.reads_decodeFrom.run_eq_ok]
  exact eq_comm

theorem closed_decoder : Closed decoder := by
  refine Closed.bind (by simp) fun _ => ?_
  exact Closed.bind StreamConfiguration.reads_decodeFrom.framed fun _ => by simp

end StreamConfigurationRequest

namespace StreamConfigurationResponse

@[simp] theorem decode_eq_ok {input : List UInt8} {v : StreamConfigurationResponse} :
    decode input = .ok v ↔ v.encode = .ok input := by
  rcases v with ⟨requestId, active⟩
  rw [encode, StreamConfiguration.encodeInto_eq]
  simp [decode, decoder, StreamConfiguration.reads_decodeFrom.run_eq_ok]
  exact eq_comm

theorem closed_decoder : Closed decoder := by
  refine Closed.bind (by simp) fun _ => ?_
  exact Closed.bind StreamConfiguration.reads_decodeFrom.framed fun _ => by simp

end StreamConfigurationResponse

@[simp] theorem StreamConfigurationErrorCode.tryFrom_eq_ok : tryFrom byte = .ok code ↔ byte = code.toByte := by
  constructor
  · fun_cases tryFrom byte <;> rintro ⟨⟩ <;> rfl
  · rintro rfl
    cases code <;> rfl

theorem exists_length_iff {limit : ℕ} (hlimit : limit < 65536) {text bytes target : List UInt8}
    {g : List UInt8 → UInt16 → List UInt8}
    (hg : ∀ length : UInt16, text.length = length.toNat → g text length = target) :
    (∃ data, (text.length ≤ limit ∧ text = data) ∧
        ∃ length : UInt16, data.length = length.toNat ∧ g data length = bytes) ↔
      text.length ≤ limit ∧ bytes = target := by
  constructor
  · rintro ⟨data, ⟨hle, rfl⟩, length, hlen, rfl⟩
    exact ⟨hle, hg length hlen⟩
  · rintro ⟨hle, rfl⟩
    obtain ⟨length, hlen⟩ := exists_u16 (Nat.lt_of_le_of_lt hle hlimit)
    exact ⟨text, ⟨hle, rfl⟩, length, hlen, hg length hlen⟩

theorem encodeStreamProblem_eq_ok {requestId : UInt32}
    {message : String} {bytes : List UInt8} :
    encodeStreamProblem requestId code message = .ok bytes ↔
      (utf8 message).length ≤ 65535 ∧ bytes = Bytes.toLE 4 requestId.toNat ++
        code.toByte :: (Bytes.toLE 2 (utf8 message).length ++ utf8 message) := by
  simp only [encodeStreamProblem, except_bind_eq_ok, checkedBytes_eq_ok, usizeToU16_eq_ok,
    except_pure_eq_ok]
  exact exists_length_iff (by decide) fun length hlen => by simp [hlen]

theorem decodeStreamProblem_eq_ok (field : String) {input : List UInt8} {requestId : UInt32} {message : String} :
    (decodeStreamProblem field).run' input = .ok (requestId, code, message) ↔
      encodeStreamProblem requestId code message = .ok input := by
  simp [decodeStreamProblem, encodeStreamProblem_eq_ok]
  constructor
  · rintro ⟨length, rfl, hlen⟩
    exact ⟨by have := length.toNat_lt; omega, by rw [hlen]⟩
  · rintro ⟨hle, rfl⟩
    obtain ⟨length, hlen⟩ := exists_u16 (Nat.lt_succ_of_le hle)
    exact ⟨length, by rw [hlen], hlen⟩

theorem closed_decodeStreamProblem (field : String) : Closed (decodeStreamProblem field) := by
  repeat refine Closed.bind (by simp) fun _ => ?_
  simp

namespace StreamConfigurationReject

@[simp] theorem decode_eq_ok {input : List UInt8} {v : StreamConfigurationReject} :
    decode input = .ok v ↔ v.encode = .ok input := by
  rcases v with ⟨requestId, reason, message⟩
  rw [encode, ← decodeStreamProblem_eq_ok "stream configuration reject"]
  simp [decode, decoder]

theorem closed_decoder : Closed decoder :=
  (closed_decodeStreamProblem _).bind_left

end StreamConfigurationReject

namespace StreamConfigurationError

@[simp] theorem decode_eq_ok {input : List UInt8} {v : StreamConfigurationError} :
    decode input = .ok v ↔ v.encode = .ok input := by
  rcases v with ⟨requestId, errorCode, message⟩
  rw [encode, ← decodeStreamProblem_eq_ok "stream configuration error"]
  simp [decode, decoder]

theorem closed_decoder : Closed decoder :=
  (closed_decodeStreamProblem _).bind_left

end StreamConfigurationError

/-! ### Clipboard text -/

@[simp] theorem Decoder.clipboardDirection_eq_ok {input rest : List UInt8}
    {v : ClipboardSyncDirection} :
    Decoder.clipboardDirection.run input = .ok (v, rest) ↔ input = v.toByte :: rest := by
  have htry : ∀ byte, ClipboardSyncDirection.tryFrom byte = .ok v ↔ byte = v.toByte := by
    intro byte
    constructor
    · fun_cases ClipboardSyncDirection.tryFrom byte <;> rintro ⟨⟩ <;> rfl
    · rintro rfl
      cases v <;> rfl
  simp [Decoder.clipboardDirection, htry]

@[simp] theorem Decoder.framed_clipboardDirection : Framed Decoder.clipboardDirection :=
  (Decoder.framed_u8 _).bind fun _ => Framed.lift

@[simp] theorem Decoder.clipboardOrigin_eq_ok {input rest : List UInt8} {v : ClipboardSyncOrigin} :
    Decoder.clipboardOrigin.run input = .ok (v, rest) ↔ input = v.toByte :: rest := by
  have htry : ∀ byte, ClipboardSyncOrigin.tryFrom byte = .ok v ↔ byte = v.toByte := by
    intro byte
    constructor
    · fun_cases ClipboardSyncOrigin.tryFrom byte <;> rintro ⟨⟩ <;> rfl
    · rintro rfl
      cases v <;> rfl
  simp [Decoder.clipboardOrigin, htry]

@[simp] theorem Decoder.framed_clipboardOrigin : Framed Decoder.clipboardOrigin :=
  (Decoder.framed_u8 _).bind fun _ => Framed.lift

namespace ClipboardSyncRequest

@[simp] theorem decode_eq_ok {input : List UInt8} {v : ClipboardSyncRequest} :
    decode input = .ok v ↔ v.encode = .ok input := by
  rcases v with ⟨requestId, direction, origin⟩
  simp [decode, decoder, encode]
  exact eq_comm

theorem closed_decoder : Closed decoder := by
  repeat refine Closed.bind (by simp) fun _ => ?_
  simp

end ClipboardSyncRequest

namespace ClipboardSyncUpdate

theorem encode_eq_ok {v : ClipboardSyncUpdate} {bytes : List UInt8} : v.encode = .ok bytes ↔
    (utf8 v.text).length ≤ maxClipboardTextBytes ∧ bytes = Bytes.toLE 4 v.requestId.toNat ++
      v.direction.toByte :: v.origin.toByte ::
        (Bytes.toLE 2 (utf8 v.text).length ++ utf8 v.text) := by
  simp only [encode, except_bind_eq_ok, checkedBytes_eq_ok, usizeToU16_eq_ok, except_pure_eq_ok]
  exact exists_length_iff (by decide) fun length hlen => by simp [hlen]

@[simp] theorem decode_eq_ok {input : List UInt8} {v : ClipboardSyncUpdate} :
    decode input = .ok v ↔ v.encode = .ok input := by
  rcases v with ⟨requestId, direction, origin, text⟩
  simp [decode, decoder, encode_eq_ok]
  constructor
  · rintro ⟨length, rfl, hle, hlen⟩
    exact ⟨hlen ▸ hle, by rw [hlen]⟩
  · rintro ⟨hle, rfl⟩
    obtain ⟨length, hlen⟩ := exists_u16 (Nat.lt_of_le_of_lt hle (by decide))
    exact ⟨length, by rw [hlen], hlen ▸ hle, hlen⟩

theorem closed_decoder : Closed decoder := by
  repeat refine Closed.bind (by simp) fun _ => ?_
  exact Closed.ite (by simp) (Closed.bind (by simp) fun _ => by simp)

end ClipboardSyncUpdate

namespace ClipboardSyncError

theorem encode_eq_ok {v : ClipboardSyncError} {bytes : List UInt8} : v.encode = .ok bytes ↔
    (utf8 v.message).length ≤ 65535 ∧ bytes = Bytes.toLE 4 v.requestId.toNat ++
      v.direction.toByte :: v.origin.toByte :: v.errorCode ::
        (Bytes.toLE 2 (utf8 v.message).length ++ utf8 v.message) := by
  simp only [encode, except_bind_eq_ok, checkedBytes_eq_ok, usizeToU16_eq_ok, except_pure_eq_ok]
  exact exists_length_iff (by decide) fun length hlen => by simp [hlen]

@[simp] theorem decode_eq_ok {input : List UInt8} {v : ClipboardSyncError} :
    decode input = .ok v ↔ v.encode = .ok input := by
  rcases v with ⟨requestId, direction, origin, errorCode, message⟩
  simp [decode, decoder, encode_eq_ok]
  constructor
  · rintro ⟨length, rfl, hlen⟩
    exact ⟨by have := length.toNat_lt; omega, by rw [hlen]⟩
  · rintro ⟨hle, rfl⟩
    obtain ⟨length, hlen⟩ := exists_u16 (Nat.lt_succ_of_le hle)
    exact ⟨length, by rw [hlen], hlen⟩

theorem closed_decoder : Closed decoder := by
  repeat refine Closed.bind (by simp) fun _ => ?_
  simp

end ClipboardSyncError

/-! ### Stream options -/

@[simp] theorem StreamCodecPreference.tryFrom_eq_ok {codec : StreamCodecPreference} :
    tryFrom byte = .ok codec ↔ byte = codec.toByte := by
  constructor
  · fun_cases tryFrom byte <;> rintro ⟨⟩ <;> rfl
  · rintro rfl
    cases codec <;> rfl

namespace StreamOptionsRequest

@[simp] theorem decode_eq_ok {input : List UInt8} {v : StreamOptionsRequest} :
    decode input = .ok v ↔ v.encode = .ok input := by
  rcases v with ⟨requestId, scalePermille, fps, codec, displayIndex, bitrate⟩
  simp [decode, decoder, encode]
  exact eq_comm

theorem closed_decoder : Closed decoder := by
  repeat refine Closed.bind (by simp) fun _ => ?_
  simp

end StreamOptionsRequest

namespace StreamOptionsActive

@[simp] theorem decode_eq_ok {input : List UInt8} {v : StreamOptionsActive} :
    decode input = .ok v ↔ v.encode = .ok input := by
  rcases v with ⟨requestId, width, height, fps, codec, displayIndex, bitrate⟩
  simp [decode, decoder, encode]
  exact eq_comm

theorem closed_decoder : Closed decoder := by
  repeat refine Closed.bind (by simp) fun _ => ?_
  simp

end StreamOptionsActive

namespace HostDisplayList

theorem reads_display : Reads display encodeDisplay
    fun d => (utf8 d.name).length ≤ maxHostDisplayNameBytes := by
  intro input d rest
  rcases d with ⟨index, width, height, primary, name⟩
  simp [display, encodeDisplay, -Bool.exists_bool]
  constructor
  · rintro ⟨length, rfl, hle, hlen⟩
    rw [hlen, UInt8.ofNat_toNat]
    exact ⟨hle, rfl⟩
  · rintro ⟨hle, rfl⟩
    obtain ⟨length, hlen⟩ := exists_u8 (Nat.lt_of_le_of_lt hle (by decide))
    exact ⟨length, by rw [hlen, UInt8.ofNat_toNat], hlen ▸ hle, hlen⟩

/-- At most 16 displays with names of at most 64 bytes. -/
def WithinLimits (v : HostDisplayList) : Prop :=
  v.displays.length ≤ maxHostDisplays ∧
    ∀ d ∈ v.displays, (utf8 d.name).length ≤ maxHostDisplayNameBytes

theorem encode_eq_ok {v : HostDisplayList} {bytes : List UInt8} : v.encode = .ok bytes ↔
    v.WithinLimits ∧
      bytes = UInt8.ofNat v.displays.length :: v.displays.flatMap encodeDisplay := by
  rw [encode]
  split
  next h => simpa [WithinLimits] using fun hle => absurd h (Nat.not_lt.mpr hle)
  next h =>
    split
    next d hd =>
      have hlong : ¬ (utf8 d.name).length ≤ maxHostDisplayNameBytes := by
        simpa using List.find?_some hd
      simpa [WithinLimits] using fun _ hall => absurd (hall d (List.mem_of_find?_eq_some hd)) hlong
    next hall =>
      rw [List.find?_eq_none] at hall
      simpa [WithinLimits, Nat.not_lt.mp h, eq_comm] using fun _ d hd => by simpa using hall d hd

@[simp] theorem decode_eq_ok {input : List UInt8} {v : HostDisplayList} :
    decode input = .ok v ↔ v.encode = .ok input := by
  rcases v with ⟨displays⟩
  simp [decode, decoder, encode_eq_ok, WithinLimits, run_mapM_eq_ok reads_display]
  constructor
  · rintro ⟨count, rfl, hle, hlen, hall⟩
    rw [hlen, UInt8.ofNat_toNat]
    exact ⟨⟨hle, hall⟩, rfl⟩
  · rintro ⟨⟨hle, hall⟩, rfl⟩
    obtain ⟨count, hcount⟩ := exists_u8 (Nat.lt_of_le_of_lt hle (by decide))
    exact ⟨count, by rw [hcount, UInt8.ofNat_toNat], hcount ▸ hle, hcount, hall⟩

theorem closed_decoder : Closed decoder := by
  refine Closed.bind (by simp) fun count => Closed.ite (by simp) ?_
  exact Closed.bind (reads_display.framed.mapM _) fun _ => by simp

end HostDisplayList

namespace HostPolicy

@[simp] theorem decode_eq_ok {input : List UInt8} {v : HostPolicy} :
    decode input = .ok v ↔ v.encode = .ok input := by
  rcases v with ⟨allowInput, allowClipboard⟩
  simp [decode, decoder, encode, -Bool.exists_bool]
  exact eq_comm

theorem closed_decoder : Closed decoder := by
  repeat refine Closed.bind (by simp) fun _ => ?_
  simp

end HostPolicy
end MahoRD
