/-
MahoRD/Proto/ParityFormat.lean

What the decoders of the parity extensions accept: exactly the encodings of
the values they return (`decode_eq_ok`), and, but for the image chunk, no
continuation of an accepted input (`closed_decoder`).
-/
import MahoRD.Proto.Parity

namespace MahoRD

open Parse

/-! ### Booleans -/

theorem Decoder.reads_bool (field : String) :
    Reads (Decoder.bool field) (fun v => [boolByte v]) fun _ => True := by
  intro input v rest
  simp only [Decoder.bool, run_bind_eq_ok, Decoder.u8_eq_ok, run_ite_eq_ok, run_pure_eq_ok,
    run_throw_eq_ok, true_and]
  constructor
  · rintro ⟨byte, mid, rfl, h⟩
    split at h
    next h0 =>
      obtain ⟨rfl, rfl⟩ := h
      simp [h0, boolByte]
    split at h
    next h1 =>
      obtain ⟨rfl, rfl⟩ := h
      simp [h1, boolByte]
    · exact h.elim
  · rintro rfl
    refine ⟨boolByte v, rest, rfl, ?_⟩
    cases v <;> simp [boolByte]

@[simp] theorem Decoder.bool_eq_ok {field : String} {input rest : List UInt8} {v : Bool} :
    (Decoder.bool field).run input = .ok (v, rest) ↔ input = boolByte v :: rest := by
  simp [(Decoder.reads_bool field).run_eq_ok]

@[simp] theorem Decoder.framed_bool (field : String) : Framed (Decoder.bool field) :=
  (Decoder.reads_bool field).framed

/-! ### Secure attention -/

namespace SecureAttentionRequest

@[simp] theorem decode_eq_ok {input : List UInt8} {v : SecureAttentionRequest} :
    decode input = .ok v ↔ v.encode = .ok input := by
  rcases v with ⟨requestId⟩
  simp [decode, decoder, encode]
  exact eq_comm

theorem closed_decoder : Closed decoder := by
  repeat refine Closed.bind (by simp) fun _ => ?_
  simp

end SecureAttentionRequest

namespace SecureAttentionResult

@[simp] theorem tryFrom_eq_ok {byte : UInt8} {r : SecureAttentionResult} :
    tryFrom byte = .ok r ↔ byte = r.toByte := by
  constructor
  · fun_cases tryFrom byte <;> rintro ⟨⟩ <;> rfl
  · rintro rfl
    cases r <;> rfl

end SecureAttentionResult

namespace SecureAttentionResponse

@[simp] theorem decode_eq_ok {input : List UInt8} {v : SecureAttentionResponse} :
    decode input = .ok v ↔ v.encode = .ok input := by
  rcases v with ⟨requestId, result⟩
  simp [decode, decoder, encode]
  exact eq_comm

theorem closed_decoder : Closed decoder := by
  repeat refine Closed.bind (by simp) fun _ => ?_
  simp

end SecureAttentionResponse

/-! ### The status and the end of a session -/

namespace HostStatus

theorem reads_guestName : Reads guestName
    (fun name => Bytes.toLE 2 (utf8 name).length ++ utf8 name)
    fun name => (utf8 name).length ≤ maxGuestNameBytes := by
  intro input name rest
  simp only [guestName, run_bind_eq_ok, Decoder.u16_eq_ok, run_ite_eq_ok, run_throw_eq_ok,
    Decoder.utf8_eq_ok, List.append_assoc]
  constructor
  · rintro ⟨length, _, rfl, h⟩
    split at h
    · simp at h
    next hle =>
      obtain ⟨hlen, rfl⟩ := h
      rw [hlen]
      exact ⟨Nat.not_lt.mp hle, rfl⟩
  · rintro ⟨hle, rfl⟩
    obtain ⟨length, hlen⟩ := exists_u16 (Nat.lt_of_le_of_lt hle (by decide))
    refine ⟨length, _, by rw [hlen], ?_⟩
    rw [if_neg (by rw [← hlen]; exact Nat.not_lt.mpr hle)]
    exact ⟨hlen, rfl⟩

theorem foldlM_names_eq_ok {names : List String} {output bytes : List UInt8} :
    names.foldlM (fun output name => do
      let bytes ← checkedBytes name "guest name" maxGuestNameBytes
      let length ← usizeToU16 bytes.length "guest name"
      return pushU16 output length ++ bytes) output = .ok bytes ↔
    (∀ name ∈ names, (utf8 name).length ≤ maxGuestNameBytes) ∧
      bytes = output ++ names.flatMap fun name =>
        Bytes.toLE 2 (utf8 name).length ++ utf8 name := by
  induction names generalizing output with
  | nil =>
    rw [List.foldlM_nil, except_pure_eq_ok]
    simp [eq_comm]
  | cons name names ih =>
    simp only [List.foldlM_cons, except_bind_eq_ok, ih, List.forall_mem_cons, List.flatMap_cons,
      checkedBytes_eq_ok, usizeToU16_eq_ok, except_pure_eq_ok]
    constructor
    · rintro ⟨_, ⟨_, ⟨hle, rfl⟩, length, hlen, rfl⟩, hall, rfl⟩
      rw [pushU16_eq, ← hlen]
      exact ⟨⟨hle, hall⟩, by simp⟩
    · rintro ⟨⟨hle, hall⟩, rfl⟩
      obtain ⟨length, hlen⟩ := exists_u16 (Nat.lt_of_le_of_lt hle (by decide))
      exact ⟨_, ⟨_, ⟨hle, rfl⟩, length, hlen, rfl⟩, hall, by simp [hlen]⟩

/-- At most 64 names of at most 1024 bytes. -/
def WithinLimits (v : HostStatus) : Prop :=
  v.guestNames.length ≤ maxActiveGuests ∧
    ∀ name ∈ v.guestNames, (utf8 name).length ≤ maxGuestNameBytes

theorem encode_eq_ok {v : HostStatus} {bytes : List UInt8} : v.encode = .ok bytes ↔
    v.WithinLimits ∧ bytes = Bytes.toLE 2 v.guestNames.length ++
      v.guestNames.flatMap fun name => Bytes.toLE 2 (utf8 name).length ++ utf8 name := by
  rw [encode, except_ite_eq_ok]
  split
  next h => simpa [WithinLimits] using fun hle => absurd h (Nat.not_lt.mpr hle)
  next h =>
    have hle := Nat.not_lt.mp h
    simp only [except_bind_eq_ok, usizeToU16_eq_ok, foldlM_names_eq_ok]
    constructor
    · rintro ⟨count, hcount, hall, rfl⟩
      exact ⟨⟨hle, hall⟩, by rw [hcount]; rfl⟩
    · rintro ⟨⟨-, hall⟩, rfl⟩
      obtain ⟨count, hcount⟩ := exists_u16 (Nat.lt_of_le_of_lt hle (by decide))
      exact ⟨count, hcount, hall, by rw [hcount]; rfl⟩

@[simp] theorem decode_eq_ok {input : List UInt8} {v : HostStatus} :
    decode input = .ok v ↔ v.encode = .ok input := by
  rcases v with ⟨names⟩
  simp [decode, decoder, encode_eq_ok, WithinLimits, run_mapM_eq_ok reads_guestName]
  constructor
  · rintro ⟨count, rfl, hle, hlen, hall⟩
    rw [hlen]
    exact ⟨⟨hle, hall⟩, rfl⟩
  · rintro ⟨⟨hle, hall⟩, rfl⟩
    obtain ⟨count, hcount⟩ := exists_u16 (Nat.lt_of_le_of_lt hle (by decide))
    exact ⟨count, by rw [hcount], hcount ▸ hle, hcount, hall⟩

theorem closed_decoder : Closed decoder := by
  refine Closed.bind (by simp) fun count => Closed.ite (by simp) ?_
  exact Closed.bind (reads_guestName.framed.mapM _) fun _ => by simp

end HostStatus

namespace SessionEndReason

@[simp] theorem tryFrom_eq_ok {byte : UInt8} {r : SessionEndReason} :
    tryFrom byte = .ok r ↔ byte = r.toByte := by
  constructor
  · fun_cases tryFrom byte <;> rintro ⟨⟩ <;> rfl
  · rintro rfl
    cases r <;> rfl

end SessionEndReason

namespace SessionEnded

@[simp] theorem decode_eq_ok {input : List UInt8} {v : SessionEnded} :
    decode input = .ok v ↔ v.encode = .ok input := by
  rcases v with ⟨reason⟩
  simp [decode, decoder, encode]
  exact eq_comm

theorem closed_decoder : Closed decoder := by
  repeat refine Closed.bind (by simp) fun _ => ?_
  simp

end SessionEnded

/-! ### What a guest may do -/

namespace GuestPermissions

@[simp] theorem decode_eq_ok {input : List UInt8} {v : GuestPermissions} :
    decode input = .ok v ↔ v.encode = .ok input := by
  rcases v with ⟨keyboard, mouse, gamepad, clipboard, audio⟩
  simp [decode, decoder, encode, -Bool.exists_bool]
  exact eq_comm

theorem closed_decoder : Closed decoder := by
  repeat refine Closed.bind (by simp) fun _ => ?_
  simp

end GuestPermissions

namespace PairingTrust

@[simp] theorem decode_eq_ok {input : List UInt8} {v : PairingTrust} :
    decode input = .ok v ↔ v.encode = .ok input := by
  refine ⟨fun h => ?_, decode_encode⟩
  -- the input is a tag and an expiry, whatever they are
  obtain ⟨tag, expiry, rfl⟩ : ∃ tag expiry, input = pushU64 [tag] expiry := by
    simp only [decode, decoder, run'_eq_ok, run_bind_eq_ok, Decoder.u8_eq_ok, Decoder.u64_eq_ok,
      Decoder.finish_eq_ok] at h
    obtain ⟨_, tag, _, rfl, expiry, _, rfl, _, _, ⟨rfl, rfl⟩, -⟩ := h
    exact ⟨tag, expiry, by simp⟩
  rw [decode_pushU64] at h
  split at h
  next htag =>
    cases h
    simp [encode, htag]
  split at h
  next htag =>
    cases h
    simp [encode, htag]
  split at h
  next htag =>
    cases h
    simp [encode, htag]
  split at h <;> cases h

theorem closed_decoder : Closed decoder := by
  repeat refine Closed.bind (by simp) fun _ => ?_
  simp

end PairingTrust

@[simp] theorem PairingTrustRequest.decode_eq_ok {input : List UInt8} {v : PairingTrustRequest} :
    decode input = .ok v ↔ v.encode = .ok input := by
  rcases v with ⟨trust⟩
  simp [decode, encode, PairingTrust.decode_eq_ok]

@[simp] theorem PairingTrustGrant.decode_eq_ok {input : List UInt8} {v : PairingTrustGrant} :
    decode input = .ok v ↔ v.encode = .ok input := by
  rcases v with ⟨trust⟩
  simp [decode, encode, PairingTrust.decode_eq_ok]

theorem PairingTrustRequest.more_eq_nil {input more : List UInt8} {v v' : PairingTrustRequest}
    (h : decode input = .ok v) (h' : decode (input ++ more) = .ok v') : more = [] := by
  obtain ⟨_, h, -⟩ := except_bind_eq_ok.mp h
  obtain ⟨_, h', -⟩ := except_bind_eq_ok.mp h'
  exact PairingTrust.closed_decoder.more_eq_nil h h'

theorem PairingTrustGrant.more_eq_nil {input more : List UInt8} {v v' : PairingTrustGrant}
    (h : decode input = .ok v) (h' : decode (input ++ more) = .ok v') : more = [] := by
  obtain ⟨_, h, -⟩ := except_bind_eq_ok.mp h
  obtain ⟨_, h', -⟩ := except_bind_eq_ok.mp h'
  exact PairingTrust.closed_decoder.more_eq_nil h h'

/-- An expiry, where there is one, is not zero. -/
def PairingTrust.WithinLimits : PairingTrust → Prop
  | owner | guestOnce => True
  | guestExpiring expiresAtUnixMs => expiresAtUnixMs ≠ 0

theorem PairingTrust.encode_accepts {v : PairingTrust} :
    (∃ bytes, v.encode = .ok bytes) ↔ v.WithinLimits := by
  rcases v with - | - | expiresAtUnixMs <;> simp [encode, WithinLimits]

/-! ### Images and probes -/

namespace ClipboardImageChunk

/-- An image of 8 bytes up to 8 MiB, and a piece of it of 1 up to 65536 bytes that lies inside;
the first piece starts with the PNG signature. -/
structure WithinLimits (v : ClipboardImageChunk) : Prop where
  total_ge : pngSignature.length ≤ v.totalBytes.toNat
  total_le : v.totalBytes ≤ maxClipboardImageBytes
  nonempty : v.pngBytes ≠ []
  length_le : v.pngBytes.length ≤ maxClipboardImageChunkBytes
  inside : v.offset.toNat + v.pngBytes.length ≤ v.totalBytes.toNat
  signature : v.offset = 0 → pngSignature <+: v.pngBytes

variable {v : ClipboardImageChunk}

theorem validate_eq_ok {u : Unit} :
    v.validate = .ok u ↔ v.WithinLimits := by
  constructor
  · intro h
    simp only [validate] at h
    split at h
    · cases h
    split at h
    · cases h
    split at h
    · cases h
    split at h
    · cases h
    next htotal hlength hinside hsignature =>
    simp only [not_or, Nat.not_lt, gt_iff_lt, UInt32.not_lt, List.isEmpty_iff] at htotal hlength
    exact ⟨htotal.1, htotal.2, hlength.1, hlength.2, Nat.not_lt.mp hinside,
      fun h0 => not_not.mp fun hne => hsignature ⟨h0, hne⟩⟩
  · intro h
    simp only [validate]
    rw [if_neg, if_neg, if_neg (Nat.not_lt.mpr h.inside), if_neg fun hs => hs.2 (h.signature hs.1)]
    · rintro (hempty | hlong)
      · exact h.nonempty (List.isEmpty_iff.mp hempty)
      · exact Nat.not_lt.mpr h.length_le hlong
    · rintro (hshort | hlong)
      · exact Nat.not_lt.mpr h.total_ge hshort
      · exact UInt32.not_lt.mpr h.total_le hlong

theorem encode_eq_ok {bytes : List UInt8} :
    v.encode = .ok bytes ↔ v.WithinLimits ∧
      bytes = Bytes.toLE 4 v.transferId.toNat ++ (Bytes.toLE 4 v.totalBytes.toNat ++
        (Bytes.toLE 4 v.offset.toNat ++ v.pngBytes)) := by
  simp [encode, validate_eq_ok]
  exact fun _ => eq_comm

@[simp] theorem decode_eq_ok {input : List UInt8} :
    decode input = .ok v ↔ v.encode = .ok input := by
  rcases v with ⟨transferId, totalBytes, offset, pngBytes⟩
  simp [decode, decoder, encode_eq_ok, validate_eq_ok]
  constructor
  · rintro ⟨rfl, -, h⟩
    exact ⟨h, rfl⟩
  · rintro ⟨h, rfl⟩
    exact ⟨rfl, h.length_le, h⟩

end ClipboardImageChunk

namespace RttProbe

@[simp] theorem decode_eq_ok {input : List UInt8} {v : RttProbe} :
    decode input = .ok v ↔ v.encode = .ok input := by
  rcases v with ⟨timestampUs⟩
  simp [decode, decoder, encode]
  exact eq_comm

theorem closed_decoder : Closed decoder := by
  repeat refine Closed.bind (by simp) fun _ => ?_
  simp

end RttProbe
end MahoRD
