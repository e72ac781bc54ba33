/-
MahoRD/Proto/Codec.lean

The primitive encoders and decoders of the wire formats (`maho-proto/src/codec.rs`,
`error.rs`).  A decoder reads from the front of the bytes that remain; the
source keeps the whole input and an offset into it, and every operation looks
only at the part after the offset.
-/
import MahoRD.Lib.Bytes
import MahoRD.Lib.Parse

namespace MahoRD

/-- Errors of encoding and decoding version 3 wire values. -/
inductive CodecError
  | truncated (field : String) (needed remaining : ℕ)
  | invalidMagic (found : UInt16)
  | unknownPacketType (value : UInt8)
  | unsupportedVersion (version : UInt8)
  | unknownInputEventType (value : UInt8)
  | unknownControlMessageType (value : UInt8)
  | unknownPairingRejectReason (value : UInt8)
  | unknownStreamConfigurationErrorCode (value : UInt8)
  | unknownClipboardDirection (value : UInt8)
  | unknownClipboardOrigin (value : UInt8)
  | invalidUtf8 (field : String)
  | invalidLength (field : String) (actual expected : ℕ)
  | lengthLimit (field : String) (actual max : ℕ)
  | invalidValue (field : String) (value : ℕ)
  | trailingBytes (field : String) (remaining : ℕ)
  | unknownRelayChannel (channel : UInt8)
  | invalidFrameLength (length : UInt32)
  deriving DecidableEq

/-- A decoder consumes bytes from the front of what remains. -/
abbrev Decoder := StateT (List UInt8) (Except CodecError)

namespace Decoder

def take (length : ℕ) (field : String) : Decoder (List UInt8) := fun input =>
  if input.length < length then .error (.truncated field length input.length)
  else .ok (input.take length, input.drop length)

def takeRemaining : Decoder (List UInt8) := fun input => .ok (input, [])

def finish (field : String) : Decoder Unit := fun input =>
  if input.length = 0 then .ok ((), input) else .error (.trailingBytes field input.length)

def u8 (field : String) : Decoder UInt8 := do
  let bytes ← take 1 field
  return UInt8.ofNat (Bytes.ofLE bytes)

def u16 (field : String) : Decoder UInt16 := do
  let bytes ← take 2 field
  return UInt16.ofNat (Bytes.ofLE bytes)

def u32 (field : String) : Decoder UInt32 := do
  let bytes ← take 4 field
  return UInt32.ofNat (Bytes.ofLE bytes)

def i32 (field : String) : Decoder Int32 := do
  let value ← u32 field
  return value.toInt32

def u64 (field : String) : Decoder UInt64 := do
  let bytes ← take 8 field
  return UInt64.ofNat (Bytes.ofLE bytes)

/-- A float is its bit pattern. -/
def f32 (field : String) : Decoder UInt32 := u32 field

def utf8 (length : ℕ) (field : String) : Decoder String := do
  let bytes ← take length field
  match String.fromUTF8? ⟨bytes.toArray⟩ with
  | some text => return text
  | none => throw (.invalidUtf8 field)

end Decoder

/-- The bytes of a string. -/
def utf8 (s : String) : List UInt8 := s.toUTF8.data.toList

def checkedBytes (value field : String) (max : ℕ) : Except CodecError (List UInt8) :=
  if (utf8 value).length > max then .error (.lengthLimit field (utf8 value).length max)
  else .ok (utf8 value)

def usizeToU8 (value : ℕ) (field : String) : Except CodecError UInt8 :=
  if value < UInt8.size then .ok (UInt8.ofNat value) else .error (.lengthLimit field value 255)

def usizeToU16 (value : ℕ) (field : String) : Except CodecError UInt16 :=
  if value < UInt16.size then .ok (UInt16.ofNat value)
  else .error (.lengthLimit field value 65535)

def pushU16 (output : List UInt8) (value : UInt16) : List UInt8 :=
  output ++ Bytes.toLE 2 value.toNat

def pushU32 (output : List UInt8) (value : UInt32) : List UInt8 :=
  output ++ Bytes.toLE 4 value.toNat

def pushI32 (output : List UInt8) (value : Int32) : List UInt8 := pushU32 output value.toUInt32

def pushU64 (output : List UInt8) (value : UInt64) : List UInt8 :=
  output ++ Bytes.toLE 8 value.toNat

/-! ### What the encoders accept -/

variable {field : String}

@[simp] theorem checkedBytes_eq_ok {value : String} {max : ℕ} {bytes : List UInt8} :
    checkedBytes value field max = .ok bytes ↔
      (utf8 value).length ≤ max ∧ utf8 value = bytes := by
  rw [checkedBytes]
  split
  next h => simpa using fun hle => absurd h (Nat.not_lt.mpr hle)
  next h => simpa using fun _ => Nat.not_lt.mp h

@[simp] theorem usizeToU8_eq_ok {value : ℕ} {v : UInt8} :
    usizeToU8 value field = .ok v ↔ value = v.toNat := by
  rw [usizeToU8]
  split
  next h =>
    rw [Except.ok.injEq]
    constructor
    · rintro rfl
      exact (UInt8.toNat_ofNat_of_lt' h).symm
    · rintro rfl
      exact UInt8.ofNat_toNat
  next h => simpa using fun (he : value = v.toNat) => h (he ▸ v.toNat_lt)

@[simp] theorem usizeToU16_eq_ok {value : ℕ} {v : UInt16} :
    usizeToU16 value field = .ok v ↔ value = v.toNat := by
  rw [usizeToU16]
  split
  next h =>
    rw [Except.ok.injEq]
    constructor
    · rintro rfl
      exact (UInt16.toNat_ofNat_of_lt' h).symm
    · rintro rfl
      exact UInt16.ofNat_toNat
  next h => simpa using fun (he : value = v.toNat) => h (he ▸ v.toNat_lt)

theorem exists_u8 {n : ℕ} (h : n < UInt8.size) : ∃ v : UInt8, n = v.toNat :=
  ⟨UInt8.ofNat n, (UInt8.toNat_ofNat_of_lt' h).symm⟩

theorem exists_u16 {n : ℕ} (h : n < UInt16.size) : ∃ v : UInt16, n = v.toNat :=
  ⟨UInt16.ofNat n, (UInt16.toNat_ofNat_of_lt' h).symm⟩

@[simp] theorem pushU16_eq (output : List UInt8) (v : UInt16) :
    pushU16 output v = output ++ Bytes.toLE 2 v.toNat := rfl

@[simp] theorem pushU32_eq (output : List UInt8) (v : UInt32) :
    pushU32 output v = output ++ Bytes.toLE 4 v.toNat := rfl

@[simp] theorem pushI32_eq (output : List UInt8) (v : Int32) :
    pushI32 output v = output ++ Bytes.toLE 4 v.toUInt32.toNat := rfl

@[simp] theorem pushU64_eq (output : List UInt8) (v : UInt64) :
    pushU64 output v = output ++ Bytes.toLE 8 v.toNat := rfl

theorem toLE_u32 {bytes : List UInt8} (h : bytes.length = 4) :
    Bytes.toLE 4 (UInt32.ofNat (Bytes.ofLE bytes)).toNat = bytes := by
  have hlt : Bytes.ofLE bytes < UInt32.size := by
    simpa [h, UInt32.size] using Bytes.ofLE_lt bytes
  rw [UInt32.toNat_ofNat_of_lt' hlt, ← h, Bytes.toLE_ofLE]

theorem toLE_u64 {bytes : List UInt8} (h : bytes.length = 8) :
    Bytes.toLE 8 (UInt64.ofNat (Bytes.ofLE bytes)).toNat = bytes := by
  have hlt : Bytes.ofLE bytes < UInt64.size := by
    simpa [h, UInt64.size] using Bytes.ofLE_lt bytes
  rw [UInt64.toNat_ofNat_of_lt' hlt, ← h, Bytes.toLE_ofLE]

namespace Decoder

/-! ### What the primitives read -/

theorem reads_take (length : ℕ) (field : String) :
    Parse.Reads (take length field) id fun bytes => bytes.length = length := by
  intro input bytes rest
  simp only [take, StateT.run, id_eq]
  constructor
  · intro h
    split at h
    · cases h
    next hlen =>
      cases h
      exact ⟨List.length_take_of_le (Nat.not_lt.mp hlen), (List.take_append_drop _ _).symm⟩
  · rintro ⟨rfl, rfl⟩
    simp

theorem reads_number {α : Type} {width : ℕ} {field : String} {number : ℕ → α} {toNat : α → ℕ}
    (hlt : ∀ v, toNat v < 256 ^ width) (hnumber : ∀ v, number (toNat v) = v)
    (htoNat : ∀ n, n < 256 ^ width → toNat (number n) = n) :
    Parse.Reads (do return number (Bytes.ofLE (← take width field)))
      (fun v => Bytes.toLE width (toNat v)) fun _ => True := by
  intro input v rest
  simp only [Parse.run_bind_eq_ok, (reads_take width field).run_eq_ok, Parse.run_pure_eq_ok,
    id_eq, true_and]
  constructor
  · rintro ⟨bytes, _, ⟨hlen, rfl⟩, rfl, rfl⟩
    have hbound : Bytes.ofLE bytes < 256 ^ width := hlen ▸ Bytes.ofLE_lt bytes
    rw [htoNat _ hbound, ← hlen, Bytes.toLE_ofLE]
  · rintro rfl
    exact ⟨_, rest, ⟨Bytes.length_toLE _ _, rfl⟩, by rw [Bytes.ofLE_toLE _ _ (hlt v), hnumber],
      rfl⟩

theorem reads_u8 (field : String) :
    Parse.Reads (u8 field) (fun v => [v]) fun _ => True := by
  have h : Parse.Reads (u8 field) (fun v => Bytes.toLE 1 v.toNat) fun _ => True :=
    reads_number (fun v => v.toNat_lt) (fun _ => UInt8.ofNat_toNat)
      fun _ hn => UInt8.toNat_ofNat_of_lt' hn
  have hbyte : (fun v : UInt8 => Bytes.toLE 1 v.toNat) = fun v => [v] := by
    funext v
    simp [Bytes.toLE]
  exact hbyte ▸ h

theorem reads_u16 (field : String) :
    Parse.Reads (u16 field) (fun v => Bytes.toLE 2 v.toNat) fun _ => True :=
  reads_number (fun v => v.toNat_lt) (fun _ => UInt16.ofNat_toNat)
    fun _ hn => UInt16.toNat_ofNat_of_lt' hn

theorem reads_u32 (field : String) :
    Parse.Reads (u32 field) (fun v => Bytes.toLE 4 v.toNat) fun _ => True :=
  reads_number (fun v => v.toNat_lt) (fun _ => UInt32.ofNat_toNat)
    fun _ hn => UInt32.toNat_ofNat_of_lt' hn

theorem reads_u64 (field : String) :
    Parse.Reads (u64 field) (fun v => Bytes.toLE 8 v.toNat) fun _ => True :=
  reads_number (fun v => v.toNat_lt) (fun _ => UInt64.ofNat_toNat)
    fun _ hn => UInt64.toNat_ofNat_of_lt' hn

theorem fromUTF8_eq_some {bytes : List UInt8} {text : String} :
    String.fromUTF8? ⟨bytes.toArray⟩ = some text ↔ bytes = MahoRD.utf8 text := by
  have hbytes : bytes = MahoRD.utf8 text ↔ (⟨bytes.toArray⟩ : ByteArray) = text.toByteArray := by
    rw [ByteArray.ext_iff, ← Array.toList_inj]
    rfl
  rw [hbytes, String.fromUTF8?]
  split
  · rw [Option.some.injEq, ← String.toByteArray_inj]
    rfl
  next hvalid =>
    refine ⟨nofun, fun h => ?_⟩
    exact (hvalid (h ▸ text.isValidUTF8)).elim

theorem reads_utf8 (length : ℕ) (field : String) :
    Parse.Reads (utf8 length field) MahoRD.utf8 fun text => (MahoRD.utf8 text).length = length := by
  intro input text rest
  simp only [utf8, Parse.run_bind_eq_ok, (reads_take length field).run_eq_ok, id_eq]
  constructor
  · rintro ⟨bytes, _, ⟨hlen, rfl⟩, h⟩
    split at h
    next t ht =>
      obtain ⟨rfl, rfl⟩ := Parse.run_pure_eq_ok.mp h
      have hbytes := fromUTF8_eq_some.mp ht
      exact ⟨hbytes ▸ hlen, by rw [hbytes]⟩
    · exact (Parse.run_throw_eq_ok.mp h).elim
  · rintro ⟨hlen, rfl⟩
    refine ⟨_, rest, ⟨hlen, rfl⟩, ?_⟩
    rw [fromUTF8_eq_some.mpr rfl]
    rfl

section

variable {input rest : List UInt8} {field : String}

@[simp] theorem u8_eq_ok {v : UInt8} :
    (u8 field).run input = .ok (v, rest) ↔ input = v :: rest := by
  simp [(reads_u8 field).run_eq_ok]

@[simp] theorem u16_eq_ok {v : UInt16} :
    (u16 field).run input = .ok (v, rest) ↔ input = Bytes.toLE 2 v.toNat ++ rest := by
  simp [(reads_u16 field).run_eq_ok]

@[simp] theorem u32_eq_ok {v : UInt32} :
    (u32 field).run input = .ok (v, rest) ↔ input = Bytes.toLE 4 v.toNat ++ rest := by
  simp [(reads_u32 field).run_eq_ok]

@[simp] theorem f32_eq_ok {v : UInt32} :
    (f32 field).run input = .ok (v, rest) ↔ input = Bytes.toLE 4 v.toNat ++ rest :=
  u32_eq_ok

@[simp] theorem i32_eq_ok {v : Int32} :
    (i32 field).run input = .ok (v, rest) ↔ input = Bytes.toLE 4 v.toUInt32.toNat ++ rest := by
  simp only [i32, Parse.run_bind_eq_ok, u32_eq_ok, Parse.run_pure_eq_ok]
  constructor
  · rintro ⟨u, _, rfl, rfl, rfl⟩
    simp
  · rintro rfl
    exact ⟨v.toUInt32, rest, rfl, by simp, rfl⟩

@[simp] theorem u64_eq_ok {v : UInt64} :
    (u64 field).run input = .ok (v, rest) ↔ input = Bytes.toLE 8 v.toNat ++ rest := by
  simp [(reads_u64 field).run_eq_ok]

@[simp] theorem take_eq_ok {length : ℕ} {bytes : List UInt8} :
    (take length field).run input = .ok (bytes, rest) ↔
      bytes.length = length ∧ input = bytes ++ rest := by
  simp [(reads_take length field).run_eq_ok]

@[simp] theorem utf8_eq_ok {length : ℕ} {text : String} :
    (utf8 length field).run input = .ok (text, rest) ↔
      (MahoRD.utf8 text).length = length ∧ input = MahoRD.utf8 text ++ rest :=
  (reads_utf8 length field).run_eq_ok

@[simp] theorem takeRemaining_eq_ok {bytes : List UInt8} :
    takeRemaining.run input = .ok (bytes, rest) ↔ input = bytes ∧ rest = [] := by
  simp [takeRemaining, StateT.run, eq_comm]

@[simp] theorem finish_eq_ok {u : Unit} :
    (finish field).run input = .ok (u, rest) ↔ input = [] ∧ rest = [] := by
  simp only [finish, StateT.run]
  split
  next h =>
    rw [List.length_eq_zero_iff] at h
    simp [h, eq_comm]
  next h =>
    simp [← List.length_eq_zero_iff, h]

end

@[simp] theorem framed_u8 (field : String) : Parse.Framed (u8 field) := (reads_u8 field).framed

@[simp] theorem framed_u16 (field : String) : Parse.Framed (u16 field) := (reads_u16 field).framed

@[simp] theorem framed_u32 (field : String) : Parse.Framed (u32 field) := (reads_u32 field).framed

@[simp] theorem framed_i32 (field : String) : Parse.Framed (i32 field) :=
  (framed_u32 field).bind fun _ => Parse.Framed.pure

@[simp] theorem framed_u64 (field : String) : Parse.Framed (u64 field) := (reads_u64 field).framed

@[simp] theorem framed_utf8 (length : ℕ) (field : String) : Parse.Framed (utf8 length field) :=
  (reads_utf8 length field).framed

@[simp] theorem closed_finish (field : String) : Parse.Closed (finish field) := by
  intro input a rest h more b rest' h'
  exact (List.append_eq_nil_iff.mp (finish_eq_ok.mp h').1).2

@[simp] theorem closed_finish_bind {α : Type} (field : String) (f : Unit → Decoder α) :
    Parse.Closed (finish field >>= f) :=
  (closed_finish field).bind_left

/-! ### Decoding what was encoded -/

theorem pure_apply {α : Type} (a : α) (input : List UInt8) :
    (pure a : Decoder α) input = .ok (a, input) := rfl

theorem lift_apply {α : Type} (x : Except CodecError α) (input : List UInt8) :
    (liftM x : Decoder α) input = x.map (·, input) := by
  cases x <;> rfl

theorem take_append (bytes rest : List UInt8) (field : String) :
    take bytes.length field (bytes ++ rest) = .ok (bytes, rest) := by
  simp [take]

theorem take_toLE (width n : ℕ) (rest : List UInt8) (field : String) :
    take width field (Bytes.toLE width n ++ rest) = .ok (Bytes.toLE width n, rest) := by
  simpa using take_append (Bytes.toLE width n) rest field

@[simp] theorem u8_cons (b : UInt8) (rest : List UInt8) (field : String) :
    u8 field (b :: rest) = .ok (b, rest) := by
  have h : UInt8.ofNat (Bytes.ofLE [b]) = b := by simp [Bytes.ofLE]
  simp [u8, take, bind, StateT.bind, Except.bind, pure_apply, h]

@[simp] theorem u16_toLE (v : UInt16) (rest : List UInt8) (field : String) :
    u16 field (Bytes.toLE 2 v.toNat ++ rest) = .ok (v, rest) := by
  have h : Bytes.ofLE (Bytes.toLE 2 v.toNat) = v.toNat := Bytes.ofLE_toLE 2 _ v.toNat_lt
  simp [u16, bind, StateT.bind, Except.bind, take_toLE, pure_apply, h]

@[simp] theorem u32_toLE (v : UInt32) (rest : List UInt8) (field : String) :
    u32 field (Bytes.toLE 4 v.toNat ++ rest) = .ok (v, rest) := by
  have h : Bytes.ofLE (Bytes.toLE 4 v.toNat) = v.toNat := Bytes.ofLE_toLE 4 _ v.toNat_lt
  simp [u32, bind, StateT.bind, Except.bind, take_toLE, pure_apply, h]

@[simp] theorem u64_toLE (v : UInt64) (rest : List UInt8) (field : String) :
    u64 field (Bytes.toLE 8 v.toNat ++ rest) = .ok (v, rest) := by
  have h : Bytes.ofLE (Bytes.toLE 8 v.toNat) = v.toNat := Bytes.ofLE_toLE 8 _ v.toNat_lt
  simp [u64, bind, StateT.bind, Except.bind, take_toLE, pure_apply, h]

@[simp] theorem u64_toLE_last (v : UInt64) (field : String) :
    u64 field (Bytes.toLE 8 v.toNat) = .ok (v, []) := by
  simpa using u64_toLE v [] field

@[simp] theorem u32_toLE_last (v : UInt32) (field : String) :
    u32 field (Bytes.toLE 4 v.toNat) = .ok (v, []) := by
  simpa using u32_toLE v [] field

end Decoder
end MahoRD
