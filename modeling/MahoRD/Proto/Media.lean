/-
MahoRD/Proto/Media.lean

The media payloads (`maho-proto/src/media.rs`): a frame header, the chunks of
its data, and the time stamps that close a frame; the position of the cursor;
the fragments of an audio block.
-/
import MahoRD.Proto.Packet

namespace MahoRD

def maxChunksPerFrame : UInt16 := 8192

def maxFrameBytes : UInt32 := 32 * 1024 * 1024

def maxVideoChunkBytes : ℕ := 1382

def maxAudioFragmentBytes : ℕ := 1380

/-! ### Frame headers -/

structure FrameHeader where
  frameId : UInt32
  width : UInt16
  height : UInt16
  isKeyFrame : Bool
  totalChunks : UInt16
  totalSize : UInt32
  deriving DecidableEq

namespace FrameHeader

def validate (h : FrameHeader) : Except CodecError Unit :=
  let chunkCapacity := h.totalChunks.toNat * maxVideoChunkBytes
  if h.totalChunks > maxChunksPerFrame then
    .error (.lengthLimit "frame chunks" h.totalChunks.toNat maxChunksPerFrame.toNat)
  else if h.totalSize > maxFrameBytes then
    .error (.lengthLimit "frame bytes" h.totalSize.toNat maxFrameBytes.toNat)
  else if h.totalSize.toNat > chunkCapacity then
    .error (.lengthLimit "frame bytes for chunk count" h.totalSize.toNat chunkCapacity)
  else .ok ()

def toBytes (h : FrameHeader) : List UInt8 :=
  Bytes.toLE 4 h.frameId.toNat ++ Bytes.toLE 2 h.width.toNat ++ Bytes.toLE 2 h.height.toNat
    ++ [if h.isKeyFrame then 1 else 0] ++ Bytes.toLE 2 h.totalChunks.toNat ++ [0]
    ++ Bytes.toLE 4 h.totalSize.toNat

def encode (h : FrameHeader) : Except CodecError (List UInt8) := do
  h.validate
  return h.toBytes

def decoder : Decoder FrameHeader := do
  let frameId ← Decoder.u32 "frame ID"
  let width ← Decoder.u16 "frame width"
  let height ← Decoder.u16 "frame height"
  let key ← Decoder.u8 "frame key flag"
  let totalChunks ← Decoder.u16 "frame chunk count"
  let _padding ← Decoder.u8 "frame padding"
  let totalSize ← Decoder.u32 "frame total size"
  Decoder.finish "frame header"
  let value : FrameHeader := ⟨frameId, width, height, key != 0, totalChunks, totalSize⟩
  (value.validate : Except CodecError Unit)
  return value

def decode (input : List UInt8) : Except CodecError FrameHeader := decoder.run' input

variable {h : FrameHeader}

theorem validate_of_encode {bytes : List UInt8} (he : h.encode = .ok bytes) :
    h.validate = .ok () ∧ bytes = h.toBytes := by
  rcases hv : h.validate with e | u
  · simp [encode, hv, bind, Except.bind] at he
  · refine ⟨rfl, ?_⟩
    simpa [encode, hv, bind, Except.bind, pure, Except.pure, eq_comm] using he

theorem encode_of_le (hchunks : h.totalChunks ≤ maxChunksPerFrame)
    (hsize : h.totalSize ≤ maxFrameBytes)
    (hcapacity : h.totalSize.toNat ≤ h.totalChunks.toNat * maxVideoChunkBytes) :
    h.encode = .ok h.toBytes := by
  have hvalid : h.validate = .ok () := by
    simp only [validate]
    rw [if_neg (UInt16.not_lt.mpr hchunks), if_neg (UInt32.not_lt.mpr hsize),
      if_neg (Nat.not_lt.mpr hcapacity)]
  rw [encode, hvalid]
  rfl

theorem decode_encode {bytes : List UInt8} (he : h.encode = .ok bytes) :
    decode bytes = .ok h := by
  obtain ⟨hv, rfl⟩ := validate_of_encode he
  have hkey : ((if h.isKeyFrame then (1 : UInt8) else 0) != 0) = h.isKeyFrame := by
    cases h.isKeyFrame <;> rfl
  have hb : h.toBytes = Bytes.toLE 4 h.frameId.toNat ++ (Bytes.toLE 2 h.width.toNat ++
      (Bytes.toLE 2 h.height.toNat ++ ((if h.isKeyFrame then 1 else 0) ::
      (Bytes.toLE 2 h.totalChunks.toNat ++ (0 :: (Bytes.toLE 4 h.totalSize.toNat ++ [])))))) := by
    simp [toBytes]
  simp [decode, decoder, hb, StateT.run', bind, StateT.bind, Except.bind, Decoder.pure_apply,
    Decoder.lift_apply, Decoder.finish, Functor.map, Except.map, hkey, hv]

end FrameHeader

/-! ### Frame chunks -/

structure FrameChunk where
  frameId : UInt32
  chunkIndex : UInt16
  data : List UInt8
  deriving DecidableEq

namespace FrameChunk

def toBytes (c : FrameChunk) : List UInt8 :=
  Bytes.toLE 4 c.frameId.toNat ++ Bytes.toLE 2 c.chunkIndex.toNat ++ c.data

def validate (c : FrameChunk) : Except CodecError Unit :=
  if c.chunkIndex ≥ maxChunksPerFrame then
    .error (.invalidValue "frame chunk index" c.chunkIndex.toNat)
  else if c.data.length > maxVideoChunkBytes then
    .error (.lengthLimit "video chunk data" c.data.length maxVideoChunkBytes)
  else .ok ()

def encode (c : FrameChunk) : Except CodecError (List UInt8) := do
  c.validate
  return c.toBytes

def decoder : Decoder FrameChunk := do
  let frameId ← Decoder.u32 "frame chunk ID"
  let chunkIndex ← Decoder.u16 "frame chunk index"
  if chunkIndex ≥ maxChunksPerFrame then
    throw (.invalidValue "frame chunk index" chunkIndex.toNat)
  let data ← Decoder.takeRemaining
  if data.length > maxVideoChunkBytes then
    throw (.lengthLimit "video chunk data" data.length maxVideoChunkBytes)
  return ⟨frameId, chunkIndex, data⟩

def decode (input : List UInt8) : Except CodecError FrameChunk := decoder.run' input

theorem decode_toBytes {c c' : FrameChunk} (h : decode c.toBytes = .ok c') : c' = c := by
  simp only [decode, decoder, toBytes, List.append_assoc, StateT.run', bind, StateT.bind,
    Except.bind, Decoder.u32_toLE, Decoder.u16_toLE] at h
  split at h
  · cases h
  · simp only [StateT.bind, bind, Except.bind, Decoder.takeRemaining] at h
    split at h
    · cases h
    · simp only [Decoder.pure_apply, Functor.map, Except.map, Except.ok.injEq] at h
      exact h.symm

theorem decode_toBytes_of_le {c : FrameChunk} (hindex : c.chunkIndex < maxChunksPerFrame)
    (hdata : c.data.length ≤ maxVideoChunkBytes) : decode c.toBytes = .ok c := by
  simp only [decode, decoder, toBytes, List.append_assoc, StateT.run', bind, StateT.bind,
    Except.bind, Decoder.u32_toLE, Decoder.u16_toLE]
  rw [if_neg (UInt16.not_le.mpr hindex)]
  simp only [StateT.bind, bind, Except.bind, Decoder.takeRemaining]
  rw [if_neg (Nat.not_lt.mpr hdata)]
  rfl

end FrameChunk

/-! ### The cursor -/

/-- The coordinates are bit patterns. -/
structure CursorUpdate where
  x : UInt32
  y : UInt32
  cursorType : UInt8

namespace CursorUpdate

def encode (v : CursorUpdate) : Except CodecError (List UInt8) :=
  .ok (pushU32 (pushU32 [] v.x) v.y ++ [v.cursorType])

def decoder : Decoder CursorUpdate := do
  let x ← Decoder.f32 "cursor x"
  let y ← Decoder.f32 "cursor y"
  let cursorType ← Decoder.u8 "cursor type"
  Decoder.finish "cursor update"
  return ⟨x, y, cursorType⟩

def decode (input : List UInt8) : Except CodecError CursorUpdate := decoder.run' input

end CursorUpdate

/-! ### Audio -/

structure AudioFragmentHeader where
  frameId : UInt32
  fragmentIndex : UInt16
  fragmentCount : UInt16
  deriving DecidableEq

namespace AudioFragmentHeader

def validate (h : AudioFragmentHeader) : Except CodecError Unit :=
  if h.fragmentCount = 0 then .error (.invalidValue "audio fragment count" 0)
  else if h.fragmentIndex ≥ h.fragmentCount then
    .error (.invalidValue "audio fragment index" h.fragmentIndex.toNat)
  else .ok ()

def toBytes (h : AudioFragmentHeader) : Except CodecError (List UInt8) := do
  h.validate
  return Bytes.toLE 4 h.frameId.toNat ++ Bytes.toLE 2 h.fragmentIndex.toNat
    ++ Bytes.toLE 2 h.fragmentCount.toNat

def encode (h : AudioFragmentHeader) : Except CodecError (List UInt8) := h.toBytes

end AudioFragmentHeader

structure AudioFragment where
  header : AudioFragmentHeader
  data : List UInt8
  deriving DecidableEq

namespace AudioFragment

def validate (f : AudioFragment) : Except CodecError Unit := do
  f.header.validate
  if f.data.length > maxAudioFragmentBytes then
    throw (.lengthLimit "audio fragment data" f.data.length maxAudioFragmentBytes)

def encode (f : AudioFragment) : Except CodecError (List UInt8) := do
  f.validate
  let output ← f.header.encode
  return output ++ f.data

def decoder : Decoder AudioFragment := do
  let frameId ← Decoder.u32 "audio frame ID"
  let fragmentIndex ← Decoder.u16 "audio fragment index"
  let fragmentCount ← Decoder.u16 "audio fragment count"
  let header : AudioFragmentHeader := ⟨frameId, fragmentIndex, fragmentCount⟩
  (header.validate : Except CodecError Unit)
  let data ← Decoder.takeRemaining
  if data.length > maxAudioFragmentBytes then
    throw (.lengthLimit "audio fragment data" data.length maxAudioFragmentBytes)
  return ⟨header, data⟩

def decode (input : List UInt8) : Except CodecError AudioFragment := decoder.run' input

end AudioFragment

/-! ### Time stamps -/

/-- Per-frame host time stamps, in microseconds since the session started. -/
structure TimestampStats where
  frameId : UInt32
  captureUs : UInt64
  encodeStartUs : UInt64
  encodeEndUs : UInt64
  sendUs : UInt64

/-- `TIMESTAMP_STATS_MAGIC`, `b"ERDTS1"`. -/
def timestampStatsMagic : List UInt8 := [69, 82, 68, 84, 83, 49]

namespace TimestampStats

def size : ℕ := 6 + 4 + 8 * 4

def encode (s : TimestampStats) : List UInt8 :=
  timestampStatsMagic ++ Bytes.toLE 4 s.frameId.toNat ++ Bytes.toLE 8 s.captureUs.toNat
    ++ Bytes.toLE 8 s.encodeStartUs.toNat ++ Bytes.toLE 8 s.encodeEndUs.toNat
    ++ Bytes.toLE 8 s.sendUs.toNat

def decode (bytes : List UInt8) : Option TimestampStats :=
  if bytes.length ≠ size ∨ bytes.take 6 ≠ timestampStatsMagic then none
  else some
    { frameId := UInt32.ofNat (Bytes.ofLE ((bytes.drop 6).take 4))
      captureUs := UInt64.ofNat (Bytes.ofLE ((bytes.drop 10).take 8))
      encodeStartUs := UInt64.ofNat (Bytes.ofLE ((bytes.drop 18).take 8))
      encodeEndUs := UInt64.ofNat (Bytes.ofLE ((bytes.drop 26).take 8))
      sendUs := UInt64.ofNat (Bytes.ofLE ((bytes.drop 34).take 8)) }

end TimestampStats

end MahoRD
