/-
MahoRD/Host/VideoSender.lean

The sender of encoded video (`UdpSender` in `maho-host/src/session.rs`): a frame
becomes a header packet, the packets of its chunks and a packet of time stamps.

The frame id is taken only once the header has been encoded, so a refused frame
uses none.  After that any of the sends may fail, and the rest of the frame is
then not sent.

Sealing and the socket are behind `send`: what became of the `i`-th packet of
the frame, `some timestampMs` if it went out.
-/
import MahoRD.Lib.Chunks
import MahoRD.Proto.Media

namespace MahoRD

/-- `SENDER_MAX_VIDEO_CHUNK_BYTES`. -/
def senderMaxVideoChunkBytes : ℕ := 1154

/-- An encoded frame.  Instants are microseconds. -/
structure VideoFrame where
  data : List UInt8
  isKeyFrame : Bool
  captureAt : ℕ
  encodeStartedAt : ℕ
  encodeCompletedAt : ℕ
  deriving DecidableEq

/-- A datagram before it is sealed. -/
structure Packet where
  header : PacketHeader
  payload : List UInt8
  deriving DecidableEq

inductive SendError
  | store (text : String) | codec (error : CodecError) | transport

structure UdpSender where
  sequence : UInt32
  frameId : UInt32

namespace UdpSender

/-- `UdpSender::default()`. -/
def new : UdpSender := ⟨0, 0⟩

def sendPacket (s : UdpSender) (packetType : PacketType) (payload : List UInt8)
    (sent : Option UInt32) : Except SendError Unit × UdpSender × List Packet :=
  let s := { s with sequence := s.sequence + 1 }
  match sent with
  | none => (.error .transport, s, [])
  | some timestampMs => (.ok (), s, [⟨⟨packetType, s.sequence, timestampMs, 0⟩, payload⟩])

/-- Send the chunks from index `index` on; the chunk of index `i` is packet
`i + 1` of the frame. -/
def sendChunks (s : UdpSender) (frameId : UInt32) (send : ℕ → Option UInt32) :
    (index : ℕ) → List (List UInt8) → Except SendError Unit × UdpSender × List Packet
  | _, [] => (.ok (), s, [])
  | index, bytes :: rest =>
    let payload := FrameChunk.toBytes ⟨frameId, UInt16.ofNat index, bytes⟩
    match s.sendPacket .frameChunk payload (send (index + 1)) with
    | (.error e, s, out) => (.error e, s, out)
    | (.ok (), s, out) =>
      match s.sendChunks frameId send (index + 1) rest with
      | (r, s, out') => (r, s, out ++ out')

/-- The header of the next frame with its encoding. -/
def frameHeader (s : UdpSender) (width height : UInt32) (frame : VideoFrame) :
    Except SendError (FrameHeader × List UInt8) :=
  let chunkCount := Chunks.count senderMaxVideoChunkBytes frame.data.length
  if 2 ^ 16 ≤ chunkCount then .error (.store "encoded frame has too many chunks")
  else if 2 ^ 32 ≤ frame.data.length then .error (.store "encoded frame is too large")
  else
    let header : FrameHeader :=
      { frameId := s.frameId + 1
        width := UInt16.ofNat (min width.toNat 65535)
        height := UInt16.ofNat (min height.toNat 65535)
        isKeyFrame := frame.isKeyFrame
        totalChunks := UInt16.ofNat chunkCount
        totalSize := UInt32.ofNat frame.data.length }
    match header.encode with
    | .error e => .error (.codec e)
    | .ok encodedHeader => .ok (header, encodedHeader)

/-- `monotonic_us`. -/
def monotonicUs (origin value : ℕ) : UInt64 := UInt64.ofNat (value - origin)

def sendFrame (s : UdpSender) (width height : UInt32) (frame : VideoFrame)
    (sessionOrigin sendAt : ℕ) (send : ℕ → Option UInt32) :
    Except SendError Unit × UdpSender × List Packet :=
  match s.frameHeader width height frame with
  | .error e => (.error e, s, [])
  | .ok (header, encodedHeader) =>
    let frameId := header.frameId
    let s := { s with frameId }
    match s.sendPacket .frameHeader encodedHeader (send 0) with
    | (.error e, s, out) => (.error e, s, out)
    | (.ok (), s, out) =>
      let pieces := Chunks.chunks senderMaxVideoChunkBytes frame.data
      match s.sendChunks frameId send 0 pieces with
      | (.error e, s, out') => (.error e, s, out ++ out')
      | (.ok (), s, out') =>
        let stats : TimestampStats :=
          { frameId
            captureUs := monotonicUs sessionOrigin frame.captureAt
            encodeStartUs := monotonicUs sessionOrigin frame.encodeStartedAt
            encodeEndUs := monotonicUs sessionOrigin frame.encodeCompletedAt
            sendUs := monotonicUs sessionOrigin sendAt }
        match s.sendPacket .ping stats.encode (send (pieces.length + 1)) with
        | (r, s, out'') => (r, s, out ++ out' ++ out'')

/-! ### The header -/

variable {height : UInt32} {s : UdpSender}

/-- The header of an accepted frame carries the next id and the frame's own
size and chunk count, and decodes to itself. -/
theorem frameHeader_spec {width : UInt32} {frame : VideoFrame}
    {header : FrameHeader} {encodedHeader : List UInt8}
    (h : s.frameHeader width height frame = .ok (header, encodedHeader)) :
    FrameHeader.decode encodedHeader = .ok header ∧ header.frameId = s.frameId + 1 ∧
      header.isKeyFrame = frame.isKeyFrame ∧
      header.totalChunks.toNat = (Chunks.chunks senderMaxVideoChunkBytes frame.data).length ∧
      header.totalSize.toNat = frame.data.length := by
  simp only [frameHeader] at h
  split at h
  · cases h
  next hcount =>
    split at h
    · cases h
    next hsize =>
      split at h
      · cases h
      next henc =>
        cases h
        refine ⟨FrameHeader.decode_encode henc, rfl, rfl, ?_, ?_⟩
        · rw [Chunks.length_chunks]
          exact Nat.mod_eq_of_lt (Nat.lt_of_not_le hcount)
        · exact Nat.mod_eq_of_lt (Nat.lt_of_not_le hsize)

/-- A frame of at most 8192 chunks gets its header.  Its size is then far below
the limit, and its dimensions are cut at 65535. -/
theorem frameHeader_of_le (s : UdpSender) (width height : UInt32) {frame : VideoFrame}
    (h : Chunks.count senderMaxVideoChunkBytes frame.data.length ≤ maxChunksPerFrame.toNat) :
    ∃ header encodedHeader, s.frameHeader width height frame = .ok (header, encodedHeader) ∧
      header.width = UInt16.ofNat (min width.toNat 65535) ∧
      header.height = UInt16.ofNat (min height.toNat 65535) ∧
      header.totalSize.toNat = frame.data.length ∧
      frame.data.length ≤ maxFrameBytes.toNat := by
  have hmax : maxChunksPerFrame.toNat = 8192 := rfl
  have hbytes : maxFrameBytes.toNat = 33554432 := rfl
  have hcapacity := Chunks.le_count_mul (n := senderMaxVideoChunkBytes) (by decide)
    frame.data.length
  have hlen : frame.data.length ≤ 8192 * 1154 :=
    Nat.le_trans hcapacity (Nat.mul_le_mul_right _ h)
  have hcount : (UInt16.ofNat (Chunks.count senderMaxVideoChunkBytes frame.data.length)).toNat
      = Chunks.count senderMaxVideoChunkBytes frame.data.length :=
    Nat.mod_eq_of_lt (Nat.lt_of_le_of_lt h (by decide))
  have hsize : (UInt32.ofNat frame.data.length).toNat = frame.data.length :=
    Nat.mod_eq_of_lt (Nat.lt_of_le_of_lt hlen (by decide))
  simp only [frameHeader]
  rw [if_neg (by omega), if_neg (by omega), FrameHeader.encode_of_le]
  · exact ⟨_, _, rfl, rfl, rfl, hsize, by omega⟩
  · rw [UInt16.le_iff_toNat_le, hcount]
    exact h
  · rw [UInt32.le_iff_toNat_le, hsize, hbytes]
    omega
  · rw [hsize, hcount]
    exact Nat.le_trans hcapacity (Nat.mul_le_mul_left _ (by decide))

theorem frameHeader_refused (s : UdpSender) (width height : UInt32) {frame : VideoFrame}
    (h : maxChunksPerFrame.toNat < Chunks.count senderMaxVideoChunkBytes frame.data.length) :
    ∃ e, s.frameHeader width height frame = .error e := by
  simp only [frameHeader]
  split
  · exact ⟨_, rfl⟩
  next hcount =>
    split
    · exact ⟨_, rfl⟩
    · have hlt : UInt16.ofNat (Chunks.count senderMaxVideoChunkBytes frame.data.length)
          > maxChunksPerFrame := by
        rw [gt_iff_lt, UInt16.lt_iff_toNat_lt, UInt16.toNat_ofNat',
          Nat.mod_eq_of_lt (Nat.lt_of_not_le hcount)]
        exact h
      simp [FrameHeader.encode, FrameHeader.validate, hlt, bind, Except.bind]

/-! ### What a frame leaves on the wire -/

theorem sendPacket_frameId (s : UdpSender) (t : PacketType) (payload : List UInt8)
    (sent : Option UInt32) : (s.sendPacket t payload sent).2.1.frameId = s.frameId := by
  cases sent <;> rfl

theorem mem_sendPacket {t : PacketType} {payload : List UInt8}
    {sent : Option UInt32} {p : Packet} (h : p ∈ (s.sendPacket t payload sent).2.2) :
    p.header.packetType = t ∧ p.payload = payload := by
  cases sent with
  | none => cases h
  | some timestampMs =>
    obtain rfl := List.mem_singleton.mp h
    exact ⟨rfl, rfl⟩

theorem sendChunks_spec (frameId : UInt32) (send : ℕ → Option UInt32) (index : ℕ)
    (pieces : List (List UInt8)) (s : UdpSender) :
    (s.sendChunks frameId send index pieces).2.1.frameId = s.frameId ∧
      ∀ p ∈ (s.sendChunks frameId send index pieces).2.2,
        p.header.packetType = .frameChunk ∧ ∃ j bytes, pieces[j]? = some bytes ∧
          p.payload = FrameChunk.toBytes ⟨frameId, UInt16.ofNat (index + j), bytes⟩ := by
  induction pieces generalizing s index with
  | nil => exact ⟨rfl, by simp [sendChunks]⟩
  | cons bytes rest ih =>
    have hid := sendPacket_frameId s .frameChunk
      (FrameChunk.toBytes ⟨frameId, UInt16.ofNat index, bytes⟩) (send (index + 1))
    have hmem := @mem_sendPacket s .frameChunk
      (FrameChunk.toBytes ⟨frameId, UInt16.ofNat index, bytes⟩) (send (index + 1))
    simp only [sendChunks]
    rcases hp : s.sendPacket .frameChunk
      (FrameChunk.toBytes ⟨frameId, UInt16.ofNat index, bytes⟩) (send (index + 1))
      with ⟨e | u, s', out⟩
    · rw [hp] at hid hmem
      refine ⟨hid, fun p hmem' => ?_⟩
      obtain ⟨ht, hpay⟩ := hmem hmem'
      exact ⟨ht, 0, bytes, rfl, hpay⟩
    · rw [hp] at hid hmem
      obtain ⟨hid', hmem'⟩ := ih (index + 1) s'
      refine ⟨hid'.trans hid, fun p hin => ?_⟩
      rcases List.mem_append.mp hin with hin | hin
      · obtain ⟨ht, hpay⟩ := hmem hin
        exact ⟨ht, 0, bytes, rfl, hpay⟩
      · obtain ⟨ht, j, piece, hj, hpay⟩ := hmem' p hin
        exact ⟨ht, j + 1, piece, hj, by rw [hpay, Nat.add_right_comm, Nat.add_assoc]⟩

theorem sendFrame_refused {width : UInt32} {frame : VideoFrame}
    {e : SendError} (h : s.frameHeader width height frame = .error e) (sessionOrigin sendAt : ℕ)
    (send : ℕ → Option UInt32) :
    s.sendFrame width height frame sessionOrigin sendAt send = (.error e, s, []) := by
  simp [sendFrame, h]

/-- An accepted frame takes the next id, whether or not all of its packets go
out, and every packet sent is its header, one of its chunks or its time
stamps. -/
theorem sendFrame_accepted {width : UInt32} {frame : VideoFrame}
    {header : FrameHeader} {encodedHeader : List UInt8}
    (h : s.frameHeader width height frame = .ok (header, encodedHeader))
    (sessionOrigin sendAt : ℕ) (send : ℕ → Option UInt32) :
    (s.sendFrame width height frame sessionOrigin sendAt send).2.1.frameId = header.frameId ∧
      ∀ p ∈ (s.sendFrame width height frame sessionOrigin sendAt send).2.2,
        (p.header.packetType = .frameHeader ∧ p.payload = encodedHeader) ∨
        (p.header.packetType = .frameChunk ∧ ∃ j bytes,
          (Chunks.chunks senderMaxVideoChunkBytes frame.data)[j]? = some bytes ∧
            p.payload = FrameChunk.toBytes ⟨header.frameId, UInt16.ofNat j, bytes⟩) ∨
        p.header.packetType = .ping := by
  have hhead := @mem_sendPacket { s with frameId := header.frameId } .frameHeader
    encodedHeader (send 0)
  have hheadId := sendPacket_frameId { s with frameId := header.frameId } .frameHeader
    encodedHeader (send 0)
  unfold sendFrame
  simp only [h]
  rcases hp : ({ s with frameId := header.frameId } : UdpSender).sendPacket .frameHeader
    encodedHeader (send 0) with ⟨e | u, s', out⟩
  · rw [hp] at hhead hheadId
    exact ⟨hheadId, fun p hin => Or.inl (hhead hin)⟩
  · rw [hp] at hhead hheadId
    obtain ⟨hchunkId, hchunk⟩ := sendChunks_spec header.frameId send 0
      (Chunks.chunks senderMaxVideoChunkBytes frame.data) s'
    simp only [Nat.zero_add] at hchunk
    dsimp only
    rcases hc : s'.sendChunks header.frameId send 0
      (Chunks.chunks senderMaxVideoChunkBytes frame.data) with ⟨e | u, s'', out'⟩
    · rw [hc] at hchunkId hchunk
      refine ⟨hchunkId.trans hheadId, fun p hin => ?_⟩
      rcases List.mem_append.mp hin with hin | hin
      · exact Or.inl (hhead hin)
      · exact Or.inr (Or.inl (hchunk p hin))
    · rw [hc] at hchunkId hchunk
      refine ⟨(sendPacket_frameId s'' _ _ _).trans (hchunkId.trans hheadId), fun p hin => ?_⟩
      rcases List.mem_append.mp hin with hin | hin
      · rcases List.mem_append.mp hin with hin | hin
        · exact Or.inl (hhead hin)
        · exact Or.inr (Or.inl (hchunk p hin))
      · exact Or.inr (Or.inr (mem_sendPacket hin).1)

end UdpSender
end MahoRD
