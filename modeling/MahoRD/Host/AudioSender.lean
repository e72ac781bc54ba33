/-
MahoRD/Host/AudioSender.lean

The sender of audio (`UdpSender::send_audio` in `maho-host/src/session.rs`): a
block of bytes becomes the packets of its fragments.

The id of the block is taken before the fragments are counted, so a block that is
refused for its size uses one.  A send that fails ends the block.
-/
import MahoRD.App.Audio
import MahoRD.Host.VideoSender
import MahoRD.Proto.WireFormats

namespace MahoRD

/-- `SENDER_MAX_AUDIO_FRAGMENT_BYTES`. -/
def senderMaxAudioFragmentBytes : ℕ := 1152

/-- The sender with its counter of audio blocks. -/
structure AudioSender extends UdpSender where
  audioFrameId : UInt32

/-- The audio of the client's `handle_packet`, decoded. -/
def Packet.audio (p : Packet) : Option AudioFragment :=
  match p.header.packetType with
  | .audioFrame =>
    match AudioFragment.decode p.payload with
    | .error _ => none
    | .ok fragment => some fragment
  | _ => none

namespace AudioSender

/-- Send the fragments from index `index` on. -/
def sendFragments (s : AudioSender) (fragmentCount : UInt16) (send : ℕ → Option UInt32) :
    (index : ℕ) → List (List UInt8) → Except SendError Unit × AudioSender × List Packet
  | _, [] => (.ok (), s, [])
  | index, data :: rest =>
    let header : AudioFragmentHeader := ⟨s.audioFrameId, UInt16.ofNat index, fragmentCount⟩
    match header.toBytes with
    | .error e => (.error (.codec e), s, [])
    | .ok header =>
      match s.sendPacket .audioFrame (header ++ data) (send index) with
      | (.error e, udp, out) => (.error e, { s with toUdpSender := udp }, out)
      | (.ok (), udp, out) =>
        match sendFragments { s with toUdpSender := udp } fragmentCount send (index + 1) rest with
        | (r, s, out') => (r, s, out ++ out')

def sendAudio (s : AudioSender) (bytes : List UInt8) (send : ℕ → Option UInt32) :
    Except SendError Unit × AudioSender × List Packet :=
  if bytes = [] then (.ok (), s, [])
  else
    let s := { s with audioFrameId := s.audioFrameId + 1 }
    let fragmentCount := Chunks.count senderMaxAudioFragmentBytes bytes.length
    if 2 ^ 16 ≤ fragmentCount then
      (.error (.store "audio frame has too many fragments"), s, [])
    else
      s.sendFragments (UInt16.ofNat fragmentCount) send 0
        (Chunks.chunks senderMaxAudioFragmentBytes bytes)

/-! ### What is sent -/

/-- Bytes that `send_audio` sends: there are some, and not too many. -/
def Sendable (bytes : List UInt8) : Prop :=
  bytes ≠ [] ∧ Chunks.count senderMaxAudioFragmentBytes bytes.length < 2 ^ 16

instance (bytes : List UInt8) : Decidable (Sendable bytes) :=
  inferInstanceAs (Decidable (_ ∧ _))

theorem Sendable.count_pos {bytes : List UInt8} (h : Sendable bytes) :
    0 < Chunks.count senderMaxAudioFragmentBytes bytes.length := by
  have hlen := List.length_pos_iff.mpr h.1
  have hle := Chunks.le_count_mul (n := senderMaxAudioFragmentBytes) (by decide) bytes.length
  rcases Nat.eq_zero_or_pos (Chunks.count senderMaxAudioFragmentBytes bytes.length) with hz | hpos
  · rw [hz, Nat.zero_mul] at hle
    omega
  · exact hpos

/-- The block that the bytes are sent as. -/
def block (frameId : UInt32) (bytes : List UInt8) (h : Sendable bytes) : AudioBlock where
  frameId
  pieces := Chunks.chunks senderMaxAudioFragmentBytes bytes
  pos := by
    rw [Chunks.length_chunks]
    exact h.count_pos
  lt := by
    rw [Chunks.length_chunks]
    exact h.2

theorem flatten_block (frameId : UInt32) {bytes : List UInt8} (h : Sendable bytes) :
    (block frameId bytes h).pieces.flatten = bytes :=
  Chunks.flatten_chunks (by decide) bytes

theorem audio_packet (header : AudioFragmentHeader) {data : List UInt8}
    (hindex : header.fragmentIndex < header.fragmentCount)
    (hdata : data.length ≤ maxAudioFragmentBytes) :
    ∃ bytes, header.toBytes = .ok bytes ∧ ∀ sequence timestampMs flags,
      Packet.audio ⟨⟨.audioFrame, sequence, timestampMs, flags⟩, bytes ++ data⟩ =
        some ⟨header, data⟩ := by
  have hvalid : header.validate = .ok () := by
    have hzero : header.fragmentCount ≠ 0 := by
      intro hzero
      rw [hzero] at hindex
      exact UInt16.not_lt_zero hindex
    rw [AudioFragmentHeader.validate, if_neg hzero, if_neg (UInt16.not_le.mpr hindex)]
  obtain ⟨bytes, hbytes⟩ : ∃ bytes, header.toBytes = .ok bytes := by
    rw [AudioFragmentHeader.toBytes, hvalid]
    exact ⟨_, rfl⟩
  have hencode : AudioFragment.encode ⟨header, data⟩ = .ok (bytes ++ data) := by
    simp [AudioFragment.encode, AudioFragment.validate, AudioFragmentHeader.encode, hbytes, hvalid,
      Nat.not_lt.mpr hdata, bind, Except.bind, pure, Except.pure]
  refine ⟨bytes, hbytes, fun sequence timestampMs flags => ?_⟩
  show (match AudioFragment.decode (bytes ++ data) with
    | .error _ => none
    | .ok fragment => some fragment) = _
  rw [AudioFragment.decode_eq_ok.mpr hencode]

theorem sendFragments_sent (fragmentCount : UInt16) (stamp : ℕ → UInt32)
    {pieces : List (List UInt8)} (hlen : ∀ piece ∈ pieces, piece.length ≤ maxAudioFragmentBytes)
    (s : AudioSender) (index : ℕ) (hcount : index + pieces.length ≤ fragmentCount.toNat) :
    ∃ udp out,
      s.sendFragments fragmentCount (fun i => some (stamp i)) index pieces =
        (.ok (), { s with toUdpSender := udp }, out) ∧
      out.filterMap Packet.audio = (pieces.zipIdx index).map fun e =>
        ⟨⟨s.audioFrameId, UInt16.ofNat e.2, fragmentCount⟩, e.1⟩ := by
  induction pieces generalizing s index with
  | nil => exact ⟨s.toUdpSender, [], rfl, rfl⟩
  | cons data rest ih =>
    rw [List.length_cons] at hcount
    have hindex : UInt16.ofNat index < fragmentCount := by
      rw [UInt16.lt_iff_toNat_lt, UInt16.toNat_ofNat_of_lt']
      · omega
      · exact Nat.lt_trans (by omega) fragmentCount.toNat_lt
    obtain ⟨bytes, hbytes, hpacket⟩ := audio_packet
      ⟨s.audioFrameId, UInt16.ofNat index, fragmentCount⟩ hindex (hlen data (by simp))
    obtain ⟨udp, out, hrest, hout⟩ := ih (fun piece hpiece => hlen piece (.tail _ hpiece))
      { s with sequence := s.sequence + 1 } (index + 1) (by omega)
    refine ⟨udp, ⟨⟨.audioFrame, s.sequence + 1, stamp index, 0⟩, bytes ++ data⟩ :: out, ?_, ?_⟩
    · simp only [sendFragments, hbytes, UdpSender.sendPacket, hrest]
      rfl
    · rw [List.filterMap_cons_some (hpacket _ _ _), hout]
      rfl

/-- **A block that is sent** takes the next id, and the client reads its fragments. -/
theorem sendAudio_sent (s : AudioSender) {bytes : List UInt8} (h : Sendable bytes)
    (stamp : ℕ → UInt32) :
    ∃ udp out,
      s.sendAudio bytes (fun i => some (stamp i)) = (.ok (), ⟨udp, s.audioFrameId + 1⟩, out) ∧
      out.filterMap Packet.audio = (block (s.audioFrameId + 1) bytes h).fragments := by
  have hlen : ∀ piece ∈ Chunks.chunks senderMaxAudioFragmentBytes bytes,
      piece.length ≤ maxAudioFragmentBytes :=
    fun piece hpiece => (Chunks.length_le_of_mem hpiece).trans (by decide)
  have hcount : (UInt16.ofNat (Chunks.count senderMaxAudioFragmentBytes bytes.length)).toNat =
      Chunks.count senderMaxAudioFragmentBytes bytes.length := Nat.mod_eq_of_lt h.2
  obtain ⟨udp, out, hsent, hout⟩ := sendFragments_sent
    (UInt16.ofNat (Chunks.count senderMaxAudioFragmentBytes bytes.length)) stamp hlen { s with audioFrameId := s.audioFrameId + 1 } 0
    (by rw [hcount, Chunks.length_chunks, Nat.zero_add])
  refine ⟨udp, out, ?_, ?_⟩
  · rw [sendAudio, if_neg h.1]
    dsimp only
    rw [if_neg (Nat.not_le.mpr h.2)]
    exact hsent
  · rw [hout, AudioBlock.fragments]
    refine List.map_congr_left fun e _ => ?_
    simp [AudioBlock.fragment, AudioBlock.count, block]

/-- Bytes that are not sent: nothing goes out, and only a block too large takes an id. -/
theorem sendAudio_not_sent (s : AudioSender) {bytes : List UInt8} (h : ¬ Sendable bytes)
    (send : ℕ → Option UInt32) :
    (s.sendAudio bytes send).2.2 = [] ∧ (s.sendAudio bytes send).2.1 =
      if bytes = [] then s else { s with audioFrameId := s.audioFrameId + 1 } := by
  unfold sendAudio
  split
  · exact ⟨rfl, rfl⟩
  next hne =>
    dsimp only
    rw [if_pos (Nat.not_lt.mp fun hlt => h ⟨hne, hlt⟩)]
    exact ⟨rfl, rfl⟩

end AudioSender
end MahoRD
