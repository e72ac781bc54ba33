/-
MahoRD/Host/LinuxEncoder.lean

The video encoder of the Linux host (`LinuxVideoEncoder` in `maho-host/src/encode_linux.rs`,
`LinuxSessionEncoder` in `session.rs`, `FrameTimes` in `native_pipeline.rs`).  It adopts the size of
the frames it is given: a frame of another size opens a new transform, and the packets of the old
one are drained before.

FFmpeg is behind `Ffmpeg`, its answers during one call.  A transform gives its packets off in the
order of the frames (`max_b_frames` is 0), as late as it likes.  Pixels and parameter sets are
left out; `size` of a packet is the size its transform was opened with, which the code does not
keep.
-/
import MahoRD.Host.VideoSender
import MahoRD.Lib.Table

namespace MahoRD.LinuxMedia

abbrev Size := UInt32 × UInt32

structure EncoderConfig where
  width : UInt32
  height : UInt32
  bitrate : ℕ
  fps : UInt32

/-- `ffmpeg` is whatever FFmpeg reports. -/
inductive EncodeError
  | invalidConfig | invalidFrame | ffmpeg

def EncoderConfig.size (c : EncoderConfig) : Size := (c.width, c.height)

def EncoderConfig.validate (c : EncoderConfig) : Except EncodeError EncoderConfig :=
  if c.width = 0 ∨ c.height = 0 ∨ c.fps = 0 ∨ c.bitrate = 0 then .error .invalidConfig
  else if c.width % 2 ≠ 0 ∨ c.height % 2 ≠ 0 then .error .invalidConfig
  else .ok c

/-- What FFmpeg does in one call: whether a transform opens, and the packets, each with its key
frame flag, that come out at the end of a stream and after a frame; `none` is an error. -/
structure Ffmpeg where
  opens : Bool
  drained : Option (List (List UInt8 × Bool))
  encoded : Option (List (List UInt8 × Bool))

structure EncodedFrame where
  data : List UInt8
  isKeyFrame : Bool
  pts : ℕ
  size : Size

/-- `held`: the frames in the transform, each with its time stamp and size. -/
structure LinuxVideoEncoder where
  config : EncoderConfig
  nextPts : ℕ
  forceKeyframe : Bool
  held : List (ℕ × Size)

namespace LinuxVideoEncoder

def new (config : EncoderConfig) (ff : Ffmpeg) : Except EncodeError LinuxVideoEncoder := do
  let config ← config.validate
  if ff.opens then pure ⟨config, 0, true, []⟩ else throw .ffmpeg

def receivePackets (held : List (ℕ × Size)) :
    Option (List (List UInt8 × Bool)) → Except EncodeError (List EncodedFrame × List (ℕ × Size))
  | none => .error .ffmpeg
  | some packets =>
    .ok ((held.zip packets).map fun (h, p) => ⟨p.1, p.2, h.1, h.2⟩, held.drop packets.length)

/-- A transform of this configuration replaces the present one. -/
def reopen (e : LinuxVideoEncoder) (config : EncoderConfig) (ff : Ffmpeg) :
    Except EncodeError (List EncodedFrame × LinuxVideoEncoder) := do
  if ff.opens then
    let (drained, _) ← receivePackets e.held ff.drained
    pure (drained, { e with config, forceKeyframe := true, held := [] })
  else throw .ffmpeg

def reconfigure (e : LinuxVideoEncoder) (width height : UInt32) (ff : Ffmpeg) :
    Except EncodeError (List EncodedFrame × LinuxVideoEncoder) := do
  if width = e.config.width ∧ height = e.config.height then pure ([], e)
  else
    let config ← EncoderConfig.validate { e.config with width, height }
    e.reopen config ff

def updateBitrate (e : LinuxVideoEncoder) (bitrate : ℕ) (ff : Ffmpeg) :
    Except EncodeError (List EncodedFrame × LinuxVideoEncoder) := do
  let config ← EncoderConfig.validate { e.config with bitrate }
  if bitrate = e.config.bitrate then pure ([], e) else e.reopen config ff

/-- A frame of `length` bytes with lines of `stride` bytes. -/
def encodeBgra (e : LinuxVideoEncoder) (length stride : ℕ) (ff : Ffmpeg) :
    Except EncodeError (List EncodedFrame × LinuxVideoEncoder) := do
  let rowBytes := e.config.width.toNat * 4
  let required := stride * e.config.height.toNat
  if 2 ^ 64 ≤ required ∨ stride < rowBytes ∨ length < required then throw .invalidFrame
  else
    let held := e.held ++ [(e.nextPts, e.config.size)]
    let (output, held) ← receivePackets held ff.encoded
    pure (output, { e with nextPts := e.nextPts + 1, forceKeyframe := false, held })

end LinuxVideoEncoder

/-! ### The encoder of a session -/

/-- `FrameTimes`: when the frames in the encoder were captured and submitted. -/
structure FrameTimes where
  pending : Table ℕ (ℕ × ℕ)
  nextPts : ℕ

def FrameTimes.submitted (t : FrameTimes) (captureAt encodeStartedAt : ℕ) : FrameTimes :=
  ⟨t.pending.insert t.nextPts (captureAt, encodeStartedAt), t.nextPts + 1⟩

structure LinuxRawFrame where
  length : ℕ
  stride : ℕ
  width : UInt32
  height : UInt32
  capturedAt : ℕ

structure LinuxSessionEncoder where
  encoder : LinuxVideoEncoder
  times : FrameTimes

inductive PipelineError
  | unknownInputPts (pts : ℕ)
  | bitrate (error : EncodeError)
  | resize (error : EncodeError)
  | encode (error : EncodeError)

/-- A frame of the session, with the size it was encoded with. -/
abbrev Encoded := VideoFrame × Size

namespace LinuxSessionEncoder

/-- Give the packets their times. -/
def timed (encodeCompletedAt : ℕ) :
    FrameTimes → List EncodedFrame → Except PipelineError (List Encoded × FrameTimes)
  | times, [] => .ok ([], times)
  | times, encoded :: rest =>
    match times.pending.lookup encoded.pts with
    | none => .error (.unknownInputPts encoded.pts)
    | some (captureAt, encodeStartedAt) => do
      let (frames, times) ← timed encodeCompletedAt
        { times with pending := times.pending.erase encoded.pts } rest
      pure ((⟨encoded.data, encoded.isKeyFrame, captureAt, encodeStartedAt, encodeCompletedAt⟩,
        encoded.size) :: frames, times)

def output (s : LinuxSessionEncoder) (frames : List EncodedFrame) (now : ℕ) :
    Except PipelineError (List Encoded × LinuxSessionEncoder) := do
  let (frames, times) ← timed now s.times frames
  pure (frames, { s with times })

def forceKeyframe (s : LinuxSessionEncoder) : LinuxSessionEncoder :=
  { s with encoder := { s.encoder with forceKeyframe := true } }

def bitrate (s : LinuxSessionEncoder) (bitrate : UInt32) (ff : Ffmpeg) (now : ℕ) :
    Except PipelineError (List Encoded × LinuxSessionEncoder) := do
  let (frames, encoder) ← (s.encoder.updateBitrate bitrate.toNat ff).mapError .bitrate
  output { s with encoder } frames now

/-- `start` and `now`: when the frame is submitted and when its packets are there. -/
def encode (s : LinuxSessionEncoder) (frame : LinuxRawFrame) (ff : Ffmpeg) (start now : ℕ) :
    Except PipelineError (List Encoded × LinuxSessionEncoder) := do
  let (frames, s) ←
    if (frame.width, frame.height) ≠ s.encoder.config.size then do
      -- capture resolution changed: adopt it
      let (drained, encoder) ←
        (s.encoder.reconfigure frame.width frame.height ff).mapError .resize
      output { s with encoder } drained start
    else pure ([], s)
  let times := s.times.submitted frame.capturedAt start
  let (encoded, encoder) ← (s.encoder.encodeBgra frame.length frame.stride ff).mapError .encode
  let (encoded, s) ← output { encoder, times } encoded now
  pure (frames ++ encoded, s)

end LinuxSessionEncoder

end MahoRD.LinuxMedia
