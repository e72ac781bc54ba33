/-
MahoRD/Host/MediaRestart.lean

The Linux media pipelines of a session and its UDP sender thread (`maho-host/src/session.rs`,
`native_pipeline.rs`).  A pipeline has a capture thread, which leaves its latest frame in the
handoff, and an encoder thread (`run_encoder`), whose packets go through a channel of 16 events.
A StreamOptions request and a hotplug recovery start a pipeline and hand its receiver over
together with a size; the sender thread writes that size into the headers of the frames it gets
from this receiver.

A step is one operation on a handoff or a channel, or a call of the encoder.  Pipelines are named
by numbers.  What the session thread decides comes with the step, and a pipeline may be told to
stop at any time, so there are more runs here than sessions.  Audio and cursor events are left out.
-/
import MahoRD.Host.Housekeeping
import MahoRD.Host.LinuxEncoder

namespace MahoRD.LinuxMedia

/-! ### Pipelines -/

structure Controls where
  forceKeyframe : Bool
  bitrate : Option UInt32
  deriving DecidableEq

structure Work where
  frame : Option LinuxRawFrame
  controls : Controls

structure Handoff where
  frame : Option LinuxRawFrame
  controls : Controls
  stopped : Bool

def Controls.none : Controls := ⟨false, .none⟩

def Handoff.new : Handoff := ⟨none, Controls.none, false⟩

def Handoff.publish (h : Handoff) (frame : LinuxRawFrame) : Handoff :=
  if h.stopped then h else { h with frame := some frame }

def Handoff.control (h : Handoff) (forceKeyframe : Bool) (bitrate : Option UInt32) : Handoff :=
  if h.stopped then h
  else { h with controls :=
    ⟨h.controls.forceKeyframe || forceKeyframe, bitrate.or h.controls.bitrate⟩ }

def Handoff.stop (_ : Handoff) : Handoff := ⟨none, Controls.none, true⟩

def Handoff.reselect (h : Handoff) (work : Work) : Work × Handoff :=
  (⟨h.frame.or work.frame, ⟨work.controls.forceKeyframe || h.controls.forceKeyframe,
      h.controls.bitrate.or work.controls.bitrate⟩⟩,
    { h with frame := none, controls := Controls.none })

/-- Where the encoder thread is: before its encoder is there, before `next`, at the head of the
inner loop, before `reselect`, and after the inner loop. -/
inductive Pc
  | starting
  | next (encoder : LinuxSessionEncoder)
  | controls (encoder : LinuxSessionEncoder) (work : Work)
  | reselect (encoder : LinuxSessionEncoder) (work : Work)
  | submit (encoder : LinuxSessionEncoder) (work : Work)
  | ended

inductive MediaEvent
  | video (frame : Encoded)
  | error

/-- `source`: the configuration its encoder is opened with.  `outbox`: packets that the encoder
thread has yet to emit. -/
structure Pipeline where
  source : EncoderConfig
  scalePermille : UInt16
  handoff : Handoff
  pc : Pc
  outbox : List Encoded
  queue : List MediaEvent
  receiver : Bool

namespace Pipeline

def start (source : EncoderConfig) (scalePermille : UInt16) : Pipeline :=
  ⟨source, scalePermille, Handoff.new, .starting, [], [], true⟩

variable (p : Pipeline)

/-- One side of a frame at a scale. -/
def scaledSide (side : UInt32) (scalePermille : UInt16) : UInt32 :=
  (max ((side.toUInt64 * scalePermille.toUInt64 / 1000) &&& ~~~1) 2).toUInt32

/-- The capture thread gets a frame. -/
def capture (width height : UInt32) (length stride capturedAt : ℕ) : Pipeline :=
  let frame : LinuxRawFrame :=
    if p.scalePermille < 1000 then
      let w := scaledSide width p.scalePermille
      let h := scaledSide height p.scalePermille
      ⟨if width = 0 ∨ height = 0 then 0 else w.toNat * h.toNat * 4, w.toNat * 4, w, h, capturedAt⟩
    else ⟨length, stride, width, height, capturedAt⟩
  { p with handoff := p.handoff.publish frame }

/-- `native_media_error`. -/
def fail : Pipeline :=
  { p with
    handoff := p.handoff.stop
    pc := .ended
    queue := if p.receiver ∧ p.queue.length < 16 then p.queue ++ [.error] else p.queue }

/-- What a call of the encoder leaves. -/
def called (result : Except PipelineError (List Encoded × LinuxSessionEncoder))
    (pc : LinuxSessionEncoder → Pc) : Pipeline :=
  match result with
  | .error _ => p.fail
  | .ok (frames, encoder) => { p with outbox := frames, pc := pc encoder }

/-- The next operation of the encoder thread, once everything is emitted. -/
def turn (ff : Ffmpeg) (start now : ℕ) : Option Pipeline :=
  if p.outbox ≠ [] then none
  else
    match p.pc with
    | .starting =>
      match LinuxVideoEncoder.new p.source ff with
      | .error _ => some p.fail
      | .ok encoder => some { p with pc := .next ⟨encoder, ⟨∅, 0⟩⟩ }
    | .next encoder =>
      if p.handoff.stopped then some { p with pc := .ended }
      else if p.handoff.frame.isSome ∨ p.handoff.controls ≠ Controls.none then
        some { p with
          pc := .controls encoder ⟨p.handoff.frame, p.handoff.controls⟩
          handoff := { p.handoff with frame := none, controls := Controls.none } }
      else none
    | .controls encoder work =>
      match work.controls.bitrate with
      | none => some { p with pc := .reselect encoder work }
      | some bitrate =>
        let work := { work with controls := { work.controls with bitrate := none } }
        some (p.called (encoder.bitrate bitrate ff now) (.reselect · work))
    | .reselect encoder work =>
      if p.handoff.stopped then some { p with pc := .ended }
      else
        let (work, handoff) := p.handoff.reselect work
        some { p with
          handoff
          pc := if work.controls.bitrate = none then .submit encoder work
            else .controls encoder work }
    | .submit encoder work =>
      let encoder := if work.controls.forceKeyframe then encoder.forceKeyframe else encoder
      match work.frame with
      | none => some { p with pc := .next encoder }
      | some frame => some (p.called (encoder.encode frame ff start now) .next)
    | .ended => none

/-- The encoder thread emits a packet. -/
def emit : Option Pipeline :=
  match p.outbox with
  | [] => none
  | frame :: outbox =>
    if p.receiver then
      if p.queue.length < 16 then some { p with outbox, queue := p.queue ++ [.video frame] }
      else none
    else some { p with outbox := [], handoff := p.handoff.stop, pc := .ended }

end Pipeline

/-! ### The session -/

structure Sender where
  receiver : ℕ
  pixelWidth : UInt32
  pixelHeight : UInt32
  udp : UdpSender

/-- `sent`: the headers sent so far, each with the size its frame was encoded with. -/
structure State where
  display : Size
  pipelines : ℕ → Option Pipeline
  started : Bool
  mediaReceiver : Option ℕ
  streamDims : Size
  swaps : List (ℕ × Size)
  sender : Option Sender
  sent : List (FrameHeader × Size)

namespace State

/-- `display`: the size of the host's display when it was configured. -/
def init (display : Size) : State := ⟨display, fun _ => none, false, none, display, [], none, []⟩

variable (s : State)

def setPipeline (i : ℕ) (p : Pipeline) : State :=
  { s with pipelines := Function.update s.pipelines i (some p) }

/-- A pipeline is started and handed over with its size. -/
def restart (i : ℕ) (source : EncoderConfig) (scalePermille : UInt16) : State :=
  let s := s.setPipeline i (Pipeline.start source scalePermille)
  if s.sender.isSome then { s with swaps := s.swaps ++ [(i, source.size)] }
  else { s with mediaReceiver := some i, streamDims := source.size }

/-- The sender thread drops its receiver. -/
def dropReceiver (i : ℕ) : State :=
  match s.pipelines i with
  | none => s
  | some p => s.setPipeline i { p with receiver := false, queue := [] }

/-- The sender thread takes a frame from its receiver.  `send`: what becomes of its packets. -/
def sendVideo (t : Sender) (i : ℕ) (p : Pipeline) (frame : Encoded) (queue : List MediaEvent)
    (origin sendAt : ℕ) (send : ℕ → Option UInt32) : State :=
  let s := s.setPipeline i { p with queue }
  let udp := (t.udp.sendFrame t.pixelWidth t.pixelHeight frame.1 origin sendAt send).2.1
  { s with
    sender := some { t with udp }
    sent :=
      match t.udp.frameHeader t.pixelWidth t.pixelHeight frame.1, send 0 with
      | .ok (header, _), some _ => s.sent ++ [(header, frame.2)]
      | _, _ => s.sent }

end State

/-- `options` and `hotplug`: the two ways to a new pipeline, which cut the size in different
places.  `swap`: the sender thread takes what was handed over. -/
inductive Label
  | authenticated (i : ℕ) (bitrate fps : UInt32)
  | spawnSender
  | options (i : ℕ) (width height : UInt32) (scalePermille : UInt16) (bitrate fps : UInt32)
  | hotplug (i : ℕ) (width height : UInt32) (scalePermille : UInt16) (bitrate fps : UInt32)
  | stop (i : ℕ)
  | control (i : ℕ) (forceKeyframe : Bool) (bitrate : Option UInt32)
  | capture (i : ℕ) (width height : UInt32) (length stride capturedAt : ℕ)
  | turn (i : ℕ) (ff : Ffmpeg) (start now : ℕ)
  | emit (i : ℕ)
  | swap
  | send (origin sendAt : ℕ) (send : ℕ → Option UInt32)

def step (s : State) : Label → Option State
  | .authenticated i bitrate fps =>
    if s.started then none
    else
      let source : EncoderConfig := ⟨s.display.1, s.display.2, bitrate.toNat, max fps 1⟩
      some { s.setPipeline i (Pipeline.start source 1000) with
        started := true, mediaReceiver := some i }
  | .spawnSender =>
    match s.sender, s.mediaReceiver with
    | none, some i => some { s with
        mediaReceiver := none
        sender := some ⟨i, s.streamDims.1, s.streamDims.2, UdpSender.new⟩ }
    | _, _ => none
  | .options i width height scalePermille bitrate fps =>
    if s.started ∧ s.pipelines i = none then
      some (s.restart i ⟨Pipeline.scaledSide width scalePermille,
        Pipeline.scaledSide height scalePermille, bitrate.toNat, max fps 1⟩ scalePermille)
    else none
  | .hotplug i width height scalePermille bitrate fps =>
    if s.started ∧ s.pipelines i = none then
      some (s.restart i ⟨Host.recoveredSide width scalePermille, Host.recoveredSide height scalePermille,
        bitrate.toNat, max fps 1⟩ scalePermille)
    else none
  | .stop i => (s.pipelines i).map fun p => s.setPipeline i { p with handoff := p.handoff.stop }
  | .control i forceKeyframe bitrate => (s.pipelines i).map fun p =>
      s.setPipeline i { p with handoff := p.handoff.control forceKeyframe bitrate }
  | .capture i width height length stride capturedAt => (s.pipelines i).map fun p =>
      s.setPipeline i (p.capture width height length stride capturedAt)
  | .turn i ff start now => (s.pipelines i).bind fun p =>
      (p.turn ff start now).map (s.setPipeline i)
  | .emit i => (s.pipelines i).bind fun p => p.emit.map (s.setPipeline i)
  | .swap =>
    match s.sender, s.swaps with
    | some t, (i, size) :: swaps => some { s.dropReceiver t.receiver with
        swaps
        sender := some { t with receiver := i, pixelWidth := size.1, pixelHeight := size.2 } }
    | _, _ => none
  | .send origin sendAt send =>
    match s.sender with
    | none => none
    | some t =>
      (s.pipelines t.receiver).bind fun p =>
        match p.queue with
        | [] => none
        | .error :: queue => some (s.setPipeline t.receiver { p with queue })
        | .video frame :: queue =>
          some (s.sendVideo t t.receiver p frame queue origin sendAt send)

end MahoRD.LinuxMedia
