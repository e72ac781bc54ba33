/-
MahoRD/Host/EncoderReconfigure.lean

What is left of the encoder of a Linux host (`LinuxVideoEncoder` in
`maho-host/src/encode_linux.rs`) when a new bitrate or a new size is refused.  Here a call keeps the
encoder also where it fails, with the transform in whatever it is in then.

The replacement is opened before the present transform is drained, so that a transform that does not
open changes nothing.  Once the present one has been told of its end it takes no frame again
(`Ffmpeg.Ends`), whatever the rest of the drain comes to.
-/
import MahoRD.Host.EncoderPackets

namespace MahoRD.EncoderReconfigure

open Bitstream (VideoCodec EncodedFrame convert)
open LinuxPackets (EncodeError Sent)

inductive EncoderBackend
  | nvenc | vaapi | x264

structure EncoderConfig extends LinuxMedia.EncoderConfig where
  keyframeInterval : UInt32
  preferredCodec : VideoCodec

def EncoderConfig.validate (c : EncoderConfig) : Except EncodeError EncoderConfig :=
  match c.toEncoderConfig.validate with
  | .error e => .error (.encoder e)
  | .ok _ => .ok c

/-- The packets that are received one after the other, each with what the transform is in then, and
how that ends. -/
structure Received (σ : Type) where
  packets : List (Bitstream.Packet × σ)
  failed : Bool
  rest : σ

/-- FFmpeg; `σ` is what a transform is in.  What fails leaves it as it is. -/
structure Ffmpeg (σ : Type) where
  openNvenc : EncoderConfig → VideoCodec → Option σ
  openVaapi : EncoderConfig → VideoCodec → Option σ
  openX264 : EncoderConfig → Option σ
  sendFrame : σ → ℤ → Bool → Sent σ
  sendEof : σ → Option σ
  receive : σ → Received σ

/-- After the end of its stream a transform gives packets, and takes no more frames. -/
structure Ffmpeg.Ends {σ : Type} (ff : Ffmpeg σ) (ended : σ → Prop) : Prop where
  sendEof : ∀ s s', ff.sendEof s = some s' → ended s'
  packet : ∀ s, ended s → ∀ p ∈ (ff.receive s).packets, ended p.2
  rest : ∀ s, ended s → ended (ff.receive s).rest
  sendFrame : ∀ s, ended s → ∀ pts forced, ff.sendFrame s pts forced = .failed

structure OpenEncoder (σ : Type) where
  encoder : σ
  backend : EncoderBackend
  codec : VideoCodec

structure LinuxVideoEncoder (σ : Type) where
  config : EncoderConfig
  opened : OpenEncoder σ
  nextPts : ℤ
  forceKeyframe : Bool
  parameterSets : List (List UInt8)

abbrev Answer := Except EncodeError (List EncodedFrame)

namespace LinuxVideoEncoder

variable {σ : Type} (ff : Ffmpeg σ)

def setTransform (e : LinuxVideoEncoder σ) (encoder : σ) : LinuxVideoEncoder σ :=
  { e with opened := { e.opened with encoder } }

/-- The packets up to the first that cannot be converted. -/
def convertAll (codec : VideoCodec) : List (List UInt8) → σ → List (Bitstream.Packet × σ) →
    Answer × List (List UInt8) × σ
  | parameterSets, s, [] => (.ok [], parameterSets, s)
  | parameterSets, _, (packet, s) :: packets =>
    match convert codec parameterSets packet with
    | (.error e, parameterSets) => (.error (.bitstream e), parameterSets, s)
    | (.ok frame, parameterSets) =>
      let (answer, kept) := convertAll codec parameterSets s packets
      (answer.map (frame :: ·), kept)

def receivePackets (e : LinuxVideoEncoder σ) : Answer × LinuxVideoEncoder σ :=
  let received := ff.receive e.opened.encoder
  match convertAll e.opened.codec e.parameterSets e.opened.encoder received.packets with
  | (.error error, parameterSets, s) => (.error error, { e.setTransform s with parameterSets })
  | (.ok frames, parameterSets, _) =>
    (if received.failed then .error (.encoder .ffmpeg) else .ok frames,
      { e.setTransform received.rest with parameterSets })

def drain (e : LinuxVideoEncoder σ) : Answer × LinuxVideoEncoder σ :=
  match ff.sendEof e.opened.encoder with
  | none => (.error (.encoder .ffmpeg), e)
  | some s => receivePackets ff (e.setTransform s)

/-- A transform as the present one is, for another configuration. -/
def replacement (e : LinuxVideoEncoder σ) (config : EncoderConfig) : Option (OpenEncoder σ) :=
  match e.opened.backend with
  | .nvenc => (ff.openNvenc config e.opened.codec).map (⟨·, .nvenc, e.opened.codec⟩)
  | .vaapi => (ff.openVaapi config e.opened.codec).map (⟨·, .vaapi, e.opened.codec⟩)
  | .x264 => (ff.openX264 config).map (⟨·, .x264, .h264⟩)

def reopen (e : LinuxVideoEncoder σ) (config : EncoderConfig) : Answer × LinuxVideoEncoder σ :=
  match replacement ff e config with
  | none => (.error (.encoder .ffmpeg), e)
  | some opened =>
    match drain ff e with
    | (.error error, e) => (.error error, e)
    | (.ok drained, e) =>
      (.ok drained, { e with opened, config, parameterSets := [], forceKeyframe := true })

def reconfigure (e : LinuxVideoEncoder σ) (width height : UInt32) :
    Answer × LinuxVideoEncoder σ :=
  if width = e.config.width ∧ height = e.config.height then (.ok [], e)
  else
    match EncoderConfig.validate { e.config with width, height } with
    | .error error => (.error error, e)
    | .ok config => reopen ff e config

def updateBitrate (e : LinuxVideoEncoder σ) (bitrate : ℕ) : Answer × LinuxVideoEncoder σ :=
  match EncoderConfig.validate { e.config with bitrate } with
  | .error error => (.error error, e)
  | .ok config => if bitrate = e.config.bitrate then (.ok [], e) else reopen ff e config

/-- The frame goes to the transform, once more if its output has to be taken first. -/
def submit (e : LinuxVideoEncoder σ) (pts : ℤ) : Answer × LinuxVideoEncoder σ :=
  match ff.sendFrame e.opened.encoder pts e.forceKeyframe with
  | .failed => (.error (.encoder .ffmpeg), e)
  | .accepted s => receivePackets ff { e.setTransform s with forceKeyframe := false }
  | .again s =>
    match receivePackets ff (e.setTransform s) with
    | (.error error, e) => (.error error, e)
    | (.ok output, e) =>
      match ff.sendFrame e.opened.encoder pts e.forceKeyframe with
      | .failed => (.error (.encoder .ffmpeg), e)
      | .again s => (.error (.encoder .ffmpeg), e.setTransform s)
      | .accepted s =>
        let (more, e) := receivePackets ff { e.setTransform s with forceKeyframe := false }
        (more.map (output ++ ·), e)

/-- A frame of `length` bytes with lines of `stride` bytes.  `prepared` tells whether it could be
converted for the transform. -/
def encodeBgra (e : LinuxVideoEncoder σ) (length stride : ℕ) (prepared : Bool) :
    Answer × LinuxVideoEncoder σ :=
  let rowBytes := e.config.width.toNat * 4
  let required := stride * e.config.height.toNat
  if 2 ^ 64 ≤ required ∨ stride < rowBytes ∨ length < required then
    (.error (.encoder .invalidFrame), e)
  else
    let pts := e.nextPts
    let e := { e with nextPts := e.nextPts + 1 }
    if prepared then submit ff e pts else (.error (.encoder .ffmpeg), e)

end LinuxVideoEncoder

/-- What is asked of a running encoder. -/
inductive Request
  | bitrate (value : ℕ)
  | size (width height : UInt32)

namespace Request

def config (c : EncoderConfig) : Request → EncoderConfig
  | .bitrate value => { c with bitrate := value }
  | .size width height => { c with width, height }

def apply {σ : Type} (ff : Ffmpeg σ) (e : LinuxVideoEncoder σ) :
    Request → Answer × LinuxVideoEncoder σ
  | .bitrate value => e.updateBitrate ff value
  | .size width height => e.reconfigure ff width height

end Request

section

variable {σ : Type} {ff : Ffmpeg σ} {ended : σ → Prop} {e e' : LinuxVideoEncoder σ}
  {answer : Answer} {error : EncodeError} {request : Request}

/-- There is a frame that the encoder encodes. -/
def Able (ff : Ffmpeg σ) (e : LinuxVideoEncoder σ) : Prop :=
  ∃ length stride frames e', e.encodeBgra ff length stride true = (.ok frames, e')

/-- The request is refused before the present transform is told of its end. -/
def Refused (ff : Ffmpeg σ) (e : LinuxVideoEncoder σ) (request : Request) : Prop :=
  (∃ error, (request.config e.config).validate = .error error) ∨
    e.replacement ff (request.config e.config) = none ∨ ff.sendEof e.opened.encoder = none

/-- The encoder goes on as before. -/
structure GoesOn (ff : Ffmpeg σ) (e e' : LinuxVideoEncoder σ) : Prop where
  config : e'.config = e.config
  parameterSets : e'.parameterSets = e.parameterSets
  forceKeyframe : e'.forceKeyframe = e.forceKeyframe
  able : Able ff e'

/-! ### The end of a stream -/

namespace LinuxVideoEncoder

theorem ended_convertAll (codec : VideoCodec) {packets : List (Bitstream.Packet × σ)}
    (hpackets : ∀ p ∈ packets, ended p.2) :
    ∀ (parameterSets : List (List UInt8)) {s : σ}, ended s →
      ended (convertAll codec parameterSets s packets).2.2 := by
  induction packets with
  | nil => exact fun _ _ hs => hs
  | cons p packets ih =>
    intro parameterSets s _
    have hp : ended p.2 := hpackets p List.mem_cons_self
    rw [convertAll]
    split
    · exact hp
    · exact ih (fun q hq => hpackets q (List.mem_cons_of_mem _ hq)) _ hp

theorem ended_receivePackets (hends : ff.Ends ended) (h : ended e.opened.encoder) :
    ended (e.receivePackets ff).2.opened.encoder := by
  have hconvert := ended_convertAll e.opened.codec (hends.packet _ h) e.parameterSets h
  rw [receivePackets]
  simp only
  split
  next heq =>
    rw [heq] at hconvert
    exact hconvert
  · exact hends.rest _ h

theorem drain_failed (hends : ff.Ends ended) (h : e.drain ff = (.error error, e')) :
    ff.sendEof e.opened.encoder = none ∧ e' = e ∨
      ff.sendEof e.opened.encoder ≠ none ∧ ended e'.opened.encoder := by
  rw [drain] at h
  split at h
  next hnone =>
    cases h
    exact .inl ⟨hnone, rfl⟩
  next s hsome =>
    have hended := ended_receivePackets (e := e.setTransform s) hends (hends.sendEof _ _ hsome)
    rw [h] at hended
    rw [hsome]
    exact .inr ⟨Option.some_ne_none s, hended⟩

theorem not_able_of_ended (hends : ff.Ends ended) (h : ended e.opened.encoder) : ¬ Able ff e := by
  rintro ⟨length, stride, frames, e', hencode⟩
  simp only [encodeBgra] at hencode
  split_ifs at hencode
  · cases hencode
  · have hsend := hends.sendFrame _ h e.nextPts e.forceKeyframe
    simp only [submit, hsend] at hencode
    cases hencode

theorem reopen_failed (hends : ff.Ends ended) {config : EncoderConfig}
    (h : e.reopen ff config = (.error error, e')) :
    (e.replacement ff config = none ∨ ff.sendEof e.opened.encoder = none) ∧ e' = e ∨
      ¬(e.replacement ff config = none ∨ ff.sendEof e.opened.encoder = none) ∧
        ended e'.opened.encoder := by
  rw [reopen] at h
  split at h
  next hnone =>
    cases h
    exact .inl ⟨.inl hnone, rfl⟩
  next opened hopened =>
    split at h
    next error₁ e₁ hdrain =>
      cases h
      rcases drain_failed hends hdrain with ⟨heof, heq⟩ | ⟨heof, hended⟩
      · exact .inl ⟨.inr heof, heq⟩
      · refine .inr ⟨?_, hended⟩
        rintro (hnone | hnone)
        · rw [hopened] at hnone
          cases hnone
        · exact heof hnone
    · cases h

end LinuxVideoEncoder

theorem validate_eq {c c' : EncoderConfig} (h : c.validate = .ok c') : c' = c := by
  rw [EncoderConfig.validate] at h
  split at h
  · cases h
  · exact (Except.ok.inj h).symm

theorem apply_failed (hends : ff.Ends ended) (h : request.apply ff e = (.error error, e')) :
    Refused ff e request ∧ e' = e ∨ ¬ Refused ff e request ∧ ended e'.opened.encoder := by
  have hrequest : (∃ error, (request.config e.config).validate = .error error) ∧ e' = e ∨
      (request.config e.config).validate = .ok (request.config e.config) ∧
        e.reopen ff (request.config e.config) = (.error error, e') := by
    cases request with
    | bitrate bitrate =>
      replace h : e.updateBitrate ff bitrate = (.error error, e') := h
      rw [LinuxVideoEncoder.updateBitrate] at h
      split at h
      next invalid hvalidate =>
        cases h
        exact .inl ⟨⟨_, hvalidate⟩, rfl⟩
      next config hvalidate =>
        obtain rfl := validate_eq hvalidate
        split_ifs at h
        · cases h
        · exact .inr ⟨hvalidate, h⟩
    | size width height =>
      replace h : e.reconfigure ff width height = (.error error, e') := h
      rw [LinuxVideoEncoder.reconfigure] at h
      split_ifs at h
      · cases h
      · split at h
        next invalid hvalidate =>
          cases h
          exact .inl ⟨⟨_, hvalidate⟩, rfl⟩
        next config hvalidate =>
          obtain rfl := validate_eq hvalidate
          exact .inr ⟨hvalidate, h⟩
  rcases hrequest with ⟨hinvalid, heq⟩ | ⟨hvalid, hreopen⟩
  · exact .inl ⟨.inl hinvalid, heq⟩
  · rcases LinuxVideoEncoder.reopen_failed hends hreopen with ⟨hrefused, heq⟩ | ⟨hrefused, hended⟩
    · exact .inl ⟨.inr hrefused, heq⟩
    · refine .inr ⟨?_, hended⟩
      rintro (⟨_, hinvalid⟩ | hother)
      · rw [hvalid] at hinvalid
        cases hinvalid
      · exact hrefused hother

/-- **A request that fails leaves the encoder going on as before if and only if it is refused before
the transform is told of its end**, and then it changes nothing at all. -/
theorem reconfiguration_refused (hends : ff.Ends ended)
    (h : request.apply ff e = (.error error, e')) :
    (Refused ff e request → e' = e) ∧
      (Able ff e → (GoesOn ff e e' ↔ Refused ff e request)) := by
  rcases apply_failed hends h with ⟨hrefused, rfl⟩ | ⟨hrefused, hended⟩
  · exact ⟨fun _ => rfl, fun hable => ⟨fun _ => hrefused, fun _ => ⟨rfl, rfl, rfl, hable⟩⟩⟩
  · refine ⟨fun hcontra => (hrefused hcontra).elim, fun _ => ⟨fun hgoes => ?_, fun hcontra => ?_⟩⟩
    · exact (LinuxVideoEncoder.not_able_of_ended hends hended hgoes.able).elim
    · exact (hrefused hcontra).elim

end

/-- A transform that fails where it gives its last packets; it is in whether it has ended. -/
def faulty : Ffmpeg Bool where
  openNvenc _ _ := some false
  openVaapi _ _ := some false
  openX264 _ := some false
  sendFrame ended _ _ := if ended then .failed else .accepted false
  sendEof _ := some true
  receive ended := ⟨[], ended, ended⟩

theorem faulty_ends : faulty.Ends (· = true) where
  sendEof s s' h := (Option.some.inj h).symm
  packet s _ p hp := absurd hp List.not_mem_nil
  rest s h := h
  sendFrame s h pts forced := by
    rw [h]
    rfl

def running : LinuxVideoEncoder Bool :=
  ⟨⟨⟨2, 2, 100000, 30⟩, 300, .h264⟩, ⟨false, .nvenc, .h264⟩, 7, false, [[0x67], [0x68]]⟩

theorem reconfiguration_refused_faulty :
    GoesOn faulty running (running.updateBitrate faulty 200000).2 ↔
      Refused faulty running (.bitrate 200000) :=
  have h : (Request.bitrate 200000).apply faulty running =
      (.error (.encoder .ffmpeg), (running.updateBitrate faulty 200000).2) := rfl
  (reconfiguration_refused faulty_ends h).2 ⟨16, 8, [], _, rfl⟩

/-- The bitrate is refused, and no frame is encoded after that. -/
theorem bitrate_refused_late :
    Able faulty running ∧
      (running.updateBitrate faulty 200000).1 = .error (.encoder .ffmpeg) ∧
      ¬ Able faulty (running.updateBitrate faulty 200000).2 :=
  ⟨⟨16, 8, [], _, rfl⟩, rfl, LinuxVideoEncoder.not_able_of_ended faulty_ends rfl⟩

end MahoRD.EncoderReconfigure
