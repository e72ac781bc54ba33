/-
MahoRD/Host/EncoderPackets.lean

The times of encoded frames (`LinuxSessionEncoder` in `maho-host/src/session.rs`, `FrameTimes` and
`run_encoder` in `native_pipeline.rs`, `LinuxVideoEncoder` in `encode_linux.rs`), for a transform
that gives its packets in any order and as late as it likes, or never, as long as it copies the time
stamps (`CopiesPts`).

Two counters give the stamps: that of the encoder, which the transform is told, and that of
`FrameTimes`, under which the times are kept.
-/
import MahoRD.Host.Bitstream
import MahoRD.Host.LinuxEncoder

namespace MahoRD.LinuxPackets

open Bitstream (VideoCodec EncodedFrame convert)
open LinuxMedia (EncoderConfig LinuxRawFrame)
open scoped List

inductive EncodeError
  | encoder (error : LinuxMedia.EncodeError)
  | bitstream (error : Bitstream.EncodeError)

/-! ### The transform -/

/-- What becomes of a frame that is sent to a transform. -/
inductive Sent (σ : Type)
  | accepted (transform : σ)
  /-- `EAGAIN` -/
  | again (transform : σ)
  | failed

/-- The packets that a transform gives until it has no more, or fails. -/
structure Received (σ : Type) where
  packets : List Bitstream.Packet
  failed : Bool
  rest : σ

/-- The encoders of FFmpeg, `σ` is what they are in. -/
structure Transform (σ : Type) where
  opens : EncoderConfig → VideoCodec → Option σ
  sendFrame : σ → ℤ → Bool → Sent σ
  sendEof : σ → Option σ
  receive : σ → Received σ

/-- The stamps of `inside` are those that a transform has been sent and may still give: each of
them once, in any order. -/
structure Transform.CopiesPts {σ : Type} (t : Transform σ) (inside : σ → List ℤ) : Prop where
  opens : ∀ config codec s, t.opens config codec = some s → inside s = []
  accepted : ∀ s pts forced s', t.sendFrame s pts forced = .accepted s' →
    (inside s').Subperm (pts :: inside s)
  again : ∀ s pts forced s', t.sendFrame s pts forced = .again s' →
    (inside s').Subperm (inside s)
  sendEof : ∀ s s', t.sendEof s = some s' → (inside s').Subperm (inside s)
  receive : ∀ s, ((t.receive s).packets.filterMap Bitstream.Packet.pts ++ inside (t.receive s).rest).Subperm
    (inside s)

/-! ### The encoder -/

structure LinuxVideoEncoder (σ : Type) where
  config : EncoderConfig
  codec : VideoCodec
  transform : σ
  nextPts : ℤ
  forceKeyframe : Bool
  parameterSets : List (List UInt8)

/-- The packets one after the other. -/
def convertAll (codec : VideoCodec) : List (List UInt8) → List Bitstream.Packet →
    Except EncodeError (List EncodedFrame × List (List UInt8))
  | parameterSets, [] => .ok ([], parameterSets)
  | parameterSets, packet :: packets =>
    match convert codec parameterSets packet with
    | (.error e, _) => .error (.bitstream e)
    | (.ok frame, parameterSets) => do
      let (frames, parameterSets) ← convertAll codec parameterSets packets
      pure (frame :: frames, parameterSets)

namespace LinuxVideoEncoder

variable {σ : Type} (t : Transform σ)

def new (config : EncoderConfig) (codec : VideoCodec) :
    Except EncodeError (LinuxVideoEncoder σ) := do
  let config ← config.validate.mapError .encoder
  match t.opens config codec with
  | none => .error (.encoder .ffmpeg)
  | some transform => pure ⟨config, codec, transform, 0, true, []⟩

def receivePackets (e : LinuxVideoEncoder σ) :
    Except EncodeError (List EncodedFrame × LinuxVideoEncoder σ) := do
  let received := t.receive e.transform
  let (frames, parameterSets) ← convertAll e.codec e.parameterSets received.packets
  if received.failed then throw (.encoder .ffmpeg)
  else pure (frames, { e with transform := received.rest, parameterSets })

def drain (e : LinuxVideoEncoder σ) :
    Except EncodeError (List EncodedFrame × LinuxVideoEncoder σ) :=
  match t.sendEof e.transform with
  | none => .error (.encoder .ffmpeg)
  | some transform => receivePackets t { e with transform }

/-- A transform of this configuration replaces the present one. -/
def reopen (e : LinuxVideoEncoder σ) (config : EncoderConfig) :
    Except EncodeError (List EncodedFrame × LinuxVideoEncoder σ) :=
  match t.opens config e.codec with
  | none => .error (.encoder .ffmpeg)
  | some transform => do
    let (drained, e) ← drain t e
    pure (drained, { e with config, transform, parameterSets := [], forceKeyframe := true })

def reconfigure (e : LinuxVideoEncoder σ) (width height : UInt32) :
    Except EncodeError (List EncodedFrame × LinuxVideoEncoder σ) := do
  if width = e.config.width ∧ height = e.config.height then pure ([], e)
  else
    let config ← (EncoderConfig.validate { e.config with width, height }).mapError .encoder
    reopen t e config

def updateBitrate (e : LinuxVideoEncoder σ) (bitrate : ℕ) :
    Except EncodeError (List EncodedFrame × LinuxVideoEncoder σ) := do
  let config ← (EncoderConfig.validate { e.config with bitrate }).mapError .encoder
  if bitrate = e.config.bitrate then pure ([], e) else reopen t e config

/-- The frame goes to the transform, once more if its output has to be taken first. -/
def submit (e : LinuxVideoEncoder σ) (pts : ℤ) :
    Except EncodeError (List EncodedFrame × LinuxVideoEncoder σ) :=
  match t.sendFrame e.transform pts e.forceKeyframe with
  | .failed => .error (.encoder .ffmpeg)
  | .accepted transform => receivePackets t { e with transform, forceKeyframe := false }
  | .again transform => do
    let (output, e) ← receivePackets t { e with transform }
    match t.sendFrame e.transform pts e.forceKeyframe with
    | .accepted transform =>
      let (more, e) ← receivePackets t { e with transform, forceKeyframe := false }
      pure (output ++ more, e)
    | _ => throw (.encoder .ffmpeg)

/-- A frame of `length` bytes with lines of `stride` bytes.  `prepared` tells whether it could be
converted for the transform. -/
def encodeBgra (e : LinuxVideoEncoder σ) (length stride : ℕ) (prepared : Bool) :
    Except EncodeError (List EncodedFrame × LinuxVideoEncoder σ) :=
  let rowBytes := e.config.width.toNat * 4
  let required := stride * e.config.height.toNat
  if 2 ^ 64 ≤ required ∨ stride < rowBytes ∨ length < required then .error (.encoder .invalidFrame)
  else
    let pts := e.nextPts
    let e := { e with nextPts := e.nextPts + 1 }
    if prepared then submit t e pts else .error (.encoder .ffmpeg)

end LinuxVideoEncoder

/-! ### The session -/

/-- When the frames in the encoder were captured and submitted. -/
structure FrameTimes where
  pending : Table ℤ (ℕ × ℕ)
  nextPts : ℤ

namespace FrameTimes

def new : FrameTimes := ⟨∅, 0⟩

def submitted (times : FrameTimes) (captureAt encodeStartedAt : ℕ) : FrameTimes :=
  ⟨times.pending.insert times.nextPts (captureAt, encodeStartedAt), times.nextPts + 1⟩

def take (times : FrameTimes) (pts : ℤ) : Option (ℕ × ℕ) × FrameTimes :=
  (times.pending.lookup pts, { times with pending := times.pending.erase pts })

end FrameTimes

/-- `sent`: the frames submitted so far, each under the stamp that the encoder gave it, with its
times.  The code does not keep it. -/
structure LinuxSessionEncoder (σ : Type) where
  encoder : LinuxVideoEncoder σ
  times : FrameTimes
  sent : List (ℤ × ℕ × ℕ)

inductive SessionError
  | unknownInputPts (pts : ℤ)
  | bitrate (error : EncodeError)
  | resize (error : EncodeError)
  | encode (error : EncodeError)

/-- A frame of the session, with the stamp of its packet, which the code does not keep. -/
structure Output where
  pts : ℤ
  frame : VideoFrame

/-- Give the packets their times. -/
def timed (encodeCompletedAt : ℕ) :
    FrameTimes → List EncodedFrame → Except SessionError (List Output × FrameTimes)
  | times, [] => .ok ([], times)
  | times, encoded :: frames =>
    match times.take encoded.pts with
    | (none, _) => .error (.unknownInputPts encoded.pts)
    | (some (captureAt, encodeStartedAt), times) => do
      let (outputs, times) ← timed encodeCompletedAt times frames
      pure (⟨encoded.pts,
        ⟨encoded.data, encoded.isKeyFrame, captureAt, encodeStartedAt, encodeCompletedAt⟩⟩ ::
          outputs, times)

/-- A frame with when it is submitted and when its packets are there. -/
structure Submission where
  frame : LinuxRawFrame
  prepared : Bool
  start : ℕ
  now : ℕ

namespace LinuxSessionEncoder

variable {σ : Type} (t : Transform σ)

def new (config : EncoderConfig) (codec : VideoCodec) :
    Except EncodeError (LinuxSessionEncoder σ) := do
  let encoder ← LinuxVideoEncoder.new t config codec
  pure ⟨encoder, .new, []⟩

def output (s : LinuxSessionEncoder σ) (frames : List EncodedFrame) (now : ℕ) :
    Except SessionError (List Output × LinuxSessionEncoder σ) := do
  let (outputs, times) ← timed now s.times frames
  pure (outputs, { s with times })

def forceKeyframe (s : LinuxSessionEncoder σ) : LinuxSessionEncoder σ :=
  { s with encoder := { s.encoder with forceKeyframe := true } }

def bitrate (s : LinuxSessionEncoder σ) (bitrate : UInt32) (now : ℕ) :
    Except SessionError (List Output × LinuxSessionEncoder σ) := do
  let (frames, encoder) ← (s.encoder.updateBitrate t bitrate.toNat).mapError .bitrate
  output { s with encoder } frames now

/-- The size of the frame is adopted. -/
def resize (s : LinuxSessionEncoder σ) (frame : LinuxRawFrame) (now : ℕ) :
    Except SessionError (List Output × LinuxSessionEncoder σ) := do
  if (frame.width, frame.height) ≠ s.encoder.config.size then
    let (drained, encoder) ← (s.encoder.reconfigure t frame.width frame.height).mapError .resize
    output { s with encoder } drained now
  else pure ([], s)

/-- The times are recorded, and the encoder is given the frame. -/
def submit (s : LinuxSessionEncoder σ) (x : Submission) :
    Except SessionError (List Output × LinuxSessionEncoder σ) := do
  let times := s.times.submitted x.frame.capturedAt x.start
  let sent := s.sent ++ [(s.encoder.nextPts, x.frame.capturedAt, x.start)]
  let (encoded, encoder) ←
    (s.encoder.encodeBgra t x.frame.length x.frame.stride x.prepared).mapError .encode
  output { encoder, times, sent } encoded x.now

def encode (s : LinuxSessionEncoder σ) (x : Submission) :
    Except SessionError (List Output × LinuxSessionEncoder σ) := do
  let (frames, s) ← s.resize t x.frame x.start
  let (encoded, s) ← s.submit t x
  pure (frames ++ encoded, s)

end LinuxSessionEncoder

/-! ### The loop -/

/-- What the loop asks the encoder for. -/
inductive Call
  | bitrate (bitrate : UInt32) (now : ℕ)
  | forceKeyframe
  | encode (x : Submission)

/-- One turn of the loop: the bitrates until there is none, then what the work has. -/
structure Turn where
  bitrates : List (UInt32 × ℕ)
  forceKeyframe : Bool
  frame : Option Submission

def Turn.calls (turn : Turn) : List Call :=
  turn.bitrates.map (fun b => .bitrate b.1 b.2) ++
    ((if turn.forceKeyframe then [.forceKeyframe] else []) ++
      turn.frame.toList.map .encode)

variable {σ : Type}

def call (t : Transform σ) (s : LinuxSessionEncoder σ) :
    Call → Except SessionError (List Output × LinuxSessionEncoder σ)
  | .bitrate bitrate now => s.bitrate t bitrate now
  | .forceKeyframe => .ok ([], s.forceKeyframe)
  | .encode x => s.encode t x

/-- The calls up to the first error: what they emit, the encoder after the last that succeeds, and
the error. -/
def runCalls (t : Transform σ) (s : LinuxSessionEncoder σ) :
    List Call → List Output × LinuxSessionEncoder σ × Option SessionError
  | [] => ([], s, none)
  | c :: calls =>
    match call t s c with
    | .error e => ([], s, some e)
    | .ok (outputs, s) =>
      let (more, rest) := runCalls t s calls
      (outputs ++ more, rest)

/-- `run_encoder`, from an encoder that has just been made. -/
def runEncoder (t : Transform σ) (s : LinuxSessionEncoder σ) (turns : List Turn) :
    List Output × LinuxSessionEncoder σ × Option SessionError :=
  runCalls t s (turns.flatMap Turn.calls)

/-! ### Stamps -/

theorem bind_eq_ok {ε α β : Type} {x : Except ε α} {f : α → Except ε β} {b : β}
    (h : x.bind f = .ok b) : ∃ a, x = .ok a ∧ f a = .ok b := by
  cases x with
  | error e => cases h
  | ok a => exact ⟨a, rfl, h⟩

theorem convert_pts {codec : VideoCodec} {parameterSets kept : List (List UInt8)}
    {packet : Bitstream.Packet} {frame : EncodedFrame}
    (h : convert codec parameterSets packet = (.ok frame, kept)) : packet.pts = some frame.pts := by
  cases hdata : packet.data with
  | none =>
    simp only [convert, hdata] at h
    cases h
  | some bytes =>
    cases hparse : Bitstream.parseNalUnits bytes with
    | error e =>
      simp only [convert, hdata, hparse] at h
      cases h
    | ok nalUnits =>
      simp only [convert, hdata, hparse] at h
      split at h
      · cases h
      · cases h
      next hpts =>
        cases h
        exact hpts

theorem convertAll_pts {codec : VideoCodec} {packets : List Bitstream.Packet}
    {parameterSets kept : List (List UInt8)} {frames : List EncodedFrame}
    (h : convertAll codec parameterSets packets = .ok (frames, kept)) :
    packets.filterMap Bitstream.Packet.pts = frames.map EncodedFrame.pts := by
  induction packets generalizing parameterSets frames with
  | nil =>
    cases h
    rfl
  | cons packet packets ih =>
    rw [convertAll] at h
    split at h
    · cases h
    next hconvert =>
      obtain ⟨⟨frames', kept'⟩, hrest, hframes⟩ := bind_eq_ok h
      cases hframes
      rw [List.filterMap_cons_some (convert_pts hconvert), ih hrest, List.map_cons]

namespace LinuxVideoEncoder

variable {σ : Type} {t : Transform σ} {inside : σ → List ℤ} {e e' : LinuxVideoEncoder σ}
  {frames : List EncodedFrame}

/-- Of these stamps come the packets, and what stays inside. -/
def Gives (inside : σ → List ℤ) (stamps : List ℤ) (frames : List EncodedFrame)
    (e' : LinuxVideoEncoder σ) : Prop :=
  (frames.map EncodedFrame.pts ++ inside e'.transform).Subperm stamps

theorem receivePackets_spec (hcopies : t.CopiesPts inside)
    (h : e.receivePackets t = .ok (frames, e')) :
    Gives inside (inside e.transform) frames e' ∧ e'.nextPts = e.nextPts := by
  obtain ⟨⟨frames', kept⟩, hconvert, hrest⟩ := bind_eq_ok h
  simp only at hrest
  split_ifs at hrest with hfailed
  cases hrest
  refine ⟨?_, rfl⟩
  rw [Gives, ← convertAll_pts hconvert]
  exact hcopies.receive e.transform

theorem drain_spec (hcopies : t.CopiesPts inside) (h : e.drain t = .ok (frames, e')) :
    Gives inside (inside e.transform) frames e' ∧ e'.nextPts = e.nextPts := by
  rw [drain] at h
  split at h
  · cases h
  next transform heof =>
    obtain ⟨hgives, hnext⟩ := receivePackets_spec hcopies h
    exact ⟨hgives.trans (hcopies.sendEof e.transform transform heof), hnext⟩

theorem reopen_spec (hcopies : t.CopiesPts inside) {config : EncoderConfig}
    (h : e.reopen t config = .ok (frames, e')) :
    Gives inside (inside e.transform) frames e' ∧ e'.nextPts = e.nextPts := by
  rw [reopen] at h
  split at h
  · cases h
  next transform hopens =>
    obtain ⟨⟨drained, e''⟩, hdrain, hrest⟩ := bind_eq_ok h
    cases hrest
    obtain ⟨hgives, hnext⟩ := drain_spec hcopies hdrain
    refine ⟨?_, hnext⟩
    -- what has not been drained is lost with the transform
    have hsub : (frames.map EncodedFrame.pts).Subperm (inside e.transform) :=
      (List.sublist_append_left _ (inside e''.transform)).subperm.trans hgives
    rw [Gives, hcopies.opens _ _ _ hopens, List.append_nil]
    exact hsub

theorem reconfigure_spec (hcopies : t.CopiesPts inside) {width height : UInt32}
    (h : e.reconfigure t width height = .ok (frames, e')) :
    Gives inside (inside e.transform) frames e' ∧ e'.nextPts = e.nextPts := by
  rw [reconfigure] at h
  split_ifs at h with hsize
  · cases h
    exact ⟨List.Subperm.refl _, rfl⟩
  · obtain ⟨config, -, hreopen⟩ := bind_eq_ok h
    exact reopen_spec hcopies hreopen

theorem updateBitrate_spec (hcopies : t.CopiesPts inside) {bitrate : ℕ}
    (h : e.updateBitrate t bitrate = .ok (frames, e')) :
    Gives inside (inside e.transform) frames e' ∧ e'.nextPts = e.nextPts := by
  obtain ⟨config, -, hrest⟩ := bind_eq_ok h
  split_ifs at hrest with hbitrate
  · cases hrest
    exact ⟨List.Subperm.refl _, rfl⟩
  · exact reopen_spec hcopies hrest

theorem submit_spec (hcopies : t.CopiesPts inside) {pts : ℤ}
    (h : e.submit t pts = .ok (frames, e')) :
    Gives inside (pts :: inside e.transform) frames e' ∧ e'.nextPts = e.nextPts := by
  rw [submit] at h
  split at h
  · cases h
  next transform haccepted =>
    obtain ⟨hgives, hnext⟩ := receivePackets_spec hcopies h
    exact ⟨hgives.trans (hcopies.accepted _ _ _ _ haccepted), hnext⟩
  next transform hagain =>
    obtain ⟨⟨output, e₁⟩, hfirst, hrest⟩ := bind_eq_ok h
    obtain ⟨hgives₁, hnext₁⟩ := receivePackets_spec hcopies hfirst
    simp only at hrest
    split at hrest
    next transform' haccepted =>
      obtain ⟨⟨more, e₂⟩, hmore, hout⟩ := bind_eq_ok hrest
      cases hout
      obtain ⟨hgives₂, hnext₂⟩ := receivePackets_spec hcopies hmore
      refine ⟨?_, hnext₂.trans hnext₁⟩
      have hmoreGives := hgives₂.trans (hcopies.accepted _ _ _ _ haccepted)
      have hfirstGives := hgives₁.trans (hcopies.again _ _ _ _ hagain)
      rw [Gives, List.map_append, List.append_assoc]
      have hmiddle : output.map EncodedFrame.pts ++ pts :: inside e₁.transform
          <+~ pts :: (output.map EncodedFrame.pts ++ inside e₁.transform) :=
        List.perm_middle.subperm
      exact ((List.subperm_append_left _).mpr hmoreGives).trans
        (hmiddle.trans ((List.subperm_cons pts).mpr hfirstGives))
    · cases hrest

theorem encodeBgra_spec (hcopies : t.CopiesPts inside) {length stride : ℕ} {prepared : Bool}
    (h : e.encodeBgra t length stride prepared = .ok (frames, e')) :
    Gives inside (e.nextPts :: inside e.transform) frames e' ∧ e'.nextPts = e.nextPts + 1 := by
  rw [encodeBgra] at h
  simp only at h
  split_ifs at h with hframe hprepared
  exact submit_spec hcopies h

end LinuxVideoEncoder

/-! ### Times -/

/-- What is known between two calls, when the stamps of `held` may still come, and those of `out` have
come. -/
structure Inv (times : FrameTimes) (sent : List (ℤ × ℕ × ℕ)) (held out : List ℤ) : Prop where
  count : times.nextPts = sent.length
  stamps : sent.map Prod.fst = (List.range sent.length).map Nat.cast
  nodup : (held ++ out).Nodup
  pending : ∀ pts ∈ held, ∃ v, times.pending.lookup pts = some v
  known : ∀ pts v, times.pending.lookup pts = some v → (pts, v) ∈ sent
  out_lt : ∀ pts ∈ out, pts < times.nextPts

namespace Inv

variable {times : FrameTimes} {sent : List (ℤ × ℕ × ℕ)} {held held' out : List ℤ}

theorem new : Inv .new [] [] [] where
  count := rfl
  stamps := rfl
  nodup := List.nodup_nil
  pending := List.forall_mem_nil _
  known pts v h := by cases h
  out_lt := List.forall_mem_nil _

theorem subperm (h : Inv times sent held out) (hsub : held' <+~ held) :
    Inv times sent held' out := by
  refine { h with nodup := ?_, pending := fun pts hpts => h.pending pts (hsub.subset hpts) }
  obtain ⟨l, hperm, hl⟩ := (List.subperm_append_right out).mpr hsub
  exact (hperm.nodup_iff).mp (h.nodup.sublist hl)

theorem lt_nextPts (h : Inv times sent held out) {pts : ℤ} {v : ℕ × ℕ} (hmem : (pts, v) ∈ sent) :
    pts < times.nextPts := by
  have hstamp : pts ∈ sent.map Prod.fst := List.mem_map_of_mem hmem
  rw [h.stamps] at hstamp
  obtain ⟨i, hi, rfl⟩ := List.mem_map.mp hstamp
  rw [h.count]
  exact_mod_cast List.mem_range.mp hi

theorem submitted (h : Inv times sent held out) (captureAt encodeStartedAt : ℕ) :
    Inv (times.submitted captureAt encodeStartedAt)
      (sent ++ [(times.nextPts, captureAt, encodeStartedAt)]) (times.nextPts :: held) out := by
  have hheld : ∀ pts ∈ held, pts < times.nextPts := by
    intro pts hpts
    obtain ⟨v, hv⟩ := h.pending pts hpts
    exact h.lt_nextPts (h.known pts v hv)
  constructor
  · rw [FrameTimes.submitted, h.count, List.length_append]
    rfl
  · rw [List.map_append, List.length_append, List.length_singleton, List.range_succ, List.map_append,
      h.stamps, h.count]
    rfl
  · rw [List.cons_append, List.nodup_cons]
    refine ⟨fun hmem => ?_, h.nodup⟩
    rcases List.mem_append.mp hmem with hmem | hmem
    · exact lt_irrefl _ (hheld _ hmem)
    · exact lt_irrefl _ (h.out_lt _ hmem)
  · intro pts hpts
    by_cases hnew : pts = times.nextPts
    · rw [hnew]
      exact ⟨_, AList.lookup_insert _⟩
    · obtain ⟨v, hv⟩ := h.pending pts ((List.mem_cons.mp hpts).resolve_left hnew)
      exact ⟨v, (AList.lookup_insert_ne hnew).trans hv⟩
  · intro pts v hv
    by_cases hnew : pts = times.nextPts
    · subst hnew
      have hsame := (AList.lookup_insert _).symm.trans hv
      cases hsame
      exact List.mem_append_right _ (List.mem_singleton_self _)
    · exact List.mem_append_left _ (h.known pts v ((AList.lookup_insert_ne hnew).symm.trans hv))
  · intro pts hpts
    exact (h.out_lt pts hpts).trans (Int.lt_succ _)

theorem take {pts : ℤ} (h : Inv times sent (pts :: held) out) :
    ∃ v, times.take pts = (some v, (times.take pts).2) ∧ (pts, v) ∈ sent ∧
      Inv (times.take pts).2 sent held (out ++ [pts]) := by
  obtain ⟨v, hv⟩ := h.pending pts List.mem_cons_self
  have hnodup := h.nodup
  rw [List.cons_append, List.nodup_cons] at hnodup
  refine ⟨v, Prod.ext hv rfl, h.known pts v hv, ?_⟩
  constructor
  · exact h.count
  · exact h.stamps
  · rw [← List.append_assoc]
    refine List.nodup_append.mpr ⟨hnodup.2, List.nodup_singleton pts, ?_⟩
    intro a ha b hb hab
    rw [hab, List.mem_singleton.mp hb] at ha
    exact hnodup.1 ha
  · intro pts' hpts'
    have hne : pts' ≠ pts := by
      rintro rfl
      exact hnodup.1 (List.mem_append_left _ hpts')
    obtain ⟨v', hv'⟩ := h.pending pts' (List.mem_cons_of_mem pts hpts')
    exact ⟨v', (AList.lookup_erase_ne hne).trans hv'⟩
  · intro pts' v' hv'
    by_cases hsame : pts' = pts
    · subst hsame
      rw [show (times.take pts').2.pending = times.pending.erase pts' from rfl,
        AList.lookup_erase] at hv'
      cases hv'
    · exact h.known pts' v' ((AList.lookup_erase_ne hsame).symm.trans hv')
  · intro pts' hpts'
    rcases List.mem_append.mp hpts' with hmem | hmem
    · exact h.out_lt pts' hmem
    · rw [List.mem_singleton.mp hmem]
      exact h.lt_nextPts (h.known pts v hv)

end Inv

/-- The frames come out under the times of the inputs that had their stamps. -/
def Matched (sent : List (ℤ × ℕ × ℕ)) (outputs : List Output) : Prop :=
  ∀ output ∈ outputs, (output.pts, output.frame.captureAt, output.frame.encodeStartedAt) ∈ sent

theorem timed_spec {frames : List EncodedFrame} {times : FrameTimes} {sent : List (ℤ × ℕ × ℕ)}
    {held out : List ℤ} (h : Inv times sent (frames.map EncodedFrame.pts ++ held) out) (now : ℕ) :
    ∃ outputs times', timed now times frames = .ok (outputs, times') ∧
      outputs.map Output.pts = frames.map EncodedFrame.pts ∧ Matched sent outputs ∧
      Inv times' sent held (out ++ frames.map EncodedFrame.pts) := by
  induction frames generalizing times out with
  | nil =>
    refine ⟨[], times, rfl, rfl, List.forall_mem_nil _, ?_⟩
    rw [List.map_nil, List.append_nil]
    exact h
  | cons frame frames ih =>
    obtain ⟨v, htake, hmem, hinv⟩ := h.take
    obtain ⟨outputs, times', hrest, hstamps, hmatched, hinv'⟩ := ih hinv
    refine ⟨⟨frame.pts, ⟨frame.data, frame.isKeyFrame, v.1, v.2, now⟩⟩ :: outputs, times', ?_, ?_,
      List.forall_mem_cons.mpr ⟨hmem, hmatched⟩, ?_⟩
    · rw [timed, htake]
      simp only [hrest]
      rfl
    · rw [List.map_cons, List.map_cons, hstamps]
    · rw [List.append_assoc] at hinv'
      exact hinv'

/-! ### The session -/

section

variable {σ : Type} {t : Transform σ} {inside : σ → List ℤ}

/-- What is known of a session whose packets of the stamps `out` have come. -/
structure Kept (inside : σ → List ℤ) (s : LinuxSessionEncoder σ) (out : List ℤ) : Prop where
  inv : Inv s.times s.sent (inside s.encoder.transform) out
  counters : s.encoder.nextPts = s.times.nextPts

/-- The capture and submission times of an input. -/
def Submission.times (x : Submission) : ℕ × ℕ := (x.frame.capturedAt, x.start)

/-- A part of a call has submitted these inputs, and its packets have got their times; if it fails, it
is not for want of them. -/
def Follows (inside : σ → List ℤ) (s : LinuxSessionEncoder σ) (out : List ℤ)
    (inputs : List Submission) : Except SessionError (List Output × LinuxSessionEncoder σ) → Prop
  | .error e => ∀ pts, e ≠ .unknownInputPts pts
  | .ok (outputs, s') =>
    Kept inside s' (out ++ outputs.map Output.pts) ∧ Matched s'.sent outputs ∧
      ∃ new, s'.sent = s.sent ++ new ∧ new.map Prod.snd = inputs.map Submission.times

variable {s : LinuxSessionEncoder σ} {out : List ℤ}

theorem Matched.mono {sent sent' : List (ℤ × ℕ × ℕ)} {outputs : List Output}
    (h : Matched sent outputs) (hsub : sent ⊆ sent') : Matched sent' outputs :=
  fun output houtput => hsub (h output houtput)

theorem Follows.andThen {inputs inputs' : List Submission}
    {x : Except SessionError (List Output × LinuxSessionEncoder σ)}
    {f : LinuxSessionEncoder σ → Except SessionError (List Output × LinuxSessionEncoder σ)}
    (hx : Follows inside s out inputs x)
    (hf : ∀ s' out', Kept inside s' out' → Follows inside s' out' inputs' (f s')) :
    Follows inside s out (inputs ++ inputs') (do
      let (frames, s) ← x
      let (encoded, s) ← f s
      pure (frames ++ encoded, s)) := by
  cases x with
  | error e => exact hx
  | ok r =>
    obtain ⟨frames, s'⟩ := r
    obtain ⟨hkept, hmatched, new, hsent, hinputs⟩ := hx
    have hsecond := hf s' _ hkept
    show Follows inside s out (inputs ++ inputs') ((f s').bind fun r => .ok (frames ++ r.1, r.2))
    cases hresult : f s' with
    | error e =>
      rw [hresult] at hsecond
      exact hsecond
    | ok r =>
      obtain ⟨encoded, s''⟩ := r
      rw [hresult] at hsecond
      obtain ⟨hkept', hmatched', new', hsent', hinputs'⟩ := hsecond
      refine ⟨?_, ?_, new ++ new', ?_, ?_⟩
      · rw [List.map_append, ← List.append_assoc]
        exact hkept'
      · have hsub : s'.sent ⊆ s''.sent := by
          rw [hsent']
          exact List.subset_append_left _ _
        intro output houtput
        rcases List.mem_append.mp houtput with houtput | houtput
        · exact hmatched.mono hsub output houtput
        · exact hmatched' output houtput
      · rw [hsent', hsent, List.append_assoc]
      · rw [List.map_append, List.map_append, hinputs, hinputs']

namespace LinuxSessionEncoder

theorem output_spec {frames : List EncodedFrame} {inputs : List Submission} (now : ℕ)
    {s' : LinuxSessionEncoder σ} {new : List (ℤ × ℕ × ℕ)}
    (h : Inv s'.times s'.sent (frames.map EncodedFrame.pts ++ inside s'.encoder.transform) out)
    (hcounters : s'.encoder.nextPts = s'.times.nextPts) (hsent : s'.sent = s.sent ++ new)
    (hinputs : new.map Prod.snd = inputs.map Submission.times) :
    Follows inside s out inputs (s'.output frames now) := by
  obtain ⟨outputs, times, htimed, hstamps, hmatched, hinv⟩ := timed_spec h now
  have hnext : times.nextPts = s'.times.nextPts := hinv.count.trans h.count.symm
  rw [LinuxSessionEncoder.output, htimed]
  refine ⟨⟨?_, hcounters.trans hnext.symm⟩, hmatched, new, hsent, hinputs⟩
  rw [hstamps]
  exact hinv

theorem bitrate_spec (hcopies : t.CopiesPts inside) (h : Kept inside s out) (bitrate : UInt32)
    (now : ℕ) : Follows inside s out [] (s.bitrate t bitrate now) := by
  rw [LinuxSessionEncoder.bitrate]
  cases hupdate : s.encoder.updateBitrate t bitrate.toNat with
  | error e => exact fun pts => by simp
  | ok r =>
    obtain ⟨hgives, hnext⟩ := LinuxVideoEncoder.updateBitrate_spec hcopies hupdate
    exact output_spec now (h.inv.subperm hgives) (hnext.trans h.counters)
      (List.append_nil _).symm rfl

theorem resize_spec (hcopies : t.CopiesPts inside) (h : Kept inside s out) (frame : LinuxRawFrame)
    (now : ℕ) : Follows inside s out [] (s.resize t frame now) := by
  rw [LinuxSessionEncoder.resize]
  split_ifs with hsize
  · cases hreconfigure : s.encoder.reconfigure t frame.width frame.height with
    | error e => exact fun pts => by simp
    | ok r =>
      obtain ⟨hgives, hnext⟩ := LinuxVideoEncoder.reconfigure_spec hcopies hreconfigure
      exact output_spec now (h.inv.subperm hgives) (hnext.trans h.counters)
        (List.append_nil _).symm rfl
  · refine ⟨?_, List.forall_mem_nil _, [], (List.append_nil _).symm, rfl⟩
    rw [List.map_nil, List.append_nil]
    exact h

theorem submit_spec (hcopies : t.CopiesPts inside) (h : Kept inside s out) (x : Submission) :
    Follows inside s out [x] (s.submit t x) := by
  rw [LinuxSessionEncoder.submit]
  cases hencode : s.encoder.encodeBgra t x.frame.length x.frame.stride x.prepared with
  | error e => exact fun pts => by simp
  | ok r =>
    obtain ⟨hgives, hnext⟩ := LinuxVideoEncoder.encodeBgra_spec hcopies hencode
    -- both counters give the frame the same stamp
    rw [LinuxVideoEncoder.Gives, h.counters] at hgives
    rw [h.counters] at hnext ⊢
    exact output_spec x.now ((h.inv.submitted x.frame.capturedAt x.start).subperm hgives) hnext
      rfl rfl

theorem encode_spec (hcopies : t.CopiesPts inside) (h : Kept inside s out) (x : Submission) :
    Follows inside s out [x] (s.encode t x) :=
  (resize_spec hcopies h x.frame x.start).andThen fun _ _ h' => submit_spec hcopies h' x

end LinuxSessionEncoder

/-- The input of a call. -/
def Call.inputs : Call → List Submission
  | .encode x => [x]
  | _ => []

theorem call_spec (hcopies : t.CopiesPts inside) (h : Kept inside s out) (c : Call) :
    Follows inside s out c.inputs (call t s c) := by
  cases c with
  | bitrate bitrate now => exact LinuxSessionEncoder.bitrate_spec hcopies h bitrate now
  | encode x => exact LinuxSessionEncoder.encode_spec hcopies h x
  | forceKeyframe =>
    refine ⟨?_, List.forall_mem_nil _, [], (List.append_nil _).symm, rfl⟩
    rw [List.map_nil, List.append_nil]
    exact ⟨h.inv, h.counters⟩

theorem runCalls_spec (hcopies : t.CopiesPts inside) (h : Kept inside s out) (calls : List Call)
    {outputs : List Output} {s' : LinuxSessionEncoder σ} {error : Option SessionError}
    (hrun : runCalls t s calls = (outputs, s', error)) :
    Kept inside s' (out ++ outputs.map Output.pts) ∧ Matched s'.sent outputs ∧
      (∃ new, s'.sent = s.sent ++ new ∧
        new.map Prod.snd <+: (calls.flatMap Call.inputs).map Submission.times) ∧
      ∀ pts, error ≠ some (.unknownInputPts pts) := by
  induction calls generalizing s out outputs with
  | nil =>
    cases hrun
    refine ⟨?_, List.forall_mem_nil _, ⟨[], (List.append_nil _).symm, List.prefix_refl _⟩,
      fun _ => (by simp)⟩
    rw [List.map_nil, List.append_nil]
    exact h
  | cons c calls ih =>
    have hcall := call_spec hcopies h c
    rw [runCalls] at hrun
    cases hresult : call t s c with
    | error e =>
      simp only [hresult] at hrun hcall
      cases hrun
      refine ⟨?_, List.forall_mem_nil _, ⟨[], (List.append_nil _).symm, List.nil_prefix⟩,
        fun pts he => hcall pts (Option.some.inj he)⟩
      rw [List.map_nil, List.append_nil]
      exact h
    | ok r =>
      obtain ⟨first, s₁⟩ := r
      simp only [hresult] at hrun hcall
      obtain ⟨hkept, hmatched, new, hsent, hinputs⟩ := hcall
      cases hrest : runCalls t s₁ calls with
      | mk more rest =>
        obtain ⟨s₂, error₂⟩ := rest
        rw [hrest] at hrun
        cases hrun
        obtain ⟨hkept₂, hmatched₂, ⟨new₂, hsent₂, hinputs₂⟩, herror⟩ := ih hkept hrest
        refine ⟨?_, ?_, ⟨new ++ new₂, ?_, ?_⟩, herror⟩
        · rw [List.map_append, ← List.append_assoc]
          exact hkept₂
        · have hsub : s₁.sent ⊆ s'.sent := by
            rw [hsent₂]
            exact List.subset_append_left _ _
          intro output houtput
          rcases List.mem_append.mp houtput with houtput | houtput
          · exact hmatched.mono hsub output houtput
          · exact hmatched₂ output houtput
        · rw [hsent₂, hsent, List.append_assoc]
        · rw [List.flatMap_cons, List.map_append, List.map_append, hinputs]
          exact (List.prefix_append_right_inj _).mpr hinputs₂

theorem kept_new (hcopies : t.CopiesPts inside) {config : EncoderConfig} {codec : VideoCodec}
    (hnew : LinuxSessionEncoder.new t config codec = .ok s) : Kept inside s [] ∧ s.sent = [] := by
  obtain ⟨encoder, hencoder, hsession⟩ := bind_eq_ok hnew
  cases hsession
  obtain ⟨config', -, hrest⟩ := bind_eq_ok hencoder
  split at hrest
  · cases hrest
  next transform hopens =>
    cases hrest
    refine ⟨⟨?_, rfl⟩, rfl⟩
    show Inv .new [] (inside transform) []
    rw [hcopies.opens _ _ _ hopens]
    exact Inv.new

theorem inputs_calls (turn : Turn) : turn.calls.flatMap Call.inputs = turn.frame.toList := by
  have hbitrates : ∀ bitrates : List (UInt32 × ℕ),
      (bitrates.map fun b => Call.bitrate b.1 b.2).flatMap Call.inputs = [] := by
    intro bitrates
    induction bitrates with
    | nil => rfl
    | cons b bitrates ih => exact ih
  have hforce : (if turn.forceKeyframe then [Call.forceKeyframe] else []).flatMap Call.inputs = [] := by
    split <;> rfl
  rw [Turn.calls, List.flatMap_append, List.flatMap_append, hbitrates, hforce]
  cases turn.frame <;> rfl

end

/-- **Every frame comes out under the times of the input whose stamp its packet carried, each input
at most once, and no stamp is unknown.**  The inputs are stamped in the order of their turns. -/
theorem encoded_times {σ : Type} {t : Transform σ} {inside : σ → List ℤ}
    (hcopies : t.CopiesPts inside) {config : EncoderConfig} {codec : VideoCodec}
    {s : LinuxSessionEncoder σ} (hnew : LinuxSessionEncoder.new t config codec = .ok s)
    {turns : List Turn} {outputs : List Output} {s' : LinuxSessionEncoder σ}
    {error : Option SessionError} (hrun : runEncoder t s turns = (outputs, s', error)) :
    (∀ output ∈ outputs,
      (output.pts, output.frame.captureAt, output.frame.encodeStartedAt) ∈ s'.sent) ∧
    s'.sent.map Prod.fst = (List.range s'.sent.length).map Nat.cast ∧
    s'.sent.map Prod.snd <+: (turns.flatMap fun turn => turn.frame.toList).map Submission.times ∧
    (outputs.map Output.pts).Nodup ∧ ∀ pts, error ≠ some (.unknownInputPts pts) := by
  obtain ⟨hkept, hnil⟩ := kept_new hcopies hnew
  obtain ⟨hkept', hmatched, ⟨new, hsent, hinputs⟩, herror⟩ :=
    runCalls_spec hcopies hkept (turns.flatMap Turn.calls) hrun
  have hcalls : (turns.flatMap Turn.calls).flatMap Call.inputs
      = turns.flatMap fun turn => turn.frame.toList := by
    rw [List.flatMap_assoc]
    exact congrArg turns.flatMap (funext inputs_calls)
  rw [hnil, List.nil_append] at hsent
  rw [hcalls, ← hsent] at hinputs
  exact ⟨hmatched, hkept'.inv.stamps, hinputs, hkept'.inv.nodup.of_append_right, herror⟩

/-- A transform that gives its frames in pairs, the later one first. -/
def pairs : Transform (List ℤ) where
  opens _ _ := some []
  sendFrame held pts _ := .accepted (pts :: held)
  sendEof held := some held
  receive held :=
    if held.length < 2 then ⟨[], false, held⟩
    else ⟨held.map fun pts => ⟨some [0, 0, 0, 2, 0x65, 0x88], true, some pts⟩, false, []⟩

theorem pairs_copiesPts : pairs.CopiesPts id where
  opens config codec s h := by
    cases h
    rfl
  accepted s pts forced s' h := by
    cases h
    exact List.Subperm.refl _
  again s pts forced s' h := by cases h
  sendEof s s' h := by
    cases h
    exact List.Subperm.refl _
  receive s := by
    simp only [pairs]
    split_ifs with hshort
    · exact List.Subperm.refl _
    · have hstamps : (s.map fun pts => (⟨some [0, 0, 0, 2, 0x65, 0x88], true, some pts⟩ :
          Bitstream.Packet)).filterMap Bitstream.Packet.pts = s := by
        rw [List.filterMap_map]
        exact List.filterMap_some
      rw [hstamps]
      exact (List.append_nil s).symm ▸ List.Subperm.refl _

def smallConfig : EncoderConfig := ⟨2, 2, 100000, 30⟩

def twoTurns : List Turn :=
  [⟨[(200000, 5)], true, some ⟨⟨16, 8, 2, 2, 10⟩, true, 11, 12⟩⟩,
    ⟨[], false, some ⟨⟨16, 8, 2, 2, 20⟩, true, 21, 22⟩⟩]

theorem encoded_times_pairs :
    ((runEncoder pairs ⟨⟨smallConfig, .h264, [], 0, true, []⟩, .new, []⟩ twoTurns).1.map
      Output.pts).Nodup ∧
    ∀ pts, (runEncoder pairs ⟨⟨smallConfig, .h264, [], 0, true, []⟩, .new, []⟩ twoTurns).2.2
      ≠ some (.unknownInputPts pts) := by
  have hnew : LinuxSessionEncoder.new pairs smallConfig .h264
      = .ok ⟨⟨smallConfig, .h264, [], 0, true, []⟩, .new, []⟩ := rfl
  obtain ⟨-, -, -, hnodup, herror⟩ := @encoded_times _ _ _ pairs_copiesPts _ _ _ hnew twoTurns _ _ _ rfl
  exact ⟨hnodup, herror⟩

end MahoRD.LinuxPackets
