/-
MahoRD/Host/FrameSizes.lean

Which size a frame header carries.  The sender thread knows the size with which a pipeline was
handed over; the encoder takes the size of every frame it is given.  The two agree as long as no
captured frame has another size than its pipeline was handed over with (`Announced`).  A change of
the capture resolution breaks this, for the pipeline goes on and nothing tells the sender thread.

`Good` is carried along with a frame from the transform to the sender thread.
-/
import MahoRD.Host.MediaRestart

namespace MahoRD.LinuxMedia

open Machine Parse

/-! ### The encoder -/

/-- A header has room for the size. -/
def Fits (size : Size) : Prop := size.1.toNat ≤ 65535 ∧ size.2.toNat ≤ 65535

/-- An encoder can be opened with the size. -/
def Encodable (size : Size) : Prop :=
  size.1 ≠ 0 ∧ size.2 ≠ 0 ∧ size.1 % 2 = 0 ∧ size.2 % 2 = 0

instance (size : Size) : Decidable (Fits size) := inferInstanceAs (Decidable (_ ∧ _))

instance (size : Size) : Decidable (Encodable size) := inferInstanceAs (Decidable (_ ∧ _))

theorem validate_eq_ok {c c' : EncoderConfig} (h : c.validate = .ok c') :
    c' = c ∧ Encodable c.size := by
  simp only [EncoderConfig.validate] at h
  split at h
  · cases h
  next h₁ =>
    split at h
    · cases h
    next h₂ =>
      cases h
      simp only [not_or, ne_eq, not_not] at h₁ h₂
      exact ⟨rfl, h₁.1, h₁.2.1, h₂⟩

theorem mapError_eq_ok {ε ε' α : Type*} {x : Except ε α} {f : ε → ε'} {a : α} :
    x.mapError f = .ok a ↔ x = .ok a := by
  cases x <;> simp [Except.mapError]

/-- A frame of this size was encoded where `size` was announced. -/
def Good (size size' : Size) : Prop := size' = size ∧ Fits size

/-- The encoder is open for one size, and all frames in it have this size, which fits a header. -/
structure LinuxVideoEncoder.Sized (e : LinuxVideoEncoder) (size : Size) : Prop where
  config : e.config.size = size
  encodable : Encodable size
  held : ∀ h ∈ e.held, Good size h.2

section Encoder

variable {e e' : LinuxVideoEncoder} {size : Size} {ff : Ffmpeg}

variable {out : List EncodedFrame}

theorem receivePackets_good {held held' : List (ℕ × Size)}
    {packets : Option (List (List UInt8 × Bool))}
    (h : LinuxVideoEncoder.receivePackets held packets = .ok (out, held'))
    (hh : ∀ h ∈ held, Good size h.2) :
    (∀ f ∈ out, Good size f.size) ∧ ∀ h ∈ held', Good size h.2 := by
  cases packets with
  | none => cases h
  | some packets =>
    simp only [LinuxVideoEncoder.receivePackets, Except.ok.injEq, Prod.mk.injEq] at h
    obtain ⟨rfl, rfl⟩ := h
    refine ⟨fun f hf => ?_, fun h hd => hh h (List.mem_of_mem_drop hd)⟩
    obtain ⟨⟨x, y⟩, hxy, rfl⟩ := List.mem_map.1 hf
    exact hh x (List.of_mem_zip hxy).1

theorem LinuxVideoEncoder.new_sized {config : EncoderConfig}
    (h : LinuxVideoEncoder.new config ff = .ok e) : e.Sized config.size := by
  simp only [LinuxVideoEncoder.new, except_bind_eq_ok] at h
  obtain ⟨c, hc, h⟩ := h
  obtain ⟨rfl, hv⟩ := validate_eq_ok hc
  split at h
  · cases h
    exact ⟨rfl, hv, by rintro _ ⟨⟩⟩
  · cases h

theorem LinuxVideoEncoder.Sized.updateBitrate (he : e.Sized size) {bitrate : ℕ} (h : e.updateBitrate bitrate ff = .ok (out, e')) :
    (∀ f ∈ out, Good size f.size) ∧ e'.Sized size := by
  simp only [LinuxVideoEncoder.updateBitrate, except_bind_eq_ok] at h
  obtain ⟨c, hc, h⟩ := h
  obtain ⟨rfl, -⟩ := validate_eq_ok hc
  split at h
  · cases h
    exact ⟨by rintro _ ⟨⟩, he⟩
  · simp only [LinuxVideoEncoder.reopen] at h
    split at h
    · rw [except_bind_eq_ok] at h
      obtain ⟨⟨drained, held'⟩, hr, h⟩ := h
      cases h
      exact ⟨(receivePackets_good hr he.held).1, he.config, he.encodable, by rintro _ ⟨⟩⟩
    · cases h

theorem LinuxVideoEncoder.Sized.encodeBgra (he : e.Sized size) (hf : Fits size) {length stride : ℕ} (h : e.encodeBgra length stride ff = .ok (out, e')) :
    (∀ f ∈ out, Good size f.size) ∧ e'.Sized size := by
  simp only [LinuxVideoEncoder.encodeBgra] at h
  split at h
  · cases h
  · rw [except_bind_eq_ok] at h
    obtain ⟨⟨output, held'⟩, hr, h⟩ := h
    cases h
    have hheld : ∀ h ∈ e.held ++ [(e.nextPts, e.config.size)], Good size h.2 := by
      intro h hm
      rcases List.mem_append.1 hm with hm | hm
      · exact he.held h hm
      · rw [List.mem_singleton.1 hm]
        exact ⟨he.config, hf⟩
    obtain ⟨hout, hheld'⟩ := receivePackets_good hr hheld
    exact ⟨hout, he.config, he.encodable, hheld'⟩

end Encoder

section SessionEncoder

variable {s s' : LinuxSessionEncoder} {size : Size} {ff : Ffmpeg}

variable {now : ℕ} {out : List Encoded}

theorem timed_sizes {times times' : FrameTimes} {frames : List EncodedFrame} (h : LinuxSessionEncoder.timed now times frames = .ok (out, times')) :
    out.map Prod.snd = frames.map EncodedFrame.size := by
  induction frames generalizing times out times' with
  | nil =>
    cases h
    rfl
  | cons f frames ih =>
    simp only [LinuxSessionEncoder.timed] at h
    split at h
    · cases h
    · simp only [except_bind_eq_ok] at h
      obtain ⟨⟨rest, t⟩, hr, h⟩ := h
      cases h
      rw [List.map_cons, List.map_cons, ih hr]

theorem output_good {frames : List EncodedFrame}
    (h : s.output frames now = .ok (out, s')) (hf : ∀ f ∈ frames, Good size f.size) :
    (∀ f ∈ out, Good size f.2) ∧ s'.encoder = s.encoder := by
  simp only [LinuxSessionEncoder.output, except_bind_eq_ok] at h
  obtain ⟨⟨frames', t⟩, ht, h⟩ := h
  cases h
  refine ⟨fun f hm => ?_, rfl⟩
  have hsize : f.2 ∈ frames.map EncodedFrame.size := by
    rw [← timed_sizes ht]
    exact List.mem_map.2 ⟨f, hm, rfl⟩
  obtain ⟨g, hg, hgf⟩ := List.mem_map.1 hsize
  rw [← hgf]
  exact hf g hg

theorem bitrate_good (hs : s.encoder.Sized size) {bitrate : UInt32}
    (h : s.bitrate bitrate ff now = .ok (out, s')) :
    (∀ f ∈ out, Good size f.2) ∧ s'.encoder.Sized size := by
  simp only [LinuxSessionEncoder.bitrate, except_bind_eq_ok, mapError_eq_ok] at h
  obtain ⟨⟨frames, e⟩, hu, h⟩ := h
  obtain ⟨hf, he⟩ := hs.updateBitrate hu
  obtain ⟨hout, henc⟩ := output_good h hf
  exact ⟨hout, henc ▸ he⟩

/-- **What a frame may be.**  It has the size the encoder is open for, or none that an encoder can be
opened with: then the encoder reports an error. -/
theorem encode_good (hs : s.encoder.Sized size) {frame : LinuxRawFrame} {start : ℕ} (h : s.encode frame ff start now = .ok (out, s'))
    (hframe : (frame.width, frame.height) = size ∧ Fits size ∨
      ¬ Encodable (frame.width, frame.height)) :
    (∀ f ∈ out, Good size f.2) ∧ s'.encoder.Sized size := by
  have hsame : (frame.width, frame.height) = s.encoder.config.size ∧ Fits size := by
    rcases hframe with ⟨heq, hfit⟩ | hbad
    · exact ⟨heq.trans hs.config.symm, hfit⟩
    · exfalso
      have hne : (frame.width, frame.height) ≠ s.encoder.config.size := by
        intro heq
        rw [heq, hs.config] at hbad
        exact hbad hs.encodable
      have hne' : ¬ (frame.width = s.encoder.config.width ∧
          frame.height = s.encoder.config.height) := fun h => hne (Prod.ext h.1 h.2)
      simp only [LinuxSessionEncoder.encode, if_pos hne, except_bind_eq_ok, mapError_eq_ok,
        LinuxVideoEncoder.reconfigure, if_neg hne'] at h
      obtain ⟨drained, ⟨c, hc, hopen⟩, hrest⟩ := h
      exact hbad (validate_eq_ok hc).2
  simp only [LinuxSessionEncoder.encode, if_neg (not_not.2 hsame.1), except_bind_eq_ok,
    mapError_eq_ok, except_pure_eq_ok] at h
  obtain ⟨⟨first, s₁⟩, hfirst, ⟨encoded, e⟩, he, ⟨last, s₂⟩, ho, h⟩ := h
  cases hfirst
  cases h
  obtain ⟨hf, hsz⟩ := hs.encodeBgra hsame.2 he
  obtain ⟨hlast, henc⟩ := output_good ho hf
  exact ⟨hlast, henc ▸ hsz⟩

end SessionEncoder

/-! ### Pipelines -/

def Pc.encoder? : Pc → Option LinuxSessionEncoder
  | .next e | .controls e _ | .reselect e _ | .submit e _ => some e
  | .starting | .ended => none

/-- The frame the encoder is given in the next operation of its thread. -/
def Pipeline.submits (p : Pipeline) : Option LinuxRawFrame :=
  match p.outbox, p.pc with
  | [], .submit _ work => work.frame
  | _, _ => none

namespace Pipeline

/-- All frames of a pipeline have the size it was started with. -/
structure Sized (p : Pipeline) : Prop where
  encoder : ∀ e, p.pc.encoder? = some e → e.encoder.Sized p.source.size
  outbox : ∀ f ∈ p.outbox, Good p.source.size f.2
  queue : ∀ f, .video f ∈ p.queue → Good p.source.size f.2

theorem Sized.start (source : EncoderConfig) (scalePermille : UInt16) :
    (start source scalePermille).Sized := ⟨nofun, nofun, nofun⟩

variable {p p' : Pipeline}

theorem Sized.congr (h : p.Sized) (hsrc : p'.source = p.source) (hpc : p'.pc = p.pc)
    (hout : p'.outbox = p.outbox) (hq : ∀ e ∈ p'.queue, e ∈ p.queue) : p'.Sized where
  encoder := by
    rw [hsrc, hpc]
    exact h.encoder
  outbox := by
    rw [hsrc, hout]
    exact h.outbox
  queue := fun f hf => by
    rw [hsrc]
    exact h.queue f (hq _ hf)

theorem Sized.goes (h : p.Sized) {e : LinuxSessionEncoder} (he : e.encoder.Sized p.source.size)
    {pc : Pc} (handoff : Handoff) (hpc : pc.encoder? = some e) :
    ({ p with pc, handoff }).Sized where
  encoder := fun e' he' => by
    obtain rfl : e = e' := Option.some.inj (hpc.symm.trans he')
    exact he
  outbox := h.outbox
  queue := h.queue

theorem Sized.ended (h : p.Sized) (handoff : Handoff) :
    ({ p with pc := .ended, handoff }).Sized := ⟨nofun, h.outbox, h.queue⟩

theorem Sized.fail (h : p.Sized) : p.fail.Sized where
  encoder := nofun
  outbox := h.outbox
  queue := fun f hf => by
    simp only [Pipeline.fail] at hf
    split at hf
    · exact h.queue f ((List.mem_append.1 hf).elim id fun hm => by simp at hm)
    · exact h.queue f hf

theorem Sized.called (h : p.Sized)
    {result : Except PipelineError (List Encoded × LinuxSessionEncoder)}
    (hr : ∀ frames e, result = .ok (frames, e) →
      (∀ f ∈ frames, Good p.source.size f.2) ∧ e.encoder.Sized p.source.size)
    {pc : LinuxSessionEncoder → Pc} (hpc : ∀ e, (pc e).encoder? = some e) :
    (p.called result pc).Sized := by
  rcases result with error | ⟨frames, e⟩
  · exact h.fail
  · obtain ⟨hf, he⟩ := hr frames e rfl
    refine ⟨fun e' he' => ?_, hf, h.queue⟩
    obtain rfl : e = e' := Option.some.inj ((hpc e).symm.trans he')
    exact he

theorem Sized.turn (h : p.Sized) {ff : Ffmpeg} {start now : ℕ} (ht : p.turn ff start now = some p')
    (hframe : ∀ frame ∈ p.submits, (frame.width, frame.height) = p.source.size ∧
      Fits p.source.size ∨ ¬ Encodable (frame.width, frame.height)) :
    p'.Sized ∧ p'.source = p.source := by
  simp only [Pipeline.turn] at ht
  split at ht
  · cases ht
  next hout =>
  rw [ne_eq, not_not] at hout
  split at ht
  · split at ht
    · cases ht
      exact ⟨h.fail, rfl⟩
    next encoder hnew =>
      cases ht
      exact ⟨h.goes (LinuxVideoEncoder.new_sized hnew) _ (by rfl), rfl⟩
  next encoder hpc =>
    have henc := h.encoder encoder (by rw [hpc]; rfl)
    split at ht
    · cases ht
      exact ⟨h.ended _, rfl⟩
    · split at ht
      · cases ht
        exact ⟨h.goes henc _ (by rfl), rfl⟩
      · cases ht
  next encoder work hpc =>
    have henc := h.encoder encoder (by rw [hpc]; rfl)
    split at ht
    · cases ht
      exact ⟨h.goes henc _ (by rfl), rfl⟩
    next bitrate _ =>
      cases ht
      refine ⟨h.called (fun frames e hr => bitrate_good henc hr) fun _ => rfl, ?_⟩
      simp only [Pipeline.called]
      split <;> rfl
  next encoder work hpc =>
    have henc := h.encoder encoder (by rw [hpc]; rfl)
    split at ht
    · cases ht
      exact ⟨h.ended _, rfl⟩
    · cases ht
      refine ⟨h.goes henc _ ?_, rfl⟩
      split <;> rfl
  next encoder work hpc =>
    have henc : (if work.controls.forceKeyframe then encoder.forceKeyframe
        else encoder).encoder.Sized p.source.size := by
      have he := h.encoder encoder (by rw [hpc]; rfl)
      split
      · exact ⟨he.config, he.encodable, he.held⟩
      · exact he
    split at ht
    · cases ht
      exact ⟨h.goes henc _ (by rfl), rfl⟩
    next frame hwork =>
      cases ht
      have hsub : p.submits = some frame := by
        rw [Pipeline.submits, hout, hpc]
        exact hwork
      refine ⟨h.called (fun frames e hr => encode_good henc hr (hframe frame hsub)) fun _ => rfl, ?_⟩
      simp only [Pipeline.called]
      split <;> rfl
  · cases ht

theorem Sized.emit (h : p.Sized) (he : p.emit = some p') : p'.Sized ∧ p'.source = p.source := by
  simp only [Pipeline.emit] at he
  split at he
  · cases he
  next frame outbox hout =>
    have hmem : ∀ f ∈ outbox, f ∈ p.outbox := fun f hf => hout ▸ List.mem_cons_of_mem _ hf
    split at he
    · split at he
      · cases he
        refine ⟨⟨h.encoder, fun f hf => h.outbox f (hmem f hf), fun f hf => ?_⟩, rfl⟩
        rcases List.mem_append.1 hf with hf | hf
        · exact h.queue f hf
        · obtain rfl : f = frame := by simpa using hf
          exact h.outbox f (by rw [hout]; exact List.mem_cons_self)
      · cases he
    · cases he
      exact ⟨⟨nofun, nofun, h.queue⟩, rfl⟩

end Pipeline

/-! ### The session -/

/-- The header names the size its frame was encoded with. -/
def Correct (x : FrameHeader × Size) : Prop :=
  x.1.width.toNat = x.2.1.toNat ∧ x.1.height.toNat = x.2.2.toNat

instance (x : FrameHeader × Size) : Decidable (Correct x) := inferInstanceAs (Decidable (_ ∧ _))

theorem frameHeader_correct {u : UdpSender} {width height : UInt32} {frame : Encoded}
    {header : FrameHeader} {bytes : List UInt8}
    (h : u.frameHeader width height frame.1 = .ok (header, bytes))
    (hf : Good (width, height) frame.2) : Correct (header, frame.2) := by
  obtain ⟨hsize, hw, hh⟩ := hf
  have hnat : ∀ n : UInt32, n.toNat ≤ 65535 →
      (UInt16.ofNat (min n.toNat 65535)).toNat = n.toNat := by
    intro n hn
    rw [Nat.min_eq_left hn]
    exact Nat.mod_eq_of_lt (Nat.lt_succ_of_le hn)
  simp only [UdpSender.frameHeader] at h
  split at h
  · cases h
  · split at h
    · cases h
    · split at h
      · cases h
      · cases h
        rw [hsize]
        exact ⟨hnat width hw, hnat height hh⟩

/-- The size with which a pipeline was started. -/
def State.Has (s : State) (i : ℕ) (size : Size) : Prop :=
  ∃ p, s.pipelines i = some p ∧ p.source.size = size

structure Inv (s : State) : Prop where
  pipelines : ∀ i p, s.pipelines i = some p → p.Sized
  media : ∀ i, s.mediaReceiver = some i → s.Has i s.streamDims
  swaps : ∀ x ∈ s.swaps, s.Has x.1 x.2
  sender : ∀ t, s.sender = some t → s.Has t.receiver (t.pixelWidth, t.pixelHeight)
  sent : ∀ x ∈ s.sent, Correct x
  fresh : s.started = false → s = State.init s.display

theorem Inv.init (display : Size) : Inv (State.init display) where
  pipelines := fun i p h => by cases h
  media := fun i h => by cases h
  swaps := fun x h => by cases h
  sender := fun t h => by cases h
  sent := fun x h => by cases h
  fresh := fun _ => rfl

section Session

variable {s s' : State}

theorem State.setPipeline_self (i : ℕ) (p : Pipeline) :
    (s.setPipeline i p).pipelines i = some p := Function.update_self _ _ _

variable {i : ℕ} {p p' : Pipeline}

theorem State.Has.setPipeline {j : ℕ} {size : Size} (h : s.Has j size)
    (hp : s.pipelines i = some p) (hsrc : p'.source = p.source) :
    (s.setPipeline i p').Has j size := by
  obtain ⟨q, hq, hsize⟩ := h
  by_cases hij : j = i
  · subst hij
    obtain rfl : p = q := Option.some.inj (hp.symm.trans hq)
    exact ⟨p', State.setPipeline_self j p', hsrc ▸ hsize⟩
  · exact ⟨q, (Function.update_of_ne hij _ _).trans hq, hsize⟩

theorem sized_update {pipelines : ℕ → Option Pipeline}
    (h : ∀ i p, pipelines i = some p → p.Sized) (i : ℕ) (hp' : p'.Sized) :
    ∀ j p, Function.update pipelines i (some p') j = some p → p.Sized := by
  intro j p hj
  by_cases hij : j = i
  · rw [hij, Function.update_self] at hj
    exact Option.some.inj hj ▸ hp'
  · rw [Function.update_of_ne hij] at hj
    exact h j p hj

theorem Inv.setPipeline (h : Inv s) (hp : s.pipelines i = some p)
    (hp' : p'.Sized) (hsrc : p'.source = p.source) : Inv (s.setPipeline i p') where
  pipelines := sized_update h.pipelines i hp'
  media := fun j hj => (h.media j hj).setPipeline hp hsrc
  swaps := fun x hx => (h.swaps x hx).setPipeline hp hsrc
  sender := fun t ht => (h.sender t ht).setPipeline hp hsrc
  sent := h.sent
  fresh := fun hs => by
    rw [h.fresh hs] at hp
    cases hp

theorem State.Has.new {j : ℕ} {size : Size} (h : s.Has j size)
    (hi : s.pipelines i = none) : (s.setPipeline i p).Has j size := by
  obtain ⟨q, hq, hsize⟩ := h
  have hij : j ≠ i := fun heq => by rw [heq, hi] at hq; cases hq
  exact ⟨q, (Function.update_of_ne hij _ _).trans hq, hsize⟩

theorem Inv.restart (h : Inv s) (hi : s.pipelines i = none) (hstart : s.started = true)
    (source : EncoderConfig) (scalePermille : UInt16) :
    Inv (s.restart i source scalePermille) := by
  have hnew : (s.setPipeline i (Pipeline.start source scalePermille)).Has i source.size :=
    ⟨_, State.setPipeline_self i _, rfl⟩
  have hps := sized_update h.pipelines i (Pipeline.Sized.start source scalePermille)
  simp only [State.restart]
  split
  · refine ⟨hps, fun j hj => (h.media j hj).new hi, fun x hx => ?_, fun t ht =>
      (h.sender t ht).new hi, h.sent, fun hs => by simp [State.setPipeline, hstart] at hs⟩
    rcases List.mem_append.1 hx with hx | hx
    · exact (h.swaps x hx).new hi
    · rw [List.mem_singleton.1 hx]
      exact hnew
  · refine ⟨hps, fun j hj => ?_, fun x hx => (h.swaps x hx).new hi, fun t ht =>
      (h.sender t ht).new hi, h.sent, fun hs => by simp [State.setPipeline, hstart] at hs⟩
    obtain rfl : i = j := Option.some.inj hj
    exact hnew

/-- The frames that go into the encoder have the size of their pipeline, or none that an encoder
can be opened with. -/
def Announced (s : State) : Label → Prop
  | .turn i _ _ _ => ∀ p ∈ s.pipelines i, ∀ frame ∈ p.submits,
      (frame.width, frame.height) = p.source.size ∧ Fits p.source.size ∨
        ¬ Encodable (frame.width, frame.height)
  | _ => True

instance (s : State) : DecidablePred (Announced s)
  | .turn i _ _ _ => inferInstanceAs (Decidable (∀ p ∈ s.pipelines i, ∀ frame ∈ p.submits, _ ∨ _))
  | .authenticated .. | .spawnSender | .options .. | .hotplug .. | .stop _ | .control .. | .capture ..
  | .emit _ | .swap | .send .. => isTrue trivial

theorem Pipeline.capture_sized (h : p.Sized) (width height : UInt32)
    (length stride capturedAt : ℕ) : (p.capture width height length stride capturedAt).Sized :=
  h.congr rfl rfl rfl fun _ he => he

theorem Inv.pop (h : Inv s) {queue : List MediaEvent} {e : MediaEvent}
    (hp : s.pipelines i = some p) (hq : p.queue = e :: queue) :
    Inv (s.setPipeline i { p with queue }) :=
  h.setPipeline hp ((h.pipelines i p hp).congr rfl rfl rfl fun _ he =>
    hq ▸ List.mem_cons_of_mem _ he) rfl

theorem Inv.dropReceiver (h : Inv s) (i : ℕ) : Inv (s.dropReceiver i) := by
  simp only [State.dropReceiver]
  split
  · exact h
  next p hp =>
    exact h.setPipeline hp ((h.pipelines i p hp).congr rfl rfl rfl fun _ he => by cases he) rfl

theorem dropReceiver_other (i : ℕ) : (s.dropReceiver i).swaps = s.swaps ∧
    (s.dropReceiver i).started = s.started ∧ (s.dropReceiver i).display = s.display := by
  simp only [State.dropReceiver]
  split <;> exact ⟨rfl, rfl, rfl⟩

theorem Inv.sendVideo (h : Inv s) {t : Sender} {frame : Encoded}
    {queue : List MediaEvent} (ht : s.sender = some t) (hp : s.pipelines t.receiver = some p)
    (hq : p.queue = .video frame :: queue) (origin sendAt : ℕ) (send : ℕ → Option UInt32) :
    Inv (s.sendVideo t t.receiver p frame queue origin sendAt send) := by
  have h₁ := h.pop hp hq
  obtain ⟨q, hqp, hsize⟩ := h.sender t ht
  obtain rfl : p = q := Option.some.inj (hp.symm.trans hqp)
  have hgood : Good (t.pixelWidth, t.pixelHeight) frame.2 :=
    hsize ▸ (h.pipelines _ p hp).queue frame (by rw [hq]; exact List.mem_cons_self)
  refine ⟨h₁.pipelines, h₁.media, h₁.swaps, fun t' ht' => ?_, fun x hx => ?_, fun hf => ?_⟩
  · obtain rfl := Option.some.inj ht'
    exact h₁.sender t ht
  · simp only [State.sendVideo] at hx
    split at hx
    next header bytes _ hheader _ =>
      rcases List.mem_append.1 hx with hx | hx
      · exact h.sent x hx
      · rw [List.mem_singleton.1 hx]
        exact frameHeader_correct hheader hgood
    · exact h.sent x hx
  · rw [h.fresh hf] at ht
    cases ht

theorem Inv.step {label : Label} (h : Inv s) (hC : Announced s label)
    (hs : LinuxMedia.step s label = some s') : Inv s' := by
  cases label with
  | authenticated i bitrate fps =>
    simp only [LinuxMedia.step] at hs
    split at hs
    · cases hs
    next hn =>
      have hs₀ := h.fresh (by simpa using hn)
      cases hs
      rw [hs₀]
      refine ⟨sized_update (Inv.init _).pipelines i (Pipeline.Sized.start _ _), fun j hj => ?_, nofun, nofun, nofun,
        nofun⟩
      obtain rfl : i = j := Option.some.inj hj
      exact ⟨_, State.setPipeline_self i _, rfl⟩
  | spawnSender =>
    simp only [LinuxMedia.step] at hs
    split at hs
    next i hsend hm =>
      cases hs
      refine ⟨h.pipelines, nofun, h.swaps, fun t ht => ?_, h.sent, fun hf => ?_⟩
      · obtain rfl := Option.some.inj ht
        exact h.media i hm
      · rw [h.fresh hf] at hm
        cases hm
    · cases hs
  | options i width height scalePermille bitrate fps =>
    simp only [LinuxMedia.step, Option.ite_none_right_eq_some, Option.some.injEq] at hs
    obtain ⟨⟨hstart, hi⟩, rfl⟩ := hs
    exact h.restart hi hstart _ _
  | hotplug i width height scalePermille bitrate fps =>
    simp only [LinuxMedia.step, Option.ite_none_right_eq_some, Option.some.injEq] at hs
    obtain ⟨⟨hstart, hi⟩, rfl⟩ := hs
    exact h.restart hi hstart _ _
  | stop i =>
    obtain ⟨p, hp, rfl⟩ := Option.map_eq_some_iff.1 hs
    exact h.setPipeline hp ((h.pipelines i p hp).congr rfl rfl rfl fun _ he => he) rfl
  | control i forceKeyframe bitrate =>
    obtain ⟨p, hp, rfl⟩ := Option.map_eq_some_iff.1 hs
    exact h.setPipeline hp ((h.pipelines i p hp).congr rfl rfl rfl fun _ he => he) rfl
  | capture i width height length stride capturedAt =>
    obtain ⟨p, hp, rfl⟩ := Option.map_eq_some_iff.1 hs
    exact h.setPipeline hp (Pipeline.capture_sized (h.pipelines i p hp) _ _ _ _ _) rfl
  | turn i ff start now =>
    obtain ⟨p, hp, hs⟩ := Option.bind_eq_some_iff.1 hs
    obtain ⟨p', ht, rfl⟩ := Option.map_eq_some_iff.1 hs
    obtain ⟨hsz, hsrc⟩ := (h.pipelines i p hp).turn ht (hC p hp)
    exact h.setPipeline hp hsz hsrc
  | emit i =>
    obtain ⟨p, hp, hs⟩ := Option.bind_eq_some_iff.1 hs
    obtain ⟨p', ht, rfl⟩ := Option.map_eq_some_iff.1 hs
    obtain ⟨hsz, hsrc⟩ := (h.pipelines i p hp).emit ht
    exact h.setPipeline hp hsz hsrc
  | swap =>
    simp only [LinuxMedia.step] at hs
    split at hs
    next t i size swaps ht hsw =>
      cases hs
      have h₁ := h.dropReceiver t.receiver
      obtain ⟨hswaps, hstarted, -⟩ := dropReceiver_other (s := s) t.receiver
      rw [hsw] at hswaps
      refine ⟨h₁.pipelines, h₁.media, fun x hx => h₁.swaps x (hswaps ▸ List.mem_cons_of_mem _ hx),
        fun t' ht' => ?_, h₁.sent, fun hf => ?_⟩
      · obtain rfl := Option.some.inj ht'
        exact h₁.swaps (i, size) (hswaps ▸ List.mem_cons_self)
      · rw [h.fresh (hstarted ▸ hf)] at ht
        cases ht
    · cases hs
  | send origin sendAt send =>
    simp only [LinuxMedia.step] at hs
    split at hs
    · cases hs
    next t ht =>
      obtain ⟨p, hp, hs⟩ := Option.bind_eq_some_iff.1 hs
      split at hs
      · cases hs
      next queue hq =>
        cases hs
        exact h.pop hp hq
      next frame queue hq =>
        cases hs
        exact h.sendVideo ht hp hq origin sendAt send

/-- **Which size a header carries.**  In a run in which every frame that goes into an encoder has
the size its pipeline was handed over with, every header sent names the size its frame was encoded
with. -/
theorem frame_sizes {display : Size} {labels : List Label}
    (hC : Along step Announced (State.init display) labels)
    (h : run step (State.init display) labels = some s) : ∀ x ∈ s.sent, Correct x :=
  (run_inv_along (I := Inv) (fun hI hC hs => hI.step hC hs) (Inv.init display) hC h).sent

end Session

/-! ### A change of resolution -/

/-- A codec that gives each packet off at once. -/
def promptCodec : Ffmpeg := ⟨true, some [], some [([0, 0, 0, 1, 38], true)]⟩

/-- A session on a display of 1920 by 1080; the pipeline captures a frame, encodes it and the
sender thread sends it. -/
def oneFrame (width height : UInt32) : List Label :=
  [.authenticated 0 8000000 60, .spawnSender, .turn 0 promptCodec 0 0,
    .capture 0 width height (width.toNat * height.toNat * 4) (width.toNat * 4) 0,
    .turn 0 promptCodec 1 1, .turn 0 promptCodec 1 1, .turn 0 promptCodec 1 1,
    .turn 0 promptCodec 1 2, .emit 0, .send 0 3 fun _ => some 0]

theorem frame_sizes_same :
    ∃ s, run step (State.init (1920, 1080)) (oneFrame 1920 1080) = some s ∧ s.sent ≠ [] ∧
      ∀ x ∈ s.sent, Correct x := by
  have hC : Along step Announced (State.init (1920, 1080)) (oneFrame 1920 1080) := by
    decide
  exact ⟨_, rfl, by decide, frame_sizes hC rfl⟩

/-- **The size of the pipeline is sent for a frame of another size.**  The display has changed to
1280 by 720; the encoder adopts it, and the header still says 1920 by 1080. -/
theorem old_size_sent :
    ∃ s, run step (State.init (1920, 1080)) (oneFrame 1280 720) = some s ∧
      ∃ x ∈ s.sent, x.2 = (1280, 720) ∧ x.1.width = 1920 ∧ x.1.height = 1080 ∧ ¬ Correct x :=
  ⟨_, rfl, by decide⟩

end MahoRD.LinuxMedia
