/-
MahoRD/Host/WireAudio.lean

What a capture device delivers, converted to the wire's audio: stereo at 48 kHz
(`convert_to_wire_audio`).  The device's format is checked once (`parse_mix_format`); samples are
kept as the bits of an `f32`, and frames between two samples are interpolated.

The index of a source frame comes out of floating-point arithmetic.  As long as there is memory
for what goes out, rounding cannot take it past the last frame (`sourceIndex_lt`).
-/
import MahoRD.Lib.FloatBounds
import MahoRD.Lib.Panics
import MahoRD.Lib.Chunks
import MahoRD.Lib.Bytes

namespace MahoRD.WireAudio

open Panics Floats

def wireAudioChannels : ℕ := 2

def wireAudioSampleRate : UInt32 := 48000

structure SourceAudioFormat where
  channels : ℕ
  sampleRate : UInt32
  isFloat : Bool

/-! ### The device's format -/

/-- `WAVEFORMATEX`, with the sub-format of an extensible one. -/
structure MixFormat where
  formatTag : UInt16
  subFormat : ℕ
  channels : UInt16
  samplesPerSec : UInt32
  bitsPerSample : UInt16

def ieeeFloatSubformat : ℕ := 0x0000000300000010800000aa00389b71

def waveFormatIeeeFloat : UInt16 := 3

def waveFormatExtensible : UInt16 := 0xFFFE

def waveFormatPcm : UInt16 := 1

def sampleKind (format : MixFormat) : Except String Bool :=
  if format.formatTag = waveFormatIeeeFloat then .ok true
  else if format.formatTag = waveFormatExtensible then
    .ok (format.subFormat = ieeeFloatSubformat)
  else if format.formatTag = waveFormatPcm then .ok false
  else .error ("unsupported mix format tag: 0x"
    ++ String.ofList (Nat.toDigits 16 format.formatTag.toNat))

/-- `parse_mix_format` -/
def parseMixFormat (format : MixFormat) : Except String SourceAudioFormat := do
  let isFloat ← sampleKind format
  let expectedBits : UInt16 := if isFloat then 32 else 16
  if format.bitsPerSample ≠ expectedBits then
    .error ("unsupported sample width: " ++ toString format.bitsPerSample.toNat ++
      " bits (expected " ++ toString expectedBits.toNat ++ ")")
  else if format.channels.toNat = 0 then .error "mix format has no channels"
  else if format.samplesPerSec = 0 then .error "mix format has no sample rate"
  else return ⟨format.channels.toNat, format.samplesPerSec, isFloat⟩

/-! ### Conversion -/

def bytesPerSample (source : SourceAudioFormat) : ℕ := if source.isFloat then 4 else 2

/-- The bits of the sample at an offset. -/
def sampleAt (pcm : List UInt8) (isFloat : Bool) (offset : ℕ) : Except (Halt Refused) UInt32 :=
  if isFloat then do
    let bytes ← slice pcm offset (offset + 4)
    return UInt32.ofNat (Bytes.ofLE bytes)
  else do
    let bytes ← slice pcm offset (offset + 2)
    return (Float32.ofInt (Int16.ofNat (Bytes.ofLE bytes)).toInt / 32768.0).toBits

/-- The first two channels of a frame, or its only one twice. -/
def readFrame (pcm : List UInt8) (source : SourceAudioFormat) (frame : ℕ) :
    Except (Halt Refused) (List UInt32) :=
  let frameBytes := bytesPerSample source * source.channels
  let readSample (channel : ℕ) :=
    sampleAt pcm source.isFloat (frame * frameBytes + channel * bytesPerSample source)
  if source.channels = 1 then do
    let mono ← readSample 0
    return [mono, mono]
  else do
    let left ← readSample 0
    let right ← readSample 1
    return [left, right]

/-- `left + (right - left) * frac` -/
def interpolate (left right : UInt32) (frac : Float32) : UInt32 :=
  (Float32.ofBits left + (Float32.ofBits right - Float32.ofBits left) * frac).toBits

def position (sampleRate : UInt32) (frame : ℕ) : Float :=
  (UInt64.ofNat frame).toFloat * (sampleRate.toFloat / wireAudioSampleRate.toFloat)

/-- `position.floor() as usize`: of a number that is not negative, the whole part. -/
def sourceIndex (sampleRate : UInt32) (frame : ℕ) : ℕ := (position sampleRate frame).toUInt64.toNat

/-- One frame of the output. -/
def resampledFrame (samples : List UInt32) (sourceFrames : ℕ) (sampleRate : UInt32) (frame : ℕ) :
    Except (Halt Refused) (List UInt32) :=
  let index := sourceIndex sampleRate frame
  let next := min (index + 1) (sourceFrames - 1)
  let frac := narrow (position sampleRate frame - (UInt64.ofNat index).toFloat)
  (List.range wireAudioChannels).mapM fun channel => do
    let left ← Panics.index samples (index * wireAudioChannels + channel)
    let right ← Panics.index samples (next * wireAudioChannels + channel)
    return interpolate left right frac

def resample (allocates : ℕ → Bool) (samples : List UInt32) (sourceFrames : ℕ)
    (sampleRate : UInt32) : Except (Halt Refused) (List UInt32) := do
  let scaled ← fits (2 ^ 64 - 1) (sourceFrames * wireAudioSampleRate.toNat)
  let outputFrames ← divide scaled sampleRate.toNat
  withCapacity allocates (outputFrames * wireAudioChannels * 4)
  let resampled ← (List.range outputFrames).mapM
    (resampledFrame samples sourceFrames sampleRate)
  return resampled.flatten

/-- The samples at the wire's rate. -/
def atWireRate (allocates : ℕ → Bool) (samples : List UInt32) (sourceFrames : ℕ)
    (sampleRate : UInt32) : Except (Halt Refused) (List UInt32) :=
  if sampleRate = wireAudioSampleRate then .ok samples
  else resample allocates samples sourceFrames sampleRate

/-- `convert_to_wire_audio` -/
def convertToWireAudio (allocates : ℕ → Bool) (pcm : List UInt8) (source : SourceAudioFormat) :
    Except (Halt Refused) (List UInt8) :=
  if source.channels = 0 then return []
  else do
    let frameBytes := bytesPerSample source * source.channels
    let frameCount ← divide pcm.length (max frameBytes 1)
    if frameCount = 0 then return []
    else do
      withCapacity allocates (frameCount * wireAudioChannels * 4)
      let frames ← (List.range frameCount).mapM (readFrame pcm source)
      let output ← atWireRate allocates frames.flatten frameCount source.sampleRate
      withCapacity allocates (output.length * 4)
      return output.flatMap fun sample => Bytes.toLE 4 sample.toNat

/-! ### The index of a source frame -/

theorem farFromZero_wireRate : FarFromZero 48000 wireAudioSampleRate.toFloat := by
  have hvalue : (48000 : ℚ) ≤ (6597069766656000 : ℕ) * 2 ^ (-37 : ℤ) := by norm_num
  exact hvalue

variable {sampleRate : UInt32} {f n : ℕ}

theorem bounded_step (hrate : 0 < sampleRate.toNat) :
    Bounded (sampleRate.toNat / 48000 * (1 + 1 / 2 ^ 50))
      (sampleRate.toFloat / wireAudioSampleRate.toFloat) := by
  have hone : (1 : ℚ) ≤ sampleRate.toNat := by exact_mod_cast hrate
  have hword : (sampleRate.toNat : ℚ) < 2 ^ 32 := by exact_mod_cast sampleRate.toNat_lt
  generalize hR : (sampleRate.toNat : ℚ) = R at hone hword ⊢
  have hrounded : roundUp .binary64 R ≤ R * (1 + 1 / 2 ^ 52) :=
    roundUp_binary64_le (le_trans (by norm_num) hone)
  have htop : roundUp .binary64 R < top .binary64 := by linarith [top_binary64]
  have hstep : roundUp .binary64 (roundUp .binary64 R / 48000) ≤ R / 48000 * (1 + 1 / 2 ^ 50) :=
    calc roundUp .binary64 (roundUp .binary64 R / 48000)
        ≤ roundUp .binary64 (R * (1 + 1 / 2 ^ 52) / 48000) :=
          roundUp_mono (div_le_div_of_nonneg_right hrounded (by norm_num))
      _ ≤ R * (1 + 1 / 2 ^ 52) / 48000 * (1 + 1 / 2 ^ 52) := roundUp_binary64_le (by linarith)
      _ ≤ R / 48000 * (1 + 1 / 2 ^ 50) := by linarith
  have hrate := bounded_toFloat sampleRate (hR ▸ htop)
  rw [hR] at hrate
  exact (hrate.div farFromZero_wireRate (by norm_num) (by linarith [top_binary64])).mono hstep

theorem bounded_position (hrate : 0 < sampleRate.toNat) (hf : 0 < f) (hsmall : f < 2 ^ 44) :
    Bounded (f * (sampleRate.toNat / 48000) * (1 + 1 / 2 ^ 49)) (position sampleRate f) := by
  have hstep := bounded_step hrate
  have hone : (1 : ℚ) / 48000 ≤ sampleRate.toNat / 48000 := by
    have : (1 : ℚ) ≤ sampleRate.toNat := by exact_mod_cast hrate
    linarith
  have hword : (sampleRate.toNat : ℚ) / 48000 ≤ 2 ^ 17 := by
    have : (sampleRate.toNat : ℚ) < 2 ^ 32 := by exact_mod_cast sampleRate.toNat_lt
    linarith
  generalize (sampleRate.toNat : ℚ) / 48000 = ratio at hstep hone hword ⊢
  have hfone : (1 : ℚ) ≤ f := by exact_mod_cast hf
  have hfsmall : (f : ℚ) < 2 ^ 44 := by exact_mod_cast hsmall
  have hfval : (UInt64.ofNat f).toNat = f := Nat.mod_eq_of_lt (by omega)
  have hfround : roundUp .binary64 (f : ℚ) ≤ f * (1 + 1 / 2 ^ 52) :=
    roundUp_binary64_le (le_trans (by norm_num) hfone)
  have hframe := bounded_toFloat64 (.ofNat f) (by rw [hfval]; linarith [top_binary64])
  rw [hfval] at hframe
  have hprod : f * (1 + 1 / 2 ^ 52) * (ratio * (1 + 1 / 2 ^ 50)) * (1 + 1 / 2 ^ 52)
      ≤ f * ratio * (1 + 1 / 2 ^ 49) := by
    have : 0 ≤ f * ratio := by positivity
    nlinarith
  have hlow : (1 : ℚ) / 2 ^ 100 ≤ f * (1 + 1 / 2 ^ 52) * (ratio * (1 + 1 / 2 ^ 50)) := by
    have : (1 : ℚ) / 48000 ≤ f * ratio := by nlinarith
    nlinarith
  have hround : roundUp .binary64 (roundUp .binary64 f * (ratio * (1 + 1 / 2 ^ 50)))
      ≤ f * ratio * (1 + 1 / 2 ^ 49) :=
    calc _ ≤ roundUp .binary64 (f * (1 + 1 / 2 ^ 52) * (ratio * (1 + 1 / 2 ^ 50))) :=
          roundUp_mono (mul_le_mul_of_nonneg_right hfround (by positivity))
      _ ≤ f * (1 + 1 / 2 ^ 52) * (ratio * (1 + 1 / 2 ^ 50)) * (1 + 1 / 2 ^ 52) :=
          roundUp_binary64_le hlow
      _ ≤ f * ratio * (1 + 1 / 2 ^ 49) := hprod
  have hlarge : (f : ℚ) * ratio * (1 + 1 / 2 ^ 49) ≤ 2 ^ 44 * 2 ^ 17 * 2 := by
    gcongr
    norm_num
  exact (hframe.mul hstep (by linarith [top_binary64])).mono hround

theorem sourceIndex_zero (hrate : 0 < sampleRate.toNat) : sourceIndex sampleRate 0 = 0 := by
  have hzero : Bounded 0 (UInt64.ofNat 0).toFloat := .zero .positive le_rfl
  have hround : roundUp .binary64 0 ≤ 1 / 2 ^ 100 * (1 + 1 / 2 ^ 52) :=
    (roundUp_mono (by norm_num)).trans (roundUp_binary64_le le_rfl)
  have hposition := (hzero.mul (bounded_step hrate)
    (by rw [zero_mul]; linarith [top_binary64])).toUInt64_le
  rw [zero_mul] at hposition
  have hlt : (sourceIndex sampleRate 0 : ℚ) < 1 := by
    refine lt_of_le_of_lt (hposition.trans hround) (by norm_num)
  exact Nat.lt_one_iff.mp (by exact_mod_cast hlt)

/-- **Rounding does not reach the next frame**: the index stays among the source's frames. -/
theorem sourceIndex_lt (hrate : 0 < sampleRate.toNat)
    (hlast : (f + 1) * sampleRate.toNat ≤ n * 48000) (hsmall : f < 2 ^ 44) :
    sourceIndex sampleRate f < n := by
  rcases Nat.eq_zero_or_pos f with rfl | hf
  · rw [sourceIndex_zero hrate]
    omega
  · have hposition := (bounded_position hrate hf hsmall).toUInt64_le
    have hlast' : ((f : ℚ) + 1) * sampleRate.toNat ≤ n * 48000 := by exact_mod_cast hlast
    have hrate' : (0 : ℚ) < sampleRate.toNat := by exact_mod_cast hrate
    have hsmall' : (f : ℚ) < 2 ^ 44 := by exact_mod_cast hsmall
    have herror : (f : ℚ) * sampleRate.toNat * (1 / 2 ^ 49) < sampleRate.toNat := by
      nlinarith
    have hlt : (f : ℚ) * (sampleRate.toNat / 48000) * (1 + 1 / 2 ^ 49) < n := by
      linarith
    exact_mod_cast hposition.trans_lt hlt

/-! ### The loops -/

variable {pcm : List UInt8} {source : SourceAudioFormat} {samples : List UInt32}

theorem sampleAt_of_le {isFloat : Bool} {offset : ℕ}
    (h : offset + (if isFloat then 4 else 2) ≤ pcm.length) :
    ∃ bits, sampleAt pcm isFloat offset = .ok bits := by
  rw [sampleAt]
  split
  next hfloat =>
    rw [if_pos hfloat] at h
    rw [slice_of_le (Nat.le_add_right ..) h]
    exact ⟨_, rfl⟩
  next hint =>
    rw [if_neg hint] at h
    rw [slice_of_le (Nat.le_add_right ..) h]
    exact ⟨_, rfl⟩

theorem readFrame_ok {frame : ℕ} (hchannels : 0 < source.channels)
    (hframe : (frame + 1) * (bytesPerSample source * source.channels) ≤ pcm.length) :
    ∃ bits, readFrame pcm source frame = .ok bits ∧ bits.length = 2 := by
  have hsample (channel : ℕ) (h : channel < source.channels) :
      ∃ bits, sampleAt pcm source.isFloat (frame * (bytesPerSample source * source.channels)
        + channel * bytesPerSample source) = .ok bits := by
    refine sampleAt_of_le (le_trans ?_ hframe)
    have hroom := Nat.mul_le_mul_left (bytesPerSample source) (Nat.succ_le_of_lt h)
    rw [Nat.mul_succ, Nat.mul_comm _ channel] at hroom
    rw [Nat.succ_mul, Nat.add_assoc]
    exact Nat.add_le_add_left hroom _
  obtain ⟨left, hleft⟩ := hsample 0 hchannels
  rw [readFrame]
  dsimp only
  split
  · exact ⟨[left, left], by rw [hleft]; rfl, rfl⟩
  next hmany =>
    obtain ⟨right, hright⟩ := hsample 1 (by omega)
    exact ⟨[left, right], by rw [hleft, ok_bind, hright]; rfl, rfl⟩

theorem resampledFrame_ok (hindex : sourceIndex sampleRate f < n)
    (hsamples : samples.length = n * 2) :
    ∃ bits, resampledFrame samples n sampleRate f = .ok bits ∧ bits.length = 2 := by
  have hsample (index channel : ℕ) (h : index < n) (hchannel : channel < wireAudioChannels) :
      index * wireAudioChannels + channel < samples.length := by
    rw [wireAudioChannels] at hchannel ⊢
    omega
  obtain ⟨bits, hbits, hlen, -⟩ := mapM_range (P := fun _ _ => True) (n := wireAudioChannels)
    (f := fun channel => (do
      let left ← Panics.index samples (sourceIndex sampleRate f * wireAudioChannels + channel)
      let right ← Panics.index samples
        (min (sourceIndex sampleRate f + 1) (n - 1) * wireAudioChannels + channel)
      return interpolate left right (narrow (position sampleRate f -
        (UInt64.ofNat (sourceIndex sampleRate f)).toFloat)) : Except (Halt Refused) UInt32))
    (fun channel hchannel => by
      rw [index_of_lt (hsample _ _ hindex hchannel), ok_bind,
        index_of_lt (hsample _ _ (by omega) hchannel)]
      exact ⟨_, rfl, trivial⟩)
  exact ⟨bits, hbits, hlen⟩

theorem parseMixFormat_ok {format : MixFormat} (h : parseMixFormat format = .ok source) :
    0 < source.channels ∧ 0 < source.sampleRate.toNat := by
  rw [parseMixFormat] at h
  rcases hkind : sampleKind format with e | isFloat
  · rw [hkind] at h
    cases h
  rw [hkind, ok_bind] at h
  generalize (if isFloat = true then 32 else 16 : UInt16) = expectedBits at h
  by_cases hbits : format.bitsPerSample ≠ expectedBits
  · rw [if_pos hbits] at h
    cases h
  rw [if_neg hbits] at h
  split at h
  · cases h
  next hchannels =>
    split at h
    · cases h
    next hrate =>
      cases h
      exact ⟨Nat.pos_of_ne_zero hchannels,
        Nat.pos_of_ne_zero fun hzero => hrate (UInt32.toNat_inj.mp hzero)⟩

variable {allocates : ℕ → Bool}

theorem length_flatten_pairs {pieces : List (List UInt32)}
    (hlen : pieces.length = n) (h : ∀ (i : ℕ) piece, pieces[i]? = some piece → piece.length = 2) :
    pieces.flatten.length = n * 2 := by
  refine (Chunks.length_flatten fun piece hmem => ?_).trans (by rw [hlen])
  obtain ⟨i, hi⟩ := List.mem_iff_getElem?.mp hmem
  exact h i piece hi

theorem readFrames_ok (pcm : List UInt8) (hchannels : 0 < source.channels)
    (hn : n * (bytesPerSample source * source.channels) ≤ pcm.length) :
    ∃ frames, (List.range n).mapM (readFrame pcm source) = .ok frames ∧
      frames.flatten.length = n * 2 := by
  obtain ⟨frames, hframes, hlen, htwo⟩ := mapM_range (n := n) (f := readFrame pcm source)
    fun frame hframe => readFrame_ok hchannels
      ((Nat.mul_le_mul_right _ (Nat.succ_le_of_lt hframe)).trans hn)
  exact ⟨frames, hframes, length_flatten_pairs hlen htwo⟩

theorem resample_ok (hgrants : ∀ bytes, allocates bytes = true → bytes < 2 ^ 47)
    (hrate : 0 < sampleRate.toNat) (hn : n < 2 ^ 44) (hsamples : samples.length = n * 2)
    (hroom : allocates (8 * (n * 48000 / sampleRate.toNat)) = true) :
    ∃ output, resample allocates samples n sampleRate = .ok output ∧
      output.length = n * 48000 / sampleRate.toNat * 2 := by
  have hfew : n * 48000 / sampleRate.toNat < 2 ^ 44 := by
    have := hgrants _ hroom
    omega
  obtain ⟨frames, hframes, hlen, htwo⟩ := mapM_range (n := n * 48000 / sampleRate.toNat)
    (f := resampledFrame samples n sampleRate) fun frame hframe => by
      refine resampledFrame_ok (sourceIndex_lt hrate ?_ (by omega)) hsamples
      exact (Nat.mul_le_mul_right _ (Nat.succ_le_of_lt hframe)).trans (Nat.div_mul_le_self ..)
  refine ⟨frames.flatten, ?_, length_flatten_pairs hlen htwo⟩
  have hbytes : n * 48000 / sampleRate.toNat * wireAudioChannels * 4
      = 8 * (n * 48000 / sampleRate.toNat) := by
    rw [wireAudioChannels]
    omega
  have hwire : wireAudioSampleRate.toNat = 48000 := rfl
  rw [resample, hwire, fits_of_le (by omega), ok_bind, divide_of_pos hrate, ok_bind, hbytes,
    withCapacity, if_pos hroom, ok_bind, hframes]
  rfl

theorem resample_refused (hrate : 0 < sampleRate.toNat) (hn : n < 2 ^ 44)
    (hroom : allocates (8 * (n * 48000 / sampleRate.toNat)) = false) :
    resample allocates samples n sampleRate = .error (.error .refused) := by
  have hbytes : n * 48000 / sampleRate.toNat * wireAudioChannels * 4
      = 8 * (n * 48000 / sampleRate.toNat) := by
    rw [wireAudioChannels]
    omega
  have hwire : wireAudioSampleRate.toNat = 48000 := rfl
  rw [resample, hwire, fits_of_le (by omega), ok_bind, divide_of_pos hrate, ok_bind, hbytes,
    withCapacity, if_neg (by simp [hroom])]
  rfl

theorem bytesPerSample_pos (source : SourceAudioFormat) : 0 < bytesPerSample source := by
  rw [bytesPerSample]
  split <;> decide

theorem atWireRate_ok (hgrants : ∀ bytes, allocates bytes = true → bytes < 2 ^ 47)
    (hrate : 0 < sampleRate.toNat) (hn : n < 2 ^ 44) (hsamples : samples.length = n * 2)
    (hroom : allocates (8 * (n * 48000 / sampleRate.toNat)) = true) :
    ∃ output, atWireRate allocates samples n sampleRate = .ok output ∧
      output.length = n * 48000 / sampleRate.toNat * 2 := by
  rw [atWireRate]
  split
  next hwire =>
    have hsame : n * 48000 / sampleRate.toNat = n := by
      rw [hwire]
      exact Nat.mul_div_cancel n (by decide)
    exact ⟨samples, rfl, by rw [hsame, hsamples]⟩
  next => exact resample_ok hgrants hrate hn hsamples hroom

/-- Without memory for what goes out, the program ends; at the wire's rate it has it. -/
theorem atWireRate_refused (hrate : 0 < sampleRate.toNat) (hn : n < 2 ^ 44)
    (hin : allocates (8 * n) = true)
    (hroom : allocates (8 * (n * 48000 / sampleRate.toNat)) = false) :
    atWireRate allocates samples n sampleRate = .error (.error .refused) := by
  rw [atWireRate]
  split
  next hwire =>
    have hsame : n * 48000 / sampleRate.toNat = n := by
      rw [hwire]
      exact Nat.mul_div_cancel n (by decide)
    rw [hsame, hin] at hroom
    cases hroom
  next => exact resample_refused hrate hn hroom

theorem length_wireBytes (output : List UInt32) :
    (output.flatMap fun sample => Bytes.toLE 4 sample.toNat).length = output.length * 4 := by
  rw [List.flatMap_def, Chunks.length_flatten (n := 4) ?_, List.length_map]
  intro piece hmem
  obtain ⟨sample, -, rfl⟩ := List.mem_map.mp hmem
  exact Bytes.length_toLE ..

/-- **Wire audio conversion is total**: for every format that a device may report and every buffer,
there is a frame of eight bytes for each of `⌊n * 48000 / rate⌋`, unless the allocator has no
memory for the samples. -/
theorem wire_audio_total (allocates : ℕ → Bool)
    (hgrants : ∀ bytes, allocates bytes = true → bytes < 2 ^ 47) (format : MixFormat)
    (source : SourceAudioFormat) (hformat : parseMixFormat format = .ok source)
    (pcm : List UInt8) :
    let n := pcm.length / (bytesPerSample source * source.channels)
    let frames := n * 48000 / source.sampleRate.toNat
    let run := convertToWireAudio allocates pcm source
    (∃ wire, run = .ok wire ∧ wire.length = 8 * frames) ∨
      run = .error (.error .refused) ∧
        (allocates (8 * n) = false ∨ allocates (8 * frames) = false) := by
  obtain ⟨hchannels, hrate⟩ := parseMixFormat_ok hformat
  have hframe : 0 < bytesPerSample source * source.channels :=
    Nat.mul_pos (bytesPerSample_pos source) hchannels
  intro n frames run
  have hrun : run = convertToWireAudio allocates pcm source := rfl
  rw [convertToWireAudio, if_neg hchannels.ne'] at hrun
  dsimp only at hrun
  rw [max_eq_left hframe, divide_of_pos hframe, ok_bind] at hrun
  split at hrun
  next hnone =>
    refine .inl ⟨[], hrun, ?_⟩
    have hframes : frames = 0 := by
      change n * 48000 / source.sampleRate.toNat = 0
      rw [show n = 0 from hnone, Nat.zero_mul, Nat.zero_div]
    rw [hframes]
    rfl
  next =>
    have hbytes (k : ℕ) : k * wireAudioChannels * 4 = 8 * k := by
      rw [wireAudioChannels]
      omega
    rw [hbytes, withCapacity] at hrun
    rcases hin : allocates (8 * n) with - | -
    · rw [if_neg (by simp [n, hin])] at hrun
      exact .inr ⟨hrun, .inl rfl⟩
    have hn : n < 2 ^ 44 := by
      have := hgrants _ hin
      omega
    obtain ⟨pieces, hpieces, hsamples⟩ := readFrames_ok (n := n) pcm hchannels
      (Nat.div_mul_le_self ..)
    rw [if_pos hin, ok_bind, hpieces, ok_bind] at hrun
    rcases hout : allocates (8 * frames) with - | -
    · rw [atWireRate_refused hrate hn hin hout] at hrun
      exact .inr ⟨hrun, .inr rfl⟩
    obtain ⟨output, houtput, hlen⟩ := atWireRate_ok hgrants hrate hn hsamples hout
    have hsize : output.length * 4 = 8 * frames := by
      rw [hlen]
      omega
    rw [houtput, ok_bind, hsize, withCapacity, if_pos hout, ok_bind] at hrun
    exact .inl ⟨_, hrun, by rw [length_wireBytes, hsize]⟩

/-- Two stereo frames at half the wire's rate become four. -/
theorem wire_audio_total_upsampled :
    ∃ wire, convertToWireAudio (fun bytes => bytes < 2 ^ 47) (List.replicate 16 0) ⟨2, 24000, true⟩
      = .ok wire ∧ wire.length = 32 := by
  rcases wire_audio_total (fun bytes => bytes < 2 ^ 47) (fun _ h => of_decide_eq_true h)
    ⟨waveFormatIeeeFloat, 0, 2, 24000, 32⟩ ⟨2, 24000, true⟩ rfl (List.replicate 16 0)
    with h | ⟨-, h | h⟩
  · exact h
  · exact absurd h (by decide)
  · exact absurd h (by decide)

end MahoRD.WireAudio
