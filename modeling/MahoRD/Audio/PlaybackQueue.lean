/-
MahoRD/Audio/PlaybackQueue.lean

The queue between the received PCM and the sound card (`AudioQueue` in
`maho-render/src/audio.rs`).

Behind the samples stands a queue of whole stereo frames (`Reference`): a valid push keeps the
newest of them, a call for so many frames takes the oldest.  The queue always holds the samples of
that one (`playback_queue`), so no frame is ever split, and it does not matter whether the samples
come as bytes or are staged in a ring.
-/
import MahoRD.Lib.Bytes
import MahoRD.Lib.Newest

namespace MahoRD.Playback

open Newest

def audioQueueCapacity : ℕ := 48000 * 2 / 10

structure QueueState where
  samples : List Float32
  volume : Float32
  muted : Bool
  underrunSamples : UInt64

inductive AudioError
  | misalignedPcm (length : ℕ)
  | misalignedSamples
  | nonFinitePcm
  | invalidVolume (volume : Float32)

namespace QueueState

def default : QueueState := ⟨[], 1.0, false, 0⟩

/-- The samples are known to be valid. -/
def appendValidated (q : QueueState) (samples : List Float32) : QueueState :=
  let skip := samples.length - audioQueueCapacity
  let retained := samples.length - skip
  let overflow := q.samples.length + retained - audioQueueCapacity
  { q with samples := q.samples.drop overflow ++ samples.drop skip }

/-- Little-endian, four bytes each. -/
def samplesOf : List UInt8 → List Float32
  | a :: b :: c :: d :: bytes =>
    Float32.ofBits (UInt32.ofNat (Bytes.ofLE [a, b, c, d])) :: samplesOf bytes
  | _ => []

def pushPcmBytes (q : QueueState) (bytes : List UInt8) : Except AudioError Unit × QueueState :=
  if bytes.length % (4 * 2) ≠ 0 then (.error (.misalignedPcm bytes.length), q)
  else if (samplesOf bytes).any fun sample => !sample.isFinite then (.error .nonFinitePcm, q)
  else (.ok (), q.appendValidated (samplesOf bytes))

end QueueState

/-- At most 100 ms of input.  Once that is full, `ring` is the place of the oldest sample. -/
structure Staging where
  pending : List Float32
  ring : ℕ
  overflowed : Bool

namespace Staging

/-- One frame more. -/
def push (s : Staging) (left right : Float32) : Staging :=
  if s.pending.length < audioQueueCapacity then
    { s with pending := s.pending ++ [left, right] }
  else
    let pending := s.pending.set s.ring left
    let ring := (s.ring + 1) % audioQueueCapacity
    let pending := pending.set ring right
    let ring := (ring + 1) % audioQueueCapacity
    { pending, ring, overflowed := true }

def stage (s : Staging) : List Float32 → Except AudioError Staging
  | [] => .ok s
  | [_] => .error .misalignedSamples
  | left :: right :: input =>
    if !left.isFinite || !right.isFinite then .error .nonFinitePcm
    else (s.push left right).stage input

/-- In the order of the input. -/
def ordered (s : Staging) : List Float32 :=
  if s.overflowed then s.pending.rotate s.ring else s.pending

end Staging

namespace QueueState

def pushSamples (q : QueueState) (samples : List Float32) : Except AudioError Unit × QueueState :=
  match Staging.stage ⟨[], 0, false⟩ samples with
  | .error e => (.error e, q)
  | .ok staging => (.ok (), q.appendValidated staging.ordered)

def clear (q : QueueState) : QueueState := { q with samples := [] }

def setVolume (q : QueueState) (volume : Float32) : Except AudioError Unit × QueueState :=
  if !volume.isFinite || !((0.0 : Float32) ≤ volume ∧ volume ≤ 1.0) then
    (.error (.invalidVolume volume), q)
  else (.ok (), { q with volume })

def setMuted (q : QueueState) (muted : Bool) : QueueState := { q with muted }

def gain (q : QueueState) : Float32 := if q.muted then 0.0 else q.volume

/-- The slots of the output one after the other: what they get, and how many get a sample. -/
def fill (gain : Float32) : ℕ → QueueState → List Float32 × ℕ × QueueState
  | 0, q => ([], 0, q)
  | slots + 1, q =>
    match q.samples with
    | sample :: samples =>
      let (output, consumed, q) := fill gain slots { q with samples }
      (sample * gain :: output, consumed + 1, q)
    | [] =>
      let (output, consumed, q) := fill gain slots
        { q with underrunSamples := q.underrunSamples + 1 }
      (0.0 :: output, consumed, q)

/-- An output of so many slots: what they get, and how many samples have been consumed. -/
def drainInto (q : QueueState) (slots : ℕ) :
    Except AudioError (List Float32 × ℕ) × QueueState :=
  if slots % 2 ≠ 0 then (.error .misalignedSamples, q)
  else
    let (output, consumed, q) := fill q.gain slots q
    (.ok (output, consumed), q)

end QueueState

/-! ### Operations -/

inductive Op
  | pushPcmBytes (bytes : List UInt8)
  | pushSamples (samples : List Float32)
  | drainInto (slots : ℕ)
  | clear
  | setVolume (volume : Float32)
  | setMuted (muted : Bool)

/-- Whether an operation succeeds, and what an output gets. -/
inductive Answer
  | done (ok : Bool)
  | drained (result : Option (List Float32 × ℕ))

def QueueState.step (q : QueueState) : Op → Answer × QueueState
  | .pushPcmBytes bytes => let (result, q) := q.pushPcmBytes bytes; (.done result.isOk, q)
  | .pushSamples samples => let (result, q) := q.pushSamples samples; (.done result.isOk, q)
  | .drainInto slots => let (result, q) := q.drainInto slots; (.drained result.toOption, q)
  | .clear => (.done true, q.clear)
  | .setVolume volume => let (result, q) := q.setVolume volume; (.done result.isOk, q)
  | .setMuted muted => (.done true, q.setMuted muted)

/-! ### A queue of frames -/

abbrev Frame := Float32 × Float32

def Frame.samples (frame : Frame) : List Float32 := [frame.1, frame.2]

/-- The frames of valid samples: each is whole and finite. -/
def framesOf : List Float32 → Option (List Frame)
  | [] => some []
  | [_] => none
  | left :: right :: samples =>
    if left.isFinite && right.isFinite then (framesOf samples).map ((left, right) :: ·) else none

/-- `zeroFilled`: the slots of all outputs that no sample was left for. -/
structure Reference where
  frames : List Frame
  volume : Float32
  muted : Bool
  zeroFilled : ℕ

namespace Reference

def default : Reference := ⟨[], 1.0, false, 0⟩

/-- The newest frames stay. -/
def push (r : Reference) (samples : List Float32) : Answer × Reference :=
  match framesOf samples with
  | none => (.done false, r)
  | some frames =>
    (.done true, { r with frames := (r.frames ++ frames).rtake (audioQueueCapacity / 2) })

/-- The oldest frames go. -/
def drain (r : Reference) (slots : ℕ) : Answer × Reference :=
  if slots % 2 ≠ 0 then (.drained none, r)
  else
    let samples := (r.frames.take (slots / 2)).flatMap Frame.samples
    let gain := if r.muted then 0.0 else r.volume
    (.drained (some (samples.map (· * gain) ++ List.replicate (slots - samples.length) 0.0,
        samples.length)),
      { r with
        frames := r.frames.drop (slots / 2)
        zeroFilled := r.zeroFilled + (slots - samples.length) })

def step (r : Reference) : Op → Answer × Reference
  | .pushPcmBytes bytes =>
    if bytes.length % 4 ≠ 0 then (.done false, r) else r.push (QueueState.samplesOf bytes)
  | .pushSamples samples => r.push samples
  | .drainInto slots => r.drain slots
  | .clear => (.done true, { r with frames := [] })
  | .setVolume volume =>
    if volume.isFinite ∧ (0.0 : Float32) ≤ volume ∧ volume ≤ 1.0 then
      (.done true, { r with volume })
    else (.done false, r)
  | .setMuted muted => (.done true, { r with muted })

end Reference

/-- The queue holds the samples of the frames. -/
structure Represents (q : QueueState) (r : Reference) : Prop where
  samples : q.samples = r.frames.flatMap Frame.samples
  volume : q.volume = r.volume
  muted : q.muted = r.muted
  underrunSamples : q.underrunSamples = UInt64.ofNat r.zeroFilled

/-! ### Pushes -/

theorem appendValidated_samples (q : QueueState) (samples : List Float32) :
    (q.appendValidated samples).samples = (q.samples ++ samples).rtake audioQueueCapacity := by
  simp only [QueueState.appendValidated, List.rtake]
  generalize audioQueueCapacity = capacity
  have hold : q.samples.length + (samples.length - (samples.length - capacity)) - capacity
      = min q.samples.length (q.samples.length + samples.length - capacity) := by
    omega
  have hnew : samples.length - capacity
      = q.samples.length + samples.length - capacity - q.samples.length := by
    omega
  rw [hold, hnew, List.drop_append, List.length_append]
  congr 1
  rcases Nat.le_total q.samples.length (q.samples.length + samples.length - capacity) with h | h
  · rw [Nat.min_eq_left h, List.drop_length, List.drop_eq_nil_of_le h]
  · rw [Nat.min_eq_right h]

theorem flatMap_framesOf {samples : List Float32} {frames : List Frame}
    (h : framesOf samples = some frames) : frames.flatMap Frame.samples = samples := by
  fun_induction framesOf samples generalizing frames with
  | case1 =>
    cases h
    rfl
  | case2 => cases h
  | case3 left right samples hfinite ih =>
    obtain ⟨rest, hrest, rfl⟩ := Option.map_eq_some_iff.mp h
    rw [List.flatMap_cons, ih hrest]
    rfl
  | case4 => cases h

theorem framesOf_isSome (samples : List Float32) :
    (framesOf samples).isSome =
      (decide (samples.length % 2 = 0) && samples.all Float32.isFinite) := by
  fun_induction framesOf samples with
  | case1 => rfl
  | case2 => rfl
  | case3 left right samples hfinite ih =>
    rw [Bool.and_eq_true] at hfinite
    have hlength : (left :: right :: samples).length % 2 = samples.length % 2 := by
      rw [List.length_cons, List.length_cons]
      omega
    rw [Option.isSome_map, ih, hlength, List.all_cons, List.all_cons, hfinite.1, hfinite.2,
      Bool.true_and, Bool.true_and]
  | case4 left right samples hfinite =>
    rw [List.all_cons, List.all_cons, ← Bool.and_assoc (left.isFinite),
      Bool.eq_false_iff.mpr hfinite, Bool.false_and, Bool.and_false]
    rfl

/-- What the staging holds of the input so far. -/
structure Staging.Holds (s : Staging) (input : List Float32) : Prop where
  ordered : s.pending.rotate s.ring = input.rtake audioQueueCapacity
  length : s.pending.length = min audioQueueCapacity input.length
  even : input.length % 2 = 0
  ring : s.ring < audioQueueCapacity
  overflowed : s.overflowed = false → s.ring = 0
  full : s.pending.length < audioQueueCapacity → s.overflowed = false

variable {s : Staging}

theorem Staging.Holds.push {input : List Float32} (h : s.Holds input)
    (left right : Float32) : (s.push left right).Holds (input ++ [left, right]) := by
  have hpositive : 0 < audioQueueCapacity := by decide
  have heven : audioQueueCapacity % 2 = 0 := by decide
  have hlength := h.length
  have hinput := h.even
  have hadded : (input ++ [left, right]).length = input.length + 2 := by
    rw [List.length_append]
    rfl
  rw [Staging.push]
  by_cases hroom : s.pending.length < audioQueueCapacity
  · rw [if_pos hroom]
    have hoverflowed : s.overflowed = false := h.full hroom
    have hring := h.overflowed hoverflowed
    have hshort : input.length ≤ audioQueueCapacity := by omega
    have hpending : s.pending = input := by
      have := h.ordered
      rwa [hring, List.rotate_zero, rtake_eq_self hshort] at this
    constructor
    · show (s.pending ++ [left, right]).rotate s.ring = _
      rw [hring, List.rotate_zero, hpending, rtake_eq_self (by omega)]
    · show (s.pending ++ [left, right]).length = _
      rw [hpending]
      omega
    · omega
    · exact h.ring
    · exact h.overflowed
    · exact fun _ => hoverflowed
  · rw [if_neg hroom]
    have hfull : s.pending.length = audioQueueCapacity := by omega
    have hleft := rotate_set_rtake hfull h.ring (by omega) h.ordered left
    have hring := Nat.mod_lt (s.ring + 1) hpositive
    have hright := rotate_set_rtake (List.length_set.trans hfull) hring
      (by rw [List.length_append]; omega) hleft right
    rw [List.append_assoc] at hright
    constructor
    · exact hright
    · show ((s.pending.set s.ring left).set _ right).length = _
      rw [List.length_set, List.length_set]
      omega
    · omega
    · exact Nat.mod_lt _ hpositive
    · intro h
      cases h
    · intro h
      have hlong : ((s.pending.set s.ring left).set _ right).length < audioQueueCapacity := h
      rw [List.length_set, List.length_set] at hlong
      omega

theorem Staging.Holds.stage {before : List Float32} (h : s.Holds before)
    (input : List Float32) :
    (framesOf input = none ∧ ∃ e, s.stage input = .error e) ∨
      ∃ s', framesOf input ≠ none ∧ s.stage input = .ok s' ∧ s'.Holds (before ++ input) := by
  fun_induction framesOf input generalizing s before with
  | case1 =>
    refine .inr ⟨s, by simp, rfl, ?_⟩
    rw [List.append_nil]
    exact h
  | case2 => exact .inl ⟨rfl, _, rfl⟩
  | case3 left right samples hfinite ih =>
    have hstep : s.stage (left :: right :: samples) = (s.push left right).stage samples := by
      rw [Staging.stage, ← Bool.not_and, hfinite]
      rfl
    rw [hstep]
    rcases ih (h.push left right) with ⟨hnone, hfail⟩ | ⟨s', hsome, hstage, hholds⟩
    · exact .inl ⟨by rw [hnone]; rfl, hfail⟩
    · refine .inr ⟨s', by simpa using hsome, hstage, ?_⟩
      rw [List.append_assoc] at hholds
      exact hholds
  | case4 left right samples hfinite =>
    refine .inl ⟨rfl, .nonFinitePcm, ?_⟩
    rw [Staging.stage, ← Bool.not_and, Bool.eq_false_iff.mpr hfinite]
    rfl

theorem Staging.Holds.ordered_eq {input : List Float32} (h : s.Holds input) :
    Staging.ordered s = input.rtake audioQueueCapacity := by
  rw [Staging.ordered]
  cases hoverflowed : s.overflowed with
  | true => exact h.ordered
  | false =>
    have := h.ordered
    rw [h.overflowed hoverflowed, List.rotate_zero] at this
    exact this

theorem holds_nil : Staging.Holds ⟨[], 0, false⟩ [] where
  ordered := rfl
  length := (Nat.min_zero _).symm
  even := rfl
  ring := by decide
  overflowed _ := rfl
  full _ := rfl

/-- What a push of samples does, on either path. -/
def pushed (q : QueueState) (samples : List Float32) : QueueState :=
  match framesOf samples with
  | none => q
  | some _ => { q with samples := (q.samples ++ samples).rtake audioQueueCapacity }

theorem appendValidated_eq (q : QueueState) (samples : List Float32) :
    q.appendValidated samples =
      { q with samples := (q.samples ++ samples).rtake audioQueueCapacity } := by
  rw [← appendValidated_samples]
  rfl

theorem pushSamples_spec (q : QueueState) (samples : List Float32) :
    (q.pushSamples samples).1.isOk = (framesOf samples).isSome ∧
      (q.pushSamples samples).2 = pushed q samples := by
  rw [QueueState.pushSamples, pushed]
  rcases holds_nil.stage samples with ⟨hnone, e, hfail⟩ | ⟨s', hsome, hstage, hholds⟩
  · rw [hfail, hnone]
    exact ⟨rfl, rfl⟩
  · obtain ⟨frames, hframes⟩ := Option.ne_none_iff_exists'.mp hsome
    rw [hstage, hframes]
    refine ⟨rfl, ?_⟩
    show q.appendValidated s'.ordered = _
    rw [appendValidated_eq, hholds.ordered_eq, List.nil_append, rtake_append_rtake]

theorem length_samplesOf (bytes : List UInt8) :
    (QueueState.samplesOf bytes).length = bytes.length / 4 := by
  fun_induction QueueState.samplesOf bytes with
  | case1 a b c d bytes ih =>
    rw [List.length_cons, ih, List.length_cons, List.length_cons, List.length_cons,
      List.length_cons]
    omega
  | case2 bytes hshort =>
    have hlt : bytes.length < 4 := by
      match bytes, hshort with
      | [], _ | [_], _ | [_, _], _ | [_, _, _], _ => simp
      | a :: b :: c :: d :: bytes, hshort => exact absurd rfl (hshort a b c d bytes)
    exact (Nat.div_eq_of_lt hlt).symm

theorem pushPcmBytes_spec (q : QueueState) {bytes : List UInt8} (h : bytes.length % 4 = 0) :
    (q.pushPcmBytes bytes).1.isOk = (framesOf (QueueState.samplesOf bytes)).isSome ∧
      (q.pushPcmBytes bytes).2 = pushed q (QueueState.samplesOf bytes) := by
  have hsome := framesOf_isSome (QueueState.samplesOf bytes)
  rw [length_samplesOf] at hsome
  rw [QueueState.pushPcmBytes, pushed]
  by_cases haligned : bytes.length % (4 * 2) = 0
  · have heven : bytes.length / 4 % 2 = 0 := by omega
    rw [if_neg (not_not.mpr haligned)]
    rw [decide_eq_true heven, Bool.true_and] at hsome
    by_cases hfinite : (QueueState.samplesOf bytes).all Float32.isFinite = true
    · have hany : (QueueState.samplesOf bytes).any (fun sample => !sample.isFinite) = false := by
        rw [List.any_eq_not_all_not]
        simpa using hfinite
      rw [hfinite] at hsome
      obtain ⟨frames, hframes⟩ := Option.isSome_iff_exists.mp hsome
      rw [hany, hframes]
      exact ⟨rfl, appendValidated_eq q _⟩
    · have hany : (QueueState.samplesOf bytes).any (fun sample => !sample.isFinite) = true := by
        rw [List.any_eq_not_all_not]
        simpa using hfinite
      have hnone := Option.not_isSome_iff_eq_none.mp (hsome ▸ hfinite)
      rw [hany, hnone]
      exact ⟨rfl, rfl⟩
  · have hodd : ¬ bytes.length / 4 % 2 = 0 := by omega
    rw [decide_eq_false hodd, Bool.false_and] at hsome
    have hnone := Option.not_isSome_iff_eq_none.mp (Bool.eq_false_iff.mp hsome)
    rw [if_pos haligned, hnone]
    exact ⟨rfl, rfl⟩

/-! ### Outputs -/

theorem fill_eq (gain : Float32) (slots : ℕ) (q : QueueState) :
    QueueState.fill gain slots q =
      ((q.samples.take slots).map (· * gain) ++ List.replicate (slots - q.samples.length) 0.0,
        (q.samples.take slots).length,
        { q with
          samples := q.samples.drop slots
          underrunSamples := q.underrunSamples + .ofNat (slots - q.samples.length) }) := by
  induction slots generalizing q with
  | zero =>
    rw [QueueState.fill, Nat.zero_sub]
    have hzero : q.underrunSamples + UInt64.ofNat 0 = q.underrunSamples := UInt64.add_zero _
    rw [hzero]
    rfl
  | succ slots ih =>
    rw [QueueState.fill]
    cases hsamples : q.samples with
    | nil =>
      simp only [ih, List.take_nil, List.map_nil, List.nil_append, List.drop_nil, List.length_nil,
        Nat.sub_zero]
      have hcount : q.underrunSamples + 1 + UInt64.ofNat slots
          = q.underrunSamples + UInt64.ofNat (slots + 1) := by
        rw [UInt64.ofNat_add, UInt64.add_assoc, UInt64.add_comm 1]
        rfl
      rw [hcount]
      rfl
    | cons sample samples =>
      simp only [ih, List.take_succ_cons, List.map_cons, List.length_cons, List.drop_succ_cons,
        Nat.add_sub_add_right]
      rfl

theorem represents_default : Represents .default .default := ⟨rfl, rfl, rfl, rfl⟩

variable {q : QueueState} {r : Reference}

theorem length_flatMap_samples (frames : List Frame) :
    (frames.flatMap Frame.samples).length = 2 * frames.length := by
  induction frames with
  | nil => rfl
  | cons frame frames ih =>
    rw [List.flatMap_cons, List.length_append, ih, List.length_cons]
    show 2 + _ = _
    omega

theorem take_drop_flatMap (frames : List Frame) (n : ℕ) :
    (frames.flatMap Frame.samples).take (2 * n) = (frames.take n).flatMap Frame.samples ∧
      (frames.flatMap Frame.samples).drop (2 * n) = (frames.drop n).flatMap Frame.samples := by
  have hsplit : frames.flatMap Frame.samples
      = (frames.take n).flatMap Frame.samples ++ (frames.drop n).flatMap Frame.samples := by
    rw [← List.flatMap_append, List.take_append_drop]
  rcases Nat.le_total n frames.length with hle | hle
  · have hlength : ((frames.take n).flatMap Frame.samples).length = 2 * n := by
      rw [length_flatMap_samples, List.length_take, Nat.min_eq_left hle]
    rw [hsplit]
    exact ⟨List.take_left' hlength, List.drop_left' hlength⟩
  · have hlength : (frames.flatMap Frame.samples).length ≤ 2 * n := by
      rw [length_flatMap_samples]
      omega
    rw [List.take_of_length_le hle, List.drop_eq_nil_of_le hle, List.take_of_length_le hlength,
      List.drop_eq_nil_of_le hlength]
    exact ⟨rfl, rfl⟩

theorem rtake_samples (frames : List Frame) :
    (frames.flatMap Frame.samples).rtake audioQueueCapacity
      = (frames.rtake (audioQueueCapacity / 2)).flatMap Frame.samples := by
  have hcapacity : audioQueueCapacity / 2 * 2 = audioQueueCapacity := by decide
  have hnewest := rtake_flatMap (f := Frame.samples) (k := 2) (fun _ => rfl) frames
    (audioQueueCapacity / 2)
  rwa [hcapacity] at hnewest

theorem Represents.replace (h : Represents q r) {samples : List Float32} {frames : List Frame}
    (hsamples : samples = frames.flatMap Frame.samples) :
    Represents { q with samples } { r with frames } :=
  ⟨hsamples, h.volume, h.muted, h.underrunSamples⟩

theorem Represents.pushed (h : Represents q r) (samples : List Float32) :
    Represents (pushed q samples) (r.push samples).2 := by
  cases hframes : framesOf samples with
  | none =>
    rw [Playback.pushed, Reference.push, hframes]
    exact h
  | some frames =>
    have hnewest := rtake_samples (r.frames ++ frames)
    rw [List.flatMap_append, flatMap_framesOf hframes, ← h.samples] at hnewest
    have hreplace := h.replace hnewest
    have hqueue : Playback.pushed q samples =
        { q with samples := (q.samples ++ samples).rtake audioQueueCapacity } := by
      rw [Playback.pushed, hframes]
    have hframe : r.push samples = (.done true,
        { r with frames := (r.frames ++ frames).rtake (audioQueueCapacity / 2) }) := by
      rw [Reference.push, hframes]
    rw [hqueue, hframe]
    exact hreplace

theorem push_answer (r : Reference) (samples : List Float32) :
    (r.push samples).1 = .done (framesOf samples).isSome := by
  rw [Reference.push]
  cases framesOf samples with
  | none => rfl
  | some frames => rfl

theorem Represents.drain (h : Represents q r) (slots : ℕ) :
    (q.step (.drainInto slots)).1 = (r.drain slots).1 ∧
      Represents (q.step (.drainInto slots)).2 (r.drain slots).2 := by
  rw [Reference.drain]
  simp only [QueueState.step, QueueState.drainInto]
  by_cases hodd : slots % 2 ≠ 0
  · rw [if_pos hodd, if_pos hodd]
    exact ⟨rfl, h⟩
  · rw [if_neg hodd, if_neg hodd, fill_eq]
    obtain ⟨n, rfl⟩ : ∃ n, slots = 2 * n := ⟨slots / 2, by omega⟩
    obtain ⟨htake, hdrop⟩ := take_drop_flatMap r.frames n
    have hhalf : 2 * n / 2 = n := by omega
    have hgain : q.gain = if r.muted then 0.0 else r.volume := by
      rw [QueueState.gain, h.muted, h.volume]
    have hmissing : 2 * n - ((r.frames.take n).flatMap Frame.samples).length
        = 2 * n - (r.frames.flatMap Frame.samples).length := by
      rw [length_flatMap_samples, length_flatMap_samples, List.length_take]
      omega
    rw [h.samples, htake, hgain, hhalf]
    refine ⟨?_, ⟨hdrop, h.volume, h.muted, ?_⟩⟩
    · rw [hmissing]
      rfl
    · show q.underrunSamples + _ = UInt64.ofNat (_ + _)
      rw [h.underrunSamples, UInt64.ofNat_add, hmissing]

theorem Represents.step (h : Represents q r) (op : Op) :
    (q.step op).1 = (r.step op).1 ∧ Represents (q.step op).2 (r.step op).2 := by
  cases op with
  | pushPcmBytes bytes =>
    by_cases haligned : bytes.length % 4 = 0
    · obtain ⟨hok, hpushed⟩ := pushPcmBytes_spec q haligned
      have hrepresents := h.pushed (QueueState.samplesOf bytes)
      rw [Reference.step, if_neg (not_not.mpr haligned), push_answer, ← hok]
      refine ⟨rfl, ?_⟩
      show Represents (q.pushPcmBytes bytes).2 _
      rw [hpushed]
      exact hrepresents
    · have hbytes : q.pushPcmBytes bytes = (.error (.misalignedPcm bytes.length), q) :=
        if_pos (by omega)
      rw [Reference.step, if_pos haligned, QueueState.step, hbytes]
      exact ⟨rfl, h⟩
  | pushSamples samples =>
    obtain ⟨hok, hpushed⟩ := pushSamples_spec q samples
    have hrepresents := h.pushed samples
    rw [Reference.step, push_answer, ← hok]
    refine ⟨rfl, ?_⟩
    show Represents (q.pushSamples samples).2 _
    rw [hpushed]
    exact hrepresents
  | drainInto slots => exact h.drain slots
  | clear => exact ⟨rfl, ⟨rfl, h.volume, h.muted, h.underrunSamples⟩⟩
  | setVolume volume =>
    rw [Reference.step, QueueState.step, QueueState.setVolume]
    by_cases hvalid : volume.isFinite = true ∧ (0.0 : Float32) ≤ volume ∧ volume ≤ 1.0
    · rw [if_pos hvalid, if_neg (by simp [hvalid])]
      exact ⟨rfl, ⟨h.samples, rfl, h.muted, h.underrunSamples⟩⟩
    · have hinvalid : (!volume.isFinite ||
          !decide ((0.0 : Float32) ≤ volume ∧ volume ≤ 1.0)) = true := by
        rw [← Bool.not_and, Bool.not_eq_true', Bool.and_eq_false_iff]
        by_contra hnot
        simp only [not_or, Bool.not_eq_false, decide_eq_true_eq] at hnot
        exact hvalid hnot
      rw [if_neg hvalid, if_pos hinvalid]
      exact ⟨rfl, h⟩
  | setMuted muted => exact ⟨rfl, ⟨h.samples, h.volume, rfl, h.underrunSamples⟩⟩

/-! ### Runs -/

def QueueState.run (q : QueueState) : List Op → List Answer × QueueState
  | [] => ([], q)
  | op :: ops =>
    let (answer, q) := q.step op
    let (answers, q) := QueueState.run q ops
    (answer :: answers, q)

def Reference.run (r : Reference) : List Op → List Answer × Reference
  | [] => ([], r)
  | op :: ops =>
    let (answer, r) := r.step op
    let (answers, r) := Reference.run r ops
    (answer :: answers, r)

theorem Represents.run (h : Represents q r) (ops : List Op) :
    (q.run ops).1 = (r.run ops).1 ∧ Represents (q.run ops).2 (r.run ops).2 := by
  induction ops generalizing q r with
  | nil => exact ⟨rfl, h⟩
  | cons op ops ih =>
    obtain ⟨hanswer, hstep⟩ := h.step op
    obtain ⟨hanswers, hrun⟩ := ih hstep
    refine ⟨?_, hrun⟩
    show (q.step op).1 :: ((q.step op).2.run ops).1 = (r.step op).1 :: ((r.step op).2.run ops).1
    rw [hanswer, hanswers]

/-- **In every run the queue holds the samples of the frames and gives the same answers, and bytes
and samples are pushed alike.**  Slots that get no sample are counted modulo `2 ^ 64`. -/
theorem playback_queue (ops : List Op) :
    (QueueState.default.run ops).1 = (Reference.default.run ops).1 ∧
      Represents (QueueState.default.run ops).2 (Reference.default.run ops).2 ∧
      ∀ (q : QueueState) (bytes : List UInt8), bytes.length % 4 = 0 →
        (q.pushPcmBytes bytes).1.isOk = (q.pushSamples (QueueState.samplesOf bytes)).1.isOk ∧
          (q.pushPcmBytes bytes).2 = (q.pushSamples (QueueState.samplesOf bytes)).2 := by
  obtain ⟨hanswers, hrepresents⟩ := represents_default.run ops
  refine ⟨hanswers, hrepresents, fun q bytes haligned => ?_⟩
  obtain ⟨hok, hpushed⟩ := pushPcmBytes_spec q haligned
  obtain ⟨hok', hpushed'⟩ := pushSamples_spec q (QueueState.samplesOf bytes)
  exact ⟨hok.trans hok'.symm, hpushed.trans hpushed'.symm⟩

end MahoRD.Playback
