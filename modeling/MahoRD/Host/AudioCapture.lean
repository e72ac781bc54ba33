/-
MahoRD/Host/AudioCapture.lean

The audio capture of a Linux host (`LinuxAudioCapture` in `maho-host/src/audio_linux.rs`), from the
pipe of the recorder to blocks of samples.  A call is given how long its output is and what the
system answers: the poll, how many bytes a read finds, and whether the recorder can be stopped.

`stdout` is what is still to be read from the pipe and `lastRead` what the last read has found; the
code has neither.  What a call leaves of the read buffer is never used again and is left out.
-/
import Mathlib.Data.List.Induction
import Mathlib.Data.Nat.Basic
import MahoRD.Lib.Chunks

namespace MahoRD.AudioCapture

open Chunks

def channels : ℕ := 2

def bytesPerSample : ℕ := 4

def bytesPerSampleFrame : ℕ := channels * bytesPerSample

inductive AudioError
  | eof | cancelled | io

inductive Poll
  | ready | notReady | interrupted | failed

/-- `stop` is loaded at the beginning and again after the poll.  A read that does not fail finds
`more + 1` bytes, unless there are fewer or there is no room for them. -/
structure Call where
  outputLen : ℕ
  stop : Bool
  poll : Poll
  stopLater : Bool
  read : Option ℕ
  shutdown : Bool

structure LinuxAudioCapture where
  pending : List UInt8
  stdout : List UInt8
  lastRead : List UInt8

section Model

variable {F32 : Type} (fromNeBytes : List UInt8 → F32)

/-- The samples of a block; `f32::from_ne_bytes` is a parameter. -/
def samples (bytes : List UInt8) : List F32 := (exact bytesPerSample bytes).map fromNeBytes

/-- The whole stereo frames. -/
def frames (bytes : List UInt8) : List (List UInt8) := exact bytesPerSampleFrame bytes

abbrev Answer (F32 : Type) := Except AudioError (List F32)

/-- The recorder is shut down before a terminal error. -/
def Call.terminal (call : Call) (error : AudioError) : AudioError :=
  if call.shutdown then error else .io

namespace LinuxAudioCapture

def start (stream : List UInt8) : LinuxAudioCapture := ⟨[], stream, []⟩

/-- Take bytes from the pipe; an answer on the left ends the call. -/
def readPipe (c : LinuxAudioCapture) (byteCapacity : ℕ) (call : Call) :
    Answer F32 ⊕ LinuxAudioCapture :=
  match call.read with
  | none => .inl (.error .io)
  | some more =>
    let count := min (more + 1) (max byteCapacity bytesPerSampleFrame)
    let read := c.stdout.take count
    if read = [] then .inl (.error (call.terminal .eof))
    else .inr ⟨c.pending ++ read, c.stdout.drop count, read⟩

/-- Wait for bytes, but not for long. -/
def fill (c : LinuxAudioCapture) (byteCapacity : ℕ) (call : Call) :
    Answer F32 ⊕ LinuxAudioCapture :=
  match call.poll with
  | .interrupted => .inl (.ok [])
  | .failed => .inl (.error .io)
  | .notReady => if call.stopLater then .inl (.error (call.terminal .cancelled)) else .inl (.ok [])
  | .ready =>
    if call.stopLater then .inl (.error (call.terminal .cancelled))
    else c.readPipe byteCapacity call

/-- The whole frames that are pending, as far as there is room for them. -/
def take (c : LinuxAudioCapture) (byteCapacity : ℕ) : List F32 × LinuxAudioCapture :=
  let completeBytes := min c.pending.length byteCapacity
  let completeBytes := completeBytes - completeBytes % bytesPerSampleFrame
  (samples fromNeBytes (c.pending.take completeBytes),
    { c with pending := c.pending.drop completeBytes })

/-- `read_interleaved_f32_cancellable` -/
def readInterleaved (c : LinuxAudioCapture) (call : Call) : Answer F32 × LinuxAudioCapture :=
  if call.stop then (.error (call.terminal .cancelled), c)
  else
    let sampleCapacity := call.outputLen - call.outputLen % channels
    if sampleCapacity = 0 then (.ok [], c)
    else
      let byteCapacity := sampleCapacity * bytesPerSample
      let filled : Answer F32 ⊕ LinuxAudioCapture :=
        if c.pending.length < bytesPerSampleFrame then c.fill byteCapacity call else .inr c
      match filled with
      | .inl answer => (answer, c)
      | .inr c =>
        let (block, c) := c.take fromNeBytes byteCapacity
        (.ok block, c)

end LinuxAudioCapture

/-- A capture and its answers so far. -/
structure Session (F32 : Type) where
  capture : LinuxAudioCapture
  answers : List (Answer F32)

namespace Session

def start (stream : List UInt8) : Session F32 := ⟨.start stream, []⟩

def call (s : Session F32) (call : Call) : Session F32 :=
  let (answer, capture) := s.capture.readInterleaved fromNeBytes call
  ⟨capture, s.answers ++ [answer]⟩

/-- The samples of all blocks, one after the other. -/
def delivered (s : Session F32) : List F32 :=
  (s.answers.filterMap Except.toOption).flatten

end Session

end Model

/-! ### One call -/

section Calls

variable {F32 : Type} {fromNeBytes : List UInt8 → F32} {c c' : LinuxAudioCapture} {call : Call}
  {capacity : ℕ} {answer : Answer F32}

theorem terminal_eq_eof {error : AudioError} (h : call.terminal error = .eof) : error = .eof := by
  rw [Call.terminal] at h
  split_ifs at h
  exact h

/-- What has been read is put behind what is pending. -/
structure Filled (c c' : LinuxAudioCapture) : Prop where
  carry : c.pending.length < bytesPerSampleFrame
  some : c'.lastRead ≠ []
  pending : c'.pending = c.pending ++ c'.lastRead
  stdout : c.stdout = c'.lastRead ++ c'.stdout

theorem filled_of_fill (hcarry : c.pending.length < bytesPerSampleFrame)
    (h : c.fill capacity call = (.inr c' : Answer F32 ⊕ LinuxAudioCapture)) : Filled c c' := by
  have hread : c.readPipe capacity call = (.inr c' : Answer F32 ⊕ LinuxAudioCapture) := by
    rw [LinuxAudioCapture.fill] at h
    split at h
    · cases h
    · cases h
    · split_ifs at h
    · split_ifs at h
      exact h
  rw [LinuxAudioCapture.readPipe] at hread
  split at hread
  · cases hread
  · simp only at hread
    split_ifs at hread with hempty
    cases hread
    exact ⟨hcarry, hempty, rfl, (List.take_append_drop _ _).symm⟩

/-- A call that ends before it takes anything answers nothing, or an error; the end of the stream
only if nothing is left in the pipe. -/
theorem answer_of_fill (h : c.fill capacity call = .inl answer) :
    answer = .ok [] ∨ ∃ e, answer = .error e ∧ (e = .eof → c.stdout = []) := by
  have hcancelled : ∃ e, (.error (call.terminal .cancelled) : Answer F32) = .error e ∧
      (e = .eof → c.stdout = []) :=
    ⟨_, rfl, fun heof => nomatch terminal_eq_eof heof⟩
  rw [LinuxAudioCapture.fill] at h
  split at h
  · cases h
    exact .inl rfl
  · cases h
    exact .inr ⟨.io, rfl, fun heof => nomatch heof⟩
  · split_ifs at h
    · cases h
      exact .inr hcancelled
    · cases h
      exact .inl rfl
  · split_ifs at h
    · cases h
      exact .inr hcancelled
    · rw [LinuxAudioCapture.readPipe] at h
      split at h
      · cases h
        exact .inr ⟨.io, rfl, fun heof => nomatch heof⟩
      · simp only at h
        split_ifs at h with hempty
        cases h
        refine .inr ⟨_, rfl, fun _ => ?_⟩
        -- there was room for a byte
        rcases List.take_eq_nil_iff.mp hempty with hzero | hnil
        · have hpos : 0 < bytesPerSampleFrame := by decide
          omega
        · exact hnil

/-- Whole frames are taken from what is pending, at least one if there is one. -/
structure Took (fromNeBytes : List UInt8 → F32) (c c' : LinuxAudioCapture) (block : List F32)
    (taken : List UInt8) : Prop where
  whole : bytesPerSampleFrame ∣ taken.length
  pending : c.pending = taken ++ c'.pending
  block : block = samples fromNeBytes taken
  one : bytesPerSampleFrame ≤ c.pending.length → bytesPerSampleFrame ≤ taken.length
  stdout : c'.stdout = c.stdout
  lastRead : c'.lastRead = c.lastRead

theorem took (fromNeBytes : List UInt8 → F32) (c : LinuxAudioCapture) (h : bytesPerSampleFrame ≤ capacity) :
    ∃ taken, Took fromNeBytes c (c.take fromNeBytes capacity).2 (c.take fromNeBytes capacity).1
      taken := by
  have hpos : 0 < bytesPerSampleFrame := by decide
  let available := min c.pending.length capacity
  have hle : available - available % bytesPerSampleFrame ≤ c.pending.length := by
    show min c.pending.length capacity - _ ≤ _
    omega
  refine ⟨c.pending.take (available - available % bytesPerSampleFrame), ?_, ?_, rfl, ?_, rfl, rfl⟩
  · rw [List.length_take_of_le hle]
    exact Nat.dvd_sub_mod _
  · exact (List.take_append_drop _ _).symm
  · intro hone
    have havailable : bytesPerSampleFrame ≤ available := Nat.le_min.mpr ⟨hone, h⟩
    rw [List.length_take_of_le hle, ← Nat.div_mul_self_eq_mod_sub_self]
    exact Nat.le_mul_of_pos_left _ (Nat.div_pos havailable hpos)

/-- What a call does. -/
inductive Reads (fromNeBytes : List UInt8 → F32) (c : LinuxAudioCapture) :
    Answer F32 × LinuxAudioCapture → Prop
  | nothing : Reads fromNeBytes c (.ok [], c)
  | failed {e} (h : e = .eof → c.stdout = [] ∧ c.pending.length < bytesPerSampleFrame) :
      Reads fromNeBytes c (.error e, c)
  | took {c' c'' block taken}
      (hready : Filled c c' ∨ c' = c ∧ bytesPerSampleFrame ≤ c.pending.length)
      (htook : Took fromNeBytes c' c'' block taken) : Reads fromNeBytes c (.ok block, c'')

theorem reads (fromNeBytes : List UInt8 → F32) (c : LinuxAudioCapture) (call : Call) :
    Reads fromNeBytes c (c.readInterleaved fromNeBytes call) := by
  rw [LinuxAudioCapture.readInterleaved]
  by_cases hstop : call.stop
  · rw [if_pos hstop]
    exact .failed fun heof => nomatch terminal_eq_eof heof
  rw [if_neg hstop]
  simp only
  by_cases hcapacity : call.outputLen - call.outputLen % channels = 0
  · rw [if_pos hcapacity]
    exact .nothing
  rw [if_neg hcapacity]
  have hroom : bytesPerSampleFrame ≤
      (call.outputLen - call.outputLen % channels) * bytesPerSample := by
    simp only [bytesPerSampleFrame, bytesPerSample, channels] at *
    omega
  by_cases hpending : c.pending.length < bytesPerSampleFrame
  · rw [if_pos hpending]
    cases hfill : (c.fill ((call.outputLen - call.outputLen % channels) * bytesPerSample) call :
      Answer F32 ⊕ LinuxAudioCapture) with
    | inl answer =>
      rcases answer_of_fill hfill with rfl | ⟨e, rfl, he⟩
      · exact .nothing
      · exact .failed fun heof => ⟨he heof, hpending⟩
    | inr c' =>
      obtain ⟨taken, htook⟩ := took fromNeBytes c' hroom
      exact .took (.inl (filled_of_fill hpending hfill)) htook
  · rw [if_neg hpending]
    obtain ⟨taken, htook⟩ := took fromNeBytes c hroom
    exact .took (.inr ⟨rfl, Nat.le_of_not_lt hpending⟩) htook

end Calls

/-! ### All calls -/

section Sessions

variable {F32 : Type} {fromNeBytes : List UInt8 → F32} {stream : List UInt8} {s : Session F32}

/-- What is delivered, what is pending and what is to be read make up the stream. -/
structure Aligned (fromNeBytes : List UInt8 → F32) (stream : List UInt8) (s : Session F32) :
    Prop where
  split : ∃ taken, bytesPerSampleFrame ∣ taken.length ∧ s.delivered = samples fromNeBytes taken ∧
    stream = taken ++ (s.capture.pending ++ s.capture.stdout)
  pending : s.capture.pending.length < bytesPerSampleFrame ∨
    s.capture.pending <:+ s.capture.lastRead
  eof : .error .eof ∈ s.answers →
    s.capture.stdout = [] ∧ s.capture.pending.length < bytesPerSampleFrame

theorem delivered_ok (answers : List (Answer F32)) (block : List F32) (c : LinuxAudioCapture) :
    (⟨c, answers ++ [.ok block]⟩ : Session F32).delivered =
      (answers.filterMap Except.toOption).flatten ++ block := by
  rw [Session.delivered, List.filterMap_append, List.flatten_append]
  exact congrArg _ (List.append_nil block)

theorem delivered_error (answers : List (Answer F32)) (e : AudioError) (c : LinuxAudioCapture) :
    (⟨c, answers ++ [.error e]⟩ : Session F32).delivered =
      (answers.filterMap Except.toOption).flatten := by
  rw [Session.delivered, List.filterMap_append, List.flatten_append]
  exact List.append_nil _

theorem samples_append {a b : List UInt8} (h : bytesPerSampleFrame ∣ a.length) :
    samples fromNeBytes (a ++ b) = samples fromNeBytes a ++ samples fromNeBytes b := by
  have hsample : bytesPerSample ∣ a.length := Nat.dvd_trans (by decide) h
  rw [samples, exact_append (by decide) hsample, List.map_append]
  rfl

theorem pending_suffix {c c' c'' : LinuxAudioCapture} {block : List F32} {taken : List UInt8}
    (hfilled : Filled c c') (htook : Took fromNeBytes c' c'' block taken) :
    c''.pending.length < bytesPerSampleFrame ∨ c''.pending <:+ c''.lastRead := by
  have hpending := htook.pending
  have hlength := congrArg List.length hpending
  rw [List.length_append] at hlength
  rcases Nat.lt_or_ge c'.pending.length bytesPerSampleFrame with hpart | hframe
  · left
    omega
  · right
    have hone := htook.one hframe
    have hcarry := hfilled.carry
    rw [htook.lastRead]
    have hrest : c''.pending <:+ c'.pending := ⟨taken, hpending.symm⟩
    have hread : c'.lastRead <:+ c'.pending := ⟨c.pending, hfilled.pending.symm⟩
    apply List.suffix_of_suffix_length_le hrest hread
    have hsum := congrArg List.length hfilled.pending
    rw [List.length_append] at hsum
    omega

theorem aligned_start (stream : List UInt8) :
    Aligned fromNeBytes stream (Session.start stream) where
  split := ⟨[], Nat.dvd_zero _, rfl, rfl⟩
  pending := .inl (Nat.zero_lt_succ 7)
  eof h := absurd h List.not_mem_nil

theorem Aligned.call (h : Aligned fromNeBytes stream s) (call : Call) :
    Aligned fromNeBytes stream (s.call fromNeBytes call) := by
  obtain ⟨taken, hwhole, hdelivered, hstream⟩ := h.split
  have hread := reads fromNeBytes s.capture call
  rw [Session.call]
  generalize s.capture.readInterleaved fromNeBytes call = result at hread ⊢
  cases hread with
  | nothing =>
    refine ⟨⟨taken, hwhole, ?_, hstream⟩, h.pending, fun heof => h.eof ?_⟩
    · rw [delivered_ok, List.append_nil]
      exact hdelivered
    · simpa using heof
  | @failed e he =>
    refine ⟨⟨taken, hwhole, ?_, hstream⟩, h.pending, fun heof => ?_⟩
    · rw [delivered_error]
      exact hdelivered
    · rcases List.mem_append.mp heof with hbefore | hnow
      · exact h.eof hbefore
      · apply he
        cases List.mem_singleton.mp hnow
        rfl
  | @took c' c'' block now hready htook =>
    have hrest : s.capture.pending ++ s.capture.stdout = now ++ (c''.pending ++ c''.stdout) := by
      rw [← List.append_assoc, ← htook.pending, htook.stdout]
      rcases hready with hfilled | ⟨rfl, -⟩
      · rw [hfilled.pending, hfilled.stdout, List.append_assoc]
      · rfl
    refine ⟨⟨taken ++ now, ?_, ?_, ?_⟩, ?_, fun heof => ?_⟩
    · rw [List.length_append]
      exact Nat.dvd_add hwhole htook.whole
    · rw [delivered_ok, samples_append hwhole, ← htook.block, ← hdelivered]
      rfl
    · rw [hstream, hrest, List.append_assoc]
    · rcases hready with hfilled | ⟨rfl, hframe⟩
      · exact pending_suffix hfilled htook
      · right
        have hbefore := h.pending.resolve_left (Nat.not_lt.mpr hframe)
        show c''.pending <:+ c''.lastRead
        rw [htook.lastRead]
        exact List.IsSuffix.trans ⟨now, htook.pending.symm⟩ hbefore
    · -- after the end there is nothing to read and no frame to take
      obtain ⟨hstdout, hcarry⟩ := h.eof (by simpa using heof)
      rcases hready with hfilled | ⟨-, hframe⟩
      · have hnil := hfilled.stdout
        rw [hstdout] at hnil
        exact (hfilled.some (List.append_eq_nil_iff.mp hnil.symm).1).elim
      · omega

theorem aligned (stream : List UInt8) (calls : List Call) :
    Aligned fromNeBytes stream (calls.foldl (Session.call fromNeBytes) (Session.start stream)) := by
  induction calls using List.reverseRecOn with
  | nil => exact aligned_start stream
  | append_singleton calls call ih =>
    rw [List.foldl_append]
    exact ih.call call

theorem samples_frames {bytes : List UInt8} (h : bytesPerSampleFrame ∣ bytes.length) :
    (frames bytes).flatMap (samples fromNeBytes) = samples fromNeBytes bytes := by
  have hchunks := flatMap_exact (m := bytesPerSample) (by decide) (by decide) (by decide) h
  rw [samples, ← hchunks, List.map_flatMap]
  rfl

end Sessions

end MahoRD.AudioCapture
