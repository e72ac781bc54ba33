/-
MahoRD/Proto/Framing.lean

The frames of the TCP stream (`maho-proto/src/framing.rs`): four bytes of
length, least significant first, and the payload.  A length of zero or above
16 MiB cannot be a frame; the reader reports it and forgets what it holds.

The reader is a reader of a stream in pieces (`TcpFrameReader.reader`), so the
events do not depend on how the stream arrives.
-/
import MahoRD.Lib.Incremental
import MahoRD.Proto.Codec

namespace MahoRD

open Incremental

def maxTcpFrameSize : ℕ := 16 * 1024 * 1024

/-- `TcpFrameWriter::encode`. -/
def TcpFrameWriter.encode (payload : List UInt8) : Except CodecError (List UInt8) :=
  if payload.isEmpty ∨ payload.length > maxTcpFrameSize then
    .error (.invalidFrameLength
      (if payload.length < UInt32.size then UInt32.ofNat payload.length else UInt32.ofNat (UInt32.size - 1)))
  else .ok (Bytes.toLE 4 payload.length ++ payload)

inductive TcpFrameEvent
  | frame (payload : List UInt8)
  | droppedInvalidLength (length : UInt32)

structure TcpFrameReader where
  buffer : List UInt8

namespace TcpFrameReader

def new : TcpFrameReader := ⟨[]⟩

/-- The loop of `push` over the part of the buffer behind the offset: the events, and what stays
in the buffer. -/
def readFrames (rest : List UInt8) : List TcpFrameEvent × List UInt8 :=
  if rest.length < 4 then ([], rest)
  else
    let length := UInt32.ofNat (Bytes.ofLE (rest.take 4))
    if length = 0 ∨ length.toNat > maxTcpFrameSize then ([.droppedInvalidLength length], [])
    else
      let frameEnd := 4 + length.toNat
      if rest.length < frameEnd then ([], rest)
      else
        let (events, left) := readFrames (rest.drop frameEnd)
        (.frame ((rest.take frameEnd).drop 4) :: events, left)
  termination_by rest.length
  decreasing_by
    have hlong : 4 ≤ rest.length := Nat.le_of_not_lt ‹¬ rest.length < 4›
    rw [List.length_drop]
    exact Nat.sub_lt (Nat.lt_of_lt_of_le (by decide) hlong) (Nat.add_pos_left (by decide) _)

def push (r : TcpFrameReader) (input : List UInt8) : List TcpFrameEvent × TcpFrameReader :=
  let (events, buffer) := readFrames (r.buffer ++ input)
  (events, ⟨buffer⟩)

/-- The chunks one after the other, and all the events. -/
def pushAll (r : TcpFrameReader) : List (List UInt8) → List TcpFrameEvent × TcpFrameReader
  | [] => ([], r)
  | chunk :: chunks =>
    let (events, r) := r.push chunk
    let (later, r) := r.pushAll chunks
    (events ++ later, r)

/-! ### As a reader of a stream in pieces -/

def isDrop : TcpFrameEvent → Bool
  | .frame _ => false
  | .droppedInvalidLength _ => true

/-- The length that a frame starts with. -/
def frameLength (buffer : List UInt8) : UInt32 := UInt32.ofNat (Bytes.ofLE (buffer.take 4))

/-- One round of the loop. -/
def look (buffer : List UInt8) : Look UInt8 TcpFrameEvent :=
  if buffer.length < 4 then .more
  else if frameLength buffer = 0 ∨ (frameLength buffer).toNat > maxTcpFrameSize then
    .stop (.droppedInvalidLength (frameLength buffer))
  else if buffer.length < 4 + (frameLength buffer).toNat then .more
  else .item (.frame ((buffer.take (4 + (frameLength buffer).toNat)).drop 4))
    (buffer.drop (4 + (frameLength buffer).toNat))

variable {buffer : List UInt8}

theorem look_eq_item {rest : List UInt8} {e : TcpFrameEvent} :
    look buffer = .item e rest ↔ 4 ≤ buffer.length ∧
      (frameLength buffer ≠ 0 ∧ (frameLength buffer).toNat ≤ maxTcpFrameSize) ∧
      4 + (frameLength buffer).toNat ≤ buffer.length ∧
      .frame ((buffer.take (4 + (frameLength buffer).toNat)).drop 4) = e ∧
      buffer.drop (4 + (frameLength buffer).toNat) = rest := by
  simp only [look]
  split
  next h => simp [Nat.not_le.mpr h]
  split
  next hlen h => simpa using fun _ h0 hle => (h.elim h0 (Nat.not_lt.mpr hle)).elim
  split
  next h => simp [Nat.not_le.mpr h]
  next h4 hlen hend =>
    rw [not_or, Nat.not_lt] at hlen
    simp [Nat.not_lt.mp h4, hlen.1, hlen.2, Nat.not_lt.mp hend]

theorem look_eq_stop {e : TcpFrameEvent} :
    look buffer = .stop e ↔ 4 ≤ buffer.length ∧
      (frameLength buffer = 0 ∨ (frameLength buffer).toNat > maxTcpFrameSize) ∧
      .droppedInvalidLength (frameLength buffer) = e := by
  simp only [look]
  split
  next h => simp [Nat.not_le.mpr h]
  split
  next h4 h => simp [Nat.not_lt.mp h4, h]
  next h =>
    split <;> simp [h]

theorem frameLength_append (h : 4 ≤ buffer.length) (more : List UInt8) :
    frameLength (buffer ++ more) = frameLength buffer := by
  rw [frameLength, List.take_append_of_le_length h, frameLength]

/-- Later bytes do not change what has been read. -/
def reader : Reader UInt8 TcpFrameEvent where
  look := look
  isStop := isDrop
  nil := rfl
  shrinks h := by
    obtain ⟨h4, -, -, -, rfl⟩ := look_eq_item.mp h
    rw [List.length_drop]
    omega
  item_append h more := by
    obtain ⟨h4, hlen, hend, rfl, rfl⟩ := look_eq_item.mp h
    refine look_eq_item.mpr ?_
    rw [frameLength_append h4, List.length_append, List.take_append_of_le_length hend,
      List.drop_append_of_le_length hend]
    exact ⟨Nat.le_add_right_of_le h4, hlen, Nat.le_add_right_of_le hend, rfl, rfl⟩
  stop_append h more := by
    obtain ⟨h4, hlen, rfl⟩ := look_eq_stop.mp h
    refine look_eq_stop.mpr ?_
    rw [frameLength_append h4, List.length_append]
    exact ⟨Nat.le_add_right_of_le h4, hlen, rfl⟩
  item_isStop h := by
    obtain ⟨-, -, -, rfl, -⟩ := look_eq_item.mp h
    rfl
  stop_isStop h := by
    obtain ⟨-, -, rfl⟩ := look_eq_stop.mp h
    rfl

theorem readFrames_eq (rest : List UInt8) : readFrames rest = reader.drain rest := by
  induction hn : rest.length using Nat.strongRecOn generalizing rest with
  | _ n ih =>
    rw [readFrames]
    dsimp only
    split
    next h4 =>
      exact (Reader.drain_more (r := reader) (by simp only [reader, look, if_pos h4])).symm
    next h4 =>
      split
      next hlen =>
        exact (Reader.drain_stop (r := reader)
          (look_eq_stop.mpr ⟨Nat.not_lt.mp h4, hlen, rfl⟩)).symm
      next hlen =>
        split
        next hend =>
          have hmore : look rest = .more := by
            rw [look, if_neg h4]
            exact (if_neg hlen).trans (if_pos hend)
          exact (Reader.drain_more (r := reader) hmore).symm
        next hend =>
          have hitem := look_eq_item.mpr ⟨Nat.not_lt.mp h4,
            ⟨fun h0 => hlen (.inl h0), Nat.not_lt.mp fun hbig => hlen (.inr hbig)⟩,
            Nat.not_lt.mp hend, rfl, rfl⟩
          rw [Reader.drain_item (r := reader) hitem, ih _ (hn ▸ reader.shrinks hitem) _ rfl]
          rfl

theorem pushAll_eq (r : TcpFrameReader) (chunks : List (List UInt8)) :
    r.pushAll chunks = ((reader.feed r.buffer chunks).1, ⟨(reader.feed r.buffer chunks).2⟩) := by
  induction chunks generalizing r with
  | nil => rfl
  | cons chunk chunks ih =>
    simp only [pushAll, push, readFrames_eq, ih, Reader.feed]

/-! ### What the writer wrote -/

theorem encode_eq_ok {payload frame : List UInt8} : TcpFrameWriter.encode payload = .ok frame ↔
    (payload ≠ [] ∧ payload.length ≤ maxTcpFrameSize) ∧
      frame = Bytes.toLE 4 payload.length ++ payload := by
  simp only [TcpFrameWriter.encode, Parse.except_ite_eq_ok, Except.ok.injEq]
  split
  next h => simpa using fun hne hle => (h.elim (by simpa using hne) (Nat.not_lt.mpr hle)).elim
  next h =>
    rw [not_or, List.isEmpty_iff, Nat.not_lt] at h
    simp [h.1, h.2, eq_comm]

theorem mapM_encode_eq_ok {payloads frames : List (List UInt8)} :
    payloads.mapM TcpFrameWriter.encode = .ok frames ↔
      (∀ p ∈ payloads, p ≠ [] ∧ p.length ≤ maxTcpFrameSize) ∧
        frames = payloads.map fun p => Bytes.toLE 4 p.length ++ p := by
  induction payloads generalizing frames with
  | nil =>
    rw [List.mapM_nil, Parse.except_pure_eq_ok]
    simp [eq_comm]
  | cons p payloads ih =>
    simp only [List.mapM_cons, Parse.except_bind_eq_ok, Parse.except_pure_eq_ok, encode_eq_ok, ih,
      List.forall_mem_cons, List.map_cons]
    constructor
    · rintro ⟨_, ⟨hp, rfl⟩, _, ⟨hall, rfl⟩, rfl⟩
      exact ⟨⟨hp, hall⟩, rfl⟩
    · rintro ⟨⟨hp, hall⟩, rfl⟩
      exact ⟨_, ⟨hp, rfl⟩, _, ⟨hall, rfl⟩, rfl⟩

theorem frameLength_frame {payload : List UInt8} (hle : payload.length ≤ maxTcpFrameSize)
    (more : List UInt8) :
    (frameLength (Bytes.toLE 4 payload.length ++ more)).toNat = payload.length := by
  have hlt : payload.length < UInt32.size := Nat.lt_of_le_of_lt hle (by decide)
  rw [frameLength, List.take_left' (Bytes.length_toLE 4 _), Bytes.ofLE_toLE 4 _ hlt,
    UInt32.toNat_ofNat_of_lt' hlt]

theorem look_frame {payload : List UInt8} (hne : payload ≠ [])
    (hle : payload.length ≤ maxTcpFrameSize) (more : List UInt8) :
    look (Bytes.toLE 4 payload.length ++ payload ++ more) = .item (.frame payload) more := by
  have hlen := frameLength_frame hle (payload ++ more)
  have hfour := Bytes.length_toLE 4 payload.length
  rw [List.append_assoc]
  refine look_eq_item.mpr ⟨by simp, ⟨fun h0 => ?_, by rwa [hlen]⟩, by simp [hlen], ?_, ?_⟩
  · rw [h0] at hlen
    exact hne (List.length_eq_zero_iff.mp hlen.symm)
  · rw [hlen, ← List.append_assoc, List.take_left' (by simp), List.drop_left' hfour]
  · rw [hlen, ← List.append_assoc, List.drop_left' (by simp)]

theorem look_unfinished {payload tail : List UInt8} (hne : payload ≠ [])
    (hle : payload.length ≤ maxTcpFrameSize)
    (hpart : tail <+: Bytes.toLE 4 payload.length ++ payload)
    (hunfinished : tail ≠ Bytes.toLE 4 payload.length ++ payload) : look tail = .more := by
  obtain ⟨missing, hmissing⟩ := hpart
  have hpos : 0 < missing.length := by
    refine List.length_pos_iff.mpr fun hnil => hunfinished ?_
    rw [← hmissing, hnil, List.append_nil]
  have hshort : tail.length < 4 + payload.length := by
    have := congrArg List.length hmissing
    simp at this
    omega
  by_cases h4 : tail.length < 4
  · rw [look, if_pos h4]
  · have hlen : (frameLength tail).toNat = payload.length := by
      rw [← frameLength_append (Nat.not_lt.mp h4) missing, hmissing, frameLength_frame hle]
    rw [look, if_neg h4, if_neg, if_pos (hlen ▸ hshort)]
    rintro (h0 | hbig)
    · rw [h0] at hlen
      exact hne (List.length_eq_zero_iff.mp hlen.symm)
    · exact Nat.not_lt.mpr hle (hlen ▸ hbig)

/-- **Framing does not depend on how the stream is cut.**  The payloads within the limit are the
ones that are encoded; however their frames and a part of a further one arrive, the events are the
payloads and the buffer is the part; and of any stream the events up to the first dropped length are
the same for all ways to cut it. -/
theorem framing_segmentation :
    (∀ payload, (∃ frame, TcpFrameWriter.encode payload = .ok frame) ↔
      payload ≠ [] ∧ payload.length ≤ maxTcpFrameSize) ∧
    (∀ (payloads frames : List (List UInt8)) next nextFrame tail (chunks : List (List UInt8)),
      payloads.mapM TcpFrameWriter.encode = .ok frames →
      TcpFrameWriter.encode next = .ok nextFrame → tail <+: nextFrame → tail ≠ nextFrame →
      chunks.flatten = frames.flatten ++ tail →
      new.pushAll chunks = (payloads.map .frame, ⟨tail⟩)) ∧
    ∀ chunks chunks' : List (List UInt8), chunks.flatten = chunks'.flatten →
      throughFirst isDrop (new.pushAll chunks).1 = throughFirst isDrop (new.pushAll chunks').1 := by
  refine ⟨fun payload => by simp [encode_eq_ok], ?_, ?_⟩
  · rintro payloads frames next nextFrame tail chunks hframes hnext hpart hunfinished hchunks
    obtain ⟨hall, rfl⟩ := mapM_encode_eq_ok.mp hframes
    obtain ⟨hlimit, rfl⟩ := encode_eq_ok.mp hnext
    have htail := look_unfinished hlimit.1 hlimit.2 hpart hunfinished
    have hdrain : reader.drain (new.buffer ++ chunks.flatten) = (payloads.map .frame, tail) := by
      have := Reader.drain_items (r := reader)
        (payloads.map fun p => (Bytes.toLE 4 p.length ++ p, TcpFrameEvent.frame p)) tail
        (by
          rintro i hi more
          obtain ⟨p, hp, rfl⟩ := List.mem_map.mp hi
          exact look_frame (hall p hp).1 (hall p hp).2 more) htail
      rw [hchunks]
      simpa [new, Function.comp_def] using this
    rw [pushAll_eq, Reader.feed_eq_drain (r := reader) rfl, hdrain]
    rw [hdrain]
    intro e he
    obtain ⟨p, -, rfl⟩ := List.mem_map.mp he
    rfl
  · intro chunks chunks' h
    have hthrough := Reader.throughFirst_feed (show reader.look [] = .more from rfl)
    rw [pushAll_eq, pushAll_eq]
    exact (hthrough chunks).trans (h ▸ (hthrough chunks').symm)

/-- Two frames and two bytes of a third one, cut inside the lengths. -/
theorem framing_segmentation_cut :
    new.pushAll [[1, 0], [0, 0, 7, 2], [0, 0, 0, 8, 9, 1, 0]] =
      ([.frame [7], .frame [8, 9]], ⟨[1, 0]⟩) :=
  framing_segmentation.2.1 [[7], [8, 9]] [[1, 0, 0, 0, 7], [2, 0, 0, 0, 8, 9]] [5] [1, 0, 0, 0, 5]
    [1, 0] _ (by decide) (by decide) ⟨[0, 0, 5], rfl⟩ nofun rfl

end TcpFrameReader
end MahoRD
