/-
MahoRD/App/FrameAssembler.lean

Reassembly of video frames at the client (`FrameAssembler` in
`maho-app/src/media.rs`).  A frame is assembled under its id from its header and
its chunks, in whatever order they come; chunks that come before their header
wait as orphans.  Both tables are bounded in number and in time.

Instants are nanoseconds.
-/
import MahoRD.Lib.Table
import MahoRD.Proto.Media
import Mathlib.Data.List.MinMax
import Mathlib.Data.Prod.Lex

namespace MahoRD

def serialHalfRange : UInt32 := 2147483648

def maxOrphanFrames : ℕ := 16

def maxIncompleteFrames : ℕ := 16

def maxLossSamples : ℕ := 4096

def assemblyTimeout : ℕ := 1000000000

structure AssembledFrame where
  header : FrameHeader
  data : List UInt8
  timestampMs : UInt32
  deriving DecidableEq

structure FrameAssembly where
  header : FrameHeader
  chunks : Table UInt16 (List UInt8)
  started : ℕ
  timestampMs : UInt32
  payloadBytes : ℕ

structure OrphanAssembly where
  chunks : Table UInt16 (List UInt8)
  started : ℕ

inductive MediaAssemblyError
  | invalidHeader | invalidChunkIndex | sizeMismatch

/-- Serial-number order on the ring of frame ids: is `a` at or after `b`? -/
def serialNotBefore (a b : UInt32) : Bool := a - b < serialHalfRange

/-- Admit chunks, in the order of their indices, into an assembly; whatever
lies outside the declared frame or beyond its declared size is passed over. -/
def admitChunks (chunks : Table UInt16 (List UInt8)) (payloadBytes : ℕ)
    (incoming : Table UInt16 (List UInt8)) (header : FrameHeader) :
    Table UInt16 (List UInt8) × ℕ :=
  incoming.toSorted.foldl (fun acc e =>
    if e.1 ≥ header.totalChunks ∨ acc.2 + e.2.length > header.totalSize.toNat then acc
    else
      match acc.1.lookup e.1 with
      | none => (acc.1.insert e.1 e.2, acc.2 + e.2.length)
      | some _ => acc) (chunks, payloadBytes)

structure FrameAssembler where
  frames : Table UInt32 FrameAssembly
  orphans : Table UInt32 OrphanAssembly
  expectedFrameId : Option UInt32
  recentLoss : List (ℕ × ℕ × ℕ)
  completedFrames : ℕ
  completedStartedAt : Option ℕ

namespace FrameAssembler

/-- `FrameAssembler::default()`. -/
def new : FrameAssembler := ⟨∅, ∅, none, [], 0, none⟩

def clear (s : FrameAssembler) : FrameAssembler :=
  { s with
    frames := ∅, orphans := ∅, expectedFrameId := none, recentLoss := [], completedFrames := 0
    completedStartedAt := none }

def complete (a : FrameAssembly) : Bool := a.chunks.size == a.header.totalChunks.toNat

/-- Drop the assemblies started a second or more ago. -/
def expire (s : FrameAssembler) (now : ℕ) : FrameAssembler :=
  { s with
    frames := Table.retain (fun _ a => now - a.started < assemblyTimeout) s.frames
    orphans := Table.retain (fun _ o => now - o.started < assemblyTimeout) s.orphans }

/-- Drop samples from the front while there are too many or the first is older
than five seconds. -/
def trimLoss (now : ℕ) : List (ℕ × ℕ × ℕ) → List (ℕ × ℕ × ℕ)
  | [] => []
  | sample :: rest =>
    if (sample :: rest).length > maxLossSamples ∨ now - sample.1 > 5000000000 then
      trimLoss now rest
    else sample :: rest

def trackLoss (s : FrameAssembler) (frameId : UInt32) (now : ℕ) : FrameAssembler :=
  let lost : ℕ :=
    match s.expectedFrameId with
    | none => 0
    | some expected =>
      let forward := frameId - expected
      if forward < serialHalfRange then forward.toNat else 0
  let successor := frameId + 1
  { s with
    recentLoss := trimLoss now (s.recentLoss ++ [(now, lost, lost + 1)])
    expectedFrameId := some (
      match s.expectedFrameId with
      | none => successor
      | some expected =>
        if successor ≠ expected ∧ serialNotBefore successor expected then successor
        else expected) }

/-- Hand out the frame if all its chunks are there. -/
def finishIfComplete (s : FrameAssembler) (frameId : UInt32) :
    Except MediaAssemblyError (Option AssembledFrame) × FrameAssembler :=
  match s.frames.lookup frameId with
  | none => (.ok none, s)
  | some assembly =>
    if complete assembly then
      let s := { s with frames := s.frames.erase frameId }
      let indices := (List.range assembly.header.totalChunks.toNat).map UInt16.ofNat
      match assembly.chunks.collect indices with
      | none => (.error .sizeMismatch, s)
      | some pieces =>
        let data := pieces.flatten
        if data.length ≠ assembly.header.totalSize.toNat then (.error .sizeMismatch, s)
        else
          (.ok (some ⟨assembly.header, data, assembly.timestampMs⟩),
            { s with
              completedFrames := s.completedFrames + 1
              completedStartedAt := some assembly.started })
    else (.ok none, s)

/-- The assembly that started first, the smallest id among equals. -/
def oldestFrame (frames : Table UInt32 FrameAssembly) : Option UInt32 :=
  (frames.entries.argmin fun e => toLex (e.2.started, e.1.toNat)).map (·.1)

/-- A key frame makes the incomplete frames before it useless. -/
def dropSuperseded (s : FrameAssembler) (header : FrameHeader) : FrameAssembler :=
  if header.isKeyFrame then
    { s with
      frames := Table.retain (fun id a => serialNotBefore id header.frameId || complete a)
        s.frames }
  else s

/-- Beyond the capacity the oldest assembly goes. -/
def evictOldest (s : FrameAssembler) : FrameAssembler :=
  if s.frames.size > maxIncompleteFrames then
    match oldestFrame s.frames with
    | none => s
    | some id => { s with frames := s.frames.erase id }
  else s

/-- The orphaned chunks of a frame and when the first of them came. -/
def takeOrphans (s : FrameAssembler) (frameId : UInt32) (now : ℕ) :
    Table UInt16 (List UInt8) × ℕ × FrameAssembler :=
  match s.orphans.lookup frameId with
  | none => (∅, now, s)
  | some orphan =>
    (orphan.chunks, orphan.started, { s with orphans := s.orphans.erase frameId })

def pushHeader (s : FrameAssembler) (header : FrameHeader) (timestampMs : UInt32) (now : ℕ) :
    Except MediaAssemblyError (Option AssembledFrame) × FrameAssembler :=
  let s := { s with completedStartedAt := none }
  if header.totalChunks = 0 ∨ header.totalChunks > maxChunksPerFrame ∨ header.totalSize = 0
      ∨ header.totalSize > maxFrameBytes then
    (.error .invalidHeader, s)
  else
    let s := s.expire now
    let s := s.trackLoss header.frameId now
    let s := s.dropSuperseded header
    let (chunks, started, s) := s.takeOrphans header.frameId now
    match s.frames.lookup header.frameId with
    -- a header that conflicts with the one in progress is not trusted
    | some existing =>
      if existing.header ≠ header then (.ok none, s)
      else
        let (admitted, payloadBytes) :=
          admitChunks existing.chunks existing.payloadBytes chunks existing.header
        let assembly : FrameAssembly :=
          { header := existing.header, chunks := admitted
            started := min existing.started started, timestampMs, payloadBytes }
        finish { s with frames := s.frames.insert header.frameId assembly }
    | none =>
      let (admitted, payloadBytes) := admitChunks ∅ 0 chunks header
      let assembly : FrameAssembly :=
        { header, chunks := admitted, started, timestampMs, payloadBytes }
      finish { s with frames := s.frames.insert header.frameId assembly }
where
  finish (s : FrameAssembler) :
      Except MediaAssemblyError (Option AssembledFrame) × FrameAssembler :=
    match s.finishIfComplete header.frameId with
    | (.error e, s) => (.error e, s)
    | (.ok completed, s) => (.ok completed, s.evictOldest)

def pushChunk (s : FrameAssembler) (chunk : FrameChunk) (now : ℕ) :
    Except MediaAssemblyError (Option AssembledFrame) × FrameAssembler :=
  let s := { s with completedStartedAt := none }
  let s := s.expire now
  match s.frames.lookup chunk.frameId with
  | some assembly =>
    if chunk.chunkIndex ≥ assembly.header.totalChunks then (.error .invalidChunkIndex, s)
    else
      match assembly.chunks.lookup chunk.chunkIndex with
      | some _ => s.finishIfComplete chunk.frameId
      | none =>
        if assembly.payloadBytes + chunk.data.length > assembly.header.totalSize.toNat then
          (.ok none, s)
        else
          let assembly :=
            { assembly with
              chunks := assembly.chunks.insert chunk.chunkIndex chunk.data
              payloadBytes := assembly.payloadBytes + chunk.data.length }
          { s with frames := s.frames.insert chunk.frameId assembly }.finishIfComplete
            chunk.frameId
  | none =>
    let known := s.orphans.lookup chunk.frameId
    if s.orphans.size ≥ maxOrphanFrames ∧ known.isNone then (.ok none, s)
    else if chunk.chunkIndex ≥ maxChunksPerFrame then (.ok none, s)
    else
      let orphan := known.getD ⟨∅, now⟩
      if orphan.chunks.size ≥ maxChunksPerFrame.toNat then
        (.ok none, { s with orphans := s.orphans.erase chunk.frameId })
      else
        let chunks :=
          match orphan.chunks.lookup chunk.chunkIndex with
          | some _ => orphan.chunks
          | none => orphan.chunks.insert chunk.chunkIndex chunk.data
        (.ok none,
          { s with orphans := s.orphans.insert chunk.frameId { orphan with chunks } })

/-! ### Where the assembled data comes from

`H` and `C` say which headers and chunks were received. -/

section Provenance

variable {H : FrameHeader → Prop} {C : FrameChunk → Prop}

/-- The chunks collected under an id were received for it. -/
def ChunksOf (C : FrameChunk → Prop) (id : UInt32) (chunks : Table UInt16 (List UInt8)) : Prop :=
  ∀ index data, chunks.lookup index = some data → C ⟨id, index, data⟩

/-- Everything the assembler holds was received. -/
structure Holds (H : FrameHeader → Prop) (C : FrameChunk → Prop) (s : FrameAssembler) : Prop where
  frames : ∀ id a, s.frames.lookup id = some a →
    H a.header ∧ a.header.frameId = id ∧ ChunksOf C id a.chunks
  orphans : ∀ id o, s.orphans.lookup id = some o → ChunksOf C id o.chunks

/-- A frame put together from a received header and the received chunks of its
id, one for each index. -/
def Assembled (H : FrameHeader → Prop) (C : FrameChunk → Prop) (f : AssembledFrame) : Prop :=
  H f.header ∧ ∃ pieces : List (List UInt8), f.data = pieces.flatten ∧
    List.Forall₂ (fun index data => C ⟨f.header.frameId, index, data⟩)
      ((List.range f.header.totalChunks.toNat).map UInt16.ofNat) pieces

/-- What a call must ensure: the assembler still holds only what was received,
and so does the frame it hands out. -/
def Ensures (H : FrameHeader → Prop) (C : FrameChunk → Prop)
    (r : Except MediaAssemblyError (Option AssembledFrame) × FrameAssembler) : Prop :=
  Holds H C r.2 ∧ ∀ f, r.1 = .ok (some f) → Assembled H C f

theorem Assembled.mono {H' : FrameHeader → Prop} {C' : FrameChunk → Prop}
    (hH : ∀ h, H h → H' h) (hC : ∀ c, C c → C' c) {f : AssembledFrame}
    (h : Assembled H C f) : Assembled H' C' f := by
  obtain ⟨hh, pieces, hdata, hpieces⟩ := h
  exact ⟨hH _ hh, pieces, hdata, hpieces.imp fun _ _ => hC _⟩

variable {s : FrameAssembler} {id : UInt32}

theorem Holds.mono {H' : FrameHeader → Prop} {C' : FrameChunk → Prop}
    (hH : ∀ h, H h → H' h) (hC : ∀ c, C c → C' c)
    (h : Holds H C s) : Holds H' C' s where
  frames id a hl := by
    obtain ⟨hh, hid, hchunks⟩ := h.frames id a hl
    exact ⟨hH _ hh, hid, fun index data hd => hC _ (hchunks index data hd)⟩
  orphans id o hl index data hd := hC _ (h.orphans id o hl index data hd)

theorem holds_new : Holds H C new where
  frames := by simp [new]
  orphans := by simp [new]

theorem ChunksOf.empty : ChunksOf C id ∅ := by
  intro index data h
  cases h

theorem ChunksOf.insert {chunks : Table UInt16 (List UInt8)} {index : UInt16}
    {data : List UInt8} (h : ChunksOf C id chunks) (hd : C ⟨id, index, data⟩) :
    ChunksOf C id (chunks.insert index data) := by
  intro index' data' hlookup
  rw [Table.lookup_insert] at hlookup
  split at hlookup
  next heq =>
    obtain rfl := Option.some.inj hlookup
    rwa [heq]
  · exact h index' data' hlookup

theorem ChunksOf.admitChunks {chunks incoming : Table UInt16 (List UInt8)}
    (h : ChunksOf C id chunks) (hin : ChunksOf C id incoming) (payloadBytes : ℕ)
    (header : FrameHeader) :
    ChunksOf C id (MahoRD.admitChunks chunks payloadBytes incoming header).1 := by
  have hall : ∀ e ∈ incoming.toSorted, C ⟨id, e.1, e.2⟩ := fun e he =>
    hin e.1 e.2 (Table.mem_toSorted.mp he)
  unfold MahoRD.admitChunks
  generalize incoming.toSorted = entries at hall
  induction entries generalizing chunks payloadBytes with
  | nil => exact h
  | cons e entries ih =>
    rw [List.foldl_cons]
    obtain ⟨he, hrest⟩ := List.forall_mem_cons.mp hall
    split
    · exact ih h payloadBytes hrest
    · split
      · exact ih (h.insert he) _ hrest
      · exact ih h payloadBytes hrest

theorem Holds.sub {s' : FrameAssembler} (h : Holds H C s)
    (hf : ∀ id a, s'.frames.lookup id = some a → s.frames.lookup id = some a)
    (ho : ∀ id o, s'.orphans.lookup id = some o → s.orphans.lookup id = some o) :
    Holds H C s' where
  frames id a hl := h.frames id a (hf id a hl)
  orphans id o hl := h.orphans id o (ho id o hl)

theorem Holds.expire (h : Holds H C s) (now : ℕ) :
    Holds H C (s.expire now) :=
  h.sub (fun _ _ hl => (Table.lookup_retain_eq_some.mp hl).1)
    (fun _ _ hl => (Table.lookup_retain_eq_some.mp hl).1)

theorem Holds.dropSuperseded (h : Holds H C s) (header : FrameHeader) :
    Holds H C (s.dropSuperseded header) := by
  unfold FrameAssembler.dropSuperseded
  split
  · exact h.sub (fun _ _ hl => (Table.lookup_retain_eq_some.mp hl).1) (fun _ _ hl => hl)
  · exact h

theorem Holds.evictOldest (h : Holds H C s) : Holds H C s.evictOldest := by
  unfold FrameAssembler.evictOldest
  split
  · split
    · exact h
    · exact h.sub (fun _ _ hl => (Table.lookup_erase_eq_some.mp hl).2) (fun _ _ hl => hl)
  · exact h

theorem Holds.takeOrphans (h : Holds H C s) (id : UInt32) (now : ℕ) :
    ChunksOf C id (s.takeOrphans id now).1 ∧ Holds H C (s.takeOrphans id now).2.2 := by
  unfold FrameAssembler.takeOrphans
  split
  · exact ⟨ChunksOf.empty, h⟩
  next o ho =>
    exact ⟨h.orphans id o ho,
      h.sub (fun _ _ hl => hl) (fun _ _ hl => (Table.lookup_erase_eq_some.mp hl).2)⟩

theorem Holds.insertFrame (h : Holds H C s)
    {a : FrameAssembly} (hH : H a.header) (hid : a.header.frameId = id)
    (hC : ChunksOf C id a.chunks) : Holds H C { s with frames := s.frames.insert id a } where
  frames id' a' hl := by
    rw [Table.lookup_insert] at hl
    split at hl
    next heq =>
      obtain rfl := Option.some.inj hl
      rw [heq]
      exact ⟨hH, hid, hC⟩
    · exact h.frames id' a' hl
  orphans := h.orphans

theorem Holds.finishIfComplete (h : Holds H C s) (id : UInt32) :
    Ensures H C (s.finishIfComplete id) := by
  unfold FrameAssembler.finishIfComplete
  split
  · exact ⟨h, by simp⟩
  next a ha =>
    obtain ⟨hH, hid, hC⟩ := h.frames id a ha
    have hrest : Holds H C { s with frames := s.frames.erase id } :=
      h.sub (fun _ _ hl => (Table.lookup_erase_eq_some.mp hl).2) (fun _ _ hl => hl)
    split
    · dsimp only
      split
      · exact ⟨hrest, by simp⟩
      next pieces hpieces =>
        split
        · exact ⟨hrest, by simp⟩
        · refine ⟨hrest.sub (fun _ _ hl => hl) (fun _ _ hl => hl), fun f hf => ?_⟩
          cases hf
          refine ⟨hH, pieces, rfl, ?_⟩
          rw [hid]
          exact (Table.collect_eq_some.mp hpieces).imp fun index data hl => hC index data hl
    · exact ⟨h, by simp⟩

/-- **A header is taken up with nothing but received chunks.** -/
theorem Holds.pushHeader (h : Holds H C s) {header : FrameHeader}
    (hH : H header) (timestampMs : UInt32) (now : ℕ) :
    Ensures H C (s.pushHeader header timestampMs now) := by
  have hfinish : ∀ {s : FrameAssembler}, Holds H C s →
      Ensures H C (pushHeader.finish header s) := by
    intro s h
    obtain ⟨hs, hf⟩ := h.finishIfComplete header.frameId
    unfold pushHeader.finish
    split
    next e s' heq => rw [heq] at hs; exact ⟨hs, by simp⟩
    next completed s' heq =>
      rw [heq] at hs hf
      exact ⟨hs.evictOldest, hf⟩
  have hclear : Holds H C { s with completedStartedAt := none } :=
    h.sub (fun _ _ hl => hl) (fun _ _ hl => hl)
  have htrack : Holds H C (({ s with completedStartedAt := none }.expire now).trackLoss
      header.frameId now) := (hclear.expire now).sub (fun _ _ hl => hl) (fun _ _ hl => hl)
  obtain ⟨hchunks, htaken⟩ := (htrack.dropSuperseded header).takeOrphans header.frameId now
  simp only [FrameAssembler.pushHeader]
  split
  · exact ⟨hclear, by simp⟩
  · split
    next existing hl =>
      split
      · exact ⟨htaken, by simp⟩
      · obtain ⟨hH', hid, hC⟩ := htaken.frames _ existing hl
        exact hfinish (htaken.insertFrame hH' hid (hC.admitChunks hchunks _ _))
    · exact hfinish (htaken.insertFrame hH rfl (ChunksOf.empty.admitChunks hchunks _ _))

/-- **A chunk is filed under its own id and index.** -/
theorem Holds.pushChunk (h : Holds H C s) {chunk : FrameChunk}
    (hC : C chunk) (now : ℕ) : Ensures H C (s.pushChunk chunk now) := by
  have hclear : Holds H C { s with completedStartedAt := none } :=
    h.sub (fun _ _ hl => hl) (fun _ _ hl => hl)
  have hs := hclear.expire now
  simp only [FrameAssembler.pushChunk]
  generalize ({ s with completedStartedAt := none } : FrameAssembler).expire now = t at hs
  split
  next a ha =>
    obtain ⟨hH, hid, hchunks⟩ := hs.frames _ a ha
    split
    · exact ⟨hs, by simp⟩
    · split
      · exact hs.finishIfComplete _
      · split
        · exact ⟨hs, by simp⟩
        · refine Holds.finishIfComplete (hs.insertFrame ?_ ?_ ?_) _
          · exact hH
          · exact hid
          · exact hchunks.insert hC
  · split
    · exact ⟨hs, by simp⟩
    · split
      · exact ⟨hs, by simp⟩
      · split
        · exact ⟨hs.sub (fun _ _ hl => hl) (fun _ _ hl => (Table.lookup_erase_eq_some.mp hl).2),
            by simp⟩
        · have hknown : ChunksOf C chunk.frameId
              ((t.orphans.lookup chunk.frameId).getD ⟨∅, now⟩).chunks := by
            rcases ho : t.orphans.lookup chunk.frameId with - | o
            · exact ChunksOf.empty
            · exact hs.orphans _ o ho
          refine ⟨⟨hs.frames, fun id o ho => ?_⟩, by simp⟩
          rw [Table.lookup_insert] at ho
          split at ho
          next heq =>
            obtain rfl := Option.some.inj ho
            rw [heq]
            dsimp only
            split
            · exact hknown
            · exact hknown.insert hC
          · exact hs.orphans id o ho

end Provenance

end FrameAssembler
end MahoRD
