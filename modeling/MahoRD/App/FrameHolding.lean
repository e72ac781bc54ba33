/-
MahoRD/App/FrameHolding.lean

What the assembler holds of one frame after some of its packets have come, and
what one more of them does.

`came` says which packets have come: `none` is the header, `some j` the chunk of
index `j`.  `times` are the instants at which they came.
-/
import MahoRD.App.FrameReception

namespace MahoRD

/-- The place of a packet in its frame: its chunk index, `none` for the
header. -/
def MediaPacket.index : MediaPacket → Option ℕ
  | header _ _ => none
  | chunk c => some c.chunkIndex.toNat

namespace FrameAssembler

variable {F : SplitFrame} {timestampMs : UInt32} {came : Option ℕ → Prop} {times : ℕ → Prop}

/-- The assembly of the frame, with the chunks in `seen`. -/
structure InProgress (F : SplitFrame) (timestampMs : UInt32) (seen : ℕ → Prop) (times : ℕ → Prop)
    (a : FrameAssembly) : Prop where
  header : a.header = F.header
  timestampMs : a.timestampMs = timestampMs
  chunks : Gather.Gathered F.pieces seen a.chunks
  payload : a.payloadBytes = bytes a.chunks
  started : times a.started

/-- What the assembler holds of the frame. -/
inductive Holding (F : SplitFrame) (timestampMs : UInt32) (came : Option ℕ → Prop)
    (times : ℕ → Prop) (s : FrameAssembler) : Prop
  | nothing (absent : Absent F.header.frameId s) (came : ∀ i, ¬ came i)
  | waiting (o : OrphanAssembly) (frame : s.frames.lookup F.header.frameId = none)
      (orphan : s.orphans.lookup F.header.frameId = some o) (header : ¬ came none)
      (chunks : Gather.Gathered F.pieces (fun j => came (some j)) o.chunks) (started : times o.started)
  | assembling (a : FrameAssembly) (frame : s.frames.lookup F.header.frameId = some a)
      (orphan : s.orphans.lookup F.header.frameId = none) (header : came none)
      (assembly : InProgress F timestampMs (fun j => came (some j)) times a)

/-- Every packet has come. -/
def Whole (F : SplitFrame) (came : Option ℕ → Prop) : Prop :=
  came none ∧ ∀ j < F.pieces.length, came (some j)

variable {s : FrameAssembler} {now : ℕ} {a : FrameAssembly}

theorem Holding.leaves {s' : FrameAssembler} (h : Holding F timestampMs came times s)
    {keep : Prop} (hkeep : keep) (hs : Leaves F.header.frameId keep s s') :
    Holding F timestampMs came times s' := by
  have hf : s'.frames.lookup F.header.frameId = s.frames.lookup F.header.frameId :=
    hs.frames.resolve_right fun hlost => hlost.2 hkeep
  have ho : s'.orphans.lookup F.header.frameId = s.orphans.lookup F.header.frameId :=
    hs.orphans.resolve_right fun hlost => hlost.2 hkeep
  cases h with
  | nothing habsent hcame => exact .nothing (hs.absent habsent) hcame
  | waiting o hframe horphan hheader hchunks hstarted =>
    exact .waiting o (hf.trans hframe) (ho.trans horphan) hheader hchunks hstarted
  | assembling a hframe horphan hheader hassembly =>
    exact .assembling a (hf.trans hframe) (ho.trans horphan) hheader hassembly

theorem Holding.live (h : Holding F timestampMs came times s)
    (hlive : ∀ t, times t → now - t < assemblyTimeout) : Live F.header.frameId now s := by
  cases h with
  | nothing habsent hcame =>
    exact ⟨fun a ha => by simp [habsent.1] at ha, fun o ho => by simp [habsent.2] at ho⟩
  | waiting o hframe horphan hheader hchunks hstarted =>
    refine ⟨fun a ha => by simp [hframe] at ha, fun o' ho' => ?_⟩
    obtain rfl := Option.some.inj (horphan.symm.trans ho')
    exact hlive _ hstarted
  | assembling a hframe horphan hheader hassembly =>
    refine ⟨fun a' ha' => ?_, fun o ho => by simp [horphan] at ho⟩
    obtain rfl := Option.some.inj (hframe.symm.trans ha')
    exact hlive _ hassembly.started

theorem Holding.header (h : Holding F timestampMs came times s)
    (hsome : (s.frames.lookup F.header.frameId).isSome) : came none := by
  cases h with
  | nothing habsent hcame => simp [habsent.1] at hsome
  | waiting o hframe horphan hheader hchunks hstarted => simp [hframe] at hsome
  | assembling a hframe horphan hheader hassembly => exact hheader

/-! ### Completion -/

/-- What a packet of the frame leads to: the frame is handed out and nothing is
held of it any more, or something is missing and nothing comes of the packet. -/
def Outcome (F : SplitFrame) (timestampMs : UInt32) (came : Option ℕ → Prop) (times : ℕ → Prop)
    (r : Except MediaAssemblyError (Option AssembledFrame) × FrameAssembler) : Prop :=
  (Whole F came ∧ r.1 = .ok (some ⟨F.header, F.pieces.flatten, timestampMs⟩) ∧
    Absent F.header.frameId r.2) ∨
  (¬ Whole F came ∧ r.1 = .ok none ∧ Holding F timestampMs came times r.2)

/-- The assembly of the frame is looked at: it is complete if all packets have
come. -/
theorem outcome_finishIfComplete
    (hl : s.frames.lookup F.header.frameId = some a)
    (ho : s.orphans.lookup F.header.frameId = none) (hheader : came none)
    (ha : InProgress F timestampMs (fun j => came (some j)) times a) :
    Outcome F timestampMs came times (s.finishIfComplete F.header.frameId) ∧
      (¬ Whole F came → s.finishIfComplete F.header.frameId = (.ok none, s)) := by
  have hcomplete : complete a = true ↔ Whole F came := by
    rw [complete, beq_iff_eq, ha.header, F.chunks_eq, ha.chunks.size_eq_iff F.length_le]
    exact ⟨fun hall => ⟨hheader, hall⟩, And.right⟩
  unfold finishIfComplete
  simp only [hl]
  by_cases hwhole : Whole F came
  · rw [if_pos (hcomplete.mpr hwhole)]
    have hcollect := SplitFrame.collect_pieces ha.chunks hwhole.2
    rw [← ha.header] at hcollect
    simp only [hcollect]
    rw [if_neg (by rw [ha.header, F.size_eq]; exact not_not.mpr rfl)]
    refine ⟨Or.inl ⟨hwhole, ?_, AList.lookup_erase _ _, ho⟩, absurd hwhole⟩
    rw [ha.header, ha.timestampMs]
  · rw [if_neg (mt hcomplete.mp hwhole)]
    exact ⟨Or.inr ⟨hwhole, rfl, .assembling a hl ho hheader ha⟩, fun _ => rfl⟩

theorem outcome_finish
    (hroom : Table.size (s.frames.erase F.header.frameId) < maxIncompleteFrames)
    (ho : s.orphans.lookup F.header.frameId = none) (hheader : came none)
    (ha : InProgress F timestampMs (fun j => came (some j)) times a) :
    Outcome F timestampMs came times (pushHeader.finish F.header
      { s with frames := s.frames.insert F.header.frameId a }) := by
  obtain ⟨houtcome, hmissing⟩ := outcome_finishIfComplete
    (s := { s with frames := s.frames.insert F.header.frameId a }) (lookup_insertFrame _ _ _) ho
    hheader ha
  unfold pushHeader.finish
  rcases houtcome with ⟨hwhole, hr, habsent⟩ | ⟨hpart, -, hholding⟩
  · rcases hf : ({ s with frames := s.frames.insert F.header.frameId a } :
      FrameAssembler).finishIfComplete F.header.frameId with ⟨r, t⟩
    rw [hf] at hr habsent
    dsimp only at hr habsent
    subst hr
    have hevict : Leaves F.header.frameId False t t.evictOldest := leaves_evictOldest False.elim
    exact Or.inl ⟨hwhole, rfl, hevict.absent habsent⟩
  · rw [hmissing hpart] at hholding ⊢
    refine Or.inr ⟨hpart, rfl, ?_⟩
    have hsize : ¬ Table.size (s.frames.insert F.header.frameId a) > maxIncompleteFrames := by
      rw [Table.size_insert]
      omega
    show Holding F timestampMs came times (evictOldest _)
    rw [evictOldest, if_neg hsize]
    exact hholding

/-! ### The packets of the frame -/

theorem InProgress.congr {seen seen' : ℕ → Prop}
    (h : InProgress F timestampMs seen times a) (heq : ∀ j, seen j ↔ seen' j)
    {times' : ℕ → Prop} (htimes : ∀ t, times t → times' t) :
    InProgress F timestampMs seen' times' a :=
  { h with chunks := h.chunks.congr heq, started := htimes _ h.started }

/-- Fewer than 16 other frames, and fewer than 16 other groups of orphans. -/
structure Room (id : UInt32) (s : FrameAssembler) : Prop where
  frames : Table.size (s.frames.erase id) < maxIncompleteFrames
  orphans : Table.size (s.orphans.erase id) < maxOrphanFrames

theorem valid_header (F : SplitFrame) :
    ¬ (F.header.totalChunks = 0 ∨ F.header.totalChunks > maxChunksPerFrame ∨
      F.header.totalSize = 0 ∨ F.header.totalSize > maxFrameBytes) := by
  have hpos := F.chunks_pos
  have hle := F.chunks_le
  rw [← F.chunks_eq] at hpos hle
  rintro (hzero | hmany | hempty | hlarge)
  · rw [hzero] at hpos
    exact absurd hpos (lt_irrefl _)
  · exact absurd (UInt16.lt_iff_toNat_lt.mp hmany) (Nat.not_lt.mpr hle)
  · exact absurd (hempty ▸ F.size_pos) (by decide)
  · exact absurd F.size_le (UInt32.not_le.mpr hlarge)

theorem room_dropSuperseded {id : UInt32} (header : FrameHeader)
    (h : Table.size (s.frames.erase id) < maxIncompleteFrames) :
    Table.size ((s.dropSuperseded header).frames.erase id) < maxIncompleteFrames := by
  unfold dropSuperseded
  split
  · exact (Table.size_erase_retain_le _ _ _).trans_lt h
  · exact h

theorem outcome_pushHeader (h : Holding F timestampMs came times s)
    (hlive : ∀ t, times t → now - t < assemblyTimeout) (hroom : Room F.header.frameId s) :
    Outcome F timestampMs (fun i => i = none ∨ came i) (fun t => t = now ∨ times t)
      (s.pushHeader F.header timestampMs now) := by
  have htrack : Leaves F.header.frameId True s (({ s with completedStartedAt := none }.expire
      now).trackLoss F.header.frameId now) :=
    (leaves_expire fun _ => h.live hlive).trans (Leaves.of_eq rfl rfl)
  have hdrop : Leaves F.header.frameId True s ((({ s with completedStartedAt := none }.expire
      now).trackLoss F.header.frameId now).dropSuperseded F.header) := by
    refine htrack.trans (leaves_dropSuperseded fun _ _ _ => ?_)
    simp [serialNotBefore, serialHalfRange]
  have hsize := room_dropSuperseded (s := ({ s with completedStartedAt := none }.expire
    now).trackLoss F.header.frameId now) F.header
    ((Table.size_erase_retain_le _ _ _).trans_lt hroom.frames)
  have hheld := h.leaves trivial hdrop
  simp only [pushHeader]
  rw [if_neg (valid_header F)]
  generalize ((({ s with completedStartedAt := none } : FrameAssembler).expire now).trackLoss
    F.header.frameId now).dropSuperseded F.header = u at hheld hsize
  have hsome : ∀ j : ℕ, came (some j) ↔ (some j = none ∨ came (some j)) := by simp
  cases hheld with
  | nothing habsent hcame =>
    simp only [takeOrphans, habsent.1, habsent.2]
    refine outcome_finish hsize habsent.2 (Or.inl rfl) ⟨rfl, rfl, ?_, rfl, Or.inl rfl⟩
    exact (Gather.gathered_empty fun j => hcame (some j)).congr hsome
  | waiting o hframe horphan hheader hchunks hstarted =>
    simp only [takeOrphans, horphan, hframe]
    refine outcome_finish (s := { u with orphans := u.orphans.erase F.header.frameId }) hsize
      (AList.lookup_erase _ _) (Or.inl rfl) ⟨rfl, rfl, (SplitFrame.gathered_admitChunks hchunks).congr hsome, ?_, ?_⟩
    · exact ((fits_empty F.header).admitChunks o.chunks).payload
    · exact Or.inr hstarted
  | assembling a hframe horphan hheader hassembly =>
    simp only [takeOrphans, horphan, hframe]
    rw [if_neg (not_not.mpr hassembly.header)]
    have hstarted : min a.started now = now ∨ times (min a.started now) := by
      rcases min_choice a.started now with hmin | hmin
      · rw [hmin]
        exact Or.inr hassembly.started
      · exact Or.inl hmin
    exact outcome_finish hsize horphan (Or.inl rfl)
      ⟨hassembly.header, rfl, hassembly.chunks.congr hsome, hassembly.payload, hstarted⟩

theorem outcome_orphan {o : OrphanAssembly}
    (hframe : s.frames.lookup F.header.frameId = none) (hheader : ¬ came none)
    (hchunks : Gather.Gathered F.pieces (fun j => came (some j)) o.chunks) (hstarted : times o.started) :
    Outcome F timestampMs came times
      (.ok none, { s with orphans := s.orphans.insert F.header.frameId o }) :=
  Or.inr ⟨fun hwhole => hheader hwhole.1, rfl,
    .waiting o hframe (AList.lookup_insert _) hheader hchunks hstarted⟩

theorem outcome_pushChunk (h : Holding F timestampMs came times s)
    (hlive : ∀ t, times t → now - t < assemblyTimeout) (hroom : Room F.header.frameId s)
    (hfull : ∀ o ∈ s.orphans.lookup F.header.frameId, o.chunks.size < maxChunksPerFrame.toNat)
    {j : ℕ} {piece : List UInt8} (hj : F.pieces[j]? = some piece) :
    Outcome F timestampMs (fun i => i = some j ∨ came i) (fun t => t = now ∨ times t)
      (s.pushChunk (F.chunk j piece) now) := by
  have hto : (UInt16.ofNat j).toNat = j := SplitFrame.toNat_index hj
  have hid : (F.chunk j piece).frameId = F.header.frameId := rfl
  have hsome : ∀ i, (i = j ∨ came (some i)) ↔ (some i = some j ∨ came (some i)) := by simp
  have hagain : came (some j) → ∀ i, came (some i) ↔ (some i = some j ∨ came (some i)) := by
    intro hcame i
    simp only [Option.some.injEq, iff_or_self]
    rintro rfl
    exact hcame
  have hheld := h.leaves trivial (leaves_expire fun _ => h.live hlive)
  have hsize : Table.size (({ s with completedStartedAt := none }.expire now).orphans.erase
      F.header.frameId) < maxOrphanFrames :=
    (Table.size_erase_retain_le _ _ _).trans_lt hroom.orphans
  replace hfull : ∀ o, (({ s with completedStartedAt := none } : FrameAssembler).expire
      now).orphans.lookup F.header.frameId = some o → o.chunks.size < maxChunksPerFrame.toNat :=
    fun o ho => hfull o (Table.lookup_retain_eq_some.mp ho).1
  simp only [pushChunk]
  generalize ({ s with completedStartedAt := none } : FrameAssembler).expire now = u
    at hheld hsize hfull
  have hindex : ¬ (F.chunk j piece).chunkIndex ≥ maxChunksPerFrame := by
    rw [ge_iff_le, UInt16.not_le, UInt16.lt_iff_toNat_lt]
    exact hto.symm ▸ SplitFrame.lt_of_piece hj
  have hhead : ¬ came none → ¬ (none = some j ∨ came none) := by simp
  cases hheld with
  | nothing habsent hcame =>
    have hroom' : ¬ u.orphans.size ≥ maxOrphanFrames := by
      rw [Table.size_erase_of_none habsent.2] at hsize
      exact Nat.not_le.mpr hsize
    have hnone : ¬ Table.size (∅ : Table UInt16 (List UInt8)) ≥ maxChunksPerFrame.toNat := by decide
    rw [hid, habsent.1, habsent.2]
    dsimp only [Option.getD_none]
    rw [if_neg (fun hfull => hroom' hfull.1), if_neg hindex, if_neg hnone]
    refine outcome_orphan habsent.1 (hhead (hcame none)) ?_ (Or.inl rfl)
    exact ((Gather.gathered_empty fun j => hcame (some j)).insert F.length_le hj).congr hsome
  | waiting o hframe horphan hheader hchunks hstarted =>
    rw [hid, hframe, horphan]
    dsimp only [Option.getD_some]
    rw [if_neg (by rintro ⟨-, ⟨⟩⟩), if_neg hindex, if_neg (Nat.not_le.mpr (hfull o horphan))]
    refine outcome_orphan hframe (hhead hheader) ?_ (Or.inr hstarted)
    split
    next data hl =>
      have hcame : came (some j) := hchunks.of_lookup F.length_le (SplitFrame.lt_size hj) hl
      exact hchunks.congr (hagain hcame)
    · exact (hchunks.insert F.length_le hj).congr hsome
  | assembling a hframe horphan hheader hassembly =>
    have hinsert := (hassembly.chunks.insert F.length_le hj).congr hsome
    have hinside : ¬ (F.chunk j piece).chunkIndex ≥ a.header.totalChunks := by
      rw [ge_iff_le, UInt16.not_le, hassembly.header, UInt16.lt_iff_toNat_lt, F.chunks_eq]
      exact hto.symm ▸ SplitFrame.lt_size hj
    rw [hid, hframe]
    dsimp only
    rw [if_neg hinside]
    split
    next data hl =>
      have hcame : came (some j) := hassembly.chunks.of_lookup F.length_le (SplitFrame.lt_size hj) hl
      exact (outcome_finishIfComplete hframe horphan (Or.inr hheader)
        (hassembly.congr (hagain hcame) fun _ => Or.inr)).1
    next hnew =>
      have hbytes : bytes (a.chunks.insert (UInt16.ofNat j) piece)
          = a.payloadBytes + piece.length := by
        rw [hassembly.payload, bytes, bytes, Nat.add_comm]
        exact Table.total_insert_of_none List.length hnew piece
      have hfits : ¬ a.payloadBytes + (F.chunk j piece).data.length > a.header.totalSize.toNat := by
        show ¬ a.payloadBytes + piece.length > a.header.totalSize.toNat
        rw [← hbytes, hassembly.header]
        exact Nat.not_lt.mpr (SplitFrame.bytes_le hinsert.piece)
      have hnext : InProgress F timestampMs (fun i => some i = some j ∨ came (some i))
          (fun t => t = now ∨ times t)
          { a with
            chunks := a.chunks.insert (UInt16.ofNat j) piece
            payloadBytes := a.payloadBytes + piece.length } :=
        ⟨hassembly.header, hassembly.timestampMs, hinsert, hbytes.symm, Or.inr hassembly.started⟩
      rw [if_neg hfits]
      exact (outcome_finishIfComplete (lookup_insertFrame _ _ _) horphan (Or.inr hheader) hnext).1

end FrameAssembler
end MahoRD
