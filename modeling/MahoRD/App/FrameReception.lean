/-
MahoRD/App/FrameReception.lean

The reception of one frame.  Its header and its chunks come in any order and any
number of times, among the packets of other frames.

What has come so far says what the assembler holds of the frame: before the
header a group of orphans, after it an assembly, in either case with exactly the
chunks that have come (`Gather.Gathered`).  When nothing is missing any more, the
frame is handed out and nothing of it is left.

A packet of another frame leaves what is held of this one alone, but for a few
ways in which it may be lost (`Leaves`).
-/
import MahoRD.App.AssemblerInvariant
import MahoRD.Lib.Gather
import Mathlib.Algebra.Order.BigOperators.Group.Finset

namespace MahoRD

/-- A media packet of a frame, decoded. -/
inductive MediaPacket
  | header (header : FrameHeader) (timestampMs : UInt32)
  | chunk (chunk : FrameChunk)
  deriving DecidableEq

def MediaPacket.frameId : MediaPacket → UInt32
  | header h _ => h.frameId
  | chunk c => c.frameId

/-- The packets of a frame in the client's `handle_packet`. -/
def FrameAssembler.receive (s : FrameAssembler) (now : ℕ) :
    MediaPacket → Except MediaAssemblyError (Option AssembledFrame) × FrameAssembler
  | .header header timestampMs => s.pushHeader header timestampMs now
  | .chunk chunk => s.pushChunk chunk now

/-- A frame cut into pieces, as its header announces it. -/
structure SplitFrame where
  header : FrameHeader
  pieces : List (List UInt8)
  chunks_eq : header.totalChunks.toNat = pieces.length
  chunks_pos : 0 < pieces.length
  chunks_le : pieces.length ≤ maxChunksPerFrame.toNat
  size_eq : header.totalSize.toNat = pieces.flatten.length
  size_pos : 0 < header.totalSize
  size_le : header.totalSize ≤ maxFrameBytes

namespace SplitFrame

open Gather (Gathered)

variable (F : SplitFrame)

def chunk (j : ℕ) (piece : List UInt8) : FrameChunk :=
  ⟨F.header.frameId, UInt16.ofNat j, piece⟩

/-- The packets of the frame, in the order in which they are sent. -/
def packets (timestampMs : UInt32) : List MediaPacket :=
  .header F.header timestampMs ::
    F.pieces.zipIdx.map fun e => .chunk (F.chunk e.2 e.1)

variable {F}

theorem mem_packets {timestampMs : UInt32} {m : MediaPacket} :
    m ∈ F.packets timestampMs ↔ m = .header F.header timestampMs ∨
      ∃ j piece, F.pieces[j]? = some piece ∧ m = .chunk (F.chunk j piece) := by
  rw [packets, List.mem_cons, List.mem_map]
  refine or_congr Iff.rfl ⟨?_, ?_⟩
  · rintro ⟨⟨piece, j⟩, hmem, rfl⟩
    exact ⟨j, piece, List.mem_zipIdx_iff_getElem?.mp hmem, rfl⟩
  · rintro ⟨j, piece, hj, rfl⟩
    exact ⟨(piece, j), List.mem_zipIdx_iff_getElem?.mpr hj, rfl⟩

variable {j : ℕ}

theorem lt_size {piece : List UInt8} (h : F.pieces[j]? = some piece) :
    j < F.pieces.length :=
  (List.getElem?_eq_some_iff.mp h).1

theorem lt_of_piece {piece : List UInt8} (h : F.pieces[j]? = some piece) :
    j < maxChunksPerFrame.toNat :=
  Nat.lt_of_lt_of_le (lt_size h) F.chunks_le

theorem toNat_index {piece : List UInt8} (h : F.pieces[j]? = some piece) :
    (UInt16.ofNat j).toNat = j :=
  Nat.mod_eq_of_lt ((lt_of_piece h).trans (by decide))

/-! ### Collected chunks -/

theorem length_le (F : SplitFrame) : F.pieces.length ≤ 2 ^ 16 := F.chunks_le.trans (by decide)

theorem sum_pieces (pieces : List (List UInt8)) :
    ∑ i ∈ Finset.range pieces.length, (pieces[i]?.getD []).length = pieces.flatten.length := by
  induction pieces with
  | nil => rfl
  | cons p pieces ih =>
    rw [List.length_cons, Finset.sum_range_succ']
    simp only [List.getElem?_cons_succ, List.getElem?_cons_zero, Option.getD_some,
      List.flatten_cons, List.length_append]
    rw [ih, Nat.add_comm]

theorem bytes_le {chunks : Table UInt16 (List UInt8)}
    (h : ∀ index data, chunks.lookup index = some data → F.pieces[index.toNat]? = some data) :
    FrameAssembler.bytes chunks ≤ F.header.totalSize.toNat := by
  have hpiece : ∀ e ∈ chunks.entries, e.2.length = (F.pieces[e.1.toNat]?.getD []).length := by
    intro e he
    rw [h e.1 e.2 (Table.mem_entries.mp he), Option.getD_some]
  calc FrameAssembler.bytes chunks
      = (chunks.keys.map fun index => (F.pieces[index.toNat]?.getD []).length).sum := by
        rw [FrameAssembler.bytes, Table.total, AList.keys, List.keys, List.map_map]
        exact congrArg List.sum (List.map_congr_left hpiece)
    _ = ∑ index ∈ chunks.keys.toFinset, (F.pieces[index.toNat]?.getD []).length :=
        (List.sum_toFinset _ chunks.keys_nodup).symm
    _ = ∑ i ∈ chunks.keys.toFinset.image UInt16.toNat, (F.pieces[i]?.getD []).length :=
        by rw [Finset.sum_image fun _ _ _ _ heq => UInt16.toNat_inj.mp heq]
    _ ≤ ∑ i ∈ Finset.range F.pieces.length, (F.pieces[i]?.getD []).length :=
        Finset.sum_le_sum_of_subset (Gather.keys_subset h)
    _ = F.header.totalSize.toNat := by rw [sum_pieces, F.size_eq]

theorem collect_pieces {seen : ℕ → Prop} {chunks : Table UInt16 (List UInt8)}
    (h : Gathered F.pieces seen chunks) (hall : ∀ j < F.pieces.length, seen j) :
    chunks.collect ((List.range F.header.totalChunks.toNat).map UInt16.ofNat) = some F.pieces := by
  rw [F.chunks_eq]
  exact h.collect F.length_le hall

/-- Chunks that waited for the header are all admitted, one after the other. -/
theorem gathered_foldl {seen : ℕ → Prop} {entries : List (UInt16 × List UInt8)}
    (hentries : ∀ e ∈ entries, F.pieces[e.1.toNat]? = some e.2)
    (hnodup : (entries.map (·.1)).Nodup) {chunks : Table UInt16 (List UInt8)}
    (h : Gathered F.pieces seen chunks) (hnew : ∀ e ∈ entries, ¬ seen e.1.toNat) :
    Gathered F.pieces (fun j => seen j ∨ ∃ e ∈ entries, e.1.toNat = j)
      (entries.foldl (fun acc e =>
        if e.1 ≥ F.header.totalChunks ∨ acc.2 + e.2.length > F.header.totalSize.toNat then acc
        else
          match acc.1.lookup e.1 with
          | none => (acc.1.insert e.1 e.2, acc.2 + e.2.length)
          | some _ => acc) (chunks, FrameAssembler.bytes chunks)).1 := by
  induction entries generalizing seen chunks with
  | nil => exact h.congr fun j => by simp
  | cons e entries ih =>
    obtain ⟨he, hrest⟩ := List.forall_mem_cons.mp hentries
    obtain ⟨hfresh, hnew⟩ := List.forall_mem_cons.mp hnew
    obtain ⟨hnotin, hnodup⟩ := List.nodup_cons.mp hnodup
    have hnone : chunks.lookup e.1 = none := by
      rw [← Option.not_isSome_iff_eq_none, h.seen e.1]
      exact hfresh
    have hinsert := h.insert F.length_le he
    rw [UInt16.ofNat_toNat] at hinsert
    have hbytes : FrameAssembler.bytes (chunks.insert e.1 e.2)
        = FrameAssembler.bytes chunks + e.2.length := by
      rw [FrameAssembler.bytes, Table.total_insert_of_none _ hnone, FrameAssembler.bytes,
        Nat.add_comm]
    have hsize := bytes_le hinsert.piece
    have hindex : e.1 < F.header.totalChunks := by
      rw [UInt16.lt_iff_toNat_lt, F.chunks_eq]
      exact lt_size he
    rw [List.foldl_cons, if_neg (by
      rw [not_or]
      exact ⟨UInt16.not_le.mpr hindex, by rw [← hbytes]; exact Nat.not_lt.mpr hsize⟩)]
    simp only [hnone]
    rw [← hbytes]
    refine (ih hrest hnodup hinsert fun e' he' hor => ?_).congr fun j => ?_
    · rcases hor with heq | hseen
      · exact hnotin (List.mem_map.mpr ⟨e', he', UInt16.toNat_inj.mp heq⟩)
      · exact hnew e' he' hseen
    · simp only [List.mem_cons, exists_eq_or_imp]
      constructor
      · rintro ((rfl | hseen) | hex)
        · exact Or.inr (Or.inl rfl)
        · exact Or.inl hseen
        · exact Or.inr (Or.inr hex)
      · rintro (hseen | rfl | hex)
        · exact Or.inl (Or.inr hseen)
        · exact Or.inl (Or.inl rfl)
        · exact Or.inr hex

theorem gathered_admitChunks {seen : ℕ → Prop} {incoming : Table UInt16 (List UInt8)}
    (h : Gathered F.pieces seen incoming) :
    Gathered F.pieces seen (MahoRD.admitChunks ∅ 0 incoming F.header).1 := by
  have hmem : ∀ e ∈ incoming.toSorted, incoming.lookup e.1 = some e.2 := fun e he =>
    Table.mem_toSorted.mp he
  refine (gathered_foldl (fun e he => h.piece _ _ (hmem e he)) (Table.nodup_toSorted _)
    (Gather.gathered_empty fun _ => id) fun _ _ => id).congr fun j => ?_
  rw [false_or]
  constructor
  · rintro ⟨e, he, rfl⟩
    exact (h.seen e.1).mp (by rw [hmem e he]; rfl)
  · intro hseen
    obtain ⟨data, hdata, -⟩ := h.lookup_of_seen F.length_le hseen
    exact ⟨(UInt16.ofNat j, data), Table.mem_toSorted.mpr hdata,
      Gather.toNat_index F.length_le (h.lt j hseen)⟩

end SplitFrame

namespace FrameAssembler

/-! ### What a packet of another frame does

Under the id of a frame at hand a table keeps its entry or loses it; it loses
it only if one of the things happens that `keep` excludes. -/

section Other

variable {id : UInt32} {keep : Prop}

/-- An entry that is kept, or lost although `keep` does not hold. -/
def Within {α : Type*} (keep : Prop) (entry entry' : Option α) : Prop :=
  entry' = entry ∨ (entry' = none ∧ ¬ keep)

/-- What is held under `id` is left alone. -/
structure Leaves (id : UInt32) (keep : Prop) (s s' : FrameAssembler) : Prop where
  frames : Within keep (s.frames.lookup id) (s'.frames.lookup id)
  orphans : Within keep (s.orphans.lookup id) (s'.orphans.lookup id)

theorem Within.trans {α : Type*} {o o' o'' : Option α} (h : Within keep o o')
    (h' : Within keep o' o'') : Within keep o o'' := by
  rcases h' with rfl | hlost
  · exact h
  · exact Or.inr hlost

variable {s : FrameAssembler} {k : UInt32} {now : ℕ} {f : AssembledFrame}

theorem Leaves.of_eq {s' : FrameAssembler} (hf : s'.frames = s.frames)
    (ho : s'.orphans = s.orphans) : Leaves id keep s s' :=
  ⟨Or.inl (by rw [hf]), Or.inl (by rw [ho])⟩

theorem Leaves.refl (s : FrameAssembler) : Leaves id keep s s := Leaves.of_eq rfl rfl

theorem Leaves.trans {t u : FrameAssembler} (h : Leaves id keep s t) (h' : Leaves id keep t u) :
    Leaves id keep s u :=
  ⟨h.frames.trans h'.frames, h.orphans.trans h'.orphans⟩

theorem within_retain {κ ν : Type*} [DecidableEq κ] {p : κ → ν → Bool} {t : Table κ ν} {k : κ}
    (h : keep → ∀ v, t.lookup k = some v → p k v = true) :
    Within keep (t.lookup k) ((t.retain p).lookup k) := by
  rw [Table.lookup_retain]
  rcases hl : t.lookup k with - | v
  · exact Or.inl rfl
  · by_cases hp : p k v = true
    · exact Or.inl (by rw [Option.filter_some, if_pos hp])
    · exact Or.inr ⟨by rw [Option.filter_some, if_neg hp], fun hk => hp (h hk v hl)⟩

theorem leaves_insert_frame (s : FrameAssembler) (hne : k ≠ id) (a : FrameAssembly) :
    Leaves id keep s { s with frames := s.frames.insert k a } :=
  ⟨Or.inl (AList.lookup_insert_ne hne.symm), Or.inl rfl⟩

theorem leaves_insert_orphan (s : FrameAssembler) (hne : k ≠ id)
    (o : OrphanAssembly) : Leaves id keep s { s with orphans := s.orphans.insert k o } :=
  ⟨Or.inl rfl, Or.inl (AList.lookup_insert_ne hne.symm)⟩

theorem leaves_erase_orphan (s : FrameAssembler) (hne : k ≠ id) :
    Leaves id keep s { s with orphans := s.orphans.erase k } :=
  ⟨Or.inl rfl, Or.inl (AList.lookup_erase_ne hne.symm)⟩

/-- Nothing under `id` has timed out at `now`. -/
structure Live (id : UInt32) (now : ℕ) (s : FrameAssembler) : Prop where
  frames : ∀ a, s.frames.lookup id = some a → now - a.started < assemblyTimeout
  orphans : ∀ o, s.orphans.lookup id = some o → now - o.started < assemblyTimeout

theorem leaves_expire (h : keep → Live id now s) :
    Leaves id keep s ({ s with completedStartedAt := none }.expire now) :=
  ⟨within_retain fun hk a ha => by simpa using (h hk).frames a ha,
    within_retain fun hk o ho => by simpa using (h hk).orphans o ho⟩

theorem leaves_dropSuperseded {header : FrameHeader}
    (h : keep → header.isKeyFrame = true → (s.frames.lookup id).isSome →
      serialNotBefore id header.frameId = true) :
    Leaves id keep s (s.dropSuperseded header) := by
  unfold dropSuperseded
  split
  next hkey =>
    refine ⟨within_retain fun hk a ha => ?_, Or.inl rfl⟩
    rw [h hk hkey (by rw [ha]; rfl), Bool.true_or]
  · exact Leaves.refl s

theorem leaves_takeOrphans (s : FrameAssembler) (hne : k ≠ id) (now : ℕ) :
    Leaves id keep s (s.takeOrphans k now).2.2 := by
  unfold takeOrphans
  split
  · exact Leaves.refl s
  · exact leaves_erase_orphan s hne

theorem leaves_finishIfComplete (s : FrameAssembler) (hne : k ≠ id) :
    Leaves id keep s (s.finishIfComplete k).2 := by
  rcases finishIfComplete_cases s k with ⟨heq, -⟩ | ⟨hf, ho, -⟩
  · rw [heq]
    exact Leaves.refl s
  · exact ⟨Or.inl (by rw [hf, AList.lookup_erase_ne hne.symm]), Or.inl (by rw [ho])⟩

/-- The entry of `id` is not the one evicted, if there is room for it among the
others that are left. -/
theorem leaves_evictOldest
    (h : keep → Table.size (s.evictOldest.frames.erase id) < maxIncompleteFrames) :
    Leaves id keep s s.evictOldest := by
  unfold evictOldest at h ⊢
  split
  next hmore =>
    obtain ⟨k, a, hold, ha⟩ := oldestFrame_lookup (Nat.zero_lt_of_lt hmore)
    rw [if_pos hmore] at h
    simp only [hold] at h ⊢
    refine ⟨?_, Or.inl rfl⟩
    by_cases heq : k = id
    · subst heq
      refine Or.inr ⟨AList.lookup_erase _ _, fun hk => ?_⟩
      have hsize := Table.size_erase_of_lookup ha
      have hagain := Table.size_erase_of_none (AList.lookup_erase k s.frames)
      have hroom := h hk
      omega
    · exact Or.inl (AList.lookup_erase_ne (Ne.symm heq))
  · exact Leaves.refl s

theorem leaves_finish {header : FrameHeader} (hne : header.frameId ≠ id)
    (hroom : keep →
      Table.size ((pushHeader.finish header s).2.frames.erase id) < maxIncompleteFrames) :
    Leaves id keep s (pushHeader.finish header s).2 := by
  have hfinish : Leaves id keep s (s.finishIfComplete header.frameId).2 :=
    leaves_finishIfComplete s hne
  unfold pushHeader.finish at hroom ⊢
  rcases hr : s.finishIfComplete header.frameId with ⟨e | completed, t⟩
  · rw [hr] at hfinish
    exact hfinish
  · rw [hr] at hfinish hroom
    exact hfinish.trans (leaves_evictOldest hroom)

theorem leaves_pushHeader {header : FrameHeader} (hne : header.frameId ≠ id)
    {timestampMs : UInt32} (hlive : keep → Live id now s)
    (hcurrent : keep → header.isKeyFrame = true → (s.frames.lookup id).isSome →
      serialNotBefore id header.frameId = true)
    (hroom : keep → Table.size ((s.pushHeader header timestampMs now).2.frames.erase id)
      < maxIncompleteFrames) :
    Leaves id keep s (s.pushHeader header timestampMs now).2 := by
  have htrack : Leaves id keep s (({ s with completedStartedAt := none }.expire now).trackLoss
      header.frameId now) := (leaves_expire hlive).trans (Leaves.of_eq rfl rfl)
  have hdrop : Leaves id keep s ((({ s with completedStartedAt := none }.expire now).trackLoss
      header.frameId now).dropSuperseded header) := by
    refine htrack.trans (leaves_dropSuperseded fun hk hkey hsome => hcurrent hk hkey ?_)
    rcases htrack.frames with heq | ⟨hnone, -⟩
    · exact heq ▸ hsome
    · rw [hnone] at hsome
      cases hsome
  have htake := hdrop.trans (leaves_takeOrphans _ hne now)
  simp only [pushHeader] at hroom ⊢
  split
  · exact Leaves.of_eq rfl rfl
  next hvalid =>
    rw [if_neg hvalid] at hroom
    split
    next existing hl =>
      simp only [hl] at hroom
      split
      · exact htake
      next hsame =>
        rw [if_neg hsame] at hroom
        exact htake.trans ((leaves_insert_frame _ hne _).trans (leaves_finish hne hroom))
    next hl =>
      simp only [hl] at hroom
      exact htake.trans ((leaves_insert_frame _ hne _).trans (leaves_finish hne hroom))

theorem leaves_pushChunk {chunk : FrameChunk} (hne : chunk.frameId ≠ id) (hlive : keep → Live id now s) : Leaves id keep s (s.pushChunk chunk now).2 := by
  refine (leaves_expire hlive).trans ?_
  simp only [pushChunk]
  generalize ({ s with completedStartedAt := none } : FrameAssembler).expire now = t
  split
  · split
    · exact Leaves.refl t
    · split
      · exact leaves_finishIfComplete t hne
      · split
        · exact Leaves.refl t
        · exact (leaves_insert_frame t hne _).trans (leaves_finishIfComplete _ hne)
  · split
    · exact Leaves.refl t
    · split
      · exact Leaves.refl t
      · split
        · exact leaves_erase_orphan t hne
        · exact leaves_insert_orphan t hne _

/-- Nothing is held under `id`. -/
def Absent (id : UInt32) (s : FrameAssembler) : Prop :=
  s.frames.lookup id = none ∧ s.orphans.lookup id = none

theorem Within.none {α : Type*} {o o' : Option α} (h : Within keep o o') (ho : o = none) :
    o' = none := by
  rcases h with rfl | ⟨hnone, -⟩
  · exact ho
  · exact hnone

theorem Leaves.absent {s' : FrameAssembler} (h : Leaves id keep s s') (hs : Absent id s) :
    Absent id s' :=
  ⟨h.frames.none hs.1, h.orphans.none hs.2⟩

theorem finishIfComplete_header
    (h : (s.finishIfComplete k).1 = .ok (some f)) :
    ∃ a, s.frames.lookup k = some a ∧ f.header = a.header := by
  unfold finishIfComplete at h
  rcases hl : s.frames.lookup k with - | a
  · simp [hl] at h
  · simp only [hl] at h
    split at h
    · split at h
      · cases h
      · split at h
        · cases h
        · cases h
          exact ⟨a, rfl, rfl⟩
    · cases h

theorem lookup_insertFrame (s : FrameAssembler) (k : UInt32) (a : FrameAssembly) :
    ({ s with frames := s.frames.insert k a } : FrameAssembler).frames.lookup k = some a :=
  AList.lookup_insert _

theorem finish_header {header : FrameHeader} {a : FrameAssembly} (h : (pushHeader.finish header s).1 = .ok (some f))
    (hl : s.frames.lookup header.frameId = some a) (ha : a.header = header) :
    f.header = header := by
  have hfinish := @finishIfComplete_header s header.frameId f
  unfold pushHeader.finish at h
  rcases hr : s.finishIfComplete header.frameId with ⟨e | completed, t⟩
  · rw [hr] at h
    cases h
  · rw [hr] at h hfinish
    obtain ⟨a', ha', hf⟩ := hfinish h
    obtain rfl := Option.some.inj (hl.symm.trans ha')
    rw [hf, ha]

theorem receive_frameId
    (hkeyed : ∀ k a, s.frames.lookup k = some a → a.header.frameId = k)
    {m : MediaPacket} (h : (s.receive now m).1 = .ok (some f)) :
    f.header.frameId = m.frameId := by
  cases m with
  | header header timestampMs =>
    simp only [receive, pushHeader] at h
    split at h
    · cases h
    · split at h
      next existing hl =>
        split at h
        · cases h
        next hsame =>
          rw [not_not] at hsame
          rw [finish_header h (lookup_insertFrame _ _ _) hsame]
          rfl
      · rw [finish_header h (lookup_insertFrame _ _ _) rfl]
        rfl
  | chunk chunk =>
    simp only [receive, pushChunk] at h
    split at h
    next a ha =>
      have hid : a.header.frameId = chunk.frameId :=
        hkeyed _ a (Table.lookup_retain_eq_some.mp ha).1
      split at h
      · cases h
      · split at h
        · obtain ⟨a', ha', hf⟩ := finishIfComplete_header h
          obtain rfl := Option.some.inj (ha.symm.trans ha')
          rw [hf, hid]
          rfl
        · split at h
          · cases h
          · obtain ⟨a', ha', hf⟩ := finishIfComplete_header h
            obtain rfl := Option.some.inj ((lookup_insertFrame _ _ _).symm.trans ha')
            rw [hf]
            exact hid
    · split at h
      · cases h
      · split at h
        · cases h
        · split at h
          · cases h
          · cases h

end Other

end FrameAssembler
end MahoRD
