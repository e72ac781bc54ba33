/-
MahoRD/App/AssemblerInvariant.lean

What holds of a frame assembler after any sequence of calls, whatever headers,
chunks and clock readings it is given.

The seven branches of the two calls come down to a few changes: entries are
dropped, an assembly is put under an id that has no orphans, chunks are admitted
into an assembly, and then the assembly under that id is looked at once more
(`finishIfComplete`), which either leaves everything as it is or takes the
assembly out.  In between, only the assembly under the id at hand may be
complete and only by it may the table be too large.
-/
import MahoRD.App.FrameAssembler

namespace MahoRD.FrameAssembler

/-- The calls. -/
inductive Call
  | pushHeader (header : FrameHeader) (timestampMs : UInt32) (now : ℕ)
  | pushChunk (chunk : FrameChunk) (now : ℕ)
  | expire (now : ℕ)
  | clear

/-- The assembler after a call. -/
def after (s : FrameAssembler) : Call → FrameAssembler
  | .pushHeader header timestampMs now => (s.pushHeader header timestampMs now).2
  | .pushChunk chunk now => (s.pushChunk chunk now).2
  | .expire now => s.expire now
  | .clear => s.clear

/-! ### Assemblies -/

/-- The bytes of the chunks. -/
def bytes (chunks : Table UInt16 (List UInt8)) : ℕ := chunks.total List.length

/-- The chunks fit the header, and the bytes are counted right. -/
structure Fits (header : FrameHeader) (chunks : Table UInt16 (List UInt8)) (payloadBytes : ℕ) :
    Prop where
  payload : payloadBytes = bytes chunks
  le : payloadBytes ≤ header.totalSize.toNat
  indices : ∀ index data, chunks.lookup index = some data → index < header.totalChunks

theorem fits_empty (header : FrameHeader) : Fits header ∅ 0 where
  payload := rfl
  le := Nat.zero_le _
  indices := by simp

theorem Fits.insert {header : FrameHeader} {chunks : Table UInt16 (List UInt8)} {payloadBytes : ℕ}
    (h : Fits header chunks payloadBytes) {index : UInt16} {data : List UInt8}
    (hnew : chunks.lookup index = none) (hindex : index < header.totalChunks)
    (hsize : payloadBytes + data.length ≤ header.totalSize.toNat) :
    Fits header (chunks.insert index data) (payloadBytes + data.length) where
  payload := by
    rw [bytes, Table.total_insert_of_none _ hnew, h.payload, bytes, Nat.add_comm]
  le := hsize
  indices index' data' hl := by
    rw [Table.lookup_insert] at hl
    split at hl
    next heq => rwa [heq]
    · exact h.indices index' data' hl

theorem Fits.admitChunks {header : FrameHeader} {chunks : Table UInt16 (List UInt8)}
    {payloadBytes : ℕ} (h : Fits header chunks payloadBytes)
    (incoming : Table UInt16 (List UInt8)) :
    Fits header (MahoRD.admitChunks chunks payloadBytes incoming header).1
      (MahoRD.admitChunks chunks payloadBytes incoming header).2 := by
  unfold MahoRD.admitChunks
  generalize incoming.toSorted = entries
  induction entries generalizing chunks payloadBytes with
  | nil => exact h
  | cons e entries ih =>
    rw [List.foldl_cons]
    split
    · exact ih h
    next hin =>
      rw [not_or] at hin
      obtain ⟨hindex, hsize⟩ := hin
      split
      next hnew => exact ih (h.insert hnew (UInt16.not_le.mp hindex) (Nat.le_of_not_lt hsize))
      · exact ih h

/-! ### The invariant -/

/-- **The representation invariant.** -/
structure Inv (s : FrameAssembler) : Prop where
  frames_le : s.frames.size ≤ maxIncompleteFrames
  orphans_le : s.orphans.size ≤ maxOrphanFrames
  disjoint : ∀ id, id ∈ s.frames → id ∉ s.orphans
  fits : ∀ id a, s.frames.lookup id = some a → Fits a.header a.chunks a.payloadBytes
  incomplete : ∀ id a, s.frames.lookup id = some a → complete a = false

theorem inv_new : Inv new where
  frames_le := Nat.zero_le _
  orphans_le := Nat.zero_le _
  disjoint := by simp [new]
  fits := by simp [new]
  incomplete := by simp [new]

theorem mem_of_lookup {κ ν : Type*} [DecidableEq κ] {t : Table κ ν} {k : κ} {v : ν}
    (h : t.lookup k = some v) : k ∈ t :=
  AList.lookup_isSome.mp (by rw [h]; rfl)

variable {s s' : FrameAssembler} {id : UInt32}

theorem Inv.sub (h : Inv s) (hf : s'.frames.size ≤ s.frames.size)
    (ho : s'.orphans.size ≤ s.orphans.size)
    (hframes : ∀ id a, s'.frames.lookup id = some a → s.frames.lookup id = some a)
    (horphans : ∀ id o, s'.orphans.lookup id = some o → s.orphans.lookup id = some o) :
    Inv s' where
  frames_le := hf.trans h.frames_le
  orphans_le := ho.trans h.orphans_le
  disjoint id hid hid' := by
    obtain ⟨a, ha⟩ := Option.isSome_iff_exists.mp (AList.lookup_isSome.mpr hid)
    obtain ⟨o, ho⟩ := Option.isSome_iff_exists.mp (AList.lookup_isSome.mpr hid')
    exact h.disjoint id (mem_of_lookup (hframes id a ha)) (mem_of_lookup (horphans id o ho))
  fits id a ha := h.fits id a (hframes id a ha)
  incomplete id a ha := h.incomplete id a (hframes id a ha)

theorem Inv.of_eq (h : Inv s) (hf : s'.frames = s.frames)
    (ho : s'.orphans = s.orphans) : Inv s' :=
  h.sub (by rw [hf]) (by rw [ho]) (fun _ _ hl => hf ▸ hl) (fun _ _ hl => ho ▸ hl)

theorem Inv.expire (h : Inv s) (now : ℕ) : Inv (s.expire now) :=
  h.sub (Table.size_retain_le _ _) (Table.size_retain_le _ _)
    (fun _ _ hl => (Table.lookup_retain_eq_some.mp hl).1)
    (fun _ _ hl => (Table.lookup_retain_eq_some.mp hl).1)

theorem Inv.dropSuperseded (h : Inv s) (header : FrameHeader) :
    Inv (s.dropSuperseded header) := by
  unfold FrameAssembler.dropSuperseded
  split
  · exact h.sub (Table.size_retain_le _ _) le_rfl
      (fun _ _ hl => (Table.lookup_retain_eq_some.mp hl).1) (fun _ _ hl => hl)
  · exact h

theorem Inv.takeOrphans (h : Inv s) (id : UInt32) (now : ℕ) :
    Inv (s.takeOrphans id now).2.2 ∧ id ∉ (s.takeOrphans id now).2.2.orphans := by
  unfold FrameAssembler.takeOrphans
  split
  next hnone => exact ⟨h, Table.notMem_of_lookup hnone⟩
  · refine ⟨h.sub le_rfl (Table.size_erase_le _ _) (fun _ _ hl => hl)
      (fun _ _ hl => (Table.lookup_erase_eq_some.mp hl).2), fun hmem => ?_⟩
    exact (AList.mem_erase.mp hmem).1 rfl

/-! ### Finishing -/

/-- `finishIfComplete` leaves everything as it is, unless the assembly under the
id is complete: then it is taken out. -/
theorem finishIfComplete_cases (s : FrameAssembler) (id : UInt32) :
    (s.finishIfComplete id = (.ok none, s) ∧
      ∀ a, s.frames.lookup id = some a → complete a = false) ∨
    ((s.finishIfComplete id).2.frames = s.frames.erase id ∧
      (s.finishIfComplete id).2.orphans = s.orphans ∧ (s.frames.lookup id).isSome) := by
  unfold FrameAssembler.finishIfComplete
  rcases hl : s.frames.lookup id with - | a
  · exact Or.inl ⟨rfl, by simp⟩
  · by_cases hc : complete a = true
    · refine Or.inr ?_
      simp only [hc, if_true]
      split
      · exact ⟨rfl, rfl, rfl⟩
      · split
        · exact ⟨rfl, rfl, rfl⟩
        · exact ⟨rfl, rfl, rfl⟩
    · refine Or.inl ⟨by simp [hc], fun a' ha' => ?_⟩
      obtain rfl := Option.some.inj ha'
      simpa using hc

/-- The invariant but for the assembly under `id`, which is sound. -/
structure Open (id : UInt32) (s : FrameAssembler) : Prop where
  erased : Inv { s with frames := s.frames.erase id }
  orphans : id ∉ s.orphans
  fits : ∀ a, s.frames.lookup id = some a → Fits a.header a.chunks a.payloadBytes
  size_le : s.frames.size ≤ maxIncompleteFrames + 1

theorem Inv.open (h : Inv s) {a : FrameAssembly}
    (horphans : id ∉ s.orphans) (hfits : Fits a.header a.chunks a.payloadBytes) :
    Open id { s with frames := s.frames.insert id a } where
  erased := by
    refine h.sub ?_ le_rfl (fun id' a' hl => ?_) (fun _ _ hl => hl)
    · show Table.size ((s.frames.insert id a).erase id) ≤ s.frames.size
      have hl : (s.frames.insert id a).lookup id = some a := AList.lookup_insert _
      have herase := Table.size_erase_of_lookup hl
      have hinsert := Table.size_insert_le s.frames id a
      omega
    · have hl' : ((s.frames.insert id a).erase id).lookup id' = some a' := hl
      obtain ⟨hne, hl'⟩ := Table.lookup_erase_eq_some.mp hl'
      rwa [Table.lookup_insert, if_neg hne] at hl'
  orphans := horphans
  fits a' ha' := by
    have ha'' : (s.frames.insert id a).lookup id = some a' := ha'
    rw [AList.lookup_insert] at ha''
    obtain rfl := Option.some.inj ha''
    exact hfits
  size_le := (Table.size_insert_le _ _ _).trans (Nat.add_le_add_right h.frames_le 1)

/-- If the assembly under the id is not complete, the invariant holds of every
part that is not too large. -/
theorem Open.inv (h : Open id s)
    (hc : ∀ a, s.frames.lookup id = some a → complete a = false)
    (hsize : s'.frames.size ≤ maxIncompleteFrames) (ho : s'.orphans = s.orphans)
    (hf : ∀ id a, s'.frames.lookup id = some a → s.frames.lookup id = some a) : Inv s' where
  frames_le := hsize
  orphans_le := ho ▸ h.erased.orphans_le
  disjoint id' hid hid' := by
    obtain ⟨a, ha⟩ := Option.isSome_iff_exists.mp (AList.lookup_isSome.mpr hid)
    rw [ho] at hid'
    by_cases heq : id' = id
    · exact h.orphans (heq ▸ hid')
    · exact h.erased.disjoint id' (AList.mem_erase.mpr ⟨heq, mem_of_lookup (hf id' a ha)⟩) hid'
  fits id' a ha := by
    by_cases heq : id' = id
    · exact h.fits a (heq ▸ hf id' a ha)
    · exact h.erased.fits id' a (Table.lookup_erase_eq_some.mpr ⟨heq, hf id' a ha⟩)
  incomplete id' a ha := by
    by_cases heq : id' = id
    · exact hc a (heq ▸ hf id' a ha)
    · exact h.erased.incomplete id' a (Table.lookup_erase_eq_some.mpr ⟨heq, hf id' a ha⟩)

theorem oldestFrame_lookup {frames : Table UInt32 FrameAssembly} (h : 0 < frames.size) :
    ∃ id a, oldestFrame frames = some id ∧ frames.lookup id = some a := by
  have hne : frames.entries ≠ [] := by
    intro hnil
    simp [Table.size, AList.keys, List.keys, hnil] at h
  rcases hm : frames.entries.argmin (fun e => toLex (e.2.started, e.1.toNat)) with - | ⟨id, a⟩
  · exact absurd (List.argmin_eq_none.mp hm) hne
  · exact ⟨id, a, by simp [oldestFrame, hm], Table.mem_entries.mp (List.argmin_mem hm)⟩

/-- Eviction leaves a part of the assemblies, and makes room if one is too
many. -/
theorem evictOldest_cases (s : FrameAssembler) (h : s.frames.size ≤ maxIncompleteFrames + 1) :
    s.evictOldest.frames.size ≤ maxIncompleteFrames ∧ s.evictOldest.orphans = s.orphans ∧
      (s.evictOldest = s ∨ ∃ id, s.evictOldest.frames = s.frames.erase id) := by
  unfold FrameAssembler.evictOldest
  split
  next hmore =>
    obtain ⟨id, a, hold, hl⟩ := oldestFrame_lookup (Nat.zero_lt_of_lt hmore)
    simp only [hold]
    have herase := Table.size_erase_of_lookup hl
    exact ⟨by omega, trivial, Or.inr ⟨id, rfl⟩⟩
  next hless => exact ⟨Nat.le_of_not_lt hless, rfl, Or.inl rfl⟩

theorem evictOldest_lookup {a : FrameAssembly}
    (h : s.evictOldest.frames.lookup id = some a) : s.frames.lookup id = some a := by
  unfold FrameAssembler.evictOldest at h
  split at h
  · split at h
    · exact h
    · exact (Table.lookup_erase_eq_some.mp h).2
  · exact h

theorem Open.finishIfComplete (h : Open id s)
    (hsize : s.frames.size ≤ maxIncompleteFrames) : Inv (s.finishIfComplete id).2 := by
  rcases finishIfComplete_cases s id with ⟨heq, hc⟩ | ⟨hf, ho, -⟩
  · rw [heq]
    exact h.inv hc hsize rfl fun _ _ hl => hl
  · exact h.erased.of_eq hf ho

/-- The call of a header ends so: after an error nothing is evicted, but then
the assembly has been taken out. -/
theorem Open.finish {header : FrameHeader} (h : Open header.frameId s) :
    Inv (pushHeader.finish header s).2 := by
  unfold pushHeader.finish
  rcases finishIfComplete_cases s header.frameId with ⟨heq, hc⟩ | ⟨hf, ho, -⟩
  · rw [heq]
    obtain ⟨hsize, horphans, -⟩ := evictOldest_cases s h.size_le
    exact h.inv hc hsize horphans fun _ _ => evictOldest_lookup
  · have hinv : Inv (s.finishIfComplete header.frameId).2 := h.erased.of_eq hf ho
    split
    next heq => rwa [heq] at hinv
    next t heq =>
      rw [heq] at hinv
      obtain ⟨hsize, horphans, hcases⟩ :=
        evictOldest_cases t (hinv.frames_le.trans (Nat.le_succ _))
      refine hinv.sub ?_ (by rw [horphans]) (fun _ _ => evictOldest_lookup)
        (fun _ _ hl => horphans ▸ hl)
      rcases hcases with hsame | ⟨id, herased⟩
      · rw [hsame]
      · rw [herased]
        exact Table.size_erase_le _ _

/-! ### The calls -/

theorem inv_pushHeader (h : Inv s) (header : FrameHeader)
    (timestampMs : UInt32) (now : ℕ) : Inv (s.pushHeader header timestampMs now).2 := by
  have hclear : Inv { s with completedStartedAt := none } := h.of_eq rfl rfl
  have htrack : Inv (({ s with completedStartedAt := none }.expire now).trackLoss
      header.frameId now) := (hclear.expire now).of_eq rfl rfl
  obtain ⟨htaken, horphans⟩ := (htrack.dropSuperseded header).takeOrphans header.frameId now
  simp only [FrameAssembler.pushHeader]
  split
  · exact hclear
  · split
    next existing hl =>
      split
      · exact htaken
      · exact (htaken.open horphans ((htaken.fits _ existing hl).admitChunks _)).finish
    · exact (htaken.open horphans ((fits_empty header).admitChunks _)).finish

theorem inv_pushChunk (h : Inv s) (chunk : FrameChunk) (now : ℕ) :
    Inv (s.pushChunk chunk now).2 := by
  have hclear : Inv { s with completedStartedAt := none } := h.of_eq rfl rfl
  have hs := hclear.expire now
  simp only [FrameAssembler.pushChunk]
  generalize ({ s with completedStartedAt := none } : FrameAssembler).expire now = t at hs
  split
  next a ha =>
    have hfits := hs.fits _ a ha
    have horphans := hs.disjoint _ (mem_of_lookup ha)
    split
    · exact hs
    next hindex =>
      split
      · -- a chunk that is there already: nothing changes
        rcases finishIfComplete_cases t chunk.frameId with ⟨heq, -⟩ | ⟨hf, ho, -⟩
        · rw [heq]
          exact hs
        · refine hs.sub ?_ (by rw [ho]) (fun _ _ hl => ?_) (fun _ _ hl => ho ▸ hl)
          · rw [hf]
            exact Table.size_erase_le _ _
          · exact (Table.lookup_erase_eq_some.mp (hf ▸ hl)).2
      next hnew =>
        split
        · exact hs
        next hsize =>
          refine Open.finishIfComplete (hs.open horphans
            (hfits.insert hnew (UInt16.not_le.mp hindex) (Nat.le_of_not_lt hsize))) ?_
          show Table.size (t.frames.insert _ _) ≤ _
          rw [Table.size_insert_of_lookup ha]
          exact hs.frames_le
  next hnone =>
    split
    · exact hs
    next hroom =>
      split
      · exact hs
      · split
        · exact hs.sub le_rfl (Table.size_erase_le _ _) (fun _ _ hl => hl)
            (fun _ _ hl => (Table.lookup_erase_eq_some.mp hl).2)
        · refine ⟨hs.frames_le, ?_, fun id hid hid' => ?_, hs.fits, hs.incomplete⟩
          · -- a new group of orphans is begun only where there is room
            show Table.size (t.orphans.insert _ _) ≤ maxOrphanFrames
            rcases ho : t.orphans.lookup chunk.frameId with - | o
            · rw [Table.size_insert_of_none ho]
              rw [ho] at hroom
              simp only [Option.isNone_none, and_true, ge_iff_le, not_le] at hroom
              exact hroom
            · rw [Table.size_insert_of_lookup ho]
              exact hs.orphans_le
          · rcases (AList.mem_insert _).mp hid' with rfl | hold
            · exact Table.notMem_of_lookup hnone hid
            · exact hs.disjoint id hid hold

theorem inv_after (h : Inv s) (call : Call) : Inv (s.after call) := by
  cases call with
  | pushHeader header timestampMs now => exact inv_pushHeader h header timestampMs now
  | pushChunk chunk now => exact inv_pushChunk h chunk now
  | expire now => exact h.expire now
  | clear => exact inv_new.of_eq rfl rfl

/-- **After any sequence of calls** at most 16 frames and at most 16 groups of
orphans are held, no frame id is in both tables, the bytes of an assembly are
those of its chunks and no more than its declared size, its indices are below
its declared number of chunks, and it is not complete. -/
theorem representation_invariant (calls : List Call) :
    let s := calls.foldl after new
    s.frames.size ≤ 16 ∧ s.orphans.size ≤ 16 ∧ (∀ id, id ∈ s.frames → id ∉ s.orphans) ∧
      ∀ id a, s.frames.lookup id = some a →
        a.payloadBytes = (a.chunks.entries.map fun e => e.2.length).sum ∧
        a.payloadBytes ≤ a.header.totalSize.toNat ∧
        (∀ index data, a.chunks.lookup index = some data → index < a.header.totalChunks) ∧
        complete a = false := by
  have hinv : Inv (calls.foldl after new) :=
    List.foldlRecOn calls after inv_new fun s hs call _ => inv_after hs call
  refine ⟨hinv.frames_le, hinv.orphans_le, hinv.disjoint, fun id a ha => ?_⟩
  obtain ⟨hpayload, hle, hindices⟩ := hinv.fits id a ha
  exact ⟨hpayload, hle, hindices, hinv.incomplete id a ha⟩

end MahoRD.FrameAssembler
