/-
MahoRD/Host/ClipboardImage.lean

Clipboard images on the host: the assembler of what the client sends
(`maho-host/src/clipboard_image.rs`), and how the session sends the host's own
(`maho-host/src/session.rs`).

A transfer lives for five seconds.  Its id may be used once; the assembler
remembers the used ones, and starts no transfer once it holds 65536 of them.
Anything out of order cancels what is pending.

The PNG decoder is a parameter.  Instants are microseconds.
-/
import MahoRD.Proto.ClipboardImage

namespace MahoRD

open Transfers

namespace Host

/-- `LIMIT`. -/
def clipboardImageLimit : ℕ := 8 * 1024 * 1024

inductive ImageError
  | invalidData (text : String)
  /-- The decoder's own error. -/
  | other

/-- The error of a chunk that is refused. -/
def ImageError.invalid : ImageError := .invalidData "invalid clipboard image transfer"

structure Assembly.Active where
  id : UInt32
  total : ℕ
  started : ℕ
  bytes : List UInt8

structure Assembly where
  active : Option Assembly.Active
  used : List UInt32

def validatePng (decodes : List UInt8 → Bool) (bytes : List UInt8) : Except ImageError Unit :=
  if bytes.length > clipboardImageLimit ∨ ¬ pngSignature <+: bytes then
    .error (.invalidData "invalid PNG")
  else if decodes bytes then .ok ()
  else .error .other

namespace Assembly

/-- `Assembly::default()`. -/
def new : Assembly := ⟨none, []⟩

def cancel (s : Assembly) : Assembly := { s with active := none }

def expire (s : Assembly) (now : ℕ) : Assembly :=
  match s.active with
  | some a => if a.started + 5000000 ≤ now then s.cancel else s
  | none => s

/-- The part of `push` about a chunk at offset 0: `false` if it is refused. -/
def startTransfer (s : Assembly) (chunk : ClipboardImageChunk) (total now : ℕ) : Bool × Assembly :=
  if chunk.offset ≠ 0 then (true, s)
  else if s.used.length ≥ 65536 ∨ chunk.transferId ∈ s.used then (false, s.cancel)
  else
    let s := { s with used := chunk.transferId :: s.used }
    if ¬ pngSignature <+: chunk.pngBytes then (false, s.cancel)
    else (true, { s with active := some ⟨chunk.transferId, total, now, []⟩ })

/-- The rest of `push`: what the chunk adds to the active transfer. -/
def append (decodes : List UInt8 → Bool) (s : Assembly) (chunk : ClipboardImageChunk)
    (total : ℕ) : Except ImageError (Option (List UInt8)) × Assembly :=
  match s.active with
  | none => (.error .invalid, s)
  | some a =>
    if a.id ≠ chunk.transferId ∨ a.total ≠ total ∨ a.bytes.length ≠ chunk.offset.toNat ∨
        a.bytes.length + chunk.pngBytes.length > total then (.error .invalid, s.cancel)
    else
      let bytes := a.bytes ++ chunk.pngBytes
      if bytes.length ≠ total then (.ok none, { s with active := some { a with bytes } })
      else
        match validatePng decodes bytes with
        | .error e => (.error e, s.cancel)
        | .ok () => (.ok (some bytes), s.cancel)

def push (decodes : List UInt8 → Bool) (s : Assembly) (chunk : ClipboardImageChunk) (now : ℕ) :
    Except ImageError (Option (List UInt8)) × Assembly :=
  let s := s.expire now
  let total := chunk.totalBytes.toNat
  if ¬ (8 ≤ total ∧ total ≤ clipboardImageLimit) ∨ chunk.pngBytes.isEmpty ∨
      chunk.pngBytes.length > 65536 then (.error .invalid, s.cancel)
  else
    match s.startTransfer chunk total now with
    | (false, s) => (.error .invalid, s)
    | (true, s) => s.append decodes chunk total

end Assembly

/-- The part of the session loop that sends an image of the host's clipboard: the result, the id of
the latest transfer, and the chunks sent.  `send i` is what became of the `i`-th one. -/
def sendClipboardImage {ε : Type} (mediaStopped : ε) (send : ℕ → Except ε Unit) (imageId : UInt32)
    (bytes : List UInt8) : Except ε Unit × UInt32 × List ClipboardImageChunk :=
  if imageId.toNat + 1 ≥ UInt32.size then (.error mediaStopped, imageId, [])
  else
    let imageId := imageId + 1
    let (r, sent) := ClipboardImageChunk.sendChunks send imageId bytes.length 65536 0
      (Chunks.chunks 65536 bytes)
    (r, imageId, sent)

/-! ### The assembler as a receiver -/

/-- The PNGs that the host accepts. -/
def validPng (decodes : List UInt8 → Bool) (bytes : List UInt8) : Bool :=
  bytes.length ≤ clipboardImageLimit ∧ pngSignature <+: bytes ∧ decodes bytes

theorem validatePng_eq_ok {decodes : List UInt8 → Bool} {bytes : List UInt8} :
    validatePng decodes bytes = .ok () ↔ validPng decodes bytes = true := by
  simp only [validatePng, validPng, decide_eq_true_eq]
  split
  next h => simpa using fun hle hsig => (h.elim (Nat.not_lt.mpr hle) (· hsig)).elim
  next h =>
    rw [not_or, Nat.not_lt, not_not] at h
    cases decodes bytes <;> simp [h]

namespace Assembly

variable (decodes : List UInt8 → Bool)

/-- What a push emits. -/
def receive (s : Assembly) (chunk : ClipboardImageChunk) (now : ℕ) :
    Option (List UInt8) × Assembly :=
  let (r, s) := s.push decodes chunk now
  (r.toOption.join, s)

def view (s : Assembly) : View UInt32 UInt8 :=
  ⟨s.active.map fun a => ⟨a.id, a.total, a.bytes, a.started⟩, {id | id ∈ s.used}⟩

theorem expire_cases (s : Assembly) (now : ℕ) :
    (s.expire now = s ∧ ∀ a, s.active = some a → now < a.started + 5000000) ∨
      s.expire now = s.cancel := by
  rw [expire]
  split
  next a ha =>
    split
    · exact .inr rfl
    next hlive =>
      refine .inl ⟨rfl, fun a' ha' => ?_⟩
      obtain rfl : a = a' := Option.some.inj (ha.symm.trans ha')
      exact Nat.not_le.mp hlive
  next ha => exact .inl ⟨rfl, fun a ha' => nomatch ha.symm.trans ha'⟩

variable {now : ℕ} {s s' : Assembly}

theorem startTransfer_false {chunk : ClipboardImageChunk} {total : ℕ}
    (h : s.startTransfer chunk total now = (false, s')) :
    s'.active = none ∧ ∀ id ∈ s.used, id ∈ s'.used := by
  rw [startTransfer] at h
  split at h
  · cases h
  split at h
  · cases h
    exact ⟨rfl, fun id hid => hid⟩
  dsimp only at h
  split at h
  · cases h
    exact ⟨rfl, fun id hid => .tail _ hid⟩
  · cases h

theorem startTransfer_true {chunk : ClipboardImageChunk} {total : ℕ}
    (h : s.startTransfer chunk total now = (true, s')) :
    (chunk.offset ≠ 0 ∧ s' = s) ∨
      (chunk.offset = 0 ∧ chunk.transferId ∉ s.used ∧
        s' = ⟨some ⟨chunk.transferId, total, now, []⟩, chunk.transferId :: s.used⟩) := by
  rw [startTransfer] at h
  split at h
  next hoffset =>
    cases h
    exact .inl ⟨hoffset, rfl⟩
  next hoffset =>
  split at h
  · cases h
  next hroom =>
  dsimp only at h
  split at h
  · cases h
  · cases h
    exact .inr ⟨not_not.mp hoffset, fun hused => hroom (.inr hused), rfl⟩

/-- The chunk goes on where the active transfer ends. -/
structure Fits (a : Active) (chunk : ClipboardImageChunk) : Prop where
  id : a.id = chunk.transferId
  total : a.total = chunk.totalBytes.toNat
  offset : a.bytes.length = chunk.offset.toNat
  le : a.bytes.length + chunk.pngBytes.length ≤ chunk.totalBytes.toNat

theorem append_fits {a : Active} {chunk : ClipboardImageChunk}
    (hactive : s.active = some a) (h : Fits a chunk) :
    Settled view (validPng decodes) ⟨a.id, a.total, a.bytes ++ chunk.pngBytes, a.started⟩
        ((s.append decodes chunk chunk.totalBytes.toNat).1.toOption.join,
          (s.append decodes chunk chunk.totalBytes.toNat).2) ∧
      (s.append decodes chunk chunk.totalBytes.toNat).2.used = s.used := by
  have hmatch : ¬ (a.id ≠ chunk.transferId ∨ a.total ≠ chunk.totalBytes.toNat ∨
      a.bytes.length ≠ chunk.offset.toNat ∨
      a.bytes.length + chunk.pngBytes.length > chunk.totalBytes.toNat) := by
    simp [h.id, h.total, h.offset, h.offset ▸ h.le]
  simp only [append, hactive, if_neg hmatch]
  split
  next hpart =>
    rw [← h.total] at hpart
    rw [Settled, if_neg hpart]
    exact ⟨⟨rfl, rfl⟩, rfl⟩
  next hwhole =>
    rw [← h.total, ne_eq, not_not] at hwhole
    rw [Settled, if_pos hwhole]
    split
    next e herror =>
      have hinvalid : ¬ validPng decodes (a.bytes ++ chunk.pngBytes) = true := by
        intro hvalid
        cases herror.symm.trans (validatePng_eq_ok.mpr hvalid)
      exact ⟨⟨(if_neg hinvalid).symm, rfl⟩, rfl⟩
    next hok => exact ⟨⟨(if_pos (validatePng_eq_ok.mp hok)).symm, rfl⟩, rfl⟩

theorem append_unfit {chunk : ClipboardImageChunk}
    (h : ∀ a, s.active = some a → ¬ Fits a chunk) :
    (s.append decodes chunk chunk.totalBytes.toNat).1 = .error .invalid ∧
      (s.append decodes chunk chunk.totalBytes.toNat).2 = s.cancel := by
  rw [append]
  split
  next hnone =>
    refine ⟨rfl, ?_⟩
    show s = ⟨none, s.used⟩
    rw [← hnone]
  next a ha =>
    split
    · exact ⟨rfl, rfl⟩
    next hmatch =>
      simp only [not_or, not_not, Nat.not_lt] at hmatch
      exact (h a ha ⟨hmatch.1, hmatch.2.1, hmatch.2.2.1, hmatch.2.2.2⟩).elim

theorem refused_of {c : Chunk UInt32 UInt8}
    (hactive : s'.active = s.active ∨ s'.active = none) (hused : ∀ id ∈ s.used, id ∈ s'.used) :
    Push clipboardImageLimit (view s) c (view s') none := by
  refine .refused ?_ hused
  rcases hactive with h | h
  · exact .inl (congrArg (Option.map _) h)
  · exact .inr (congrArg (Option.map _) h)

theorem expire_active (s : Assembly) (now : ℕ) :
    (s.expire now).active = s.active ∨ (s.expire now).active = none := by
  rcases s.expire_cases now with ⟨h, -⟩ | h
  · exact .inl (congrArg active h)
  · exact .inr (congrArg active h)

theorem expire_used (s : Assembly) (now : ℕ) : (s.expire now).used = s.used := by
  rcases s.expire_cases now with ⟨h, -⟩ | h
  · exact congrArg Assembly.used h
  · rw [h, cancel]

theorem receive_push (s : Assembly) (chunk : ClipboardImageChunk) (now : ℕ) :
    Push clipboardImageLimit (view s) chunk.toChunk (view (s.receive decodes chunk now).2)
      (s.receive decodes chunk now).1 := by
  have hactive := s.expire_active now
  have hused := s.expire_used now
  simp only [receive, push]
  generalize s.expire now = s₁ at hactive hused
  split
  · exact refused_of (.inr rfl) fun id hid => hused ▸ hid
  next hgood =>
  simp only [not_or, not_not, Nat.not_lt] at hgood
  split
  next s₂ hrefused =>
    obtain ⟨hnone, hsub⟩ := startTransfer_false hrefused
    exact refused_of (.inr hnone) fun id hid => hsub id (hused ▸ hid)
  next s₂ hstart =>
  by_cases hfits : ∃ a, s₂.active = some a ∧ Fits a chunk
  · obtain ⟨a, ha, hfit⟩ := hfits
    obtain ⟨hsettled, hused'⟩ := append_fits decodes ha hfit
    have hstarted (id : UInt32) (hid : id ∈ s₂.used) :
        id ∈ (view (s₂.append decodes chunk chunk.totalBytes.toNat).2).started := by
      show id ∈ (s₂.append decodes chunk chunk.totalBytes.toNat).2.used
      rwa [hused']
    have hle : (a.bytes ++ chunk.pngBytes).length ≤ a.total := by
      rw [List.length_append, hfit.total]
      exact hfit.le
    rcases startTransfer_true hstart with ⟨-, rfl⟩ | ⟨hoffset, hnew, rfl⟩
    · -- the chunk goes on with what was active before
      have hs : s.active = some a := by
        rcases hactive with h | h
        · exact h ▸ ha
        · exact nomatch h.symm.trans ha
      have hpending : (view s).pending = some ⟨a.id, a.total, a.bytes, a.started⟩ :=
        congrArg (Option.map _) hs
      refine hsettled.push (.next hpending hfit.id hfit.total hfit.offset) hle
        (hfit.total ▸ hgood.1.2) ?_ (.inr ⟨_, hpending, hfit.id⟩)
      exact fun id hid => hstarted id (hused ▸ hid)
    · -- the chunk starts a transfer
      obtain rfl := Option.some.inj ha
      refine hsettled.push (.first (congrArg UInt32.toNat hoffset) fun hmem => hnew ?_) hle
        hgood.1.2 ?_ (.inl ?_)
      · exact hused ▸ hmem
      · exact fun id hid => hstarted id (.tail _ (hused ▸ hid))
      · exact hstarted chunk.transferId (.head _)
  · have hunfit := append_unfit decodes fun a ha hfit => hfits ⟨a, ha, hfit⟩
    rw [hunfit.1, hunfit.2]
    refine refused_of (.inr rfl) fun id hid => ?_
    rcases startTransfer_true hstart with ⟨-, rfl⟩ | ⟨-, -, rfl⟩
    · exact hused ▸ hid
    · exact List.mem_cons_of_mem _ (hused ▸ hid)

/-- The ids are new, and there is room for them: with them, `room` ids will be used. -/
structure Ready (room : ℕ) (s : Assembly) (ids : List UInt32) : Prop where
  nodup : ids.Nodup
  fresh : ∀ id ∈ ids, id ∉ s.used
  length : s.used.length + ids.length = room

theorem push_of_good {chunk : ClipboardImageChunk} (h : chunk.Good) :
    s.push decodes chunk now =
      match (s.expire now).startTransfer chunk chunk.totalBytes.toNat now with
      | (false, s) => (.error .invalid, s)
      | (true, s) => s.append decodes chunk chunk.totalBytes.toNat := by
  have hgood : ¬ (¬ (8 ≤ chunk.totalBytes.toNat ∧ chunk.totalBytes.toNat ≤ clipboardImageLimit) ∨
      chunk.pngBytes.isEmpty ∨ chunk.pngBytes.length > 65536) := by
    have htotal : chunk.totalBytes.toNat ≤ clipboardImageLimit := h.total_le
    have hlength : chunk.pngBytes.length ≤ 65536 := h.length_le
    simp [h.total_ge, htotal, h.nonempty, hlength]
  simp only [push, if_neg hgood]

theorem assembly_prompt {room : ℕ} (hlimit : room ≤ 65536) : Prompt view ClipboardImageChunk.toChunk
    (fun s chunk now => s.receive decodes chunk now)
    ClipboardImageChunk.Good (validPng decodes) 5000000 (Ready room) where
  first {s chunk ids} now hgood hready hoffset := by
    have hoffset : chunk.offset = 0 := UInt32.toNat_inj.mp hoffset
    have hused := s.expire_used now
    have hnew : chunk.transferId ∉ s.used := hready.fresh _ (.head _)
    have hlength := hready.length
    have hstart : (s.expire now).startTransfer chunk chunk.totalBytes.toNat now =
        (true, ⟨some ⟨chunk.transferId, chunk.totalBytes.toNat, now, []⟩,
          chunk.transferId :: s.used⟩) := by
      rw [List.length_cons] at hlength
      have hopen : ¬ (s.used.length ≥ 65536 ∨ chunk.transferId ∈ s.used) := by
        simp [hnew]
        omega
      simp [startTransfer, hoffset, hused, hopen, hgood.signature hoffset]
    have hfit : Fits ⟨chunk.transferId, chunk.totalBytes.toNat, now, []⟩ chunk :=
      ⟨rfl, rfl, (congrArg UInt32.toNat hoffset).symm, by
        have := hgood.le
        simp only [List.length_nil]
        omega⟩
    obtain ⟨hsettled, hused'⟩ := append_fits decodes
      (s := ⟨some ⟨chunk.transferId, chunk.totalBytes.toNat, now, []⟩,
        chunk.transferId :: s.used⟩) rfl hfit
    simp only [receive, push_of_good decodes hgood, hstart]
    refine ⟨hsettled, hready.nodup.of_cons, fun id hid => ?_, ?_⟩
    · rw [hused', List.mem_cons]
      rintro (rfl | hold)
      · exact (List.nodup_cons.mp hready.nodup).1 hid
      · exact hready.fresh id (.tail _ hid) hold
    · rw [hused']
      simp only [List.length_cons] at hlength ⊢
      omega
  next {s chunk p ids now} hgood hready hpending htime hid htotal hdata hoffset := by
    obtain ⟨a, ha, rfl⟩ := Option.map_eq_some_iff.mp hpending
    have hexpire : s.expire now = s := by
      rcases s.expire_cases now with ⟨h, -⟩ | h
      · exact h
      · simp only [expire, ha, if_neg (Nat.not_le.mpr htime)]
    have hoffset : chunk.offset ≠ 0 := fun h => hoffset (congrArg UInt32.toNat h)
    have hstart : (s.expire now).startTransfer chunk chunk.totalBytes.toNat now = (true, s) := by
      simp [startTransfer, hexpire, hoffset]
    have hfit : Fits a chunk := ⟨hid, htotal, hdata, by
      have : a.bytes.length = chunk.offset.toNat := hdata
      have := hgood.le
      omega⟩
    obtain ⟨hsettled, hused'⟩ := append_fits decodes ha hfit
    simp only [receive, push_of_good decodes hgood, hstart]
    exact ⟨hsettled, hready.nodup, fun id hid => by rw [hused']; exact hready.fresh id hid,
      by rw [hused']; exact hready.length⟩

theorem receive_full {chunk : ClipboardImageChunk}
    (hactive : s.active = none) (hused : 65536 ≤ s.used.length) :
    (s.receive decodes chunk now).1 = none ∧ (s.receive decodes chunk now).2.active = none ∧
      65536 ≤ (s.receive decodes chunk now).2.used.length := by
  have hexpire : s.expire now = s := by rw [expire, hactive]
  simp only [receive, push, hexpire]
  split
  · exact ⟨rfl, rfl, hused⟩
  by_cases hoffset : chunk.offset = 0
  · have hstart : s.startTransfer chunk chunk.totalBytes.toNat now = (false, s.cancel) := by
      simp [startTransfer, hoffset, hused]
    simp only [hstart]
    exact ⟨rfl, rfl, hused⟩
  · have hstart : s.startTransfer chunk chunk.totalBytes.toNat now = (true, s) := by
      simp [startTransfer, hoffset]
    simp only [hstart, append, hactive]
    exact ⟨rfl, trivial, hused⟩

/-- What the session does to the assembler between two chunks: it cancels it (`none`), or it lets the
active transfer expire. -/
def drop (s : Assembly) : Option ℕ → Assembly
  | none => s.cancel
  | some now => s.expire now

theorem drop_view (s : Assembly) (how : Option ℕ) :
    ((view (s.drop how)).pending = (view s).pending ∨ (view (s.drop how)).pending = none) ∧
      (view (s.drop how)).started = (view s).started := by
  cases how with
  | none => exact ⟨.inr rfl, rfl⟩
  | some now =>
    refine ⟨?_, ?_⟩
    · rcases s.expire_active now with h | h
      · exact .inl (congrArg (Option.map _) h)
      · exact .inr (congrArg (Option.map _) h)
    · show {id | id ∈ (s.expire now).used} = {id | id ∈ s.used}
      rw [s.expire_used now]

end Assembly

/-! ### The sender -/

theorem sendClipboardImage_numbers {ε : Type} (mediaStopped : ε) :
    ClipboardImageChunk.Numbers (fun bytes => bytes.length ≤ clipboardImageLimit) 65536
      (sendClipboardImage mediaStopped) := by
  intro send imageId imageId' bytes sent hlimit h
  -- the rest is true of any chunks, and the kernel would compute these
  obtain ⟨chunks, hchunks⟩ : ∃ chunks, chunks = Chunks.chunks 65536 bytes := ⟨_, rfl⟩
  rw [sendClipboardImage, ← hchunks] at h
  split at h
  · cases (Prod.mk.inj h).1
  next hroom =>
  have hsize : UInt32.size = 4294967296 := rfl
  have hlimit' : bytes.length ≤ 8 * 1024 * 1024 := hlimit
  rcases hsent : ClipboardImageChunk.sendChunks send (imageId + 1) bytes.length 65536 0 chunks
    with ⟨r, sent'⟩
  simp only [hsent] at h
  obtain ⟨rfl, hrest⟩ := Prod.mk.inj h
  obtain ⟨rfl, rfl⟩ := Prod.mk.inj hrest
  rw [hchunks] at hsent
  constructor
  · rw [UInt32.toNat_add, UInt32.toNat_one, Nat.mod_eq_of_lt (by omega)]
  · exact ClipboardImageChunk.sendChunks_split hlimit' hsent

end Host
end MahoRD
