/-
MahoRD/Proto/ClipboardImage.lean

Clipboard images on the wire: how a PNG is cut into chunks, by the client as by the host
(`maho-app/src/session.rs`, `maho-host/src/session.rs`), and what holds of every chunk
that comes of it.
-/
import MahoRD.Lib.Transfers
import MahoRD.Proto.Parity

namespace MahoRD.ClipboardImageChunk

open Transfers

/-- A chunk as far as transfers go. -/
def toChunk (c : ClipboardImageChunk) : Chunk UInt32 UInt8 :=
  ⟨c.transferId, c.totalBytes.toNat, c.offset.toNat, c.pngBytes⟩

/-- The loop of both senders over the chunks of `size` bytes, from index `index` on: how it ends, and
the chunks sent.  `send i` is what became of the chunk of index `i`. -/
def sendChunks {ε : Type} (send : ℕ → Except ε Unit) (id : UInt32)
    (total size : ℕ) : (index : ℕ) → List (List UInt8) → Except ε Unit × List ClipboardImageChunk
  | _, [] => (.ok (), [])
  | index, chunk :: rest =>
    match send index with
    | .error e => (.error e, [])
    | .ok () =>
      let (r, sent) := sendChunks send id total size (index + 1) rest
      (r, ⟨id, UInt32.ofNat total, UInt32.ofNat (index * size), chunk⟩ :: sent)

/-- Images sent one after the other, each with a number of its own: the chunks of each, if all of them
are sent. -/
def sendAll {ε η : Type}
    (sendOne : η → UInt32 → List UInt8 → Except ε Unit × UInt32 × List ClipboardImageChunk) :
    UInt32 → List (η × List UInt8) → Except ε (List (List ClipboardImageChunk))
  | _, [] => .ok []
  | id, (calls, png) :: rest =>
    match sendOne calls id png with
    | (.error e, _) => .error e
    | (.ok (), id, sent) => (sendAll sendOne id rest).map (sent :: ·)

variable {id : UInt32}

theorem sendChunks_ok {ε : Type} {send : ℕ → Except ε Unit}
    {size : ℕ} {bytes : List UInt8} {sent : List ClipboardImageChunk} {index m : ℕ}
    (htotal : bytes.length < UInt32.size) (hindex : (index + m) * size < UInt32.size + size)
    (h : sendChunks send id bytes.length size index
      ((List.range' index m).map fun i => (bytes.drop (i * size)).take size) = (.ok (), sent)) :
    sent.map toChunk = (List.range' index m).map (piece size id bytes) := by
  induction m generalizing index sent with
  | zero =>
    obtain rfl : [] = sent := (Prod.mk.inj h).2
    rfl
  | succ m ih =>
    simp only [List.range'_succ, List.map_cons, sendChunks] at h ⊢
    split at h
    · cases (Prod.mk.inj h).1
    next hsend =>
    cases hrest : sendChunks send id bytes.length size (index + 1)
        ((List.range' (index + 1) m).map fun i => (bytes.drop (i * size)).take size) with
    | mk r later =>
      rw [hrest] at h
      obtain ⟨rfl, rfl⟩ := Prod.mk.inj h
      have hoffset : index * size < UInt32.size := by
        rw [← Nat.add_assoc, Nat.succ_mul] at hindex
        have : index * size ≤ (index + m) * size := Nat.mul_le_mul_right _ (Nat.le_add_right _ _)
        omega
      have hnext : (index + 1 + m) * size < UInt32.size + size := by
        rwa [Nat.add_assoc, Nat.add_comm 1]
      rw [List.map_cons, ih hnext hrest]
      simp only [toChunk, piece, UInt32.toNat_ofNat_of_lt' htotal, UInt32.toNat_ofNat_of_lt' hoffset]

theorem sendChunks_split {ε : Type} {send : ℕ → Except ε Unit} {bytes : List UInt8}
    {sent : List ClipboardImageChunk} (hlimit : bytes.length ≤ 8 * 1024 * 1024)
    (h : sendChunks send id bytes.length 65536 0 (Chunks.chunks 65536 bytes) = (.ok (), sent)) :
    sent.map toChunk = split 65536 id bytes := by
  have hsize : UInt32.size = 4294967296 := rfl
  rw [Chunks.chunks, List.range_eq_range'] at h
  rw [split, List.range_eq_range']
  refine sendChunks_ok (by omega) ?_ h
  have := Nat.div_mul_le_self (bytes.length + 65536 - 1) 65536
  rw [Chunks.count]
  omega

theorem sendChunks_fst {ε : Type} {send : ℕ → Except ε Unit} (hsend : ∀ i, send i = .ok ())
    (id : UInt32) (total size index : ℕ) (chunks : List (List UInt8)) :
    (sendChunks send id total size index chunks).1 = .ok () := by
  induction chunks generalizing index with
  | nil => rfl
  | cons chunk chunks ih =>
    simp only [sendChunks, hsend]
    exact ih (index + 1)

/-- A sender that numbers its transfers one by one, and cuts each into chunks of `size`. -/
def Numbers {ε η : Type} (valid : List UInt8 → Prop) (size : ℕ)
    (sendOne : η → UInt32 → List UInt8 → Except ε Unit × UInt32 × List ClipboardImageChunk) :
    Prop :=
  ∀ {calls id id' png sent}, valid png → sendOne calls id png = (.ok (), id', sent) →
    id'.toNat = id.toNat + 1 ∧ sent.map toChunk = split size id' png

section SendAll

variable {ε η : Type} {valid : List UInt8 → Prop} {size : ℕ}
  {sendOne : η → UInt32 → List UInt8 → Except ε Unit × UInt32 × List ClipboardImageChunk}

theorem exists_sendAll (h : Numbers valid size sendOne) {id : UInt32}
    {pngs : List (η × List UInt8)} (hvalid : ∀ p ∈ pngs, valid p.2)
    (hone : ∀ p ∈ pngs, ∀ id : UInt32, id.toNat + 1 < UInt32.size →
      (sendOne p.1 id p.2).1 = .ok ()) (hids : id.toNat + pngs.length < UInt32.size) :
    ∃ sents, sendAll sendOne id pngs = .ok sents := by
  induction pngs generalizing id with
  | nil => exact ⟨[], rfl⟩
  | cons p pngs ih =>
    obtain ⟨calls, png⟩ := p
    rw [List.length_cons] at hids
    rcases hsend : sendOne calls id png with ⟨r, id', sent⟩
    obtain rfl : r = .ok () := by
      have hok := hone _ (.head _) id (by omega)
      rwa [hsend] at hok
    obtain ⟨hid, -⟩ := h (hvalid _ (.head _)) hsend
    have hroom : id'.toNat + pngs.length < UInt32.size := by omega
    obtain ⟨later, hlater⟩ := ih (fun p hp => hvalid p (.tail _ hp))
      (fun p hp => hone p (.tail _ hp)) hroom
    exact ⟨sent :: later, by simp only [sendAll, hsend, hlater]; rfl⟩

theorem sendAll_ok (h : Numbers valid size sendOne) {id : UInt32}
    {pngs : List (η × List UInt8)} {sents : List (List ClipboardImageChunk)}
    (hvalid : ∀ p ∈ pngs, valid p.2) (hsents : sendAll sendOne id pngs = .ok sents) :
    ∃ payloads : List (UInt32 × List UInt8), payloads.map Prod.snd = pngs.map Prod.snd ∧
      (payloads.map Prod.fst).Pairwise (· < ·) ∧ (∀ p ∈ payloads, id < p.1) ∧
      sents.map (List.map toChunk) = payloads.map fun p => split size p.1 p.2 := by
  induction pngs generalizing id sents with
  | nil =>
    cases hsents
    exact ⟨[], rfl, .nil, fun p hp => (List.not_mem_nil hp).elim, rfl⟩
  | cons p pngs ih =>
    obtain ⟨calls, png⟩ := p
    rw [sendAll] at hsents
    split at hsents
    · cases hsents
    next id' sent hone =>
    cases hrest : sendAll sendOne id' pngs with
    | error e => rw [hrest] at hsents; cases hsents
    | ok later =>
      rw [hrest] at hsents
      obtain rfl : sent :: later = sents := Except.ok.inj hsents
      obtain ⟨hid, hsent⟩ := h (hvalid _ (.head _)) hone
      obtain ⟨payloads, hpngs, hsorted, hafter, hsplit⟩ :=
        ih (fun p hp => hvalid p (.tail _ hp)) hrest
      have hlt : id < id' := UInt32.lt_iff_toNat_lt.mpr (by omega)
      refine ⟨(id', png) :: payloads, by simp [hpngs], ?_, ?_, by simp [hsent, hsplit]⟩
      · refine .cons (fun i hi => ?_) hsorted
        obtain ⟨p, hp, rfl⟩ := List.mem_map.mp hi
        exact hafter p hp
      · intro p hp
        rcases List.mem_cons.mp hp with rfl | hp
        · exact hlt
        · exact UInt32.lt_trans hlt (hafter p hp)

end SendAll

/-- A chunk as both sides cut them. -/
structure Good (chunk : ClipboardImageChunk) : Prop where
  total_ge : 8 ≤ chunk.totalBytes.toNat
  total_le : chunk.totalBytes.toNat ≤ maxClipboardImageBytes.toNat
  nonempty : chunk.pngBytes ≠ []
  length_le : chunk.pngBytes.length ≤ maxClipboardImageChunkBytes
  le : chunk.offset.toNat + chunk.pngBytes.length ≤ chunk.totalBytes.toNat
  signature : chunk.offset = 0 → pngSignature <+: chunk.pngBytes

theorem good_of_split {bytes : List UInt8} {sent : List ClipboardImageChunk}
    (hlimit : bytes.length ≤ maxClipboardImageBytes.toNat) (hsignature : pngSignature <+: bytes)
    (hsent : sent.map toChunk = split maxClipboardImageChunkBytes id bytes) :
    ∀ chunk ∈ sent, Good chunk := by
  intro chunk hmem
  have hpiece : chunk.toChunk ∈ split maxClipboardImageChunkBytes id bytes :=
    hsent ▸ List.mem_map_of_mem hmem
  obtain ⟨i, hi, hpiece⟩ := List.mem_map.mp hpiece
  have htotal : bytes.length = chunk.totalBytes.toNat := congrArg Chunk.total hpiece
  have hoffset : i * maxClipboardImageChunkBytes = chunk.offset.toNat :=
    congrArg Chunk.offset hpiece
  have hbytes : (bytes.drop (i * maxClipboardImageChunkBytes)).take maxClipboardImageChunkBytes =
      chunk.pngBytes := congrArg Chunk.bytes hpiece
  have hinside : i * maxClipboardImageChunkBytes < bytes.length :=
    Chunks.mul_lt_of_lt_count (List.mem_range.mp hi)
  have hlength : chunk.pngBytes.length = min maxClipboardImageChunkBytes
      (bytes.length - i * maxClipboardImageChunkBytes) := by
    rw [← hbytes, List.length_take, List.length_drop]
  have hpos : 0 < maxClipboardImageChunkBytes := by decide
  have hge := hsignature.length_le
  have height : pngSignature.length = 8 := rfl
  refine ⟨by omega, by omega, List.ne_nil_of_length_pos (by omega), by omega, by omega, ?_⟩
  intro hfirst
  rw [hfirst] at hoffset
  have hzero : i * maxClipboardImageChunkBytes = 0 := hoffset
  rw [← hbytes, hzero, List.drop_zero]
  exact List.prefix_take_iff.mpr ⟨hsignature, by decide⟩

/-- Images that were sent arrive at a receiver that takes what comes in order and in time. -/
theorem deliver_sent {σ : Type} {view : σ → View UInt32 UInt8}
    {push : σ → ClipboardImageChunk → ℕ → Option (List UInt8) × σ} {valid : List UInt8 → Bool}
    {life : ℕ} {Ready : σ → List UInt32 → Prop}
    (h : Prompt view toChunk push Good valid life Ready) {payloads : List (UInt32 × List UInt8)}
    {transfers : List (List (ClipboardImageChunk × ℕ))} {s : σ} {ids : List UInt32}
    (hs : (view s).pending = none) (hready : Ready s (payloads.map Prod.fst ++ ids))
    (hpayloads : ∀ p ∈ payloads, valid p.2 ∧ p.2.length ≤ maxClipboardImageBytes.toNat ∧
      pngSignature <+: p.2)
    (hchunks : transfers.map (·.map fun e => e.1.toChunk) =
      payloads.map fun p => split 65536 p.1 p.2)
    (htime : ∀ t ∈ transfers, InTime life t) :
    (feedAll push s transfers).1 = payloads.map (fun p => delivered 65536 p.2) ∧
      (view (feedAll push s transfers).2).pending = none ∧
      Ready (feedAll push s transfers).2 ids := by
  refine deliverAll h (by decide) hs hready (fun p hp => ?_) (fun t ht e he => ?_) hchunks htime
  · obtain ⟨hvalid, -, hsignature⟩ := hpayloads p hp
    refine ⟨hvalid, ?_⟩
    rintro hnil
    rw [hnil] at hsignature
    exact absurd (List.prefix_nil.mp hsignature) (by decide)
  · have hmem : t.map (fun e => e.1.toChunk) ∈ payloads.map fun p => split 65536 p.1 p.2 :=
      hchunks ▸ List.mem_map_of_mem ht
    obtain ⟨p, hp, hsplit⟩ := List.mem_map.mp hmem
    obtain ⟨-, hlimit, hsignature⟩ := hpayloads p hp
    have hsent : (t.map Prod.fst).map toChunk = split 65536 p.1 p.2 := by
      rw [List.map_map]
      exact hsplit.symm
    exact good_of_split hlimit hsignature hsent _ (List.mem_map_of_mem he)

theorem Good.validate {chunk : ClipboardImageChunk} (h : Good chunk) : chunk.validate = .ok () := by
  have htotal : ¬ (chunk.totalBytes.toNat < pngSignature.length ∨
      chunk.totalBytes > maxClipboardImageBytes) := by
    rw [not_or, gt_iff_lt, UInt32.lt_iff_toNat_lt, Nat.not_lt, Nat.not_lt]
    exact ⟨h.total_ge, h.total_le⟩
  have hlength : ¬ (chunk.pngBytes.isEmpty ∨
      chunk.pngBytes.length > maxClipboardImageChunkBytes) := by
    simp [h.nonempty, h.length_le]
  have hsignature : ¬ (chunk.offset = 0 ∧ ¬ pngSignature <+: chunk.pngBytes) := by
    rintro ⟨hoffset, hnot⟩
    exact hnot (h.signature hoffset)
  rw [ClipboardImageChunk.validate, if_neg htotal, if_neg hlength,
    if_neg (Nat.not_lt.mpr h.le), if_neg hsignature]

theorem le_of_validate {chunk : ClipboardImageChunk} (h : chunk.validate = .ok ()) :
    chunk.totalBytes.toNat ≤ maxClipboardImageBytes.toNat ∧
      chunk.offset.toNat + chunk.pngBytes.length ≤ chunk.totalBytes.toNat := by
  rw [ClipboardImageChunk.validate] at h
  split at h
  · cases h
  next htotal =>
  split at h
  · cases h
  split at h
  · cases h
  next hle =>
  rw [not_or, gt_iff_lt, UInt32.lt_iff_toNat_lt, Nat.not_lt, Nat.not_lt] at htotal
  exact ⟨htotal.2, Nat.not_lt.mp hle⟩

theorem encode_cases (chunk : ClipboardImageChunk) :
    (∃ e, chunk.validate = .error e ∧ chunk.encode = .error e) ∨
      ∃ bytes, chunk.validate = .ok () ∧ chunk.encode = .ok bytes := by
  rw [encode]
  cases chunk.validate with
  | error e => exact .inl ⟨e, rfl, rfl⟩
  | ok _ => exact .inr ⟨_, rfl, rfl⟩

end MahoRD.ClipboardImageChunk
