/-
MahoRD/App/ClipboardImage.lean

Clipboard images on the client: the assembler of what the host sends
(`maho-app/src/session_parity.rs`), and how the client sends its own
(`maho-app/src/session.rs`).

A transfer lives for ten seconds.  The assembler remembers the id of the latest
one, and starts only those with a greater id.

The PNG decoder is a parameter.  Instants are microseconds.
-/
import MahoRD.App.ClientState
import MahoRD.Host.ClipboardImage

namespace MahoRD.Client

open Transfers

structure ImageAssembly.Pending where
  id : UInt32
  total : UInt32
  data : List UInt8
  started : ℕ

structure ImageAssembly where
  latestId : Option UInt32
  pending : Option ImageAssembly.Pending

namespace ImageAssembly

/-- `ImageAssembly::default()`. -/
def new : ImageAssembly := ⟨none, none⟩

def discard (s : ImageAssembly) : ImageAssembly := { s with pending := none }

/-- The part of `push` about the age of the pending transfer. -/
def expire (s : ImageAssembly) (now : ℕ) : ImageAssembly :=
  match s.pending with
  | some p => if p.started + 10000000 ≤ now then s.discard else s
  | none => s

/-- The part of `push` about a chunk at offset 0: `false` if it is refused. -/
def startTransfer (s : ImageAssembly) (chunk : ClipboardImageChunk) (now : ℕ) :
    Bool × ImageAssembly :=
  if chunk.offset ≠ 0 then (true, s)
  else if s.latestId.any (chunk.transferId ≤ ·) then (false, s)
  else (true, ⟨some chunk.transferId, some ⟨chunk.transferId, chunk.totalBytes, [], now⟩⟩)

/-- The rest of `push`: what the chunk adds to the pending transfer. -/
def append (decodes : List UInt8 → Bool) (s : ImageAssembly) (chunk : ClipboardImageChunk) :
    Except SessionError (Option (List UInt8)) × ImageAssembly :=
  match s.pending with
  | none => (.error .invalidClipboardImage, s)
  | some p =>
    if p.id ≠ chunk.transferId ∨ p.total ≠ chunk.totalBytes ∨
        p.data.length ≠ chunk.offset.toNat then (.error .invalidClipboardImage, s.discard)
    else
      let data := p.data ++ chunk.pngBytes
      if data.length = p.total.toNat then
        if decodes data then (.ok (some data), s.discard)
        else (.error .invalidClipboardImage, s.discard)
      else (.ok none, { s with pending := some { p with data } })

def push (decodes : List UInt8 → Bool) (s : ImageAssembly) (chunk : ClipboardImageChunk)
    (now : ℕ) : Except SessionError (Option (List UInt8)) × ImageAssembly :=
  match chunk.encode with
  | .error e => (.error (.protocol e), s)
  | .ok _ =>
    match (s.expire now).startTransfer chunk now with
    | (false, s) => (.error .invalidClipboardImage, s)
    | (true, s) => s.append decodes chunk

end ImageAssembly

/-- What `send_clipboard_image` asks for on its way: `clipboardAllowed 0` on entry,
`clipboardAllowed (i + 1)` before the `i`-th chunk, and `send i` for that chunk. -/
structure ImageCalls where
  negotiated : Except SessionError Bool
  clipboardAllowed : ℕ → Except SessionError Bool
  lock : Except SessionError Unit
  send : ℕ → Except SessionError Unit

/-- The part of `send_clipboard_image` before the first chunk. -/
def ImageCalls.enter (calls : ImageCalls) (imageSequence : UInt32) (png : List UInt8) :
    Except SessionError Unit := do
  if !(← calls.negotiated) then throw .unsupported
  if !(← calls.clipboardAllowed 0) then throw .permissionDenied
  if png.length > maxClipboardImageBytes.toNat ∨ ¬ pngSignature <+: png then
    throw .invalidClipboardImage
  calls.lock
  if imageSequence.toNat + 1 ≥ UInt32.size then throw .unsupported

/-- `Session::send_clipboard_image`: the result, the number of the latest transfer, and the chunks
sent. -/
def sendClipboardImage (calls : ImageCalls) (imageSequence : UInt32) (png : List UInt8) :
    Except SessionError Unit × UInt32 × List ClipboardImageChunk :=
  match calls.enter imageSequence png with
  | .error e => (.error e, imageSequence, [])
  | .ok () =>
    let id := imageSequence + 1
    let sendChunk (i : ℕ) : Except SessionError Unit := do
      if !(← calls.clipboardAllowed (i + 1)) then throw .permissionDenied
      calls.send i
    let (r, sent) := ClipboardImageChunk.sendChunks sendChunk id png.length
      maxClipboardImageChunkBytes 0 (Chunks.chunks maxClipboardImageChunkBytes png)
    (r, id, sent)

/-! ### The assembler as a receiver -/

namespace ImageAssembly

variable (decodes : List UInt8 → Bool)

/-- What a push emits. -/
def receive (s : ImageAssembly) (chunk : ClipboardImageChunk) (now : ℕ) :
    Option (List UInt8) × ImageAssembly :=
  let (r, s) := s.push decodes chunk now
  (r.toOption.join, s)

/-- Whatever is not after the latest transfer counts as started. -/
def view (s : ImageAssembly) : View UInt32 UInt8 :=
  ⟨s.pending.map fun p => ⟨p.id, p.total.toNat, p.data, p.started⟩,
    {id | s.latestId.any (id ≤ ·)}⟩

theorem expire_pending (s : ImageAssembly) (now : ℕ) :
    (s.expire now).pending = s.pending ∨ (s.expire now).pending = none := by
  rw [expire]
  split
  · split
    · exact .inr rfl
    · exact .inl rfl
  · exact .inl rfl

@[simp] theorem expire_latestId (s : ImageAssembly) (now : ℕ) :
    (s.expire now).latestId = s.latestId := by
  rw [expire]
  split
  · split <;> rfl
  · rfl

variable {now : ℕ} {s s' : ImageAssembly}

theorem expire_of_lt {p : Pending} (hp : s.pending = some p)
    (h : now < p.started + 10000000) : s.expire now = s := by
  simp only [expire, hp, if_neg (Nat.not_le.mpr h)]

theorem startTransfer_false {chunk : ClipboardImageChunk}
    (h : s.startTransfer chunk now = (false, s')) : s' = s := by
  rw [startTransfer] at h
  split at h
  · cases h
  split at h
  · exact (Prod.mk.inj h).2.symm
  · cases h

theorem startTransfer_true {chunk : ClipboardImageChunk}
    (h : s.startTransfer chunk now = (true, s')) :
    (chunk.offset ≠ 0 ∧ s' = s) ∨
      (chunk.offset = 0 ∧ ¬ s.latestId.any (chunk.transferId ≤ ·) ∧
        s' = ⟨some chunk.transferId,
          some ⟨chunk.transferId, chunk.totalBytes, [], now⟩⟩) := by
  rw [startTransfer] at h
  split at h
  next hoffset => exact .inl ⟨hoffset, (Prod.mk.inj h).2.symm⟩
  next hoffset =>
  split at h
  · cases h
  next hnew => exact .inr ⟨not_not.mp hoffset, hnew, (Prod.mk.inj h).2.symm⟩

/-- The chunk goes on where the pending transfer ends. -/
structure Fits (p : Pending) (chunk : ClipboardImageChunk) : Prop where
  id : p.id = chunk.transferId
  total : p.total = chunk.totalBytes
  offset : p.data.length = chunk.offset.toNat

theorem append_fits {p : Pending} {chunk : ClipboardImageChunk}
    (hpending : s.pending = some p) (h : Fits p chunk) :
    Settled view decodes ⟨p.id, p.total.toNat, p.data ++ chunk.pngBytes, p.started⟩
        ((s.append decodes chunk).1.toOption.join, (s.append decodes chunk).2) ∧
      (s.append decodes chunk).2.latestId = s.latestId := by
  have hmatch : ¬ (p.id ≠ chunk.transferId ∨ p.total ≠ chunk.totalBytes ∨
      p.data.length ≠ chunk.offset.toNat) := by
    simp [h.id, h.total, h.offset]
  simp only [append, hpending, if_neg hmatch]
  split
  next hwhole =>
    rw [Settled, if_pos hwhole]
    split
    · exact ⟨⟨rfl, rfl⟩, rfl⟩
    · exact ⟨⟨rfl, rfl⟩, rfl⟩
  next hpart =>
    rw [Settled, if_neg hpart]
    exact ⟨⟨rfl, rfl⟩, rfl⟩

theorem append_unfit {chunk : ClipboardImageChunk}
    (h : ∀ p, s.pending = some p → ¬ Fits p chunk) :
    (s.append decodes chunk).1 = .error .invalidClipboardImage ∧
      (s.append decodes chunk).2 = s.discard := by
  rw [append]
  split
  next hnone =>
    refine ⟨rfl, ?_⟩
    show s = ⟨s.latestId, none⟩
    rw [← hnone]
  next p hp =>
    split
    · exact ⟨rfl, rfl⟩
    next hmatch =>
      simp only [not_or, not_not] at hmatch
      exact (h p hp ⟨hmatch.1, hmatch.2.1, hmatch.2.2⟩).elim

theorem started_of_latestId (h : s'.latestId = s.latestId) :
    (view s').started = (view s).started := by
  simp only [view, h]

theorem started_subset {id : UInt32}
    (hnew : ¬ s.latestId.any (id ≤ ·)) (h : s'.latestId = some id) :
    (view s).started ⊆ (view s').started := by
  intro id' hid'
  obtain ⟨latest, hlatest, hle⟩ := (Option.any_eq_true _ _).mp hid'
  rw [hlatest, Option.any_some, decide_eq_true_eq, UInt32.not_le] at hnew
  rw [decide_eq_true_eq] at hle
  refine (Option.any_eq_true _ _).mpr ⟨id, h, decide_eq_true ?_⟩
  exact UInt32.le_of_lt (UInt32.lt_of_le_of_lt hle hnew)

theorem receive_push (s : ImageAssembly) (chunk : ClipboardImageChunk) (now : ℕ) :
    Push maxClipboardImageBytes.toNat (view s) chunk.toChunk
      (view (s.receive decodes chunk now).2) (s.receive decodes chunk now).1 := by
  rcases chunk.encode_cases with ⟨e, -, herror⟩ | ⟨bytes, hvalid, hok⟩
  · simp only [receive, push, herror]
    exact .refused (.inl rfl) (Set.Subset.refl _)
  obtain ⟨hlimit, hle⟩ := chunk.le_of_validate hvalid
  have hpending := s.expire_pending now
  have hlatest := s.expire_latestId now
  simp only [receive, push, hok]
  generalize s.expire now = s₁ at hpending hlatest
  have hstarted₁ : (view s₁).started = (view s).started := started_of_latestId hlatest
  have hpending₁ : (view s₁).pending = (view s).pending ∨ (view s₁).pending = none :=
    hpending.imp (congrArg (Option.map _)) (congrArg (Option.map _))
  split
  next s₂ hrefused =>
    obtain rfl := startTransfer_false hrefused
    exact .refused hpending₁ hstarted₁.superset
  next s₂ hstart =>
  by_cases hfits : ∃ p, s₂.pending = some p ∧ Fits p chunk
  · obtain ⟨p, hp, hfit⟩ := hfits
    obtain ⟨hsettled, hlatest'⟩ := append_fits decodes hp hfit
    have hstarted' := started_of_latestId hlatest'
    have hlength : (p.data ++ chunk.pngBytes).length ≤ p.total.toNat := by
      rw [List.length_append, hfit.offset, hfit.total]
      exact hle
    rcases startTransfer_true hstart with ⟨-, rfl⟩ | ⟨hoffset, hnew, rfl⟩
    · -- the chunk goes on with what was pending before
      have hs : s.pending = some p := by
        rcases hpending with h | h
        · exact h ▸ hp
        · exact nomatch h.symm.trans hp
      have hv : (view s).pending = some ⟨p.id, p.total.toNat, p.data, p.started⟩ :=
        congrArg (Option.map _) hs
      refine hsettled.push (.next hv hfit.id (congrArg UInt32.toNat hfit.total) hfit.offset)
        hlength (hfit.total ▸ hlimit) ?_ (.inr ⟨_, hv, hfit.id⟩)
      exact (hstarted'.trans hstarted₁).superset
    · -- the chunk starts a transfer
      obtain rfl := Option.some.inj hp
      have hmem : chunk.transferId ∈ (view (append decodes ⟨some chunk.transferId,
          some ⟨chunk.transferId, chunk.totalBytes, [], now⟩⟩ chunk).2).started := by
        rw [hstarted']
        exact (Option.any_eq_true _ _).mpr ⟨_, rfl, decide_eq_true UInt32.le_rfl⟩
      refine hsettled.push (.first (congrArg UInt32.toNat hoffset) ?_) hlength hlimit ?_ (.inl hmem)
      · rw [← hstarted₁]
        exact hnew
      · rw [hstarted', ← hstarted₁]
        exact started_subset hnew rfl
  · have hunfit := append_unfit decodes fun p hp hfit => hfits ⟨p, hp, hfit⟩
    rw [hunfit.1, hunfit.2]
    refine .refused (.inr rfl) ?_
    rcases startTransfer_true hstart with ⟨-, rfl⟩ | ⟨-, hnew, rfl⟩
    · exact hstarted₁.superset
    · rw [← hstarted₁]
      exact started_subset hnew rfl

/-- The ids come in order, after all that were started. -/
structure Ready (s : ImageAssembly) (ids : List UInt32) : Prop where
  sorted : ids.Pairwise (· < ·)
  fresh : ∀ id ∈ ids, ¬ s.latestId.any (id ≤ ·)

theorem assembly_prompt : Prompt view ClipboardImageChunk.toChunk
    (fun s chunk now => s.receive decodes chunk now) ClipboardImageChunk.Good decodes 10000000
    Ready where
  first {s chunk ids} now hgood hready hoffset := by
    have hoffset : chunk.offset = 0 := UInt32.toNat_inj.mp hoffset
    rcases chunk.encode_cases with ⟨e, herror, -⟩ | ⟨bytes, -, hok⟩
    · exact nomatch herror.symm.trans hgood.validate
    have hstart : (s.expire now).startTransfer chunk now =
        (true, ⟨some chunk.transferId,
          some ⟨chunk.transferId, chunk.totalBytes, [], now⟩⟩) := by
      have hnew := hready.fresh chunk.transferId (.head _)
      simp only [startTransfer, hoffset, expire_latestId, if_neg hnew, ne_eq, not_true_eq_false,
        if_false]
    have hfit : Fits ⟨chunk.transferId, chunk.totalBytes, [], now⟩ chunk :=
      ⟨rfl, rfl, (congrArg UInt32.toNat hoffset).symm⟩
    obtain ⟨hsettled, hlatest⟩ := append_fits decodes
      (s := ⟨some chunk.transferId,
        some ⟨chunk.transferId, chunk.totalBytes, [], now⟩⟩) rfl hfit
    simp only [receive, push, hok, hstart]
    refine ⟨hsettled, hready.sorted.of_cons, fun id hid => ?_⟩
    rw [hlatest, Option.any_some, decide_eq_true_eq, UInt32.not_le]
    exact (List.pairwise_cons.mp hready.sorted).1 id hid
  next {s chunk p ids now} hgood hready hpending htime hid htotal hdata hoffset := by
    obtain ⟨p, hp, rfl⟩ := Option.map_eq_some_iff.mp hpending
    rcases chunk.encode_cases with ⟨e, herror, -⟩ | ⟨bytes, -, hok⟩
    · exact nomatch herror.symm.trans hgood.validate
    have hoffset : chunk.offset ≠ 0 := fun h => hoffset (congrArg UInt32.toNat h)
    have hstart : (s.expire now).startTransfer chunk now = (true, s) := by
      simp only [expire_of_lt hp htime, startTransfer, if_pos hoffset]
    have hfit : Fits p chunk := ⟨hid, UInt32.toNat_inj.mp htotal, hdata⟩
    obtain ⟨hsettled, hlatest⟩ := append_fits decodes hp hfit
    simp only [receive, push, hok, hstart]
    exact ⟨hsettled, hready.sorted, fun id hid => by rw [hlatest]; exact hready.fresh id hid⟩

theorem discard_view (s : ImageAssembly) (_how : Unit) :
    ((view s.discard).pending = (view s).pending ∨ (view s.discard).pending = none) ∧
      (view s.discard).started = (view s).started :=
  ⟨.inr rfl, rfl⟩

end ImageAssembly

/-! ### The sender -/

variable {imageSequence : UInt32} {sents : List (List ClipboardImageChunk)}
  {transfers : List (List (ClipboardImageChunk × ℕ))}

theorem ImageCalls.enter_ok {calls : ImageCalls} {png : List UInt8}
    (h : calls.enter imageSequence png = .ok ()) :
    png.length ≤ maxClipboardImageBytes.toNat ∧ imageSequence.toNat + 1 < UInt32.size := by
  simp only [enter, bind, Except.bind] at h
  split at h
  · cases h
  split at h
  · cases h
  split at h
  · cases h
  split at h
  · cases h
  split at h
  · cases h
  next hpng =>
  split at h
  · cases h
  split at h
  · cases h
  next hroom =>
  rw [not_or, Nat.not_lt] at hpng
  exact ⟨hpng.1, Nat.not_le.mp hroom⟩

theorem sendClipboardImage_numbers :
    ClipboardImageChunk.Numbers (fun _ => True) 65536 sendClipboardImage := by
  intro calls imageSequence id png sent _ h
  -- the rest is true of any chunks, and the kernel would compute these
  obtain ⟨chunks, hchunks⟩ : ∃ chunks, chunks = Chunks.chunks maxClipboardImageChunkBytes png :=
    ⟨_, rfl⟩
  rw [sendClipboardImage, ← hchunks] at h
  split at h
  · cases (Prod.mk.inj h).1
  next henter =>
  obtain ⟨hlimit, hroom⟩ := ImageCalls.enter_ok henter
  dsimp only at h
  rcases hsent : ClipboardImageChunk.sendChunks _ _ _ _ _ chunks with ⟨r, sent'⟩
  rw [hsent] at h
  obtain ⟨rfl, hrest⟩ := Prod.mk.inj h
  obtain ⟨rfl, rfl⟩ := Prod.mk.inj hrest
  rw [hchunks] at hsent
  constructor
  · rw [UInt32.toNat_add, UInt32.toNat_one, Nat.mod_eq_of_lt hroom]
  · exact ClipboardImageChunk.sendChunks_split hlimit hsent

/-! ### From one side to the other -/

/-- A PNG that a decoder takes, within the limit. -/
structure ValidImage (decodes : List UInt8 → Bool) (png : List UInt8) : Prop where
  limit : png.length ≤ maxClipboardImageBytes.toNat
  signature : pngSignature <+: png
  decodes : decodes png

/-- The transfers are the chunks sent, with the times at which they arrive. -/
structure ArriveInTime (life : ℕ) (sents : List (List ClipboardImageChunk))
    (transfers : List (List (ClipboardImageChunk × ℕ))) : Prop where
  chunks : transfers.map (List.map Prod.fst) = sents
  inTime : ∀ t ∈ transfers, InTime life t

theorem ArriveInTime.toChunk {life : ℕ} (h : ArriveInTime life sents transfers)
    {payloads : List (UInt32 × List UInt8)}
    (hsents : sents.map (List.map ClipboardImageChunk.toChunk) =
      payloads.map fun p => split 65536 p.1 p.2) :
    transfers.map (·.map fun e => e.1.toChunk) = payloads.map fun p => split 65536 p.1 p.2 := by
  rw [← hsents, ← h.chunks, List.map_map]
  exact List.map_congr_left fun t _ => by simp

theorem ValidImage.payloads {decodes : List UInt8 → Bool} {η : Type}
    {pngs : List (η × List UInt8)} {payloads : List (UInt32 × List UInt8)}
    (hvalid : ∀ p ∈ pngs, ValidImage decodes p.2)
    (hpngs : payloads.map Prod.snd = pngs.map Prod.snd) :
    ∀ p ∈ payloads, ValidImage decodes p.2 := by
  intro p hp
  have hmem : p.2 ∈ pngs.map Prod.snd := hpngs ▸ List.mem_map_of_mem hp
  obtain ⟨q, hq, heq⟩ := List.mem_map.mp hmem
  exact heq ▸ hvalid q hq

theorem payloads_map {η γ : Type} {pngs : List (η × List UInt8)}
    {payloads : List (UInt32 × List UInt8)} (f : List UInt8 → γ)
    (hpngs : payloads.map Prod.snd = pngs.map Prod.snd) :
    payloads.map (fun p => f p.2) = pngs.map fun p => f p.2 := by
  have h := congrArg (List.map f) hpngs
  rwa [List.map_map, List.map_map] at h

theorem client_receives {decodes : List UInt8 → Bool} {ε : Type} {mediaStopped : ε}
    {imageId : UInt32} {pngs : List ((ℕ → Except ε Unit) × List UInt8)}
    (hvalid : ∀ p ∈ pngs, ValidImage decodes p.2)
    (hsents : ClipboardImageChunk.sendAll (Host.sendClipboardImage mediaStopped) imageId pngs = .ok sents)
    (harrive : ArriveInTime 10000000 sents transfers) :
    (feedAll (fun s chunk now => s.receive decodes chunk now) ImageAssembly.new transfers).1 =
      pngs.map fun p => delivered 65536 p.2 := by
  obtain ⟨payloads, hpngs, hsorted, -, hsplit⟩ :=
    ClipboardImageChunk.sendAll_ok (Host.sendClipboardImage_numbers mediaStopped)
      (fun p hp => (hvalid p hp).limit) hsents
  have hpayloads := ValidImage.payloads hvalid hpngs
  have hready : ImageAssembly.Ready ImageAssembly.new (payloads.map Prod.fst ++ []) := by
    rw [List.append_nil]
    exact ⟨hsorted, fun id _ => Bool.false_ne_true⟩
  obtain ⟨hout, -⟩ := ClipboardImageChunk.deliver_sent (ImageAssembly.assembly_prompt decodes) rfl
    hready (fun p hp => ⟨(hpayloads p hp).decodes, (hpayloads p hp).limit, (hpayloads p hp).signature⟩)
    (harrive.toChunk hsplit) harrive.inTime
  exact hout.trans (payloads_map (delivered 65536) hpngs)

theorem host_receives {decodes : List UInt8 → Bool}
    {pngs : List (ImageCalls × List UInt8)}
    (hvalid : ∀ p ∈ pngs, ValidImage decodes p.2)
    (hsents : ClipboardImageChunk.sendAll sendClipboardImage imageSequence pngs = .ok sents)
    (harrive : ArriveInTime 5000000 sents transfers) :
    (feedAll (fun s chunk now => s.receive decodes chunk now) Host.Assembly.new transfers).1 =
      (pngs.take 65536).map (fun p => delivered 65536 p.2) ++
        (transfers.drop 65536).map fun t => List.replicate t.length none := by
  obtain ⟨payloads, hpngs, hsorted, -, hsplit⟩ :=
    ClipboardImageChunk.sendAll_ok sendClipboardImage_numbers (fun _ _ => trivial) hsents
  have hpayloads := ValidImage.payloads hvalid hpngs
  have hchunks := harrive.toChunk hsplit
  have htake : (payloads.take 65536).map Prod.snd = (pngs.take 65536).map Prod.snd := by
    rw [List.map_take, List.map_take, hpngs]
  have hready : Host.Assembly.Ready (payloads.take 65536).length Host.Assembly.new
      ((payloads.take 65536).map Prod.fst ++ []) := by
    rw [List.append_nil]
    refine ⟨?_, fun id _ => List.not_mem_nil, by simp [Host.Assembly.new]⟩
    rw [List.map_take]
    exact (hsorted.imp UInt32.ne_of_lt).sublist (List.take_sublist _ _)
  have hfirst : (transfers.take 65536).map (·.map fun e => e.1.toChunk) =
      (payloads.take 65536).map fun p => split 65536 p.1 p.2 := by
    rw [List.map_take, List.map_take, hchunks]
  have hpng (p : UInt32 × List UInt8) (hp : p ∈ payloads.take 65536) :
      Host.validPng decodes p.2 ∧ p.2.length ≤ maxClipboardImageBytes.toNat ∧
        pngSignature <+: p.2 := by
    obtain ⟨hlimit, hsignature, hdecodes⟩ := hpayloads p (List.mem_of_mem_take hp)
    exact ⟨decide_eq_true ⟨hlimit, hsignature, hdecodes⟩, hlimit, hsignature⟩
  obtain ⟨hout, hpending, hused⟩ := ClipboardImageChunk.deliver_sent
    (Host.Assembly.assembly_prompt decodes (List.length_take_le _ _)) rfl hready hpng hfirst
    (fun t ht => harrive.inTime t (List.mem_of_mem_take ht))
  have hlater : (feedAll (fun s chunk now => s.receive decodes chunk now)
      (feedAll (fun s chunk now => s.receive decodes chunk now) Host.Assembly.new
        (transfers.take 65536)).2 (transfers.drop 65536)).1 =
      (transfers.drop 65536).map fun t => List.replicate t.length none := by
    rcases Nat.lt_or_ge transfers.length 65536 with hlt | hge
    · rw [List.drop_eq_nil_of_le (Nat.le_of_lt hlt)]
      rfl
    · -- all 65536 ids are used
      have hlength : transfers.length = payloads.length := by
        simpa using congrArg List.length hchunks
      have hfull := hused.length
      rw [List.length_nil, Nat.add_zero, List.length_take, ← hlength, Nat.min_eq_left hge] at hfull
      refine feedAll_refused (P := fun s => s.active = none ∧ 65536 ≤ s.used.length)
        (fun hs => Host.Assembly.receive_full decodes hs.1 hs.2) ⟨?_, hfull.ge⟩ _
      exact Option.map_eq_none_iff.mp hpending
  calc
    _ = (feedAll (fun s chunk now => s.receive decodes chunk now) Host.Assembly.new
          (transfers.take 65536 ++ transfers.drop 65536)).1 := by rw [List.take_append_drop]
    _ = _ := by
      rw [feedAll_append, hout, hlater, payloads_map (delivered 65536) htake]

/-- **Every image arrives, and nothing else does.**

To the client: each image, at its last chunk.  To the host: the first 65536, and nothing of the later
ones.  And whatever is pushed, at whatever times, what either assembler emits is what consecutive
chunks of one transfer hold, once for each transfer, and what it buffers is within the total
declared and the limit (`Inv`). -/
theorem clipboard_images (hostDecodes clientDecodes : List UInt8 → Bool) :
    (∀ {ε : Type} (mediaStopped : ε) (imageId : UInt32)
        (pngs : List ((ℕ → Except ε Unit) × List UInt8)) (sents : List (List ClipboardImageChunk))
        (transfers : List (List (ClipboardImageChunk × ℕ))),
      (∀ p ∈ pngs, ValidImage clientDecodes p.2) →
      ClipboardImageChunk.sendAll (Host.sendClipboardImage mediaStopped) imageId pngs = .ok sents →
      ArriveInTime 10000000 sents transfers →
      (feedAll (fun s chunk now => s.receive clientDecodes chunk now) ImageAssembly.new
        transfers).1 = pngs.map fun p => delivered 65536 p.2) ∧
    (∀ (imageSequence : UInt32) (pngs : List (ImageCalls × List UInt8))
        (sents : List (List ClipboardImageChunk))
        (transfers : List (List (ClipboardImageChunk × ℕ))),
      (∀ p ∈ pngs, ValidImage hostDecodes p.2) →
      ClipboardImageChunk.sendAll sendClipboardImage imageSequence pngs = .ok sents →
      ArriveInTime 5000000 sents transfers →
      (feedAll (fun s chunk now => s.receive hostDecodes chunk now) Host.Assembly.new
          transfers).1 =
        (pngs.take 65536).map (fun p => delivered 65536 p.2) ++
          (transfers.drop 65536).map fun t => List.replicate t.length none) ∧
    (∀ (as : List (Action ClipboardImageChunk Unit)) (w : World UInt32 UInt8 ImageAssembly),
      Machine.run (step ClipboardImageChunk.toChunk
          (fun s chunk now => s.receive clientDecodes chunk now) fun s _ => s.discard)
        ⟨ImageAssembly.new, [], []⟩ as = some w →
      Inv maxClipboardImageBytes.toNat ImageAssembly.view w) ∧
    ∀ (as : List (Action ClipboardImageChunk (Option ℕ)))
      (w : World UInt32 UInt8 Host.Assembly),
      Machine.run (step ClipboardImageChunk.toChunk
          (fun s chunk now => s.receive hostDecodes chunk now) fun s how => s.drop how)
        ⟨Host.Assembly.new, [], []⟩ as = some w →
      Inv Host.clipboardImageLimit Host.Assembly.view w :=
  ⟨fun _ _ _ _ _ hvalid hsents harrive => client_receives hvalid hsents harrive,
    fun _ _ _ _ hvalid hsents harrive => host_receives hvalid hsents harrive,
    fun _ _ h => run_safe (ImageAssembly.receive_push clientDecodes) ImageAssembly.discard_view
      rfl h,
    fun _ _ h => run_safe (Host.Assembly.receive_push hostDecodes) Host.Assembly.drop_view rfl h⟩

/-- All is negotiated and allowed, and every send goes through. -/
def ImageCalls.granted : ImageCalls := ⟨.ok true, fun _ => .ok true, .ok (), fun _ => .ok ()⟩

theorem sendClipboardImage_granted {png : List UInt8}
    (hlimit : png.length ≤ maxClipboardImageBytes.toNat) (hsignature : pngSignature <+: png)
    (hroom : imageSequence.toNat + 1 < UInt32.size) :
    (sendClipboardImage .granted imageSequence png).1 = .ok () := by
  have henter : ImageCalls.granted.enter imageSequence png = .ok () := by
    have hpng : ¬ (png.length > maxClipboardImageBytes.toNat ∨ ¬ pngSignature <+: png) := by
      rw [not_or, not_not, Nat.not_lt]
      exact ⟨hlimit, hsignature⟩
    simp only [ImageCalls.enter, ImageCalls.granted, if_neg hpng, if_neg (Nat.not_le.mpr hroom)]
    rfl
  obtain ⟨chunks, hchunks⟩ : ∃ chunks, chunks = Chunks.chunks maxClipboardImageChunkBytes png :=
    ⟨_, rfl⟩
  rw [sendClipboardImage, henter, ← hchunks]
  exact ClipboardImageChunk.sendChunks_fst (fun _ => rfl) _ _ _ _ chunks

theorem clipboard_images_small :
    (feedAll (fun s chunk now => s.receive (fun _ => true) chunk now) ImageAssembly.new
        [[(⟨1, 8, 0, pngSignature⟩, 3)]]).1 = [[some pngSignature]] ∧
      (feedAll (fun s chunk now => s.receive (fun _ => true) chunk now) Host.Assembly.new
        [[(⟨1, 8, 0, pngSignature⟩, 3)]]).1 = [[some pngSignature]] ∧
      Inv maxClipboardImageBytes.toNat ImageAssembly.view
        ⟨⟨some 1, none⟩, [⟨1, 8, 0, pngSignature⟩], [(1, pngSignature)]⟩ ∧
      Inv Host.clipboardImageLimit Host.Assembly.view
        ⟨⟨none, [1]⟩, [⟨1, 8, 0, pngSignature⟩], [(1, pngSignature)]⟩ := by
  have hvalid : ValidImage (fun _ => true) pngSignature :=
    ⟨by decide, List.prefix_rfl, rfl⟩
  obtain ⟨hclient, hhost, hsafe, hsafe'⟩ := clipboard_images (fun _ => true) fun _ => true
  refine ⟨hclient () 0 [(fun _ => .ok (), pngSignature)]
      [[⟨1, 8, 0, pngSignature⟩]] _ ?_ ?_ ⟨rfl, ?_⟩,
    hhost 0 [(.granted, pngSignature)] [[⟨1, 8, 0, pngSignature⟩]] _ ?_ ?_ ⟨rfl, ?_⟩,
    hsafe [.push ⟨1, 8, 0, pngSignature⟩ 3] _ ?_,
    hsafe' [.push ⟨1, 8, 0, pngSignature⟩ 3] _ ?_⟩
  · simp [hvalid]
  · decide
  · simp [InTime]
  · simp [hvalid]
  · decide
  · simp [InTime]
  · rfl
  · rfl

/-- The host starts no transfer after 65536: of as many PNGs and one more, the last one does not
arrive. -/
theorem last_image_refused : ¬ ∀ (pngs : List (ImageCalls × List UInt8))
    (sents : List (List ClipboardImageChunk))
    (transfers : List (List (ClipboardImageChunk × ℕ))),
    (∀ p ∈ pngs, ValidImage (fun _ => true) p.2) →
    ClipboardImageChunk.sendAll sendClipboardImage 0 pngs = .ok sents →
    ArriveInTime 5000000 sents transfers →
    (feedAll (fun s chunk now => s.receive (fun _ => true) chunk now) Host.Assembly.new
      transfers).1 = pngs.map fun p => delivered 65536 p.2 := by
  intro h
  obtain ⟨pngs, heq⟩ : ∃ pngs : List (ImageCalls × List UInt8),
      pngs = List.replicate 65537 (ImageCalls.granted, pngSignature) := ⟨_, rfl⟩
  have hpngs (p : ImageCalls × List UInt8) (hp : p ∈ pngs) :
      p = (ImageCalls.granted, pngSignature) := List.eq_of_mem_replicate (heq ▸ hp)
  have hvalid : ∀ p ∈ pngs, ValidImage (fun _ => true) p.2 := by
    intro p hp
    rw [hpngs p hp]
    exact ⟨by decide, List.prefix_rfl, rfl⟩
  have hone (p : ImageCalls × List UInt8) (hp : p ∈ pngs) (id : UInt32)
      (hroom : id.toNat + 1 < UInt32.size) : (sendClipboardImage p.1 id p.2).1 = .ok () := by
    rw [hpngs p hp]
    exact sendClipboardImage_granted (by decide) List.prefix_rfl hroom
  have hids : (0 : UInt32).toNat + pngs.length < UInt32.size := by
    rw [heq, List.length_replicate]
    decide
  obtain ⟨sents, hsents⟩ : ∃ sents,
      ClipboardImageChunk.sendAll sendClipboardImage 0 pngs = .ok sents :=
    ClipboardImageChunk.exists_sendAll sendClipboardImage_numbers (fun _ _ => trivial) hone hids
  have harrive : ArriveInTime 5000000 sents (sents.map (List.map (·, 0))) := by
    refine ⟨by simp [Function.comp_def], fun t ht => ?_⟩
    obtain ⟨sent, -, rfl⟩ := List.mem_map.mp ht
    cases sent with
    | nil => trivial
    | cons chunk rest =>
      intro e he
      obtain ⟨_, -, rfl⟩ := List.mem_map.mp he
      exact (by decide : 0 < 0 + 5000000)
  have hall := h pngs sents _ hvalid hsents harrive
  rw [host_receives hvalid hsents harrive] at hall
  nth_rewrite 2 [← List.take_append_drop 65536 pngs] at hall
  rw [List.map_append] at hall
  have hlast := List.append_cancel_left hall
  have hdrop : pngs.drop 65536 = [(ImageCalls.granted, pngSignature)] := by
    rw [heq, List.drop_replicate]
    rfl
  rw [hdrop] at hlast
  obtain ⟨t, -, ht⟩ := List.map_eq_singleton_iff.mp hlast
  have hmem : some pngSignature ∈ List.replicate t.length none := by
    rw [ht]
    exact List.mem_append_right _ (.head _)
  cases List.eq_of_mem_replicate hmem

end MahoRD.Client
