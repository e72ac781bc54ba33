/-
MahoRD/Lib/Transfers.lean

Transfers in chunks, put together again by a receiver that has room for one.

A chunk names its transfer, the length of the whole, and its own offset.  The
chunk at offset 0 starts a transfer; each further one has to begin where the data
so far ends.  `Push` is what a receiver may do with a chunk: refuse it, with or
without dropping what it has, or take it.  A receiver that starts no transfer
twice emits only what the chunks of one transfer hold, one behind the other
(`run_safe`), and a `Prompt` one emits all that is sent to it (`deliverAll`).

The receiver is a state `σ` of its own, and so is what it is given, a `χ` that can
be read as a chunk; the laws speak of the receiver through a `View`.
-/
import MahoRD.Lib.Chunks
import MahoRD.Lib.Machine
import Mathlib.Data.Set.Insert

namespace Transfers

variable {ι β σ χ δ : Type*}

structure Chunk (ι β : Type*) where
  id : ι
  total : ℕ
  offset : ℕ
  bytes : List β

/-- A transfer that has not ended: its data so far, and when it was started. -/
structure Pending (ι β : Type*) where
  id : ι
  total : ℕ
  data : List β
  since : ℕ

/-- What there is to say of a receiver. -/
structure View (ι β : Type*) where
  pending : Option (Pending ι β)
  started : Set ι

/-- The transfer `p` is what was pending before, with the data of the chunk `c`. -/
inductive Taken (v : View ι β) (c : Chunk ι β) : Pending ι β → Prop
  | first {now} (hoffset : c.offset = 0) (hnew : c.id ∉ v.started) :
      Taken v c ⟨c.id, c.total, c.bytes, now⟩
  | next {q} (hpending : v.pending = some q) (hid : q.id = c.id) (htotal : q.total = c.total)
      (hoffset : q.data.length = c.offset) :
      Taken v c ⟨q.id, q.total, q.data ++ c.bytes, q.since⟩

/-- The transfer of the chunk is known: it has been started, or it is pending. -/
def Known (v v' : View ι β) (c : Chunk ι β) : Prop :=
  c.id ∈ v'.started ∨ ∃ q, v.pending = some q ∧ q.id = c.id

/-- What a push of the chunk `c` may make of a receiver, and what it may emit. -/
inductive Push (limit : ℕ) (v : View ι β) (c : Chunk ι β) : View ι β → Option (List β) → Prop
  | refused {v'} (hpending : v'.pending = v.pending ∨ v'.pending = none)
      (hstarted : v.started ⊆ v'.started) : Push limit v c v' none
  | kept {v' p} (htaken : Taken v c p) (hlt : p.data.length < p.total) (hlimit : p.total ≤ limit)
      (hpending : v'.pending = some p) (hstarted : v.started ⊆ v'.started) (hknown : Known v v' c) :
      Push limit v c v' none
  | completed {v' p out} (htaken : Taken v c p) (hdata : p.data.length = p.total)
      (hpending : v'.pending = none) (hstarted : v.started ⊆ v'.started) (hknown : Known v v' c)
      (hout : ∀ bytes, out = some bytes → bytes = p.data) : Push limit v c v' out

/-! ### Safety -/

/-- The bytes of the chunks, one behind the other. -/
def content (cs : List (Chunk ι β)) : List β := cs.flatMap Chunk.bytes

/-- Chunks of one transfer from its beginning on, each where the one before it ends. -/
inductive Consecutive (id : ι) (total : ℕ) : List (Chunk ι β) → Prop
  | nil : Consecutive id total []
  | concat {cs c} (h : Consecutive id total cs) (hid : c.id = id) (htotal : c.total = total)
      (hoffset : c.offset = (content cs).length) : Consecutive id total (cs ++ [c])

/-- A receiver, with the chunks that were pushed and what was emitted, each with its transfer. -/
structure World (ι β σ : Type*) where
  receiver : σ
  pushed : List (Chunk ι β)
  emitted : List (ι × List β)

inductive Action (χ δ : Type*)
  | push (chunk : χ) (now : ℕ)
  | drop (how : δ)

/-- `push` is the receiver's own; `drop` is all that may happen to what is pending in between. -/
def step (read : χ → Chunk ι β) (push : σ → χ → ℕ → Option (List β) × σ) (drop : σ → δ → σ)
    (w : World ι β σ) : Action χ δ → Option (World ι β σ)
  | .push c now =>
    let (out, receiver) := push w.receiver c now
    some ⟨receiver, w.pushed ++ [read c], w.emitted ++ out.toList.map ((read c).id, ·)⟩
  | .drop how => some { w with receiver := drop w.receiver how }

/-- `bytes` is what consecutive chunks of the transfer `id` hold, which were pushed in this order. -/
def Assembled (pushed : List (Chunk ι β)) (id : ι) (total : ℕ) (bytes : List β) : Prop :=
  ∃ cs, cs.Sublist pushed ∧ Consecutive id total cs ∧ content cs = bytes

theorem Assembled.mono {pushed pushed' : List (Chunk ι β)} {id : ι} {total : ℕ} {bytes : List β}
    (h : Assembled pushed id total bytes) (hsub : pushed.Sublist pushed') :
    Assembled pushed' id total bytes := by
  obtain ⟨cs, hcs, hrest⟩ := h
  exact ⟨cs, hcs.trans hsub, hrest⟩

theorem Assembled.next {pushed : List (Chunk ι β)} {c : Chunk ι β} {bytes : List β}
    (h : Assembled pushed c.id c.total bytes) (hoffset : bytes.length = c.offset) :
    Assembled (pushed ++ [c]) c.id c.total (bytes ++ c.bytes) := by
  obtain ⟨cs, hcs, hcons, rfl⟩ := h
  refine ⟨cs ++ [c], hcs.append (List.Sublist.refl [c]), hcons.concat rfl rfl hoffset.symm, ?_⟩
  simp [content]

structure Inv (limit : ℕ) (view : σ → View ι β) (w : World ι β σ) : Prop where
  pending : ∀ p, (view w.receiver).pending = some p →
    Assembled w.pushed p.id p.total p.data ∧ p.id ∈ (view w.receiver).started ∧
      p.id ∉ w.emitted.map Prod.fst ∧ p.data.length < p.total ∧ p.total ≤ limit
  emitted : ∀ e ∈ w.emitted, Assembled w.pushed e.1 e.2.length e.2
  started : ∀ e ∈ w.emitted, e.1 ∈ (view w.receiver).started
  nodup : (w.emitted.map Prod.fst).Nodup

section Safety

variable {limit : ℕ} {view : σ → View ι β}

variable {c : Chunk ι β} {w : World ι β σ}

/-- What is pending with the chunk is the beginning of its transfer, which has emitted nothing. -/
theorem Inv.taken {p : Pending ι β} (hi : Inv limit view w)
    (h : Taken (view w.receiver) c p) :
    p.id = c.id ∧ Assembled (w.pushed ++ [c]) p.id p.total p.data ∧
      p.id ∉ w.emitted.map Prod.fst := by
  cases h with
  | first hoffset hnew =>
    refine ⟨rfl, ?_, ?_⟩
    · have hnil : Assembled w.pushed c.id c.total [] := ⟨[], List.nil_sublist _, .nil, rfl⟩
      exact hnil.next hoffset.symm
    · intro hmem
      obtain ⟨e, he, hid⟩ := List.mem_map.mp hmem
      have hid : e.1 = c.id := hid
      exact hnew (hid ▸ hi.started e he)
  | @next q hpending hid htotal hoffset =>
    obtain ⟨hassembled, -, hfresh, -⟩ := hi.pending q hpending
    rw [hid, htotal] at hassembled ⊢
    exact ⟨rfl, hassembled.next hoffset, hid ▸ hfresh⟩

theorem Inv.known {v' : View ι β} (hi : Inv limit view w)
    (hstarted : (view w.receiver).started ⊆ v'.started) (h : Known (view w.receiver) v' c) :
    c.id ∈ v'.started := by
  rcases h with hmem | ⟨q, hq, hid⟩
  · exact hmem
  · exact hstarted (hid ▸ (hi.pending q hq).2.1)

theorem Inv.pushed {receiver : σ} {out : Option (List β)}
    (hi : Inv limit view w)
    (h : Push limit (view w.receiver) c (view receiver) out) :
    Inv limit view ⟨receiver, w.pushed ++ [c], w.emitted ++ out.toList.map (c.id, ·)⟩ := by
  have hsub := List.sublist_append_left w.pushed [c]
  cases h with
  | refused hpending hstarted =>
    simp only [Option.toList_none, List.map_nil, List.append_nil]
    refine ⟨fun p hp => ?_, fun e he => (hi.emitted e he).mono hsub,
      fun e he => hstarted (hi.started e he), hi.nodup⟩
    rcases hpending with hsame | hnone
    · obtain ⟨hassembled, hmem, hrest⟩ := hi.pending p (hsame ▸ hp)
      exact ⟨hassembled.mono hsub, hstarted hmem, hrest⟩
    · exact nomatch hnone.symm.trans hp
  | @kept p htaken hlt hlimit hpending hstarted hknown =>
    simp only [Option.toList_none, List.map_nil, List.append_nil]
    obtain ⟨hid, hassembled, hfresh⟩ := hi.taken htaken
    have hmem := hi.known hstarted hknown
    refine ⟨fun p' hp' => ?_, fun e he => (hi.emitted e he).mono hsub,
      fun e he => hstarted (hi.started e he), hi.nodup⟩
    obtain rfl : p = p' := Option.some.inj (hpending.symm.trans hp')
    exact ⟨hassembled, hid ▸ hmem, hfresh, hlt, hlimit⟩
  | @completed p _ htaken hdata hpending hstarted hknown hout =>
    obtain ⟨hid, hassembled, hfresh⟩ := hi.taken htaken
    have hmem := hi.known hstarted hknown
    have hnone : ∀ p', (view receiver).pending ≠ some p' := fun p' hp' =>
      nomatch hpending.symm.trans hp'
    cases out with
    | none =>
      simp only [Option.toList_none, List.map_nil, List.append_nil]
      exact ⟨fun p' hp' => (hnone p' hp').elim, fun e he => (hi.emitted e he).mono hsub,
        fun e he => hstarted (hi.started e he), hi.nodup⟩
    | some bytes =>
      obtain rfl := hout bytes rfl
      refine ⟨fun p' hp' => (hnone p' hp').elim, fun e he => ?_, fun e he => ?_, ?_⟩
      · rcases List.mem_append.mp he with hold | hlast
        · exact (hi.emitted e hold).mono hsub
        · obtain rfl := List.mem_singleton.mp hlast
          rw [← hid, hdata]
          exact hassembled
      · rcases List.mem_append.mp he with hold | hlast
        · exact hstarted (hi.started e hold)
        · obtain rfl := List.mem_singleton.mp hlast
          exact hmem
      · rw [List.map_append, List.nodup_append]
        refine ⟨hi.nodup, by simp, fun id hold id' hnew => ?_⟩
        obtain rfl := List.mem_singleton.mp hnew
        rintro rfl
        exact hfresh (hid ▸ hold)

theorem Inv.dropped {receiver : σ} (hi : Inv limit view w)
    (hpending : (view receiver).pending = (view w.receiver).pending ∨
      (view receiver).pending = none)
    (hstarted : (view receiver).started = (view w.receiver).started) :
    Inv limit view { w with receiver } := by
  refine ⟨fun p hp => ?_, hi.emitted, fun e he => hstarted ▸ hi.started e he, hi.nodup⟩
  rcases hpending with hsame | hnone
  · exact hstarted ▸ hi.pending p (hsame ▸ hp)
  · exact nomatch hnone.symm.trans hp

/-- **No splice, no repetition, no overflow.** -/
theorem run_safe {read : χ → Chunk ι β} {push : σ → χ → ℕ → Option (List β) × σ}
    {drop : σ → δ → σ}
    (hpush : ∀ s c now, Push limit (view s) (read c) (view (push s c now).2) (push s c now).1)
    (hdrop : ∀ s how, ((view (drop s how)).pending = (view s).pending ∨
      (view (drop s how)).pending = none) ∧ (view (drop s how)).started = (view s).started)
    {s : σ} (hs : (view s).pending = none) {as : List (Action χ δ)}
    (h : Machine.run (step read push drop) ⟨s, [], []⟩ as = some w) : Inv limit view w := by
  have h₀ : Inv limit view (⟨s, [], []⟩ : World ι β σ) :=
    { pending := fun p hp => nomatch hs.symm.trans hp
      emitted := fun e he => nomatch he
      started := fun e he => nomatch he
      nodup := List.nodup_nil }
  refine Machine.run_inv (fun {w a w'} hi hstep => ?_) h₀ h
  cases a with
  | push c now =>
    cases hstep
    exact hi.pushed (hpush w.receiver c now)
  | drop how =>
    cases hstep
    exact hi.dropped (hdrop w.receiver how).1 (hdrop w.receiver how).2

end Safety

/-! ### Delivery -/

/-- What a push comes to that makes `p` of what was pending. -/
def Settled (view : σ → View ι β) (valid : List β → Bool) (p : Pending ι β)
    (r : Option (List β) × σ) : Prop :=
  if p.data.length = p.total then
    r.1 = (if valid p.data then some p.data else none) ∧ (view r.2).pending = none
  else r.1 = none ∧ (view r.2).pending = some p

variable {p : Pending ι β} {r : Option (List β) × σ} {valid : List β → Bool}

theorem Settled.whole {view : σ → View ι β} (h : Settled view valid p r) (hdata : p.data.length = p.total)
    (hvalid : valid p.data) : r.1 = some p.data ∧ (view r.2).pending = none := by
  rw [Settled, if_pos hdata, if_pos hvalid] at h
  exact h

theorem Settled.part {view : σ → View ι β} (h : Settled view valid p r) (hdata : p.data.length ≠ p.total) :
    r.1 = none ∧ (view r.2).pending = some p := by
  rw [Settled, if_neg hdata] at h
  exact h

/-- A push that takes the chunk and settles accordingly is one that a receiver may make. -/
theorem Settled.push {limit : ℕ} {view : σ → View ι β} {v : View ι β}
    {c : Chunk ι β} (h : Settled view valid p r)
    (htaken : Taken v c p) (hle : p.data.length ≤ p.total) (hlimit : p.total ≤ limit)
    (hstarted : v.started ⊆ (view r.2).started) (hknown : Known v (view r.2) c) :
    Push limit v c (view r.2) r.1 := by
  by_cases hdata : p.data.length = p.total
  · rw [Settled, if_pos hdata] at h
    refine .completed htaken hdata h.2 hstarted hknown fun bytes hbytes => ?_
    rw [h.1] at hbytes
    split at hbytes
    · exact (Option.some.inj hbytes).symm
    · cases hbytes
  · obtain ⟨hnone, hpending⟩ := h.part hdata
    rw [hnone]
    exact .kept htaken (Nat.lt_of_le_of_ne hle hdata) hlimit hpending hstarted hknown

/-- A receiver that takes what comes in order and in time.  `Ready s ids`: the transfers `ids` can be
started, one after the other. -/
structure Prompt (view : σ → View ι β) (read : χ → Chunk ι β)
    (push : σ → χ → ℕ → Option (List β) × σ) (Good : χ → Prop) (valid : List β → Bool) (life : ℕ)
    (Ready : σ → List ι → Prop) : Prop where
  first : ∀ {s c ids} now, Good c → Ready s ((read c).id :: ids) → (read c).offset = 0 →
    Settled view valid ⟨(read c).id, (read c).total, (read c).bytes, now⟩ (push s c now) ∧
      Ready (push s c now).2 ids
  next : ∀ {s c p ids now}, Good c → Ready s ids → (view s).pending = some p →
    now < p.since + life → p.id = (read c).id → p.total = (read c).total →
    p.data.length = (read c).offset → (read c).offset ≠ 0 →
    Settled view valid ⟨p.id, p.total, p.data ++ (read c).bytes, p.since⟩ (push s c now) ∧
      Ready (push s c now).2 ids

/-- Push the chunks, each at its time: what is emitted at each, and the receiver. -/
def feed (push : σ → χ → ℕ → Option (List β) × σ) (s : σ) :
    List (χ × ℕ) → List (Option (List β)) × σ
  | [] => ([], s)
  | (c, now) :: rest =>
    let (out, s) := push s c now
    let (outs, s) := feed push s rest
    (out :: outs, s)

def feedAll (push : σ → χ → ℕ → Option (List β) × σ) (s : σ) :
    List (List (χ × ℕ)) → List (List (Option (List β))) × σ
  | [] => ([], s)
  | chunks :: rest =>
    let (outs, s) := feed push s chunks
    let (outss, s) := feedAll push s rest
    (outs :: outss, s)

/-- The chunk of index `i`. -/
def piece (n : ℕ) (id : ι) (bytes : List β) (i : ℕ) : Chunk ι β :=
  ⟨id, bytes.length, i * n, (bytes.drop (i * n)).take n⟩

/-- The chunks of a transfer. -/
def split (n : ℕ) (id : ι) (bytes : List β) : List (Chunk ι β) :=
  (List.range (Chunks.count n bytes.length)).map (piece n id bytes)

/-- Every chunk comes within `life` of the first one. -/
def InTime (life : ℕ) : List (χ × ℕ) → Prop
  | [] => True
  | (_, start) :: rest => ∀ e ∈ rest, e.2 < start + life

/-- Nothing, until the last chunk brings the whole. -/
def delivered (n : ℕ) (bytes : List β) : List (Option (List β)) :=
  List.replicate (Chunks.count n bytes.length - 1) none ++ [some bytes]

section Delivery

variable {view : σ → View ι β} {read : χ → Chunk ι β}
  {push : σ → χ → ℕ → Option (List β) × σ} {Good : χ → Prop} {valid : List β → Bool}
  {life n : ℕ} {Ready : σ → List ι → Prop}
  {id : ι} {ids : List ι} {bytes : List β}

variable {i : ℕ} {s : σ}

theorem length_take_of_lt (hi : i < Chunks.count n bytes.length) :
    (bytes.take (i * n)).length = i * n := by
  rw [List.length_take]
  exact Nat.min_eq_left (Nat.le_of_lt (Chunks.mul_lt_of_lt_count hi))

theorem Prompt.next_piece (h : Prompt view read push Good valid life Ready)
    {since now : ℕ} {c : χ} (hc : read c = piece n id bytes i) (hgood : Good c)
    (hready : Ready s ids)
    (hpending : (view s).pending = some ⟨id, bytes.length, bytes.take (i * n), since⟩)
    (htime : now < since + life) (hfirst : i * n ≠ 0) (hi : i < Chunks.count n bytes.length) :
    Settled view valid
        ⟨id, bytes.length, bytes.take (i * n) ++ (piece n id bytes i).bytes, since⟩
        (push s c now) ∧
      Ready (push s c now).2 ids :=
  hc ▸ h.next hgood hready hpending htime (hc ▸ rfl) (hc ▸ rfl)
    (hc ▸ length_take_of_lt hi) (hc ▸ hfirst)

theorem feed_rest (h : Prompt view read push Good valid life Ready) (hn : 0 < n) (hvalid : valid bytes) {since : ℕ} {m : ℕ} (hi : i ≠ 0) (hcount : i + m + 1 = Chunks.count n bytes.length)
    (hpending : (view s).pending = some ⟨id, bytes.length, bytes.take (i * n), since⟩)
    (hready : Ready s ids) {chunks : List (χ × ℕ)} (hgood : ∀ e ∈ chunks, Good e.1)
    (hchunks : chunks.map (fun e => read e.1) = (List.range' i (m + 1)).map (piece n id bytes))
    (htimes : ∀ e ∈ chunks, e.2 < since + life) :
    (feed push s chunks).1 = List.replicate m none ++ [some bytes] ∧
      (view (feed push s chunks).2).pending = none ∧ Ready (feed push s chunks).2 ids := by
  induction m generalizing s i chunks with
  | zero =>
    have hone : chunks.map (fun e => read e.1) = [piece n id bytes i] := hchunks
    obtain ⟨⟨c, now⟩, rfl, hc⟩ := List.map_eq_singleton_iff.mp hone
    obtain ⟨hsettled, hready'⟩ := h.next_piece hc (hgood _ (.head _)) hready hpending
      (htimes _ (.head _)) (Nat.mul_ne_zero hi hn.ne') (by omega)
    have hwhole : bytes.take (i * n) ++ (piece n id bytes i).bytes = bytes := by
      have hle := Chunks.le_count_mul hn bytes.length
      rw [← hcount, Nat.add_zero, Nat.succ_mul] at hle
      rw [piece, ← List.take_add, List.take_of_length_le hle]
    rw [hwhole] at hsettled
    obtain ⟨hout, hpending'⟩ := hsettled.whole rfl hvalid
    exact ⟨by simp [feed, hout], hpending', hready'⟩
  | succ m ih =>
    obtain ⟨⟨c, now⟩, rest, rfl, hc, hrest⟩ := List.map_eq_cons_iff.mp hchunks
    obtain ⟨hsettled, hready'⟩ := h.next_piece hc (hgood _ (.head _)) hready hpending
      (htimes _ (.head _)) (Nat.mul_ne_zero hi hn.ne') (by omega)
    have hmore : bytes.take (i * n) ++ (piece n id bytes i).bytes = bytes.take ((i + 1) * n) := by
      rw [piece, ← List.take_add, Nat.succ_mul]
    have hshort : (bytes.take ((i + 1) * n)).length ≠ bytes.length := by
      -- one more chunk follows, and it starts inside
      rw [length_take_of_lt (by omega)]
      intro heq
      have hlast := Nat.div_mul_le_self (bytes.length + n - 1) n
      rw [show (bytes.length + n - 1) / n = i + (m + 1) + 1 from hcount.symm] at hlast
      have : (i + 1) * n + n ≤ (i + (m + 1) + 1) * n := by
        rw [← Nat.succ_mul]
        exact Nat.mul_le_mul_right n (by omega)
      omega
    rw [hmore] at hsettled
    obtain ⟨hnone, hpending'⟩ := hsettled.part hshort
    obtain ⟨hout, hend⟩ := ih i.succ_ne_zero (by omega) hpending' hready' (fun e he => hgood e (.tail _ he)) hrest
      fun e he => htimes e (.tail _ he)
    refine ⟨?_, hend⟩
    simp only [feed, hnone, hout]
    rfl

theorem feed_split (h : Prompt view read push Good valid life Ready) (hn : 0 < n) (hvalid : valid bytes)
    (hne : bytes ≠ []) (hready : Ready s (id :: ids))
    {chunks : List (χ × ℕ)} (hgood : ∀ e ∈ chunks, Good e.1)
    (hchunks : chunks.map (fun e => read e.1) = split n id bytes) (htime : InTime life chunks) :
    (feed push s chunks).1 = delivered n bytes ∧
      (view (feed push s chunks).2).pending = none ∧ Ready (feed push s chunks).2 ids := by
  have hlen : 0 < bytes.length := List.length_pos_iff.mpr hne
  obtain ⟨k, hk⟩ : ∃ k, Chunks.count n bytes.length = k + 1 :=
    Nat.exists_eq_succ_of_ne_zero
      (Nat.div_pos (by omega) hn : 0 < (bytes.length + n - 1) / n).ne'
  rw [split, hk, List.range_eq_range', List.range'_succ, List.map_cons] at hchunks
  obtain ⟨⟨c, start⟩, rest, rfl, hc, hrest⟩ := List.map_eq_cons_iff.mp hchunks
  have hc : read c = ⟨id, bytes.length, 0, bytes.take (1 * n)⟩ := by simpa [piece] using hc
  obtain ⟨hsettled, hready'⟩ : Settled view valid ⟨id, bytes.length, bytes.take (1 * n), start⟩
      (push s c start) ∧ Ready (push s c start).2 ids := by
    simpa only [hc] using h.first start (hgood _ (.head _)) (by rwa [hc]) (by rw [hc])
  cases k with
  | zero =>
    obtain rfl : rest = [] := by simpa using hrest
    have hwhole : bytes.take (1 * n) = bytes := by
      have hle := Chunks.le_count_mul hn bytes.length
      rw [hk] at hle
      exact List.take_of_length_le hle
    rw [hwhole] at hsettled
    obtain ⟨hout, hpending⟩ := hsettled.whole rfl hvalid
    exact ⟨by simp [feed, delivered, hk, hout], hpending, hready'⟩
  | succ k =>
    have hshort : (bytes.take (1 * n)).length ≠ bytes.length := by
      rw [length_take_of_lt (by omega)]
      intro heq
      have hlast := Nat.div_mul_le_self (bytes.length + n - 1) n
      rw [show (bytes.length + n - 1) / n = k + 1 + 1 from hk] at hlast
      have : 1 * n + n ≤ (k + 1 + 1) * n := by
        rw [← Nat.succ_mul]
        exact Nat.mul_le_mul_right n (by omega)
      omega
    obtain ⟨hnone, hpending⟩ := hsettled.part hshort
    obtain ⟨hout, hend⟩ :=
      feed_rest h hn hvalid Nat.one_ne_zero (by omega) hpending hready' (fun e he => hgood e (.tail _ he)) hrest htime
    refine ⟨?_, hend⟩
    rw [delivered, hk, Nat.add_sub_cancel, List.replicate_succ, List.cons_append, ← hout]
    simp only [feed, hnone]

/-- **Whatever is sent arrives**, each transfer at its last chunk. -/
theorem deliverAll (h : Prompt view read push Good valid life Ready) (hn : 0 < n)
    {payloads : List (ι × List β)} {transfers : List (List (χ × ℕ))}
    (hs : (view s).pending = none) (hready : Ready s (payloads.map Prod.fst ++ ids))
    (hpayloads : ∀ p ∈ payloads, valid p.2 ∧ p.2 ≠ [])
    (hgood : ∀ t ∈ transfers, ∀ e ∈ t, Good e.1)
    (hchunks : transfers.map (·.map fun e => read e.1) = payloads.map fun p => split n p.1 p.2)
    (htime : ∀ t ∈ transfers, InTime life t) :
    (feedAll push s transfers).1 = payloads.map (fun p => delivered n p.2) ∧
      (view (feedAll push s transfers).2).pending = none ∧
      Ready (feedAll push s transfers).2 ids := by
  induction payloads generalizing s transfers with
  | nil =>
    obtain rfl : transfers = [] := by simpa using hchunks
    exact ⟨rfl, hs, hready⟩
  | cons p payloads ih =>
    obtain ⟨chunks, rest, rfl, hfirst, hrest⟩ := List.map_eq_cons_iff.mp hchunks
    obtain ⟨hvalid, hne⟩ := hpayloads p (.head _)
    obtain ⟨hout, hpending, hready'⟩ :=
      feed_split h hn hvalid hne hready (hgood _ (.head _)) hfirst (htime _ (.head _))
    obtain ⟨hlater, hend⟩ := ih hpending hready' (fun q hq => hpayloads q (.tail _ hq))
      (fun t ht => hgood t (.tail _ ht)) hrest fun t ht => htime t (.tail _ ht)
    simp only [feedAll, hout, hlater, List.map_cons]
    exact ⟨trivial, hend⟩

end Delivery

theorem feedAll_append (push : σ → χ → ℕ → Option (List β) × σ) (s : σ)
    (ts us : List (List (χ × ℕ))) :
    (feedAll push s (ts ++ us)).1 =
      (feedAll push s ts).1 ++ (feedAll push (feedAll push s ts).2 us).1 := by
  induction ts generalizing s with
  | nil => rfl
  | cons t ts ih => simp only [List.cons_append, feedAll, ih]

theorem feedAll_refused {push : σ → χ → ℕ → Option (List β) × σ} {P : σ → Prop}
    (h : ∀ {s c now}, P s → (push s c now).1 = none ∧ P (push s c now).2)
    {s : σ} (hs : P s) (ts : List (List (χ × ℕ))) :
    (feedAll push s ts).1 = ts.map fun t => List.replicate t.length none := by
  have hfeed (s : σ) (hs : P s) (t : List (χ × ℕ)) :
      (feed push s t).1 = List.replicate t.length none ∧ P (feed push s t).2 := by
    induction t generalizing s with
    | nil => exact ⟨rfl, hs⟩
    | cons e t ih =>
      obtain ⟨hnone, hs'⟩ := @h s e.1 e.2 hs
      obtain ⟨hrest, hend⟩ := ih _ hs'
      refine ⟨?_, hend⟩
      simp only [feed, hnone, hrest, List.length_cons, List.replicate_succ]
  induction ts generalizing s with
  | nil => rfl
  | cons t ts ih =>
    obtain ⟨hnone, hs'⟩ := hfeed s hs t
    simp only [feedAll, hnone, ih hs', List.map_cons]

end Transfers
