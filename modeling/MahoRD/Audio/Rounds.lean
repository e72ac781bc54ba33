/-
MahoRD/Audio/Rounds.lean

What the client's reassembler makes of the fragments of one block.  It gathers
them until all have come, delivers the block and forgets it.  If fragments of the
block come again, the gathering begins anew: the deliveries are the rounds into
which the fragments can be cut (`rounds`).

Fragments of older blocks do not disturb a round; a fragment of a newer one ends
it, and nothing of the block is delivered any more.
-/
import MahoRD.App.Audio

namespace MahoRD

namespace AudioFragmentReassembler

/-- What is delivered of the fragments one after another, with the ids of the blocks. -/
def delivered : AudioFragmentReassembler → List AudioFragment → List (UInt32 × List UInt8)
  | _, [] => []
  | s, f :: rest =>
    (s.push f).1.toList.map (f.header.frameId, ·) ++ delivered (s.push f).2 rest

/-- The reassembler after the fragments. -/
def pushes (s : AudioFragmentReassembler) (fragments : List AudioFragment) :
    AudioFragmentReassembler :=
  fragments.foldl (fun s f => (s.push f).2) s

theorem delivered_append (s : AudioFragmentReassembler) (fragments more : List AudioFragment) :
    s.delivered (fragments ++ more) =
      s.delivered fragments ++ (s.pushes fragments).delivered more := by
  induction fragments generalizing s with
  | nil => rfl
  | cons f rest ih =>
    rw [List.cons_append, delivered, delivered, ih, List.append_assoc]
    rfl

end AudioFragmentReassembler

namespace AudioBlock

open AudioFragmentReassembler

variable {b : AudioBlock} {s : AudioFragmentReassembler}

/-- Every index of the block is there. -/
def Whole (b : AudioBlock) (seen : List ℕ) : Prop := ∀ j < b.pieces.length, j ∈ seen

instance (b : AudioBlock) (seen : List ℕ) : Decidable (b.Whole seen) :=
  inferInstanceAs (Decidable (∀ j < b.pieces.length, j ∈ seen))

/-- The indices that have come since the block was last delivered. -/
def gathering (b : AudioBlock) : List ℕ → List ℕ → List ℕ
  | seen, [] => seen
  | seen, j :: rest =>
    if b.Whole (j :: seen) then b.gathering [] rest else b.gathering (j :: seen) rest

/-- How often the block is delivered, as its fragments come with the given indices: once whenever
every index has come since the last time. -/
def rounds (b : AudioBlock) : List ℕ → List ℕ → ℕ
  | _, [] => 0
  | seen, j :: rest =>
    if b.Whole (j :: seen) then b.rounds [] rest + 1 else b.rounds (j :: seen) rest

theorem Whole.mono {seen seen' : List ℕ} (h : b.Whole seen) (hsub : ∀ j ∈ seen, j ∈ seen') :
    b.Whole seen' :=
  fun j hj => hsub j (h j hj)

theorem rounds_eq_zero {seen js : List ℕ} (h : ¬ b.Whole (js ++ seen)) : b.rounds seen js = 0 := by
  induction js generalizing seen with
  | nil => rfl
  | cons j rest ih =>
    have hpart : ¬ b.Whole (j :: seen) := fun hwhole => h (hwhole.mono fun i hi => by
      rcases List.mem_cons.mp hi with rfl | hi
      · exact List.mem_append_left _ List.mem_cons_self
      · exact List.mem_append_right _ hi)
    rw [rounds, if_neg hpart]
    refine ih fun hwhole => h (hwhole.mono fun i hi => ?_)
    simpa [or_left_comm, or_assoc] using hi

variable {j : ℕ}

/-- The fragment that makes the block whole delivers it, and a new round begins. -/
theorem rounds_whole {init seen rest : List ℕ} (hpart : ¬ b.Whole (init ++ seen))
    (hwhole : b.Whole (init ++ j :: seen)) :
    b.rounds seen (init ++ j :: rest) = b.rounds [] rest + 1 ∧
      b.gathering seen (init ++ j :: rest) = b.gathering [] rest := by
  induction init generalizing seen with
  | nil => exact ⟨if_pos hwhole, if_pos hwhole⟩
  | cons i init ih =>
    have hstill : ¬ b.Whole (i :: seen) := fun h => hpart (h.mono fun k hk => by
      rcases List.mem_cons.mp hk with rfl | hk
      · exact List.mem_append_left _ List.mem_cons_self
      · exact List.mem_append_right _ hk)
    rw [List.cons_append, rounds, gathering, if_neg hstill, if_neg hstill]
    refine ih (fun h => hpart (h.mono fun k hk => ?_)) (hwhole.mono fun k hk => ?_)
    · simpa [or_left_comm, or_assoc] using hk
    · simp only [List.cons_append, List.mem_cons, List.mem_append] at hk ⊢
      tauto

/-! ### One fragment -/

/-- The indices that have come since the block was last delivered. -/
structure During (b : AudioBlock) (seen : List ℕ) (s : AudioFragmentReassembler) : Prop where
  onlyNewest : OnlyNewest s
  free : seen = [] → (∀ n ∈ s.newestFrameId, n ≤ b.frameId) ∧ s.pending.lookup b.frameId = none
  held : seen ≠ [] → s.newestFrameId = some b.frameId ∧ ∃ e, s.pending.lookup b.frameId = some e ∧
    e.fragmentCount = b.count ∧ Gather.Gathered b.pieces (· ∈ seen) e.fragments

theorem during_nil (hs : OnlyNewest s) (hnewest : s.newestFrameId = some b.frameId)
    (hpending : s.pending.lookup b.frameId = none) : b.During [] s where
  onlyNewest := hs
  free _ := by
    refine ⟨fun n hn => ?_, hpending⟩
    obtain rfl := Option.some.inj (hnewest.symm.trans hn)
    exact UInt32.le_refl _
  held h := absurd rfl h

theorem pushNewest_own {seen : List ℕ} (hs : OnlyNewest s)
    (hnewest : s.newestFrameId = some b.frameId) {e : PendingAudioFrame}
    (he : (s.pending.lookup b.frameId).getD ⟨b.count, ∅⟩ = e) (hcount : e.fragmentCount = b.count)
    (hgathered : Gather.Gathered b.pieces (· ∈ seen) e.fragments) {piece : List UInt8}
    (hj : b.pieces[j]? = some piece) :
    if b.Whole (j :: seen) then
      (s.pushNewest (b.fragment j piece)).1 = some b.pieces.flatten ∧
        b.During [] (s.pushNewest (b.fragment j piece)).2
    else
      (s.pushNewest (b.fragment j piece)).1 = none ∧
        b.During (j :: seen) (s.pushNewest (b.fragment j piece)).2 := by
  have honly : OnlyNewest (s.pushNewest (b.fragment j piece)).2 := onlyNewest_pushNewest hs hnewest
  have hkept := (newest_pushNewest s (b.fragment j piece)).trans hnewest
  have hnext : Gather.Gathered b.pieces (· ∈ j :: seen)
      (e.fragments.orInsert (UInt16.ofNat j) piece) :=
    (hgathered.orInsert b.lt.le hj).congr fun i => List.mem_cons.symm
  obtain ⟨hall, hpart⟩ := pushNewest_fragment hs he hcount hj List.mem_cons_self hnext
  split
  next hwhole =>
    rw [hall hwhole] at honly hkept ⊢
    exact ⟨rfl, during_nil honly hkept (AList.lookup_erase _ _)⟩
  next hmissing =>
    rw [hpart hmissing] at honly hkept ⊢
    exact ⟨rfl, honly, nofun, fun _ => ⟨hkept, _, AList.lookup_insert _, hcount, hnext⟩⟩

/-! ### Which block a fragment is of -/

theorem During.push {seen : List ℕ} (h : b.During seen s) {piece : List UInt8}
    (hj : b.pieces[j]? = some piece) :
    if b.Whole (j :: seen) then
      (s.push (b.fragment j piece)).1 = some b.pieces.flatten ∧
        b.During [] (s.push (b.fragment j piece)).2
    else
      (s.push (b.fragment j piece)).1 = none ∧
        b.During (j :: seen) (s.push (b.fragment j piece)).2 := by
  cases seen with
  | nil =>
    obtain ⟨hle, hnone⟩ := h.free rfl
    have hgathered : Gather.Gathered b.pieces (· ∈ []) (∅ : Table UInt16 (List UInt8)) :=
      Gather.gathered_empty fun i hi => by cases hi
    by_cases heq : s.newestFrameId = some b.frameId
    · rw [push_of_eq (f := b.fragment j piece) heq]
      exact pushNewest_own h.onlyNewest heq (e := ⟨b.count, ∅⟩) (by rw [hnone]; rfl) rfl hgathered hj
    · have hnewer : ∀ n ∈ s.newestFrameId, n < b.frameId := fun n hn =>
        (UInt32.lt_or_eq_of_le (hle n hn)).resolve_right fun heq' => heq (heq' ▸ hn)
      have hempty := skip_newer h.onlyNewest hnewer
      rw [push_of_newer (f := b.fragment j piece) hnewer]
      refine pushNewest_own ⟨fun k hk => ?_⟩ rfl (e := ⟨b.count, ∅⟩) ?_ rfl hgathered hj
      · rw [show (b.fragment j piece).header.frameId = b.frameId from rfl, hempty] at hk
        cases hk
      · show (AList.lookup b.frameId (s.skipIncompleteBefore b.frameId).pending).getD _ = _
        rw [hempty]
        rfl
  | cons i rest =>
    obtain ⟨hnewest, e, he, hcount, hgathered⟩ := h.held (List.cons_ne_nil _ _)
    rw [push_of_eq (f := b.fragment j piece) hnewest]
    exact pushNewest_own h.onlyNewest hnewest (by rw [he]; rfl) hcount hgathered hj

theorem During.push_older {seen : List ℕ} (h : b.During seen s) {f : AudioFragment}
    (hf : f.header.frameId < b.frameId) : b.During seen (s.push f).2 := by
  by_cases heq : s.newestFrameId = some b.frameId
  · rw [push_of_older heq hf]
    exact h
  · cases seen with
    | cons i rest => exact absurd (h.held (List.cons_ne_nil _ _)).1 heq
    | nil =>
      have honly := onlyNewest_push h.onlyNewest f
      have hle := (h.free rfl).1
      have hbelow : ∀ n ∈ (s.push f).2.newestFrameId, n < b.frameId := by
        intro n hn
        rcases newest_push s f with hnew | ⟨hold, -⟩
        · obtain rfl := Option.some.inj (hnew.symm.trans hn)
          exact hf
        · rw [hold] at hn
          refine (UInt32.lt_or_eq_of_le (hle n hn)).resolve_right fun heq' => heq ?_
          rw [← heq']
          exact hn
      refine ⟨honly, fun _ => ⟨fun n hn => UInt32.le_of_lt (hbelow n hn), ?_⟩,
        fun hne => absurd rfl hne⟩
      rw [AList.lookup_eq_none]
      exact fun hmem => UInt32.lt_irrefl _ (hbelow _ (honly.pending _ hmem))

/-! ### A sequence of fragments -/

/-- The indices of the fragments of the block. -/
def indices (b : AudioBlock) : List AudioFragment → List ℕ
  | [] => []
  | f :: rest =>
    (if f.header.frameId = b.frameId then [f.header.fragmentIndex.toNat] else []) ++ b.indices rest

/-- **The block is delivered once in every round**, while no newer block comes. -/
theorem delivered_during {seen : List ℕ} (h : b.During seen s) {fragments : List AudioFragment}
    (hnewest : b.Newest fragments) :
    ((s.delivered fragments).filter fun d => d.1 = b.frameId) =
        List.replicate (b.rounds seen (b.indices fragments)) (b.frameId, b.pieces.flatten) ∧
      b.During (b.gathering seen (b.indices fragments)) (s.pushes fragments) := by
  induction fragments generalizing s seen with
  | nil => exact ⟨rfl, h⟩
  | cons f rest ih =>
    obtain ⟨hle, hhas⟩ := hnewest f (by simp)
    have hrest : b.Newest rest := fun g hg => hnewest g (List.mem_cons_of_mem _ hg)
    rw [delivered, List.filter_append, indices]
    rcases UInt32.lt_or_eq_of_le hle with hlt | heq
    · have hne := UInt32.ne_of_lt hlt
      obtain ⟨hdelivered, hduring⟩ := ih (h.push_older hlt) hrest
      rw [if_neg hne, List.nil_append]
      refine ⟨?_, hduring⟩
      rw [hdelivered, List.filter_eq_nil_iff.mpr, List.nil_append]
      rintro d hd
      obtain ⟨data, -, rfl⟩ := List.mem_map.mp hd
      simpa using hne
    · obtain ⟨j, piece, hj, rfl⟩ := hhas heq
      have hindex : (b.fragment j piece).header.fragmentIndex.toNat = j :=
        Gather.toNat_index b.lt.le (Gather.lt_length hj)
      have hpush := h.push hj
      rw [if_pos heq, hindex, List.singleton_append, rounds, gathering]
      split at hpush
      next hwhole =>
        obtain ⟨hdata, hduring⟩ := hpush
        obtain ⟨hdelivered, hlast⟩ := ih hduring hrest
        rw [if_pos hwhole, if_pos hwhole]
        refine ⟨?_, hlast⟩
        rw [hdelivered, hdata, List.replicate_succ]
        simp [heq]
      next hpart =>
        obtain ⟨hdata, hduring⟩ := hpush
        obtain ⟨hdelivered, hlast⟩ := ih hduring hrest
        rw [if_neg hpart, if_neg hpart]
        refine ⟨?_, hlast⟩
        rw [hdelivered, hdata]
        rfl

theorem indices_fragments (b : AudioBlock) : b.indices b.fragments = List.range b.pieces.length := by
  have hfrom : ∀ (pieces : List (List UInt8)) (k : ℕ), k + pieces.length ≤ b.pieces.length →
      b.indices ((pieces.zipIdx k).map fun e => b.fragment e.2 e.1) = List.range' k pieces.length := by
    intro pieces
    induction pieces with
    | nil => exact fun _ _ => rfl
    | cons piece rest ih =>
      intro k hk
      rw [List.length_cons] at hk ⊢
      have hindex : (UInt16.ofNat k).toNat = k := Gather.toNat_index b.lt.le (by omega)
      have hown : (b.fragment k piece).header.frameId = b.frameId := rfl
      rw [List.zipIdx_cons, List.map_cons, indices, if_pos hown, ih (k + 1) (by omega),
        List.range'_succ]
      exact congrArg (· :: _) hindex
  rw [fragments, hfrom b.pieces 0 (by omega), List.range_eq_range']

theorem newest_fragments (b : AudioBlock) : b.Newest b.fragments := by
  intro f hf
  obtain ⟨e, he, rfl⟩ := List.mem_map.mp hf
  have hget := List.mem_zipIdx_iff_getElem?.mp he
  exact ⟨UInt32.le_refl _, fun _ => ⟨e.2, e.1, hget, rfl⟩⟩

theorem rounds_range (b : AudioBlock) :
    b.rounds [] (List.range b.pieces.length) = 1 ∧
      b.gathering [] (List.range b.pieces.length) = [] := by
  obtain ⟨n, hn⟩ := Nat.exists_eq_succ_of_ne_zero (Nat.pos_iff_ne_zero.mp b.pos)
  have hpart : ¬ b.Whole (List.range n ++ []) := by
    intro hwhole
    have hmem := hwhole n (by omega)
    simp at hmem
  have hwhole : b.Whole (List.range n ++ n :: []) := by
    intro j hj
    simp only [List.mem_append, List.mem_range, List.mem_singleton]
    omega
  rw [hn, List.range_succ]
  exact rounds_whole hpart hwhole

theorem delivered_late {n : UInt32} (hn : s.newestFrameId = some n) (hlt : b.frameId < n)
    (fragments : List AudioFragment) :
    ((s.delivered fragments).filter fun d => d.1 = b.frameId) = [] := by
  induction fragments generalizing s n with
  | nil => rfl
  | cons f rest ih =>
    rw [delivered, List.filter_append]
    have hnext : ∃ m, (s.push f).2.newestFrameId = some m ∧ b.frameId < m := by
      rcases push_cases s f with hnewer | heq | ⟨m, hm, hgt⟩
      · refine ⟨_, ?_, UInt32.lt_trans hlt (hnewer n hn)⟩
        rw [push_of_newer hnewer, newest_pushNewest]
      · exact ⟨n, by rw [push_of_eq heq, newest_pushNewest, hn], hlt⟩
      · exact ⟨n, by rw [push_of_older hm hgt, hn], hlt⟩
    obtain ⟨m, hm, hlt'⟩ := hnext
    rw [ih hm hlt', List.append_nil, List.filter_eq_nil_iff]
    rintro d hd
    obtain ⟨data, hdata, rfl⟩ := List.mem_map.mp hd
    intro heq
    have heq : f.header.frameId = b.frameId := by simpa using heq
    rw [push_of_older hn (heq ▸ hlt)] at hdata
    cases hdata

theorem delivered_newer (s : AudioFragmentReassembler) {f : AudioFragment}
    (hlt : b.frameId < f.header.frameId) (rest : List AudioFragment) :
    ((s.delivered (f :: rest)).filter fun d => d.1 = b.frameId) = [] := by
  obtain ⟨m, hm, hlt'⟩ : ∃ m, (s.push f).2.newestFrameId = some m ∧ b.frameId < m := by
    rcases newest_push s f with hnew | ⟨hold, n, hn, hgt⟩
    · exact ⟨_, hnew, hlt⟩
    · exact ⟨n, hold.trans hn, UInt32.lt_trans hlt hgt⟩
  rw [delivered, List.filter_append, delivered_late hm hlt' rest, List.append_nil,
    List.filter_eq_nil_iff]
  rintro d hd
  obtain ⟨data, -, rfl⟩ := List.mem_map.mp hd
  simpa using (UInt32.ne_of_lt hlt).symm

end AudioBlock
end MahoRD
