/-
MahoRD/App/Audio.lean

Reassembly of audio blocks at the client (`AudioFragmentReassembler` in
`maho-app/src/audio.rs`).  Audio is not waited for: a fragment of a newer block
ends the blocks before it, and what comes for these later is dropped.

So at most the newest block is ever pending (`OnlyNewest`).
-/
import MahoRD.Lib.Gather
import MahoRD.Proto.Media

namespace MahoRD

def maxPendingAudioFrames : ℕ := 64

structure PendingAudioFrame where
  fragmentCount : UInt16
  fragments : Table UInt16 (List UInt8)

structure AudioFragmentReassembler where
  pending : Table UInt32 PendingAudioFrame
  newestFrameId : Option UInt32
  skippedFrames : ℕ

namespace AudioFragmentReassembler

def new : AudioFragmentReassembler := ⟨∅, none, 0⟩

def clear (s : AudioFragmentReassembler) : AudioFragmentReassembler :=
  { s with pending := ∅, newestFrameId := none }

def skipIncompleteBefore (s : AudioFragmentReassembler) (frameId : UInt32) :
    AudioFragmentReassembler :=
  let pending := Table.retain (fun id _ => id ≥ frameId) s.pending
  { s with pending, skippedFrames := s.skippedFrames + (s.pending.size - pending.size) }

/-- Beyond the bound the block with the smallest id goes. -/
def dropOldest (s : AudioFragmentReassembler) : AudioFragmentReassembler :=
  if s.pending.size > maxPendingAudioFrames then
    match s.pending.toSorted.head? with
    | none => s
    | some (oldest, _) =>
      { s with pending := s.pending.erase oldest, skippedFrames := s.skippedFrames + 1 }
  else s

/-- A fragment of the newest block. -/
def pushNewest (s : AudioFragmentReassembler) (fragment : AudioFragment) :
    Option (List UInt8) × AudioFragmentReassembler :=
  let frameId := fragment.header.frameId
  if fragment.header.fragmentCount = 1 then
    (some fragment.data, { s with pending := s.pending.erase frameId })
  else
    let entry := (s.pending.lookup frameId).getD ⟨fragment.header.fragmentCount, ∅⟩
    if entry.fragmentCount ≠ fragment.header.fragmentCount then
      (none,
        { s with pending := s.pending.erase frameId, skippedFrames := s.skippedFrames + 1 })
    else
      let fragments := entry.fragments.orInsert fragment.header.fragmentIndex fragment.data
      if fragments.size = entry.fragmentCount.toNat then
        let indices := (List.range entry.fragmentCount.toNat).map UInt16.ofNat
        ((fragments.collect indices).map List.flatten,
          { s with pending := s.pending.erase frameId })
      else
        (none, dropOldest { s with pending := s.pending.insert frameId { entry with fragments } })

def push (s : AudioFragmentReassembler) (fragment : AudioFragment) :
    Option (List UInt8) × AudioFragmentReassembler :=
  let frameId := fragment.header.frameId
  if s.newestFrameId.any (frameId < ·) then (none, s)
  else if s.newestFrameId.all (· < frameId) then
    pushNewest { s.skipIncompleteBefore frameId with newestFrameId := some frameId } fragment
  else pushNewest s fragment

/-! ### Only the newest block is pending -/

structure OnlyNewest (s : AudioFragmentReassembler) : Prop where
  pending : ∀ id, id ∈ s.pending → s.newestFrameId = some id

theorem onlyNewest_new : OnlyNewest new where
  pending := by simp [new]

theorem onlyNewest_clear (s : AudioFragmentReassembler) : OnlyNewest s.clear where
  pending := by simp [clear]

variable {s s' : AudioFragmentReassembler} {id : UInt32}

theorem OnlyNewest.size_le (h : OnlyNewest s) :
    s.pending.size ≤ 1 := by
  have hnodup := s.pending.keys_nodup
  have hkeys : ∀ id ∈ s.pending.keys, s.newestFrameId = some id := fun id hid => h.pending id hid
  rw [Table.size]
  generalize s.pending.keys = keys at hnodup hkeys
  rcases keys with - | ⟨a, - | ⟨b, rest⟩⟩
  · exact Nat.zero_le _
  · exact le_rfl
  · have hab := Option.some.inj ((hkeys a (by simp)).symm.trans (hkeys b (by simp)))
    simp [hab] at hnodup

theorem OnlyNewest.of_sub (h : OnlyNewest s)
    (hn : s'.newestFrameId = s.newestFrameId) (hp : ∀ id, id ∈ s'.pending → id ∈ s.pending) :
    OnlyNewest s' :=
  ⟨fun id hid => hn.trans (h.pending id (hp id hid))⟩

theorem OnlyNewest.erase (h : OnlyNewest s)
    (hid : s.newestFrameId = some id) : s.pending.erase id = ∅ := by
  refine Table.eq_empty fun k hk => ?_
  obtain ⟨hne, hmem⟩ := AList.mem_erase.mp hk
  exact hne (Option.some.inj ((h.pending k hmem).symm.trans hid))

theorem dropOldest_of_le
    (h : s.pending.size ≤ maxPendingAudioFrames) : s.dropOldest = s := by
  rw [dropOldest, if_neg (Nat.not_lt.mpr h)]

theorem OnlyNewest.dropOldest_insert (h : OnlyNewest s) (id : UInt32)
    (entry : PendingAudioFrame) :
    dropOldest { s with pending := s.pending.insert id entry } =
      { s with pending := s.pending.insert id entry } := by
  have hsize := Table.size_insert_le s.pending id entry
  have hbound : s.pending.size + 1 ≤ maxPendingAudioFrames :=
    (Nat.add_le_add_right h.size_le 1).trans (by decide)
  exact dropOldest_of_le (hsize.trans hbound)

theorem onlyNewest_pushNewest (h : OnlyNewest s)
    {fragment : AudioFragment} (hid : s.newestFrameId = some fragment.header.frameId) :
    OnlyNewest (s.pushNewest fragment).2 := by
  have herase : ∀ n, OnlyNewest { s with
      pending := s.pending.erase fragment.header.frameId, skippedFrames := n } :=
    fun n => h.of_sub rfl fun k hk => (AList.mem_erase.mp hk).2
  unfold pushNewest
  split
  · exact herase _
  · dsimp only
    split
    · exact herase _
    · split
      · exact herase _
      · have hinsert : ∀ entry, OnlyNewest { s with
            pending := s.pending.insert fragment.header.frameId entry } := by
          refine fun entry => ⟨fun k hk => ?_⟩
          rcases (AList.mem_insert _).mp hk with rfl | hold
          · exact hid
          · exact h.pending k hold
        rw [h.dropOldest_insert]
        exact hinsert _

theorem skip_pending (h : OnlyNewest s)
    (hid : s.newestFrameId.all (· < id) = true) : (s.skipIncompleteBefore id).pending = ∅ := by
  refine Table.eq_empty fun k hk => ?_
  obtain ⟨v, hv⟩ := Option.isSome_iff_exists.mp (AList.lookup_isSome.mpr hk)
  obtain ⟨hold, hge⟩ := Table.lookup_retain_eq_some.mp hv
  have hnewest := h.pending k (AList.lookup_isSome.mp (by rw [hold]; rfl))
  rw [hnewest, Option.all_some, decide_eq_true_eq] at hid
  exact absurd (of_decide_eq_true hge) (UInt32.not_le.mpr hid)

/-! ### The three ways of a fragment -/

section Ways

variable {s : AudioFragmentReassembler}

variable {f : AudioFragment}

theorem push_of_eq (h : s.newestFrameId = some f.header.frameId) :
    s.push f = s.pushNewest f := by
  unfold push
  dsimp only
  rw [h, Option.any_some, Option.all_some, if_neg (by simp), if_neg (by simp)]

theorem skip_newer (h : OnlyNewest s) {id : UInt32} (hnewer : ∀ n ∈ s.newestFrameId, n < id) :
    (s.skipIncompleteBefore id).pending = ∅ := by
  refine skip_pending h ?_
  rw [Option.all_eq_true]
  exact fun n hn => decide_eq_true (hnewer n hn)

theorem push_of_newer (h : ∀ n ∈ s.newestFrameId, n < f.header.frameId) :
    s.push f = pushNewest { s.skipIncompleteBefore f.header.frameId with
      newestFrameId := some f.header.frameId } f := by
  unfold push
  dsimp only
  rcases hn : s.newestFrameId with - | n
  · rfl
  · have hlt := h n hn
    rw [Option.any_some, Option.all_some,
      if_neg (by simpa using UInt32.le_of_lt hlt), if_pos (by simpa using hlt)]

theorem push_of_older {n : UInt32} (h : s.newestFrameId = some n)
    (hlt : f.header.frameId < n) : s.push f = (none, s) := by
  unfold push
  dsimp only
  rw [h, Option.any_some, if_pos (by simpa using hlt)]

theorem push_cases (s : AudioFragmentReassembler) (f : AudioFragment) :
    (∀ n ∈ s.newestFrameId, n < f.header.frameId) ∨ s.newestFrameId = some f.header.frameId ∨
      ∃ n, s.newestFrameId = some n ∧ f.header.frameId < n := by
  rcases hn : s.newestFrameId with - | n
  · exact .inl fun n hn => by cases hn
  · by_cases hlt : n < f.header.frameId
    · refine .inl fun m hm => ?_
      cases hm
      exact hlt
    · rcases UInt32.lt_or_eq_of_le (UInt32.not_lt.mp hlt) with hgt | heq
      · exact .inr (.inr ⟨n, rfl, hgt⟩)
      · exact .inr (.inl (congrArg some heq.symm))

theorem onlyNewest_push (h : OnlyNewest s) (fragment : AudioFragment) :
    OnlyNewest (s.push fragment).2 := by
  rcases push_cases s fragment with hnewer | heq | ⟨n, hn, hlt⟩
  · rw [push_of_newer hnewer]
    refine onlyNewest_pushNewest ⟨fun id hid => ?_⟩ rfl
    rw [skip_newer h hnewer] at hid
    cases hid
  · rw [push_of_eq heq]
    exact onlyNewest_pushNewest h heq
  · rw [push_of_older hn hlt]
    exact h

end Ways

/-! ### A fresh reassembler -/

/-- Alike but for the count of the blocks that were skipped. -/
structure Same (s s' : AudioFragmentReassembler) : Prop where
  pending : s.pending = s'.pending
  newest : s.newestFrameId = s'.newestFrameId

/-- Alike in what comes of a fragment, too. -/
structure SameResult (r r' : Option (List UInt8) × AudioFragmentReassembler) : Prop where
  data : r.1 = r'.1
  same : Same r.2 r'.2

theorem same_dropOldest (h : Same s s') :
    Same s.dropOldest s'.dropOldest := by
  unfold dropOldest
  rw [h.pending]
  split
  · split
    · exact h
    · exact ⟨rfl, h.newest⟩
  · exact h

theorem same_pushNewest (h : Same s s')
    (fragment : AudioFragment) :
    SameResult (s.pushNewest fragment) (s'.pushNewest fragment) := by
  unfold pushNewest
  rw [h.pending]
  split
  · exact ⟨rfl, rfl, h.newest⟩
  · dsimp only
    split
    · exact ⟨rfl, rfl, h.newest⟩
    · split
      · exact ⟨rfl, rfl, h.newest⟩
      · exact ⟨rfl, same_dropOldest ⟨rfl, h.newest⟩⟩

theorem same_advance
    (h : (s.skipIncompleteBefore id).pending = (s'.skipIncompleteBefore id).pending) :
    Same { s.skipIncompleteBefore id with newestFrameId := some id }
      { s'.skipIncompleteBefore id with newestFrameId := some id } := ⟨h, rfl⟩

theorem same_push (h : Same s s') (fragment : AudioFragment) :
    SameResult (s.push fragment) (s'.push fragment) := by
  unfold push
  dsimp only
  rw [h.newest]
  split
  · exact ⟨rfl, h⟩
  · split
    · refine same_pushNewest (same_advance ?_) fragment
      exact congrArg (Table.retain fun id _ => id ≥ fragment.header.frameId) h.pending
    · exact same_pushNewest h fragment

/-- What an earlier session left does not matter to a fragment: its block is
newer, or it is the newest one, of which nothing is needed. -/
def Clean (s : AudioFragmentReassembler) (fragment : AudioFragment) : Prop :=
  ∀ newest ∈ s.newestFrameId, newest < fragment.header.frameId ∨
    (newest = fragment.header.frameId ∧
      (fragment.header.fragmentCount = 1 ∨ s.pending.lookup fragment.header.frameId = none))

instance (s : AudioFragmentReassembler) (fragment : AudioFragment) :
    Decidable (s.Clean fragment) :=
  Option.decidableForallMem s.newestFrameId

/-- A clean fragment is taken as by a fresh reassembler, which it makes the two
alike. -/
theorem sameResult_of_clean (h : OnlyNewest s)
    {fragment : AudioFragment} (hclean : s.Clean fragment) :
    SameResult (s.push fragment) (new.push fragment) := by
  have hnew : new.push fragment = pushNewest { new.skipIncompleteBefore fragment.header.frameId with
      newestFrameId := some fragment.header.frameId } fragment := rfl
  have hempty : (new.skipIncompleteBefore fragment.header.frameId).pending = ∅ :=
    skip_pending onlyNewest_new rfl
  rcases hn : s.newestFrameId with - | newest
  · refine same_push ⟨Table.eq_empty fun k hk => ?_, hn⟩ fragment
    rw [h.pending k hk] at hn
    cases hn
  · rw [hnew]
    unfold push
    dsimp only
    rw [hn, Option.any_some, Option.all_some]
    rcases hclean newest hn with hlt | ⟨rfl, hone⟩
    · rw [if_neg (by simpa using UInt32.le_of_lt hlt), if_pos (by simpa using hlt)]
      refine same_pushNewest (same_advance ?_) fragment
      exact (skip_pending h (by simpa [hn] using hlt)).trans hempty.symm
    · rw [if_neg (by simp), if_neg (by simp)]
      rcases hone with hone | hnone
      · have hpush : ∀ t : AudioFragmentReassembler, t.pushNewest fragment = (some fragment.data,
            { t with pending := t.pending.erase fragment.header.frameId }) :=
          fun t => by rw [pushNewest, if_pos hone]
        rw [hpush, hpush]
        refine ⟨rfl, ?_, hn⟩
        show s.pending.erase _ = AList.erase _ _
        rw [h.erase hn, hempty]
        rfl
      · have hnothing : s.pending = ∅ := by
          refine Table.eq_empty fun k hk => ?_
          obtain rfl := Option.some.inj ((h.pending k hk).symm.trans hn)
          exact Table.notMem_of_lookup hnone hk
        have hsame : Same s { new.skipIncompleteBefore fragment.header.frameId with
            newestFrameId := some fragment.header.frameId } := ⟨hnothing.trans hempty.symm, hn⟩
        exact same_pushNewest hsame fragment

/-! ### What a fresh reassembler makes of a list of fragments -/

def feed (r : List (Option (List UInt8)) × AudioFragmentReassembler) (fragment : AudioFragment) :
    List (Option (List UInt8)) × AudioFragmentReassembler :=
  (r.1 ++ [(r.2.push fragment).1], (r.2.push fragment).2)

/-- What comes of each of the fragments, and the reassembler after them. -/
def fresh (fragments : List AudioFragment) :
    List (Option (List UInt8)) × AudioFragmentReassembler :=
  fragments.foldl feed ([], new)

theorem fresh_append (fragments : List AudioFragment) (fragment : AudioFragment) :
    fresh (fragments ++ [fragment]) = feed (fresh fragments) fragment := by
  rw [fresh, List.foldl_append]
  rfl

end AudioFragmentReassembler

/-- An audio block as it is cut into fragments. -/
structure AudioBlock where
  frameId : UInt32
  pieces : List (List UInt8)
  pos : 0 < pieces.length
  lt : pieces.length < 2 ^ 16

namespace AudioBlock

open AudioFragmentReassembler

def count (b : AudioBlock) : UInt16 := UInt16.ofNat b.pieces.length

def fragment (b : AudioBlock) (j : ℕ) (piece : List UInt8) : AudioFragment :=
  ⟨⟨b.frameId, UInt16.ofNat j, b.count⟩, piece⟩

/-- The fragments in order. -/
def fragments (b : AudioBlock) : List AudioFragment :=
  b.pieces.zipIdx.map fun e => b.fragment e.2 e.1

/-- The fragment is one of the block. -/
def Has (b : AudioBlock) (fragment : AudioFragment) : Prop :=
  ∃ j piece, b.pieces[j]? = some piece ∧ fragment = b.fragment j piece

theorem toNat_count (b : AudioBlock) : b.count.toNat = b.pieces.length :=
  Nat.mod_eq_of_lt b.lt

/-- The piece of index `j` is among the fragments. -/
def Came (b : AudioBlock) (fragments : List AudioFragment) (j : ℕ) : Prop :=
  ∃ piece, b.pieces[j]? = some piece ∧ b.fragment j piece ∈ fragments

/-- No newer block, and of this id no other fragments. -/
def Newest (b : AudioBlock) (fragments : List AudioFragment) : Prop :=
  ∀ f ∈ fragments, f.header.frameId ≤ b.frameId ∧ (f.header.frameId = b.frameId → b.Has f)

/-- Until the block is delivered, what has come of it is pending. -/
structure Awaited (b : AudioBlock) (fragments : List AudioFragment)
    (s : AudioFragmentReassembler) : Prop where
  missing : ∃ j < b.pieces.length, ¬ b.Came fragments j
  older : (∀ j, ¬ b.Came fragments j) → ∀ n ∈ s.newestFrameId, n < b.frameId
  pending : (∃ j, b.Came fragments j) → s.newestFrameId = some b.frameId ∧
    ∃ e, s.pending.lookup b.frameId = some e ∧ e.fragmentCount = b.count ∧
      Gather.Gathered b.pieces (b.Came fragments) e.fragments

variable {b : AudioBlock} {fragments : List AudioFragment} {s : AudioFragmentReassembler}

variable {f : AudioFragment} {j : ℕ}

theorem came_append :
    b.Came (fragments ++ [f]) j ↔
      (∃ piece, b.pieces[j]? = some piece ∧ f = b.fragment j piece) ∨ b.Came fragments j := by
  simp only [Came, List.mem_append, List.mem_singleton, and_or_left, exists_or]
  rw [or_comm]
  simp only [eq_comm]

theorem came_fragment {piece : List UInt8} (hj : b.pieces[j]? = some piece) (i : ℕ) :
    b.Came (fragments ++ [b.fragment j piece]) i ↔ i = j ∨ b.Came fragments i := by
  rw [came_append]
  refine or_congr_left ⟨?_, ?_⟩
  · rintro ⟨piece', hi, heq⟩
    have hindex : UInt16.ofNat j = UInt16.ofNat i := by
      rw [fragment, fragment, AudioFragment.mk.injEq, AudioFragmentHeader.mk.injEq] at heq
      exact heq.1.2.1
    have hlen := b.lt.le
    rw [← Gather.toNat_index hlen (Gather.lt_length hi), ← hindex,
      Gather.toNat_index hlen (Gather.lt_length hj)]
  · rintro rfl
    exact ⟨piece, hj, rfl⟩

theorem came_older (hf : f.header.frameId ≠ b.frameId) (i : ℕ) :
    b.Came (fragments ++ [f]) i ↔ b.Came fragments i := by
  rw [came_append]
  refine or_iff_right ?_
  rintro ⟨piece, -, rfl⟩
  exact hf rfl

theorem newest_pushNewest (s : AudioFragmentReassembler) (f : AudioFragment) :
    (s.pushNewest f).2.newestFrameId = s.newestFrameId := by
  have hdrop : ∀ t : AudioFragmentReassembler, t.dropOldest.newestFrameId = t.newestFrameId := by
    intro t
    unfold dropOldest
    split
    · split
      · rfl
      · rfl
    · rfl
  unfold pushNewest
  split
  · rfl
  · dsimp only
    split
    · rfl
    · split
      · rfl
      · exact hdrop _

theorem newest_push (s : AudioFragmentReassembler) (f : AudioFragment) :
    (s.push f).2.newestFrameId = some f.header.frameId ∨
      ((s.push f).2.newestFrameId = s.newestFrameId ∧
        ∃ n, s.newestFrameId = some n ∧ f.header.frameId < n) := by
  rcases push_cases s f with hnewer | heq | ⟨n, hn, hlt⟩
  · rw [push_of_newer hnewer, newest_pushNewest]
    exact .inl rfl
  · rw [push_of_eq heq, newest_pushNewest]
    exact .inl heq
  · rw [push_of_older hn hlt]
    exact .inr ⟨rfl, n, hn, hlt⟩

/-- A fragment of an older block does not bring the block any nearer, nor set it
back. -/
theorem awaited_older (h : b.Awaited fragments s)
    (hf : f.header.frameId < b.frameId) : b.Awaited (fragments ++ [f]) (s.push f).2 := by
  have hcame : b.Came (fragments ++ [f]) = b.Came fragments :=
    funext fun i => propext (came_older (UInt32.ne_of_lt hf) i)
  refine ⟨hcame ▸ h.missing, fun hnone n hn => ?_, fun hsome => ?_⟩
  · rw [hcame] at hnone
    rcases newest_push s f with hnew | ⟨hold, -⟩
    · obtain rfl := Option.some.inj (hnew.symm.trans hn)
      exact hf
    · exact h.older hnone n (hold ▸ hn)
  · rw [hcame] at hsome ⊢
    obtain ⟨hnewest, hpending⟩ := h.pending hsome
    rw [push_of_older hnewest hf]
    exact ⟨hnewest, hpending⟩

/-- A fragment of the block joins what is pending of it, or makes the block whole. -/
theorem pushNewest_fragment (hs : OnlyNewest s) {e : PendingAudioFrame}
    (he : (s.pending.lookup b.frameId).getD ⟨b.count, ∅⟩ = e) (hcount : e.fragmentCount = b.count) {piece : List UInt8} (hj : b.pieces[j]? = some piece) {came : ℕ → Prop}
    (hcame : came j)
    (hgathered : Gather.Gathered b.pieces came
      (e.fragments.orInsert (UInt16.ofNat j) piece)) :
    ((∀ i < b.pieces.length, came i) → s.pushNewest (b.fragment j piece) =
      (some b.pieces.flatten, { s with pending := s.pending.erase b.frameId })) ∧
    ((¬ ∀ i < b.pieces.length, came i) → s.pushNewest (b.fragment j piece) =
      (none, { s with
        pending := s.pending.insert b.frameId
          { e with fragments := e.fragments.orInsert (UInt16.ofNat j) piece } })) := by
  have hlen := b.lt.le
  have hfields : (b.fragment j piece).header = ⟨b.frameId, UInt16.ofNat j, b.count⟩ ∧
      (b.fragment j piece).data = piece := ⟨rfl, rfl⟩
  unfold pushNewest
  rw [hfields.1, hfields.2]
  dsimp only
  rw [he]
  by_cases hone : b.count = 1
  · -- the only fragment of its block
    have hsingle : b.pieces.length = 1 := by rw [← b.toNat_count, hone]; rfl
    obtain ⟨x, hx⟩ := List.length_eq_one_iff.mp hsingle
    have hzero : j = 0 := Nat.lt_one_iff.mp (hsingle ▸ Gather.lt_length hj)
    rw [hx, hzero] at hj
    obtain rfl : x = piece := by simpa using hj
    rw [if_pos hone]
    refine ⟨fun _ => by simp [hx], fun hmissing => absurd (fun i hi => ?_) hmissing⟩
    rw [hsingle, Nat.lt_one_iff] at hi
    rwa [hi, ← hzero]
  · have hsize := hgathered.size_eq_iff hlen
    rw [← b.toNat_count, ← hcount] at hsize
    rw [if_neg hone, if_neg (not_not.mpr hcount)]
    refine ⟨fun hall => ?_, fun hmissing => ?_⟩
    · rw [if_pos (hsize.mpr (by rwa [hcount, b.toNat_count])), hcount, b.toNat_count,
        hgathered.collect hlen hall]
      rfl
    · rw [if_neg (mt hsize.mp (by rwa [hcount, b.toNat_count])), hs.dropOldest_insert]

theorem awaited_pushNewest (hs : OnlyNewest s) (hnewest : s.newestFrameId = some b.frameId)
    {e : PendingAudioFrame} (he : (s.pending.lookup b.frameId).getD ⟨b.count, ∅⟩ = e)
    (hcount : e.fragmentCount = b.count)
    (hfragments : Gather.Gathered b.pieces (b.Came fragments) e.fragments) {piece : List UInt8} (hj : b.pieces[j]? = some piece) :
    (s.pushNewest (b.fragment j piece)).1 = some b.pieces.flatten ∨
      b.Awaited (fragments ++ [b.fragment j piece]) (s.pushNewest (b.fragment j piece)).2 := by
  have hcame : b.Came (fragments ++ [b.fragment j piece]) j :=
    (came_fragment hj j).mpr (Or.inl rfl)
  have hgathered :=
    (hfragments.orInsert b.lt.le hj).congr fun i => (came_fragment hj i).symm
  obtain ⟨hwhole, hpart⟩ := pushNewest_fragment hs he hcount hj hcame hgathered
  by_cases hall : ∀ i < b.pieces.length, b.Came (fragments ++ [b.fragment j piece]) i
  · rw [hwhole hall]
    exact Or.inl rfl
  · rw [hpart hall]
    refine Or.inr ⟨?_, fun hnone => absurd hcame (hnone j), fun _ => ?_⟩
    · push Not at hall
      exact hall
    · exact ⟨hnewest, _, AList.lookup_insert _, hcount, hgathered⟩

theorem awaited_push (hs : OnlyNewest s) (h : b.Awaited fragments s)
    (hle : f.header.frameId ≤ b.frameId) (hhas : f.header.frameId = b.frameId → b.Has f) :
    (s.push f).1 = some b.pieces.flatten ∨ b.Awaited (fragments ++ [f]) (s.push f).2 := by
  rcases UInt32.lt_or_eq_of_le hle with hlt | heq
  · exact Or.inr (awaited_older h hlt)
  · obtain ⟨j, piece, hj, rfl⟩ := hhas heq
    by_cases hcame : ∃ i, b.Came fragments i
    · obtain ⟨hnewest, e, he, hcount, hfragments⟩ := h.pending hcame
      rw [push_of_eq (f := b.fragment j piece) hnewest]
      exact awaited_pushNewest hs hnewest (by rw [he]; rfl) hcount hfragments hj
    · rw [not_exists] at hcame
      have hnewer := h.older hcame
      have hempty := skip_newer hs hnewer
      rw [push_of_newer (f := b.fragment j piece) hnewer]
      refine awaited_pushNewest (e := ⟨b.count, ∅⟩) ⟨fun k hk => ?_⟩ rfl ?_ rfl
        (Gather.gathered_empty hcame) hj
      · rw [show (b.fragment j piece).header.frameId = b.frameId from rfl, hempty] at hk
        cases hk
      · show (AList.lookup b.frameId (s.skipIncompleteBefore b.frameId).pending).getD _ = _
        rw [hempty]
        rfl

/-- A fresh reassembler delivers a block all of whose fragments come before those
of a newer one. -/
theorem delivered_fresh (hnewest : b.Newest fragments)
    (hall : ∀ j < b.pieces.length, b.Came fragments j) :
    some b.pieces.flatten ∈ (fresh fragments).1 := by
  have hrun : ∀ fragments, b.Newest fragments → OnlyNewest (fresh fragments).2 ∧
      (some b.pieces.flatten ∈ (fresh fragments).1 ∨ b.Awaited fragments (fresh fragments).2) := by
    intro fragments
    induction fragments using List.reverseRecOn with
    | nil =>
      refine fun _ => ⟨onlyNewest_new, Or.inr ⟨⟨0, b.pos, ?_⟩, fun _ n hn => ?_, ?_⟩⟩
      · rintro ⟨piece, -, hmem⟩
        cases hmem
      · cases hn
      · rintro ⟨j, piece, -, hmem⟩
        cases hmem
    | append_singleton fragments f ih =>
      intro hnewest
      rw [fresh_append]
      obtain ⟨hle, hhas⟩ := hnewest f (by simp)
      obtain ⟨honly, hor⟩ := ih fun g hg => hnewest g (List.mem_append_left _ hg)
      refine ⟨onlyNewest_push honly f, ?_⟩
      rcases hor with hmem | hawaited
      · exact Or.inl (List.mem_append_left _ hmem)
      · rcases awaited_push honly hawaited hle hhas with hdata | hnext
        · exact Or.inl (by simp [feed, hdata])
        · exact Or.inr hnext
  refine (hrun fragments hnewest).2.resolve_right fun hawaited => ?_
  obtain ⟨j, hj, hmissing⟩ := hawaited.missing
  exact hmissing (hall j hj)

end AudioBlock
end MahoRD
