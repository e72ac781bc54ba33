/-
MahoRD/Audio/Delivery.lean

A run of `send_audio` to a fresh reassembler, every datagram coming in and in
order.  The sender numbers the blocks modulo `2 ^ 32`; the reassembler compares
the ids as numbers, and drops the fragments of a block whose id is below the
newest one's.

So all blocks are delivered as long as their ids do not decrease
(`audio_delivered_iff`).  After the id `u32::MAX` nothing is delivered any more, but for
the blocks of that very id.
-/
import MahoRD.Audio.Rounds
import MahoRD.Host.AudioSender

namespace MahoRD.AudioSender

open AudioFragmentReassembler AudioBlock

/-! ### The run -/

/-- The fragments that come of the blocks, all of whose packets go out; with each block stand the
time stamps of its packets. -/
def sendAll : AudioSender → List (List UInt8 × (ℕ → UInt32)) → List AudioFragment
  | _, [] => []
  | s, (bytes, stamp) :: rest =>
    match s.sendAudio bytes fun i => some (stamp i) with
    | (_, s, out) => out.filterMap Packet.audio ++ sendAll s rest

/-- The blocks that are sent. -/
def sentBlocks (blocks : List (List UInt8 × (ℕ → UInt32))) : List (List UInt8) :=
  (blocks.map (·.1)).filter Sendable

/-- The ids of the blocks that are sent.  A block that is too large takes an id, too. -/
def sentIds : UInt32 → List (List UInt8 × (ℕ → UInt32)) → List UInt32
  | _, [] => []
  | last, (bytes, _) :: rest =>
    if bytes = [] then sentIds last rest
    else if Sendable bytes then (last + 1) :: sentIds (last + 1) rest
    else sentIds (last + 1) rest

/-! ### One block -/

/-- Between two blocks nothing is pending. -/
structure Between (newest : Option UInt32) (s : AudioFragmentReassembler) : Prop where
  pending : s.pending = ∅
  newest : s.newestFrameId = newest

variable {b : AudioBlock} {s : AudioFragmentReassembler}

theorem frameId_of_mem {f : AudioFragment} (h : f ∈ b.fragments) :
    f.header.frameId = b.frameId := by
  obtain ⟨e, -, rfl⟩ := List.mem_map.mp h
  rfl

theorem fst_of_mem_delivered {id : UInt32} {fragments : List AudioFragment}
    (hid : ∀ f ∈ fragments, f.header.frameId = id)
    {d : UInt32 × List UInt8} (h : d ∈ s.delivered fragments) : d.1 = id := by
  induction fragments generalizing s with
  | nil => cases h
  | cons f rest ih =>
    rw [delivered, List.mem_append] at h
    rcases h with h | h
    · obtain ⟨data, -, rfl⟩ := List.mem_map.mp h
      exact hid f List.mem_cons_self
    · exact ih (fun g hg => hid g (.tail _ hg)) h

theorem newest_pushes {id : UInt32} {fragments : List AudioFragment}
    (hid : ∀ f ∈ fragments, f.header.frameId = id) (hne : fragments ≠ []) (hle : ∀ n ∈ s.newestFrameId, n ≤ id) :
    (s.pushes fragments).newestFrameId = some id := by
  induction fragments generalizing s with
  | nil => exact absurd rfl hne
  | cons f rest ih =>
    have hf := hid f List.mem_cons_self
    have hnext : (s.push f).2.newestFrameId = some id := by
      rcases newest_push s f with hnew | ⟨-, n, hn, hlt⟩
      · exact hf ▸ hnew
      · exact absurd (UInt32.lt_of_lt_of_le (hf ▸ hlt) (hle n hn)) (UInt32.lt_irrefl _)
    rcases rest with - | ⟨g, rest⟩
    · exact hnext
    · refine ih (fun g hg => hid g (.tail _ hg)) (List.cons_ne_nil _ _) fun n hn => ?_
      rw [hnext] at hn
      cases hn
      exact UInt32.le_refl _

theorem Between.deliver {newest : Option UInt32}
    (h : Between newest s) (hle : ∀ n ∈ newest, n ≤ b.frameId) :
    s.delivered b.fragments = [(b.frameId, b.pieces.flatten)] ∧
      Between (some b.frameId) (s.pushes b.fragments) := by
  have hduring : b.During [] s := by
    refine ⟨⟨fun id hid => ?_⟩, fun _ => ⟨h.newest ▸ hle, ?_⟩, fun hne => absurd rfl hne⟩
    · rw [h.pending] at hid
      cases hid
    · rw [h.pending]
      rfl
  obtain ⟨hdelivered, hafter⟩ := delivered_during hduring b.newest_fragments
  rw [indices_fragments, (rounds_range b).1] at hdelivered
  rw [indices_fragments, (rounds_range b).2] at hafter
  have hne : b.fragments ≠ [] := by
    intro heq
    have hlen := congrArg List.length heq
    rw [fragments, List.length_map, List.length_zipIdx] at hlen
    exact absurd b.pos (by rw [hlen]; decide)
  have hnewest := newest_pushes (fun f hf => frameId_of_mem hf) hne (h.newest ▸ hle)
  refine ⟨?_, ?_, hnewest⟩
  · rw [List.filter_eq_self.mpr fun d hd => decide_eq_true
      (fst_of_mem_delivered (fun f hf => frameId_of_mem hf) hd)] at hdelivered
    exact hdelivered
  · refine Table.eq_empty fun id hid => ?_
    obtain rfl := Option.some.inj ((hafter.onlyNewest.pending id hid).symm.trans hnewest)
    exact Table.notMem_of_lookup (hafter.free rfl).2 hid

theorem Between.drop {n : UInt32} (h : Between (some n) s) (hlt : b.frameId < n) :
    s.delivered b.fragments = [] ∧ s.pushes b.fragments = s := by
  have hall : ∀ fragments : List AudioFragment, (∀ f ∈ fragments, f.header.frameId = b.frameId) →
      s.delivered fragments = [] ∧ s.pushes fragments = s := by
    intro fragments
    induction fragments with
    | nil => exact fun _ => ⟨rfl, rfl⟩
    | cons f rest ih =>
      intro hid
      have hpush := push_of_older h.newest (hid f List.mem_cons_self ▸ hlt)
      obtain ⟨hnone, hsame⟩ := ih fun g hg => hid g (.tail _ hg)
      rw [delivered, pushes, List.foldl_cons, hpush]
      exact ⟨hnone, hsame⟩
  exact hall _ fun f hf => frameId_of_mem hf

/-! ### The run -/

theorem sendAll_cons (s : AudioSender) (bytes : List UInt8) (stamp : ℕ → UInt32)
    (rest : List (List UInt8 × (ℕ → UInt32))) :
    ∃ s' : AudioSender,
      (∀ h : Sendable bytes,
        s'.audioFrameId = s.audioFrameId + 1 ∧
        sendAll s ((bytes, stamp) :: rest) =
          (block (s.audioFrameId + 1) bytes h).fragments ++ sendAll s' rest ∧
        sentIds s.audioFrameId ((bytes, stamp) :: rest) =
          (s.audioFrameId + 1) :: sentIds s'.audioFrameId rest) ∧
      (¬ Sendable bytes → sendAll s ((bytes, stamp) :: rest) = sendAll s' rest ∧
        sentIds s.audioFrameId ((bytes, stamp) :: rest) = sentIds s'.audioFrameId rest) := by
  refine ⟨(s.sendAudio bytes fun i => some (stamp i)).2.1, fun h => ?_, fun h => ?_⟩
  · obtain ⟨udp, out, hsent, hout⟩ := s.sendAudio_sent h stamp
    rw [sendAll, hsent, sentIds, if_neg h.1, if_pos h]
    exact ⟨rfl, congrArg (· ++ _) hout, rfl⟩
  · obtain ⟨hout, hs⟩ := s.sendAudio_not_sent h fun i => some (stamp i)
    rcases hr : s.sendAudio bytes fun i => some (stamp i) with ⟨r, s', out⟩
    rw [hr] at hout hs
    dsimp only at hout hs
    rw [sendAll, hr, sentIds, if_neg h, hout, hs]
    refine ⟨rfl, ?_⟩
    split
    · rfl
    · rfl

theorem delivered_iff_of_between {newest : Option UInt32}
    (h : Between newest s) (sender : AudioSender) (blocks : List (List UInt8 × (ℕ → UInt32))) :
    ((s.delivered (sendAll sender blocks)).map (·.2)).length ≤ (sentBlocks blocks).length ∧
      ((s.delivered (sendAll sender blocks)).map (·.2) = sentBlocks blocks ↔
        (∀ n ∈ newest, ∀ id ∈ sentIds sender.audioFrameId blocks, n ≤ id) ∧
          (sentIds sender.audioFrameId blocks).Pairwise (· ≤ ·)) := by
  induction blocks generalizing s newest sender with
  | nil => exact ⟨Nat.le_refl _, fun _ => ⟨fun n _ => nofun, List.Pairwise.nil⟩,
      fun _ => rfl⟩
  | cons first rest ih =>
    obtain ⟨bytes, stamp⟩ := first
    obtain ⟨sender', hsent, hnot⟩ := sendAll_cons sender bytes stamp rest
    by_cases hb : Sendable bytes
    · obtain ⟨hid, hall, hids⟩ := hsent hb
      have hblocks : sentBlocks ((bytes, stamp) :: rest) = bytes :: sentBlocks rest :=
        List.filter_cons_of_pos (by simpa using hb)
      rw [hall, hids, hblocks, delivered_append, List.map_append]
      by_cases hle : ∀ n ∈ newest, n ≤ sender.audioFrameId + 1
      · obtain ⟨hdelivered, hnext⟩ := h.deliver (b := block (sender.audioFrameId + 1) bytes hb) hle
        obtain ⟨hlen, hiff⟩ := ih hnext sender'
        rw [hdelivered, List.map_singleton, List.singleton_append, flatten_block]
        refine ⟨Nat.succ_le_succ hlen, ?_⟩
        rw [List.cons.injEq, eq_self, true_and, hiff, List.pairwise_cons]
        constructor
        · rintro ⟨hall', hpair⟩
          have hfirst := hall' _ rfl
          refine ⟨fun n hn id hmem => ?_, hfirst, hpair⟩
          rcases List.mem_cons.mp hmem with rfl | hmem
          · exact hle n hn
          · exact UInt32.le_trans (hle n hn) (hfirst id hmem)
        · rintro ⟨-, hfirst, hpair⟩
          refine ⟨fun n hn id hmem => ?_, hpair⟩
          obtain rfl := Option.some.inj hn
          exact hfirst id hmem
      · -- the first block is lost
        push Not at hle
        obtain ⟨n, hn, hlt⟩ := hle
        obtain rfl : newest = some n := hn
        obtain ⟨hdelivered, hsame⟩ := h.drop (b := block (sender.audioFrameId + 1) bytes hb)
          (UInt32.not_le.mp hlt)
        obtain ⟨hlen, -⟩ := ih h sender'
        rw [hdelivered, hsame, List.map_nil, List.nil_append]
        refine ⟨hlen.trans (Nat.le_succ _), fun heq => ?_, fun hpair => ?_⟩
        · rw [heq] at hlen
          exact absurd hlen (Nat.not_succ_le_self _)
        · exact absurd (hpair.1 n rfl _ List.mem_cons_self) hlt
    · obtain ⟨hall, hids⟩ := hnot hb
      have hblocks : sentBlocks ((bytes, stamp) :: rest) = sentBlocks rest :=
        List.filter_cons_of_neg (by simpa using hb)
      rw [hall, hids, hblocks]
      exact ih h sender'

/-- **Every block is delivered iff the ids of the blocks sent do not decrease.** -/
theorem audio_delivered_iff (sender : AudioSender) (blocks : List (List UInt8 × (ℕ → UInt32))) :
    (new.delivered (sendAll sender blocks)).map (·.2) = sentBlocks blocks ↔
      (sentIds sender.audioFrameId blocks).Pairwise (· ≤ ·) := by
  have hnew : Between none new := ⟨rfl, rfl⟩
  rw [(delivered_iff_of_between hnew sender blocks).2]
  exact and_iff_right nofun

/-- Over the wrap: the block of id 0 is lost, and so is the one after it. -/
theorem lost_at_wrap :
    sentIds 4294967294 [([1], fun _ => 0), ([2], fun _ => 0), ([3], fun _ => 0)] =
        [4294967295, 0, 1] ∧
      sentBlocks [([1], fun _ => 0), ([2], fun _ => 0), ([3], fun _ => 0)] = [[1], [2], [3]] ∧
      (new.delivered (sendAll ⟨.new, 4294967294⟩
        [([1], fun _ => 0), ([2], fun _ => 0), ([3], fun _ => 0)])).map (·.2) = [[1]] ∧
      (new.delivered (sendAll ⟨.new, 4294967294⟩
        [([1], fun _ => 0), ([2], fun _ => 0), ([3], fun _ => 0)])).map (·.2) ≠
        sentBlocks [([1], fun _ => 0), ([2], fun _ => 0), ([3], fun _ => 0)] :=
  ⟨by decide, by decide, by decide, by decide⟩

end MahoRD.AudioSender
