/-
MahoRD/Audio/Reassembly.lean

The blocks of `send_audio` at the client, whose fragments come in any order and
any number of times, and what the client holds of fragments that anybody sent.

A block is delivered when its last missing fragment has come.  The reassembler
does not remember the blocks it has delivered: if all of the fragments come again
before those of a newer block, the block is delivered again.  Datagrams that come
twice are the business of the cipher's replay window.
-/
import MahoRD.Audio.Rounds
import MahoRD.Host.AudioSender

namespace MahoRD

/-! ### What is held -/

/-- A block that is pending is not complete, and its fragments keep to the format. -/
structure PendingAudioFrame.Within (e : PendingAudioFrame) : Prop where
  size : e.fragments.size < e.fragmentCount.toNat
  index : ∀ index data, e.fragments.lookup index = some data → index < e.fragmentCount
  data : ∀ index data, e.fragments.lookup index = some data → data.length ≤ maxAudioFragmentBytes

/-- The bytes of all fragments that are pending. -/
def AudioFragmentReassembler.heldBytes (s : AudioFragmentReassembler) : ℕ :=
  Table.total (fun e => Table.total List.length e.fragments) s.pending

namespace AudioFragmentReassembler

variable {s : AudioFragmentReassembler} {f : AudioFragment}

/-- At most one block is pending, the newest one, and it is within the format. -/
structure Bounded (s : AudioFragmentReassembler) : Prop where
  onlyNewest : OnlyNewest s
  within : ∀ id e, s.pending.lookup id = some e → e.Within

theorem bounded_new : Bounded new where
  onlyNewest := onlyNewest_new
  within id e h := by cases h

/-- A fragment that keeps to the format. -/
structure Formed (f : AudioFragment) : Prop where
  index : f.header.fragmentIndex < f.header.fragmentCount
  data : f.data.length ≤ maxAudioFragmentBytes

theorem formed_of_decode {payload : List UInt8} (h : AudioFragment.decode payload = .ok f) :
    Formed f := by
  have hencode := AudioFragment.decode_eq_ok.mp h
  simp only [AudioFragment.encode, AudioFragment.validate, Parse.except_bind_eq_ok] at hencode
  obtain ⟨⟨⟩, ⟨⟨⟩, hheader, hdata⟩, -⟩ := hencode
  refine ⟨?_, ?_⟩
  · rw [AudioFragmentHeader.validate] at hheader
    split at hheader
    · cases hheader
    · split at hheader
      · cases hheader
      next hindex => exact UInt16.not_le.mp hindex
  · split at hdata
    · cases hdata
    next hlen => exact Nat.not_lt.mp hlen

theorem count_pos (hf : Formed f) : 0 < f.header.fragmentCount.toNat :=
  Nat.zero_lt_of_lt (UInt16.lt_iff_toNat_lt.mp hf.index)

theorem Bounded.erase (h : Bounded s) (id : UInt32) (n : ℕ) :
    Bounded { s with pending := s.pending.erase id, skippedFrames := n } where
  onlyNewest := h.onlyNewest.of_sub rfl fun _ hk => (AList.mem_erase.mp hk).2
  within id' e he := h.within id' e (Table.lookup_erase_eq_some.mp he).2

theorem Bounded.pushNewest (h : Bounded s) (hf : Formed f)
    (hnewest : s.newestFrameId = some f.header.frameId) : Bounded (s.pushNewest f).2 := by
  have honly := onlyNewest_pushNewest h.onlyNewest hnewest
  have hwithin : ((s.pending.lookup f.header.frameId).getD
      ⟨f.header.fragmentCount, ∅⟩).Within := by
    rcases hl : s.pending.lookup f.header.frameId with - | e
    · exact ⟨count_pos hf, nofun, nofun⟩
    · exact h.within _ e hl
  unfold AudioFragmentReassembler.pushNewest at honly ⊢
  dsimp only at honly ⊢
  generalize (s.pending.lookup f.header.frameId).getD ⟨f.header.fragmentCount, ∅⟩ = e
    at honly hwithin ⊢
  split
  · exact h.erase _ _
  next hone =>
    split
    · exact h.erase _ _
    next hsame =>
      rw [not_not] at hsame
      split
      · exact h.erase _ _
      next hmissing =>
        rw [if_neg hone, if_neg (not_not.mpr hsame), if_neg hmissing,
          h.onlyNewest.dropOldest_insert] at honly
        rw [h.onlyNewest.dropOldest_insert]
        refine ⟨honly, fun id e' he' => ?_⟩
        rw [Table.lookup_insert] at he'
        split at he'
        · obtain rfl := Option.some.inj he'
          refine ⟨?_, fun index data hdata => ?_, fun index data hdata => ?_⟩
          · exact Nat.lt_of_le_of_ne ((Table.size_orInsert_le _ _ _).trans hwithin.size) hmissing
          · rcases Table.lookup_orInsert_eq_some hdata with hold | ⟨rfl, -⟩
            · exact hwithin.index index data hold
            · exact hsame ▸ hf.index
          · rcases Table.lookup_orInsert_eq_some hdata with hold | ⟨-, rfl⟩
            · exact hwithin.data index data hold
            · exact hf.data
        · exact h.within id e' he'

theorem Bounded.push (h : Bounded s) (hf : Formed f) : Bounded (s.push f).2 := by
  rcases push_cases s f with hnewer | heq | ⟨n, hn, hlt⟩
  · rw [push_of_newer hnewer]
    have hempty := skip_newer h.onlyNewest hnewer
    refine Bounded.pushNewest ⟨⟨fun id hid => ?_⟩, fun id e he => ?_⟩ hf rfl
    · rw [hempty] at hid
      cases hid
    · rw [hempty] at he
      cases he
  · rw [push_of_eq heq]
    exact h.pushNewest hf heq
  · rw [push_of_older hn hlt]
    exact h

theorem Bounded.pushes (h : Bounded s) {fragments : List AudioFragment}
    (hf : ∀ f ∈ fragments, Formed f) : Bounded (s.pushes fragments) := by
  induction fragments generalizing s with
  | nil => exact h
  | cons f rest ih =>
    exact ih (h.push (hf f List.mem_cons_self)) fun g hg => hf g (List.mem_cons_of_mem _ hg)

theorem Bounded.heldBytes_le (h : Bounded s) :
    s.heldBytes ≤ (2 ^ 16 - 2) * maxAudioFragmentBytes := by
  have htotal := Table.total_le (fun e => Table.total List.length e.fragments) s.pending
    ((2 ^ 16 - 2) * maxAudioFragmentBytes) fun id e he => by
      have hwithin := h.within id e he
      have hlt := e.fragmentCount.toNat_lt
      have hsize := hwithin.size
      refine (Table.total_le List.length e.fragments _ hwithin.data).trans ?_
      exact Nat.mul_le_mul_right _ (by omega)
  exact htotal.trans ((Nat.mul_le_mul_right _ h.onlyNewest.size_le).trans_eq (Nat.one_mul _))

/-- The datagrams' payloads one after another; those that do not decode are passed over. -/
def receive (s : AudioFragmentReassembler) (payloads : List (List UInt8)) :
    AudioFragmentReassembler :=
  s.pushes (payloads.filterMap fun payload => (AudioFragment.decode payload).toOption)

theorem Bounded.receive (h : Bounded s) (payloads : List (List UInt8)) :
    Bounded (s.receive payloads) := by
  refine h.pushes fun f hf => ?_
  obtain ⟨payload, -, hdecode⟩ := List.mem_filterMap.mp hf
  rcases hd : AudioFragment.decode payload with e | f'
  · rw [hd] at hdecode
    cases hdecode
  · rw [hd] at hdecode
    cases hdecode
    exact formed_of_decode hd

end AudioFragmentReassembler

/-! ### What is delivered -/

namespace AudioBlock

open AudioFragmentReassembler

/-- The block is delivered whenever all of its fragments have come, and nothing else under its
id. -/
structure Reassembles (b : AudioBlock) : Prop where
  delivered : ∀ early late, b.Newest early →
    (∀ f ∈ late.head?, b.frameId < f.header.frameId) →
    ((new.delivered (early ++ late)).filter fun d => d.1 = b.frameId) =
      List.replicate (b.rounds [] (b.indices early)) (b.frameId, b.pieces.flatten)
  incomplete : ∀ js, ¬ b.Whole js → b.rounds [] js = 0
  complete : ∀ init j rest, ¬ b.Whole init → b.Whole (init ++ [j]) →
    b.rounds [] (init ++ j :: rest) = b.rounds [] rest + 1

theorem during_new (b : AudioBlock) : b.During [] new where
  onlyNewest := onlyNewest_new
  free _ := ⟨nofun, rfl⟩
  held h := absurd rfl h

theorem reassembles (b : AudioBlock) : b.Reassembles where
  delivered early late hnewest hlate := by
    obtain ⟨hearly, -⟩ := delivered_during b.during_new hnewest
    rw [delivered_append, List.filter_append, hearly]
    cases late with
    | nil => exact List.append_nil _
    | cons f rest => rw [delivered_newer _ (hlate f rfl), List.append_nil]
  incomplete js h := rounds_eq_zero (by rwa [List.append_nil])
  complete init j rest hpart hwhole := (rounds_whole (by rwa [List.append_nil]) hwhole).1

end AudioBlock

namespace AudioSender

open AudioFragmentReassembler

/-- **A block of `send_audio` is delivered** when all of its fragments have come, in any order and
number, before those of a newer block; again only when all of them have come again.  Whatever
datagrams come, at most one incomplete block is held, and that within the format. -/
theorem audio_reassembly :
    (∀ (s : AudioSender) (bytes : List UInt8) (h : Sendable bytes) (stamp : ℕ → UInt32),
      (s.sendAudio bytes fun i => some (stamp i)).2.2.filterMap Packet.audio =
          (block (s.audioFrameId + 1) bytes h).fragments ∧
        (block (s.audioFrameId + 1) bytes h).Reassembles ∧
        (block (s.audioFrameId + 1) bytes h).pieces.flatten = bytes) ∧
    ∀ payloads, Bounded (new.receive payloads) ∧ (new.receive payloads).pending.size ≤ 1 ∧
      (new.receive payloads).heldBytes ≤ (2 ^ 16 - 2) * maxAudioFragmentBytes := by
  refine ⟨fun s bytes h stamp => ⟨?_, AudioBlock.reassembles _, flatten_block _ h⟩,
    fun payloads => ?_⟩
  · obtain ⟨udp, out, hsent, hout⟩ := s.sendAudio_sent h stamp
    rw [hsent]
    exact hout
  · have hbounded := bounded_new.receive payloads
    exact ⟨hbounded, hbounded.onlyNewest.size_le, hbounded.heldBytes_le⟩

/-- A block of one fragment that comes twice is delivered twice. -/
theorem delivered_twice :
    ∃ h : Sendable [7], (block 1 [7] h).fragments = [⟨⟨1, 0, 1⟩, [7]⟩] ∧
      new.delivered [⟨⟨1, 0, 1⟩, [7]⟩, ⟨⟨1, 0, 1⟩, [7]⟩] = [(1, [7]), (1, [7])] :=
  ⟨by decide, by decide, by decide⟩

end AudioSender
end MahoRD
