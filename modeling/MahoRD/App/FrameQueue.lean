/-
MahoRD/App/FrameQueue.lean

The bounded queue between reassembly and decoding (`FrameQueue` in
`maho-app/src/frame_queue.rs`).  A gap in the frame ids, an overflow or a failed
decode drops what depends on the missing frame; the queue then waits for a key
frame.

`recvTimeout` is the state of affairs when the wait ends.

The invariant `Inv` ties the queue to the frame it handed out last: the queue
is a chain of successive ids that starts with a key frame or right after that
frame.
-/
import MahoRD.App.FrameAssembler

namespace MahoRD

def frameQueueCapacity : ℕ := 4

/-- A frame and the instant it was received. -/
abbrev QueuedFrame := AssembledFrame × ℕ

inductive QueueError
  | stopped

inductive RecvTimeoutError
  | timeout | disconnected

structure FrameQueue where
  frames : List QueuedFrame
  lastFrameId : Option UInt32
  recovering : Bool
  stopped : Bool
  deriving DecidableEq

namespace FrameQueue

def new : FrameQueue := ⟨[], none, false, false⟩

/-- Ahead of the last id by a half ring or more, or not at all. -/
def late (last id : UInt32) : Bool := id - last == 0 || id - last ≥ serialHalfRange

/-- Admit a frame; `true` requests one key frame. -/
def push (q : FrameQueue) (frame : QueuedFrame) : Except QueueError Bool × FrameQueue :=
  if q.stopped then (.error .stopped, q)
  else
    let key := frame.1.header.isKeyFrame
    let id := frame.1.header.frameId
    if q.lastFrameId.any (late · id) then (.ok false, q)
    else
      let discontinuity := q.lastFrameId.any (id - · != 1)
      let overflow := discontinuity || q.frames.length == frameQueueCapacity
      let requestKeyframe := overflow && !q.recovering && !key
      -- dropping a reference invalidates the entire pending chain
      let frames := if overflow then [] else q.frames
      let recovering := overflow || q.recovering
      if recovering && !key then
        (.ok requestKeyframe, { q with frames, lastFrameId := some id, recovering })
      else
        (.ok requestKeyframe,
          { q with frames := frames ++ [frame], lastFrameId := some id, recovering := false })

def recvTimeout (q : FrameQueue) : Except RecvTimeoutError QueuedFrame × FrameQueue :=
  if q.stopped then (.error .disconnected, q)
  else
    match q.frames with
    | [] => (.error .timeout, q)
    | frame :: rest => (.ok frame, { q with frames := rest })

/-- Drop what depends on a frame that failed to decode; a queued key frame and
its successors stay. -/
def decodeFailed (q : FrameQueue) : Bool × FrameQueue :=
  if q.stopped then (false, q)
  else
    match q.frames.findIdx? (·.1.header.isKeyFrame) with
    | some key => (false, { q with frames := q.frames.drop key, recovering := false })
    | none => (!q.recovering, { q with frames := [], recovering := true })

def stop (q : FrameQueue) : FrameQueue := { q with stopped := true, frames := [] }

/-! ### What the operations leave alone -/

theorem stopped_push (q : FrameQueue) (frame : QueuedFrame) :
    (q.push frame).2.stopped = q.stopped := by
  simp only [push]
  split
  · rfl
  · split
    · rfl
    · split
      · rfl
      · rfl

variable {q q' : FrameQueue}

theorem recvTimeout_ok {frame : QueuedFrame}
    (h : q.recvTimeout = (.ok frame, q')) :
    q.stopped = false ∧ q.frames = frame :: q'.frames ∧ q' = { q with frames := q'.frames } := by
  unfold recvTimeout at h
  split at h
  · cases h
  next hstopped =>
    split at h
    · cases h
    next hframes =>
      cases h
      exact ⟨by simpa using hstopped, hframes, rfl⟩

theorem recvTimeout_error {e : RecvTimeoutError}
    (h : q.recvTimeout = (.error e, q')) : q' = q := by
  unfold recvTimeout at h
  split at h
  · cases h
    rfl
  · split at h
    · cases h
      rfl
    · cases h

theorem stopped_decodeFailed (q : FrameQueue) : q.decodeFailed.2.stopped = q.stopped := by
  unfold decodeFailed
  split
  · rfl
  · split
    · rfl
    · rfl

/-! ### Chains of frames -/

/-- `g` may be decoded right after `f`. -/
def Follows (f g : AssembledFrame) : Prop :=
  g.header.isKeyFrame = true ∨ g.header.frameId = f.header.frameId + 1

/-- The queue against the frames handed out so far, newest first. -/
structure Inv (q : FrameQueue) (delivered : List AssembledFrame) : Prop where
  recovering_empty : q.recovering = true → q.frames = []
  chain : (q.frames.map (·.1)).IsChain fun f g => g.header.frameId = f.header.frameId + 1
  last : ∀ g, q.frames.getLast? = some g → q.lastFrameId = some g.1.header.frameId
  idle : q.recovering = false → q.frames = [] → q.stopped = false →
    ∀ f, delivered.head? = some f → q.lastFrameId = some f.header.frameId
  head : ∀ g, q.frames.head? = some g → ∀ f, delivered.head? = some f → Follows f g.1
  delivered_chain : delivered.IsChain fun g f => Follows f g

theorem inv_new : Inv new [] where
  recovering_empty := by simp [new]
  chain := by simp [new]
  last := by simp [new]
  idle := by simp
  head := by simp [new]
  delivered_chain := List.IsChain.nil

theorem inv_stop {delivered : List AssembledFrame} (h : Inv q delivered) :
    Inv q.stop delivered where
  recovering_empty := fun _ => rfl
  chain := by simp [stop]
  last := by simp [stop]
  idle := by simp [stop]
  head := by simp [stop]
  delivered_chain := h.delivered_chain

theorem eq_succ_of_continuous {last id : UInt32} (h : (id - last != 1) = false) :
    id = last + 1 := by
  have hstep : id - last = 1 := by simpa using h
  calc id = id - last + last := (UInt32.sub_add_cancel id last).symm
    _ = last + 1 := by rw [hstep, UInt32.add_comm]

theorem inv_push {delivered : List AssembledFrame} (h : Inv q delivered)
    (frame : QueuedFrame) : Inv (q.push frame).2 delivered := by
  simp only [push]
  split
  · exact h
  next hstopped =>
    split
    · exact h
    · generalize hdisc : q.lastFrameId.any (frame.1.header.frameId - · != 1) = discontinuity
      by_cases hover : (discontinuity || q.frames.length == frameQueueCapacity) = true
      · -- the pending chain is dropped; only a key frame may start a new one
        simp only [hover, Bool.true_or, Bool.true_and, if_true, List.nil_append]
        split
        · exact ⟨fun _ => rfl, by simp, by simp, by simp, by simp, h.delivered_chain⟩
        next hkey =>
          refine ⟨by simp, by simp, by simp, by simp, ?_, h.delivered_chain⟩
          intro g hg f _
          obtain rfl := Option.some.inj hg
          exact Or.inl (by simpa using hkey)
      · rw [Bool.not_eq_true, Bool.or_eq_false_iff] at hover
        obtain ⟨rfl, hfull⟩ := hover
        simp only [hfull, Bool.or_self, Bool.false_or, Bool.false_eq_true, if_false]
        split
        next hrec =>
          obtain ⟨hrec, -⟩ := Bool.and_eq_true_iff.mp hrec
          have hempty := h.recovering_empty hrec
          exact ⟨fun _ => hempty, h.chain, by simp [hempty], by simp [hrec],
            h.head, h.delivered_chain⟩
        next hrec =>
          have hnext : ∀ id, q.lastFrameId = some id → frame.1.header.frameId = id + 1 := by
            intro id hid
            rw [hid, Option.any_some] at hdisc
            exact eq_succ_of_continuous hdisc
          refine ⟨by simp, ?_, by simp, by simp, ?_, h.delivered_chain⟩
          · rw [List.map_append, List.isChain_append]
            refine ⟨h.chain, by simp, ?_⟩
            intro f hf g hg
            obtain rfl : frame.1 = g := by simpa using hg
            rw [List.getLast?_map] at hf
            obtain ⟨f', hf', rfl⟩ := Option.map_eq_some_iff.mp hf
            exact hnext _ (h.last f' hf')
          · intro g hg f hf
            rcases hq : q.frames with - | ⟨first, rest⟩
            · obtain rfl : frame = g := by simpa [hq] using hg
              by_cases hr : q.recovering = true
              · exact Or.inl (by simpa [hr] using hrec)
              · exact Or.inr (hnext _ (h.idle (by simpa using hr) hq (by simpa using hstopped) f hf))
            · exact h.head g (by simpa [hq] using hg) f hf

theorem inv_recvTimeout {delivered : List AssembledFrame}
    (h : Inv q delivered) {frame : QueuedFrame} (hr : q.recvTimeout = (.ok frame, q')) :
    Inv q' (frame.1 :: delivered) := by
  obtain ⟨-, hq, heq⟩ := recvTimeout_ok hr
  rw [heq]
  have hchain := h.chain
  rw [hq, List.map_cons, List.isChain_cons] at hchain
  obtain ⟨hnext, hrest⟩ := hchain
  refine ⟨fun hrec => ?_, hrest, fun g hg => ?_, fun _ hempty _ f hf => ?_, ?_, ?_⟩
  · have := h.recovering_empty hrec
    simp [hq] at this
  · refine h.last g ?_
    rw [hq, List.getLast?_cons, hg]
    rfl
  · obtain rfl : frame.1 = f := by simpa using hf
    dsimp only at hempty
    exact h.last frame (by simp [hq, hempty])
  · intro g hg f hf
    obtain rfl : frame.1 = f := by simpa using hf
    refine Or.inr (hnext g.1 ?_)
    simpa using ⟨g.2, hg⟩
  · rw [List.isChain_cons]
    exact ⟨fun f hf => h.head frame (by simp [hq]) f hf, h.delivered_chain⟩

theorem inv_decodeFailed {delivered : List AssembledFrame}
    (h : Inv q delivered) : Inv q.decodeFailed.2 delivered := by
  unfold decodeFailed
  split
  · exact h
  · split
    next key hkey =>
      obtain ⟨hlt, hiskey, -⟩ := List.findIdx?_eq_some_iff_getElem.mp hkey
      have hne : q.frames.drop key ≠ [] := by simpa using hlt
      refine ⟨by simp, ?_, fun g hg => ?_, fun _ hempty => absurd hempty hne, ?_,
        h.delivered_chain⟩
      · simpa using h.chain.drop key
      · refine h.last g ?_
        rw [← hg, List.getLast?_drop]
        simp [Nat.not_le.mpr hlt]
      · intro g hg f _
        rw [List.head?_drop, List.getElem?_eq_getElem hlt] at hg
        obtain rfl := Option.some.inj hg
        exact Or.inl hiskey
    · exact ⟨fun _ => rfl, by simp, by simp, by simp, by simp, h.delivered_chain⟩

/-! ### What a queue holds -/

theorem mem_push {frame g : QueuedFrame} (h : g ∈ (q.push frame).2.frames) :
    g = frame ∨ g ∈ q.frames := by
  have hkept : ∀ {overflow : Bool}, g ∈ (if overflow then [] else q.frames) → g ∈ q.frames := by
    intro overflow hg
    cases overflow
    · exact hg
    · cases hg
  simp only [push] at h
  split at h
  · exact Or.inr h
  · split at h
    · exact Or.inr h
    · split at h
      · exact Or.inr (hkept h)
      · rcases List.mem_append.mp h with hold | hnew
        · exact Or.inr (hkept hold)
        · exact Or.inl (List.mem_singleton.mp hnew)

theorem mem_decodeFailed {g : QueuedFrame}
    (h : g ∈ q.decodeFailed.2.frames) : g ∈ q.frames := by
  unfold decodeFailed at h
  split at h
  · exact h
  · split at h
    · exact List.mem_of_mem_drop h
    · cases h

end FrameQueue
end MahoRD
