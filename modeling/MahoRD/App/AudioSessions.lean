/-
MahoRD/App/AudioSessions.lean

Audio over the sessions of one client.  The reassembler is part of the client's
state and outlives the session: `disconnect` and `SessionEnded` clear it,
`connect_with_psk` does not.  The host numbers the audio of each session from
one.

A step is one critical section; they may come in any order.
-/
import MahoRD.App.ClientState
import MahoRD.Lib.Machine

namespace MahoRD.AudioSessions

inductive Section
  | connecting
  | entered (next : SessionState)
  | handshaking (trust : PairingTrust)
  | granted (trust : PairingTrust)
  | ready (guest : Bool)
  | dropped
  | disconnect
  | sessionEnded (reason : SessionEndReason)
  | setPermissions (permissions : GuestPermissions)
  | audio (fragment : AudioFragment)

/-- The client's state, with the fragments that the reassembler was given since
the session began (or was ended), and what came of each. -/
structure State where
  client : ClientState
  given : List AudioFragment
  out : List (Option (List UInt8))

def init : State := ⟨.new, [], []⟩

/-- Does the fragment get to the reassembler? -/
def taken (s : ClientState) : Bool := s.state == .ready && !s.audioDenied

/-- The audio that a packet led to. -/
def audioOf : Except Client.SessionError MediaEvent → Option (List UInt8)
  | .ok (.audio data) => some data
  | _ => none

def step (x : State) : Section → Option State
  | .connecting => some { x with client := x.client.connecting }
  | .entered next => some { x with client := x.client.entered next }
  | .handshaking trust => some { x with client := x.client.handshaking trust }
  | .granted trust => some { x with client := x.client.granted trust }
  -- a new session begins
  | .ready guest => some ⟨x.client.ready guest, [], []⟩
  | .dropped => some { x with client := x.client.dropped }
  | .disconnect => some ⟨x.client.disconnect, [], []⟩
  | .sessionEnded reason => some ⟨x.client.sessionEnded reason, [], []⟩
  | .setPermissions permissions => some { x with client := x.client.setPermissions permissions }
  | .audio fragment =>
    match x.client.handleAudio fragment with
    | (event, client) =>
      if taken x.client then
        some ⟨client, x.given ++ [fragment], x.out ++ [audioOf event]⟩
      else some { x with client }

/-! ### The condition -/

/-- The first fragment of a session is of a newer block than the newest one that
the sessions before it have left, or nothing is left of that block. -/
def FirstNewer (x : State) : Section → Prop
  | .audio fragment => taken x.client → x.given = [] → x.client.audio.Clean fragment
  | _ => True

instance (x : State) (a : Section) : Decidable (FirstNewer x a) :=
  match a with
  | .audio fragment =>
    inferInstanceAs (Decidable (taken x.client → x.given = [] → x.client.audio.Clean fragment))
  | .connecting | .entered _ | .handshaking _ | .granted _ | .ready _ | .dropped | .disconnect
  | .sessionEnded _ | .setPermissions _ => isTrue trivial

/-- The session has got what it would have got of a fresh reassembler; a block
all of whose fragments have come is among it. -/
structure AsFresh (x : State) : Prop where
  out : x.out = (AudioFragmentReassembler.fresh x.given).1
  delivered : ∀ b : AudioBlock, b.Newest x.given → (∀ j < b.pieces.length, b.Came x.given j) →
    some b.pieces.flatten ∈ x.out

structure Inv (x : State) : Prop where
  onlyNewest : x.client.audio.OnlyNewest
  out : x.out = (AudioFragmentReassembler.fresh x.given).1
  same : x.given ≠ [] → x.client.audio.Same (AudioFragmentReassembler.fresh x.given).2

theorem inv_init : Inv init where
  onlyNewest := AudioFragmentReassembler.onlyNewest_new
  out := rfl
  same h := absurd rfl h

variable {x : State}

theorem Inv.of_eq (h : Inv x) {client : ClientState}
    (ha : client.audio = x.client.audio) : Inv { x with client } :=
  ⟨ha ▸ h.onlyNewest, h.out, fun hne => ha ▸ h.same hne⟩

theorem Inv.restart {client : ClientState} (h : client.audio.OnlyNewest) : Inv ⟨client, [], []⟩ :=
  ⟨h, rfl, fun hne => absurd rfl hne⟩

theorem handleAudio_taken {s : ClientState} (h : taken s) (fragment : AudioFragment) :
    (s.handleAudio fragment).2.audio = (s.audio.push fragment).2 ∧
      audioOf (s.handleAudio fragment).1 = (s.audio.push fragment).1 := by
  obtain ⟨hready, hallowed⟩ := Bool.and_eq_true_iff.mp h
  unfold ClientState.handleAudio
  rw [if_neg (not_not.mpr (beq_iff_eq.mp hready)), if_neg (by simpa using hallowed)]
  rcases s.audio.push fragment with ⟨- | data, audio⟩
  · exact ⟨rfl, rfl⟩
  · exact ⟨rfl, rfl⟩

theorem handleAudio_not_taken {s : ClientState} (h : taken s = false) (fragment : AudioFragment) :
    (s.handleAudio fragment).2 = s := by
  unfold ClientState.handleAudio
  split
  · rfl
  next hready =>
    split
    · rfl
    next hallowed =>
      rw [not_not] at hready
      simp [taken, hready, hallowed] at h

theorem inv_audio (h : Inv x) {fragment : AudioFragment} (ht : taken x.client)
    (hc : x.given = [] → x.client.audio.Clean fragment) :
    Inv ⟨(x.client.handleAudio fragment).2, x.given ++ [fragment],
      x.out ++ [audioOf (x.client.handleAudio fragment).1]⟩ := by
  obtain ⟨haudio, hdata⟩ := handleAudio_taken ht fragment
  have hlike : AudioFragmentReassembler.SameResult (x.client.audio.push fragment)
      ((AudioFragmentReassembler.fresh x.given).2.push fragment) := by
    by_cases hfirst : x.given = []
    · rw [hfirst]
      exact AudioFragmentReassembler.sameResult_of_clean h.onlyNewest (hc hfirst)
    · exact AudioFragmentReassembler.same_push (h.same hfirst) fragment
  refine ⟨?_, ?_, fun _ => ?_⟩
  · show (x.client.handleAudio fragment).2.audio.OnlyNewest
    rw [haudio]
    exact AudioFragmentReassembler.onlyNewest_push h.onlyNewest fragment
  · show x.out ++ _ = (AudioFragmentReassembler.fresh (x.given ++ [fragment])).1
    rw [AudioFragmentReassembler.fresh_append, AudioFragmentReassembler.feed, ← h.out, hdata,
      hlike.data]
  · show (x.client.handleAudio fragment).2.audio.Same
      (AudioFragmentReassembler.fresh (x.given ++ [fragment])).2
    rw [haudio, AudioFragmentReassembler.fresh_append]
    exact hlike.same

theorem inv_step {x' : State} {a : Section} (h : Inv x) (hc : FirstNewer x a)
    (hs : step x a = some x') : Inv x' := by
  cases a with
  | audio fragment =>
    simp only [step] at hs
    split at hs
    next ht =>
      cases hs
      exact inv_audio h ht (hc ht)
    next ht =>
      cases hs
      exact h.of_eq (by rw [handleAudio_not_taken (by simpa using ht)])
  | ready guest =>
    cases hs
    exact Inv.restart h.onlyNewest
  | disconnect =>
    cases hs
    exact Inv.restart (AudioFragmentReassembler.onlyNewest_clear _)
  | sessionEnded reason =>
    cases hs
    exact Inv.restart (AudioFragmentReassembler.onlyNewest_clear _)
  | connecting =>
    cases hs
    exact h.of_eq rfl
  | entered next =>
    cases hs
    exact h.of_eq rfl
  | handshaking trust =>
    cases hs
    exact h.of_eq rfl
  | granted trust =>
    cases hs
    exact h.of_eq rfl
  | dropped =>
    cases hs
    exact h.of_eq rfl
  | setPermissions permissions =>
    cases hs
    exact h.of_eq rfl

/-- **Every session has a fresh reassembler** after any sequence of sections in
which the first audio fragment of every session is of a newer block than those
the sessions before it have left. -/
theorem audio_as_fresh (sections : List Section) {x : State}
    (hc : Machine.Along step FirstNewer init sections)
    (h : Machine.run step init sections = some x) : AsFresh x := by
  have hx := Machine.run_inv_along inv_step inv_init hc h
  exact ⟨hx.out, fun b hnewest hall => hx.out ▸ AudioBlock.delivered_fresh hnewest hall⟩

/-- Two blocks, a session that ends with `disconnect`, and the first block of the
next one. -/
theorem audio_as_fresh_disconnect :
    ∃ x, Machine.run step init
        [.connecting, .entered .awaitingHandshakeAck, .handshaking .owner, .ready false,
          .audio ⟨⟨1, 0, 1⟩, [1]⟩, .audio ⟨⟨2, 0, 1⟩, [2]⟩, .disconnect,
          .connecting, .entered .awaitingHandshakeAck, .handshaking .owner, .ready false,
          .audio ⟨⟨1, 0, 1⟩, [3]⟩] = some x ∧ x.out = [some [3]] ∧ AsFresh x :=
  ⟨_, rfl, rfl, audio_as_fresh
    [.connecting, .entered .awaitingHandshakeAck, .handshaking .owner, .ready false,
      .audio ⟨⟨1, 0, 1⟩, [1]⟩, .audio ⟨⟨2, 0, 1⟩, [2]⟩, .disconnect,
      .connecting, .entered .awaitingHandshakeAck, .handshaking .owner, .ready false,
      .audio ⟨⟨1, 0, 1⟩, [3]⟩] (by decide) rfl⟩

/-- The same with a connection that breaks and a reconnect: the first block of
the new session is dropped, since the old one had got to the second. -/
theorem audio_lost_on_reconnect :
    ∃ x, Machine.run step init
        [.connecting, .entered .awaitingHandshakeAck, .handshaking .owner, .ready false,
          .audio ⟨⟨1, 0, 1⟩, [1]⟩, .audio ⟨⟨2, 0, 1⟩, [2]⟩, .dropped,
          .connecting, .entered .awaitingHandshakeAck, .handshaking .owner, .ready false,
          .audio ⟨⟨1, 0, 1⟩, [3]⟩] = some x ∧
      x.given = [⟨⟨1, 0, 1⟩, [3]⟩] ∧ x.out = [none] ∧
      (AudioFragmentReassembler.fresh x.given).1 = [some [3]] ∧ ¬ AsFresh x := by
  refine ⟨_, rfl, rfl, rfl, rfl, fun h => ?_⟩
  have hout := h.out
  revert hout
  decide

end MahoRD.AudioSessions
