/-
MahoRD/App/PacketLoss.lean

The receiver's count of lost datagrams (`PacketLoss` in
`maho-app/src/receiver_stats.rs`).  The positions of the stream, up to the highest
sequence number seen, are pending for a while, in which a datagram that comes late
is still received; then they are final.  At most 4096 positions are pending, and
the counts of the final ones are kept for the last 4096 instants at which some
became final.

Instants are nanoseconds, counts are natural numbers that saturate where those of
the source do.  The receiver trace, which only observes, is left out.
-/
import Mathlib.Data.List.Basic
import Mathlib.Algebra.GroupWithZero.Nat

namespace MahoRD

/-- `RECEIVER_STATS_WINDOW`. -/
def receiverStatsWindow : ℕ := 5000000000

/-- `RECEIVER_REORDER_GRACE`. -/
def receiverReorderGrace : ℕ := 100000000

/-- `RECEIVER_TELEMETRY_CAPACITY`. -/
def receiverTelemetryCapacity : ℕ := 4096

/-- `u64::MAX`. -/
def maxCount : ℕ := 2 ^ 64 - 1

/-- `u64::saturating_add`. -/
def saturatingAdd (a b : ℕ) : ℕ := min (a + b) maxCount

/-- Serial-number order: is `sequence` after `previous`? -/
def ahead (sequence previous : UInt32) : Bool :=
  let delta := sequence - previous
  delta ≠ 0 ∧ delta < 2147483648

def inWindow (stamp now : ℕ) : Bool := stamp ≤ now ∧ now - stamp ≤ receiverStatsWindow

structure Position where
  received : Bool
  observedAt : ℕ

/-- `pending` ends at the highest sequence number.  An entry of `finalized` is an instant with the
numbers of positions that became final then, and of those among them that are missing. -/
structure PacketLoss where
  highest : Option UInt32
  pending : List Position
  finalized : List (ℕ × ℕ × ℕ)

namespace PacketLoss

/-- `PacketLoss::default()`. -/
def new : PacketLoss := ⟨none, [], []⟩

def recordFinalized (finalized : List (ℕ × ℕ × ℕ)) (stamp expected missing : ℕ) :
    List (ℕ × ℕ × ℕ) :=
  if expected = 0 then finalized
  else
    let room :=
      if finalized.length = receiverTelemetryCapacity then finalized.tail else finalized
    match finalized.getLast? with
    | some (lastAt, lastExpected, lastMissing) =>
      if lastAt = stamp then
        finalized.dropLast ++
          [(lastAt, saturatingAdd lastExpected expected, saturatingAdd lastMissing missing)]
      else room ++ [(stamp, expected, missing)]
    | none => room ++ [(stamp, expected, missing)]

/-- The loop of `finalize_due`: the positions at the front whose grace is over. -/
def finalizeFront (now : ℕ) :
    List Position → List (ℕ × ℕ × ℕ) → List Position × List (ℕ × ℕ × ℕ)
  | [], finalized => ([], finalized)
  | position :: rest, finalized =>
    if position.observedAt ≤ now ∧ receiverReorderGrace ≤ now - position.observedAt then
      finalizeFront now rest
        (recordFinalized finalized (position.observedAt + receiverReorderGrace) 1
          (if position.received then 0 else 1))
    else (position :: rest, finalized)

def finalizeDue (s : PacketLoss) (now : ℕ) : PacketLoss :=
  match finalizeFront now s.pending s.finalized with
  | (pending, finalized) => { s with pending, finalized }

def observe (s : PacketLoss) (sequence : UInt32) (now : ℕ) : PacketLoss :=
  let s := s.finalizeDue now
  match s.highest with
  | none => { s with highest := some sequence, pending := s.pending ++ [⟨true, now⟩] }
  | some highest =>
    if ¬ ahead sequence highest then
      let behind := (highest - sequence).toNat
      if behind < s.pending.length then
        { s with
          pending := s.pending.modify (s.pending.length - 1 - behind) ({ · with received := true }) }
      else s
    else
      let distance := (sequence - highest).toNat
      let overflow := s.pending.length + distance - receiverTelemetryCapacity
      let old := min overflow s.pending.length
      let missing := ((s.pending.take old).filter fun position => !position.received).length
      -- a huge gap is counted, not entered position by position
      let skipped := overflow - old
      let retained := distance - skipped
      { highest := some sequence
        pending := s.pending.drop old ++
          (List.range retained).map fun index => ⟨index + 1 = retained, now⟩
        finalized := recordFinalized s.finalized now overflow (missing + skipped) }

/-- The numbers of positions expected and missing, and the state after it. -/
def snapshot (s : PacketLoss) (now : ℕ) : (ℕ × ℕ) × PacketLoss :=
  let s := s.finalizeDue now
  let recent := s.finalized.filter fun entry => inWindow entry.1 now
  (recent.foldl (fun sum entry =>
      (saturatingAdd sum.1 entry.2.1, saturatingAdd sum.2 entry.2.2)) (0, 0), s)

end PacketLoss
end MahoRD
