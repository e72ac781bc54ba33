/-
MahoRD/App/LossPositions.lean

What the counts of lost datagrams are.  `Stream` is the stream position by
position, from the first datagram seen to the highest: each position knows
whether its datagram was received before it became final, and when that was.
Nothing is dropped from it and no count is kept.

`PacketLoss` keeps the pending positions and, for the last 4096 instants at
which positions became final, how many did and how many of these are missing.
`Shows` relates the two, and `snapshot_counts` reads the counts off the
positions:

    expected = the positions that became final in the last five seconds, at one
               of the last 4096 such instants
    missing  = those among them that were not received
-/
import MahoRD.App.PacketLoss
import Mathlib.Algebra.BigOperators.Group.List.Basic
import Mathlib.Data.List.Dedup
import Mathlib.Data.List.Pairwise

namespace MahoRD

/-! ### The stream, position by position -/

/-- A position of the stream; `final` is the instant at which it became final. -/
structure Place extends Position where
  final : Option ℕ

namespace Place

def finalize (p : Place) (stamp : ℕ) : Place :=
  if p.final = none then { p with final := some stamp } else p

/-- A pending position becomes final once its grace is over. -/
def settle (now : ℕ) (p : Place) : Place :=
  if p.observedAt + receiverReorderGrace ≤ now then
    p.finalize (p.observedAt + receiverReorderGrace)
  else p

/-- A datagram of this position arrives. -/
def receive (p : Place) : Place := if p.final = none then { p with received := true } else p

end Place

def settled (e : Position × ℕ) : Place := ⟨e.1, some e.2⟩

def waiting (p : Position) : Place := ⟨p, none⟩

/-- The positions up to a datagram that is `distance` ahead: only its own is received. -/
def arrivals (distance now : ℕ) : List Position :=
  List.replicate (distance - 1) ⟨false, now⟩ ++ [⟨true, now⟩]

/-- The positions so far, the last one that of `highest`. -/
structure Stream where
  highest : Option UInt32
  places : List Place

namespace Stream

def new : Stream := ⟨none, []⟩

def settle (s : Stream) (now : ℕ) : Stream := { s with places := s.places.map (Place.settle now) }

/-- All but the last 4096 positions are final from now on. -/
def cut (now : ℕ) (places : List Place) : List Place :=
  let old := places.length - receiverTelemetryCapacity
  (places.take old).map (·.finalize now) ++ places.drop old

def observe (s : Stream) (sequence : UInt32) (now : ℕ) : Stream :=
  let s := s.settle now
  match s.highest with
  | none => ⟨some sequence, s.places ++ [waiting ⟨true, now⟩]⟩
  | some highest =>
    if ahead sequence highest then
      let distance := (sequence - highest).toNat
      ⟨some sequence, cut now (s.places ++ (arrivals distance now).map waiting)⟩
    else
      let behind := (highest - sequence).toNat
      if behind < s.places.length then
        { s with places := s.places.modify (s.places.length - 1 - behind) Place.receive }
      else s

/-- The instants at which positions became final. -/
def instants (s : Stream) : List ℕ := (s.places.filterMap (·.final)).dedup

/-- Is an instant among the last 4096? -/
def retained (s : Stream) (stamp : ℕ) : Bool :=
  (s.instants.filter (stamp < ·)).length < receiverTelemetryCapacity

/-- Did the position become final in the window? -/
def counts (s : Stream) (now : ℕ) (p : Place) : Bool :=
  p.final.any fun stamp => inWindow stamp now && s.retained stamp

def expected (s : Stream) (now : ℕ) : ℕ := s.places.countP (s.counts now)

def missing (s : Stream) (now : ℕ) : ℕ :=
  s.places.countP fun p => s.counts now p && !p.received

def pending (s : Stream) : ℕ := s.places.countP (·.final.isNone)

def finalized (s : Stream) : ℕ := s.places.countP (·.final.isSome)

theorem finalized_add_pending (s : Stream) : s.finalized + s.pending = s.places.length := by
  rw [List.length_eq_countP_add_countP (p := fun p : Place => p.final.isSome), finalized, pending]
  congr 1
  exact List.countP_congr fun p _ => by simp

theorem missing_le_expected (s : Stream) (now : ℕ) : s.missing now ≤ s.expected now :=
  List.countP_mono_left fun p _ hp => by
    rw [Bool.and_eq_true] at hp
    exact hp.1

end Stream

/-! ### Tallies of final positions

`F` is the list of the final positions, each as its instant and whether it was received. -/

namespace PacketLoss

def entry (F : List (ℕ × Bool)) (stamp : ℕ) : ℕ × ℕ × ℕ :=
  (stamp, min (F.countP (·.1 = stamp)) maxCount,
    min (F.countP fun e => decide (e.1 = stamp) && !e.2) maxCount)

/-- `finalized` has the numbers of `F` for the last 4096 instants of it. -/
def Tallies (F : List (ℕ × Bool)) (finalized : List (ℕ × ℕ × ℕ)) : Prop :=
  ∃ stamps : List ℕ, stamps.Pairwise (· < ·) ∧ (∀ t, t ∈ stamps ↔ t ∈ F.map Prod.fst) ∧
    finalized = (stamps.drop (stamps.length - receiverTelemetryCapacity)).map (entry F)

theorem Tallies.nil : Tallies [] [] := ⟨[], List.Pairwise.nil, by simp, rfl⟩

theorem entry_append (F : List (ℕ × Bool)) (N : List Bool) (stamp : ℕ) :
    entry (F ++ N.map (stamp, ·)) stamp =
      (stamp, saturatingAdd (entry F stamp).2.1 N.length,
        saturatingAdd (entry F stamp).2.2 (N.count false)) := by
  have hall : (N.map (stamp, ·)).countP (fun e : ℕ × Bool => decide (e.1 = stamp)) = N.length := by
    rw [List.countP_map]
    exact List.countP_eq_length.2 fun b _ => by simp
  have hmiss : (N.map (stamp, ·)).countP
      (fun e : ℕ × Bool => decide (e.1 = stamp) && !e.2) = N.count false := by
    rw [List.countP_map, List.count]
    exact List.countP_congr fun b _ => by cases b <;> simp
  simp only [entry, saturatingAdd, List.countP_append, hall, hmiss]
  refine Prod.ext rfl (Prod.ext ?_ ?_)
  · show min _ _ = min _ _
    omega
  · show min _ _ = min _ _
    omega

variable {stamp t now : ℕ} {F : List (ℕ × Bool)} {fin : List (Position × ℕ)} {l : PacketLoss}
  {p : Position} {highest : Option UInt32} {stamps : List ℕ}

theorem entry_append_ne (F : List (ℕ × Bool)) (N : List Bool) (h : stamp ≠ t) :
    entry (F ++ N.map (stamp, ·)) t = entry F t := by
  have hnone : ∀ p : Bool → Bool, (N.map (stamp, ·)).countP
      (fun e : ℕ × Bool => decide (e.1 = t) && p e.2) = 0 := by
    intro p
    rw [List.countP_map]
    exact List.countP_eq_zero.2 fun b _ => by simp [h]
  have hall := hnone fun _ => true
  simp only [Bool.and_true] at hall
  simp only [entry, List.countP_append, hall, hnone (!·), Nat.add_zero]

theorem entry_of_not_mem (h : stamp ∉ F.map Prod.fst) :
    entry F stamp = (stamp, 0, 0) := by
  have hne : ∀ e ∈ F, e.1 ≠ stamp := fun e he hes => h (List.mem_map.2 ⟨e, he, hes⟩)
  have hall : F.countP (fun e => decide (e.1 = stamp)) = 0 :=
    List.countP_eq_zero.2 fun e he => by simp [hne e he]
  have hmiss : F.countP (fun e => decide (e.1 = stamp) && !e.2) = 0 :=
    List.countP_eq_zero.2 fun e he => by simp [hne e he]
  simp [entry, hall, hmiss]

theorem recordFinalized_same (finalized : List (ℕ × ℕ × ℕ)) (stamp a b : ℕ) {expected : ℕ}
    (he : expected ≠ 0) (missing : ℕ) :
    recordFinalized (finalized ++ [(stamp, a, b)]) stamp expected missing =
      finalized ++ [(stamp, saturatingAdd a expected, saturatingAdd b missing)] := by
  simp [recordFinalized, he]

theorem recordFinalized_later {finalized : List (ℕ × ℕ × ℕ)} {expected : ℕ}
    (he : expected ≠ 0) (missing : ℕ) (hl : ∀ e ∈ finalized, e.1 ≠ stamp)
    (hlen : finalized.length ≤ receiverTelemetryCapacity) :
    recordFinalized finalized stamp expected missing =
      finalized.drop (finalized.length + 1 - receiverTelemetryCapacity) ++
        [(stamp, expected, missing)] := by
  have hroom : (if finalized.length = receiverTelemetryCapacity then finalized.tail
      else finalized) = finalized.drop (finalized.length + 1 - receiverTelemetryCapacity) := by
    split
    · rename_i h
      rw [h, Nat.add_sub_cancel_left, List.drop_one]
    · rw [Nat.sub_eq_zero_of_le (by omega), List.drop_zero]
  rw [recordFinalized, if_neg he, hroom]
  rcases List.eq_nil_or_concat finalized with rfl | ⟨init, last, rfl⟩
  · rfl
  · have hlast : last.1 ≠ stamp := hl last (by simp)
    simp [hlast]

/-- The rule for `recordFinalized`: positions that became final at an instant not before those
of the others. -/
theorem Tallies.record {finalized : List (ℕ × ℕ × ℕ)} (h : Tallies F finalized) (hle : ∀ e ∈ F, e.1 ≤ stamp) {N : List Bool} (hN : N.length ≤ maxCount) :
    Tallies (F ++ N.map (stamp, ·)) (recordFinalized finalized stamp N.length (N.count false)) := by
  rcases N with - | ⟨b, N⟩
  · simpa [recordFinalized] using h
  obtain ⟨stamps, hs, hmem, hfin⟩ := h
  set M := b :: N
  rw [hfin]
  have hM : M.length ≠ 0 := by simp [M]
  have hmiss : M.count false ≤ M.length := List.count_le_length
  have hlast : ∀ t, t ∈ stamps → t ≤ stamp := by
    intro t ht
    obtain ⟨e, he, rfl⟩ := List.mem_map.1 ((hmem t).1 ht)
    exact hle e he
  by_cases hin : stamp ∈ stamps
  · -- the last instant of the tally: its numbers grow
    obtain ⟨us, rfl⟩ : ∃ us, stamps = us ++ [stamp] := by
      rcases List.eq_nil_or_concat' stamps with rfl | ⟨us, t, rfl⟩
      · simp at hin
      · refine ⟨us, ?_⟩
        rcases List.mem_append.1 hin with hu | hu
        · have hlt : stamp < t := (List.pairwise_append.1 hs).2.2 stamp hu t (by simp)
          exact absurd (hlast t (by simp)) (by omega)
        · rw [List.mem_singleton.1 hu]
    have hd : us.length + 1 - receiverTelemetryCapacity ≤ us.length := by
      simp only [receiverTelemetryCapacity]
      omega
    refine ⟨us ++ [stamp], hs, fun t => ?_, ?_⟩
    · rw [hmem t, List.map_append, List.mem_append]
      refine ⟨Or.inl, fun ht => ht.elim id fun ht => ?_⟩
      obtain ⟨e, he, rfl⟩ := List.mem_map.1 ht
      obtain ⟨c, -, rfl⟩ := List.mem_map.1 he
      exact (hmem stamp).1 (by simp)
    · have hothers : ∀ t ∈ us.drop (us.length + 1 - receiverTelemetryCapacity),
          entry F t = entry (F ++ M.map (stamp, ·)) t := by
        intro t ht
        have hlt : t < stamp := (List.pairwise_append.1 hs).2.2 t (List.mem_of_mem_drop ht) stamp
          (by simp)
        exact (entry_append_ne F M (by omega)).symm
      rw [List.length_append, List.length_singleton, List.drop_append_of_le_length hd,
        List.map_append, List.map_append, List.map_singleton, List.map_singleton,
        show entry F stamp = (stamp, (entry F stamp).2.1, (entry F stamp).2.2) from rfl,
        recordFinalized_same _ _ _ _ hM, entry_append, List.map_congr_left hothers]
  · -- a later instant: the oldest one gives way to it
    have hlt : ∀ t ∈ stamps, t < stamp := fun t ht =>
      Nat.lt_of_le_of_ne (hlast t ht) fun heq => hin (heq ▸ ht)
    refine ⟨stamps ++ [stamp], ?_, fun t => ?_, ?_⟩
    · exact List.pairwise_append.2 ⟨hs, List.pairwise_singleton _ _, fun t ht u hu => by
        rw [List.mem_singleton.1 hu]
        exact hlt t ht⟩
    · have hnew : t ∈ (M.map (stamp, ·)).map Prod.fst ↔ t = stamp := by
        simp [M, eq_comm]
      rw [List.mem_append, List.map_append, List.mem_append, hmem t, hnew, List.mem_singleton]
    · have hlen : ((stamps.drop (stamps.length - receiverTelemetryCapacity)).map (entry F)).length ≤
          receiverTelemetryCapacity := by
        rw [List.length_map, List.length_drop]
        omega
      have hne : ∀ e ∈ (stamps.drop (stamps.length - receiverTelemetryCapacity)).map (entry F),
          e.1 ≠ stamp := by
        intro e he
        obtain ⟨t, ht, rfl⟩ := List.mem_map.1 he
        exact Nat.ne_of_lt (hlt t (List.mem_of_mem_drop ht))
      have hothers : ∀ t ∈ stamps.drop (stamps.length + 1 - receiverTelemetryCapacity),
          entry F t = entry (F ++ M.map (stamp, ·)) t := fun t ht =>
        (entry_append_ne F M (Nat.ne_of_gt (hlt t (List.mem_of_mem_drop ht)))).symm
      have hent : entry (F ++ M.map (stamp, ·)) stamp = (stamp, M.length, M.count false) := by
        rw [entry_append, entry_of_not_mem fun hs => hin ((hmem stamp).2 hs)]
        simp only [saturatingAdd, Nat.zero_add, Nat.min_eq_left hN,
          Nat.min_eq_left (Nat.le_trans hmiss hN)]
      have hcut : stamps.length - receiverTelemetryCapacity +
          (stamps.length - (stamps.length - receiverTelemetryCapacity) + 1 -
            receiverTelemetryCapacity) = stamps.length + 1 - receiverTelemetryCapacity := by
        omega
      rw [recordFinalized_later hM _ hne hlen, List.length_map, List.length_drop, ← List.map_drop,
        List.drop_drop, hcut, List.map_congr_left hothers, List.length_append,
        List.length_singleton, List.drop_append_of_le_length (by
          simp only [receiverTelemetryCapacity]; omega), List.map_append, List.map_singleton, hent]

/-! ### The positions of a state -/

/-- The stream of which `l` is left, where `fin` became final. -/
def view (l : PacketLoss) (fin : List (Position × ℕ)) : Stream :=
  ⟨l.highest, fin.map settled ++ l.pending.map waiting⟩

structure Shows (l : PacketLoss) (clock : ℕ) (fin : List (Position × ℕ)) : Prop where
  tally : Tallies (fin.map fun e => (e.2, e.1.received)) l.finalized
  /-- Positions become final in the order of the stream. -/
  ordered : (fin.map Prod.snd ++
    l.pending.map (·.observedAt + receiverReorderGrace)).Pairwise (· ≤ ·)
  final_le : ∀ e ∈ fin, e.2 ≤ clock
  pending_le : ∀ t ∈ l.pending.map Position.observedAt, t ≤ clock
  bound : l.pending.length ≤ receiverTelemetryCapacity
  started : l.highest = none → l.pending = []

theorem Shows.new : Shows new 0 [] :=
  ⟨Tallies.nil, List.Pairwise.nil, nofun, nofun, Nat.zero_le _, fun _ => rfl⟩

theorem Shows.mono {clock : ℕ}
    (h : Shows l clock fin) (hle : clock ≤ now) : Shows l now fin :=
  { h with
    final_le := fun e he => Nat.le_trans (h.final_le e he) hle
    pending_le := fun t ht => Nat.le_trans (h.pending_le t ht) hle }

@[simp] theorem settle_settled (now : ℕ) (e : Position × ℕ) :
    (settled e).settle now = settled e := by
  simp [settled, Place.settle, Place.finalize]

theorem settle_waiting_due (h : p.observedAt + receiverReorderGrace ≤ now) :
    (waiting p).settle now = settled (p, p.observedAt + receiverReorderGrace) := by
  have hdue : (waiting p).observedAt + receiverReorderGrace ≤ now := h
  rw [Place.settle, if_pos hdue]
  rfl

theorem settle_waiting (h : now < p.observedAt + receiverReorderGrace) :
    (waiting p).settle now = waiting p := by
  have hdue : ¬ (waiting p).observedAt + receiverReorderGrace ≤ now := Nat.not_le.2 h
  rw [Place.settle, if_neg hdue]

theorem map_settle_settled (now : ℕ) (fin : List (Position × ℕ)) :
    (fin.map settled).map (Place.settle now) = fin.map settled := by
  rw [List.map_map]
  exact List.map_congr_left fun e _ => by rw [Function.comp_apply, settle_settled]

theorem finalizeDue_due {rest : List Position}
    {finalized : List (ℕ × ℕ × ℕ)} (h : p.observedAt + receiverReorderGrace ≤ now) :
    finalizeDue ⟨highest, p :: rest, finalized⟩ now =
      finalizeDue ⟨highest, rest, recordFinalized finalized (p.observedAt + receiverReorderGrace) 1
        (if p.received then 0 else 1)⟩ now := by
  have hdue : p.observedAt ≤ now ∧ receiverReorderGrace ≤ now - p.observedAt := by omega
  simp only [finalizeDue, finalizeFront]
  rw [if_pos hdue]

theorem finalizeDue_waiting {rest : List Position}
    {finalized : List (ℕ × ℕ × ℕ)} (h : now < p.observedAt + receiverReorderGrace) :
    finalizeDue ⟨highest, p :: rest, finalized⟩ now = ⟨highest, p :: rest, finalized⟩ := by
  have hdue : ¬ (p.observedAt ≤ now ∧ receiverReorderGrace ≤ now - p.observedAt) := by omega
  simp only [finalizeDue, finalizeFront]
  rw [if_neg hdue]

theorem Shows.due {rest : List Position}
    {finalized : List (ℕ × ℕ × ℕ)}
    (h : Shows ⟨highest, p :: rest, finalized⟩ now fin)
    (hdue : p.observedAt + receiverReorderGrace ≤ now) :
    Shows ⟨highest, rest, recordFinalized finalized (p.observedAt + receiverReorderGrace) 1
      (if p.received then 0 else 1)⟩ now (fin ++ [(p, p.observedAt + receiverReorderGrace)]) where
  tally := by
    have hle : ∀ e ∈ fin.map fun e => (e.2, e.1.received),
        e.1 ≤ p.observedAt + receiverReorderGrace := by
      intro e he
      obtain ⟨f, hf, rfl⟩ := List.mem_map.1 he
      exact (List.pairwise_append.1 h.ordered).2.2 f.2 (List.mem_map.2 ⟨f, hf, rfl⟩) _ (by simp)
    have hone : [p.received].count false = if p.received then 0 else 1 := by
      cases p.received <;> rfl
    have hlen : [p.received].length ≤ maxCount := by
      rw [List.length_singleton, maxCount]
      decide
    have := h.tally.record hle hlen
    rw [hone] at this
    simpa using this
  ordered := by simpa using h.ordered
  final_le := fun e he => (List.mem_append.1 he).elim (h.final_le e) fun he => by
    rw [List.mem_singleton.1 he]
    exact hdue
  pending_le := fun t ht => h.pending_le t (List.mem_cons_of_mem _ ht)
  bound := by
    have := h.bound
    rw [List.length_cons] at this
    show rest.length ≤ _
    omega
  started := fun hn => absurd (h.started hn) (by simp)

/-- **`finalize_due` settles the stream.**  What is still pending then is not due. -/
theorem Shows.settle (h : Shows l now fin) :
    ∃ fin', Shows (l.finalizeDue now) now fin' ∧
      (l.finalizeDue now).view fin' = (l.view fin).settle now ∧
      (l.finalizeDue now).highest = l.highest ∧
      ∀ p ∈ (l.finalizeDue now).pending, now < p.observedAt + receiverReorderGrace := by
  obtain ⟨highest, pending, finalized⟩ := l
  induction pending generalizing fin finalized with
  | nil =>
    refine ⟨fin, h, ?_, rfl, nofun⟩
    simp only [view, Stream.settle, List.map_append, map_settle_settled]
    rfl
  | cons p rest ih =>
    by_cases hdue : p.observedAt + receiverReorderGrace ≤ now
    · obtain ⟨fin', hs, hv, hh, hp⟩ := ih _ (h.due hdue)
      rw [finalizeDue_due hdue]
      refine ⟨fin', hs, ?_, hh, hp⟩
      rw [hv]
      simp only [view, Stream.settle, List.map_append, map_settle_settled, List.map_cons,
        List.map_nil, settle_settled, settle_waiting_due hdue, List.append_assoc,
        List.cons_append, List.nil_append]
    · have hlt : ∀ q ∈ p :: rest, now < q.observedAt + receiverReorderGrace := by
        intro q hq
        rcases List.mem_cons.1 hq with rfl | hq
        · omega
        · have hpq := (List.pairwise_append.1 h.ordered).2.1
          rw [List.map_cons, List.pairwise_cons] at hpq
          have := hpq.1 _ (List.mem_map.2 ⟨q, hq, rfl⟩)
          omega
      rw [finalizeDue_waiting (by omega)]
      refine ⟨fin, h, ?_, rfl, hlt⟩
      have hwait : ((p :: rest).map waiting).map (Place.settle now) = (p :: rest).map waiting := by
        rw [List.map_map]
        exact List.map_congr_left fun q hq => by
          rw [Function.comp_apply, settle_waiting (hlt q hq)]
      simp only [view, Stream.settle, List.map_append, map_settle_settled, hwait]

/-! ### A datagram -/

theorem modify_append_left {α : Type*} (f : α → α) :
    ∀ {as : List α} (bs : List α) {i : ℕ}, i < as.length →
      (as ++ bs).modify i f = as.modify i f ++ bs
  | _ :: _, _, 0, _ => rfl
  | a :: _, bs, _ + 1, h =>
    congrArg (a :: ·) (modify_append_left f bs (Nat.lt_of_succ_lt_succ h))

theorem modify_append_right {α : Type*} (f : α → α) :
    ∀ (as bs : List α) (i : ℕ), (as ++ bs).modify (as.length + i) f = as ++ bs.modify i f
  | [], bs, i => by rw [List.length_nil, Nat.zero_add]; rfl
  | a :: as, bs, i => by
    rw [List.length_cons, Nat.add_right_comm]
    exact congrArg (a :: ·) (modify_append_right f as bs i)

theorem map_modify {α β : Type*} {f : α → α} {g : α → β} {f' : β → β}
    (h : ∀ a, g (f a) = f' (g a)) :
    ∀ (as : List α) (i : ℕ), (as.modify i f).map g = (as.map g).modify i f'
  | [], _ => by simp
  | a :: as, 0 => by simp [h]
  | a :: as, i + 1 => congrArg (g a :: ·) (map_modify h as i)

theorem modify_settled (fin : List (Position × ℕ)) (i : ℕ) :
    (fin.map settled).modify i Place.receive = fin.map settled := by
  rw [← map_modify (f := id) fun e => ?_, List.modify_id]
  rfl

theorem arrivals_eq {retained : ℕ} (h : retained ≠ 0) (now : ℕ) :
    ((List.range retained).map fun index => (⟨index + 1 = retained, now⟩ : Position)) =
      arrivals retained now := by
  obtain ⟨r, rfl⟩ := Nat.exists_eq_succ_of_ne_zero h
  rw [List.range_succ, List.map_append, arrivals, Nat.succ_sub_one]
  congr 1
  · refine List.eq_replicate_iff.2 ⟨by simp, fun p hp => ?_⟩
    obtain ⟨index, hi, rfl⟩ := List.mem_map.1 hp
    have := List.mem_range.1 hi
    simp only [Position.mk.injEq, decide_eq_false_iff_not, and_true]
    omega
  · simp

theorem length_arrivals {distance : ℕ} (h : distance ≠ 0) (now : ℕ) :
    (arrivals distance now).length = distance := by
  rw [arrivals, List.length_append, List.length_replicate, List.length_singleton]
  omega

theorem take_arrivals {distance k : ℕ} (h : k < distance) (now : ℕ) :
    (arrivals distance now).take k = List.replicate k ⟨false, now⟩ := by
  rw [arrivals, List.take_append_of_le_length (by rw [List.length_replicate]; omega),
    List.take_replicate, Nat.min_eq_left (by omega)]

theorem drop_arrivals {distance k : ℕ} (h : k < distance) (now : ℕ) :
    (arrivals distance now).drop k = arrivals (distance - k) now := by
  rw [arrivals, List.drop_append_of_le_length (by rw [List.length_replicate]; omega),
    List.drop_replicate, arrivals]
  congr 2
  omega

theorem take_overflow (pending : List Position) {distance overflow : ℕ} (now : ℕ)
    (h : overflow < pending.length + distance) (hd : distance ≠ 0) :
    (pending ++ arrivals distance now).take overflow =
      pending.take (min overflow pending.length) ++
        List.replicate (overflow - min overflow pending.length) ⟨false, now⟩ := by
  have hskip : overflow - min overflow pending.length = overflow - pending.length := by omega
  rw [List.take_append, take_arrivals (by omega), hskip]
  congr 1
  rw [← List.take_take, List.take_length]

theorem drop_overflow (pending : List Position) {distance overflow : ℕ} (now : ℕ)
    (h : overflow < pending.length + distance) (hd : distance ≠ 0) :
    (pending ++ arrivals distance now).drop overflow =
      pending.drop (min overflow pending.length) ++
        arrivals (distance - (overflow - min overflow pending.length)) now := by
  have hskip : overflow - min overflow pending.length = overflow - pending.length := by omega
  rw [List.drop_append, drop_arrivals (by omega), hskip]
  congr 1
  rcases Nat.le_total overflow pending.length with ho | ho
  · rw [Nat.min_eq_left ho]
  · rw [Nat.min_eq_right ho, List.drop_length, List.drop_eq_nil_of_le ho]

/-- Of the pending positions and those after them, all but the last 4096 become final. -/
theorem cut_view (now : ℕ) (fin : List (Position × ℕ)) (ps : List Position) :
    Stream.cut now (fin.map settled ++ ps.map waiting) =
      (fin ++ (ps.take (ps.length - receiverTelemetryCapacity)).map (·, now)).map settled ++
        (ps.drop (ps.length - receiverTelemetryCapacity)).map waiting := by
  have hfix : ∀ es : List (Position × ℕ), (es.map settled).map (·.finalize now) = es.map settled := by
    intro es
    rw [List.map_map]
    exact List.map_congr_left fun e _ => rfl
  have hnow : ∀ qs : List Position,
      (qs.map waiting).map (·.finalize now) = (qs.map (·, now)).map settled := by
    intro qs
    rw [List.map_map, List.map_map]
    exact List.map_congr_left fun q _ => rfl
  simp only [Stream.cut, List.length_append, List.length_map]
  rcases Nat.le_total ps.length receiverTelemetryCapacity with hps | hps
  · have hold : fin.length + ps.length - receiverTelemetryCapacity ≤ (fin.map settled).length := by
      rw [List.length_map]
      omega
    rw [List.take_append_of_le_length hold, List.drop_append_of_le_length hold, ← List.map_take, hfix,
      Nat.sub_eq_zero_of_le hps, List.take_zero, List.map_nil, List.append_nil, List.drop_zero,
      ← List.append_assoc, ← List.map_drop, ← List.map_append, List.take_append_drop]
  · have hold : fin.length + ps.length - receiverTelemetryCapacity =
        (fin.map settled).length + (ps.length - receiverTelemetryCapacity) := by
      rw [List.length_map]
      omega
    rw [hold, List.take_length_add_append, List.drop_length_add_append, List.map_append, hfix,
      ← List.map_take, hnow, ← List.map_drop, List.map_append]

theorem length_filter_missing (ps : List Position) :
    (ps.filter fun position => !position.received).length = (ps.map (·.received)).count false := by
  rw [List.count, List.countP_map, List.countP_eq_length_filter]
  congr 2
  funext p
  cases h : p.received <;> simp [h]

/-- What `observe` does with a datagram that is ahead: the positions up to it are entered, and all
but the last 4096 of the pending ones become final. -/
theorem observe_ahead {highest sequence : UInt32}
    (hh : (l.finalizeDue now).highest = some highest) (ha : ahead sequence highest = true)
    {ps : List Position}
    (hps : ps = (l.finalizeDue now).pending ++ arrivals (sequence - highest).toNat now) :
    l.observe sequence now =
      ⟨some sequence, ps.drop (ps.length - receiverTelemetryCapacity),
        recordFinalized (l.finalizeDue now).finalized now (ps.length - receiverTelemetryCapacity)
          (((ps.take (ps.length - receiverTelemetryCapacity)).map (·.received)).count false)⟩ := by
  have hd : (sequence - highest).toNat ≠ 0 := by
    simp only [ahead, decide_eq_true_eq] at ha
    exact fun h0 => ha.1 (UInt32.toNat.inj h0)
  have hlen : ps.length = (l.finalizeDue now).pending.length + (sequence - highest).toNat := by
    rw [hps, List.length_append, length_arrivals hd]
  simp only [observe, hh, ha, not_true_eq_false, if_false]
  rw [hlen]
  set pending := (l.finalizeDue now).pending
  set distance := (sequence - highest).toNat
  have hlt : pending.length + distance - receiverTelemetryCapacity < pending.length + distance := by
    simp only [receiverTelemetryCapacity]
    omega
  generalize pending.length + distance - receiverTelemetryCapacity = overflow at hlt
  have hretained : distance - (overflow - min overflow pending.length) ≠ 0 := by omega
  have hcount : ((List.replicate (overflow - min overflow pending.length)
      (⟨false, now⟩ : Position)).map (·.received)).count false =
        overflow - min overflow pending.length := by
    rw [List.map_replicate, List.count_replicate_self]
  rw [hps, take_overflow pending now hlt hd, drop_overflow pending now hlt hd,
    arrivals_eq hretained, List.map_append, List.count_append, hcount, length_filter_missing]

theorem map_observedAt_modify (ps : List Position) (i : ℕ) :
    (ps.modify i ({ · with received := true })).map Position.observedAt =
      ps.map Position.observedAt := by
  have hkeep : ∀ p : Position, Position.observedAt { p with received := true } = id p.observedAt :=
    fun _ => rfl
  have h := map_modify hkeep ps i
  rwa [List.modify_id] at h

theorem map_deadline (ps : List Position) :
    ps.map (·.observedAt + receiverReorderGrace) =
      (ps.map Position.observedAt).map (· + receiverReorderGrace) := by
  rw [List.map_map]
  rfl

theorem map_waiting_modify (ps : List Position) (i : ℕ) :
    (ps.modify i ({ · with received := true })).map waiting =
      (ps.map waiting).modify i Place.receive :=
  map_modify (f := fun p : Position => { p with received := true }) (g := waiting)
    (fun _ => rfl) ps i

/-- A position that is `behind` the highest is received if it is still pending. -/
theorem view_receive (l : PacketLoss) (fin : List (Position × ℕ)) (behind : ℕ) :
    (if behind < (l.view fin).places.length then
        { l.view fin with places :=
          (l.view fin).places.modify ((l.view fin).places.length - 1 - behind) Place.receive }
      else l.view fin) =
      PacketLoss.view
        (if behind < l.pending.length then
          { l with pending :=
            l.pending.modify (l.pending.length - 1 - behind) ({ · with received := true }) }
        else l) fin := by
  have hlen : (l.view fin).places.length = fin.length + l.pending.length := by
    simp [view]
  rw [hlen]
  by_cases hb : behind < l.pending.length
  · have hidx : fin.length + l.pending.length - 1 - behind =
        (fin.map settled).length + (l.pending.length - 1 - behind) := by
      rw [List.length_map]
      omega
    rw [if_pos (by omega), if_pos hb, hidx]
    simp only [view, modify_append_right, map_waiting_modify]
  · rw [if_neg hb]
    split
    · have hidx : fin.length + l.pending.length - 1 - behind < (fin.map settled).length := by
        rw [List.length_map]
        omega
      simp only [view, modify_append_left _ _ hidx, modify_settled]
    · rfl

theorem Shows.first (h : Shows l now fin)
    (hn : l.highest = none) (sequence : UInt32) :
    Shows { l with highest := some sequence, pending := l.pending ++ [⟨true, now⟩] } now fin where
  tally := h.tally
  ordered := by
    have hord := h.ordered
    rw [h.started hn, List.map_nil, List.append_nil] at hord
    rw [h.started hn]
    refine List.pairwise_append.2 ⟨hord, List.pairwise_singleton _ _, fun t ht u hu => ?_⟩
    obtain ⟨e, he, rfl⟩ := List.mem_map.1 ht
    have hle := h.final_le e he
    have hu' : u = now + receiverReorderGrace := by simpa using hu
    omega
  final_le := h.final_le
  pending_le := by
    rw [h.started hn]
    simp
  bound := by
    rw [h.started hn]
    show 1 ≤ _
    decide
  started := nofun

theorem Shows.receive (h : Shows l now fin)
    (i : ℕ) :
    Shows { l with pending := l.pending.modify i ({ · with received := true }) } now fin where
  tally := h.tally
  ordered := by
    rw [map_deadline, map_observedAt_modify, ← map_deadline]
    exact h.ordered
  final_le := h.final_le
  pending_le := by
    rw [map_observedAt_modify]
    exact h.pending_le
  bound := by
    rw [List.length_modify]
    exact h.bound
  started := fun hn => by rw [h.started hn, List.modify_nil]

theorem Shows.advance (h : Shows l now fin)
    (hwait : ∀ p ∈ l.pending, now < p.observedAt + receiverReorderGrace) (sequence highest : UInt32)
    {ps : List Position} (hps : ps = l.pending ++ arrivals (sequence - highest).toNat now)
    {old : ℕ} (hold : old = ps.length - receiverTelemetryCapacity) :
    Shows ⟨some sequence, ps.drop old,
      recordFinalized l.finalized now old (((ps.take old).map (·.received)).count false)⟩ now
      (fin ++ (ps.take old).map (·, now)) where
  tally := by
    have hle : ∀ e ∈ fin.map fun e => (e.2, e.1.received), e.1 ≤ now := by
      intro e he
      obtain ⟨f, hf, rfl⟩ := List.mem_map.1 he
      exact h.final_le f hf
    have hlen : ((ps.take old).map (·.received)).length = old := by
      rw [List.length_map, List.length_take]
      omega
    have hmax : ((ps.take old).map (·.received)).length ≤ maxCount := by
      have hd := (sequence - highest).toNat_lt
      have hb := h.bound
      have hpl : ps.length = l.pending.length + ((sequence - highest).toNat - 1 + 1) := by
        simp [hps, arrivals]
      rw [hlen, hold, hpl]
      simp only [maxCount, receiverTelemetryCapacity] at hb ⊢
      omega
    have hrec := h.tally.record hle hmax
    rw [hlen] at hrec
    rw [List.map_append, List.map_map]
    rw [List.map_map] at hrec
    exact hrec
  ordered := by
    have hfin := (List.pairwise_append.1 h.ordered).1
    have hpend := (List.pairwise_append.1 h.ordered).2.1
    have hnew : ∀ t ∈ (arrivals (sequence - highest).toNat now).map Position.observedAt,
        t = now := by
      intro t ht
      simp only [arrivals, List.map_append, List.map_replicate, List.map_singleton] at ht
      exact (List.mem_append.1 ht).elim List.eq_of_mem_replicate List.mem_singleton.1
    have hps' : (ps.map (·.observedAt + receiverReorderGrace)).Pairwise (· ≤ ·) := by
      rw [hps, List.map_append]
      refine List.pairwise_append.2 ⟨hpend, ?_, ?_⟩
      · rw [map_deadline]
        refine List.pairwise_map.2 (List.pairwise_of_forall_mem_list fun t ht u hu => ?_)
        exact Nat.le_of_eq (by rw [hnew t ht, hnew u hu])
      · intro t ht u hu
        obtain ⟨p, hp, rfl⟩ := List.mem_map.1 ht
        obtain ⟨q, hq, rfl⟩ := List.mem_map.1 hu
        have h₁ := h.pending_le p.observedAt (List.mem_map.2 ⟨p, hp, rfl⟩)
        have h₂ := hnew q.observedAt (List.mem_map.2 ⟨q, hq, rfl⟩)
        omega
    have hlate : ∀ t ∈ ps.map (·.observedAt + receiverReorderGrace), now ≤ t := by
      intro t ht
      obtain ⟨p, hp, rfl⟩ := List.mem_map.1 ht
      rw [hps] at hp
      rcases List.mem_append.1 hp with hp | hp
      · exact Nat.le_of_lt (hwait p hp)
      · have := hnew p.observedAt (List.mem_map.2 ⟨p, hp, rfl⟩)
        omega
    have hold_eq : ∀ t ∈ ((ps.take old).map (·, now)).map Prod.snd, t = now := by
      intro t ht
      obtain ⟨e, he, rfl⟩ := List.mem_map.1 ht
      obtain ⟨p, -, rfl⟩ := List.mem_map.1 he
      rfl
    have hsub : ((ps.drop old).map (·.observedAt + receiverReorderGrace)).Sublist
        (ps.map (·.observedAt + receiverReorderGrace)) := (List.drop_sublist old ps).map _
    have hfin_le : ∀ t ∈ fin.map Prod.snd, t ≤ now := by
      intro t ht
      obtain ⟨e, he, rfl⟩ := List.mem_map.1 ht
      exact h.final_le e he
    rw [List.map_append, List.append_assoc]
    refine List.pairwise_append.2 ⟨hfin, List.pairwise_append.2 ⟨?_, hps'.sublist hsub, ?_⟩, ?_⟩
    · exact List.pairwise_of_forall_mem_list fun t ht u hu =>
        Nat.le_of_eq ((hold_eq t ht).trans (hold_eq u hu).symm)
    · intro t ht u hu
      rw [hold_eq t ht]
      exact hlate u (hsub.subset hu)
    · intro t ht u hu
      refine Nat.le_trans (hfin_le t ht) ?_
      rcases List.mem_append.1 hu with hu | hu
      · exact Nat.le_of_eq (hold_eq u hu).symm
      · exact hlate u (hsub.subset hu)
  final_le := fun e he => (List.mem_append.1 he).elim (h.final_le e) fun he => by
    obtain ⟨p, -, rfl⟩ := List.mem_map.1 he
    exact Nat.le_refl _
  pending_le := by
    intro t ht
    have ht' := ((List.drop_sublist old ps).map Position.observedAt).subset ht
    rw [hps, List.map_append] at ht'
    rcases List.mem_append.1 ht' with ht' | ht'
    · exact h.pending_le t ht'
    · simp only [arrivals, List.map_append, List.map_replicate, List.map_singleton] at ht'
      exact Nat.le_of_eq ((List.mem_append.1 ht').elim List.eq_of_mem_replicate List.mem_singleton.1)
  bound := by
    rw [List.length_drop, hold]
    omega
  started := nofun

/-- **One datagram.**  `observe` does to the positions what a datagram does. -/
theorem Shows.observe {clock : ℕ}
    (h : Shows l clock fin) (hle : clock ≤ now) (sequence : UInt32) :
    ∃ fin', Shows (l.observe sequence now) now fin' ∧
      (l.observe sequence now).view fin' = (l.view fin).observe sequence now := by
  obtain ⟨fin₁, h₁, hv, -, hwait⟩ := (h.mono hle).settle
  rw [Stream.observe, ← hv]
  rcases hm : (l.finalizeDue now).highest with - | highest
  · have hobs : l.observe sequence now = { l.finalizeDue now with
        highest := some sequence, pending := (l.finalizeDue now).pending ++ [⟨true, now⟩] } := by
      simp only [PacketLoss.observe, hm]
    rw [hobs]
    refine ⟨fin₁, h₁.first hm sequence, ?_⟩
    simp only [view, hm, List.map_append, List.map_singleton, List.append_assoc]
  · have hvh : ((l.finalizeDue now).view fin₁).highest = some highest := hm
    cases ha : ahead sequence highest with
    | false =>
      have hobs : l.observe sequence now =
          if (highest - sequence).toNat < (l.finalizeDue now).pending.length then
            { l.finalizeDue now with
              pending := (l.finalizeDue now).pending.modify
                ((l.finalizeDue now).pending.length - 1 - (highest - sequence).toNat)
                ({ · with received := true }) }
          else l.finalizeDue now := by
        simp [PacketLoss.observe, hm, ha]
      refine ⟨fin₁, ?_, ?_⟩
      · rw [hobs]
        split
        · exact h₁.receive _
        · exact h₁
      · rw [hobs, ← view_receive]
        simp only [hvh, ha, Bool.false_eq_true, if_false]
    | true =>
      obtain ⟨ps, hps⟩ : ∃ ps, ps =
        (l.finalizeDue now).pending ++ arrivals (sequence - highest).toNat now := ⟨_, rfl⟩
      rw [observe_ahead hm ha hps]
      refine ⟨_, h₁.advance hwait sequence highest hps rfl, ?_⟩
      simp only [hvh, ha, if_true]
      simp only [view]
      rw [List.append_assoc, ← List.map_append, ← hps, cut_view]

/-! ### The counts -/

theorem countP_or {α : Type*} {p q : α → Bool} (h : ∀ a, ¬ (p a = true ∧ q a = true)) (as : List α) :
    as.countP (fun a => p a || q a) = as.countP p + as.countP q := by
  induction as with
  | nil => rfl
  | cons a as ih =>
    have ha := h a
    rw [List.countP_cons, List.countP_cons, List.countP_cons, ih]
    cases hp : p a <;> cases hq : q a <;> simp_all <;> omega

theorem sum_countP (p : ℕ × Bool → Bool)
    (h : stamps.Pairwise (· < ·)) :
    (stamps.map fun t => F.countP fun e => decide (e.1 = t) && p e).sum =
      F.countP fun e => decide (e.1 ∈ stamps) && p e := by
  induction stamps with
  | nil => simp
  | cons t stamps ih =>
    rw [List.pairwise_cons] at h
    rw [List.map_cons, List.sum_cons, ih h.2, ← countP_or fun e he => ?_]
    · refine List.countP_congr fun e _ => ?_
      simp only [Bool.or_eq_true, Bool.and_eq_true, decide_eq_true_eq, List.mem_cons, or_and_right]
    · simp only [Bool.and_eq_true, decide_eq_true_eq] at he
      have := h.1 e.1 he.2.1
      omega

theorem foldl_entry (F : List (ℕ × Bool)) (stamps : List ℕ) (a b : ℕ) :
    (stamps.map (entry F)).foldl (fun sum entry =>
        (saturatingAdd sum.1 entry.2.1, saturatingAdd sum.2 entry.2.2))
        (min a maxCount, min b maxCount) =
      (min (a + (stamps.map fun t => F.countP (·.1 = t)).sum) maxCount,
        min (b + (stamps.map fun t => F.countP fun e => decide (e.1 = t) && !e.2).sum) maxCount) := by
  induction stamps generalizing a b with
  | nil => rfl
  | cons t stamps ih =>
    have hmin : ∀ x y : ℕ, saturatingAdd (min x maxCount) (min y maxCount) =
        min (x + y) maxCount := by
      intro x y
      simp only [saturatingAdd]
      omega
    simp only [List.map_cons, List.foldl_cons, List.sum_cons, entry, hmin, ← Nat.add_assoc]
    exact ih _ _

theorem mem_drop_iff (h : stamps.Pairwise (· < ·)) (ht : t ∈ stamps)
    (k : ℕ) : t ∈ stamps.drop (stamps.length - k) ↔ (stamps.filter (t < ·)).length < k := by
  obtain ⟨as, bs, rfl⟩ := List.append_of_mem ht
  obtain ⟨-, hbs, has⟩ := List.pairwise_append.1 h
  rw [List.pairwise_cons] at hbs
  have hfilter : (as ++ t :: bs).filter (t < ·) = bs := by
    rw [List.filter_append, List.filter_cons_of_neg (by simp),
      List.filter_eq_nil_iff.2 fun a ha => ?_, List.nil_append, List.filter_eq_self.2 fun b hb => ?_]
    · simpa using hbs.1 b hb
    · have := has a ha t (by simp)
      simp only [decide_eq_true_eq]
      omega
  rw [hfilter, List.length_append, List.length_cons]
  constructor
  · intro hmem
    by_contra hk
    have hge : as.length + 1 ≤ as.length + (bs.length + 1) - k := by omega
    have hsub := List.drop_subset_drop_left (as ++ t :: bs) hge hmem
    rw [List.drop_length_add_append] at hsub
    exact Nat.lt_irrefl t (hbs.1 t hsub)
  · intro hk
    rw [List.drop_append_of_le_length (by omega)]
    simp

theorem instants_view (l : PacketLoss) (fin : List (Position × ℕ)) :
    (l.view fin).instants = (fin.map Prod.snd).dedup := by
  have hfin : (fin.map settled).filterMap (·.final) = fin.map Prod.snd := by
    rw [List.filterMap_map, ← List.filterMap_eq_map]
    rfl
  have hwait : (l.pending.map waiting).filterMap (·.final) = [] := by
    rw [List.filterMap_map]
    exact List.filterMap_eq_nil_iff.2 fun p _ => rfl
  rw [Stream.instants, view, List.filterMap_append, hfin, hwait, List.append_nil]

theorem retained_view (l : PacketLoss)
    (hs : stamps.Pairwise (· < ·)) (hmem : ∀ t, t ∈ stamps ↔ t ∈ fin.map Prod.snd)
    (ht : t ∈ stamps) :
    (l.view fin).retained t = decide (t ∈ stamps.drop (stamps.length - receiverTelemetryCapacity)) := by
  have hnodup : stamps.Nodup := hs.imp Nat.ne_of_lt
  have hperm : (l.view fin).instants.Perm stamps := by
    rw [instants_view]
    exact (List.perm_ext_iff_of_nodup (List.nodup_dedup _) hnodup).2 fun u => by
      rw [List.mem_dedup, hmem]
  rw [Stream.retained, (hperm.filter _).length_eq]
  exact decide_eq_decide.2 (mem_drop_iff hs ht _).symm

theorem countP_view (l : PacketLoss) (fin : List (Position × ℕ)) {p : Place → Bool}
    {q : ℕ × Bool → Bool} (hwait : ∀ r, p (waiting r) = false)
    (hfin : ∀ e ∈ fin, p (settled e) = q (e.2, e.1.received)) :
    (l.view fin).places.countP p = (fin.map fun e => (e.2, e.1.received)).countP q := by
  have hnone : (l.pending.map waiting).countP p = 0 := by
    rw [List.countP_map]
    exact List.countP_eq_zero.2 fun r _ => by simp [hwait]
  rw [view, List.countP_append, hnone, Nat.add_zero, List.countP_map, List.countP_map]
  exact List.countP_congr fun e he => by simp [hfin e he]

theorem Shows.counts (h : Shows l now fin) :
    (l.finalized.filter fun entry => inWindow entry.1 now).foldl (fun sum entry =>
        (saturatingAdd sum.1 entry.2.1, saturatingAdd sum.2 entry.2.2)) (0, 0) =
      (min ((l.view fin).expected now) maxCount, min ((l.view fin).missing now) maxCount) := by
  obtain ⟨stamps, hs, hmem, hf⟩ := h.tally
  have hmem' : ∀ t, t ∈ stamps ↔ t ∈ fin.map Prod.snd := by
    intro t
    rw [hmem, List.map_map]
    rfl
  set last := stamps.drop (stamps.length - receiverTelemetryCapacity)
  set recent := last.filter (inWindow · now) with hrecent
  have hsub : recent.Sublist stamps := List.filter_sublist.trans (List.drop_sublist _ _)
  have hfilter : (l.finalized.filter fun entry => inWindow entry.1 now) =
      recent.map (entry (fin.map fun e => (e.2, e.1.received))) := by
    rw [hf, List.filter_map]
    rfl
  have hcounts : ∀ e ∈ fin, (l.view fin).counts now (settled e) = decide (e.2 ∈ recent) := by
    intro e he
    have het := (hmem' e.2).2 (List.mem_map.2 ⟨e, he, rfl⟩)
    have hret := retained_view l hs hmem' het
    show (inWindow e.2 now && (l.view fin).retained e.2) = _
    rw [hret, hrecent, Bool.eq_iff_iff, Bool.and_eq_true, decide_eq_true_eq, decide_eq_true_eq,
      List.mem_filter, and_comm]
  have hexp : (l.view fin).expected now =
      (fin.map fun e => (e.2, e.1.received)).countP fun e => decide (e.1 ∈ recent) && true :=
    countP_view l fin (fun _ => rfl) fun e he => by rw [hcounts e he, Bool.and_true]
  have hmiss : (l.view fin).missing now =
      (fin.map fun e => (e.2, e.1.received)).countP fun e => decide (e.1 ∈ recent) && !e.2 :=
    countP_view l fin (fun _ => rfl) fun e he => by rw [hcounts e he]; rfl
  have hfold := foldl_entry (fin.map fun e => (e.2, e.1.received)) recent 0 0
  rw [Nat.zero_min, Nat.zero_add, Nat.zero_add, sum_countP (fun e => !e.2) (hs.sublist hsub)] at hfold
  have hsum := sum_countP (F := fin.map fun e => (e.2, e.1.received)) (fun _ => true)
    (hs.sublist hsub)
  simp only [Bool.and_true] at hsum hexp
  rw [hfilter, hfold, hsum, hexp, hmiss]

/-! ### Runs -/

/-- What is done with the counters. -/
inductive Call
  | observe (sequence : UInt32)
  | snapshot

/-- The calls so far, each with its instant. -/
def after (l : PacketLoss) : List (Call × ℕ) → PacketLoss
  | [] => l
  | (.observe sequence, now) :: calls => (l.observe sequence now).after calls
  | (.snapshot, now) :: calls => (l.snapshot now).2.after calls

end PacketLoss

/-- The positions after the same calls: to read the counts settles what is due. -/
def Stream.after (s : Stream) : List (PacketLoss.Call × ℕ) → Stream
  | [] => s
  | (.observe sequence, now) :: calls => (s.observe sequence now).after calls
  | (.snapshot, now) :: calls => (s.settle now).after calls

namespace PacketLoss

theorem Shows.after {l : PacketLoss} {clock now : ℕ} {fin : List (Position × ℕ)}
    (h : Shows l clock fin) {calls : List (Call × ℕ)}
    (ht : (clock :: (calls.map Prod.snd ++ [now])).Pairwise (· ≤ ·)) :
    ∃ fin', Shows (l.after calls) now fin' ∧
      (l.after calls).view fin' = (l.view fin).after calls := by
  induction calls generalizing l clock fin with
  | nil => exact ⟨fin, h.mono ((List.pairwise_cons.1 ht).1 now (by simp)), rfl⟩
  | cons c calls ih =>
    obtain ⟨call, t⟩ := c
    obtain ⟨hle, ht'⟩ := List.pairwise_cons.1 ht
    have hct : clock ≤ t := hle t (by simp)
    cases call with
    | observe sequence =>
      obtain ⟨fin₁, h₁, hv₁⟩ := h.observe hct sequence
      obtain ⟨fin₂, h₂, hv₂⟩ := ih h₁ ht'
      rw [hv₁] at hv₂
      exact ⟨fin₂, h₂, hv₂⟩
    | snapshot =>
      obtain ⟨fin₁, h₁, hv₁, -, -⟩ := (h.mono hct).settle
      obtain ⟨fin₂, h₂, hv₂⟩ := ih h₁ ht'
      rw [hv₁] at hv₂
      exact ⟨fin₂, h₂, hv₂⟩

/-- **The counts of a snapshot.**  After any calls in the order of time, `expected` is the number
of positions of the stream that became final in the last five seconds, at one of the last 4096 such
instants, and `missing` that of those among them that were not received by then; at most 4096
positions are pending, and these are all that are not final. -/
theorem loss_counts (calls : List (Call × ℕ)) (now : ℕ)
    (ht : (calls.map Prod.snd ++ [now]).Pairwise (· ≤ ·)) :
    let l := new.after calls
    let s := (Stream.new.after calls).settle now
    (l.snapshot now).1 = (min (s.expected now) maxCount, min (s.missing now) maxCount) ∧
      (l.snapshot now).1.2 ≤ (l.snapshot now).1.1 ∧
      (l.snapshot now).2.highest = s.highest ∧
      (l.snapshot now).2.pending.length = s.pending ∧
      s.finalized + s.pending = s.places.length ∧
      l.pending.length ≤ receiverTelemetryCapacity := by
  intro l s
  have ht' : (0 :: (calls.map Prod.snd ++ [now])).Pairwise (· ≤ ·) :=
    List.pairwise_cons.2 ⟨fun t _ => Nat.zero_le t, ht⟩
  obtain ⟨fin, h, hv⟩ := Shows.new.after ht'
  obtain ⟨fin₁, h₁, hv₁, -, -⟩ := h.settle
  have hs : (l.finalizeDue now).view fin₁ = s := hv₁.trans (congrArg (·.settle now) hv)
  have hcounts : (l.snapshot now).1 =
      (min (s.expected now) maxCount, min (s.missing now) maxCount) := by
    rw [← hs]
    exact h₁.counts
  have hpending : (l.finalizeDue now).pending.length = s.pending := by
    have hall : ((l.finalizeDue now).pending.map waiting).countP (·.final.isNone) =
        (l.finalizeDue now).pending.length := by
      rw [List.countP_map]
      exact List.countP_eq_length.2 fun p _ => rfl
    have hnone : (fin₁.map settled).countP (·.final.isNone) = 0 := by
      rw [List.countP_map]
      exact List.countP_eq_zero.2 fun e _ => by simp [settled]
    rw [← hs, Stream.pending, view, List.countP_append, hall, hnone, Nat.zero_add]
  refine ⟨hcounts, ?_, ?_, hpending, s.finalized_add_pending, h.bound⟩
  · have hle := s.missing_le_expected now
    rw [hcounts]
    show min _ _ ≤ min _ _
    omega
  · rw [← hs]
    rfl

/-- Two datagrams, one of them lost: the lost position and the received one are both expected. -/
theorem loss_counts_gap :
    let s := (Stream.new.after [(.observe 10, 0), (.observe 12, 0)]).settle 100000000
    ((new.after [(.observe 10, 0), (.observe 12, 0)]).snapshot 100000000).1 =
      (min (s.expected 100000000) maxCount, min (s.missing 100000000) maxCount) ∧
      s.places.length = 3 :=
  ⟨(loss_counts [(.observe 10, 0), (.observe 12, 0)] 100000000 (by decide)).1, by decide⟩

/-- Neither a pending position is expected nor one that became final long ago: a datagram is not at
its arrival, and no longer six seconds later. -/
theorem pending_not_expected :
    let s := Stream.new.after [(.observe 10, 0)]
    (((new.after [(.observe 10, 0)]).snapshot 0).1 = (0, 0) ∧
        (s.settle 0).finalized + (s.settle 0).pending = 1) ∧
      ((new.after [(.observe 10, 0)]).snapshot 6000000000).1 = (0, 0) ∧
        (s.settle 6000000000).finalized = 1 := by
  decide

end PacketLoss
end MahoRD
