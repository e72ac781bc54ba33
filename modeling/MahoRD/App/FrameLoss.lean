/-
MahoRD/App/FrameLoss.lean

How the client counts lost frames (`track_loss` and `loss_ratio` of
`FrameAssembler`).  The assembler expects the id after the newest frame it has
heard of.  A header at a serial distance of less than half the range ahead of it
skips that many frames, which are counted as lost, and the expected id advances
past it: by one more than was lost.

The two tests differ by one step: whether frames were skipped is decided on the
header's id, whether the expected id advances on the id after it.  A header
exactly `2 ^ 31 - 1` ahead (`atEdge`) has its gap counted and advances nothing, so
that the same gap is counted again with every repetition of the header.
-/
import MahoRD.App.FrameReception
import Mathlib.Tactic.Positivity

namespace MahoRD.FrameAssembler

/-! ### One header -/

/-- What `track_loss` counts as lost for a header of the id. -/
def countLost (s : FrameAssembler) (frameId : UInt32) : ℕ :=
  match s.expectedFrameId with
  | none => 0
  | some expected =>
    let forward := frameId - expected
    if forward < serialHalfRange then forward.toNat else 0

theorem recentLoss_trackLoss (s : FrameAssembler) (frameId : UInt32) (now : ℕ) :
    (s.trackLoss frameId now).recentLoss =
      trimLoss now (s.recentLoss ++ [(now, s.countLost frameId, s.countLost frameId + 1)]) :=
  rfl

/-- How far a call has advanced the expected id.  The first header sets it. -/
def distance (s s' : FrameAssembler) : ℕ :=
  match s.expectedFrameId, s'.expectedFrameId with
  | some expected, some expected' => (expected' - expected).toNat
  | _, _ => 0

/-- The header is at the greatest distance that counts as ahead. -/
def atEdge (s : FrameAssembler) (frameId : UInt32) : Prop :=
  ∃ expected ∈ s.expectedFrameId, frameId - expected = serialHalfRange - 1

instance (s : FrameAssembler) (frameId : UInt32) : Decidable (s.atEdge frameId) := by
  unfold atEdge
  infer_instance

/-- What a header does to the expected id and the count. -/
inductive Tracked (s : FrameAssembler) (frameId : UInt32) (now : ℕ) : Prop
  | first (hnone : s.expectedFrameId = none) (hlost : s.countLost frameId = 0)
    (hnext : (s.trackLoss frameId now).expectedFrameId = some (frameId + 1))
  | ahead (expected : UInt32) (hexpected : s.expectedFrameId = some expected)
    (hlost : s.countLost frameId = (frameId - expected).toNat)
    (hnext : (s.trackLoss frameId now).expectedFrameId = some (frameId + 1))
    (hdistance : (frameId + 1 - expected).toNat = (frameId - expected).toNat + 1)
    (hsafe : ¬ s.atEdge frameId)
  | edge (expected : UInt32) (hexpected : s.expectedFrameId = some expected)
    (hlost : s.countLost frameId = 2 ^ 31 - 1)
    (hnext : (s.trackLoss frameId now).expectedFrameId = some expected)
    (hedge : s.atEdge frameId)
  | late (expected : UInt32) (hexpected : s.expectedFrameId = some expected)
    (hlate : ¬ serialNotBefore frameId expected = true) (hlost : s.countLost frameId = 0)
    (hnext : (s.trackLoss frameId now).expectedFrameId = some expected)
    (hsafe : ¬ s.atEdge frameId)

/-- The id after the header's is one further ahead, but for the wrap to the expected id itself. -/
theorem toNat_successor (frameId expected : UInt32) :
    (frameId + 1 - expected).toNat = ((frameId - expected).toNat + 1) % 2 ^ 32 := by
  have hsucc : frameId + 1 - expected = frameId - expected + 1 := by
    rw [UInt32.sub_eq_add_neg, UInt32.sub_eq_add_neg, UInt32.add_assoc, UInt32.add_comm 1,
      UInt32.add_assoc]
  rw [hsucc, UInt32.toNat_add]
  rfl

theorem tracked (s : FrameAssembler) (frameId : UInt32) (now : ℕ) : s.Tracked frameId now := by
  rcases he : s.expectedFrameId with - | expected
  · exact .first he (by rw [countLost, he]) (by simp only [trackLoss, he])
  have hforward := (frameId - expected).toNat_lt
  have hsucc := toNat_successor frameId expected
  have hlost : s.countLost frameId =
      if (frameId - expected).toNat < 2 ^ 31 then (frameId - expected).toNat else 0 := by
    rw [countLost, he]
    exact if_congr UInt32.lt_iff_toNat_lt rfl rfl
  have hnext : (s.trackLoss frameId now).expectedFrameId = some
      (if frameId + 1 ≠ expected ∧ serialNotBefore (frameId + 1) expected then frameId + 1
        else expected) := by
    simp only [trackLoss, he]
  have hzero : frameId + 1 = expected ↔ (frameId + 1 - expected).toNat = 0 := by
    rw [← UInt32.toNat_zero, UInt32.toNat_inj, UInt32.sub_eq_iff_eq_add, UInt32.zero_add]
  have hadvance : (frameId + 1 ≠ expected ∧ serialNotBefore (frameId + 1) expected = true) ↔
      (frameId - expected).toNat + 1 < 2 ^ 31 := by
    rw [serialNotBefore, decide_eq_true_eq, UInt32.lt_iff_toNat_lt, ne_eq, hzero, hsucc]
    show ¬ _ = 0 ∧ _ < 2 ^ 31 ↔ _
    omega
  have hedge : s.atEdge frameId ↔ (frameId - expected).toNat = 2 ^ 31 - 1 := by
    simp only [atEdge, he, Option.mem_some_iff, exists_eq_left']
    rw [← UInt32.toNat_inj]
    rfl
  have hbefore : serialNotBefore frameId expected = true ↔
      (frameId - expected).toNat < 2 ^ 31 := by
    rw [serialNotBefore, decide_eq_true_eq]
    exact UInt32.lt_iff_toNat_lt
  rcases Nat.lt_trichotomy (frameId - expected).toNat (2 ^ 31 - 1) with hlt | heq | hgt
  · rw [if_pos (by omega)] at hlost
    rw [if_pos (hadvance.mpr (by omega))] at hnext
    exact .ahead expected he hlost hnext (by omega) (mt hedge.mp (by omega))
  · rw [if_pos (by omega), heq] at hlost
    rw [if_neg (mt hadvance.mp (by omega))] at hnext
    exact .edge expected he hlost hnext (hedge.mpr heq)
  · rw [if_neg (by omega)] at hlost
    rw [if_neg (mt hadvance.mp (by omega))] at hnext
    exact .late expected he (mt hbefore.mp (by omega)) hlost hnext (mt hedge.mp (by omega))

/-! ### The ratio -/

/-- `loss_ratio`; the quotient is taken exactly. -/
def lossRatio (s : FrameAssembler) (now : ℕ) : ℚ × FrameAssembler :=
  let recent := trimLoss now s.recentLoss
  let lost := (recent.map fun sample => sample.2.1).sum
  let total := (recent.map fun sample => sample.2.2).sum
  (if total = 0 then 0 else lost / total, { s with recentLoss := recent })

/-- No sample has lost more than it has counted. -/
def Sampled (s : FrameAssembler) : Prop := ∀ sample ∈ s.recentLoss, sample.2.1 ≤ sample.2.2

theorem mem_of_trimLoss {now : ℕ} {samples : List (ℕ × ℕ × ℕ)} {sample : ℕ × ℕ × ℕ}
    (h : sample ∈ trimLoss now samples) : sample ∈ samples := by
  induction samples with
  | nil => exact h
  | cons first rest ih =>
    rw [trimLoss] at h
    split at h
    · exact List.mem_cons_of_mem _ (ih h)
    · exact h

theorem sampled_new : Sampled new := by
  intro sample h
  cases h

variable {s : FrameAssembler}

theorem Sampled.trackLoss (h : Sampled s) (frameId : UInt32) (now : ℕ) :
    Sampled (s.trackLoss frameId now) := by
  intro sample hmem
  rw [recentLoss_trackLoss] at hmem
  rcases List.mem_append.mp (mem_of_trimLoss hmem) with hold | hnew
  · exact h sample hold
  · obtain rfl := List.mem_singleton.mp hnew
    exact Nat.le_succ _

theorem Sampled.lossRatio (h : Sampled s) (now : ℕ) :
    0 ≤ (s.lossRatio now).1 ∧ (s.lossRatio now).1 ≤ 1 := by
  unfold FrameAssembler.lossRatio
  dsimp only
  have hle : ((trimLoss now s.recentLoss).map fun sample => sample.2.1).sum ≤
      ((trimLoss now s.recentLoss).map fun sample => sample.2.2).sum :=
    List.sum_le_sum fun sample hmem => h sample (mem_of_trimLoss hmem)
  split
  · exact ⟨le_refl _, zero_le_one⟩
  · exact ⟨by positivity, div_le_one_of_le₀ (by exact_mod_cast hle) (by positivity)⟩

/-! ### A sequence of headers -/

/-- The calls one after another. -/
def trackLosses (s : FrameAssembler) (headers : List (UInt32 × ℕ)) : FrameAssembler :=
  headers.foldl (fun s header => s.trackLoss header.1 header.2) s

/-- Over a sequence of headers: the frames counted as lost, how far the expected id advanced and
how many headers advanced it. -/
structure Tally where
  lost : ℕ
  distance : ℕ
  advances : ℕ
  deriving DecidableEq

def tally : FrameAssembler → List (UInt32 × ℕ) → Tally
  | _, [] => ⟨0, 0, 0⟩
  | s, (frameId, now) :: rest =>
    let s' := s.trackLoss frameId now
    let t := tally s' rest
    ⟨s.countLost frameId + t.lost, s.distance s' + t.distance,
      (if s.distance s' = 0 then 0 else 1) + t.advances⟩

/-- The headers that have been at the edge. -/
def edges : FrameAssembler → List (UInt32 × ℕ) → ℕ
  | _, [] => 0
  | s, (frameId, now) :: rest =>
    (if s.atEdge frameId then 1 else 0) + edges (s.trackLoss frameId now) rest

/-- No header is at the edge when it comes. -/
def OffEdge (s : FrameAssembler) (headers : List (UInt32 × ℕ)) : Prop :=
  ∀ before frameId now after, headers = before ++ (frameId, now) :: after →
    ¬ (s.trackLosses before).atEdge frameId

theorem edges_eq_zero {headers : List (UInt32 × ℕ)} :
    edges s headers = 0 ↔ OffEdge s headers := by
  induction headers generalizing s with
  | nil => exact ⟨fun _ before frameId now after h => by simp at h, fun _ => rfl⟩
  | cons header rest ih =>
    obtain ⟨frameId, now⟩ := header
    rw [edges, Nat.add_eq_zero_iff, ih]
    constructor
    · rintro ⟨hfirst, hrest⟩ before id at' after heq
      rcases before with - | ⟨first, before⟩
      · cases heq
        exact fun hedge => absurd (if_pos hedge) (hfirst ▸ Nat.zero_ne_one)
      · obtain ⟨rfl, hafter⟩ := List.cons.inj heq
        exact hrest before id at' after hafter
    · intro h
      refine ⟨if_neg (h [] frameId now rest rfl), fun before id at' after heq => ?_⟩
      exact h ((frameId, now) :: before) id at' after (congrArg (_ :: ·) heq)

theorem countLost_step (s : FrameAssembler) (frameId : UInt32) (now : ℕ) :
    s.countLost frameId + (if s.distance (s.trackLoss frameId now) = 0 then 0 else 1) =
      s.distance (s.trackLoss frameId now) +
        (if s.atEdge frameId then 1 else 0) * (2 ^ 31 - 1) := by
  cases tracked s frameId now with
  | first hnone hlost hnext =>
    have hdistance : s.distance (s.trackLoss frameId now) = 0 := by rw [distance, hnone]
    have hsafe : ¬ s.atEdge frameId := by simp [atEdge, hnone]
    rw [hlost, hdistance, if_pos rfl, if_neg hsafe, Nat.zero_mul]
  | ahead expected hexpected hlost hnext hsucc hsafe =>
    have hdistance : s.distance (s.trackLoss frameId now) =
        (frameId - expected).toNat + 1 := by
      rw [distance, hexpected, hnext]
      exact hsucc
    rw [hlost, hdistance, if_neg (Nat.succ_ne_zero _), if_neg hsafe]
    omega
  | edge expected hexpected hlost hnext hedge =>
    have hdistance : s.distance (s.trackLoss frameId now) = 0 := by
      simp [distance, hexpected, hnext]
    rw [hlost, hdistance, if_pos rfl, if_pos hedge]
    omega
  | late expected hexpected hlate hlost hnext hsafe =>
    have hdistance : s.distance (s.trackLoss frameId now) = 0 := by
      simp [distance, hexpected, hnext]
    rw [hlost, hdistance, if_pos rfl, if_neg hsafe]
    omega

theorem lost_add_advances (s : FrameAssembler) (headers : List (UInt32 × ℕ)) :
    (tally s headers).lost + (tally s headers).advances =
      (tally s headers).distance + edges s headers * (2 ^ 31 - 1) := by
  induction headers generalizing s with
  | nil => simp [tally, edges]
  | cons header rest ih =>
    obtain ⟨frameId, now⟩ := header
    have hrest := ih (s.trackLoss frameId now)
    have hstep := countLost_step s frameId now
    rw [tally, edges]
    dsimp only
    rw [Nat.add_mul]
    omega

theorem countLost_again {frameId : UInt32} {now : ℕ}
    (h : ¬ s.atEdge frameId) : (s.trackLoss frameId now).countLost frameId = 0 := by
  have hself : ∀ {t : FrameAssembler}, t.expectedFrameId = some (frameId + 1) →
      t.countLost frameId = 0 := by
    intro t ht
    have hdistance := toNat_successor frameId (frameId + 1)
    rw [UInt32.sub_self, UInt32.toNat_zero] at hdistance
    have hlt := (frameId - (frameId + 1)).toNat_lt
    rw [countLost, ht]
    refine if_neg fun hhalf => ?_
    have hhalf := UInt32.lt_iff_toNat_lt.mp hhalf
    change _ < 2 ^ 31 at hhalf
    omega
  cases tracked s frameId now with
  | first hnone hlost hnext => exact hself hnext
  | ahead expected hexpected hlost hnext hsucc hsafe => exact hself hnext
  | edge expected hexpected hlost hnext hedge => exact absurd hedge h
  | late expected hexpected hlate hlost hnext hsafe =>
    rw [countLost, hexpected] at hlost
    rw [countLost, hnext]
    exact hlost

theorem Sampled.trackLosses (h : Sampled s) (headers : List (UInt32 × ℕ)) :
    Sampled (s.trackLosses headers) := by
  induction headers generalizing s with
  | nil => exact h
  | cons header rest ih => exact ih (h.trackLoss header.1 header.2)

/-- **An exact count**: what is lost is the distance advanced less the headers that advanced, a
header that comes again or late counts nothing, and the ratio is between 0 and 1. -/
structure Exact (headers : List (UInt32 × ℕ)) : Prop where
  counted : (tally new headers).lost + (tally new headers).advances = (tally new headers).distance
  again : ∀ before frameId now after, headers = before ++ (frameId, now) :: after →
    (new.trackLosses (before ++ [(frameId, now)])).countLost frameId = 0
  late : ∀ before frameId now after, headers = before ++ (frameId, now) :: after →
    ∀ expected ∈ (new.trackLosses before).expectedFrameId,
      ¬ serialNotBefore frameId expected = true → (new.trackLosses before).countLost frameId = 0
  ratio : ∀ now, 0 ≤ ((new.trackLosses headers).lossRatio now).1 ∧
    ((new.trackLosses headers).lossRatio now).1 ≤ 1

/-- **The count is exact iff no header comes at the edge.** -/
theorem loss_exact (headers : List (UInt32 × ℕ)) : Exact headers ↔ OffEdge new headers := by
  have hsum := lost_add_advances new headers
  constructor
  · intro h
    rw [h.counted] at hsum
    rw [← edges_eq_zero]
    omega
  · intro h
    rw [edges_eq_zero.mpr h, Nat.zero_mul, Nat.add_zero] at hsum
    refine ⟨hsum, fun before frameId now after heq => ?_, ?_, ?_⟩
    · rw [trackLosses, List.foldl_append]
      exact countLost_again (h before frameId now after heq)
    · rintro before frameId now after - expected hexpected hlate
      rw [countLost, Option.mem_def.mp hexpected]
      exact if_neg fun hforward => hlate (decide_eq_true hforward)
    · exact fun now => (sampled_new.trackLosses headers).lossRatio now

/-- A header `2 ^ 31 - 1` ahead that comes twice: its gap is counted twice, and nothing advanced. -/
theorem loss_counted_twice :
    tally new [(0, 0), (2147483648, 0), (2147483648, 0)] = ⟨2 * (2 ^ 31 - 1), 0, 0⟩ ∧
      ¬ Exact [(0, 0), (2147483648, 0), (2147483648, 0)] := by
  have htally : tally new [(0, 0), (2147483648, 0), (2147483648, 0)] =
      ⟨2 * (2 ^ 31 - 1), 0, 0⟩ := by
    decide
  refine ⟨htally, fun h => ?_⟩
  have hcounted := h.counted
  rw [htally] at hcounted
  simp at hcounted

/-! ### The headers of a stream of packets -/

end MahoRD.FrameAssembler
