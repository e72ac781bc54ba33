/-
MahoRD/App/Latency.lean

The latency recorder (`maho-app/src/latency.rs`).  Instants and durations are numbers of
nanoseconds, and an `f64` is the rational that it stands for.

Once its ring is full, a new sample is written over the oldest one.  The ring then turns, and
turned back it is the list of the newest samples, in the order of their insertion.
-/
import MahoRD.Lib.Newest
import MahoRD.Lib.Rounding
import Mathlib.Data.List.GetD
import Mathlib.Data.List.Sort

namespace MahoRD.Latency

/-- A latency in microseconds, and when it was observed. -/
abbrev Sample := ℕ × Option ℕ

structure LatencyRecorder where
  samples : List Sample
  capacity : ℕ
  index : ℕ
  count : ℕ

structure LatencyStats where
  frames : ℕ
  p50Us : ℕ
  p95Us : ℕ
  p99Us : ℕ
  maxUs : ℕ

def u64Max : ℕ := 2 ^ 64 - 1

/-- The nearest `f64`. -/
def f64 (q : ℚ) : ℚ := Rounding.nearest 52 q

/-- `((len - 1) as f64 * percentile.clamp(0.0, 1.0)).round()`. -/
def rank (len : ℕ) (percentile : ℚ) : ℕ :=
  (round (f64 (f64 (len - 1 : ℕ) * max 0 (min percentile 1)))).toNat

def percentileSorted (sorted : List ℕ) (percentile : ℚ) : ℕ :=
  match sorted with
  | [] => 0
  | [only] => only
  | _ => sorted.getD (min (rank sorted.length percentile) (sorted.length - 1)) 0

def statsFromSamples (samples : List ℕ) (frames : ℕ) : LatencyStats :=
  if samples.isEmpty then ⟨0, 0, 0, 0, 0⟩
  else
    let sorted := samples.mergeSort
    { frames
      p50Us := percentileSorted sorted (f64 0.50)
      p95Us := percentileSorted sorted (f64 0.95)
      p99Us := percentileSorted sorted (f64 0.99)
      maxUs := sorted.getD (sorted.length - 1) 0 }

/-- `as_micros`, as wide as a `u64`. -/
def asMicros (latency : ℕ) : ℕ := min (latency / 1000) u64Max

def checkedDurationSince (now earlier : ℕ) : Option ℕ :=
  if earlier ≤ now then some (now - earlier) else none

namespace LatencyRecorder

def withCapacity (capacity : ℕ) : LatencyRecorder := ⟨[], max capacity 1, 0, 0⟩

def pushSample (r : LatencyRecorder) (latencyUs : ℕ) (observedAt : Option ℕ) :
    LatencyRecorder :=
  { r with
    samples :=
      if r.samples.length < r.capacity then r.samples ++ [(latencyUs, observedAt)]
      else r.samples.set r.index (latencyUs, observedAt)
    index := (r.index + 1) % r.capacity
    count := min (r.count + 1) u64Max }

def recordUs (r : LatencyRecorder) (latencyUs : ℕ) : LatencyRecorder :=
  r.pushSample latencyUs none

def recordUsAt (r : LatencyRecorder) (latencyUs observedAt : ℕ) : LatencyRecorder :=
  r.pushSample latencyUs (some observedAt)

def recordDuration (r : LatencyRecorder) (latency : ℕ) : LatencyRecorder :=
  r.recordUs (asMicros latency)

def recordDurationAt (r : LatencyRecorder) (latency observedAt : ℕ) : LatencyRecorder :=
  r.recordUsAt (asMicros latency) observedAt

/-- The duration since a later instant is zero. -/
def recordSample (r : LatencyRecorder) (captureTs : Option ℕ) (decodeTs presentTs : ℕ) :
    LatencyRecorder :=
  r.recordDuration (presentTs - captureTs.getD decodeTs)

def recordInterval (r : LatencyRecorder) (startedAt completedAt : ℕ) :
    Bool × LatencyRecorder :=
  match checkedDurationSince completedAt startedAt with
  | none => (false, r)
  | some latency => (true, r.recordDurationAt latency completedAt)

def statsAt (r : LatencyRecorder) (now window : ℕ) : Option LatencyStats :=
  let samples := r.samples.filterMap fun (latencyUs, observedAt) => do
    let age ← checkedDurationSince now (← observedAt)
    if age ≤ window then some latencyUs else none
  if samples.isEmpty then none else some (statsFromSamples samples samples.length)

end LatencyRecorder

/-! ### Runs -/

inductive Call
  | sample (captureTs : Option ℕ) (decodeTs presentTs : ℕ)
  | duration (latency : ℕ)
  | us (latencyUs : ℕ)
  | usAt (latencyUs observedAt : ℕ)
  | durationAt (latency observedAt : ℕ)
  | interval (startedAt completedAt : ℕ)

def step (r : LatencyRecorder) : Call → LatencyRecorder
  | .sample captureTs decodeTs presentTs => r.recordSample captureTs decodeTs presentTs
  | .duration latency => r.recordDuration latency
  | .us latencyUs => r.recordUs latencyUs
  | .usAt latencyUs observedAt => r.recordUsAt latencyUs observedAt
  | .durationAt latency observedAt => r.recordDurationAt latency observedAt
  | .interval startedAt completedAt => (r.recordInterval startedAt completedAt).2

def run (capacity : ℕ) (calls : List Call) : LatencyRecorder :=
  calls.foldl step (.withCapacity capacity)

/-- What a call inserts.  An interval that ends before it starts is not inserted. -/
def Call.insertion : Call → Option Sample
  | .sample captureTs decodeTs presentTs =>
    some (asMicros (presentTs - captureTs.getD decodeTs), none)
  | .duration latency => some (asMicros latency, none)
  | .us latencyUs => some (latencyUs, none)
  | .usAt latencyUs observedAt => some (latencyUs, some observedAt)
  | .durationAt latency observedAt => some (asMicros latency, some observedAt)
  | .interval startedAt completedAt =>
    if startedAt ≤ completedAt then some (asMicros (completedAt - startedAt), some completedAt)
    else none

def inserted (calls : List Call) : List Sample := calls.filterMap Call.insertion

/-- The latencies that were observed no earlier than `window` before `now`, and no later than
`now`. -/
def within (now window : ℕ) (samples : List Sample) : List ℕ :=
  (samples.filter fun s => s.2.any fun t => t ≤ now ∧ now ≤ t + window).map Prod.fst

/-! ### The ring -/

/-- The ring of `n` places after these insertions. -/
structure Keeps (n : ℕ) (inserted : List Sample) (r : LatencyRecorder) : Prop where
  capacity_eq : r.capacity = n
  length_eq : r.samples.length = min n inserted.length
  index_eq : r.index = inserted.length % n
  rotate_eq : r.samples.rotate r.index = inserted.rtake n

theorem Keeps.push {n : ℕ} {samples : List Sample} {r : LatencyRecorder}
    (h : Keeps n samples r) (hn : 0 < n) (s : Sample) :
    Keeps n (samples ++ [s]) (r.pushSample s.1 s.2) := by
  have hindex : (r.index + 1) % r.capacity = (samples ++ [s]).length % n := by
    rw [h.capacity_eq, h.index_eq, Nat.mod_add_mod, List.length_append, List.length_singleton]
  have hlength := h.length_eq
  by_cases hfull : r.samples.length < n
  · -- As long as there is room, the ring has not turned.
    have hsamples : r.samples = samples := by
      have hrotate := h.rotate_eq
      have hlt : samples.length < n := by omega
      rwa [h.index_eq, Nat.mod_eq_of_lt hlt, Newest.rtake_eq_self hlt.le,
        show samples.length = r.samples.length by omega, List.rotate_length] at hrotate
    have hpush : (r.pushSample s.1 s.2).samples = samples ++ [s] := by
      rw [LatencyRecorder.pushSample, h.capacity_eq, if_pos hfull, hsamples]
    have hle : (samples ++ [s]).length ≤ n := by
      rw [List.length_append, List.length_singleton]
      omega
    refine ⟨h.capacity_eq, by rw [hpush, Nat.min_eq_right hle], hindex, ?_⟩
    rw [hpush, Newest.rtake_eq_self hle, show (r.pushSample s.1 s.2).index = _ from hindex]
    rcases hle.eq_or_lt with heq | hlt
    · rw [heq, Nat.mod_self, List.rotate_zero]
    · rw [Nat.mod_eq_of_lt hlt, List.rotate_length]
  · have hpush : (r.pushSample s.1 s.2).samples = r.samples.set r.index s := by
      rw [LatencyRecorder.pushSample, h.capacity_eq, if_neg hfull]
    refine ⟨h.capacity_eq, ?_, hindex, ?_⟩
    · rw [hpush, List.length_set, List.length_append, List.length_singleton]
      omega
    · rw [hpush]
      have hlt : r.index < n := by
        rw [h.index_eq]
        exact Nat.mod_lt _ hn
      have hset := Newest.rotate_set_rtake (by omega) hlt (by omega) h.rotate_eq s
      rwa [show (r.pushSample s.1 s.2).index = _ from hindex, ← hindex, h.capacity_eq]

theorem step_eq (r : LatencyRecorder) (c : Call) :
    step r c = (c.insertion.map fun s => r.pushSample s.1 s.2).getD r := by
  cases c with
  | interval startedAt completedAt =>
    by_cases h : startedAt ≤ completedAt
    · simp only [step, LatencyRecorder.recordInterval, checkedDurationSince, Call.insertion,
        if_pos h]
      rfl
    · simp only [step, LatencyRecorder.recordInterval, checkedDurationSince, Call.insertion,
        if_neg h]
      rfl
  | _ => rfl

theorem inserted_concat (calls : List Call) (c : Call) :
    inserted (calls ++ [c]) = inserted calls ++ c.insertion.toList := by
  rw [inserted, List.filterMap_append]
  cases h : c.insertion <;> simp [inserted, h]

theorem run_concat (capacity : ℕ) (calls : List Call) (c : Call) :
    run capacity (calls ++ [c]) = step (run capacity calls) c := List.foldl_concat _ _ _ _

theorem keeps_run (capacity : ℕ) (calls : List Call) :
    Keeps (max capacity 1) (inserted calls) (run capacity calls) := by
  induction calls using List.reverseRecOn with
  | nil => exact ⟨rfl, (Nat.min_zero _).symm, (Nat.zero_mod _).symm, (List.rtake_nil _).symm⟩
  | append_singleton calls c ih =>
    rw [run_concat, step_eq, inserted_concat]
    cases c.insertion with
    | none => rwa [Option.toList_none, List.append_nil]
    | some s => exact ih.push (by omega) s

/-! ### Percentiles -/

theorem f64_pos {q : ℚ} (hq : 0 < q) : 0 < f64 q :=
  (zpow_pos two_pos _).trans_le (Rounding.le_nearest hq)

theorem rank_mono {len : ℕ} {p q : ℚ} (hlen : 1 < len) (hp : 0 < p) (h : p ≤ q) :
    rank len p ≤ rank len q := by
  have hpos : 0 < f64 (len - 1 : ℕ) := f64_pos (by exact_mod_cast Nat.sub_pos_of_lt hlen)
  have hclamp : 0 < max 0 (min p 1) := lt_max_of_lt_right (lt_min hp one_pos)
  refine Int.toNat_le_toNat (Axis.round_mono (Rounding.nearest_mono (mul_pos hpos hclamp) ?_))
  exact mul_le_mul_of_nonneg_left (max_le_max_left 0 (min_le_min_right 1 h)) hpos.le

variable {sorted : List ℕ} {p q : ℚ}

theorem getD_le_getD (h : sorted.SortedLE) {i j : ℕ} (hij : i ≤ j) (hj : j < sorted.length) :
    sorted.getD i 0 ≤ sorted.getD j 0 := by
  rw [List.getD_eq_getElem _ _ (hij.trans_lt hj), List.getD_eq_getElem _ _ hj]
  exact h.getElem_le_getElem_of_le hij

theorem percentileSorted_eq (hne : sorted ≠ []) (p : ℚ) :
    percentileSorted sorted p =
      sorted.getD (min (rank sorted.length p) (sorted.length - 1)) 0 := by
  match sorted with
  | [only] => simp [percentileSorted]
  | _ :: _ :: _ => rfl

theorem percentileSorted_mem (hne : sorted ≠ []) (p : ℚ) :
    percentileSorted sorted p ∈ sorted := by
  have hpos := List.length_pos_iff.mpr hne
  rw [percentileSorted_eq hne, List.getD_eq_getElem _ _ (by omega)]
  apply List.getElem_mem

theorem percentileSorted_le_last (h : sorted.SortedLE) (hne : sorted ≠ []) (p : ℚ) :
    percentileSorted sorted p ≤ sorted.getD (sorted.length - 1) 0 := by
  have hpos := List.length_pos_iff.mpr hne
  rw [percentileSorted_eq hne]
  exact getD_le_getD h (Nat.min_le_right _ _) (by omega)

theorem percentileSorted_mono (h : sorted.SortedLE) (hp : 0 < p) (hpq : p ≤ q) :
    percentileSorted sorted p ≤ percentileSorted sorted q := by
  match sorted with
  | [] => exact le_rfl
  | [_] => exact le_rfl
  | a :: b :: rest =>
    have hlen : 1 < (a :: b :: rest).length := by simp
    rw [percentileSorted_eq (List.cons_ne_nil _ _), percentileSorted_eq (List.cons_ne_nil _ _)]
    exact getD_le_getD h (min_le_min_right _ (rank_mono hlen hp hpq)) (by omega)

theorem le_last (h : sorted.SortedLE) {a : ℕ} (ha : a ∈ sorted) :
    a ≤ sorted.getD (sorted.length - 1) 0 := by
  obtain ⟨i, hi, rfl⟩ := List.getElem_of_mem ha
  rw [← List.getD_eq_getElem _ 0 hi]
  exact getD_le_getD h (by omega) (by omega)

theorem mergeSort_congr {samples samples' : List ℕ} (h : samples.Perm samples') :
    samples.mergeSort = samples'.mergeSort :=
  List.Perm.eq_of_sortedLE List.sortedLE_mergeSort List.sortedLE_mergeSort
    ((samples.mergeSort_perm _).trans (h.trans (samples'.mergeSort_perm _).symm))

theorem statsFromSamples_congr {samples samples' : List ℕ} (h : samples.Perm samples')
    (frames : ℕ) : statsFromSamples samples frames = statsFromSamples samples' frames := by
  rw [statsFromSamples, statsFromSamples, mergeSort_congr h, h.isEmpty_eq]

/-- The statistics of these latencies. -/
structure Summarizes (latencies : List ℕ) (stats : LatencyStats) : Prop where
  stats_eq : stats = statsFromSamples latencies latencies.length
  frames_eq : stats.frames = latencies.length
  p50_mem : stats.p50Us ∈ latencies
  p95_mem : stats.p95Us ∈ latencies
  p99_mem : stats.p99Us ∈ latencies
  max_mem : stats.maxUs ∈ latencies
  p50_le_p95 : stats.p50Us ≤ stats.p95Us
  p95_le_p99 : stats.p95Us ≤ stats.p99Us
  p99_le_max : stats.p99Us ≤ stats.maxUs
  le_max : ∀ a ∈ latencies, a ≤ stats.maxUs

theorem summarizes {latencies : List ℕ} (h : latencies ≠ []) :
    Summarizes latencies (statsFromSamples latencies latencies.length) := by
  have hsorted : latencies.mergeSort.SortedLE := List.sortedLE_mergeSort
  have hmem {a : ℕ} : a ∈ latencies.mergeSort ↔ a ∈ latencies := List.mem_mergeSort
  have hne : latencies.mergeSort ≠ [] := by
    rwa [← List.length_pos_iff, List.length_mergeSort, List.length_pos_iff]
  have hpos := List.length_pos_iff.mpr hne
  have hf64 {p q : ℚ} (hp : 0 < p) (hpq : p ≤ q) : 0 < f64 p ∧ f64 p ≤ f64 q :=
    ⟨f64_pos hp, Rounding.nearest_mono hp hpq⟩
  have h50 := hf64 (p := 0.50) (q := 0.95) (by norm_num) (by norm_num)
  have h95 := hf64 (p := 0.95) (q := 0.99) (by norm_num) (by norm_num)
  have heq : statsFromSamples latencies latencies.length =
      ⟨latencies.length, percentileSorted latencies.mergeSort (f64 0.50),
        percentileSorted latencies.mergeSort (f64 0.95),
        percentileSorted latencies.mergeSort (f64 0.99),
        latencies.mergeSort.getD (latencies.mergeSort.length - 1) 0⟩ := by
    rw [statsFromSamples, if_neg (by rwa [List.isEmpty_iff])]
  rw [heq]
  exact {
    stats_eq := heq.symm
    frames_eq := rfl
    p50_mem := hmem.mp (percentileSorted_mem hne _)
    p95_mem := hmem.mp (percentileSorted_mem hne _)
    p99_mem := hmem.mp (percentileSorted_mem hne _)
    max_mem := hmem.mp (by
      rw [List.getD_eq_getElem _ _ (by omega)]
      apply List.getElem_mem)
    p50_le_p95 := percentileSorted_mono hsorted h50.1 h50.2
    p95_le_p99 := percentileSorted_mono hsorted h95.1 h95.2
    p99_le_max := percentileSorted_le_last hsorted hne _
    le_max := fun a ha => le_last hsorted (hmem.mpr ha) }

/-! ### The window -/

theorem statsAt_eq (r : LatencyRecorder) (now window : ℕ) :
    r.statsAt now window =
      if within now window r.samples = [] then none
      else some (statsFromSamples (within now window r.samples)
        (within now window r.samples).length) := by
  have hwithin (samples : List Sample) :
      (samples.filterMap fun (latencyUs, observedAt) => do
        let age ← checkedDurationSince now (← observedAt)
        if age ≤ window then some latencyUs else none) = within now window samples := by
    induction samples with
    | nil => rfl
    | cons s samples ih =>
      obtain ⟨latencyUs, _ | t⟩ := s
      · simpa [within] using ih
      · by_cases hpast : t ≤ now
        · by_cases hage : now - t ≤ window
          · have hwindow : now ≤ t + window := by omega
            simpa [within, checkedDurationSince, hpast, hage, hwindow] using ih
          · have hwindow : ¬ now ≤ t + window := by omega
            simpa [within, checkedDurationSince, hpast, hage, hwindow] using ih
        · simpa [within, checkedDurationSince, hpast] using ih
  simp only [LatencyRecorder.statsAt, hwithin, List.isEmpty_iff]

/-- **The recorder reports its window.**  The ring, turned back, is the list of the newest
samples, and the statistics at an instant are those of the samples among them that were observed
within the window, if there are any. -/
theorem recorder_reports_window (capacity : ℕ) (calls : List Call) :
    let r := run capacity calls
    let newest := (inserted calls).rtake (max capacity 1)
    r.samples.rotate r.index = newest ∧
      ∀ now window,
        (within now window newest = [] → r.statsAt now window = none) ∧
        (within now window newest ≠ [] →
          ∃ stats, r.statsAt now window = some stats ∧
            Summarizes (within now window newest) stats) := by
  intro r newest
  have hkeeps := keeps_run capacity calls
  refine ⟨hkeeps.rotate_eq, fun now window => ?_⟩
  have hperm : (within now window r.samples).Perm (within now window newest) := by
    have hrotate : r.samples.Perm newest :=
      (List.rotate_perm r.samples r.index).symm.trans (.of_eq hkeeps.rotate_eq)
    exact (hrotate.filter _).map _
  rw [statsAt_eq, statsFromSamples_congr hperm, hperm.length_eq]
  constructor
  · intro hnil
    rw [if_pos (hnil ▸ hperm).eq_nil]
  · intro hne
    refine ⟨_, if_neg fun hnil => hne (hnil ▸ hperm).symm.eq_nil, summarizes hne⟩

/-- A ring of two places, after three samples. -/
example : (run 2 [.usAt 30 5, .us 10, .usAt 20 4]).samples = [(20, some 4), (10, none)] := by
  decide

end MahoRD.Latency
