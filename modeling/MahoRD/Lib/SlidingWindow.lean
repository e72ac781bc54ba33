/-
MahoRD/Lib/SlidingWindow.lean

A limiter that lets at most `limit` events pass within any span of time.  It
keeps the instants of the events it let pass; at each event it drops those that
are a span or more old, and lets the event pass if fewer than `limit` are left.

The events are answered one after another (`answers`).  If their instants do
not decrease, the limiter has at every moment kept what has passed within the
last span (`Inv`), whatever it refused in between.  Hence no window of the
length of a span holds more than `limit` passed events, and an event is refused
only when the span before it is full (`Fair`).
-/
import Mathlib.Data.List.Basic
import Mathlib.Data.List.Count

namespace SlidingWindow

variable {span limit : ℕ}

/-- The instants less than a span old. -/
def recent (span now : ℕ) (hits : List ℕ) : List ℕ := hits.filter fun t => now - t < span

/-- The answer to an event, and what is kept after it. -/
def judge (span limit : ℕ) (hits : List ℕ) (now : ℕ) : Bool × List ℕ :=
  if limit ≤ (recent span now hits).length then (false, recent span now hits)
  else (true, recent span now hits ++ [now])

/-- The events at the given instants, each with its answer. -/
def answers (span limit : ℕ) : List ℕ → List ℕ → List (ℕ × Bool)
  | _, [] => []
  | hits, now :: rest =>
    (now, (judge span limit hits now).1) :: answers span limit (judge span limit hits now).2 rest

/-- The instants of the events that passed. -/
def passed (log : List (ℕ × Bool)) : List ℕ := (log.filter (·.2)).map (·.1)

theorem passed_concat (log : List (ℕ × Bool)) (now : ℕ) (answer : Bool) :
    passed (log ++ [(now, answer)]) = passed log ++ if answer then [now] else [] := by
  cases answer <;> simp [passed]

variable {log : List (ℕ × Bool)} {now : ℕ}

theorem mem_log_of_passed {t : ℕ} (h : t ∈ passed log) :
    (t, true) ∈ log := by
  obtain ⟨⟨t', b⟩, hmem, rfl⟩ := List.mem_map.mp h
  obtain ⟨hmem, rfl⟩ := List.mem_filter.mp hmem
  exact hmem

theorem length_recent_le (now : ℕ) (hits : List ℕ) :
    (recent span now hits).length ≤ hits.length :=
  List.length_filter_le _ _

theorem recent_append (now : ℕ) (ts us : List ℕ) :
    recent span now (ts ++ us) = recent span now ts ++ recent span now us :=
  List.filter_append ..

theorem recent_recent {later : ℕ} (h : now ≤ later) (hits : List ℕ) :
    recent span later (recent span now hits) = recent span later hits := by
  rw [recent, recent, List.filter_filter]
  refine List.filter_congr fun t _ => ?_
  rw [← Bool.decide_and]
  exact decide_eq_decide.mpr (and_iff_left_of_imp fun ht => by omega)

/-- Within the limit, and never refused below it. -/
structure Fair (span limit : ℕ) (log : List (ℕ × Bool)) : Prop where
  cap : ∀ w, ((passed log).countP fun t => w ≤ t ∧ t < w + span) ≤ limit
  due : ∀ before now after, log = before ++ (now, false) :: after →
    ((passed before).countP fun t => t ≤ now ∧ now < t + span) = limit

/-- The log so far and what the limiter has kept. -/
structure Inv (span limit : ℕ) (log : List (ℕ × Bool)) (hits : List ℕ) : Prop where
  fair : Fair span limit log
  room : hits.length ≤ limit
  kept : ∀ now, (∀ a ∈ log, a.1 ≤ now) → recent span now hits = recent span now (passed log)

theorem inv_nil : Inv span limit [] [] where
  fair := ⟨fun _ => Nat.zero_le _, fun before now after h => by simp at h⟩
  room := Nat.zero_le _
  kept := fun _ _ => rfl

theorem judge_true {hits : List ℕ} (h : (recent span now hits).length < limit) :
    judge span limit hits now = (true, recent span now hits ++ [now]) :=
  if_neg (Nat.not_le.mpr h)

theorem judge_false {hits : List ℕ} (h : limit ≤ (recent span now hits).length) :
    judge span limit hits now = (false, recent span now hits) :=
  if_pos h

theorem length_judge (span : ℕ) {hits : List ℕ} (h : hits.length ≤ limit) (now : ℕ) :
    (judge span limit hits now).2.length ≤ limit := by
  rcases Nat.lt_or_ge (recent span now hits).length limit with hlt | hge
  · rw [judge_true hlt, List.length_append]
    exact hlt
  · rw [judge_false hge]
    exact Nat.le_trans (length_recent_le now hits) h

theorem length_recent {ts : List ℕ} (hts : ∀ t ∈ ts, t ≤ now) :
    (recent span now ts).length = ts.countP fun t => t ≤ now ∧ now < t + span := by
  rw [recent, ← List.countP_eq_length_filter]
  refine List.countP_congr fun t ht => ?_
  have hle := hts t ht
  simp only [decide_eq_true_eq]
  omega

theorem countP_le_recent {ts : List ℕ} {w : ℕ} (hnow : now < w + span)
    (hts : ∀ t ∈ ts, t ≤ now) :
    (ts.countP fun t => w ≤ t ∧ t < w + span) ≤ (recent span now ts).length := by
  rw [recent, ← List.countP_eq_length_filter]
  refine List.countP_mono_left fun t ht h => ?_
  simp only [decide_eq_true_eq] at h ⊢
  omega

theorem Fair.pass (h : Fair span limit log)
    (hpast : ∀ a ∈ log, a.1 ≤ now) (hroom : (recent span now (passed log)).length < limit) :
    Fair span limit (log ++ [(now, true)]) where
  cap w := by
    rw [passed_concat, if_pos rfl, List.countP_append, List.countP_singleton]
    split
    next hw =>
      have hwindow := of_decide_eq_true hw
      have hle := countP_le_recent hwindow.2 fun t ht => hpast _ (mem_log_of_passed ht)
      omega
    · exact h.cap w
  due before now' after heq := by
    rcases List.eq_nil_or_concat after with rfl | ⟨after, a, rfl⟩
    · have hlast := (List.append_inj' heq rfl).2
      simp at hlast
    · rw [List.concat_eq_append, ← List.cons_append, ← List.append_assoc] at heq
      exact h.due before now' after (List.append_inj' heq rfl).1

theorem Fair.refuse (h : Fair span limit log)
    (hpast : ∀ a ∈ log, a.1 ≤ now) (hfull : (recent span now (passed log)).length = limit) :
    Fair span limit (log ++ [(now, false)]) where
  cap w := by
    rw [passed_concat, if_neg Bool.false_ne_true, List.append_nil]
    exact h.cap w
  due before now' after heq := by
    rcases List.eq_nil_or_concat after with rfl | ⟨after, a, rfl⟩
    · obtain ⟨rfl, hlast⟩ := List.append_inj' heq rfl
      obtain rfl : now = now' := by simpa using hlast
      exact (length_recent fun t ht => hpast _ (mem_log_of_passed ht)).symm.trans hfull
    · rw [List.concat_eq_append, ← List.cons_append, ← List.append_assoc] at heq
      exact h.due before now' after (List.append_inj' heq rfl).1

theorem Inv.judge {hits : List ℕ} (h : Inv span limit log hits) (hpast : ∀ a ∈ log, a.1 ≤ now) :
    Inv span limit (log ++ [(now, (judge span limit hits now).1)])
      (SlidingWindow.judge span limit hits now).2 := by
  have hkept := h.kept now hpast
  have hlater : ∀ {answer : Bool} {later : ℕ},
      (∀ a ∈ log ++ [(now, answer)], a.1 ≤ later) → now ≤ later ∧ ∀ a ∈ log, a.1 ≤ later :=
    fun {answer} _ hle => ⟨hle (now, answer) (by simp),
      fun a ha => hle a (List.mem_append_left _ ha)⟩
  have hroom := length_judge span h.room now
  rcases Nat.lt_or_ge (recent span now hits).length limit with hlt | hge
  · rw [judge_true hlt] at hroom ⊢
    refine ⟨h.fair.pass hpast (hkept ▸ hlt), hroom, fun later hle => ?_⟩
    obtain ⟨hnow, hle⟩ := hlater hle
    rw [passed_concat, if_pos rfl, recent_append, recent_append, recent_recent hnow,
      h.kept later hle]
  · rw [judge_false hge] at hroom ⊢
    refine ⟨h.fair.refuse hpast (hkept ▸ Nat.le_antisymm hroom hge), hroom, fun later hle => ?_⟩
    obtain ⟨hnow, hle⟩ := hlater hle
    rw [passed_concat, if_neg Bool.false_ne_true, List.append_nil, recent_recent hnow,
      h.kept later hle]

theorem Inv.answers {hits : List ℕ} (h : Inv span limit log hits)
    {instants : List ℕ} (hmono : instants.Pairwise (· ≤ ·))
    (hpast : ∀ a ∈ log, ∀ t ∈ instants, a.1 ≤ t) :
    Fair span limit (log ++ answers span limit hits instants) := by
  induction instants generalizing log hits with
  | nil =>
    rw [SlidingWindow.answers, List.append_nil]
    exact h.fair
  | cons now rest ih =>
    obtain ⟨hnow, hrest⟩ := List.pairwise_cons.mp hmono
    have hnext := h.judge fun a ha => hpast a ha now (by simp)
    rw [SlidingWindow.answers, List.append_cons]
    refine ih hnext hrest fun a ha t ht => ?_
    rcases List.mem_append.mp ha with hold | hnew
    · exact hpast a hold t (List.mem_cons_of_mem _ ht)
    · obtain rfl := List.mem_singleton.mp hnew
      exact hnow t ht

/-- **The limiter is fair** to every sequence of events in the order of time. -/
theorem fair_answers {instants : List ℕ} (hmono : instants.Pairwise (· ≤ ·)) :
    Fair span limit (answers span limit [] instants) :=
  inv_nil.answers hmono fun a ha => by cases ha

end SlidingWindow
