/-
MahoRD/Lib/AnchoredWindow.lean

Windows anchored at an event.  The first event opens a window; an event later than `width` after
the anchor of the last window opens the next one.  A counter that knows the last anchor and counts
the events since (`Counter.record`) has counted the events of the last window (`Tracks.record`).

Any span of `width` meets two windows at most, and of the earlier one it misses the anchor: as
long as no window holds `limit` events, a span holds `2 * limit - 3` at most (`count_le`).
-/
import Mathlib.Data.List.Basic
import Mathlib.Data.List.Count
import Mathlib.Data.List.Induction

namespace AnchoredWindow

variable {width limit : ℕ} {events : List ℕ}

/-- The events from `a` until `width` after it. -/
def within (width a : ℕ) (events : List ℕ) : ℕ := events.countP fun t => a ≤ t ∧ t ≤ a + width

/-- `s` opens a window. -/
inductive Anchor (width : ℕ) (events : List ℕ) : ℕ → Prop
  | first {t : ℕ} (h : events.head? = some t) : Anchor width events t
  | next {s t : ℕ} (hs : Anchor width events s) (h : events.find? (s + width < ·) = some t) :
      Anchor width events t

/-- Some window holds `limit` events. -/
def Reached (width limit : ℕ) (events : List ℕ) : Prop :=
  ∃ s, Anchor width events s ∧ limit ≤ within width s events

/-- Events in the order of their instants. -/
abbrev Ordered (events : List ℕ) : Prop := events.Pairwise (· ≤ ·)

/-! ### The anchors of ordered events -/

variable {t s now : ℕ}

theorem find_minimal {p : ℕ → Bool} (hord : Ordered events)
    (h : events.find? p = some t) : t ∈ events ∧ p t ∧ ∀ x ∈ events, p x → t ≤ x := by
  obtain ⟨hp, before, after, rfl, hbefore⟩ := List.find?_eq_some_iff_append.mp h
  refine ⟨by simp, hp, fun x hx hpx => ?_⟩
  rcases List.mem_append.mp hx with hx | hx
  · exact absurd hpx (by simpa using hbefore x hx)
  rcases List.mem_cons.mp hx with rfl | hx
  · exact Nat.le_refl x
  · exact List.rel_of_pairwise_cons (List.pairwise_append.mp hord).2.1 hx

theorem head_minimal (hord : Ordered events) (h : events.head? = some t) :
    t ∈ events ∧ ∀ x ∈ events, t ≤ x := by
  rcases events with - | ⟨u, events⟩
  · cases h
  cases h
  exact ⟨List.mem_cons_self, fun x hx => (List.mem_cons.mp hx).elim (fun h => h ▸ Nat.le_refl _)
    fun hx => List.rel_of_pairwise_cons hord hx⟩

theorem Anchor.mem (hord : Ordered events) (h : Anchor width events s) : s ∈ events := by
  cases h with
  | first h => exact (head_minimal hord h).1
  | next _ h => exact (find_minimal hord h).1

theorem Anchor.apart (hord : Ordered events) (hs : Anchor width events s)
    (ht : Anchor width events t) : s = t ∨ s + width < t ∨ t + width < s := by
  induction ht generalizing s with
  | first ht =>
    have hmin := (head_minimal hord ht).2
    induction hs with
    | first hs => exact .inl (Option.some.inj (hs.symm.trans ht))
    | @next u s hu hs ih =>
      have hlate := (find_minimal hord hs).2.1
      have := hmin u (hu.mem hord)
      simp only [decide_eq_true_eq] at hlate
      omega
  | @next v t hv ht ih =>
    obtain ⟨htmem, htlate, htmin⟩ := find_minimal hord ht
    simp only [decide_eq_true_eq] at htlate htmin
    rcases ih hs with rfl | h | h
    · exact .inr (.inl htlate)
    · exact .inr (.inl (by omega))
    -- `s` comes after the window of `v`: it is `t` or opens a window after `t`
    cases hs with
    | first hs =>
      have := (head_minimal hord hs).2 v (hv.mem hord)
      omega
    | @next u _ hu hs =>
      obtain ⟨hsmem, hslate, hsmin⟩ := find_minimal hord hs
      simp only [decide_eq_true_eq] at hslate hsmin
      rcases ih hu with rfl | hu' | hu'
      · exact .inl (Option.some.inj (hs.symm.trans ht))
      · have := hsmin v (hv.mem hord) hu'
        omega
      · have := htmin u (hu.mem hord) hu'
        omega

/-! ### One more event -/

theorem Anchor.append (h : Anchor width events s) (more : List ℕ) :
    Anchor width (events ++ more) s := by
  induction h with
  | first h => exact .first (by rw [List.head?_append, h]; rfl)
  | next _ h ih => exact .next ih (by rw [List.find?_append, h]; rfl)

theorem Anchor.of_concat {u : ℕ} (hord : Ordered (events ++ [t]))
    (h : Anchor width (events ++ [t]) u) : Anchor width events u ∨ u = t := by
  induction h with
  | @first u h =>
    rcases events with - | ⟨x, events⟩
    · exact .inr (Option.some.inj h).symm
    · exact .inl (.first h)
  | @next v u hv h ih =>
    rw [List.find?_append] at h
    rcases hfind : events.find? (v + width < ·) with - | x
    · rw [hfind, Option.none_or] at h
      exact .inr (List.mem_singleton.mp (List.mem_of_find?_eq_some h))
    · rw [hfind, Option.some_or] at h
      cases h
      rcases ih with hv | rfl
      · exact .inl (.next hv hfind)
      · have hx := List.find?_some hfind
        have hle := (List.pairwise_append.mp hord).2.2 _ (List.mem_of_find?_eq_some hfind) v
          List.mem_cons_self
        simp only [decide_eq_true_eq] at hx
        omega

theorem within_concat (a t : ℕ) : within width a (events ++ [t])
    = within width a events + if a ≤ t ∧ t ≤ a + width then 1 else 0 := by
  simp [within, List.countP_append, List.countP_singleton]

theorem within_eq_zero {a : ℕ} (h : ∀ x ∈ events, x < a) : within width a events = 0 := by
  refine List.countP_eq_zero.mpr fun x hx => ?_
  have := h x hx
  simp only [decide_eq_true_eq]
  omega

theorem within_le (a : ℕ) (more : List ℕ) : within width a events ≤ within width a (events ++ more) := by
  rw [within, within, List.countP_append]
  exact Nat.le_add_right ..

theorem Reached.append (h : Reached width limit events) (more : List ℕ) :
    Reached width limit (events ++ more) := by
  obtain ⟨s, hs, hlimit⟩ := h
  exact ⟨s, hs.append more, Nat.le_trans hlimit (within_le s more)⟩

/-! ### The counter -/

/-- The last anchor and the number of events since. -/
structure Counter where
  start : Option ℕ
  count : ℕ

def Counter.zero : Counter := ⟨none, 0⟩

/-- An event is counted, in a new window if the last one has run out. -/
def Counter.record (width : ℕ) (c : Counter) (now : ℕ) : Counter :=
  if c.start.all (width < now - ·) then ⟨some now, 1⟩ else { c with count := c.count + 1 }

/-- The counter has counted the last window. -/
def Tracks (width : ℕ) (events : List ℕ) (c : Counter) : Prop :=
  (events = [] ∧ c.start = none) ∨
  ∃ s, c.start = some s ∧ Anchor width events s ∧ (∀ x ∈ events, x ≤ s + width) ∧
    c.count = within width s events

theorem tracks_zero : Tracks width [] .zero := .inl ⟨rfl, rfl⟩

theorem tracks_open (hord : Ordered (events ++ [now]))
    (hlate : events = [] ∨ ∃ s, Anchor width events s ∧ (∀ x ∈ events, x ≤ s + width) ∧
      s + width < now) :
    Tracks width (events ++ [now]) ⟨some now, 1⟩ ∧
      (Reached width limit (events ++ [now]) ↔ Reached width limit events ∨ limit ≤ 1) := by
  have hbefore : ∀ x ∈ events, x < now := by
    rcases hlate with rfl | ⟨s, -, hall, hlate⟩
    · exact nofun
    · exact fun x hx => Nat.lt_of_le_of_lt (hall x hx) hlate
  have hnow : Anchor width (events ++ [now]) now := by
    rcases hlate with rfl | ⟨s, hs, hall, hlate⟩
    · exact .first rfl
    · refine .next (hs.append [now]) ?_
      rw [List.find?_append, List.find?_eq_none.mpr (by simpa using hall)]
      simpa using hlate
  have hcount : within width now (events ++ [now]) = 1 := by
    rw [within_concat, within_eq_zero hbefore, if_pos ⟨Nat.le_refl _, Nat.le_add_right ..⟩]
  refine ⟨.inr ⟨now, rfl, hnow, ?_, hcount.symm⟩, ?_⟩
  · intro x hx
    rcases List.mem_append.mp hx with hx | hx
    · exact Nat.le_trans (Nat.le_of_lt (hbefore x hx)) (Nat.le_add_right ..)
    · rw [List.mem_singleton.mp hx]
      exact Nat.le_add_right ..
  · constructor
    · rintro ⟨u, hu, hreached⟩
      rcases hu.of_concat hord with hu | rfl
      · -- an earlier window had run out
        refine .inl ⟨u, hu, ?_⟩
        rcases hlate with rfl | ⟨s, hs, hall, hlate⟩
        · cases hu.mem (List.Pairwise.nil)
        · have hord' := (List.pairwise_append.mp hord).1
          have hle := hall u (hu.mem hord')
          have hout : ¬ (u ≤ now ∧ now ≤ u + width) := by
            rcases hu.apart hord' hs with rfl | h | h <;> omega
          rwa [within_concat, if_neg hout] at hreached
      · rw [hcount] at hreached
        exact .inr hreached
    · rintro (h | h)
      · exact h.append [now]
      · exact ⟨now, hnow, hcount.symm ▸ h⟩

theorem tracks_more (hord : Ordered (events ++ [now])) (hs : Anchor width events s)
    (hall : ∀ x ∈ events, x ≤ s + width) (hnow : now ≤ s + width) :
    Tracks width (events ++ [now]) ⟨some s, within width s events + 1⟩ ∧
      (Reached width limit (events ++ [now]) ↔
        Reached width limit events ∨ limit ≤ within width s events + 1) := by
  have hord' := (List.pairwise_append.mp hord).1
  have hle : s ≤ now :=
    (List.pairwise_append.mp hord).2.2 s (hs.mem hord') now List.mem_cons_self
  have hcount : within width s (events ++ [now]) = within width s events + 1 := by
    rw [within_concat, if_pos ⟨hle, hnow⟩]
  have hall' : ∀ x ∈ events ++ [now], x ≤ s + width := by
    intro x hx
    rcases List.mem_append.mp hx with hx | hx
    · exact hall x hx
    · rw [List.mem_singleton.mp hx]
      exact hnow
  refine ⟨.inr ⟨s, rfl, hs.append [now], hall', hcount.symm⟩, ?_⟩
  constructor
  · rintro ⟨u, hu, hreached⟩
    rcases hu.apart hord (hs.append [now]) with rfl | h | h
    · rw [hcount] at hreached
      exact .inr hreached
    · -- a window before the last
      have hold : Anchor width events u := (hu.of_concat hord).resolve_right (by omega)
      rw [within_concat, if_neg (by omega)] at hreached
      exact .inl ⟨u, hold, hreached⟩
    · have := hall' u (hu.mem hord)
      omega
  · rintro (h | h)
    · exact h.append [now]
    · exact ⟨s, hs.append [now], hcount.symm ▸ h⟩

/-- **The counter counts the last window**, and the limit is reached when the counter gets
there. -/
theorem Tracks.record (limit : ℕ) {c : Counter} (h : Tracks width events c)
    (hord : Ordered (events ++ [now])) :
    Tracks width (events ++ [now]) (c.record width now) ∧
      (Reached width limit (events ++ [now]) ↔
        Reached width limit events ∨ limit ≤ (c.record width now).count) := by
  rcases h with ⟨rfl, hstart⟩ | ⟨s, hstart, hs, hall, hcount⟩
  · rw [Counter.record, hstart, Option.all_none, if_pos rfl]
    exact tracks_open hord (.inl rfl)
  by_cases hnow : now ≤ s + width
  · rw [Counter.record, hstart, if_neg (by simp; omega), hcount]
    exact tracks_more hord hs hall hnow
  · rw [Counter.record, hstart, if_pos (by simp; omega)]
    exact tracks_open hord (.inr ⟨s, hs, hall, by omega⟩)

/-! ### Any span -/

theorem exists_tracks (width : ℕ) (hord : Ordered events) : ∃ c, Tracks width events c := by
  induction events using List.reverseRecOn with
  | nil => exact ⟨_, tracks_zero⟩
  | append_singleton events now ih =>
    obtain ⟨c, hc⟩ := ih (List.pairwise_append.mp hord).1
    exact ⟨_, (hc.record 0 hord).1⟩

theorem exists_anchor (width : ℕ) (hord : Ordered events) {x : ℕ} (hx : x ∈ events) :
    ∃ s, Anchor width events s ∧ s ≤ x ∧ x ≤ s + width := by
  induction events using List.reverseRecOn with
  | nil => cases hx
  | append_singleton events now ih =>
    rcases List.mem_append.mp hx with hx | hx
    · obtain ⟨s, hs, hle, hwithin⟩ := ih (List.pairwise_append.mp hord).1 hx
      exact ⟨s, hs.append [now], hle, hwithin⟩
    -- the last event lies in the last window
    obtain ⟨c, ⟨h, -⟩ | ⟨s, -, hs, hall, -⟩⟩ := exists_tracks width hord
    · simp at h
    · obtain rfl := List.mem_singleton.mp hx
      refine ⟨s, hs, ?_, hall x (by simp)⟩
      rcases List.mem_append.mp (hs.mem hord) with hmem | hmem
      · exact (List.pairwise_append.mp hord).2.2 s hmem x List.mem_cons_self
      · exact Nat.le_of_eq (List.mem_singleton.mp hmem)

/-- **A span meets two windows**, and not the anchor of the earlier one. -/
theorem count_le (hord : Ordered events) (hlimit : 2 ≤ limit) (h : ¬ Reached width limit events)
    (a : ℕ) : within width a events ≤ 2 * limit - 3 := by
  have hfew : ∀ s, Anchor width events s → within width s events < limit := by
    intro s hs
    by_contra hmany
    exact h ⟨s, hs, Nat.not_lt.mp hmany⟩
  rcases hfind : events.find? (fun t => a ≤ t ∧ t ≤ a + width) with - | x
  · have hzero : within width a events = 0 :=
      List.countP_eq_zero.mpr (List.find?_eq_none.mp hfind)
    omega
  obtain ⟨hx, hxspan, hxmin⟩ := find_minimal hord hfind
  simp only [decide_eq_true_eq] at hxspan hxmin
  obtain ⟨s, hs, hsx, hxs⟩ := exists_anchor width hord hx
  have hsfew := hfew s hs
  by_cases has : a ≤ s
  · -- the whole span lies in the window of `s`
    have hle : within width a events ≤ within width s events := by
      refine List.countP_mono_left fun t ht hspan => ?_
      simp only [decide_eq_true_eq] at hspan ⊢
      have := hxmin t ht hspan
      omega
    omega
  -- the span is cut at the end of the window of `s`
  have hcut := List.countP_eq_countP_filter_add events (fun t => a ≤ t ∧ t ≤ a + width)
    (fun t => t ≤ s + width)
  have hcutWindow := List.countP_eq_countP_filter_add events (fun t => s ≤ t ∧ t ≤ s + width)
    (fun t => a ≤ t ∧ t ≤ a + width)
  have hearly : (events.filter fun t => decide (t ≤ s + width)).countP
      (fun t => decide (a ≤ t ∧ t ≤ a + width)) ≤
      (events.filter fun t => decide (a ≤ t ∧ t ≤ a + width)).countP
        (fun t => decide (s ≤ t ∧ t ≤ s + width)) := by
    rw [List.countP_filter, List.countP_filter]
    refine List.countP_mono_left fun t _ ht => ?_
    simp only [Bool.and_eq_true, decide_eq_true_eq] at ht ⊢
    omega
  have hanchor : 0 < (events.filter fun t => !decide (a ≤ t ∧ t ≤ a + width)).countP
      (fun t => decide (s ≤ t ∧ t ≤ s + width)) := by
    rw [List.countP_filter, List.countP_pos_iff]
    refine ⟨s, hs.mem hord, ?_⟩
    simp
    omega
  have hlate : (events.filter fun t => !decide (t ≤ s + width)).countP
      (fun t => decide (a ≤ t ∧ t ≤ a + width)) < limit := by
    rw [List.countP_filter]
    rcases hnext : events.find? (s + width < ·) with - | u
    · rw [List.countP_eq_zero.mpr fun t ht => ?_]
      · omega
      · have := List.find?_eq_none.mp hnext t ht
        simp only [decide_eq_true_eq] at this
        simp
        omega
    · have hu := Anchor.next hs hnext
      obtain ⟨-, hulate, humin⟩ := find_minimal hord hnext
      refine Nat.lt_of_le_of_lt (List.countP_mono_left fun t ht hspan => ?_) (hfew u hu)
      simp only [Bool.and_eq_true, Bool.not_eq_true', decide_eq_false_iff_not, decide_eq_true_eq]
        at hspan hulate humin ⊢
      have := humin t ht (by omega)
      omega
  simp only [within] at hsfew ⊢
  omega

end AnchoredWindow
