/-
MahoRD/Lib/Incremental.lean

Readers of a stream that arrives in pieces.

A reader looks at what has arrived: it waits for more, takes an item off the
front, or stops.  What it decides does not change when more arrives.  `drain`
takes off all that can be taken, `feed` does so after every piece.  Up to the
first stop the events do not depend on where the stream was cut
(`throughFirst_feed`), and neither does what is left when there is none
(`feed_eq_drain`).
-/
import Mathlib.Data.List.Basic

namespace Incremental

/-- One look at what has arrived. -/
inductive Look (τ ε : Type)
  | more
  | item (event : ε) (rest : List τ)
  | stop (event : ε)

/-- A reader whose decisions are final. -/
structure Reader (τ ε : Type) where
  look : List τ → Look τ ε
  isStop : ε → Bool
  nil : look [] = .more
  shrinks : ∀ {buffer e rest}, look buffer = .item e rest → rest.length < buffer.length
  item_append : ∀ {buffer e rest}, look buffer = .item e rest →
    ∀ more, look (buffer ++ more) = .item e (rest ++ more)
  stop_append : ∀ {buffer e}, look buffer = .stop e → ∀ more, look (buffer ++ more) = .stop e
  item_isStop : ∀ {buffer e rest}, look buffer = .item e rest → isStop e = false
  stop_isStop : ∀ {buffer e}, look buffer = .stop e → isStop e = true

/-- The events up to and including the first that satisfies `p`. -/
def throughFirst {ε : Type} (p : ε → Bool) : List ε → List ε
  | [] => []
  | e :: es => if p e then [e] else e :: throughFirst p es

theorem throughFirst_append {ε : Type} {p : ε → Bool} {es fs : List ε} (h : ∀ e ∈ es, p e = false) :
    throughFirst p (es ++ fs) = es ++ throughFirst p fs := by
  induction es with
  | nil => rfl
  | cons e es ih =>
    obtain ⟨he, hes⟩ := List.forall_mem_cons.mp h
    simp [throughFirst, he, ih hes]

namespace Reader

variable {τ ε : Type} (r : Reader τ ε)

/-- Takes off all that can be taken; after a stop nothing is left. -/
def drain (buffer : List τ) : List ε × List τ :=
  match _h : r.look buffer with
  | .more => ([], buffer)
  | .stop e => ([e], [])
  | .item e rest => (e :: (drain rest).1, (drain rest).2)
  termination_by buffer.length
  decreasing_by all_goals exact r.shrinks _h

/-- The pieces one after the other. -/
def feed (buffer : List τ) : List (List τ) → List ε × List τ
  | [] => ([], buffer)
  | piece :: pieces =>
    ((r.drain (buffer ++ piece)).1 ++ (feed (r.drain (buffer ++ piece)).2 pieces).1,
      (feed (r.drain (buffer ++ piece)).2 pieces).2)

variable {r}

variable {buffer : List τ}

theorem drain_more (h : r.look buffer = .more) :
    r.drain buffer = ([], buffer) := by
  rw [drain]
  split
  · rfl
  next h' => rw [h] at h'; cases h'
  next h' => rw [h] at h'; cases h'

theorem drain_stop {e : ε} (h : r.look buffer = .stop e) :
    r.drain buffer = ([e], []) := by
  rw [drain]
  split
  next h' => rw [h] at h'; cases h'
  next h' => rw [h] at h'; cases h'; rfl
  next h' => rw [h] at h'; cases h'

theorem drain_item {rest : List τ} {e : ε} (h : r.look buffer = .item e rest) :
    r.drain buffer = (e :: (r.drain rest).1, (r.drain rest).2) := by
  rw [drain]
  split
  next h' => rw [h] at h'; cases h'
  next h' => rw [h] at h'; cases h'
  next h' => rw [h] at h'; cases h'; rfl

/-- Either no event stops the reader, and going on is going on from what is left; or the last one
does, and what comes later is not read. -/
theorem drain_cases (buffer : List τ) :
    ((∀ e ∈ (r.drain buffer).1, r.isStop e = false) ∧ r.look (r.drain buffer).2 = .more ∧
      ∀ more, r.drain (buffer ++ more) =
        ((r.drain buffer).1 ++ (r.drain ((r.drain buffer).2 ++ more)).1,
          (r.drain ((r.drain buffer).2 ++ more)).2)) ∨
    ((∃ es e, (r.drain buffer).1 = es ++ [e] ∧ (∀ e ∈ es, r.isStop e = false) ∧
        r.isStop e = true) ∧ (r.drain buffer).2 = [] ∧
      ∀ more, r.drain (buffer ++ more) = r.drain buffer) := by
  induction hn : buffer.length using Nat.strongRecOn generalizing buffer with
  | _ n ih =>
    rcases h : r.look buffer with - | ⟨e, rest⟩ | e
    · left
      rw [drain_more h]
      exact ⟨nofun, h, fun more => rfl⟩
    · have hlook := fun more => drain_item (r.item_append h more)
      rw [drain_item h]
      rcases ih rest.length (hn ▸ r.shrinks h) rest rfl with ⟨hes, hrest, hgo⟩ | ⟨⟨es, s, hes⟩, hgo⟩
      · left
        refine ⟨List.forall_mem_cons.mpr ⟨r.item_isStop h, hes⟩, hrest, fun more => ?_⟩
        rw [hlook, hgo]
        rfl
      · right
        obtain ⟨heq, hfalse, htrue⟩ := hes
        refine ⟨⟨e :: es, s, by rw [heq]; rfl,
          List.forall_mem_cons.mpr ⟨r.item_isStop h, hfalse⟩, htrue⟩, hgo.1, fun more => ?_⟩
        rw [hlook, hgo.2]
    · right
      rw [drain_stop h]
      refine ⟨⟨[], e, rfl, nofun, r.stop_isStop h⟩, rfl, fun more => ?_⟩
      rw [drain_stop (r.stop_append h more)]

/-- **Up to the first stop the events do not depend on the pieces.** -/
theorem throughFirst_feed (h : r.look buffer = .more) (pieces : List (List τ)) :
    throughFirst r.isStop (r.feed buffer pieces).1 = (r.drain (buffer ++ pieces.flatten)).1 := by
  induction pieces generalizing buffer with
  | nil => rw [List.flatten_nil, List.append_nil, drain_more h]; rfl
  | cons piece pieces ih =>
    rw [feed, List.flatten_cons, ← List.append_assoc]
    rcases r.drain_cases (buffer ++ piece) with ⟨hes, hrest, hgo⟩ | ⟨⟨es, e, hes, hfalse, htrue⟩, -, hgo⟩
    · rw [throughFirst_append hes, ih hrest, hgo]
    · rw [hgo, hes, List.append_assoc, throughFirst_append hfalse]
      simp [throughFirst, htrue]

/-- **Where the stream does not stop the reader, the pieces do not matter.** -/
theorem feed_eq_drain (h : r.look buffer = .more) {pieces : List (List τ)}
    (hstop : ∀ e ∈ (r.drain (buffer ++ pieces.flatten)).1, r.isStop e = false) :
    r.feed buffer pieces = r.drain (buffer ++ pieces.flatten) := by
  induction pieces generalizing buffer with
  | nil => rw [List.flatten_nil, List.append_nil, drain_more h]; rfl
  | cons piece pieces ih =>
    rw [List.flatten_cons, ← List.append_assoc] at hstop ⊢
    rcases r.drain_cases (buffer ++ piece) with ⟨-, hrest, hgo⟩ | ⟨⟨es, e, hes, -, htrue⟩, -, hgo⟩
    · rw [hgo] at hstop ⊢
      rw [feed, ih hrest fun e he => hstop e (List.mem_append_right _ he)]
    · rw [hgo, hes] at hstop
      simpa [htrue] using hstop e (by simp)

/-- What was put together from items, each with its event, is taken apart into these. -/
theorem drain_items (items : List (List τ × ε)) (tail : List τ)
    (hitems : ∀ i ∈ items, ∀ more, r.look (i.1 ++ more) = .item i.2 more)
    (htail : r.look tail = .more) :
    r.drain ((items.map Prod.fst).flatten ++ tail) = (items.map Prod.snd, tail) := by
  induction items with
  | nil => exact drain_more htail
  | cons i items ih =>
    obtain ⟨hi, hitems'⟩ := List.forall_mem_cons.mp hitems
    rw [List.map_cons, List.flatten_cons, List.append_assoc, drain_item (hi _), ih hitems']
    rfl

end Reader
end Incremental
