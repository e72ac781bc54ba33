/-
MahoRD/Lib/Utf8.lean

UTF-8, read byte by byte.  A character is the list of its bytes.  Bytes that begin no
character, and those of a character that goes wrong, stand for one replacement character
each time; reading goes on with the byte that was wrong.

Reading strictly allows no replacement.  A valid beginning is read the same whatever
follows (`fromUtf8_append`), and the ASCII that a text shows was there before it was read
(`infix_of_infix_shown`).
-/
import Mathlib.Data.List.Infix

namespace Utf8

/-- A character, or what is to be replaced. -/
abbrev Item := Option (List UInt8)

/-- The bytes of a character so far, what the next byte may be, and how many come after it. -/
structure Pending where
  bytes : List UInt8
  low : UInt8
  high : UInt8
  more : ℕ
  le_bytes : ∀ b ∈ bytes, 0x80 ≤ b
  le_low : 0x80 ≤ low

/-- What a byte that is not ASCII begins. -/
def lead (b : UInt8) (hb : 0x80 ≤ b) : Option Pending :=
  let begin (low high : UInt8) (more : ℕ) (hlow : 0x80 ≤ low) : Pending :=
    ⟨[b], low, high, more, fun _ h => List.mem_singleton.mp h ▸ hb, hlow⟩
  if 0xC2 ≤ b ∧ b ≤ 0xDF then some (begin 0x80 0xBF 0 (by decide))
  else if b = 0xE0 then some (begin 0xA0 0xBF 1 (by decide))
  else if b = 0xED then some (begin 0x80 0x9F 1 (by decide))
  else if 0xE1 ≤ b ∧ b ≤ 0xEF then some (begin 0x80 0xBF 1 (by decide))
  else if b = 0xF0 then some (begin 0x90 0xBF 2 (by decide))
  else if 0xF1 ≤ b ∧ b ≤ 0xF3 then some (begin 0x80 0xBF 2 (by decide))
  else if b = 0xF4 then some (begin 0x80 0x8F 2 (by decide))
  else none

/-- A byte between characters. -/
def start (b : UInt8) : List Item × Option Pending :=
  if hb : 0x80 ≤ b then
    match lead b hb with
    | some p => ([], some p)
    | none => ([none], none)
  else ([some [b]], none)

def step (st : Option Pending) (b : UInt8) : List Item × Option Pending :=
  match st with
  | none => start b
  | some p =>
    if hb : p.low ≤ b ∧ b ≤ p.high then
      match p.more with
      | 0 => ([some (p.bytes ++ [b])], none)
      | more + 1 =>
        ([], some ⟨p.bytes ++ [b], 0x80, 0xBF, more, by
          intro b' h
          rcases List.mem_append.mp h with h | h
          · exact p.le_bytes b' h
          · exact List.mem_singleton.mp h ▸ UInt8.le_trans p.le_low hb.1, by decide⟩)
    else (none :: (start b).1, (start b).2)

def decode (st : Option Pending) : List UInt8 → List Item × Option Pending
  | [] => ([], st)
  | b :: bs => ((step st b).1 ++ (decode (step st b).2 bs).1, (decode (step st b).2 bs).2)

/-- What is read from here to the end. -/
def items (st : Option Pending) (bs : List UInt8) : List Item :=
  (decode st bs).1 ++ if (decode st bs).2.isSome then [none] else []

def replacement : List UInt8 := [0xEF, 0xBF, 0xBD]

/-- `from_utf8_lossy`. -/
def lossy (bs : List UInt8) : List (List UInt8) := (items none bs).map (·.getD replacement)

/-- `from_utf8`. -/
def fromUtf8 (bs : List UInt8) : Option (List (List UInt8)) :=
  if (items none bs).all (·.isSome) then some (lossy bs) else none

/-! ### Steps -/

variable {st : Option Pending} {b : UInt8} {xs ys : List UInt8} {cs : List (List UInt8)}

theorem step_ascii (hb : b < 0x80) :
    step st b = ((if st.isSome then [none] else []) ++ [some [b]], none) := by
  have hstart : start b = ([some [b]], none) := dif_neg (UInt8.not_le.mpr hb)
  cases st with
  | none => exact hstart
  | some p =>
    have hnot : ¬ (p.low ≤ b ∧ b ≤ p.high) := fun h =>
      absurd (UInt8.le_trans p.le_low h.1) (UInt8.not_le.mpr hb)
    rw [step, dif_neg hnot, hstart]
    rfl

theorem items_cons : items st (b :: xs) = (step st b).1 ++ items (step st b).2 xs := by
  rw [items, decode, List.append_assoc]
  rfl

theorem items_append : items st (xs ++ ys) = (decode st xs).1 ++ items (decode st xs).2 ys := by
  induction xs generalizing st with
  | nil => rfl
  | cons b xs ih => rw [List.cons_append, items_cons, ih, decode, List.append_assoc]

/-- The bytes of the character that has begun. -/
def held (st : Option Pending) : List UInt8 := (st.map Pending.bytes).getD []

theorem step_bytes (h : (step st b).1.all (·.isSome)) :
    held st ++ [b] =
      ((step st b).1.map (·.getD replacement)).flatten ++ held (step st b).2 := by
  have hstart (h : (start b).1.all (·.isSome)) :
      [b] = ((start b).1.map (·.getD replacement)).flatten ++ held (start b).2 := by
    rw [start] at h ⊢
    split at h
    next hb =>
      rw [dif_pos hb]
      rcases hlead : lead b hb with - | p
      · simp [hlead] at h
      · have hp : p.bytes = [b] := by
          rw [lead] at hlead
          split_ifs at hlead <;> cases hlead <;> rfl
        simp [held, hp]
    next hb =>
      rw [dif_neg hb]
      simp [held]
  cases st with
  | none => exact hstart h
  | some p =>
    rw [step] at h ⊢
    split at h
    next hb =>
      rw [dif_pos hb]
      split <;> simp [held]
    · simp at h

theorem flatten_items (h : (items st xs).all (·.isSome)) :
    ((items st xs).map (·.getD replacement)).flatten = held st ++ xs := by
  induction xs generalizing st with
  | nil =>
    cases st with
    | none => rfl
    | some p => simp [items, decode] at h
  | cons b xs ih =>
    rw [items_cons, List.all_append, Bool.and_eq_true] at h
    rw [items_cons, List.map_append, List.flatten_append, ih h.2, ← List.append_assoc,
      ← step_bytes h.1, List.append_assoc]
    rfl

/-! ### Reading strictly -/

theorem fromUtf8_eq_some (h : fromUtf8 xs = some cs) :
    (decode none xs).2 = none ∧ (decode none xs).1.map (·.getD replacement) = cs ∧
      (decode none xs).1.all (·.isSome) ∧ cs.flatten = xs := by
  rw [fromUtf8] at h
  split at h
  next hall =>
    have hnone : (decode none xs).2 = none := by
      rw [items, List.all_append, Bool.and_eq_true] at hall
      cases hst : (decode none xs).2 with
      | none => rfl
      | some p => simp [hst] at hall
    have hitems : items none xs = (decode none xs).1 := by
      simp [items, hnone]
    have hbytes := flatten_items hall
    rw [hitems] at hall hbytes
    rw [lossy, hitems] at h
    cases h
    exact ⟨hnone, rfl, hall, hbytes⟩
  · cases h

/-- **A valid beginning is read the same whatever follows.** -/
theorem lossy_append (h : fromUtf8 xs = some cs) : lossy (xs ++ ys) = cs ++ lossy ys := by
  obtain ⟨hnone, hitems, -, -⟩ := fromUtf8_eq_some h
  rw [lossy, items_append, hnone, List.map_append, hitems]
  rfl

theorem fromUtf8_append (h : fromUtf8 xs = some cs) :
    fromUtf8 (xs ++ ys) = (fromUtf8 ys).map (cs ++ ·) := by
  obtain ⟨hnone, -, hall, -⟩ := fromUtf8_eq_some h
  have hiff : (items none (xs ++ ys)).all (·.isSome) = (items none ys).all (·.isSome) := by
    rw [items_append, hnone, List.all_append, hall, Bool.true_and]
  rw [fromUtf8, fromUtf8, hiff, lossy_append h]
  split <;> rfl

theorem fromUtf8_ascii (hb : b < 0x80) (h : fromUtf8 (xs ++ b :: ys) = some cs) :
    ∃ ds es, fromUtf8 xs = some ds ∧ fromUtf8 ys = some es ∧ cs = ds ++ [b] :: es := by
  have hitems : (items none (xs ++ b :: ys)).all (·.isSome) := by
    rw [fromUtf8] at h
    split at h
    next hall => exact hall
    · cases h
  rw [items_append, items_cons, step_ascii hb, List.all_append, Bool.and_eq_true] at hitems
  have hnone : (decode none xs).2 = none := by
    cases hst : (decode none xs).2 with
    | none => rfl
    | some p => simp [hst] at hitems
  have hxs : fromUtf8 xs = some (lossy xs) := by
    rw [fromUtf8, if_pos]
    rw [items, hnone, List.all_append, hitems.1]
    rfl
  rw [fromUtf8_append hxs] at h
  obtain ⟨cs', hcs', rfl⟩ := Option.map_eq_some_iff.mp h
  have hb' : fromUtf8 [b] = some [[b]] := by
    have hdecode : items none [b] = [some [b]] := by
      rw [items_cons, step_ascii hb]
      rfl
    rw [fromUtf8, lossy, hdecode]
    rfl
  rw [← List.singleton_append, fromUtf8_append hb'] at hcs'
  obtain ⟨es, hes, rfl⟩ := Option.map_eq_some_iff.mp hcs'
  exact ⟨_, es, hxs, hes, rfl⟩

/-! ### The ASCII of a text -/

/-- The bytes of a text that is read from here to the end. -/
def shown (st : Option Pending) (bs : List UInt8) : List UInt8 :=
  ((items st bs).map (·.getD replacement)).flatten

theorem shown_none (bs : List UInt8) : shown none bs = (lossy bs).flatten := rfl

theorem shown_cons :
    shown st (b :: xs) =
      ((step st b).1.map (·.getD replacement)).flatten ++ shown (step st b).2 xs := by
  rw [shown, items_cons, List.map_append, List.flatten_append]
  rfl

theorem le_replacement : ∀ c ∈ replacement, 0x80 ≤ c := by decide +kernel

theorem le_step (hb : 0x80 ≤ b) :
    ∀ c ∈ ((step st b).1.map (·.getD replacement)).flatten, 0x80 ≤ c := by
  have hstart : ∀ c ∈ ((start b).1.map (·.getD replacement)).flatten, 0x80 ≤ c := by
    rw [start, dif_pos hb]
    split
    · exact fun c hc => (List.not_mem_nil hc).elim
    · simpa using le_replacement
  cases st with
  | none => exact hstart
  | some p =>
    rw [step]
    split
    · split
      · intro c hc
        have hc : c ∈ p.bytes ++ [b] := by simpa using hc
        rcases List.mem_append.mp hc with h | h
        · exact p.le_bytes c h
        · exact List.mem_singleton.mp h ▸ hb
      · exact fun c hc => (List.not_mem_nil hc).elim
    · intro c hc
      rcases List.mem_append.mp hc with h | h
      · exact le_replacement c h
      · exact hstart c h

theorem shown_pending (p : Pending) (xs : List UInt8) :
    ∃ c rest, shown (some p) xs = c :: rest ∧ 0x80 ≤ c := by
  induction xs generalizing p with
  | nil => exact ⟨0xEF, _, rfl, by decide⟩
  | cons b xs ih =>
    rw [shown_cons, step]
    split
    next hb =>
      split
      · cases hbytes : p.bytes with
        | nil => exact ⟨b, _, rfl, UInt8.le_trans p.le_low hb.1⟩
        | cons c rest => exact ⟨c, _, rfl, p.le_bytes c (hbytes ▸ .head _)⟩
      · exact ih _
    · exact ⟨0xEF, _, rfl, by decide⟩

variable {pat : List UInt8}

theorem shown_ascii (hb : b < 0x80) : shown none (b :: xs) = b :: shown none xs := by
  rw [shown_cons, step_ascii hb]
  rfl

variable (xs) in
theorem shown_high (hb : 0x80 ≤ b) : ∃ c rest, shown none (b :: xs) = c :: rest ∧ 0x80 ≤ c := by
  rw [shown_cons, step, start, dif_pos hb]
  split
  · exact shown_pending _ _
  · exact ⟨0xEF, _, rfl, by decide⟩

theorem lossy_ne_nil (hxs : xs ≠ []) : lossy xs ≠ [] := by
  obtain ⟨b, xs, rfl⟩ := List.exists_cons_of_ne_nil hxs
  have hshown : ∃ c rest, shown none (b :: xs) = c :: rest := by
    rcases UInt8.lt_or_le b 0x80 with hb | hb
    · exact ⟨b, _, shown_ascii hb⟩
    · obtain ⟨c, rest, h, -⟩ := shown_high xs hb
      exact ⟨c, rest, h⟩
  obtain ⟨c, rest, h⟩ := hshown
  intro hnil
  rw [shown_none, hnil] at h
  cases h

theorem prefix_of_prefix_shown (hascii : ∀ c ∈ pat, c < 0x80) (h : pat <+: shown none xs) :
    pat <+: xs := by
  induction pat generalizing xs with
  | nil => exact List.nil_prefix
  | cons a pat ih =>
    have ha : a < 0x80 := hascii a (.head _)
    cases xs with
    | nil => exact (List.cons_ne_nil a pat (List.prefix_nil.mp h)).elim
    | cons b xs =>
      rcases UInt8.lt_or_le b 0x80 with hb | hb
      · rw [shown_ascii hb, List.cons_prefix_cons] at h
        rw [h.1, List.cons_prefix_cons]
        exact ⟨rfl, ih (fun c hc => hascii c (.tail _ hc)) h.2⟩
      · obtain ⟨c, rest, heq, hc⟩ := shown_high xs hb
        rw [heq, List.cons_prefix_cons] at h
        exact absurd (h.1 ▸ ha) (UInt8.not_lt.mpr hc)

theorem suffix_append_cases {l as bs : List UInt8} (h : l <:+ as ++ bs) :
    l <:+ bs ∨ ∃ a as', l = a :: as' ++ bs ∧ a :: as' <:+ as := by
  induction as with
  | nil => exact .inl h
  | cons a as ih =>
    rcases List.suffix_cons_iff.mp h with heq | h
    · exact .inr ⟨a, as, heq, List.suffix_rfl⟩
    · rcases ih h with h | ⟨a', as', heq, hsuffix⟩
      · exact .inl h
      · exact .inr ⟨a', as', heq, hsuffix.trans (List.suffix_cons _ _)⟩

/-- **Reading brings no ASCII pattern about.** -/
theorem infix_of_infix_shown (hpat : pat ≠ []) (hascii : ∀ c ∈ pat, c < 0x80)
    (h : pat <:+: shown st xs) : pat <:+: xs := by
  obtain ⟨a, pat, rfl⟩ := List.exists_cons_of_ne_nil hpat
  have ha : a < 0x80 := hascii a (.head _)
  induction xs generalizing st with
  | nil =>
    have hmem := h.subset (.head _)
    cases st with
    | none => exact (List.not_mem_nil hmem).elim
    | some p =>
      exact absurd ha (UInt8.not_lt.mpr (le_replacement a hmem))
  | cons b xs ih =>
    obtain ⟨t, hpre, hsuffix⟩ := List.infix_iff_prefix_suffix.mp h
    rw [shown_cons] at hsuffix
    rcases suffix_append_cases hsuffix with hrest | ⟨c, rest, rfl, hfirst⟩
    · exact (ih (List.infix_iff_prefix_suffix.mpr ⟨t, hpre, hrest⟩)).trans
        (List.infix_cons List.infix_rfl)
    · obtain ⟨rfl, -⟩ := List.cons_prefix_cons.mp hpre
      rcases UInt8.lt_or_le b 0x80 with hb | hb
      · -- the pattern begins with the byte itself
        have hlast : a :: rest <:+ [b] := by
          rw [step_ascii hb] at hfirst
          cases st with
          | none => exact hfirst
          | some p =>
            rcases suffix_append_cases (show _ <:+ replacement ++ [b] from hfirst) with
              h | ⟨a', as', heq, hsuffix'⟩
            · exact h
            · cases heq
              exact absurd ha (UInt8.not_lt.mpr (le_replacement a (hsuffix'.subset (.head _))))
        rcases List.suffix_cons_iff.mp hlast with heq | hnil
        · rw [step_ascii hb] at hpre
          rw [heq, List.singleton_append, ← shown_ascii hb] at hpre
          exact (prefix_of_prefix_shown hascii hpre).isInfix
        · exact (List.cons_ne_nil _ _ (List.suffix_nil.mp hnil)).elim
      · exact absurd ha (UInt8.not_lt.mpr (le_step hb a (hfirst.subset (.head _))))

end Utf8
