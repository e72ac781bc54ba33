/-
MahoRD/Lib/Exchange.lean

Keeping a value in step on two sides, without echoes.

One side is a place that is polled: it has a content, and a number that is new
with every change of its user.  A value received from the other side is written
into it, too; a poll decides whether to pass on what it finds.  A `Guard` is what
the poller remembers between two polls, with what it does when a value is
received and when it polls.  A guard that meets the laws (`Lawful`) passes on

    what is on offer, unless it is the value last exchanged,

and that only at the poll that sees a change of the user for the first time
(`run_faithful`).  So the value received last is passed on only after another
one (`Faithful.no_echo`).
-/
import MahoRD.Lib.History
import MahoRD.Lib.Machine
import Mathlib.Data.Set.Insert

namespace Exchange

variable {κ γ τ σ : Type*}

structure Guard (κ γ τ σ : Type*) where
  /-- A value was received and written; the place has the number now. -/
  record : σ → κ → τ → σ
  /-- Poll a number and a content: the value to pass on. -/
  poll : σ → κ → γ → Option τ × σ

/-- What is passed on of an offer. -/
def passOn [DecidableEq τ] (last offer : Option τ) : Option τ :=
  if offer = last then none else offer

theorem passOn_eq_some [DecidableEq τ] {last offer : Option τ} {v : τ} :
    passOn last offer = some v ↔ offer = some v ∧ last ≠ some v := by
  simp only [passOn]
  split
  next h => simp [h]
  next h => exact ⟨fun hv => ⟨hv, fun hlast => h (hv.trans hlast.symm)⟩, And.left⟩

/-- The laws.  `Knows s K last`: of the numbers, `s` remembers only such as are in `K`, and `last` is
the value last exchanged.  `Quiet s k`: the number `k` has been dealt with. -/
structure Lawful [DecidableEq τ] (G : Guard κ γ τ σ) (offered : γ → Option τ)
    (Knows : σ → Set κ → Option τ → Prop) (Quiet : σ → κ → Prop) : Prop where
  record : ∀ {s K last k} v, Knows s K last →
    Knows (G.record s k v) (insert k K) (some v) ∧ Quiet (G.record s k v) k
  quiet : ∀ {s K last k} c, Knows s K last → Quiet s k →
    (G.poll s k c).1 = none ∧ Knows (G.poll s k c).2 K last ∧ Quiet (G.poll s k c).2 k
  fresh : ∀ {s K last k} c, Knows s K last → k ∉ K →
    (G.poll s k c).1 = passOn last (offered c) ∧
      Knows (G.poll s k c).2 (insert k K) ((passOn last (offered c)).or last) ∧
      Quiet (G.poll s k c).2 k

/-! ### The place and its poller -/

inductive Event (γ τ : Type*)
  | received (value : τ)
  /-- `genuine`: a change of the user that no poll has seen before. -/
  | polled (genuine : Bool) (content : γ) (sent : Option τ)

/-- The value that the event has brought to both sides. -/
def Event.value : Event γ τ → Option τ
  | received value => some value
  | polled _ _ sent => sent

/-- The value last exchanged. -/
def lastExchanged (history : List (Event γ τ)) : Option τ :=
  (history.filterMap Event.value).getLast?

structure World (κ γ τ σ : Type*) where
  guard : σ
  number : κ
  content : γ
  /-- The content is a change of the user that has not been polled. -/
  unseen : Bool
  /-- The numbers so far. -/
  past : List κ
  history : List (Event γ τ)

inductive Action (κ γ τ : Type*)
  | change (number : κ) (content : γ)
  | receive (number : κ) (content : γ) (value : τ)
  | poll

/-- The user's changes have new numbers. -/
def step [DecidableEq κ] (G : Guard κ γ τ σ) (w : World κ γ τ σ) :
    Action κ γ τ → Option (World κ γ τ σ)
  | .change number content =>
    if number ∈ w.past then none
    else some { w with number, content, unseen := true, past := number :: w.past }
  | .receive number content value =>
    some ⟨G.record w.guard number value, number, content, false, number :: w.past,
      w.history ++ [.received value]⟩
  | .poll =>
    let (sent, guard) := G.poll w.guard w.number w.content
    some { w with
      guard, unseen := false, history := w.history ++ [.polled w.unseen w.content sent] }

/-- At its first poll a change of the user is passed on, unless it brings nothing new; nothing else
ever is. -/
def Faithful [DecidableEq τ] (offered : γ → Option τ) (history : List (Event γ τ)) : Prop :=
  History.Each (fun before e _ => match e with
    | .received _ => True
    | .polled genuine content sent =>
      sent = if genuine then passOn (lastExchanged before) (offered content) else none) history

theorem lastExchanged_concat (history : List (Event γ τ)) (e : Event γ τ) :
    lastExchanged (history ++ [e]) = e.value.or (lastExchanged history) := by
  cases h : e.value <;> simp [lastExchanged, h]

structure Inv [DecidableEq τ] (offered : γ → Option τ) (Knows : σ → Set κ → Option τ → Prop)
    (Quiet : σ → κ → Prop) (K : Set κ) (w : World κ γ τ σ) : Prop where
  knows : Knows w.guard K (lastExchanged w.history)
  past : ∀ k ∈ K, k ∈ w.past
  unseen : w.unseen = true → w.number ∉ K
  quiet : w.unseen = false → Quiet w.guard w.number
  number : w.number ∈ w.past
  faithful : Faithful offered w.history

section Runs

variable [DecidableEq κ] [DecidableEq τ] {G : Guard κ γ τ σ} {offered : γ → Option τ}
  {Knows : σ → Set κ → Option τ → Prop} {Quiet : σ → κ → Prop}

theorem inv_step (L : Lawful G offered Knows Quiet) {w w' : World κ γ τ σ} {a : Action κ γ τ}
    (hi : ∃ K, Inv offered Knows Quiet K w) (hs : step G w a = some w') :
    ∃ K, Inv offered Knows Quiet K w' := by
  obtain ⟨K, hi⟩ := hi
  cases a with
  | change number content =>
    simp only [step] at hs
    split at hs
    · cases hs
    next hnew =>
    cases hs
    exact ⟨K, hi.knows, fun k hk => .tail _ (hi.past k hk), fun _ hk => hnew (hi.past _ hk), nofun,
      .head _, hi.faithful⟩
  | receive number content value =>
    cases hs
    obtain ⟨hknows, hquiet⟩ := L.record (k := number) value hi.knows
    refine ⟨insert number K, ?_, ?_, nofun, fun _ => hquiet, .head _, hi.faithful.concat trivial⟩
    · show Knows _ _ (lastExchanged (w.history ++ [.received value]))
      rw [lastExchanged_concat]
      exact hknows
    · rintro k (rfl | hk)
      · exact .head _
      · exact .tail _ (hi.past k hk)
  | poll =>
    cases hs
    cases hu : w.unseen with
    | false =>
      obtain ⟨hsent, hknows, hquiet⟩ := L.quiet w.content hi.knows (hi.quiet hu)
      refine ⟨K, ?_, hi.past, nofun, fun _ => hquiet, hi.number, hi.faithful.concat hsent⟩
      show Knows _ _ (lastExchanged (w.history ++ [_]))
      rw [lastExchanged_concat, Event.value, hsent]
      exact hknows
    | true =>
      obtain ⟨hsent, hknows, hquiet⟩ := L.fresh w.content hi.knows (hi.unseen hu)
      refine ⟨insert w.number K, ?_, ?_, nofun, fun _ => hquiet, hi.number,
        hi.faithful.concat hsent⟩
      · show Knows _ _ (lastExchanged (w.history ++ [_]))
        rw [lastExchanged_concat, Event.value, hsent]
        exact hknows
      · rintro k (rfl | hk)
        · exact hi.number
        · exact hi.past k hk

/-- The place as it is found: what it holds is nobody's change. -/
def start (guard : σ) (number : κ) (content : γ) : World κ γ τ σ :=
  ⟨guard, number, content, false, [number], []⟩

theorem run_faithful (L : Lawful G offered Knows Quiet) {guard : σ} {number : κ} {content : γ}
    (hknows : Knows guard {number} none) (hquiet : Quiet guard number)
    {as : List (Action κ γ τ)} {w : World κ γ τ σ}
    (h : Machine.run (step G) (start guard number content) as = some w) :
    Faithful offered w.history := by
  have h₀ : ∃ K, Inv offered Knows Quiet K (start guard number content) := by
    refine ⟨{number}, hknows, ?_, nofun, fun _ => hquiet, .head _, History.each_nil _⟩
    rintro k rfl
    exact .head _
  obtain ⟨K, hi⟩ := Machine.run_inv (inv_step L) h₀ h
  exact hi.faithful

end Runs

/-! ### No echo -/

theorem lastExchanged_append (before after : List (Event γ τ)) :
    lastExchanged (before ++ after) = (lastExchanged after).or (lastExchanged before) := by
  simp [lastExchanged]

theorem Faithful.no_echo [DecidableEq τ] {offered : γ → Option τ}
    {before between after : List (Event γ τ)} {v : τ} {genuine : Bool} {content : γ}
    (h : Faithful offered
      (before ++ .received v :: (between ++ .polled genuine content (some v) :: after)))
    (hlatest : ∀ v', .received v' ∉ between) :
    ∃ genuine' content' v', .polled genuine' content' (some v') ∈ between ∧ v' ≠ v := by
  have hsent := h (before ++ .received v :: between) (.polled genuine content (some v)) after
    (by simp)
  have hlast : lastExchanged (before ++ .received v :: between) =
      (lastExchanged between).or (some v) := by
    rw [List.append_cons, lastExchanged_append, lastExchanged_concat]
    rfl
  dsimp only at hsent
  split at hsent
  · obtain ⟨-, hne⟩ := passOn_eq_some.mp hsent.symm
    rw [hlast] at hne
    cases hbetween : lastExchanged between with
    | none => simp [hbetween] at hne
    | some v' =>
      rw [hbetween, Option.some_or, ne_eq, Option.some_inj] at hne
      obtain ⟨e, he, hvalue⟩ := List.mem_filterMap.mp (List.mem_of_getLast? hbetween)
      cases e with
      | received v'' => exact (hlatest v'' he).elim
      | polled genuine' content' sent' =>
        obtain rfl : sent' = some v' := hvalue
        exact ⟨genuine', content', v', he, hne⟩
  · cases hsent

end Exchange
