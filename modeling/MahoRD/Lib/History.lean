/-
MahoRD/Lib/History.lean

Laws of a history.  A history is the list of the events so far, the newest at
the end.  `Each P` says that every event meets `P`, given the events before it
and those after it.  When an event is appended, it has nothing behind it, and
every other one has one more event behind it (`each_concat`).
-/
import Mathlib.Data.List.Basic

namespace History

variable {α : Type*}

/-- Every event meets `P`, given the events before and after it. -/
def Each (P : List α → α → List α → Prop) (log : List α) : Prop :=
  ∀ before e after, log = before ++ e :: after → P before e after

theorem each_nil (P : List α → α → List α → Prop) : Each P [] := by
  intro before e after h
  simp at h

variable {log : List α}

theorem each_concat {P : List α → α → List α → Prop} {x : α} :
    Each P (log ++ [x]) ↔ Each (fun b e a => P b e (a ++ [x])) log ∧ P log x [] := by
  constructor
  · intro h
    refine ⟨fun before e after hlog => h before e (after ++ [x]) ?_, h log x [] rfl⟩
    simp [hlog]
  · rintro ⟨hold, hnew⟩ before e after hlog
    rcases List.eq_nil_or_concat after with rfl | ⟨after, y, rfl⟩
    · obtain ⟨rfl, h⟩ := List.append_inj' hlog rfl
      cases h
      exact hnew
    · have hlog : log ++ [x] = (before ++ e :: after) ++ [y] := by simpa using hlog
      obtain ⟨rfl, h⟩ := List.append_inj' hlog rfl
      cases h
      simpa using hold before e after rfl

theorem Each.imp {P Q : List α → α → List α → Prop} (h : Each P log)
    (hPQ : ∀ before e after, P before e after → Q before e after) : Each Q log :=
  fun before e after hlog => hPQ before e after (h before e after hlog)

theorem Each.concat {P : List α → α → Prop} {x : α}
    (h : Each (fun before e _ => P before e) log) (hx : P log x) :
    Each (fun before e _ => P before e) (log ++ [x]) :=
  each_concat.mpr ⟨h, hx⟩

end History
