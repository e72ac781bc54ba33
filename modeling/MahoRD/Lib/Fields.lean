/-
MahoRD/Lib/Fields.lean

A struct read from an object, whose fields come in any order, or from a list of the fields'
values.  Fields are put one by one into a state that knows which it has.  A field is put once,
and only with a value that suits it (`Lawful`); what a whole object can be read to has then a
description that does not mention the state (`visitMap_iff`, `visitSeq_iff`).
-/
import Mathlib.Data.List.Nodup

namespace Fields

variable {F S V : Type*}

section Visit

variable (named : String → Option F) (put : S → F → V → Option S)

/-- The fields of an object.  What no field has the name of is skipped; a name that is not
readable is an error. -/
def visitMap : S → List (Option String × V) → Option S
  | s, [] => some s
  | _, (none, _) :: _ => none
  | s, (some name, value) :: rest =>
    match named name with
    | none => visitMap s rest
    | some field => (put s field value).bind fun s => visitMap s rest

/-- Values of fields in the order of the fields.  More of them is an error. -/
def visitSeq : S → List F → List V → Option S
  | s, _, [] => some s
  | _, [], _ :: _ => none
  | s, field :: fields, value :: values =>
    (put s field value).bind fun s => visitSeq s fields values

/-- The fields that an object has. -/
def known (object : List (Option String × V)) : List F :=
  object.filterMap fun entry => entry.1.bind named

end Visit

/-- `put` keeps track of the fields it has, takes each once, and only with a value of its type. -/
structure Lawful (put : S → F → V → Option S) (has : S → F → Prop) (typed : F → V → Prop) :
    Prop where
  isSome_iff : ∀ s field value, (∃ s', put s field value = some s') ↔
    ¬ has s field ∧ typed field value
  has_iff : ∀ {s field value s'}, put s field value = some s' →
    ∀ other, has s' other ↔ other = field ∨ has s other

namespace Lawful

variable {named : String → Option F} {put : S → F → V → Option S} {has : S → F → Prop}
  {typed : F → V → Prop} {s s' : S} {object : List (Option String × V)} {fields : List F}
  {values : List V}

/-- Every value of a field is of the field's type. -/
def TypedObject (named : String → Option F) (typed : F → V → Prop)
    (object : List (Option String × V)) : Prop :=
  ∀ entry ∈ object, ∃ name, entry.1 = some name ∧ ∀ field, named name = some field →
    typed field entry.2

theorem known_cons_none {name : String} {value : V} (h : named name = none) :
    known named ((some name, value) :: object) = known named object :=
  List.filterMap_cons_none h

theorem known_cons_some {name : String} {value : V} {field : F} (h : named name = some field) :
    known named ((some name, value) :: object) = field :: known named object :=
  List.filterMap_cons_some h

theorem has_visitMap (law : Lawful put has typed) (h : visitMap named put s object = some s')
    (other : F) : has s' other ↔ other ∈ known named object ∨ has s other := by
  fun_induction visitMap named put s object with
  | case1 s =>
    cases h
    exact (or_iff_right List.not_mem_nil).symm
  | case2 => cases h
  | case3 s name value rest hname ih => rw [known_cons_none hname, ih h]
  | case4 s name value rest field hname ih =>
    obtain ⟨mid, hmid, h⟩ := Option.bind_eq_some_iff.mp h
    rw [known_cons_some hname, ih mid h, law.has_iff hmid, List.mem_cons, or_left_comm, or_assoc]

/-- **What an object can be read to**: each field at most once, each value of its type. -/
theorem visitMap_iff (law : Lawful put has typed) :
    (∃ s', visitMap named put s object = some s') ↔
      TypedObject named typed object ∧ (known named object).Nodup ∧
        ∀ field ∈ known named object, ¬ has s field := by
  fun_induction visitMap named put s object with
  | case1 s =>
    exact iff_of_true ⟨s, rfl⟩ ⟨nofun, List.nodup_nil, nofun⟩
  | case2 s value rest =>
    refine iff_of_false nofun fun ⟨htyped, _⟩ => ?_
    obtain ⟨name, hname, _⟩ := htyped _ List.mem_cons_self
    cases hname
  | case3 s name value rest hname ih =>
    rw [ih, known_cons_none hname]
    refine and_congr_left fun _ => ⟨fun h => ?_, fun h => fun e he => h e (.tail _ he)⟩
    rintro e (_ | ⟨_, he⟩)
    · exact ⟨name, rfl, fun field hfield => nomatch hname.symm.trans hfield⟩
    · exact h e he
  | case4 s name value rest field hname ih =>
    rw [known_cons_some hname]
    constructor
    · rintro ⟨s', h⟩
      obtain ⟨mid, hmid, h⟩ := Option.bind_eq_some_iff.mp h
      obtain ⟨hhas, hvalue⟩ := (law.isSome_iff s field value).mp ⟨mid, hmid⟩
      obtain ⟨htyped, hnodup, hnew⟩ := (ih mid).mp ⟨s', h⟩
      refine ⟨?_, List.nodup_cons.mpr ⟨fun hmem => ?_, hnodup⟩, ?_⟩
      · rintro e (_ | ⟨_, he⟩)
        · exact ⟨name, rfl, fun other hother => Option.some.inj (hname.symm.trans hother) ▸ hvalue⟩
        · exact htyped e he
      · exact hnew field hmem ((law.has_iff hmid field).mpr (.inl rfl))
      · rintro other (_ | ⟨_, hother⟩)
        · exact hhas
        · exact fun hold => hnew other hother ((law.has_iff hmid other).mpr (.inr hold))
    · rintro ⟨htyped, hnodup, hnew⟩
      obtain ⟨hfresh, hnodup⟩ := List.nodup_cons.mp hnodup
      obtain ⟨_, hsome, hvalue⟩ := htyped _ List.mem_cons_self
      cases hsome
      obtain ⟨mid, hmid⟩ := (law.isSome_iff s field value).mpr
        ⟨hnew field List.mem_cons_self, hvalue field hname⟩
      have hnext : ∀ other ∈ known named rest, ¬ has mid other := fun other hother hh =>
        ((law.has_iff hmid other).mp hh).elim (fun heq => hfresh (heq ▸ hother))
          (hnew other (.tail _ hother))
      obtain ⟨s', h⟩ := (ih mid).mpr ⟨fun e he => htyped e (.tail _ he), hnodup, hnext⟩
      exact ⟨s', Option.bind_eq_some_iff.mpr ⟨mid, hmid, h⟩⟩

theorem has_visitSeq (law : Lawful put has typed) (h : visitSeq put s fields values = some s')
    (other : F) : has s' other ↔ other ∈ fields.take values.length ∨ has s other := by
  fun_induction visitSeq put s fields values with
  | case1 fields s =>
    cases h
    simp only [List.length_nil, List.take_zero, List.not_mem_nil, false_or]
  | case2 => cases h
  | case3 s field fields value values ih =>
    obtain ⟨mid, hmid, h⟩ := Option.bind_eq_some_iff.mp h
    rw [List.length_cons, List.take_succ_cons, ih mid h, law.has_iff hmid, List.mem_cons,
      or_left_comm, or_assoc]

/-- **What a list of values can be read to.** -/
theorem visitSeq_iff (law : Lawful put has typed) (hnodup : fields.Nodup)
    (hnew : ∀ field ∈ fields, ¬ has s field) :
    (∃ s', visitSeq put s fields values = some s') ↔
      values.length ≤ fields.length ∧ ∀ entry ∈ fields.zip values, typed entry.1 entry.2 := by
  fun_induction visitSeq put s fields values with
  | case1 fields s =>
    refine iff_of_true ⟨s, rfl⟩ ⟨Nat.zero_le _, ?_⟩
    rw [List.zip_nil_right]
    exact nofun
  | case2 => exact iff_of_false nofun fun h => absurd h.1 (by simp)
  | case3 s field fields value values ih =>
    obtain ⟨hfresh, hnodup⟩ := List.nodup_cons.mp hnodup
    have hnext {mid : S} (hmid : put s field value = some mid) :
        (∃ s', visitSeq put mid fields values = some s') ↔
          values.length ≤ fields.length ∧ ∀ entry ∈ fields.zip values, typed entry.1 entry.2 :=
      ih mid hnodup fun other hother hh => ((law.has_iff hmid other).mp hh).elim
        (fun heq => hfresh (heq ▸ hother)) (hnew other (.tail _ hother))
    rw [List.length_cons, List.length_cons, Nat.succ_le_succ_iff, List.zip_cons_cons,
      List.forall_mem_cons]
    constructor
    · rintro ⟨s', h⟩
      obtain ⟨mid, hmid, h⟩ := Option.bind_eq_some_iff.mp h
      obtain ⟨hlength, hvalues⟩ := (hnext hmid).mp ⟨s', h⟩
      exact ⟨hlength, ((law.isSome_iff s field value).mp ⟨mid, hmid⟩).2, hvalues⟩
    · rintro ⟨hlength, hvalue, hvalues⟩
      obtain ⟨mid, hmid⟩ := (law.isSome_iff s field value).mpr
        ⟨hnew field List.mem_cons_self, hvalue⟩
      obtain ⟨s', h⟩ := (hnext hmid).mpr ⟨hlength, hvalues⟩
      exact ⟨s', Option.bind_eq_some_iff.mpr ⟨mid, hmid, h⟩⟩

end Lawful

end Fields
