/-
MahoRD/App/AgentTyping.lean

Typed text, read back from its events: a key by the host's map and the Shift state that it
carries, a Unicode event as its code unit.
-/
import MahoRD.App.AgentInput
import MahoRD.Host.WindowsKeys
import Mathlib

namespace MahoRD.Agent

/-- The characters of the virtual keys of a US keyboard, without and with Shift. -/
def usLayout : List (UInt16 × Char × Char) := [
  (0x41, 'a', 'A'), (0x42, 'b', 'B'), (0x43, 'c', 'C'), (0x44, 'd', 'D'), (0x45, 'e', 'E'),
  (0x46, 'f', 'F'), (0x47, 'g', 'G'), (0x48, 'h', 'H'), (0x49, 'i', 'I'), (0x4A, 'j', 'J'),
  (0x4B, 'k', 'K'), (0x4C, 'l', 'L'), (0x4D, 'm', 'M'), (0x4E, 'n', 'N'), (0x4F, 'o', 'O'),
  (0x50, 'p', 'P'), (0x51, 'q', 'Q'), (0x52, 'r', 'R'), (0x53, 's', 'S'), (0x54, 't', 'T'),
  (0x55, 'u', 'U'), (0x56, 'v', 'V'), (0x57, 'w', 'W'), (0x58, 'x', 'X'), (0x59, 'y', 'Y'),
  (0x5A, 'z', 'Z'), (0x30, '0', ')'), (0x31, '1', '!'), (0x32, '2', '@'), (0x33, '3', '#'),
  (0x34, '4', '$'), (0x35, '5', '%'), (0x36, '6', '^'), (0x37, '7', '&'), (0x38, '8', '*'),
  (0x39, '9', '('), (0x20, ' ', ' '), (0x0D, '\n', '\n'), (0x09, '\t', '\t'),
  (0xBA, ';', ':'), (0xBB, '=', '+'), (0xBC, ',', '<'), (0xBD, '-', '_'), (0xBE, '.', '>'),
  (0xBF, '/', '?'), (0xC0, '\x60', '~'), (0xDB, '[', '\x7b'), (0xDC, '\\', '|'),
  (0xDD, ']', '\x7d'), (0xDE, '\x27', '\x22')]

/-- What a key spells when it goes down. -/
def keyChar (keyCode : UInt16) (modifiers : Modifiers) : Option Char := do
  let vk ← Host.macosKeycodeToVk keyCode
  let (plain, shifted) ← usLayout.lookup vk
  return if modifiers.contains Modifiers.shift then shifted else plain

/-- What events spell, when the high surrogate `high` came before them. -/
def spell (high : Option UInt16) : List InputEvent → List Char
  | [] => []
  | e :: rest =>
    match e.eventType with
    | .keyDown => (keyChar e.keyCode e.modifiers).toList ++ spell none rest
    | .unicodeChar =>
      let (ch, high) := Utf16.read high e.keyCode
      ch.toList ++ spell high rest
    | _ => spell high rest

/-- A carriage return counts as a newline. -/
def crToLf (ch : Char) : Char := if ch = '\r' then '\n' else ch

/-- The characters whose key has no code on the wire. -/
def Unmapped (ch : Char) : Prop := ch = '-' ∨ ch = '_' ∨ ch = '=' ∨ ch = '+'

instance (ch : Char) : Decidable (Unmapped ch) := inferInstanceAs (Decidable (_ ∨ _))

/-! ### Single characters -/

variable {ch : Char}

theorem toNat_lt_of_isAlpha (h : ch.isAlpha) : ch.toNat < 128 := by
  simp only [Char.isAlpha, Char.isUpper, Char.isLower, Bool.or_eq_true, Bool.and_eq_true,
    decide_eq_true_eq, ge_iff_le, UInt32.le_iff_toNat_le] at h
  rcases h with ⟨-, h⟩ | ⟨-, h⟩
  · exact Nat.lt_of_le_of_lt h (by decide)
  · exact Nat.lt_of_le_of_lt h (by decide)

theorem toNat_lt_of_isDigit (h : ch.isDigit) : ch.toNat < 128 := by
  simp only [Char.isDigit, Bool.and_eq_true, decide_eq_true_eq, ge_iff_le,
    UInt32.le_iff_toNat_le] at h
  exact Nat.lt_of_le_of_lt h.2 (by decide)

theorem toNat_lt_of_synthesizeAsciiChar (h : synthesizeAsciiChar ch ≠ none) :
    ch.toNat < 128 := by
  by_cases halpha : ch.isAlpha
  · exact toNat_lt_of_isAlpha halpha
  by_cases hdigit : ch.isDigit
  · exact toNat_lt_of_isDigit hdigit
  unfold synthesizeAsciiChar at h
  simp only [halpha, hdigit, Bool.false_eq_true, if_false] at h
  split at h
  all_goals first | decide | exact (h rfl).elim

/-- A character's key, if it has one on the wire, spells it; an unmapped one has none. -/
def typedRight (ch : Char) : Bool :=
  match synthesizeAsciiChar ch with
  | none => !decide (Unmapped ch) && ch != '\r'
  | some (key, mods) =>
    match InputKeyMap.toMacos key with
    | none => decide (Unmapped ch)
    | some code => !decide (Unmapped ch) && keyChar code mods == some (crToLf ch)

theorem typedRight_ascii : ∀ n < 128, typedRight (Char.ofNat n) := by
  decide

theorem typedRight_of_le (h : 128 ≤ ch.toNat) : typedRight ch := by
  have hnone : synthesizeAsciiChar ch = none := by
    by_contra hkey
    exact Nat.not_lt.mpr h (toNat_lt_of_synthesizeAsciiChar hkey)
  have hunmapped : ¬ Unmapped ch := by
    rintro (rfl | rfl | rfl | rfl) <;> exact absurd h (by decide)
  have hcr : ch ≠ '\r' := by
    rintro rfl
    exact absurd h (by decide)
  simp [typedRight, hnone, hunmapped, hcr]

theorem typedRight_all (ch : Char) : typedRight ch := by
  rcases Nat.lt_or_ge ch.toNat 128 with h | h
  · rw [← Char.ofNat_toNat ch]
    exact typedRight_ascii _ h
  · exact typedRight_of_le h

theorem typeChar_cases (pos : UInt32 × UInt32) (ch : Char) :
    (Unmapped ch ∧ typeChar pos ch = []) ∨
      (¬ Unmapped ch ∧ ∃ code mods, keyChar code mods = some (crToLf ch) ∧
        typeChar pos ch = [eventAt .keyDown pos code mods, eventAt .keyUp pos code mods]) ∨
      (¬ Unmapped ch ∧ ch ≠ '\r' ∧
        typeChar pos ch =
          (Utf16.encode ch).map fun unit => InputEvent.unicodeChar unit pos.1 pos.2) := by
  have h := typedRight_all ch
  rw [typedRight] at h
  rw [typeChar]
  split at h
  next hnone =>
    rw [Bool.and_eq_true, Bool.not_eq_true', decide_eq_false_iff_not, bne_iff_ne] at h
    rw [hnone]
    exact .inr (.inr ⟨h.1, h.2, rfl⟩)
  next key mods hkey =>
    rw [hkey]
    split at h
    next hcode => exact .inl ⟨of_decide_eq_true h, by simp only [hcode]⟩
    next code hcode =>
      rw [Bool.and_eq_true, Bool.not_eq_true', decide_eq_false_iff_not, beq_iff_eq] at h
      exact .inr (.inl ⟨h.1, code, mods, h.2, by simp only [hcode]⟩)

/-! ### Texts -/

theorem spell_typeChar (pos : UInt32 × UInt32) (ch : Char) (high : Option UInt16)
    (hhigh : high = none) (rest : List InputEvent) :
    spell high (typeChar pos ch ++ rest) =
      (if Unmapped ch then [] else [crToLf ch]) ++ spell none rest := by
  subst hhigh
  rcases typeChar_cases pos ch with ⟨hun, htype⟩ | ⟨hun, code, mods, hkey, htype⟩ |
    ⟨hun, hcr, htype⟩
  · rw [htype, if_pos hun]
    rfl
  · rw [htype, if_neg hun]
    show (keyChar code mods).toList ++ spell none rest = _
    rw [hkey]
    rfl
  · rw [htype, if_neg hun, crToLf, if_neg hcr]
    rcases Utf16.encode_cases ch with ⟨u, hencode, hread⟩ | ⟨u, v, hencode, hhigh, hlow⟩
    · rw [hencode]
      show (Utf16.read none u).1.toList ++ spell (Utf16.read none u).2 rest = _
      rw [hread]
      rfl
    · rw [hencode]
      show (Utf16.read none u).1.toList ++ ((Utf16.read (Utf16.read none u).2 v).1.toList ++
        spell (Utf16.read (Utf16.read none u).2 v).2 rest) = _
      rw [hhigh, hlow]
      rfl

theorem spell_text (pos : UInt32 × UInt32) (text : List Char) :
    spell none (text.flatMap (typeChar pos)) =
      (text.filter fun ch => ¬ Unmapped ch).map crToLf := by
  induction text with
  | nil => rfl
  | cons ch text ih =>
    rw [List.flatMap_cons, spell_typeChar pos ch none rfl, ih, List.filter_cons]
    by_cases hun : Unmapped ch <;> simp [hun]

/-- **A text is typed faithfully if and only if it has none of the four unmapped characters.** -/
theorem type_text_faithful (drain : Drain) (text : String) (delayMs : UInt64) (pasteMode : Bool)
    (t : InputStateTracker) (pos : UInt32 × UInt32) (hostWidth hostHeight : UInt32) (now : ℕ)
    (hbudget : text.toList.length ≤ maxActionEvents / 2) :
    ∃ events,
      convertAgentActionToEvents drain (.typeText text delayMs pasteMode) t pos hostWidth
        hostHeight now = (.ok events, t, pos) ∧
      (spell none events = text.toList.map crToLf ↔ ∀ ch ∈ text.toList, ¬ Unmapped ch) := by
  refine ⟨text.toList.flatMap (typeChar pos), ?_, ?_⟩
  · have hbound : ¬ eventBound (.typeText text delayMs pasteMode) > maxActionEvents := by
      simp only [eventBound, List.length_take, maxActionEvents] at hbudget ⊢
      omega
    rw [convertAgentActionToEvents, if_neg hbound]
    rfl
  · rw [spell_text]
    constructor
    · intro h ch hch
      have hlength := congrArg List.length h
      rw [List.length_map, List.length_map, List.length_filter_eq_length_iff] at hlength
      exact of_decide_eq_true (hlength ch hch)
    · intro h
      rw [List.filter_eq_self.mpr fun ch hch => decide_eq_true (h ch hch)]

theorem type_text_faithful_sum :
    ∃ events,
      convertAgentActionToEvents .ascending (.typeText "1+1" 20 false) (.new 5000 0) (0, 0) 0 0 0 =
        (.ok events, .new 5000 0, (0, 0)) ∧
      (spell none events = "1+1".toList.map crToLf ↔ ∀ ch ∈ "1+1".toList, ¬ Unmapped ch) :=
  type_text_faithful .ascending "1+1" 20 false (.new 5000 0) (0, 0) 0 0 0 (by decide)

/-- A minus is dropped. -/
theorem minus_not_typed : ¬ ∀ (text : String), text.toList.length ≤ maxActionEvents / 2 →
    ∃ events,
      convertAgentActionToEvents .ascending (.typeText text 20 false) (.new 5000 0) (0, 0) 0 0 0 =
        (.ok events, .new 5000 0, (0, 0)) ∧
      spell none events = text.toList.map crToLf := by
  intro h
  obtain ⟨events, hconvert, hspell⟩ := h "-" (by decide)
  have hnothing : convertAgentActionToEvents .ascending (.typeText "-" 20 false) (.new 5000 0)
      (0, 0) 0 0 0 = (.ok [], .new 5000 0, (0, 0)) := rfl
  rw [hnothing] at hconvert
  obtain rfl : [] = events := Except.ok.inj (Prod.mk.inj hconvert).1
  exact absurd hspell (by decide)

end MahoRD.Agent
