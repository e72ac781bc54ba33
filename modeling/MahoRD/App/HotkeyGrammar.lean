/-
MahoRD/App/HotkeyGrammar.lean

Which hotkeys are pressed.  A hotkey names modifiers and, last, a key; `named` reads the list that
way, a '+' that nothing follows being the key itself.  The code joins the list, splits it at every
'+' and drops what is empty (`parseHotkeyString`), so it loses the key '+', and it holds Shift for
a capital letter before the last element.  Three keys are not pressed at all or not the ones that
are named (`misread`).  Where none of this happens is told by `Unambiguous`.
-/
import MahoRD.App.AgentInput
import MahoRD.Host.WindowsKeys
import Mathlib

namespace MahoRD.Agent

/-! ### What a hotkey names -/

/-- A '+' that nothing follows is a key. -/
def literalPlus : List (List Char) → List (List Char)
  | [[], []] => [['+']]
  | part :: rest => part :: literalPlus rest
  | [] => []

/-- The elements that one string of the list has. -/
def hotkeyElements (hotkey : String) : List (List Char) :=
  literalPlus ((hotkey.toList.splitOn '+').map trim)

/-- The names of modifiers, in small letters. -/
def modifierWord : String → Option Modifiers
  | "shift" | "leftshift" | "rightshift" => some Modifiers.shift
  | "ctrl" | "control" | "leftctrl" | "rightctrl" => some Modifiers.control
  | "alt" | "opt" | "option" | "leftalt" | "rightalt" => some Modifiers.option
  | "super" | "win" | "windows" | "cmd" | "command" | "meta" => some Modifiers.command
  | "capslock" => some Modifiers.capsLock
  | _ => none

def modifierNamed (element : List Char) : Option Modifiers :=
  modifierWord (toAsciiLowercase element)

/-- The virtual key that an element names, with the modifiers that come with it. -/
def keyNamed (element : List Char) : Option (UInt16 × Modifiers) :=
  if element = ['+'] then some (0xBB, Modifiers.shift)
  else match parseKeyName (String.ofList element) with
    | .ok (.windowsVirtualKey vk, mods) => some (vk, mods)
    | .error _ => none

/-- Modifiers, and a key at the end. -/
def named : List (List Char) → Option (UInt16 × Modifiers)
  | [] => none
  | [last] => keyNamed last
  | element :: rest => do
    let held ← modifierNamed element
    let (vk, mods) ← named rest
    return (vk, held ⊔ mods)

/-- On the host a modifier is its left key. -/
def leftOf (vk : UInt16) : UInt16 :=
  if vk = 0x10 then 0xA0 else if vk = 0x11 then 0xA2 else if vk = 0x12 then 0xA4 else vk

/-- The key is pressed as this code, and the host takes the code for the key. -/
def PressedAs (vk code : UInt16) : Prop := Host.macosKeycodeToVk code = some (leftOf vk)

/-! ### What the code takes it for -/

/-- The names that are not pressed as what they say: the modifier that only the loop knows, and
the keys that have another's code or none. -/
def misread : List String := ["opt", "+", "-", "minus", "=", "equal", "insert", "ins"]

/-- The names without a code. -/
def unmapped : List String := ["-", "minus", "=", "equal"]

/-- What the loop takes for a modifier: a name, or a capital letter. -/
def TakenForModifier (element : List Char) : Prop :=
  (modifierNamed element ≠ none ∧ toAsciiLowercase element ≠ "opt") ∨
    ∃ ch, element = [ch] ∧ ch.isUpper

def TakenForKey (element : List Char) : Prop :=
  keyNamed element ≠ none ∧ toAsciiLowercase element ∉ unmapped

def TakenForHotkey : List (List Char) → Prop
  | [] => False
  | [last] => TakenForKey last
  | element :: rest => TakenForModifier element ∧ TakenForHotkey rest

/-- What is left of the elements after the code has joined and split them. -/
def kept (elements : List (List Char)) : List (List Char) :=
  elements.filter fun element => element ≠ [] ∧ element ≠ ['+']

/-! ### The table of names -/

def InputKey.vk : InputKey → UInt16
  | .windowsVirtualKey key => key

/-- The key has a code, and the host takes it for what it is. -/
def faithful (k : InputKey) : Bool :=
  (InputKeyMap.toMacos k).any fun code => Host.macosKeycodeToVk code = some (leftOf k.vk)

/-- How `parseKeyName` reads a name, and what becomes of it. -/
inductive Reads (p : List Char) : Prop
  | modifier (k : InputKey) (m : Modifiers) (hm : modifierNamed p = some m)
      (hparse : parseKeyName (String.ofList p) = .ok (k, m)) (hne : m ≠ Modifiers.empty)
      (hname : toAsciiLowercase p ∉ misread) (hk : faithful k = true) (hplus : leftOf k.vk ≠ 0xBB)
  | key (k : InputKey) (hm : modifierNamed p = none)
      (hparse : parseKeyName (String.ofList p) = .ok (k, Modifiers.empty))
      (hk : faithful k = true ↔ toAsciiLowercase p ∉ misread)
      (hcode : InputKeyMap.toMacos k = none ↔ toAsciiLowercase p ∈ unmapped)
  | capital (ch : Char) (k : InputKey) (hp : p = [ch]) (hupper : ch.isUpper)
      (hm : modifierNamed p = none)
      (hparse : parseKeyName (String.ofList p) = .ok (k, Modifiers.shift))
      (hname : toAsciiLowercase p ∉ misread) (hk : faithful k = true)
  | unknown (e : AgentInputError) (hm : modifierNamed p = none ∨ toAsciiLowercase p = "opt")
      (hparse : parseKeyName (String.ofList p) = .error e)

theorem modifierNamed_singleton (ch : Char) : modifierNamed [ch] = none := by
  rw [modifierNamed, modifierWord.eq_def]
  split
  all_goals first
    | rfl
    | next heq =>
      have hlen := congrArg (·.toList.length) heq
      simp [toAsciiLowercase] at hlen

theorem alphanumeric_facts : ∀ n : Fin 128, (Char.ofNat n).isAlpha ∨ (Char.ofNat n).isDigit →
    let k := InputKey.windowsVirtualKey (.ofNat (Char.ofNat n).toUpper.toNat)
    faithful k = true ∧ InputKeyMap.toMacos k ≠ none ∧
      toAsciiLowercase [Char.ofNat n] ∉ misread ∧ toAsciiLowercase [Char.ofNat n] ∉ unmapped ∧
      ((Char.ofNat n).isDigit → (Char.ofNat n).toUpper = Char.ofNat n) ∧
      ((Char.ofNat n).isUpper → parseKeyName (String.ofList [Char.ofNat n])
        = .ok (.windowsVirtualKey (.ofNat n), Modifiers.shift)) := by
  decide

variable {ch : Char}

theorem isAlpha_lt (h : ch.isAlpha ∨ ch.isDigit) : ch.toNat < 128 := by
  simp only [Char.isAlpha, Char.isUpper, Char.isLower, Char.isDigit, Bool.or_eq_true,
    Bool.and_eq_true, decide_eq_true_eq, ge_iff_le, UInt32.le_iff_toNat_le] at h
  change ch.val.toNat < 128
  rcases h with (⟨-, h⟩ | ⟨-, h⟩) | ⟨-, h⟩
  · exact lt_of_le_of_lt h (by decide)
  · exact lt_of_le_of_lt h (by decide)
  · exact lt_of_le_of_lt h (by decide)

theorem alphanumeric (h : ch.isAlpha ∨ ch.isDigit) :
    let k := InputKey.windowsVirtualKey (.ofNat ch.toUpper.toNat)
    faithful k = true ∧ InputKeyMap.toMacos k ≠ none ∧
      toAsciiLowercase [ch] ∉ misread ∧ toAsciiLowercase [ch] ∉ unmapped ∧
      (ch.isDigit → ch.toUpper = ch) ∧
      (ch.isUpper → parseKeyName (String.ofList [ch])
        = .ok (.windowsVirtualKey (.ofNat ch.toNat), Modifiers.shift)) := by
  have hfacts := alphanumeric_facts ⟨ch.toNat, isAlpha_lt h⟩
  simp only [Char.ofNat_toNat] at hfacts
  exact hfacts h

section Read

variable {p : List Char} {k : InputKey} {m : Modifiers}

/-- A name that is no key names no modifier either, but for the one that only the loop knows. -/
theorem modifierNamed_of_error (htrim : trim p = p) {e : AgentInputError}
    (hparse : parseKeyName (String.ofList p) = .error e) (hopt : toAsciiLowercase p ≠ "opt") :
    modifierNamed p = none := by
  rw [parseKeyName, String.toList_ofList, htrim] at hparse
  dsimp only at hparse
  rw [modifierNamed, modifierWord.eq_def]
  split
  all_goals first
    | rfl
    | next heq => exact absurd heq hopt
    | next heq =>
      rw [heq] at hparse
      cases hparse

theorem Reads.word {name : String} (heq : toAsciiLowercase p = name)
    (hparse : parseKeyName (String.ofList p) = .ok (k, Modifiers.empty))
    (hm : modifierWord name = none) (hk : faithful k = true ↔ name ∉ misread)
    (hcode : InputKeyMap.toMacos k = none ↔ name ∈ unmapped) : Reads p := by
  subst heq
  exact .key k hm hparse hk hcode

theorem Reads.held {name : String} (heq : toAsciiLowercase p = name)
    (hparse : parseKeyName (String.ofList p) = .ok (k, m)) (hm : modifierWord name = some m)
    (hname : name ∉ misread) (hne : m ≠ Modifiers.empty) (hk : faithful k = true)
    (hplus : leftOf k.vk ≠ 0xBB) : Reads p := by
  subst heq
  exact .modifier k m hm hparse hne hname hk hplus

theorem reads (htrim : trim p = p) : Reads p := by
  rcases hparse : parseKeyName (String.ofList p) with e | ⟨k, m⟩
  · refine .unknown e ?_ hparse
    by_cases hopt : toAsciiLowercase p = "opt"
    · exact .inr hopt
    · exact .inl (modifierNamed_of_error htrim hparse hopt)
  · have h := hparse
    rw [parseKeyName, String.toList_ofList, htrim] at h
    dsimp only at h
    split at h
    all_goals try next heq =>
      cases h
      first
        | exact .word heq hparse rfl (by decide) (by decide)
        | exact .held heq hparse rfl (by decide) (by decide) (by decide) (by decide)
    rcases p with - | ⟨ch, - | ⟨_, _⟩⟩
    · cases h
    · dsimp only at h
      split at h
      next halpha =>
        obtain ⟨hk, hcode, hmis, hun, -⟩ := alphanumeric (.inl halpha)
        split at h
        next hupper =>
          cases h
          exact .capital ch _ rfl hupper (modifierNamed_singleton ch) hparse hmis hk
        next =>
          cases h
          exact .key _ (modifierNamed_singleton ch) hparse (by simp [hk, hmis])
            (by simp [hcode, hun])
      next =>
        split at h
        next hdigit =>
          obtain ⟨hk, hcode, hmis, hun, hupper, -⟩ := alphanumeric (.inr hdigit)
          rw [hupper hdigit] at hk hcode
          cases h
          exact .key _ (modifierNamed_singleton ch) hparse (by simp [hk, hmis])
            (by simp [hcode, hun])
        next => cases h
    · cases h

end Read

/-! ### Joining and splitting -/

theorem trim_eq (s : List Char) :
    trim s = (s.dropWhile isWhitespace).rdropWhile isWhitespace := rfl

theorem trim_trim (s : List Char) : trim (trim s) = trim s := by
  have hstart : (trim s).dropWhile isWhitespace = trim s := by
    rw [List.dropWhile_eq_self_iff]
    intro hpos
    obtain ⟨rest, hrest⟩ := List.rdropWhile_prefix isWhitespace (l := s.dropWhile isWhitespace)
    rw [← trim_eq] at hrest
    have hpos' : 0 < (s.dropWhile isWhitespace).length := by
      rw [← hrest, List.length_append]
      omega
    have hhead : (trim s)[0] = (s.dropWhile isWhitespace)[0] := by
      simp only [← hrest, List.getElem_append_left hpos]
    rw [hhead]
    exact List.dropWhile_get_zero_not _ _ hpos'
  rw [trim_eq (trim s), hstart, trim_eq, List.rdropWhile_idempotent]

theorem mem_of_mem_trim {s : List Char} (h : ch ∈ trim s) : ch ∈ s :=
  (List.dropWhile_sublist _).subset ((List.rdropWhile_prefix _ _).subset h)

theorem not_mem_of_mem_splitOn {s part : List Char} (h : part ∈ s.splitOn '+') : '+' ∉ part := by
  induction s generalizing part with
  | nil =>
    rw [List.splitOn_nil, List.mem_singleton] at h
    rw [h]
    exact List.not_mem_nil
  | cons ch s ih =>
    rw [List.splitOn_cons_eq_if_modifyHead] at h
    split at h
    · rcases List.mem_cons.mp h with rfl | hrest
      · exact List.not_mem_nil
      · exact ih hrest
    next hch =>
      rcases hsplit : s.splitOn '+' with - | ⟨first, rest⟩
      · exact absurd hsplit (List.splitOn_ne_nil _ _)
      · rw [hsplit] at h ih
        rcases List.mem_cons.mp h with rfl | hrest
        · rintro (_ | ⟨_, hmem⟩)
          · exact hch rfl
          · exact ih List.mem_cons_self hmem
        · exact ih (List.mem_cons_of_mem _ hrest)

theorem kept_literalPlus {parts : List (List Char)} (h : ['+'] ∉ parts) :
    kept (literalPlus parts) = parts.filter fun part => !part.isEmpty := by
  fun_induction literalPlus parts with
  | case1 => rfl
  | case2 part rest hrest ih =>
    have hpart : part ≠ ['+'] := fun he => h (he ▸ List.mem_cons_self)
    rw [kept, List.filter_cons, List.filter_cons, ← kept,
      ih fun hmem => h (List.mem_cons_of_mem _ hmem)]
    cases part <;> simp [hpart]
  | case3 => rfl

theorem plus_not_mem (s : List Char) : ['+'] ∉ (s.splitOn '+').map trim := by
  intro h
  obtain ⟨part, hpart, htrim⟩ := List.mem_map.mp h
  refine not_mem_of_mem_splitOn hpart (mem_of_mem_trim ?_)
  rw [htrim]
  exact List.mem_singleton_self _

theorem parts_eq (keys : List String) :
    ((((String.intercalate "+" keys).toList.splitOn '+').map trim).filter fun part => !part.isEmpty)
      = kept (keys.flatMap hotkeyElements) := by
  have hplus : "+".toList = ['+'] := rfl
  rw [String.toList_intercalate, hplus]
  induction keys with
  | nil => rfl
  | cons key keys ih =>
    have hkey := kept_literalPlus (plus_not_mem key.toList)
    rw [List.flatMap_cons, kept, List.filter_append, ← kept, ← kept, ← ih, hotkeyElements, hkey]
    cases keys with
    | nil =>
      have htrim : trim [] = [] := rfl
      simp [htrim]
    | cons key' keys =>
      rw [List.map_cons, List.map_cons, List.intercalate_cons_cons, List.append_assoc,
        List.singleton_append, List.splitOn_append_cons_self, List.map_append, List.filter_append]

theorem mem_literalPlus {parts : List (List Char)} {e : List Char} (h : e ∈ literalPlus parts) :
    e = ['+'] ∨ e ∈ parts := by
  fun_induction literalPlus parts with
  | case1 => exact .inl (List.mem_singleton.mp h)
  | case2 part rest hrest ih =>
    rcases List.mem_cons.mp h with rfl | h
    · exact .inr List.mem_cons_self
    · exact (ih h).imp_right (List.mem_cons_of_mem _)
  | case3 => exact .inr h

theorem trim_of_mem_elements {keys : List String} {e : List Char}
    (h : e ∈ keys.flatMap hotkeyElements) : trim e = e := by
  obtain ⟨key, -, he⟩ := List.mem_flatMap.mp h
  rcases mem_literalPlus he with rfl | he
  · rfl
  · obtain ⟨part, -, rfl⟩ := List.mem_map.mp he
    exact trim_trim part

/-! ### The loop -/

variable {p : List Char} {parts rest : List (List Char)} {combined ms : Modifiers} {k : InputKey}

theorem loop_modifier {m : Modifiers} (hrest : rest ≠ [])
    (hparse : parseKeyName (String.ofList p) = .ok (k, m)) (hne : m ≠ Modifiers.empty) :
    parseHotkeyParts combined (p :: rest) = parseHotkeyParts (combined ⊔ m) rest := by
  rw [parseHotkeyParts.eq_3 _ _ _ hrest, hparse]
  exact if_neg hne

theorem loop_unknown (hrest : rest ≠ []) {e : AgentInputError}
    (hparse : parseKeyName (String.ofList p) = .error e) :
    parseHotkeyParts combined (p :: rest) = .error e := by
  rw [parseHotkeyParts.eq_3 _ _ _ hrest, hparse]
  rfl

theorem loop_key (hrest : rest ≠ []) (hm : modifierNamed p = none)
    (hparse : parseKeyName (String.ofList p) = .ok (k, Modifiers.empty)) :
    parseHotkeyParts combined (p :: rest) = .error (.unknownKey (String.ofList p)) := by
  rw [parseHotkeyParts.eq_3 _ _ _ hrest, hparse]
  dsimp only [bind, Except.bind]
  rw [if_pos rfl]
  -- the words that the loop looks for itself are all modifiers
  split
  all_goals first
    | rfl
    | next heq => exact absurd ((congrArg modifierWord heq).symm.trans hm) nofun

theorem TakenForModifier.parse (h : TakenForModifier p) (htrim : trim p = p) :
    ∃ k m, parseKeyName (String.ofList p) = .ok (k, m) ∧ m ≠ Modifiers.empty := by
  rcases h with ⟨hm, hopt⟩ | ⟨ch, rfl, hupper⟩
  · cases reads htrim with
    | modifier k m _ hparse hne => exact ⟨k, m, hparse, hne⟩
    | key k hnone => exact absurd hnone hm
    | capital ch k _ _ hnone => exact absurd hnone hm
    | unknown e hnone => exact (hnone.elim hm hopt).elim
  · have halpha : ch.isAlpha := by rw [Char.isAlpha, hupper, Bool.true_or]
    obtain ⟨-, -, -, -, -, hparse⟩ := alphanumeric (.inl halpha)
    exact ⟨_, _, hparse hupper, by decide⟩

variable (combined) in
theorem loop_not_taken (hrest : rest ≠ []) (htrim : trim p = p) (h : ¬ TakenForModifier p) :
    ∃ e, parseHotkeyParts combined (p :: rest) = .error e := by
  cases reads htrim with
  | modifier k m hm _ _ hname =>
    have hopt : toAsciiLowercase p ≠ "opt" := fun he => hname (he ▸ by decide)
    exact (h (.inl ⟨hm ▸ nofun, hopt⟩)).elim
  | key k hm hparse => exact ⟨_, loop_key hrest hm hparse⟩
  | capital ch k hp hupper => exact (h (.inr ⟨ch, hp, hupper⟩)).elim
  | unknown e hm hparse => exact ⟨e, loop_unknown hrest hparse⟩

theorem keyNamed_eq (hp : p ≠ ['+']) (hparse : parseKeyName (String.ofList p) = .ok (k, ms)) :
    keyNamed p = some (k.vk, ms) := by
  rw [keyNamed, if_neg hp, hparse]
  rfl

theorem faithful_iff : faithful k = true ↔
    ∃ code, InputKeyMap.toMacos k = some code ∧ PressedAs k.vk code := by
  rw [faithful]
  cases InputKeyMap.toMacos k <;> simp [PressedAs]

theorem unmapped_subset : ∀ name ∈ unmapped, name ∈ misread := by decide

theorem takenForKey_iff (htrim : trim p = p) (hp : p ≠ ['+']) :
    TakenForKey p ↔
      ∃ k ms, parseKeyName (String.ofList p) = .ok (k, ms) ∧ InputKeyMap.toMacos k ≠ none := by
  have hboth {k : InputKey} {ms : Modifiers} (hparse : parseKeyName (String.ofList p) = .ok (k, ms))
      (hname : toAsciiLowercase p ∉ misread) (hk : faithful k = true) :
      TakenForKey p ↔ ∃ k ms, parseKeyName (String.ofList p) = .ok (k, ms) ∧
        InputKeyMap.toMacos k ≠ none := by
    obtain ⟨code, hcode, -⟩ := faithful_iff.mp hk
    refine iff_of_true ⟨keyNamed_eq hp hparse ▸ nofun, fun h => hname (unmapped_subset _ h)⟩ ?_
    exact ⟨k, ms, hparse, hcode ▸ nofun⟩
  cases reads htrim with
  | modifier k m _ hparse _ hname hk => exact hboth hparse hname hk
  | capital ch k _ _ _ hparse hname hk => exact hboth hparse hname hk
  | key k _ hparse _ hcode =>
    constructor
    · rintro ⟨-, hname⟩
      exact ⟨k, _, hparse, fun h => hname (hcode.mp h)⟩
    · rintro ⟨k', ms', hparse', hk'⟩
      obtain ⟨rfl, -⟩ := Prod.mk.inj (Except.ok.inj (hparse.symm.trans hparse'))
      exact ⟨keyNamed_eq hp hparse ▸ nofun, fun h => hk' (hcode.mpr h)⟩
  | unknown e _ hparse =>
    refine iff_of_false (fun h => h.1 ?_) ?_
    · rw [keyNamed, if_neg hp, hparse]
    · rintro ⟨k, ms, hparse', -⟩
      rw [hparse] at hparse'
      cases hparse'

variable (combined) in
/-- **What the code accepts**: modifiers or capital letters, and a key with a code. -/
theorem takenForHotkey_iff (htrim : ∀ e ∈ parts, trim e = e) (hplus : ['+'] ∉ parts) :
    TakenForHotkey parts ↔ ∃ k ms, parseHotkeyParts combined parts = .ok (k, ms) ∧
      InputKeyMap.toMacos k ≠ none := by
  fun_induction TakenForHotkey parts generalizing combined with
  | case1 => simp [parseHotkeyParts]
  | case2 last =>
    rw [takenForKey_iff (htrim last List.mem_cons_self) fun h => hplus (h ▸ List.mem_cons_self)]
    rw [parseHotkeyParts]
    rcases parseKeyName (String.ofList last) with e | ⟨k, m⟩
    · exact iff_of_false (fun ⟨_, _, h, _⟩ => nomatch h) (fun ⟨_, _, h, _⟩ => nomatch h)
    · constructor
      · rintro ⟨k', m', h, hk⟩
        cases h
        exact ⟨k, _, rfl, hk⟩
      · rintro ⟨k', m', h, hk⟩
        cases h
        exact ⟨k, m, rfl, hk⟩
  | case3 element rest hrest ih =>
    have hrest' : rest ≠ [] := fun h => hrest h
    have helement := htrim element List.mem_cons_self
    have htail := fun m => @ih m (fun e he => htrim e (List.mem_cons_of_mem _ he))
      fun h => hplus (List.mem_cons_of_mem _ h)
    by_cases htaken : TakenForModifier element
    · obtain ⟨k, m, hparse, hne⟩ := htaken.parse helement
      rw [loop_modifier hrest' hparse hne, ← htail]
      exact and_iff_right htaken
    · obtain ⟨e, he⟩ := loop_not_taken combined hrest' helement htaken
      rw [he]
      exact iff_of_false (fun h => htaken h.1) (fun ⟨_, _, h, _⟩ => nomatch h)

/-! ### Hotkeys that name something -/

variable {elements : List (List Char)} {vk : UInt16} {mods : Modifiers}

theorem union_assoc (m m' m'' : Modifiers) : m ⊔ (m' ⊔ m'') = m ⊔ m' ⊔ m'' :=
  congrArg Modifiers.mk (UInt16.or_assoc ..).symm

theorem empty_union (m : Modifiers) : Modifiers.empty ⊔ m = m :=
  congrArg Modifiers.mk (UInt16.zero_or ..)

theorem modifier_read {held : Modifiers} (htrim : trim p = p) (hm : modifierNamed p = some held)
    (hname : toAsciiLowercase p ∉ misread) :
    ∃ k, parseKeyName (String.ofList p) = .ok (k, held) ∧ held ≠ Modifiers.empty := by
  cases reads htrim with
  | modifier k m hm' hparse hne =>
    obtain rfl := Option.some.inj (hm.symm.trans hm')
    exact ⟨k, hparse, hne⟩
  | key k hnone => exact nomatch hm.symm.trans hnone
  | capital ch k _ _ hnone => exact nomatch hm.symm.trans hnone
  | unknown e hnone =>
    rcases hnone with hnone | hopt
    · exact nomatch hm.symm.trans hnone
    · exact (hname (hopt ▸ by decide)).elim

theorem key_read (htrim : trim p = p) (h : keyNamed p = some (vk, mods))
    (hname : toAsciiLowercase p ∉ misread) :
    ∃ k, parseKeyName (String.ofList p) = .ok (k, mods) ∧ k.vk = vk ∧ faithful k = true := by
  have hplus : p ≠ ['+'] := fun hp => hname (hp ▸ by decide)
  have hparsed {k : InputKey} {ms : Modifiers}
      (hparse : parseKeyName (String.ofList p) = .ok (k, ms)) (hk : faithful k = true) :
      ∃ k, parseKeyName (String.ofList p) = .ok (k, mods) ∧ k.vk = vk ∧ faithful k = true := by
    rw [keyNamed_eq hplus hparse] at h
    cases h
    exact ⟨k, hparse, rfl, hk⟩
  cases reads htrim with
  | modifier k m _ hparse _ _ hk => exact hparsed hparse hk
  | key k _ hparse hk => exact hparsed hparse (hk.mpr hname)
  | capital ch k _ _ _ hparse _ hk => exact hparsed hparse hk
  | unknown e _ hparse =>
    rw [keyNamed, if_neg hplus, hparse] at h
    cases h

variable (combined) in
/-- **What is named is pressed** when nothing in it is misread. -/
theorem loop_named (htrim : ∀ e ∈ elements, trim e = e)
    (hname : ∀ e ∈ elements, toAsciiLowercase e ∉ misread) (h : named elements = some (vk, mods)) :
    ∃ k, parseHotkeyParts combined elements = .ok (k, combined ⊔ mods) ∧ k.vk = vk ∧
      faithful k = true := by
  fun_induction named elements generalizing combined vk mods with
  | case1 => cases h
  | case2 last =>
    obtain ⟨k, hparse, hvk, hk⟩ := key_read (htrim last List.mem_cons_self) h
      (hname last List.mem_cons_self)
    exact ⟨k, by rw [parseHotkeyParts, hparse]; rfl, hvk, hk⟩
  | case3 element rest hrest ih =>
    have hrest' : rest ≠ [] := fun h => hrest h
    obtain ⟨held, hheld, h⟩ := Option.bind_eq_some_iff.mp h
    obtain ⟨⟨vk', mods'⟩, hrest'', h⟩ := Option.bind_eq_some_iff.mp h
    cases h
    obtain ⟨k, hparse, hne⟩ := modifier_read (htrim element List.mem_cons_self) hheld
      (hname element List.mem_cons_self)
    obtain ⟨k', hloop, hvk, hk⟩ : ∃ k', parseHotkeyParts (combined ⊔ held) rest =
        .ok (k', combined ⊔ held ⊔ mods') ∧ k'.vk = vk ∧ faithful k' = true :=
      ih (combined ⊔ held) (fun e he => htrim e (List.mem_cons_of_mem _ he))
        (fun e he => hname e (List.mem_cons_of_mem _ he)) hrest''
    exact ⟨k', by rw [loop_modifier hrest' hparse hne, hloop, union_assoc], hvk, hk⟩

theorem key_misread (htrim : trim p = p) (h : keyNamed p = some (vk, mods))
    (hname : toAsciiLowercase p ∈ misread) {code : UInt16}
    (hloop : parseHotkeyParts combined (kept [p]) = .ok (k, ms))
    (hcode : InputKeyMap.toMacos k = some code) : ¬ PressedAs vk code := by
  by_cases hplus : p = ['+']
  · subst hplus
    cases hloop
  have hkept : kept [p] = [p] ∨ kept [p] = [] := by
    by_cases hnil : p = [] <;> simp [kept, hnil, hplus]
  rcases hkept with hkept | hkept <;> rw [hkept] at hloop
  · cases reads htrim with
    | modifier k m _ _ _ hname' => exact (hname' hname).elim
    | capital ch k _ _ _ _ hname' => exact (hname' hname).elim
    | unknown e _ hparse =>
      rw [parseHotkeyParts, hparse] at hloop
      cases hloop
    | key k' _ hparse hk =>
      rw [keyNamed_eq hplus hparse] at h
      rw [parseHotkeyParts, hparse] at hloop
      cases h
      cases hloop
      exact fun hpressed => hk.mp (faithful_iff.mpr ⟨code, hcode, hpressed⟩) hname
  · cases hloop

theorem kept_modifier {held : Modifiers} (hm : modifierNamed p = some held) :
    kept (p :: rest) = p :: kept rest := by
  refine List.filter_cons_of_pos (decide_eq_true ⟨?_, ?_⟩)
  · rintro rfl
    cases hm
  · rintro rfl
    exact nomatch hm.symm.trans (modifierNamed_singleton '+')

theorem kept_named (hname : ∀ e ∈ elements, toAsciiLowercase e ∉ misread)
    (h : named elements = some (vk, mods)) : kept elements = elements := by
  fun_induction named elements generalizing vk mods with
  | case1 => cases h
  | case2 last =>
    refine List.filter_eq_self.mpr fun e he => decide_eq_true ⟨?_, ?_⟩
    · rintro rfl
      obtain rfl := List.mem_singleton.mp he
      cases h
    · rintro rfl
      exact hname _ he (by decide)
  | case3 element rest hrest ih =>
    obtain ⟨held, hheld, h⟩ := Option.bind_eq_some_iff.mp h
    obtain ⟨⟨vk', mods'⟩, hnamed, -⟩ := Option.bind_eq_some_iff.mp h
    rw [kept_modifier hheld, ih (fun e he => hname e (List.mem_cons_of_mem _ he)) hnamed]

theorem lost_key (h : named elements = some (vk, mods)) (hnil : kept elements = []) :
    vk = 0xBB := by
  fun_induction named elements generalizing vk mods with
  | case1 => cases h
  | case2 last =>
    by_cases hlast : last = ['+']
    · rw [keyNamed, if_pos hlast] at h
      cases h
      rfl
    · by_cases hempty : last = []
      · subst hempty
        cases h
      · simp [kept, hlast, hempty] at hnil
  | case3 element rest hrest ih =>
    obtain ⟨held, hheld, -⟩ := Option.bind_eq_some_iff.mp h
    rw [kept_modifier hheld] at hnil
    cases hnil

/-- **What is misread is not pressed**. -/
theorem loop_misread (htrim : ∀ e ∈ elements, trim e = e)
    (hname : ∃ e ∈ elements, toAsciiLowercase e ∈ misread)
    (h : named elements = some (vk, mods)) {code : UInt16}
    (hloop : parseHotkeyParts combined (kept elements) = .ok (k, ms))
    (hcode : InputKeyMap.toMacos k = some code) : ¬ PressedAs vk code := by
  fun_induction named elements generalizing combined vk mods with
  | case1 => cases h
  | case2 last =>
    obtain ⟨e, he, hname⟩ := hname
    obtain rfl := List.mem_singleton.mp he
    exact key_misread (htrim e List.mem_cons_self) h hname hloop hcode
  | case3 element rest hrest ih =>
    obtain ⟨held, hheld, h⟩ := Option.bind_eq_some_iff.mp h
    obtain ⟨⟨vk', mods'⟩, hnamed, h⟩ := Option.bind_eq_some_iff.mp h
    cases h
    have htrim' := htrim element List.mem_cons_self
    have htail : ∀ e ∈ rest, trim e = e := fun e he => htrim e (List.mem_cons_of_mem _ he)
    rw [kept_modifier hheld] at hloop
    cases reads htrim' with
    | key k hnone => exact nomatch hheld.symm.trans hnone
    | capital ch k _ _ hnone => exact nomatch hheld.symm.trans hnone
    | unknown e _ hparse =>
      by_cases hnil : kept rest = []
      · rw [hnil, parseHotkeyParts, hparse] at hloop
        cases hloop
      · rw [loop_unknown hnil hparse] at hloop
        cases hloop
    | modifier k' m _ hparse hne hname' hk hplus =>
      by_cases hnil : kept rest = []
      · -- the key '+' is lost, and the last modifier is pressed in its place
        obtain rfl := lost_key hnamed hnil
        rw [hnil, parseHotkeyParts, hparse] at hloop
        cases hloop
        obtain ⟨code', hcode', hpressed⟩ := faithful_iff.mp hk
        obtain rfl := Option.some.inj (hcode.symm.trans hcode')
        exact fun h => hplus (Option.some.inj (hpressed.symm.trans h))
      · rw [loop_modifier hnil hparse hne] at hloop
        refine ih htail ?_ hnamed hloop
        obtain ⟨e, he, hbad⟩ := hname
        rcases List.mem_cons.mp he with rfl | he
        · exact (hname' hbad).elim
        · exact ⟨e, he, hbad⟩

/-! ### The claim -/

/-- The hotkey that the list names is pressed and nothing else, or nothing is accepted. -/
def PressesNamed (drain : Drain) (keys : List String) (t : InputStateTracker)
    (pos : UInt32 × UInt32) (hostWidth hostHeight : UInt32) (now : ℕ) : Prop :=
  match named (keys.flatMap hotkeyElements) with
  | some (vk, mods) => ∃ code, PressedAs vk code ∧
      convertAgentActionToEvents drain (.hotkey keys) t pos hostWidth hostHeight now =
        (.ok [eventAt .keyDown pos code mods, eventAt .keyUp pos code mods], t, pos)
  | none => ∃ e, (convertAgentActionToEvents drain (.hotkey keys) t pos hostWidth hostHeight
      now).1 = .error e

/-- A list that names a hotkey has no name in it that is misread; and what the code makes of
another list is no hotkey either. -/
def Unambiguous (elements : List (List Char)) : Prop :=
  ((named elements).isSome → ∀ e ∈ elements, toAsciiLowercase e ∉ misread) ∧
    (named elements = none → ¬ TakenForHotkey (kept elements))

section Claim

variable (drain : Drain) (keys : List String) (t : InputStateTracker) (pos : UInt32 × UInt32)
variable (hostWidth hostHeight : UInt32) (now : ℕ)

theorem convert_hotkey :
    convertAgentActionToEvents drain (.hotkey keys) t pos hostWidth hostHeight now =
      match parseHotkeyParts Modifiers.empty (kept (keys.flatMap hotkeyElements)) with
      | .error e => (.error e, t, pos)
      | .ok (k, mods) => match InputKeyMap.toMacos k with
        | none => (.error (.unmappableKey (String.intercalate "+" keys)), t, pos)
        | some code =>
          (.ok [eventAt .keyDown pos code mods, eventAt .keyUp pos code mods], t, pos) := by
  have hbound : ¬ eventBound (.hotkey keys) > maxActionEvents := (by decide : ¬ 0 > maxActionEvents)
  rw [convertAgentActionToEvents, if_neg hbound, convertWithinBound, parseHotkeyString, parts_eq]
  rcases parseHotkeyParts Modifiers.empty (kept (keys.flatMap hotkeyElements)) with e | ⟨k, mods⟩
  · rfl
  · dsimp only [bind, Except.bind]
    rw [requireMacosKeycode]
    rcases InputKeyMap.toMacos k with - | code <;> rfl

theorem rejected_iff :
    (∃ e, (convertAgentActionToEvents drain (.hotkey keys) t pos hostWidth hostHeight now).1
      = .error e) ↔ ¬ TakenForHotkey (kept (keys.flatMap hotkeyElements)) := by
  have htrim : ∀ e ∈ kept (keys.flatMap hotkeyElements), trim e = e := fun e he =>
    trim_of_mem_elements (List.mem_of_mem_filter he)
  have hplus : ['+'] ∉ kept (keys.flatMap hotkeyElements) := by
    simp [kept]
  rw [convert_hotkey, takenForHotkey_iff Modifiers.empty htrim hplus]
  rcases parseHotkeyParts Modifiers.empty (kept (keys.flatMap hotkeyElements)) with e | ⟨k, mods⟩
  · exact iff_of_true ⟨e, rfl⟩ fun ⟨_, _, h, _⟩ => nomatch h
  · dsimp only
    rcases hcode : InputKeyMap.toMacos k with - | code
    · refine iff_of_true ⟨_, rfl⟩ ?_
      rintro ⟨k', mods', h, hk⟩
      cases h
      exact hk hcode
    · exact iff_of_false (fun ⟨_, h⟩ => nomatch h) fun h => h ⟨k, mods, rfl, hcode ▸ nofun⟩

/-- **Hotkey grammar**: the code presses what a list names, and nothing for a list that names no
hotkey, exactly when the list is unambiguous. -/
theorem hotkey_grammar_iff :
    PressesNamed drain keys t pos hostWidth hostHeight now ↔
      Unambiguous (keys.flatMap hotkeyElements) := by
  have htrim : ∀ e ∈ keys.flatMap hotkeyElements, trim e = e := fun e => trim_of_mem_elements
  rw [PressesNamed, Unambiguous]
  rcases hnamed : named (keys.flatMap hotkeyElements) with - | ⟨vk, mods⟩
  · exact (rejected_iff ..).trans ⟨fun h => ⟨nofun, fun _ => h⟩, fun h => h.2 rfl⟩
  · rw [convert_hotkey]
    constructor
    · rintro ⟨code, hpressed, hrun⟩
      refine ⟨fun _ e he hbad => ?_, nofun⟩
      rcases hloop : parseHotkeyParts Modifiers.empty (kept (keys.flatMap hotkeyElements))
        with e' | ⟨k, ms⟩
      · rw [hloop] at hrun
        cases hrun
      · rw [hloop] at hrun
        rcases hcode : InputKeyMap.toMacos k with - | code'
        · simp [hcode] at hrun
        · simp only [hcode] at hrun
          cases hrun
          exact loop_misread htrim ⟨e, he, hbad⟩ hnamed hloop hcode hpressed
    · rintro ⟨hnone, -⟩
      have hname := hnone rfl
      obtain ⟨k, hloop, rfl, hk⟩ := loop_named Modifiers.empty htrim hname hnamed
      obtain ⟨code, hcode, hpressed⟩ := faithful_iff.mp hk
      refine ⟨code, hpressed, ?_⟩
      rw [kept_named hname hnamed, hloop]
      simp only [hcode, empty_union]

end Claim

/-- Ctrl and '+': the code presses Ctrl alone. -/
theorem hotkey_plus_lost :
    ¬ PressesNamed .ascending ["ctrl", "+"] (.new 0 0) (0, 0) 800 600 0 := by
  have hnamed : named (["ctrl", "+"].flatMap hotkeyElements)
      = some (0xBB, Modifiers.control ⊔ Modifiers.shift) := by decide
  have hrun : (convertAgentActionToEvents .ascending (.hotkey ["ctrl", "+"]) (.new 0 0) (0, 0)
      800 600 0).1 = .ok [eventAt .keyDown (0, 0) 0x3b Modifiers.control,
        eventAt .keyUp (0, 0) 0x3b Modifiers.control] := by rfl
  rw [PressesNamed, hnamed]
  rintro ⟨code, -, h⟩
  rw [h] at hrun
  have hmods : Modifiers.control ⊔ Modifiers.shift = Modifiers.control := by
    injection hrun with hevents
    injection hevents with hdown
    injection hdown
  exact absurd hmods (by decide)

end MahoRD.Agent
