/-
MahoRD/Host/LinuxKeys.lean

The key codes on the wire and the keys of a Linux input device, and the characters that
are typed as keys (`maho-host/src/inject_linux.rs`).
-/
import MahoRD.Proto.Keys

namespace MahoRD.Host

/-- The codes of evdev that are used. -/
inductive KeyCode
  | keyPlaypause | keyNextsong | keyPrevioussong | keyStopcd | keyBack | keyForward | keyRefresh
  | keyStop | keySearch | keyBookmarks | keyHomepage | keyF21 | keyF22 | keyF23 | keyF24 | keyA
  | keyS | keyD | keyF | keyH | keyG | keyZ | keyX | keyC | keyV | keyB | keyQ | keyW | keyE
  | keyR | keyY | keyT | key1 | key2 | key3 | key4 | key6 | key5 | keyEqual | key9 | key7
  | keyMinus | key8 | key0 | keyRightbrace | keyO | keyU | keyLeftbrace | keyI | keyP | keyEnter
  | keyL | keyJ | keyApostrophe | keyK | keySemicolon | keyBackslash | keyComma | keySlash | keyN
  | keyM | keyDot | keyTab | keySpace | keyGrave | keyBackspace | keyEsc | keyRightmeta
  | keyLeftmeta | keyLeftshift | keyCapslock | keyLeftalt | keyLeftctrl | keyRightshift
  | keyRightalt | keyRightctrl | keyFn | keyF17 | keyKpdot | keyKpasterisk | keyKpplus
  | keyNumlock | keyVolumeup | keyVolumedown | keyMute | keyKpslash | keyKpenter | keyKpminus
  | keyF18 | keyF19 | keyKpequal | keyKp0 | keyKp1 | keyKp2 | keyKp3 | keyKp4 | keyKp5 | keyKp6
  | keyKp7 | keyF20 | keyKp8 | keyKp9 | keyF5 | keyF6 | keyF7 | keyF3 | keyF8 | keyF9 | keyF11
  | keyF13 | keyF16 | keyF14 | keyF10 | keyF12 | keyF15 | keyInsert | keyHome | keyPageup
  | keyDelete | keyF4 | keyEnd | keyF2 | keyPagedown | keyF1 | keyLeft | keyRight | keyDown
  | keyUp | btnLeft | btnRight | btnMiddle
  deriving DecidableEq

namespace KeyCode

/-- The arms of `macos_keycode_to_evdev`. -/
def evdevKeys : List (UInt16 × KeyCode) := [
  (ExtendedKeys.mediaPlayPause, keyPlaypause), (ExtendedKeys.mediaNext, keyNextsong),
  (ExtendedKeys.mediaPrevious, keyPrevioussong), (ExtendedKeys.mediaStop, keyStopcd),
  (ExtendedKeys.browserBack, keyBack), (ExtendedKeys.browserForward, keyForward),
  (ExtendedKeys.browserRefresh, keyRefresh), (ExtendedKeys.browserStop, keyStop),
  (ExtendedKeys.browserSearch, keySearch), (ExtendedKeys.browserFavorites, keyBookmarks),
  (ExtendedKeys.browserHome, keyHomepage), (ExtendedKeys.f21, keyF21), (ExtendedKeys.f22, keyF22),
  (ExtendedKeys.f23, keyF23), (ExtendedKeys.f24, keyF24), (0, keyA), (1, keyS), (2, keyD),
  (3, keyF), (4, keyH), (5, keyG), (6, keyZ), (7, keyX), (8, keyC), (9, keyV), (11, keyB),
  (12, keyQ), (13, keyW), (14, keyE), (15, keyR), (16, keyY), (17, keyT), (18, key1), (19, key2),
  (20, key3), (21, key4), (22, key6), (23, key5), (24, keyEqual), (25, key9), (26, key7),
  (27, keyMinus), (28, key8), (29, key0), (30, keyRightbrace), (31, keyO), (32, keyU),
  (33, keyLeftbrace), (34, keyI), (35, keyP), (36, keyEnter), (37, keyL), (38, keyJ),
  (39, keyApostrophe), (40, keyK), (41, keySemicolon), (42, keyBackslash), (43, keyComma),
  (44, keySlash), (45, keyN), (46, keyM), (47, keyDot), (48, keyTab), (49, keySpace),
  (50, keyGrave), (51, keyBackspace), (53, keyEsc), (54, keyRightmeta), (55, keyLeftmeta),
  (56, keyLeftshift), (57, keyCapslock), (58, keyLeftalt), (59, keyLeftctrl), (60, keyRightshift),
  (61, keyRightalt), (62, keyRightctrl), (63, keyFn), (64, keyF17), (65, keyKpdot),
  (67, keyKpasterisk), (69, keyKpplus), (71, keyNumlock), (72, keyVolumeup), (73, keyVolumedown),
  (74, keyMute), (75, keyKpslash), (76, keyKpenter), (78, keyKpminus), (79, keyF18), (80, keyF19),
  (81, keyKpequal), (82, keyKp0), (83, keyKp1), (84, keyKp2), (85, keyKp3), (86, keyKp4),
  (87, keyKp5), (88, keyKp6), (89, keyKp7), (90, keyF20), (91, keyKp8), (92, keyKp9), (96, keyF5),
  (97, keyF6), (98, keyF7), (99, keyF3), (100, keyF8), (101, keyF9), (103, keyF11), (105, keyF13),
  (106, keyF16), (107, keyF14), (109, keyF10), (111, keyF12), (113, keyF15), (114, keyInsert),
  (115, keyHome), (116, keyPageup), (117, keyDelete), (118, keyF4), (119, keyEnd), (120, keyF2),
  (121, keyPagedown), (122, keyF1), (123, keyLeft), (124, keyRight), (125, keyDown), (126, keyUp)]

def macosKeycodeToEvdev (keyCode : UInt16) : Option KeyCode := evdevKeys.lookup keyCode

def letterKeys : List (Char × KeyCode) := [
  ('a', keyA), ('b', keyB), ('c', keyC), ('d', keyD), ('e', keyE), ('f', keyF), ('g', keyG),
  ('h', keyH), ('i', keyI), ('j', keyJ), ('k', keyK), ('l', keyL), ('m', keyM), ('n', keyN),
  ('o', keyO), ('p', keyP), ('q', keyQ), ('r', keyR), ('s', keyS), ('t', keyT), ('u', keyU),
  ('v', keyV), ('w', keyW), ('x', keyX), ('y', keyY), ('z', keyZ)]

/-- The other characters, and whether Shift is required. -/
def asciiKeys : List (Char × KeyCode × Bool) := [
  ('0', key0, false), ('1', key1, false), ('2', key2, false), ('3', key3, false),
  ('4', key4, false), ('5', key5, false), ('6', key6, false), ('7', key7, false),
  ('8', key8, false), ('9', key9, false), (' ', keySpace, false), ('\n', keyEnter, false),
  ('\r', keyEnter, false), ('\t', keyTab, false), ('-', keyMinus, false), ('_', keyMinus, true),
  ('=', keyEqual, false), ('+', keyEqual, true), ('[', keyLeftbrace, false),
  ('\x7b', keyLeftbrace, true), (']', keyRightbrace, false), ('\x7d', keyRightbrace, true),
  (';', keySemicolon, false), (':', keySemicolon, true), ('\x27', keyApostrophe, false),
  ('\x22', keyApostrophe, true), ('\x60', keyGrave, false), ('~', keyGrave, true),
  ('\\', keyBackslash, false), ('|', keyBackslash, true), (',', keyComma, false),
  ('<', keyComma, true), ('.', keyDot, false), ('>', keyDot, true), ('/', keySlash, false),
  ('?', keySlash, true), ('!', key1, true), ('@', key2, true), ('#', key3, true),
  ('$', key4, true), ('%', key5, true), ('^', key6, true), ('&', key7, true), ('*', key8, true),
  ('(', key9, true), (')', key0, true)]

/-- The key of an ASCII character, and whether Shift is required. -/
def asciiToEvdev (ch : Char) : Option (KeyCode × Bool) :=
  if 'a' ≤ ch ∧ ch ≤ 'z' then (letterKeys.lookup ch).map fun key => (key, false)
  else if 'A' ≤ ch ∧ ch ≤ 'Z' then (letterKeys.lookup ch.toLower).map fun key => (key, true)
  else asciiKeys.lookup ch

/-- Modifier keys, which the modifiers are not synchronized for. -/
def isModKey : KeyCode → Bool
  | keyLeftshift | keyRightshift | keyLeftctrl | keyRightctrl | keyLeftalt | keyRightalt
  | keyLeftmeta | keyRightmeta | keyCapslock => true
  | _ => false

end KeyCode

theorem mem_of_lookup {α β : Type} [BEq α] [LawfulBEq α] {l : List (α × β)} {a : α} {b : β}
    (h : l.lookup a = some b) : (a, b) ∈ l := by
  obtain ⟨l₁, l₂, rfl, -⟩ := List.lookup_eq_some_iff.mp h
  exact List.mem_append_right _ (.head _)

namespace KeyCode

theorem isModKey_of_asciiToEvdev {ch : Char} {key : KeyCode} {shift : Bool}
    (h : asciiToEvdev ch = some (key, shift)) : key.isModKey = false := by
  have hletters : ∀ p ∈ letterKeys, p.2.isModKey = false := by decide
  have hascii : ∀ p ∈ asciiKeys, p.2.1.isModKey = false := by decide
  rw [asciiToEvdev] at h
  split at h
  · obtain ⟨key', hlookup, heq⟩ := Option.map_eq_some_iff.mp h
    cases heq
    exact hletters _ (mem_of_lookup hlookup)
  · split at h
    · obtain ⟨key', hlookup, heq⟩ := Option.map_eq_some_iff.mp h
      cases heq
      exact hletters _ (mem_of_lookup hlookup)
    · exact hascii _ (mem_of_lookup h)

end KeyCode

end MahoRD.Host
