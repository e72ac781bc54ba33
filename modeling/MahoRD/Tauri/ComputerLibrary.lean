/-
MahoRD/Tauri/ComputerLibrary.lean

The library of computers in the desktop client (`createLibrary` in `tauri-shell/src/lib/library.ts`):
refreshes that wait for three answers, and what the user does in between.

A refresh merges what is kept, what is saved and what has been discovered by id, and carries the
preferences over from a computer that another id replaces at its address.  That it should take them
from an unpaired computer only, which is not discovered any more, is a condition on each computer
that the loop takes (`Clean`); the preferences of the others then stay until the user changes them
(`library_keeps_identities`).

`trim` and `toLowerCase` are arguments.  No time is 0, and no nickname is the empty one.  Filters and
the storage are left out.
-/
import MahoRD.Lib.Ordered
import MahoRD.Lib.Saves

namespace MahoRD.ComputerLibrary

open Saves (rfind)

/-! ### Computers -/

/-- A field that may be absent is an `Option`; a `name` may also be null. -/
structure Host where
  id : String
  name : Option (Option String)
  ip : String
  online : Option Bool
  paired : Option Bool

/-- `{ ...previous, ...host }` -/
def Host.over (host : Host) : Option Host → Host
  | none => host
  | some previous =>
    { host with
      name := host.name.or previous.name
      online := host.online.or previous.online
      paired := host.paired.or previous.paired }

/-- `hidden.includes(host.name || '')` -/
def Host.isHidden (hidden : List String) (host : Host) : Bool :=
  hidden.contains (host.name.join.getD "")

def offline (host : Host) : Host := { host with online := some false }

/-- What strings can do. -/
structure Text where
  trim : String → String
  toLowerCase : String → String

def Text.normalizeHostKey (text : Text) (ip : String) : String := text.toLowerCase (text.trim ip)

/-! ### The merge -/

/-- What the loop of a refresh changes. -/
structure Merge where
  merged : List Host
  favoriteIds : List String
  nicknames : String → String
  lastSeen : String → ℕ
  lastConnected : String → ℕ

/-- `if (m[source]) m[target] ||= m[source]` -/
def inherit {β : Type} [DecidableEq β] (empty : β) (source target : String) (m : String → β) :
    String → β :=
  if m source ≠ empty ∧ m target = empty then Function.update m target (m source) else m

namespace Merge

variable (text : Text)

/-- Another entry at the address. -/
def previous (m : Merge) (host : Host) : Option Host :=
  m.merged.find? fun item =>
    item.id ≠ host.id && text.normalizeHostKey item.ip = text.normalizeHostKey host.ip

def replace (m : Merge) (previous host : Host) : Merge where
  merged := Ordered.delete Host.id previous.id m.merged
  favoriteIds :=
    if previous.id ∈ m.favoriteIds then
      m.favoriteIds.filter (fun id => id ≠ previous.id) ++ [host.id]
    else m.favoriteIds
  nicknames := inherit "" previous.id host.id m.nicknames
  lastSeen := inherit 0 previous.id host.id m.lastSeen
  lastConnected := inherit 0 previous.id host.id m.lastConnected

/-- The entry that a computer replaces, if there is one, is taken out first. -/
def cleared (m : Merge) (host : Host) : Merge :=
  match m.previous text host with
  | some previous => m.replace previous host
  | none => m

/-- One computer of the loop. -/
def take (favoriteIps : List String) (now : ℕ) (m : Merge) (host : Host) : Merge :=
  let m := m.cleared text host
  { m with
    merged := Ordered.put Host.id host m.merged
    lastSeen :=
      if host.online = some true then Function.update m.lastSeen host.id now else m.lastSeen
    favoriteIds :=
      if text.normalizeHostKey host.ip ∈ favoriteIps ∧ host.id ∉ m.favoriteIds then
        m.favoriteIds ++ [host.id]
      else m.favoriteIds }

end Merge

/-! ### The library -/

inductive Status
  | idle | unavailable | loading | ready | error

/-- What a refresh waits for. -/
inductive Phase
  | list
  | saved (result : List Host)
  | hidden (result saved : List Host)

/-- Without `hiddenNames` no names are the answer; without `savedHosts` no computers are, and which
ones are paired is kept. -/
structure Options where
  nativeAvailable : Bool
  savedHosts : Bool
  text : Text

structure Library where
  hosts : List Host
  favoriteIps : List String
  favoriteIds : List String
  nicknames : String → String
  lastSeen : String → ℕ
  lastConnected : String → ℕ
  status : Status
  error : Option String
  requestId : ℕ
  pending : ℕ → Option Phase

inductive Event
  | refresh (silent : Bool)
  /-- An answer may be no array. -/
  | listAnswered (request : ℕ) (answer : Except String (Option (List Host)))
  | savedAnswered (request : ℕ) (answer : Except String (List Host))
  | hiddenAnswered (request now : ℕ) (answer : Except String (List String))
  | toggleFavorite (ip : String)
  | setNickname (id value : String)
  | recordConnection (host : Host) (time : ℕ)

/-- The entries before the loop. -/
def known (options : Options) (hosts saved : List Host) : List Host :=
  let merged := Ordered.putAll Host.id (hosts.map offline) []
  let merged :=
    if options.savedHosts then
      merged.map fun host =>
        { host with paired := some (saved.any fun pairing => pairing.id = host.id) }
    else merged
  saved.foldl (fun merged host =>
    Ordered.put Host.id (offline (host.over (Ordered.get Host.id host.id merged))) merged) merged

/-- The ids in the order of the discovery, then of the pairings, then of the entries. -/
def inOrder (result saved merged : List Host) : List String :=
  Ordered.putAll (fun id => id) (result.map Host.id ++ saved.map Host.id ++ merged.map Host.id) []

/-- The entries to be shown. -/
def shown (hidden : List String) (order : List String) (merged : List Host) : List Host :=
  order.flatMap fun id =>
    match Ordered.get Host.id id merged with
    | some host => if host.isHidden hidden then [] else [host]
    | none => []

namespace Library

variable (options : Options)

def beforeLoop (lib : Library) (saved : List Host) : Merge where
  merged := known options lib.hosts saved
  favoriteIds := lib.favoriteIds
  nicknames := lib.nicknames
  lastSeen := lib.lastSeen
  lastConnected := lib.lastConnected

/-- The loop over some computers. -/
def loop (lib : Library) (now : ℕ) (saved hosts : List Host) : Merge :=
  hosts.foldl (Merge.take options.text lib.favoriteIps now) (lib.beforeLoop options saved)

def commit (lib : Library) (now : ℕ) (result saved : List Host) (hidden : List String) : Library :=
  let m := lib.loop options now saved (saved ++ result)
  { lib with
    hosts := shown hidden (inOrder result saved m.merged) m.merged
    favoriteIds := m.favoriteIds
    nicknames := m.nicknames
    lastSeen := m.lastSeen
    lastConnected := m.lastConnected
    status := .ready
    error := none }

def awaits (lib : Library) (request : ℕ) (phase : Option Phase) : Library :=
  { lib with pending := Function.update lib.pending request phase }

/-- A refresh that has been superseded does not tell its failure. -/
def fail (lib : Library) (request : ℕ) (error : String) : Library :=
  if request = lib.requestId then
    { lib.awaits request none with status := .error, error := some error }
  else lib.awaits request none

def toggleFavorite (lib : Library) (ip : String) : Library :=
  match Ordered.get Host.id ip lib.hosts with
  | some host =>
    let favoriteIds :=
      if host.id ∈ lib.favoriteIds then lib.favoriteIds.filter fun id => id ≠ host.id
      else lib.favoriteIds ++ [host.id]
    { lib with
      favoriteIds
      favoriteIps := lib.favoriteIps.filter fun ip =>
        options.text.normalizeHostKey ip ≠ options.text.normalizeHostKey host.ip &&
          !favoriteIds.any fun id =>
            (Ordered.get Host.id id lib.hosts).map (·.ip) = some ip }
  | none =>
    let key := options.text.normalizeHostKey ip
    { lib with
      favoriteIps :=
        if key ∈ lib.favoriteIps then lib.favoriteIps.filter fun value => value ≠ key
        else lib.favoriteIps ++ [key] }

def recordConnection (lib : Library) (host : Host) (time : ℕ) : Library :=
  { lib with
    hosts := Ordered.delete Host.id host.id lib.hosts ++
      [host.over (Ordered.get Host.id host.id lib.hosts)]
    lastConnected := Function.update lib.lastConnected host.id time
    lastSeen := Function.update lib.lastSeen host.id time }

def refresh (lib : Library) (silent : Bool) : Library :=
  if options.nativeAvailable then
    let lib := { lib with requestId := lib.requestId + 1 }.awaits (lib.requestId + 1) (some .list)
    if silent then lib else { lib with status := .loading, error := none }
  else lib

def step (lib : Library) : Event → Library
  | .refresh silent => lib.refresh options silent
  | .listAnswered request answer =>
    match lib.pending request, answer with
    | some .list, .error e => lib.fail request e
    | some .list, .ok result =>
      if request ≠ lib.requestId then lib.awaits request none
      else
        match result with
        | none => lib.fail request "Computer list response was not an array."
        | some result => lib.awaits request (some (.saved result))
    | _, _ => lib
  | .savedAnswered request answer =>
    match lib.pending request, answer with
    | some (.saved _), .error e => lib.fail request e
    | some (.saved result), .ok saved => lib.awaits request (some (.hidden result saved))
    | _, _ => lib
  | .hiddenAnswered request now answer =>
    match lib.pending request, answer with
    | some (.hidden _ _), .error e => lib.fail request e
    | some (.hidden result saved), .ok hidden =>
      if request ≠ lib.requestId then lib.awaits request none
      else (lib.awaits request none).commit options now result saved hidden
    | _, _ => lib
  | .toggleFavorite ip => lib.toggleFavorite options ip
  | .setNickname id value =>
    { lib with nicknames := Function.update lib.nicknames id (options.text.trim value) }
  | .recordConnection host time => lib.recordConnection host time

def run (lib : Library) (events : List Event) : Library := events.foldl (step options) lib

end Library

/-! ### What is kept -/

/-- A computer that is neither saved nor discovered makes room for another id at its address. -/
structure Replaces (text : Text) (hosts entries merged : List Host) (source target : String) :
    Prop where
  unpaired : source ∉ entries.map Host.id
  gone : source ∉ merged.map Host.id
  address : ∃ old ∈ hosts, old.id = source ∧ ∃ host ∈ entries, host.id = target ∧
    text.normalizeHostKey old.ip = text.normalizeHostKey host.ip

/-- A value stays, or is inherited where there was none. -/
def Inherits {β : Type} (text : Text) (hosts entries merged : List Host) (empty : β)
    (m m' : String → β) : Prop :=
  ∀ id, m' id = m id ∨ m id = empty ∧ ∃ source,
    Replaces text hosts entries merged source id ∧ m' id = m source

structure KeepsFavorites (text : Text) (hosts entries merged : List Host)
    (favoriteIps favorites favorites' : List String) : Prop where
  kept : ∀ id ∈ favorites, id ∈ favorites' ∨
    ∃ target ∈ favorites', Replaces text hosts entries merged id target
  new : ∀ id ∈ favorites', id ∈ favorites ∨
    (∃ source ∈ favorites, Replaces text hosts entries merged source id) ∨
    ∃ host ∈ entries, host.id = id ∧ text.normalizeHostKey host.ip ∈ favoriteIps

/-- A refresh that has taken effect: `entries` are the saved and the discovered computers. -/
structure Settled (options : Options) (lib lib' : Library) (entries : List Host)
    (hidden : List String) : Prop where
  listed : ∀ host ∈ entries, host.isHidden hidden = false → host.id ∈ lib'.hosts.map Host.id
  nicknames : Inherits options.text lib.hosts entries lib'.hosts "" lib.nicknames lib'.nicknames
  lastConnected :
    Inherits options.text lib.hosts entries lib'.hosts 0 lib.lastConnected lib'.lastConnected
  favorites : KeepsFavorites options.text lib.hosts entries lib'.hosts lib.favoriteIps
    lib.favoriteIds lib'.favoriteIds

/-- The computers of a refresh replace none of each other, and no two names of one of them are
hidden and not. -/
structure Clean (options : Options) (lib : Library) (now : ℕ) (result saved : List Host)
    (hidden : List String) : Prop where
  replaced : ∀ before host after, saved ++ result = before ++ host :: after → ∀ previous,
    (lib.loop options now saved before).previous options.text host = some previous →
      previous.id ∉ (saved ++ result).map Host.id
  names : ∀ host ∈ saved ++ result, host.isHidden hidden = false → ∀ last,
    rfind (fun entry => entry.id = host.id) (saved ++ result) = some last →
      last.isHidden hidden = false

/-- The refresh that an event finishes: what has been discovered, what is saved, the hidden names
and the time. -/
def Library.finishes (lib : Library) : Event → Option (List Host × List Host × List String × ℕ)
  | .hiddenAnswered request now (.ok hidden) =>
    match lib.pending request with
    | some (.hidden result saved) =>
      if request = lib.requestId then some (result, saved, hidden, now) else none
    | _ => none
  | _ => none

def Library.Meets (options : Options) (lib : Library) (event : Event) : Prop :=
  ∀ result saved hidden now, lib.finishes event = some (result, saved, hidden, now) →
    Clean options lib now result saved hidden

/-- The refresh whose answer an event is. -/
def Event.request : Event → Option ℕ
  | .listAnswered request _ => some request
  | .savedAnswered request _ => some request
  | .hiddenAnswered request _ _ => some request
  | _ => none

/-- What a listener is told. -/
def Library.view (lib : Library) : Library := { lib with pending := fun _ => none }

/-- What one event keeps. -/
structure Kept (options : Options) (lib : Library) (event : Event) : Prop where
  nodup : ((lib.step options event).hosts.map Host.id).Nodup
  settled : ∀ result saved hidden now, lib.finishes event = some (result, saved, hidden, now) →
    Settled options lib (lib.step options event) (saved ++ result) hidden
  nickname : ∀ id, lib.finishes event = none → (∀ value, event ≠ .setNickname id value) →
    (lib.step options event).nicknames id = lib.nicknames id
  lastConnected : ∀ id, lib.finishes event = none →
    (∀ host time, event = .recordConnection host time → host.id ≠ id) →
      (lib.step options event).lastConnected id = lib.lastConnected id
  favorite : ∀ id, lib.finishes event = none → event ≠ .toggleFavorite id →
    (id ∈ (lib.step options event).favoriteIds ↔ id ∈ lib.favoriteIds)
  superseded : ∀ request, event.request = some request → request ≠ lib.requestId →
    (lib.step options event).view = lib.view

/-- What an id has it keeps until the user changes it: a favourite as long as it is saved. -/
structure Stays (options : Options) (lib : Library) (during : List Event) (id : String) : Prop where
  nickname : lib.nicknames id ≠ "" → (∀ value, .setNickname id value ∉ during) →
    (lib.run options during).nicknames id = lib.nicknames id
  lastConnected : lib.lastConnected id ≠ 0 →
    (∀ host time, .recordConnection host time ∈ during → host.id ≠ id) →
      (lib.run options during).lastConnected id = lib.lastConnected id
  favorite : id ∈ lib.favoriteIds → .toggleFavorite id ∉ during →
    (∀ before event after, during = before ++ event :: after → ∀ result saved hidden now,
      (lib.run options before).finishes event = some (result, saved, hidden, now) →
        id ∈ saved.map Host.id) →
      id ∈ (lib.run options during).favoriteIds

/-! ### One computer of the loop -/

section Loop

variable {text : Text} {hosts entries before : List Host} {m : Merge} {host : Host}
  {lib : Library}

theorem inherit_eq {β : Type} [DecidableEq β] (empty : β) (source target : String)
    (f : String → β) (id : String) :
    inherit empty source target f id = f id ∨
      id = target ∧ f target = empty ∧ inherit empty source target f id = f source := by
  rw [inherit]
  split_ifs with h
  · by_cases hid : id = target
    · rw [hid, Function.update_self]
      exact .inr ⟨rfl, h.2, rfl⟩
    · rw [Function.update_of_ne hid]
      exact .inl rfl
  · exact .inl rfl

theorem previous_some {item : Host} (h : m.previous text host = some item) :
    item ∈ m.merged ∧ item.id ≠ host.id ∧
      text.normalizeHostKey item.ip = text.normalizeHostKey host.ip := by
  have hfound := List.find?_some h
  rw [Bool.and_eq_true, decide_eq_true_eq, decide_eq_true_eq] at hfound
  exact ⟨List.mem_of_find?_eq_some h, hfound⟩

/-- What the loop has done with some of the entries. -/
structure Taken (text : Text) (lib : Library) (entries before : List Host) (m : Merge) : Prop where
  last : ∀ id ∈ before.map Host.id,
    Ordered.get Host.id id m.merged = rfind (fun entry => entry.id = id) before
  old : ∀ item ∈ m.merged, item.id ∉ entries.map Host.id →
    ∃ old ∈ lib.hosts, old.id = item.id ∧ old.ip = item.ip
  nicknames : Inherits text lib.hosts entries m.merged "" lib.nicknames m.nicknames
  lastConnected : Inherits text lib.hosts entries m.merged 0 lib.lastConnected m.lastConnected
  favorites : KeepsFavorites text lib.hosts entries m.merged lib.favoriteIps lib.favoriteIds
    m.favoriteIds

variable {merged merged' : List Host} {source : String}
  {favoriteIps favorites favorites' : List String}

theorem Inherits.eq_of_not_mem {β : Type} {empty : β} {f f' : String → β}
    (h : Inherits text hosts entries merged empty f f') {id : String}
    (hid : id ∉ entries.map Host.id) : f' id = f id := by
  rcases h id with h | ⟨-, source, hreplaces, -⟩
  · exact h
  · obtain ⟨old, -, -, entry, hentry, rfl, -⟩ := hreplaces.address
    exact absurd (List.mem_map_of_mem hentry) hid

theorem Replaces.of_keys {target : String}
    (h : Replaces text hosts entries merged source target)
    (hkeys : ∀ id ∈ merged'.map Host.id, id ∈ merged.map Host.id ∨ id ∈ entries.map Host.id) :
    Replaces text hosts entries merged' source target :=
  ⟨h.unpaired, fun hmem => (hkeys source hmem).elim h.gone h.unpaired, h.address⟩

theorem Inherits.of_keys {β : Type} {empty : β} {f f' : String → β}
    (h : Inherits text hosts entries merged empty f f')
    (hkeys : ∀ id ∈ merged'.map Host.id, id ∈ merged.map Host.id ∨ id ∈ entries.map Host.id) :
    Inherits text hosts entries merged' empty f f' := by
  intro id
  rcases h id with h | ⟨hempty, source, hreplaces, hvalue⟩
  · exact .inl h
  · exact .inr ⟨hempty, source, hreplaces.of_keys hkeys, hvalue⟩

theorem Inherits.inherit {β : Type} [DecidableEq β] {empty : β}
    {f f' : String → β} (h : Inherits text hosts entries merged empty f f') {target : String}
    (hreplaces : Replaces text hosts entries merged source target) :
    Inherits text hosts entries merged empty f (inherit empty source target f') := by
  intro id
  rcases inherit_eq empty source target f' id with heq | ⟨rfl, hempty, heq⟩
  · rw [heq]
    exact h id
  · rw [heq, h.eq_of_not_mem hreplaces.unpaired]
    rcases h id with hsame | ⟨hempty', -⟩
    · exact .inr ⟨hsame.symm.trans hempty, source, hreplaces, rfl⟩
    · exact .inr ⟨hempty', source, hreplaces, rfl⟩

theorem KeepsFavorites.of_keys
    (h : KeepsFavorites text hosts entries merged favoriteIps favorites favorites')
    (hkeys : ∀ id ∈ merged'.map Host.id, id ∈ merged.map Host.id ∨ id ∈ entries.map Host.id) :
    KeepsFavorites text hosts entries merged' favoriteIps favorites favorites' := by
  constructor
  · intro id hid
    rcases h.kept id hid with hkept | ⟨target, htarget, hreplaces⟩
    · exact .inl hkept
    · exact .inr ⟨target, htarget, hreplaces.of_keys hkeys⟩
  · intro id hid
    rcases h.new id hid with hold | ⟨source, hsource, hreplaces⟩ | hip
    · exact .inl hold
    · exact .inr (.inl ⟨source, hsource, hreplaces.of_keys hkeys⟩)
    · exact .inr (.inr hip)

theorem KeepsFavorites.old
    (h : KeepsFavorites text hosts entries merged favoriteIps favorites favorites') {id : String}
    (hid : id ∈ favorites') (hentry : id ∉ entries.map Host.id) : id ∈ favorites := by
  rcases h.new id hid with hold | ⟨source, -, hreplaces⟩ | ⟨host, hhost, rfl, -⟩
  · exact hold
  · obtain ⟨old, -, -, entry, hmem, rfl, -⟩ := hreplaces.address
    exact absurd (List.mem_map_of_mem hmem) hentry
  · exact absurd (List.mem_map_of_mem hhost) hentry

theorem KeepsFavorites.move
    (h : KeepsFavorites text hosts entries merged favoriteIps favorites favorites')
    {target : String} (hreplaces : Replaces text hosts entries merged source target)
    (hsource : source ∈ favorites') :
    KeepsFavorites text hosts entries merged favoriteIps favorites
      (favorites'.filter (fun id => id ≠ source) ++ [target]) := by
  have hnew : target ∈ favorites'.filter (fun id => id ≠ source) ++ [target] :=
    List.mem_append_right _ (List.mem_singleton_self target)
  have hstays : ∀ id ∈ favorites', id ≠ source →
      id ∈ favorites'.filter (fun id => id ≠ source) ++ [target] := fun id hid hne =>
    List.mem_append_left _ (List.mem_filter.mpr ⟨hid, decide_eq_true hne⟩)
  constructor
  · intro id hid
    by_cases hne : id = source
    · exact .inr ⟨target, hnew, hne ▸ hreplaces⟩
    · rcases h.kept id hid with hkept | ⟨other, hother, hreplaces'⟩
      · exact .inl (hstays id hkept hne)
      · refine .inr ⟨other, hstays other hother ?_, hreplaces'⟩
        -- what has taken over is an entry
        rintro rfl
        obtain ⟨old, -, -, entry, hmem, rfl, -⟩ := hreplaces'.address
        exact hreplaces.unpaired (List.mem_map_of_mem hmem)
  · intro id hid
    rcases List.mem_append.mp hid with hid | hid
    · exact h.new id (List.mem_filter.mp hid).1
    · rw [List.mem_singleton.mp hid]
      exact .inr (.inl ⟨source, h.old hsource hreplaces.unpaired, hreplaces⟩)

theorem KeepsFavorites.add
    (h : KeepsFavorites text hosts entries merged favoriteIps favorites favorites')
    (hhost : host ∈ entries) :
    KeepsFavorites text hosts entries merged favoriteIps favorites
      (if text.normalizeHostKey host.ip ∈ favoriteIps ∧ host.id ∉ favorites' then
        favorites' ++ [host.id]
      else favorites') := by
  split_ifs with hip
  · constructor
    · intro id hid
      rcases h.kept id hid with hkept | ⟨target, htarget, hreplaces⟩
      · exact .inl (List.mem_append_left _ hkept)
      · exact .inr ⟨target, List.mem_append_left _ htarget, hreplaces⟩
    · intro id hid
      rcases List.mem_append.mp hid with hid | hid
      · exact h.new id hid
      · rw [List.mem_singleton.mp hid]
        exact .inr (.inr ⟨host, hhost, rfl, hip.1⟩)
  · exact h

/-- The entry that a computer replaces is gone, and the preferences have gone over. -/
theorem Taken.cleared (h : Taken text lib entries before m) (hbefore : before ⊆ entries)
    (hhost : host ∈ entries)
    (hprevious : ∀ previous, m.previous text host = some previous →
      previous.id ∉ entries.map Host.id) :
    Taken text lib entries before (m.cleared text host) := by
  rw [Merge.cleared]
  cases hitem : m.previous text host with
  | none => exact h
  | some item =>
    have hentry := hprevious item hitem
    obtain ⟨hmem, hne, haddress⟩ := previous_some hitem
    have hkeys : ∀ id ∈ (Ordered.delete Host.id item.id m.merged).map Host.id,
        id ∈ m.merged.map Host.id ∨ id ∈ entries.map Host.id := by
      intro id hid
      obtain ⟨other, hother, rfl⟩ := List.mem_map.mp hid
      exact .inl (List.mem_map_of_mem (Ordered.mem_delete.mp hother).1)
    have hreplaces : Replaces text lib.hosts entries (Ordered.delete Host.id item.id m.merged)
        item.id host.id := by
      obtain ⟨old, hold, hid, hip⟩ := h.old item hmem hentry
      refine ⟨hentry, fun hgone => ?_, old, hold, hid, host, hhost, rfl, hip ▸ haddress⟩
      obtain ⟨other, hother, heq⟩ := List.mem_map.mp hgone
      exact (Ordered.mem_delete.mp hother).2 heq
    refine ⟨fun id hid => ?_, fun other hother => ?_, ?_, ?_, ?_⟩
    · show Ordered.get Host.id id (Ordered.delete Host.id item.id m.merged) = _
      have hidne : id ≠ item.id := by
        rintro rfl
        obtain ⟨entry, hentry', heq⟩ := List.mem_map.mp hid
        exact hentry (heq ▸ List.mem_map_of_mem (hbefore hentry'))
      rw [Ordered.get_delete, if_neg hidne, h.last id hid]
    · exact h.old other (Ordered.mem_delete.mp hother).1
    · exact (h.nicknames.of_keys hkeys).inherit hreplaces
    · exact (h.lastConnected.of_keys hkeys).inherit hreplaces
    · have hfavorites := h.favorites.of_keys hkeys
      show KeepsFavorites text lib.hosts entries _ lib.favoriteIps lib.favoriteIds
        (if item.id ∈ m.favoriteIds then _ else m.favoriteIds)
      split_ifs with hfavorite
      · exact hfavorites.move hreplaces hfavorite
      · exact hfavorites

/-- **One computer of the loop, where what it replaces is no entry.** -/
theorem Taken.take (h : Taken text lib entries before m) (hbefore : before ⊆ entries)
    (hhost : host ∈ entries)
    (hprevious : ∀ previous, m.previous text host = some previous →
      previous.id ∉ entries.map Host.id) (now : ℕ) :
    Taken text lib entries (before ++ [host]) (m.take text lib.favoriteIps now host) := by
  have hcleared := h.cleared hbefore hhost hprevious
  generalize hc : m.cleared text host = c at hcleared
  have hkeys : ∀ id ∈ (Ordered.put Host.id host c.merged).map Host.id,
      id ∈ c.merged.map Host.id ∨ id ∈ entries.map Host.id := by
    intro id hid
    rcases Ordered.keys_put.mp hid with rfl | hid
    · exact .inr (List.mem_map_of_mem hhost)
    · exact .inl hid
  simp only [Merge.take, hc]
  refine ⟨fun id hid => ?_, fun item hitem hentry => ?_, hcleared.nicknames.of_keys hkeys,
    hcleared.lastConnected.of_keys hkeys, ?_⟩
  · rw [Ordered.get_put, Saves.rfind_concat]
    by_cases hid' : id = host.id
    · rw [if_pos hid', if_pos (by simp [hid'])]
    · rw [if_neg hid', if_neg (by simpa using Ne.symm hid')]
      rw [List.map_append, List.mem_append] at hid
      apply hcleared.last id
      apply hid.resolve_right
      intro hlast
      exact hid' (List.mem_singleton.mp hlast)
  · rcases Ordered.mem_put hitem with rfl | hitem
    · exact absurd (List.mem_map_of_mem hhost) hentry
    · exact hcleared.old item hitem hentry
  · have hfavorites := hcleared.favorites.of_keys hkeys
    exact hfavorites.add hhost

end Loop

/-! ### A refresh -/

section Refresh

variable {options : Options} {lib : Library} {now : ℕ} {result saved : List Host}
  {hidden : List String}

variable {merged : List Host} {id : String}

theorem mem_saved_put {saved : List Host} {item : Host}
    (h : item ∈ saved.foldl (fun merged host =>
      Ordered.put Host.id (offline (host.over (Ordered.get Host.id host.id merged))) merged) merged)
    (hsaved : item.id ∉ saved.map Host.id) : item ∈ merged := by
  induction saved generalizing merged with
  | nil => exact h
  | cons host saved ih =>
    rw [List.map_cons, List.mem_cons, not_or] at hsaved
    rcases Ordered.mem_put (ih h hsaved.2) with rfl | hmem
    · exfalso
      apply hsaved.1
      cases Ordered.get Host.id host.id merged <;> rfl
    · exact hmem

theorem known_old {hosts : List Host} {item : Host} (h : item ∈ known options hosts saved)
    (hsaved : item.id ∉ saved.map Host.id) : ∃ old ∈ hosts, old.id = item.id ∧ old.ip = item.ip := by
  have hmem := mem_saved_put h hsaved
  have hput : ∀ other : Host, other ∈ Ordered.putAll Host.id (hosts.map offline) [] →
      ∃ old ∈ hosts, old.id = other.id ∧ old.ip = other.ip := by
    intro other hother
    rcases Ordered.mem_putAll hother with hother | hother
    · obtain ⟨old, hold, rfl⟩ := List.mem_map.mp hother
      exact ⟨old, hold, rfl, rfl⟩
    · cases hother
  split_ifs at hmem
  · obtain ⟨other, hother, rfl⟩ := List.mem_map.mp hmem
    exact hput other hother
  · exact hput item hmem

theorem taken_loop (hclean : Clean options lib now result saved hidden) {before after : List Host}
    (hsplit : saved ++ result = before ++ after) :
    Taken options.text lib (saved ++ result) before (lib.loop options now saved before) := by
  induction before using List.reverseRecOn generalizing after with
  | nil =>
    refine ⟨fun id hid => absurd hid List.not_mem_nil, fun item hitem hentry => ?_,
      fun id => .inl rfl, fun id => .inl rfl, fun id hid => .inl hid, fun id hid => .inl hid⟩
    rw [List.map_append, List.mem_append, not_or] at hentry
    exact known_old hitem hentry.1
  | append_singleton before host ih =>
    rw [List.append_assoc, List.singleton_append] at hsplit
    have hmem : ∀ item ∈ before ++ host :: after, item ∈ saved ++ result := by
      rw [← hsplit]
      exact fun item hitem => hitem
    have htaken := (ih hsplit).take (fun item hitem => hmem item (List.mem_append_left _ hitem))
      (hmem host (List.mem_append_right _ List.mem_cons_self))
      (hclean.replaced before host after hsplit) now
    rw [Library.loop, List.foldl_append]
    exact htaken

theorem mem_inOrder (h : id ∈ merged.map Host.id) :
    id ∈ inOrder result saved merged := by
  have hkeys : id ∈ (inOrder result saved merged).map fun id => id := by
    rw [inOrder, Ordered.keys_putAll, List.map_id']
    exact .inl (List.mem_append_right _ h)
  rwa [List.map_id'] at hkeys

theorem nodup_inOrder (merged : List Host) : (inOrder result saved merged).Nodup := by
  have hkeys : ((inOrder result saved merged).map fun id => id).Nodup :=
    Ordered.nodup_putAll _ List.nodup_nil
  rwa [List.map_id'] at hkeys

theorem shown_sublist (order : List String) (merged : List Host) :
    ((shown hidden order merged).map Host.id).Sublist order := by
  induction order with
  | nil => exact List.Sublist.slnil
  | cons id order ih =>
    rw [shown, List.flatMap_cons, List.map_append, ← shown]
    cases hget : Ordered.get Host.id id merged with
    | none => exact ih.cons id
    | some host =>
      simp only
      split_ifs
      · exact ih.cons id
      · rw [List.map_singleton, Ordered.key_of_get hget]
        exact ih.cons_cons id

theorem shown_of_get {order : List String} {host : Host}
    (hid : id ∈ order) (hget : Ordered.get Host.id id merged = some host)
    (hhidden : host.isHidden hidden = false) : id ∈ (shown hidden order merged).map Host.id := by
  refine List.mem_map.mpr ⟨host, ?_, Ordered.key_of_get hget⟩
  rw [shown, List.mem_flatMap]
  refine ⟨id, hid, ?_⟩
  simp only [hget, hhidden, Bool.false_eq_true, if_false, List.mem_singleton]

theorem mem_keys_of_shown {order : List String}
    (h : id ∈ (shown hidden order merged).map Host.id) : id ∈ merged.map Host.id := by
  obtain ⟨host, hhost, rfl⟩ := List.mem_map.mp h
  rw [shown, List.mem_flatMap] at hhost
  obtain ⟨other, -, hother⟩ := hhost
  cases hget : Ordered.get Host.id other merged with
  | none =>
    rw [hget] at hother
    cases hother
  | some entry =>
    simp only [hget] at hother
    split_ifs at hother
    · cases hother
    · cases List.mem_singleton.mp hother
      exact List.mem_map_of_mem (Ordered.mem_of_get hget)

/-- **A refresh that takes effect.** -/
theorem settled_commit (hclean : Clean options lib now result saved hidden) :
    Settled options lib (lib.commit options now result saved hidden) (saved ++ result) hidden := by
  have htaken := taken_loop hclean (List.append_nil (saved ++ result)).symm
  have hkeys : ∀ id ∈ (lib.commit options now result saved hidden).hosts.map Host.id,
      id ∈ (lib.loop options now saved (saved ++ result)).merged.map Host.id ∨
        id ∈ (saved ++ result).map Host.id := fun id hid => .inl (mem_keys_of_shown hid)
  refine ⟨fun host hhost hhidden => ?_, htaken.nicknames.of_keys hkeys,
    htaken.lastConnected.of_keys hkeys, htaken.favorites.of_keys hkeys⟩
  have hlast := htaken.last host.id (List.mem_map_of_mem hhost)
  cases hfound : rfind (fun entry => decide (entry.id = host.id)) (saved ++ result) with
  | none =>
    have hnone := Saves.rfind_eq_none_iff.mp hfound host hhost
    simp at hnone
  | some last =>
    rw [hfound] at hlast
    refine shown_of_get (mem_inOrder ?_) hlast (hclean.names host hhost hhidden last hfound)
    exact Ordered.get_isSome.mp (by rw [hlast]; rfl)

theorem nodup_commit (lib : Library) (options : Options) (now : ℕ) (result saved : List Host)
    (hidden : List String) :
    ((lib.commit options now result saved hidden).hosts.map Host.id).Nodup :=
  (nodup_inOrder _).sublist (shown_sublist _ _)

end Refresh

/-! ### One event -/

section Step

variable {options : Options} {lib : Library} {event : Event}

/-- An answer leaves everything but what is awaited and the status, or finishes a refresh. -/
inductive Answered (options : Options) (lib : Library) (event : Event) : Prop
  | finishes (result saved : List Host) (hidden : List String) (now : ℕ)
      (h : lib.finishes event = some (result, saved, hidden, now))
      (request : ℕ) (hstep : lib.step options event =
        (lib.awaits request none).commit options now result saved hidden)
  | awaits (h : lib.finishes event = none) (pending : ℕ → Option Phase) (status : Status)
      (error : Option String)
      (hstep : lib.step options event = { lib with pending, status, error })
      (hview : ∀ request, event.request = some request → request ≠ lib.requestId →
        status = lib.status ∧ error = lib.error)

theorem Answered.nothing (h : lib.finishes event = none) (hstep : lib.step options event = lib) :
    Answered options lib event :=
  .awaits h lib.pending lib.status lib.error hstep fun _ _ _ => ⟨rfl, rfl⟩

theorem answered_awaits (request : ℕ) (phase : Option Phase) (h : lib.finishes event = none)
    (hstep : lib.step options event = lib.awaits request phase) : Answered options lib event :=
  .awaits h _ lib.status lib.error hstep fun _ _ _ => ⟨rfl, rfl⟩

theorem answered_fail (request : ℕ) (error : String) (hrequest : event.request = some request)
    (h : lib.finishes event = none)
    (hstep : lib.step options event = lib.fail request error) : Answered options lib event := by
  rw [Library.fail] at hstep
  by_cases hcurrent : request = lib.requestId
  · rw [if_pos hcurrent] at hstep
    refine .awaits h _ _ _ hstep fun other hother hne => ?_
    cases hrequest.symm.trans hother
    exact absurd hcurrent hne
  · rw [if_neg hcurrent] at hstep
    exact answered_awaits request none h hstep

theorem answered_list (r : ℕ) (answer : Except String (Option (List Host))) :
    Answered options lib (.listAnswered r answer) := by
  cases hpending : lib.pending r with
  | none => exact .nothing rfl (by simp only [Library.step, hpending])
  | some phase =>
    cases phase with
    | list =>
      cases answer with
      | error e => exact answered_fail r e rfl rfl (by simp only [Library.step, hpending])
      | ok result =>
        by_cases hother : r ≠ lib.requestId
        · refine answered_awaits r none rfl ?_
          simp only [Library.step, hpending, if_pos hother]
        · cases result with
          | none =>
            refine answered_fail r "Computer list response was not an array." rfl rfl ?_
            simp only [Library.step, hpending, if_neg hother]
          | some result =>
            refine answered_awaits r (some (.saved result)) rfl ?_
            simp only [Library.step, hpending, if_neg hother]
    | saved result => exact .nothing rfl (by simp only [Library.step, hpending])
    | hidden result saved => exact .nothing rfl (by simp only [Library.step, hpending])

theorem answered_saved (r : ℕ) (answer : Except String (List Host)) :
    Answered options lib (.savedAnswered r answer) := by
  cases hpending : lib.pending r with
  | none => exact .nothing rfl (by simp only [Library.step, hpending])
  | some phase =>
    cases phase with
    | list => exact .nothing rfl (by simp only [Library.step, hpending])
    | saved result =>
      cases answer with
      | error e => exact answered_fail r e rfl rfl (by simp only [Library.step, hpending])
      | ok saved =>
        refine answered_awaits r (some (.hidden result saved)) rfl ?_
        simp only [Library.step, hpending]
    | hidden result saved => exact .nothing rfl (by simp only [Library.step, hpending])

theorem answered_hidden (r now : ℕ) (answer : Except String (List String)) :
    Answered options lib (.hiddenAnswered r now answer) := by
  have hwaits : (∀ result saved, lib.pending r ≠ some (.hidden result saved)) →
      Answered options lib (.hiddenAnswered r now answer) := by
    intro hnot
    cases hpending : lib.pending r with
    | none =>
      refine .nothing ?_ (by simp only [Library.step, hpending])
      cases answer <;> simp only [Library.finishes, hpending]
    | some phase =>
      cases phase with
      | hidden result saved => exact absurd hpending (hnot result saved)
      | _ =>
        refine .nothing ?_ (by simp only [Library.step, hpending])
        cases answer <;> simp only [Library.finishes, hpending]
  by_cases hpending : ∃ result saved, lib.pending r = some (.hidden result saved)
  · obtain ⟨result, saved, hpending⟩ := hpending
    cases answer with
    | error e => exact answered_fail r e rfl rfl (by simp only [Library.step, hpending])
    | ok hidden =>
      by_cases hother : r ≠ lib.requestId
      · refine answered_awaits r none ?_ ?_
        · simp only [Library.finishes, hpending, if_neg hother]
        · simp only [Library.step, hpending, if_pos hother]
      · refine .finishes result saved hidden now ?_ r ?_
        · simp only [Library.finishes, hpending, if_pos (not_not.mp hother)]
        · simp only [Library.step, hpending, if_neg hother]
  · exact hwaits fun result saved h => hpending ⟨result, saved, h⟩

theorem answered {request : ℕ} (hrequest : event.request = some request) :
    Answered options lib event := by
  cases event with
  | listAnswered r answer => exact answered_list r answer
  | savedAnswered r answer => exact answered_saved r answer
  | hiddenAnswered r now answer => exact answered_hidden r now answer
  | _ => cases hrequest

theorem request_of_finishes {result saved : List Host} {hidden : List String} {now : ℕ}
    (h : lib.finishes event = some (result, saved, hidden, now)) :
    event.request = some lib.requestId := by
  rw [Library.finishes.eq_def] at h
  split at h
  · split at h
    · split_ifs at h with hcurrent
      rw [Event.request, hcurrent]
    · cases h
  · cases h

theorem kept_answered {request : ℕ} (hrequest : event.request = some request)
    (hnodup : (lib.hosts.map Host.id).Nodup) (hmeets : lib.Meets options event) :
    Kept options lib event := by
  have hanswered : Answered options lib event := answered hrequest
  cases hanswered with
  | finishes result saved hidden now h r hstep =>
    have hnone : lib.finishes event ≠ none := by
      rw [h]
      exact Option.some_ne_none _
    refine ⟨?_, fun result' saved' hidden' now' h' => ?_, fun id hid => absurd hid hnone,
      fun id hid => absurd hid hnone, fun id hid => absurd hid hnone, fun other hother hne => ?_⟩
    · rw [hstep]
      exact nodup_commit _ _ _ _ _ _
    · cases h.symm.trans h'
      obtain ⟨hreplaced, hnames⟩ := hmeets result saved hidden now h
      have hclean : Clean options (lib.awaits r none) now result saved hidden :=
        ⟨hreplaced, hnames⟩
      have hsettled := settled_commit hclean
      rw [hstep]
      exact ⟨hsettled.listed, hsettled.nicknames, hsettled.lastConnected, hsettled.favorites⟩
    · cases (request_of_finishes h).symm.trans hother
      exact absurd rfl hne
  | awaits h pending status error hstep hview =>
    refine ⟨?_, fun result saved hidden now h' => ?_, fun id _ _ => ?_, fun id _ _ => ?_,
      fun id _ _ => ?_, fun other hother hne => ?_⟩
    · rw [hstep]
      exact hnodup
    · cases h.symm.trans h'
    · rw [hstep]
    · rw [hstep]
    · rw [hstep]
    · obtain ⟨hstatus, herror⟩ := hview other hother hne
      rw [hstep, hstatus, herror]
      rfl

theorem toggleFavorite_hosts (ip : String) : (lib.toggleFavorite options ip).hosts = lib.hosts := by
  rw [Library.toggleFavorite]
  split <;> rfl

theorem toggleFavorite_nicknames (ip : String) :
    (lib.toggleFavorite options ip).nicknames = lib.nicknames := by
  rw [Library.toggleFavorite]
  split <;> rfl

theorem toggleFavorite_lastConnected (ip : String) :
    (lib.toggleFavorite options ip).lastConnected = lib.lastConnected := by
  rw [Library.toggleFavorite]
  split <;> rfl

theorem toggleFavorite_favoriteIds {ip id : String} (hne : id ≠ ip) :
    id ∈ (lib.toggleFavorite options ip).favoriteIds ↔ id ∈ lib.favoriteIds := by
  rw [Library.toggleFavorite]
  cases hget : Ordered.get Host.id ip lib.hosts with
  | none => exact Iff.rfl
  | some host =>
    have hid := Ordered.key_of_get hget
    simp only [hid]
    split_ifs
    · rw [List.mem_filter, decide_eq_true_eq, and_iff_left hne]
    · rw [List.mem_append, List.mem_singleton, or_iff_left hne]

theorem nodup_recordConnection (hnodup : (lib.hosts.map Host.id).Nodup) (host : Host)
    (time : ℕ) : ((lib.recordConnection host time).hosts.map Host.id).Nodup := by
  have hid : (host.over (Ordered.get Host.id host.id lib.hosts)).id = host.id := by
    cases Ordered.get Host.id host.id lib.hosts <;> rfl
  rw [Library.recordConnection, List.map_append, List.map_singleton, hid, List.nodup_append]
  refine ⟨Ordered.nodup_delete hnodup, List.nodup_singleton _, ?_⟩
  rintro id hmem other hother rfl
  obtain ⟨item, hitem, rfl⟩ := List.mem_map.mp hmem
  exact (Ordered.mem_delete.mp hitem).2 (List.mem_singleton.mp hother)

/-- **What one event keeps.** -/
theorem kept_step (hnodup : (lib.hosts.map Host.id).Nodup) (hmeets : lib.Meets options event) :
    Kept options lib event := by
  cases hrequest : event.request with
  | some request => exact kept_answered hrequest hnodup hmeets
  | none =>
    have hsettled : ∀ result saved hidden now,
        lib.finishes event = some (result, saved, hidden, now) → False := by
      intro result saved hidden now h
      cases hrequest.symm.trans (request_of_finishes h)
    have hsuperseded : ∀ request, event.request = some request → request ≠ lib.requestId →
        (lib.step options event).view = lib.view := by
      intro request h
      cases hrequest.symm.trans h
    refine ⟨?_, fun result saved hidden now h => (hsettled result saved hidden now h).elim, ?_, ?_, ?_,
      hsuperseded⟩
    · cases event with
      | refresh silent =>
        show ((lib.refresh options silent).hosts.map Host.id).Nodup
        rw [Library.refresh]
        split_ifs <;> exact hnodup
      | toggleFavorite ip =>
        show ((lib.toggleFavorite options ip).hosts.map Host.id).Nodup
        rw [toggleFavorite_hosts]
        exact hnodup
      | setNickname id value => exact hnodup
      | recordConnection host time => exact nodup_recordConnection hnodup host time
      | _ => cases hrequest
    · intro id _ hset
      cases event with
      | refresh silent =>
        show (lib.refresh options silent).nicknames id = _
        rw [Library.refresh]
        split_ifs <;> rfl
      | toggleFavorite ip => exact congrFun (toggleFavorite_nicknames ip) id
      | setNickname other value =>
        apply Function.update_of_ne
        rintro rfl
        exact hset value rfl
      | recordConnection host time => rfl
      | _ => cases hrequest
    · intro id _ hset
      cases event with
      | refresh silent =>
        show (lib.refresh options silent).lastConnected id = _
        rw [Library.refresh]
        split_ifs <;> rfl
      | toggleFavorite ip => exact congrFun (toggleFavorite_lastConnected ip) id
      | setNickname other value => rfl
      | recordConnection host time =>
        apply Function.update_of_ne
        exact Ne.symm (hset host time rfl)
      | _ => cases hrequest
    · intro id _ hset
      cases event with
      | refresh silent =>
        show id ∈ (lib.refresh options silent).favoriteIds ↔ _
        rw [Library.refresh]
        split_ifs <;> exact Iff.rfl
      | toggleFavorite ip =>
        apply toggleFavorite_favoriteIds
        rintro rfl
        exact hset rfl
      | setNickname other value => exact Iff.rfl
      | recordConnection host time => exact Iff.rfl
      | _ => cases hrequest

end Step

/-! ### Runs -/

section Run

variable {options : Options} {lib : Library} {events : List Event}

theorem run_concat (events : List Event) (event : Event) :
    lib.run options (events ++ [event]) = (lib.run options events).step options event := by
  rw [Library.run, List.foldl_append]
  rfl

theorem run_append (before during : List Event) :
    lib.run options (before ++ during) = (lib.run options before).run options during := by
  rw [Library.run, List.foldl_append]
  rfl

theorem nodup_run (hnodup : (lib.hosts.map Host.id).Nodup)
    (hmeets : ∀ before event after, events = before ++ event :: after →
      (lib.run options before).Meets options event) :
    ((lib.run options events).hosts.map Host.id).Nodup := by
  induction events using List.reverseRecOn with
  | nil => exact hnodup
  | append_singleton events event ih =>
    have hbefore := ih fun before e after h => hmeets before e (after ++ [event]) (by simp [h])
    rw [run_concat]
    exact (kept_step hbefore (hmeets events event [] rfl)).nodup

theorem stays_run {during : List Event} (id : String)
    (hkept : ∀ before event after, during = before ++ event :: after →
      Kept options (lib.run options before) event) : Stays options lib during id := by
  induction during using List.reverseRecOn with
  | nil => exact ⟨fun _ _ => rfl, fun _ _ => rfl, fun h _ _ => h⟩
  | append_singleton during event ih =>
    have hbefore := ih fun before e after h => hkept before e (after ++ [event]) (by simp [h])
    have hlast := hkept during event [] rfl
    have hmem : ∀ e ∈ during, e ∈ during ++ [event] := fun e he => List.mem_append_left _ he
    have hself : event ∈ during ++ [event] := List.mem_append_right _ (List.mem_singleton_self _)
    constructor
    · intro hsome hnot
      have hnick := hbefore.nickname hsome fun value h => hnot value (hmem _ h)
      rw [run_concat]
      cases hfinishes : (lib.run options during).finishes event with
      | none =>
        have hsame := hlast.nickname id hfinishes fun value h => hnot value (h ▸ hself)
        exact hsame.trans hnick
      | some finished =>
        obtain ⟨result, saved, hidden, now⟩ := finished
        have hsettled := hlast.settled result saved hidden now hfinishes
        rcases hsettled.nicknames id with hsame | ⟨hempty, -⟩
        · exact hsame.trans hnick
        · exact absurd (hnick.symm.trans hempty) hsome
    · intro hsome hnot
      have hconnected := hbefore.lastConnected hsome fun host time h => hnot host time (hmem _ h)
      rw [run_concat]
      cases hfinishes : (lib.run options during).finishes event with
      | none =>
        have hsame := hlast.lastConnected id hfinishes fun host time h =>
          hnot host time (h ▸ hself)
        exact hsame.trans hconnected
      | some finished =>
        obtain ⟨result, saved, hidden, now⟩ := finished
        have hsettled := hlast.settled result saved hidden now hfinishes
        rcases hsettled.lastConnected id with hsame | ⟨hempty, -⟩
        · exact hsame.trans hconnected
        · exact absurd (hconnected.symm.trans hempty) hsome
    · intro hfavorite hnot hsaved
      have hfavorite' := hbefore.favorite hfavorite (fun h => hnot (hmem _ h))
        fun before e after h => hsaved before e (after ++ [event]) (by simp [h])
      rw [run_concat]
      cases hfinishes : (lib.run options during).finishes event with
      | none => exact (hlast.favorite id hfinishes fun h => hnot (h ▸ hself)).mpr hfavorite'
      | some finished =>
        obtain ⟨result, saved, hidden, now⟩ := finished
        have hsettled := hlast.settled result saved hidden now hfinishes
        rcases hsettled.favorites.kept id hfavorite' with hkept' | ⟨target, -, hreplaces⟩
        · exact hkept'
        · have hid := hsaved during event [] rfl result saved hidden now hfinishes
          apply absurd _ hreplaces.unpaired
          rw [List.map_append]
          exact List.mem_append_left _ hid

/-- **Whatever the refreshes are answered and the user does in between: no id is listed twice, what
is saved or discovered is listed, what an id has stays with it, and a refresh that has been
superseded changes nothing.** -/
theorem library_keeps_identities (hnodup : (lib.hosts.map Host.id).Nodup) (events : List Event)
    (hmeets : ∀ before event after, events = before ++ event :: after →
      (lib.run options before).Meets options event) :
    ((lib.run options events).hosts.map Host.id).Nodup ∧
      (∀ before event after, events = before ++ event :: after →
        Kept options (lib.run options before) event) ∧
      ∀ before during, events = before ++ during → ∀ id,
        Stays options (lib.run options before) during id := by
  have hkept : ∀ before event after, events = before ++ event :: after →
      Kept options (lib.run options before) event := by
    intro before event after hsplit
    refine kept_step (nodup_run hnodup fun before' e after' h => ?_) (hmeets before event after hsplit)
    exact hmeets before' e (after' ++ event :: after) (by simp [hsplit, h])
  refine ⟨nodup_run hnodup hmeets, hkept, fun before during hsplit id => stays_run id ?_⟩
  intro before' event after h
  rw [← run_append]
  exact hkept (before ++ before') event after (by simp [hsplit, h])

end Run

/-! ### A workstation -/

/-- On these addresses and names `trim` and `toLowerCase` do nothing. -/
def desktop : Options := ⟨true, true, ⟨fun s => s, fun s => s⟩⟩

def computer (id name : String) (paired : Bool) : Host :=
  ⟨id, some (some name), "10.0.0.2", some false, some paired⟩

/-- The id is a favourite, and has a nickname. -/
def workstation (id : String) (hosts : List Host) : Library where
  hosts := hosts
  favoriteIps := []
  favoriteIds := [id]
  nicknames := fun other => if other = id then "Workstation" else ""
  lastSeen := fun _ => 0
  lastConnected := fun _ => 0
  status := .idle
  error := none
  requestId := 0
  pending := fun _ => none

def refreshed (saved : List Host) : List Event :=
  [.refresh false, .listAnswered 1 (.ok (some [])), .savedAnswered 1 (.ok saved),
    .hiddenAnswered 1 5 (.ok [])]

def unpaired : Library := workstation "10.0.0.2" [computer "10.0.0.2" "Desk" false]

theorem workstation_meets :
    ∀ before event after, refreshed [computer "a" "Desk" true] = before ++ event :: after →
      (unpaired.run desktop before).Meets desktop event := by
  intro before event after hsplit
  match before, hsplit with
  | [], hsplit =>
    cases hsplit
    intro result saved hidden now h
    cases h
  | [_], hsplit =>
    cases hsplit
    intro result saved hidden now h
    cases h
  | [_, _], hsplit =>
    cases hsplit
    intro result saved hidden now h
    cases h
  | [_, _, _], hsplit =>
    cases hsplit
    intro result saved hidden now h
    cases h
    refine ⟨fun before host after hsplit previous hprevious => ?_,
      fun host _ _ last hlast => ?_⟩
    · match before, hsplit with
      | [], hsplit =>
        cases hsplit
        cases hprevious
        decide
      | _ :: before, hsplit => simp at hsplit
    · have hmem := List.mem_reverse.mp (List.mem_of_find?_eq_some hlast)
      rw [List.append_nil, List.mem_singleton] at hmem
      rw [hmem]
      decide
  | _ :: _ :: _ :: _ :: before, hsplit => simp [refreshed] at hsplit

theorem library_keeps_identities_workstation :
    ((unpaired.run desktop (refreshed [computer "a" "Desk" true])).hosts.map Host.id).Nodup ∧
      (unpaired.run desktop (refreshed [computer "a" "Desk" true])).nicknames "a" = "Workstation" ∧
      (unpaired.run desktop (refreshed [computer "a" "Desk" true])).favoriteIds = ["a"] := by
  have hnodup : (unpaired.hosts.map Host.id).Nodup := List.nodup_singleton _
  exact ⟨(library_keeps_identities hnodup _ workstation_meets).1, by decide, by decide⟩

/-- Two pairings are at one address: the first is not listed, and the second has its preferences. -/
theorem pairing_replaced :
    (((workstation "a" []).run desktop
        (refreshed [computer "a" "Desk" true, computer "b" "Laptop" true])).hosts.map Host.id) =
          ["b"] ∧
      ((workstation "a" []).run desktop
        (refreshed [computer "a" "Desk" true, computer "b" "Laptop" true])).favoriteIds = ["b"] ∧
      ((workstation "a" []).run desktop
        (refreshed [computer "a" "Desk" true, computer "b" "Laptop" true])).nicknames "b" =
          "Workstation" := by
  decide

end MahoRD.ComputerLibrary
