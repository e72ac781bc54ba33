/-
MahoRD/App/PairingRecords.lean

How a pairing file is read (`read_file_records` in `maho-app/src/pairing.rs` with the `Deserialize`
of a record and its custom decoders).

A JSON text is a tree of values; the text itself and base64 are parameters.  A struct is read from
an object or from an array of its fields' values.

The records whose key has a wrong length are skipped, but an element that is not a record at all
fails the load.
-/
import MahoRD.App.AgentInput
import MahoRD.App.PairingFile
import MahoRD.Lib.Fields

namespace MahoRD.ClientPairing

open Fields

/-! ### JSON -/

/-- A JSON value.  The fields of an object stand as in the text, repeated ones too. -/
inductive Value
  | null
  | bool (b : Bool)
  | natural (n : UInt64)
  | negative (n : Int64)
  | real (x : Float)
  | string (s : String)
  | array (elements : List Value)
  | object (fields : List (Option String × Value))
  /-- A number out of range, or a string that is not Unicode: it can only be skipped. -/
  | unreadable

structure Formats where
  /-- The value of a JSON text. -/
  text : List UInt8 → Option Value
  /-- `BASE64_STANDARD.decode` -/
  base64 : String → Option (List UInt8)

namespace Value

def str : Value → Option String
  | .string s => some s
  | _ => none

def u8 : Value → Option UInt8
  | .natural n => if n.toNat < UInt8.size then some n.toUInt8 else none
  | _ => none

def u16 : Value → Option UInt16
  | .natural n => if n.toNat < UInt16.size then some n.toUInt16 else none
  | _ => none

variable {α : Type}

def option (read : Value → Option α) : Value → Option (Option α)
  | .null => some none
  | value => (read value).map some

def vec (read : Value → Option α) : Value → Option (List α)
  | .array elements => elements.mapM read
  | _ => none

end Value

/-! ### Structs -/

/-- The value of a field, which must not be there yet. -/
def once {α : Type} (slot : Option α) (value : Option α) : Option (Option α) :=
  if slot.isSome then none else value.map some

/-- A struct is read from an object or from an array. -/
def deserializeStruct {F S R : Type} (named : String → Option F) (all : List F)
    (put : S → F → Value → Option S) (empty : S) (finish : S → Option R) : Value → Option R
  | .object fields => (visitMap named put empty fields).bind finish
  | .array values => (visitSeq put empty all values).bind finish
  | _ => none

/-! ### Endpoints -/

inductive EndpointField
  | host | tcpPort | udpPort
  deriving DecidableEq

namespace EndpointField

def named : String → Option EndpointField
  | "host" => some host
  | "tcpPort" => some tcpPort
  | "udpPort" => some udpPort
  | _ => none

def all : List EndpointField := [host, tcpPort, udpPort]

end EndpointField

structure EndpointFields where
  host : Option String
  tcpPort : Option UInt16
  udpPort : Option UInt16

namespace EndpointFields

def empty : EndpointFields := ⟨none, none, none⟩

def put (s : EndpointFields) (field : EndpointField) (value : Value) : Option EndpointFields :=
  match field with
  | .host => (once s.host value.str).map fun host => { s with host }
  | .tcpPort => (once s.tcpPort value.u16).map fun tcpPort => { s with tcpPort }
  | .udpPort => (once s.udpPort value.u16).map fun udpPort => { s with udpPort }

def finish (s : EndpointFields) : Option PairingEndpoint := do
  return { host := ← s.host, tcpPort := ← s.tcpPort, udpPort := ← s.udpPort }

end EndpointFields

def deserializeEndpoint : Value → Option PairingEndpoint :=
  deserializeStruct EndpointField.named EndpointField.all EndpointFields.put .empty
    EndpointFields.finish

/-! ### Records -/

inductive RecordField
  | id | name | key | addedAt | lastEndpoint | endpointAliases | relayUrl | relayHostId | trust
  deriving DecidableEq

namespace RecordField

def named : String → Option RecordField
  | "id" => some id
  | "name" => some name
  | "key" => some key
  | "addedAt" | "added_at" | "added_at_unix_ms" | "addedAtUnixMs" => some addedAt
  | "lastEndpoint" => some lastEndpoint
  | "endpointAliases" => some endpointAliases
  | "relayUrl" => some relayUrl
  | "relayHostId" => some relayHostId
  | "trust" => some trust
  | _ => none

def all : List RecordField :=
  [id, name, key, addedAt, lastEndpoint, endpointAliases, relayUrl, relayHostId, trust]

/-- The fields without a default. -/
def required : List RecordField := [id, name, key]

end RecordField

def deserializeKey (formats : Formats) : Value → Option (List UInt8)
  | .string s => formats.base64 (String.ofList (Agent.trim s.toList))
  | .array bytes => bytes.mapM Value.u8
  | _ => none

def swiftReferenceDateOffset : Float := 978307200.0

/-- A real number is milliseconds, seconds, or seconds since the reference date of Swift. -/
def unixMsOfReal (value : Float) : UInt64 :=
  if 1000000000000.0 < value then value.toUInt64
  else if 1000000000.0 < value then (value * 1000.0).toUInt64
  else
    let unixSecs := value + swiftReferenceDateOffset
    ((if 0.0 < unixSecs then unixSecs else 0.0) * 1000.0).toUInt64

def deserializeAddedAt : Value → Option UInt64
  | .negative value => some (max value 0).toUInt64
  | .natural value => some value
  | .real value => some (unixMsOfReal value)
  | _ => none

def deserializeTrust (value : Value) : Option PairingTrust := do
  let bytes ← value.vec Value.u8
  (PairingTrust.decode bytes).toOption

structure RecordFields where
  id : Option String
  name : Option String
  key : Option (List UInt8)
  addedAt : Option UInt64
  lastEndpoint : Option (Option PairingEndpoint)
  endpointAliases : Option (List PairingEndpoint)
  relayUrl : Option (Option String)
  relayHostId : Option (Option String)
  trust : Option PairingTrust

namespace RecordFields

def empty : RecordFields := ⟨none, none, none, none, none, none, none, none, none⟩

def put (formats : Formats) (s : RecordFields) (field : RecordField) (value : Value) :
    Option RecordFields :=
  match field with
  | .id => (once s.id value.str).map fun id => { s with id }
  | .name => (once s.name value.str).map fun name => { s with name }
  | .key => (once s.key (deserializeKey formats value)).map fun key => { s with key }
  | .addedAt => (once s.addedAt (deserializeAddedAt value)).map fun addedAt => { s with addedAt }
  | .lastEndpoint => (once s.lastEndpoint (value.option deserializeEndpoint)).map
      fun lastEndpoint => { s with lastEndpoint }
  | .endpointAliases => (once s.endpointAliases (value.vec deserializeEndpoint)).map
      fun endpointAliases => { s with endpointAliases }
  | .relayUrl => (once s.relayUrl (value.option Value.str)).map fun relayUrl => { s with relayUrl }
  | .relayHostId => (once s.relayHostId (value.option Value.str)).map
      fun relayHostId => { s with relayHostId }
  | .trust => (once s.trust (deserializeTrust value)).map fun trust => { s with trust }

def finish (s : RecordFields) : Option PairingRecord := do
  return {
    id := ← s.id
    name := ← s.name
    key := ← s.key
    addedAtUnixMs := s.addedAt.getD 0
    lastEndpoint := s.lastEndpoint.getD none
    endpointAliases := s.endpointAliases.getD []
    relayUrl := s.relayUrl.getD none
    relayHostId := s.relayHostId.getD none
    trust := s.trust.getD .owner }

end RecordFields

variable (formats : Formats)

def deserializeRecord : Value → Option PairingRecord :=
  deserializeStruct RecordField.named RecordField.all (RecordFields.put formats) .empty
    RecordFields.finish

/-- `serde_json::from_slice::<Vec<PairingRecord>>` -/
def decodeRecords (bytes : List UInt8) : Option (List PairingRecord) :=
  (formats.text bytes).bind (Value.vec (deserializeRecord formats))

/-- The valid record that an element stands for, if it is one. -/
def validRecord (element : Value) : Option PairingRecord :=
  (deserializeRecord formats element).filter fun record => record.keyArray.isOk

/-! ### What can be read -/

section Shapes

/-- A struct with some fields required: an object that has each field once at most, or an array of
values of the first fields. -/
inductive IsStruct {F : Type} (named : String → Option F) (all required : List F)
    (typed : F → Value → Prop) : Value → Prop
  | object {fields : List (Option String × Value)}
      (htyped : Lawful.TypedObject named typed fields) (honce : (known named fields).Nodup)
      (hcomplete : ∀ field ∈ required, field ∈ known named fields) :
      IsStruct named all required typed (.object fields)
  | array {values : List Value} (hlength : values.length ≤ all.length)
      (htyped : ∀ entry ∈ all.zip values, typed entry.1 entry.2)
      (hcomplete : ∀ field ∈ required, field ∈ all.take values.length) :
      IsStruct named all required typed (.array values)

def IsString (value : Value) : Prop := ∃ s, value = .string s

def IsPort (value : Value) : Prop := ∃ n : UInt64, value = .natural n ∧ n.toNat < UInt16.size

def IsNumber (value : Value) : Prop :=
  (∃ n, value = .natural n) ∨ (∃ n, value = .negative n) ∨ ∃ x, value = .real x

def ofBytes (bytes : List UInt8) : Value := .array (bytes.map fun byte => .natural byte.toUInt64)

def IsArrayOf (each : Value → Prop) (value : Value) : Prop :=
  ∃ elements, value = .array elements ∧ ∀ element ∈ elements, each element

/-- A key is base64 or an array of bytes. -/
def IsKey (value : Value) : Prop :=
  (∃ s key, value = .string s ∧ formats.base64 (String.ofList (Agent.trim s.toList)) = some key) ∨
    ∃ key, value = ofBytes key

def IsTrust (value : Value) : Prop :=
  ∃ bytes trust, value = ofBytes bytes ∧ PairingTrust.decode bytes = .ok trust

def EndpointField.Typed : EndpointField → Value → Prop
  | .host => IsString
  | .tcpPort | .udpPort => IsPort

def IsEndpoint : Value → Prop :=
  IsStruct EndpointField.named EndpointField.all EndpointField.all EndpointField.Typed

def RecordField.Typed : RecordField → Value → Prop
  | .id | .name => IsString
  | .key => IsKey formats
  | .addedAt => IsNumber
  | .lastEndpoint => fun value => value = .null ∨ IsEndpoint value
  | .endpointAliases => IsArrayOf IsEndpoint
  | .relayUrl | .relayHostId => fun value => value = .null ∨ IsString value
  | .trust => IsTrust

/-- A record, however long its key is. -/
def IsRecord : Value → Prop :=
  IsStruct RecordField.named RecordField.all RecordField.required (RecordField.Typed formats)

end Shapes

/-! ### Reading -/

section Reading

variable {α β : Type} {value : Value} {read : Value → Option α}

theorem put_isSome_iff {S : Type} {slot value : Option α} {put : Option α → S} {shape : Prop}
    (h : (∃ x, value = some x) ↔ shape) :
    (∃ s', (once slot value).map put = some s') ↔ ¬ slot.isSome ∧ shape := by
  rw [← h]
  cases slot <;> cases value <;> simp [once]

theorem isSome_of_once {slot value x : Option α} (h : once slot value = some x) : x.isSome := by
  obtain ⟨_, _, rfl⟩ := Option.map_eq_some_iff.mp (Option.ite_none_left_eq_some.mp h).2
  rfl

theorem str_isSome_iff : (∃ s, value.str = some s) ↔ IsString value := by
  cases value <;> simp [Value.str, IsString]

theorem u16_isSome_iff : (∃ n, value.u16 = some n) ↔ IsPort value := by
  cases value <;> simp [Value.u16, IsPort]

theorem addedAt_isSome_iff : (∃ n, deserializeAddedAt value = some n) ↔ IsNumber value := by
  cases value <;> simp [deserializeAddedAt, IsNumber]

theorem u8_eq_some {byte : UInt8} : value.u8 = some byte ↔ value = .natural byte.toUInt64 := by
  cases value with
  | natural n =>
    simp only [Value.u8, Option.ite_none_right_eq_some, Option.some.injEq, Value.natural.injEq]
    constructor
    · rintro ⟨hn, rfl⟩
      apply UInt64.toNat_inj.mp
      rw [UInt8.toNat_toUInt64, UInt64.toNat_toUInt8, Nat.mod_eq_of_lt hn]
    · rintro rfl
      exact ⟨UInt8.toNat_toUInt64 byte ▸ byte.toNat_lt, UInt8.toUInt8_toUInt64 byte⟩
  | _ => simp [Value.u8]

theorem mapM_eq_some {f : α → Option β} {xs : List α} {ys : List β} :
    xs.mapM f = some ys ↔ List.Forall₂ (fun x y => f x = some y) xs ys := by
  induction xs generalizing ys with
  | nil =>
    rw [List.mapM_nil, List.forall₂_nil_left_iff]
    exact ⟨fun h => (Option.some.inj h).symm, fun h => h ▸ rfl⟩
  | cons x xs ih =>
    rw [List.mapM_cons, List.forall₂_cons_left_iff]
    constructor
    · intro h
      obtain ⟨y, hy, h⟩ := Option.bind_eq_some_iff.mp h
      obtain ⟨ys, hys, h⟩ := Option.bind_eq_some_iff.mp h
      exact ⟨y, ys, hy, ih.mp hys, (Option.some.inj h).symm⟩
    · rintro ⟨y, ys, hy, hys, rfl⟩
      rw [hy, ih.mpr hys]; rfl

theorem mapM_isSome_iff {f : α → Option β} {xs : List α} :
    (∃ ys, xs.mapM f = some ys) ↔ ∀ x ∈ xs, ∃ y, f x = some y := by
  simp only [mapM_eq_some]
  constructor
  · rintro ⟨ys, h⟩ x hx
    induction h with
    | nil => cases hx
    | cons hxy _ ih =>
      rcases List.mem_cons.mp hx with rfl | hx
      · exact ⟨_, hxy⟩
      · exact ih hx
  · intro h
    induction xs with
    | nil => exact ⟨[], .nil⟩
    | cons x xs ih =>
      obtain ⟨y, hy⟩ := h x List.mem_cons_self
      obtain ⟨ys, hys⟩ := ih fun x hx => h x (.tail _ hx)
      exact ⟨y :: ys, .cons hy hys⟩

theorem bytes_eq_some {elements : List Value} {bytes : List UInt8} :
    elements.mapM Value.u8 = some bytes ↔ Value.array elements = ofBytes bytes := by
  rw [mapM_eq_some, ofBytes, Value.array.injEq]
  simp only [u8_eq_some]
  rw [← List.forall₂_map_right_iff, List.forall₂_eq_eq_eq]

theorem option_isSome_iff {shape : Value → Prop} (h : ∀ v, (∃ x, read v = some x) ↔ shape v) :
    (∃ x, value.option read = some x) ↔ value = .null ∨ shape value := by
  rw [← h]
  cases value <;> simp [Value.option]

theorem vec_isSome_iff {shape : Value → Prop} (h : ∀ v, (∃ x, read v = some x) ↔ shape v) :
    (∃ xs, value.vec read = some xs) ↔ IsArrayOf shape value := by
  cases value with
  | array elements =>
    simp only [Value.vec, IsArrayOf, Value.array.injEq, exists_eq_left', mapM_isSome_iff, h]
  | _ => simp [Value.vec, IsArrayOf]

theorem key_isSome_iff :
    (∃ key, deserializeKey formats value = some key) ↔ IsKey formats value := by
  cases value with
  | array elements => simp [deserializeKey, IsKey, bytes_eq_some]
  | _ => simp [deserializeKey, IsKey, ofBytes]

theorem trust_isSome_iff : (∃ trust, deserializeTrust value = some trust) ↔ IsTrust value := by
  cases value with
  | array elements =>
    simp only [deserializeTrust, Value.vec, IsTrust]
    constructor
    · rintro ⟨trust, h⟩
      obtain ⟨bytes, hbytes, h⟩ := Option.bind_eq_some_iff.mp h
      cases hdecode : PairingTrust.decode bytes with
      | ok t => exact ⟨bytes, t, bytes_eq_some.mp hbytes, hdecode⟩
      | error e =>
        rw [hdecode] at h
        cases h
    · rintro ⟨bytes, trust, hbytes, hdecode⟩
      rw [bytes_eq_some.mpr hbytes]
      exact ⟨trust, congrArg Except.toOption hdecode⟩
  | _ => simp [deserializeTrust, Value.vec, IsTrust, ofBytes]

/-- **What a struct is read from.** -/
theorem deserializeStruct_isSome_iff {F S R : Type} {named : String → Option F}
    {all required : List F} {put : S → F → Value → Option S} {empty : S} {finish : S → Option R}
    {has : S → F → Prop} {typed : F → Value → Prop} (law : Lawful put has typed)
    (hall : all.Nodup) (hempty : ∀ field, ¬ has empty field)
    (hfinish : ∀ s, (∃ r, finish s = some r) ↔ ∀ field ∈ required, has s field) :
    (∃ r, deserializeStruct named all put empty finish value = some r) ↔
      IsStruct named all required typed value := by
  constructor
  · rintro ⟨r, h⟩
    cases value with
    | object fields =>
      obtain ⟨s, hs, hr⟩ := Option.bind_eq_some_iff.mp h
      obtain ⟨htyped, honce, _⟩ := law.visitMap_iff.mp ⟨s, hs⟩
      refine .object htyped honce fun field hfield => ?_
      have hhas := (hfinish s).mp ⟨r, hr⟩ field hfield
      exact ((law.has_visitMap hs field).mp hhas).resolve_right (hempty field)
    | array values =>
      obtain ⟨s, hs, hr⟩ := Option.bind_eq_some_iff.mp h
      obtain ⟨hlength, htyped⟩ := (law.visitSeq_iff hall fun f _ => hempty f).mp ⟨s, hs⟩
      refine .array hlength htyped fun field hfield => ?_
      have hhas := (hfinish s).mp ⟨r, hr⟩ field hfield
      exact ((law.has_visitSeq hs field).mp hhas).resolve_right (hempty field)
    | _ => cases h
  · intro h
    cases h with
    | object htyped honce hcomplete =>
      obtain ⟨s, hs⟩ := law.visitMap_iff.mpr ⟨htyped, honce, fun f _ => hempty f⟩
      obtain ⟨r, hr⟩ := (hfinish s).mpr fun field hfield =>
        (law.has_visitMap hs field).mpr (.inl (hcomplete field hfield))
      exact ⟨r, Option.bind_eq_some_iff.mpr ⟨s, hs, hr⟩⟩
    | array hlength htyped hcomplete =>
      obtain ⟨s, hs⟩ := (law.visitSeq_iff hall fun f _ => hempty f).mpr ⟨hlength, htyped⟩
      obtain ⟨r, hr⟩ := (hfinish s).mpr fun field hfield =>
        (law.has_visitSeq hs field).mpr (.inl (hcomplete field hfield))
      exact ⟨r, Option.bind_eq_some_iff.mpr ⟨s, hs, hr⟩⟩

end Reading

/-! ### The two structs -/

/-- The fields that are there. -/
def EndpointFields.Has (s : EndpointFields) : EndpointField → Prop
  | .host => s.host.isSome
  | .tcpPort => s.tcpPort.isSome
  | .udpPort => s.udpPort.isSome

theorem EndpointFields.put_lawful : Lawful put Has EndpointField.Typed where
  isSome_iff s field value := by
    cases field with
    | host => exact put_isSome_iff str_isSome_iff
    | tcpPort | udpPort => exact put_isSome_iff u16_isSome_iff
  has_iff {s field value s'} h other := by
    cases field <;> obtain ⟨x, hx, rfl⟩ := Option.map_eq_some_iff.mp h <;>
      cases other <;> simp [Has, isSome_of_once hx]

theorem endpoint_isSome_iff {value : Value} :
    (∃ endpoint, deserializeEndpoint value = some endpoint) ↔ IsEndpoint value := by
  refine deserializeStruct_isSome_iff EndpointFields.put_lawful (by decide) ?_ fun s => ?_
  · rintro (_ | _ | _) <;> exact Bool.false_ne_true
  · obtain ⟨host, tcpPort, udpPort⟩ := s
    cases host <;> cases tcpPort <;> cases udpPort <;>
      simp [EndpointFields.finish, EndpointFields.Has, EndpointField.all]

def RecordFields.Has (s : RecordFields) : RecordField → Prop
  | .id => s.id.isSome
  | .name => s.name.isSome
  | .key => s.key.isSome
  | .addedAt => s.addedAt.isSome
  | .lastEndpoint => s.lastEndpoint.isSome
  | .endpointAliases => s.endpointAliases.isSome
  | .relayUrl => s.relayUrl.isSome
  | .relayHostId => s.relayHostId.isSome
  | .trust => s.trust.isSome

theorem RecordFields.put_lawful : Lawful (put formats) Has (RecordField.Typed formats) where
  isSome_iff s field value := by
    cases field with
    | id | name => exact put_isSome_iff str_isSome_iff
    | key => exact put_isSome_iff (key_isSome_iff formats)
    | addedAt => exact put_isSome_iff addedAt_isSome_iff
    | lastEndpoint => exact put_isSome_iff (option_isSome_iff fun _ => endpoint_isSome_iff)
    | endpointAliases => exact put_isSome_iff (vec_isSome_iff fun _ => endpoint_isSome_iff)
    | relayUrl | relayHostId => exact put_isSome_iff (option_isSome_iff fun _ => str_isSome_iff)
    | trust => exact put_isSome_iff trust_isSome_iff
  has_iff {s field value s'} h other := by
    cases field <;> obtain ⟨x, hx, rfl⟩ := Option.map_eq_some_iff.mp h <;>
      cases other <;> simp [Has, isSome_of_once hx]

/-- **An element is read exactly if it is a record**, however long its key is. -/
theorem record_isSome_iff {value : Value} :
    (∃ record, deserializeRecord formats value = some record) ↔ IsRecord formats value := by
  refine deserializeStruct_isSome_iff (RecordFields.put_lawful formats) (by decide) ?_ fun s => ?_
  · rintro (_ | _ | _ | _ | _ | _ | _ | _ | _) <;> exact Bool.false_ne_true
  · obtain ⟨id, name, key, rest⟩ := s
    cases id <;> cases name <;> cases key <;>
      simp [RecordFields.finish, RecordFields.Has, RecordField.required]

/-! ### The file -/

/-- A store whose file is JSON. -/
def jsonPlace (path : Path) (encode : List PairingRecord → Option (List UInt8))
    (others : Path → Option (Except PairingStoreError (List UInt8))) : Place where
  path := path
  json := { decode := decodeRecords formats, encode := encode }
  others := others

theorem filter_eq_filterMap {elements : List Value} {records : List PairingRecord}
    (h : List.Forall₂ (fun e r => deserializeRecord formats e = some r) elements records) :
    (records.filter fun record => record.keyArray.isOk) =
      elements.filterMap (validRecord formats) := by
  induction h with
  | nil => rfl
  | cons hread _ ih =>
    rw [List.filter_cons, List.filterMap_cons, validRecord, hread, Option.filter_some, ih]
    split <;> rfl

section Load

variable (path : Path) (encode : List PairingRecord → Option (List UInt8))
  (others : Path → Option (Except PairingStoreError (List UInt8))) (bytes : List UInt8)
  (elements : List Value)

theorem readRecords_array (htext : formats.text bytes = some (.array elements)) :
    (jsonPlace formats path encode others).readRecords true (some bytes) =
      match elements.mapM (deserializeRecord formats) with
      | some records => .ok (records.filter fun record => record.keyArray.isOk)
      | none => .error .json := by
  have hdecode : decodeRecords formats bytes = elements.mapM (deserializeRecord formats) :=
    congrArg (Option.bind · _) htext
  rw [Place.readRecords, if_pos rfl]
  cases hrecords : elements.mapM (deserializeRecord formats) with
  | some records => simp only [Place.parse, jsonPlace, hdecode, hrecords]
  | none => simp only [Place.parse, jsonPlace, hdecode, hrecords]

theorem readRecords_malformed (htext : formats.text bytes = some (.array elements))
    {element : Value} (hmem : element ∈ elements) (h : ¬ IsRecord formats element) :
    (jsonPlace formats path encode others).readRecords true (some bytes) = .error .json := by
  rw [readRecords_array formats path encode others bytes elements htext]
  cases hrecords : elements.mapM (deserializeRecord formats) with
  | none => rfl
  | some records =>
    exact (h ((record_isSome_iff formats).mp (mapM_isSome_iff.mp ⟨records, hrecords⟩ _ hmem))).elim

/-- **The valid records of an array are returned, in order, exactly if every element is a record**:
only the length of a key is checked element by element. -/
theorem malformed_skipped_iff (htext : formats.text bytes = some (.array elements)) :
    (jsonPlace formats path encode others).readRecords true (some bytes) =
        .ok (elements.filterMap (validRecord formats)) ↔
      ∀ element ∈ elements, IsRecord formats element := by
  constructor
  · intro h element hmem
    by_contra hbad
    have herror := readRecords_malformed formats path encode others bytes elements htext hmem hbad
    cases herror.symm.trans h
  · intro h
    obtain ⟨records, hrecords⟩ := mapM_isSome_iff.mpr fun element hmem =>
      (record_isSome_iff formats).mpr (h element hmem)
    rw [readRecords_array formats path encode others bytes elements htext, hrecords]
    exact congrArg Except.ok (filter_eq_filterMap formats (mapM_eq_some.mp hrecords))

end Load

/-! ### Two files -/

/-- A record as it stands in a file. -/
def storedRecord (id name key : String) : Value :=
  .object [(some "id", .string id), (some "name", .string name), (some "key", .string key),
    (some "addedAt", .real 0.0)]

def intactKey : String := "AgICAgICAgICAgICAgICAgICAgICAgICAgICAgICAgI="

/-- A file of two records: a first one with this key, and one that is intact. -/
def twoRecords (key : String) : List Value :=
  [storedRecord "broken" "BrokenHost" key, storedRecord "intact" "IntactHost" intactKey]

def twoRecordsFile (key : String) : List UInt8 :=
  ("[\x7b\"id\":\"broken\",\"name\":\"BrokenHost\",\"key\":\"" ++ key ++
    "\",\"addedAt\":0.0\x7d,\x7b\"id\":\"intact\",\"name\":\"IntactHost\",\"key\":\"" ++
    intactKey ++ "\",\"addedAt\":0.0\x7d]").toUTF8.toList

def twoRecordsFormats (key : String) : Formats where
  text bytes := if bytes = twoRecordsFile key then some (.array (twoRecords key)) else none
  base64 text :=
    if text = "AQEB" then some [1, 1, 1]
    else if text = intactKey then some (List.replicate 32 2)
    else none

theorem twoRecords_text (key : String) :
    (twoRecordsFormats key).text (twoRecordsFile key) = some (.array (twoRecords key)) :=
  if_pos rfl

theorem read_shortKey : (twoRecords "AQEB").all
    fun element => (deserializeRecord (twoRecordsFormats "AQEB") element).isSome := by
  decide

theorem read_noKey :
    deserializeRecord (twoRecordsFormats "@") (storedRecord "broken" "BrokenHost" "@") = none := by
  decide

/-- A key of three bytes is skipped. -/
theorem malformed_skipped_short_key :
    (jsonPlace (twoRecordsFormats "AQEB") [] (fun _ => none) fun _ => none).readRecords true
        (some (twoRecordsFile "AQEB")) =
      .ok ((twoRecords "AQEB").filterMap (validRecord (twoRecordsFormats "AQEB"))) :=
  (malformed_skipped_iff (twoRecordsFormats "AQEB") [] (fun _ => none) (fun _ => none)
    (twoRecordsFile "AQEB") (twoRecords "AQEB") (twoRecords_text "AQEB")).mpr fun element hmem => by
      exact (record_isSome_iff _).mp
        (Option.isSome_iff_exists.mp (List.all_eq_true.mp read_shortKey element hmem))

/-- A key that is not base64 fails the load, with an intact record beside it. -/
theorem malformed_hides_valid :
    (jsonPlace (twoRecordsFormats "@") [] (fun _ => none) fun _ => none).readRecords true
        (some (twoRecordsFile "@")) = .error .json ∧
      ((twoRecords "@").filterMap (validRecord (twoRecordsFormats "@"))).length = 1 := by
  refine ⟨?_, by decide⟩
  refine readRecords_malformed _ _ _ _ _ _ (twoRecords_text "@") List.mem_cons_self fun h => ?_
  obtain ⟨record, hrecord⟩ := (record_isSome_iff _).mpr h
  cases read_noKey.symm.trans hrecord

end MahoRD.ClientPairing
