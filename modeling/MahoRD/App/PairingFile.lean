/-
MahoRD/App/PairingFile.lean

The client's pairing store on a file (`PairingStore` with `StoreBackend::File` in
`maho-app/src/pairing.rs`), each call with nothing in between.

The JSON form of the records is a parameter: what it is read from and written to.  A call is
given how its file operations turn out.  A write that fails leaves the file as it was,
unless only the permissions of the new file could not be set.
-/
import MahoRD.Proto.Pairing
import MahoRD.Proto.Parity

namespace MahoRD.ClientPairing

structure PairingEndpoint where
  host : String
  tcpPort : UInt16
  udpPort : UInt16
  deriving DecidableEq

structure PairingRecord where
  id : String
  name : String
  key : List UInt8
  addedAtUnixMs : UInt64
  lastEndpoint : Option PairingEndpoint
  endpointAliases : List PairingEndpoint
  relayUrl : Option String
  relayHostId : Option String
  trust : PairingTrust
  deriving DecidableEq

inductive PairingStoreError
  | io
  | json
  | invalidKeyLength (length : ℕ)

def PairingRecord.keyArray (record : PairingRecord) : Except PairingStoreError (List UInt8) :=
  if record.key.length = pairingKeySize then .ok record.key
  else .error (.invalidKeyLength record.key.length)

def maxEndpointAliases : ℕ := 16

def updateRecordEndpoint (record : PairingRecord) (endpoint : PairingEndpoint) : PairingRecord :=
  let aliases := record.endpointAliases.filter (· ≠ endpoint)
  let aliases :=
    match record.lastEndpoint with
    | some prev => if prev ≠ endpoint ∧ prev ∉ aliases then aliases ++ [prev] else aliases
    | none => aliases
  { record with
    endpointAliases := aliases.drop (aliases.length - maxEndpointAliases)
    lastEndpoint := some endpoint }

/-! ### Paths -/

/-- The components of a path. -/
abbrev Path := List String

def Path.withFileName (path : Path) (name : String) : Path := path.dropLast ++ [name]

def pairingKeysName : String := "pairing-keys.json"

/-- The file beside it, then both names inside the directory of the old brand. -/
def legacyMigrationCandidates (path : Path) : List Path :=
  path.withFileName pairingKeysName ::
    if path = [] then []
    else
      let parent := path.dropLast
      let legacyDir := Path.withFileName parent "EclipticRD"
      if legacyDir ≠ parent then
        (path.getLast?.map fun fileName => legacyDir ++ [fileName]).toList ++
          [legacyDir ++ [pairingKeysName]]
      else []

/-! ### Files -/

/-- What a file holds, if it is there. -/
abbrev Content := Option (List UInt8)

structure Json where
  decode : List UInt8 → Option (List PairingRecord)
  encode : List PairingRecord → Option (List UInt8)

/-- Where a store is: its path, the JSON form, and the other files, which are never written.  A file
that is there may not be readable. -/
structure Place where
  path : Path
  json : Json
  others : Path → Option (Except PairingStoreError (List UInt8))

inductive WriteOutcome
  | ok
  | failed
  /-- The new file is in place. -/
  | failedAfter
  deriving DecidableEq

/-- How the file operations of a call turn out. -/
structure Outcomes where
  lock : Bool
  migration : WriteOutcome
  read : Bool
  write : WriteOutcome

def Outcomes.allOk : Outcomes := ⟨true, .ok, true, .ok⟩

namespace Place

variable (place : Place)

/-- The records of a file.  Malformed ones are skipped. -/
def parse (bytes : List UInt8) : Except PairingStoreError (List PairingRecord) :=
  match place.json.decode bytes with
  | some records => .ok (records.filter fun record => record.keyArray.isOk)
  | none => .error .json

/-- The records to migrate: those of the first candidate that has any. -/
def legacyRecords : List Path → Except PairingStoreError (Option (List PairingRecord))
  | [] => .ok none
  | candidate :: candidates =>
    if candidate = place.path then legacyRecords candidates
    else
      match place.others candidate with
      | none => legacyRecords candidates
      | some (.error e) => .error e
      | some (.ok bytes) =>
        match place.parse bytes with
        | .error e => .error e
        | .ok [] => legacyRecords candidates
        | .ok records => .ok (some records)

def migration : Except PairingStoreError (Option (List PairingRecord)) :=
  place.legacyRecords (legacyMigrationCandidates place.path)

/-- `write_records`: whether it fails, and what the file holds then. -/
def writeRecords (outcome : WriteOutcome) (records : List PairingRecord) (store : Content) :
    Except PairingStoreError Unit × Content :=
  match outcome, place.json.encode records with
  | .failed, _ => (.error .io, store)
  | _, none => (.error .json, store)
  | .failedAfter, some bytes => (.error .io, some bytes)
  | .ok, some bytes => (.ok (), some bytes)

/-- `read_file_records` of the store itself. -/
def readRecords (read : Bool) (store : Content) : Except PairingStoreError (List PairingRecord) :=
  if read then
    match store with
    | some bytes => place.parse bytes
    | none => .ok []
  else .error .io

/-- What follows the search for records to migrate. -/
def migrate (outcomes : Outcomes) (found : Except PairingStoreError (Option (List PairingRecord)))
    (store : Content) : Except PairingStoreError (List PairingRecord) × Content :=
  match found with
  | .error e => (.error e, store)
  | .ok none => (place.readRecords outcomes.read store, store)
  | .ok (some records) =>
    ((place.writeRecords outcomes.migration records store).1.map fun _ => records,
      (place.writeRecords outcomes.migration records store).2)

def loadAll (outcomes : Outcomes) (store : Content) :
    Except PairingStoreError (List PairingRecord) × Content :=
  match store with
  | some _ => (place.readRecords outcomes.read store, store)
  | none => place.migrate outcomes place.migration store

/-- What a write leaves in a file that is not there. -/
def written (outcome : WriteOutcome) (records : List PairingRecord) : Content :=
  (place.writeRecords outcome records none).2

theorem writeRecords_fst (outcome : WriteOutcome) (records : List PairingRecord) (store : Content) :
    (place.writeRecords outcome records store).1 =
      (place.writeRecords outcome records none).1 := by
  unfold writeRecords
  cases outcome <;> cases place.json.encode records <;> rfl

theorem writeRecords_snd (outcome : WriteOutcome) (records : List PairingRecord) (store : Content) :
    (place.writeRecords outcome records store).2 = (place.written outcome records).or store := by
  unfold written writeRecords
  cases outcome <;> cases place.json.encode records <;> rfl

end Place

/-! ### Calls -/

inductive Request
  | loadAll
  | save (record : PairingRecord)
  | delete (id : String)
  | rememberEndpoint (id : String) (expectedKey : List UInt8) (endpoint : PairingEndpoint)

inductive Reply
  | records (records : List PairingRecord)
  | done
  | remembered (found : Bool)

/-- The first record of the id gets the endpoint, if the key is the expected one. -/
def rememberIn (id : String) (expectedKey : List UInt8) (endpoint : PairingEndpoint) :
    List PairingRecord → Option (List PairingRecord)
  | [] => none
  | record :: records =>
    if record.id = id then
      if record.key = expectedKey then some (updateRecordEndpoint record endpoint :: records)
      else none
    else (rememberIn id expectedKey endpoint records).map (record :: ·)

namespace Request

/-- The call runs under the lock of the store. -/
def locks : Request → Bool
  | loadAll => false
  | _ => true

theorem locks_eq_false {request : Request} : request.locks = false ↔ request = .loadAll := by
  cases request <;> simp [locks]

/-- What the call writes, from the records that it has loaded. -/
def rewrite : Request → List PairingRecord → Option (List PairingRecord)
  | loadAll, _ => none
  | save record, records =>
    some ((records.filter fun existing => existing.id ≠ record.id) ++ [record])
  | delete id, records => some (records.filter fun record => record.id ≠ id)
  | rememberEndpoint id expectedKey endpoint, records => rememberIn id expectedKey endpoint records

/-- The answer of a call that has not failed: the records it has loaded, and whether it has
written. -/
def reply (request : Request) (records : List PairingRecord) : Reply :=
  match request with
  | loadAll => .records records
  | save _ | delete _ => .done
  | rememberEndpoint .. => .remembered (request.rewrite records).isSome

/-- The check before the lock. -/
def precheck : Request → Except PairingStoreError Unit
  | save record => record.keyArray.map fun _ => ()
  | _ => .ok ()

end Request

structure Call where
  request : Request
  outcomes : Outcomes

namespace Call

variable (place : Place) (call : Call)

/-- The call after its `load_all`. -/
def onLoaded : Except PairingStoreError (List PairingRecord) × Content →
    Except PairingStoreError Reply × Content
  | (.error e, store) => (.error e, store)
  | (.ok records, store) =>
    match call.request.rewrite records with
    | none => (.ok (call.request.reply records), store)
    | some rewritten =>
      ((place.writeRecords call.outcomes.write rewritten store).1.map fun _ =>
        call.request.reply records, (place.writeRecords call.outcomes.write rewritten store).2)

/-- The call with nothing in between: its answer, and what the file holds then. -/
def alone (store : Content) : Except PairingStoreError Reply × Content :=
  match call.request.precheck with
  | .error e => (.error e, store)
  | .ok _ =>
    if call.request.locks && !call.outcomes.lock then (.error .io, store)
    else call.onLoaded place (place.loadAll call.outcomes store)

def apply (store : Content) : Content := (call.alone place store).2

/-! ### Writes do not depend on what the file holds -/

/-- What the call leaves in a file that is not there, once it has loaded. -/
def rewritten (loaded : Except PairingStoreError (List PairingRecord)) : Content :=
  (call.onLoaded place (loaded, none)).2

theorem onLoaded_snd (x : Except PairingStoreError (List PairingRecord) × Content) :
    (call.onLoaded place x).2 = (call.rewritten place x.1).or x.2 := by
  obtain ⟨e | records, store⟩ := x
  · rfl
  · simp only [rewritten, onLoaded]
    cases call.request.rewrite records with
    | none => rfl
    | some records' =>
      rw [place.writeRecords_snd, place.writeRecords_snd, Option.or_none]

/-- What a `load_all` leaves in a file that is not there. -/
def migrated : Content :=
  match place.migration with
  | .ok (some records) => place.written call.outcomes.migration records
  | _ => none

theorem apply_loadAll (h : call.request = .loadAll) (store : Content) :
    call.apply place store = store.or (call.migrated place) := by
  have hloaded : ∀ loaded, (call.onLoaded place loaded).2 = loaded.2 := by
    rintro ⟨_ | records, store⟩
    · rfl
    · simp only [onLoaded, h, Request.rewrite]
  simp only [apply, alone, h, Request.precheck, Request.locks, Bool.false_and, Bool.false_eq_true,
    if_false, hloaded]
  cases store with
  | some bytes => rfl
  | none =>
    simp only [Place.loadAll, Place.migrate, migrated, Option.none_or]
    cases place.migration with
    | error e => rfl
    | ok found =>
      cases found with
      | none => rfl
      | some records => rfl

end Call

end MahoRD.ClientPairing
