/-
MahoRD/App/EndpointHistory.lean

The endpoints that a pairing remembers (`update_record_endpoint` and
`PairingStore::remember_endpoint` in `maho-app/src/pairing.rs`), on each backend of the store.

An update is one use of a list of the most recently used endpoints (`endpoints_update`).  What is
read back from JSON is asked to have the id, the key and the endpoints that were written, and
nothing else.
-/
import MahoRD.App.PairingFile
import MahoRD.Lib.Mru

namespace MahoRD.ClientPairing

/-! ### One record -/

/-- The endpoints of a record, the last one at the end. -/
def PairingRecord.endpoints (record : PairingRecord) : List PairingEndpoint :=
  record.endpointAliases ++ record.lastEndpoint.toList

/-- The current endpoint is no alias, so that it becomes one unless it is remembered again. -/
theorem endpoints_update {record : PairingRecord} (h : record.endpoints.Nodup)
    (endpoint : PairingEndpoint) :
    (updateRecordEndpoint record endpoint).endpoints =
      Mru.use maxEndpointAliases record.endpoints endpoint := by
  rw [PairingRecord.endpoints] at h
  cases hlast : record.lastEndpoint with
  | none =>
    simp only [updateRecordEndpoint, PairingRecord.endpoints, hlast, Option.toList_none,
      Option.toList_some, List.append_nil, Mru.use, List.rtake]
  | some prev =>
    rw [hlast] at h
    have hnot : prev ∉ record.endpointAliases := fun hmem =>
      (List.nodup_append.mp h).2.2 prev hmem prev (List.mem_singleton_self prev) rfl
    simp only [updateRecordEndpoint, PairingRecord.endpoints, hlast, Option.toList_some, Mru.use,
      List.rtake, List.filter_append, List.mem_filter, hnot, false_and, not_false_eq_true, and_true]
    by_cases hprev : prev = endpoint
    · rw [if_neg (not_not.mpr hprev), List.filter_cons_of_neg (by simpa using hprev),
        List.filter_nil, List.append_nil]
    · rw [if_pos hprev, List.filter_cons_of_pos (by simpa using hprev), List.filter_nil]

theorem nodup_endpoints_update {record : PairingRecord} (h : record.endpoints.Nodup)
    (endpoint : PairingEndpoint) : (updateRecordEndpoint record endpoint).endpoints.Nodup := by
  rw [endpoints_update h]
  exact Mru.nodup_use h _ _

/-! ### The backends -/

/-- The JSON form of one record. -/
structure RecordJson where
  decode : List UInt8 → Option PairingRecord
  encode : PairingRecord → Option (List UInt8)

/-- What a store is kept on. -/
structure Platform where
  place : Place
  item : RecordJson

inductive StoreError
  | keychain
  | store (error : PairingStoreError)

/-- The items of the keychain are told by their account. -/
abbrev Items := String → Option (List UInt8)

inductive StoreBackend
  | file (content : Content)
  | keychain (items : Items)
  | ephemeral (records : List PairingRecord)

def account (id : String) : String := "maho_pairing_" ++ id

namespace Platform

variable (platform : Platform)

def loadKeychain (read : Bool) (items : Items) (id : String) :
    Except StoreError (Option PairingRecord) :=
  if read then
    match items (account id) with
    | none => .ok none
    | some bytes =>
      match platform.item.decode bytes with
      | none => .error (.store .json)
      | some record =>
        match record.keyArray with
        | .error e => .error (.store e)
        | .ok _ => .ok (some record)
  else .error .keychain

def saveKeychain (write : WriteOutcome) (items : Items) (record : PairingRecord) :
    Except StoreError Unit × Items :=
  match platform.item.encode record with
  | none => (.error (.store .json), items)
  | some bytes =>
    if write = .ok then (.ok (), Function.update items (account record.id) (some bytes))
    else (.error .keychain, items)

def Reply.found : Reply → Bool
  | .remembered found => found
  | _ => false

def rememberEndpoint (outcomes : Outcomes) (id : String) (expectedKey : List UInt8)
    (endpoint : PairingEndpoint) : StoreBackend → Except StoreError Bool × StoreBackend
  | .file content =>
    let call : Call := ⟨.rememberEndpoint id expectedKey endpoint, outcomes⟩
    match call.alone platform.place content with
    | (.error e, content') => (.error (.store e), .file content')
    | (.ok reply, content') => (.ok (Reply.found reply), .file content')
  | .keychain items =>
    match platform.loadKeychain outcomes.read items id with
    | .error e => (.error e, .keychain items)
    | .ok none => (.ok false, .keychain items)
    | .ok (some record) =>
      if record.key ≠ expectedKey then (.ok false, .keychain items)
      else
        match platform.saveKeychain outcomes.write items (updateRecordEndpoint record endpoint) with
        | (.error e, items') => (.error e, .keychain items')
        | (.ok (), items') => (.ok true, .keychain items')
  | .ephemeral records =>
    if outcomes.lock then
      match rememberIn id expectedKey endpoint records with
      | none => (.ok false, .ephemeral records)
      | some records' => (.ok true, .ephemeral records')
    else (.error (.store .io), .ephemeral records)

/-- The record that a store has for an id. -/
def held (id : String) : StoreBackend → Option PairingRecord
  | .file content =>
    match (platform.place.loadAll .allOk content).1 with
    | .ok records => records.find? (·.id = id)
    | .error _ => none
  | .keychain items =>
    match platform.loadKeychain true items id with
    | .ok found => found
    | .error _ => none
  | .ephemeral records => records.find? (·.id = id)

end Platform

/-! ### What is read back -/

structure Reread (record record' : PairingRecord) : Prop where
  id : record'.id = record.id
  key : record'.key = record.key
  lastEndpoint : record'.lastEndpoint = record.lastEndpoint
  endpointAliases : record'.endpointAliases = record.endpointAliases

theorem Reread.refl (record : PairingRecord) : Reread record record := ⟨rfl, rfl, rfl, rfl⟩

theorem Reread.keyArray_isOk {record record' : PairingRecord} (h : Reread record record') :
    record'.keyArray.isOk = record.keyArray.isOk := by
  rw [PairingRecord.keyArray, PairingRecord.keyArray, h.key]

/-- What was written is read back, as far as the endpoints need it. -/
structure Platform.Faithful (platform : Platform) : Prop where
  file : ∀ records bytes, platform.place.json.encode records = some bytes →
    ∃ records', platform.place.json.decode bytes = some records' ∧
      List.Forall₂ Reread records records'
  item : ∀ record bytes, platform.item.encode record = some bytes →
    ∃ record', platform.item.decode bytes = some record' ∧ Reread record record'

theorem id_of_find? {records : List PairingRecord} {id : String} {record : PairingRecord}
    (h : records.find? (·.id = id) = some record) : record.id = id := by
  have hfound := List.find?_some h
  exact of_decide_eq_true hfound

theorem find?_reread {records records' : List PairingRecord}
    (h : List.Forall₂ Reread records records') {id : String} {record : PairingRecord}
    (hfind : records.find? (·.id = id) = some record) :
    ∃ record', Reread record record' ∧ records'.find? (·.id = id) = some record' := by
  induction h with
  | nil => cases hfind
  | @cons a a' records records' ha _ ih =>
    by_cases hid : a.id = id
    · rw [List.find?_cons_of_pos (by simpa using hid)] at hfind
      cases hfind
      exact ⟨a', ha, List.find?_cons_of_pos (by simpa [ha.id] using hid)⟩
    · rw [List.find?_cons_of_neg (by simpa using hid)] at hfind
      rw [List.find?_cons_of_neg (by simpa [ha.id] using hid)]
      exact ih hfind

theorem all_isOk_reread {records records' : List PairingRecord}
    (h : List.Forall₂ Reread records records') (hok : ∀ r ∈ records, r.keyArray.isOk = true) :
    ∀ r ∈ records', r.keyArray.isOk = true := by
  induction h with
  | nil => exact hok
  | @cons a a' records records' ha _ ih =>
    intro r hr
    rcases List.mem_cons.mp hr with rfl | hr
    · rw [ha.keyArray_isOk]
      exact hok a List.mem_cons_self
    · exact ih (fun r hr => hok r (List.mem_cons_of_mem a hr)) r hr

/-! ### What a call that remembers does -/

section
variable {id : String} {expectedKey : List UInt8} {endpoint : PairingEndpoint}
  {records records' : List PairingRecord}

theorem find?_rememberIn (h : rememberIn id expectedKey endpoint records = some records') :
    ∃ record, records.find? (·.id = id) = some record ∧
      records'.find? (·.id = id) = some (updateRecordEndpoint record endpoint) := by
  induction records generalizing records' with
  | nil => cases h
  | cons a records ih =>
    rw [rememberIn] at h
    by_cases hid : a.id = id
    · rw [if_pos hid] at h
      by_cases hkey : a.key = expectedKey
      · rw [if_pos hkey] at h
        cases h
        exact ⟨a, List.find?_cons_of_pos (decide_eq_true hid),
          List.find?_cons_of_pos (decide_eq_true hid)⟩
      · rw [if_neg hkey] at h
        cases h
    · rw [if_neg hid] at h
      obtain ⟨rest, hrest, rfl⟩ := Option.map_eq_some_iff.mp h
      rw [List.find?_cons_of_neg (by simpa using hid), List.find?_cons_of_neg (by simpa using hid)]
      exact ih hrest

theorem find?_rememberIn_ne (h : rememberIn id expectedKey endpoint records = some records')
    {other : String} (hother : other ≠ id) :
    records'.find? (·.id = other) = records.find? (·.id = other) := by
  induction records generalizing records' with
  | nil => cases h
  | cons a records ih =>
    rw [rememberIn] at h
    by_cases hid : a.id = id
    · rw [if_pos hid] at h
      by_cases hkey : a.key = expectedKey
      · rw [if_pos hkey] at h
        cases h
        have hskip : ∀ r : PairingRecord, r.id = id →
            (r :: records).find? (·.id = other) = records.find? (·.id = other) := by
          intro r hr
          exact List.find?_cons_of_neg (by simpa [hr] using hother.symm)
        rw [hskip (updateRecordEndpoint a endpoint) hid, hskip a hid]
      · rw [if_neg hkey] at h
        cases h
    · rw [if_neg hid] at h
      obtain ⟨rest, hrest, rfl⟩ := Option.map_eq_some_iff.mp h
      rw [List.find?_cons, List.find?_cons, ih hrest]

theorem all_isOk_rememberIn (h : rememberIn id expectedKey endpoint records = some records')
    (hok : ∀ r ∈ records, r.keyArray.isOk = true) : ∀ r ∈ records', r.keyArray.isOk = true := by
  induction records generalizing records' with
  | nil => cases h
  | cons a records ih =>
    have ha := hok a List.mem_cons_self
    have hrecords := fun r hr => hok r (List.mem_cons_of_mem a hr)
    rw [rememberIn] at h
    split_ifs at h with hid hkey
    · cases h
      intro r hr
      rcases List.mem_cons.mp hr with rfl | hr
      · exact ha
      · exact hrecords r hr
    · obtain ⟨rest, hrest, rfl⟩ := Option.map_eq_some_iff.mp h
      intro r hr
      rcases List.mem_cons.mp hr with rfl | hr
      · exact ha
      · exact ih hrest hrecords r hr

end

namespace Place

variable {place : Place}

theorem parse_isOk {bytes : List UInt8} {records : List PairingRecord}
    (h : place.parse bytes = .ok records) : ∀ r ∈ records, r.keyArray.isOk = true := by
  rw [parse] at h
  split at h
  · cases h
    exact fun r hr => (List.mem_filter.mp hr).2
  · cases h

theorem legacyRecords_isOk {candidates : List Path} {records : List PairingRecord}
    (h : place.legacyRecords candidates = .ok (some records)) :
    ∀ r ∈ records, r.keyArray.isOk = true := by
  induction candidates with
  | nil => cases h
  | cons candidate candidates ih =>
    rw [legacyRecords] at h
    split_ifs at h with hself
    · exact ih h
    · split at h
      · exact ih h
      · cases h
      · split at h
        · cases h
        · exact ih h
        next hparse =>
          cases h
          exact parse_isOk hparse

theorem writeRecords_ok {outcome : WriteOutcome} {records : List PairingRecord}
    {store store' : Content} (h : place.writeRecords outcome records store = (.ok (), store')) :
    ∃ bytes, place.json.encode records = some bytes ∧ store' = some bytes ∧ outcome = .ok := by
  unfold writeRecords at h
  split at h
  · cases h
  · cases h
  · cases h
  next bytes hbytes =>
    cases h
    exact ⟨bytes, hbytes, rfl, rfl⟩

theorem readRecords_ok {read : Bool} {store : Content} {records : List PairingRecord}
    (h : place.readRecords read store = .ok records) :
    place.readRecords true store = .ok records ∧ ∀ r ∈ records, r.keyArray.isOk = true := by
  cases read with
  | false => cases h
  | true =>
    refine ⟨h, ?_⟩
    cases store with
    | none =>
      cases h
      exact fun r hr => absurd hr List.not_mem_nil
    | some bytes => exact parse_isOk h

/-- What has been loaded would be loaded again, and its keys have the length of a key. -/
theorem loadAll_ok {outcomes : Outcomes} {store store' : Content} {records : List PairingRecord}
    (h : place.loadAll outcomes store = (.ok records, store')) :
    (place.loadAll .allOk store).1 = .ok records ∧ ∀ r ∈ records, r.keyArray.isOk = true := by
  cases store with
  | some bytes =>
    have hread : place.readRecords outcomes.read (some bytes) = .ok records :=
      (Prod.ext_iff.mp h).1
    exact readRecords_ok hread
  | none =>
    simp only [loadAll] at h ⊢
    cases hfound : place.migration with
    | error e =>
      rw [hfound] at h
      cases h
    | ok found =>
      rw [hfound] at h
      cases found with
      | none =>
        have hread : place.readRecords outcomes.read none = .ok records := (Prod.ext_iff.mp h).1
        exact readRecords_ok hread
      | some legacy =>
        have hlegacy := (Prod.ext_iff.mp h).1
        obtain ⟨hwritten, rfl⟩ : (place.writeRecords outcomes.migration legacy none).1 = .ok ()
            ∧ legacy = records := by
          simp only [migrate] at hlegacy
          cases hw : (place.writeRecords outcomes.migration legacy none).1 with
          | error e =>
            rw [hw] at hlegacy
            cases hlegacy
          | ok _ =>
            rw [hw] at hlegacy
            cases hlegacy
            exact ⟨rfl, rfl⟩
        obtain ⟨bytes, hbytes, -, -⟩ := writeRecords_ok (Prod.ext hwritten rfl)
        refine ⟨?_, legacyRecords_isOk hfound⟩
        simp only [migrate, Outcomes.allOk, writeRecords, hbytes]
        rfl

end Place

namespace Platform

variable {platform : Platform} {outcomes : Outcomes} {id : String} {expectedKey : List UInt8}
  {endpoint : PairingEndpoint} {backend backend' : StoreBackend}

/-- From one backend to the next the endpoint is remembered, and nothing else changes. -/
structure Remembers (platform : Platform) (id : String) (endpoint : PairingEndpoint)
    (backend backend' : StoreBackend) : Prop where
  own : ∃ record record', platform.held id backend = some record ∧
    Reread (updateRecordEndpoint record endpoint) record' ∧
    platform.held id backend' = some record'
  others : ∀ other, other ≠ id → ∀ record, platform.held other backend = some record →
    ∃ record', Reread record record' ∧ platform.held other backend' = some record'

theorem remembers_ephemeral {records : List PairingRecord}
    (h : platform.rememberEndpoint outcomes id expectedKey endpoint (.ephemeral records)
      = (.ok true, backend')) :
    platform.Remembers id endpoint (.ephemeral records) backend' := by
  simp only [rememberEndpoint] at h
  split_ifs at h with hlock
  · cases hrecords : rememberIn id expectedKey endpoint records with
    | none =>
      rw [hrecords] at h
      cases h
    | some records' =>
      rw [hrecords] at h
      cases h
      obtain ⟨record, hrecord, hrecord'⟩ := find?_rememberIn hrecords
      refine ⟨⟨record, _, hrecord, .refl _, hrecord'⟩, ?_⟩
      intro other hother record hheld
      exact ⟨record, .refl record, (find?_rememberIn_ne hrecords hother).trans hheld⟩
  · cases h

theorem rememberEndpoint_file {content : Content}
    (h : platform.rememberEndpoint outcomes id expectedKey endpoint (.file content)
      = (.ok true, backend')) :
    ∃ records records' bytes, (platform.place.loadAll .allOk content).1 = .ok records ∧
      (∀ r ∈ records, r.keyArray.isOk = true) ∧
      rememberIn id expectedKey endpoint records = some records' ∧
      platform.place.json.encode records' = some bytes ∧ backend' = .file (some bytes) := by
  simp only [rememberEndpoint, Call.alone, Request.precheck, Request.locks] at h
  by_cases hlock : outcomes.lock = true
  · simp only [hlock, Bool.not_true, Bool.and_false, Bool.false_eq_true, if_false] at h
    cases hload : platform.place.loadAll outcomes content with
    | mk loaded store =>
      rw [hload] at h
      cases loaded with
      | error e => cases h
      | ok records =>
        simp only [Call.onLoaded, Request.rewrite] at h
        cases hrecords : rememberIn id expectedKey endpoint records with
        | none =>
          simp only [hrecords, Request.reply, Request.rewrite] at h
          cases h
        | some records' =>
          simp only [hrecords] at h
          cases hwrite : platform.place.writeRecords outcomes.write records' store with
          | mk answer store' =>
            rw [hwrite] at h
            cases answer with
            | error e => cases h
            | ok _ =>
              obtain ⟨bytes, hbytes, rfl, -⟩ := Place.writeRecords_ok hwrite
              obtain ⟨hagain, hok⟩ := Place.loadAll_ok hload
              have hbackend : .file (some bytes) = backend' := (Prod.ext_iff.mp h).2
              exact ⟨records, records', bytes, hagain, hok, hrecords, hbytes, hbackend.symm⟩
  · simp only [Bool.eq_false_iff.mpr hlock, Bool.not_false, Bool.and_true, if_true] at h
    cases h

/-- A call whose file operations all succeed, on a store that has the record. -/
theorem rememberEndpoint_allOk {content : Content} {records records' : List PairingRecord}
    {bytes : List UInt8} (hload : platform.place.loadAll .allOk content = (.ok records, content))
    (hrecords : rememberIn id expectedKey endpoint records = some records')
    (hbytes : platform.place.json.encode records' = some bytes) :
    platform.rememberEndpoint .allOk id expectedKey endpoint (.file content)
      = (.ok true, .file (some bytes)) := by
  have hwrite : platform.place.writeRecords Outcomes.allOk.write records' content
      = (.ok (), some bytes) := by
    simp only [Place.writeRecords, Outcomes.allOk, hbytes]
  have hcall : Call.alone platform.place ⟨.rememberEndpoint id expectedKey endpoint, .allOk⟩ content
      = (.ok (.remembered true), some bytes) := by
    show Call.onLoaded _ _ (platform.place.loadAll .allOk content) = _
    rw [hload]
    simp only [Call.onLoaded, Request.rewrite, hrecords, hwrite, Request.reply]
    rfl
  simp only [rememberEndpoint, hcall, Reply.found]

theorem loadAll_some (outcomes : Outcomes) (hread : outcomes.read = true) {bytes : List UInt8}
    {records : List PairingRecord} (h : platform.place.parse bytes = .ok records) :
    platform.place.loadAll outcomes (some bytes) = (.ok records, some bytes) := by
  simp only [Place.loadAll, Place.readRecords, hread, if_true, h]

theorem held_file {content : Content} {records : List PairingRecord}
    (h : (platform.place.loadAll .allOk content).1 = .ok records) (id : String) :
    platform.held id (.file content) = records.find? (·.id = id) := by
  simp only [held, h]

theorem remembers_file (hfaithful : platform.Faithful) {content : Content}
    (h : platform.rememberEndpoint outcomes id expectedKey endpoint (.file content)
      = (.ok true, backend')) :
    platform.Remembers id endpoint (.file content) backend' := by
  obtain ⟨records, records', bytes, hload, hok, hrecords, hbytes, rfl⟩ := rememberEndpoint_file h
  obtain ⟨read, hread, hreread⟩ := hfaithful.file records' bytes hbytes
  have hheld := held_file hload
  have hparse : platform.place.parse bytes = .ok read := by
    have hall := all_isOk_reread hreread (all_isOk_rememberIn hrecords hok)
    simp only [Place.parse, hread, List.filter_eq_self.mpr hall]
  have hheld' := held_file (congrArg Prod.fst (loadAll_some Outcomes.allOk rfl hparse))
  obtain ⟨record, hrecord, hrecord'⟩ := find?_rememberIn hrecords
  constructor
  · obtain ⟨record', hsame, hfound⟩ := find?_reread hreread hrecord'
    exact ⟨record, record', (hheld id).trans hrecord, hsame, (hheld' id).trans hfound⟩
  · intro other hother r hr
    rw [hheld, ← find?_rememberIn_ne hrecords hother] at hr
    obtain ⟨r', hsame, hfound⟩ := find?_reread hreread hr
    exact ⟨r', hsame, (hheld' other).trans hfound⟩

theorem account_injective : Function.Injective account := fun _ _ h =>
  (String.append_right_inj _).mp h

theorem loadKeychain_some {read : Bool} {items : Items} {record : PairingRecord}
    (h : platform.loadKeychain read items id = .ok (some record)) :
    platform.held id (.keychain items) = some record ∧ record.keyArray.isOk = true := by
  cases read with
  | false => cases h
  | true =>
    have hheld : platform.held id (.keychain items) = some record := by
      simp only [held, h]
    refine ⟨hheld, ?_⟩
    simp only [loadKeychain, if_true] at h
    cases hitem : items (account id) with
    | none =>
      rw [hitem] at h
      cases h
    | some bytes =>
      simp only [hitem] at h
      cases hdecode : platform.item.decode bytes with
      | none =>
        rw [hdecode] at h
        cases h
      | some decoded =>
        simp only [hdecode] at h
        cases hkey : decoded.keyArray with
        | error e =>
          rw [hkey] at h
          cases h
        | ok key =>
          rw [hkey] at h
          cases h
          rw [hkey]
          rfl

theorem rememberEndpoint_keychain {items : Items}
    (h : platform.rememberEndpoint outcomes id expectedKey endpoint (.keychain items)
      = (.ok true, backend')) :
    ∃ record bytes, platform.held id (.keychain items) = some record ∧
      record.keyArray.isOk = true ∧
      platform.item.encode (updateRecordEndpoint record endpoint) = some bytes ∧
      backend' = .keychain (Function.update items (account record.id) (some bytes)) := by
  simp only [rememberEndpoint] at h
  cases hload : platform.loadKeychain outcomes.read items id with
  | error e =>
    rw [hload] at h
    cases h
  | ok found =>
    cases found with
    | none =>
      rw [hload] at h
      cases h
    | some record =>
      simp only [hload] at h
      obtain ⟨hheld, hok⟩ := loadKeychain_some hload
      split_ifs at h with hkey
      · cases h
      · simp only [saveKeychain] at h
        cases hencode : platform.item.encode (updateRecordEndpoint record endpoint) with
        | none =>
          rw [hencode] at h
          cases h
        | some bytes =>
          simp only [hencode] at h
          by_cases hwrite : outcomes.write = .ok
          · rw [if_pos hwrite] at h
            have hbackend := (Prod.ext_iff.mp h).2
            exact ⟨record, bytes, hheld, hok, hencode, hbackend.symm⟩
          · rw [if_neg hwrite] at h
            cases h

/-- Each record is held under its own id.  Only the items of a keychain could be elsewhere. -/
def Own (platform : Platform) (backend : StoreBackend) : Prop :=
  ∀ id record, platform.held id backend = some record → record.id = id

theorem own_file (content : Content) : platform.Own (.file content) := by
  intro id record h
  simp only [held] at h
  split at h
  · exact id_of_find? h
  · cases h

theorem own_ephemeral (records : List PairingRecord) : platform.Own (.ephemeral records) :=
  fun _ _ h => id_of_find? h

theorem remembers_keychain (hfaithful : platform.Faithful) {items : Items}
    (hown : platform.Own (.keychain items))
    (h : platform.rememberEndpoint outcomes id expectedKey endpoint (.keychain items)
      = (.ok true, backend')) :
    platform.Remembers id endpoint (.keychain items) backend' ∧ platform.Own backend' := by
  obtain ⟨record, bytes, hrecord, hok, hencode, rfl⟩ := rememberEndpoint_keychain h
  have hid : record.id = id := hown id record hrecord
  obtain ⟨record', hdecode, hsame⟩ := hfaithful.item _ bytes hencode
  rw [hid]
  have hself : platform.held id (.keychain (Function.update items (account id) (some bytes)))
      = some record' := by
    have hkey : record'.keyArray.isOk = true := hsame.keyArray_isOk.trans hok
    simp only [held, loadKeychain, if_true, Function.update_self, hdecode]
    cases harray : record'.keyArray with
    | error e =>
      rw [harray] at hkey
      cases hkey
    | ok _ => rfl
  have hother : ∀ other, other ≠ id →
      platform.held other (.keychain (Function.update items (account id) (some bytes)))
        = platform.held other (.keychain items) := by
    intro other hne
    simp only [held, loadKeychain, Function.update_of_ne (account_injective.ne hne)]
  refine ⟨⟨⟨record, record', hrecord, hsame, hself⟩, ?_⟩, ?_⟩
  · intro other hne r hr
    exact ⟨r, .refl r, (hother other hne).trans hr⟩
  · intro other r hr
    by_cases hne : other = id
    · subst hne
      cases hself.symm.trans hr
      exact hsame.id.trans hid
    · exact hown other r ((hother other hne).symm.trans hr)

/-- **A call that remembers an endpoint does so on every backend.** -/
theorem remembers (hfaithful : platform.Faithful) (hown : platform.Own backend)
    (h : platform.rememberEndpoint outcomes id expectedKey endpoint backend = (.ok true, backend')) :
    platform.Remembers id endpoint backend backend' ∧ platform.Own backend' := by
  cases backend with
  | file content =>
    obtain ⟨_, _, _, _, _, _, _, rfl⟩ := rememberEndpoint_file h
    exact ⟨remembers_file hfaithful h, own_file _⟩
  | keychain items => exact remembers_keychain hfaithful hown h
  | ephemeral records =>
    refine ⟨remembers_ephemeral h, ?_⟩
    simp only [rememberEndpoint] at h
    split_ifs at h with hlock
    · split at h
      · cases h
      · cases h
        exact own_ephemeral _
    · cases h

/-! ### Runs -/

/-- Calls that have remembered an endpoint, and the endpoints of those for the id.  The keys and
the outcomes are those of each call. -/
inductive Remembered (platform : Platform) (id : String) (backend : StoreBackend) :
    List PairingEndpoint → StoreBackend → Prop
  | start : Remembered platform id backend [] backend
  | own {endpoints backend' backend''} (outcomes expectedKey endpoint)
      (before : Remembered platform id backend endpoints backend')
      (call : platform.rememberEndpoint outcomes id expectedKey endpoint backend'
        = (.ok true, backend'')) :
      Remembered platform id backend (endpoints ++ [endpoint]) backend''
  | other {endpoints backend' backend''} (outcomes expectedKey endpoint other) (hother : other ≠ id)
      (before : Remembered platform id backend endpoints backend')
      (call : platform.rememberEndpoint outcomes other expectedKey endpoint backend'
        = (.ok true, backend'')) :
      Remembered platform id backend endpoints backend''

/-- What is known of the record after a run. -/
structure Follows (start : PairingRecord) (endpoints : List PairingEndpoint)
    (record : PairingRecord) : Prop where
  nodup : record.endpoints.Nodup
  used : record.endpoints = endpoints.foldl (Mru.use maxEndpointAliases) start.endpoints
  last : ∀ endpoint ∈ endpoints.getLast?, record.lastEndpoint = some endpoint

theorem Follows.reread {start record record' : PairingRecord} {endpoints : List PairingEndpoint}
    (h : Follows start endpoints record) (hsame : Reread record record') :
    Follows start endpoints record' := by
  have heq : record'.endpoints = record.endpoints := by
    rw [PairingRecord.endpoints, PairingRecord.endpoints, hsame.endpointAliases,
      hsame.lastEndpoint]
  exact ⟨heq ▸ h.nodup, heq.trans h.used, fun e he => hsame.lastEndpoint.trans (h.last e he)⟩

theorem Follows.update {start record : PairingRecord} {endpoints : List PairingEndpoint}
    (h : Follows start endpoints record) (endpoint : PairingEndpoint) :
    Follows start (endpoints ++ [endpoint]) (updateRecordEndpoint record endpoint) := by
  refine ⟨nodup_endpoints_update h.nodup endpoint, ?_, ?_⟩
  · rw [endpoints_update h.nodup, h.used, List.foldl_append]
    rfl
  · intro e he
    rw [List.getLast?_concat] at he
    cases he
    rfl

theorem Remembered.follows (hfaithful : platform.Faithful) (hown : platform.Own backend)
    {start : PairingRecord} (hstart : platform.held id backend = some start)
    (hnodup : start.endpoints.Nodup) {endpoints : List PairingEndpoint}
    (run : Remembered platform id backend endpoints backend') :
    platform.Own backend' ∧
      ∃ record, platform.held id backend' = some record ∧ Follows start endpoints record := by
  induction run with
  | start => exact ⟨hown, start, hstart, hnodup, rfl, fun _ h => absurd h (by simp)⟩
  | own outcomes expectedKey endpoint _ call ih =>
    obtain ⟨hown, record, hrecord, hfollows⟩ := ih
    obtain ⟨hremembers, hown'⟩ := remembers hfaithful hown call
    obtain ⟨held, record', hheld, hsame, hrecord'⟩ := hremembers.own
    cases hrecord.symm.trans hheld
    exact ⟨hown', record', hrecord', (hfollows.update endpoint).reread hsame⟩
  | other outcomes expectedKey endpoint other hother _ call ih =>
    obtain ⟨hown, record, hrecord, hfollows⟩ := ih
    obtain ⟨hremembers, hown'⟩ := remembers hfaithful hown call
    obtain ⟨record', hsame, hrecord'⟩ := hremembers.others id hother.symm record hrecord
    exact ⟨hown', record', hrecord', hfollows.reread hsame⟩

/-- **The latest endpoint is the last one, and the aliases are those used most recently before it,
each once, oldest first.** -/
theorem endpoint_history (hfaithful : platform.Faithful) (hown : platform.Own backend)
    {start : PairingRecord} (hstart : platform.held id backend = some start)
    (hnodup : start.endpoints.Nodup) {endpoints : List PairingEndpoint}
    (run : Remembered platform id backend (endpoints ++ [endpoint]) backend') :
    ∃ record, platform.held id backend' = some record ∧
      record.lastEndpoint = some endpoint ∧
      record.endpointAliases
        = ((start.endpoints ++ endpoints).dedup.filter (· ≠ endpoint)).rtake maxEndpointAliases ∧
      record.endpointAliases.Nodup ∧ endpoint ∉ record.endpointAliases ∧
      record.endpointAliases.length ≤ 16 := by
  obtain ⟨-, record, hrecord, hfollows⟩ := run.follows hfaithful hown hstart hnodup
  have hlast : record.lastEndpoint = some endpoint :=
    hfollows.last endpoint (List.getLast?_concat ..)
  have haliases : record.endpointAliases ++ [endpoint] =
      ((start.endpoints ++ endpoints).dedup.filter (· ≠ endpoint)).rtake maxEndpointAliases
        ++ [endpoint] := by
    calc record.endpointAliases ++ [endpoint]
        = record.endpoints := by rw [PairingRecord.endpoints, hlast]; rfl
      _ = (start.endpoints ++ (endpoints ++ [endpoint])).dedup.rtake (maxEndpointAliases + 1) :=
        hfollows.used.trans (Mru.foldl_use hnodup (by simp))
      _ = _ := by rw [← List.append_assoc, Mru.dedup_concat, List.rtake_concat_succ]
  have halias := List.append_cancel_right haliases
  have hdistinct := hfollows.nodup
  rw [PairingRecord.endpoints, hlast] at hdistinct
  refine ⟨record, hrecord, hlast, halias, hdistinct.of_append_left, ?_, ?_⟩
  · intro hmem
    exact (List.nodup_append.mp hdistinct).2.2 endpoint hmem endpoint
      (List.mem_singleton_self endpoint) rfl
  · rw [halias, Newest.length_rtake]
    exact Nat.min_le_left 16 _

/-! ### A desk that was at home -/

def home : PairingEndpoint := ⟨"192.168.1.2", 7000, 7001⟩

def office : PairingEndpoint := ⟨"10.0.0.5", 7000, 7001⟩

def deskAt (endpoint : PairingEndpoint) (aliases : List PairingEndpoint) : PairingRecord :=
  ⟨"desk", "Desk", List.replicate 32 0, 978307200000, some endpoint, aliases, none, none, .owner⟩

def ascii (text : String) : List UInt8 := text.toList.map fun c => UInt8.ofNat c.toNat

def endpointText (host : String) : List UInt8 :=
  ascii "\x7b\"host\":\"" ++ (ascii host ++ ascii "\",\"tcpPort\":7000,\"udpPort\":7001\x7d")

/-- The text of the desk up to its last endpoint, and the text after its aliases. -/
def deskText (lastHost : String) (aliases : List UInt8) : List UInt8 :=
  ascii "\x7b\"id\":\"desk\",\"name\":\"Desk\"" ++
    (ascii ",\"key\":\"AAAAAAAAAAAAAAAAAAAAAAAAAAAAAAAAAAAAAAAAAAA=\",\"addedAt\":0.0" ++
      (ascii ",\"lastEndpoint\":" ++ (endpointText lastHost ++
        (aliases ++ ascii ",\"trust\":[0,0,0,0,0,0,0,0,0]\x7d"))))

def homeText : List UInt8 := deskText "192.168.1.2" []

def officeText : List UInt8 :=
  deskText "10.0.0.5" (ascii ",\"endpointAliases\":[" ++ endpointText "192.168.1.2" ++ ascii "]")

/-- The JSON form of the two records that occur. -/
def deskItem : RecordJson where
  decode bytes :=
    if bytes = homeText then some (deskAt home [])
    else if bytes = officeText then some (deskAt office [home])
    else none
  encode record :=
    if record = deskAt home [] then some homeText
    else if record = deskAt office [home] then some officeText
    else none

/-- A list of one record, in brackets. -/
def deskList : Json where
  decode bytes :=
    if bytes.head? = some 91 ∧ bytes.getLast? = some 93 then
      (deskItem.decode bytes.tail.dropLast).map fun record => [record]
    else none
  encode
    | [record] => (deskItem.encode record).map fun bytes => 91 :: bytes ++ [93]
    | _ => none

def desk : Platform where
  place := ⟨["MahoRD", "client-pairings.json"], deskList, fun _ => none⟩
  item := deskItem

theorem homeText_ne : officeText ≠ homeText := by
  intro h
  have hlast := List.append_cancel_left (List.append_cancel_left (List.append_cancel_left h))
  rw [endpointText, endpointText, List.append_assoc, List.append_assoc] at hlast
  have hhost := congrArg (fun l => l[1]?) (List.append_cancel_left hlast)
  exact absurd hhost (by decide)

theorem deskItem_decode {record : PairingRecord} {bytes : List UInt8}
    (h : deskItem.encode record = some bytes) : deskItem.decode bytes = some record := by
  simp only [deskItem] at h ⊢
  split_ifs at h with hhome hoffice
  · cases h
    rw [if_pos rfl, hhome]
  · cases h
    rw [if_neg homeText_ne, if_pos rfl, hoffice]

theorem deskList_encode {record : PairingRecord} {bytes : List UInt8}
    (h : deskItem.encode record = some bytes) :
    deskList.encode [record] = some (91 :: bytes ++ [93]) := by
  simp only [deskList, h, Option.map_some]

theorem deskList_decode {record : PairingRecord} {bytes : List UInt8}
    (h : deskItem.encode record = some bytes) :
    deskList.decode (91 :: bytes ++ [93]) = some [record] := by
  have hbrackets : (91 :: bytes ++ [93]).head? = some 91 ∧
      (91 :: bytes ++ [93]).getLast? = some 93 := ⟨rfl, List.getLast?_concat ..⟩
  simp only [deskList]
  rw [if_pos hbrackets, List.cons_append, List.tail_cons, List.dropLast_concat, deskItem_decode h]
  rfl

theorem desk_faithful : desk.Faithful := by
  constructor
  · intro records bytes h
    match records, h with
    | [record], h =>
      obtain ⟨bytes, hbytes, rfl⟩ := Option.map_eq_some_iff.mp h
      exact ⟨[record], deskList_decode hbytes, .cons (.refl record) .nil⟩
  · intro record bytes h
    exact ⟨record, deskItem_decode h, .refl record⟩

theorem encode_home : deskItem.encode (deskAt home []) = some homeText := by
  simp only [deskItem]
  rw [if_pos trivial]

theorem encode_office : deskItem.encode (deskAt office [home]) = some officeText := by
  simp only [deskItem]
  rw [if_neg (by decide), if_pos trivial]

theorem endpoint_history_office :
    ∃ record, desk.held "desk" (.file (some (91 :: officeText ++ [93]))) = some record ∧
      record.lastEndpoint = some office ∧
      record.endpointAliases
        = ((([home] : List PairingEndpoint) ++ []).dedup.filter (· ≠ office)).rtake
            maxEndpointAliases ∧
      record.endpointAliases.Nodup ∧ office ∉ record.endpointAliases ∧
      record.endpointAliases.length ≤ 16 := by
  have hparse : desk.place.parse (91 :: homeText ++ [93]) = .ok [deskAt home []] := by
    rw [Place.parse, show desk.place.json = deskList from rfl, deskList_decode encode_home]
    rfl
  have hload := loadAll_some Outcomes.allOk rfl hparse
  have hstart := (held_file (congrArg Prod.fst hload) "desk").trans (by rfl)
  have hwrite := deskList_encode encode_office
  have hrecords : rememberIn "desk" (List.replicate 32 0) office [deskAt home []]
      = some [deskAt office [home]] := by
    decide
  exact endpoint_history desk_faithful (own_file _) hstart (by decide)
    (.own .allOk _ office .start (rememberEndpoint_allOk hload hrecords hwrite))

end Platform

end MahoRD.ClientPairing
