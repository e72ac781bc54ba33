/-
MahoRD/App/TrustUpdate.lean

How a handshake records the trust that the host has granted (`begin_handshake_with_trust` in
`maho-app/src/session.rs`), while others save, delete and remember on the same store.

A reconnect loads the record and saves it with the granted trust, each under a lock of its own.
What it should amount to is one update of the trust alone (`Ideal`).  The store then has exactly the
ideal records, as long as each update still finds what it has loaded (`trust_recorded`).

Every call succeeds unless a key has the wrong length, and each is atomic.
-/
import MahoRD.App.AddedAt
import MahoRD.App.NewestPairing

namespace MahoRD.ClientPairing

/-! ### The handshake -/

/-- What a handshake does with the store, once the host has answered. -/
inductive StoreUse
  | nothing
  | save (record : PairingRecord)
  | recordTrust (id : String) (trust : PairingTrust)

/-- There is a grant if trust has been negotiated, and a preference in a fresh bootstrap. -/
def storeUse (pairing : PairingRecord) (preference grant : Option PairingTrust) : StoreUse :=
  let pairing :=
    match grant with
    | some trust => { pairing with trust }
    | none => pairing
  if pairing.trust ≠ .guestOnce then
    if preference.isSome then .save pairing
    else if grant.isSome then .recordTrust pairing.id pairing.trust
    else .nothing
  else .nothing

/-- A handshake between its `load` and its `save`. -/
structure Pending where
  id : String
  trust : PairingTrust
  loaded : Option PairingRecord

/-- The record that it saves, if the trust is another one. -/
def Pending.saved (pending : Pending) : Option PairingRecord :=
  pending.loaded.bind fun stored =>
    if stored.trust ≠ pending.trust then some { stored with trust := pending.trust } else none

inductive Event
  | save (record : PairingRecord)
  | delete (id : String)
  | rememberEndpoint (id : String) (expectedKey : List UInt8) (endpoint : PairingEndpoint)
  /-- The host has answered a handshake. -/
  | answered (handshake : ℕ) (pairing : PairingRecord) (preference grant : Option PairingTrust)
  /-- What a handshake has loaded is saved. -/
  | recorded (handshake : ℕ)

/-- The store, and the handshakes that have loaded a record. -/
structure Client where
  backend : StoreBackend
  pending : ℕ → Option Pending

namespace Client

variable (platform : Platform)

def save (record : PairingRecord) (client : Client) : Client :=
  { client with backend := (platform.save record client.backend).2 }

def answer (handshake : ℕ) (client : Client) : StoreUse → Client
  | .nothing => client
  | .save record => client.save platform record
  | .recordTrust id trust =>
    { client with
      pending := Function.update client.pending handshake
        (some ⟨id, trust, platform.held id client.backend⟩) }

def step (client : Client) : Event → Client
  | .save record => client.save platform record
  | .delete id => { client with backend := (platform.delete id client.backend).2 }
  | .rememberEndpoint id expectedKey endpoint =>
    { client with
      backend := (platform.rememberEndpoint .allOk id expectedKey endpoint client.backend).2 }
  | .answered handshake pairing preference grant =>
    client.answer platform handshake (storeUse pairing preference grant)
  | .recorded handshake =>
    match client.pending handshake with
    | none => client
    | some pending =>
      let client :=
        { client with pending := Function.update client.pending handshake none }
      match pending.saved with
      | none => client
      | some record => client.save platform record

def run (backend : StoreBackend) (events : List Event) : Client :=
  events.foldl (step platform) ⟨backend, fun _ => none⟩

end Client

/-! ### One update of the trust -/

/-- The records by their ids. -/
abbrev Records := String → Option PairingRecord

namespace Records

def save (records : Records) (record : PairingRecord) : Records :=
  if record.keyArray.isOk then Function.update records record.id (some record) else records

def delete (records : Records) (id : String) : Records := Function.update records id none

def rememberEndpoint (records : Records) (id : String) (expectedKey : List UInt8)
    (endpoint : PairingEndpoint) : Records :=
  Function.update records id ((records id).map fun record =>
    if record.key = expectedKey then updateRecordEndpoint record endpoint else record)

def setTrust (records : Records) (id : String) (trust : PairingTrust) : Records :=
  Function.update records id ((records id).map fun record => { record with trust })

end Records

/-- Trust is recorded at once.  `granted` is what the last handshake on a pairing was granted. -/
structure Ideal where
  records : Records
  granted : String → Option PairingTrust
  pending : ℕ → Option (String × PairingTrust)

namespace Ideal

/-- A record is saved with what has been granted for it. -/
def save (ideal : Ideal) (record : PairingRecord) : Ideal :=
  { ideal with
    records := ideal.records.save record
    granted :=
      if record.keyArray.isOk then Function.update ideal.granted record.id (some record.trust)
      else ideal.granted }

def answer (handshake : ℕ) (ideal : Ideal) : StoreUse → Ideal
  | .nothing => ideal
  | .save record => ideal.save record
  | .recordTrust id trust =>
    { ideal with pending := Function.update ideal.pending handshake (some (id, trust)) }

def step (ideal : Ideal) : Event → Ideal
  | .save record => ideal.save record
  | .delete id => { ideal with records := ideal.records.delete id }
  | .rememberEndpoint id expectedKey endpoint =>
    { ideal with records := ideal.records.rememberEndpoint id expectedKey endpoint }
  | .answered handshake pairing preference grant =>
    ideal.answer handshake (storeUse pairing preference grant)
  | .recorded handshake =>
    match ideal.pending handshake with
    | none => ideal
    | some (id, trust) =>
      { records := ideal.records.setTrust id trust
        granted := Function.update ideal.granted id (some trust)
        pending := Function.update ideal.pending handshake none }

def run (records : Records) (events : List Event) : Ideal :=
  events.foldl step ⟨records, fun id => (records id).map (·.trust), fun _ => none⟩

end Ideal

/-! ### What a store has -/

def StoreBackend.isJson : StoreBackend → Bool
  | .ephemeral _ => false
  | _ => true

/-- A trust that can be encoded. -/
def Encodable (trust : PairingTrust) : Prop := trust ≠ .guestExpiring 0

/-- JSON can tell the time and the trust. -/
structure PairingRecord.Told (record : PairingRecord) : Prop where
  time : record.addedAtUnixMs.toNat ≤ AddedAt.lastReadable
  trust : Encodable record.trust

/-- The key has its length, and JSON can tell the rest. -/
structure PairingRecord.Readable (json : Bool) (record : PairingRecord) : Prop where
  key : record.keyArray.isOk = true
  told : json = true → record.Told

/-- JSON tells readable records. -/
structure Platform.Exact (platform : Platform) : Prop where
  file : ∀ records : List PairingRecord, (∀ r ∈ records, r.Readable true) →
    ∃ bytes, platform.place.json.encode records = some bytes ∧
      platform.place.json.decode bytes = some records
  item : ∀ record : PairingRecord, record.Readable true →
    ∃ bytes, platform.item.encode record = some bytes ∧ platform.item.decode bytes = some record

/-- JSON is needed on a file and in a keychain. -/
def Platform.ExactOn (platform : Platform) (backend : StoreBackend) : Prop :=
  backend.isJson = true → platform.Exact

/-- A list has the records, each where a search for its id finds it. -/
structure Has (json : Bool) (records : Records) (loaded : List PairingRecord) : Prop where
  readable : ∀ r ∈ loaded, r.Readable json
  find : ∀ id, loaded.find? (·.id = id) = records id

def Platform.Holds (platform : Platform) (records : Records) : StoreBackend → Prop
  | .file content => ∃ loaded, (platform.place.loadAll .allOk content).1 = .ok loaded ∧
      Has true records loaded
  | .keychain items => ∀ id, platform.loadKeychain true items id = .ok (records id) ∧
      ∀ r, records id = some r → r.Readable true ∧ r.id = id
  | .ephemeral loaded => Has false records loaded

/-- What is saved for the first time, and what has been granted, can be told. -/
def Event.Told : Event → Prop
  | .save record => record.Told
  | .answered _ pairing _ grant => pairing.Told ∧ ∀ trust, grant = some trust → Encodable trust
  | _ => True

/-- A handshake that saves finds what it has loaded, but for the trust; one that does not save finds
no other trust. -/
def Client.Meets (platform : Platform) (client : Client) : Event → Prop
  | .recorded handshake => ∀ pending, client.pending handshake = some pending →
      match pending.saved with
      | some record => ∃ current, platform.held pending.id client.backend = some current ∧
          record = { current with trust := pending.trust }
      | none => ∀ current, platform.held pending.id client.backend = some current →
          current.trust = pending.trust
  | _ => True

/-! ### Records in a list -/

section Lists

variable {loaded rewritten : List PairingRecord} {records : Records} {json : Bool}

theorem find?_without (id other : String) :
    (loaded.filter fun r => r.id ≠ other).find? (·.id = id) =
      if id = other then none else loaded.find? (·.id = id) := by
  rw [List.find?_filter]
  split_ifs with h
  · rw [List.find?_eq_none]
    intro r _
    simp [h]
  · congr
    funext r
    by_cases hr : r.id = id
    · simp [hr, h]
    · simp [hr]

theorem Has.delete (h : Has json records loaded) (id : String) :
    Has json (records.delete id) (loaded.filter fun r => r.id ≠ id) := by
  refine ⟨fun r hr => h.readable r (List.mem_filter.mp hr).1, fun other => ?_⟩
  rw [find?_without, h.find, Records.delete, Function.update_apply]

theorem Has.save (h : Has json records loaded) {record : PairingRecord}
    (hrecord : record.Readable json) :
    Has json (records.save record) ((loaded.filter fun r => r.id ≠ record.id) ++ [record]) := by
  refine ⟨fun r hr => ?_, fun id => ?_⟩
  · rcases List.mem_append.mp hr with hr | hr
    · exact h.readable r (List.mem_filter.mp hr).1
    · rw [List.mem_singleton.mp hr]
      exact hrecord
  · rw [List.find?_append, find?_without, h.find, Records.save, if_pos hrecord.key,
      Function.update_apply]
    by_cases hid : id = record.id
    · rw [if_pos hid, if_pos hid, Option.none_or, hid]
      exact List.find?_cons_of_pos (decide_eq_true rfl)
    · rw [if_neg hid, if_neg hid, List.find?_cons_of_neg (by simpa using Ne.symm hid), List.find?_nil,
        Option.or_none]

theorem Readable_update {record : PairingRecord} (h : record.Readable json)
    (endpoint : PairingEndpoint) : (updateRecordEndpoint record endpoint).Readable json :=
  ⟨h.key, fun hjson => ⟨(h.told hjson).time, (h.told hjson).trust⟩⟩

variable {id : String} {expectedKey : List UInt8} {endpoint : PairingEndpoint}

theorem rememberIn_eq_none_iff :
    rememberIn id expectedKey endpoint loaded = none ↔
      ∀ r, loaded.find? (·.id = id) = some r → r.key ≠ expectedKey := by
  induction loaded with
  | nil => exact iff_of_true rfl fun r hr => (nomatch hr)
  | cons a loaded ih =>
    rw [rememberIn]
    by_cases hid : a.id = id
    · have hfind : (a :: loaded).find? (·.id = id) = some a :=
        List.find?_cons_of_pos (decide_eq_true hid)
      rw [if_pos hid, hfind]
      by_cases hkey : a.key = expectedKey
      · rw [if_pos hkey]
        exact iff_of_false (Option.some_ne_none _) fun h => h a rfl hkey
      · rw [if_neg hkey]
        refine iff_of_true rfl fun r hr => ?_
        cases hr
        exact hkey
    · rw [if_neg hid, List.find?_cons_of_neg (by simpa using hid), Option.map_eq_none_iff, ih]

theorem mem_rememberIn (h : rememberIn id expectedKey endpoint loaded = some rewritten)
    {r : PairingRecord} (hr : r ∈ rewritten) :
    r ∈ loaded ∨ ∃ old ∈ loaded, r = updateRecordEndpoint old endpoint := by
  induction loaded generalizing rewritten with
  | nil => cases h
  | cons a loaded ih =>
    rw [rememberIn] at h
    split_ifs at h with hid hkey
    · cases h
      rcases List.mem_cons.mp hr with rfl | hr
      · exact .inr ⟨a, List.mem_cons_self, rfl⟩
      · exact .inl (List.mem_cons_of_mem a hr)
    · obtain ⟨rest, hrest, rfl⟩ := Option.map_eq_some_iff.mp h
      rcases List.mem_cons.mp hr with rfl | hr
      · exact .inl List.mem_cons_self
      · rcases ih hrest hr with hmem | ⟨old, hmem, hold⟩
        · exact .inl (List.mem_cons_of_mem a hmem)
        · exact .inr ⟨old, List.mem_cons_of_mem a hmem, hold⟩

theorem Has.remember (h : Has json records loaded)
    (hrewritten : rememberIn id expectedKey endpoint loaded = some rewritten) :
    Has json (records.rememberEndpoint id expectedKey endpoint) rewritten := by
  obtain ⟨record, hrecord, hrecord'⟩ := find?_rememberIn hrewritten
  have hkey : record.key = expectedKey := by
    by_contra hkey
    have hnone := (@rememberIn_eq_none_iff loaded id expectedKey endpoint).mpr
      fun r hr => by
        cases hrecord.symm.trans hr
        exact hkey
    cases hnone.symm.trans hrewritten
  refine ⟨fun r hr => ?_, fun other => ?_⟩
  · rcases mem_rememberIn hrewritten hr with hmem | ⟨old, hmem, rfl⟩
    · exact h.readable r hmem
    · exact Readable_update (h.readable old hmem) endpoint
  · rw [Records.rememberEndpoint, Function.update_apply, ← h.find id, hrecord]
    by_cases hother : other = id
    · rw [if_pos hother, hother, hrecord', Option.map_some, if_pos hkey]
    · rw [if_neg hother, find?_rememberIn_ne hrewritten hother, h.find]

theorem Has.not_remember (h : Has json records loaded)
    (hrewritten : rememberIn id expectedKey endpoint loaded = none) :
    records.rememberEndpoint id expectedKey endpoint = records := by
  rw [Records.rememberEndpoint]
  apply Function.update_eq_self_iff.mpr
  cases hrecord : records id with
  | none => rfl
  | some record =>
    have hkey := rememberIn_eq_none_iff.mp hrewritten record ((h.find id).trans hrecord)
    rw [Option.map_some, if_neg hkey]

end Lists

/-! ### The backends -/

section Backends

variable {platform : Platform} {records : Records} {backend : StoreBackend}

theorem held_of_holds (h : platform.Holds records backend) (id : String) :
    platform.held id backend = records id := by
  cases backend with
  | file content =>
    obtain ⟨loaded, hload, hhas⟩ := h
    rw [Platform.held_file hload, hhas.find]
  | keychain items =>
    simp only [Platform.held, (h id).1]
  | ephemeral loaded => exact h.find id

theorem readable_of_holds (h : platform.Holds records backend) {id : String}
    {record : PairingRecord} (hrecord : records id = some record) :
    record.Readable backend.isJson ∧ record.id = id := by
  cases backend with
  | file content =>
    obtain ⟨loaded, -, hhas⟩ := h
    have hfind := (hhas.find id).trans hrecord
    exact ⟨hhas.readable record (List.mem_of_find?_eq_some hfind), id_of_find? hfind⟩
  | keychain items => exact (h id).2 record hrecord
  | ephemeral loaded =>
    have hfind := (h.find id).trans hrecord
    exact ⟨h.readable record (List.mem_of_find?_eq_some hfind), id_of_find? hfind⟩

theorem write_exact (hexact : platform.Exact) {loaded : List PairingRecord}
    (hreadable : ∀ r ∈ loaded, r.Readable true) (content : Content) :
    ∃ bytes, platform.place.writeRecords .ok loaded content = (.ok (), some bytes) ∧
      (platform.place.loadAll .allOk (some bytes)).1 = .ok loaded := by
  obtain ⟨bytes, hencode, hdecode⟩ := hexact.file loaded hreadable
  refine ⟨bytes, by simp only [Place.writeRecords, hencode], ?_⟩
  have hall : ∀ r ∈ loaded, r.keyArray.isOk = true := fun r hr => (hreadable r hr).key
  have hparse : platform.place.parse bytes = .ok loaded := by
    simp only [Place.parse, hdecode, List.filter_eq_self.mpr hall]
  exact congrArg Prod.fst (Platform.loadAll_some Outcomes.allOk rfl hparse)

theorem loadAll_again (hexact : platform.Exact) {content : Content} {loaded : List PairingRecord}
    (hload : (platform.place.loadAll .allOk content).1 = .ok loaded)
    (hreadable : ∀ r ∈ loaded, r.Readable true) :
    (platform.place.loadAll .allOk (platform.place.loadAll .allOk content).2).1 = .ok loaded := by
  cases content with
  | some bytes => exact hload
  | none =>
    cases hfound : platform.place.migration with
    | error e =>
      simp only [Place.loadAll, Place.migrate, hfound] at hload
      cases hload
    | ok found =>
      cases found with
      | none =>
        have hsame : (platform.place.loadAll .allOk none).2 = none := by
          simp only [Place.loadAll, Place.migrate, hfound]
        rw [hsame]
        exact hload
      | some legacy =>
        simp only [Place.loadAll, Place.migrate, hfound] at hload ⊢
        cases hwrite : (platform.place.writeRecords Outcomes.allOk.migration legacy none).1 with
        | error e =>
          rw [hwrite] at hload
          cases hload
        | ok u =>
          rw [hwrite] at hload
          cases hload
          obtain ⟨bytes, hbytes, hagain⟩ := write_exact hexact hreadable none
          have hmigrated : (platform.place.writeRecords Outcomes.allOk.migration legacy none).2 =
              some bytes := congrArg Prod.snd hbytes
          rw [hmigrated]
          exact hagain

theorem call_exact (hexact : platform.Exact) (request : Request) {content : Content}
    {loaded : List PairingRecord} (hpre : request.precheck = .ok ())
    (hload : (platform.place.loadAll .allOk content).1 = .ok loaded)
    (hreadable : ∀ r ∈ (request.rewrite loaded).getD loaded, r.Readable true) :
    ∃ answer content', (⟨request, .allOk⟩ : Call).alone platform.place content =
        (.ok answer, content') ∧
      (platform.place.loadAll .allOk content').1 = .ok ((request.rewrite loaded).getD loaded) := by
  have hpair : platform.place.loadAll .allOk content =
      (.ok loaded, (platform.place.loadAll .allOk content).2) := Prod.ext hload rfl
  have hlock : (request.locks && !Outcomes.allOk.lock) = false := Bool.and_false _
  simp only [Call.alone, hpre, hlock, Bool.false_eq_true, if_false]
  rw [hpair]
  cases hrewrite : request.rewrite loaded with
  | none =>
    rw [hrewrite] at hreadable
    simp only [Call.onLoaded, hrewrite]
    exact ⟨_, _, rfl, loadAll_again hexact hload hreadable⟩
  | some rewritten =>
    rw [hrewrite, Option.getD_some] at hreadable
    obtain ⟨bytes, hwrite, hagain⟩ := write_exact hexact hreadable
      (platform.place.loadAll .allOk content).2
    refine ⟨request.reply loaded, some bytes, ?_, hagain⟩
    simp only [Call.onLoaded, hrewrite]
    show ((platform.place.writeRecords .ok rewritten _).1.map _,
      (platform.place.writeRecords .ok rewritten _).2) = _
    rw [hwrite]
    rfl

theorem loadKeychain_update (items : Items) (id other : String) (bytes : Option (List UInt8)) :
    platform.loadKeychain true (Function.update items (account id) bytes) other =
      if other = id then platform.loadKeychain true (fun _ => bytes) id
      else platform.loadKeychain true items other := by
  split_ifs with h
  · rw [h, Platform.loadKeychain, Platform.loadKeychain, Function.update_self]
  · rw [Platform.loadKeychain, Platform.loadKeychain,
      Function.update_of_ne (Platform.account_injective.ne h)]

theorem loadKeychain_item {record : PairingRecord} {bytes : List UInt8}
    (hreadable : record.Readable true) (hdecode : platform.item.decode bytes = some record)
    (id : String) : platform.loadKeychain true (fun _ => some bytes) id = .ok (some record) := by
  have hkey := hreadable.key
  simp only [Platform.loadKeychain, if_true, hdecode]
  cases harray : record.keyArray with
  | error e =>
    rw [harray] at hkey
    cases hkey
  | ok key => rfl

theorem holds_item (hexact : platform.Exact) {items : Items} (h : platform.Holds records (.keychain items))
    {record : PairingRecord} (hreadable : record.Readable true) :
    ∃ bytes, platform.item.encode record = some bytes ∧
      platform.Holds (Function.update records record.id (some record))
        (.keychain (Function.update items (account record.id) (some bytes))) := by
  obtain ⟨bytes, hencode, hdecode⟩ := hexact.item record hreadable
  refine ⟨bytes, hencode, fun id => ?_⟩
  rw [loadKeychain_update, Function.update_apply]
  split_ifs with hid
  · rw [loadKeychain_item hreadable hdecode]
    refine ⟨rfl, fun r hr => ?_⟩
    cases hr
    exact ⟨hreadable, hid.symm⟩
  · exact h id

/-! ### The calls -/

theorem holds_save (hexact : platform.ExactOn backend) (h : platform.Holds records backend)
    {record : PairingRecord} (htold : backend.isJson = true → record.Told) :
    platform.Holds (records.save record) (platform.save record backend).2 := by
  by_cases hkey : record.keyArray.isOk
  · have haccepted : accepted (.save record) = true := hkey
    obtain ⟨key, harray⟩ := keyArray_of_accepted haccepted
    have hreadable : record.Readable backend.isJson := ⟨hkey, htold⟩
    cases backend with
    | file content =>
      obtain ⟨loaded, hload, hhas⟩ := h
      have hpre : (Request.save record).precheck = .ok () := by
        rw [Request.precheck, harray]
        rfl
      have hsaved := hhas.save hreadable
      obtain ⟨answer, content', hcall, hagain⟩ :=
        call_exact (hexact rfl) (.save record) hpre hload hsaved.readable
      have hsave : (platform.save record (.file content)).2 = .file content' := by
        simp only [Platform.save, hcall]
      rw [hsave]
      exact ⟨_, hagain, hsaved⟩
    | keychain items =>
      obtain ⟨bytes, hencode, hholds⟩ := holds_item (hexact rfl) h hreadable
      rw [Records.save, if_pos hkey]
      simp only [Platform.save, harray, Platform.saveKeychain, hencode, if_true]
      exact hholds
    | ephemeral loaded =>
      simp only [Platform.save, harray]
      exact Has.save h hreadable
  · have hrejected : ¬ accepted (.save record) = true := hkey
    have hsame : (platform.save record backend).2 = backend := step_rejected hrejected backend
    rw [hsame, Records.save, if_neg hkey]
    exact h

theorem holds_delete (hexact : platform.ExactOn backend) (h : platform.Holds records backend)
    (id : String) : platform.Holds (records.delete id) (platform.delete id backend).2 := by
  cases backend with
  | file content =>
    obtain ⟨loaded, hload, hhas⟩ := h
    have hdeleted := hhas.delete id
    obtain ⟨answer, content', hcall, hagain⟩ :=
      call_exact (hexact rfl) (.delete id) rfl hload hdeleted.readable
    have hdelete : (platform.delete id (.file content)).2 = .file content' := by
      simp only [Platform.delete, hcall]
    rw [hdelete]
    exact ⟨_, hagain, hdeleted⟩
  | keychain items =>
    intro other
    show platform.loadKeychain true (Function.update items (account id) none) other = _ ∧ _
    rw [loadKeychain_update, Records.delete, Function.update_apply]
    split_ifs with hother
    · exact ⟨rfl, by rintro r ⟨⟩⟩
    · exact h other
  | ephemeral loaded => exact Has.delete h id

theorem holds_remember (hexact : platform.ExactOn backend) (h : platform.Holds records backend)
    (id : String) (expectedKey : List UInt8) (endpoint : PairingEndpoint) :
    platform.Holds (records.rememberEndpoint id expectedKey endpoint)
      (platform.rememberEndpoint .allOk id expectedKey endpoint backend).2 := by
  cases backend with
  | file content =>
    obtain ⟨loaded, hload, hhas⟩ := h
    have hremembered : Has true (records.rememberEndpoint id expectedKey endpoint)
        (((Request.rememberEndpoint id expectedKey endpoint).rewrite loaded).getD loaded) := by
      cases hrewrite : (Request.rememberEndpoint id expectedKey endpoint).rewrite loaded with
      | none =>
        rw [hhas.not_remember hrewrite]
        exact hhas
      | some rewritten => exact hhas.remember hrewrite
    obtain ⟨answer, content', hcall, hagain⟩ := call_exact (hexact rfl)
      (.rememberEndpoint id expectedKey endpoint) rfl hload hremembered.readable
    have hstep : (platform.rememberEndpoint .allOk id expectedKey endpoint (.file content)).2 =
        .file content' := by
      simp only [Platform.rememberEndpoint, hcall]
    rw [hstep]
    exact ⟨_, hagain, hremembered⟩
  | keychain items =>
    have hload := (h id).1
    have hsame : records id = none ∨ (∃ r, records id = some r ∧ r.key ≠ expectedKey) →
        records.rememberEndpoint id expectedKey endpoint = records := by
      intro hnot
      rw [Records.rememberEndpoint]
      apply Function.update_eq_self_iff.mpr
      rcases hnot with hnone | ⟨r, hr, hkey⟩
      · rw [hnone, Option.map_none]
      · rw [hr, Option.map_some, if_neg hkey]
    cases hrecord : records id with
    | none =>
      rw [hrecord] at hload
      rw [hsame (.inl hrecord)]
      simp only [Platform.rememberEndpoint, Outcomes.allOk, hload]
      exact h
    | some record =>
      rw [hrecord] at hload
      by_cases hkey : record.key = expectedKey
      · obtain ⟨hreadable, hid⟩ := (h id).2 record hrecord
        obtain ⟨bytes, hencode, hholds⟩ :=
          holds_item (hexact rfl) h (Readable_update hreadable endpoint)
        have hremembered : records.rememberEndpoint id expectedKey endpoint =
            Function.update records record.id (some (updateRecordEndpoint record endpoint)) := by
          rw [Records.rememberEndpoint, hrecord, Option.map_some, if_pos hkey, hid]
        rw [hremembered]
        simp only [Platform.rememberEndpoint, Outcomes.allOk, hload, ne_eq, hkey, not_true,
          if_false, Platform.saveKeychain, hencode, if_true]
        exact hholds
      · rw [hsame (.inr ⟨record, hrecord, hkey⟩)]
        simp only [Platform.rememberEndpoint, Outcomes.allOk, hload, ne_eq, hkey, not_false_eq_true,
          if_true]
        exact h
  | ephemeral loaded =>
    simp only [Platform.rememberEndpoint, Outcomes.allOk, if_true]
    cases hrewrite : rememberIn id expectedKey endpoint loaded with
    | none =>
      rw [Has.not_remember h hrewrite]
      exact h
    | some rewritten => exact Has.remember h hrewrite

theorem isJson_save (record : PairingRecord) (backend : StoreBackend) :
    (platform.save record backend).2.isJson = backend.isJson := by
  cases backend <;> rw [Platform.save] <;> split <;> rfl

theorem isJson_delete (id : String) (backend : StoreBackend) :
    (platform.delete id backend).2.isJson = backend.isJson := by
  cases backend with
  | file content =>
    rw [Platform.delete]
    split <;> rfl
  | keychain items => rfl
  | ephemeral loaded => rfl

theorem isJson_remember (id : String) (expectedKey : List UInt8) (endpoint : PairingEndpoint)
    (backend : StoreBackend) :
    (platform.rememberEndpoint .allOk id expectedKey endpoint backend).2.isJson =
      backend.isJson := by
  cases backend with
  | file content =>
    simp only [Platform.rememberEndpoint]
    split <;> rfl
  | keychain items =>
    simp only [Platform.rememberEndpoint]
    split
    · rfl
    · rfl
    · split
      · rfl
      · split <;> rfl
  | ephemeral loaded =>
    simp only [Platform.rememberEndpoint, Outcomes.allOk, if_true]
    split <;> rfl

end Backends

/-! ### Against the ideal -/

section Simulation

variable {platform : Platform} {json : Bool} {client : Client} {ideal : Ideal}

/-- The store has the ideal records, and each of them has the trust that was granted last. -/
structure Simulates (platform : Platform) (json : Bool) (client : Client) (ideal : Ideal) : Prop where
  kind : client.backend.isJson = json
  holds : platform.Holds ideal.records client.backend
  pending : ∀ handshake, (client.pending handshake).map (fun p => (p.id, p.trust)) =
    ideal.pending handshake
  told : ∀ handshake pending, client.pending handshake = some pending → json = true →
    Encodable pending.trust
  granted : ∀ id r, ideal.records id = some r → ideal.granted id = some r.trust

theorem Simulates.exactOn (h : Simulates platform json client ideal)
    (hexact : json = true → platform.Exact) : platform.ExactOn client.backend :=
  fun hjson => hexact (h.kind ▸ hjson)

theorem Simulates.save (h : Simulates platform json client ideal)
    (hexact : json = true → platform.Exact) {record : PairingRecord}
    (htold : json = true → record.Told) :
    Simulates platform json (client.save platform record) (ideal.save record) := by
  refine ⟨(isJson_save record client.backend).trans h.kind, ?_, h.pending, h.told, ?_⟩
  · exact holds_save (h.exactOn hexact) h.holds fun hjson => htold (h.kind ▸ hjson)
  · intro id r hr
    simp only [Ideal.save, Records.save] at hr ⊢
    split_ifs at hr ⊢
    · rw [Function.update_apply] at hr ⊢
      split_ifs at hr ⊢
      · cases hr
        rfl
      · exact h.granted id r hr
    · exact h.granted id r hr

theorem storeUse_told {pairing : PairingRecord} {preference grant : Option PairingTrust}
    (htold : (Event.answered handshake pairing preference grant).Told) :
    (∀ record, storeUse pairing preference grant = .save record → record.Told) ∧
      (∀ id trust, storeUse pairing preference grant = .recordTrust id trust → Encodable trust) := by
  obtain ⟨hpairing, hgrant⟩ := htold
  unfold storeUse
  cases grant with
  | none =>
    refine ⟨fun record h => ?_, fun id trust h => ?_⟩
    · simp only at h
      split_ifs at h
      cases h
      exact hpairing
    · simp only at h
      split_ifs at h
      · rename_i hgranted
        cases hgranted
  | some granted =>
    have hencodable := hgrant granted rfl
    refine ⟨fun record h => ?_, fun id trust h => ?_⟩
    · simp only at h
      split_ifs at h
      all_goals
        cases h
        try exact ⟨hpairing.time, hencodable⟩
    · simp only at h
      split_ifs at h
      cases h
      exact hencodable

theorem Simulates.answer (h : Simulates platform json client ideal)
    (hexact : json = true → platform.Exact) {handshake : ℕ} {use : StoreUse}
    (hsave : ∀ record, use = .save record → json = true → record.Told)
    (hrecord : ∀ id trust, use = .recordTrust id trust → json = true → Encodable trust) :
    Simulates platform json (client.answer platform handshake use) (ideal.answer handshake use) := by
  cases use with
  | nothing => exact h
  | save record => exact h.save hexact (hsave record rfl)
  | recordTrust id trust =>
    refine ⟨h.kind, h.holds, fun other => ?_, fun other pending hpending hjson => ?_, h.granted⟩
    · simp only [Client.answer, Ideal.answer, Function.update_apply]
      split_ifs
      · rfl
      · exact h.pending other
    · simp only [Client.answer, Function.update_apply] at hpending
      split_ifs at hpending
      · cases hpending
        exact hrecord id trust rfl hjson
      · exact h.told other pending hpending hjson

theorem Simulates.forget (h : Simulates platform json client ideal) (handshake : ℕ) :
    Simulates platform json
      { client with pending := Function.update client.pending handshake none }
      { ideal with pending := Function.update ideal.pending handshake none } := by
  refine ⟨h.kind, h.holds, fun other => ?_, fun other pending hpending => ?_, h.granted⟩
  · simp only [Function.update_apply]
    split_ifs
    · rfl
    · exact h.pending other
  · simp only [Function.update_apply] at hpending
    split_ifs at hpending
    exact h.told other pending hpending

theorem Simulates.recorded (h : Simulates platform json client ideal)
    (hexact : json = true → platform.Exact) {handshake : ℕ}
    (hmeets : client.Meets platform (.recorded handshake)) :
    Simulates platform json (client.step platform (.recorded handshake))
      (ideal.step (.recorded handshake)) := by
  rw [Client.step, Ideal.step, ← h.pending handshake]
  cases hpending : client.pending handshake with
  | none => exact h
  | some pending =>
    have hforgotten := h.forget handshake
    have hmeets' := hmeets pending hpending
    have hheld := held_of_holds h.holds pending.id
    rw [hheld] at hmeets'
    -- the last trust that was granted is the one that the record gets
    have hgranted : ∀ records : Records, records = ideal.records.setTrust pending.id pending.trust →
        ∀ id r, records id = some r →
          Function.update ideal.granted pending.id (some pending.trust) id = some r.trust := by
      rintro records rfl id r hr
      rw [Records.setTrust, Function.update_apply] at hr
      rw [Function.update_apply]
      split_ifs at hr ⊢
      · obtain ⟨old, -, rfl⟩ := Option.map_eq_some_iff.mp hr
        rfl
      · exact h.granted id r hr
    simp only [Option.map_some]
    cases hsaved : pending.saved with
    | none =>
      rw [hsaved] at hmeets'
      have hsame : ideal.records.setTrust pending.id pending.trust = ideal.records := by
        rw [Records.setTrust]
        apply Function.update_eq_self_iff.mpr
        cases hcurrent : ideal.records pending.id with
        | none => rfl
        | some current =>
          rw [Option.map_some, ← hmeets' current hcurrent]
      refine ⟨hforgotten.kind, ?_, hforgotten.pending, hforgotten.told, hgranted _ rfl⟩
      show platform.Holds (ideal.records.setTrust pending.id pending.trust) client.backend
      rw [hsame]
      exact h.holds
    | some record =>
      rw [hsaved] at hmeets'
      obtain ⟨current, hcurrent, rfl⟩ := hmeets'
      obtain ⟨hreadable, hid⟩ := readable_of_holds h.holds hcurrent
      rw [h.kind] at hreadable
      have htold : json = true → ({ current with trust := pending.trust } : PairingRecord).Told :=
        fun hjson => ⟨(hreadable.told hjson).time, h.told handshake pending hpending hjson⟩
      have hkey : ({ current with trust := pending.trust } : PairingRecord).keyArray.isOk = true :=
        hreadable.key
      have hset : ideal.records.save { current with trust := pending.trust } =
          ideal.records.setTrust pending.id pending.trust := by
        rw [Records.save, if_pos hkey, Records.setTrust, hcurrent, Option.map_some]
        show Function.update ideal.records current.id _ = _
        rw [hid]
      have hsaves := hforgotten.save hexact htold
      have hholds := hsaves.holds
      simp only [Ideal.save, hset] at hholds
      exact ⟨hsaves.kind, hholds, hsaves.pending, hsaves.told, hgranted _ rfl⟩

theorem simulates_step (h : Simulates platform json client ideal)
    (hexact : json = true → platform.Exact) {event : Event} (htold : json = true → event.Told)
    (hmeets : client.Meets platform event) :
    Simulates platform json (client.step platform event) (ideal.step event) := by
  cases event with
  | save record => exact h.save hexact htold
  | delete id =>
    refine ⟨(isJson_delete id client.backend).trans h.kind, ?_, h.pending, h.told, ?_⟩
    · exact holds_delete (h.exactOn hexact) h.holds id
    · intro other r hr
      simp only [Ideal.step, Records.delete, Function.update_apply] at hr
      split_ifs at hr
      exact h.granted other r hr
  | rememberEndpoint id expectedKey endpoint =>
    refine ⟨(isJson_remember id expectedKey endpoint client.backend).trans h.kind, ?_, h.pending,
      h.told, ?_⟩
    · exact holds_remember (h.exactOn hexact) h.holds id expectedKey endpoint
    · intro other r hr
      simp only [Ideal.step, Records.rememberEndpoint, Function.update_apply] at hr ⊢
      split_ifs at hr with hother
      · obtain ⟨old, hold, rfl⟩ := Option.map_eq_some_iff.mp hr
        rw [hother, h.granted id old hold]
        split_ifs <;> rfl
      · exact h.granted other r hr
  | answered handshake pairing preference grant =>
    exact h.answer hexact (fun record huse hjson => (storeUse_told (htold hjson)).1 record huse)
      fun id trust huse hjson => (storeUse_told (htold hjson)).2 id trust huse
  | recorded handshake => exact h.recorded hexact hmeets

end Simulation

theorem simulates_run {platform : Platform} {backend : StoreBackend} {records : Records}
    (hexact : platform.ExactOn backend) (hholds : platform.Holds records backend)
    {events : List Event} (htold : ∀ event ∈ events, backend.isJson = true → event.Told)
    (hmeets : ∀ before event after, events = before ++ event :: after →
      (Client.run platform backend before).Meets platform event) :
    Simulates platform backend.isJson (Client.run platform backend events)
      (Ideal.run records events) := by
  induction events using List.reverseRecOn with
  | nil =>
    refine ⟨rfl, hholds, fun handshake => rfl, fun handshake pending h => (nomatch h), ?_⟩
    intro id r hr
    exact congrArg (Option.map (·.trust)) hr
  | append_singleton events event ih =>
    have hbefore := ih (fun e he => htold e (List.mem_append_left [event] he))
      fun before e after h => hmeets before e (after ++ [event]) (by simp [h])
    rw [Client.run, Ideal.run, List.foldl_append, List.foldl_append]
    exact simulates_step hbefore hexact
      (htold event (List.mem_append_right events (List.mem_singleton_self event)))
      (hmeets events event [] rfl)

/-- **The store has what it would have if each handshake changed the trust at once, and nothing
else; the trust is the one that was granted last.** -/
theorem trust_recorded {platform : Platform} {backend : StoreBackend} {records : Records}
    (hexact : platform.ExactOn backend) (hholds : platform.Holds records backend)
    (events : List Event) (htold : ∀ event ∈ events, backend.isJson = true → event.Told)
    (hmeets : ∀ before event after, events = before ++ event :: after →
      (Client.run platform backend before).Meets platform event) (id : String) :
    platform.held id (Client.run platform backend events).backend =
        (Ideal.run records events).records id ∧
      ∀ r, platform.held id (Client.run platform backend events).backend = some r →
        (Ideal.run records events).granted id = some r.trust := by
  have hrun := simulates_run hexact hholds htold hmeets
  have hheld := held_of_holds hrun.holds id
  exact ⟨hheld, fun r hr => hrun.granted id r (hheld.symm.trans hr)⟩

/-! ### A desk that becomes a guest's -/

def atHome : PairingRecord := Platform.deskAt Platform.home []

def deskBackend : StoreBackend := .ephemeral [atHome]

/-- The host grants a day to the reconnect of a handshake. -/
def dayGranted : Event := .answered 0 atHome none (some (.guestExpiring 86400000))

def officeRemembered : Event := .rememberEndpoint "desk" (List.replicate 32 0) Platform.office

theorem holds_desk :
    Platform.desk.Holds (fun id => [atHome].find? (·.id = id)) deskBackend := by
  refine ⟨fun r hr => ?_, fun id => rfl⟩
  rw [List.mem_singleton.mp hr]
  exact ⟨by decide, fun h => absurd h Bool.false_ne_true⟩

theorem trust_recorded_desk :
    Platform.desk.held "desk" (Client.run Platform.desk deskBackend
        [dayGranted, .recorded 0, officeRemembered]).backend =
      (Ideal.run (fun id => [atHome].find? (·.id = id))
        [dayGranted, .recorded 0, officeRemembered]).records "desk" := by
  have hephemeral : ¬ deskBackend.isJson = true := Bool.false_ne_true
  refine (trust_recorded (fun h => absurd h hephemeral) holds_desk _
    (fun event _ h => absurd h hephemeral)
    (fun before event after hsplit => ?_) "desk").1
  match before, hsplit with
  | [], hsplit =>
    cases hsplit
    exact trivial
  | [_], hsplit =>
    cases hsplit
    intro pending hpending
    cases hpending
    exact ⟨atHome, rfl, rfl⟩
  | [_, _], hsplit =>
    cases hsplit
    exact trivial
  | _ :: _ :: _ :: before, hsplit => simp at hsplit

/-- The endpoint that is remembered in between is lost, and a desk that is deleted is back. -/
theorem endpoint_lost :
    (Platform.desk.held "desk" (Client.run Platform.desk deskBackend
        [dayGranted, officeRemembered, .recorded 0]).backend).map (·.lastEndpoint) =
          some (some Platform.home) ∧
      ((Ideal.run (fun id => [atHome].find? (·.id = id))
        [dayGranted, officeRemembered, .recorded 0]).records "desk").map (·.lastEndpoint) =
          some (some Platform.office) ∧
      (Platform.desk.held "desk" (Client.run Platform.desk deskBackend
        [dayGranted, .delete "desk", .recorded 0]).backend).isSome = true ∧
      (Ideal.run (fun id => [atHome].find? (·.id = id))
        [dayGranted, .delete "desk", .recorded 0]).records "desk" = none := by
  refine ⟨?_, ?_, ?_, ?_⟩ <;> rfl

end MahoRD.ClientPairing
