/-
MahoRD/App/NewestPairing.lean

The pairing that a computer's name stands for (`find_by_host` of `PairingStore` in
`maho-app/src/pairing.rs` and of `MobilePairingStore` in `maho-mobile/src/storage.rs`), after any
saves and deletes.  It is the last match in the order in which the store lists its records.

A file and an ephemeral store list them in the order in which they were saved.  A keychain, and
whatever a mobile store is kept on, is a map that lists its keys in an order of its own (`Lists`).
Every call succeeds unless a key has the wrong length.  JSON is asked to keep everything but
`added_at`; a keychain of the old brand has been imported, so that the marker is set.
-/
import MahoRD.App.EndpointHistory
import MahoRD.Lib.Saves

namespace MahoRD.ClientPairing

open Saves (rfind)

/-! ### The stores -/

def eqIgnoreAsciiCase (a b : String) : Bool := a.toList.map Char.toLower = b.toList.map Char.toLower

def PairingRecord.matchesHost (hostName : String) (record : PairingRecord) : Bool :=
  eqIgnoreAsciiCase record.name hostName || record.id = hostName

/-- A record of an item, unless it is malformed. -/
def RecordJson.readable (item : RecordJson) (bytes : List UInt8) : Option PairingRecord :=
  (item.decode bytes).filter fun record => record.keyArray.isOk

namespace Platform

variable (platform : Platform)

def save (record : PairingRecord) : StoreBackend → Except StoreError Unit × StoreBackend
  | .file content =>
    match (⟨.save record, .allOk⟩ : Call).alone platform.place content with
    | (.error e, content) => (.error (.store e), .file content)
    | (.ok _, content) => (.ok (), .file content)
  | .keychain items =>
    match record.keyArray with
    | .error e => (.error (.store e), .keychain items)
    | .ok _ =>
      let (answer, items) := platform.saveKeychain .ok items record
      (answer, .keychain items)
  | .ephemeral records =>
    match record.keyArray with
    | .error e => (.error (.store e), .ephemeral records)
    | .ok _ => (.ok (), .ephemeral ((records.filter fun r => r.id ≠ record.id) ++ [record]))

def delete (id : String) : StoreBackend → Except StoreError Unit × StoreBackend
  | .file content =>
    match (⟨.delete id, .allOk⟩ : Call).alone platform.place content with
    | (.error e, content) => (.error (.store e), .file content)
    | (.ok _, content) => (.ok (), .file content)
  | .keychain items => (.ok (), .keychain (Function.update items (account id) none))
  | .ephemeral records => (.ok (), .ephemeral (records.filter fun r => r.id ≠ id))

/-- `keys`: the accounts of the keychain in the order in which it lists them. -/
def loadAll (keys : List String) : StoreBackend → Except StoreError (List PairingRecord)
  | .file content => (platform.place.loadAll .allOk content).1.mapError .store
  | .keychain items => .ok (keys.filterMap fun key => (items key).bind platform.item.readable)
  | .ephemeral records => .ok records

def findByHost (keys : List String) (hostName : String) (backend : StoreBackend) :
    Except StoreError (Option PairingRecord) :=
  (platform.loadAll keys backend).map (rfind (PairingRecord.matchesHost hostName))

end Platform

namespace MobilePairingStore

variable (item : RecordJson)

def saveRecord (record : PairingRecord) (items : Items) : Except StoreError Unit × Items :=
  match record.keyArray with
  | .error e => (.error (.store e), items)
  | .ok _ =>
    match item.encode record with
    | none => (.error (.store .json), items)
    | some bytes => (.ok (), Function.update items (account record.id) (some bytes))

def deleteRecord (id : String) (items : Items) : Except StoreError Unit × Items :=
  (.ok (), Function.update items (account id) none)

/-- `keys` is what `list_keys` answers. -/
def loadAll (keys : List String) (items : Items) : List PairingRecord :=
  keys.filterMap fun key =>
    if "maho_pairing_".toList.isPrefixOf key.toList then (items key).bind item.readable else none

def findByHost (keys : List String) (hostName : String) (items : Items) : Option PairingRecord :=
  rfind (PairingRecord.matchesHost hostName) (loadAll item keys items)

end MobilePairingStore

/-! ### Histories -/

abbrev Op := Saves.Op String PairingRecord

/-- A key of the wrong length is not saved. -/
def accepted : Op → Bool
  | .save record => record.keyArray.isOk
  | .delete _ => true

/-- The saves and deletes that have taken place. -/
def history (ops : List Op) : List Op := ops.filter accepted

def Platform.step (platform : Platform) (backend : StoreBackend) : Op → StoreBackend
  | .save record => (platform.save record backend).2
  | .delete id => (platform.delete id backend).2

def MobilePairingStore.step (item : RecordJson) (items : Items) : Op → Items
  | .save record => (saveRecord item record items).2
  | .delete id => (deleteRecord id items).2

/-- Of the stored records that match, the one saved last. -/
def Newest (hostName : String) (ops : List Op) (record : PairingRecord) : Prop :=
  Saves.SavedLast PairingRecord.id (PairingRecord.matchesHost hostName) (history ops) record

/-- The record is kept, but for `added_at`. -/
def Kept (record record' : PairingRecord) : Prop :=
  record' = { record with addedAtUnixMs := record'.addedAtUnixMs }

/-- What has been found is the newest match, or there is none. -/
def FindsNewest (hostName : String) (ops : List Op) (found : Except StoreError (Option PairingRecord)) :
    Prop :=
  (∀ record, Newest hostName ops record → ∃ record', found = .ok (some record') ∧
    Kept record record') ∧
  ((∀ record, ¬ Newest hostName ops record) → found = .ok none)

/-- JSON keeps a record, and a list of records whatever has become of their `added_at`. -/
def RecordJson.Keeps (item : RecordJson) (record : PairingRecord) : Prop :=
  ∃ bytes record', item.encode record = some bytes ∧ item.decode bytes = some record' ∧
    Kept record record'

def Json.Keeps (json : Json) (records : List PairingRecord) : Prop :=
  ∀ written, List.Forall₂ Kept records written → ∃ bytes records',
    json.encode written = some bytes ∧ json.decode bytes = some records' ∧
      List.Forall₂ Kept written records'

/-- The keys of a map, each once. -/
structure Lists (keys : List String) (items : Items) : Prop where
  nodup : keys.Nodup
  mem : ∀ key, key ∈ keys ↔ (items key).isSome = true

/-- No other match is listed after the newest. -/
def NewestListedLast (hostName : String) (ops : List Op) (keys : List String) : Prop :=
  ∀ record, Newest hostName ops record → ∀ before after,
    keys = before ++ account record.id :: after → ∀ other,
      Saves.Stored PairingRecord.id (history ops) other → other.matchesHost hostName = true →
        account other.id ∉ after

theorem Kept.refl (record : PairingRecord) : Kept record record := rfl

variable {r r' : PairingRecord}

theorem Kept.trans {r'' : PairingRecord} (h : Kept r r') (h' : Kept r' r'') : Kept r r'' := by
  rw [Kept] at h h' ⊢
  rw [h', h]

theorem Kept.id (h : Kept r r') : r'.id = r.id := by
  rw [h]

theorem Kept.keyArray (h : Kept r r') : r'.keyArray = r.keyArray := by
  rw [h]
  rfl

theorem Kept.matchesHost (h : Kept r r') (hostName : String) :
    r'.matchesHost hostName = r.matchesHost hostName := by
  rw [h]
  rfl

theorem history_concat (ops : List Op) (op : Op) :
    history (ops ++ [op]) = if accepted op then history ops ++ [op] else history ops := by
  rw [history, List.filter_append, List.filter_singleton]
  cases accepted op
  · exact List.append_nil _
  · rfl

theorem keyArray_of_accepted {record : PairingRecord} (h : accepted (.save record) = true) :
    ∃ key, record.keyArray = .ok key := by
  rw [accepted] at h
  cases hkey : record.keyArray with
  | error e =>
    rw [hkey] at h
    cases h
  | ok key => exact ⟨key, rfl⟩

theorem keyArray_of_rejected {op : Op} (h : ¬ accepted op = true) :
    ∃ record e, op = .save record ∧ record.keyArray = .error e := by
  cases op with
  | delete id => exact absurd rfl h
  | save record =>
    cases hkey : record.keyArray with
    | error e => exact ⟨record, e, rfl, hkey⟩
    | ok key =>
      rw [accepted, hkey] at h
      exact absurd rfl h

theorem step_rejected {platform : Platform} {op : Op} (h : ¬ accepted op = true)
    (backend : StoreBackend) : platform.step backend op = backend := by
  obtain ⟨record, e, rfl, hkey⟩ := keyArray_of_rejected h
  cases backend with
  | file content =>
    have hpre : (Request.save record).precheck = .error e := by
      rw [Request.precheck, hkey]
      rfl
    simp only [Platform.step, Platform.save, Call.alone, hpre]
  | keychain items => simp only [Platform.step, Platform.save, hkey]
  | ephemeral records => simp only [Platform.step, Platform.save, hkey]

/-! ### Records in the order of their saves -/

section Ordered

variable {platform : Platform} {hostName : String} {ops : List Op}

theorem findsNewest_of_kept {records : List PairingRecord}
    (h : List.Forall₂ Kept (Saves.run PairingRecord.id (history ops)) records) :
    FindsNewest hostName ops (.ok (rfind (PairingRecord.matchesHost hostName) records)) := by
  have hmatches : ∀ r r', Kept r r' → r.matchesHost hostName = r'.matchesHost hostName :=
    fun r r' hr => (hr.matchesHost hostName).symm
  have hrel := Saves.rfind_rel hmatches h
  have hnewest : ∀ record, rfind (PairingRecord.matchesHost hostName)
      (Saves.run PairingRecord.id (history ops)) = some record ↔ Newest hostName ops record :=
    Saves.rfind_run _ _
  generalize rfind (PairingRecord.matchesHost hostName) records = found at hrel ⊢
  constructor
  · intro record hrecord
    rw [(hnewest record).mpr hrecord] at hrel
    cases hrel with
    | some hkept => exact ⟨_, rfl, hkept⟩
  · intro hnone
    cases hrun : rfind (PairingRecord.matchesHost hostName)
        (Saves.run PairingRecord.id (history ops)) with
    | some record => exact (hnone record ((hnewest record).mp hrun)).elim
    | none =>
      rw [hrun] at hrel
      cases hrel
      rfl

theorem ephemeral_run (ops : List Op) :
    ops.foldl platform.step (.ephemeral []) =
      .ephemeral (Saves.run PairingRecord.id (history ops)) := by
  induction ops using List.reverseRecOn with
  | nil => rfl
  | append_singleton ops op ih =>
    rw [List.foldl_append, ih, history_concat]
    show platform.step _ op = _
    by_cases hop : accepted op
    · rw [if_pos hop, Saves.run_concat]
      cases op with
      | delete id => rfl
      | save record =>
        obtain ⟨key, hkey⟩ := keyArray_of_accepted hop
        simp only [Platform.step, Platform.save, hkey]
        rfl
    · rw [if_neg hop, step_rejected hop]

/-- What a file has, as it is loaded. -/
structure FileHas (platform : Platform) (backend : StoreBackend) (records : List PairingRecord) :
    Prop where
  file : ∃ content loaded, backend = .file content ∧
    (platform.place.loadAll .allOk content).1 = .ok loaded ∧ List.Forall₂ Kept records loaded
  keys : ∀ r ∈ records, r.keyArray.isOk = true

variable {l l' : List PairingRecord}

theorem forall₂_filter {R : PairingRecord → PairingRecord → Prop} {p : PairingRecord → Bool}
    (hp : ∀ r r', R r r' → p r' = p r) (h : List.Forall₂ R l l') :
    List.Forall₂ R (l.filter p) (l'.filter p) := by
  induction h with
  | nil => exact .nil
  | @cons r r' l l' hr _ ih =>
    rw [List.filter_cons, List.filter_cons, hp r r' hr]
    split_ifs
    · exact .cons hr ih
    · exact ih

theorem kept_trans_forall₂ {l'' : List PairingRecord} (h : List.Forall₂ Kept l l')
    (h' : List.Forall₂ Kept l' l'') : List.Forall₂ Kept l l'' := by
  induction h generalizing l'' with
  | nil =>
    cases h'
    exact .nil
  | cons hr _ ih =>
    cases h' with
    | cons hr' hrest => exact .cons (hr.trans hr') (ih hrest)

theorem reread_of_kept (h : List.Forall₂ Kept l l') :
    List.Forall₂ Reread l l' :=
  h.imp fun r r' hr => by
    rw [hr]
    exact ⟨rfl, rfl, rfl, rfl⟩

theorem loadAll_written {records written : List PairingRecord}
    (hkeeps : platform.place.json.Keeps records) (hkept : List.Forall₂ Kept records written)
    (hok : ∀ r ∈ written, r.keyArray.isOk = true) (content : Content) :
    ∃ bytes loaded, platform.place.writeRecords .ok written content = (.ok (), some bytes) ∧
      (platform.place.loadAll .allOk (some bytes)).1 = .ok loaded ∧
      List.Forall₂ Kept written loaded := by
  obtain ⟨bytes, loaded, hencode, hdecode, hagain⟩ := hkeeps written hkept
  refine ⟨bytes, loaded, by simp only [Place.writeRecords, hencode], ?_, hagain⟩
  have hall := all_isOk_reread (reread_of_kept hagain) hok
  have hparse : platform.place.parse bytes = .ok loaded := by
    simp only [Place.parse, hdecode, List.filter_eq_self.mpr hall]
  exact congrArg Prod.fst (Platform.loadAll_some Outcomes.allOk rfl hparse)

theorem fileHas_rewrite (request : Request) {content : Content}
    {loaded records rewritten : List PairingRecord} (hkeeps : platform.place.json.Keeps records)
    (hpre : request.precheck = .ok ())
    (hload : (platform.place.loadAll .allOk content).1 = .ok loaded)
    (hrewrite : request.rewrite loaded = some rewritten)
    (hkept : List.Forall₂ Kept records rewritten) (hok : ∀ r ∈ records, r.keyArray.isOk = true) :
    ∃ bytes answer, (⟨request, .allOk⟩ : Call).alone platform.place content =
        (.ok answer, some bytes) ∧ FileHas platform (.file (some bytes)) records := by
  have hok' : ∀ r ∈ rewritten, r.keyArray.isOk = true := all_isOk_reread (reread_of_kept hkept) hok
  obtain ⟨bytes, again, hwrite, hagain, hkept'⟩ := loadAll_written hkeeps hkept hok'
    (platform.place.loadAll .allOk content).2
  refine ⟨bytes, request.reply loaded, ?_,
    ⟨some bytes, again, rfl, hagain, kept_trans_forall₂ hkept hkept'⟩, hok⟩
  have hpair : platform.place.loadAll .allOk content =
      (.ok loaded, (platform.place.loadAll .allOk content).2) := Prod.ext hload rfl
  have hlock : (request.locks && !Outcomes.allOk.lock) = false := Bool.and_false _
  simp only [Call.alone, hpre, hlock, Bool.false_eq_true, if_false]
  rw [hpair]
  simp only [Call.onLoaded, hrewrite]
  show ((platform.place.writeRecords .ok rewritten _).1.map _,
    (platform.place.writeRecords .ok rewritten _).2) = _
  rw [hwrite]
  rfl

theorem fileHas_step {backend : StoreBackend} {records : List PairingRecord}
    (h : FileHas platform backend records) {op : Op} (hop : accepted op = true)
    (hkeeps : platform.place.json.Keeps (Saves.apply PairingRecord.id records op)) :
    FileHas platform (platform.step backend op) (Saves.apply PairingRecord.id records op) := by
  obtain ⟨⟨content, loaded, rfl, hload, hkept⟩, hok⟩ := h
  have hothers : ∀ id, List.Forall₂ Kept (records.filter fun r => r.id ≠ id)
      (loaded.filter fun r => r.id ≠ id) := by
    intro id
    apply forall₂_filter _ hkept
    intro r r' hr
    rw [hr.id]
  have hokOthers : ∀ id, ∀ r ∈ records.filter (fun r => r.id ≠ id), r.keyArray.isOk = true :=
    fun id r hr => hok r (List.mem_filter.mp hr).1
  cases op with
  | delete id =>
    obtain ⟨bytes, answer, hcall, hhas⟩ := fileHas_rewrite (.delete id) hkeeps rfl hload rfl
      (hothers id) (hokOthers id)
    have hstep : platform.step (.file content) (.delete id) = .file (some bytes) := by
      simp only [Platform.step, Platform.delete, hcall]
    rw [hstep]
    exact hhas
  | save record =>
    have hpre : (Request.save record).precheck = .ok () := by
      obtain ⟨key, hkey⟩ := keyArray_of_accepted hop
      rw [Request.precheck, hkey]
      rfl
    have hok' : ∀ r ∈ (records.filter fun r => r.id ≠ record.id) ++ [record],
        r.keyArray.isOk = true := by
      intro r hr
      rcases List.mem_append.mp hr with hr | hr
      · exact hokOthers record.id r hr
      · rw [List.mem_singleton.mp hr]
        exact hop
    obtain ⟨bytes, answer, hcall, hhas⟩ := fileHas_rewrite (.save record) hkeeps hpre hload rfl
      (List.rel_append (hothers record.id) (.cons (Kept.refl record) .nil)) hok'
    have hstep : platform.step (.file content) (.save record) = .file (some bytes) := by
      simp only [Platform.step, Platform.save, hcall]
    rw [hstep]
    exact hhas

theorem stored_saved {record : PairingRecord}
    (h : Saves.Stored PairingRecord.id (history ops) record) : .save record ∈ ops := by
  obtain ⟨before, after, hops, -⟩ := h
  have hmem : Saves.Op.save record ∈ history ops := by
    rw [hops]
    exact List.mem_append_right before (List.mem_cons_self ..)
  exact (List.mem_filter.mp hmem).1

/-- The records that a file is asked to keep are saved ones, each under its own id. -/
def KeepsLists (platform : Platform) (ops : List Op) : Prop :=
  ∀ records : List PairingRecord, (∀ r ∈ records, .save r ∈ ops) →
    (records.map PairingRecord.id).Nodup → platform.place.json.Keeps records

theorem fileHas_run (hkeeps : KeepsLists platform ops) {content : Content}
    (hstart : (platform.place.loadAll .allOk content).1 = .ok []) :
    FileHas platform (ops.foldl platform.step (.file content))
      (Saves.run PairingRecord.id (history ops)) := by
  induction ops using List.reverseRecOn with
  | nil => exact ⟨⟨content, [], rfl, hstart, .nil⟩, fun r hr => absurd hr List.not_mem_nil⟩
  | append_singleton ops op ih =>
    have hhas := ih fun records hmem =>
      hkeeps records fun r hr => List.mem_append_left [op] (hmem r hr)
    rw [List.foldl_append, history_concat]
    by_cases hop : accepted op
    · rw [if_pos hop, Saves.run_concat]
      have hrun : Saves.apply PairingRecord.id (Saves.run PairingRecord.id (history ops)) op =
          Saves.run PairingRecord.id (history (ops ++ [op])) := by
        rw [history_concat, if_pos hop, Saves.run_concat]
      have hsaved := hkeeps _ (fun r hr => stored_saved (Saves.mem_run.mp hr)) (Saves.nodup_run _)
      exact fileHas_step hhas hop (hrun ▸ hsaved)
    · rw [if_neg hop]
      show FileHas platform (platform.step _ op) _
      rw [step_rejected hop]
      exact hhas

end Ordered

/-! ### Records in a map -/

section Maps

variable {item : RecordJson} {hostName : String} {ops : List Op} {items : Items}
  {keys : List String}

/-- What stands under a key, for a store that reads the keys it accepts. -/
def readAt (item : RecordJson) (accepts : String → Bool) (items : Items) (key : String) :
    Option PairingRecord :=
  if accepts key then (items key).bind item.readable else none

/-- Each stored record stands under its account, and nothing else is read. -/
structure MapHas (item : RecordJson) (accepts : String → Bool) (items : Items) (ops : List Op) :
    Prop where
  stored : ∀ record, Saves.Stored PairingRecord.id ops record →
    ∃ record', readAt item accepts items (account record.id) = some record' ∧ Kept record record'
  read : ∀ key record', readAt item accepts items key = some record' →
    ∃ record, Saves.Stored PairingRecord.id ops record ∧ key = account record.id ∧
      Kept record record'

variable {accepts : String → Bool}

theorem readAt_update_self (haccepts : ∀ id, accepts (account id) = true) (id : String)
    (bytes : Option (List UInt8)) :
    readAt item accepts (Function.update items (account id) bytes) (account id) =
      bytes.bind item.readable := by
  rw [readAt, if_pos (haccepts id), Function.update_self]

theorem readAt_update_of_ne {id key : String} (h : key ≠ account id)
    (bytes : Option (List UInt8)) :
    readAt item accepts (Function.update items (account id) bytes) key =
      readAt item accepts items key := by
  rw [readAt, readAt, Function.update_of_ne h]

theorem MapHas.update (h : MapHas item accepts items ops)
    (haccepts : ∀ id, accepts (account id) = true) (op : Op) {bytes : Option (List UInt8)}
    (hsave : ∀ record, op = .save record → ∃ record', bytes.bind item.readable = some record' ∧
      Kept record record')
    (hdelete : ∀ id, op = .delete id → bytes = none) :
    MapHas item accepts (Function.update items (account (op.under PairingRecord.id)) bytes)
      (ops ++ [op]) := by
  constructor
  · intro record hstored
    rcases Saves.stored_concat.mp hstored with rfl | ⟨hbefore, hne⟩
    · rw [show (Saves.Op.save record : Op).under PairingRecord.id = record.id from rfl,
        readAt_update_self haccepts]
      exact hsave record rfl
    · rw [readAt_update_of_ne (Platform.account_injective.ne (Ne.symm hne))]
      exact h.stored record hbefore
  · intro key record' hread
    by_cases hkey : key = account (op.under PairingRecord.id)
    · rw [hkey, readAt_update_self haccepts] at hread
      cases op with
      | delete id =>
        rw [hdelete id rfl] at hread
        cases hread
      | save record =>
        obtain ⟨kept, hkept, hsame⟩ := hsave record rfl
        cases hkept.symm.trans hread
        exact ⟨record, Saves.stored_concat.mpr (.inl rfl), hkey, hsame⟩
    · rw [readAt_update_of_ne hkey] at hread
      obtain ⟨record, hstored, rfl, hsame⟩ := h.read key record' hread
      have hne : op.under PairingRecord.id ≠ record.id := fun heq => hkey (congrArg account heq.symm)
      exact ⟨record, Saves.stored_concat.mpr (.inr ⟨hstored, hne⟩), rfl, hsame⟩

theorem keychain_step (platform : Platform) (items : Items) (op : Op) :
    platform.step (.keychain items) op =
      .keychain (MobilePairingStore.step platform.item items op) := by
  cases op with
  | delete id => rfl
  | save record =>
    simp only [Platform.step, Platform.save, MobilePairingStore.step, MobilePairingStore.saveRecord,
      Platform.saveKeychain]
    cases record.keyArray with
    | error e => rfl
    | ok key =>
      cases platform.item.encode record with
      | none => rfl
      | some bytes => rfl

theorem keychain_run (platform : Platform) (items : Items) (ops : List Op) :
    ops.foldl platform.step (.keychain items) =
      .keychain (ops.foldl (MobilePairingStore.step platform.item) items) := by
  induction ops generalizing items with
  | nil => rfl
  | cons op ops ih =>
    rw [List.foldl_cons, keychain_step, ih]
    rfl

theorem mapHas_step (haccepts : ∀ id, accepts (account id) = true)
    (h : MapHas item accepts items (history ops)) (op : Op)
    (hkeeps : ∀ record, op = .save record → item.Keeps record) :
    MapHas item accepts (MobilePairingStore.step item items op) (history (ops ++ [op])) := by
  rw [history_concat]
  by_cases hop : accepted op
  · rw [if_pos hop]
    cases op with
    | delete id => exact h.update haccepts (.delete id) (fun record hop => nomatch hop) fun id' _ => rfl
    | save record =>
      obtain ⟨bytes, record', hencode, hdecode, hkept⟩ := hkeeps record rfl
      obtain ⟨key, hkey⟩ := keyArray_of_accepted hop
      have hstep : MobilePairingStore.step item items (.save record) =
          Function.update items (account record.id) (some bytes) := by
        simp only [MobilePairingStore.step, MobilePairingStore.saveRecord, hkey, hencode]
      rw [hstep]
      refine h.update haccepts (.save record) (fun other hsave => ?_) fun id hdelete => nomatch hdelete
      cases hsave
      refine ⟨record', ?_, hkept⟩
      have hok' : record'.keyArray.isOk = true := by
        rw [hkept.keyArray]
        exact hop
      show (item.decode bytes).filter _ = _
      rw [hdecode, Option.filter_some, if_pos hok']
  · rw [if_neg hop]
    obtain ⟨record, e, rfl, hkey⟩ := keyArray_of_rejected hop
    have hstep : MobilePairingStore.step item items (.save record) = items := by
      simp only [MobilePairingStore.step, MobilePairingStore.saveRecord, hkey]
    rw [hstep]
    exact h

theorem mapHas_run (haccepts : ∀ id, accepts (account id) = true)
    (hkeeps : ∀ record, .save record ∈ ops → item.Keeps record)
    (hstart : ∀ key, readAt item accepts items key = none) :
    MapHas item accepts (ops.foldl (MobilePairingStore.step item) items) (history ops) := by
  induction ops using List.reverseRecOn with
  | nil =>
    refine ⟨fun record h => absurd h Saves.not_stored_nil, fun key record' h => ?_⟩
    cases (hstart key).symm.trans h
  | append_singleton ops op ih =>
    rw [List.foldl_append]
    refine mapHas_step haccepts (ih fun record hmem => hkeeps record (List.mem_append_left _ hmem)) op
      fun record hop => hkeeps record ?_
    rw [hop]
    exact List.mem_append_right ops (List.mem_singleton_self _)

/-- In a map the newest match is found if and only if no other match is listed after it. -/
theorem findsNewest_iff (h : MapHas item accepts items (history ops))
    (hkeys : Lists keys items) :
    FindsNewest hostName ops (.ok (rfind (PairingRecord.matchesHost hostName)
      (keys.filterMap (readAt item accepts items)))) ↔ NewestListedLast hostName ops keys := by
  have hlisted : ∀ record, Saves.Stored PairingRecord.id (history ops) record →
      account record.id ∈ keys := by
    intro record hstored
    obtain ⟨record', hread, -⟩ := h.stored record hstored
    rw [readAt] at hread
    split_ifs at hread
    obtain ⟨bytes, hbytes, -⟩ := Option.bind_eq_some_iff.mp hread
    rw [hkeys.mem, hbytes]
    rfl
  constructor
  · rintro ⟨hfinds, -⟩ record hnewest before after hsplit other hother hmatch hafter
    obtain ⟨record', hfound, hkept⟩ := hfinds record hnewest
    obtain ⟨-, before', key, after', hsplit', hread, hlast⟩ :=
      Saves.rfind_filterMap.mp (Except.ok.inj hfound)
    obtain ⟨stored, -, rfl, hkept'⟩ := h.read key record' hread
    have hid : stored.id = record.id := hkept'.id.symm.trans hkept.id
    rw [hid] at hsplit'
    -- the account is listed once, so that what comes after it is the same
    have hsame : after' = after := by
      have hnodup := hkeys.nodup
      rw [hsplit', List.nodup_middle, List.nodup_cons, List.mem_append, not_or] at hnodup
      have heq := hsplit'.symm.trans hsplit
      exact ((List.append_cons_inj_of_notMem hnodup.1.1 hnodup.1.2).mp heq).2.2
    obtain ⟨other', hread', hkeptOther⟩ := h.stored other hother
    have hfalse := hlast other' ⟨_, hsame ▸ hafter, hread'⟩
    rw [hkeptOther.matchesHost, hmatch] at hfalse
    cases hfalse
  · intro hlast
    constructor
    · intro record hnewest
      obtain ⟨record', hread, hkept⟩ := h.stored record hnewest.stored
      obtain ⟨before, after, hsplit⟩ := List.append_of_mem (hlisted record hnewest.stored)
      refine ⟨record', congrArg Except.ok (Saves.rfind_filterMap.mpr ⟨?_, before, _, after, hsplit,
        hread, ?_⟩), hkept⟩
      · rw [hkept.matchesHost]
        exact hnewest.1
      · rintro other' ⟨key, hmem, hother⟩
        obtain ⟨other, hstored, rfl, hkeptOther⟩ := h.read key other' hother
        rw [hkeptOther.matchesHost]
        by_contra hmatch
        exact hlast record hnewest before after hsplit other hstored
          ((Bool.not_eq_false _).mp hmatch) hmem
    · intro hnone
      have hrfind : rfind (PairingRecord.matchesHost hostName)
          (keys.filterMap (readAt item accepts items)) = none := by
        rw [Saves.rfind_eq_none_iff]
        intro record' hmem
        obtain ⟨key, -, hread⟩ := List.mem_filterMap.mp hmem
        obtain ⟨record, hstored, -, hkept⟩ := h.read key record' hread
        rw [hkept.matchesHost]
        by_contra hmatch
        obtain ⟨newest, hnewest⟩ := Saves.exists_savedLast hstored
          ((Bool.not_eq_false _).mp hmatch)
        exact hnone newest hnewest
      rw [hrfind]

end Maps

/-! ### The stores together -/

/-- `PairingStore` and `MobilePairingStore`. -/
inductive Store
  | pairing (backend : StoreBackend)
  | mobile (items : Items)

namespace Store

variable (platform : Platform)

def step : Store → Op → Store
  | .pairing backend, op => .pairing (platform.step backend op)
  | .mobile items, op => .mobile (MobilePairingStore.step platform.item items op)

def findByHost (keys : List String) (hostName : String) :
    Store → Except StoreError (Option PairingRecord)
  | .pairing backend => platform.findByHost keys hostName backend
  | .mobile items => .ok (MobilePairingStore.findByHost platform.item keys hostName items)

/-- A file and an ephemeral store keep the order of the saves. -/
def inOrder : Store → Bool
  | .pairing (.file _) => true
  | .pairing (.ephemeral _) => true
  | .pairing (.keychain _) => false
  | .mobile _ => false

def mobileKey (key : String) : Bool := "maho_pairing_".toList.isPrefixOf key.toList

/-- There is no record yet. -/
def Empty : Store → Prop
  | .pairing (.file content) => (platform.place.loadAll .allOk content).1 = .ok []
  | .pairing (.ephemeral records) => records = []
  | .pairing (.keychain items) => ∀ key, readAt platform.item (fun _ => true) items key = none
  | .mobile items => ∀ key, readAt platform.item mobileKey items key = none

/-- `keys` is a listing of the map, where there is one. -/
def Listing (keys : List String) : Store → Prop
  | .pairing (.keychain items) => Lists keys items
  | .mobile items => Lists keys items
  | _ => True

/-- JSON keeps the records that are saved. -/
def JsonKeeps (ops : List Op) : Store → Prop
  | .pairing (.file _) => KeepsLists platform ops
  | .pairing (.ephemeral _) => True
  | _ => ∀ record, .save record ∈ ops → platform.item.Keeps record

end Store

theorem mobileKey_account (id : String) : Store.mobileKey (account id) = true := by
  rw [Store.mobileKey, account, String.toList_append, List.isPrefixOf_iff_prefix]
  exact List.prefix_append ..

section Together

variable {platform : Platform} {hostName : String} {ops : List Op} {keys : List String}

theorem pairing_run (backend : StoreBackend) (ops : List Op) :
    ops.foldl (Store.step platform) (.pairing backend) =
      .pairing (ops.foldl platform.step backend) := by
  induction ops generalizing backend with
  | nil => rfl
  | cons op ops ih => exact ih (platform.step backend op)

theorem mobile_run (items : Items) (ops : List Op) :
    ops.foldl (Store.step platform) (.mobile items) =
      .mobile (ops.foldl (MobilePairingStore.step platform.item) items) := by
  induction ops generalizing items with
  | nil => rfl
  | cons op ops ih => exact ih (MobilePairingStore.step platform.item items op)

theorem finds_file {content : Content} (hempty : Store.Empty platform (.pairing (.file content)))
    (hkeeps : KeepsLists platform ops) :
    FindsNewest hostName ops
      (platform.findByHost keys hostName (ops.foldl platform.step (.file content))) := by
  obtain ⟨⟨content', loaded, hfile, hload, hkept⟩, -⟩ := fileHas_run hkeeps hempty
  rw [hfile, Platform.findByHost, Platform.loadAll, hload]
  exact findsNewest_of_kept hkept

theorem finds_ephemeral :
    FindsNewest hostName ops
      (platform.findByHost keys hostName (ops.foldl platform.step (.ephemeral []))) := by
  rw [ephemeral_run]
  exact findsNewest_of_kept (List.forall₂_same.mpr fun record _ => Kept.refl record)

theorem loadAll_keychain (items : Items) :
    platform.loadAll keys (.keychain items) =
      .ok (keys.filterMap (readAt platform.item (fun _ => true) items)) := by
  rw [Platform.loadAll]
  congr 2

/-- **A store finds the pairing that was saved last, of those that match, if and only if it lists
its records in order or lists no other match after that one.** -/
theorem newest_found (store : Store) (hempty : store.Empty platform)
    (hkeeps : store.JsonKeeps platform ops)
    (hlisting : (ops.foldl (Store.step platform) store).Listing keys) :
    FindsNewest hostName ops
        ((ops.foldl (Store.step platform) store).findByHost platform keys hostName) ↔
      store.inOrder = true ∨ NewestListedLast hostName ops keys := by
  cases store with
  | mobile items =>
    rw [mobile_run] at hlisting ⊢
    have hhas := mapHas_run mobileKey_account hkeeps hempty
    refine (findsNewest_iff hhas hlisting).trans ?_
    simp only [Store.inOrder, Bool.false_eq_true, false_or]
  | pairing backend =>
    rw [pairing_run] at hlisting ⊢
    cases backend with
    | file content => exact iff_of_true (finds_file hempty hkeeps) (.inl rfl)
    | ephemeral records =>
      cases hempty
      exact iff_of_true finds_ephemeral (.inl rfl)
    | keychain items =>
      rw [keychain_run] at hlisting ⊢
      have hhas : MapHas platform.item (fun _ => true)
          (ops.foldl (MobilePairingStore.step platform.item) items) (history ops) :=
        mapHas_run (fun _ => rfl) hkeeps hempty
      show FindsNewest hostName ops (platform.findByHost keys hostName (.keychain _)) ↔ _
      rw [Platform.findByHost, loadAll_keychain]
      refine (findsNewest_iff hhas hlisting).trans ?_
      simp only [Store.inOrder, Bool.false_eq_true, false_or]

end Together

/-! ### A desk that was paired twice -/

/-- The desk has been given another id in between. -/
def pairedAs (id : String) : PairingRecord :=
  ⟨id, "Desk", List.replicate 32 0, 978307200000, none, [], none, none, .owner⟩

def pairedText (id : String) : List UInt8 :=
  Platform.ascii "\x7b\"id\":\"" ++ (Platform.ascii id ++
    (Platform.ascii "\",\"name\":\"Desk\"" ++
      (Platform.ascii ",\"key\":\"AAAAAAAAAAAAAAAAAAAAAAAAAAAAAAAAAAAAAAAAAAA=\",\"addedAt\":0.0" ++
        Platform.ascii ",\"trust\":[0,0,0,0,0,0,0,0,0]\x7d")))

/-- The JSON form of the two records that occur. -/
def pairedItem : RecordJson where
  decode bytes :=
    if bytes = pairedText "a" then some (pairedAs "a")
    else if bytes = pairedText "b" then some (pairedAs "b")
    else none
  encode record :=
    if record = pairedAs "a" then some (pairedText "a")
    else if record = pairedAs "b" then some (pairedText "b")
    else none

def pairedPlatform : Platform where
  place := ⟨["MahoRD", "client-pairings.json"], ⟨fun _ => none, fun _ => none⟩, fun _ => none⟩
  item := pairedItem

def pairedTwice : List Op := [.save (pairedAs "a"), .save (pairedAs "b")]

def pairedItems : Items :=
  Function.update (Function.update (fun _ => none) (account "a") (some (pairedText "a")))
    (account "b") (some (pairedText "b"))

theorem pairedText_ne : pairedText "b" ≠ pairedText "a" := by
  intro h
  have hid := congrArg (fun l => l[0]?) (List.append_cancel_left h)
  exact absurd hid (by decide)

theorem decode_a : pairedItem.decode (pairedText "a") = some (pairedAs "a") := by
  simp only [pairedItem]
  rw [if_pos trivial]

theorem decode_b : pairedItem.decode (pairedText "b") = some (pairedAs "b") := by
  simp only [pairedItem]
  rw [if_neg pairedText_ne, if_pos trivial]

theorem encode_a : pairedItem.encode (pairedAs "a") = some (pairedText "a") := by
  simp only [pairedItem]
  rw [if_pos trivial]

theorem encode_b : pairedItem.encode (pairedAs "b") = some (pairedText "b") := by
  simp only [pairedItem]
  rw [if_neg (by decide), if_pos trivial]

theorem paired_run :
    pairedTwice.foldl (Store.step pairedPlatform) (.mobile fun _ => none) = .mobile pairedItems := by
  have hstep : ∀ id bytes items, pairedItem.encode (pairedAs id) = some bytes →
      MobilePairingStore.step pairedItem items (.save (pairedAs id)) =
        Function.update items (account id) (some bytes) := by
    intro id bytes items hencode
    have hkey : (pairedAs id).keyArray = .ok (List.replicate 32 0) := rfl
    simp only [MobilePairingStore.step, MobilePairingStore.saveRecord, hkey, hencode]
    rfl
  rw [mobile_run]
  show Store.mobile (MobilePairingStore.step pairedItem (MobilePairingStore.step pairedItem
    (fun _ => none) (.save (pairedAs "a"))) (.save (pairedAs "b"))) = _
  rw [hstep _ _ _ encode_a, hstep _ _ _ encode_b]
  rfl

theorem account_ne : account "a" ≠ account "b" := Platform.account_injective.ne (by decide)

theorem pairedItems_isSome (key : String) :
    (pairedItems key).isSome = true ↔ key = account "a" ∨ key = account "b" := by
  by_cases hb : key = account "b"
  · rw [hb, pairedItems, Function.update_self]
    exact iff_of_true rfl (.inr rfl)
  · rw [pairedItems, Function.update_of_ne hb]
    by_cases ha : key = account "a"
    · rw [ha, Function.update_self]
      exact iff_of_true rfl (.inl rfl)
    · rw [Function.update_of_ne ha]
      exact iff_of_false Bool.false_ne_true (not_or.mpr ⟨ha, hb⟩)

theorem newest_paired : Newest "desk" pairedTwice (pairedAs "b") := by
  show Saves.SavedLast _ _ ([.save (pairedAs "a")] ++ [.save (pairedAs "b")]) _
  exact (Saves.savedLast_save (by decide)).mpr rfl

theorem newest_found_desk :
    FindsNewest "desk" pairedTwice
      ((pairedTwice.foldl (Store.step pairedPlatform) (.mobile fun _ => none)).findByHost
        pairedPlatform [account "a", account "b"] "desk") := by
  have hlists : Lists [account "a", account "b"] pairedItems := by
    refine ⟨List.nodup_cons.mpr ⟨?_, List.nodup_singleton _⟩, fun key => ?_⟩
    · rw [List.mem_singleton]
      exact account_ne
    · rw [pairedItems_isSome, List.mem_pair]
  refine (newest_found (.mobile fun _ => none) (fun key => ?_) ?_ ?_).mpr (.inr ?_)
  · rw [readAt]
    exact ite_self none
  · intro record hsave
    rcases List.mem_pair.mp hsave with h | h
    · cases h
      exact ⟨_, _, encode_a, decode_a, .refl _⟩
    · cases h
      exact ⟨_, _, encode_b, decode_b, .refl _⟩
  · rw [paired_run]
    exact hlists
  · intro record hnewest before after hsplit other _ _ hafter
    cases Saves.SavedLast.unique hnewest newest_paired
    -- nothing is listed after the account of the newest
    have hsame : [account "a"] ++ account "b" :: [] = before ++ account "b" :: after := hsplit
    have hnot : account "b" ∉ [account "a"] := fun h =>
      account_ne (List.mem_singleton.mp h).symm
    rw [← ((List.append_cons_inj_of_notMem hnot List.not_mem_nil).mp hsame).2.2] at hafter
    exact absurd hafter List.not_mem_nil

/-- Each pairing of the desk is saved, and the keys are listed the other way round. -/
theorem older_pairing_found :
    Lists [account "b", account "a"] pairedItems ∧ Newest "desk" pairedTwice (pairedAs "b") ∧
      (pairedTwice.foldl (Store.step pairedPlatform) (.mobile fun _ => none)).findByHost
        pairedPlatform [account "b", account "a"] "desk" = .ok (some (pairedAs "a")) ∧
      ¬ FindsNewest "desk" pairedTwice
        ((pairedTwice.foldl (Store.step pairedPlatform) (.mobile fun _ => none)).findByHost
          pairedPlatform [account "b", account "a"] "desk") := by
  have hfound : (pairedTwice.foldl (Store.step pairedPlatform) (.mobile fun _ => none)).findByHost
      pairedPlatform [account "b", account "a"] "desk" = .ok (some (pairedAs "a")) := by
    rw [paired_run]
    have hread : ∀ id bytes, pairedItems (account id) = some bytes →
        pairedItem.decode bytes = some (pairedAs id) →
        readAt pairedItem Store.mobileKey pairedItems (account id) = some (pairedAs id) := by
      intro id bytes hitem hdecode
      rw [readAt, if_pos (mobileKey_account id), hitem]
      show (pairedItem.decode bytes).filter _ = _
      rw [hdecode]
      rfl
    have ha := hread "a" _ ((Function.update_of_ne account_ne _ _).trans
      (Function.update_self _ _ _)) decode_a
    have hb := hread "b" _ (Function.update_self _ _ _) decode_b
    show Except.ok (rfind _ (List.filterMap (readAt pairedItem Store.mobileKey pairedItems) _)) = _
    rw [List.filterMap_cons_some hb, List.filterMap_cons_some ha]
    rfl
  refine ⟨⟨List.nodup_cons.mpr ⟨?_, List.nodup_singleton _⟩, fun key => ?_⟩, newest_paired, hfound,
    fun hfinds => ?_⟩
  · rw [List.mem_singleton]
    exact account_ne.symm
  · rw [pairedItems_isSome, List.mem_pair, or_comm]
  · obtain ⟨record, hrecord, hkept⟩ := hfinds.1 _ newest_paired
    rw [hfound] at hrecord
    cases hrecord
    exact absurd hkept.id (by decide)

end MahoRD.ClientPairing
