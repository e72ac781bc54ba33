/-
MahoRD/Host/PairingStore.lean

The pairing store of a host (`PairingStore` in `maho-host/src/session.rs`): one
file with the key records, one with the grants.  Every operation runs under the
lock of the store and reads its files anew.

A call is given how its file operations turn out; an operation on a file that
fails leaves the file as it was, but for the records, whose permissions are set
again after the new file is in place.  The base64 and JSON forms of what the
files hold are left out.
-/
import MahoRD.Lib.Act
import MahoRD.Lib.Table
import MahoRD.Proto.Pairing
import MahoRD.Proto.Parity

namespace MahoRD

/-- `io::ErrorKind`, as far as it is told apart. -/
inductive ErrorKind
  | wouldBlock | timedOut | unexpectedEof | connectionReset | brokenPipe | other
  deriving DecidableEq

/-- `syscall`: the cause is an OpenSSL error of code SYSCALL. -/
structure IoError where
  kind : ErrorKind
  syscall : Bool
  deriving DecidableEq

inductive TlsPskError
  | io (error : IoError)
  | other
  deriving DecidableEq

inductive SessionError
  | io (error : IoError)
  | tls (error : TlsPskError)
  | codec (error : CodecError)
  | cipher
  | store (message : String)
  | consentUnavailable
  | consentTimeout
  | preAuth
  | alreadyAuthenticated
  | identityMismatch
  | unknownPairing
  | mediaStopped
  | missingAuthenticatedRegistration
  deriving DecidableEq

/-- The key of a pairing. -/
structure PairingKey where
  bytes : List UInt8
  length_eq : bytes.length = pairingKeySize
  deriving DecidableEq

def PairingKey.filled (byte : UInt8) : PairingKey :=
  ⟨List.replicate pairingKeySize byte, List.length_replicate⟩

structure PairingRecord where
  id : String
  name : String
  key : PairingKey
  deriving DecidableEq

/-- A row of the grants file: the encoded trust, and the permissions. -/
abbrev Grant := List UInt8 × Option (Vector Bool 5)

/-- What the two files hold. -/
structure Disk where
  records : List PairingRecord
  grants : Table String Grant

/-- How the file operations of one call turn out.  A failed write of the records
tells whether the new file was in place before. -/
structure Files where
  readRecords : Option SessionError
  writeRecords : Option (SessionError × Bool)
  readGrants : Option SessionError
  writeGrants : Option SessionError

/-- Every file operation succeeds. -/
def Files.ok : Files := ⟨none, none, none, none⟩

/-- A key record of that id is stored. -/
def Disk.HasKey (d : Disk) (id : String) : Prop := ∃ record ∈ d.records, record.id = id

instance (d : Disk) (id : String) : Decidable (d.HasKey id) :=
  inferInstanceAs (Decidable (∃ record ∈ d.records, record.id = id))

/-- A revocation of the id gets as far as removing its row. -/
def Files.Removes (files : Files) (d : Disk) (id : String) : Prop :=
  (d.grants.lookup id).isSome ∧ files.readRecords = none ∧
    (d.HasKey id → files.writeRecords = none) ∧ files.readGrants = none ∧
      files.writeGrants = none

/-- The row of an id can be written. -/
def Files.Writes (files : Files) : Prop := files.readGrants = none ∧ files.writeGrants = none

abbrev StoreAct := Act SessionError Disk

namespace PairingStore

def loadAllUnlocked (files : Files) : StoreAct (List PairingRecord) := do
  match files.readRecords with
  | some e => throw e
  | none => return (← get).records

def writeUnlocked (files : Files) (records : List PairingRecord) : StoreAct Unit := do
  match files.writeRecords with
  | some (e, inPlace) =>
    modify fun d => if inPlace then { d with records } else d
    throw e
  | none => modify fun d => { d with records }

def readGrants (files : Files) : StoreAct (Table String Grant) := do
  match files.readGrants with
  | some e => throw e
  | none => return (← get).grants

def writeGrantsUnlocked (files : Files) (grants : Table String Grant) : StoreAct Unit := do
  match files.writeGrants with
  | some e => throw e
  | none => modify fun d => { d with grants }

def loadAll (files : Files) : StoreAct (List PairingRecord) := loadAllUnlocked files

def load (files : Files) (id : String) : StoreAct (Option PairingRecord) := do
  return (← loadAll files).find? fun record => record.id = id

def save (files : Files) (record : PairingRecord) : StoreAct Unit := do
  let records ← loadAllUnlocked files
  writeUnlocked files ((records.filter fun existing => existing.id ≠ record.id) ++ [record])

def revoke (files : Files) (id : String) : StoreAct Bool := do
  let records ← loadAllUnlocked files
  let kept := records.filter fun record => record.id ≠ id
  let removed := kept.length != records.length
  if removed then writeUnlocked files kept
  let grants ← readGrants files
  if (grants.lookup id).isSome then writeGrantsUnlocked files (grants.erase id)
  return removed

/-- What a row of the grants file, or its absence, answers. -/
def answer : Option Grant → Except SessionError (PairingTrust × Option GuestPermissions)
  | none => .ok (.owner, none)
  | some (trust, permissions) =>
    match PairingTrust.decode trust with
    | .error e => .error (.codec e)
    | .ok trust => .ok (trust, permissions.map fun p => ⟨p[0], p[1], p[2], p[3], p[4]⟩)

def authorization (files : Files) (id : String) :
    StoreAct (PairingTrust × Option GuestPermissions) := do
  let records ← readGrants files
  answer (records.lookup id)

/-- The permissions as the grants file has them. -/
def flags (p : GuestPermissions) : Vector Bool 5 :=
  #v[p.keyboard, p.mouse, p.gamepad, p.clipboard, p.audio]

def setAuthorization (files : Files) (id : String) (trust : PairingTrust)
    (permissions : Option GuestPermissions) : StoreAct Unit := do
  let records ← readGrants files
  match trust.encode with
  | .error e => throw (.codec e)
  | .ok bytes =>
    writeGrantsUnlocked files (records.insert id (bytes, permissions.map flags))

/-! ### What the operations do -/

theorem exec_loadAllUnlocked (files : Files) (d : Disk) :
    (loadAllUnlocked files).exec d = (match files.readRecords with
      | some e => .error e
      | none => .ok d.records, d) := by
  simp only [loadAllUnlocked]
  rcases files.readRecords with - | e <;> rfl

theorem exec_readGrants (files : Files) (d : Disk) :
    (readGrants files).exec d = (match files.readGrants with
      | some e => .error e
      | none => .ok d.grants, d) := by
  simp only [readGrants]
  rcases files.readGrants with - | e <;> rfl

theorem exec_writeUnlocked (files : Files) (records : List PairingRecord) (d : Disk) :
    (writeUnlocked files records).exec d = match files.writeRecords with
      | some (e, inPlace) => (.error e, if inPlace then { d with records } else d)
      | none => (.ok (), { d with records }) := by
  simp only [writeUnlocked]
  rcases files.writeRecords with - | ⟨e, inPlace⟩ <;> rfl

theorem exec_writeGrantsUnlocked (files : Files) (grants : Table String Grant) (d : Disk) :
    (writeGrantsUnlocked files grants).exec d = match files.writeGrants with
      | some e => (.error e, d)
      | none => (.ok (), { d with grants }) := by
  simp only [writeGrantsUnlocked]
  rcases files.writeGrants with - | e <;> rfl

theorem exec_load (files : Files) (id : String) (d : Disk) :
    (load files id).exec d = (match files.readRecords with
      | some e => .error e
      | none => .ok (d.records.find? fun record => record.id = id), d) := by
  simp only [load, loadAll, Act.exec_bind, exec_loadAllUnlocked]
  rcases files.readRecords with - | e <;> rfl

/-- Reading an authorization leaves the files alone and answers for the row. -/
theorem exec_authorization (files : Files) (id : String) (d : Disk) :
    (authorization files id).exec d = (match files.readGrants with
      | some e => .error e
      | none => answer (d.grants.lookup id), d) := by
  simp only [authorization, Act.exec_bind, exec_readGrants]
  rcases files.readGrants with - | e
  · show (liftM (answer (d.grants.lookup id)) : StoreAct _).exec d = _
    rcases answer (d.grants.lookup id) with e | a <;> rfl
  · rfl

theorem save_grants (files : Files) (record : PairingRecord) (d : Disk) :
    ((save files record).exec d).2.grants = d.grants := by
  simp only [save, Act.exec_bind, exec_loadAllUnlocked]
  rcases files.readRecords with - | e
  · simp only [exec_writeUnlocked]
    rcases files.writeRecords with - | ⟨e, inPlace⟩
    · rfl
    · cases inPlace <;> rfl
  · rfl

theorem setAuthorization_spec (files : Files) (id : String) (trust : PairingTrust)
    (permissions : Option GuestPermissions) (d : Disk) :
    ((setAuthorization files id trust permissions).exec d).2 = d ∨
      files.Writes ∧ (∃ bytes, trust.encode = .ok bytes) ∧
        ∃ grant, ((setAuthorization files id trust permissions).exec d).2
          = { d with grants := d.grants.insert id grant } := by
  simp only [setAuthorization, Act.exec_bind, exec_readGrants]
  rcases hread : files.readGrants with - | e
  · rcases trust.encode with e | bytes
    · exact Or.inl rfl
    · simp only [exec_writeGrantsUnlocked]
      rcases hwrite : files.writeGrants with - | e
      · exact Or.inr ⟨⟨hread, hwrite⟩, ⟨bytes, rfl⟩, _, rfl⟩
      · exact Or.inl rfl
  · exact Or.inl rfl

theorem not_hasKey_filter (records : List PairingRecord) (grants : Table String Grant)
    (id : String) : ¬ Disk.HasKey ⟨records.filter fun record => record.id ≠ id, grants⟩ id := by
  rintro ⟨record, hmem, hid⟩
  have hne := (List.mem_filter.mp hmem).2
  simp [hid] at hne

/-- Revoking leaves the grants alone, or removes the row of its id, and then no
key record of the id is left. -/
theorem revoke_spec (files : Files) (id : String) (d : Disk) :
    ((revoke files id).exec d).2.grants = d.grants ∨
      files.Removes d id ∧ ((revoke files id).exec d).2.grants = d.grants.erase id ∧
        ¬ ((revoke files id).exec d).2.HasKey id := by
  simp only [revoke, Act.exec_bind, exec_loadAllUnlocked]
  rcases hread : files.readRecords with - | e
  swap
  · exact Or.inl rfl
  -- the grants are reached only once the records are without the id
  have hgrants : ∀ d' : Disk, d'.grants = d.grants → ¬ d'.HasKey id →
      (d.HasKey id → files.writeRecords = none) → ∀ removed : Bool,
      let d'' := ((do
        let grants ← readGrants files
        if (grants.lookup id).isSome then writeGrantsUnlocked files (grants.erase id)
        return removed : StoreAct Bool).exec d').2
      d''.grants = d.grants ∨ files.Removes d id ∧ d''.grants = d.grants.erase id ∧
        ¬ d''.HasKey id := by
    intro d' hg hk hw removed
    simp only [Act.exec_bind, exec_readGrants]
    rcases hreadg : files.readGrants with - | e
    · by_cases hsome : (d'.grants.lookup id).isSome
      · simp only [hsome, if_true, Act.exec_bind, exec_writeGrantsUnlocked]
        rcases hwriteg : files.writeGrants with - | e
        · exact Or.inr ⟨⟨hg ▸ hsome, hread, hw, hreadg, hwriteg⟩,
            by show d'.grants.erase id = _; rw [hg], hk⟩
        · exact Or.inl hg
      · simp only [hsome]
        exact Or.inl hg
    · exact Or.inl hg
  by_cases hremoved : (d.records.filter fun record => record.id ≠ id).length = d.records.length
  · have hk : ¬ d.HasKey id := by
      have hsame := List.length_filter_eq_length_iff.mp hremoved
      rintro ⟨record, hmem, hid⟩
      simpa [hid] using hsame record hmem
    simp only [hremoved, bne_self_eq_false, Bool.false_eq_true, if_false]
    exact hgrants d rfl hk (fun h => absurd h hk) false
  · simp only [bne_iff_ne.mpr hremoved, if_true, Act.exec_bind, exec_writeUnlocked]
    rcases hwrite : files.writeRecords with - | ⟨e, inPlace⟩
    · simpa only [Act.exec_bind] using hgrants ⟨d.records.filter fun record => record.id ≠ id,
        d.grants⟩ rfl (not_hasKey_filter d.records d.grants id) (fun _ => hwrite) true
    · cases inPlace <;> exact Or.inl rfl

end PairingStore
end MahoRD
