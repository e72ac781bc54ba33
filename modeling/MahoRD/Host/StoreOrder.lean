/-
MahoRD/Host/StoreOrder.lean

The calls on one pairing file have an order, as long as no store overwrites what another has
written (`files_linearizable`).

A call that writes takes effect when its new file is renamed into place, or when it has found
that it will not write.  A revocation takes effect when it is done with the records: what it
will do to the grants is then still to come, and nothing may come in between.
-/
import MahoRD.Host.StoreWriters
import MahoRD.Lib.Linear
import Mathlib.Data.List.Permutation

namespace MahoRD.StoreWriters

/-! ### What a call still has to do -/

namespace Call

variable (call : Call)

def grantsWritten (content : Table String Grant) (reply : Reply) (d : Disk) :
    Except SessionError Reply × Disk :=
  match call.files.writeGrants with
  | some e => (.error e, d)
  | none => (.ok reply, { d with grants := content })

def grantsDone (removed : Bool) (d : Disk) : Except SessionError Reply × Disk :=
  match call.files.readGrants with
  | some e => (.error e, d)
  | none =>
    match call.request.onGrants removed d.grants with
    | .error e => (.error e, d)
    | .ok (none, reply) => (.ok reply, d)
    | .ok (some content, reply) => call.grantsWritten content reply d

def recordsDone (removed : Bool) (records : List PairingRecord) (d : Disk) :
    Except SessionError Reply × Disk :=
  match call.request with
  | .revoke _ => call.grantsDone removed d
  | .loadAll => (.ok (.records records), d)
  | _ => (.ok .done, d)

def recordsWritten (read content : List PairingRecord) (d : Disk) :
    Except SessionError Reply × Disk :=
  match call.files.writeRecords with
  | some (e, inPlace) => (.error e, if inPlace then { d with records := content } else d)
  | none => call.recordsDone true read { d with records := content }

/-- The answer of the call and what the files will hold, if nothing comes in between. -/
def outcome : Phase → Disk → Except SessionError Reply × Disk
  | .readingRecords, d =>
    match call.files.readRecords with
    | some e => (.error e, d)
    | none =>
      match call.request.onRecords d.records with
      | none => call.recordsDone false d.records d
      | some content => call.recordsWritten d.records content d
  | .writingRecords read content, d | .renamingRecords read content, d =>
    call.recordsWritten read content d
  | .readingGrants removed, d => call.grantsDone removed d
  | .writingGrants _ content reply, d | .renamingGrants _ content reply, d =>
    call.grantsWritten content reply d
  | .unlocking result, d | .done result, d => (result, d)
  | .locking, d => call.act.exec d

variable {call}

theorem exec_answer {α : Type} (x : StoreAct α) (f : α → Reply) (d : Disk) :
    (do return f (← x) : StoreAct Reply).exec d = ((x.exec d).1.map f, (x.exec d).2) := by
  rw [Act.exec_bind]
  rcases x.exec d with ⟨e | a, d'⟩ <;> rfl

theorem exec_revoke_grants {id : String} (h : call.request = .revoke id) (removed : Bool)
    (d : Disk) :
    (do
      let removed' ← (do
        let grants ← PairingStore.readGrants call.files
        if (grants.lookup id).isSome then
          PairingStore.writeGrantsUnlocked call.files (grants.erase id)
        return removed : StoreAct Bool)
      return .revoked removed' : StoreAct Reply).exec d = call.grantsDone removed d := by
  simp only [Act.exec_bind, PairingStore.exec_readGrants, grantsDone]
  cases call.files.readGrants with
  | some e => rfl
  | none =>
    simp only [h, Request.onGrants]
    by_cases hrow : (d.grants.lookup id).isSome
    · simp only [hrow, if_true, Act.exec_bind, PairingStore.exec_writeGrantsUnlocked,
        grantsWritten]
      cases call.files.writeGrants <;> rfl
    · simp only [hrow, Bool.false_eq_true, if_false]
      rfl

/-- **The operations of a call add up to the call.** -/
theorem exec_act (d : Disk) : call.act.exec d = call.outcome call.first d := by
  cases h : call.request with
  | loadAll =>
    simp only [act, h, exec_answer, PairingStore.loadAll, PairingStore.exec_loadAllUnlocked, first,
      outcome, Request.onRecords, recordsDone]
    cases call.files.readRecords <;> rfl
  | save record =>
    simp only [act, h, PairingStore.save, Act.exec_bind, PairingStore.exec_loadAllUnlocked, first,
      outcome]
    cases call.files.readRecords with
    | some e => rfl
    | none =>
      simp only [Request.onRecords, PairingStore.exec_writeUnlocked, recordsWritten, recordsDone, h]
      rcases call.files.writeRecords with - | ⟨e, inPlace⟩ <;> rfl
  | revoke id =>
    simp only [act, h, PairingStore.revoke, Act.exec_bind, PairingStore.exec_loadAllUnlocked,
      first, outcome]
    cases call.files.readRecords with
    | some e => rfl
    | none =>
      simp only [Request.onRecords]
      by_cases hremoved :
          ((d.records.filter fun record => record.id ≠ id).length != d.records.length) = true
      · simp only [hremoved, if_true, Act.exec_bind, PairingStore.exec_writeUnlocked,
          recordsWritten]
        rcases call.files.writeRecords with - | ⟨e, inPlace⟩
        · have hgrants := exec_revoke_grants h true
            { d with records := d.records.filter fun record => record.id ≠ id }
          simpa only [recordsDone, h, Act.exec_bind] using hgrants
        · rfl
      · have hgrants := exec_revoke_grants h false d
        simpa only [Bool.eq_false_of_not_eq_true hremoved, Bool.false_eq_true, if_false,
          recordsDone, h, Act.exec_bind] using hgrants
  | authorization id =>
    simp only [act, h, Act.exec_bind, PairingStore.exec_authorization, first, outcome, grantsDone]
    cases call.files.readGrants with
    | some e => rfl
    | none =>
      simp only [Request.onGrants]
      cases PairingStore.answer (d.grants.lookup id) <;> rfl
  | setAuthorization id trust permissions =>
    simp only [act, h, PairingStore.setAuthorization, Act.exec_bind, PairingStore.exec_readGrants,
      first, outcome, grantsDone]
    cases call.files.readGrants with
    | some e => rfl
    | none =>
      simp only [Request.onGrants]
      cases trust.encode with
      | error e => rfl
      | ok bytes =>
        simp only [PairingStore.exec_writeGrantsUnlocked, grantsWritten]
        cases call.files.writeGrants <;> rfl

end Call

/-! ### Where a call takes effect -/

/-- The call is going to answer that it has removed the pairing. -/
def Phase.Removing : Phase → Prop
  | .readingGrants removed => removed = true
  | .writingGrants _ _ reply | .renamingGrants _ _ reply => reply = .revoked true
  | .unlocking result | .done result => result = .ok (.revoked true)
  | .locking | .readingRecords | .writingRecords .. | .renamingRecords .. => False

namespace Call

variable (call : Call)

/-- Done with the records, and not yet with the grants. -/
def halfWay : Phase → Bool
  | .readingGrants _ | .writingGrants .. | .renamingGrants .. => call.request.revokes
  | _ => false

def TookEffect : Phase → Prop
  | .locking | .readingRecords => False
  | .writingRecords .. | .renamingRecords .. => call.replacesRecords = false
  | .readingGrants _ | .writingGrants .. | .renamingGrants .. => call.request.revokes = true
  | .unlocking _ | .done _ => True

/-- A call renames into place what it has written, over what it has read. -/
def Undisturbed (dir : Directory) : Phase → Prop
  | .renamingRecords read content => call.replacesRecords = true →
    dir.recordsTemporary = some content ∧ dir.disk.records = read
  | .renamingGrants read content _ => call.replacesGrants = true →
    dir.grantsTemporary = some content ∧ dir.disk.grants = read
  | _ => True

instance (dir : Directory) : ∀ phase, Decidable (call.Undisturbed dir phase)
  | .renamingRecords _ _ => inferInstanceAs (Decidable (_ → _ ∧ _))
  | .renamingGrants _ _ _ => inferInstanceAs (Decidable (_ → _ ∧ _))
  | .locking | .readingRecords | .writingRecords _ _ | .readingGrants _ | .writingGrants _ _ _
  | .unlocking _ | .done _ => isTrue trivial

/-- The step replaces a file, or ends a revocation's work on the records. -/
def Commits (dir : Directory) : Phase → Prop
  | .readingRecords => call.request.onRecords dir.disk.records = none ∧
    call.request.revokes = true ∧ call.files.readRecords = none
  | .renamingRecords .. => call.replacesRecords = true
  | .renamingGrants .. => call.replacesGrants = true
  | _ => False

instance (dir : Directory) : ∀ phase, Decidable (call.Commits dir phase)
  | .readingRecords => inferInstanceAs (Decidable (_ ∧ _ ∧ _))
  | .renamingRecords _ _ | .renamingGrants _ _ _ => inferInstanceAs (Decidable (_ = true))
  | .locking | .writingRecords _ _ | .readingGrants _ | .writingGrants _ _ _
  | .unlocking _ | .done _ => isFalse id

/-- What a call knows in a phase. -/
def Knows : Phase → Prop
  | .readingRecords => call.first = .readingRecords
  | .writingRecords read content | .renamingRecords read content =>
    call.first = .readingRecords ∧ call.files.readRecords = none ∧
      call.request.onRecords read = some content
  | .readingGrants removed =>
    call.request.revokes = false → call.first = .readingGrants false ∧ removed = false
  | .writingGrants read content reply | .renamingGrants read content reply =>
    call.request.revokes = false → call.first = .readingGrants false ∧
      call.files.readGrants = none ∧ call.request.onGrants false read = .ok (some content, reply)
  | _ => True

variable {call} {phase : Phase} {dir : Directory} {next : Phase × Directory}

theorem apply_eq (d : Disk) : call.apply d = (call.outcome call.first d).2 := by
  rw [apply, exec_act]

theorem outcome_afterRecords (removed : Bool) (records : List PairingRecord) (d : Disk) :
    call.outcome (call.afterRecords removed records) d = call.recordsDone removed records d := by
  unfold afterRecords recordsDone
  cases call.request <;> rfl

theorem replacesRecords_eq_false :
    call.replacesRecords = false ↔ ∃ e, call.files.writeRecords = some (e, false) := by
  unfold replacesRecords
  rcases call.files.writeRecords with - | ⟨e, - | -⟩ <;> simp

/-- **The operations add up**, if what the call has written is still there. -/
theorem outcome_advance (h : call.Advance dir phase next)
    (hundisturbed : call.Undisturbed dir phase) :
    call.outcome next.1 next.2.disk = call.outcome phase dir.disk := by
  cases h with
  | recordsUnread hread => simp only [outcome, hread]
  | recordsKept hread hon =>
    rw [outcome_afterRecords]
    simp only [outcome, hread, hon]
  | recordsRead hread hon => simp only [outcome, hread, hon]
  | recordsWritten | grantsWritten => rfl
  | recordsUnwritten hwrite | recordsUnrenamed hwrite =>
    simp only [outcome, recordsWritten, hwrite]
    rfl
  | recordsMissing hreplaces htemporary =>
    cases htemporary.symm.trans (hundisturbed hreplaces).1
  | recordsRenamed hwrite htemporary =>
    have hreplaces : call.replacesRecords = true := by simp [replacesRecords, hwrite]
    cases htemporary.symm.trans (hundisturbed hreplaces).1
    rw [outcome_afterRecords]
    simp only [outcome, recordsWritten, hwrite]
  | recordsExposed hwrite htemporary =>
    have hreplaces : call.replacesRecords = true := by simp [replacesRecords, hwrite]
    cases htemporary.symm.trans (hundisturbed hreplaces).1
    simp only [outcome, recordsWritten, hwrite]
    rfl
  | grantsUnread hread => simp only [outcome, grantsDone, hread]
  | grantsRefused hread hon | grantsKept hread hon | grantsRead hread hon =>
    simp only [outcome, grantsDone, hread, hon]
  | grantsUnwritten hwrite | grantsUnrenamed hwrite => simp only [outcome, grantsWritten, hwrite]
  | grantsMissing hwrite htemporary =>
    have hreplaces : call.replacesGrants = true := by simp [replacesGrants, hwrite]
    cases htemporary.symm.trans (hundisturbed hreplaces).1
  | grantsRenamed hwrite htemporary =>
    have hreplaces : call.replacesGrants = true := by simp [replacesGrants, hwrite]
    cases htemporary.symm.trans (hundisturbed hreplaces).1
    simp only [outcome, grantsWritten, hwrite]

/-! ### One operation -/

theorem grantsWritten_records (content : Table String Grant) (reply : Reply) (d : Disk) :
    (call.grantsWritten content reply d).2.records = d.records := by
  unfold grantsWritten
  split <;> rfl

theorem grantsDone_records (removed : Bool) (d : Disk) :
    (call.grantsDone removed d).2.records = d.records := by
  unfold grantsDone
  split
  · rfl
  · split
    · rfl
    · rfl
    · exact grantsWritten_records _ _ d

theorem tookEffect_of_halfWay (hhalf : call.halfWay phase = true) : call.TookEffect phase := by
  cases phase <;> first | exact hhalf | cases hhalf

theorem outcome_records (hhalf : call.halfWay phase = true) (d : Disk) :
    (call.outcome phase d).2.records = d.records := by
  cases phase with
  | readingGrants removed => exact grantsDone_records removed d
  | writingGrants read content reply | renamingGrants read content reply =>
    exact grantsWritten_records content reply d
  | _ => cases hhalf

/-- Whether there are grants to write does not depend on those that are stored, revocations
apart. -/
theorem onGrants_kept {request : Request} (hrevokes : request.revokes = false) (removed : Bool)
    (grants grants' : Table String Grant)
    (h : ∀ content reply, request.onGrants removed grants ≠ .ok (some content, reply))
    (content : Table String Grant) (reply : Reply) :
    request.onGrants removed grants' ≠ .ok (some content, reply) := by
  cases request with
  | loadAll | save => rintro ⟨⟩
  | revoke => cases hrevokes
  | authorization id =>
    intro hon
    simp only [Request.onGrants] at hon
    cases hanswer : PairingStore.answer (grants'.lookup id) <;> rw [hanswer] at hon <;> cases hon
  | setAuthorization id trust permissions =>
    simp only [Request.onGrants] at h ⊢
    cases hencode : trust.encode with
    | error e => rintro ⟨⟩
    | ok bytes =>
      rw [hencode] at h
      exact (h _ _ rfl).elim

theorem grantsDone_kept {removed : Bool} {d : Disk}
    (h : ∀ content reply, call.request.onGrants removed d.grants ≠ .ok (some content, reply)) :
    (call.grantsDone removed d).2 = d := by
  unfold grantsDone
  split
  · rfl
  · split
    · rfl
    · rfl
    · rename_i hon
      exact (h _ _ hon).elim

theorem grantsDone_unwritten {e : SessionError} (hwrite : call.files.writeGrants = some e)
    (removed : Bool) (d : Disk) : (call.grantsDone removed d).2 = d := by
  unfold grantsDone
  split
  · rfl
  · split
    · rfl
    · rfl
    · simp only [grantsWritten, hwrite]

theorem first_spec : call.Knows call.first ∧ ¬ call.TookEffect call.first ∧
    ¬ call.first.Removing ∧ call.halfWay call.first = false := by
  cases h : call.request <;>
    simp [first, h, Knows, TookEffect, Phase.Removing, halfWay, Request.revokes]

theorem afterRecords_spec (removed : Bool) (records : List PairingRecord) :
    call.Knows (call.afterRecords removed records) ∧
      call.TookEffect (call.afterRecords removed records) := by
  cases h : call.request <;> simp [afterRecords, h, Knows, TookEffect, Request.revokes]

theorem advance_knows (h : call.Advance dir phase next) (hknows : call.Knows phase) :
    call.Knows next.1 := by
  cases h with
  | recordsKept | recordsRenamed => exact (afterRecords_spec _ _).1
  | recordsRead hread hon => exact ⟨hknows, hread, hon⟩
  | recordsWritten | grantsWritten => exact hknows
  | grantsRead hread hon =>
    intro hrevokes
    obtain ⟨hfirst, rfl⟩ := hknows hrevokes
    exact ⟨hfirst, hread, hon⟩
  | _ => trivial

theorem advance_halfWay (h : call.Advance dir phase next) (hhalf : call.halfWay phase = true) :
    call.TookEffect next.1 := by
  cases h <;> trivial

theorem outcome_of_not_halfWay (h : call.Advance dir phase next)
    (hcommits : call.Commits dir phase ∨ call.halfWay phase = true)
    (hhalf : call.halfWay next.1 = false) (d : Disk) : (call.outcome next.1 d).2 = d := by
  cases h with
  | recordsKept | recordsRenamed =>
    revert hhalf
    cases hrequest : call.request <;>
      simp [afterRecords, hrequest, halfWay, Request.revokes, outcome]
  | recordsRead hread hon =>
    rcases hcommits with hcommits | hcommits
    · cases hon.symm.trans hcommits.1
    · cases hcommits
  | recordsWritten => rcases hcommits with hcommits | hcommits <;> cases hcommits
  | grantsRead | grantsWritten =>
    have hwas := hcommits.resolve_left id
    cases hhalf.symm.trans hwas
  | _ => rfl

/-- **Between its effects a call is not seen**, and where it takes effect in between it has
none. -/
theorem advance_quiet (h : call.Advance dir phase next) (hknows : call.Knows phase)
    (hundisturbed : call.Undisturbed dir phase) (hcommits : ¬ call.Commits dir phase)
    (hhalf : call.halfWay phase = false) :
    next.2.disk = dir.disk ∧ call.halfWay next.1 = false ∧
      ((call.TookEffect phase ↔ call.TookEffect next.1) ∨
        ¬ call.TookEffect phase ∧ call.TookEffect next.1 ∧
          ∀ d : Disk, d.records = dir.disk.records → call.apply d = d) := by
  cases h with
  | recordsUnread hread =>
    refine ⟨rfl, rfl, .inr ⟨id, trivial, fun d _ => ?_⟩⟩
    rw [apply_eq, show call.first = .readingRecords from hknows]
    simp only [outcome, hread]
  | recordsKept hread hon =>
    have hrevokes : call.request.revokes = false := by
      refine Bool.eq_false_of_not_eq_true fun hrevokes => hcommits ⟨hon, hrevokes, hread⟩
    have hrequest : call.request = .loadAll := by
      have hfirst : call.first = .readingRecords := hknows
      cases hrequest : call.request <;>
        simp_all [first, Request.revokes, Request.onRecords]
    refine ⟨rfl, by simp [afterRecords, hrequest, halfWay],
      .inr ⟨id, (afterRecords_spec _ _).2, fun d _ => ?_⟩⟩
    rw [apply_eq, show call.first = .readingRecords from hknows]
    simp only [outcome, hread, hrequest, Request.onRecords, recordsDone]
  | recordsRead hread hon =>
    refine ⟨rfl, rfl, ?_⟩
    cases hreplaces : call.replacesRecords with
    | true => exact .inl ⟨False.elim, fun htook => Bool.false_ne_true (htook.symm.trans hreplaces)⟩
    | false =>
      refine .inr ⟨id, hreplaces, fun d hrecords => ?_⟩
      obtain ⟨e, hwrite⟩ := replacesRecords_eq_false.mp hreplaces
      rw [apply_eq, show call.first = .readingRecords from hknows]
      simp only [outcome, hread, hrecords, hon, recordsWritten, hwrite]
      rfl
  | recordsWritten => exact ⟨rfl, rfl, .inl Iff.rfl⟩
  | recordsUnwritten hwrite | recordsUnrenamed hwrite =>
    exact ⟨rfl, rfl, .inl (iff_of_true (replacesRecords_eq_false.mpr ⟨_, hwrite⟩) trivial)⟩
  | recordsMissing hreplaces htemporary => exact (hcommits hreplaces).elim
  | recordsRenamed hwrite htemporary | recordsExposed hwrite htemporary =>
    exact (hcommits (by simp [Commits, replacesRecords, hwrite])).elim
  | grantsUnread hread =>
    have hrevokes : call.request.revokes = false := hhalf
    obtain ⟨hfirst, rfl⟩ := hknows hrevokes
    refine ⟨rfl, rfl, .inr ⟨Bool.eq_false_iff.mp hrevokes, trivial, fun d _ => ?_⟩⟩
    rw [apply_eq, hfirst]
    simp only [outcome, grantsDone, hread]
  | grantsRefused hread hon | grantsKept hread hon =>
    have hrevokes : call.request.revokes = false := hhalf
    obtain ⟨hfirst, rfl⟩ := hknows hrevokes
    refine ⟨rfl, rfl, .inr ⟨Bool.eq_false_iff.mp hrevokes, trivial, fun d _ => ?_⟩⟩
    rw [apply_eq, hfirst]
    refine grantsDone_kept (onGrants_kept hrevokes false dir.disk.grants d.grants ?_)
    intro content reply hwrites
    cases hon.symm.trans hwrites
  | grantsRead hread hon =>
    have hrevokes : call.request.revokes = false := hhalf
    exact ⟨rfl, hrevokes, .inl Iff.rfl⟩
  | grantsWritten => exact ⟨rfl, hhalf, .inl Iff.rfl⟩
  | grantsUnwritten hwrite | grantsUnrenamed hwrite =>
    have hrevokes : call.request.revokes = false := hhalf
    refine ⟨rfl, rfl, .inr ⟨Bool.eq_false_iff.mp hrevokes, trivial, fun d _ => ?_⟩⟩
    rw [apply_eq, (hknows hrevokes).1]
    exact grantsDone_unwritten hwrite false d
  | grantsMissing hwrite htemporary | grantsRenamed hwrite htemporary =>
    exact (hcommits (by simp [Commits, replacesGrants, hwrite])).elim

/-- **A call takes effect at once**, at the step that commits it. -/
theorem advance_commits (h : call.Advance dir phase next) (hknows : call.Knows phase)
    (hundisturbed : call.Undisturbed dir phase) (hcommits : call.Commits dir phase)
    (hhalf : call.halfWay phase = false) :
    ¬ call.TookEffect phase ∧ call.TookEffect next.1 ∧
      call.apply dir.disk = (call.outcome next.1 next.2.disk).2 := by
  rw [outcome_advance h hundisturbed]
  cases h with
  | recordsUnread hread => cases hread.symm.trans hcommits.2.2
  | recordsRead hread hon => cases hon.symm.trans hcommits.1
  | recordsKept =>
    refine ⟨id, (afterRecords_spec _ _).2, ?_⟩
    rw [apply_eq, show call.first = .readingRecords from hknows]
  | recordsUnrenamed hwrite =>
    cases (replacesRecords_eq_false.mpr ⟨_, hwrite⟩).symm.trans hcommits
  | recordsMissing hreplaces htemporary =>
    cases htemporary.symm.trans (hundisturbed hreplaces).1
  | recordsRenamed | recordsExposed =>
    obtain ⟨hfirst, hread, hon⟩ := hknows
    obtain rfl := (hundisturbed hcommits).2
    refine ⟨fun htook => Bool.false_ne_true (htook.symm.trans hcommits), ?_, ?_⟩
    · first | exact (afterRecords_spec _ _).2 | trivial
    · rw [apply_eq, hfirst]
      simp only [outcome, hread, hon]
  | grantsUnrenamed hwrite => simp [Commits, replacesGrants, hwrite] at hcommits
  | grantsMissing hwrite htemporary => cases htemporary.symm.trans (hundisturbed hcommits).1
  | grantsRenamed =>
    have hrevokes : call.request.revokes = false := hhalf
    obtain ⟨hfirst, hread, hon⟩ := hknows hrevokes
    obtain rfl := (hundisturbed hcommits).2
    refine ⟨Bool.eq_false_iff.mp hrevokes, trivial, ?_⟩
    rw [apply_eq, hfirst]
    simp only [outcome, grantsDone, hread, hon]
  | _ => exact hcommits.elim

end Call

/-! ### Revoked pairings -/

theorem Request.onGrants_revoked {request : Request} {removed : Bool}
    {grants : Table String Grant} {content : Option (Table String Grant)}
    (h : request.onGrants removed grants = .ok (content, .revoked true)) : removed = true := by
  cases request with
  | loadAll | save => cases h
  | revoke id =>
    simp only [onGrants] at h
    cases h
    rfl
  | authorization id =>
    simp only [onGrants] at h
    cases hanswer : PairingStore.answer (grants.lookup id) <;> rw [hanswer] at h <;> cases h
  | setAuthorization id trust permissions =>
    simp only [onGrants] at h
    cases hencode : trust.encode <;> rw [hencode] at h <;> cases h

namespace Call

variable {call : Call} {phase : Phase} {dir : Directory} {next : Phase × Directory}

theorem advance_removing (h : call.Advance dir phase next) (hknows : call.Knows phase)
    (hwas : phase.Removing → call.files.readRecords = none ∧ call.files.writeRecords = none)
    (hnext : next.1.Removing) :
    call.files.readRecords = none ∧ call.files.writeRecords = none := by
  cases h with
  | recordsKept =>
    revert hnext
    cases hrequest : call.request <;> simp [afterRecords, hrequest, Phase.Removing]
  | recordsRenamed hwrite => exact ⟨hknows.2.1, hwrite⟩
  | grantsKept _ hon =>
    cases hnext
    exact hwas (Request.onGrants_revoked hon)
  | grantsRead _ hon =>
    cases hnext
    exact hwas (Request.onGrants_revoked hon)
  | grantsWritten => exact hwas hnext
  | grantsRenamed =>
    cases hnext
    exact hwas rfl
  | _ => cases hnext

theorem recordsDone_records (removed : Bool) (records : List PairingRecord) (d : Disk) :
    (call.recordsDone removed records d).2.records = d.records := by
  unfold recordsDone
  split
  · exact grantsDone_records removed d
  · rfl
  · rfl

/-- The records that a call leaves are those it has found, or what it makes of them. -/
theorem apply_records (d : Disk) : (call.apply d).records = d.records ∨
    call.request.onRecords d.records = some (call.apply d).records := by
  rw [apply_eq]
  cases hrequest : call.request with
  | authorization | setAuthorization =>
    refine .inl ?_
    simp only [first, hrequest]
    exact grantsDone_records false d
  | _ =>
    simp only [first, hrequest, outcome]
    rw [← hrequest]
    cases call.files.readRecords with
    | some e => exact .inl rfl
    | none =>
      cases hon : call.request.onRecords d.records with
      | none => exact .inl (recordsDone_records ..)
      | some content =>
        simp only [recordsWritten]
        rcases call.files.writeRecords with - | ⟨e, - | -⟩
        · refine .inr (congrArg some ?_)
          exact (call.recordsDone_records true d.records { d with records := content }).symm
        · exact .inl rfl
        · exact .inr rfl

theorem apply_revoke {id : String} (h : call.request = .revoke id)
    (hread : call.files.readRecords = none) (hwrite : call.files.writeRecords = none) (d : Disk) :
    ¬ (call.apply d).HasKey id := by
  rw [apply_eq]
  simp only [first, h, outcome, hread, Request.onRecords, recordsWritten, hwrite]
  by_cases hremoved :
      ((d.records.filter fun record => record.id ≠ id).length != d.records.length) = true
  · simp only [hremoved, if_true, Disk.HasKey, recordsDone_records]
    simp
  · simp only [hremoved, Bool.false_eq_true, if_false, Disk.HasKey, recordsDone_records]
    have hall : ∀ record ∈ d.records, decide (record.id ≠ id) = true :=
      List.length_filter_eq_length_iff.mp (by simpa using hremoved)
    simpa using hall

theorem apply_fresh {id : String} {d : Disk} (h : ¬ d.HasKey id)
    (hsave : ∀ record, call.request = .save record → record.id ≠ id) :
    ¬ (call.apply d).HasKey id := by
  rintro ⟨record, hmem, hid⟩
  rcases call.apply_records d with hrecords | hon
  · exact h ⟨record, hrecords ▸ hmem, hid⟩
  · generalize (call.apply d).records = records at hon hmem
    cases hrequest : call.request with
    | save new =>
      rw [hrequest] at hon
      cases hon
      rcases List.mem_append.mp hmem with hkept | hnew
      · exact h ⟨record, (List.mem_filter.mp hkept).1, hid⟩
      · exact hsave new hrequest (List.mem_singleton.mp hnew ▸ hid)
    | revoke other =>
      rw [hrequest] at hon
      simp only [Request.onRecords] at hon
      split at hon
      · cases hon
        exact h ⟨record, (List.mem_filter.mp hmem).1, hid⟩
      · cases hon
    | _ =>
      rw [hrequest] at hon
      cases hon

end Call

/-! ### The order -/

section Order

variable {τ υ : Type*} (calls : τ → Call)

/-- The calls one after the other. -/
def replay (order : List τ) (d : Disk) : Disk := order.foldl (fun d t => (calls t).apply d) d

/-- No other call is between the records and the grants. -/
def NoOther (s : State τ υ) (t : τ) : Prop :=
  ∀ u, u ≠ t → ∀ phase ∈ s.phases u, (calls u).halfWay phase = false

/-- Calls keep apart: what is renamed into place replaces what the call has read, and nothing is
replaced while another call has revoked a record and not yet its grant. -/
def Apart (s : State τ υ) : Label τ → Prop
  | .call _ => True
  | .go t => ∀ phase ∈ s.phases t, (calls t).Undisturbed s.directory phase ∧
      ((calls t).Commits s.directory phase → NoOther calls s t)

/-- What the files will hold when the revocation that is between them has ended. -/
inductive Pending (s : State τ υ) (d : Disk) : Prop
  | none (hnone : ∀ t, ∀ phase ∈ s.phases t, (calls t).halfWay phase = false)
      (hdisk : d = s.directory.disk)
  | one {t phase} (hphase : s.phases t = some phase) (hhalf : (calls t).halfWay phase = true)
      (hother : NoOther calls s t) (hdisk : d = ((calls t).outcome phase s.directory.disk).2)

instance [Fintype τ] [DecidableEq τ] (s : State τ υ) (t : τ) : Decidable (NoOther calls s t) :=
  inferInstanceAs (Decidable (∀ u, u ≠ t → ∀ phase ∈ s.phases u, _ = false))

instance Apart.decidable [Fintype τ] [DecidableEq τ] (s : State τ υ) :
    ∀ label, Decidable (Apart calls s label)
  | .call _ => isTrue trivial
  | .go t => inferInstanceAs (Decidable (∀ phase ∈ s.phases t, _ ∧ (_ → NoOther calls s t)))

/-- The order so far, against a state. -/
structure InOrder (init : Disk) (order : List τ) (s : State τ υ) : Prop where
  nodup : order.Nodup
  mem : ∀ t, t ∈ order ↔ ∃ phase, s.phases t = some phase ∧ (calls t).TookEffect phase
  knows : ∀ t phase, s.phases t = some phase → (calls t).Knows phase
  removing : ∀ t phase, s.phases t = some phase → phase.Removing →
    (calls t).files.readRecords = none ∧ (calls t).files.writeRecords = none
  pending : Pending calls s (replay calls order init)

variable {calls} {init : Disk} {order now : List τ} {s : State τ υ} {t : τ} {phase : Phase}
  {dir : Directory} {holders : υ → Option τ} {d : Disk}

theorem replay_append (order now : List τ) :
    replay calls (order ++ now) init = replay calls now (replay calls order init) :=
  List.foldl_append

theorem replay_fresh {id : String} {d : Disk} (h : ¬ d.HasKey id)
    (hsave : ∀ u ∈ order, ∀ record, (calls u).request = .save record → record.id ≠ id) :
    ¬ (replay calls order d).HasKey id := by
  induction order generalizing d with
  | nil => exact h
  | cons u order ih =>
    exact ih (Call.apply_fresh h (hsave u (List.mem_cons_self ..)))
      fun v hv => hsave v (List.mem_cons_of_mem u hv)

theorem replay_revoked {id : String} {d : Disk} (ht : t ∈ order)
    (hrequest : (calls t).request = .revoke id) (hread : (calls t).files.readRecords = none)
    (hwrite : (calls t).files.writeRecords = none)
    (hid : (replay calls order d).HasKey id) :
    ∃ u record, [t, u].Sublist order ∧ (calls u).request = .save record ∧ record.id = id := by
  obtain ⟨before, after, rfl⟩ := List.append_of_mem ht
  by_contra hnone
  rw [replay_append] at hid
  refine replay_fresh (Call.apply_revoke hrequest hread hwrite _) (fun u hu record hsave heq => ?_)
    hid
  have hsub : [t, u].Sublist (t :: after) := (List.singleton_sublist.mpr hu).cons_cons t
  exact hnone ⟨u, record, hsub.trans (List.sublist_append_right before _), hsave, heq⟩

theorem InOrder.mem_iff (h : InOrder calls init order s) (hphase : s.phases t = some phase) :
    t ∈ order ↔ (calls t).TookEffect phase := by
  rw [h.mem, hphase]
  simp

theorem Pending.records (h : Pending calls s d) : d.records = s.directory.disk.records := by
  cases h with
  | none _ hdisk => rw [hdisk]
  | one _ hhalf _ hdisk => rw [hdisk, Call.outcome_records hhalf]

theorem Pending.halfWay (h : Pending calls s d) (hphase : s.phases t = some phase)
    (hhalf : (calls t).halfWay phase = true) :
    NoOther calls s t ∧ d = ((calls t).outcome phase s.directory.disk).2 := by
  cases h with
  | none hnone _ => cases (hnone t phase hphase).symm.trans hhalf
  | @one u phase' hphase' hhalf' hother hdisk =>
    by_cases hu : t = u
    · subst hu
      cases hphase'.symm.trans hphase
      exact ⟨hother, hdisk⟩
    · cases (hother t hu phase hphase).symm.trans hhalf

theorem Pending.of_noOther (h : Pending calls s d) (hphase : ∀ phase ∈ s.phases t,
    (calls t).halfWay phase = false) (hother : NoOther calls s t) : d = s.directory.disk := by
  cases h with
  | none _ hdisk => exact hdisk
  | @one u phase hphase' hhalf _ _ =>
    by_cases hu : u = t
    · subst hu
      cases (hphase phase hphase').symm.trans hhalf
    · cases (hother u hu phase hphase').symm.trans hhalf

variable [DecidableEq τ]

theorem Pending.frame (h : Pending calls s d)
    (hphase : ∀ phase ∈ s.phases t, (calls t).halfWay phase = false)
    (hhalf : (calls t).halfWay phase = false) (hdisk : dir.disk = s.directory.disk) :
    Pending calls (s.set t phase dir holders) d := by
  have hset : ∀ u, ∀ phase' ∈ (s.set t phase dir holders).phases u,
      u = t ∧ phase' = phase ∨ u ≠ t ∧ phase' ∈ s.phases u := by
    intro u phase' hphase'
    by_cases hu : u = t
    · subst hu
      rw [State.set_self] at hphase'
      cases hphase'
      exact .inl ⟨rfl, rfl⟩
    · rw [State.set_of_ne s hu] at hphase'
      exact .inr ⟨hu, hphase'⟩
  cases h with
  | none hnone hd =>
    refine .none (fun u phase' hphase' => ?_) (hd.trans hdisk.symm)
    rcases hset u phase' hphase' with ⟨rfl, rfl⟩ | ⟨-, hwas⟩
    · exact hhalf
    · exact hnone u phase' hwas
  | @one v phase' hphase' hhalf' hother hd =>
    have hv : v ≠ t := by
      rintro rfl
      cases (hphase phase' hphase').symm.trans hhalf'
    refine .one ((State.set_of_ne s hv).trans hphase') hhalf' (fun u hu phase'' hphase'' => ?_) ?_
    · rcases hset u phase'' hphase'' with ⟨rfl, rfl⟩ | ⟨-, hwas⟩
      · exact hhalf
      · exact hother u hu phase'' hwas
    · rw [hd, State.set_directory, hdisk]

theorem Pending.of_next (hother : NoOther calls s t)
    (hd : d = ((calls t).outcome phase dir.disk).2)
    (hstops : (calls t).halfWay phase = false → ((calls t).outcome phase dir.disk).2 = dir.disk) :
    Pending calls (s.set t phase dir holders) d := by
  have hset : ∀ u, u ≠ t → ∀ phase' ∈ (s.set t phase dir holders).phases u,
      (calls u).halfWay phase' = false := by
    intro u hu phase' hphase'
    rw [State.set_of_ne s hu] at hphase'
    exact hother u hu phase' hphase'
  cases hhalf : (calls t).halfWay phase with
  | true => exact .one (State.set_self s) hhalf hset hd
  | false =>
    refine .none (fun u phase' hphase' => ?_) (hd.trans (hstops hhalf))
    by_cases hu : u = t
    · subst hu
      rw [State.set_self] at hphase'
      cases hphase'
      exact hhalf
    · exact hset u hu phase' hphase'

theorem InOrder.set (h : InOrder calls init order s)
    (hnow : now = [] ∧ (t ∈ order ↔ (calls t).TookEffect phase) ∨
      now = [t] ∧ t ∉ order ∧ (calls t).TookEffect phase)
    (hknows : (calls t).Knows phase)
    (hremoving : phase.Removing →
      (calls t).files.readRecords = none ∧ (calls t).files.writeRecords = none)
    (hpending : Pending calls (s.set t phase dir holders)
      (replay calls now (replay calls order init))) :
    InOrder calls init (order ++ now) (s.set t phase dir holders) where
  nodup := by
    rcases hnow with ⟨rfl, -⟩ | ⟨rfl, hmem, -⟩
    · simpa using h.nodup
    · exact List.nodup_append.mpr ⟨h.nodup, List.nodup_singleton t, by
        rintro u hu v hv rfl
        exact hmem (List.mem_singleton.mp hv ▸ hu)⟩
  mem u := by
    by_cases hu : u = t
    · subst hu
      rw [State.set_self, List.mem_append]
      rcases hnow with ⟨rfl, hmem⟩ | ⟨rfl, hmem, htook⟩
      · simpa using hmem
      · simpa using htook
    · rw [State.set_of_ne s hu, ← h.mem, List.mem_append]
      rcases hnow with ⟨rfl, -⟩ | ⟨rfl, -⟩
      · simp
      · simp [hu]
  knows u phase' hphase' := by
    by_cases hu : u = t
    · subst hu
      rw [State.set_self] at hphase'
      cases hphase'
      exact hknows
    · exact h.knows u phase' ((State.set_of_ne s hu).symm.trans hphase')
  removing u phase' hphase' := by
    by_cases hu : u = t
    · subst hu
      rw [State.set_self] at hphase'
      cases hphase'
      exact hremoving
    · exact h.removing u phase' ((State.set_of_ne s hu).symm.trans hphase')
  pending := by
    rw [replay_append]
    exact hpending

variable [DecidableEq υ] {store : τ → υ}

omit [DecidableEq υ] in
theorem InOrder.advance {next : Phase × Directory} (h : InOrder calls init order s)
    (hphase : s.phases t = some phase) (hadvance : (calls t).Advance s.directory phase next)
    (hundisturbed : (calls t).Undisturbed s.directory phase)
    (hother : (calls t).Commits s.directory phase → NoOther calls s t) :
    ∃ now, InOrder calls init (order ++ now) (s.set t next.1 next.2 s.holders) := by
  have hknows := h.knows t phase hphase
  have hknows' := Call.advance_knows hadvance hknows
  have hremoving := Call.advance_removing hadvance hknows (h.removing t phase hphase)
  have hmem := h.mem_iff hphase
  cases hhalf : (calls t).halfWay phase with
  | true =>
    obtain ⟨hnone, hd⟩ := h.pending.halfWay hphase hhalf
    have htook := Call.tookEffect_of_halfWay hhalf
    refine ⟨[], h.set (.inl ⟨rfl, hmem.trans (iff_of_true htook
      (Call.advance_halfWay hadvance hhalf))⟩) hknows' hremoving (.of_next hnone ?_ fun hstops =>
        Call.outcome_of_not_halfWay hadvance (.inr hhalf) hstops _)⟩
    rw [Call.outcome_advance hadvance hundisturbed]
    exact hd
  | false =>
    have hcalm : ∀ phase' ∈ s.phases t, (calls t).halfWay phase' = false := by
      rw [hphase]
      rintro phase' ⟨⟩
      exact hhalf
    by_cases hcommits : (calls t).Commits s.directory phase
    · obtain ⟨htook, htook', happly⟩ :=
        Call.advance_commits hadvance hknows hundisturbed hcommits hhalf
      refine ⟨[t], h.set (.inr ⟨rfl, fun ht => htook (hmem.mp ht), htook'⟩) hknows' hremoving
        (.of_next (hother hcommits) ?_ fun hstops =>
          Call.outcome_of_not_halfWay hadvance (.inl hcommits) hstops _)⟩
      rw [h.pending.of_noOther hcalm (hother hcommits)]
      exact happly
    · obtain ⟨hdisk, hhalf', htook | ⟨htook, htook', happly⟩⟩ :=
        Call.advance_quiet hadvance hknows hundisturbed hcommits hhalf
      · exact ⟨[], h.set (.inl ⟨rfl, hmem.trans htook⟩) hknows' hremoving
          (h.pending.frame hcalm hhalf' hdisk)⟩
      · refine ⟨[t], h.set (.inr ⟨rfl, fun ht => htook (hmem.mp ht), htook'⟩) hknows' hremoving
          (Pending.frame ?_ hcalm hhalf' hdisk)⟩
        show Pending calls s ((calls t).apply (replay calls order init))
        rw [happly _ h.pending.records]
        exact h.pending

/-- **One step keeps the order**, if it meets the condition. -/
theorem InOrder.step {label : Label τ} {s' : State τ υ} (h : InOrder calls init order s)
    (hapart : Apart calls s label) (hstep : step calls store s label = some s') :
    ∃ now, InOrder calls init (order ++ now) s' := by
  cases label with
  | call t =>
    obtain ⟨hphase, rfl⟩ := step_call hstep
    have hmem : t ∉ order := by simp [h.mem, hphase]
    refine ⟨[], h.set (.inl ⟨rfl, iff_of_false hmem id⟩) trivial False.elim (h.pending.frame ?_ rfl rfl)⟩
    simp [hphase]
  | go t =>
    cases step_go hstep with
    | locked hphase =>
      obtain ⟨hknows, htook, hremoving, hhalf⟩ := (calls t).first_spec
      refine ⟨[], h.set (.inl ⟨rfl, (h.mem_iff hphase).trans (iff_of_false id htook)⟩) hknows
        (fun h => (hremoving h).elim) (h.pending.frame ?_ hhalf rfl)⟩
      rw [hphase]
      rintro phase ⟨⟩
      rfl
    | unlocked hphase =>
      refine ⟨[], h.set (.inl ⟨rfl, (h.mem_iff hphase).trans Iff.rfl⟩) trivial
        (fun hremoving => h.removing t _ hphase hremoving) (h.pending.frame ?_ rfl rfl)⟩
      rw [hphase]
      rintro phase ⟨⟩
      rfl
    | @advanced phase next hphase hadvance =>
      obtain ⟨hundisturbed, hother⟩ := hapart phase hphase
      exact h.advance hphase (Call.advance_cases hadvance) hundisturbed hother

omit [DecidableEq τ] [DecidableEq υ] in
theorem InOrder.start (init : Disk) :
    InOrder calls init [] (State.init init : State τ υ) where
  nodup := List.nodup_nil
  mem t := by simp [State.init]
  knows t phase hphase := by cases hphase
  removing t phase hphase := by cases hphase
  pending := .none (fun t phase hphase => by cases hphase) rfl

/-- A call has begun once it has a phase, and has ended once it is done. -/
def callTimes : Linear.Calls (State τ υ) τ where
  begun s t := (s.phases t).isSome = true
  ended s t := ∃ result, s.phases t = some (.done result)

variable (calls store init) in
def inOrder : Linear.Simulation (step calls store) callTimes (Apart calls) where
  Rel := InOrder calls init
  step h hapart hstep := h.step hapart hstep
  nodup h := h.nodup
  begun h hmem := by
    obtain ⟨phase, hphase, -⟩ := (h.mem _).mp hmem
    exact Option.isSome_iff_exists.mpr ⟨phase, hphase⟩
  ended h hended := by
    obtain ⟨result, hphase⟩ := hended
    exact (h.mem _).mpr ⟨_, hphase, trivial⟩

instance (s : State τ υ) (t : τ) : Decidable (callTimes.begun s t) :=
  inferInstanceAs (Decidable ((s.phases t).isSome = true))

instance (s : State τ υ) (t : τ) : Decidable (callTimes.ended s t) :=
  match h : s.phases t with
  | some (.done result) => isTrue ⟨result, h⟩
  | none | some .locking | some .readingRecords | some (.writingRecords _ _)
  | some (.renamingRecords _ _) | some (.readingGrants _) | some (.writingGrants _ _ _)
  | some (.renamingGrants _ _ _) | some (.unlocking _) =>
    isFalse (by rintro ⟨result, hdone⟩; cases h.symm.trans hdone)

/-- **Several writers leave what some order of their calls leaves**, as long as they keep apart;
the order keeps to real time. -/
theorem files_linearizable {labels : List (Label τ)}
    (hapart : Machine.Along (step calls store) (Apart calls) (State.init init) labels)
    (hrun : Machine.run (step calls store) (State.init init) labels = some s)
    (hended : ∀ t, callTimes.begun s t → callTimes.ended s t) :
    ∃ order : List τ, order.Nodup ∧ (∀ t, t ∈ order ↔ callTimes.begun s t) ∧
      s.directory.disk = replay calls order init ∧
      Linear.InRealTime (step calls store) callTimes (State.init init) labels order ∧
      ∀ t id, (calls t).request = .revoke id → s.phases t = some (.done (.ok (.revoked true))) →
        s.directory.disk.HasKey id →
          ∃ u record, [t, u].Sublist order ∧ (calls u).request = .save record ∧ record.id = id := by
  obtain ⟨order, hrel, htime⟩ := (inOrder calls init store).linearization
    (InOrder.start init) hapart hrun
  rw [List.nil_append] at hrel htime
  have hdisk : s.directory.disk = replay calls order init := by
    cases hrel.pending with
    | none _ hdisk => exact hdisk.symm
    | @one t phase hphase hhalf _ _ =>
      obtain ⟨result, hdone⟩ := hended t (Option.isSome_iff_exists.mpr ⟨phase, hphase⟩)
      cases hphase.symm.trans hdone
      cases hhalf
  refine ⟨order, hrel.nodup, fun t => ⟨(inOrder calls init store).begun hrel,
    fun h => (inOrder calls init store).ended hrel (hended t h)⟩, hdisk, htime,
    fun t id hrequest hphase hid => ?_⟩
  obtain ⟨hread, hwrite⟩ := hrel.removing t _ hphase rfl
  rw [hdisk] at hid
  exact replay_revoked ((hrel.mem_iff hphase).mpr trivial) hrequest hread hwrite hid

end Order

/-! ### Two stores on one path -/

def pairing (id : String) : PairingRecord := ⟨id, id, .filled 0⟩

/-- `maho-host --revoke lost`, and a host that runs and approves another client. -/
def revokeAndSave : Bool → Call
  | false => ⟨.revoke "lost", .ok, false, false⟩
  | true => ⟨.save (pairing "new"), .ok, false, false⟩

def paired : Disk := ⟨[pairing "lost"], ∅⟩

/-- The revocation before the new pairing. -/
def revokeThenSave : List (Label Bool) :=
  (.call false :: List.replicate 6 (.go false) : List (Label Bool)) ++
    (.call true :: List.replicate 5 (.go true) : List (Label Bool))

theorem files_linearizable_revokeThenSave : ∃ (s : State Bool Bool) (order : List Bool),
    order.Nodup ∧
    (∀ t, t ∈ order ↔ callTimes.begun s t) ∧
    s.directory.disk = replay revokeAndSave order paired ∧
    Linear.InRealTime (step revokeAndSave id) callTimes (State.init paired) revokeThenSave order ∧
    ∀ t key, (revokeAndSave t).request = .revoke key →
      s.phases t = some (.done (.ok (.revoked true))) → s.directory.disk.HasKey key →
        ∃ u record, [t, u].Sublist order ∧ (revokeAndSave u).request = .save record ∧
          record.id = key := by
  have hrun : ((Machine.run (step revokeAndSave id) (State.init paired) revokeThenSave).any
      fun s => decide (∀ t, callTimes.begun s t → callTimes.ended s t)) = true := by
    decide
  obtain ⟨s, hs, hended⟩ := (Option.any_eq_true _ _).mp hrun
  exact ⟨s, files_linearizable (by decide) hs (of_decide_eq_true hended)⟩

/-- The host has read the records before the revocation, and writes them after it. -/
def revokeAroundSave : List (Label Bool) :=
  ([.call true, .go true, .go true, .call false] : List (Label Bool)) ++
    (List.replicate 6 (.go false) : List (Label Bool)) ++
    (List.replicate 3 (.go true) : List (Label Bool))

/-- **A revoked pairing comes back.** -/
theorem revoked_pairing_back : ∃ s : State Bool Bool,
    Machine.run (step revokeAndSave id) (State.init paired) revokeAroundSave = some s ∧
      (∀ t, callTimes.ended s t) ∧ s.phases false = some (.done (.ok (.revoked true))) ∧
      s.directory.disk.HasKey "lost" ∧
      ∀ order : List Bool, order.Nodup → (∀ t, t ∈ order) →
        s.directory.disk ≠ replay revokeAndSave order paired := by
  have hrun : ((Machine.run (step revokeAndSave id) (State.init paired) revokeAroundSave).any
      fun s => decide ((∀ t, callTimes.ended s t) ∧
        s.phases false = some (.done (.ok (.revoked true))) ∧
        s.directory.disk.records = [pairing "lost", pairing "new"])) = true := by
    decide
  obtain ⟨s, hs, hend⟩ := (Option.any_eq_true _ _).mp hrun
  obtain ⟨hended, hrevoked, hrecords⟩ := of_decide_eq_true hend
  refine ⟨s, hs, hended, hrevoked, ⟨pairing "lost", by simp [hrecords], rfl⟩,
    fun order hnodup hall hdisk => ?_⟩
  have hperm : order.Perm [false, true] :=
    (List.perm_ext_iff_of_nodup hnodup (by decide)).mpr fun t => by simp [hall]
  have hreplay : (replay revokeAndSave order paired).records =
      [pairing "lost", pairing "new"] := hdisk ▸ hrecords
  rcases List.perm_pair.mp hperm with rfl | rfl
  · exact absurd hreplay (by decide)
  · exact absurd hreplay (by decide)

end MahoRD.StoreWriters
