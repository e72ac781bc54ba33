/-
MahoRD/App/PairingLock.lean

Any number of calls on one pairing store at once (`PairingStore` and `StoreFileLock` in
`maho-app/src/pairing.rs`).  A step is one operation of one call: it takes the lock, looks
whether the file is there, tries a candidate of the migration, reads, renames a new file into
place, or lets the lock go.

On Unix the lock excludes (`flock`); elsewhere it only opens the lock file, and any number of
calls hold it.  `load_all` by itself takes no lock, though its migration writes.
-/
import MahoRD.App.PairingFile
import MahoRD.Lib.Machine

namespace MahoRD.ClientPairing

inductive Phase
  | acquiring
  /-- Before `path.exists()`. -/
  | checking
  | legacy (candidates : List Path)
  | migrating (records : List PairingRecord)
  | reading
  /-- It has loaded the records, and will write. -/
  | writing (records : List PairingRecord)
  | releasing (result : Except PairingStoreError Reply)
  | done (result : Except PairingStoreError Reply)

namespace Call

variable (place : Place) (call : Call)

def entered : Phase :=
  match call.request.precheck with
  | .error e => .done (.error e)
  | .ok _ => if call.request.locks then .acquiring else .checking

def finished (result : Except PairingStoreError Reply) : Phase :=
  if call.request.locks then .releasing result else .done result

def loaded : Except PairingStoreError (List PairingRecord) → Phase
  | .error e => call.finished (.error e)
  | .ok records =>
    if (call.request.rewrite records).isSome then .writing records
    else call.finished (.ok (call.request.reply records))

/-- One file operation between the lock and its release. -/
def advance : Phase → Content → Option (Phase × Content)
  | .checking, store =>
    some (if store.isSome then .reading
      else .legacy (legacyMigrationCandidates place.path), store)
  | .legacy [], store => some (.reading, store)
  | .legacy (candidate :: candidates), store =>
    if candidate = place.path then some (.legacy candidates, store)
    else
      match place.others candidate with
      | none => some (.legacy candidates, store)
      | some (.error e) => some (call.finished (.error e), store)
      | some (.ok bytes) =>
        match place.parse bytes with
        | .error e => some (call.finished (.error e), store)
        | .ok [] => some (.legacy candidates, store)
        | .ok records => some (.migrating records, store)
  | .migrating records, store =>
    let (result, store') := place.writeRecords call.outcomes.migration records store
    some (call.loaded (result.map fun _ => records), store')
  | .reading, store => some (call.loaded (place.readRecords call.outcomes.read store), store)
  | .writing records, store =>
    let (result, store') := call.onLoaded place (.ok records, store)
    some (call.finished result, store')
  | .acquiring, _ | .releasing _, _ | .done _, _ => none

/-- What an operation of a call does. -/
inductive Advance (store : Content) : Phase → Phase × Content → Prop
  | present (h : store.isSome = true) : Advance store .checking (.reading, store)
  | absent (h : store = none) :
      Advance store .checking (.legacy (legacyMigrationCandidates place.path), store)
  | skipped {candidates candidates'}
      (h : place.legacyRecords candidates' = place.legacyRecords candidates) :
      Advance store (.legacy candidates) (.legacy candidates', store)
  | exhausted : Advance store (.legacy []) (.reading, store)
  | broken {candidates e} (h : place.legacyRecords candidates = .error e) :
      Advance store (.legacy candidates) (call.finished (.error e), store)
  | found {candidates records} (h : place.legacyRecords candidates = .ok (some records)) :
      Advance store (.legacy candidates) (.migrating records, store)
  | migrated {records} : Advance store (.migrating records)
      (call.loaded ((place.writeRecords call.outcomes.migration records store).1.map
        fun _ => records), (place.writeRecords call.outcomes.migration records store).2)
  | read : Advance store .reading
      (call.loaded (place.readRecords call.outcomes.read store), store)
  | wrote {records} : Advance store (.writing records)
      (call.finished (call.onLoaded place (.ok records, store)).1,
        (call.onLoaded place (.ok records, store)).2)

variable {place call}

theorem advance_cases {phase : Phase} {store : Content} {next : Phase × Content}
    (h : call.advance place phase store = some next) : call.Advance place store phase next := by
  cases phase with
  | acquiring => cases h
  | checking =>
    cases store with
    | none =>
      cases h
      exact .absent rfl
    | some bytes =>
      cases h
      exact .present rfl
  | legacy candidates =>
    cases candidates with
    | nil =>
      cases h
      exact .exhausted
    | cons candidate candidates =>
      have hrecords := Place.legacyRecords.eq_2 place candidate candidates
      simp only [advance] at h
      split at h
      · rename_i hpath
        cases h
        rw [if_pos hpath] at hrecords
        exact .skipped hrecords.symm
      · rename_i hpath
        rw [if_neg hpath] at hrecords
        split at h
        · rename_i hfile
          cases h
          rw [hfile] at hrecords
          exact .skipped hrecords.symm
        · rename_i e hfile
          cases h
          rw [hfile] at hrecords
          exact .broken hrecords
        · rename_i bytes hfile
          simp only [hfile] at hrecords
          split at h
          · rename_i e hparse
            cases h
            rw [hparse] at hrecords
            exact .broken hrecords
          · rename_i hparse
            cases h
            rw [hparse] at hrecords
            exact .skipped hrecords.symm
          · rename_i records hnil hparse
            cases h
            simp only [hparse] at hrecords
            exact .found hrecords
  | migrating records =>
    cases h
    exact .migrated
  | reading =>
    cases h
    exact .read
  | writing records =>
    cases h
    exact .wrote
  | releasing result => cases h
  | done result => cases h

end Call

/-! ### The machine -/

structure State (τ : Type*) where
  store : Content
  holders : List τ
  phases : τ → Option Phase

inductive Label (τ : Type*)
  | call (t : τ)
  | go (t : τ)

variable {τ : Type*}

namespace State

def init (store : Content) : State τ := ⟨store, [], fun _ => none⟩

variable [DecidableEq τ]

/-- The call `t` moves on. -/
def set (s : State τ) (t : τ) (phase : Phase) (store : Content) (holders : List τ) : State τ :=
  ⟨store, holders, Function.update s.phases t (some phase)⟩

variable (s : State τ) {t u : τ} {phase : Phase} {store : Content} {holders : List τ}

@[simp] theorem set_store : (s.set t phase store holders).store = store := rfl

@[simp] theorem set_holders : (s.set t phase store holders).holders = holders := rfl

@[simp] theorem set_self : (s.set t phase store holders).phases t = some phase :=
  Function.update_self _ _ _

theorem set_of_ne (h : u ≠ t) : (s.set t phase store holders).phases u = s.phases u :=
  Function.update_of_ne h _ _

end State

section Machine

variable [DecidableEq τ] (place : Place) (exclusive : Bool) (calls : τ → Call)

def step (s : State τ) : Label τ → Option (State τ)
  | .call t =>
    match s.phases t with
    | none => some (s.set t (calls t).entered s.store s.holders)
    | some _ => none
  | .go t =>
    match s.phases t with
    | none => none
    | some .acquiring =>
      if (calls t).outcomes.lock then
        -- `LockExclusive` waits for the holder
        if exclusive ∧ s.holders ≠ [] then none
        else some (s.set t .checking s.store (t :: s.holders))
      else some (s.set t (.done (.error .io)) s.store s.holders)
    | some (.releasing result) =>
      some (s.set t (.done result) s.store (s.holders.erase t))
    | some phase =>
      ((calls t).advance place phase s.store).map fun next =>
        s.set t next.1 next.2 s.holders

/-- What a step of a call does. -/
inductive Go (s : State τ) (t : τ) : State τ → Prop
  | refused (hphase : s.phases t = some .acquiring) (hlock : (calls t).outcomes.lock = false) :
      Go s t (s.set t (.done (.error .io)) s.store s.holders)
  | acquired (hphase : s.phases t = some .acquiring) (hlock : (calls t).outcomes.lock = true)
      (hfree : exclusive = true → s.holders = []) :
      Go s t (s.set t .checking s.store (t :: s.holders))
  | released {result} (hphase : s.phases t = some (.releasing result)) :
      Go s t (s.set t (.done result) s.store (s.holders.erase t))
  | advanced {phase next} (hphase : s.phases t = some phase)
      (hadvance : (calls t).advance place phase s.store = some next) :
      Go s t (s.set t next.1 next.2 s.holders)

variable {place exclusive calls}

theorem step_go {s s' : State τ} {t : τ} (h : step place exclusive calls s (.go t) = some s') :
    Go place exclusive calls s t s' := by
  simp only [step] at h
  split at h
  · cases h
  · rename_i hphase
    split at h
    · rename_i hlock
      split at h
      · cases h
      · rename_i hfree
        cases h
        refine .acquired hphase hlock fun hexclusive => ?_
        by_contra hheld
        exact hfree ⟨hexclusive, hheld⟩
    · rename_i hlock
      cases h
      exact .refused hphase (by simpa using hlock)
  · rename_i hphase
    cases h
    exact .released hphase
  · rename_i hphase
    obtain ⟨next, hadvance, rfl⟩ := Option.map_eq_some_iff.mp h
    exact .advanced hphase hadvance

theorem step_call {s s' : State τ} {t : τ} (h : step place exclusive calls s (.call t) = some s') :
    s.phases t = none ∧ s' = s.set t (calls t).entered s.store s.holders := by
  simp only [step] at h
  split at h
  · rename_i hphase
    cases h
    exact ⟨hphase, rfl⟩
  · cases h

end Machine

/-! ### What a call still has to do -/

namespace Call

variable (place : Place) (call : Call)

/-- The answer of the call and what the file will hold, if nothing comes in between. -/
def outcome : Phase → Content → Except PairingStoreError Reply × Content
  | .acquiring, store =>
    if call.outcomes.lock then call.onLoaded place (place.loadAll call.outcomes store)
    else (.error .io, store)
  | .checking, store => call.onLoaded place (place.loadAll call.outcomes store)
  | .legacy candidates, store =>
    call.onLoaded place (place.migrate call.outcomes (place.legacyRecords candidates) store)
  | .migrating records, store =>
    call.onLoaded place (place.migrate call.outcomes (.ok (some records)) store)
  | .reading, store => call.onLoaded place (place.readRecords call.outcomes.read store, store)
  | .writing records, store => call.onLoaded place (.ok records, store)
  | .releasing result, store | .done result, store => (result, store)

variable {place call}

theorem outcome_finished (result : Except PairingStoreError Reply) (store : Content) :
    call.outcome place (call.finished result) store = (result, store) := by
  unfold finished
  split <;> rfl

theorem outcome_loaded (result : Except PairingStoreError (List PairingRecord)) (store : Content) :
    call.outcome place (call.loaded result) store = call.onLoaded place (result, store) := by
  cases result with
  | error e => exact outcome_finished _ _
  | ok records =>
    simp only [loaded, onLoaded]
    cases h : call.request.rewrite records with
    | none => exact outcome_finished _ _
    | some records' =>
      rw [Option.isSome_some, if_pos rfl]
      simp only [outcome, onLoaded, h]

/-- **The operations of a call add up.** -/
theorem outcome_advance {phase : Phase} {store : Content} {next : Phase × Content}
    (h : call.advance place phase store = some next) :
    call.outcome place next.1 next.2 = call.outcome place phase store := by
  cases advance_cases h with
  | present hstore =>
    obtain ⟨bytes, rfl⟩ := Option.isSome_iff_exists.mp hstore
    rfl
  | absent hstore =>
    subst hstore
    rfl
  | skipped hrecords => simp only [outcome, hrecords]
  | exhausted => rfl
  | broken hrecords =>
    rw [outcome_finished, outcome, hrecords]
    rfl
  | found hrecords => rw [outcome, outcome, hrecords]
  | migrated => exact outcome_loaded _ _
  | read => exact outcome_loaded _ _
  | wrote => exact outcome_finished _ _

end Call

section Alone

variable [DecidableEq τ] {place : Place} {exclusive : Bool} {calls : τ → Call}

end Alone

end MahoRD.ClientPairing
