/-
MahoRD/App/PairingOrder.lean

The calls on a pairing store have an order, as long as they keep apart (`linearizable`).

A call that locks takes effect when it looks whether the file is there: under the lock nothing
but a migration can come in between, and the call would have migrated the same records itself.
A `load_all` that finds the file, or has nothing to migrate, takes effect when it looks; any
other when it renames the migrated file into place.
-/
import MahoRD.App.PairingLock
import MahoRD.Lib.Linear
import Mathlib.Data.List.Permutation
import Mathlib.Data.Fintype.Basic

namespace MahoRD.ClientPairing

/-! ### Where a call takes effect -/

/-- A call that locks holds the lock. -/
def Phase.Inside : Phase → Prop
  | .acquiring | .done _ => False
  | _ => True

namespace Call

variable (place : Place) (call : Call)

def TookEffect : Phase → Prop
  | .acquiring | .checking => False
  | .legacy _ => call.request.locks = true ∨ ∀ records, place.migration ≠ .ok (some records)
  | .migrating _ => call.request.locks = true
  | _ => True

/-- What a call knows in a phase. -/
def Knows (store : Content) : Phase → Prop
  | .acquiring => call.request.locks = true ∧ call.request.precheck = .ok ()
  | .checking =>
    call.request.precheck = .ok () ∧ (call.request.locks = true → call.outcomes.lock = true)
  | .legacy candidates => place.legacyRecords candidates = place.migration
  | .migrating records => place.migration = .ok (some records)
  | .reading => store = none → place.migration = .ok none
  | .writing _ | .releasing _ => call.request.locks = true
  | .done _ => True

/-- What the file will hold when the call has ended, as far as it has taken effect. -/
def finish : Phase → Content → Content
  | .acquiring, store | .checking, store => store
  | phase, store => (call.outcome place phase store).2

variable {place call} {phase phase' : Phase} {store store' : Content}

theorem finish_eq (h : call.TookEffect place phase) :
    call.finish place phase store = (call.outcome place phase store).2 := by
  cases phase <;> first | rfl | exact h.elim

theorem outcome_migrating (records : List PairingRecord) :
    (call.outcome place (.migrating records) store).2 =
      ((call.rewritten place
        ((place.writeRecords call.outcomes.migration records none).1.map fun _ => records)).or
          (place.written call.outcomes.migration records)).or store := by
  simp only [outcome, onLoaded_snd, Place.migrate]
  rw [place.writeRecords_fst, place.writeRecords_snd, Option.or_assoc]

/-- Where there is something to migrate, what a call will write is settled before it reads. -/
theorem finish_eq_or {records : List PairingRecord} (hknows : call.Knows place none phase)
    (hmigration : place.migration = .ok (some records)) :
    ∃ written : Content, ∀ store, call.finish place phase store = written.or store := by
  cases phase with
  | acquiring | checking | releasing | done => exact ⟨none, fun store => rfl⟩
  | legacy candidates =>
    have hlegacy : ∀ store, call.finish place (.legacy candidates) store =
        (call.outcome place (.migrating records) store).2 := by
      intro store
      simp only [finish, outcome]
      rw [hknows.trans hmigration]
    exact ⟨_, fun store => (hlegacy store).trans (outcome_migrating records)⟩
  | migrating records' => exact ⟨_, fun store => outcome_migrating records'⟩
  | reading => cases (hknows rfl).symm.trans hmigration
  | writing records' =>
    exact ⟨call.rewritten place (.ok records'), fun store => call.onLoaded_snd place (_, store)⟩

theorem finish_isSome (h : store.isSome) : (call.finish place phase store).isSome := by
  cases phase with
  | acquiring | checking | releasing | done => exact h
  | migrating records =>
    simp only [finish, outcome_migrating, Option.isSome_or, h, Bool.or_true]
  | reading | writing =>
    simp only [finish, outcome, onLoaded_snd, Option.isSome_or, h, Bool.or_true]
  | legacy candidates =>
    have hmigrate : ∀ found, (place.migrate call.outcomes found store).2.isSome := by
      rintro (e | - | records)
      · exact h
      · exact h
      · simp only [Place.migrate, place.writeRecords_snd, Option.isSome_or, h, Bool.or_true]
    simp only [finish, outcome, onLoaded_snd, Option.isSome_or, hmigrate, Bool.or_true]

/-! ### One operation -/

theorem locks_of_rewrite {records : List PairingRecord}
    (h : (call.request.rewrite records).isSome) : call.request.locks = true := by
  cases hlocks : call.request.locks with
  | true => rfl
  | false =>
    rw [Request.locks_eq_false.mp hlocks] at h
    cases h

/-- What holds of a phase in which the records have been loaded. -/
structure Loaded (place : Place) (call : Call) (store : Content) (phase : Phase) : Prop where
  tookEffect : call.TookEffect place phase
  knows : call.Knows place store phase
  inside : phase.Inside ↔ call.request.locks = true

variable (store) in
theorem finished_spec (result : Except PairingStoreError Reply) :
    Loaded place call store (call.finished result) := by
  unfold finished
  cases hlocks : call.request.locks with
  | false => exact ⟨trivial, trivial, False.elim, fun h => Bool.false_ne_true (hlocks.symm.trans h)⟩
  | true => exact ⟨trivial, hlocks, fun _ => hlocks, fun _ => trivial⟩

variable (store) in
theorem loaded_spec (loaded : Except PairingStoreError (List PairingRecord)) :
    Loaded place call store (call.loaded loaded) := by
  cases loaded with
  | error e => exact finished_spec store _
  | ok records =>
    rw [Call.loaded]
    split
    · rename_i hrewrite
      have hlocks := locks_of_rewrite hrewrite
      exact ⟨trivial, hlocks, fun _ => hlocks, fun _ => trivial⟩
    · exact finished_spec store _

variable {next : Phase × Content}

theorem advance_spec (h : call.advance place phase store = some next)
    (hknows : call.Knows place store phase) :
    call.Knows place next.2 next.1 ∧ phase.Inside ∧
      (call.request.locks = true → next.1.Inside ∧ call.TookEffect place next.1) ∧
      (store.isSome = true → next.2.isSome = true) := by
  cases advance_cases h with
  | present hstore =>
    refine ⟨fun hnone => ?_, trivial, fun _ => ⟨trivial, trivial⟩, id⟩
    obtain rfl : store = none := hnone
    cases hstore
  | absent hstore => exact ⟨rfl, trivial, fun hlocks => ⟨trivial, .inl hlocks⟩, id⟩
  | skipped hrecords =>
    exact ⟨hrecords.trans hknows, trivial, fun hlocks => ⟨trivial, .inl hlocks⟩, id⟩
  | exhausted => exact ⟨fun _ => hknows.symm, trivial, fun _ => ⟨trivial, trivial⟩, id⟩
  | broken hrecords =>
    obtain ⟨htook, hknows', hinside⟩ := finished_spec store _
    exact ⟨hknows', trivial, fun hlocks => ⟨hinside.mpr hlocks, htook⟩, id⟩
  | found hrecords =>
    exact ⟨hknows.symm.trans hrecords, trivial, fun hlocks => ⟨trivial, hlocks⟩, id⟩
  | migrated =>
    obtain ⟨htook, hknows', hinside⟩ := loaded_spec _ _
    refine ⟨hknows', trivial, fun hlocks => ⟨hinside.mpr hlocks, htook⟩, fun hstore => ?_⟩
    rw [place.writeRecords_snd, Option.isSome_or, hstore, Bool.or_true]
  | read =>
    obtain ⟨htook, hknows', hinside⟩ := loaded_spec store _
    exact ⟨hknows', trivial, fun hlocks => ⟨hinside.mpr hlocks, htook⟩, id⟩
  | wrote =>
    obtain ⟨htook, hknows', hinside⟩ := finished_spec _ _
    refine ⟨hknows', trivial, fun hlocks => ⟨hinside.mpr hlocks, htook⟩, fun hstore => ?_⟩
    rw [onLoaded_snd, Option.isSome_or, hstore, Bool.or_true]

/-- A `load_all` by itself writes only when it migrates.  Where it takes effect before, it does
nothing. -/
theorem advance_unlocked (h : call.advance place phase store = some next)
    (hknows : call.Knows place store phase) (hlocks : call.request.locks = false)
    (hphase : ∀ records, phase ≠ .migrating records) :
    next.2 = store ∧ ((call.TookEffect place phase ↔ call.TookEffect place next.1) ∨
      ¬ call.TookEffect place phase ∧ call.TookEffect place next.1 ∧
        ∀ content : Content, (store.isSome = true → content.isSome = true) →
          call.apply place content = content) := by
  have hloadAll := Request.locks_eq_false.mp hlocks
  cases advance_cases h with
  | present hstore =>
    refine ⟨rfl, .inr ⟨id, trivial, fun content hcontent => ?_⟩⟩
    rw [call.apply_loadAll place hloadAll, Option.or_of_isSome (hcontent hstore)]
  | absent hstore =>
    refine ⟨rfl, ?_⟩
    by_cases hnone : ∀ records, place.migration ≠ .ok (some records)
    · refine .inr ⟨id, .inr hnone, fun content _ => ?_⟩
      have hmigrated : call.migrated place = none := by
        unfold migrated
        split
        · rename_i records hmigration
          exact (hnone records hmigration).elim
        · rfl
      rw [call.apply_loadAll place hloadAll, hmigrated, Option.or_none]
    · refine .inl ⟨False.elim, fun htook => ?_⟩
      rcases htook with htook | htook
      · exact Bool.false_ne_true (hlocks.symm.trans htook)
      · exact hnone htook
  | skipped hrecords => exact ⟨rfl, .inl Iff.rfl⟩
  | exhausted =>
    refine ⟨rfl, .inl ⟨fun _ => trivial, fun _ => .inr fun records hmigration => ?_⟩⟩
    cases hknows.trans hmigration
  | broken hrecords =>
    refine ⟨rfl, .inl ⟨fun _ => (finished_spec store _).tookEffect, fun _ =>
      .inr fun records hmigration => ?_⟩⟩
    cases hrecords.symm.trans (hknows.trans hmigration)
  | found hrecords =>
    refine ⟨rfl, .inl ⟨fun htook => ?_, fun htook => .inl htook⟩⟩
    rcases htook with htook | htook
    · exact htook
    · exact (htook _ (hknows.symm.trans hrecords)).elim
  | migrated => exact (hphase _ rfl).elim
  | read => exact ⟨rfl, .inl ⟨fun _ => (loaded_spec store _).tookEffect, fun _ => trivial⟩⟩
  | wrote => exact (Bool.false_ne_true (hlocks.symm.trans hknows)).elim

end Call

/-! ### The order -/

section Order

variable {τ : Type*} (place : Place) (exclusive : Bool) (calls : τ → Call)

/-- The calls one after the other. -/
def replay (order : List τ) (store : Content) : Content :=
  order.foldl (fun store t => (calls t).apply place store) store

/-- What the file will hold when the holder of the lock has let it go. -/
def pending (s : State τ) : Content :=
  match s.holders with
  | [] => s.store
  | t :: _ => (s.phases t).elim s.store fun phase => (calls t).finish place phase s.store

/-- Calls keep apart: who takes the lock finds it free, and a `load_all` by itself renames what it
has migrated into place only where there is still no file, or where that changes nothing. -/
def Apart (s : State τ) : Label τ → Prop
  | .call _ => True
  | .go t =>
    match s.phases t with
    | some .acquiring => (calls t).outcomes.lock = true → exclusive = true ∨ s.holders = []
    | some (.migrating records) =>
      (calls t).request.locks = true ∨ s.store = none ∨
        (place.writeRecords (calls t).outcomes.migration records s.store).2 = s.store
    | _ => True

instance Apart.decidable [DecidableEq τ] (s : State τ) :
    ∀ label, Decidable (Apart place exclusive calls s label)
  | .call _ => isTrue trivial
  | .go t =>
    match h : s.phases t with
    | some .acquiring =>
      decidable_of_iff ((calls t).outcomes.lock = true → exclusive = true ∨ s.holders = [])
        (by simp only [Apart, h])
    | some (.migrating records) =>
      decidable_of_iff ((calls t).request.locks = true ∨ s.store = none ∨
        (place.writeRecords (calls t).outcomes.migration records s.store).2 = s.store)
        (by simp only [Apart, h])
    | none | some .checking | some (.legacy _) | some .reading | some (.writing _)
    | some (.releasing _) | some (.done _) => isTrue (by simp only [Apart, h])

/-- The order so far, against a state. -/
structure InOrder (init : Content) (order : List τ) (s : State τ) : Prop where
  nodup : order.Nodup
  mem : ∀ t, t ∈ order ↔ ∃ phase, s.phases t = some phase ∧ (calls t).TookEffect place phase
  knows : ∀ t phase, s.phases t = some phase → (calls t).Knows place s.store phase
  holds : ∀ t, t ∈ s.holders ↔
    ∃ phase, s.phases t = some phase ∧ (calls t).request.locks = true ∧ phase.Inside
  one : s.holders.length ≤ 1
  content : replay place calls order init = pending place calls s

variable {place exclusive calls} {init : Content} {order : List τ} {s : State τ} {t : τ}
  {phase phase' : Phase} {store : Content}

theorem replay_append (order now : List τ) :
    replay place calls (order ++ now) init =
      replay place calls now (replay place calls order init) := List.foldl_append

theorem pending_eq (hholders : s.holders = [t]) (hphase : s.phases t = some phase) :
    pending place calls s = (calls t).finish place phase s.store := by
  rw [pending, hholders]
  simp only [hphase, Option.elim_some]

theorem pending_nil (hholders : s.holders = []) : pending place calls s = s.store := by
  rw [pending, hholders]

theorem InOrder.mem_iff (h : InOrder place calls init order s) (hphase : s.phases t = some phase) :
    t ∈ order ↔ (calls t).TookEffect place phase := by
  rw [h.mem, hphase]
  simp

theorem InOrder.holds_iff (h : InOrder place calls init order s)
    (hphase : s.phases t = some phase) :
    t ∈ s.holders ↔ (calls t).request.locks = true ∧ phase.Inside := by
  rw [h.holds, hphase]
  simp

theorem InOrder.holders_eq (h : InOrder place calls init order s)
    (hphase : s.phases t = some phase) (hlocks : (calls t).request.locks = true)
    (hinside : phase.Inside) : s.holders = [t] := by
  have hmem : t ∈ s.holders := (h.holds_iff hphase).mpr ⟨hlocks, hinside⟩
  have hone := h.one
  match hholders : s.holders with
  | [] =>
    rw [hholders] at hmem
    cases hmem
  | [u] =>
    rw [hholders] at hmem
    rw [List.mem_singleton.mp hmem]
  | u :: v :: rest =>
    rw [hholders] at hone
    simp at hone

theorem Call.Knows.mono {call : Call} {store' : Content} (h : call.Knows place store phase)
    (hstore : store.isSome = true → store'.isSome = true) : call.Knows place store' phase := by
  cases phase with
  | reading =>
    intro hnone
    refine h ?_
    cases store with
    | none => rfl
    | some bytes =>
      rw [hnone] at hstore
      cases hstore rfl
  | _ => exact h

theorem pending_isSome (h : s.store.isSome = true) : (pending place calls s).isSome = true := by
  unfold pending
  split
  · exact h
  · rename_i u rest hholders
    cases s.phases u with
    | none => exact h
    | some phase => exact Call.finish_isSome h

variable [DecidableEq τ]

theorem InOrder.set (h : InOrder place calls init order s) {now holders : List τ}
    (hnow : now = [] ∧ (t ∈ order ↔ (calls t).TookEffect place phase') ∨
      now = [t] ∧ t ∉ order ∧ (calls t).TookEffect place phase')
    (hknows : (calls t).Knows place store phase')
    (hstore : s.store.isSome = true → store.isSome = true)
    (hself : t ∈ holders ↔ (calls t).request.locks = true ∧ phase'.Inside)
    (hothers : ∀ u, u ≠ t → (u ∈ holders ↔ u ∈ s.holders)) (hone : holders.length ≤ 1)
    (hcontent : replay place calls now (pending place calls s) =
      pending place calls (s.set t phase' store holders)) :
    InOrder place calls init (order ++ now) (s.set t phase' store holders) where
  nodup := by
    rcases hnow with ⟨rfl, -⟩ | ⟨rfl, hnot, -⟩
    · rw [List.append_nil]
      exact h.nodup
    · rw [← List.concat_eq_append]
      exact h.nodup.concat hnot
  mem u := by
    by_cases hu : u = t
    · subst hu
      rcases hnow with ⟨rfl, hmem⟩ | ⟨rfl, -, htook⟩
      · simpa using hmem
      · simpa using htook
    · have hnot : u ∉ now := by
        rcases hnow with ⟨rfl, -⟩ | ⟨rfl, -⟩
        · exact List.not_mem_nil
        · simpa using hu
      rw [s.set_of_ne hu, ← h.mem u]
      simp [hnot]
  knows u phase hphase := by
    by_cases hu : u = t
    · subst hu
      rw [s.set_self] at hphase
      cases hphase
      exact hknows
    · rw [s.set_of_ne hu] at hphase
      exact (h.knows u phase hphase).mono hstore
  holds u := by
    by_cases hu : u = t
    · subst hu
      simpa using hself
    · rw [s.set_of_ne hu, ← h.holds u]
      exact hothers u hu
  one := hone
  content := by rw [replay_append, h.content, hcontent]

theorem pending_set (h : InOrder place calls init order s) (ht : t ∉ s.holders) :
    (∃ u phase, s.holders = [u] ∧ s.phases u = some phase ∧
      ∀ store, pending place calls (s.set t phase' store s.holders) =
        (calls u).finish place phase store) ∨
      s.holders = [] ∧
        ∀ store, pending place calls (s.set t phase' store s.holders) = store := by
  match hholders : s.holders with
  | [] => exact .inr ⟨rfl, fun store => rfl⟩
  | u :: rest =>
    have hu : u ∈ s.holders := by simp [hholders]
    obtain ⟨phase, hphase, hlocks, hinside⟩ := (h.holds u).mp hu
    have hone := h.holders_eq hphase hlocks hinside
    have hne : u ≠ t := by
      rintro rfl
      exact ht hu
    refine .inl ⟨u, phase, by rw [← hholders, hone], hphase, fun store => ?_⟩
    exact pending_eq (by rw [State.set_holders, ← hholders, hone])
      (by rw [s.set_of_ne hne, hphase])

theorem pending_set_store (h : InOrder place calls init order s) (ht : t ∉ s.holders) :
    pending place calls (s.set t phase' s.store s.holders) = pending place calls s := by
  rcases pending_set h ht with ⟨u, phase, hholders, hphase, heq⟩ | ⟨hholders, heq⟩
  · rw [heq, pending_eq hholders hphase]
  · rw [heq, pending_nil hholders]

/-- A `load_all` that renames what it has migrated where there is no file: whoever holds the lock
will have written over it, or would have left it. -/
theorem pending_migrate (h : InOrder place calls init order s) (ht : t ∉ s.holders)
    {records : List PairingRecord} (hmigration : place.migration = .ok (some records))
    (hstore : s.store = none) :
    pending place calls (s.set t phase' store s.holders) = (pending place calls s).or store := by
  rcases pending_set h ht with ⟨u, phase, hholders, hphase, heq⟩ | ⟨hholders, heq⟩
  · obtain ⟨written, hwritten⟩ :=
      Call.finish_eq_or (hstore ▸ h.knows u phase hphase) hmigration
    rw [heq, pending_eq hholders hphase, hwritten, hwritten, hstore, Option.or_none]
  · rw [heq, pending_nil hholders, hstore, Option.none_or]

theorem InOrder.call (h : InOrder place calls init order s) (hphase : s.phases t = none) :
    ∃ now, InOrder place calls init (order ++ now)
      (s.set t (calls t).entered s.store s.holders) := by
  have hholders : t ∉ s.holders := by
    rw [h.holds, hphase]
    simp
  have horder : t ∉ order := by
    rw [h.mem, hphase]
    simp
  have hset : ∀ now phase', (now = [] ∧ ¬ (calls t).TookEffect place phase' ∨
        now = [t] ∧ (calls t).TookEffect place phase' ∧
          (calls t).apply place (pending place calls s) = pending place calls s) →
      (calls t).Knows place s.store phase' →
      ((calls t).request.locks = true → ¬ phase'.Inside) →
      InOrder place calls init (order ++ now) (s.set t phase' s.store s.holders) := by
    intro now phase' hnow hknows hinside
    refine h.set ?_ hknows id ?_ (fun _ _ => Iff.rfl) h.one ?_
    · rcases hnow with ⟨rfl, hnot⟩ | ⟨rfl, htook, -⟩
      · exact .inl ⟨rfl, iff_of_false horder hnot⟩
      · exact .inr ⟨rfl, horder, htook⟩
    · exact iff_of_false hholders fun ⟨hlocks, hphase'⟩ => hinside hlocks hphase'
    · rw [pending_set_store h hholders]
      rcases hnow with ⟨rfl, -⟩ | ⟨rfl, -, happly⟩
      · rfl
      · exact happly
  unfold Call.entered
  cases hcheck : (calls t).request.precheck with
  | error e =>
    refine ⟨[t], hset _ _ (.inr ⟨rfl, trivial, ?_⟩) trivial fun _ => id⟩
    rw [Call.apply, Call.alone, hcheck]
  | ok _ =>
    cases hlocks : (calls t).request.locks with
    | true =>
      exact ⟨[], hset _ _ (.inl ⟨rfl, id⟩) ⟨hlocks, hcheck⟩ fun _ => id⟩
    | false =>
      refine ⟨[], hset _ _ (.inl ⟨rfl, id⟩) ⟨hcheck, fun h => ?_⟩
        fun h => ?_⟩
      · cases hlocks.symm.trans h
      · cases hlocks.symm.trans h

/-- An operation under the lock: the call takes effect when it looks for the file. -/
theorem InOrder.advance_locked (h : InOrder place calls init order s)
    {next : Phase × Content} (hphase : s.phases t = some phase)
    (hadvance : (calls t).advance place phase s.store = some next)
    (hlocks : (calls t).request.locks = true) :
    ∃ now, InOrder place calls init (order ++ now) (s.set t next.1 next.2 s.holders) := by
  obtain ⟨hknows, hinside, hnext, hstore⟩ :=
    Call.advance_spec hadvance (h.knows t phase hphase)
  obtain ⟨hinside', htook⟩ := hnext hlocks
  have hholders := h.holders_eq hphase hlocks hinside
  have hpending : pending place calls (s.set t next.1 next.2 s.holders) =
      ((calls t).outcome place phase s.store).2 := by
    rw [pending_eq (s := s.set t next.1 next.2 s.holders) hholders s.set_self,
      Call.finish_eq htook, State.set_store, Call.outcome_advance hadvance]
  have hset : ∀ now, (now = [] ∧ (t ∈ order ↔ (calls t).TookEffect place next.1) ∨
      now = [t] ∧ t ∉ order ∧ (calls t).TookEffect place next.1) →
      replay place calls now (pending place calls s) =
        ((calls t).outcome place phase s.store).2 →
      InOrder place calls init (order ++ now) (s.set t next.1 next.2 s.holders) := by
    intro now hnow hcontent
    refine h.set hnow hknows hstore ?_ (fun _ _ => Iff.rfl) h.one (hcontent.trans hpending.symm)
    exact iff_of_true (by rw [hholders]; exact List.mem_singleton_self t) ⟨hlocks, hinside'⟩
  by_cases hbefore : (calls t).TookEffect place phase
  · refine ⟨[], hset [] (.inl ⟨rfl, iff_of_true ((h.mem_iff hphase).mpr hbefore) htook⟩) ?_⟩
    show pending place calls s = _
    rw [pending_eq hholders hphase, Call.finish_eq hbefore]
  · refine ⟨[t], hset [t] (.inr ⟨rfl, fun hmem => hbefore ((h.mem_iff hphase).mp hmem), htook⟩) ?_⟩
    show (calls t).apply place (pending place calls s) = _
    have hknown := h.knows t phase hphase
    -- only the look for the file comes before the effect
    cases phase with
    | checking =>
      obtain ⟨hcheck, hlock⟩ := hknown
      rw [pending_eq hholders hphase, Call.apply, Call.alone, hcheck, hlock hlocks]
      simp [Call.finish, Call.outcome]
    | acquiring => cases hadvance
    | legacy candidates => exact (hbefore (.inl hlocks)).elim
    | migrating records => exact (hbefore hlocks).elim
    | _ => exact (hbefore trivial).elim

theorem InOrder.advance_unlocked (h : InOrder place calls init order s)
    {next : Phase × Content} (hphase : s.phases t = some phase)
    (hadvance : (calls t).advance place phase s.store = some next)
    (hlocks : (calls t).request.locks = false)
    (hapart : ∀ records, phase = .migrating records → s.store = none ∨
      (place.writeRecords (calls t).outcomes.migration records s.store).2 = s.store) :
    ∃ now, InOrder place calls init (order ++ now) (s.set t next.1 next.2 s.holders) := by
  have hknown := h.knows t phase hphase
  obtain ⟨hknows, -, -, hstore⟩ := Call.advance_spec hadvance hknown
  have hunlocked : ∀ P, ¬ ((calls t).request.locks = true ∧ P) := fun P ⟨hlocks', _⟩ =>
    Bool.false_ne_true (hlocks.symm.trans hlocks')
  have hfree : t ∉ s.holders := fun hmem => hunlocked _ ((h.holds_iff hphase).mp hmem)
  have hset : ∀ now, (now = [] ∧ (t ∈ order ↔ (calls t).TookEffect place next.1) ∨
      now = [t] ∧ t ∉ order ∧ (calls t).TookEffect place next.1) →
      replay place calls now (pending place calls s) =
        pending place calls (s.set t next.1 next.2 s.holders) →
      InOrder place calls init (order ++ now) (s.set t next.1 next.2 s.holders) :=
    fun now hnow => h.set hnow hknows hstore (iff_of_false hfree (hunlocked _))
      (fun _ _ => Iff.rfl) h.one
  have hloadAll := Request.locks_eq_false.mp hlocks
  by_cases hmigrating : ∃ records, phase = .migrating records
  · obtain ⟨records, rfl⟩ := hmigrating
    have hmigration : place.migration = .ok (some records) := hknown
    cases Call.advance_cases hadvance with
    | migrated =>
      refine ⟨[t], hset [t] (.inr ⟨rfl, fun hmem => hunlocked True ⟨(h.mem_iff hphase).mp hmem,
        trivial⟩, (Call.loaded_spec none _).tookEffect⟩) ?_⟩
      show (calls t).apply place (pending place calls s) = _
      have hmigrated : (calls t).migrated place =
          place.written (calls t).outcomes.migration records := by
        unfold Call.migrated
        rw [hmigration]
      rw [(calls t).apply_loadAll place hloadAll, hmigrated]
      by_cases hnone : s.store = none
      · rw [pending_migrate h hfree hmigration hnone, place.writeRecords_snd, hnone,
          Option.or_none]
      · have hsome : s.store.isSome = true := Option.isSome_iff_ne_none.mpr hnone
        rw [(hapart records rfl).resolve_left hnone, pending_set_store h hfree,
          Option.or_of_isSome (pending_isSome hsome)]
  · have hphase' : ∀ records, phase ≠ .migrating records := fun records heq =>
      hmigrating ⟨records, heq⟩
    obtain ⟨hkeep, htook⟩ := Call.advance_unlocked hadvance hknown hlocks hphase'
    have hpending : pending place calls (s.set t next.1 next.2 s.holders) =
        pending place calls s := by rw [hkeep, pending_set_store h hfree]
    rcases htook with htook | ⟨hbefore, hafter, happly⟩
    · exact ⟨[], hset [] (.inl ⟨rfl, (h.mem_iff hphase).trans htook⟩) hpending.symm⟩
    · refine ⟨[t], hset [t] (.inr ⟨rfl, fun hmem => hbefore ((h.mem_iff hphase).mp hmem), hafter⟩)
        ?_⟩
      exact (happly _ pending_isSome).trans hpending.symm

/-- **Every step keeps the order.** -/
theorem InOrder.step {s' : State τ} {label : Label τ} (h : InOrder place calls init order s)
    (hapart : Apart place exclusive calls s label)
    (hstep : step place exclusive calls s label = some s') :
    ∃ now, InOrder place calls init (order ++ now) s' := by
  cases label with
  | call t =>
    obtain ⟨hphase, rfl⟩ := step_call hstep
    exact h.call hphase
  | go t =>
    cases step_go hstep with
    | refused hphase hlock =>
      obtain ⟨hlocks, hcheck⟩ := h.knows t _ hphase
      have hfree : t ∉ s.holders := fun hmem => ((h.holds_iff hphase).mp hmem).2
      refine ⟨[t], h.set (.inr ⟨rfl, fun hmem => (h.mem_iff hphase).mp hmem, trivial⟩) trivial id
        (iff_of_false hfree And.right) (fun _ _ => Iff.rfl) h.one ?_⟩
      rw [pending_set_store h hfree]
      show (calls t).apply place (pending place calls s) = _
      rw [Call.apply, Call.alone, hcheck, hlocks, hlock]
      rfl
    | acquired hphase hlock hfree =>
      obtain ⟨hlocks, hcheck⟩ := h.knows t _ hphase
      have hnil : s.holders = [] := by
        simp only [Apart, hphase] at hapart
        rcases hapart hlock with hexclusive | hnil
        · exact hfree hexclusive
        · exact hnil
      rw [hnil]
      refine ⟨[], h.set (.inl ⟨rfl, (h.mem_iff hphase).trans Iff.rfl⟩) ⟨hcheck, fun _ => hlock⟩ id
        (iff_of_true (List.mem_singleton_self t) ⟨hlocks, trivial⟩) (fun u hu => ?_) (Nat.le_refl 1) ?_⟩
      · rw [hnil]
        simp [hu]
      · rw [pending_eq (s := s.set t _ _ _) rfl s.set_self]
        exact pending_nil hnil
    | released hphase =>
      have hlocks : (calls t).request.locks = true := h.knows t _ hphase
      have hholders := h.holders_eq hphase hlocks trivial
      rw [hholders, List.erase_cons_head]
      refine ⟨[], h.set (.inl ⟨rfl, (h.mem_iff hphase).trans Iff.rfl⟩) trivial id
        (iff_of_false List.not_mem_nil And.right) (fun u hu => ?_) (Nat.zero_le 1) ?_⟩
      · rw [hholders]
        simp [hu]
      · exact pending_eq hholders hphase
    | advanced hphase hadvance =>
      cases hlocks : (calls t).request.locks with
      | true => exact h.advance_locked hphase hadvance hlocks
      | false =>
        refine h.advance_unlocked hphase hadvance hlocks fun records heq => ?_
        subst heq
        simp only [Apart, hphase] at hapart
        exact hapart.resolve_left fun hlocks' => Bool.false_ne_true (hlocks.symm.trans hlocks')

omit [DecidableEq τ] in
theorem InOrder.start (store : Content) :
    InOrder place calls store [] (State.init store : State τ) where
  nodup := List.nodup_nil
  mem t := by simp [State.init]
  knows t phase hphase := by cases hphase
  holds t := by simp [State.init]
  one := Nat.zero_le 1
  content := rfl

/-- A call has begun once it has a phase, and has ended once it is done. -/
def callTimes : Linear.Calls (State τ) τ where
  begun s t := (s.phases t).isSome = true
  ended s t := ∃ result, s.phases t = some (.done result)

instance (s : State τ) (t : τ) : Decidable (callTimes.begun s t) :=
  inferInstanceAs (Decidable ((s.phases t).isSome = true))

instance (s : State τ) (t : τ) : Decidable (callTimes.ended s t) :=
  match h : s.phases t with
  | some (.done result) => isTrue ⟨result, h⟩
  | none | some .acquiring | some .checking | some (.legacy _) | some (.migrating _)
  | some .reading | some (.writing _) | some (.releasing _) =>
    isFalse (by rintro ⟨result, hdone⟩; cases h.symm.trans hdone)

variable (place exclusive calls init) in
def inOrder : Linear.Simulation (step place exclusive calls) callTimes
    (Apart place exclusive calls) where
  Rel := InOrder place calls init
  step h hapart hstep := h.step hapart hstep
  nodup h := h.nodup
  begun h hmem := by
    obtain ⟨phase, hphase, -⟩ := (h.mem _).mp hmem
    exact Option.isSome_iff_exists.mpr ⟨phase, hphase⟩
  ended h hended := by
    obtain ⟨result, hphase⟩ := hended
    exact (h.mem _).mpr ⟨_, hphase, trivial⟩

/-- **The pairing store is linearizable as long as its calls keep apart**: when all calls have
ended, it holds what they leave one after the other in an order that keeps to real time. -/
theorem linearizable {labels : List (Label τ)}
    (hapart : Machine.Along (step place exclusive calls) (Apart place exclusive calls)
      (State.init init) labels)
    (hrun : Machine.run (step place exclusive calls) (State.init init) labels = some s)
    (hended : ∀ t, callTimes.begun s t → callTimes.ended s t) :
    ∃ order : List τ, order.Nodup ∧ (∀ t, t ∈ order ↔ callTimes.begun s t) ∧
      s.store = replay place calls order init ∧
      Linear.InRealTime (step place exclusive calls) callTimes (State.init init) labels order := by
  obtain ⟨order, hrel, htime⟩ := (inOrder place exclusive calls init).linearization
    (InOrder.start init) hapart hrun
  rw [List.nil_append] at hrel htime
  refine ⟨order, hrel.nodup, fun t => ⟨(inOrder place exclusive calls init).begun hrel,
    fun h => (inOrder place exclusive calls init).ended hrel (hended t h)⟩, ?_, htime⟩
  have hholders : s.holders = [] := by
    refine List.eq_nil_iff_forall_not_mem.mpr fun t ht => ?_
    obtain ⟨phase, hphase, -, hinside⟩ := (hrel.holds t).mp ht
    obtain ⟨result, hdone⟩ := hended t (Option.isSome_iff_exists.mpr ⟨phase, hphase⟩)
    cases hphase.symm.trans hdone
    exact hinside
  rw [hrel.content, pending_nil hholders]

end Order

/-! ### A `load_all` that pauses -/

/-- The record that the old store holds. -/
def oldRecord : PairingRecord :=
  ⟨"old", "Old", List.replicate 32 0, 978307200000, none, [], none, none, .owner⟩

def newRecord : PairingRecord :=
  ⟨"new", "New", List.replicate 32 0, 978307200000, none, [], none, none, .owner⟩

def jsonText (text : String) : List UInt8 := text.toList.map fun c => UInt8.ofNat c.toNat

/-- The record of that id and name, with a key of zeros, added when 2001 began. -/
def recordText (id name : String) : List UInt8 :=
  jsonText "\x7b\"id\":\"" ++ jsonText id ++ jsonText "\",\"name\":\"" ++ jsonText name ++
    jsonText "\",\"key\":\"AAAAAAAAAAAAAAAAAAAAAAAAAAAAAAAAAAAAAAAAAAA=\",\"addedAt\":0.0" ++
    jsonText ",\"trust\":[0,0,0,0,0,0,0,0,0]\x7d"

def oldText : List UInt8 := jsonText "[" ++ recordText "old" "Old" ++ jsonText "]"

def bothText : List UInt8 :=
  jsonText "[" ++ recordText "old" "Old" ++ jsonText "," ++ recordText "new" "New" ++ jsonText "]"

/-- The JSON form of the two lists that occur. -/
def twoLists : Json where
  decode bytes :=
    if bytes = oldText then some [oldRecord]
    else if bytes = bothText then some [oldRecord, newRecord]
    else none
  encode records :=
    if records = [oldRecord] then some oldText
    else if records = [oldRecord, newRecord] then some bothText
    else none

/-- The store is not there, the file of the old name is. -/
def upgraded : Place where
  path := ["MahoRD", "client-pairings.json"]
  json := twoLists
  others path := if path = ["MahoRD", "pairing-keys.json"] then some (.ok oldText) else none

/-- One process lists the pairings, the other saves a new one. -/
def listAndSave : Bool → Call
  | false => ⟨.loadAll, .allOk⟩
  | true => ⟨.save newRecord, .allOk⟩

/-- A listing before the record is saved. -/
def listThenSave : List (Label Bool) :=
  ([.call false, .go false, .go false, .go false] : List (Label Bool)) ++
    ([.call true, .go true, .go true, .go true, .go true, .go true] : List (Label Bool))

theorem linearizable_listThenSave : ∃ s order, order.Nodup ∧
    (∀ t, t ∈ order ↔ callTimes.begun s t) ∧ s.store = replay upgraded listAndSave order none ∧
    Linear.InRealTime (step upgraded true listAndSave) callTimes (State.init none) listThenSave
      order := by
  have hrun : ((Machine.run (step upgraded true listAndSave) (State.init none) listThenSave).any
      fun s => decide (∀ t, callTimes.begun s t → callTimes.ended s t)) = true := by
    decide
  obtain ⟨s, hs, hended⟩ := (Option.any_eq_true _ _).mp hrun
  exact ⟨s, linearizable (by decide) hs (of_decide_eq_true hended)⟩

/-- The listing pauses before its rename, and the record is saved meanwhile. -/
def listAroundSave : List (Label Bool) :=
  ([.call false, .go false, .go false, .call true] : List (Label Bool)) ++
    ([.go true, .go true, .go true, .go true, .go true, .go true, .go false] : List (Label Bool))

/-- **A saved record is lost.** -/
theorem saved_record_lost : ∃ s,
    Machine.run (step upgraded true listAndSave) (State.init none) listAroundSave = some s ∧
      (∀ t, callTimes.ended s t) ∧ ∀ order : List Bool, order.Nodup → (∀ t, t ∈ order) →
        s.store ≠ replay upgraded listAndSave order none := by
  have hrun : ((Machine.run (step upgraded true listAndSave) (State.init none) listAroundSave).any
      fun s => decide (∀ t, callTimes.ended s t) && s.store == some oldText) = true := by
    decide
  obtain ⟨s, hs, hend⟩ := (Option.any_eq_true _ _).mp hrun
  obtain ⟨hended, hstore⟩ := Bool.and_eq_true_iff.mp hend
  refine ⟨s, hs, of_decide_eq_true hended, fun order hnodup hall => ?_⟩
  have hperm : order.Perm [false, true] :=
    (List.perm_ext_iff_of_nodup hnodup (by decide)).mpr fun t => by simp [hall]
  rw [eq_of_beq hstore]
  rcases List.perm_pair.mp hperm with rfl | rfl
  · decide +kernel
  · decide +kernel

end MahoRD.ClientPairing
