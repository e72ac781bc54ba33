/-
MahoRD/Host/GuestStatus.lean

What guests and consent requests get out of the registry.  Whoever changes the sessions publishes
the status before the mutex is released, so the last status in the channel of a session names
those who are there (`Inv.status`).  `respond` takes the request out of the registry before it
answers, so a request in it has not been answered (`Inv.pending`); the clock decides first.

The channels are arbitrary, and so is the order of the calls.
-/
import MahoRD.Host.GuestCalls

namespace MahoRD.GuestCalls

open Host Machine

variable {τ χ ε : Type*}

/-! ### The last status -/

def status? : GuestCommand → Option HostStatus
  | .status status => some status
  | _ => none

/-- The status that was queued last. -/
def lastStatus (commands : List GuestCommand) : Option HostStatus :=
  (commands.filterMap status?).getLast?

theorem lastStatus_append_status (commands : List GuestCommand) (status : HostStatus) {n : ℕ}
    (hn : n ≠ 0) : lastStatus (commands ++ List.replicate n (.status status)) = some status := by
  obtain ⟨n, rfl⟩ := Nat.exists_eq_succ_of_ne_zero hn
  rw [List.replicate_succ', ← List.append_assoc, lastStatus, List.filterMap_append]
  simp [status?]

theorem lastStatus_append_other (commands : List GuestCommand) {command : GuestCommand}
    (h : status? command = none) (n : ℕ) :
    lastStatus (commands ++ List.replicate n command) = lastStatus commands := by
  have hnone : (List.replicate n command).filterMap status? = [] :=
    List.filterMap_eq_nil_iff.2 fun c hc => by rw [List.eq_of_mem_replicate hc, h]
  rw [lastStatus, List.filterMap_append, hnone, List.append_nil, lastStatus]

/-! ### What the calls do -/

namespace State

variable {s : State τ χ ε}

section Announce

variable [DecidableEq ε]

@[simp] theorem announce_sessions (event : HostEvent) :
    (s.announce event).registry.sessions = s.registry.sessions := rfl

@[simp] theorem announce_pending (event : HostEvent) :
    (s.announce event).registry.pending = s.registry.pending := rfl

@[simp] theorem announce_guests (event : HostEvent) : (s.announce event).guests = s.guests := rfl

@[simp] theorem announce_requests (event : HostEvent) :
    (s.announce event).requests = s.requests := rfl

@[simp] theorem announce_clock (event : HostEvent) : (s.announce event).clock = s.clock := rfl

end Announce

variable [DecidableEq τ]

@[simp] theorem tell_registry (whom : String → GuestSession → Bool) (command : GuestCommand) :
    (s.tell whom command).registry = s.registry := rfl

@[simp] theorem tell_requests (whom : String → GuestSession → Bool) (command : GuestCommand) :
    (s.tell whom command).requests = s.requests := rfl

@[simp] theorem tell_clock (whom : String → GuestSession → Bool) (command : GuestCommand) :
    (s.tell whom command).clock = s.clock := rfl

@[simp] theorem publishStatus_registry : s.publishStatus.registry = s.registry := rfl

@[simp] theorem publishStatus_requests : s.publishStatus.requests = s.requests := rfl

@[simp] theorem publishStatus_clock : s.publishStatus.clock = s.clock := rfl

theorem tell_known {whom : String → GuestSession → Bool} {command : GuestCommand} {t : τ}
    (h : ∃ g, s.guests t = some g) : ∃ g, (s.tell whom command).guests t = some g :=
  h.elim fun g hg => ⟨_, Option.map_eq_some_iff.2 ⟨g, hg, rfl⟩⟩

theorem tell_guests {whom : String → GuestSession → Bool} {command : GuestCommand} {t : τ}
    {g' : Guest} (h : (s.tell whom command).guests t = some g') :
    ∃ g, s.guests t = some g ∧ g'.guard = g.guard ∧ g'.channel.alive = g.channel.alive ∧
      (g.channel.alive → g'.channel.sent = g.channel.sent ++ List.replicate
        (s.registry.sessions.entries.filter fun e => e.2.2 = t ∧ whom e.1 e.2.1).length
        command) := by
  obtain ⟨g, hg, rfl⟩ := Option.map_eq_some_iff.1 h
  refine ⟨g, hg, rfl, ?_, fun ha => ?_⟩
  · simp only [Channel.send]
    split <;> rfl
  · simp only [Channel.send, ha, if_true, List.map_const']

end State

/-! ### Sessions -/

section Sessions

variable [DecidableEq τ]

/-- Every session in the registry has been told who is there. -/
def Informed (s : State τ χ ε) : Prop :=
  ∀ id guest t g, s.registry.sessions.lookup id = some (guest, t) → s.guests t = some g →
    g.channel.alive → lastStatus g.channel.sent = some s.occupancy

theorem informed_publishStatus (s : State τ χ ε) : Informed s.publishStatus := by
  intro id guest t g' hl hg ha
  obtain ⟨g, -, -, hga, hsent⟩ := State.tell_guests hg
  rw [hga] at ha
  rw [hsent ha]
  refine lastStatus_append_status _ _ fun h0 => ?_
  have hmem : (⟨id, (guest, t)⟩ : (_ : String) × (GuestSession × τ)) ∈
      s.registry.sessions.entries.filter fun e => e.2.2 = t ∧ true :=
    List.mem_filter.2 ⟨Table.mem_entries.2 hl, by simp⟩
  rw [List.length_eq_zero_iff.1 h0] at hmem
  exact absurd hmem (List.not_mem_nil)

variable {s : State τ χ ε}

theorem Informed.tell (h : Informed s) (whom : String → GuestSession → Bool)
    {command : GuestCommand} (hc : status? command = none) : Informed (s.tell whom command) := by
  intro id guest t g' hl hg ha
  obtain ⟨g, hg₀, -, hga, hsent⟩ := State.tell_guests hg
  rw [hga] at ha
  rw [hsent ha, lastStatus_append_other _ hc]
  exact h id guest t g hl hg₀ ha

variable [DecidableEq χ] [DecidableEq ε]

structure Seated (s : State τ χ ε) : Prop where
  informed : Informed s
  known : ∀ id guest t, s.registry.sessions.lookup id = some (guest, t) → ∃ g, s.guests t = some g

omit [DecidableEq τ] [DecidableEq χ] [DecidableEq ε] in
theorem Seated.init : Seated (State.init : State τ χ ε) :=
  ⟨fun _ _ _ _ h => by simp [State.init] at h, fun _ _ _ h => by simp [State.init] at h⟩

omit [DecidableEq τ] [DecidableEq χ] [DecidableEq ε] in
theorem Seated.congr {s' : State τ χ ε} (h : Seated s)
    (hs : s'.registry.sessions = s.registry.sessions) (hg : s'.guests = s.guests) : Seated s' where
  informed := by
    intro id guest t g hl hgt ha
    rw [hs] at hl
    rw [hg] at hgt
    rw [h.informed id guest t g hl hgt ha, State.occupancy, State.occupancy, hs]
  known := by
    rw [hs, hg]
    exact h.known

omit [DecidableEq χ] [DecidableEq ε] in
theorem Seated.tell (h : Seated s) (whom : String → GuestSession → Bool)
    {command : GuestCommand} (hc : status? command = none) : Seated (s.tell whom command) where
  informed := h.informed.tell whom hc
  known := fun id guest t hl => State.tell_known (h.known id guest t hl)

omit [DecidableEq χ] [DecidableEq ε] in
/-- Whatever has become of the sessions: after the status is published all is well. -/
theorem Seated.publish
    (h : ∀ id guest t, s.registry.sessions.lookup id = some (guest, t) → ∃ g, s.guests t = some g) :
    Seated s.publishStatus where
  informed := informed_publishStatus s
  known := fun id guest t hl => State.tell_known (h id guest t hl)

omit [DecidableEq χ] in
theorem Seated.join (h : Seated s) (t : τ) (guest : GuestSession) :
    Seated (s.join t guest) := by
  refine Seated.publish fun id guest' t' hl => ?_
  simp only [State.announce_sessions, State.announce_guests] at hl ⊢
  by_cases ht : t' = t
  · rw [ht, Function.update_self]
    exact ⟨_, rfl⟩
  · rw [Function.update_of_ne ht]
    rw [Table.lookup_insert] at hl
    split at hl
    · exact absurd (congrArg Prod.snd (Option.some.inj hl)).symm ht
    · exact h.known id guest' t' hl

omit [DecidableEq χ] [DecidableEq ε] in
theorem known_update (h : Seated s) (t : τ) (g : Guest) {id : String}
    {guest : GuestSession} {t' : τ} (hl : s.registry.sessions.lookup id = some (guest, t')) :
    ∃ g', Function.update s.guests t (some g) t' = some g' := by
  by_cases ht : t' = t
  · rw [ht, Function.update_self]
    exact ⟨g, rfl⟩
  · rw [Function.update_of_ne ht]
    exact h.known id guest t' hl

omit [DecidableEq χ] [DecidableEq ε] in
/-- A guest changes: what is in its channel is the same, or its receiver is gone. -/
theorem Seated.update (h : Seated s) {t : τ} {g g' : Guest}
    (hg : s.guests t = some g) (ha : g'.channel.alive → g'.channel = g.channel) :
    Seated { s with guests := Function.update s.guests t (some g') } where
  informed := by
    intro id guest t' r hl hr hra
    replace hr : Function.update s.guests t (some g') t' = some r := hr
    by_cases ht : t' = t
    · subst ht
      rw [Function.update_self] at hr
      obtain rfl := Option.some.inj hr
      have hc := ha hra
      rw [hc] at hra ⊢
      exact h.informed id guest t' g hl hg hra
    · rw [Function.update_of_ne ht] at hr
      exact h.informed id guest t' r hl hr hra
  known := fun id guest t' hl => known_update h t g' hl

omit [DecidableEq χ] in
theorem Seated.dropGuard (h : Seated s) {t : τ} {g : Guest}
    (hg : s.guests t = some g) (id : String) : Seated (s.dropGuard t g id) := by
  simp only [State.dropGuard]
  split
  · exact h.update hg fun _ => rfl
  · refine Seated.publish fun id' guest' t' hl => ?_
    simp only [State.announce_sessions, State.announce_guests] at hl ⊢
    rw [Table.lookup_erase] at hl
    split at hl
    · cases hl
    · exact known_update h t _ hl

end Sessions

/-! ### Consent requests -/

section Requests

variable [DecidableEq τ] [DecidableEq χ] [DecidableEq ε]

omit [DecidableEq τ] [DecidableEq ε] in
/-- What `respond` can do: nothing but take the request away, or answer it as well. -/
theorem respond_cases (s : State τ χ ε) (id : String) (trust : Option PairingTrust) (now : ℕ) :
    ((s.respond id trust now).1 = false ∧ (s.respond id trust now).2.requests = s.requests) ∨
      ∃ request c q, s.registry.pending.lookup id = some (request, c) ∧
        s.requests c = some q ∧ now < request.expiresAt ∧ (s.respond id trust now).1 = true ∧
        (s.respond id trust now).2.clock = now ∧
        (s.respond id trust now).2.requests = Function.update s.requests c
          (some { q with buffer := some trust, answers := q.answers ++ [trust] }) := by
  rcases hp : s.registry.pending.lookup id with - | ⟨request, c⟩
  · exact Or.inl (by simp [State.respond, hp])
  by_cases hnow : now < request.expiresAt
  · rcases hq : s.requests c with - | q
    · exact Or.inl (by simp [State.respond, hp, hnow, hq])
    · by_cases hroom : q.alive ∧ q.buffer = none
      · exact Or.inr ⟨request, c, q, rfl, hq, hnow, by
          simp [State.respond, hp, hnow, hq, Consent.trySend, hroom]⟩
      · refine Or.inl ⟨by simp [State.respond, hp, hnow, hq, Consent.trySend, hroom], ?_⟩
        simp only [State.respond, hp, hnow, if_true, hq, Consent.trySend, if_neg hroom]
        rw [← hq, Function.update_eq_self]
  · exact Or.inl (by simp [State.respond, hp, hnow])

omit [DecidableEq τ] [DecidableEq χ] [DecidableEq ε] in
@[simp] theorem respond_sessions [DecidableEq χ] (s : State τ χ ε) (id : String)
    (trust : Option PairingTrust) (now : ℕ) :
    (s.respond id trust now).2.registry.sessions = s.registry.sessions ∧
      (s.respond id trust now).2.guests = s.guests := by
  simp only [State.respond]
  split
  · exact ⟨rfl, rfl⟩
  · split
    · split <;> exact ⟨rfl, rfl⟩
    · exact ⟨rfl, rfl⟩

/-- A request in the registry has not been answered, nor is it finished. -/
structure Asked (s : State τ χ ε) : Prop where
  pending : ∀ id request c, s.registry.pending.lookup id = some (request, c) → request.id = id ∧
    ∃ q, s.requests c = some q ∧ q.request = request ∧ q.answers = [] ∧ q.finished = false
  once : ∀ c q, s.requests c = some q → q.answers.length ≤ 1

omit [DecidableEq τ] [DecidableEq χ] [DecidableEq ε] in
theorem Asked.init : Asked (State.init : State τ χ ε) :=
  ⟨fun _ _ _ h => by simp [State.init] at h, fun _ _ h => by simp [State.init] at h⟩

variable {s : State τ χ ε} {c : χ}

omit [DecidableEq τ] [DecidableEq χ] [DecidableEq ε] in
theorem Asked.congr {s' : State τ χ ε} (h : Asked s)
    (hp : s'.registry.pending = s.registry.pending) (hr : s'.requests = s.requests) : Asked s' where
  pending := by
    rw [hp, hr]
    exact h.pending
  once := by
    rw [hr]
    exact h.once

omit [DecidableEq τ] [DecidableEq ε] in
theorem Asked.update {s' : State τ χ ε} (h : Asked s) {q q' : Consent}
    (hq : s.requests c = some q) (hp : s'.registry.pending = s.registry.pending)
    (hr : s'.requests = Function.update s.requests c (some q')) (hreq : q'.request = q.request)
    (hans : q'.answers = q.answers) (hfin : q'.finished = q.finished) : Asked s' where
  pending := by
    intro id request c' hl
    rw [hp] at hl
    obtain ⟨hid, r, hc, hrr, hra, hrf⟩ := h.pending id request c' hl
    refine ⟨hid, ?_⟩
    by_cases hcc : c' = c
    · subst hcc
      obtain rfl : q = r := Option.some.inj (hq.symm.trans hc)
      exact ⟨q', by rw [hr, Function.update_self], hreq.trans hrr, hans.trans hra, hfin.trans hrf⟩
    · exact ⟨r, by rw [hr, Function.update_of_ne hcc, hc], hrr, hra, hrf⟩
  once := by
    intro c' r hc
    rw [hr] at hc
    by_cases hcc : c' = c
    · rw [hcc, Function.update_self] at hc
      rw [← Option.some.inj hc, hans]
      exact h.once c q hq
    · rw [Function.update_of_ne hcc] at hc
      exact h.once c' r hc

omit [DecidableEq τ] in
theorem Asked.request (h : Asked s) (hc : s.requests c = none)
    (request : PendingRequest) : Asked (s.request c request) where
  pending := by
    intro id r c' hl
    simp only [State.request, State.announce_pending, State.announce_requests] at hl ⊢
    rw [Table.lookup_insert] at hl
    split at hl
    next hid =>
      obtain ⟨rfl, rfl⟩ := Prod.mk.inj (Option.some.inj hl)
      exact ⟨hid.symm, _, Function.update_self _ _ _, rfl, rfl, rfl⟩
    · obtain ⟨hid, q, hq, hqs⟩ := h.pending id r c' hl
      have hne : c' ≠ c := fun heq => by rw [heq, hc] at hq; cases hq
      exact ⟨hid, q, by rw [Function.update_of_ne hne, hq], hqs⟩
  once := by
    intro c' q hq
    simp only [State.request, State.announce_requests] at hq
    by_cases hcc : c' = c
    · rw [hcc, Function.update_self] at hq
      rw [← Option.some.inj hq]
      exact Nat.zero_le 1
    · rw [Function.update_of_ne hcc] at hq
      exact h.once c' q hq

omit [DecidableEq τ] [DecidableEq χ] [DecidableEq ε] in
theorem Asked.finishRequest (h : Asked s) (id : String) :
    Asked (s.finishRequest id) where
  pending := by
    intro id' request c hl
    have hl' : (s.registry.pending.erase id).lookup id' = some (request, c) := hl
    rw [Table.lookup_erase] at hl'
    split at hl'
    · cases hl'
    next hne =>
      obtain ⟨hid, q, hq, hqr, hqa, hqf⟩ := h.pending id' request c hl'
      refine ⟨hid, q, ?_, hqr, hqa, hqf⟩
      have hne' : q.request.id ≠ id := by rw [hqr, hid]; exact hne
      exact Option.map_eq_some_iff.2 ⟨q, hq, if_neg hne'⟩
  once := by
    intro c q' hq'
    obtain ⟨q, hq, rfl⟩ := Option.map_eq_some_iff.1 hq'
    have hans : (if q.request.id = id then { q with finished := true } else q).answers =
        q.answers := by
      split <;> rfl
    rw [hans]
    exact h.once c q hq

omit [DecidableEq τ] [DecidableEq ε] in
theorem lookup_respond {id : String} {trust : Option PairingTrust} {now : ℕ}
    {id' : String} {request : PendingRequest}
    (h : (s.respond id trust now).2.registry.pending.lookup id' = some (request, c)) :
    id' ≠ id ∧ s.registry.pending.lookup id' = some (request, c) := by
  rcases hp : s.registry.pending.lookup id with - | ⟨r, c'⟩
  · have hsame : (s.respond id trust now).2 = s := by simp only [State.respond, hp]
    rw [hsame] at h
    refine ⟨fun heq => ?_, h⟩
    rw [heq, hp] at h
    cases h
  · have herase : (s.respond id trust now).2.registry.pending = s.registry.pending.erase id := by
      simp only [State.respond, hp]
      split
      · split <;> rfl
      · rfl
    rw [herase, Table.lookup_erase] at h
    split at h
    · cases h
    next hne => exact ⟨hne, h⟩

omit [DecidableEq τ] [DecidableEq ε] in
theorem Asked.respond (h : Asked s) (id : String) (trust : Option PairingTrust)
    (now : ℕ) : Asked (s.respond id trust now).2 := by
  rcases respond_cases s id trust now with ⟨-, hr⟩ | ⟨request, c, q, hl, hq, -, -, -, hr⟩
  · refine ⟨fun id' request c hl => ?_, by rw [hr]; exact h.once⟩
    rw [hr]
    exact h.pending id' request c (lookup_respond hl).2
  · obtain ⟨hid, q₀, hq₀, hqr, hqa, -⟩ := h.pending id request c hl
    obtain rfl : q = q₀ := Option.some.inj (hq.symm.trans hq₀)
    refine ⟨fun id' request' c' hl' => ?_, fun c' q' hq' => ?_⟩
    · obtain ⟨hne, hl'⟩ := lookup_respond hl'
      obtain ⟨hid', q', hq', hqr', hqs'⟩ := h.pending id' request' c' hl'
      -- one channel stands under one id only
      have hcc : c' ≠ c := by
        intro heq
        rw [heq, hq] at hq'
        obtain rfl := Option.some.inj hq'
        exact hne (by rw [← hid', ← hqr', hqr, hid])
      exact ⟨hid', q', by rw [hr, Function.update_of_ne hcc, hq'], hqr', hqs'⟩
    · rw [hr] at hq'
      by_cases hcc : c' = c
      · rw [hcc, Function.update_self] at hq'
        rw [← Option.some.inj hq']
        show (q.answers ++ [trust]).length ≤ 1
        rw [hqa]
        exact Nat.le_refl 1
      · rw [Function.update_of_ne hcc] at hq'
        exact h.once c' q' hq'

end Requests

/-! ### Runs -/

section Runs

variable [DecidableEq τ] [DecidableEq χ] [DecidableEq ε]

/-- The id of a guest who joins is new: no guard holds it. -/
def Fresh (s : State τ χ ε) : Label τ χ ε → Prop
  | .join _ guest => ∀ t g, s.guests t = some g → g.guard ≠ some guest.id
  | _ => True

/-- Whoever holds a guard is in the registry. -/
def Guarded (s : State τ χ ε) : Prop :=
  ∀ t g id, s.guests t = some g → g.guard = some id →
    ∃ guest, s.registry.sessions.lookup id = some (guest, t)

variable {s s' : State τ χ ε} {c : χ} {q q' : Consent}

omit [DecidableEq χ] [DecidableEq ε] in
theorem Guarded.tell (h : Guarded s) (whom : String → GuestSession → Bool)
    (command : GuestCommand) : Guarded (s.tell whom command) := by
  intro t g' id hg' hid
  obtain ⟨g, hg, hguard, -⟩ := State.tell_guests hg'
  exact h t g id hg (hguard ▸ hid)

omit [DecidableEq χ] in
theorem Guarded.join (h : Guarded s) (t : τ) {guest : GuestSession}
    (hf : ∀ t g, s.guests t = some g → g.guard ≠ some guest.id) : Guarded (s.join t guest) := by
  rw [State.join]
  refine Guarded.tell (fun t' g id hg hid => ?_) _ _
  simp only [State.announce_sessions, State.announce_guests] at hg ⊢
  rw [Table.lookup_insert]
  by_cases ht : t' = t
  · rw [ht, Function.update_self] at hg
    obtain rfl := Option.some.inj hg
    rw [if_pos (Option.some.inj hid).symm, ht]
    exact ⟨guest, rfl⟩
  · rw [Function.update_of_ne ht] at hg
    rw [if_neg fun heq : id = guest.id => hf t' g hg (heq ▸ hid)]
    exact h t' g id hg hid

omit [DecidableEq χ] in
theorem Guarded.dropGuard (h : Guarded s) {t : τ} {g : Guest} {id : String}
    (hg : s.guests t = some g) (hid : g.guard = some id) : Guarded (s.dropGuard t g id) := by
  obtain ⟨guest, hl⟩ := h t g id hg hid
  simp only [State.dropGuard, hl]
  refine Guarded.tell (fun t' g' id' hg' hid' => ?_) _ _
  simp only [State.announce_sessions, State.announce_guests] at hg' ⊢
  by_cases ht : t' = t
  · rw [ht, Function.update_self] at hg'
    rw [← Option.some.inj hg'] at hid'
    cases hid'
  · rw [Function.update_of_ne ht] at hg'
    obtain ⟨guest', hl'⟩ := h t' g' id' hg' hid'
    rw [Table.lookup_erase, if_neg fun heq => ?_]
    · exact ⟨guest', hl'⟩
    · rw [heq, hl] at hl'
      exact ht (congrArg Prod.snd (Option.some.inj hl')).symm

omit [DecidableEq τ] [DecidableEq χ] [DecidableEq ε] in
theorem Guarded.congr (h : Guarded s)
    (hs : s'.registry.sessions = s.registry.sessions) (hg : s'.guests = s.guests) : Guarded s' := by
  rw [Guarded, hs, hg]
  exact h

omit [DecidableEq χ] [DecidableEq ε] in
theorem Guarded.hangUp (h : Guarded s) {t : τ} {g g' : Guest}
    (hg : s.guests t = some g) (hguard : g'.guard = g.guard) :
    Guarded { s with guests := Function.update s.guests t (some g') } := by
  intro t' r id hr hid
  replace hr : Function.update s.guests t (some g') t' = some r := hr
  by_cases ht : t' = t
  · subst ht
    rw [Function.update_self] at hr
    rw [← Option.some.inj hr, hguard] at hid
    exact h t' g id hg hid
  · rw [Function.update_of_ne ht] at hr
    exact h t' r id hr hid

structure Inv (s : State τ χ ε) : Prop where
  seated : Seated s
  asked : Asked s

omit [DecidableEq τ] [DecidableEq χ] [DecidableEq ε] in
theorem Inv.congr (h : Inv s) (hs : s'.registry.sessions = s.registry.sessions)
    (hg : s'.guests = s.guests) (hp : s'.registry.pending = s.registry.pending)
    (hr : s'.requests = s.requests) : Inv s' :=
  ⟨h.seated.congr hs hg, h.asked.congr hp hr⟩

theorem Inv.step {label : Label τ χ ε} (h : Inv s)
    (hs : GuestCalls.step s label = some s') : Inv s' := by
  cases label with
  | tick now =>
    simp only [GuestCalls.step, Option.ite_none_right_eq_some, Option.some.injEq] at hs
    obtain ⟨-, rfl⟩ := hs
    exact h.congr rfl rfl rfl rfl
  | subscribe e =>
    simp only [GuestCalls.step, Option.ite_none_right_eq_some, Option.some.injEq] at hs
    obtain ⟨-, rfl⟩ := hs
    exact h.congr rfl rfl rfl rfl
  | unsubscribe e =>
    obtain ⟨c, -, rfl⟩ := Option.map_eq_some_iff.1 hs
    exact h.congr rfl rfl rfl rfl
  | join t guest =>
    simp only [GuestCalls.step, Option.ite_none_right_eq_some, Option.some.injEq] at hs
    obtain ⟨-, rfl⟩ := hs
    exact ⟨h.seated.join t guest, h.asked.congr rfl rfl⟩
  | leave t =>
    simp only [GuestCalls.step] at hs
    split at hs
    next g hg =>
      obtain ⟨id, -, rfl⟩ := Option.map_eq_some_iff.1 hs
      refine ⟨h.seated.dropGuard hg id, ?_⟩
      simp only [State.dropGuard]
      split <;> exact h.asked.congr rfl rfl
    · cases hs
  | hangUp t =>
    obtain ⟨g, hg, rfl⟩ := Option.map_eq_some_iff.1 hs
    exact ⟨h.seated.update hg nofun, h.asked.congr rfl rfl⟩
  | kick _ | kickAll | permissions _ _ =>
    cases hs
    simp only [State.kick, State.kickAll, State.permissions]
    exact ⟨h.seated.tell _ rfl, h.asked.congr rfl rfl⟩
  | request c request =>
    simp only [GuestCalls.step, Option.ite_none_right_eq_some, Option.some.injEq] at hs
    obtain ⟨hc, rfl⟩ := hs
    exact ⟨h.seated.congr rfl rfl, h.asked.request hc request⟩
  | respond id trust now =>
    simp only [GuestCalls.step, Option.ite_none_right_eq_some, Option.some.injEq] at hs
    obtain ⟨-, rfl⟩ := hs
    obtain ⟨hse, hg⟩ := respond_sessions s id trust now
    exact ⟨h.seated.congr hse hg, h.asked.respond id trust now⟩
  | finishRequest id =>
    cases hs
    exact ⟨h.seated.congr rfl rfl, h.asked.finishRequest id⟩
  | prompt c trust =>
    simp only [GuestCalls.step] at hs
    split at hs
    next q hq =>
      simp only [Option.ite_none_right_eq_some, Option.some.injEq] at hs
      obtain ⟨-, rfl⟩ := hs
      exact ⟨h.seated.congr rfl rfl, h.asked.update hq rfl rfl rfl rfl rfl⟩
    · cases hs
  | receive c =>
    obtain ⟨q, hq, rfl⟩ := Option.map_eq_some_iff.1 hs
    exact ⟨h.seated.congr rfl rfl, h.asked.update hq rfl rfl rfl rfl rfl⟩
  | abandon c =>
    obtain ⟨q, hq, rfl⟩ := Option.map_eq_some_iff.1 hs
    exact ⟨h.seated.congr rfl rfl, h.asked.update hq rfl rfl rfl rfl rfl⟩

theorem Guarded.step {label : Label τ χ ε} (h : Guarded s)
    (hf : Fresh s label) (hs : GuestCalls.step s label = some s') : Guarded s' := by
  cases label with
  | tick _ | subscribe _ | request _ _ =>
    simp only [GuestCalls.step, Option.ite_none_right_eq_some, Option.some.injEq] at hs
    obtain ⟨-, rfl⟩ := hs
    exact h.congr rfl rfl
  | unsubscribe _ | receive _ | abandon _ =>
    obtain ⟨c, -, rfl⟩ := Option.map_eq_some_iff.1 hs
    exact h.congr rfl rfl
  | join t guest =>
    simp only [GuestCalls.step, Option.ite_none_right_eq_some, Option.some.injEq] at hs
    obtain ⟨-, rfl⟩ := hs
    exact h.join t hf
  | leave t =>
    simp only [GuestCalls.step] at hs
    split at hs
    next g hg =>
      obtain ⟨id, hid, rfl⟩ := Option.map_eq_some_iff.1 hs
      exact h.dropGuard hg hid
    · cases hs
  | hangUp t =>
    obtain ⟨g, hg, rfl⟩ := Option.map_eq_some_iff.1 hs
    exact h.hangUp hg rfl
  | kick _ | kickAll | permissions _ _ =>
    cases hs
    simp only [State.kick, State.kickAll, State.permissions]
    exact h.tell _ _
  | respond id trust now =>
    simp only [GuestCalls.step, Option.ite_none_right_eq_some, Option.some.injEq] at hs
    obtain ⟨-, rfl⟩ := hs
    obtain ⟨hse, hg⟩ := respond_sessions s id trust now
    exact h.congr hse hg
  | finishRequest _ =>
    cases hs
    exact h.congr rfl rfl
  | prompt c trust =>
    simp only [GuestCalls.step] at hs
    split at hs
    · simp only [Option.ite_none_right_eq_some, Option.some.injEq] at hs
      obtain ⟨-, rfl⟩ := hs
      exact h.congr rfl rfl
    · cases hs

omit [DecidableEq τ] [DecidableEq ε] in
theorem answers_update {requests : χ → Option Consent} {c₀ : χ} {q₀ q₁ : Consent}
    (hq₀ : requests c₀ = some q₀) (hq : requests c = some q)
    (hq' : Function.update requests c₀ (some q₁) c = some q') (ha : q₁.answers = q₀.answers) :
    q'.answers = q.answers := by
  by_cases hc : c = c₀
  · subst hc
    rw [Function.update_self] at hq'
    rw [← Option.some.inj hq', ha, Option.some.inj (hq.symm.trans hq₀)]
  · rw [Function.update_of_ne hc, hq] at hq'
    rw [Option.some.inj hq']

theorem step_answers_other {label : Label τ χ ε}
    (hl : ∀ id trust now, label ≠ .respond id trust now) (hs : step s label = some s') (hq : s.requests c = some q) (hq' : s'.requests c = some q') :
    q'.answers = q.answers := by
  have hsame : s'.requests = s.requests → q'.answers = q.answers := fun hr => by
    rw [hr, hq] at hq'
    rw [Option.some.inj hq']
  cases label with
  | tick _ | subscribe _ | join _ _ =>
    simp only [step, Option.ite_none_right_eq_some, Option.some.injEq] at hs
    obtain ⟨-, rfl⟩ := hs
    exact hsame rfl
  | unsubscribe _ | hangUp _ =>
    obtain ⟨x, -, rfl⟩ := Option.map_eq_some_iff.1 hs
    exact hsame rfl
  | leave t =>
    simp only [step] at hs
    split at hs
    · obtain ⟨id, -, rfl⟩ := Option.map_eq_some_iff.1 hs
      refine hsame ?_
      simp only [State.dropGuard]
      split <;> rfl
    · cases hs
  | kick _ | kickAll | permissions _ _ =>
    cases hs
    exact hsame rfl
  | request c₀ request =>
    simp only [step, Option.ite_none_right_eq_some, Option.some.injEq] at hs
    obtain ⟨hc₀, rfl⟩ := hs
    have hne : c ≠ c₀ := fun heq => by rw [heq, hc₀] at hq; cases hq
    simp only [State.request, State.announce_requests] at hq'
    rw [Function.update_of_ne hne, hq] at hq'
    rw [Option.some.inj hq']
  | respond id trust now => exact absurd rfl (hl id trust now)
  | finishRequest id =>
    cases hs
    obtain ⟨r, hr, rfl⟩ := Option.map_eq_some_iff.1 hq'
    obtain rfl : q = r := Option.some.inj (hq.symm.trans hr)
    split <;> rfl
  | prompt c₀ trust =>
    simp only [step] at hs
    split at hs
    next q₀ hq₀ =>
      simp only [Option.ite_none_right_eq_some, Option.some.injEq] at hs
      obtain ⟨-, rfl⟩ := hs
      exact answers_update hq₀ hq hq' rfl
    · cases hs
  | receive c₀ | abandon c₀ =>
    obtain ⟨q₀, hq₀, rfl⟩ := Option.map_eq_some_iff.1 hs
    exact answers_update hq₀ hq hq' rfl

/-- **What a step answers.**  A request that a step answers was neither answered nor finished
before, and it has not expired. -/
theorem step_answers {label : Label τ χ ε} (h : Asked s)
    (hs : step s label = some s') (hq : s.requests c = some q)
    (hq' : s'.requests c = some q') (hne : q'.answers ≠ q.answers) :
    q.answers = [] ∧ q.finished = false ∧ s.clock ≤ s'.clock ∧
      s'.clock < q.request.expiresAt := by
  by_cases hl : ∀ id trust now, label ≠ .respond id trust now
  · exact absurd (step_answers_other hl hs hq hq') hne
  simp only [not_forall, ne_eq, not_not] at hl
  obtain ⟨id, trust, now, rfl⟩ := hl
  simp only [step, Option.ite_none_right_eq_some, Option.some.injEq] at hs
  obtain ⟨hnow, rfl⟩ := hs
  rcases respond_cases s id trust now with ⟨-, hr⟩ | ⟨r, c₀, q₀, hp, hq₀, hexp, -, hclock, hr⟩
  · rw [hr, hq] at hq'
    exact absurd (congrArg Consent.answers (Option.some.inj hq').symm) hne
  · obtain ⟨-, q₁, hq₁, hqr, hqa, hqf⟩ := h.pending id r c₀ hp
    obtain rfl : q₀ = q₁ := Option.some.inj (hq₀.symm.trans hq₁)
    by_cases hc : c = c₀
    · subst hc
      obtain rfl : q = q₀ := Option.some.inj (hq.symm.trans hq₀)
      rw [hclock, hqr]
      exact ⟨hqa, hqf, hnow, hexp⟩
    · rw [hr, Function.update_of_ne hc, hq] at hq'
      exact absurd (congrArg Consent.answers (Option.some.inj hq').symm) hne

theorem inv_run {labels : List (Label τ χ ε)}
    (h : run step State.init labels = some s) : Inv s :=
  run_inv (fun hI hs => hI.step hs) ⟨Seated.init, Asked.init⟩ h

/-- **The registry of guests.**  In every run: the last status in the channel of every guest in the
registry names those who are in it, and as long as the ids are new these are the holders of guards;
`respond` has answered no request twice, and the next step answers none that is answered, finished
or expired. -/
theorem guest_registry {labels : List (Label τ χ ε)} {s : State τ χ ε}
    (h : run step State.init labels = some s) :
    (∀ id guest t g, s.registry.sessions.lookup id = some (guest, t) → s.guests t = some g →
        g.channel.alive → lastStatus g.channel.sent = some s.occupancy) ∧
      (Along step Fresh State.init labels → ∀ t g id, s.guests t = some g → g.guard = some id →
        ∃ guest, s.registry.sessions.lookup id = some (guest, t)) ∧
      (∀ c q, s.requests c = some q → q.answers.length ≤ 1) ∧
      ∀ label s', step s label = some s' → ∀ c q q', s.requests c = some q →
        s'.requests c = some q' → q'.answers ≠ q.answers →
          q.answers = [] ∧ q.finished = false ∧ s.clock ≤ s'.clock ∧
            s'.clock < q.request.expiresAt := by
  have hI := inv_run h
  refine ⟨hI.seated.informed, fun hF => ?_, hI.asked.once, fun label s' hs c q q' hq hq' hne =>
    step_answers hI.asked hs hq hq' hne⟩
  exact run_inv_along (I := Guarded) (fun hG hf hs => hG.step hf hs)
    (fun t g id hg => by simp [State.init] at hg) hF h

/-- Two guests join, one leaves; a request is answered once. -/
def twoGuests : List (Label ℕ ℕ ℕ) :=
  [.join 0 ⟨"a", "p", "A", .owner⟩, .join 1 ⟨"b", "q", "B", .owner⟩, .request 0 ⟨"r", "C", 60⟩,
    .leave 1, .respond "r" (some .owner) 10, .respond "r" none 11]

theorem guest_registry_two :
    ∃ s, run step State.init twoGuests = some s ∧
      (s.guests 0).map (fun g => lastStatus g.channel.sent) = some (some ⟨["A"]⟩) ∧
      (s.requests 0).map (·.answers) = some [some .owner] ∧
      ∀ c q, s.requests c = some q → q.answers.length ≤ 1 := by
  refine ⟨_, rfl, by decide, by decide, ?_⟩
  exact (guest_registry (rfl : run step State.init twoGuests = some _)).2.2.1

end Runs

end MahoRD.GuestCalls
