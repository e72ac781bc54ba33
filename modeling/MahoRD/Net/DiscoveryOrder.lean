/-
MahoRD/Net/DiscoveryOrder.lean

Which hosts are listed after services were resolved, resolved again and removed.

Driven by `decide_service_state_action`, the table lists the services whose latest event was a
resolve that could be published, as long as it is not older than ten minutes and the host was not
the one seen longest ago when a new one needed its place.  The mDNS browser takes no notice of a
resolve that cannot be published.
-/
import MahoRD.Net.Discovery

namespace MahoRD.Discovery

open Recency

/-! ### The table -/

def maxTrackedHosts : ℕ := 256

/-- `HOST_TTL` -/
def hostTtl : ℕ := 600000

instance : NeZero maxTrackedHosts := ⟨by decide⟩

abbrev DiscoveryTracker := Table DiscoveredHost.id maxTrackedHosts

namespace DiscoveryTracker

def new : DiscoveryTracker := .empty

def upsertAt (tracker : DiscoveryTracker) (host : DiscoveredHost) (now : ℕ) : DiscoveryTracker :=
  tracker.put hostTtl now host

def remove (tracker : DiscoveryTracker) (id : String) : DiscoveryTracker := tracker.drop id

def snapshotAt (tracker : DiscoveryTracker) (now : ℕ) : List DiscoveredHost :=
  (tracker.fresh hostTtl now).map Entry.value

end DiscoveryTracker

/-! ### Events -/

/-- What a service was resolved to.  `linkLocalInterfaces`: those of the client at that time. -/
structure ResolvedService where
  fullname : String
  hostname : String
  port : UInt16
  properties : List (String × Option (List UInt8))
  addresses : List IpAddr
  linkLocalInterfaces : List UInt32
  deriving DecidableEq

namespace ResolvedService

def txt (info : ResolvedService) : Txt := info.properties.map fun item => (item.1, item.2.getD [])

/-- `scope_resolved_addresses` -/
def scopedAddresses (info : ResolvedService) : List (IpAddr × Option UInt32) :=
  if info.addresses.any fun ip => match ip with
      | .v4 _ => false
      | .v6 v6 => isUnscopedIpv6LinkLocal v6 then
    attachLinkLocalScopes info.addresses info.linkLocalInterfaces
  else info.addresses.map fun ip => (ip, none)

def parse (info : ResolvedService) : Checked DiscoveredHost :=
  parseServiceMetadataScoped info.fullname info.hostname info.port info.txt info.scopedAddresses

def action (info : ResolvedService) : ServiceStateAction :=
  decideServiceStateAction info.fullname (some info.hostname) info.port info.txt
    info.scopedAddresses

end ResolvedService

inductive ServiceEvent
  | resolved (info : ResolvedService)
  | removed (fullname : String)
  deriving DecidableEq

def ServiceEvent.fullname : ServiceEvent → String
  | resolved info => info.fullname
  | removed fullname => fullname

/-- Events with their times. -/
abbrev Events := List (ℕ × ServiceEvent)

/-- The mDNS browser. -/
def mdnsHandle (tracker : DiscoveryTracker) : ℕ × ServiceEvent → DiscoveryTracker
  | (now, .resolved info) =>
    match info.parse with
    | .ok host => tracker.upsertAt host now
    | .error _ => tracker
  | (_, .removed fullname) => tracker.remove fullname

/-- The endpoint action. -/
def actionHandle (tracker : DiscoveryTracker) : ℕ × ServiceEvent → DiscoveryTracker
  | (now, .resolved info) =>
    match info.action with
    | .publish host => tracker.upsertAt host now
    | .retract => tracker.remove info.fullname
  | (_, .removed fullname) => tracker.remove fullname

def mdnsListing (events : Events) : DiscoveryTracker := events.foldl mdnsHandle .new

def actionListing (events : Events) : DiscoveryTracker := events.foldl actionHandle .new

/-! ### The latest event -/

/-- The latest event of a service. -/
def latest (events : Events) (fullname : String) : Option (ℕ × ServiceEvent) :=
  (events.filter fun event => event.2.fullname = fullname).getLast?

/-- The host that an event publishes. -/
def ServiceEvent.published : ServiceEvent → Option DiscoveredHost
  | resolved info => info.parse.toOption
  | removed _ => none

/-- A service was the one seen longest ago when a new one needed its place, and there was no event
of it since. -/
def Evicted (events : Events) (fullname : String) : Prop :=
  ∃ before now event host after, events = before ++ (now, event) :: after ∧
    event.published = some host ∧
    (actionListing before).evicted hostTtl now host.id = some fullname ∧
    ∀ later ∈ after, later.2.fullname ≠ fullname

/-- Every resolve that cannot be published is of a service that is not: its latest event before
published nothing. -/
def NoLapse (events : Events) : Prop :=
  ∀ before now info after, events = before ++ (now, ServiceEvent.resolved info) :: after →
    info.parse.toOption = none → ∀ event ∈ latest before info.fullname, event.2.published = none

/-! ### The two back ends -/

theorem id_of_parse {info : ResolvedService} {host : DiscoveredHost} (h : info.parse = .ok host) :
    host.id = info.fullname := by
  rw [ResolvedService.parse, parseServiceMetadataScoped] at h
  split at h
  · cases h
  split at h
  · cases h
  · exact id_of_validate h

theorem action_eq (info : ResolvedService) : info.action =
    match info.parse with
    | .ok host => .publish host
    | .error _ => .retract := by
  rw [ResolvedService.action, ResolvedService.parse, decideServiceStateAction,
    parseServiceMetadataScoped]
  by_cases hempty : info.scopedAddresses.isEmpty
  · rw [List.isEmpty_iff.mp hempty]
    rfl
  · rw [if_neg hempty]
    cases choosePreferredEndpoint info.scopedAddresses with
    | none => rfl
    | some endpoint => rfl

theorem id_of_published {event : ServiceEvent} {host : DiscoveredHost}
    (h : event.published = some host) : host.id = event.fullname := by
  cases event with
  | removed fullname => cases h
  | resolved info =>
    rw [ServiceEvent.published] at h
    cases hparse : info.parse with
    | error e => rw [hparse] at h; cases h
    | ok host' =>
      rw [hparse] at h
      cases h
      exact id_of_parse hparse

/-- What the endpoint action does to the table at an event. -/
def ServiceEvent.op (event : ServiceEvent) : Op DiscoveredHost String :=
  match event.published with
  | some host => .put host
  | none => .drop event.fullname

theorem about_op (event : ServiceEvent) : event.op.about DiscoveredHost.id = event.fullname := by
  rw [ServiceEvent.op]
  cases h : event.published with
  | none => rfl
  | some host => exact id_of_published h

theorem published_of_op {event : ServiceEvent} {host : DiscoveredHost} (h : event.op = .put host) :
    event.published = some host := by
  rw [ServiceEvent.op] at h
  cases hpublished : event.published with
  | none => rw [hpublished] at h; cases h
  | some host' => rw [hpublished] at h; cases h; rfl

theorem actionHandle_eq (tracker : DiscoveryTracker) (event : ℕ × ServiceEvent) :
    actionHandle tracker event = step hostTtl tracker (event.1, event.2.op) := by
  obtain ⟨now, info | fullname⟩ := event
  · simp only [actionHandle, action_eq, ServiceEvent.op, ServiceEvent.published]
    cases info.parse <;> rfl
  · rfl

/-- The table is one of the library's runs. -/
def ops (events : Events) : List (ℕ × Op DiscoveredHost String) :=
  events.map fun event => (event.1, event.2.op)

theorem actionListing_eq (events : Events) :
    actionListing events = run hostTtl (ops events) := by
  rw [actionListing, run, ops, List.foldl_map]
  congr 1
  funext tracker event
  exact actionHandle_eq tracker event

theorem held_ops (events : Events) (fullname : String) :
    held DiscoveredHost.id (ops events) fullname =
      (latest events fullname).bind fun event =>
        event.2.published.map fun host => ⟨host, event.1⟩ := by
  have hleft (event : ℕ × ServiceEvent) : left (event.1, event.2.op) =
      event.2.published.map fun host => ⟨host, event.1⟩ := by
    rw [ServiceEvent.op]
    cases event.2.published <;> rfl
  have hfilter : (ops events).filter (fun op => op.2.about DiscoveredHost.id = fullname) =
      (events.filter fun event => event.2.fullname = fullname).map
        fun event => (event.1, event.2.op) := by
    rw [ops, List.filter_map]
    simp only [Function.comp_def, about_op]
  rw [held, hfilter, List.getLast?_map, latest]
  cases (events.filter fun event => event.2.fullname = fullname).getLast? with
  | none => rfl
  | some event => exact hleft event

theorem evicted_iff {events : Events} {fullname : String} : Evicted events fullname ↔
    Recency.Evicted DiscoveredHost.id maxTrackedHosts hostTtl (ops events) fullname := by
  constructor
  · rintro ⟨before, now, event, host, after, rfl, hhost, hevicted, hafter⟩
    refine ⟨ops before, now, host, ops after, ?_, actionListing_eq before ▸ hevicted, ?_⟩
    · have hop : event.op = .put host := by rw [ServiceEvent.op, hhost]
      simp [ops, hop]
    · intro op hop
      obtain ⟨later, hlater, rfl⟩ := List.mem_map.mp hop
      exact (about_op later.2).symm ▸ hafter later hlater
  · rintro ⟨before, now, host, after, hops, hevicted, hafter⟩
    obtain ⟨before, rest, rfl, rfl, hrest⟩ := List.map_eq_append_iff.mp hops
    obtain ⟨⟨now, event⟩, after, rfl, hevent, rfl⟩ := List.map_eq_cons_iff.mp hrest
    obtain ⟨rfl, hop⟩ := Prod.mk.inj hevent
    refine ⟨before, now, event, host, after, rfl, published_of_op hop,
      actionListing_eq before ▸ hevicted, ?_⟩
    intro later hlater
    exact about_op later.2 ▸ hafter _ (List.mem_map.mpr ⟨later, hlater, rfl⟩)

theorem latest_of_mem {events : Events} {e : Entry DiscoveredHost}
    (h : e ∈ (actionListing events).entries) : ∃ event ∈ latest events e.value.id,
      event.2.published = some e.value := by
  rw [actionListing_eq] at h
  have hheld := (held_of_mem h).1
  rw [held_ops] at hheld
  obtain ⟨event, hlatest, hentry⟩ := Option.bind_eq_some_iff.mp hheld
  obtain ⟨host, hhost, rfl⟩ := Option.map_eq_some_iff.mp hentry
  exact ⟨event, hlatest, hhost⟩

theorem NoLapse.init {events : Events} {event : ℕ × ServiceEvent}
    (h : NoLapse (events ++ [event])) : NoLapse events := by
  rintro before now info after rfl
  exact h before now info (after ++ [event]) (by simp)

/-- **The mDNS browser lists the same**, where no service lapses. -/
theorem mdnsListing_eq {events : Events} (h : NoLapse events) :
    mdnsListing events = actionListing events := by
  induction events using List.reverseRecOn with
  | nil => rfl
  | append_singleton events event ih =>
    have hmdns : mdnsListing (events ++ [event]) = mdnsHandle (mdnsListing events) event := by
      rw [mdnsListing, List.foldl_append]; rfl
    have haction :
        actionListing (events ++ [event]) = actionHandle (actionListing events) event := by
      rw [actionListing, List.foldl_append]; rfl
    rw [hmdns, haction, ih h.init]
    obtain ⟨now, info | fullname⟩ := event
    · simp only [mdnsHandle, actionHandle, action_eq]
      cases hparse : info.parse with
      | ok host => rfl
      | error e =>
        refine (Table.drop_eq_self fun entry hentry hid => ?_).symm
        obtain ⟨last, hlast, hhost⟩ := latest_of_mem hentry
        rw [hid] at hlast
        have hnone := h events now info [] rfl (by rw [hparse]; rfl) last hlast
        rw [hnone] at hhost
        cases hhost
    · rfl

/-- **Discovery reflects the latest event**: the endpoint action lists the services that their
latest event published, if it is not too old and they were not evicted; the mDNS browser lists the
same where no service lapses. -/
theorem discovery_latest (events : Events) (now : ℕ) (hnow : ∀ event ∈ events, event.1 ≤ now) :
    (∀ host, host ∈ (actionListing events).snapshotAt now ↔
      ∃ t event, latest events host.id = some (t, event) ∧ event.published = some host ∧
        now - t < hostTtl ∧ ¬ Evicted events host.id) ∧
    (NoLapse events →
      (mdnsListing events).snapshotAt now = (actionListing events).snapshotAt now) := by
  refine ⟨fun host => ?_, fun h => by rw [mdnsListing_eq h]⟩
  have hnow' : ∀ op ∈ ops events, op.1 ≤ now := by
    intro op hop
    obtain ⟨event, hevent, rfl⟩ := List.mem_map.mp hop
    exact hnow event hevent
  rw [DiscoveryTracker.snapshotAt, List.mem_map, actionListing_eq]
  simp only [mem_fresh_run_iff hnow', held_ops, ← evicted_iff]
  constructor
  · rintro ⟨e, ⟨hheld, hfresh, hevicted⟩, rfl⟩
    obtain ⟨⟨t, event⟩, hlatest, hentry⟩ := Option.bind_eq_some_iff.mp hheld
    obtain ⟨host, hhost, rfl⟩ := Option.map_eq_some_iff.mp hentry
    exact ⟨t, event, hlatest, hhost, hfresh, hevicted⟩
  · rintro ⟨t, event, hlatest, hhost, hfresh, hevicted⟩
    refine ⟨⟨host, t⟩, ⟨?_, hfresh, hevicted⟩, rfl⟩
    rw [hlatest, Option.bind_some, hhost]
    rfl

/-- A service as it is resolved to some addresses. -/
def deskService (addresses : List IpAddr) : ResolvedService where
  fullname := "desk._maho-rd._tcp.local."
  hostname := "desk.local."
  port := 19730
  properties := [("protocol", some [51]), ("name", some [100]), ("os", some [108]),
    ("udp_port", some [49])]
  addresses := addresses
  linkLocalInterfaces := []

def deskResolved : ℕ × ServiceEvent := (0, .resolved (deskService [.v4 (.new 192 168 1 50)]))

theorem discovery_latest_desk :
    (deskResolved.1 ≤ 1) ∧ ∀ host, host ∈ (actionListing [deskResolved]).snapshotAt 1 ↔
      ∃ t event, latest [deskResolved] host.id = some (t, event) ∧ event.published = some host ∧
        1 - t < hostTtl ∧ ¬ Evicted [deskResolved] host.id :=
  have hnow : deskResolved.1 ≤ 1 := by decide +kernel
  ⟨hnow, (discovery_latest [deskResolved] 1 (by simpa using hnow)).1⟩

/-- The mDNS browser still lists a service that has lost its address, and neither back end lists one
that was resolved ten minutes ago. -/
theorem discovery_lapsed_or_old :
    ((mdnsListing [deskResolved, (1, .resolved (deskService []))]).snapshotAt 2 ≠ [] ∧
      (actionListing [deskResolved, (1, .resolved (deskService []))]).snapshotAt 2 = []) ∧
    (latest [deskResolved] "desk._maho-rd._tcp.local." = some deskResolved ∧
      deskResolved.2.published.isSome ∧
      (actionListing [deskResolved]).snapshotAt 600000 = [] ∧
      (mdnsListing [deskResolved]).snapshotAt 600000 = []) := by
  decide +kernel

end MahoRD.Discovery
