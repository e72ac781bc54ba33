/-
MahoRD/Tauri/HostList.lean

The computers that the desktop client lists (`merge_discovery_results`, `match_pairing_record` and
`hosts_from_tailscale_output` in `tauri-shell/src-tauri/src/lib.rs`).  The JSON of `tailscale status`
is left out: its peers are given.

Hosts of both sources are gathered by their id, which a pairing record may give several of them.
-/
import MahoRD.App.AgentInput
import MahoRD.App.PairingFile
import MahoRD.Lib.FirstSeen
import MahoRD.Net.Discovery

namespace MahoRD.Tauri

open Discovery (DiscoveredHost DiscoveryError eqIgnoreAsciiCase)

structure HostItem where
  id : String
  name : String
  ip : String
  os : String
  online : Bool
  paired : Bool
  lastSeen : Option String
  tcpPort : Option UInt16
  udpPort : Option UInt16

/-! ### Pairing records -/

/-- `str::trim` -/
def trim (s : String) : String := String.ofList (Agent.trim s.toList)

/-- The record has been at this address. -/
def hasEndpoint (ip : String) (r : ClientPairing.PairingRecord) : Bool :=
  r.lastEndpoint.any (·.host = ip) || r.endpointAliases.any (·.host = ip)

def matchPairingRecord (ip name : String) (records : List ClientPairing.PairingRecord) :
    Option ClientPairing.PairingRecord :=
  match records.reverse.find? (hasEndpoint ip) with
  | some r => some r
  | none => records.reverse.find? fun r => eqIgnoreAsciiCase (trim r.name) (trim name)

/-! ### Tailscale -/

structure Peer where
  hostName : String
  os : Option String
  online : Bool
  ips : List String

/-- A platform that cannot be a host. -/
def isMobileOs (os : String) : Bool :=
  Agent.toAsciiLowercase os.toList ∈ ["ios", "android", "tvos", "watchos", "visionos"]

def onlineName (peer : Peer) : String := Agent.toAsciiLowercase (trim peer.hostName).toList

/-- `hosts_from_tailscale_output`, once the peers have been read. -/
def hostsFromPeers (peers : List Peer) (records : List ClientPairing.PairingRecord) :
    List HostItem :=
  let parsedPeers := peers.filter fun peer => !peer.os.any isMobileOs
  let onlineNames := (parsedPeers.filter (·.online)).map onlineName
  parsedPeers.filterMap fun peer =>
    match peer.ips.head?.filter (· ≠ "") with
    | none => none
    | some ip =>
      let matchedRecord := matchPairingRecord ip peer.hostName records
      let isPaired := matchedRecord.isSome
      if !peer.online && (!isPaired || onlineName peer ∈ onlineNames) then none
      else
        some {
          id := (matchedRecord.map (·.id)).getD ip
          name := peer.hostName
          ip
          os := peer.os.getD "unknown"
          online := peer.online
          paired := isPaired
          lastSeen := none
          tcpPort := none
          udpPort := none }

/-! ### Merging -/

def displayError : DiscoveryError → String
  | .policyDenied => "local network access denied by system policy"
  | .backend message => "discovery backend error: " ++ message
  | .unavailable => "discovery service unavailable"
  | .invalidPayload message => "invalid discovery payload: " ++ message

def lanItem (records : List ClientPairing.PairingRecord) (h : DiscoveredHost) : HostItem :=
  let matched := matchPairingRecord h.ip h.name records
  { id := (matched.map (·.id)).getD h.id
    name := h.name
    ip := h.ip
    os := h.os
    online := true
    paired := matched.isSome
    lastSeen := none
    tcpPort := some h.tcpPort
    udpPort := some h.udpPort }

def dedupeRule : FirstSeen.Rule HostItem String where
  key := (·.id)
  replaces existing item := !existing.online && item.online

def dedupeHostItems (items : List HostItem) : List HostItem := FirstSeen.items dedupeRule items

/-- The hosts whose address has not been seen. -/
def unseen : List String → List HostItem → List HostItem
  | _, [] => []
  | seenIps, th :: rest =>
    if th.ip ∈ seenIps then unseen seenIps rest else th :: unseen (th.ip :: seenIps) rest

/-- A host, and whether it is on the LAN. -/
abbrev Candidate := HostItem × Bool

def candidateRule : FirstSeen.Rule Candidate String where
  key c := c.1.id
  replaces existing c :=
    match existing.1.online, c.1.online with
    | false, true => true
    | true, false => false
    | true, true => !existing.2 && c.2
    | false, false => false

def mergeDiscoveryResults (lan : Except DiscoveryError (List DiscoveredHost))
    (tailscale : Except String (List HostItem)) (records : List ClientPairing.PairingRecord) :
    Except String (List HostItem) :=
  match lan, tailscale with
  | .error lanErr, .error tsErr =>
    .error ("All discovery sources failed: LAN discovery error (" ++ displayError lanErr ++
      "); Tailscale error (" ++ tsErr ++ ")")
  | .ok lanHosts, .error _ => .ok (dedupeHostItems (lanHosts.map (lanItem records)))
  | .error _, .ok tsHosts => .ok (dedupeHostItems tsHosts)
  | .ok lanHosts, .ok tsHosts =>
    let candidates : List Candidate :=
      lanHosts.map (fun h => (lanItem records h, true)) ++
        (unseen (lanHosts.map (·.ip)) tsHosts).map fun th => (th, false)
    .ok ((FirstSeen.items candidateRule candidates).map (·.1))

/-! ### The candidates -/

/-- All LAN hosts, then the Tailscale hosts at other addresses. -/
def candidates (lanHosts : List DiscoveredHost) (tsHosts : List HostItem)
    (records : List ClientPairing.PairingRecord) : List Candidate :=
  lanHosts.map (fun h => (lanItem records h, true)) ++
    (tsHosts.filter fun th => !(lanHosts.any (·.ip = th.ip))).map fun th => (th, false)

variable {lanHosts : List DiscoveredHost} {tsHosts : List HostItem}
  {records : List ClientPairing.PairingRecord}

theorem unseen_eq (hdistinct : (tsHosts.map (·.ip)).Nodup) (seenIps : List String) :
    unseen seenIps tsHosts = tsHosts.filter fun th => !(th.ip ∈ seenIps) := by
  induction tsHosts generalizing seenIps with
  | nil => rfl
  | cons th rest ih =>
    obtain ⟨hth, hrest⟩ := List.nodup_cons.mp hdistinct
    rw [unseen, List.filter_cons]
    by_cases hseen : th.ip ∈ seenIps
    · rw [if_pos hseen, if_neg (by simpa using hseen)]
      exact ih hrest seenIps
    · rw [if_neg hseen, if_pos (by simpa using hseen), ih hrest]
      congr 1
      apply List.filter_congr
      intro other hother
      have hne : other.ip ≠ th.ip := by
        rintro heq
        exact hth (List.mem_map.mpr ⟨other, hother, heq⟩)
      simp [hne]

theorem candidates_eq (hdistinct : (tsHosts.map (·.ip)).Nodup) :
    lanHosts.map (fun h => (lanItem records h, true)) ++
        (unseen (lanHosts.map (·.ip)) tsHosts).map (fun th => (th, false)) =
      candidates lanHosts tsHosts records := by
  rw [candidates, unseen_eq hdistinct]
  congr 2
  apply List.filter_congr
  intro th _
  rw [Bool.eq_iff_iff]
  simp

theorem online_of_lan {c : Candidate} (h : c ∈ candidates lanHosts tsHosts records)
    (hlan : c.2 = true) : c.1.online = true := by
  rcases List.mem_append.mp h with h | h
  · obtain ⟨host, -, rfl⟩ := List.mem_map.mp h
    rfl
  · obtain ⟨th, -, rfl⟩ := List.mem_map.mp h
    cases hlan

/-! ### The list -/

theorem dedupe_eq (isLan : Bool) (items : List HostItem) :
    (FirstSeen.items candidateRule (items.map fun item => (item, isLan))).map (·.1) =
      dedupeHostItems items := by
  have hitems : FirstSeen.items candidateRule (items.map fun item => (item, isLan)) =
      (FirstSeen.items dedupeRule items).map fun item => (item, isLan) := by
    apply FirstSeen.items_map
    · intro item
      rfl
    · intro old new
      show (match old.online, new.online with
        | false, true => true
        | true, false => false
        | true, true => !isLan && isLan
        | false, false => false) = (!old.online && new.online)
      cases old.online <;> cases new.online <;> cases isLan <;> rfl
  rw [hitems, List.map_map]
  exact List.map_id _

theorem merge_ok (hdistinct : (tsHosts.map (·.ip)).Nodup) :
    mergeDiscoveryResults (.ok lanHosts) (.ok tsHosts) records =
      .ok ((FirstSeen.items candidateRule (candidates lanHosts tsHosts records)).map (·.1)) := by
  rw [← candidates_eq hdistinct]
  rfl

section Gathered

variable {c : Candidate}
  (h : c ∈ FirstSeen.items candidateRule (candidates lanHosts tsHosts records))

include h

theorem mem_candidates : c ∈ candidates lanHosts tsHosts records :=
  (FirstSeen.winner_mem (FirstSeen.winner_of_mem_items h)).1

theorem online_iff : c.1.online = true ↔
    ∃ d ∈ candidates lanHosts tsHosts records, d.1.id = c.1.id ∧ d.1.online = true := by
  refine FirstSeen.property_iff (P := fun d : Candidate => d.1.online = true) ?_ ?_
    (FirstSeen.winner_of_mem_items h)
  · intro old _ new _ hold hreplaces
    cases hnew : new.1.online with
    | true => rfl
    | false => simp [candidateRule, hold, hnew] at hreplaces
  · intro old _ new _ hold hnew
    have hold : old.1.online = false := by simpa using hold
    simp [candidateRule, hold, hnew]

/-- A LAN host is online, so it stays and takes the place of a Tailscale host. -/
theorem isLan_iff : c.2 = true ↔
    ∃ d ∈ candidates lanHosts tsHosts records, d.1.id = c.1.id ∧ d.2 = true := by
  refine FirstSeen.property_iff (P := fun d : Candidate => d.2 = true) ?_ ?_
    (FirstSeen.winner_of_mem_items h)
  · intro old hmem new _ hold hreplaces
    have honline := online_of_lan hmem hold
    cases hnew : new.1.online with
    | true => simp [candidateRule, honline, hnew, hold] at hreplaces
    | false => simp [candidateRule, honline, hnew] at hreplaces
  · intro old _ new hmem hold hnew
    have honline := online_of_lan hmem hnew
    have hold : old.2 = false := by simpa using hold
    cases ho : old.1.online with
    | true => simp [candidateRule, honline, ho, hold, hnew]
    | false => simp [candidateRule, honline, ho]

end Gathered

theorem unseen_nil_lan (hdistinct : (tsHosts.map (·.ip)).Nodup) : unseen [] tsHosts = tsHosts := by
  rw [unseen_eq hdistinct]
  exact List.filter_eq_self.mpr fun th _ => rfl

/-- **One item for each id among the candidates**, in the order of first appearance; it is online if
a candidate of the id is, and a LAN host if a candidate of the id is one.  A source that fails alone
counts as one that has found nothing. -/
theorem host_list_merged (lanHosts : List DiscoveredHost) (tsHosts : List HostItem)
    (records : List ClientPairing.PairingRecord) (hdistinct : (tsHosts.map (·.ip)).Nodup) :
    (∃ merged : List Candidate,
      mergeDiscoveryResults (.ok lanHosts) (.ok tsHosts) records = .ok (merged.map (·.1)) ∧
      merged.map (·.1.id) =
        ((candidates lanHosts tsHosts records).map (·.1.id)).eraseDups ∧
      ∀ c ∈ merged, c ∈ candidates lanHosts tsHosts records ∧
        (c.1.online = true ↔
          ∃ d ∈ candidates lanHosts tsHosts records, d.1.id = c.1.id ∧ d.1.online = true) ∧
        (c.2 = true ↔
          ∃ d ∈ candidates lanHosts tsHosts records, d.1.id = c.1.id ∧ d.2 = true)) ∧
    (∀ e, mergeDiscoveryResults (.error e) (.ok tsHosts) records =
      mergeDiscoveryResults (.ok []) (.ok tsHosts) records) ∧
    ∀ e, mergeDiscoveryResults (.ok lanHosts) (.error e) records =
      mergeDiscoveryResults (.ok lanHosts) (.ok []) records := by
  refine ⟨⟨_, merge_ok hdistinct, FirstSeen.map_key_items candidateRule _, fun c hc => ?_⟩, fun e => ?_,
    fun e => ?_⟩
  · exact ⟨mem_candidates hc, online_iff hc, isLan_iff hc⟩
  · show Except.ok (dedupeHostItems tsHosts) = Except.ok ((FirstSeen.items candidateRule
      ([] ++ (unseen [] tsHosts).map fun th => (th, false))).map (·.1))
    rw [List.nil_append, unseen_nil_lan hdistinct, dedupe_eq]
  · show Except.ok (dedupeHostItems (lanHosts.map (lanItem records))) =
      Except.ok ((FirstSeen.items candidateRule
        (lanHosts.map (fun h => (lanItem records h, true)) ++ [])).map (·.1))
    rw [List.append_nil, ← dedupe_eq true, List.map_map]
    rfl

/-! ### A desk in both lists -/

def deskRecord : ClientPairing.PairingRecord :=
  ⟨"desk", "Desk", List.replicate 32 0, 0, some ⟨"192.168.1.2", 7000, 7001⟩, [], none, none, .owner⟩

def deskOnLan : DiscoveredHost := ⟨"desk._maho._tcp", "Desk", "192.168.1.2", "linux", 7000, 7001⟩

def deskPeer : Peer := ⟨"desk", some "linux", false, ["100.64.0.2"]⟩

def shelfPeer : Peer := ⟨"shelf", none, true, ["100.64.0.3"]⟩

/-- The record gives both desks one id. -/
theorem host_list_merged_desk : ∃ merged : List Candidate,
    mergeDiscoveryResults (.ok [deskOnLan]) (.ok (hostsFromPeers [deskPeer, shelfPeer] [deskRecord]))
        [deskRecord] = .ok (merged.map (·.1)) ∧
      merged.map (·.1.id) = ["desk", "100.64.0.3"] := by
  obtain ⟨⟨merged, hmerged, hids, -⟩, -⟩ := host_list_merged [deskOnLan]
    (hostsFromPeers [deskPeer, shelfPeer] [deskRecord]) [deskRecord] (by decide)
  exact ⟨merged, hmerged, hids.trans (by decide)⟩

end MahoRD.Tauri
