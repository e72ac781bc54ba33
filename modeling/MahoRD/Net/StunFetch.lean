/-
MahoRD/Net/StunFetch.lean

The exchange of the STUN client (`fetch_public_address`) against what else arrives at its socket.

The loop passes over what comes from elsewhere, but the first datagram from the server decides.
-/
import MahoRD.Net.StunParsing

namespace MahoRD.Stun

open Bytes Panics

variable (windows : Bool) (server : SocketAddr) (transactionId : Vector UInt8 12)

/-- The server's response to the transaction. -/
def Genuine (d : Datagram) (address : SocketAddr) : Prop :=
  d.source = server ∧ Answers transactionId d.bytes address

/-- `recv_from` hands it over. -/
def Heard (d : Datagram) : Prop := ¬ (windows ∧ bufferSize < d.bytes.length)

/-- Where the message of a datagram ends by its own header. -/
def messageEnd (data : List UInt8) : ℕ := headerSize + (u16FromBE ((data.drop 2).take 2)).toNat

/-- The first response among the datagrams, if there is one, is what the fetch returns. -/
def Survives (ds : List Datagram) (result : Result SocketAddr) : Prop :=
  ∀ before d after address, ds = before ++ d :: after →
    (∀ b ∈ before, ∀ a, ¬ Genuine server transactionId b a) →
    Genuine server transactionId d address → result = .ok address

/-- The first datagram from the server is the response, and it is whole in the buffer. -/
def Decided (ds : List Datagram) : Prop :=
  ∃ strays d rest, ds = strays ++ d :: rest ∧
    (∀ s ∈ strays, s.source ≠ server ∧ Heard windows s) ∧
    (∃ address, Genuine server transactionId d address) ∧
    Heard windows d ∧ messageEnd d.bytes ≤ bufferSize

variable {windows server transactionId}

/-! ### Cut responses -/

theorem messageEnd_message (body trailing : List UInt8) (hfits : body.length < 2 ^ 16) :
    messageEnd (message transactionId body ++ trailing) = (message transactionId body).length := by
  have hfield : ((message transactionId body ++ trailing).drop 2).take 2
      = u16ToBE (.ofNat body.length) := by
    simp only [message, List.append_assoc]
    rw [List.drop_left' (length_u16ToBE _), List.take_left' (length_u16ToBE _)]
  rw [messageEnd, hfield, u16FromBE_toBE, UInt16.toNat_ofNat', Nat.mod_eq_of_lt hfits]
  simp [message, headerSize]
  omega

variable {address : SocketAddr} {d : Datagram}

theorem answers_take_iff {data : List UInt8} {n : ℕ} :
    Answers transactionId (data.take n) address ↔
      Answers transactionId data address ∧ messageEnd data ≤ n := by
  constructor
  · rintro ⟨body, trailing, hdata, hfits, hreach⟩
    have hwhole : data = message transactionId body ++ (trailing ++ data.drop n) := by
      rw [← List.append_assoc, ← hdata, List.take_append_drop]
    refine ⟨⟨body, _, hwhole, hfits, hreach⟩, ?_⟩
    rw [hwhole, messageEnd_message body _ hfits]
    have hlen := congrArg List.length hdata
    rw [List.length_take, List.length_append] at hlen
    omega
  · rintro ⟨⟨body, trailing, rfl, hfits, hreach⟩, hend⟩
    rw [messageEnd_message body _ hfits] at hend
    refine ⟨body, trailing.take (n - (message transactionId body).length), ?_, hfits, hreach⟩
    rw [List.take_append, List.take_of_length_le hend]

/-! ### The loop -/

theorem receiveLoop_stray {received : List (Except String (List UInt8 × SocketAddr))}
    (hheard : Heard windows d) (hsource : d.source ≠ server) :
    receiveLoop server transactionId (recvFrom windows d :: received)
      = receiveLoop server transactionId received := by
  rw [recvFrom, if_neg hheard, receiveLoop, if_pos hsource]

theorem receiveLoop_strays {strays : List Datagram}
    {received : List (Except String (List UInt8 × SocketAddr))}
    (h : ∀ s ∈ strays, s.source ≠ server ∧ Heard windows s) :
    receiveLoop server transactionId (strays.map (recvFrom windows) ++ received)
      = receiveLoop server transactionId received := by
  induction strays with
  | nil => rfl
  | cons s strays ih =>
    obtain ⟨hs, hstrays⟩ := List.forall_mem_cons.mp h
    rw [List.map_cons, List.cons_append, receiveLoop_stray hs.2 hs.1, ih hstrays]

theorem receiveLoop_decides
    {received : List (Except String (List UInt8 × SocketAddr))}
    (hstray : ¬ (d.source ≠ server ∧ Heard windows d)) :
    receiveLoop server transactionId (recvFrom windows d :: received) = .ok address ↔
      Genuine server transactionId d address ∧ Heard windows d ∧
        messageEnd d.bytes ≤ bufferSize := by
  by_cases hheard : Heard windows d
  · have hsource : d.source = server := by
      by_contra h
      exact hstray ⟨h, hheard⟩
    rw [recvFrom, if_neg hheard, receiveLoop, if_neg (not_not.mpr hsource),
      parse_eq_ok_iff, answers_take_iff, Genuine]
    tauto
  · have herror : receiveLoop server transactionId (recvFrom windows d :: received)
        = fail (.io "WSAEMSGSIZE") := by
      rw [recvFrom, if_pos (not_not.mp hheard), receiveLoop]
    rw [herror]
    exact ⟨nofun, fun h => absurd h.2.1 hheard⟩

theorem exists_strays (p : Datagram → Prop) (ds : List Datagram) :
    (∀ s ∈ ds, p s) ∨ ∃ strays d rest, ds = strays ++ d :: rest ∧ (∀ s ∈ strays, p s) ∧ ¬ p d := by
  induction ds with
  | nil => exact .inl (by simp)
  | cons d ds ih =>
    by_cases hd : p d
    · rcases ih with hall | ⟨strays, e, rest, rfl, hall, he⟩
      · exact .inl (List.forall_mem_cons.mpr ⟨hd, hall⟩)
      · exact .inr ⟨d :: strays, e, rest, rfl, List.forall_mem_cons.mpr ⟨hd, hall⟩, he⟩
    · exact .inr ⟨[], d, ds, rfl, by simp, hd⟩

/-- Where a list is split at the first element of a kind, it is split there only. -/
theorem split_unique {α : Type} {p : α → Prop} {before before' after after' : List α} {a a' : α}
    (h : before ++ a :: after = before' ++ a' :: after') (hbefore : ∀ x ∈ before, ¬ p x)
    (hbefore' : ∀ x ∈ before', ¬ p x) (ha : p a) (ha' : p a') : a = a' := by
  rcases List.append_eq_append_iff.mp h with ⟨l, rfl, htail⟩ | ⟨l, rfl, htail⟩
  · rcases l with - | ⟨x, l⟩
    · exact (List.cons.inj htail).1
    · obtain ⟨rfl, -⟩ := List.cons.inj htail
      exact absurd ha (hbefore' a (by simp))
  · rcases l with - | ⟨x, l⟩
    · exact (List.cons.inj htail).1.symm
    · obtain ⟨rfl, -⟩ := List.cons.inj htail
      exact absurd ha' (hbefore a' (by simp))

theorem exists_first {ds : List Datagram} (hd : d ∈ ds)
    (h : Genuine server transactionId d address) :
    ∃ before e after a, ds = before ++ e :: after ∧
      (∀ b ∈ before, ∀ a, ¬ Genuine server transactionId b a) ∧
      Genuine server transactionId e a := by
  rcases exists_strays (fun b => ∀ a, ¬ Genuine server transactionId b a) ds with
    hnone | ⟨before, e, after, rfl, hbefore, he⟩
  · exact absurd h (hnone d hd address)
  · obtain ⟨a, ha⟩ := not_forall_not.mp he
    exact ⟨before, e, after, a, rfl, hbefore, ha⟩

theorem receiveLoop_survives_iff (ds : List Datagram) :
    Survives server transactionId ds
        (receiveLoop server transactionId (ds.map (recvFrom windows))) ↔
      (∀ d ∈ ds, ∀ a, ¬ Genuine server transactionId d a) ∨
        Decided windows server transactionId ds := by
  constructor
  · intro h
    by_cases hnone : ∀ d ∈ ds, ∀ a, ¬ Genuine server transactionId d a
    · exact .inl hnone
    push Not at hnone
    obtain ⟨d, hd, address, hgenuine⟩ := hnone
    obtain ⟨before, e, after, a, hds, hbefore, ha⟩ := exists_first hd hgenuine
    have hresult := h before e after a hds hbefore ha
    rcases exists_strays (fun s => s.source ≠ server ∧ Heard windows s) ds with
      hstrays | ⟨strays, f, rest, rfl, hstrays, hf⟩
    · have hloop : receiveLoop server transactionId (ds.map (recvFrom windows) ++ [])
          = receiveLoop server transactionId [] := receiveLoop_strays hstrays
      rw [List.append_nil, hresult] at hloop
      cases hloop
    · rw [List.map_append, List.map_cons, receiveLoop_strays hstrays, receiveLoop_decides hf]
        at hresult
      exact .inr ⟨strays, f, rest, rfl, hstrays, ⟨a, hresult.1⟩, hresult.2⟩
  · rintro (hnone | ⟨strays, d, rest, rfl, hstrays, ⟨a, ha⟩, hheard, hend⟩)
    · rintro before d after address rfl - hgenuine
      exact absurd hgenuine (hnone d (by simp) address)
    · intro before e after address hds hbefore he
      have hstray : ¬ (d.source ≠ server ∧ Heard windows d) := fun h => h.1 ha.1
      rw [List.map_append, List.map_cons, receiveLoop_strays hstrays, receiveLoop_decides hstray]
      have hde : d = e := by
        refine split_unique (p := fun d => ∃ a, Genuine server transactionId d a) hds ?_ ?_ ⟨a, ha⟩
          ⟨address, he⟩
        · rintro s hs ⟨b, hb⟩
          exact (hstrays s hs).1 hb.1
        · rintro b hb ⟨c, hc⟩
          exact hbefore b hb c hc
      exact ⟨hde ▸ he, hheard, hend⟩

/-- **When the binding survives stray datagrams**: with the server resolved and the request sent,
the fetch returns the address of the first response that arrives iff none arrives, or the first
datagram from the server is that response and is whole in the buffer. -/
theorem fetch_survives_iff (windows : Bool) {server : SocketAddr} (transactionId : Vector UInt8 12)
    {addresses : Except String (List SocketAddr)}
    {sendTo : List UInt8 → SocketAddr → Except String Unit}
    (hserver : resolveIpv4 addresses = .ok server)
    (hsent : sendTo (bindingRequest transactionId) server = .ok ()) (ds : List Datagram) :
    Survives server transactionId ds
        (fetchPublicAddress addresses (.ok transactionId) sendTo (ds.map (recvFrom windows))) ↔
      (∀ d ∈ ds, ∀ a, ¬ Genuine server transactionId d a) ∨
        Decided windows server transactionId ds := by
  simp only [fetchPublicAddress, hserver, ok_bind, hsent]
  exact receiveLoop_survives_iff ds

/-! ### An exchange -/

/-- The server of the exchange. -/
def stunServer : SocketAddr := .v4 (.new 192 0 2 1) 3478

/-- A response of the server to the transaction with bytes `b`. -/
def response (b : UInt8) : Datagram :=
  ⟨message (.replicate 12 b) (attributeList [] mappedAddress (mappedValue (.new 192 0 2 5) 19730) []),
    stunServer⟩

theorem genuine_response (b : UInt8) :
    Genuine stunServer (.replicate 12 b) (response b) (.v4 (.new 192 0 2 5) 19730) :=
  ⟨rfl, _, [], (List.append_nil _).symm, by decide,
    .past_all nofun (.here [] (by decide) (mapped_mappedValue _ _))⟩

/-- Behind a datagram from elsewhere the response is found. -/
theorem fetch_survives_stray :
    Survives stunServer (.replicate 12 7) [⟨[1, 2, 3], .v4 (.new 203 0 113 9) 53⟩, response 7]
      (fetchPublicAddress (.ok [stunServer]) (.ok (.replicate 12 7)) (fun _ _ => .ok ())
        ([⟨[1, 2, 3], .v4 (.new 203 0 113 9) 53⟩, response 7].map (recvFrom true))) :=
  (fetch_survives_iff true (.replicate 12 7) rfl rfl _).mpr (.inr
    ⟨[⟨[1, 2, 3], .v4 (.new 203 0 113 9) 53⟩], response 7, [], rfl,
      by simp only [Heard]; decide, ⟨_, genuine_response 7⟩, by rw [Heard]; decide, by decide⟩)

/-- Behind the answer to an earlier transaction it is not. -/
theorem fetch_fails_stale :
    ¬ Survives stunServer (.replicate 12 7) [response 6, response 7]
      (fetchPublicAddress (.ok [stunServer]) (.ok (.replicate 12 7)) (fun _ _ => .ok ())
        ([response 6, response 7].map (recvFrom false))) := by
  intro h
  have hstale : ∀ a, ¬ Genuine stunServer (.replicate 12 7) (response 6) a := by
    intro a ha
    have hparse := ha.2.parse
    rw [show parseBindingResponse (response 6).bytes (.replicate 12 7)
      = fail (.invalid "transaction ID mismatch") by decide] at hparse
    cases hparse
  have hok := h [response 6] (response 7) [] _ rfl (by simpa using hstale) (genuine_response 7)
  revert hok
  decide

end MahoRD.Stun
