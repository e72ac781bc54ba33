/-
MahoRD/Video/HostileNetwork.lean

Video over a network that anyone can write to.  The packets of `send_frame` and all others of the
session go through one cipher; the client takes any bytes for a datagram and handles what opens.
Sequence numbers, which the assembler does not look at, count the packets of `send_frame` only.

While AES-GCM behaves ideally this is no worse than the network of `Delivery`, which only loses and
reorders: each run is one of that network in which no packet comes more often than it was sent.
-/
import MahoRD.Net.DatagramChannel
import MahoRD.Video.Delivery

namespace MahoRD.HostileNetwork

open DatagramCipher DatagramChannel

structure State where
  video : Delivery.State
  channel : DatagramChannel.State

def start (c : DatagramCipher) : State := ⟨Delivery.init, DatagramChannel.start c⟩

inductive Action
  | sendFrame (frame : VideoFrame) (width height : UInt32) (sessionOrigin sendAt : ℕ)
      (send : ℕ → Option UInt32)
  | other (header : PacketHeader) (payload : List UInt8)
  | present (datagram : List UInt8) (now : ℕ)
  | client (action : Delivery.Action)

/-- What the client does without a packet. -/
def alone : Delivery.Action → Bool
  | .recvTimeout | .decodeFailed | .stop => true
  | .sendFrame .. | .receive .. => false

/-- The packets that the assembler looks at. -/
def media (p : Packet) : Bool :=
  p.header.packetType = .frameHeader ∨ p.header.packetType = .frameChunk

variable (aes : List UInt8 → Aead)

/-- Each packet that went out was sealed. -/
def sealAll (s : DatagramChannel.State) : List Packet → Option DatagramChannel.State
  | [] => some s
  | p :: packets =>
    match sealDatagram aes s.sealer p.header p.payload with
    | (.error _, _) => none
    | (.ok datagram, sealer) =>
      sealAll { s with sealer, sent := ⟨p.header, p.payload, datagram⟩ :: s.sent } packets

/-- A media packet that is not among those of `send_frame` has been sealed but could not be sent. -/
def step (s : State) : Action → Option State
  | .sendFrame frame width height sessionOrigin sendAt send =>
    (Delivery.step s.video (.sendFrame frame width height sessionOrigin sendAt send)).bind fun video =>
      (sealAll aes s.channel (video.packets.drop s.video.packets.length)).map (⟨video, ·⟩)
  | .other header payload =>
    match sealDatagram aes s.channel.sealer header payload with
    | (.error _, sealer) => some { s with channel := { s.channel with sealer } }
    | (.ok datagram, sealer) =>
      if media ⟨header, payload⟩ then some { s with channel := { s.channel with sealer } }
      else some { s with channel := { s.channel with
        sealer, sent := ⟨header, payload, datagram⟩ :: s.channel.sent } }
  | .present datagram now =>
    match openDatagram aes s.channel.opener datagram with
    | (.error _, opener) => some { s with channel := { s.channel with opener } }
    | (.ok (header, payload), opener) => some {
        video := Delivery.handlePacket s.video ⟨header, payload⟩ now
        channel := { s.channel with
          opener, delivered := ⟨header, payload, datagram⟩ :: s.channel.delivered } }
  | .client action =>
    if alone action then (Delivery.step s.video action).map ({ s with video := · }) else none

/-- What decrypts was sealed in this run, under that nonce and header. -/
def Ideal (s : State) : Action → Prop
  | .present datagram _ => DatagramChannel.Ideal aes s.channel (.present datagram)
  | _ => True

/-! ### The network below -/

/-- The media packets among the transfers, newest first. -/
def packetsOf (transfers : List Transfer) : List Packet :=
  (transfers.map fun x => ⟨x.header, x.payload⟩).filter media

/-- The packets that a run of `Delivery` receives. -/
def receivedIn (actions : List Delivery.Action) : List Packet :=
  actions.filterMap fun | .receive packet _ => some packet | _ => none

variable {aes} {c : DatagramCipher} {s s' : State}

structure Inv (aes : List UInt8 → Aead) (c : DatagramCipher) (s : State) : Prop where
  channel : DatagramChannel.Inv aes c s.channel
  sent : packetsOf s.channel.sent = (s.video.packets.filter media).reverse
  /-- The run of the network below. -/
  below : ∃ actions, Machine.run Delivery.step Delivery.init actions = some s.video ∧
    receivedIn actions = (packetsOf s.channel.delivered).reverse

theorem inv_start (hr : c.replay = ReplayWindow.empty) : Inv aes c (start c) where
  channel := DatagramChannel.inv_start hr
  sent := rfl
  below := ⟨[], rfl, rfl⟩

/-- One more step of the network below, and what it receives. -/
theorem Inv.follow (h : Inv aes c s) {video : Delivery.State} {a : Delivery.Action}
    (hstep : Delivery.step s.video a = some video) :
    ∃ actions, Machine.run Delivery.step Delivery.init actions = some video ∧
      receivedIn actions = (packetsOf s.channel.delivered).reverse ++ receivedIn [a] := by
  obtain ⟨actions, hrun, hreceived⟩ := h.below
  exact ⟨actions ++ [a], Machine.run_append_eq_some.mpr ⟨s.video, hrun,
    Machine.run_cons_eq_some.mpr ⟨video, hstep, rfl⟩⟩,
    List.filterMap_append.trans (congrArg (· ++ _) hreceived)⟩

theorem inv_sealAll (hp : c.noncePrefix.length = 4) {x x' : DatagramChannel.State}
    {packets : List Packet} (h : DatagramChannel.Inv aes c x) (hs : sealAll aes x packets = some x') :
    DatagramChannel.Inv aes c x' ∧ x'.delivered = x.delivered ∧
      packetsOf x'.sent = (packets.filter media).reverse ++ packetsOf x.sent := by
  induction packets generalizing x with
  | nil =>
    cases hs
    exact ⟨h, rfl, rfl⟩
  | cons p packets ih =>
    rw [sealAll] at hs
    split at hs
    · cases hs
    next datagram sealer hseal =>
    obtain ⟨hinv, hdelivered, hsent⟩ := ih (inv_sent hp h hseal) hs
    refine ⟨hinv, hdelivered, hsent.trans ?_⟩
    by_cases hm : media p <;> simp [packetsOf, hm]

/-- The frame's packets come behind those sent before, and the client is where it was. -/
theorem sendFrame_packets {v v' : Delivery.State} {frame : VideoFrame} {width height : UInt32}
    {sessionOrigin sendAt : ℕ} {send : ℕ → Option UInt32}
    (h : Delivery.step v (.sendFrame frame width height sessionOrigin sendAt send) = some v') :
    v'.packets = v.packets ++ v'.packets.drop v.packets.length := by
  obtain rfl := Option.some.inj h
  simp

theorem handlePacket_other {v : Delivery.State} {p : Packet} (h : media p = false) (now : ℕ) :
    Delivery.handlePacket v p now = v := by
  obtain ⟨hheader, hchunk⟩ : p.header.packetType ≠ .frameHeader ∧
      p.header.packetType ≠ .frameChunk := by simpa [media] using h
  unfold Delivery.handlePacket
  split
  · contradiction
  · contradiction
  · rfl

theorem packets_handlePacket (v : Delivery.State) (p : Packet) (now : ℕ) :
    (Delivery.handlePacket v p now).packets = v.packets := by
  have henqueue (r) : (Delivery.enqueue v now r).packets = v.packets := by
    rcases r with ⟨e | - | frame, assembler⟩ <;> rfl
  unfold Delivery.handlePacket
  split
  · split
    · rfl
    · exact henqueue _
  · split
    · rfl
    · exact henqueue _
  · rfl

theorem packets_alone {v v' : Delivery.State} {a : Delivery.Action} (ha : alone a = true)
    (h : Delivery.step v a = some v') : v'.packets = v.packets ∧ receivedIn [a] = [] := by
  cases a with
  | recvTimeout =>
    simp only [Delivery.step] at h
    split at h <;> cases h <;> exact ⟨rfl, rfl⟩
  | decodeFailed | stop => cases h; exact ⟨rfl, rfl⟩
  | sendFrame | receive => cases ha

/-- What opens was sealed, so the network below has it to deliver. -/
theorem inv_present (h : Inv aes c s) {datagram payload : List UInt8} {header : PacketHeader}
    {opener : DatagramCipher} (hideal : DatagramChannel.Ideal aes s.channel (.present datagram))
    (hopen : openDatagram aes s.channel.opener datagram = (.ok (header, payload), opener))
    (now : ℕ) : Inv aes c {
      video := Delivery.handlePacket s.video ⟨header, payload⟩ now
      channel := { s.channel with
        opener, delivered := ⟨header, payload, datagram⟩ :: s.channel.delivered } } := by
  refine ⟨inv_opened h.channel hideal hopen, by rw [packets_handlePacket]; exact h.sent, ?_⟩
  rcases hm : media ⟨header, payload⟩ with - | -
  · rw [handlePacket_other hm]
    simpa [packetsOf, hm] using h.below
  · have hmem : (⟨header, payload⟩ : Packet) ∈ packetsOf s.channel.sent :=
      List.mem_filter.mpr ⟨List.mem_map.mpr ⟨_, opened_sent h.channel hideal hopen, rfl⟩, hm⟩
    rw [h.sent, List.mem_reverse, List.mem_filter] at hmem
    obtain ⟨actions, hrun, hreceived⟩ := h.follow (a := .receive ⟨header, payload⟩ now)
      (if_pos hmem.1)
    exact ⟨actions, hrun, by simpa [packetsOf, hm, receivedIn] using hreceived⟩

theorem inv_step (hp : c.noncePrefix.length = 4) {a : Action} (h : Inv aes c s)
    (hideal : Ideal aes s a) (hs : step aes s a = some s') : Inv aes c s' := by
  cases a with
  | sendFrame frame width height sessionOrigin sendAt send =>
    simp only [step, Option.bind_eq_some_iff, Option.map_eq_some_iff] at hs
    obtain ⟨video, hvideo, channel, hchannel, rfl⟩ := hs
    obtain ⟨hinv, hdelivered, hsent⟩ := inv_sealAll hp h.channel hchannel
    refine ⟨hinv, ?_, by simpa [hdelivered, receivedIn] using h.follow hvideo⟩
    rw [sendFrame_packets hvideo, List.filter_append, List.reverse_append, ← h.sent]
    exact hsent
  | other header payload =>
    simp only [step] at hs
    split at hs
    next hseal =>
      cases hs
      exact ⟨inv_seal h.channel hseal, h.sent, h.below⟩
    next datagram sealer hseal =>
      split at hs
      · cases hs
        exact ⟨inv_seal h.channel hseal, h.sent, h.below⟩
      next hm =>
        cases hs
        exact ⟨inv_sent hp h.channel hseal, by simpa [packetsOf, hm] using h.sent, h.below⟩
  | present datagram now =>
    simp only [step] at hs
    split at hs
    next hopen =>
      cases hs
      obtain rfl := openDatagram_error hopen
      exact h
    next hopen =>
      cases hs
      exact inv_present h hideal hopen now
  | client action =>
    simp only [step, Option.ite_none_right_eq_some, Option.map_eq_some_iff] at hs
    obtain ⟨ha, video, hvideo, rfl⟩ := hs
    obtain ⟨hpackets, hreceived⟩ := packets_alone ha hvideo
    refine ⟨h.channel, by rw [hpackets]; exact h.sent, ?_⟩
    simpa [hreceived] using h.follow hvideo

/-- **An attacker on the network can only lose and reorder packets.**  Whatever bytes the client is
handed, its run is one of the network that delivers sent packets only, and no packet comes more
often than it was sent.  So the decoder gets accepted frames only, byte for byte. -/
theorem hostile_network_refines {hkdf : Hkdf}
    (hlen : ∀ ikm salt info n, (hkdf ikm salt info n).length = n)
    {masterKey sessionSalt : List UInt8} {direction : Direction}
    (hderive : derive hkdf masterKey sessionSalt direction = .ok c) {actions : List Action}
    (hideal : Machine.Along (step aes) (Ideal aes) (start c) actions)
    (h : Machine.run (step aes) (start c) actions = some s) :
    ∃ below, Machine.run Delivery.step Delivery.init below = some s.video ∧
      (receivedIn below).Subperm s.video.packets ∧
      (s.video.accepted.length < 2 ^ 32 →
        ∀ f ∈ s.video.delivered, ∃ v ∈ s.video.accepted, Delivery.Carries f v) := by
  obtain ⟨hp, hr⟩ := derive_spec hlen hderive
  have hi : Inv aes c s :=
    Machine.run_inv_along (fun hi hc hs => inv_step hp hi hc hs) (inv_start hr) hideal h
  obtain ⟨below, hrun, hreceived⟩ := hi.below
  refine ⟨below, hrun, ?_, fun hlen f hf => by
    obtain ⟨i, v, hv, -, hcarries⟩ := ((Delivery.inv_run hrun).delivered f hf).carries hlen
    exact ⟨v, List.mem_of_getElem? hv, hcarries⟩⟩
  have hnodup : s.channel.delivered.Nodup := hi.channel.delivered_nodup.of_map
  obtain ⟨l, hperm, hsub⟩ := hnodup.subperm fun x hx => hi.channel.delivered_sent x hx
  have hsub' : (packetsOf s.channel.delivered).Subperm (packetsOf s.channel.sent) :=
    ⟨packetsOf l, (hperm.map _).filter media, (hsub.map _).filter media⟩
  rw [hi.sent] at hsub'
  rw [hreceived]
  exact (((List.reverse_perm _).subperm.trans hsub').trans (List.reverse_perm _).subperm).trans
    List.filter_sublist.subperm

/-- A ping crosses and the decoder still has nothing. -/
theorem hostile_network_ping : ∃ s below, Machine.run (step knownAes) (start knownCipher)
      [.other knownHeader (asciiBytes "hello world"), .present knownTransfer.datagram 0,
        .present knownTampered 1] = some s ∧
    s.channel.delivered = [knownTransfer] ∧
    Machine.run Delivery.step Delivery.init below = some s.video ∧
      (receivedIn below).Subperm s.video.packets := by
  have hother : step knownAes (start knownCipher) (.other knownHeader (asciiBytes "hello world"))
      = some ⟨Delivery.init, afterSeal⟩ := rfl
  have hping : step knownAes ⟨Delivery.init, afterSeal⟩ (.present knownTransfer.datagram 0)
      = some ⟨Delivery.init, afterOpen⟩ := rfl
  have htampered : step knownAes ⟨Delivery.init, afterOpen⟩ (.present knownTampered 1)
      = some ⟨Delivery.init, afterOpen⟩ := rfl
  have hrun : Machine.run (step knownAes) (start knownCipher)
      [.other knownHeader (asciiBytes "hello world"), .present knownTransfer.datagram 0,
        .present knownTampered 1] = some ⟨Delivery.init, afterOpen⟩ := by
    simp [Machine.run, hother, hping, htampered]
  obtain ⟨below, hbelow, hsub, -⟩ := hostile_network_refines knownHkdf_length derive_known (by
    refine ⟨trivial, fun s hs => ?_⟩
    obtain rfl := Option.some.inj (hother.symm.trans hs)
    refine ⟨ideal_afterSeal _, fun s hs => ?_⟩
    obtain rfl := Option.some.inj (hping.symm.trans hs)
    exact ⟨ideal_afterSeal _, fun _ _ => trivial⟩) hrun
  exact ⟨_, below, hrun, rfl, hbelow, hsub⟩

end MahoRD.HostileNetwork
