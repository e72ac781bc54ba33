/-
MahoRD/Net/DatagramChannel.lean

A sealer and an opener of one direction with a network between them.  The
sealer seals datagrams; the opener is presented with any bytes at all, which
covers loss, reordering, duplication, tampering and forgery.

AES-GCM enters through two assumptions: decryption undoes encryption
(`Aead.Correct`), and nothing decrypts that was not encrypted in this run under
that nonce and associated data (`Ideal`, a condition on the steps of the run).
-/
import MahoRD.Lib.Machine
import MahoRD.Net.Datagram

namespace MahoRD

/-- What the code relies on of AES-256-GCM and HKDF, ideal secrecy apart. -/
structure Aead.Correct (a : Aead) : Prop where
  decrypt_encrypt : ∀ {nonce aad plaintext ciphertext tag},
    a.encrypt nonce aad plaintext = some (ciphertext, tag) →
      a.decrypt nonce aad (ciphertext ++ tag) = some plaintext
  length_tag : ∀ {nonce aad plaintext ciphertext tag},
    a.encrypt nonce aad plaintext = some (ciphertext, tag) → tag.length = tagSize

namespace DatagramChannel

open DatagramCipher

/-- A header and a payload together with the datagram that carries them. -/
structure Transfer where
  header : PacketHeader
  payload : List UInt8
  datagram : List UInt8
  deriving DecidableEq

/-- The replay counter a datagram carries. -/
def Transfer.counter (x : Transfer) : UInt64 := counterOf (sealedPart x.datagram)

/-- `sent` and `delivered` list the sealed and the opened datagrams, newest
first. -/
structure State where
  sealer : DatagramCipher
  opener : DatagramCipher
  sent : List Transfer
  delivered : List Transfer

inductive Action
  | «seal» (header : PacketHeader) (payload : List UInt8)
  | present (datagram : List UInt8)

variable (aes : List UInt8 → Aead)

def step (s : State) : Action → Option State
  | .seal header payload =>
    match sealDatagram aes s.sealer header payload with
    | (.ok datagram, sealer) =>
      some { s with sealer, sent := ⟨header, payload, datagram⟩ :: s.sent }
    | (.error _, sealer) => some { s with sealer }
  | .present datagram =>
    match openDatagram aes s.opener datagram with
    | (.ok (header, payload), opener) =>
      some { s with opener, delivered := ⟨header, payload, datagram⟩ :: s.delivered }
    | (.error _, opener) => some { s with opener }

/-- Both ends derive the same cipher. -/
def start (c : DatagramCipher) : State := ⟨c, c, [], []⟩

/-- A plaintext is authentic for a nonce, associated data and message if the
sealer encrypted it to just these. -/
def Authentic (s : State) (nonce aad message plaintext : List UInt8) : Prop :=
  ∃ x ∈ s.sent, nonce = s.sealer.nonce x.counter ∧ aad = x.header.toBytes ∧
    plaintext = x.payload ∧
    ∃ ciphertext tag, (aes s.sealer.key).encrypt nonce aad plaintext = some (ciphertext, tag) ∧
      message = ciphertext ++ tag

/-- The ideal cipher: what decrypts at this step is authentic. -/
def Ideal (s : State) : Action → Prop
  | .seal _ _ => True
  | .present datagram => ∀ plaintext,
      (aes s.opener.key).decrypt ((sealedPart datagram).take nonceSize)
        (datagram.take PacketHeader.size) ((sealedPart datagram).drop nonceSize)
          = some plaintext →
        Authentic aes s ((sealedPart datagram).take nonceSize) (datagram.take PacketHeader.size)
          ((sealedPart datagram).drop nonceSize) plaintext

variable {aes}

/-! ### The layout of a datagram -/

variable {c : DatagramCipher} {s : State} {datagram : List UInt8}

theorem length_nonce (hp : c.noncePrefix.length = 4) (counter : UInt64) :
    (c.nonce counter).length = nonceSize := by
  simp [nonce, hp, nonceSize]

theorem counterOf_nonce (hp : c.noncePrefix.length = 4) (counter : UInt64)
    (rest : List UInt8) : counterOf (c.nonce counter ++ rest) = counter := by
  have hlt : counter.toNat < 256 ^ 8 := counter.toNat_lt
  have hdrop : (c.nonce counter).drop 4 = Bytes.toBE 8 counter.toNat := by
    simp [nonce, ← hp]
  have hn := length_nonce hp counter
  simp only [counterOf, ← hn, List.take_left', hdrop, Bytes.ofBE_toBE _ _ hlt]
  simp

theorem datagram_parts (hp : c.noncePrefix.length = 4)
    (header : PacketHeader) (counter : UInt64) (message datagram : List UInt8)
    (hd : datagram = header.toBytes ++ (c.nonce counter ++ message)) :
    datagram.take PacketHeader.size = header.toBytes ∧
      sealedPart datagram = c.nonce counter ++ message ∧
      (sealedPart datagram).take nonceSize = c.nonce counter ∧
      (sealedPart datagram).drop nonceSize = message ∧
      (sealedPart datagram).take 4 = c.noncePrefix ∧
      counterOf (sealedPart datagram) = counter := by
  have hh := PacketHeader.length_toBytes header
  have hn := length_nonce hp counter
  have hsealed : sealedPart datagram = c.nonce counter ++ message := by
    rw [sealedPart, hd, ← hh, List.drop_left']
    rfl
  refine ⟨by rw [hd, ← hh, List.take_left'] ; rfl, hsealed, ?_, ?_, ?_, ?_⟩
  · rw [hsealed, ← hn, List.take_left']
    rfl
  · rw [hsealed, ← hn, List.drop_left']
    rfl
  · rw [hsealed, nonce, List.append_assoc, ← hp, List.take_left']
    rfl
  · rw [hsealed, counterOf_nonce hp]

/-! ### The invariant -/

/-- Both ends still hold the derived key and prefix; the sealed datagrams carry
strictly increasing counters; only sealed datagrams are delivered, each counter
at most once, and the opener's replay window stands for the delivered ones. -/
structure Inv (aes : List UInt8 → Aead) (c : DatagramCipher) (s : State) : Prop where
  sealer_key : s.sealer.key = c.key
  sealer_prefix : s.sealer.noncePrefix = c.noncePrefix
  opener_key : s.opener.key = c.key
  opener_prefix : s.opener.noncePrefix = c.noncePrefix
  sent_layout : ∀ x ∈ s.sent, ∃ ciphertext tag,
    (aes c.key).encrypt (c.nonce x.counter) x.header.toBytes x.payload = some (ciphertext, tag) ∧
      x.datagram = x.header.toBytes ++ (c.nonce x.counter ++ (ciphertext ++ tag))
  sent_le : ∀ x ∈ s.sent, x.counter.toNat ≤ s.sealer.sendCounter.toNat
  sent_increasing : s.sent.Pairwise fun newer older => older.counter.toNat < newer.counter.toNat
  delivered_sent : ∀ x ∈ s.delivered, x ∈ s.sent
  delivered_nodup : (s.delivered.map Transfer.counter).Nodup
  agrees : s.opener.replay.Agrees {n | n ∈ s.delivered.map Transfer.counter}

theorem inv_start (hr : c.replay = ReplayWindow.empty) :
    Inv aes c (start c) where
  sealer_key := rfl
  sealer_prefix := rfl
  opener_key := rfl
  opener_prefix := rfl
  sent_layout := by simp [start]
  sent_le := by simp [start]
  sent_increasing := List.Pairwise.nil
  delivered_sent := by simp [start]
  delivered_nodup := List.nodup_nil
  agrees := by
    simp only [start, List.map_nil, List.not_mem_nil, hr]
    exact ReplayWindow.agrees_empty

theorem Inv.nodup_sent (h : Inv aes c s) :
    (s.sent.map Transfer.counter).Nodup := by
  refine List.Pairwise.map _ (fun newer older hlt => ?_) h.sent_increasing
  rintro heq
  rw [heq] at hlt
  exact lt_irrefl _ hlt

theorem Inv.eq_of_counter (h : Inv aes c s) {x y : Transfer}
    (hx : x ∈ s.sent) (hy : y ∈ s.sent) (heq : x.counter = y.counter) : x = y :=
  List.inj_on_of_nodup_map h.nodup_sent hx hy heq

/-- What a sealing does to the sealer: key and prefix stay and the counter never
goes back; on success it grows by one and stands in the datagram. -/
theorem sealDatagram_spec {c' : DatagramCipher} {header : PacketHeader} {payload : List UInt8}
    {r : Except DatagramError (List UInt8)} (h : sealDatagram aes c header payload = (r, c')) :
    c'.key = c.key ∧ c'.noncePrefix = c.noncePrefix ∧
      c.sendCounter.toNat ≤ c'.sendCounter.toNat ∧
      ∀ datagram, r = .ok datagram →
        c'.sendCounter.toNat = c.sendCounter.toNat + 1 ∧
        ∃ ciphertext tag,
          (aes c.key).encrypt (c.nonce c'.sendCounter) header.toBytes payload
              = some (ciphertext, tag) ∧
            datagram = header.toBytes ++ (c.nonce c'.sendCounter ++ (ciphertext ++ tag)) := by
  simp only [sealDatagram, PacketHeader.encode] at h
  rcases @sealInto_cases aes c payload header.toBytes header.toBytes with
    ⟨-, hs⟩ | ⟨counter, hcounter, hs | ⟨ciphertext, tag, henc, hs⟩⟩
  · rw [hs] at h
    cases h
    simp
  · rw [hs] at h
    cases h
    simp [hcounter]
  · rw [hs] at h
    cases h
    refine ⟨rfl, rfl, by simp [hcounter], ?_⟩
    rintro _ ⟨⟩
    exact ⟨hcounter, ciphertext, tag, henc, by simp⟩

theorem inv_seal {sealer : DatagramCipher} {header : PacketHeader}
    {payload : List UInt8} {r : Except DatagramError (List UInt8)}
    (h : Inv aes c s) (hs : sealDatagram aes s.sealer header payload = (r, sealer)) :
    Inv aes c { s with sealer } := by
  obtain ⟨hkey, hpre, hle, -⟩ := sealDatagram_spec hs
  exact { h with
    sealer_key := hkey.trans h.sealer_key
    sealer_prefix := hpre.trans h.sealer_prefix
    sent_le := fun x hx => (h.sent_le x hx).trans hle }

theorem inv_sent {sealer : DatagramCipher} {header : PacketHeader}
    {payload : List UInt8} (hp : c.noncePrefix.length = 4)
    (h : Inv aes c s) (hs : sealDatagram aes s.sealer header payload = (.ok datagram, sealer)) :
    Inv aes c { s with sealer, sent := ⟨header, payload, datagram⟩ :: s.sent } := by
  obtain ⟨-, -, -, hok⟩ := sealDatagram_spec hs
  obtain ⟨hcounter, ciphertext, tag, henc, hdatagram⟩ := hok datagram rfl
  have hnonce : s.sealer.nonce sealer.sendCounter = c.nonce sealer.sendCounter := by
    simp [nonce, h.sealer_prefix]
  rw [h.sealer_key, hnonce] at henc
  rw [hnonce] at hdatagram
  have hc : Transfer.counter ⟨header, payload, datagram⟩ = sealer.sendCounter :=
    (datagram_parts hp header _ _ datagram hdatagram).2.2.2.2.2
  have hseal := inv_seal h hs
  refine { hseal with
    sent_layout := ?_, sent_le := ?_, sent_increasing := ?_, delivered_sent := ?_ }
  · rintro x (_ | ⟨_, hx⟩)
    · exact ⟨ciphertext, tag, by rwa [hc], by rwa [hc]⟩
    · exact h.sent_layout x hx
  · rintro x (_ | ⟨_, hx⟩)
    · rw [hc]
    · exact hseal.sent_le x hx
  · refine List.Pairwise.cons (fun x hx => ?_) h.sent_increasing
    have := h.sent_le x hx
    rw [hc]
    omega
  · exact fun x hx => List.mem_cons_of_mem _ (h.delivered_sent x hx)

theorem opened_sent {opener : DatagramCipher} {header : PacketHeader}
    {payload : List UInt8} (h : Inv aes c s)
    (hideal : Ideal aes s (.present datagram))
    (ho : openDatagram aes s.opener datagram = (.ok (header, payload), opener)) :
    (⟨header, payload, datagram⟩ : Transfer) ∈ s.sent := by
  obtain ⟨hlen, hdecode, hopen⟩ := openDatagram_eq_ok_iff.mp ho
  obtain ⟨-, -, -, hdec, -⟩ := openSealed_eq_ok_iff.mp hopen
  obtain ⟨x, hx, hnonce, haad, hpayload, ciphertext, tag, henc, hmessage⟩ := hideal payload hdec
  have hnonce' : s.sealer.nonce x.counter = c.nonce x.counter := by
    simp [nonce, h.sealer_prefix]
  obtain ⟨ciphertext', tag', henc', hdatagram⟩ := h.sent_layout x hx
  rw [h.sealer_key, hnonce, hnonce', haad, hpayload, henc'] at henc
  obtain ⟨rfl, rfl⟩ := Prod.mk.inj (Option.some.inj henc)
  have hsame : datagram = x.datagram := by
    calc datagram
        = datagram.take PacketHeader.size ++ ((sealedPart datagram).take nonceSize
            ++ (sealedPart datagram).drop nonceSize) := by
          rw [List.take_append_drop, sealedPart, List.take_append_drop]
      _ = x.datagram := by rw [hdatagram, haad, hnonce, hnonce', hmessage]
  rw [haad, PacketHeader.decode_toBytes] at hdecode
  obtain rfl := Except.ok.inj hdecode
  rwa [hsame, hpayload]

theorem inv_opened {opener : DatagramCipher} {header : PacketHeader}
    {payload : List UInt8} (h : Inv aes c s)
    (hideal : Ideal aes s (.present datagram))
    (ho : openDatagram aes s.opener datagram = (.ok (header, payload), opener)) :
    Inv aes c { s with opener, delivered := ⟨header, payload, datagram⟩ :: s.delivered } := by
  have hmem := opened_sent h hideal ho
  obtain ⟨-, -, hopen⟩ := openDatagram_eq_ok_iff.mp ho
  obtain ⟨-, -, haccept, -, rfl⟩ := openSealed_eq_ok_iff.mp hopen
  have hfresh := ((h.agrees.canAccept_iff _).mp haccept).1
  refine { h with delivered_sent := ?_, delivered_nodup := ?_, agrees := ?_ }
  · rintro x (_ | ⟨_, hx⟩)
    · exact hmem
    · exact h.delivered_sent x hx
  · rw [List.map_cons, List.nodup_cons]
    exact ⟨hfresh, h.delivered_nodup⟩
  · have hset : {n | n ∈ ((⟨header, payload, datagram⟩ : Transfer) :: s.delivered).map
        Transfer.counter}
        = insert (counterOf (sealedPart datagram))
            {n | n ∈ s.delivered.map Transfer.counter} := by
      ext n
      simp [Transfer.counter, eq_comm]
    rw [hset]
    exact h.agrees.record haccept

theorem inv_step (hp : c.noncePrefix.length = 4) {s' : State} {a : Action}
    (h : Inv aes c s) (hideal : Ideal aes s a) (hs : step aes s a = some s') : Inv aes c s' := by
  cases a with
  | «seal» header payload =>
    rcases hseal : sealDatagram aes s.sealer header payload with ⟨e | datagram, sealer⟩
    · simp only [step, hseal, Option.some.injEq] at hs
      exact hs ▸ inv_seal h hseal
    · simp only [step, hseal, Option.some.injEq] at hs
      exact hs ▸ inv_sent hp h hseal
  | present datagram =>
    rcases hopen : openDatagram aes s.opener datagram with ⟨e | ⟨header, payload⟩, opener⟩
    · simp only [step, hopen, Option.some.injEq] at hs
      obtain rfl := openDatagram_error hopen
      exact hs ▸ h
    · simp only [step, hopen, Option.some.injEq] at hs
      exact hs ▸ inv_opened h hideal hopen

/-! ### What the channel guarantees -/

/-- A sealed datagram that was not opened yet opens to just what was sealed,
unless an opened counter has left it 4096 or more behind. -/
theorem Inv.openDatagram_sent (hp : c.noncePrefix.length = 4)
    (hcorrect : (aes c.key).Correct) (h : Inv aes c s) {x : Transfer} (hx : x ∈ s.sent)
    (hnew : x ∉ s.delivered)
    (hwindow : ∀ y ∈ s.delivered, y.counter.toNat < x.counter.toNat + 4096) :
    ∃ opener, openDatagram aes s.opener x.datagram = (.ok (x.header, x.payload), opener) := by
  obtain ⟨ciphertext, tag, henc, hdatagram⟩ := h.sent_layout x hx
  obtain ⟨hhead, hsealed, hnonce, hmessage, hpre, hcounter⟩ :=
    datagram_parts hp x.header x.counter (ciphertext ++ tag) x.datagram hdatagram
  have htag := hcorrect.length_tag henc
  have hnlen := length_nonce hp x.counter
  refine ⟨_, openDatagram_eq_ok_iff.mpr ⟨?_, ?_, openSealed_eq_ok_iff.mpr ⟨?_, ?_, ?_, ?_, rfl⟩⟩⟩
  · rw [hdatagram]
    simp [hnlen, htag]
    omega
  · rw [hhead, PacketHeader.decode_toBytes]
  · rw [hsealed]
    simp [hnlen, htag]
  · rw [hpre, h.opener_prefix]
  · refine (h.agrees.canAccept_iff _).mpr ⟨?_, ?_⟩
    · intro hmem
      obtain ⟨y, hy, heq⟩ := List.mem_map.mp hmem
      exact hnew (h.eq_of_counter (h.delivered_sent y hy) hx heq ▸ hy)
    · intro n hn hbehind
      obtain ⟨y, hy, rfl⟩ := List.mem_map.mp hn
      exact absurd (hwindow y hy) (not_lt.mpr hbehind)
  · rw [h.opener_key, hnonce, hhead, hmessage]
    exact hcorrect.decrypt_encrypt henc

/-- The states the channel reaches from a derived cipher while AES-GCM behaves
ideally. -/
theorem inv_run (hp : c.noncePrefix.length = 4)
    (hr : c.replay = ReplayWindow.empty) {actions : List Action}
    (hideal : Machine.Along (step aes) (Ideal aes) (start c) actions)
    (h : Machine.run (step aes) (start c) actions = some s) : Inv aes c s :=
  Machine.run_inv_along (fun hi hc hs => inv_step hp hi hc hs) (inv_start hr) hideal h

theorem derive_spec {hkdf : Hkdf} (hlen : ∀ ikm salt info n, (hkdf ikm salt info n).length = n)
    {masterKey sessionSalt : List UInt8} {direction : Direction}
    (h : derive hkdf masterKey sessionSalt direction = .ok c) :
    c.noncePrefix.length = 4 ∧ c.replay = ReplayWindow.empty := by
  unfold derive at h
  split at h
  · cases h
  · split at h
    · cases h
    · cases h
      exact ⟨hlen _ _ _ _, rfl⟩

/-- **The datagram channel is safe on every network schedule.**  In every state
reached by sealing and by presenting arbitrary bytes: every datagram opens at
most once, and only to the header and payload it was sealed from; the counters
sealed strictly increase, so no two sealed datagrams are equal; a failed open
changes nothing; a sealed datagram not yet opened still opens unless an opened
one has left it 4096 or more behind; and an exhausted sealer fails with its
counter and the output buffer as they were. -/
theorem channel_safe {hkdf : Hkdf}
    (hlen : ∀ ikm salt info n, (hkdf ikm salt info n).length = n)
    (hcorrect : ∀ key, (aes key).Correct)
    {masterKey sessionSalt : List UInt8} {direction : Direction} {c : DatagramCipher}
    (hderive : derive hkdf masterKey sessionSalt direction = .ok c)
    {s : State} {actions : List Action}
    (hideal : Machine.Along (step aes) (Ideal aes) (start c) actions)
    (h : Machine.run (step aes) (start c) actions = some s) :
    (s.delivered.map Transfer.datagram).Nodup ∧
    (∀ x ∈ s.delivered, x ∈ s.sent) ∧
    (s.sent.map Transfer.datagram).Nodup ∧
    s.sent.Pairwise (fun newer older => older.counter < newer.counter) ∧
    (∀ datagram e opener, openDatagram aes s.opener datagram = (.error e, opener) →
      opener = s.opener) ∧
    (∀ x ∈ s.sent, x ∉ s.delivered →
      (∀ y ∈ s.delivered, y.counter.toNat < x.counter.toNat + 4096) →
      ∃ opener, openDatagram aes s.opener x.datagram = (.ok (x.header, x.payload), opener)) ∧
    (s.sealer.sendCounter.toNat = 2 ^ 64 - 1 → ∀ plaintext aad output,
      sealInto aes s.sealer plaintext aad output = (.error .counterExhausted, s.sealer, output)) := by
  obtain ⟨hp, hr⟩ := derive_spec hlen hderive
  have hi := inv_run hp hr hideal h
  -- distinct counters are distinct datagrams
  have hnodup : ∀ {l : List Transfer}, (l.map Transfer.counter).Nodup →
      (l.map Transfer.datagram).Nodup := by
    intro l hl
    refine List.Nodup.of_map (fun datagram => counterOf (sealedPart datagram)) ?_
    rwa [List.map_map]
  refine ⟨hnodup hi.delivered_nodup, hi.delivered_sent, hnodup hi.nodup_sent,
    hi.sent_increasing.imp UInt64.lt_iff_toNat_lt.mpr,
    fun datagram e opener => openDatagram_error,
    fun x hx hnew hwindow => hi.openDatagram_sent hp (hcorrect _) hx hnew hwindow,
    fun hmax plaintext aad output => sealInto_exhausted hmax plaintext aad output⟩

/-! ### One known exchange -/

def knownMasterKey : List UInt8 := List.replicate 32 0x42

def knownSalt : List UInt8 := List.replicate 16 0x24

def knownIkm : List UInt8 :=
  [145, 8, 234, 203, 228, 15, 38, 190, 233, 233, 96, 197, 1, 236, 93, 210,
    70, 45, 82, 87, 216, 232, 116, 9, 171, 146, 66, 206, 183, 89, 68, 136]

def knownKey : List UInt8 :=
  [123, 107, 231, 209, 170, 233, 179, 210, 58, 76, 183, 204, 155, 86, 68, 205,
    136, 137, 56, 220, 129, 41, 27, 110, 127, 118, 152, 8, 55, 160, 121, 153]

def knownHeader : PacketHeader := ⟨.ping, 1, 100, 0⟩

def knownNonce : List UInt8 := [226, 108, 35, 193, 0, 0, 0, 0, 0, 0, 0, 1]

def knownCiphertext : List UInt8 := [90, 232, 182, 39, 39, 8, 78, 79, 169, 248, 240]

def knownTag : List UInt8 := [80, 41, 188, 9, 123, 122, 81, 13, 234, 177, 52, 186, 167, 135, 42, 219]

/-- HKDF-SHA256 on the inputs of the exchange. -/
def knownHkdf : Hkdf := fun ikm salt info n =>
  if ikm = knownMasterKey ∧ salt = knownSalt ∧ info = asciiBytes "erd/udp-ikm/v3" ∧ n = 32 then
    knownIkm
  else if ikm = knownIkm ∧ salt = knownSalt ∧ info = asciiBytes "erd/udp-c2h/v3" ∧ n = 32 then
    knownKey
  else if ikm = knownIkm ∧ salt = knownSalt ∧ info = asciiBytes "erd/udp-c2h/v3/nonce" ∧ n = 4 then
    [226, 108, 35, 193]
  else List.replicate n 0

/-- AES-256-GCM on the inputs of the exchange. -/
def knownAes (key : List UInt8) : Aead where
  encrypt nonce aad plaintext :=
    if key = knownKey ∧ nonce = knownNonce ∧ aad = knownHeader.toBytes
        ∧ plaintext = asciiBytes "hello world" then
      some (knownCiphertext, knownTag)
    else none
  decrypt nonce aad message :=
    if key = knownKey ∧ nonce = knownNonce ∧ aad = knownHeader.toBytes
        ∧ message = knownCiphertext ++ knownTag then
      some (asciiBytes "hello world")
    else none

theorem knownHkdf_length (ikm salt info : List UInt8) (n : ℕ) :
    (knownHkdf ikm salt info n).length = n := by
  unfold knownHkdf
  split
  next h => rw [h.2.2.2]; rfl
  · split
    next h => rw [h.2.2.2]; rfl
    · split
      next h => rw [h.2.2.2]; rfl
      · exact List.length_replicate

theorem knownAes_correct (key : List UInt8) : (knownAes key).Correct where
  decrypt_encrypt := by
    intro nonce aad plaintext ciphertext tag h
    simp only [knownAes, Option.ite_none_right_eq_some, Option.some.injEq, Prod.mk.injEq] at h
    obtain ⟨⟨hk, hn, ha, hp⟩, rfl, rfl⟩ := h
    simp [knownAes, hk, hn, ha, hp]
  length_tag := by
    intro nonce aad plaintext ciphertext tag h
    simp only [knownAes, Option.ite_none_right_eq_some, Option.some.injEq, Prod.mk.injEq] at h
    obtain ⟨-, -, rfl⟩ := h
    rfl

def knownCipher : DatagramCipher := ⟨knownKey, [226, 108, 35, 193], 0, ReplayWindow.empty⟩

theorem derive_known :
    derive knownHkdf knownMasterKey knownSalt .clientToHost = .ok knownCipher := rfl

def knownTransfer : Transfer :=
  ⟨knownHeader, asciiBytes "hello world",
    knownHeader.toBytes ++ knownNonce ++ knownCiphertext ++ knownTag⟩

/-- The known datagram with its tag reversed. -/
def knownTampered : List UInt8 :=
  knownHeader.toBytes ++ knownNonce ++ knownCiphertext ++ knownTag.reverse

def afterSeal : State :=
  ⟨{ knownCipher with sendCounter := 1 }, knownCipher, [knownTransfer], []⟩

def afterOpen : State :=
  ⟨{ knownCipher with sendCounter := 1 },
    { knownCipher with replay := ReplayWindow.empty.record 1 }, [knownTransfer], [knownTransfer]⟩

theorem step_seal :
    step knownAes (start knownCipher) (.seal knownHeader (asciiBytes "hello world"))
      = some afterSeal := rfl

theorem step_tampered : step knownAes afterSeal (.present knownTampered) = some afterSeal := rfl

theorem step_genuine :
    step knownAes afterSeal (.present knownTransfer.datagram) = some afterOpen := rfl

theorem ideal_afterSeal (datagram : List UInt8) :
    Ideal knownAes afterSeal (.present datagram) := by
  intro plaintext h
  simp only [knownAes, Option.ite_none_right_eq_some, Option.some.injEq] at h
  obtain ⟨⟨-, hn, ha, hm⟩, hp⟩ := h
  refine ⟨knownTransfer, List.mem_singleton_self _, hn.trans rfl, ha, hp.symm,
    knownCiphertext, knownTag, ?_, hm⟩
  rw [hn, ha, ← hp]
  rfl

/-- The exchange with a tampered copy in between: the tampered copy is refused
and the genuine datagram opens. -/
theorem channel_safe_known :
    step knownAes afterSeal (.present knownTampered) = some afterSeal ∧
    step knownAes afterSeal (.present knownTransfer.datagram) = some afterOpen ∧
    (∀ x ∈ afterOpen.delivered, x ∈ afterOpen.sent) := by
  have hrun : Machine.run (step knownAes) (start knownCipher)
      [.seal knownHeader (asciiBytes "hello world"), .present knownTampered,
        .present knownTransfer.datagram] = some afterOpen := by
    simp [Machine.run, step_seal, step_tampered, step_genuine]
  refine ⟨step_tampered, step_genuine,
    (channel_safe knownHkdf_length knownAes_correct derive_known ?_ hrun).2.1⟩
  refine ⟨trivial, fun s hs => ?_⟩
  obtain rfl := Option.some.inj (step_seal.symm.trans hs)
  refine ⟨ideal_afterSeal _, fun s hs => ?_⟩
  obtain rfl := Option.some.inj (step_tampered.symm.trans hs)
  exact ⟨ideal_afterSeal _, fun _ _ => trivial⟩

end DatagramChannel
end MahoRD
