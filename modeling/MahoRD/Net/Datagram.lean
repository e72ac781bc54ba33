/-
MahoRD/Net/Datagram.lean

AES-256-GCM protection of the UDP datagrams (`maho-net/src/udp_gcm.rs`): a
cipher for one direction, with a send counter and a replay window.

    header (12)  ‖  prefix (4)  ‖  counter (8, big endian)  ‖  ciphertext ‖ tag (16)
                    └────────── nonce ──────────┘

The header is the associated data of the sealed payload.  AES-GCM and
HKDF-SHA256 come from libraries and are parameters here.
-/
import MahoRD.Net.ReplayWindow
import MahoRD.Proto.Packet

namespace MahoRD

def nonceSize : ℕ := 12

def tagSize : ℕ := 16

inductive Direction
  | clientToHost | hostToClient

/-- The bytes of an ASCII string literal. -/
def asciiBytes (s : String) : List UInt8 := s.toList.map fun c => UInt8.ofNat c.toNat

def Direction.info : Direction → List UInt8
  | clientToHost => asciiBytes "erd/udp-c2h/v3"
  | hostToClient => asciiBytes "erd/udp-h2c/v3"

inductive DatagramError
  | invalidMasterKey | invalidSessionSalt | counterExhausted | truncated
  | wrongDirection | replay | authentication | invalidHeader (error : CodecError)
  deriving DecidableEq

/-- An AEAD under one key.  `encrypt` gives ciphertext and tag, `decrypt` takes
them joined. -/
structure Aead where
  encrypt : (nonce aad plaintext : List UInt8) → Option (List UInt8 × List UInt8)
  decrypt : (nonce aad message : List UInt8) → Option (List UInt8)

/-- `hkdf_sha256(ikm, salt, info, length)`. -/
abbrev Hkdf := (ikm salt info : List UInt8) → (length : ℕ) → List UInt8

structure DatagramCipher where
  key : List UInt8
  noncePrefix : List UInt8
  sendCounter : UInt64
  replay : ReplayWindow

namespace DatagramCipher

def derive (hkdf : Hkdf) (masterKey sessionSalt : List UInt8) (direction : Direction) :
    Except DatagramError DatagramCipher :=
  if masterKey.length ≠ 32 then .error .invalidMasterKey
  else if sessionSalt.length ≠ 16 then .error .invalidSessionSalt
  else
    let udpIkm := hkdf masterKey sessionSalt (asciiBytes "erd/udp-ikm/v3") 32
    let key := hkdf udpIkm sessionSalt direction.info 32
    let noncePrefix := hkdf udpIkm sessionSalt (direction.info ++ asciiBytes "/nonce") 4
    .ok ⟨key, noncePrefix, 0, ReplayWindow.empty⟩

/-- `u64::checked_add(1)`. -/
def checkedSucc (counter : UInt64) : Option UInt64 :=
  if counter.toNat + 1 < 2 ^ 64 then some (counter + 1) else none

def nonce (c : DatagramCipher) (counter : UInt64) : List UInt8 :=
  c.noncePrefix ++ Bytes.toBE 8 counter.toNat

variable (aes : List UInt8 → Aead)

/-- Append `nonce ‖ ciphertext ‖ tag` to `output`. -/
def sealInto (c : DatagramCipher) (plaintext aad output : List UInt8) :
    Except DatagramError Unit × DatagramCipher × List UInt8 :=
  match checkedSucc c.sendCounter with
  | none => (.error .counterExhausted, c, output)
  | some counter =>
    let c := { c with sendCounter := counter }
    match (aes c.key).encrypt (c.nonce counter) aad plaintext with
    -- the nonce and plaintext already written are truncated away again
    | none => (.error .authentication, c, output)
    | some (ciphertext, tag) => (.ok (), c, output ++ c.nonce counter ++ ciphertext ++ tag)

/-- `DatagramCipher::open`. -/
def openSealed (c : DatagramCipher) (sealed aad : List UInt8) :
    Except DatagramError (List UInt8) × DatagramCipher :=
  if sealed.length < nonceSize + tagSize then (.error .truncated, c)
  else if sealed.take 4 ≠ c.noncePrefix then (.error .wrongDirection, c)
  else
    let counter := UInt64.ofNat (Bytes.ofBE ((sealed.take nonceSize).drop 4))
    if c.replay.canAccept counter = false then (.error .replay, c)
    else
      match (aes c.key).decrypt (sealed.take nonceSize) aad (sealed.drop nonceSize) with
      | none => (.error .authentication, c)
      | some plaintext => (.ok plaintext, { c with replay := c.replay.record counter })

/-- `DatagramCipher::seal_datagram`. -/
def sealDatagram (c : DatagramCipher) (header : PacketHeader) (payload : List UInt8) :
    Except DatagramError (List UInt8) × DatagramCipher :=
  match header.encode with
  | .error e => (.error (.invalidHeader e), c)
  | .ok headerBytes =>
    match sealInto aes c payload headerBytes headerBytes with
    | (.ok (), c', datagram) => (.ok datagram, c')
    | (.error e, c', _) => (.error e, c')

/-- `DatagramCipher::open_datagram`. -/
def openDatagram (c : DatagramCipher) (datagram : List UInt8) :
    Except DatagramError (PacketHeader × List UInt8) × DatagramCipher :=
  if datagram.length < PacketHeader.size + nonceSize + tagSize then (.error .truncated, c)
  else
    match PacketHeader.decode (datagram.take PacketHeader.size) with
    | .error e => (.error (.invalidHeader e), c)
    | .ok header =>
      match openSealed aes c (datagram.drop PacketHeader.size)
          (datagram.take PacketHeader.size) with
      | (.ok payload, c') => (.ok (header, payload), c')
      | (.error e, c') => (.error e, c')

variable {aes}

/-! ### Sealing -/

theorem checkedSucc_eq_some {counter next : UInt64} (h : checkedSucc counter = some next) :
    next.toNat = counter.toNat + 1 := by
  unfold checkedSucc at h
  split at h
  next hlt =>
    obtain rfl := Option.some.inj h
    simpa using Nat.mod_eq_of_lt hlt
  · cases h

variable {c c' : DatagramCipher}

theorem sealInto_exhausted (h : c.sendCounter.toNat = 2 ^ 64 - 1)
    (plaintext aad output : List UInt8) :
    sealInto aes c plaintext aad output = (.error .counterExhausted, c, output) := by
  have : checkedSucc c.sendCounter = none := by simp [checkedSucc, h]
  simp [sealInto, this]

/-- What a sealing can do: refuse and leave the buffer as it was, the counter
then either unchanged (exhausted) or spent; or append the sealed bytes. -/
theorem sealInto_cases (c : DatagramCipher) (plaintext aad output : List UInt8) :
    (c.sendCounter.toNat = 2 ^ 64 - 1 ∧
      sealInto aes c plaintext aad output = (.error .counterExhausted, c, output)) ∨
    ∃ counter : UInt64, counter.toNat = c.sendCounter.toNat + 1 ∧
      (sealInto aes c plaintext aad output
          = (.error .authentication, { c with sendCounter := counter }, output) ∨
        ∃ ciphertext tag,
          (aes c.key).encrypt (c.nonce counter) aad plaintext = some (ciphertext, tag) ∧
          sealInto aes c plaintext aad output
            = (.ok (), { c with sendCounter := counter },
                output ++ c.nonce counter ++ ciphertext ++ tag)) := by
  rcases hn : checkedSucc c.sendCounter with - | counter
  · left
    have hmax : c.sendCounter.toNat = 2 ^ 64 - 1 := by
      have hlt := c.sendCounter.toNat_lt
      simp only [checkedSucc, ite_eq_right_iff, reduceCtorEq, imp_false] at hn
      omega
    exact ⟨hmax, sealInto_exhausted hmax plaintext aad output⟩
  · right
    refine ⟨counter, checkedSucc_eq_some hn, ?_⟩
    rcases he : (aes c.key).encrypt (c.nonce counter) aad plaintext with - | ⟨ciphertext, tag⟩
    · left
      simp only [nonce] at he
      simp [sealInto, hn, nonce, he]
    · right
      refine ⟨ciphertext, tag, rfl, ?_⟩
      simp only [nonce] at he
      simp [sealInto, hn, nonce, he]

/-! ### Opening -/

/-- The replay counter under a nonce. -/
def counterOf (sealed : List UInt8) : UInt64 :=
  UInt64.ofNat (Bytes.ofBE ((sealed.take nonceSize).drop 4))

/-- A message opens exactly if it is long enough, its prefix is the cipher's,
its counter is acceptable and it authenticates; then its counter is recorded. -/
theorem openSealed_eq_ok_iff {sealed aad plaintext : List UInt8} :
    openSealed aes c sealed aad = (.ok plaintext, c') ↔
      nonceSize + tagSize ≤ sealed.length ∧
      sealed.take 4 = c.noncePrefix ∧
      c.replay.canAccept (counterOf sealed) = true ∧
      (aes c.key).decrypt (sealed.take nonceSize) aad (sealed.drop nonceSize) = some plaintext ∧
      c' = { c with replay := c.replay.record (counterOf sealed) } := by
  unfold openSealed
  by_cases hlen : sealed.length < nonceSize + tagSize
  · simp [hlen]
  rw [if_neg hlen]
  by_cases hpre : sealed.take 4 = c.noncePrefix
  · rw [if_neg (not_not.mpr hpre)]
    rcases hrep : c.replay.canAccept (counterOf sealed) with - | -
    · have hrep' := hrep
      simp only [counterOf] at hrep'
      simp [hrep']
    · have hrep' := hrep
      simp only [counterOf] at hrep'
      rcases hdec : (aes c.key).decrypt (sealed.take nonceSize) aad (sealed.drop nonceSize)
        with - | p
      · simp [hrep']
      · simp [hrep', hpre, Nat.le_of_not_lt hlen, counterOf, eq_comm]
  · simp [hpre]

theorem openSealed_error {sealed aad : List UInt8} {e : DatagramError}
    (h : openSealed aes c sealed aad = (.error e, c')) : c' = c := by
  unfold openSealed at h
  by_cases hlen : sealed.length < nonceSize + tagSize
  · rw [if_pos hlen] at h; exact (Prod.mk.inj h).2.symm
  rw [if_neg hlen] at h
  by_cases hpre : sealed.take 4 = c.noncePrefix
  · rw [if_neg (not_not.mpr hpre)] at h
    rcases hrep : c.replay.canAccept (counterOf sealed) with - | -
    · simp only [counterOf] at hrep
      simp only [hrep, if_true] at h
      exact (Prod.mk.inj h).2.symm
    · simp only [counterOf] at hrep
      rcases hdec : (aes c.key).decrypt (sealed.take nonceSize) aad (sealed.drop nonceSize)
        with - | p
      · simp only [hrep, hdec] at h
        exact (Prod.mk.inj h).2.symm
      · simp [hrep, hdec] at h
  · rw [if_pos hpre] at h; exact (Prod.mk.inj h).2.symm

/-- What follows the header of a datagram. -/
def sealedPart (datagram : List UInt8) : List UInt8 := datagram.drop PacketHeader.size

theorem openDatagram_eq_ok_iff {datagram : List UInt8}
    {header : PacketHeader} {payload : List UInt8} :
    openDatagram aes c datagram = (.ok (header, payload), c') ↔
      PacketHeader.size + nonceSize + tagSize ≤ datagram.length ∧
      PacketHeader.decode (datagram.take PacketHeader.size) = .ok header ∧
      openSealed aes c (sealedPart datagram) (datagram.take PacketHeader.size)
        = (.ok payload, c') := by
  unfold openDatagram sealedPart
  by_cases hlen : datagram.length < PacketHeader.size + nonceSize + tagSize
  · simp [hlen]
  rw [if_neg hlen]
  rcases hdec : PacketHeader.decode (datagram.take PacketHeader.size) with e | hdr
  · simp
  · rcases hopen : openSealed aes c (datagram.drop PacketHeader.size)
      (datagram.take PacketHeader.size) with ⟨e | p, c''⟩
    · simp
    · simp [Nat.le_of_not_lt hlen, and_assoc]

/-- **Only success changes the cipher.** -/
theorem openDatagram_error {datagram : List UInt8} {e : DatagramError}
    (h : openDatagram aes c datagram = (.error e, c')) : c' = c := by
  unfold openDatagram at h
  split at h
  · cases h; rfl
  · split at h
    · cases h; rfl
    · split at h
      · cases h
      next hs => cases h; exact openSealed_error hs

end DatagramCipher
end MahoRD
