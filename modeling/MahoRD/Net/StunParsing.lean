/-
MahoRD/Net/StunParsing.lean

What the STUN client reads out of a response (`parse_binding_response`).

The attributes of a response are a list, each padded to four bytes.  `Reaches body address` walks
it without the parser: the list comes to an attribute that gives an IPv4 address, past attributes
that give none and are whole.
-/
import MahoRD.Net.Stun

namespace MahoRD.Stun

open Bytes Panics Parse

/-! ### Attributes -/

/-- The values of an attribute that give an IPv4 address; what follows the address is ignored. -/
inductive Mapped : UInt16 → List UInt8 → SocketAddr → Prop
  | plain (reserved : UInt8) (ip : Ipv4Addr) (port : UInt16) (more : List UInt8) :
      Mapped mappedAddress (reserved :: 1 :: (u16ToBE port ++ (ip.octets ++ more))) (.v4 ip port)
  | xor (reserved : UInt8) (ip : Ipv4Addr) (port : UInt16) (more : List UInt8) :
      Mapped xorMappedAddress
        (reserved :: 1 :: (u16ToBE (port ^^^ 0x2112) ++ (u32ToBE (ip.bits ^^^ magicCookie) ++ more)))
        (.v4 ip port)

/-- A whole attribute of the list, with the bytes that pad its value to four. -/
structure Attribute where
  kind : UInt16
  value : List UInt8
  padding : List UInt8
  fits : value.length < 2 ^ 16
  padded : value.length + padding.length = clearLow (value.length + 3)

/-- The header of an attribute. -/
def attributeHeader (kind : UInt16) (length : ℕ) : List UInt8 :=
  u16ToBE kind ++ u16ToBE (.ofNat length)

def Attribute.bytes (item : Attribute) : List UInt8 :=
  attributeHeader item.kind item.value.length ++ (item.value ++ item.padding)

/-- The list comes to an attribute that gives `address`; its padding may be missing. -/
inductive Reaches : List UInt8 → SocketAddr → Prop
  | here {kind : UInt16} {value : List UInt8} {address : SocketAddr} (rest : List UInt8)
      (fits : value.length < 2 ^ 16) (mapped : Mapped kind value address) :
      Reaches (attributeHeader kind value.length ++ (value ++ rest)) address
  | past (item : Attribute) {body : List UInt8} {address : SocketAddr}
      (other : ∀ a, ¬ Mapped item.kind item.value a) (rest : Reaches body address) :
      Reaches (item.bytes ++ body) address

/-- A success response with the attributes `body`. -/
def message (transactionId : Vector UInt8 12) (body : List UInt8) : List UInt8 :=
  u16ToBE bindingSuccessResponse ++ (u16ToBE (.ofNat body.length) ++
    (u32ToBE magicCookie ++ (transactionId.toList ++ body)))

/-- `data` is a response to `transactionId` that gives `address`. -/
def Answers (transactionId : Vector UInt8 12) (data : List UInt8) (address : SocketAddr) : Prop :=
  ∃ body trailing, data = message transactionId body ++ trailing ∧ body.length < 2 ^ 16 ∧
    Reaches body address

/-! ### One attribute -/

theorem length_attributeHeader (kind : UInt16) (length : ℕ) :
    (attributeHeader kind length).length = 4 := by
  simp [attributeHeader]

theorem exists_eight {value : List UInt8} (h : 8 ≤ value.length) :
    ∃ a b c d e f g i more, value = a :: b :: c :: d :: e :: f :: g :: i :: more := by
  rcases value with - | ⟨a, - | ⟨b, - | ⟨c, - | ⟨d, - | ⟨e, - | ⟨f, - | ⟨g, - | ⟨i, more⟩⟩⟩⟩⟩⟩⟩⟩
  case cons.cons.cons.cons.cons.cons.cons.cons => exact ⟨a, b, c, d, e, f, g, i, more, rfl⟩
  all_goals simp at h

variable {c d e f g i : UInt8} {address : SocketAddr} {attributesEnd offset : ℕ}

theorem u16_eq_iff {v : UInt16} : u16ToBE v = [c, d] ↔ v = u16FromBE [c, d] := by
  constructor
  · intro h
    rw [← h, u16FromBE_toBE]
  · rintro rfl
    exact u16ToBE_fromBE rfl

theorem u32_eq_iff {v : UInt32} :
    u32ToBE v = [e, f, g, i] ↔ v = u32FromBE [e, f, g, i] := by
  constructor
  · intro h
    rw [← h, u32FromBE_toBE]
  · rintro rfl
    exact u32ToBE_fromBE rfl

/-- The fields of a value of eight bytes or more, told apart by their lengths. -/
theorem fields_eq_iff {port : UInt16} {ip : UInt32} {more rest : List UInt8} :
    c :: d :: e :: f :: g :: i :: more = u16ToBE port ++ (u32ToBE ip ++ rest) ↔
      port = u16FromBE [c, d] ∧ ip = u32FromBE [e, f, g, i] ∧ more = rest := by
  rw [← u16_eq_iff, ← u32_eq_iff]
  constructor
  · intro h
    have hport_append : [c, d] ++ (e :: f :: g :: i :: more)
        = u16ToBE port ++ (u32ToBE ip ++ rest) := h
    obtain ⟨hport, hrest⟩ := List.append_inj hport_append (by simp)
    have hip_append : [e, f, g, i] ++ more = u32ToBE ip ++ rest := hrest
    obtain ⟨hip, hmore⟩ := List.append_inj hip_append (by simp)
    exact ⟨hport.symm, hip.symm, hmore⟩
  · rintro ⟨hport, hip, rfl⟩
    rw [hport, hip]
    rfl

theorem Mapped.length_le {kind : UInt16} {value : List UInt8}
    (h : Mapped kind value address) : 8 ≤ value.length := by
  cases h <;> simp [Ipv4Addr.octets] <;> omega

theorem mapped_xor_iff {a b : UInt8} {more : List UInt8} :
    Mapped xorMappedAddress (a :: b :: c :: d :: e :: f :: g :: i :: more) address ↔
      b = 1 ∧ address =
        .v4 ⟨u32FromBE [e, f, g, i] ^^^ magicCookie⟩ (u16FromBE [c, d] ^^^ 0x2112) := by
  constructor
  · generalize hvalue : a :: b :: c :: d :: e :: f :: g :: i :: more = value
    intro h
    generalize hkind : xorMappedAddress = kind at h
    cases h with
    | plain => cases hkind
    | xor reserved ip port rest =>
      obtain ⟨-, htail⟩ := List.cons.inj hvalue
      obtain ⟨hb, hfields⟩ := List.cons.inj htail
      obtain ⟨hport, hip, -⟩ := fields_eq_iff.mp hfields
      refine ⟨hb, ?_⟩
      rw [← hport, ← hip, UInt16.xor_assoc, UInt32.xor_assoc]
      simp
  · rintro ⟨rfl, rfl⟩
    have h := Mapped.xor a ⟨u32FromBE [e, f, g, i] ^^^ magicCookie⟩ (u16FromBE [c, d] ^^^ 0x2112) more
    rw [UInt16.xor_assoc, UInt32.xor_assoc, UInt16.xor_self, UInt32.xor_self, UInt16.xor_zero,
      UInt32.xor_zero, ← fields_eq_iff.mpr ⟨rfl, rfl, rfl⟩] at h
    exact h

theorem mapped_plain_iff {a b : UInt8} {more : List UInt8} :
    Mapped mappedAddress (a :: b :: c :: d :: e :: f :: g :: i :: more) address ↔
      b = 1 ∧ address = .v4 (.new e f g i) (u16FromBE [c, d]) := by
  constructor
  · generalize hvalue : a :: b :: c :: d :: e :: f :: g :: i :: more = value
    intro h
    generalize hkind : mappedAddress = kind at h
    cases h with
    | xor => cases hkind
    | plain reserved ip port rest =>
      obtain ⟨-, htail⟩ := List.cons.inj hvalue
      obtain ⟨hb, hfields⟩ := List.cons.inj htail
      obtain ⟨hport, hip, -⟩ := fields_eq_iff.mp hfields
      rw [Ipv4Addr.new, ← hip, ← hport]
      exact ⟨hb, rfl⟩
  · rintro ⟨rfl, rfl⟩
    have h := Mapped.plain a (.new e f g i) (u16FromBE [c, d]) more
    rwa [Ipv4Addr.octets, Ipv4Addr.new, ← fields_eq_iff.mpr ⟨rfl, rfl, rfl⟩] at h

/-- An attribute gives an address iff it is of one of the two types, of at least eight bytes and
of the family IPv4. -/
theorem exists_mapped_iff (kind : UInt16) (value : List UInt8) :
    (∃ address, Mapped kind value address) ↔
      (kind = xorMappedAddress ∨ kind = mappedAddress) ∧ 8 ≤ value.length ∧
        value[1]? = some 1 := by
  constructor
  · rintro ⟨address, h⟩
    refine ⟨?_, h.length_le, ?_⟩
    · cases h
      · exact .inr rfl
      · exact .inl rfl
    · cases h <;> rfl
  · rintro ⟨hkind, hlen, hfamily⟩
    obtain ⟨a, b, c, d, e, f, g, i, more, rfl⟩ := exists_eight hlen
    have hb : b = 1 := by simpa using hfamily
    rcases hkind with rfl | rfl
    · exact ⟨_, mapped_xor_iff.mpr ⟨hb, rfl⟩⟩
    · exact ⟨_, mapped_plain_iff.mpr ⟨hb, rfl⟩⟩

theorem parseXorMappedAddress_eq (value : List UInt8) :
    ∃ found, parseXorMappedAddress value = .ok found ∧
      ∀ address, found = some address ↔ Mapped xorMappedAddress value address := by
  by_cases hlen : 8 ≤ value.length
  · obtain ⟨a, b, c, d, e, f, g, i, more, rfl⟩ := exists_eight hlen
    refine ⟨if b = 1 then some (.v4 ⟨u32FromBE [e, f, g, i] ^^^ magicCookie⟩
      (u16FromBE [c, d] ^^^ 0x2112)) else none, ?_, fun address => ?_⟩
    · by_cases hb : b = 1
      · simp [parseXorMappedAddress, slice, fourBytes, hb]
        rfl
      · simp [parseXorMappedAddress, hb]
    · rw [mapped_xor_iff]
      by_cases hb : b = 1 <;> simp [hb, eq_comm]
  · refine ⟨none, ?_, fun address => ⟨by rintro ⟨⟩, fun h => absurd h.length_le hlen⟩⟩
    rw [parseXorMappedAddress, if_pos (by omega)]
    rfl

theorem parseMappedAddress_eq (value : List UInt8) :
    ∃ found, parseMappedAddress value = .ok found ∧
      ∀ address, found = some address ↔ Mapped mappedAddress value address := by
  by_cases hlen : 8 ≤ value.length
  · obtain ⟨a, b, c, d, e, f, g, i, more, rfl⟩ := exists_eight hlen
    refine ⟨if b = 1 then some (.v4 (.new e f g i) (u16FromBE [c, d])) else none, ?_,
      fun address => ?_⟩
    · by_cases hb : b = 1 <;> simp [parseMappedAddress, hb]
    · rw [mapped_plain_iff]
      by_cases hb : b = 1 <;> simp [hb, eq_comm]
  · refine ⟨none, ?_, fun address => ⟨nofun, fun h => absurd h.length_le hlen⟩⟩
    rw [parseMappedAddress, if_pos (by omega)]
    rfl

theorem parseAttribute_eq (kind : UInt16) (value : List UInt8) :
    ∃ found, parseAttribute kind value = .ok found ∧
      ∀ address, found = some address ↔ Mapped kind value address := by
  rw [parseAttribute]
  split
  next h => exact h ▸ parseXorMappedAddress_eq value
  next hxor =>
    split
    next h => exact h ▸ parseMappedAddress_eq value
    next hplain =>
      refine ⟨none, rfl, fun address => ⟨nofun, fun h => ?_⟩⟩
      have := ((exists_mapped_iff kind value).mp ⟨address, h⟩).1
      exact this.elim (absurd · hxor) (absurd · hplain)

/-! ### One round of the loop -/

theorem length_lt_clearLow (n : ℕ) : n ≤ clearLow (n + 3) ∧ clearLow (n + 3) < n + 4 := by
  unfold clearLow
  omega

theorem index_header (before after : List UInt8) (kind : UInt16) (length : UInt16) :
    ∃ a b c d, u16ToBE kind = [a, b] ∧ u16ToBE length = [c, d] ∧
      index (before ++ (u16ToBE kind ++ (u16ToBE length ++ after))) before.length
        = (.ok a : Result UInt8) ∧
      index (before ++ (u16ToBE kind ++ (u16ToBE length ++ after))) (before.length + 1)
        = (.ok b : Result UInt8) ∧
      index (before ++ (u16ToBE kind ++ (u16ToBE length ++ after))) (before.length + 2)
        = (.ok c : Result UInt8) ∧
      index (before ++ (u16ToBE kind ++ (u16ToBE length ++ after))) (before.length + 3)
        = (.ok d : Result UInt8) := by
  obtain ⟨a, b, hkind⟩ := List.length_eq_two.mp (length_u16ToBE kind)
  obtain ⟨c, d, hlength⟩ := List.length_eq_two.mp (length_u16ToBE length)
  rw [hkind, hlength]
  exact ⟨a, b, c, d, rfl, rfl, index_append before _ a 0 rfl, index_append before _ b 1 rfl,
    index_append before _ c 2 rfl, index_append before _ d 3 rfl⟩

theorem attributeStep_eq (before after : List UInt8) (kind length : UInt16) (attributesEnd : ℕ)
    (hsmall : before.length < 2 ^ 17) :
    attributeStep (before ++ (u16ToBE kind ++ (u16ToBE length ++ after))) attributesEnd
        before.length =
      (do require (before.length + 4 + length.toNat ≤ attributesEnd) (.invalid "truncated attribute")
          let value ← slice (before ++ (u16ToBE kind ++ (u16ToBE length ++ after)))
            (before.length + 4) (before.length + 4 + length.toNat)
          match ← parseAttribute kind value with
          | some address => return .found address
          | none => return .next (before.length + 4 + clearLow (length.toNat + 3))) := by
  obtain ⟨a, b, c, d, hkind, hlength, ha, hb, hc, hd⟩ := index_header before after kind length
  have hlt := length.toNat_lt
  have hclear := length_lt_clearLow length.toNat
  have hsum : ∀ what, checkedAdd (before.length + 4) length.toNat what
      = .ok (before.length + 4 + length.toNat) := fun what => if_pos (by omega)
  have hpad : ∀ what, checkedAdd length.toNat 3 what = .ok (length.toNat + 3) :=
    fun what => if_pos (by omega)
  have hnext : ∀ what, checkedAdd (before.length + 4) (clearLow (length.toNat + 3)) what
      = .ok (before.length + 4 + clearLow (length.toNat + 3)) := fun what => if_pos (by omega)
  have hk : u16FromBE [a, b] = kind := by rw [← hkind, u16FromBE_toBE]
  have hl : u16FromBE [c, d] = length := by rw [← hlength, u16FromBE_toBE]
  simp only [attributeStep, ha, hb, hc, hd, ok_bind, hk, hl, hsum, hpad, hnext]
  -- but for the name of the case distinction both sides are the same
  all_goals rfl

theorem attributeStep_truncated (before after : List UInt8) (kind length : UInt16)
    (attributesEnd : ℕ) (hsmall : before.length < 2 ^ 17)
    (h : attributesEnd < before.length + 4 + length.toNat) :
    attributeStep (before ++ (u16ToBE kind ++ (u16ToBE length ++ after))) attributesEnd
        before.length = fail (.invalid "truncated attribute") := by
  rw [attributeStep_eq _ _ _ _ _ hsmall, require, if_neg (by omega)]
  rfl

section Whole

variable (before more : List UInt8) {kind : UInt16} {value : List UInt8} (attributesEnd : ℕ)

theorem attributeStep_whole (hsmall : before.length < 2 ^ 17) (hfits : value.length < 2 ^ 16)
    (hend : before.length + 4 + value.length ≤ attributesEnd) {found : Option SocketAddr}
    (hfound : parseAttribute kind value = .ok found) :
    attributeStep (before ++ (attributeHeader kind value.length ++ (value ++ more))) attributesEnd
        before.length =
      .ok (found.elim (.next (before.length + 4 + clearLow (value.length + 3))) .found) := by
  have hlength : (UInt16.ofNat value.length).toNat = value.length := by
    rw [UInt16.toNat_ofNat', Nat.mod_eq_of_lt hfits]
  have hslice : slice (before ++ (u16ToBE kind ++ (u16ToBE (.ofNat value.length) ++ (value ++ more))))
      (before.length + 4) (before.length + 4 + value.length) = (.ok value : Result (List UInt8)) := by
    have h := slice_append (ε := StunError) (before ++ attributeHeader kind value.length) value more
    rw [List.length_append, length_attributeHeader] at h
    simpa only [attributeHeader, List.append_assoc] using h
  rw [attributeHeader, List.append_assoc, attributeStep_eq _ _ _ _ _ hsmall, hlength, hslice,
    require, if_pos hend, ok_bind, ok_bind, hfound, ok_bind]
  rcases found with - | address <;> rfl

theorem attributeStep_found (hsmall : before.length < 2 ^ 17) (hfits : value.length < 2 ^ 16)
    (hend : before.length + 4 + value.length ≤ attributesEnd) {address : SocketAddr}
    (h : Mapped kind value address) :
    attributeStep (before ++ (attributeHeader kind value.length ++ (value ++ more))) attributesEnd
        before.length = .ok (.found address) := by
  obtain ⟨found, hparse, hfound⟩ := parseAttribute_eq kind value
  rw [attributeStep_whole before more attributesEnd hsmall hfits hend hparse, (hfound address).mpr h]
  rfl

theorem attributeStep_past (hsmall : before.length < 2 ^ 17) (hfits : value.length < 2 ^ 16)
    (hend : before.length + 4 + value.length ≤ attributesEnd)
    (h : ∀ address, ¬ Mapped kind value address) :
    attributeStep (before ++ (attributeHeader kind value.length ++ (value ++ more))) attributesEnd
        before.length = .ok (.next (before.length + 4 + clearLow (value.length + 3))) := by
  obtain ⟨found, hparse, hfound⟩ := parseAttribute_eq kind value
  rw [attributeStep_whole before more attributesEnd hsmall hfits hend hparse]
  rcases found with - | address
  · rfl
  · exact absurd ((hfound address).mp rfl) (h address)

end Whole

/-! ### The loop -/

theorem attributeLoop_short {data : List UInt8}
    (h : attributesEnd < offset + 4) :
    attributeLoop data attributesEnd offset = fail .missingMappedAddress := by
  rw [attributeLoop, if_neg (by omega)]

theorem attributeLoop_found {data : List UInt8}
    (hmore : offset + 4 ≤ attributesEnd)
    (h : attributeStep data attributesEnd offset = .ok (.found address)) :
    attributeLoop data attributesEnd offset = .ok address := by
  rw [attributeLoop, if_pos hmore]
  split <;> simp_all

theorem attributeLoop_next {data : List UInt8} {next : ℕ}
    (hmore : offset + 4 ≤ attributesEnd)
    (h : attributeStep data attributesEnd offset = .ok (.next next)) :
    attributeLoop data attributesEnd offset = attributeLoop data attributesEnd next := by
  rw [attributeLoop, if_pos hmore]
  split <;> simp_all

theorem attributeLoop_error {data : List UInt8} {e : Halt StunError}
    (hmore : offset + 4 ≤ attributesEnd)
    (h : attributeStep data attributesEnd offset = .error e) :
    attributeLoop data attributesEnd offset = .error e := by
  rw [attributeLoop, if_pos hmore]
  split <;> simp_all

theorem Reaches.length_le {body : List UInt8} (h : Reaches body address) :
    4 ≤ body.length := by
  cases h <;> simp [Attribute.bytes, length_attributeHeader]

theorem Reaches.attributeLoop {body : List UInt8} (h : Reaches body address)
    (before trailing : List UInt8) (attributesEnd : ℕ)
    (hend : attributesEnd = before.length + body.length) (hsmall : attributesEnd < 2 ^ 17) :
    attributeLoop (before ++ (body ++ trailing)) attributesEnd before.length = .ok address := by
  induction h generalizing before with
  | @here kind value address rest fits mapped =>
    simp only [List.length_append, length_attributeHeader] at hend
    refine attributeLoop_found (by omega) ?_
    rw [List.append_assoc, List.append_assoc]
    exact attributeStep_found before (rest ++ trailing) attributesEnd (by omega) fits (by omega) mapped
  | @past item body address other rest ih =>
    have hlen := rest.length_le
    have hnext := ih (before ++ item.bytes) (by simpa [Nat.add_assoc] using hend)
    simp only [Attribute.bytes, List.length_append, List.append_assoc, length_attributeHeader]
      at hend hnext ⊢
    have hstep := attributeStep_past before (item.padding ++ (body ++ trailing)) attributesEnd
      (by omega) item.fits (by omega) other
    rw [attributeLoop_next (by omega) hstep, ← item.padded, Nat.add_assoc, hnext]

theorem body_cases {body : List UInt8} (h : 4 ≤ body.length) :
    (∃ kind length after, body = u16ToBE kind ++ (u16ToBE length ++ after) ∧
      after.length < length.toNat) ∨
    ∃ kind value more, body = attributeHeader kind value.length ++ (value ++ more) ∧
      value.length < 2 ^ 16 := by
  rcases body with - | ⟨a, - | ⟨b, - | ⟨c, - | ⟨d, after⟩⟩⟩⟩
  case cons.cons.cons.cons =>
    have hbody : a :: b :: c :: d :: after
        = u16ToBE (u16FromBE [a, b]) ++ (u16ToBE (u16FromBE [c, d]) ++ after) := by
      rw [u16ToBE_fromBE rfl, u16ToBE_fromBE rfl]
      rfl
    by_cases hwhole : after.length < (u16FromBE [c, d]).toNat
    · exact .inl ⟨_, _, after, hbody, hwhole⟩
    have hvalue : (after.take (u16FromBE [c, d]).toNat).length = (u16FromBE [c, d]).toNat :=
      List.length_take_of_le (by omega)
    refine .inr ⟨u16FromBE [a, b], after.take (u16FromBE [c, d]).toNat,
      after.drop (u16FromBE [c, d]).toNat, ?_, by rw [hvalue]; exact UInt16.toNat_lt _⟩
    rw [hbody, attributeHeader, hvalue, UInt16.ofNat_toNat, List.take_append_drop, List.append_assoc]
  all_goals simp at h

theorem exists_attribute (kind : UInt16) {value more : List UInt8} (hfits : value.length < 2 ^ 16)
    (hpad : clearLow (value.length + 3) ≤ value.length + more.length) :
    ∃ (item : Attribute) (rest : List UInt8), item.kind = kind ∧ item.value = value ∧
      attributeHeader kind value.length ++ (value ++ more) = item.bytes ++ rest := by
  have hclear := length_lt_clearLow value.length
  have hlen : (more.take (clearLow (value.length + 3) - value.length)).length
      = clearLow (value.length + 3) - value.length := List.length_take_of_le (by omega)
  refine ⟨⟨kind, value, more.take (clearLow (value.length + 3) - value.length), hfits, by omega⟩,
    more.drop (clearLow (value.length + 3) - value.length), rfl, rfl, ?_⟩
  simp only [Attribute.bytes, List.append_assoc, List.take_append_drop]

/-- The loop never panics, and an address it returns is one that the list comes to. -/
theorem attributeLoop_outcome (before body trailing : List UInt8) (attributesEnd : ℕ)
    (hend : attributesEnd = before.length + body.length) (hsmall : attributesEnd < 2 ^ 17) :
    Safe (attributeLoop (before ++ (body ++ trailing)) attributesEnd before.length) ∧
    ∀ address, attributeLoop (before ++ (body ++ trailing)) attributesEnd before.length
      = .ok address → Reaches body address := by
  induction hn : body.length using Nat.strongRecOn generalizing before body with
  | ind n ih =>
    by_cases hmore : 4 ≤ body.length
    swap
    · rw [attributeLoop_short (by omega)]
      exact ⟨Safe.error _, nofun⟩
    rcases body_cases hmore with ⟨kind, length, after, rfl, hshort⟩ | ⟨kind, value, more, rfl, hfits⟩
    · simp only [List.length_append, List.append_assoc, length_u16ToBE] at hend ⊢
      have hstep := attributeStep_truncated before (after ++ trailing) kind length attributesEnd
        (by omega) (by omega)
      rw [attributeLoop_error (by omega) hstep]
      exact ⟨Safe.error _, nofun⟩
    have hlen : attributesEnd = before.length + (4 + (value.length + more.length)) := by
      simpa only [List.length_append, length_attributeHeader] using hend
    have happend : attributeHeader kind value.length ++ (value ++ more) ++ trailing
        = attributeHeader kind value.length ++ (value ++ (more ++ trailing)) := by
      simp only [List.append_assoc]
    by_cases hmapped : ∃ address, Mapped kind value address
    · obtain ⟨address, hmapped⟩ := hmapped
      have hstep := attributeStep_found before (more ++ trailing) attributesEnd (by omega) hfits
        (by omega) hmapped
      rw [happend, attributeLoop_found (by omega) hstep]
      refine ⟨Safe.ok _, fun a ha => ?_⟩
      cases ha
      exact .here more hfits hmapped
    · have hother := not_exists.mp hmapped
      have hstep := attributeStep_past before (more ++ trailing) attributesEnd (by omega) hfits
        (by omega) hother
      rw [happend, attributeLoop_next (by omega) hstep]
      by_cases hpad : clearLow (value.length + 3) ≤ value.length + more.length
      swap
      · rw [attributeLoop_short (by omega)]
        exact ⟨Safe.error _, nofun⟩
      obtain ⟨item, rest, rfl, rfl, hitem⟩ := exists_attribute kind hfits hpad
      have hbytes : item.bytes.length = 4 + clearLow (item.value.length + 3) := by
        simp only [Attribute.bytes, List.length_append, length_attributeHeader, item.padded]
      rw [hitem, List.length_append] at hend hn
      have hnext := ih rest.length (by omega) (before ++ item.bytes) rest
        (by rw [List.length_append]; omega) rfl
      rw [List.length_append, hbytes, ← Nat.add_assoc, List.append_assoc] at hnext
      rw [← happend, hitem, List.append_assoc]
      exact ⟨hnext.1, fun a ha => .past item hother (hnext.2 a ha)⟩

/-! ### The response -/

section Response

variable {kind length : UInt16} {cookie id rest : List UInt8} (transactionId : Vector UInt8 12)

/-- The bytes before the attributes. -/
def responseHeader (kind length : UInt16) (cookie id : List UInt8) : List UInt8 :=
  u16ToBE kind ++ (u16ToBE length ++ (cookie ++ id))

theorem length_responseHeader (kind length : UInt16) (hcookie : cookie.length = 4)
    (hid : id.length = 12) :
    (responseHeader kind length cookie id).length = headerSize := by
  simp [responseHeader, hcookie, hid, headerSize]

theorem exists_responseHeader {data : List UInt8} (h : headerSize ≤ data.length) :
    ∃ kind length cookie id rest, data = responseHeader kind length cookie id ++ rest ∧
      cookie.length = 4 ∧ id.length = 12 := by
  unfold headerSize at h
  obtain ⟨kind, length, after, rfl⟩ : ∃ kind length after,
      data = u16ToBE kind ++ (u16ToBE length ++ after) := by
    rcases body_cases (by omega : 4 ≤ data.length) with
      ⟨kind, length, after, h, -⟩ | ⟨kind, value, more, h, -⟩
    · exact ⟨kind, length, after, h⟩
    · exact ⟨kind, _, _, h.trans (List.append_assoc ..)⟩
  simp only [List.length_append, length_u16ToBE] at h
  refine ⟨kind, length, after.take 4, (after.drop 4).take 12, (after.drop 4).drop 12, ?_,
    List.length_take_of_le (by omega), List.length_take_of_le (by rw [List.length_drop]; omega)⟩
  simp only [responseHeader, List.append_assoc, List.take_append_drop]

theorem parseBindingResponse_eq (hcookie : cookie.length = 4) (hid : id.length = 12) :
    parseBindingResponse (responseHeader kind length cookie id ++ rest) transactionId =
      (do require (kind = bindingSuccessResponse) (.invalid "not a binding success response")
          require (length.toNat ≤ rest.length) (.invalid "truncated attributes")
          require (cookie = u32ToBE magicCookie) (.invalid "wrong magic cookie")
          require (id = transactionId.toList) (.invalid "transaction ID mismatch")
          attributeLoop (responseHeader kind length cookie id ++ rest)
            (headerSize + length.toNat) headerSize) := by
  have hlen := length_responseHeader kind length hcookie hid
  obtain ⟨a, b, c, d, hkind, hlength, ha, hb, hc, hd⟩ :=
    index_header [] (cookie ++ (id ++ rest)) kind length
  have hdata : responseHeader kind length cookie id ++ rest
      = [] ++ (u16ToBE kind ++ (u16ToBE length ++ (cookie ++ (id ++ rest)))) := by
    simp [responseHeader]
  rw [← hdata] at ha hb hc hd
  have hcookies : slice (responseHeader kind length cookie id ++ rest) 4 8
      = (.ok cookie : Result (List UInt8)) := by
    have h := slice_append (ε := StunError) (u16ToBE kind ++ u16ToBE length) cookie (id ++ rest)
    simpa [responseHeader, hcookie] using h
  have hids : slice (responseHeader kind length cookie id ++ rest) 8 20
      = (.ok id : Result (List UInt8)) := by
    have h := slice_append (ε := StunError) (u16ToBE kind ++ (u16ToBE length ++ cookie)) id rest
    simpa [responseHeader, hcookie, hid] using h
  have hk : u16FromBE [a, b] = kind := by rw [← hkind, u16FromBE_toBE]
  have hl : u16FromBE [c, d] = length := by rw [← hlength, u16FromBE_toBE]
  have hmore : headerSize + length.toNat ≤ (responseHeader kind length cookie id ++ rest).length
      ↔ length.toNat ≤ rest.length := by
    rw [List.length_append, hlen, Nat.add_le_add_iff_left]
  have hlong : headerSize ≤ (responseHeader kind length cookie id ++ rest).length := by
    rw [List.length_append, hlen]
    exact Nat.le_add_right ..
  simp only [List.length_nil, Nat.zero_add] at ha hb hc hd
  simp only [parseBindingResponse, require, hlong, if_true, ha, hb, hc, hd, ok_bind, hk, hl,
    hcookies, hids, hmore]

end Response

theorem message_eq (transactionId : Vector UInt8 12) (body : List UInt8) :
    message transactionId body = responseHeader bindingSuccessResponse (.ofNat body.length)
      (u32ToBE magicCookie) transactionId.toList ++ body := by
  simp only [message, responseHeader, List.append_assoc]

theorem Answers.parse {transactionId : Vector UInt8 12} {data : List UInt8}
    (h : Answers transactionId data address) :
    parseBindingResponse data transactionId = .ok address := by
  obtain ⟨body, trailing, rfl, hfits, hreach⟩ := h
  have hcookie := length_u32ToBE magicCookie
  have hid : transactionId.toList.length = 12 := transactionId.length_toList
  have hlength : (UInt16.ofNat body.length).toNat = body.length := by
    rw [UInt16.toNat_ofNat', Nat.mod_eq_of_lt hfits]
  have hheader := length_responseHeader bindingSuccessResponse (.ofNat body.length) hcookie hid
  rw [message_eq, List.append_assoc, parseBindingResponse_eq transactionId hcookie hid, hlength]
  simp only [require, if_true, ok_bind, List.length_append, Nat.le_add_right]
  rw [← hheader]
  exact hreach.attributeLoop _ trailing _ rfl (by rw [hheader, headerSize]; omega)

theorem parse_outcome (transactionId : Vector UInt8 12) (data : List UInt8) :
    Safe (parseBindingResponse data transactionId) ∧
    ∀ address, parseBindingResponse data transactionId = .ok address →
      Answers transactionId data address := by
  by_cases hlong : headerSize ≤ data.length
  swap
  · rw [parseBindingResponse, require, if_neg hlong]
    exact ⟨Safe.error _, nofun⟩
  obtain ⟨kind, length, cookie, id, rest, rfl, hcookie, hid⟩ := exists_responseHeader hlong
  have hlt := length.toNat_lt
  have hheader := length_responseHeader kind length hcookie hid
  rw [parseBindingResponse_eq transactionId hcookie hid]
  by_cases hkind : kind = bindingSuccessResponse
  swap
  · rw [require, if_neg hkind]
    exact ⟨Safe.error _, nofun⟩
  rw [require, if_pos hkind, ok_bind]
  by_cases hrest : length.toNat ≤ rest.length
  swap
  · rw [require, if_neg hrest]
    exact ⟨Safe.error _, nofun⟩
  rw [require, if_pos hrest, ok_bind]
  by_cases hcookies : cookie = u32ToBE magicCookie
  swap
  · rw [require, if_neg hcookies]
    exact ⟨Safe.error _, nofun⟩
  rw [require, if_pos hcookies, ok_bind]
  by_cases hids : id = transactionId.toList
  swap
  · rw [require, if_neg hids]
    exact ⟨Safe.error _, nofun⟩
  rw [require, if_pos hids, ok_bind]
  have hbody : (rest.take length.toNat).length = length.toNat := List.length_take_of_le hrest
  have hloop := attributeLoop_outcome (responseHeader kind length cookie id)
    (rest.take length.toNat) (rest.drop length.toNat) (headerSize + length.toNat)
    (by rw [hheader, hbody]) (by rw [headerSize]; omega)
  rw [List.take_append_drop, hheader] at hloop
  refine ⟨hloop.1, fun address h => ⟨rest.take length.toNat, rest.drop length.toNat, ?_,
    by rw [hbody]; exact hlt, hloop.2 address h⟩⟩
  rw [message_eq, hbody, UInt16.ofNat_toNat, List.append_assoc, List.take_append_drop, hkind,
    hcookies, hids]

theorem parse_eq_ok_iff (transactionId : Vector UInt8 12) (data : List UInt8)
    (address : SocketAddr) : parseBindingResponse data transactionId = .ok address ↔
      Answers transactionId data address :=
  ⟨(parse_outcome transactionId data).2 address, Answers.parse⟩

/-! ### Addresses written into attributes -/

/-- The value of a MAPPED-ADDRESS. -/
def mappedValue (ip : Ipv4Addr) (port : UInt16) : List UInt8 :=
  0 :: 1 :: (u16ToBE port ++ ip.octets)

/-- The value of a XOR-MAPPED-ADDRESS. -/
def xorMappedValue (ip : Ipv4Addr) (port : UInt16) : List UInt8 :=
  0 :: 1 :: (u16ToBE (port ^^^ 0x2112) ++ u32ToBE (ip.bits ^^^ magicCookie))

theorem mapped_mappedValue (ip : Ipv4Addr) (port : UInt16) :
    Mapped mappedAddress (mappedValue ip port) (.v4 ip port) := by
  have h := Mapped.plain 0 ip port []
  rwa [List.append_nil] at h

theorem mapped_xorMappedValue (ip : Ipv4Addr) (port : UInt16) :
    Mapped xorMappedAddress (xorMappedValue ip port) (.v4 ip port) := by
  have h := Mapped.xor 0 ip port []
  rwa [List.append_nil] at h

theorem Reaches.past_all {others : List Attribute} {body : List UInt8}
    (hothers : ∀ item ∈ others, ∀ a, ¬ Mapped item.kind item.value a) (h : Reaches body address) :
    Reaches (others.flatMap Attribute.bytes ++ body) address := by
  induction others with
  | nil => exact h
  | cons item others ih =>
    rw [List.flatMap_cons, List.append_assoc]
    exact .past item (hothers item List.mem_cons_self)
      (ih fun other hmem => hothers other (List.mem_cons_of_mem _ hmem))

/-- A list of attributes: others, then one of the type `kind`, then anything. -/
def attributeList (others : List Attribute) (kind : UInt16) (value after : List UInt8) :
    List UInt8 :=
  others.flatMap Attribute.bytes ++ (attributeHeader kind value.length ++ (value ++ after))

theorem parse_attributeList {transactionId : Vector UInt8 12} {others : List Attribute}
    {kind : UInt16} {value after trailing : List UInt8}
    (hothers : ∀ item ∈ others, ∀ a, ¬ Mapped item.kind item.value a)
    (hfits : (attributeList others kind value after).length < 2 ^ 16)
    (h : Mapped kind value address) :
    parseBindingResponse (message transactionId (attributeList others kind value after) ++ trailing)
      transactionId = .ok address := by
  have hvalue : value.length < 2 ^ 16 := by
    simp only [attributeList, List.length_append] at hfits
    omega
  exact Answers.parse ⟨_, trailing, rfl, hfits, .past_all hothers (.here after hvalue h)⟩

/-- **Responses are read as they are**: for every string of bytes the parser ends, and without a
panic; it returns an address iff the bytes are a success response to the transaction whose
attributes come to that address; and an address written into an attribute of either type, after
any others, is read back. -/
theorem binding_response (transactionId : Vector UInt8 12) :
    (∀ data, Safe (parseBindingResponse data transactionId)) ∧
    (∀ data address, parseBindingResponse data transactionId = .ok address ↔
      Answers transactionId data address) ∧
    ∀ others : List Attribute, (∀ item ∈ others, ∀ a, ¬ Mapped item.kind item.value a) →
      ∀ ip port after trailing,
        ((attributeList others mappedAddress (mappedValue ip port) after).length < 2 ^ 16 →
          parseBindingResponse (message transactionId
            (attributeList others mappedAddress (mappedValue ip port) after) ++ trailing)
            transactionId = .ok (.v4 ip port)) ∧
        ((attributeList others xorMappedAddress (xorMappedValue ip port) after).length < 2 ^ 16 →
          parseBindingResponse (message transactionId
            (attributeList others xorMappedAddress (xorMappedValue ip port) after) ++ trailing)
            transactionId = .ok (.v4 ip port)) :=
  ⟨fun data => (parse_outcome transactionId data).1,
    parse_eq_ok_iff transactionId,
    fun _ hothers ip port _ _ =>
      ⟨fun hfits => parse_attributeList hothers hfits (mapped_mappedValue ip port),
        fun hfits => parse_attributeList hothers hfits (mapped_xorMappedValue ip port)⟩⟩

/-- A response with a SOFTWARE attribute before the address. -/
theorem binding_response_software :
    let software : Attribute := ⟨0x8022, [97, 98, 99], [0], by decide, by decide⟩
    parseBindingResponse (message (.replicate 12 2) (attributeList [software] mappedAddress
      (mappedValue (.new 192 0 2 5) 19730) [])) (.replicate 12 2)
      = .ok (.v4 (.new 192 0 2 5) 19730) := by
  intro software
  have hother : ∀ item ∈ [software], ∀ a, ¬ Mapped item.kind item.value a := by
    simp only [List.mem_singleton, forall_eq]
    intro a h
    exact absurd h.length_le (by decide)
  have h := (((binding_response (.replicate 12 2)).2.2 [software] hother (.new 192 0 2 5) 19730 []
    []).1 (by decide))
  rwa [List.append_nil] at h

end MahoRD.Stun
