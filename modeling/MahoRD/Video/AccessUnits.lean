/-
MahoRD/Video/AccessUnits.lean

The access units that the Linux host emits, as the client reads them (`parse_length_prefixed_nalus`
and `detect_codec` in `maho-decode/src/lib.rs`).

The host keeps units of any length but zero, the client asks for two bytes.  A codec is told by the
first header byte that could be a parameter set's in either codec, although the bytes of one codec
mean something else in the other.
-/
import MahoRD.Host.Bitstream

namespace MahoRD.AccessUnits

open Bytes Bitstream

structure Nalu where
  nalType : UInt8
  data : List UInt8

inductive DecodeError
  | truncatedNalu (offset : ℕ)
  | emptyNalu (offset : ℕ)
  | missingParameterSets

/-- A unit under the type that HEVC has for it. -/
def Nalu.of (data : List UInt8) : Nalu := ⟨hevcType data.headI, data⟩

/-- The units from an offset on. -/
def nalusFrom (accessUnit : List UInt8) (offset : ℕ) : Except DecodeError (List Nalu) :=
  if _h : offset < accessUnit.length then
    if accessUnit.length - offset < 4 then .error (.truncatedNalu offset)
    else
      let length := (u32FromBE (accessUnit.extract offset (offset + 4))).toNat
      if length < 2 then .error (.emptyNalu offset)
      else if accessUnit.length < offset + 4 + length then .error (.truncatedNalu offset)
      else
        (nalusFrom accessUnit (offset + 4 + length)).map fun nalus =>
          Nalu.of (accessUnit.extract (offset + 4) (offset + 4 + length)) :: nalus
  else .ok []
termination_by accessUnit.length - offset

def parseLengthPrefixedNalus (accessUnit : List UInt8) : Except DecodeError (List Nalu) :=
  (nalusFrom accessUnit 0).bind fun nalus =>
    if nalus = [] then .error (.truncatedNalu 0) else .ok nalus

inductive CodecKind
  | hevc
  | h264
  deriving DecidableEq

/-- The codec that the units show, in their order. -/
def codecOf : List Nalu → Except DecodeError CodecKind
  | [] => .error .missingParameterSets
  | nalu :: nalus =>
    match nalu.data with
    | [] => codecOf nalus
    | first :: _ =>
      if h264Type first = 7 then .ok .h264
      else if hevcType first = 32 ∨ hevcType first = 33 ∨ hevcType first = 34 then .ok .hevc
      else codecOf nalus

def detectCodec (accessUnit : List UInt8) : Except DecodeError CodecKind :=
  (parseLengthPrefixedNalus accessUnit).bind codecOf

/-! ### What is read of the units -/

variable {nalus : List (List UInt8)}

theorem nalusFrom_avcc {data : List UInt8} {offset : ℕ}
    (h : ∀ nalu ∈ nalus, nalu.length < 2 ^ 32) (hdata : data.drop offset = avcc nalus) :
    nalusFrom data offset = .ok (nalus.map Nalu.of) ↔ ∀ nalu ∈ nalus, 2 ≤ nalu.length := by
  induction nalus generalizing offset with
  | nil =>
    have hend : data.length ≤ offset := List.drop_eq_nil_iff.mp hdata
    rw [nalusFrom, dif_neg (by omega)]
    exact ⟨fun _ => List.forall_mem_nil _, fun _ => rfl⟩
  | cons nalu nalus ih =>
    obtain ⟨hlt, hnalus⟩ := List.forall_mem_cons.mp h
    rw [avcc_cons] at hdata
    obtain ⟨hfield, hnalu, hrest, hlength⟩ := framed_at hdata
    rw [nalusFrom, dif_pos (by omega), if_neg (by omega), List.forall_mem_cons, ← ih hnalus hrest]
    simp only [hfield, toNat_length hlt]
    by_cases htwo : nalu.length < 2
    · rw [if_pos htwo]
      exact ⟨fun h => (by cases h), fun h => absurd h.1 (by omega)⟩
    · rw [if_neg htwo, if_neg (by omega), hnalu]
      cases nalusFrom data (offset + 4 + nalu.length) with
      | error e => exact ⟨fun h => (by cases h), fun h => (by cases h.2)⟩
      | ok read =>
        constructor
        · intro h
          exact ⟨by omega, congrArg Except.ok (List.cons.inj (Except.ok.inj h)).2⟩
        · intro h
          exact congrArg Except.ok (congrArg _ (Except.ok.inj h.2))

theorem nalusFrom_short {before rest : List (List UInt8)} {short data : List UInt8} {offset : ℕ}
    (hbefore : ∀ nalu ∈ before, 2 ≤ nalu.length ∧ nalu.length < 2 ^ 32) (hshort : short.length < 2)
    (hdata : data.drop offset = avcc (before ++ short :: rest)) :
    nalusFrom data offset = .error (.emptyNalu (offset + (avcc before).length)) := by
  induction before generalizing offset with
  | nil =>
    rw [List.nil_append, avcc_cons] at hdata
    obtain ⟨hfield, -, -, hlength⟩ := framed_at hdata
    rw [nalusFrom, dif_pos (by omega), if_neg (by omega)]
    simp only [hfield, toNat_length (by omega : short.length < 2 ^ 32)]
    rw [if_pos hshort]
    rfl
  | cons nalu before ih =>
    obtain ⟨⟨htwo, hlt⟩, hbefore⟩ := List.forall_mem_cons.mp hbefore
    rw [List.cons_append, avcc_cons] at hdata
    obtain ⟨hfield, -, hrest, hlength⟩ := framed_at hdata
    rw [nalusFrom, dif_pos (by omega), if_neg (by omega)]
    simp only [hfield, toNat_length hlt]
    rw [if_neg (by omega), if_neg (by omega), ih hbefore hrest, avcc_cons, List.length_append,
      length_u32ToBE, List.length_append, Nat.add_assoc, Nat.add_assoc, Nat.add_assoc]
    rfl

/-! ### The codec -/

def kind : VideoCodec → CodecKind
  | .h264 => .h264
  | .hevc => .hevc

def other : VideoCodec → VideoCodec
  | .h264 => .hevc
  | .hevc => .h264

/-- The unit has the header byte of a parameter set that the codec is told by. -/
def names (codec : VideoCodec) (nalu : List UInt8) : Bool :=
  match codec with
  | .h264 => nalu.head?.any fun first => h264Type first = 7
  | .hevc => nalu.head?.any fun first =>
      hevcType first = 32 ∨ hevcType first = 33 ∨ hevcType first = 34

theorem hevcType_of_h264Type {first : UInt8} (h : h264Type first = 7) :
    ¬ (hevcType first = 32 ∨ hevcType first = 33 ∨ hevcType first = 34) := by
  have hlow : first.toNat % 32 = 7 := by
    have := congrArg UInt8.toNat h
    rwa [h264Type, UInt8.toNat_and, show (0x1f : UInt8).toNat = 2 ^ 5 - 1 from rfl,
      Nat.and_two_pow_sub_one_eq_mod] at this
  have hhigh : (hevcType first).toNat = first.toNat / 2 % 64 := by
    rw [hevcType, UInt8.toNat_and, show (0x3f : UInt8).toNat = 2 ^ 6 - 1 from rfl,
      Nat.and_two_pow_sub_one_eq_mod, UInt8.toNat_shiftRight]
    rfl
  rintro (h | h | h)
  · have := congrArg UInt8.toNat h
    rw [hhigh, show (32 : UInt8).toNat = 32 from rfl] at this
    omega
  · have := congrArg UInt8.toNat h
    rw [hhigh, show (33 : UInt8).toNat = 33 from rfl] at this
    omega
  · have := congrArg UInt8.toNat h
    rw [hhigh, show (34 : UInt8).toNat = 34 from rfl] at this
    omega

/-- No unit before the first that names the codec names the other one. -/
def Clear (codec : VideoCodec) (nalus : List (List UInt8)) : Prop :=
  ∀ nalu ∈ nalus.takeWhile (fun nalu => !names codec nalu), names (other codec) nalu = false

theorem names_other {codec : VideoCodec} {nalu : List UInt8} (h : names codec nalu = true) :
    names (other codec) nalu = false := by
  cases nalu with
  | nil => cases codec <;> rfl
  | cons first nalu =>
    cases codec with
    | h264 => exact decide_eq_false (hevcType_of_h264Type (of_decide_eq_true h))
    | hevc => exact decide_eq_false fun h' => hevcType_of_h264Type h' (of_decide_eq_true h)

theorem kind_other (codec : VideoCodec) : kind (other codec) ≠ kind codec := by
  cases codec <;> decide

theorem codecOf_cons (codec : VideoCodec) (nalu : List UInt8) (nalus : List Nalu) :
    codecOf (Nalu.of nalu :: nalus) =
      if names codec nalu then .ok (kind codec)
      else if names (other codec) nalu then .ok (kind (other codec))
      else codecOf nalus := by
  have hfirst : codecOf (Nalu.of nalu :: nalus) =
      if names .h264 nalu then .ok .h264 else if names .hevc nalu then .ok .hevc
      else codecOf nalus := by
    cases nalu with
    | nil => rfl
    | cons first nalu =>
      simp only [codecOf, Nalu.of, names, List.head?_cons, Option.any_some, decide_eq_true_eq]
  rw [hfirst]
  cases codec with
  | h264 => rfl
  | hevc =>
    show (if names .h264 nalu then (.ok .h264 : Except DecodeError CodecKind)
        else if names .hevc nalu then .ok .hevc else codecOf nalus)
      = if names .hevc nalu then .ok .hevc
        else if names .h264 nalu then .ok .h264 else codecOf nalus
    by_cases hhevc : names .hevc nalu = true
    · have hnot : names .h264 nalu = false := names_other hhevc
      rw [hnot, hhevc, if_neg Bool.false_ne_true, if_pos rfl, if_pos rfl]
    · rw [if_neg hhevc, if_neg hhevc]

theorem codecOf_eq {codec : VideoCodec}
    (h : ∃ nalu ∈ nalus, names codec nalu = true) :
    codecOf (nalus.map Nalu.of) = .ok (kind codec) ↔ Clear codec nalus := by
  induction nalus with
  | nil =>
    obtain ⟨_, hmem, -⟩ := h
    exact absurd hmem List.not_mem_nil
  | cons nalu nalus ih =>
    rw [List.map_cons, codecOf_cons codec, Clear]
    by_cases hown : names codec nalu = true
    · rw [if_pos hown, List.takeWhile_cons_of_neg (by simpa using hown)]
      exact ⟨fun _ => List.forall_mem_nil _, fun _ => rfl⟩
    · rw [if_neg hown, List.takeWhile_cons_of_pos (by simpa using hown), List.forall_mem_cons]
      have hrest : ∃ nalu ∈ nalus, names codec nalu = true := by
        obtain ⟨nalu', hmem, hnames⟩ := h
        rcases List.mem_cons.mp hmem with rfl | hmem
        · exact absurd hnames hown
        · exact ⟨nalu', hmem, hnames⟩
      by_cases hother : names (other codec) nalu = true
      · rw [if_pos hother]
        refine ⟨fun h => absurd (Except.ok.inj h) (kind_other codec), fun h => ?_⟩
        exact absurd hother (Bool.eq_false_iff.mp h.1)
      · rw [if_neg hother, and_iff_right (Bool.eq_false_iff.mpr hother), ← Clear]
        exact ih hrest

/-! ### What the host emits -/

/-- The parameter sets that an encoder of the codec can hold: a transform that is opened anew starts
with none. -/
inductive Held (codec : VideoCodec) : List (List UInt8) → Prop
  | opened : Held codec []
  | packet {parameterSets} (packet : Bitstream.Packet) (h : Held codec parameterSets) :
      Held codec (convert codec parameterSets packet).2

theorem ne_nil_of_isParameterSet {codec : VideoCodec} {nalu : List UInt8}
    (h : isParameterSet codec nalu = true) : nalu ≠ [] := by
  rintro rfl
  cases codec <;> cases h

theorem convert_snd (codec : VideoCodec) (parameterSets : List (List UInt8))
    (packet : Bitstream.Packet) :
    (convert codec parameterSets packet).2 = parameterSets ∨
      ∃ nalUnits, (convert codec parameterSets packet).2 = extractParameterSets codec nalUnits := by
  cases hdata : packet.data with
  | none => exact .inl (by simp only [convert, hdata])
  | some bytes =>
    cases hparse : parseNalUnits bytes with
    | error e => exact .inl (by simp only [convert, hdata, hparse])
    | ok nalUnits =>
      have hkept : (convert codec parameterSets packet).2
          = keptSets codec parameterSets packet.isKey nalUnits := by
        simp only [convert, hdata, hparse]
        split <;> rfl
      rw [hkept, keptSets]
      split_ifs with hkey
      · exact .inr ⟨nalUnits, rfl⟩
      · exact .inl rfl

theorem Held.ne_nil {codec : VideoCodec} {parameterSets : List (List UInt8)}
    (h : Held codec parameterSets) : ∀ nalu ∈ parameterSets, nalu ≠ [] := by
  induction h with
  | opened => exact List.forall_mem_nil _
  | @packet parameterSets packet _ ih =>
    rcases convert_snd codec parameterSets packet with hsame | ⟨nalUnits, hfound⟩
    · rwa [hsame]
    · rw [hfound]
      intro nalu hnalu
      exact ne_nil_of_isParameterSet (List.mem_filter.mp hnalu).2

theorem avcc_append (nalus nalus' : List (List UInt8)) :
    avcc (nalus ++ nalus') = avcc nalus ++ avcc nalus' := List.flatMap_append

/-- The units of a frame. -/
def frameUnits (isKey : Bool) (kept nalUnits : List (List UInt8)) : List (List UInt8) :=
  (if isKey then absent kept nalUnits else []) ++ nalUnits

theorem frameData_eq_ok {isKey : Bool} {kept nalUnits : List (List UInt8)} {data : List UInt8}
    (h : frameData isKey kept nalUnits = .ok data) :
    data = avcc (frameUnits isKey kept nalUnits) ∧
      ∀ nalu ∈ frameUnits isKey kept nalUnits, nalu.length < 2 ^ 32 := by
  have hfirst : (if isKey then appendUniqueParameterSets [] kept nalUnits else .ok [])
      = appendAvccNalus [] (if isKey then absent kept nalUnits else []) := by
    split <;> rfl
  rw [frameData, hfirst] at h
  rw [frameUnits]
  generalize (if isKey then absent kept nalUnits else []) = missing at h ⊢
  cases hsets : appendAvccNalus [] missing with
  | error e =>
    rw [hsets] at h
    cases h
  | ok sets =>
    rw [hsets] at h
    have hmissing := lengths_of_appendAvccNalus hsets
    have hunits := lengths_of_appendAvccNalus h
    have hsame := (appendAvccNalus_eq hmissing []).symm.trans hsets
    have hdata := (appendAvccNalus_eq hunits sets).symm.trans h
    refine ⟨?_, fun nalu hnalu => ?_⟩
    · rw [avcc_append, ← Except.ok.inj hdata, ← Except.ok.inj hsame]
      rfl
    · rcases List.mem_append.mp hnalu with hnalu | hnalu
      · exact hmissing nalu hnalu
      · exact hunits nalu hnalu

theorem convert_avcc {codec : VideoCodec} {parameterSets kept : List (List UInt8)}
    (hheld : Held codec parameterSets) {packet : Bitstream.Packet} {frame : EncodedFrame}
    (h : convert codec parameterSets packet = (.ok frame, kept)) :
    ∃ bytes nalUnits, packet.data = some bytes ∧ parseNalUnits bytes = .ok nalUnits ∧
      Avcc frame.data (frameUnits packet.isKey kept nalUnits) ∧
      frame.isKeyFrame = packet.isKey ∧ frame.codec = codec := by
  have hkept : Held codec kept := by
    have := Held.packet packet hheld
    rwa [h] at this
  cases hdata : packet.data with
  | none =>
    simp only [convert, hdata] at h
    cases h
  | some bytes =>
    cases hparse : parseNalUnits bytes with
    | error e =>
      simp only [convert, hdata, hparse] at h
      cases h
    | ok nalUnits =>
      simp only [convert, hdata, hparse] at h
      split at h
      · cases h
      · cases h
      next avcc pts hframe hpts =>
        cases h
        obtain ⟨hstream, hlengths⟩ := frameData_eq_ok hframe
        refine ⟨bytes, nalUnits, rfl, hparse, ⟨fun nalu hnalu => ?_, hstream⟩, rfl, rfl⟩
        refine ⟨?_, hlengths nalu hnalu⟩
        rcases List.mem_append.mp hnalu with hnalu | hnalu
        · split at hnalu
          · exact hkept.ne_nil nalu (List.mem_filter.mp hnalu).1
          · cases hnalu
        · exact (ne_nil_of_parseNalUnits hparse).2 nalu hnalu

/-- The units have a complete parameter set of the codec; that of HEVC is one of the base layer. -/
def Complete (codec : VideoCodec) (nalus : List (List UInt8)) : Prop :=
  match codec with
  | .h264 => ∀ type ∈ ([7, 8] : List UInt8), ∃ first rest, first :: rest ∈ nalus ∧
      h264Type first = type
  | .hevc => ∀ type ∈ ([32, 33, 34] : List UInt8), ∃ first second rest,
      first :: second :: rest ∈ nalus ∧ hevcType first = type ∧
        first &&& 1 = 0 ∧ second >>> 3 = 0

theorem Complete.names {codec : VideoCodec} (h : Complete codec nalus) :
    ∃ nalu ∈ nalus, names codec nalu = true := by
  cases codec with
  | h264 =>
    obtain ⟨first, rest, hmem, htype⟩ := h 7 (by decide)
    exact ⟨first :: rest, hmem, decide_eq_true htype⟩
  | hevc =>
    obtain ⟨first, second, rest, hmem, htype, -⟩ := h 32 (by decide)
    exact ⟨first :: second :: rest, hmem, decide_eq_true (.inl htype)⟩

/-- The client gets the units of a frame, and of a key frame the codec. -/
def Agrees (frame : EncodedFrame) (nalus : List (List UInt8)) : Prop :=
  parseLengthPrefixedNalus frame.data = .ok (nalus.map Nalu.of) ∧
    (frame.isKeyFrame = true → Complete frame.codec nalus →
      detectCodec frame.data = .ok (kind frame.codec))

theorem parse_avcc {stream : List UInt8} (hne : nalus ≠ [])
    (h : Avcc stream nalus) :
    parseLengthPrefixedNalus stream = .ok (nalus.map Nalu.of) ↔
      ∀ nalu ∈ nalus, 2 ≤ nalu.length := by
  have hread := nalusFrom_avcc (fun nalu hnalu => (h.1 nalu hnalu).2)
    (stream.drop_zero.trans h.2)
  rw [← hread, parseLengthPrefixedNalus]
  cases nalusFrom stream 0 with
  | error e => exact Iff.rfl
  | ok read =>
    constructor
    · intro h
      by_cases hread : read = []
      · rw [hread] at h
        cases h
      · exact (if_neg hread).symm.trans h
    · intro h
      cases h
      exact if_neg fun hnil => hne (List.map_eq_nil_iff.mp hnil)

/-- **Host and client agree on a frame if and only if each of its units has two bytes, and in a key
frame with its parameter set no unit before it has the header byte of one of the other codec.** -/
theorem agrees_iff {codec : VideoCodec} {parameterSets kept : List (List UInt8)}
    (hheld : Held codec parameterSets) {packet : Bitstream.Packet} {frame : EncodedFrame}
    (h : convert codec parameterSets packet = (.ok frame, kept)) :
    ∃ bytes nalUnits, packet.data = some bytes ∧ parseNalUnits bytes = .ok nalUnits ∧
      (Agrees frame (frameUnits packet.isKey kept nalUnits) ↔
        (∀ nalu ∈ frameUnits packet.isKey kept nalUnits, 2 ≤ nalu.length) ∧
        (packet.isKey = true → Complete codec (frameUnits packet.isKey kept nalUnits) →
          Clear codec (frameUnits packet.isKey kept nalUnits))) := by
  obtain ⟨bytes, nalUnits, hdata, hparse, havcc, hkey, rfl⟩ := convert_avcc hheld h
  refine ⟨bytes, nalUnits, hdata, hparse, ?_⟩
  have hne : frameUnits packet.isKey kept nalUnits ≠ [] := fun hnil =>
    (ne_nil_of_parseNalUnits hparse).1 (List.append_eq_nil_iff.mp hnil).2
  rw [Agrees, hkey, ← parse_avcc hne havcc]
  refine and_congr_right fun hread => ?_
  refine imp_congr_right fun _ => imp_congr_right fun hcomplete => ?_
  rw [detectCodec, hread]
  exact codecOf_eq hcomplete.names

theorem convert_of_avcc {codec : VideoCodec} (hne : nalus ≠ [])
    (h : ∀ nalu ∈ nalus, nalu ≠ [] ∧ nalu.length < 2 ^ 32) (isKey : Bool) (pts : ℤ) :
    convert codec [] ⟨some (avcc nalus), isKey, some pts⟩ =
      (.ok ⟨avcc nalus, isKey, codec, pts⟩, keptSets codec [] isKey nalus) := by
  have hparse : parseNalUnits (avcc nalus) = .ok nalus := parseNalUnits_of_avcc hne ⟨h, rfl⟩
  have hmissing : absent (keptSets codec [] isKey nalus) nalus = [] := by
    rw [absent, List.filter_eq_nil_iff]
    intro nalu hnalu
    rw [keptSets] at hnalu
    split_ifs at hnalu
    · simpa using (List.mem_filter.mp hnalu).1
    · cases hnalu
  have hdata : frameData isKey (keptSets codec [] isKey nalus) nalus = .ok (avcc nalus) := by
    have hfirst : (if isKey then
        appendUniqueParameterSets [] (keptSets codec [] isKey nalus) nalus else .ok []) = .ok [] := by
      rw [appendUniqueParameterSets, hmissing]
      split <;> rfl
    rw [frameData, hfirst]
    exact appendAvccNalus_eq (fun nalu hnalu => (h nalu hnalu).2) []
  simp only [convert, hparse, hdata]

/-- A key frame of H.264: its parameter set, then a slice. -/
def keyFrame : List (List UInt8) := [[0x67, 0x42], [0x68, 0xce], [0x65, 0x88]]

theorem agrees_keyFrame :
    ∃ bytes nalUnits, some (avcc keyFrame) = some bytes ∧ parseNalUnits bytes = .ok nalUnits ∧
      (Agrees ⟨avcc keyFrame, true, .h264, 0⟩
          (frameUnits true (keptSets .h264 [] true keyFrame) nalUnits) ↔
        (∀ nalu ∈ frameUnits true (keptSets .h264 [] true keyFrame) nalUnits, 2 ≤ nalu.length) ∧
        (true = true →
          Complete .h264 (frameUnits true (keptSets .h264 [] true keyFrame) nalUnits) →
          Clear .h264 (frameUnits true (keptSets .h264 [] true keyFrame) nalUnits))) :=
  agrees_iff .opened (convert_of_avcc (by decide) (by decide) true 0)

/-- **The end of a stream is one byte, which the client refuses, and the slice of an H.264 frame
that stands before its parameter set can have the header byte of one of HEVC.** -/
theorem access_units_disagree :
    (∃ frame kept, convert .h264 [] ⟨some (avcc [[0x65, 0x88], [0x0b]]), false, some 0⟩
        = (.ok frame, kept) ∧ parseLengthPrefixedNalus frame.data = .error (.emptyNalu 6)) ∧
    (∃ frame kept, convert .h264 [] ⟨some (avcc [[0x45, 0x88], [0x67, 0x42], [0x68, 0xce]]), true,
          some 0⟩ = (.ok frame, kept) ∧
        Complete .h264 [[0x45, 0x88], [0x67, 0x42], [0x68, 0xce]] ∧
        detectCodec frame.data = .ok .hevc) := by
  constructor
  · refine ⟨_, _, convert_of_avcc (by decide) (by decide) false 0, ?_⟩
    have hread : nalusFrom (avcc [[0x65, 0x88], [0x0b]]) 0 = .error (.emptyNalu 6) :=
      @nalusFrom_short [[0x65, 0x88]] [] [0x0b] _ 0 (by decide) (by decide) rfl
    rw [parseLengthPrefixedNalus, hread]
    rfl
  · refine ⟨_, _, convert_of_avcc (by decide) (by decide) true 0, ?_, ?_⟩
    · rintro type htype
      rcases List.mem_pair.mp htype with rfl | rfl
      · exact ⟨0x67, [0x42], by decide, by decide⟩
      · exact ⟨0x68, [0xce], by decide, by decide⟩
    · have hread : parseLengthPrefixedNalus (avcc [[0x45, 0x88], [0x67, 0x42], [0x68, 0xce]])
          = .ok ([[0x45, 0x88], [0x67, 0x42], [0x68, 0xce]].map Nalu.of) :=
        (parse_avcc (by decide) ⟨by decide, rfl⟩).mpr (by decide)
      rw [detectCodec, hread]
      rfl

end MahoRD.AccessUnits
