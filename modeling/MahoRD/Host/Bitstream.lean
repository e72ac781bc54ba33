/-
MahoRD/Host/Bitstream.lean

The packets of the Linux encoder and the frames they become (`parse_nal_units`, `append_avcc_nalu`
and the conversion of `receive_packets` in `maho-host/src/encode_linux.rs`).

A packet is taken for length-prefixed NAL units if it can be read as such, and for units behind
start codes only otherwise.  So what is told of a packet behind start codes (`reframe_iff`) is what
the bytes themselves leave open: whether they are a list of length-prefixed units as well.
-/
import Mathlib.Data.List.Infix
import MahoRD.Lib.Bytes

namespace MahoRD.Bitstream

open Bytes

inductive VideoCodec
  | h264
  | hevc

inductive EncodeError
  | invalidBitstream
  | missingOutputTimestamp

/-! ### Length-prefixed units -/

def appendAvccNalu (output nalu : List UInt8) : Except EncodeError (List UInt8) :=
  if nalu.length < 2 ^ 32 then .ok (output ++ (u32ToBE (.ofNat nalu.length) ++ nalu))
  else .error .invalidBitstream

def appendAvccNalus (output : List UInt8) (nalus : List (List UInt8)) :
    Except EncodeError (List UInt8) :=
  nalus.foldlM appendAvccNalu output

/-- The units from an offset on. -/
def avccFrom (data : List UInt8) (offset : ℕ) : Except EncodeError (List (List UInt8)) :=
  if _h : offset < data.length then
    if data.length < offset + 4 then .error .invalidBitstream
    else
      let length := (u32FromBE (data.extract offset (offset + 4))).toNat
      if length = 0 ∨ data.length < offset + 4 + length then .error .invalidBitstream
      else
        (avccFrom data (offset + 4 + length)).map fun nalus =>
          data.extract (offset + 4) (offset + 4 + length) :: nalus
  else .ok []
termination_by data.length - offset

/-- The units, if there are any. -/
def nonEmpty (nalus : List (List UInt8)) : Except EncodeError (List (List UInt8)) :=
  if nalus = [] then .error .invalidBitstream else .ok nalus

def parseAvcc (data : List UInt8) : Except EncodeError (List (List UInt8)) :=
  (avccFrom data 0).bind nonEmpty

/-! ### Units behind start codes -/

inductive StartCode
  | three
  | four

namespace StartCode

def bytes : StartCode → List UInt8
  | three => [0, 0, 1]
  | four => [0, 0, 0, 1]

def length (code : StartCode) : ℕ := code.bytes.length

theorem three_le_length (code : StartCode) : 3 ≤ code.length := by
  cases code <;> decide

end StartCode

/-- The start code that the data starts with. -/
def startCode (data : List UInt8) : Option StartCode :=
  if StartCode.four.bytes <+: data then some .four
  else if StartCode.three.bytes <+: data then some .three
  else none

/-- Where the start codes are, and where what follows them starts. -/
def starts (data : List UInt8) (index : ℕ) : List (ℕ × ℕ) :=
  if _h : index + 3 ≤ data.length then
    match startCode (data.drop index) with
    | some code => (index, index + code.length) :: starts data (index + code.length)
    | none => starts data (index + 1)
  else []
termination_by data.length - index
decreasing_by
  · have := code.three_le_length
    omega
  · omega

/-- The end without the zeros before it. -/
def trimmedEnd (data : List UInt8) (payloadStart : ℕ) : ℕ → ℕ
  | 0 => 0
  | payloadEnd + 1 =>
    if payloadStart < payloadEnd + 1 ∧ data[payloadEnd]? = some 0 then
      trimmedEnd data payloadStart payloadEnd
    else payloadEnd + 1

def payloads (data : List UInt8) : List (ℕ × ℕ) → List (List UInt8)
  | [] => []
  | (_, payloadStart) :: starts =>
    let payloadEnd := (starts.head?.map Prod.fst).getD data.length
    let trimmed := trimmedEnd data payloadStart payloadEnd
    if payloadStart < trimmed then data.extract payloadStart trimmed :: payloads data starts
    else payloads data starts

def parseAnnexB (data : List UInt8) : Except EncodeError (List (List UInt8)) :=
  nonEmpty (payloads data (starts data 0))

/-! ### Packets -/

def parseNalUnits (data : List UInt8) : Except EncodeError (List (List UInt8)) :=
  match parseAvcc data with
  | .ok nalus => .ok nalus
  | .error _ => parseAnnexB data

/-- What the bytes of a packet become. -/
def reframe (data : List UInt8) : Except EncodeError (List UInt8) :=
  (parseNalUnits data).bind (appendAvccNalus [])

def h264Type (byte : UInt8) : UInt8 := byte &&& 0x1f

def hevcType (byte : UInt8) : UInt8 := (byte >>> 1) &&& 0x3f

/-- Whether a unit is a parameter set. -/
def isParameterSet (codec : VideoCodec) (nalu : List UInt8) : Bool :=
  match codec with
  | .h264 => nalu.head?.any fun byte => h264Type byte = 7 ∨ h264Type byte = 8
  | .hevc => 2 ≤ nalu.length ∧ nalu.head?.any fun byte => 32 ≤ hevcType byte ∧ hevcType byte ≤ 34

def extractParameterSets (codec : VideoCodec) (nalus : List (List UInt8)) : List (List UInt8) :=
  nalus.filter (isParameterSet codec)

/-- The parameter sets that the frame has not. -/
def absent (parameterSets frameNalus : List (List UInt8)) : List (List UInt8) :=
  parameterSets.filter (· ∉ frameNalus)

def appendUniqueParameterSets (output : List UInt8) (parameterSets frameNalus : List (List UInt8)) :
    Except EncodeError (List UInt8) :=
  appendAvccNalus output (absent parameterSets frameNalus)

structure Packet where
  data : Option (List UInt8)
  isKey : Bool
  pts : Option ℤ

structure EncodedFrame where
  data : List UInt8
  isKeyFrame : Bool
  codec : VideoCodec
  pts : ℤ

/-- The parameter sets that are kept once a packet has been seen. -/
def keptSets (codec : VideoCodec) (parameterSets : List (List UInt8)) (isKey : Bool)
    (nalUnits : List (List UInt8)) : List (List UInt8) :=
  if isKey ∧ extractParameterSets codec nalUnits ≠ [] then extractParameterSets codec nalUnits
  else parameterSets

/-- The data of a frame: before a key frame stand the parameter sets that it does not have. -/
def frameData (isKey : Bool) (kept nalUnits : List (List UInt8)) :
    Except EncodeError (List UInt8) :=
  (if isKey then appendUniqueParameterSets [] kept nalUnits else .ok []).bind fun avcc =>
    appendAvccNalus avcc nalUnits

/-- One packet of `receive_packets`, and the parameter sets that are kept then. -/
def convert (codec : VideoCodec) (parameterSets : List (List UInt8)) (packet : Packet) :
    Except EncodeError EncodedFrame × List (List UInt8) :=
  match packet.data with
  | none => (.error .invalidBitstream, parameterSets)
  | some bytes =>
    match parseNalUnits bytes with
    | .error e => (.error e, parameterSets)
    | .ok nalUnits =>
      let kept := keptSets codec parameterSets packet.isKey nalUnits
      match frameData packet.isKey kept nalUnits, packet.pts with
      | .error e, _ => (.error e, kept)
      | .ok _, none => (.error .missingOutputTimestamp, kept)
      | .ok avcc, some pts => (.ok ⟨avcc, packet.isKey, codec, pts⟩, kept)

/-! ### Reading length-prefixed units -/

/-- The units one after the other, each behind its length. -/
def avcc (nalus : List (List UInt8)) : List UInt8 :=
  nalus.flatMap fun nalu => u32ToBE (.ofNat nalu.length) ++ nalu

/-- A stream of exactly these units. -/
def Avcc (stream : List UInt8) (nalus : List (List UInt8)) : Prop :=
  (∀ nalu ∈ nalus, nalu ≠ [] ∧ nalu.length < 2 ^ 32) ∧ stream = avcc nalus

theorem avcc_cons (nalu : List UInt8) (nalus : List (List UInt8)) :
    avcc (nalu :: nalus) = u32ToBE (.ofNat nalu.length) ++ (nalu ++ avcc nalus) := by
  rw [avcc, List.flatMap_cons, List.append_assoc, avcc]

variable {nalus : List (List UInt8)} {offset : ℕ} {nals : List (StartCode × NalUnit)}

theorem appendAvccNalus_eq (h : ∀ nalu ∈ nalus, nalu.length < 2 ^ 32)
    (output : List UInt8) : appendAvccNalus output nalus = .ok (output ++ avcc nalus) := by
  induction nalus generalizing output with
  | nil => exact congrArg Except.ok (List.append_nil output).symm
  | cons nalu nalus ih =>
    obtain ⟨hnalu, hnalus⟩ := List.forall_mem_cons.mp h
    have hstep : appendAvccNalu output nalu
        = .ok (output ++ (u32ToBE (.ofNat nalu.length) ++ nalu)) := if_pos hnalu
    show (appendAvccNalu output nalu).bind (fun output => appendAvccNalus output nalus) = _
    rw [hstep]
    show appendAvccNalus _ nalus = _
    rw [ih hnalus, avcc_cons, List.append_assoc, List.append_assoc]

theorem lengths_of_appendAvccNalus {output stream : List UInt8}
    (h : appendAvccNalus output nalus = .ok stream) : ∀ nalu ∈ nalus, nalu.length < 2 ^ 32 := by
  induction nalus generalizing output with
  | nil => exact List.forall_mem_nil _
  | cons nalu nalus ih =>
    have hbind : (appendAvccNalu output nalu).bind (fun output => appendAvccNalus output nalus)
        = .ok stream := h
    rw [appendAvccNalu] at hbind
    split_ifs at hbind with hnalu
    · exact List.forall_mem_cons.mpr ⟨hnalu, ih hbind⟩
    · cases hbind

theorem toNat_length {nalu : List UInt8} (h : nalu.length < 2 ^ 32) :
    (u32FromBE (u32ToBE (.ofNat nalu.length))).toNat = nalu.length := by
  rw [u32FromBE_toBE, UInt32.toNat_ofNat', Nat.mod_eq_of_lt h]

theorem framed_at {data nalu rest : List UInt8}
    (hdata : data.drop offset = u32ToBE (.ofNat nalu.length) ++ (nalu ++ rest)) :
    data.extract offset (offset + 4) = u32ToBE (.ofNat nalu.length) ∧
      data.extract (offset + 4) (offset + 4 + nalu.length) = nalu ∧
      data.drop (offset + 4 + nalu.length) = rest ∧
      data.length - offset = 4 + (nalu.length + rest.length) := by
  have hafter : data.drop (offset + 4) = nalu ++ rest := by
    rw [← List.drop_drop, hdata, List.drop_left' (length_u32ToBE _)]
  refine ⟨?_, ?_, ?_, ?_⟩
  · rw [List.extract_eq_take_drop, hdata, Nat.add_sub_cancel_left,
      List.take_left' (length_u32ToBE _)]
  · rw [List.extract_eq_take_drop, hafter, Nat.add_sub_cancel_left, List.take_left' rfl]
  · rw [← List.drop_drop, hafter, List.drop_left' rfl]
  · rw [← List.length_drop, hdata, List.length_append, length_u32ToBE, List.length_append]

theorem avccFrom_cons {data nalu rest : List UInt8} (hne : nalu ≠ [])
    (hlt : nalu.length < 2 ^ 32)
    (hdata : data.drop offset = u32ToBE (.ofNat nalu.length) ++ (nalu ++ rest)) :
    avccFrom data offset =
      (avccFrom data (offset + 4 + nalu.length)).map fun nalus => nalu :: nalus := by
  obtain ⟨hfield, hnalu, -, hlength⟩ := framed_at hdata
  have hpos := List.length_pos_of_ne_nil hne
  rw [avccFrom, dif_pos (by omega), if_neg (by omega)]
  simp only [hfield, toNat_length hlt]
  rw [if_neg (by omega), hnalu]

theorem avccFrom_avcc {data : List UInt8}
    (h : ∀ nalu ∈ nalus, nalu ≠ [] ∧ nalu.length < 2 ^ 32) (hdata : data.drop offset = avcc nalus) :
    avccFrom data offset = .ok nalus := by
  induction nalus generalizing offset with
  | nil =>
    have hend : data.length ≤ offset := List.drop_eq_nil_iff.mp hdata
    rw [avccFrom, dif_neg (by omega)]
  | cons nalu nalus ih =>
    obtain ⟨⟨hne, hlt⟩, hnalus⟩ := List.forall_mem_cons.mp h
    rw [avcc_cons] at hdata
    obtain ⟨-, -, hrest, -⟩ := framed_at hdata
    rw [avccFrom_cons hne hlt hdata, ih hnalus hrest]
    rfl

theorem avcc_of_avccFrom {data : List UInt8}
    (h : avccFrom data offset = .ok nalus) :
    (∀ nalu ∈ nalus, nalu ≠ [] ∧ nalu.length < 2 ^ 32) ∧ data.drop offset = avcc nalus := by
  fun_induction avccFrom data offset generalizing nalus with
  | case1 => cases h
  | case2 => cases h
  | case3 offset hoffset hfour length hlength =>
    rename_i ih
    obtain ⟨rest, hrest, rfl⟩ : ∃ rest, avccFrom data (offset + 4 + length) = .ok rest ∧
        data.extract (offset + 4) (offset + 4 + length) :: rest = nalus := by
      cases hread : avccFrom data (offset + 4 + length) with
      | error e =>
        rw [hread] at h
        cases h
      | ok rest =>
        rw [hread] at h
        cases h
        exact ⟨rest, rfl, rfl⟩
    obtain ⟨hrest, hdata⟩ := ih hrest
    have hsize : (data.extract (offset + 4) (offset + 4 + length)).length = length := by
      rw [List.extract_eq_take_drop, List.length_take, List.length_drop]
      omega
    have hlt : length < 2 ^ 32 := UInt32.toNat_lt _
    refine ⟨List.forall_mem_cons.mpr ⟨⟨?_, ?_⟩, hrest⟩, ?_⟩
    · intro hnil
      rw [hnil, List.length_nil] at hsize
      omega
    · omega
    · have hfield : (data.extract offset (offset + 4)).length = 4 := by
        rw [List.extract_eq_take_drop, List.length_take, List.length_drop]
        omega
      have hbytes : u32ToBE (.ofNat length) = data.extract offset (offset + 4) := by
        show u32ToBE (.ofNat (u32FromBE _).toNat) = _
        rw [UInt32.ofNat_toNat, u32ToBE_fromBE hfield]
      have hafter : data.drop (offset + 4) = (data.drop offset).drop 4 := List.drop_drop.symm
      have hnext : data.drop (offset + 4 + length) = (data.drop (offset + 4)).drop length :=
        List.drop_drop.symm
      rw [avcc_cons, hsize, hbytes, ← hdata, List.extract_eq_take_drop, List.extract_eq_take_drop,
        Nat.add_sub_cancel_left, Nat.add_sub_cancel_left, hnext, List.take_append_drop, hafter,
        List.take_append_drop]
  | case4 offset hoffset =>
    cases h
    exact ⟨List.forall_mem_nil _, List.drop_eq_nil_of_le (by omega)⟩

theorem nonEmpty_eq_ok {nalus' : List (List UInt8)} :
    nonEmpty nalus = .ok nalus' ↔ nalus ≠ [] ∧ nalus = nalus' := by
  rw [nonEmpty]
  split_ifs with h
  · simp [h]
  · simp [h]

/-- **A packet is read as length-prefixed units just when it is a list of them.** -/
theorem parseAvcc_eq_ok {data : List UInt8} :
    parseAvcc data = .ok nalus ↔ nalus ≠ [] ∧ Avcc data nalus := by
  rw [parseAvcc, Avcc]
  constructor
  · intro h
    cases hread : avccFrom data 0 with
    | error e =>
      rw [hread] at h
      cases h
    | ok read =>
      rw [hread] at h
      obtain ⟨hne, rfl⟩ := nonEmpty_eq_ok.mp h
      exact ⟨hne, avcc_of_avccFrom hread⟩
  · rintro ⟨hne, hnalus, hdata⟩
    rw [avccFrom_avcc hnalus (data.drop_zero.trans hdata)]
    exact nonEmpty_eq_ok.mpr ⟨hne, rfl⟩

theorem Avcc.unique {data : List UInt8} {nalus' : List (List UInt8)} (h : Avcc data nalus)
    (h' : Avcc data nalus') : nalus = nalus' := by
  have hread := avccFrom_avcc h.1 (data.drop_zero.trans h.2)
  rw [avccFrom_avcc h'.1 (data.drop_zero.trans h'.2)] at hread
  exact (Except.ok.inj hread).symm

/-! ### Nothing is empty -/

theorem trimmedEnd_le (data : List UInt8) (payloadStart payloadEnd : ℕ) :
    trimmedEnd data payloadStart payloadEnd ≤ payloadEnd := by
  induction payloadEnd with
  | zero => exact le_refl 0
  | succ payloadEnd ih =>
    rw [trimmedEnd]
    split_ifs
    · exact ih.trans (Nat.le_succ _)
    · exact le_refl _

theorem starts_le (data : List UInt8) (index : ℕ) :
    ∀ start ∈ starts data index, start.1 ≤ data.length := by
  fun_induction starts data index with
  | case1 index hindex code _ ih => exact List.forall_mem_cons.mpr ⟨by omega, ih⟩
  | case2 index hindex _ ih => exact ih
  | case3 => exact List.forall_mem_nil _

theorem payloads_ne_nil {data : List UInt8} {starts : List (ℕ × ℕ)}
    (h : ∀ start ∈ starts, start.1 ≤ data.length) : ∀ nalu ∈ payloads data starts, nalu ≠ [] := by
  induction starts with
  | nil => exact List.forall_mem_nil _
  | cons start starts ih =>
    obtain ⟨-, hstarts⟩ := List.forall_mem_cons.mp h
    have hend : (starts.head?.map Prod.fst).getD data.length ≤ data.length := by
      cases starts with
      | nil => exact le_refl _
      | cons next starts => exact hstarts next List.mem_cons_self
    rw [payloads]
    split_ifs with hlt
    · refine List.forall_mem_cons.mpr ⟨?_, ih hstarts⟩
      intro hnil
      have hle := (trimmedEnd_le data start.2 _).trans hend
      rw [List.extract_eq_take_drop, List.take_eq_nil_iff, List.drop_eq_nil_iff] at hnil
      omega
    · exact ih hstarts

theorem ne_nil_of_parseNalUnits {data : List UInt8}
    (h : parseNalUnits data = .ok nalus) : nalus ≠ [] ∧ ∀ nalu ∈ nalus, nalu ≠ [] := by
  rw [parseNalUnits] at h
  cases havcc : parseAvcc data with
  | ok read =>
    rw [havcc] at h
    cases h
    obtain ⟨hne, hnalus⟩ := parseAvcc_eq_ok.mp havcc
    exact ⟨hne, fun nalu hnalu => (hnalus.1 nalu hnalu).1⟩
  | error e =>
    rw [havcc] at h
    obtain ⟨hne, rfl⟩ := nonEmpty_eq_ok.mp h
    exact ⟨hne, payloads_ne_nil (starts_le data 0)⟩

/-! ### Units behind start codes -/

/-- A unit with emulation prevention: none of the bytes that could be a start code, and no zero at
its end. -/
structure NalUnit where
  bytes : List UInt8
  ne_nil : bytes ≠ []
  prevented : ∀ b ≤ 2, ¬ [0, 0, b] <:+: bytes
  last_ne : bytes.getLast? ≠ some 0

/-- The units one after the other, each behind its start code. -/
def annexB (nals : List (StartCode × NalUnit)) : List UInt8 :=
  nals.flatMap fun nal => nal.1.bytes ++ nal.2.bytes

def units (nals : List (StartCode × NalUnit)) : List (List UInt8) := nals.map fun nal => nal.2.bytes

theorem annexB_cons (code : StartCode) (nal : NalUnit) (nals : List (StartCode × NalUnit)) :
    annexB ((code, nal) :: nals) = code.bytes ++ (nal.bytes ++ annexB nals) := by
  rw [annexB, List.flatMap_cons, List.append_assoc, annexB]

theorem startCode_bytes (code : StartCode) (rest : List UInt8) :
    startCode (code.bytes ++ rest) = some code := by
  cases code with
  | four => exact if_pos (List.prefix_append _ _)
  | three =>
    have hfour : ¬ StartCode.four.bytes <+: StartCode.three.bytes ++ rest := by
      intro h
      obtain ⟨-, h⟩ := List.cons_prefix_cons.mp h
      obtain ⟨-, h⟩ := List.cons_prefix_cons.mp h
      obtain ⟨hthird, -⟩ := List.cons_prefix_cons.mp h
      exact absurd hthird (by decide)
    rw [startCode, if_neg hfour, if_pos (List.prefix_append _ _)]

theorem startCode_unit {nal : NalUnit} {rest after : List UInt8} (hne : rest ≠ [])
    (h : rest <:+ nal.bytes) : startCode (rest ++ after) = none := by
  have hprevented : ∀ b : UInt8, b ≤ 2 → ¬ [0, 0, b] <+: rest ++ after := by
    intro b hb hcode
    have hlast : rest.getLast? = nal.bytes.getLast? := by
      obtain ⟨before, hbefore⟩ := h
      rw [← hbefore, List.getLast?_append_of_ne_nil _ hne]
    match rest, hne with
    | [x], _ =>
      obtain ⟨rfl, -⟩ := List.cons_prefix_cons.mp hcode
      exact nal.last_ne hlast.symm
    | [x, y], _ =>
      obtain ⟨-, hcode⟩ := List.cons_prefix_cons.mp hcode
      obtain ⟨rfl, -⟩ := List.cons_prefix_cons.mp hcode
      exact nal.last_ne hlast.symm
    | x :: y :: z :: rest, _ =>
      obtain ⟨hx, hyz⟩ := List.cons_prefix_cons.mp hcode
      obtain ⟨hy, hz⟩ := List.cons_prefix_cons.mp hyz
      obtain ⟨hz, -⟩ := List.cons_prefix_cons.mp hz
      subst hx hy hz
      exact nal.prevented b hb ((List.prefix_append _ rest).isInfix.trans h.isInfix)
  rw [startCode, if_neg, if_neg]
  · exact hprevented 1 (by decide)
  · exact fun h => hprevented 0 (by decide) ((List.prefix_append [0, 0, 0] [1]).trans h)

/-- Where the start codes of the units are. -/
def positions : ℕ → List (StartCode × NalUnit) → List (ℕ × ℕ)
  | _, [] => []
  | index, (code, nal) :: nals =>
    (index, index + code.length) :: positions (index + code.length + nal.bytes.length) nals

theorem starts_of_none {data : List UInt8} {index : ℕ} (h : startCode (data.drop index) = none) :
    starts data index = starts data (index + 1) := by
  rw [starts]
  by_cases hindex : index + 3 ≤ data.length
  · rw [dif_pos hindex, h]
  · rw [dif_neg hindex, starts, dif_neg (by omega)]

theorem starts_unit {nal : NalUnit} {data rest after : List UInt8} {index : ℕ}
    (h : rest <:+ nal.bytes) (hdata : data.drop index = rest ++ after) :
    starts data index = starts data (index + rest.length) := by
  induction rest generalizing index with
  | nil => rfl
  | cons b rest ih =>
    have hnone : startCode (data.drop index) = none := by
      rw [hdata]
      exact startCode_unit (List.cons_ne_nil b rest) h
    have hnext : data.drop (index + 1) = rest ++ after := by
      rw [← List.drop_drop, hdata]
      rfl
    rw [starts_of_none hnone, ih ((List.suffix_cons b rest).trans h) hnext, List.length_cons,
      Nat.add_assoc, Nat.add_comm 1]

theorem starts_annexB {data : List UInt8} {index : ℕ}
    (hdata : data.drop index = annexB nals) : starts data index = positions index nals := by
  induction nals generalizing index with
  | nil =>
    have hend : data.length ≤ index := List.drop_eq_nil_iff.mp hdata
    rw [starts, dif_neg (by omega), positions]
  | cons nal nals ih =>
    obtain ⟨code, nal⟩ := nal
    rw [annexB_cons] at hdata
    have hafter : data.drop (index + code.length) = nal.bytes ++ annexB nals := by
      rw [← List.drop_drop, hdata, StartCode.length, List.drop_left' rfl]
    have hnext : data.drop (index + code.length + nal.bytes.length) = annexB nals := by
      rw [← List.drop_drop, hafter, List.drop_left' rfl]
    have hlength : data.length - index
        = code.length + (nal.bytes.length + (annexB nals).length) := by
      rw [← List.length_drop, hdata, List.length_append, List.length_append, StartCode.length]
    have hcode := code.three_le_length
    rw [starts, dif_pos (by omega), hdata, startCode_bytes, positions]
    simp only
    rw [starts_unit (List.suffix_refl _) hafter, ih hnext]

theorem trimmedEnd_unit {data : List UInt8} {payloadStart payloadEnd : ℕ} (nal : NalUnit)
    (hunit : data.extract payloadStart payloadEnd = nal.bytes) :
    trimmedEnd data payloadStart payloadEnd = payloadEnd := by
  cases payloadEnd with
  | zero => rfl
  | succ payloadEnd =>
    rw [trimmedEnd, if_neg]
    rintro ⟨hlt, hzero⟩
    have hend : payloadEnd < data.length := (List.getElem?_eq_some_iff.mp hzero).1
    have hlength : nal.bytes.length = payloadEnd + 1 - payloadStart := by
      rw [← hunit, List.extract_eq_take_drop, List.length_take, List.length_drop]
      omega
    apply nal.last_ne
    rw [List.getLast?_eq_getElem?, hlength, ← hunit, List.extract_eq_take_drop,
      List.getElem?_take_of_lt (by omega), List.getElem?_drop, ← hzero]
    congr 1
    omega

theorem payloads_annexB {data : List UInt8} {index : ℕ}
    (hdata : data.drop index = annexB nals) (hindex : index ≤ data.length) :
    payloads data (positions index nals) = units nals := by
  induction nals generalizing index with
  | nil => rfl
  | cons nal nals ih =>
    obtain ⟨code, nal⟩ := nal
    rw [annexB_cons] at hdata
    have hafter : data.drop (index + code.length) = nal.bytes ++ annexB nals := by
      rw [← List.drop_drop, hdata, StartCode.length, List.drop_left' rfl]
    have hnext : data.drop (index + code.length + nal.bytes.length) = annexB nals := by
      rw [← List.drop_drop, hafter, List.drop_left' rfl]
    have hlength : data.length - index
        = code.length + (nal.bytes.length + (annexB nals).length) := by
      rw [← List.length_drop, hdata, List.length_append, List.length_append, StartCode.length]
    have hend : ((positions (index + code.length + nal.bytes.length) nals).head?.map
        Prod.fst).getD data.length = index + code.length + nal.bytes.length := by
      cases nals with
      | nil =>
        have hnil : (annexB []).length = 0 := rfl
        rw [hnil] at hlength
        show data.length = _
        omega
      | cons nal' nals => rfl
    have hunit : data.extract (index + code.length) (index + code.length + nal.bytes.length)
        = nal.bytes := by
      rw [List.extract_eq_take_drop, hafter, Nat.add_sub_cancel_left, List.take_left' rfl]
    have hpos := List.length_pos_of_ne_nil nal.ne_nil
    rw [positions, payloads]
    simp only [hend, trimmedEnd_unit nal hunit]
    rw [if_pos (by omega), hunit, ih hnext (by omega)]
    rfl

theorem parseAnnexB_annexB (hne : nals ≠ []) :
    parseAnnexB (annexB nals) = .ok (units nals) := by
  have hstart : (annexB nals).drop 0 = annexB nals := List.drop_zero
  rw [parseAnnexB, starts_annexB hstart, payloads_annexB hstart (Nat.zero_le _)]
  exact nonEmpty_eq_ok.mpr ⟨fun h => hne (List.map_eq_nil_iff.mp h), rfl⟩

/-! ### What a packet becomes -/

theorem reframe_eq_ok {data stream : List UInt8} :
    reframe data = .ok stream ↔
      ∃ nalus, parseNalUnits data = .ok nalus ∧ (∀ nalu ∈ nalus, nalu.length < 2 ^ 32) ∧
        stream = avcc nalus := by
  rw [reframe]
  cases hparse : parseNalUnits data with
  | error e =>
    constructor
    · intro h
      cases h
    · rintro ⟨_, h, -⟩
      cases h
  | ok nalus =>
    constructor
    · intro h
      have hlengths := lengths_of_appendAvccNalus h
      have hstream := (appendAvccNalus_eq hlengths []).symm.trans h
      exact ⟨nalus, rfl, hlengths, (Except.ok.inj hstream).symm⟩
    · rintro ⟨_, hsame, hlengths, rfl⟩
      cases hsame
      exact appendAvccNalus_eq hlengths []

theorem parseNalUnits_of_avcc {data : List UInt8} (hne : nalus ≠ [])
    (h : Avcc data nalus) : parseNalUnits data = .ok nalus := by
  rw [parseNalUnits, parseAvcc_eq_ok.mpr ⟨hne, h⟩]

theorem parseNalUnits_of_not_avcc {data : List UInt8}
    (h : ∀ nalus, nalus ≠ [] → ¬ Avcc data nalus) : parseNalUnits data = parseAnnexB data := by
  rw [parseNalUnits]
  cases hparse : parseAvcc data with
  | error e => rfl
  | ok nalus =>
    obtain ⟨hne, hnalus⟩ := parseAvcc_eq_ok.mp hparse
    exact absurd hnalus (h nalus hne)

theorem units_ne_nil (hne : nals ≠ []) : units nals ≠ [] :=
  fun h => hne (List.map_eq_nil_iff.mp h)

theorem forall_units {p : List UInt8 → Prop} :
    (∀ nalu ∈ units nals, p nalu) ↔ ∀ nal ∈ nals, p nal.2.bytes := List.forall_mem_map

theorem annexB_ne_nil (hne : nals ≠ []) : annexB nals ≠ [] := by
  intro h
  cases nals with
  | nil => exact hne rfl
  | cons nal nals =>
    rw [annexB_cons] at h
    exact nal.2.ne_nil (List.append_eq_nil_iff.mp (List.append_eq_nil_iff.mp h).2).1

theorem avcc_units
    (h : ∀ nal ∈ nals, nal.2.bytes.length < 2 ^ 32) : Avcc (avcc (units nals)) (units nals) :=
  ⟨forall_units.mpr fun nal hnal => ⟨nal.2.ne_nil, h nal hnal⟩, rfl⟩

theorem reframe_nil (stream : List UInt8) : reframe [] ≠ .ok stream := by
  intro h
  obtain ⟨nalus, hparse, -, -⟩ := reframe_eq_ok.mp h
  have hannexB : parseNalUnits [] = parseAnnexB [] := by
    refine parseNalUnits_of_not_avcc fun nalus hne havcc => hne ?_
    exact havcc.unique ⟨List.forall_mem_nil _, rfl⟩
  rw [hannexB, parseAnnexB, starts, dif_neg (by decide)] at hparse
  cases hparse

theorem parseNalUnits_annexB (hne : nals ≠ [])
    (h : ∀ others, Avcc (annexB nals) others → others = units nals) :
    parseNalUnits (annexB nals) = .ok (units nals) := by
  by_cases havcc : ∃ others, others ≠ [] ∧ Avcc (annexB nals) others
  · obtain ⟨others, hothers, havcc⟩ := havcc
    rw [parseNalUnits_of_avcc hothers havcc, h others havcc]
  · rw [parseNalUnits_of_not_avcc fun others hothers havcc' => havcc ⟨others, hothers, havcc'⟩,
      parseAnnexB_annexB hne]

/-- **Units are kept, in their order, behind start codes unless the bytes are other units behind
lengths as well, and always behind lengths.** -/
theorem reframe_iff (nals : List (StartCode × NalUnit)) :
    ((∃ stream, reframe (annexB nals) = .ok stream ∧ Avcc stream (units nals)) ↔
      nals ≠ [] ∧ (∀ nal ∈ nals, nal.2.bytes.length < 2 ^ 32) ∧
        ∀ others, Avcc (annexB nals) others → others = units nals) ∧
    ((∃ stream, Avcc stream (units nals) ∧ reframe stream = .ok stream) ↔
      nals ≠ [] ∧ ∀ nal ∈ nals, nal.2.bytes.length < 2 ^ 32) := by
  have hbounded : ∀ {stream}, Avcc stream (units nals) →
      ∀ nal ∈ nals, nal.2.bytes.length < 2 ^ 32 := fun havcc nal hnal =>
    (forall_units.mp havcc.1 nal hnal).2
  constructor
  · constructor
    · rintro ⟨stream, hreframe, havcc⟩
      have hne : nals ≠ [] := by
        rintro rfl
        exact reframe_nil stream hreframe
      refine ⟨hne, hbounded havcc, fun others hothers => ?_⟩
      have hsome : others ≠ [] := by
        rintro rfl
        exact annexB_ne_nil hne hothers.2
      obtain ⟨nalus, hparse, -, rfl⟩ := reframe_eq_ok.mp hreframe
      cases (parseNalUnits_of_avcc hsome hothers).symm.trans hparse
      exact Avcc.unique ⟨hothers.1, rfl⟩ havcc
    · rintro ⟨hne, hlengths, hothers⟩
      have hparse := parseNalUnits_annexB hne hothers
      exact ⟨avcc (units nals),
        reframe_eq_ok.mpr ⟨units nals, hparse, forall_units.mpr hlengths, rfl⟩, avcc_units hlengths⟩
  · constructor
    · rintro ⟨stream, havcc, hreframe⟩
      refine ⟨?_, hbounded havcc⟩
      rintro rfl
      rw [havcc.2] at hreframe
      exact reframe_nil _ hreframe
    · rintro ⟨hne, hlengths⟩
      have havcc := avcc_units hlengths
      have hparse := parseNalUnits_of_avcc (units_ne_nil hne) havcc
      exact ⟨avcc (units nals), havcc,
        reframe_eq_ok.mpr ⟨units nals, hparse, forall_units.mpr hlengths, rfl⟩⟩

/-- The slice of an IDR picture, 358 bytes long. -/
def slice : NalUnit where
  bytes := 0x65 :: List.replicate 357 0xaa
  ne_nil := List.cons_ne_nil _ _
  prevented b hb h := by
    obtain ⟨before, after, h⟩ := h
    have hmem : (0 : UInt8) ∈ (0x65 : UInt8) :: List.replicate 357 0xaa := by
      rw [← h]
      simp
    rcases List.mem_cons.mp hmem with h | h
    · exact absurd h (by decide)
    · exact absurd (List.eq_of_mem_replicate h) (by decide)
  last_ne h := by
    have hmem := List.mem_of_getLast? h
    rcases List.mem_cons.mp hmem with h | h
    · exact absurd h (by decide)
    · exact absurd (List.eq_of_mem_replicate h) (by decide)

theorem length_slice : slice.bytes.length = 358 := by
  show (0x65 :: List.replicate 357 (0xaa : UInt8)).length = 358
  rw [List.length_cons, List.length_replicate]

/-- Behind a start code of three bytes, the header of the slice is read as the end of its length. -/
theorem slice_header_lost :
    reframe (annexB [(.three, slice)]) = .ok (avcc [List.replicate 357 0xaa]) ∧
      ¬ ∃ stream, reframe (annexB [(.three, slice)]) = .ok stream ∧
        Avcc stream (units [(.three, slice)]) := by
  have hlength : (List.replicate 357 (0xaa : UInt8)).length = 357 := List.length_replicate
  have havcc : Avcc (annexB [(.three, slice)]) [List.replicate 357 0xaa] := by
    constructor
    · rintro nalu hnalu
      rw [List.mem_singleton.mp hnalu, hlength]
      exact ⟨by decide, by decide⟩
    · rw [avcc_cons, hlength, annexB_cons]
      rfl
  have hreframe : reframe (annexB [(.three, slice)]) = .ok (avcc [List.replicate 357 0xaa]) :=
    reframe_eq_ok.mpr ⟨_, parseNalUnits_of_avcc (List.cons_ne_nil _ _) havcc,
      fun nalu hnalu => (havcc.1 nalu hnalu).2, rfl⟩
  refine ⟨hreframe, ?_⟩
  rintro ⟨stream, hstream, hunits⟩
  cases hreframe.symm.trans hstream
  have hsame := Avcc.unique ⟨havcc.1, rfl⟩ hunits
  rw [units, List.map_cons, List.map_nil, List.singleton_inj] at hsame
  have hlengths := congrArg List.length hsame
  rw [hlength, length_slice] at hlengths
  exact absurd hlengths (by decide)

end MahoRD.Bitstream
