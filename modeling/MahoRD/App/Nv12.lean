/-
MahoRD/App/Nv12.lean

A screenshot's NV12 planes turned into RGB (`nv12_to_rgb`): a plane of luma, one byte a pixel, and
below it one of chroma, two bytes for each two by two pixels.  The planes are packed in one buffer.
-/
import MahoRD.Lib.FloatBounds
import MahoRD.Lib.Panics
import MahoRD.Lib.Chunks

namespace MahoRD.Nv12

open Panics Floats

/-! ### One pixel -/

/-- `f32::clamp` -/
def clamp (value low high : Float32) : Float32 :=
  let raised := if value < low then low else value
  if high < raised then high else raised

/-- Red, green and blue, before they are stored in a byte each. -/
def channels (yByte uByte vByte : UInt8) : List Float32 :=
  let yVal := yByte.toFloat32
  let uVal := uByte.toFloat32 - 128.0
  let vVal := vByte.toFloat32 - 128.0
  [clamp (yVal + 1.5748 * vVal) 0.0 255.0,
    clamp (yVal - 0.1873 * uVal - 0.4681 * vVal) 0.0 255.0,
    clamp (yVal + 1.8556 * uVal) 0.0 255.0]

variable {ε : Type}

def pixel (nv12Buf : List UInt8) (yRowStart uvRowStart x : ℕ) : Except (Halt ε) (List UInt8) := do
  let yByte ← index nv12Buf (yRowStart + x)
  let uvOffset := uvRowStart + x / 2 * 2
  let uByte ← index nv12Buf uvOffset
  let vByte ← index nv12Buf (uvOffset + 1)
  return (channels yByte uByte vByte).map Float32.toUInt8

/-! ### The picture -/

/-- The loops over rows and columns, for words that hold `usizeMax`. -/
def convertPlanes (usizeMax : ℕ) (allocates : ℕ → Bool) (w h capacity : ℕ)
    (nv12Buf : List UInt8) : Except (Halt Refused) (List UInt8) := do
  withCapacity allocates capacity
  let uvPlaneStart ← fits usizeMax (w * h)
  let rows ← (List.range h).mapM fun y => do
    let yRowStart ← fits usizeMax (y * w)
    let uvRowStart ← fits usizeMax (uvPlaneStart + y / 2 * w)
    let pixels ← (List.range w).mapM (pixel nv12Buf yRowStart uvRowStart)
    return pixels.flatten
  return rows.flatten

/-- `nv12_to_rgb` -/
def nv12ToRgb (usizeMax : ℕ) (allocates : ℕ → Bool) (width height : UInt32)
    (nv12Buf : List UInt8) : Except (Halt Refused) (Option (List UInt8)) :=
  let w := width.toNat
  let h := height.toNat
  if w = 0 ∨ h = 0 ∨ w % 2 ≠ 0 ∨ h % 2 ≠ 0 then return none
  else match checkedMul usizeMax w h with
    | none => return none
    | some luma =>
      match checkedMul usizeMax luma 3 with
      | none => return none
      | some triple =>
        if nv12Buf.length < triple / 2 then return none
        else return some (← convertPlanes usizeMax allocates w h triple nv12Buf)

/-! ### The channels stay in range -/

theorem bounded_byte (n : UInt8) : Bounded32 511 n.toFloat32 := by
  have hn : (n.toNat : ℚ) ≤ 255 := by exact_mod_cast Nat.le_of_lt_succ n.toNat_lt
  exact (bounded32_toFloat32 n (by linarith [top_binary32])).mono (by linarith)

theorem bounded_chroma (n : UInt8) : Bounded32 1279 (n.toFloat32 - 128.0) := by
  have hmiddle : Bounded32 128 128.0 :=
    .literal (s := .positive) (m := 8388608) (e := -16) (by rfl) (by decide) (by norm_num)
  exact ((bounded_byte n).sub hmiddle (by linarith [top_binary32])).mono (by norm_num)

theorem bounded_weighted {k chroma : Float32} (hk : Bounded32 2 k) (h : Bounded32 1279 chroma) :
    Bounded32 5117 (k * chroma) :=
  (hk.mul h (by linarith [top_binary32])).mono (by norm_num)

theorem clamp_mem {b : ℚ} {value : Float32} (h : Bounded32 b value) :
    0.0 ≤ clamp value 0.0 255.0 ∧ clamp value 0.0 255.0 ≤ 255.0 := by
  have hlow : Bounded32 0 0.0 := .zero .positive le_rfl
  have hhigh : Bounded32 255 255.0 :=
    .literal (s := .positive) (m := 16711680) (e := -16) (by rfl) (by decide) (by norm_num)
  have hordered : (0.0 : Float32) ≤ 255.0 := by decide
  rw [clamp]
  by_cases hneg : value < 0.0
  · rw [if_pos hneg, if_neg (by decide)]
    exact ⟨by decide, hordered⟩
  · rw [if_neg hneg]
    split
    · exact ⟨hordered, by decide⟩
    next hsmall => exact ⟨h.le_of_not_lt hlow hneg, hhigh.le_of_not_lt h hsmall⟩

theorem channels_mem (yByte uByte vByte : UInt8) :
    ∀ c ∈ channels yByte uByte vByte, (0.0 : Float32) ≤ c ∧ c ≤ 255.0 := by
  have hy := bounded_byte yByte
  have hu := bounded_chroma uByte
  have hv := bounded_chroma vByte
  have hred := bounded_weighted (k := 1.5748)
    (.literal (s := .positive) (m := 13210380) (e := -23) (by rfl) (by decide) (by norm_num)) hv
  have hgreen := bounded_weighted (k := 0.1873)
    (.literal (s := .positive) (m := 12569490) (e := -26) (by rfl) (by decide) (by norm_num)) hu
  have hgreen' := bounded_weighted (k := 0.4681)
    (.literal (s := .positive) (m := 15706830) (e := -25) (by rfl) (by decide) (by norm_num)) hv
  have hblue := bounded_weighted (k := 1.8556)
    (.literal (s := .positive) (m := 15565901) (e := -23) (by rfl) (by decide) (by norm_num)) hu
  have htop := top_binary32
  have hdiff := hy.sub hgreen (by linarith)
  simp only [channels, List.mem_cons, List.not_mem_nil, or_false]
  rintro c (rfl | rfl | rfl)
  · exact clamp_mem (hy.add hred (by linarith))
  · exact clamp_mem (hdiff.sub hgreen' (by linarith))
  · exact clamp_mem (hy.add hblue (by linarith))

/-! ### The indices stay in the buffer -/

/-- The checks at the start. -/
structure Passes (usizeMax : ℕ) (width height : UInt32) (nv12Buf : List UInt8) : Prop where
  width_pos : 0 < width.toNat
  height_pos : 0 < height.toNat
  width_even : width.toNat % 2 = 0
  height_even : height.toNat % 2 = 0
  small : width.toNat * height.toNat * 3 ≤ usizeMax
  long : width.toNat * height.toNat * 3 / 2 ≤ nv12Buf.length

/-- The three bytes of a pixel come from its luma and its chroma. -/
def Converted (width height : UInt32) (nv12Buf : List UInt8) (y x : ℕ) (bytes : List UInt8) :
    Prop :=
  let w := width.toNat
  let chroma := w * height.toNat + y / 2 * w + x / 2 * 2
  ∃ yByte uByte vByte, nv12Buf[y * w + x]? = some yByte ∧ nv12Buf[chroma]? = some uByte ∧
    nv12Buf[chroma + 1]? = some vByte ∧ bytes = (channels yByte uByte vByte).map Float32.toUInt8

variable {usizeMax : ℕ} {width height : UInt32} {nv12Buf : List UInt8} {x y : ℕ}

theorem luma_lt {w h : ℕ} (hx : x < w) (hy : y < h) : y * w + x < w * h := by
  have hrow := Nat.mul_le_mul_right w (Nat.succ_le_of_lt hy)
  rw [Nat.succ_mul, Nat.mul_comm h] at hrow
  omega

theorem chroma_lt {w h : ℕ} (hx : x < w) (hy : y < h) (hw : w % 2 = 0) (hh : h % 2 = 0) :
    w * h + y / 2 * w + x / 2 * 2 + 1 < w * h * 3 / 2 := by
  obtain ⟨half, rfl⟩ := Nat.dvd_of_mod_eq_zero hh
  have hrow := Nat.mul_le_mul_right w (show y / 2 + 1 ≤ half by omega)
  have hplane : w * (2 * half) * 3 / 2 = w * (2 * half) + half * w := by
    have : w * (2 * half) * 3 = (w * (2 * half) + half * w) * 2 := by ring
    rw [this, Nat.mul_div_cancel _ two_pos]
  rw [Nat.succ_mul] at hrow
  omega

theorem pixel_converted (h : Passes usizeMax width height nv12Buf) (hy : y < height.toNat)
    (hx : x < width.toNat) :
    ∃ bytes, (pixel nv12Buf (y * width.toNat)
        (width.toNat * height.toNat + y / 2 * width.toNat) x : Except (Halt ε) _) = .ok bytes ∧
      Converted width height nv12Buf y x bytes := by
  have hluma := luma_lt hx hy
  have hchroma := chroma_lt hx hy h.width_even h.height_even
  have hlong := h.long
  have hy' : y * width.toNat + x < nv12Buf.length := by omega
  have hv : width.toNat * height.toNat + y / 2 * width.toNat + x / 2 * 2 + 1 < nv12Buf.length := by
    omega
  have hu := Nat.lt_of_succ_lt hv
  refine ⟨_, ?_, _, _, _, List.getElem?_eq_getElem hy', List.getElem?_eq_getElem hu,
    List.getElem?_eq_getElem hv, rfl⟩
  rw [pixel, index_of_lt hy', ok_bind]
  dsimp only
  rw [index_of_lt hu, ok_bind, index_of_lt hv, ok_bind]
  rfl

theorem Converted.length_eq {bytes : List UInt8} (h : Converted width height nv12Buf y x bytes) :
    bytes.length = 3 := by
  obtain ⟨_, _, _, -, -, -, rfl⟩ := h
  rfl

/-- A row of the picture. -/
def RowConverted (width height : UInt32) (nv12Buf : List UInt8) (y : ℕ) (row : List UInt8) : Prop :=
  row.length = width.toNat * 3 ∧ ∀ x < width.toNat, ∃ bytes,
    Converted width height nv12Buf y x bytes ∧ ∀ i < 3, row[x * 3 + i]? = bytes[i]?

theorem row_converted (h : Passes usizeMax width height nv12Buf) (hy : y < height.toNat) :
    ∃ row, (do
        let pixels ← (List.range width.toNat).mapM (pixel nv12Buf (y * width.toNat)
          (width.toNat * height.toNat + y / 2 * width.toNat))
        return pixels.flatten : Except (Halt ε) _) = .ok row ∧
      RowConverted width height nv12Buf y row := by
  obtain ⟨pixels, hpixels, hlen, hconv⟩ := mapM_range (n := width.toNat) (f := pixel (ε := ε)
    nv12Buf (y * width.toNat) (width.toNat * height.toNat + y / 2 * width.toNat))
    fun x hx => pixel_converted h hy hx
  have hthree : ∀ piece ∈ pixels, piece.length = 3 := by
    intro piece hmem
    obtain ⟨x, hx⟩ := List.mem_iff_getElem?.mp hmem
    exact (hconv x piece hx).length_eq
  refine ⟨pixels.flatten, by rw [hpixels]; rfl, ?_, fun x hx => ?_⟩
  · rw [Chunks.length_flatten hthree, hlen]
  · have hx' : x < pixels.length := hlen ▸ hx
    refine ⟨pixels[x], hconv x _ (List.getElem?_eq_getElem hx'), fun i hi => ?_⟩
    rw [Chunks.getElem?_flatten hthree hi, List.getElem?_eq_getElem hx']
    rfl

theorem round_converted (h : Passes usizeMax width height nv12Buf) (hy : y < height.toNat) :
    ∃ row, (do
        let yRowStart ← fits usizeMax (y * width.toNat)
        let uvRowStart ← fits usizeMax (width.toNat * height.toNat + y / 2 * width.toNat)
        let pixels ← (List.range width.toNat).mapM (pixel nv12Buf yRowStart uvRowStart)
        return pixels.flatten : Except (Halt ε) _) = .ok row ∧
      RowConverted width height nv12Buf y row := by
  have hluma := luma_lt h.width_pos hy
  have hchroma := chroma_lt h.width_pos hy h.width_even h.height_even
  have hsmall := h.small
  rw [fits_of_le (by omega), ok_bind, fits_of_le (by omega), ok_bind]
  exact row_converted h hy

theorem not_refused (h : Passes usizeMax width height nv12Buf) :
    ¬ (width.toNat = 0 ∨ height.toNat = 0 ∨ width.toNat % 2 ≠ 0 ∨ height.toNat % 2 ≠ 0) := by
  have hw := h.width_pos
  have hh := h.height_pos
  have hw' := h.width_even
  have hh' := h.height_even
  omega

theorem nv12ToRgb_of_passes (allocates : ℕ → Bool) (h : Passes usizeMax width height nv12Buf) :
    nv12ToRgb usizeMax allocates width height nv12Buf = (do
      let rgb ← convertPlanes usizeMax allocates width.toNat height.toNat
        (width.toNat * height.toNat * 3) nv12Buf
      return some rgb) := by
  have hsmall := h.small
  rw [nv12ToRgb]
  rw [if_neg (not_refused h), checkedMul_eq_some.mpr ⟨by omega, rfl⟩]
  dsimp only
  rw [checkedMul_eq_some.mpr ⟨h.small, rfl⟩]
  exact if_neg h.long.not_gt

theorem convertPlanes_converted (allocates : ℕ → Bool)
    (h : Passes usizeMax width height nv12Buf) {capacity : ℕ} (hroom : allocates capacity = true) :
    ∃ rows : List (List UInt8),
      convertPlanes usizeMax allocates width.toNat height.toNat capacity nv12Buf
        = .ok rows.flatten ∧ rows.length = height.toNat ∧
      ∀ y row, rows[y]? = some row → RowConverted width height nv12Buf y row := by
  obtain ⟨rows, hrows, hlen, hconv⟩ := mapM_range fun y (hy : y < height.toNat) =>
    round_converted (ε := Refused) h hy
  have hsmall := h.small
  refine ⟨rows, ?_, hlen, hconv⟩
  rw [convertPlanes, withCapacity, if_pos hroom, ok_bind, fits_of_le (by omega), ok_bind, hrows]
  rfl

theorem nv12ToRgb_of_not_passes (allocates : ℕ → Bool)
    (h : ¬ Passes usizeMax width height nv12Buf) :
    nv12ToRgb usizeMax allocates width height nv12Buf = .ok none := by
  rw [nv12ToRgb]
  split_ifs with hshape
  · rfl
  · split
    · rfl
    next luma hluma =>
      split
      · rfl
      next triple htriple =>
        rw [checkedMul_eq_some] at hluma htriple
        obtain ⟨-, rfl⟩ := hluma
        obtain ⟨hsmall, rfl⟩ := htriple
        split
        · rfl
        next hlong =>
          exact absurd ⟨by omega, by omega, by omega, by omega, hsmall, not_lt.mp hlong⟩ h

/-- **NV12 conversion is in bounds**: what fails the checks is refused, and what passes them is
read inside the buffer and becomes three bytes a pixel, each a channel between 0 and 255. -/
theorem nv12_in_bounds (usizeMax : ℕ) (allocates : ℕ → Bool) (width height : UInt32)
    (nv12Buf : List UInt8) :
    (¬ Passes usizeMax width height nv12Buf →
      nv12ToRgb usizeMax allocates width height nv12Buf = .ok none) ∧
    (Passes usizeMax width height nv12Buf →
      if allocates (width.toNat * height.toNat * 3) then
        ∃ rgb, nv12ToRgb usizeMax allocates width height nv12Buf = .ok (some rgb) ∧
          rgb.length = 3 * width.toNat * height.toNat ∧
          ∀ y < height.toNat, ∀ x < width.toNat, ∃ bytes,
            Converted width height nv12Buf y x bytes ∧
            ∀ i < 3, rgb[(y * width.toNat + x) * 3 + i]? = bytes[i]?
      else nv12ToRgb usizeMax allocates width height nv12Buf = .error (.error .refused)) ∧
    ∀ yByte uByte vByte, ∀ c ∈ channels yByte uByte vByte, (0.0 : Float32) ≤ c ∧ c ≤ 255.0 := by
  refine ⟨nv12ToRgb_of_not_passes allocates, fun hpasses => ?_, channels_mem⟩
  rw [nv12ToRgb_of_passes allocates hpasses]
  split
  next hroom =>
    obtain ⟨rows, hrun, hlen, hconv⟩ := convertPlanes_converted allocates hpasses hroom
    have hrow : ∀ row ∈ rows, row.length = width.toNat * 3 := by
      intro row hmem
      obtain ⟨y, hy⟩ := List.mem_iff_getElem?.mp hmem
      exact (hconv y row hy).1
    refine ⟨rows.flatten, by rw [hrun]; rfl, ?_, fun y hy x hx => ?_⟩
    · rw [Chunks.length_flatten hrow, hlen]
      ring
    · have hy' : y < rows.length := hlen ▸ hy
      obtain ⟨bytes, hbytes, heq⟩ := (hconv y _ (List.getElem?_eq_getElem hy')).2 x hx
      refine ⟨bytes, hbytes, fun i hi => ?_⟩
      have hsplit : (y * width.toNat + x) * 3 + i = y * (width.toNat * 3) + (x * 3 + i) := by ring
      rw [hsplit, Chunks.getElem?_flatten hrow (by omega), List.getElem?_eq_getElem hy',
        ← heq i hi]
      rfl
  next hroom =>
    rw [convertPlanes, withCapacity, if_neg hroom]
    rfl

/-- Two pixels by two. -/
theorem nv12_in_bounds_square :
    ∃ rgb, nv12ToRgb (2 ^ 64 - 1) (fun _ => true) 2 2 [16, 16, 16, 16, 128, 128]
      = .ok (some rgb) ∧ rgb.length = 12 := by
  obtain ⟨rgb, hrun, hlen, -⟩ := (nv12_in_bounds (2 ^ 64 - 1) (fun _ => true) 2 2
    [16, 16, 16, 16, 128, 128]).2.1 ⟨by decide, by decide, by decide, by decide, by decide,
      by decide⟩
  exact ⟨rgb, hrun, hlen⟩

end MahoRD.Nv12
