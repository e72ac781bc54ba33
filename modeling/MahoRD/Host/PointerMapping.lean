/-
MahoRD/Host/PointerMapping.lean

Where a position of the wire ends up on the desktop: `map_normalized_to_output` for the device that
`LinuxInputInjector` makes (`maho-host/src/inject_linux.rs`), with the geometry that
`output_geometry_from_monitors` (`session.rs`) finds; `normalize_absolute_pointer`
(`windows_logic.rs`); `InputInjector::map_coordinates` (`inject_macos.rs`).

Positions and sizes are exact numbers, integers are as wide as in the code.  Nothing that is rounded
is negative, so that halves go up.  Injectors drop positions that are not finite.  A desktop is
seen by pixels: a unit of the Windows axis stands for the pixel nearest to it, a point of a Mac for
the pixel it lies in.
-/
import MahoRD.Lib.Axis

namespace MahoRD.PointerMapping

/-- The pixels of a display. -/
structure Rect where
  x : ℤ
  y : ℤ
  width : ℕ
  height : ℕ
  width_pos : 0 < width
  height_pos : 0 < height

namespace Rect

def right (r : Rect) : ℤ := r.x + r.width - 1

def bottom (r : Rect) : ℤ := r.y + r.height - 1

def Has (r : Rect) (p : ℤ × ℤ) : Prop :=
  (r.x ≤ p.1 ∧ p.1 ≤ r.right) ∧ r.y ≤ p.2 ∧ p.2 ≤ r.bottom

end Rect

/-- `clamp(0.0, 1.0)` -/
def clamp (p : ℚ) : ℚ := max 0 (min p 1)

/-- The least number, of at least one. -/
def least (l : List ℤ) : ℤ := l.min?.getD 0

def greatest (l : List ℤ) : ℤ := l.max?.getD 0

/-! ### Linux -/

/-- A monitor as the compositor lists it. -/
structure Monitor where
  disabled : Option Bool
  name : Option String
  x : Option ℤ
  y : Option ℤ
  width : Option ℚ
  height : Option ℚ
  scale : Option ℚ
  transform : Option ℕ
  focused : Option Bool

structure MonitorInfo where
  name : String
  rect : Rect
  focused : Bool

structure OutputGeometry where
  x : ℤ
  y : ℤ
  width : ℕ
  height : ℕ
  desktopX : ℤ
  desktopY : ℤ
  desktopWidth : ℕ
  desktopHeight : ℕ

def asI32 (n : ℤ) : ℤ := n.bmod (2 ^ 32)

def asU32 (n : ℤ) : ℕ := (n % 2 ^ 32).toNat

/-- A float does not wrap around. -/
def floatAsU32 (n : ℤ) : ℕ := min n.toNat (2 ^ 32 - 1)

def logicalSize (mode scale : ℚ) : ℕ := max (floatAsU32 (round (mode / scale))) 1

theorem logicalSize_pos (mode scale : ℚ) : 0 < logicalSize mode scale := Nat.le_max_right _ _

/-- An enabled monitor with a size, turned and scaled. -/
def monitorInfo (item : Monitor) : Option MonitorInfo :=
  if item.disabled.getD false then none
  else
    let width := item.width.getD 0
    let height := item.height.getD 0
    let scale := item.scale.getD 1
    if width ≤ 0 ∨ height ≤ 0 then none
    else
      let mode := if item.transform.getD 0 ∈ [1, 3, 5, 7] then (height, width) else (width, height)
      let effectiveScale := if 0 < scale then scale else 1
      some {
        name := item.name.getD ""
        rect := {
          x := asI32 (item.x.getD 0)
          y := asI32 (item.y.getD 0)
          width := logicalSize mode.1 effectiveScale
          height := logicalSize mode.2 effectiveScale
          width_pos := logicalSize_pos _ _
          height_pos := logicalSize_pos _ _ }
        focused := item.focused.getD false }

def activeMonitors (monitors : List Monitor) : List MonitorInfo := monitors.filterMap monitorInfo

def target (active : List MonitorInfo) (name : Option String) : Option MonitorInfo :=
  match name with
  | some name => active.find? (·.name = name)
  | none => (active.find? (·.focused)).or active.head?

/-- The geometry of an output among these monitors. -/
def geometry (active : List MonitorInfo) (target : MonitorInfo) : OutputGeometry :=
  let desktopX := least (active.map (·.rect.x))
  let desktopY := least (active.map (·.rect.y))
  let desktopMaxX := greatest (active.map fun m => m.rect.x + m.rect.width)
  let desktopMaxY := greatest (active.map fun m => m.rect.y + m.rect.height)
  { x := target.rect.x
    y := target.rect.y
    width := target.rect.width
    height := target.rect.height
    desktopX := desktopX
    desktopY := desktopY
    desktopWidth := asU32 (max (desktopMaxX - desktopX) 1)
    desktopHeight := asU32 (max (desktopMaxY - desktopY) 1) }

def outputGeometryFromMonitors (monitors : List Monitor) (name : Option String) :
    Option OutputGeometry :=
  (target (activeMonitors monitors) name).map (geometry (activeMonitors monitors))

def evdevAbsAxisMax (dimension : ℕ) : ℤ := asI32 (dimension - 1 : ℕ)

def mapNormalizedToOutput (normalizedX normalizedY : ℚ) (g : OutputGeometry) : ℕ × ℕ :=
  let x := clamp normalizedX * (g.width - 1 : ℕ)
  -- the wire has its y upside down
  let y := clamp (1 - normalizedY) * (g.height - 1 : ℕ)
  (asU32 (max (g.x - g.desktopX + round x) 0), asU32 (max (g.y - g.desktopY + round y) 0))

/-- What the device is told. -/
def evdevEvent (g : OutputGeometry) (x y : ℚ) : ℤ × ℤ :=
  let pixel := mapNormalizedToOutput x y g
  (asI32 pixel.1, asI32 pixel.2)

/-- An axis begins where the desktop does. -/
def linuxPoint (g : OutputGeometry) (x y : ℚ) : ℤ × ℤ :=
  (g.desktopX + (evdevEvent g x y).1, g.desktopY + (evdevEvent g x y).2)

def InAxes (g : OutputGeometry) (value : ℤ × ℤ) : Prop :=
  (0 ≤ value.1 ∧ value.1 ≤ evdevAbsAxisMax g.desktopWidth) ∧
    0 ≤ value.2 ∧ value.2 ≤ evdevAbsAxisMax g.desktopHeight

/-! ### Windows -/

def absoluteAxisMax : ℕ := 65535

/-- `desktop` is what the system calls the virtual screen. -/
def normalizeAbsolutePointer (normalizedX normalizedY : ℚ) (target desktop : Rect) : ℤ × ℤ :=
  if desktop.width ≤ 1 ∨ desktop.height ≤ 1 then (0, 0)
  else
    let localX := clamp normalizedX * (target.width - 1 : ℕ)
    let localY := (1 - clamp normalizedY) * (target.height - 1 : ℕ)
    let desktopX := max 0 (min (target.x + localX - desktop.x) (desktop.width - 1 : ℕ))
    let desktopY := max 0 (min (target.y + localY - desktop.y) (desktop.height - 1 : ℕ))
    (Axis.unit absoluteAxisMax (desktop.width - 1) desktopX,
      Axis.unit absoluteAxisMax (desktop.height - 1) desktopY)

def windowsPoint (target desktop : Rect) (x y : ℚ) : ℤ × ℤ :=
  let value := normalizeAbsolutePointer x y target desktop
  (desktop.x + Axis.pixel absoluteAxisMax (desktop.width - 1) value.1,
    desktop.y + Axis.pixel absoluteAxisMax (desktop.height - 1) value.2)

/-- The virtual screen, the least rectangle around the displays. -/
structure VirtualScreen (displays : List Rect) (desktop : Rect) : Prop where
  x : desktop.x = least (displays.map Rect.x)
  y : desktop.y = least (displays.map Rect.y)
  right : desktop.right = greatest (displays.map Rect.right)
  bottom : desktop.bottom = greatest (displays.map Rect.bottom)

/-! ### macOS -/

def mapToHostPixels (normalizedX normalizedY hostWidth hostHeight : ℚ) : ℚ × ℚ :=
  (normalizedX * hostWidth, normalizedY * hostHeight)

def mapCoordinates (host : Rect) (x y : ℚ) : ℚ × ℚ :=
  let point := mapToHostPixels (clamp x) (clamp (1 - y)) host.width host.height
  (point.1 + host.x, point.2 + host.y)

def macPoint (host : Rect) (x y : ℚ) : ℤ × ℤ :=
  (⌊(mapCoordinates host x y).1⌋, ⌊(mapCoordinates host x y).2⌋)

/-! ### On the display -/

/-- Positions with this property reach this display and nothing else, the corners of the wire its
corner pixels, and what is further right or down on the wire is nowhere further left or up. -/
structure OnDisplay (r : Rect) (point : ℚ → ℚ → ℤ × ℤ) (Sent : ℚ → ℚ → Prop) : Prop where
  inside : ∀ x y, Sent x y → r.Has (point x y)
  monotone : ∀ x y x' y', x ≤ x' → y' ≤ y →
    (point x y).1 ≤ (point x' y').1 ∧ (point x y).2 ≤ (point x' y').2
  topLeft : Sent 0 1 → point 0 1 = (r.x, r.y)
  topRight : Sent 1 1 → point 1 1 = (r.right, r.y)
  bottomLeft : Sent 0 0 → point 0 0 = (r.x, r.bottom)
  bottomRight : Sent 1 0 → point 1 0 = (r.right, r.bottom)

def Always : ℚ → ℚ → Prop := fun _ _ => True

theorem clamp_mono {p q : ℚ} (h : p ≤ q) : clamp p ≤ clamp q :=
  max_le_max_left 0 (min_le_min_right 1 h)

theorem clamp_nonneg (p : ℚ) : 0 ≤ clamp p := le_max_left _ _

theorem clamp_le_one (p : ℚ) : clamp p ≤ 1 := max_le zero_le_one (min_le_right p 1)

@[simp] theorem clamp_zero : clamp 0 = 0 := by norm_num [clamp]

@[simp] theorem clamp_one : clamp 1 = 1 := by norm_num [clamp]

theorem one_sub_clamp (p : ℚ) : 1 - clamp p = clamp (1 - p) := by
  rcases le_total p 0 with h | h
  · rw [clamp, clamp, min_eq_left (h.trans zero_le_one), max_eq_left h, min_eq_right (by linarith),
      max_eq_right zero_le_one, sub_zero]
  · rcases le_total p 1 with h' | h'
    · rw [clamp, clamp, min_eq_left h', max_eq_right h, min_eq_left (by linarith),
        max_eq_right (by linarith)]
    · rw [clamp, clamp, min_eq_right h', max_eq_right zero_le_one, min_eq_left (by linarith),
        max_eq_left (by linarith), sub_self]

/-- The two directions of a mapping, each by itself: how far along its side of the display a
position is, from `0` to `1`, decides the coordinate. -/
theorem onDisplay_of_axes {r : Rect} {point : ℚ → ℚ → ℤ × ℤ} {f g : ℚ → ℤ}
    (hpoint : ∀ x y, point x y = (f (clamp x), g (clamp (1 - y))))
    (hf : ∀ s t, 0 ≤ s → s ≤ t → t ≤ 1 → f s ≤ f t) (hg : ∀ s t, 0 ≤ s → s ≤ t → t ≤ 1 → g s ≤ g t)
    (hleft : f 0 = r.x) (hright : f 1 = r.right) (htop : g 0 = r.y) (hbottom : g 1 = r.bottom) :
    OnDisplay r point Always where
  inside x y _ := by
    rw [hpoint, Rect.Has, ← hleft, ← hright, ← htop, ← hbottom]
    exact ⟨⟨hf _ _ le_rfl (clamp_nonneg x) (clamp_le_one x),
      hf _ _ (clamp_nonneg x) (clamp_le_one x) le_rfl⟩,
      hg _ _ le_rfl (clamp_nonneg _) (clamp_le_one _),
      hg _ _ (clamp_nonneg _) (clamp_le_one _) le_rfl⟩
  monotone x y x' y' hx hy := by
    rw [hpoint, hpoint]
    exact ⟨hf _ _ (clamp_nonneg x) (clamp_mono hx) (clamp_le_one x'),
      hg _ _ (clamp_nonneg _) (clamp_mono (by linarith)) (clamp_le_one _)⟩
  topLeft _ := by rw [hpoint, sub_self, clamp_zero, hleft, htop]
  topRight _ := by rw [hpoint, sub_self, clamp_zero, clamp_one, hright, htop]
  bottomLeft _ := by rw [hpoint, sub_zero, clamp_zero, clamp_one, hleft, hbottom]
  bottomRight _ := by rw [hpoint, sub_zero, clamp_one, hright, hbottom]

theorem least_le {l : List ℤ} {n : ℤ} (h : n ∈ l) : least l ≤ n := by
  cases hmin : l.min? with
  | none => exact absurd (List.min?_eq_none_iff.mp hmin ▸ h) List.not_mem_nil
  | some k =>
    rw [least, hmin]
    exact (List.min?_eq_some_iff.mp hmin).2 n h

theorem le_greatest {l : List ℤ} {n : ℤ} (h : n ∈ l) : n ≤ greatest l := by
  cases hmax : l.max? with
  | none => exact absurd (List.max?_eq_none_iff.mp hmax ▸ h) List.not_mem_nil
  | some k =>
    rw [greatest, hmax]
    exact (List.max?_eq_some_iff.mp hmax).2 n h

theorem along_mono {s t : ℚ} (n : ℕ) (h : s ≤ t) : s * n ≤ t * n :=
  mul_le_mul_of_nonneg_right h (Nat.cast_nonneg n)

theorem along_le {t : ℚ} (n : ℕ) (h : t ≤ 1) : t * n ≤ n := by
  have hle := along_mono n h
  rwa [one_mul] at hle

/-! ### Linux: the axes -/

section Linux

variable {active : List MonitorInfo} {m : MonitorInfo} {g : OutputGeometry}

/-- The output does not reach over the end of an axis. -/
def FitsAxes (g : OutputGeometry) : Prop :=
  g.x - g.desktopX + g.width - 1 ≤ evdevAbsAxisMax g.desktopWidth ∧
    g.y - g.desktopY + g.height - 1 ≤ evdevAbsAxisMax g.desktopHeight

theorem evdevAbsAxisMax_lt (dimension : ℕ) : evdevAbsAxisMax dimension < 2 ^ 31 := by
  rw [evdevAbsAxisMax, asI32]
  have hlt := Int.bmod_lt (x := (dimension - 1 : ℕ)) (m := 2 ^ 32) (by norm_num)
  norm_num at hlt ⊢
  omega

theorem asI32_of_lt {v : ℤ} (h : 0 ≤ v) (hlt : v < 2 ^ 31) : asI32 v = v :=
  Int.bmod_eq_of_le (by omega) (by omega)

theorem asI32_asU32 {v : ℤ} (h : 0 ≤ v) (hlt : v < 2 ^ 31) : asI32 (asU32 (max v 0)) = v := by
  have hmod : v % 2 ^ 32 = v := Int.emod_eq_of_lt h (by omega)
  rw [max_eq_left h, asU32, hmod, Int.toNat_of_nonneg h, asI32_of_lt h hlt]

/-- One coordinate of what the device is told: the offset of the output, and the way along it. -/
theorem event_eq {offset : ℤ} {size : ℕ} {dimension : ℕ} (hsize : 0 < size) (hoffset : 0 ≤ offset)
    (hfits : offset + size - 1 ≤ evdevAbsAxisMax dimension) {t : ℚ} (h : 0 ≤ t) (h' : t ≤ 1) :
    asI32 (asU32 (max (offset + round (t * (size - 1 : ℕ))) 0)) =
        offset + round (t * (size - 1 : ℕ)) ∧
      0 ≤ offset + round (t * (size - 1 : ℕ)) ∧
      offset + round (t * (size - 1 : ℕ)) ≤ evdevAbsAxisMax dimension := by
  have hlo : 0 ≤ round (t * (size - 1 : ℕ)) :=
    Axis.round_nonneg (mul_nonneg h (Nat.cast_nonneg _))
  have hhi : round (t * (size - 1 : ℕ)) ≤ (size - 1 : ℕ) := Axis.round_le_natCast (along_le _ h')
  have hmax := evdevAbsAxisMax_lt dimension
  have hvalue : 0 ≤ offset + round (t * (size - 1 : ℕ)) ∧
      offset + round (t * (size - 1 : ℕ)) ≤ evdevAbsAxisMax dimension := by omega
  exact ⟨asI32_asU32 hvalue.1 (by omega), hvalue⟩

theorem linux_onDisplay (hm : m ∈ active) :
    (OnDisplay m.rect (linuxPoint (geometry active m)) Always ∧
      ∀ x y, InAxes (geometry active m) (evdevEvent (geometry active m) x y)) ↔
      FitsAxes (geometry active m) := by
  have hx : 0 ≤ (geometry active m).x - (geometry active m).desktopX :=
    sub_nonneg.mpr (least_le (List.mem_map_of_mem hm))
  have hy : 0 ≤ (geometry active m).y - (geometry active m).desktopY :=
    sub_nonneg.mpr (least_le (List.mem_map_of_mem hm))
  generalize hg : geometry active m = g at hx hy ⊢
  have hrect : m.rect.x = g.x ∧ m.rect.y = g.y ∧ m.rect.width = g.width ∧
      m.rect.height = g.height := by
    subst hg
    exact ⟨rfl, rfl, rfl, rfl⟩
  obtain ⟨hrx, hry, hrw, hrh⟩ := hrect
  have hw : 0 < g.width := hrw ▸ m.rect.width_pos
  have hh : 0 < g.height := hrh ▸ m.rect.height_pos
  constructor
  · -- the last pixel is where the last corner of the wire goes
    rintro ⟨hdisplay, haxes⟩
    have hcorner := hdisplay.bottomRight trivial
    have haxis := haxes 1 0
    simp only [linuxPoint, Rect.right, Rect.bottom, hrx, hry, hrw, hrh] at hcorner
    generalize evdevEvent g 1 0 = value at hcorner haxis
    obtain ⟨hcx, hcy⟩ := Prod.mk.inj hcorner
    obtain ⟨⟨-, hmaxX⟩, -, hmaxY⟩ := haxis
    rw [FitsAxes]
    generalize evdevAbsAxisMax g.desktopWidth = maxX at hmaxX ⊢
    generalize evdevAbsAxisMax g.desktopHeight = maxY at hmaxY ⊢
    exact ⟨by omega, by omega⟩
  · rintro ⟨hfitsX, hfitsY⟩
    have heventX : ∀ t : ℚ, 0 ≤ t → t ≤ 1 → _ := fun t => event_eq hw hx hfitsX (t := t)
    have heventY : ∀ t : ℚ, 0 ≤ t → t ≤ 1 → _ := fun t => event_eq hh hy hfitsY (t := t)
    refine ⟨?_, fun x y => ⟨?_, ?_⟩⟩
    · apply onDisplay_of_axes (fun x y => by simp only [linuxPoint, evdevEvent, mapNormalizedToOutput])
        (f := fun t => g.desktopX +
          asI32 (asU32 (max (g.x - g.desktopX + round (t * (g.width - 1 : ℕ))) 0)))
        (g := fun t => g.desktopY +
          asI32 (asU32 (max (g.y - g.desktopY + round (t * (g.height - 1 : ℕ))) 0)))
      · intro s t hs hst ht
        rw [(heventX s hs (hst.trans ht)).1, (heventX t (hs.trans hst) ht).1]
        have hround := Axis.round_mono (along_mono (g.width - 1) hst)
        omega
      · intro s t hs hst ht
        rw [(heventY s hs (hst.trans ht)).1, (heventY t (hs.trans hst) ht).1]
        have hround := Axis.round_mono (along_mono (g.height - 1) hst)
        omega
      · rw [(heventX 0 le_rfl zero_le_one).1, zero_mul, round_zero, hrx]
        omega
      · rw [(heventX 1 zero_le_one le_rfl).1, one_mul, round_natCast, Rect.right, hrx, hrw]
        omega
      · rw [(heventY 0 le_rfl zero_le_one).1, zero_mul, round_zero, hry]
        omega
      · rw [(heventY 1 zero_le_one le_rfl).1, one_mul, round_natCast, Rect.bottom, hry, hrh]
        omega
    · obtain ⟨heq, hvalue⟩ := heventX (clamp x) (clamp_nonneg x) (clamp_le_one x)
      simp only [evdevEvent, mapNormalizedToOutput, heq]
      exact hvalue
    · obtain ⟨heq, hvalue⟩ := heventY (clamp (1 - y)) (clamp_nonneg _) (clamp_le_one _)
      simp only [evdevEvent, mapNormalizedToOutput, heq]
      exact hvalue

theorem target_mem {name : Option String} (h : target active name = some m) : m ∈ active := by
  cases name with
  | some name => exact List.mem_of_find?_eq_some h
  | none =>
    rcases Option.or_eq_some_iff.mp h with hfocused | ⟨-, hfirst⟩
    · exact List.mem_of_find?_eq_some hfocused
    · exact List.mem_of_head? hfirst

end Linux

/-! ### Windows: the units -/

section Windows

variable {displays : List Rect} {r desktop : Rect}

/-- A rectangle within another one. -/
structure Within (r desktop : Rect) : Prop where
  left : desktop.x ≤ r.x
  right : r.right ≤ desktop.right
  top : desktop.y ≤ r.y
  bottom : r.bottom ≤ desktop.bottom

theorem VirtualScreen.within (h : VirtualScreen displays desktop) (hr : r ∈ displays) :
    Within r desktop where
  left := h.x ▸ least_le (List.mem_map_of_mem hr)
  right := h.right ▸ le_greatest (List.mem_map_of_mem hr)
  top := h.y ▸ least_le (List.mem_map_of_mem hr)
  bottom := h.bottom ▸ le_greatest (List.mem_map_of_mem hr)

/-- The corner pixels of the display have units of their own.  Nothing but the first pixel of a
desktop one pixel wide or high is ever reached. -/
def Addressed (r desktop : Rect) : Prop :=
  if desktop.width ≤ 1 ∨ desktop.height ≤ 1 then
    (r.x = desktop.x ∧ r.y = desktop.y) ∧ r.width = 1 ∧ r.height = 1
  else
    (Axis.Addressable absoluteAxisMax (desktop.width - 1) (r.x - desktop.x) ∧
        Axis.Addressable absoluteAxisMax (desktop.width - 1) (r.right - desktop.x)) ∧
      Axis.Addressable absoluteAxisMax (desktop.height - 1) (r.y - desktop.y) ∧
        Axis.Addressable absoluteAxisMax (desktop.height - 1) (r.bottom - desktop.y)

/-- One coordinate of the unit: the way along the display, put on the axis of the desktop. -/
def windowsUnit (position desktop : ℤ) (size desktopSize : ℕ) (t : ℚ) : ℤ :=
  Axis.unit absoluteAxisMax (desktopSize - 1)
    (max 0 (min (position + t * (size - 1 : ℕ) - desktop) (desktopSize - 1 : ℕ)))

variable {desktopSize : ℕ}

theorem windowsUnit_mono {position desktop : ℤ} {size : ℕ} {s t : ℚ} (h : s ≤ t) :
    windowsUnit position desktop size desktopSize s ≤
      windowsUnit position desktop size desktopSize t := by
  have halong := along_mono (size - 1) h
  apply Axis.unit_mono
  apply max_le_max_left
  apply min_le_min_right
  linarith

theorem windowsUnit_range (position desktop : ℤ) (size : ℕ) (h : 1 < desktopSize)
    (t : ℚ) : 0 ≤ windowsUnit position desktop size desktopSize t ∧
      windowsUnit position desktop size desktopSize t ≤ absoluteAxisMax :=
  ⟨Axis.unit_nonneg (le_max_left _ _),
    Axis.unit_le (by omega) (max_le (Nat.cast_nonneg _) (min_le_right _ _))⟩

theorem windowsUnit_eq {position desktop k : ℤ} {size : ℕ} {t : ℚ}
    (hk : position + t * (size - 1 : ℕ) = (desktop + k : ℤ)) (h : 0 ≤ k)
    (hle : k ≤ (desktopSize - 1 : ℕ)) :
    windowsUnit position desktop size desktopSize t =
      Axis.unit absoluteAxisMax (desktopSize - 1) k := by
  have hcast : position + t * (size - 1 : ℕ) - desktop = (k : ℚ) := by
    rw [hk, Int.cast_add, add_sub_cancel_left]
  have hnonneg : (0 : ℚ) ≤ k := Int.cast_nonneg h
  have hmax : (k : ℚ) ≤ (desktopSize - 1 : ℕ) := by exact_mod_cast hle
  rw [windowsUnit, hcast, min_eq_left hmax, max_eq_right hnonneg]

/-- The pixel a coordinate comes to on the first and on the last pixel of the display. -/
theorem pixel_windowsUnit {position desktop : ℤ} {size : ℕ} (hsize : 0 < size)
    (hlt : 1 < desktopSize) (hlo : desktop ≤ position)
    (hhi : position + size - 1 ≤ desktop + desktopSize - 1) :
    (desktop + Axis.pixel absoluteAxisMax (desktopSize - 1)
        (windowsUnit position desktop size desktopSize 0) = position ↔
      Axis.Addressable absoluteAxisMax (desktopSize - 1) (position - desktop)) ∧
    (desktop + Axis.pixel absoluteAxisMax (desktopSize - 1)
        (windowsUnit position desktop size desktopSize 1) = position + size - 1 ↔
      Axis.Addressable absoluteAxisMax (desktopSize - 1) (position + size - 1 - desktop)) := by
  have hn : 0 < desktopSize - 1 := by omega
  have hends : ∀ (t : ℚ) (k : ℤ), windowsUnit position desktop size desktopSize t =
      Axis.unit absoluteAxisMax (desktopSize - 1) k →
      (desktop + Axis.pixel absoluteAxisMax (desktopSize - 1)
          (windowsUnit position desktop size desktopSize t) = desktop + k ↔
        Axis.Addressable absoluteAxisMax (desktopSize - 1) k) := by
    intro t k hunit
    constructor
    · intro heq
      obtain ⟨hnonneg, hle⟩ := windowsUnit_range position desktop size hlt t
      exact ⟨_, hnonneg, hle, by omega⟩
    · intro haddressable
      rw [hunit, Axis.pixel_unit (by decide) hn haddressable]
  constructor
  · have hfirst := hends 0 (position - desktop) (windowsUnit_eq (by simp) (by omega) (by omega))
    rwa [add_sub_cancel] at hfirst
  · have hlast := hends 1 (position + size - 1 - desktop) (windowsUnit_eq (by
      rw [one_mul, add_sub_cancel, Nat.cast_pred hsize]
      push_cast
      ring) (by omega) (by omega))
    rwa [add_sub_cancel] at hlast

theorem normalize_eq (h : ¬(desktop.width ≤ 1 ∨ desktop.height ≤ 1)) (x y : ℚ) :
    normalizeAbsolutePointer x y r desktop =
      (windowsUnit r.x desktop.x r.width desktop.width (clamp x),
        windowsUnit r.y desktop.y r.height desktop.height (clamp (1 - y))) := by
  rw [normalizeAbsolutePointer, if_neg h]
  simp only [one_sub_clamp]
  rfl

theorem windowsPoint_guard (h : desktop.width ≤ 1 ∨ desktop.height ≤ 1) (x y : ℚ) :
    windowsPoint r desktop x y = (desktop.x, desktop.y) := by
  simp [windowsPoint, normalizeAbsolutePointer, h, Axis.pixel]

theorem windows_onDisplay (hwithin : Within r desktop) :
    OnDisplay r (windowsPoint r desktop) Always ↔ Addressed r desktop := by
  have hw := r.width_pos
  have hh := r.height_pos
  rw [Addressed]
  split_ifs with hguard
  · constructor
    · intro h
      obtain ⟨hx, hy⟩ := Prod.mk.inj ((windowsPoint_guard hguard 0 1).symm.trans (h.topLeft trivial))
      obtain ⟨hright, hbottom⟩ :=
        Prod.mk.inj ((windowsPoint_guard hguard 1 0).symm.trans (h.bottomRight trivial))
      rw [Rect.right] at hright
      rw [Rect.bottom] at hbottom
      exact ⟨⟨hx.symm, hy.symm⟩, by omega, by omega⟩
    · rintro ⟨⟨hx, hy⟩, hwidth, hheight⟩
      apply onDisplay_of_axes (f := fun _ => desktop.x) (g := fun _ => desktop.y)
      · exact windowsPoint_guard hguard
      · exact fun _ _ _ _ _ => le_rfl
      · exact fun _ _ _ _ _ => le_rfl
      · exact hx.symm
      · rw [Rect.right, hwidth, hx]
        omega
      · exact hy.symm
      · rw [Rect.bottom, hheight, hy]
        omega
  · obtain ⟨hwidth, hheight⟩ := not_or.mp hguard
    have hleft := hwithin.left
    have hright := hwithin.right
    have htop := hwithin.top
    have hbottom := hwithin.bottom
    rw [Rect.right, Rect.right] at hright
    rw [Rect.bottom, Rect.bottom] at hbottom
    obtain ⟨hfirstX, hlastX⟩ := pixel_windowsUnit hw (not_le.mp hwidth) hleft hright
    obtain ⟨hfirstY, hlastY⟩ := pixel_windowsUnit hh (not_le.mp hheight) htop hbottom
    constructor
    · intro h
      have hcorner := h.topLeft trivial
      have hopposite := h.bottomRight trivial
      rw [windowsPoint, normalize_eq hguard, sub_self, clamp_zero] at hcorner
      rw [windowsPoint, normalize_eq hguard, sub_zero, clamp_one] at hopposite
      obtain ⟨hx, hy⟩ := Prod.mk.inj hcorner
      obtain ⟨hx', hy'⟩ := Prod.mk.inj hopposite
      exact ⟨⟨hfirstX.mp hx, hlastX.mp hx'⟩, hfirstY.mp hy, hlastY.mp hy'⟩
    · rintro ⟨⟨hx, hx'⟩, hy, hy'⟩
      apply onDisplay_of_axes
        (f := fun t => desktop.x + Axis.pixel absoluteAxisMax (desktop.width - 1)
          (windowsUnit r.x desktop.x r.width desktop.width t))
        (g := fun t => desktop.y + Axis.pixel absoluteAxisMax (desktop.height - 1)
          (windowsUnit r.y desktop.y r.height desktop.height t))
      · intro x y
        rw [windowsPoint, normalize_eq hguard]
      · exact fun s t _ hst _ => Int.add_le_add_left (Axis.pixel_mono (windowsUnit_mono hst)) _
      · exact fun s t _ hst _ => Int.add_le_add_left (Axis.pixel_mono (windowsUnit_mono hst)) _
      · exact hfirstX.mpr hx
      · exact hlastX.mpr hx'
      · exact hfirstY.mpr hy
      · exact hlastY.mpr hy'

/-- The units of the axes. -/
def InAbsoluteAxes (value : ℤ × ℤ) : Prop :=
  (0 ≤ value.1 ∧ value.1 ≤ absoluteAxisMax) ∧ 0 ≤ value.2 ∧ value.2 ≤ absoluteAxisMax

theorem normalize_inAbsoluteAxes (r desktop : Rect) (x y : ℚ) :
    InAbsoluteAxes (normalizeAbsolutePointer x y r desktop) := by
  by_cases hguard : desktop.width ≤ 1 ∨ desktop.height ≤ 1
  · rw [normalizeAbsolutePointer, if_pos hguard]
    exact ⟨⟨le_rfl, by decide⟩, le_rfl, by decide⟩
  · obtain ⟨hwidth, hheight⟩ := not_or.mp hguard
    rw [normalize_eq hguard]
    exact ⟨windowsUnit_range _ _ _ (not_le.mp hwidth) _, windowsUnit_range _ _ _ (not_le.mp hheight) _⟩

end Windows

/-! ### macOS: the edges -/

section Mac

variable {host : Rect} {Sent : ℚ → ℚ → Prop}

theorem floor_le_last (position : ℤ) {size : ℕ} (hsize : 0 < size) (t : ℚ) :
    ⌊t * size + position⌋ ≤ position + size - 1 ↔ t < 1 := by
  have hpos : (0 : ℚ) < size := Nat.cast_pos.mpr hsize
  have hlt : t < 1 ↔ t * size < size := by
    rw [mul_lt_iff_lt_one_left hpos]
  rw [hlt, Int.floor_add_intCast]
  constructor
  · intro h
    have hfloor : ⌊t * size⌋ < (size : ℤ) := by omega
    exact_mod_cast Int.floor_lt.mp hfloor
  · intro h
    have hfloor : ⌊t * size⌋ < (size : ℤ) := Int.floor_lt.mpr (by exact_mod_cast h)
    omega

theorem le_floor (position : ℤ) (size : ℕ) {t : ℚ} (h : 0 ≤ t) :
    position ≤ ⌊t * size + position⌋ := by
  have hfloor : 0 ≤ ⌊t * size⌋ := Int.floor_nonneg.mpr (mul_nonneg h (Nat.cast_nonneg size))
  rw [Int.floor_add_intCast]
  omega

theorem clamp_lt_one {p : ℚ} : clamp p < 1 ↔ p < 1 := by
  rw [clamp, max_lt_iff, min_lt_iff]
  constructor
  · rintro ⟨-, h | h⟩
    · exact h
    · exact absurd h (lt_irrefl 1)
  · exact fun h => ⟨one_pos, .inl h⟩

theorem mac_onDisplay :
    OnDisplay host (macPoint host) Sent ↔ ∀ x y, Sent x y → x < 1 ∧ 0 < y := by
  have hinside : ∀ x y, host.Has (macPoint host x y) ↔ x < 1 ∧ 0 < y := by
    intro x y
    have hx := floor_le_last host.x host.width_pos (clamp x)
    have hy := floor_le_last host.y host.height_pos (clamp (1 - y))
    rw [clamp_lt_one] at hx hy
    have hy' : 1 - y < 1 ↔ 0 < y := sub_lt_self_iff 1
    exact ⟨fun h => ⟨hx.mp h.1.2, hy'.mp (hy.mp h.2.2)⟩, fun h =>
      ⟨⟨le_floor _ _ (clamp_nonneg x), hx.mpr h.1⟩,
        le_floor _ _ (clamp_nonneg _), hy.mpr (hy'.mpr h.2)⟩⟩
  constructor
  · exact fun h x y hsent => (hinside x y).mp (h.inside x y hsent)
  · intro h
    refine ⟨fun x y hsent => (hinside x y).mpr (h x y hsent), ?_, ?_, ?_, ?_, ?_⟩
    · intro x y x' y' hx hy
      have halongX := along_mono host.width (clamp_mono hx)
      have halongY := along_mono host.height (clamp_mono (sub_le_sub_left hy 1))
      constructor
      · apply Int.floor_mono
        show clamp x * host.width + host.x ≤ clamp x' * host.width + host.x
        linarith
      · apply Int.floor_mono
        show clamp (1 - y) * host.height + host.y ≤ clamp (1 - y') * host.height + host.y
        linarith
    · intro _
      simp [macPoint, mapCoordinates, mapToHostPixels]
    · exact fun hsent => absurd (h 1 1 hsent).1 (lt_irrefl 1)
    · exact fun hsent => absurd (h 0 0 hsent).2 (lt_irrefl 0)
    · exact fun hsent => absurd (h 1 0 hsent).1 (lt_irrefl 1)

end Mac

/-! ### The three hosts -/

/-- **Where the pointer stays on the captured display.**  On Linux exactly where the output fits the
axes of the device; on Windows exactly where the corner pixels have units of their own, which are
units of the axes always; on a Mac exactly as long as neither the right nor the lower edge of the
wire is sent. -/
theorem pointer_on_display {monitors : List Monitor} {name : Option String} {m : MonitorInfo}
    (hm : target (activeMonitors monitors) name = some m) {displays : List Rect} {desktop r : Rect}
    (hscreen : VirtualScreen displays desktop) (hr : r ∈ displays) (host : Rect)
    (Sent : ℚ → ℚ → Prop) :
    (∃ g, outputGeometryFromMonitors monitors name = some g ∧
      (OnDisplay m.rect (linuxPoint g) Always ∧ (∀ x y, InAxes g (evdevEvent g x y)) ↔
        FitsAxes g)) ∧
    (OnDisplay r (windowsPoint r desktop) Always ∧
        (∀ x y, InAbsoluteAxes (normalizeAbsolutePointer x y r desktop)) ↔ Addressed r desktop) ∧
    (OnDisplay host (macPoint host) Sent ↔ ∀ x y, Sent x y → x < 1 ∧ 0 < y) := by
  refine ⟨⟨geometry (activeMonitors monitors) m, ?_, linux_onDisplay (target_mem hm)⟩, ?_,
    mac_onDisplay⟩
  · rw [outputGeometryFromMonitors, hm]
    rfl
  · rw [windows_onDisplay (hscreen.within hr)]
    exact and_iff_left fun x y => normalize_inAbsoluteAxes r desktop x y

def leftDisplay : Rect := ⟨0, 0, 1920, 1080, by decide, by decide⟩

def rightDisplay : Rect := ⟨1920, 0, 1920, 1080, by decide, by decide⟩

def bothDisplays : Rect := ⟨0, 0, 3840, 1080, by decide, by decide⟩

def listedMonitor (name : String) (x : ℤ) : Monitor where
  disabled := some false
  name := some name
  x := some x
  y := some 0
  width := some 1920
  height := some 1080
  scale := some 1
  transform := some 0
  focused := none

theorem pointer_on_display_two :
    ∃ m, target (activeMonitors [listedMonitor "DP-1" 0, listedMonitor "DP-2" 1920])
        (some "DP-2") = some m ∧
      (OnDisplay rightDisplay (windowsPoint rightDisplay bothDisplays) Always ∧
          (∀ x y, InAbsoluteAxes (normalizeAbsolutePointer x y rightDisplay bothDisplays)) ↔
        Addressed rightDisplay bothDisplays) := by
  have hinfo : ∀ name x, ∃ m, monitorInfo (listedMonitor name x) = some m ∧ m.name = name := by
    intro name x
    simp [monitorInfo, listedMonitor]
  obtain ⟨m₁, h₁, hname₁⟩ := hinfo "DP-1" 0
  obtain ⟨m₂, h₂, hname₂⟩ := hinfo "DP-2" 1920
  have hactive : activeMonitors [listedMonitor "DP-1" 0, listedMonitor "DP-2" 1920] = [m₁, m₂] := by
    simp [activeMonitors, h₁, h₂]
  have hm : target (activeMonitors [listedMonitor "DP-1" 0, listedMonitor "DP-2" 1920])
      (some "DP-2") = some m₂ := by
    rw [hactive]
    simp [target, hname₁, hname₂]
  have hscreen : VirtualScreen [leftDisplay, rightDisplay] bothDisplays := ⟨rfl, rfl, rfl, rfl⟩
  exact ⟨m₂, hm, (pointer_on_display hm hscreen (r := rightDisplay)
    (List.mem_cons_of_mem _ List.mem_cons_self) leftDisplay Always).2.1⟩

/-- The right edge of the wire is on the display next to the captured one. -/
theorem right_edge_next_display :
    rightDisplay.Has (macPoint leftDisplay 1 (1 / 2)) ∧
      ¬ OnDisplay leftDisplay (macPoint leftDisplay) Always := by
  have hpoint : macPoint leftDisplay 1 (1 / 2) = (1920, 540) := by
    norm_num [macPoint, mapCoordinates, mapToHostPixels, leftDisplay, clamp]
  constructor
  · rw [hpoint]
    simp [Rect.Has, Rect.right, Rect.bottom, rightDisplay]
  · intro h
    have hinside := h.inside 1 (1 / 2) trivial
    rw [hpoint] at hinside
    simp [Rect.Has, Rect.right, leftDisplay] at hinside

end MahoRD.PointerMapping
