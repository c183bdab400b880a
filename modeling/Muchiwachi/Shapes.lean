import Muchiwachi.Paint

/-!
# Lines and boxes along the axes (`u8g_rect.c`)

A horizontal or vertical line is drawn eight pixels at a time, and a box line by line. The sets
here are what the operations paint, whatever page is drawn: `draws_hline`, `draws_vline`,
`draws_box` and `draws_frame`.
-/

namespace Muchiwachi

open Lib.Raster

/-! ## The operations -/

/-- `u8g_draw_hline` and `u8g_draw_vline`: whole bytes, and one byte for the rest. -/
def drawBytes (dir : PixelDir) (x y len : UInt8) (u : U8g) : U8g :=
  if len ≥ 8 then
    drawBytes dir (x + 8 * dir.step.1) (y + 8 * dir.step.2) (len - 8) (u8gDraw8Pixel x y dir 0xff u)
  else if len ≠ 0 then u8gDraw8Pixel x y dir (0xff <<< (((len ^^^ 7) + 1) &&& 7)) u
  else u
termination_by len.toNat
decreasing_by
  have hlen := UInt8.le_iff_toNat_le.mp ‹len ≥ 8›
  rw [UInt8.toNat_sub_of_le _ _ ‹_›]
  simp only [UInt8.reduceToNat] at hlen ⊢
  omega

/-- `u8g_draw_hline`. -/
def u8gDrawHLineUnclipped (x y w : UInt8) (u : U8g) : U8g := drawBytes .right x y w u

/-- `u8g_draw_vline`. -/
def u8gDrawVLineUnclipped (x y h : UInt8) (u : U8g) : U8g := drawBytes .down x y h u

def u8gDrawHLine (x y w : UInt8) (u : U8g) : U8g :=
  if u8gIsBBXIntersection u x y w 1 = false then u else u8gDrawHLineUnclipped x y w u

def u8gDrawVLine (x y w : UInt8) (u : U8g) : U8g :=
  if u8gIsBBXIntersection u x y 1 w = false then u else u8gDrawVLineUnclipped x y w u

/-- `u8g_draw_box`. -/
def u8gDrawBoxUnclipped (x y w h : UInt8) (u : U8g) : U8g :=
  let u := u8gDrawHLineUnclipped x y w u
  if h - 1 ≠ 0 then u8gDrawBoxUnclipped x (y + 1) w (h - 1) u else u
termination_by (h - 1).toNat
decreasing_by
  have hne : (h - 1).toNat ≠ 0 := fun h0 => ‹h - 1 ≠ 0› (UInt8.toNat_inj.mp h0)
  have hle : (1 : UInt8) ≤ h - 1 := by
    simp only [UInt8.le_iff_toNat_le, UInt8.reduceToNat]
    omega
  rw [UInt8.toNat_sub_of_le _ _ hle]
  simp only [UInt8.reduceToNat]
  omega

def u8gDrawBox (x y w h : UInt8) (u : U8g) : U8g :=
  if u8gIsBBXIntersection u x y w h = false then u else u8gDrawBoxUnclipped x y w h u

def u8gDrawFrame (x y w h : UInt8) (u : U8g) : U8g :=
  if u8gIsBBXIntersection u x y w h = false then u
  else
    let u := u8gDrawHLineUnclipped x y w u
    let u := u8gDrawVLineUnclipped x y h u
    let u := u8gDrawVLineUnclipped (x + w - 1) y h u
    u8gDrawHLineUnclipped x (y + h - 1) w u

/-! ## What they paint -/

/-- The `len` pixels from `(x, y)` on. -/
def strokePixels (dir : PixelDir) (x y len : UInt8) : Set Pixel :=
  {p | ∃ i < len.toNat, p = (x + .ofNat i * dir.step.1, y + .ofNat i * dir.step.2)}

def hlinePixels (x y w : UInt8) : Set Pixel := {p | p.1 - x < w ∧ p.2 = y}

def vlinePixels (x y h : UInt8) : Set Pixel := {p | p.1 = x ∧ p.2 - y < h}

/-- A height of zero counts as 256. -/
def boxPixels (x y w h : UInt8) : Set Pixel := {p | p.1 - x < w ∧ p.2 - y ≤ h - 1}

def framePixels (x y w h : UInt8) : Set Pixel :=
  hlinePixels x y w ∪ vlinePixels x y h ∪ vlinePixels (x + w - 1) y h ∪
    hlinePixels x (y + h - 1) w

/-- A byte of ones is a stroke of eight. -/
theorem pixels_ones (x y : UInt8) (dir : PixelDir) (color : UInt8) :
    (⟨x, y, 0xff, dir, color⟩ : U8gDevArgPixel).pixels 8 = strokePixels dir x y 8 := by
  have hones : ∀ i : Fin 8, Nat.testBit 255 (7 - i.val) = true := by decide
  ext p
  constructor
  · rintro ⟨i, hi, -, rfl⟩
    exact ⟨i, hi, rfl⟩
  · rintro ⟨i, hi, rfl⟩
    exact ⟨i, hi, hones ⟨i, hi⟩, rfl⟩

/-- The last byte has as many ones as pixels are left. -/
theorem pixels_rest (x y : UInt8) (dir : PixelDir) (color : UInt8) {len : UInt8} (hlen : len < 8)
    (hne : len ≠ 0) :
    (⟨x, y, 0xff <<< (((len ^^^ 7) + 1) &&& 7), dir, color⟩ : U8gDevArgPixel).pixels 8 =
      strokePixels dir x y len := by
  have hall : ∀ len i : Fin 8, len ≠ 0 →
      ((0xff : UInt8) <<< (((UInt8.ofNat len ^^^ 7) + 1) &&& 7)).toNat.testBit (7 - i.val) =
        decide (i.val < len.val) := by decide
  have hlt : len.toNat < 8 := UInt8.lt_iff_toNat_lt.mp hlen
  have hpos : len.toNat ≠ 0 := fun h => hne (UInt8.toNat_inj.mp h)
  have hbit (i : Nat) (hi : i < 8) :
      ((0xff : UInt8) <<< (((len ^^^ 7) + 1) &&& 7)).toNat.testBit (7 - i) = true ↔
        i < len.toNat := by
    have h := hall ⟨len.toNat, hlt⟩ ⟨i, hi⟩ fun h0 => hpos (congrArg Fin.val h0)
    simp only [UInt8.ofNat_toNat] at h
    rw [h, decide_eq_true_iff]
  ext p
  constructor
  · rintro ⟨i, hi, hset, rfl⟩
    exact ⟨i, (hbit i hi).mp hset, rfl⟩
  · rintro ⟨i, hi, rfl⟩
    exact ⟨i, by omega, (hbit i (by omega)).mpr hi, rfl⟩

theorem strokePixels_add (dir : PixelDir) (x y : UInt8) {len : UInt8} (hlen : 8 ≤ len) :
    strokePixels dir x y 8 ∪
        strokePixels dir (x + 8 * dir.step.1) (y + 8 * dir.step.2) (len - 8) =
      strokePixels dir x y len := by
  have hsub : (len - 8).toNat = len.toNat - 8 := UInt8.toNat_sub_of_le _ _ hlen
  have hlen' : 8 ≤ len.toNat := UInt8.le_iff_toNat_le.mp hlen
  have hadd (c d : UInt8) (i : Nat) : c + 8 * d + .ofNat i * d = c + .ofNat (8 + i) * d := by
    rw [UInt8.ofNat_add]
    grind
  ext p
  constructor
  · rintro (⟨i, hi, rfl⟩ | ⟨i, hi, rfl⟩)
    · exact ⟨i, Nat.lt_of_lt_of_le hi hlen', rfl⟩
    · rw [hsub] at hi
      exact ⟨8 + i, by omega, by rw [hadd, hadd]⟩
  · rintro ⟨i, hi, rfl⟩
    by_cases hlt : i < 8
    · exact .inl ⟨i, hlt, rfl⟩
    · refine .inr ⟨i - 8, by omega, ?_⟩
      rw [hadd, hadd, show 8 + (i - 8) = i by omega]

theorem strokePixels_right (x y w : UInt8) : strokePixels .right x y w = hlinePixels x y w := by
  ext ⟨px, py⟩
  constructor
  · rintro ⟨i, hi, heq⟩
    have hlt := w.toNat_lt
    obtain ⟨rfl, rfl⟩ := Prod.mk.inj heq
    have hsub : x + .ofNat i * 1 - x = .ofNat i := by grind
    refine ⟨?_, by simp [PixelDir.step]⟩
    simp only [PixelDir.step, hsub]
    rwa [UInt8.lt_iff_toNat_lt, UInt8.toNat_ofNat_of_lt' (show i < 256 by omega)]
  · rintro ⟨hlt, rfl⟩
    refine ⟨(px - x).toNat, UInt8.lt_iff_toNat_lt.mp hlt, ?_⟩
    simp only [PixelDir.step, UInt8.ofNat_toNat, Prod.mk.injEq]
    constructor <;> grind

theorem strokePixels_down (x y h : UInt8) : strokePixels .down x y h = vlinePixels x y h := by
  ext ⟨px, py⟩
  constructor
  · rintro ⟨i, hi, heq⟩
    have hlt := h.toNat_lt
    obtain ⟨rfl, rfl⟩ := Prod.mk.inj heq
    have hsub : y + .ofNat i * 1 - y = .ofNat i := by grind
    refine ⟨by simp [PixelDir.step], ?_⟩
    simp only [PixelDir.step, hsub]
    rwa [UInt8.lt_iff_toNat_lt, UInt8.toNat_ofNat_of_lt' (show i < 256 by omega)]
  · rintro ⟨rfl, hlt⟩
    refine ⟨(py - y).toNat, UInt8.lt_iff_toNat_lt.mp hlt, ?_⟩
    simp only [PixelDir.step, UInt8.ofNat_toNat, Prod.mk.injEq]
    constructor <;> grind

/-- Byte by byte, the whole stroke is painted. -/
theorem draws_bytes {u : U8g} (hu : u.Ready) {dir : PixelDir} (hdir : dir = .right ∨ dir = .down)
    (x y len : UInt8) :
    Draws u (drawBytes dir x y len u) (u.cover (strokePixels dir x y len)) := by
  fun_induction drawBytes dir x y len u with
  | case1 x y len u hlen ih =>
    have hbyte := draws_8pixel hu x y hdir 0xff
    have hrest := ih (hbyte.ready hu)
    rw [hbyte.cover] at hrest
    rw [← strokePixels_add dir x y hlen, ← cover_union, ← pixels_ones x y dir u.color]
    exact hbyte.trans hrest
  | case2 x y len u hlen hne =>
    rw [← pixels_rest x y dir u.color (UInt8.not_le.mp hlen) hne]
    exact draws_8pixel hu x y hdir _
  | case3 x y len u hlen hzero =>
    obtain rfl := not_not.mp hzero
    have hempty : strokePixels dir x y 0 = ∅ := by
      ext p
      simp [strokePixels]
    rw [hempty, cover_empty]
    exact .none fun p _ hp => hp

theorem draws_hlineUnclipped {u : U8g} (hu : u.Ready) (x y w : UInt8) :
    Draws u (u8gDrawHLineUnclipped x y w u) (u.cover (hlinePixels x y w)) := by
  rw [← strokePixels_right]
  exact draws_bytes hu (.inl rfl) x y w

theorem draws_vlineUnclipped {u : U8g} (hu : u.Ready) (x y h : UInt8) :
    Draws u (u8gDrawVLineUnclipped x y h u) (u.cover (vlinePixels x y h)) := by
  rw [← strokePixels_down]
  exact draws_bytes hu (.inr rfl) x y h

/-- The first row of a box, and the rest. -/
theorem boxPixels_succ (x y w : UInt8) {h : UInt8} (hne : h - 1 ≠ 0) :
    hlinePixels x y w ∪ boxPixels x (y + 1) w (h - 1) = boxPixels x y w h := by
  ext ⟨px, py⟩
  simp only [hlinePixels, boxPixels, Set.mem_union, Set.mem_ofPred_eq, ← and_or_left]
  refine and_congr_right fun _ => ?_
  have hy := y.toNat_lt
  have hpy := py.toNat_lt
  have hh := h.toNat_lt
  simp only [UInt8.le_iff_toNat_le, ← UInt8.toNat_inj, ne_eq, UInt8.toNat_sub, UInt8.toNat_add,
    UInt8.reduceToNat] at hne ⊢
  omega

theorem boxPixels_one (x y w : UInt8) {h : UInt8} (hone : h - 1 = 0) :
    hlinePixels x y w = boxPixels x y w h := by
  ext ⟨px, py⟩
  simp only [hlinePixels, boxPixels, Set.mem_ofPred_eq]
  refine and_congr_right fun _ => ?_
  have hy := y.toNat_lt
  have hpy := py.toNat_lt
  rw [hone]
  simp only [UInt8.le_iff_toNat_le, ← UInt8.toNat_inj, UInt8.toNat_sub, UInt8.reduceToNat]
  omega

theorem draws_boxUnclipped {u : U8g} (hu : u.Ready) (x y w h : UInt8) :
    Draws u (u8gDrawBoxUnclipped x y w h u) (u.cover (boxPixels x y w h)) := by
  fun_induction u8gDrawBoxUnclipped x y w h u with
  | case1 y h u v hne ih =>
    have hrow := draws_hlineUnclipped hu x y w
    have hrest := ih (hrow.ready hu)
    rw [hrow.cover] at hrest
    rw [← boxPixels_succ x y w hne, ← cover_union]
    exact hrow.trans hrest
  | case2 y h u v hone =>
    rw [← boxPixels_one x y w (not_not.mp hone)]
    exact draws_hlineUnclipped hu x y w

/-! ## With the clipping test -/

theorem mem_rowArc_of_lt {a v l : UInt8} (h : a - v < l) : a ∈ rowArc v (v + l - 1) := by
  have hlast : v + l - 1 - v = l - 1 := by grind
  have hl := l.toNat_lt
  show a - v ≤ v + l - 1 - v
  rw [hlast]
  generalize a - v = d at h ⊢
  simp only [UInt8.le_iff_toNat_le, UInt8.lt_iff_toNat_lt, UInt8.toNat_sub,
    UInt8.reduceToNat] at h ⊢
  omega

theorem mem_rowArc_self (v l : UInt8) : v ∈ rowArc v (v + l - 1) := by
  show v - v ≤ v + l - 1 - v
  simp [UInt8.le_iff_toNat_le]

theorem hlinePixels_subset (x y w : UInt8) : hlinePixels x y w ⊆ bbx x y w 1 := by
  rintro ⟨px, py⟩ ⟨hx, rfl⟩
  exact ⟨mem_rowArc_of_lt hx, mem_rowArc_self _ _⟩

theorem vlinePixels_subset (x y h : UInt8) : vlinePixels x y h ⊆ bbx x y 1 h := by
  rintro ⟨px, py⟩ ⟨rfl, hy⟩
  exact ⟨mem_rowArc_self _ _, mem_rowArc_of_lt hy⟩

theorem boxPixels_subset (x y w h : UInt8) : boxPixels x y w h ⊆ bbx x y w h := by
  rintro ⟨px, py⟩ ⟨hx, hy⟩
  refine ⟨mem_rowArc_of_lt hx, (?_ : py - y ≤ y + h - 1 - y)⟩
  have hlast : y + h - 1 - y = h - 1 := by grind
  rwa [hlast]

theorem framePixels_subset (x y w h : UInt8) : framePixels x y w h ⊆ bbx x y w h := by
  have hlast (a l : UInt8) : a + l - 1 ∈ rowArc a (a + l - 1) := UInt8.le_refl _
  rintro ⟨px, py⟩ (((⟨hx, rfl⟩ | ⟨rfl, hy⟩) | ⟨rfl, hy⟩) | ⟨hx, rfl⟩)
  · exact ⟨mem_rowArc_of_lt hx, mem_rowArc_self _ _⟩
  · exact ⟨mem_rowArc_self _ _, mem_rowArc_of_lt hy⟩
  · exact ⟨hlast _ _, mem_rowArc_of_lt hy⟩
  · exact ⟨mem_rowArc_of_lt hx, hlast _ _⟩

section

variable {u : U8g} (hu : u.Ready) (x y w h : UInt8)

include hu

theorem draws_hline (hfits : u.Fits (hlinePixels x y w)) :
    Draws u (u8gDrawHLine x y w u) (u.cover (hlinePixels x y w)) :=
  (draws_hlineUnclipped hu x y w).clipped hu (hlinePixels_subset x y w) hfits

theorem draws_vline (hfits : u.Fits (vlinePixels x y h)) :
    Draws u (u8gDrawVLine x y h u) (u.cover (vlinePixels x y h)) :=
  (draws_vlineUnclipped hu x y h).clipped hu (vlinePixels_subset x y h) hfits

theorem draws_box (hfits : u.Fits (boxPixels x y w h)) :
    Draws u (u8gDrawBox x y w h u) (u.cover (boxPixels x y w h)) :=
  (draws_boxUnclipped hu x y w h).clipped hu (boxPixels_subset x y w h) hfits

/-- **Frames**: the four lines are painted, also where they come round past 255, and on a page
that the test skips there are none. -/
theorem draws_frame (hfits : u.Fits (framePixels x y w h)) :
    Draws u (u8gDrawFrame x y w h u) (u.cover (framePixels x y w h)) := by
  refine Draws.clipped hu ?_ (framePixels_subset x y w h) hfits
  have htop := draws_hlineUnclipped hu x y w
  have hleft := draws_vlineUnclipped (htop.ready hu) x y h
  rw [htop.cover] at hleft
  have htl := htop.trans hleft
  have hright := draws_vlineUnclipped (htl.ready hu) (x + w - 1) y h
  rw [htl.cover] at hright
  have htlr := htl.trans hright
  have hbottom := draws_hlineUnclipped (htlr.ready hu) x (y + h - 1) w
  rw [htlr.cover] at hbottom
  simp only [framePixels, ← cover_union]
  exact htlr.trans hbottom

end

/-- The rows 60 to 67 lie on two pages. -/
theorem draws_frame_sample :
    Draws (emptyPage 7) (u8gDrawFrame 250 60 20 8 (emptyPage 7))
      ((emptyPage 7).cover (framePixels 250 60 20 8)) :=
  draws_frame (ready_emptyPage (by decide)) 250 60 20 8 (fits_emptyPage 7 _)

end Muchiwachi
