import Muchiwachi.Shapes
import Muchiwachi.FontData

/-!
# Text (`u8g_font.c`)

A glyph is looked up by walking through the font, and its bitmap is drawn byte by byte.
-/

namespace Muchiwachi

open Lib.Raster

/-! ## Fonts -/

def u8gFontData : U8gFont → List UInt8
  | .profont22r => u8gFontProfont22r
  | .unifontUpper => u8gUnifontUpper
  | .freedoomr10r => u8gFontFreedoomr10r

/-- `U8G_FONT_DATA_STRUCT_SIZE`. -/
def fontDataStructSize : Nat := 17

def u8gFontGetByte (font : List UInt8) (offset : Nat) : UInt8 := font.getD offset 0

def u8gFontGetWord (font : List UInt8) (offset : Nat) : Nat :=
  (u8gFontGetByte font offset).toNat * 256 + (u8gFontGetByte font (offset + 1)).toNat

/-- `u8g_font_GetFormat`, and the fields that are read by offset. -/
def fontFormat (font : List UInt8) : UInt8 := u8gFontGetByte font 0
def fontEncoding65Pos (font : List UInt8) : Nat := u8gFontGetWord font 6
def fontEncoding97Pos (font : List UInt8) : Nat := u8gFontGetWord font 8
def fontStartEncoding (font : List UInt8) : UInt8 := u8gFontGetByte font 10
def fontEndEncoding (font : List UInt8) : UInt8 := u8gFontGetByte font 11
def fontXAscent (font : List UInt8) : Int8 := (u8gFontGetByte font 15).toInt8
def fontXDescent (font : List UInt8) : Int8 := (u8gFontGetByte font 16).toInt8

/-- `u8g_font_GetFontGlyphStructureSize`. -/
def glyphStructureSize (font : List UInt8) : Nat :=
  if fontFormat font = 0 then 6 else if fontFormat font = 1 then 3
  else if fontFormat font = 2 then 6 else 3

/-- The glyph cache of `u8g_t`. -/
structure Glyph where
  dx : Int8
  x : Int8
  y : Int8
  width : UInt8
  height : UInt8
  deriving DecidableEq, Repr

/-- `u8g_FillEmptyGlyphCache`. -/
def Glyph.empty : Glyph := ⟨0, 0, 0, 0, 0⟩

/-- `u8g_CopyGlyphDataToCache`; `g` is the memory from the glyph on. -/
def copyGlyphData (font g : List UInt8) : Glyph :=
  if fontFormat font = 0 ∨ fontFormat font = 2 then
    { width := g.getD 0 0, height := g.getD 1 0, dx := (g.getD 3 0).toInt8,
      x := (g.getD 4 0).toInt8, y := (g.getD 5 0).toInt8 }
  else
    { y := (g.getD 0 0 &&& 15).toInt8 - 2, x := (g.getD 0 0 >>> 4).toInt8,
      height := g.getD 1 0 &&& 15, width := g.getD 1 0 >>> 4, dx := (g.getD 2 0 >>> 4).toInt8 }

/-- The `for` of `u8g_GetGlyph` at encoding `i`, `left` encodings before the last one; `p` is the
memory from the pointer on. -/
def searchGlyph (requested mask : UInt8) (size : Nat) :
    Nat → UInt8 → List UInt8 → Option (List UInt8)
  | left, i, p =>
    if p.getD 0 0 ≠ 255 ∧ i = requested then some p
    else
      let p := if p.getD 0 0 = 255 then p.drop 1 else p.drop ((p.getD 2 0 &&& mask).toNat + size)
      match left with
      | 0 => none
      | left + 1 => searchGlyph requested mask size left (i + 1) p

/-- `u8g_GetGlyph`: the memory from the glyph on, and the glyph cache. -/
def u8gGetGlyph (font : List UInt8) (requested : UInt8) : Option (List UInt8) × Glyph :=
  let mask := if fontFormat font = 1 then 15 else 255
  let (start, p) :=
    if requested ≥ 97 ∧ fontEncoding97Pos font > 0 then (97, font.drop (fontEncoding97Pos font))
    else if requested ≥ 65 ∧ fontEncoding65Pos font > 0 then
      (65, font.drop (fontEncoding65Pos font))
    else (fontStartEncoding font, font.drop fontDataStructSize)
  let last := fontEndEncoding font
  if requested > last then (none, .empty)
  else if start ≤ last then
    match searchGlyph requested mask (glyphStructureSize font) (last - start).toNat start p with
    | some g => (some g, copyGlyphData font g)
    | none => (none, .empty)
  else (none, .empty)

/-! ## Drawing -/

/-- The inner `for` of `u8g_draw_glyph`. -/
def drawGlyphRow : Nat → UInt8 → UInt8 → List UInt8 → U8g → U8g
  | 0, _, _, _, u => u
  | n + 1, ix, iy, data, u =>
    drawGlyphRow n (ix + 8) iy (data.drop 1) (u8gDraw8Pixel ix iy .right (data.getD 0 0) u)

/-- The outer `for`, with `w` bytes per line. -/
def drawGlyphRows (w : Nat) (x : UInt8) : Nat → UInt8 → List UInt8 → U8g → U8g
  | 0, _, _, u => u
  | rows + 1, iy, data, u =>
    drawGlyphRows w x rows (iy + 1) (data.drop w) (drawGlyphRow w x iy data u)

/-- `u8g_draw_glyph` in `font`: what it returns, and the state after it. -/
def u8gDrawGlyph (font : List UInt8) (x y encoding : UInt8) (u : U8g) : Int8 × U8g :=
  match u8gGetGlyph font encoding with
  | (none, _) => (0, u)
  | (some g, glyph) =>
    let data := g.drop (glyphStructureSize font)
    let w := glyph.width
    let h := glyph.height
    let x := x + glyph.x.toUInt8
    let y := y - glyph.y.toUInt8 - 1
    if u8gIsBBXIntersection u x (y - h + 1) w h = false then (glyph.dx, u)
    else (glyph.dx, drawGlyphRows ((w + 7) / 8).toNat x h.toNat (y - h + 1) data u)

/-- The font the state has, which `u8g_SetFont` has set. -/
def U8g.fontData (u : U8g) : List UInt8 := (u.font.map u8gFontData).getD []

/-- `u8g_font_calc_vref_font` and `u8g_font_calc_vref_center`. -/
def fontCalcVref (u : U8g) : UInt8 :=
  match u.fontPos with
  | .baseline => 0
  | .center => ((u.fontRefAscent - u.fontRefDescent) / 2 + u.fontRefDescent).toUInt8

/-- The `while` of `u8g_DrawStr`; `t` is the width so far. -/
def drawStrFrom (font : List UInt8) (y : UInt8) :
    List UInt8 → UInt8 → UInt8 → U8g → UInt8 × U8g
  | [], _, t, u => (t, u)
  | c :: s, x, t, u =>
    let r := u8gDrawGlyph font x y c u
    drawStrFrom font y s (x + r.1.toUInt8) (t + r.1.toUInt8) r.2

/-- `u8g_DrawStr` of a string without its NUL. -/
def u8gDrawStr (x y : UInt8) (s : List UInt8) (u : U8g) : UInt8 × U8g :=
  drawStrFrom u.fontData (y + fontCalcVref u) s x 0 u

/-- `u8g_GetStrWidth`. -/
def u8gGetStrWidth (font : List UInt8) (s : List UInt8) : UInt8 :=
  s.foldl (fun w c => w + (u8gGetGlyph font c).2.dx.toUInt8) 0

/-- `u8g_SetFont`; the height mode is that of `u8g_init_data`, and no line spacing is used. -/
def u8gSetFont (font : U8gFont) (u : U8g) : U8g :=
  if u.font ≠ some font then
    { u with
      font := some font
      fontRefAscent := fontXAscent (u8gFontData font)
      fontRefDescent := fontXDescent (u8gFontData font)
      fontPos := .baseline }
  else u

def u8gSetFontPosCenter (u : U8g) : U8g := { u with fontPos := .center }

/-! ## What is painted -/

/-- The bits of a bitmap of `h` rows of `w` bytes, from `(x, y)` on. -/
def bitmapPixels (w h : Nat) (x y : UInt8) (data : List UInt8) : Set Pixel :=
  {p | ∃ j < h, ∃ i < 8 * w, (data.getD (w * j + i / 8) 0).toNat.testBit (7 - i % 8) = true ∧
    p = (x + .ofNat i, y + .ofNat j)}

theorem getD_drop (data : List UInt8) (n i : Nat) :
    (data.drop n).getD i 0 = data.getD (n + i) 0 := by
  simp [List.getD, List.getElem?_drop]

/-- The first byte of a row, and the rest. -/
theorem mem_row_succ (n : Nat) (x y : UInt8) (data : List UInt8) (color : UInt8) (p : Pixel) :
    p ∈ (⟨x, y, data.getD 0 0, .right, color⟩ : U8gDevArgPixel).pixels 8 ∨
        p ∈ bitmapPixels n 1 (x + 8) y (data.drop 1) ↔ p ∈ bitmapPixels (n + 1) 1 x y data := by
  have hnext (i : Nat) : x + 8 + .ofNat i = x + .ofNat (8 + i) := by
    rw [UInt8.ofNat_add, ← UInt8.add_assoc]
    rfl
  have hat (i : Nat) : (⟨x, y, data.getD 0 0, .right, color⟩ : U8gDevArgPixel).at i =
      (x + .ofNat i, y + .ofNat 0) := by
    simp [U8gDevArgPixel.at, PixelDir.step]
  constructor
  · rintro (⟨i, hi, hbit, rfl⟩ | ⟨j, hj, i, hi, hbit, rfl⟩)
    · have hdiv : (n + 1) * 0 + i / 8 = 0 := by omega
      exact ⟨0, Nat.zero_lt_one, i, by omega, by rwa [hdiv, Nat.mod_eq_of_lt hi], hat i⟩
    · obtain rfl : j = 0 := by omega
      rw [getD_drop] at hbit
      have hdiv : (n + 1) * 0 + (8 + i) / 8 = 1 + (n * 0 + i / 8) := by omega
      have hmod : (8 + i) % 8 = i % 8 := by omega
      exact ⟨0, Nat.zero_lt_one, 8 + i, by omega, by rwa [hdiv, hmod], by rw [hnext]⟩
  · rintro ⟨j, hj, i, hi, hbit, rfl⟩
    obtain rfl : j = 0 := by omega
    by_cases hlt : i < 8
    · have hdiv : (n + 1) * 0 + i / 8 = 0 := by omega
      rw [hdiv, Nat.mod_eq_of_lt hlt] at hbit
      exact .inl ⟨i, hlt, hbit, (hat i).symm⟩
    · have hdiv : (n + 1) * 0 + i / 8 = 1 + (n * 0 + (i - 8) / 8) := by omega
      have hmod : i % 8 = (i - 8) % 8 := by omega
      rw [hdiv, hmod, ← getD_drop] at hbit
      exact .inr ⟨0, Nat.zero_lt_one, i - 8, by omega, hbit, by
        rw [hnext, show 8 + (i - 8) = i by omega]⟩

theorem draws_glyphRow {u : U8g} (hu : u.Ready) (n : Nat) (x y : UInt8) (data : List UInt8) :
    Draws u (drawGlyphRow n x y data u) (u.cover (bitmapPixels n 1 x y data)) := by
  induction n generalizing x data u with
  | zero =>
    have hempty : bitmapPixels 0 1 x y data = ∅ := by
      ext p
      refine ⟨fun ⟨j, _, i, hi, _⟩ => ?_, fun h => h.elim⟩
      omega
    rw [hempty, cover_empty]
    exact .none fun p _ hp => hp
  | succ n ih =>
    have hbyte := draws_8pixel hu x y (.inl rfl : PixelDir.right = .right ∨ PixelDir.right = .down)
      (data.getD 0 0)
    have hrest := ih (hbyte.ready hu) (x + 8) (data.drop 1)
    rw [hbyte.cover] at hrest
    refine (hbyte.trans hrest).congr fun p _ => ?_
    rw [cover_union]
    have hset : (⟨x, y, data.getD 0 0, .right, u.color⟩ : U8gDevArgPixel).pixels 8 ∪
        bitmapPixels n 1 (x + 8) y (data.drop 1) = bitmapPixels (n + 1) 1 x y data := by
      ext q
      exact mem_row_succ n x y data u.color q
    rw [hset]

/-- The first row, and the rest. -/
theorem bitmapPixels_succ (w h : Nat) (x y : UInt8) (data : List UInt8) :
    bitmapPixels w 1 x y data ∪ bitmapPixels w h x (y + 1) (data.drop w) =
      bitmapPixels w (h + 1) x y data := by
  have hnext (j : Nat) : y + 1 + .ofNat j = y + .ofNat (1 + j) := by
    rw [UInt8.ofNat_add, ← UInt8.add_assoc]
    rfl
  have hindex (j i : Nat) : w * (1 + j) + i = w + (w * j + i) := by
    rw [Nat.mul_add, Nat.mul_one, Nat.add_assoc]
  ext p
  constructor
  · rintro (⟨j, hj, i, hi, hbit, rfl⟩ | ⟨j, hj, i, hi, hbit, rfl⟩)
    · exact ⟨j, by omega, i, hi, hbit, rfl⟩
    · rw [getD_drop, ← hindex] at hbit
      exact ⟨1 + j, by omega, i, hi, hbit, by rw [hnext]⟩
  · rintro ⟨j, hj, i, hi, hbit, rfl⟩
    cases j with
    | zero => exact .inl ⟨0, Nat.zero_lt_one, i, hi, hbit, rfl⟩
    | succ j =>
      rw [Nat.add_comm j 1] at hbit ⊢
      rw [hindex, ← getD_drop] at hbit
      exact .inr ⟨j, by omega, i, hi, hbit, by rw [hnext]⟩

theorem draws_glyphRows {u : U8g} (hu : u.Ready) (w h : Nat) (x y : UInt8) (data : List UInt8) :
    Draws u (drawGlyphRows w x h y data u) (u.cover (bitmapPixels w h x y data)) := by
  induction h generalizing y data u with
  | zero =>
    have hempty : bitmapPixels w 0 x y data = ∅ := by
      ext p
      exact ⟨fun ⟨j, hj, _⟩ => absurd hj (Nat.not_lt_zero j), fun h => h.elim⟩
    rw [hempty, cover_empty]
    exact .none fun p _ hp => hp
  | succ h ih =>
    have hrow := draws_glyphRow hu w x y data
    have hrest := ih (hrow.ready hu) (y + 1) (data.drop w)
    rw [hrow.cover] at hrest
    rw [← bitmapPixels_succ, ← cover_union]
    exact hrow.trans hrest

/-! ## Glyphs in their boxes -/

/-- The last `pad` bits of each of `rows` rows of `w` bytes are clear. -/
def rowsClear (w pad : Nat) : Nat → List UInt8 → Bool
  | 0, _ => true
  | rows + 1, data =>
    (data.getD (w - 1) 0).toNat % 2 ^ pad == 0 && rowsClear w pad rows (data.drop w)

/-- The bits of a bitmap past its width are clear. -/
def glyphOk (font : List UInt8) (encoding : UInt8) : Bool :=
  match u8gGetGlyph font encoding with
  | (some g, glyph) =>
    let w := ((glyph.width + 7) / 8).toNat
    rowsClear w (8 * w - glyph.width.toNat) glyph.height.toNat (g.drop (glyphStructureSize font))
  | (none, _) => true

/-- All bitmaps of the three fonts are. -/
theorem glyphOk_all (font : U8gFont) (encoding : UInt8) :
    glyphOk (u8gFontData font) encoding = true := by
  have hall : ∀ (font : U8gFont) (e : Fin 256), glyphOk (u8gFontData font) (.ofNat e) = true := by
    intro font
    cases font with
    | profont22r => decide +kernel
    | unifontUpper => decide +kernel
    | freedoomr10r => decide +kernel
  have h := hall font ⟨encoding.toNat, encoding.toNat_lt⟩
  rwa [UInt8.ofNat_toNat] at h

theorem rowsClear_row {w pad rows : Nat} {data : List UInt8} (hclear : rowsClear w pad rows data)
    {j : Nat} (hj : j < rows) : (data.getD (w * j + (w - 1)) 0).toNat % 2 ^ pad = 0 := by
  induction rows generalizing j data with
  | zero => exact absurd hj (Nat.not_lt_zero j)
  | succ rows ih =>
    obtain ⟨hfirst, hrest⟩ := Bool.and_eq_true_iff.mp hclear
    cases j with
    | zero =>
      rw [Nat.mul_zero, Nat.zero_add]
      exact beq_iff_eq.mp hfirst
    | succ j =>
      have hrow := ih hrest (Nat.lt_of_succ_lt_succ hj)
      rw [getD_drop] at hrow
      have hindex : w * (j + 1) + (w - 1) = w + (w * j + (w - 1)) := by
        rw [Nat.mul_succ]
        omega
      rwa [hindex]

/-- The bits past the width are in the last byte of a row. -/
theorem lt_width_of_bit {w width rows : Nat} {data : List UInt8} (hround : 8 * w < width + 8)
    (hclear : rowsClear w (8 * w - width) rows data) {j i : Nat} (hj : j < rows) (hi : i < 8 * w)
    (hbit : (data.getD (w * j + i / 8) 0).toNat.testBit (7 - i % 8) = true) : i < width := by
  by_contra hpast
  have hlast : i / 8 = w - 1 := by omega
  have hpad : 7 - i % 8 < 8 * w - width := by omega
  have hrow := rowsClear_row hclear hj
  have hbits := Nat.testBit_mod_two_pow (data.getD (w * j + (w - 1)) 0).toNat (8 * w - width)
    (7 - i % 8)
  rw [hrow, ← hlast, hbit, decide_eq_true hpad, Nat.zero_testBit] at hbits
  exact Bool.noConfusion hbits

/-- The pixels of a glyph of `font` whose reference point is `(x, y)`. -/
def glyphPixels (font : List UInt8) (x y encoding : UInt8) : Set Pixel :=
  match u8gGetGlyph font encoding with
  | (none, _) => ∅
  | (some g, glyph) =>
    bitmapPixels ((glyph.width + 7) / 8).toNat glyph.height.toNat (x + glyph.x.toUInt8)
      (y - glyph.y.toUInt8 - 1 - glyph.height + 1) (g.drop (glyphStructureSize font))

/-- The pixels of a string, whose first glyph is at `(x, y)`. -/
def strPixels (font : List UInt8) (y : UInt8) : List UInt8 → UInt8 → Set Pixel
  | [], _ => ∅
  | c :: s, x =>
    glyphPixels font x y c ∪ strPixels font y s (x + (u8gGetGlyph font c).2.dx.toUInt8)

theorem round_lt (width : UInt8) : 8 * ((width + 7) / 8).toNat < width.toNat + 8 := by
  rw [UInt8.toNat_div, UInt8.toNat_add]
  simp only [UInt8.reduceToNat]
  omega

/-- A glyph lies within its box, as its bitmap has no bit past its width. -/
theorem bitmapPixels_subset {x y width height : UInt8} {data : List UInt8}
    (hclear : rowsClear ((width + 7) / 8).toNat (8 * ((width + 7) / 8).toNat - width.toNat)
      height.toNat data) :
    bitmapPixels ((width + 7) / 8).toNat height.toNat x y data ⊆ bbx x y width height := by
  have hwithin (a l : UInt8) {i : Nat} (hi : i < l.toNat) :
      a + .ofNat i ∈ rowArc a (a + l - 1) := by
    refine mem_rowArc_of_lt ?_
    have hl := l.toNat_lt
    have hsub : a + .ofNat i - a = .ofNat i := by grind
    rw [hsub, UInt8.lt_iff_toNat_lt, UInt8.toNat_ofNat_of_lt' (show i < 256 by omega)]
    exact hi
  rintro _ ⟨j, hj, i, hi, hbit, rfl⟩
  exact ⟨hwithin x width (lt_width_of_bit (round_lt width) hclear hj hi hbit), hwithin y height hj⟩

/-- The glyph cache is empty where there is no glyph. -/
theorem getGlyph_none {font : List UInt8} {requested : UInt8} {glyph : Glyph}
    (hget : u8gGetGlyph font requested = (none, glyph)) : glyph = .empty := by
  unfold u8gGetGlyph at hget
  simp only at hget
  split at hget <;> grind

/-- The pixels of a glyph are as many columns and rows as its width and height say. -/
theorem mem_glyphPixels {font : U8gFont} {x y encoding : UInt8} {p : Pixel}
    (hp : p ∈ glyphPixels (u8gFontData font) x y encoding) {glyph : Glyph}
    (hglyph : (u8gGetGlyph (u8gFontData font) encoding).2 = glyph) :
    ∃ i < glyph.width.toNat, ∃ j < glyph.height.toNat,
      p = (x + glyph.x.toUInt8 + .ofNat i,
        y - glyph.y.toUInt8 - 1 - glyph.height + 1 + .ofNat j) := by
  have hok := glyphOk_all font encoding
  unfold glyphOk at hok
  unfold glyphPixels at hp
  cases hget : u8gGetGlyph (u8gFontData font) encoding with
  | mk found glyph' =>
    rw [hget] at hok hp hglyph
    obtain rfl : glyph' = glyph := hglyph
    cases found with
    | none => exact hp.elim
    | some g =>
      obtain ⟨j, hj, i, hi, hbit, rfl⟩ := hp
      exact ⟨i, lt_width_of_bit (round_lt glyph'.width) hok hj hi hbit, j, hj, rfl⟩

/-- `u8g_draw_glyph` moves on by the width of the glyph. -/
theorem drawGlyph_fst (font : List UInt8) (x y encoding : UInt8) (u : U8g) :
    (u8gDrawGlyph font x y encoding u).1 = (u8gGetGlyph font encoding).2.dx := by
  unfold u8gDrawGlyph
  cases hget : u8gGetGlyph font encoding with
  | mk g glyph =>
    cases g with
    | none => rw [getGlyph_none hget]; rfl
    | some g =>
      simp only
      split <;> rfl

theorem draws_glyph {u : U8g} (hu : u.Ready) (font : U8gFont) (x y encoding : UInt8)
    (hfits : u.Fits (glyphPixels (u8gFontData font) x y encoding)) :
    Draws u (u8gDrawGlyph (u8gFontData font) x y encoding u).2
      (u.cover (glyphPixels (u8gFontData font) x y encoding)) := by
  have hok := glyphOk_all font encoding
  unfold u8gDrawGlyph
  unfold glyphOk at hok
  unfold glyphPixels at hfits ⊢
  cases hget : u8gGetGlyph (u8gFontData font) encoding with
  | mk found glyph =>
    rw [hget] at hok hfits
    cases found with
    | none =>
      simp only [cover_empty]
      exact .none fun p _ hp => hp
    | some g =>
      have hsub := bitmapPixels_subset (x := x + glyph.x.toUInt8)
        (y := y - glyph.y.toUInt8 - 1 - glyph.height + 1) hok
      have hrows := draws_glyphRows hu ((glyph.width + 7) / 8).toNat glyph.height.toNat
        (x + glyph.x.toUInt8) (y - glyph.y.toUInt8 - 1 - glyph.height + 1)
        (g.drop (glyphStructureSize (u8gFontData font)))
      have hdraws := hrows.clipped hu hsub hfits
      simp only
      split at hdraws <;> simp_all

/-- A string is painted glyph after glyph, and what is returned is its width. -/
theorem draws_strFrom {u : U8g} (hu : u.Ready) (font : U8gFont) (y : UInt8) (s : List UInt8)
    (x t : UInt8) (hfits : u.Fits (strPixels (u8gFontData font) y s x)) :
    (drawStrFrom (u8gFontData font) y s x t u).1 =
        s.foldl (fun w c => w + (u8gGetGlyph (u8gFontData font) c).2.dx.toUInt8) t ∧
      Draws u (drawStrFrom (u8gFontData font) y s x t u).2
        (u.cover (strPixels (u8gFontData font) y s x)) := by
  induction s generalizing x t u with
  | nil =>
    refine ⟨rfl, ?_⟩
    rw [strPixels, cover_empty]
    exact .none fun p _ hp => hp
  | cons c s ih =>
    have hglyph := draws_glyph hu font x y c fun hdev q hq => hfits hdev q (.inl hq)
    have hrest := ih (hglyph.ready hu) (x + (u8gGetGlyph (u8gFontData font) c).2.dx.toUInt8)
      (t + (u8gGetGlyph (u8gFontData font) c).2.dx.toUInt8)
      ((hglyph.fits _).mpr fun hdev q hq => hfits hdev q (.inr hq))
    rw [hglyph.cover] at hrest
    rw [drawStrFrom, drawGlyph_fst, strPixels, ← cover_union]
    exact ⟨hrest.1, hglyph.trans hrest.2⟩

/-- `u8g_DrawStr` paints the string, and returns what `u8g_GetStrWidth` does. -/
theorem draws_str {u : U8g} (hu : u.Ready) {font : U8gFont} (hfont : u.font = some font)
    (x y : UInt8) (s : List UInt8)
    (hfits : u.Fits (strPixels (u8gFontData font) (y + fontCalcVref u) s x)) :
    (u8gDrawStr x y s u).1 = u8gGetStrWidth (u8gFontData font) s ∧
      Draws u (u8gDrawStr x y s u).2
        (u.cover (strPixels (u8gFontData font) (y + fontCalcVref u) s x)) := by
  have hdata : u.fontData = u8gFontData font := by
    rw [U8g.fontData, hfont]
    rfl
  rw [u8gDrawStr, hdata]
  exact draws_strFrom hu font (y + fontCalcVref u) s x 0 hfits

end Muchiwachi
