import Muchiwachi.Lcd
import Muchiwachi.Lib.Raster
import Mathlib.Data.Nat.Bitwise

/-!
# Pixels (`u8g_pb8h1.c`, `u8g_pb.c`, `u8g_clip.c`, `u8g_scale.c`, `u8g_ll_api.c`)

Everything `u8glib` draws arrives at the page buffer as one of two messages: a pixel, or a byte of
eight pixels in a row or a column. The buffer holds one page of the display, and what does not
lie on that page is dropped. A second device in front of it scales pictures by two.

`U8g` is the state these functions work on. `draws_baseFnPixel` says which pixels a message paints
on the page.
-/

namespace Muchiwachi

open Lib.Raster

/-- A place on the display: column and row. `u8g_uint_t` has 8 bits. -/
abbrev Pixel := UInt8 × UInt8

/-! ## State -/

/-- `u8g_box_t`. -/
structure U8gBox where
  x0 : UInt8
  y0 : UInt8
  x1 : UInt8
  y1 : UInt8
  deriving DecidableEq, Repr

/-- The first device of the chain: the display itself, or `u8g_dev_scale` in front of it. -/
inductive U8gDev where
  | ls010b7dh01 | scale2x2
  deriving DecidableEq, Repr

/-- The fonts the application draws with. -/
inductive U8gFont where
  | profont22r | unifontUpper | freedoomr10r
  deriving DecidableEq, Repr

/-- `font_calc_vref`: what the `y` of a text is. -/
inductive FontPos where
  | baseline | center
  deriving DecidableEq, Repr

/-- What `u8g_t` holds for drawing, with the page buffer of the display. -/
structure U8g where
  pb : U8gPb
  dev : U8gDev
  currentPage : U8gBox
  /-- `arg_pixel.color`. -/
  color : UInt8
  font : Option U8gFont
  fontRefAscent : Int8
  fontRefDescent : Int8
  fontPos : FontPos

/-- `u8g_SetColorIndex`. -/
def u8gSetColorIndex (idx : UInt8) (u : U8g) : U8g := { u with color := idx }

/-! ## The page buffer -/

/-- `dir` of `u8g_dev_arg_pixel_t`: 0, 1, 2 and 3. -/
inductive PixelDir where
  | right | down | left | up
  deriving DecidableEq, Repr

/-- `u8g_dev_arg_pixel_t`, as far as one bit for each pixel needs it. -/
structure U8gDevArgPixel where
  x : UInt8
  y : UInt8
  pixel : UInt8
  dir : PixelDir
  color : UInt8
  deriving DecidableEq, Repr

/-- Where `set_pixel` has the byte of a pixel in the buffer. -/
def U8gPb.offset (b : U8gPb) (x y : UInt8) : Nat :=
  ((b.width >>> 3) * (y - b.p.pageY0)).toNat + (x >>> 3).toNat

/-- The bit of a pixel in its byte. -/
def pixelMask (x : UInt8) : UInt8 := 0x80 >>> (x &&& 7)

/-- `u8g_pb8h1_set_pixel`, which relies on its caller for the bounds. -/
def u8gPb8h1SetPixelUnchecked (b : U8gPb) (x y color : UInt8) : U8gPb :=
  let byte := b.buf[b.offset x y]?.getD 0
  let byte := if color ≠ 0 then byte ||| pixelMask x else byte &&& (pixelMask x ^^^ 0xff)
  { b with buf := b.buf.setIfInBounds (b.offset x y) byte }

/-- `u8g_pb8h1_SetPixel`. -/
def u8gPb8h1SetPixel (b : U8gPb) (arg : U8gDevArgPixel) : U8gPb :=
  if arg.y < b.p.pageY0 then b
  else if arg.y > b.p.pageY1 then b
  else if arg.x ≥ b.width then b
  else u8gPb8h1SetPixelUnchecked b arg.x arg.y arg.color

/-- `dx` and `dy` of `u8g_pb8h1_Set8PixelOpt2`. -/
def PixelDir.step : PixelDir → UInt8 × UInt8
  | .right => (1, 0)
  | .down => (0, 1)
  | .left => (0 - 1, 0)
  | .up => (0, 0 - 1)

/-- The argument after a round of `u8g_pb8h1_Set8PixelOpt2`. -/
def U8gDevArgPixel.next (arg : U8gDevArgPixel) : U8gDevArgPixel :=
  { arg with
    x := arg.x + arg.dir.step.1
    y := arg.y + arg.dir.step.2
    pixel := arg.pixel <<< 1 }

/-- The `do` of `u8g_pb8h1_Set8PixelOpt2`, `rounds` times at most. -/
def set8PixelLoop : Nat → U8gPb → U8gDevArgPixel → U8gPb
  | 0, b, _ => b
  | rounds + 1, b, arg =>
    let b := if arg.pixel &&& 128 ≠ 0 then u8gPb8h1SetPixel b arg else b
    if arg.next.pixel ≠ 0 then set8PixelLoop rounds b arg.next else b

/-- `u8g_pb8h1_Set8PixelOpt2`; after eight rounds the byte is zero. -/
def u8gPb8h1Set8PixelOpt2 (b : U8gPb) (arg : U8gDevArgPixel) : U8gPb := set8PixelLoop 8 b arg

/-- `u8g_pb_IsYIntersection`: two of the three comparisons hold. -/
def u8gPbIsYIntersection (b : U8gPb) (v0 v1 : UInt8) : Bool :=
  let c1 := decide (v0 ≤ b.p.pageY1)
  let c2 := decide (v1 ≥ b.p.pageY0)
  let c3 := decide (v0 > v1)
  (c1 && c2) || (c2 && c3) || (c3 && c1)

/-- `u8g_pb_Is8PixelVisible`. -/
def u8gPbIs8PixelVisible (b : U8gPb) (arg : U8gDevArgPixel) : Bool :=
  match arg.dir with
  | .down => u8gPbIsYIntersection b arg.y (arg.y + 8)
  | .up => u8gPbIsYIntersection b (arg.y - 8) arg.y
  | _ => u8gPbIsYIntersection b arg.y arg.y

/-- The drawing messages. -/
inductive PixelMsg where
  | setPixel | set8Pixel
  deriving DecidableEq, Repr

/-- `u8g_dev_pb8h1_base_fn` on a drawing message. -/
def baseFnPixel (msg : PixelMsg) (arg : U8gDevArgPixel) (b : U8gPb) : U8gPb :=
  match msg with
  | .setPixel => u8gPb8h1SetPixel b arg
  | .set8Pixel => if u8gPbIs8PixelVisible b arg then u8gPb8h1Set8PixelOpt2 b arg else b

/-! ## The scaling device -/

/-- The `for` of `u8g_dev_scale_2x2_fn`: each bit of `pixel` twice, in 16 bits. -/
def scalePixel (pixel : UInt8) : UInt16 :=
  ((List.range 8).foldl (fun (st : UInt16 × UInt8) _ =>
    let scaled := st.1 <<< 2
    (if st.2 &&& 128 ≠ 0 then scaled ||| 3 else scaled, st.2 <<< 1)) (0, pixel)).1

/-- `u8g_dev_scale_2x2_fn` on a drawing message; `b` is the buffer of the next device. -/
def scaleFnPixel (msg : PixelMsg) (arg : U8gDevArgPixel) (b : U8gPb) : U8gPb :=
  let x := arg.x * 2
  let y := arg.y * 2
  match msg with
  | .setPixel =>
    let b := baseFnPixel msg { arg with x := x, y := y } b
    let b := baseFnPixel msg { arg with x := x + 1, y := y } b
    let b := baseFnPixel msg { arg with x := x + 1, y := y + 1 } b
    baseFnPixel msg { arg with x := x, y := y + 1 } b
  | .set8Pixel =>
    let vertical := arg.dir = .down ∨ arg.dir = .up
    let xx := if vertical then x + 1 else x
    let yy := if vertical then y else y + 1
    let scaled := scalePixel arg.pixel
    let hi := (scaled >>> 8).toUInt8
    let lo := (scaled &&& 255).toUInt8
    let dx := 8 * arg.dir.step.1
    let dy := 8 * arg.dir.step.2
    let b := baseFnPixel msg { arg with x := x, y := y, pixel := hi } b
    let b := baseFnPixel msg { arg with x := xx, y := yy, pixel := hi } b
    let b := baseFnPixel msg { arg with x := x + dx, y := y + dy, pixel := lo } b
    baseFnPixel msg { arg with x := xx + dx, y := yy + dy, pixel := lo } b

/-- `u8g_call_dev_fn` with a drawing message. -/
def u8gCallDevFn (msg : PixelMsg) (arg : U8gDevArgPixel) (u : U8g) : U8g :=
  { u with
    pb := match u.dev with
      | .ls010b7dh01 => baseFnPixel msg arg u.pb
      | .scale2x2 => scaleFnPixel msg arg u.pb }

/-- `u8g_DrawPixel`. -/
def u8gDrawPixel (x y : UInt8) (u : U8g) : U8g :=
  u8gCallDevFn .setPixel ⟨x, y, 0, .right, u.color⟩ u

/-- `u8g_Draw8Pixel`. -/
def u8gDraw8Pixel (x y : UInt8) (dir : PixelDir) (pixel : UInt8) (u : U8g) : U8g :=
  u8gCallDevFn .set8Pixel ⟨x, y, pixel, dir, u.color⟩ u

/-! ## Clipping -/

/-- `u8g_pb_GetPageBox`. -/
def u8gPbGetPageBox (b : U8gPb) : U8gBox := ⟨0, b.p.pageY0, b.width - 1, b.p.pageY1⟩

/-- `U8G_DEV_MSG_GET_PAGE_BOX`. -/
def u8gGetPageBox (u : U8g) : U8gBox :=
  let box := u8gPbGetPageBox u.pb
  match u.dev with
  | .ls010b7dh01 => box
  | .scale2x2 => ⟨box.x0 / 2, box.y0 / 2, box.x1 / 2, box.y1 / 2⟩

/-- `u8g_UpdateDimension`; nothing that is drawn depends on the other fields it sets. -/
def u8gUpdateDimension (u : U8g) : U8g := { u with currentPage := u8gGetPageBox u }

def u8gSetScale2x2 (u : U8g) : U8g := u8gUpdateDimension { u with dev := .scale2x2 }

def u8gUndoScale (u : U8g) : U8g :=
  if u.dev ≠ .scale2x2 then u else u8gUpdateDimension { u with dev := .ls010b7dh01 }

/-- `u8g_is_intersection_decision_tree`. -/
def isIntersectionDecisionTree (a0 a1 v0 v1 : UInt8) : Bool :=
  if v0 ≤ a1 then
    if v1 ≥ a0 then true
    else if v0 > v1 then true else false
  else
    if v1 ≥ a0 then
      if v0 > v1 then true else false
    else false

/-- `u8g_IsBBXIntersection`. -/
def u8gIsBBXIntersection (u : U8g) (x y w h : UInt8) : Bool :=
  if isIntersectionDecisionTree u.currentPage.y0 u.currentPage.y1 y (y + h - 1) = false then false
  else isIntersectionDecisionTree u.currentPage.x0 u.currentPage.x1 x (x + w - 1)

/-! ## The bits of a page -/

namespace U8gPb

/-- The bit of a pixel. -/
def bit (b : U8gPb) (p : Pixel) : Bool :=
  (b.buf[b.offset p.1 p.2]?.getD 0 &&& pixelMask p.1) != 0

/-- The pixels of the page. -/
def window (b : U8gPb) : Set Pixel :=
  {p | p.1 < b.width ∧ b.p.pageY0 ≤ p.2 ∧ p.2 ≤ b.p.pageY1}

/-- The buffer is that of the display, on one of its pages. -/
structure OnPage (b : U8gPb) : Prop where
  dims : b.Dims
  page : ∃ k < 16, b.p = pageAt k

variable {b : U8gPb}

theorem mem_window (hb : b.Dims) {k : Nat} (hk : k < 16) (hp : b.p = pageAt k) {p : Pixel} :
    p ∈ b.window ↔ p.1.toNat < 128 ∧ 8 * k ≤ p.2.toNat ∧ p.2.toNat ≤ 8 * k + 7 := by
  have hwidth : b.width.toNat = 128 := by rw [hb.width]; rfl
  have hy0 : b.p.pageY0.toNat = 8 * k := by
    simp only [hp, pageAt, UInt8.toNat_ofNat']
    omega
  have hy1 : b.p.pageY1.toNat = 8 * k + 7 := by
    simp only [hp, pageAt, UInt8.toNat_ofNat']
    omega
  show p.1 < b.width ∧ b.p.pageY0 ≤ p.2 ∧ p.2 ≤ b.p.pageY1 ↔ _
  rw [UInt8.lt_iff_toNat_lt, UInt8.le_iff_toNat_le, UInt8.le_iff_toNat_le, hwidth, hy0, hy1]

/-- The bytes of a page lie row after row. -/
theorem offset_eq (hb : b.Dims) {k : Nat} (hk : k < 16) (hp : b.p = pageAt k) {p : Pixel}
    (hw : p ∈ b.window) :
    b.offset p.1 p.2 = 16 * (p.2.toNat - 8 * k) + p.1.toNat / 8 := by
  obtain ⟨-, hlo, hhi⟩ := (mem_window hb hk hp).mp hw
  have hy0 : b.p.pageY0.toNat = 8 * k := by
    simp only [hp, pageAt, UInt8.toNat_ofNat']
    omega
  have hsub : (p.2 - b.p.pageY0).toNat = p.2.toNat - 8 * k := by
    rw [UInt8.toNat_sub_of_le _ _ (UInt8.le_iff_toNat_le.mpr (by omega)), hy0]
  have hwidth : b.width >>> 3 = 16 := by rw [hb.width]; rfl
  have hdiv : (p.1 >>> 3).toNat = p.1.toNat / 8 := by
    simp [UInt8.toNat_shiftRight, Nat.shiftRight_eq_div_pow]
  rw [offset, hwidth, UInt8.toNat_mul, hsub, hdiv, show (16 : UInt8).toNat = 16 from rfl]
  omega

end U8gPb

theorem and_seven (x : UInt8) : x &&& 7 = .ofNat (x.toNat % 8) := by
  refine UInt8.toNat_inj.mp ?_
  rw [UInt8.toNat_and, UInt8.toNat_ofNat']
  have hand : x.toNat &&& 7 = x.toNat % 8 := Nat.and_two_pow_sub_one_eq_mod _ 3
  rw [show (7 : UInt8).toNat = 7 from rfl, hand]
  omega

/-- Bit `i` of a byte, from the left. -/
def byteMask (i : Nat) : UInt8 := (0x80 : UInt8) >>> UInt8.ofNat i

theorem pixelMask_eq (x : UInt8) : pixelMask x = byteMask (x.toNat % 8) := by
  rw [pixelMask, and_seven, byteMask]

theorem toNat_byteMask {i : Nat} (hi : i < 8) : (byteMask i).toNat = 2 ^ (7 - i) := by
  have hall : ∀ i : Fin 8, (byteMask i).toNat = 2 ^ (7 - i.val) := by decide
  exact hall ⟨i, hi⟩

theorem and_byteMask (v : UInt8) {i : Nat} (hi : i < 8) :
    (v &&& byteMask i != 0) = v.toNat.testBit (7 - i) := by
  have hzero : v &&& byteMask i = 0 ↔ v.toNat.testBit (7 - i) = false := by
    rw [← UInt8.toNat_inj, UInt8.toNat_and, toNat_byteMask hi, Nat.and_two_pow]
    cases v.toNat.testBit (7 - i) <;> simp
  cases hbit : v.toNat.testBit (7 - i) with
  | false => simp [hzero.mpr hbit]
  | true => simp [hzero, hbit]

/-- Setting a bit of a byte. -/
theorem set_byteMask (v : UInt8) {i j : Nat} (hi : i < 8) (hj : j < 8) :
    ((v ||| byteMask i) &&& byteMask j != 0) = (i == j || v &&& byteMask j != 0) := by
  have hij : (7 - i == 7 - j) = (i == j) := by rw [Bool.eq_iff_iff, beq_iff_eq, beq_iff_eq]; omega
  rw [and_byteMask _ hj, and_byteMask _ hj, UInt8.toNat_or, Nat.testBit_or, toNat_byteMask hi,
    Nat.testBit_two_pow, ← hij, Bool.or_comm]
  rfl

/-- Clearing a bit of a byte. -/
theorem clear_byteMask (v : UInt8) {i j : Nat} (hi : i < 8) (hj : j < 8) :
    ((v &&& (byteMask i ^^^ 0xff)) &&& byteMask j != 0) =
      (i != j && v &&& byteMask j != 0) := by
  have hij : (7 - i == 7 - j) = (i == j) := by rw [Bool.eq_iff_iff, beq_iff_eq, beq_iff_eq]; omega
  have hones : Nat.testBit 255 (7 - j) = true := by
    have hall : ∀ j : Fin 8, Nat.testBit 255 (7 - j.val) = true := by decide
    exact hall ⟨j, hj⟩
  rw [and_byteMask _ hj, and_byteMask _ hj, UInt8.toNat_and, UInt8.toNat_xor, Nat.testBit_and,
    Nat.testBit_xor, toNat_byteMask hi, Nat.testBit_two_pow, bne, ← hij, Bool.and_comm,
    show (0xff : UInt8).toNat = 255 from rfl, hones, Bool.xor_true]
  rfl

namespace U8gPb

variable {b : U8gPb}

/-- What `set_pixel` does to the bits of the page. -/
theorem bit_setPixel (hb : b.Dims) {k : Nat} (hk : k < 16) (hp : b.p = pageAt k)
    {x y : UInt8} (hxy : (x, y) ∈ b.window) (color : UInt8) {p : Pixel} (hw : p ∈ b.window) :
    (u8gPb8h1SetPixelUnchecked b x y color).bit p = if p = (x, y) then color != 0 else b.bit p := by
  have ho := offset_eq hb hk hp hxy
  have hop := offset_eq hb hk hp hw
  obtain ⟨hx, hlo, hhi⟩ := (mem_window hb hk hp).mp hxy
  obtain ⟨hpx, hplo, hphi⟩ := (mem_window hb hk hp).mp hw
  simp only at ho hx hlo hhi
  have hoff : (u8gPb8h1SetPixelUnchecked b x y color).offset p.1 p.2 = b.offset p.1 p.2 := rfl
  have hsame : p = (x, y) ↔ b.offset p.1 p.2 = b.offset x y ∧ x.toNat % 8 = p.1.toNat % 8 := by
    rw [ho, hop, Prod.ext_iff, ← UInt8.toNat_inj, ← UInt8.toNat_inj]
    constructor
    · rintro ⟨h1, h2⟩
      simp only [h1, h2, and_self]
    · rintro ⟨h1, h2⟩
      exact ⟨by simp only; omega, by simp only; omega⟩
  unfold bit
  rw [hoff]
  by_cases hbyte : b.offset p.1 p.2 = b.offset x y
  · have hlt : b.offset x y < 128 := by omega
    have hi : x.toNat % 8 < 8 := by omega
    have hj : p.1.toNat % 8 < 8 := by omega
    have hp_iff : p = (x, y) ↔ x.toNat % 8 = p.1.toNat % 8 := by simp [hsame, hbyte]
    simp only [u8gPb8h1SetPixelUnchecked, hbyte, pixelMask_eq,
      Vector.getElem?_setIfInBounds_self_of_lt hlt, Option.getD_some, hp_iff]
    by_cases hc : color = 0
    · simp only [hc, ne_eq, not_true_eq_false, if_false, clear_byteMask _ hi hj]
      by_cases hbit : x.toNat % 8 = p.1.toNat % 8 <;> simp [hbit]
    · rw [if_pos hc, set_byteMask _ hi hj]
      by_cases hbit : x.toNat % 8 = p.1.toNat % 8 <;> simp [hbit, hc]
  · have hne : ¬ p = (x, y) := fun h => hbyte (hsame.mp h).1
    rw [if_neg hne]
    simp only [u8gPb8h1SetPixelUnchecked]
    rw [Vector.getElem?_setIfInBounds_ne (Ne.symm hbyte)]

end U8gPb

/-! ## Messages paint pixels -/

/-- The page buffer as something drawn on, with `on` the color. -/
def pageSurface (on : Bool) : Surface U8gPb Pixel where
  window b := b.window
  lit b := {p | b.bit p = true}
  ink _ := on

/-- From `b` to `b'` the pixels of `S` are painted on the page. -/
structure PageDraws (on : Bool) (b b' : U8gPb) (S : Set Pixel) : Prop where
  page : b'.p = b.p
  width : b'.width = b.width
  paints : (pageSurface on).Paints b b' S

namespace PageDraws

variable {on : Bool} {b b' b'' : U8gPb} {S T : Set Pixel}

theorem trans (h : PageDraws on b b' S) (h' : PageDraws on b' b'' T) :
    PageDraws on b b'' (S ∪ T) :=
  ⟨h'.page.trans h.page, h'.width.trans h.width, h.paints.trans h'.paints⟩

theorem congr (h : PageDraws on b b' S) (hST : ∀ p ∈ b.window, (p ∈ S ↔ p ∈ T)) :
    PageDraws on b b' T :=
  ⟨h.page, h.width, h.paints.congr hST⟩

theorem none (hS : ∀ p ∈ b.window, p ∉ S) : PageDraws on b b S := ⟨rfl, rfl, .none hS⟩

theorem onPage (h : PageDraws on b b' S) (hb : b.OnPage) : b'.OnPage := by
  obtain ⟨k, hk, hp⟩ := hb.page
  refine ⟨⟨?_, ?_, ?_⟩, k, hk, h.page.trans hp⟩
  · rw [h.page, hb.dims.pageHeight]
  · rw [h.page, hb.dims.totalHeight]
  · rw [h.width, hb.dims.width]

end PageDraws

/-- A pixel of the page is set, another one is dropped. -/
theorem draws_setPixel {b : U8gPb} (hb : b.OnPage) (arg : U8gDevArgPixel) :
    PageDraws (arg.color != 0) b (u8gPb8h1SetPixel b arg) {(arg.x, arg.y)} := by
  obtain ⟨k, hk, hp⟩ := hb.page
  by_cases hw : (arg.x, arg.y) ∈ b.window
  · have hbit := fun p hp' => U8gPb.bit_setPixel hb.dims hk hp hw arg.color (p := p) hp'
    have hset : u8gPb8h1SetPixel b arg = u8gPb8h1SetPixelUnchecked b arg.x arg.y arg.color := by
      obtain ⟨hx, hlo, hhi⟩ := hw
      unfold u8gPb8h1SetPixel
      rw [if_neg (UInt8.not_lt.mpr hlo), if_neg (UInt8.not_lt.mpr hhi),
        if_neg (UInt8.not_le.mpr hx)]
    rw [hset]
    refine ⟨rfl, rfl, rfl, rfl, fun p hpw hS => ?_, fun p hpw hS => ?_⟩
    · show U8gPb.bit _ p = true ↔ _
      rw [hbit p hpw, if_pos (Set.mem_singleton_iff.mp hS)]
      rfl
    · show U8gPb.bit _ p = true ↔ _
      rw [hbit p hpw, if_neg fun h => hS (Set.mem_singleton_iff.mpr h)]
      rfl
  · have hset : u8gPb8h1SetPixel b arg = b := by
      unfold u8gPb8h1SetPixel
      split
      · rfl
      · split
        · rfl
        · split
          · rfl
          · exact absurd ⟨UInt8.not_le.mp ‹_›, UInt8.not_lt.mp ‹_›, UInt8.not_lt.mp ‹_›⟩ hw
    rw [hset]
    refine PageDraws.none fun p hpw hS => ?_
    obtain rfl : p = (arg.x, arg.y) := hS
    exact hw hpw

/-- Pixel `i` of a byte that is drawn. -/
def U8gDevArgPixel.at (arg : U8gDevArgPixel) (i : Nat) : Pixel :=
  (arg.x + .ofNat i * arg.dir.step.1, arg.y + .ofNat i * arg.dir.step.2)

/-- The first `n` pixels of a byte that is drawn, as far as they are set. -/
def U8gDevArgPixel.pixels (arg : U8gDevArgPixel) (n : Nat) : Set Pixel :=
  {p | ∃ i < n, arg.pixel.toNat.testBit (7 - i) = true ∧ p = arg.at i}

theorem testBit_shiftLeft_one (pixel : UInt8) {i : Nat} (hi : i < 7) :
    (pixel <<< 1).toNat.testBit (7 - i) = pixel.toNat.testBit (7 - (i + 1)) := by
  have hshift : (pixel <<< 1).toNat = pixel.toNat * 2 ^ 1 % 2 ^ 8 := by
    rw [UInt8.toNat_shiftLeft, Nat.shiftLeft_eq]
    rfl
  rw [hshift, Nat.testBit_mod_two_pow, Nat.testBit_mul_two_pow]
  have h8 : 7 - i < 8 := by omega
  have h1 : 1 ≤ 7 - i := by omega
  simp only [h8, h1, decide_true, Bool.true_and]
  congr 1

theorem at_next (arg : U8gDevArgPixel) (i : Nat) : arg.next.at i = arg.at (i + 1) := by
  have hstep (a d : UInt8) : a + d + .ofNat i * d = a + .ofNat (i + 1) * d := by
    have hsucc : UInt8.ofNat (i + 1) = .ofNat i + 1 := UInt8.ofNat_add ..
    rw [hsucc, UInt8.add_mul, UInt8.one_mul, UInt8.add_assoc, UInt8.add_comm d]
  exact Prod.ext (hstep _ _) (hstep _ _)

/-- What the rest of a byte adds to its first pixel. -/
theorem mem_pixels_succ (arg : U8gDevArgPixel) {n : Nat} (hn : n < 8) (p : Pixel) :
    p ∈ arg.pixels (n + 1) ↔ (arg.pixel.toNat.testBit 7 = true ∧ p = (arg.x, arg.y)) ∨
      p ∈ arg.next.pixels n := by
  have hzero : arg.at 0 = (arg.x, arg.y) := by simp [U8gDevArgPixel.at]
  constructor
  · rintro ⟨i, hi, hbit, rfl⟩
    cases i with
    | zero => exact .inl ⟨hbit, hzero⟩
    | succ i =>
      refine .inr ⟨i, by omega, ?_, (at_next arg i).symm⟩
      exact (testBit_shiftLeft_one arg.pixel (by omega)).trans hbit
  · rintro (⟨hbit, rfl⟩ | ⟨i, hi, hbit, rfl⟩)
    · exact ⟨0, by omega, hbit, hzero.symm⟩
    · refine ⟨i + 1, by omega, ?_, at_next arg i⟩
      exact (testBit_shiftLeft_one arg.pixel (by omega)).symm.trans hbit

theorem pixels_zero {arg : U8gDevArgPixel} (h : arg.pixel = 0) (n : Nat) (p : Pixel) :
    p ∉ arg.pixels n := by
  rintro ⟨i, -, hbit, -⟩
  rw [h] at hbit
  simp at hbit

/-- The loop paints the pixels of the byte; a zero byte ends it early. -/
theorem draws_set8PixelLoop {n : Nat} (hn : n ≤ 8) {b : U8gPb} (hb : b.OnPage)
    (arg : U8gDevArgPixel) :
    PageDraws (arg.color != 0) b (set8PixelLoop n b arg) (arg.pixels n) := by
  induction n generalizing b arg with
  | zero => exact .none fun p _ ⟨_, hi, _⟩ => absurd hi (Nat.not_lt_zero _)
  | succ n ih =>
    have htop : arg.pixel &&& 128 ≠ 0 ↔ arg.pixel.toNat.testBit 7 = true := by
      rw [← and_byteMask arg.pixel (show 0 < 8 by omega), bne_iff_ne]
      rfl
    have hfirst : PageDraws (arg.color != 0) b
        (if arg.pixel &&& 128 ≠ 0 then u8gPb8h1SetPixel b arg else b)
        {p | arg.pixel.toNat.testBit 7 = true ∧ p = (arg.x, arg.y)} := by
      by_cases hbit : arg.pixel.toNat.testBit 7 = true
      · rw [if_pos (htop.mpr hbit)]
        exact (draws_setPixel hb arg).congr fun p _ => by simp [hbit]
      · rw [if_neg fun h => hbit (htop.mp h)]
        exact .none fun p _ h => hbit h.1
    unfold set8PixelLoop
    simp only
    by_cases hnext : arg.next.pixel = 0
    · rw [if_neg (not_not.mpr hnext)]
      refine hfirst.congr fun p _ => ?_
      rw [mem_pixels_succ arg (by omega) p]
      exact (or_iff_left (pixels_zero hnext n p)).symm
    · rw [if_pos hnext]
      have hrest := ih (by omega) (hfirst.onPage hb) arg.next
      exact (hfirst.trans hrest).congr fun p _ => (mem_pixels_succ arg (by omega) p).symm

/-! ## The clipping tests -/

/-- The rows, or columns, from `v0` to `v1`, which may come round past 255. -/
def rowArc (v0 v1 : UInt8) : Set UInt8 := {a | a - v0 ≤ v1 - v0}

theorem arc_meets {a0 a1 : UInt8} (ha : a0 ≤ a1) (v0 v1 : UInt8) :
    (∃ a ∈ rowArc v0 v1, a0 ≤ a ∧ a ≤ a1) ↔
      v0 ≤ a1 ∧ a0 ≤ v1 ∨ v0 ≤ a1 ∧ v1 < v0 ∨ a0 ≤ v1 ∧ v1 < v0 := by
  have hsub (a : UInt8) : (a - v0).toNat = (a.toNat + (256 - v0.toNat)) % 256 := by
    rw [UInt8.toNat_sub, Nat.add_comm]
  have hmeet := arc_meets_iff (n := 256) (UInt8.le_iff_toNat_le.mp ha) a1.toNat_lt v0.toNat_lt
    v1.toNat_lt
  simp only [UInt8.le_iff_toNat_le, UInt8.lt_iff_toNat_lt]
  rw [← hmeet]
  constructor
  · rintro ⟨a, harc, h0, h1⟩
    refine ⟨a.toNat, ⟨a.toNat_lt, ?_⟩, h0, h1⟩
    rw [← hsub, ← hsub]
    exact UInt8.le_iff_toNat_le.mp harc
  · rintro ⟨a, ⟨hlt, harc⟩, h0, h1⟩
    have ha : (UInt8.ofNat a).toNat = a := UInt8.toNat_ofNat_of_lt hlt
    refine ⟨.ofNat a, ?_, by rwa [ha], by rwa [ha]⟩
    refine UInt8.le_iff_toNat_le.mpr ?_
    rwa [hsub, hsub, ha]

/-- The test the decision tree makes. -/
theorem decisionTree_iff {a0 a1 : UInt8} (ha : a0 ≤ a1) (v0 v1 : UInt8) :
    isIntersectionDecisionTree a0 a1 v0 v1 = true ↔ ∃ a ∈ rowArc v0 v1, a0 ≤ a ∧ a ≤ a1 := by
  rw [arc_meets ha]
  unfold isIntersectionDecisionTree
  by_cases h1 : v0 ≤ a1 <;> by_cases h2 : a0 ≤ v1 <;> by_cases h3 : v1 < v0 <;> simp [h1, h2, h3]

/-- The page buffer makes the same test with flags. -/
theorem isYIntersection_eq (b : U8gPb) (v0 v1 : UInt8) :
    u8gPbIsYIntersection b v0 v1 =
      isIntersectionDecisionTree b.p.pageY0 b.p.pageY1 v0 v1 := by
  unfold u8gPbIsYIntersection isIntersectionDecisionTree
  by_cases h1 : v0 ≤ b.p.pageY1 <;> by_cases h2 : b.p.pageY0 ≤ v1 <;> by_cases h3 : v1 < v0 <;>
    simp [h1, h2, h3]

theorem pageY0_le {b : U8gPb} (hb : b.OnPage) : b.p.pageY0 ≤ b.p.pageY1 := by
  obtain ⟨k, hk, hp⟩ := hb.page
  rw [hp, UInt8.le_iff_toNat_le]
  simp only [pageAt, UInt8.toNat_ofNat']
  omega

/-- The pixels a message is to paint. -/
def msgPixels (msg : PixelMsg) (arg : U8gDevArgPixel) : Set Pixel :=
  match msg with
  | .setPixel => {(arg.x, arg.y)}
  | .set8Pixel => arg.pixels 8

/-- The rows of a byte are among those its visibility test looks at. -/
theorem is8PixelVisible_of_mem {b : U8gPb} (hb : b.OnPage) {arg : U8gDevArgPixel} {p : Pixel}
    (hp : p ∈ arg.pixels 8) (hw : p ∈ b.window) : u8gPbIs8PixelVisible b arg = true := by
  obtain ⟨i, hi, -, rfl⟩ := hp
  obtain ⟨-, hlo, hhi⟩ := hw
  have hmeet (v0 v1 : UInt8) (h : (arg.at i).2 ∈ rowArc v0 v1) :
      u8gPbIsYIntersection b v0 v1 = true := by
    rw [isYIntersection_eq, decisionTree_iff (pageY0_le hb)]
    exact ⟨_, h, hlo, hhi⟩
  have hi8 : UInt8.ofNat i ≤ 8 := by
    rw [UInt8.le_iff_toNat_le, UInt8.toNat_ofNat_of_lt' (show i < 256 by omega)]
    exact hi.le
  unfold u8gPbIs8PixelVisible
  cases hdir : arg.dir with
  | right =>
    have hrow : (arg.at i).2 = arg.y := by simp [U8gDevArgPixel.at, hdir, PixelDir.step]
    exact hmeet _ _ (by simp [hrow, rowArc])
  | down =>
    have hrow : (arg.at i).2 - arg.y = .ofNat i := by
      simp only [U8gDevArgPixel.at, hdir, PixelDir.step]
      grind
    have hlast : arg.y + 8 - arg.y = 8 := by grind
    refine hmeet _ _ (?_ : (arg.at i).2 - arg.y ≤ arg.y + 8 - arg.y)
    rwa [hrow, hlast]
  | left =>
    have hrow : (arg.at i).2 = arg.y := by simp [U8gDevArgPixel.at, hdir, PixelDir.step]
    exact hmeet _ _ (by simp [hrow, rowArc])
  | up =>
    have hrow : (arg.at i).2 - (arg.y - 8) = 8 - .ofNat i := by
      simp only [U8gDevArgPixel.at, hdir, PixelDir.step]
      grind
    have hlast : arg.y - (arg.y - 8) = 8 := by grind
    refine hmeet _ _ (?_ : (arg.at i).2 - (arg.y - 8) ≤ arg.y - (arg.y - 8))
    rw [hrow, hlast, UInt8.le_iff_toNat_le, UInt8.toNat_sub_of_le _ _ hi8]
    exact Nat.sub_le ..

/-- A message paints its pixels, as far as they lie on the page. -/
theorem draws_baseFnPixel {b : U8gPb} (hb : b.OnPage) (msg : PixelMsg) (arg : U8gDevArgPixel) :
    PageDraws (arg.color != 0) b (baseFnPixel msg arg b) (msgPixels msg arg) := by
  cases msg with
  | setPixel => exact draws_setPixel hb arg
  | set8Pixel =>
    simp only [baseFnPixel, msgPixels]
    split
    · exact draws_set8PixelLoop (Nat.le_refl 8) hb arg
    · exact .none fun p hw hp => absurd (is8PixelVisible_of_mem hb hp hw) ‹_›

end Muchiwachi
