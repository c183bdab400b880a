import Muchiwachi.Pixels

/-!
# Drawing on a page

`Draws` says that an operation paints a set of pixels on the page that is being drawn, through the
scaling device or not, and changes nothing else. It is closed under sequencing, and under the
clipping test in front of most shapes: `isBBXIntersection_exact` says that the test is exact, and
`Draws.clipped` that it never hides anything.
-/

namespace Muchiwachi

open Lib.Raster

/-! ## Scaled pixels -/

/-- The two by two pixels for each pixel of `S`. -/
def doubled (S : Set Pixel) : Set Pixel :=
  {p | ∃ q ∈ S, (p.1 = q.1 * 2 ∨ p.1 = q.1 * 2 + 1) ∧ (p.2 = q.2 * 2 ∨ p.2 = q.2 * 2 + 1)}

/-- The two bytes a byte is scaled to. -/
theorem testBit_scalePixel (pixel : UInt8) {i : Nat} (hi : i < 8) :
    ((scalePixel pixel) >>> 8).toUInt8.toNat.testBit (7 - i) = pixel.toNat.testBit (7 - i / 2) ∧
      (scalePixel pixel &&& 255).toUInt8.toNat.testBit (7 - i) =
        pixel.toNat.testBit (7 - (8 + i) / 2) := by
  have hall : ∀ (pixel : BitVec 8) (i : Fin 8),
      ((scalePixel ⟨pixel⟩) >>> 8).toUInt8.toNat.testBit (7 - i.val) =
          pixel.toNat.testBit (7 - i.val / 2) ∧
        (scalePixel ⟨pixel⟩ &&& 255).toUInt8.toNat.testBit (7 - i.val) =
          pixel.toNat.testBit (7 - (8 + i.val) / 2) := by
    decide +kernel
  exact hall pixel.toBitVec ⟨i, hi⟩

/-- The argument of the first of the four bytes a scaled byte is drawn with, but for its bits. -/
def U8gDevArgPixel.scaled (arg : U8gDevArgPixel) : U8gDevArgPixel :=
  { arg with x := arg.x * 2, y := arg.y * 2 }

/-- The same one pixel across. -/
def U8gDevArgPixel.across (arg : U8gDevArgPixel) : U8gDevArgPixel :=
  { arg with x := arg.x + arg.dir.step.2, y := arg.y + arg.dir.step.1 }

theorem ofNat_double (i : Nat) : UInt8.ofNat (2 * i) = .ofNat i * 2 := by
  rw [UInt8.ofNat_mul, UInt8.mul_comm]
  rfl

theorem ofNat_double_succ (i : Nat) : UInt8.ofNat (2 * i + 1) = .ofNat i * 2 + 1 := by
  rw [UInt8.ofNat_add, ofNat_double]
  rfl

/-- The four pixels of pixel `i` of a byte that goes right or down. -/
theorem mem_doubled_at {arg : U8gDevArgPixel} (hdir : arg.dir = .right ∨ arg.dir = .down)
    (i : Nat) (p : Pixel) :
    ((p.1 = (arg.at i).1 * 2 ∨ p.1 = (arg.at i).1 * 2 + 1) ∧
        (p.2 = (arg.at i).2 * 2 ∨ p.2 = (arg.at i).2 * 2 + 1)) ↔
      (p = arg.scaled.at (2 * i) ∨ p = arg.scaled.at (2 * i + 1)) ∨
        (p = arg.scaled.across.at (2 * i) ∨ p = arg.scaled.across.at (2 * i + 1)) := by
  obtain ⟨px, py⟩ := p
  simp only [U8gDevArgPixel.at, U8gDevArgPixel.scaled, U8gDevArgPixel.across, ofNat_double,
    ofNat_double_succ, Prod.mk.injEq]
  obtain h | h := hdir
  · simp only [h, PixelDir.step]
    grind
  · simp only [h, PixelDir.step]
    grind

theorem mem_doubled_pixels {arg : U8gDevArgPixel} (hdir : arg.dir = .right ∨ arg.dir = .down)
    (p : Pixel) :
    p ∈ doubled (arg.pixels 8) ↔ ∃ i < 16, arg.pixel.toNat.testBit (7 - i / 2) = true ∧
      (p = arg.scaled.at i ∨ p = arg.scaled.across.at i) := by
  constructor
  · rintro ⟨_, ⟨i, hi, hbit, rfl⟩, hpix⟩
    have heven : 2 * i / 2 = i := by omega
    have hodd : (2 * i + 1) / 2 = i := by omega
    rcases (mem_doubled_at hdir i p).mp hpix with (h | h) | h | h
    · exact ⟨2 * i, by omega, by rwa [heven], .inl h⟩
    · exact ⟨2 * i + 1, by omega, by rwa [hodd], .inl h⟩
    · exact ⟨2 * i, by omega, by rwa [heven], .inr h⟩
    · exact ⟨2 * i + 1, by omega, by rwa [hodd], .inr h⟩
  · rintro ⟨i, hi, hbit, hpix⟩
    refine ⟨arg.at (i / 2), ⟨i / 2, by omega, hbit, rfl⟩, (mem_doubled_at hdir (i / 2) p).mpr ?_⟩
    rcases Nat.mod_two_eq_zero_or_one i with hmod | hmod
    · rw [show 2 * (i / 2) = i by omega]
      exact hpix.imp .inl .inl
    · rw [show 2 * (i / 2) + 1 = i by omega]
      exact hpix.imp .inr .inr

/-- The first half of a byte scaled to 16 pixels. -/
def U8gDevArgPixel.hi (arg : U8gDevArgPixel) : U8gDevArgPixel :=
  { arg with pixel := (scalePixel arg.pixel >>> 8).toUInt8 }

/-- The second half. -/
def U8gDevArgPixel.lo (arg : U8gDevArgPixel) : U8gDevArgPixel :=
  { arg with
    x := arg.x + 8 * arg.dir.step.1
    y := arg.y + 8 * arg.dir.step.2
    pixel := (scalePixel arg.pixel &&& 255).toUInt8 }

theorem at_lo (arg : U8gDevArgPixel) (i : Nat) : arg.lo.at i = arg.at (8 + i) := by
  have hadd (c d : UInt8) : c + 8 * d + .ofNat i * d = c + .ofNat (8 + i) * d := by
    rw [UInt8.ofNat_add]
    grind
  exact Prod.ext (hadd _ _) (hadd _ _)

theorem mem_halves (arg : U8gDevArgPixel) (p : Pixel) :
    p ∈ arg.hi.pixels 8 ∨ p ∈ arg.lo.pixels 8 ↔
      ∃ i < 16, arg.pixel.toNat.testBit (7 - i / 2) = true ∧ p = arg.at i := by
  constructor
  · rintro (⟨i, hi, hbit, rfl⟩ | ⟨i, hi, hbit, rfl⟩)
    · exact ⟨i, by omega, (testBit_scalePixel arg.pixel hi).1.symm.trans hbit, rfl⟩
    · exact ⟨8 + i, by omega, (testBit_scalePixel arg.pixel hi).2.symm.trans hbit, at_lo arg i⟩
  · rintro ⟨i, hi, hbit, rfl⟩
    by_cases hlt : i < 8
    · exact .inl ⟨i, hlt, (testBit_scalePixel arg.pixel hlt).1.trans hbit, rfl⟩
    · have hsub : 8 + (i - 8) = i := by omega
      have hbits := (testBit_scalePixel arg.pixel (by omega : i - 8 < 8)).2
      rw [hsub] at hbits
      exact .inr ⟨i - 8, by omega, hbits.trans hbit, by rw [at_lo, hsub]⟩

/-- Four messages of one color. -/
theorem draws_four {on : Bool} {b : U8gPb} (hb : b.OnPage) (msg : PixelMsg)
    {a1 a2 a3 a4 : U8gDevArgPixel} (h1 : (a1.color != 0) = on) (h2 : (a2.color != 0) = on)
    (h3 : (a3.color != 0) = on) (h4 : (a4.color != 0) = on) :
    PageDraws on b
      (baseFnPixel msg a4 (baseFnPixel msg a3 (baseFnPixel msg a2 (baseFnPixel msg a1 b))))
      (msgPixels msg a1 ∪ msgPixels msg a2 ∪ msgPixels msg a3 ∪ msgPixels msg a4) := by
  have hd1 := draws_baseFnPixel hb msg a1
  rw [h1] at hd1
  have hd2 := draws_baseFnPixel (hd1.onPage hb) msg a2
  rw [h2] at hd2
  have hd12 := hd1.trans hd2
  have hd3 := draws_baseFnPixel (hd12.onPage hb) msg a3
  rw [h3] at hd3
  have hd123 := hd12.trans hd3
  have hd4 := draws_baseFnPixel (hd123.onPage hb) msg a4
  rw [h4] at hd4
  exact hd123.trans hd4

theorem scaleFnPixel_set8Pixel {arg : U8gDevArgPixel} (hdir : arg.dir = .right ∨ arg.dir = .down)
    (b : U8gPb) :
    scaleFnPixel .set8Pixel arg b =
      baseFnPixel .set8Pixel arg.scaled.across.lo (baseFnPixel .set8Pixel arg.scaled.lo
        (baseFnPixel .set8Pixel arg.scaled.across.hi
          (baseFnPixel .set8Pixel arg.scaled.hi b))) := by
  have hacross : arg.scaled.across = { arg with
      x := if arg.dir = .down ∨ arg.dir = .up then arg.x * 2 + 1 else arg.x * 2
      y := if arg.dir = .down ∨ arg.dir = .up then arg.y * 2 else arg.y * 2 + 1 } := by
    obtain h | h := hdir <;>
      simp [U8gDevArgPixel.scaled, U8gDevArgPixel.across, PixelDir.step, h]
  rw [hacross]
  rfl

/-- The scaling device paints each pixel of a message as two by two pixels. -/
theorem draws_scaleFnPixel {b : U8gPb} (hb : b.OnPage) {msg : PixelMsg} {arg : U8gDevArgPixel}
    (hdir : arg.dir = .right ∨ arg.dir = .down) :
    PageDraws (arg.color != 0) b (scaleFnPixel msg arg b) (doubled (msgPixels msg arg)) := by
  cases msg with
  | setPixel =>
    simp only [scaleFnPixel]
    refine (draws_four hb .setPixel (by rfl) (by rfl) (by rfl) (by rfl)).congr fun p _ => ?_
    obtain ⟨px, py⟩ := p
    simp only [msgPixels, doubled, Set.mem_union, Set.mem_singleton_iff, Set.mem_ofPred_eq,
      exists_eq_left, Prod.mk.injEq]
    tauto
  | set8Pixel =>
    rw [scaleFnPixel_set8Pixel hdir]
    refine (draws_four hb .set8Pixel (by rfl) (by rfl) (by rfl) (by rfl)).congr fun p _ => ?_
    have hfront : p ∈ arg.scaled.hi.pixels 8 ∨ p ∈ arg.scaled.lo.pixels 8 ↔
        ∃ i < 16, arg.pixel.toNat.testBit (7 - i / 2) = true ∧ p = arg.scaled.at i :=
      mem_halves arg.scaled p
    have hback : p ∈ arg.scaled.across.hi.pixels 8 ∨ p ∈ arg.scaled.across.lo.pixels 8 ↔
        ∃ i < 16, arg.pixel.toNat.testBit (7 - i / 2) = true ∧ p = arg.scaled.across.at i :=
      mem_halves arg.scaled.across p
    have hsplit : p ∈ doubled (arg.pixels 8) ↔
        (∃ i < 16, arg.pixel.toNat.testBit (7 - i / 2) = true ∧ p = arg.scaled.at i) ∨
          ∃ i < 16, arg.pixel.toNat.testBit (7 - i / 2) = true ∧ p = arg.scaled.across.at i := by
      rw [mem_doubled_pixels hdir]
      simp only [and_or_left, exists_or]
    simp only [msgPixels, Set.mem_union]
    rw [hsplit, ← hfront, ← hback, or_or_or_comm, ← or_assoc]

/-! ## Drawing operations -/

/-- From `u` to `u'` the pixels of `S` are painted, and nothing else of the state changes. -/
structure Draws (u u' : U8g) (S : Set Pixel) : Prop where
  same : u' = { u with pb := u'.pb }
  page : PageDraws (u.color != 0) u.pb u'.pb S

/-- The library is drawing on a page: it has looked up the page's box. -/
structure U8g.Ready (u : U8g) : Prop where
  onPage : u.pb.OnPage
  box : u.currentPage = u8gGetPageBox u

/-- What the device makes of the pixels it is given. -/
def U8g.cover (u : U8g) (S : Set Pixel) : Set Pixel :=
  match u.dev with
  | .ls010b7dh01 => S
  | .scale2x2 => doubled S

/-- Scaled up, `S` still lies within the eight bits of a coordinate. -/
def U8g.Fits (u : U8g) (S : Set Pixel) : Prop :=
  u.dev = .scale2x2 → ∀ q ∈ S, q.1 < 128 ∧ q.2 < 128

namespace Draws

variable {u u' u'' : U8g} {S T : Set Pixel}

theorem trans (h : Draws u u' S) (h' : Draws u' u'' T) : Draws u u'' (S ∪ T) := by
  have hcolor : u'.color = u.color := by rw [h.same]
  refine ⟨?_, h.page.trans ?_⟩
  · rw [h'.same, h.same]
  · rw [← hcolor]
    exact h'.page

theorem congr (h : Draws u u' S) (hST : ∀ p ∈ u.pb.window, (p ∈ S ↔ p ∈ T)) : Draws u u' T :=
  ⟨h.same, h.page.congr hST⟩

theorem none (hS : ∀ p ∈ u.pb.window, p ∉ S) : Draws u u S := ⟨rfl, .none hS⟩

theorem dev (h : Draws u u' S) : u'.dev = u.dev := by rw [h.same]

theorem cover (h : Draws u u' S) (T : Set Pixel) : u'.cover T = u.cover T := by
  rw [U8g.cover, h.dev]
  rfl

theorem fits (h : Draws u u' S) (T : Set Pixel) : u'.Fits T ↔ u.Fits T := by
  rw [U8g.Fits, h.dev]
  rfl

theorem ready (h : Draws u u' S) (hu : u.Ready) : u'.Ready := by
  refine ⟨h.page.onPage hu.onPage, ?_⟩
  have hbox : u8gPbGetPageBox u'.pb = u8gPbGetPageBox u.pb := by
    rw [u8gPbGetPageBox, h.page.page, h.page.width]
    rfl
  rw [u8gGetPageBox, h.dev, hbox, h.same]
  exact hu.box

end Draws

theorem mem_cover {u : U8g} {S : Set Pixel} {p : Pixel} :
    p ∈ u.cover S ↔ ∃ q ∈ S, p ∈ u.cover {q} := by
  unfold U8g.cover
  cases u.dev with
  | ls010b7dh01 => simp
  | scale2x2 => simp [doubled]

theorem cover_union (u : U8g) (S T : Set Pixel) : u.cover S ∪ u.cover T = u.cover (S ∪ T) := by
  ext p
  rw [Set.mem_union, mem_cover, mem_cover, mem_cover]
  simp only [Set.mem_union, or_and_right, exists_or]

theorem cover_empty (u : U8g) : u.cover ∅ = ∅ := by
  ext p
  rw [mem_cover]
  simp

theorem draws_callDevFn {u : U8g} (hu : u.Ready) (msg : PixelMsg) {arg : U8gDevArgPixel}
    (hcolor : arg.color = u.color) (hdir : arg.dir = .right ∨ arg.dir = .down) :
    Draws u (u8gCallDevFn msg arg u) (u.cover (msgPixels msg arg)) := by
  refine ⟨rfl, ?_⟩
  unfold u8gCallDevFn U8g.cover
  rw [← hcolor]
  cases u.dev with
  | ls010b7dh01 => exact draws_baseFnPixel hu.onPage msg arg
  | scale2x2 => exact draws_scaleFnPixel hu.onPage hdir

/-- A pixel. -/
theorem draws_pixel {u : U8g} (hu : u.Ready) (x y : UInt8) :
    Draws u (u8gDrawPixel x y u) (u.cover {(x, y)}) :=
  draws_callDevFn hu .setPixel rfl (.inl rfl)

/-- A byte of pixels in a row or a column. -/
theorem draws_8pixel {u : U8g} (hu : u.Ready) (x y : UInt8) {dir : PixelDir}
    (hdir : dir = .right ∨ dir = .down) (pixel : UInt8) :
    Draws u (u8gDraw8Pixel x y dir pixel u)
      (u.cover ((⟨x, y, pixel, dir, u.color⟩ : U8gDevArgPixel).pixels 8)) :=
  draws_callDevFn hu .set8Pixel rfl hdir

/-! ## Clipping -/

/-- The pixels of a box, which may come round past column or row 255. -/
def bbx (x y w h : UInt8) : Set Pixel :=
  {q | q.1 ∈ rowArc x (x + w - 1) ∧ q.2 ∈ rowArc y (y + h - 1)}

def U8gBox.pixels (box : U8gBox) : Set Pixel :=
  {q | (box.x0 ≤ q.1 ∧ q.1 ≤ box.x1) ∧ box.y0 ≤ q.2 ∧ q.2 ≤ box.y1}

/-- The box the library has looked up, in numbers. -/
theorem currentPage_eq {u : U8g} (hu : u.Ready) : ∃ k < 16, u.pb.p = pageAt k ∧
    u.currentPage = match u.dev with
      | .ls010b7dh01 => ⟨0, .ofNat (8 * k), 127, .ofNat (8 * k + 7)⟩
      | .scale2x2 => ⟨0, .ofNat (4 * k), 63, .ofNat (4 * k + 3)⟩ := by
  obtain ⟨k, hk, hp⟩ := hu.onPage.page
  refine ⟨k, hk, hp, ?_⟩
  have hy0 : UInt8.ofNat (8 * k) / 2 = .ofNat (4 * k) := by
    rw [← UInt8.toNat_inj]
    simp only [UInt8.toNat_div, UInt8.toNat_ofNat', UInt8.reduceToNat]
    omega
  have hy1 : UInt8.ofNat (8 * k + 7) / 2 = .ofNat (4 * k + 3) := by
    rw [← UInt8.toNat_inj]
    simp only [UInt8.toNat_div, UInt8.toNat_ofNat', UInt8.reduceToNat]
    omega
  have hpage : u8gPbGetPageBox u.pb = ⟨0, .ofNat (8 * k), 127, .ofNat (8 * k + 7)⟩ := by
    rw [u8gPbGetPageBox, hp, hu.onPage.dims.width]
    rfl
  rw [hu.box, u8gGetPageBox, hpage]
  cases u.dev with
  | ls010b7dh01 => rfl
  | scale2x2 =>
    simp only [hy0, hy1]
    rfl

theorem currentPage_le {u : U8g} (hu : u.Ready) :
    u.currentPage.x0 ≤ u.currentPage.x1 ∧ u.currentPage.y0 ≤ u.currentPage.y1 := by
  obtain ⟨k, hk, -, hbox⟩ := currentPage_eq hu
  rw [hbox]
  simp only [UInt8.le_iff_toNat_le]
  cases u.dev with
  | ls010b7dh01 =>
    simp only [UInt8.toNat_ofNat', UInt8.reduceToNat]
    omega
  | scale2x2 =>
    simp only [UInt8.toNat_ofNat', UInt8.reduceToNat]
    omega

/-- **The clipping test is exact**: it says whether a box, which may come round past 255, has a
pixel on the current page. -/
theorem isBBXIntersection_exact {u : U8g} (hu : u.Ready) (x y w h : UInt8) :
    u8gIsBBXIntersection u x y w h = true ↔ ∃ q ∈ bbx x y w h, q ∈ u.currentPage.pixels := by
  obtain ⟨hx, hy⟩ := currentPage_le hu
  have hrows := decisionTree_iff hy y (y + h - 1)
  have hcols := decisionTree_iff hx x (x + w - 1)
  have hboth : u8gIsBBXIntersection u x y w h = true ↔
      (isIntersectionDecisionTree u.currentPage.y0 u.currentPage.y1 y (y + h - 1) = true ∧
        isIntersectionDecisionTree u.currentPage.x0 u.currentPage.x1 x (x + w - 1) = true) := by
    unfold u8gIsBBXIntersection
    split <;> simp_all
  rw [hboth, hrows, hcols]
  constructor
  · rintro ⟨⟨b, hb, hpb⟩, a, ha, hpa⟩
    exact ⟨(a, b), ⟨ha, hb⟩, hpa, hpb⟩
  · rintro ⟨⟨a, b⟩, ⟨ha, hb⟩, hpa, hpb⟩
    exact ⟨⟨b, hb, hpb⟩, a, ha, hpa⟩

/-- A pixel that shows on the page lies in the box of the page. -/
theorem mem_currentPage {u : U8g} (hu : u.Ready) {p q : Pixel} (hw : p ∈ u.pb.window)
    (hpq : p ∈ u.cover {q}) (hfits : u.Fits {q}) : q ∈ u.currentPage.pixels := by
  obtain ⟨k, hk, hp, hbox⟩ := currentPage_eq hu
  obtain ⟨hx, hlo, hhi⟩ := (U8gPb.mem_window hu.onPage.dims hk hp).mp hw
  rw [hbox]
  unfold U8g.cover at hpq
  unfold U8g.Fits at hfits
  cases hdev : u.dev with
  | ls010b7dh01 =>
    rw [hdev] at hpq
    obtain rfl : p = q := hpq
    simp only [U8gBox.pixels, Set.mem_ofPred_eq, UInt8.le_iff_toNat_le, UInt8.toNat_ofNat',
      UInt8.reduceToNat]
    omega
  | scale2x2 =>
    rw [hdev] at hpq
    obtain ⟨_, rfl, hpx, hpy⟩ := hpq
    obtain ⟨hqx, hqy⟩ := hfits hdev _ rfl
    simp only [UInt8.lt_iff_toNat_lt, UInt8.reduceToNat] at hqx hqy
    simp only [← UInt8.toNat_inj, UInt8.toNat_add, UInt8.toNat_mul, UInt8.reduceToNat] at hpx hpy
    simp only [U8gBox.pixels, Set.mem_ofPred_eq, UInt8.le_iff_toNat_le, UInt8.toNat_ofNat',
      UInt8.reduceToNat]
    omega

/-- **Clipping hides nothing**: an operation whose pixels lie in a box may be left out when the
test says so. -/
theorem Draws.clipped {u u' : U8g} (hu : u.Ready) {S : Set Pixel}
    (hdraws : Draws u u' (u.cover S)) {x y w h : UInt8} (hS : S ⊆ bbx x y w h) (hfits : u.Fits S) :
    Draws u (if u8gIsBBXIntersection u x y w h = false then u else u') (u.cover S) := by
  split
  · refine .none fun p hw hp => ?_
    obtain ⟨q, hq, hpq⟩ := mem_cover.mp hp
    have hpage := mem_currentPage hu hw hpq fun hdev r hr => hfits hdev r (hr ▸ hq)
    have hmeets := (isBBXIntersection_exact hu x y w h).mpr ⟨q, hS hq, hpage⟩
    simp_all
  · assumption

/-- Page `k` before anything is drawn on it, without a font. -/
def emptyPage (k : Nat) : U8g :=
  u8gUpdateDimension
    ⟨blankPage k, .ls010b7dh01, ⟨0, 0, 0, 0⟩, 1, none, 0, 0, .baseline⟩

theorem ready_emptyPage {k : Nat} (hk : k < 16) : (emptyPage k).Ready :=
  ⟨⟨⟨rfl, rfl, rfl⟩, k, hk, rfl⟩, rfl⟩

theorem fits_emptyPage (k : Nat) (S : Set Pixel) : (emptyPage k).Fits S := fun h => by cases h

end Muchiwachi
