import Muchiwachi.Glyphs
import Muchiwachi.Lines
import Muchiwachi.Discs

/-!
# Pictures (`picture_loop`)

A picture is drawn sixteen times, once for each page, and each time only what lies on the page
stays. `U8g.Shows` says what the page shows while it is drawn; its rules follow the calls of a
drawing function one by one. `shows_drawPicture` says that the panel ends up with what was drawn,
as if it had been drawn at once.
-/

namespace Muchiwachi

open Lib.Raster Lib.MemoryLcd

/-! ## The loop -/

/-- A drawing function, with what it reads and changes of the application; `none` stands for one
that does not return or leaves an array. -/
abbrev DrawFn (α : Type) := α → U8g → Option (α × U8g)

/-- `u8g` when the drawing function is called: on the page the driver is at, whose box
`u8g_FirstPage` or `u8g_NextPage` has looked up. -/
def U8g.onPage (u : U8g) (pb : U8gPb) : U8g := u8gUpdateDimension { u with pb := pb }

variable {α : Type}

/-- A call of the drawing function, which leaves its page in the buffer of the driver. -/
def callDraw (draw : DrawFn α) (a : α) (u : U8g) (d : Lcd) : Option (α × U8g × Lcd) :=
  (draw a (u.onPage d.pb)).map fun r => (r.1, r.2, drawPage (fun _ => r.2.pb.buf) d)

/-- The `do` of `picture_loop`, at most `fuel` times. -/
def drawPages (draw : DrawFn α) : Nat → α → U8g → Lcd → Option (α × U8g × Lcd)
  | 0, _, _, _ => none
  | fuel + 1, a, u, d =>
    (callDraw draw a u d).bind fun (a, u, d) =>
      let r := u8gNextPage d
      if r.1 ≠ 0 then drawPages draw fuel a u r.2 else some (a, u, r.2)

/-- `picture_loop`. -/
def drawPicture (draw : DrawFn α) (fuel : Nat) (a : α) (u : U8g) (d : Lcd) :
    Option (α × U8g × Lcd) :=
  drawPages draw fuel a u (u8gFirstPage d)

/-! ## What a page shows -/

/-- The heights `u8g_UpdateRefHeight` has set are those of the font. -/
def U8g.RefsOk (u : U8g) : Prop :=
  ∀ font, u.font = some font → u.fontRefAscent = fontXAscent (u8gFontData font) ∧
    u.fontRefDescent = fontXDescent (u8gFontData font)

/-- Page `k` is drawn and agrees with the canvas `c`; drawing goes on through `dev`, switching
pixels on or off. -/
structure U8g.Shows (u : U8g) (k : Nat) (dev : U8gDev) (on : Bool) (c : Set Pixel) : Prop where
  ready : u.Ready
  page : u.pb.p = pageAt k
  refs : u.RefsOk
  dev : u.dev = dev
  color : (u.color != 0) = on
  shows : (pageSurface on).Shows u.pb c

/-- Strings are drawn in `font`, around the middle of their lines. -/
def U8g.Typesets (u : U8g) (font : U8gFont) : Prop := u.font = some font ∧ u.fontPos = .center

theorem refsOk_setFont {u : U8g} (h : u.RefsOk) (font : U8gFont) : (u8gSetFont font u).RefsOk := by
  unfold u8gSetFont
  split
  · intro f hf
    obtain rfl := Option.some.inj hf
    exact ⟨rfl, rfl⟩
  · exact h

namespace U8g.Shows

variable {u u' : U8g} {k : Nat} {dev : U8gDev} {on : Bool} {c S : Set Pixel}

theorem setColor (h : u.Shows k dev on c) (idx : UInt8) :
    (u8gSetColorIndex idx u).Shows k dev (idx != 0) c :=
  ⟨⟨h.ready.onPage, h.ready.box⟩, h.page, h.refs, h.dev, rfl, h.shows⟩

theorem setFont (h : u.Shows k dev on c) (font : U8gFont) :
    (u8gSetFont font u).Shows k dev on c := by
  have hrefs := refsOk_setFont h.refs font
  unfold u8gSetFont at hrefs ⊢
  split at hrefs
  · rw [if_pos ‹_›]
    exact ⟨⟨h.ready.onPage, h.ready.box⟩, h.page, hrefs, h.dev, h.color, h.shows⟩
  · rwa [if_neg ‹_›]

theorem setFontPosCenter (h : u.Shows k dev on c) : (u8gSetFontPosCenter u).Shows k dev on c :=
  ⟨⟨h.ready.onPage, h.ready.box⟩, h.page, h.refs, h.dev, h.color, h.shows⟩

theorem setScale (h : u.Shows k .ls010b7dh01 on c) : (u8gSetScale2x2 u).Shows k .scale2x2 on c :=
  ⟨⟨h.ready.onPage, rfl⟩, h.page, h.refs, rfl, h.color, h.shows⟩

theorem undoScale (h : u.Shows k .scale2x2 on c) : (u8gUndoScale u).Shows k .ls010b7dh01 on c := by
  rw [u8gUndoScale, if_neg (not_not.mpr h.dev)]
  exact ⟨⟨h.ready.onPage, rfl⟩, h.page, h.refs, rfl, h.color, h.shows⟩

theorem draws (h : u.Shows k dev on c) (hd : Draws u u' S) : u'.Shows k dev on (paint on S c) := by
  have hpage := hd.page.paints
  rw [h.color] at hpage
  refine ⟨hd.ready h.ready, hd.page.page.trans h.page, ?_, hd.dev.trans h.dev, ?_,
    h.shows.paint hpage⟩
  · rw [hd.same]
    exact h.refs
  · rw [hd.same]
    exact h.color

/-- Drawing to the display itself. -/
theorem inks (h : u.Shows k .ls010b7dh01 on c) (hd : Draws u u' (u.cover S)) :
    u'.Shows k .ls010b7dh01 on (paint on S c) := by
  have hcover : u.cover S = S := by rw [U8g.cover, h.dev]
  rw [hcover] at hd
  exact h.draws hd

/-- Drawing through the scaling device. -/
theorem inksDoubled (h : u.Shows k .scale2x2 on c) (hd : Draws u u' (u.cover S)) :
    u'.Shows k .scale2x2 on (paint on (doubled S) c) := by
  have hcover : u.cover S = doubled S := by rw [U8g.cover, h.dev]
  rw [hcover] at hd
  exact h.draws hd

/-- Everything fits without scaling. -/
theorem fits (h : u.Shows k .ls010b7dh01 on c) (S : Set Pixel) : u.Fits S := fun hdev => by
  rw [h.dev] at hdev
  cases hdev

end U8g.Shows

theorem typesets_setFont (font : U8gFont) (u : U8g) :
    (u8gSetFontPosCenter (u8gSetFont font u)).Typesets font := by
  refine ⟨?_, rfl⟩
  unfold u8gSetFont u8gSetFontPosCenter
  by_cases h : u.font = some font
  · simp [h]
  · simp [h]

theorem Draws.typesets {u u' : U8g} {S : Set Pixel} (hd : Draws u u' S) {font : U8gFont}
    (h : u.Typesets font) : u'.Typesets font := by
  rw [hd.same]
  exact h

/-! ## What the panel shows -/

/-- Pixel `x` of a line of bytes. -/
def rowBit (row : List UInt8) (x : Nat) : Bool := (row.getD (x / 8) 0).toNat.testBit (7 - x % 8)

/-- Pixel `x` of line `y + 1` of the panel. -/
def panelPixel (mem : Nat → List UInt8) (x y : Nat) : Bool := rowBit (mem (y + 1)) x

/-- A row of the page buffer, bit by bit. -/
theorem rowBit_pictureRow {u : U8g} {k : Nat} {dev : U8gDev} {on : Bool} {c : Set Pixel}
    (h : u.Shows k dev on c) (hk : k < 16) {x j : Nat} (hx : x < 128) (hj : j < 8) :
    rowBit (pictureRow (fun _ => u.pb.buf) (8 * k + j)) x = true ↔
      ((.ofNat x, .ofNat (8 * k + j)) : Pixel) ∈ c := by
  have hxn : (UInt8.ofNat x).toNat = x := UInt8.toNat_ofNat_of_lt' (show x < 256 by omega)
  have hyn : (UInt8.ofNat (8 * k + j)).toNat = 8 * k + j :=
    UInt8.toNat_ofNat_of_lt' (show 8 * k + j < 256 by omega)
  have hw : ((.ofNat x, .ofNat (8 * k + j)) : Pixel) ∈ u.pb.window := by
    rw [U8gPb.mem_window h.ready.onPage.dims hk h.page, hxn, hyn]
    omega
  have hoffset : u.pb.offset (.ofNat x) (.ofNat (8 * k + j)) = 16 * j + x / 8 := by
    rw [U8gPb.offset_eq h.ready.onPage.dims hk h.page hw, hxn, hyn]
    omega
  have hbyte : (pictureRow (fun _ => u.pb.buf) (8 * k + j)).getD (x / 8) 0 =
      u.pb.buf[16 * j + x / 8]?.getD 0 := by
    have hmod : (8 * k + j) % 8 = j := by omega
    have hlt : x / 8 < bytesPerLine := by
      unfold bytesPerLine
      omega
    rw [pictureRow, hmod, List.getD, List.getElem?_take_of_lt hlt, List.getElem?_drop,
      Vector.getElem?_toList]
    rfl
  have hbit : u.pb.bit (.ofNat x, .ofNat (8 * k + j)) =
      rowBit (pictureRow (fun _ => u.pb.buf) (8 * k + j)) x := by
    rw [U8gPb.bit, hoffset, pixelMask_eq, hxn, and_byteMask _ (by omega), rowBit, hbyte]
  rw [← hbit]
  exact h.shows _ hw

/-! ## A picture is drawn as if at once -/

/-- Between two pictures. -/
structure U8g.Idle (u : U8g) : Prop where
  dev : u.dev = .ls010b7dh01
  refs : u.RefsOk

theorem U8g.Shows.idle {u : U8g} {k : Nat} {on : Bool} {c : Set Pixel}
    (h : u.Shows k .ls010b7dh01 on c) : u.Idle := ⟨h.dev, h.refs⟩

theorem onPage_blankPage {k : Nat} (hk : k < 16) : (blankPage k).OnPage :=
  ⟨⟨rfl, rfl, rfl⟩, k, hk, rfl⟩

theorem bit_blankPage (k : Nat) (p : Pixel) : (blankPage k).bit p = false := by
  have hbyte : (blankPage k).buf[(blankPage k).offset p.1 p.2]?.getD 0 = 0 := by
    rw [blankPage, Vector.getElem?_replicate]
    split <;> rfl
  rw [U8gPb.bit, hbyte, UInt8.zero_and]
  rfl

/-- The drawing function finds an empty page. -/
theorem shows_onPage {u : U8g} (hu : u.Idle) {k : Nat} (hk : k < 16) :
    (u.onPage (blankPage k)).Shows k .ls010b7dh01 (u.color != 0) ∅ := by
  refine ⟨⟨onPage_blankPage hk, rfl⟩, rfl, hu.refs, hu.dev, rfl, fun p _ => ?_⟩
  exact iff_of_false (fun h => Bool.noConfusion ((bit_blankPage k p).symm.trans h)) fun h => h

/-- On each page `draw` draws the canvas `c`, and it takes the application from `a` to `a'`. -/
def Renders (draw : DrawFn α) (a a' : α) (c : Set Pixel) : Prop :=
  ∀ k on u, k < 16 → u.Shows k .ls010b7dh01 on ∅ →
    ∃ u' on', draw a u = some (a', u') ∧ u'.Shows k .ls010b7dh01 on' c

theorem drawPage_congr {img img' : U8gPb → Cgram} {d : Lcd} (h : img d.pb = img' d.pb) :
    drawPage img d = drawPage img' d := by
  unfold drawPage
  simp only [h]

/-- One turn of the loop, with the buffer it fills. -/
theorem callDraw_eq {draw : DrawFn α} {a a' : α} {c : Set Pixel} (hdraw : Renders draw a a' c)
    {k : Nat} (hk : k < 16) {u : U8g} (hu : u.Idle) {d : Lcd} (hd : d.pb = blankPage k) :
    ∃ (u' : U8g) (buf : Cgram), u'.Idle ∧
      callDraw draw a u d = some (a', u', drawPage (fun _ => buf) d) ∧
      ∀ x < 128, ∀ j < 8, rowBit (pictureRow (fun _ => buf) (8 * k + j)) x = true ↔
        ((.ofNat x, .ofNat (8 * k + j)) : Pixel) ∈ c := by
  obtain ⟨u', on', hcall, hshows⟩ := hdraw k _ _ hk (shows_onPage hu hk)
  refine ⟨u', u'.pb.buf, hshows.idle, ?_, fun x hx j hj => rowBit_pictureRow hshows hk hx hj⟩
  rw [callDraw, hd, hcall]
  rfl

/-- The loop from page `k` on does what the loop with the buffers `bufs` does. -/
theorem drawPages_eq {draw : DrawFn α} {a : Nat → α} {c : Nat → Set Pixel}
    (hdraw : ∀ k < 16, Renders draw (a k) (a (k + 1)) (c k)) {n k : Nat} (hk : k + n = 15)
    {u : U8g} (hu : u.Idle) {d : Lcd} (hd : d.pb = blankPage k) :
    ∃ (u' : U8g) (bufs : Nat → Cgram), u'.Idle ∧
      (∀ (img : U8gPb → Cgram), (∀ i, k ≤ i → i < 16 → img (blankPage i) = bufs i) →
        ∀ fuel, drawPages draw fuel (a k) u d =
          (picturePages img fuel d).map fun d' => (a 16, u', d')) ∧
      ∀ x < 128, ∀ i, k ≤ i → i < 16 → ∀ j < 8,
        rowBit (pictureRow (fun _ => bufs i) (8 * i + j)) x = true ↔
          ((.ofNat x, .ofNat (8 * i + j)) : Pixel) ∈ c i := by
  induction n generalizing k u d with
  | zero =>
    obtain rfl : k = 15 := by omega
    obtain ⟨u', buf, hidle, hcall, hrow⟩ := callDraw_eq (hdraw 15 (by omega)) (by omega) hu hd
    obtain ⟨d1, _, hnext, hp, -, -⟩ := nextPage_eq (by omega) (fun _ => buf) hd
    obtain ⟨d', hbase, -⟩ := baseFn_last hp
    refine ⟨u', fun _ => buf, hidle, fun img himg fuel => ?_, fun x hx i hlo hhi => ?_⟩
    · have hsame : drawPage img d = drawPage (fun _ => buf) d :=
        drawPage_congr (by rw [hd, himg 15 (by omega) (by omega)])
      cases fuel with
      | zero => rfl
      | succ fuel => simp [drawPages, picturePages, hcall, hsame, hnext, hbase]
    · obtain rfl : i = 15 := by omega
      exact hrow x hx
  | succ n ih =>
    obtain ⟨u1, buf, hidle, hcall, hrow⟩ := callDraw_eq (hdraw k (by omega)) (by omega) hu hd
    obtain ⟨d1, _, hnext, hp, -, -⟩ := nextPage_eq (by omega) (fun _ => buf) hd
    obtain ⟨d2, hbase, hpb, -⟩ := baseFn_next (by omega) hp
    obtain ⟨u', bufs, hidle', hloop, hrows⟩ := ih (by omega) hidle hpb
    refine ⟨u', Function.update bufs k buf, hidle', fun img himg fuel => ?_,
      fun x hx i hlo hhi => ?_⟩
    · have hsame : drawPage img d = drawPage (fun _ => buf) d :=
        drawPage_congr (by rw [hd, himg k (Nat.le_refl k) (by omega), Function.update_self])
      have hrest := hloop img fun i hlo hhi => by
        rw [himg i (by omega) hhi, Function.update_of_ne (by omega)]
      cases fuel with
      | zero => rfl
      | succ fuel => simp [drawPages, picturePages, hcall, hsame, hnext, hbase, hrest]
    · by_cases hik : i = k
      · subst hik
        rw [Function.update_self]
        exact hrow x hx
      · rw [Function.update_of_ne hik]
        exact hrows x hx i (by omega) hhi

/-- The canvas whose rows `8 * k`, …, `8 * k + 7` are those of `c k`. -/
def bands (c : Nat → Set Pixel) : Set Pixel := {p | p ∈ c (p.2.toNat / 8)}

/-- From `d` to `d'` the canvas `c` is put on the panel, whatever the panel showed before. -/
def Lcd.PutsOn (d d' : Lcd) (c : Set Pixel) : Prop :=
  ∃ (evs : List LcdEvent) (writes : List (Nat × List UInt8)), d'.trace = d.trace ++ evs ∧
    decodeWire bytesPerLine (wire evs) = some writes ∧
    ∀ mem x y, x < 128 → y < 128 →
      (panelPixel (writeLines mem writes) x y = true ↔ ((.ofNat x, .ofNat y) : Pixel) ∈ c)

/-- **A picture is drawn as if at once**: the loop ends, and what the drawing function draws for a
page is what the panel then shows in the rows of that page. -/
theorem shows_drawPicture {draw : DrawFn α} {a : Nat → α} {c : Nat → Set Pixel}
    (hdraw : ∀ k < 16, Renders draw (a k) (a (k + 1)) (c k)) {u : U8g} (hu : u.Idle) (d : Lcd) :
    ∃ (u' : U8g) (d' : Lcd), u'.Idle ∧ d.PutsOn d' (bands c) ∧
      ∀ fuel, drawPicture draw fuel (a 0) u d =
        if 16 ≤ fuel then some (a 16, u', d') else none := by
  obtain ⟨u', bufs, hidle, hloop, hrows⟩ :=
    drawPages_eq hdraw (n := 15) (k := 0) rfl hu (u8gFirstPage_pb d)
  let img : U8gPb → Cgram := fun pb => bufs pb.p.page.toNat
  have himg : ∀ i < 16, img (blankPage i) = bufs i := by
    intro i hi
    show bufs (UInt8.ofNat i).toNat = bufs i
    rw [UInt8.toNat_ofNat_of_lt' (show i < 256 by omega)]
  obtain ⟨d', evs, htrace, hfuel, -, hdecode⟩ := decode_pictureLoop img d
  refine ⟨u', d', hidle, ⟨evs, _, htrace, hdecode, fun mem x y hx hy => ?_⟩, fun fuel => ?_⟩
  · have hrow := hrows x hx (y / 8) (Nat.zero_le _) (by omega) (y % 8) (by omega)
    have hy8 : 8 * (y / 8) + y % 8 = y := Nat.div_add_mod y 8
    have hyn : (UInt8.ofNat y).toNat = y := UInt8.toNat_ofNat_of_lt' (show y < 256 by omega)
    have hpicture : pictureRow img y = pictureRow (fun _ => bufs (y / 8)) y := by
      rw [pictureRow, himg (y / 8) (by omega), pictureRow]
    rw [hy8] at hrow
    rw [panelPixel, writeLines_range mem _ hy, hpicture, hrow]
    simp only [bands, Set.mem_ofPred_eq, hyn]
  · have hrun := hloop img (fun i _ hi => himg i hi) fuel
    rw [drawPicture, hrun]
    have hpages : picturePages img fuel (u8gFirstPage d) = if 16 ≤ fuel then some d' else none :=
      hfuel fuel
    rw [hpages]
    split <;> rfl

end Muchiwachi
