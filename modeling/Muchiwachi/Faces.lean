import Muchiwachi.Pictures
import Muchiwachi.Radar
import Muchiwachi.MessageText

/-!
# The pictures of the watch (`display.c`)

The drawing functions of the five pictures, each followed by its canvas. `renders_watchFace` and the
other four say that a drawing function draws its canvas, page by page.
-/

namespace Muchiwachi

open Lib.Raster Lib.Digital

/-! ## Text and avatars -/

/-- `font_calc_vref` of a font after `u8g_SetFontPosCenter`. -/
def centerVref (font : U8gFont) : UInt8 :=
  let ascent := fontXAscent (u8gFontData font)
  let descent := fontXDescent (u8gFontData font)
  ((ascent - descent) / 2 + descent).toUInt8

/-- `u8g_SetFont` and `u8g_SetFontPosCenter`, which always go together. -/
def setCenteredFont (font : U8gFont) (u : U8g) : U8g := u8gSetFontPosCenter (u8gSetFont font u)

/-- `u8g_GetStrWidth` into `w`, and `u8g_DrawStr` from `x - w/2` on. -/
def drawStrAround (x y : Int) (s : List UInt8) (u : U8g) : U8g :=
  let w := u8gGetStrWidth u.fontData s
  (u8gDrawStr (.ofInt (x - w.toNat / 2)) (.ofInt y) s u).2

/-- The string in `g_avatar`; there is none without a NUL in the two bytes. -/
def avatarStr (avatar : UInt8 × UInt8) : Option (List UInt8) :=
  if avatar.1 = 0 then some [] else if avatar.2 = 0 then some [avatar.1] else none

/-- The own avatar, around `(64, y)`. -/
def drawAvatar (y : Int) (w : Watch) (u : U8g) : Option U8g :=
  (avatarStr w.gAvatar).map fun s => drawStrAround 64 y s (setCenteredFont .unifontUpper u)

/-- `draw_self`. -/
def drawSelf (w : Watch) (u : U8g) : Option U8g := drawAvatar 35 w u

/-- The pixels of a string from `(x, y)` on, where `y` is the middle of its line. -/
def strPixelsFrom (font : U8gFont) (x y : Int) (s : List UInt8) : Set Pixel :=
  strPixels (u8gFontData font) (.ofInt y + centerVref font) s (.ofInt x)

/-- The pixels of a string around `x`. -/
def strPixelsAround (font : U8gFont) (x y : Int) (s : List UInt8) : Set Pixel :=
  strPixelsFrom font (x - (u8gGetStrWidth (u8gFontData font) s).toNat / 2) y s

def avatarPixels (y : Int) (w : Watch) : Set Pixel :=
  strPixelsAround .unifontUpper 64 y ((avatarStr w.gAvatar).getD [])

namespace U8g.Shows

variable {u : U8g} {k : Nat} {dev : U8gDev} {on : Bool} {c : Set Pixel}

theorem centeredFont (h : u.Shows k dev on c) (font : U8gFont) :
    (setCenteredFont font u).Shows k dev on c ∧ (setCenteredFont font u).Typesets font :=
  ⟨(h.setFont font).setFontPosCenter, typesets_setFont font u⟩

theorem fontCalcVref_eq (h : u.Shows k dev on c) {font : U8gFont} (hfont : u.Typesets font) :
    fontCalcVref u = centerVref font := by
  obtain ⟨hascent, hdescent⟩ := h.refs font hfont.1
  rw [fontCalcVref, hfont.2, hascent, hdescent]
  rfl

/-- A string is drawn where the application wants it. -/
theorem strFrom (h : u.Shows k .ls010b7dh01 on c) {font : U8gFont} (hfont : u.Typesets font)
    (x y : Int) (s : List UInt8) :
    (u8gDrawStr (.ofInt x) (.ofInt y) s u).2.Shows k .ls010b7dh01 on
        (paint on (strPixelsFrom font x y s) c) ∧
      (u8gDrawStr (.ofInt x) (.ofInt y) s u).2.Typesets font := by
  obtain ⟨-, hdraws⟩ := draws_str h.ready hfont.1 (.ofInt x) (.ofInt y) s (h.fits _)
  rw [h.fontCalcVref_eq hfont] at hdraws
  exact ⟨h.inks hdraws, hdraws.typesets hfont⟩

theorem strAround (h : u.Shows k .ls010b7dh01 on c) {font : U8gFont} (hfont : u.Typesets font)
    (x y : Int) (s : List UInt8) :
    (drawStrAround x y s u).Shows k .ls010b7dh01 on (paint on (strPixelsAround font x y s) c) ∧
      (drawStrAround x y s u).Typesets font := by
  have hdata : u.fontData = u8gFontData font := by rw [U8g.fontData, hfont.1]; rfl
  unfold drawStrAround strPixelsAround
  rw [hdata]
  exact h.strFrom hfont _ y s

theorem avatar (h : u.Shows k .ls010b7dh01 on c) {w : Watch} {s : List UInt8}
    (hs : avatarStr w.gAvatar = some s) (y : Int) :
    ∃ u', drawAvatar y w u = some u' ∧
      u'.Shows k .ls010b7dh01 on (paint on (avatarPixels y w) c) := by
  obtain ⟨hshows, hfont⟩ := h.centeredFont .unifontUpper
  refine ⟨_, by rw [drawAvatar, hs]; rfl, ?_⟩
  rw [avatarPixels, hs]
  exact (hshows.strAround hfont 64 y s).1

end U8g.Shows

/-! ## The time -/

/-- The time of day of `RtcTime`. -/
structure RtcTime where
  second : Nat
  minute : Nat
  hour : Nat
  second_lt : second < 60
  minute_lt : minute < 60
  hour_lt : hour < 24

def nhour : List Coord :=
  [⟨64, 14⟩, ⟨89, 21⟩, ⟨107, 39⟩, ⟨114, 64⟩, ⟨107, 89⟩, ⟨89, 107⟩, ⟨64, 114⟩, ⟨39, 107⟩, ⟨21, 89⟩,
    ⟨14, 64⟩, ⟨21, 39⟩, ⟨39, 21⟩]

/-- The ends of the hour hand. -/
def hour : List Coord :=
  [⟨64, 34⟩, ⟨79, 38⟩, ⟨90, 49⟩, ⟨94, 64⟩, ⟨90, 79⟩, ⟨79, 90⟩, ⟨64, 94⟩, ⟨49, 90⟩, ⟨38, 79⟩,
    ⟨34, 64⟩, ⟨38, 49⟩, ⟨49, 38⟩]

/-- The ends of the other two. -/
def minsec : List Coord :=
  [⟨64, 24⟩, ⟨68, 24⟩, ⟨72, 25⟩, ⟨76, 26⟩, ⟨80, 27⟩, ⟨84, 29⟩, ⟨88, 32⟩, ⟨91, 34⟩, ⟨94, 37⟩,
    ⟨96, 40⟩, ⟨99, 44⟩, ⟨101, 48⟩, ⟨102, 52⟩, ⟨103, 56⟩, ⟨104, 60⟩, ⟨104, 64⟩, ⟨104, 68⟩,
    ⟨103, 72⟩, ⟨102, 76⟩, ⟨101, 80⟩, ⟨99, 84⟩, ⟨96, 88⟩, ⟨94, 91⟩, ⟨91, 94⟩, ⟨88, 96⟩, ⟨84, 99⟩,
    ⟨80, 101⟩, ⟨76, 102⟩, ⟨72, 103⟩, ⟨68, 104⟩, ⟨64, 104⟩, ⟨60, 104⟩, ⟨56, 103⟩, ⟨52, 102⟩,
    ⟨48, 101⟩, ⟨44, 99⟩, ⟨40, 96⟩, ⟨37, 94⟩, ⟨34, 91⟩, ⟨32, 88⟩, ⟨29, 84⟩, ⟨27, 80⟩, ⟨26, 76⟩,
    ⟨25, 72⟩, ⟨24, 68⟩, ⟨24, 64⟩, ⟨24, 60⟩, ⟨25, 56⟩, ⟨26, 52⟩, ⟨27, 48⟩, ⟨29, 44⟩, ⟨32, 40⟩,
    ⟨34, 37⟩, ⟨37, 34⟩, ⟨40, 32⟩, ⟨44, 29⟩, ⟨48, 27⟩, ⟨52, 26⟩, ⟨56, 25⟩, ⟨60, 24⟩]

/-- `sprintf(s, "%d", h)`. -/
def decimal (h : Nat) : List UInt8 := (Nat.toDigits 10 h).map fun c => .ofNat c.toNat

/-- The numeral at `nhour[i]`. -/
def numeral (i : Nat) : List UInt8 := decimal (if i = 0 then 12 else i)

/-- `draw_watch`. -/
def drawWatch (u : U8g) : U8g :=
  nhour.zipIdx.foldl (fun u (at_, i) => drawStrAround at_.x at_.y (numeral i) u)
    (setCenteredFont .freedoomr10r u)

/-- A hand of the watch. -/
def drawHand (fuel : Nat) (ends : List Coord) (i : Nat) (u : U8g) : Option U8g :=
  ends[i]?.bind fun c => u8gDrawLine fuel 64 64 (.ofInt c.x) (.ofInt c.y) u

/-- `draw_hands`. -/
def drawHands (fuel hh mm ss : Nat) (u : U8g) : Option U8g := do
  let u ← drawHand fuel hour hh u
  let u ← drawHand fuel minsec mm u
  let u ← drawHand fuel minsec ss u
  let c ← minsec[ss]?
  some (u8gDrawDisc (.ofInt c.x) (.ofInt c.y) 3 u8gDrawAll u)

/-- The `do` of `display_watch`. -/
def drawWatchFace (fuel : Nat) (t : RtcTime) : DrawFn Watch := fun w u => do
  let u := u8gDrawBox 0 0 128 128 (u8gSetColorIndex 1 u)
  let u := drawWatch (u8gSetColorIndex 0 u)
  let u ← drawHands fuel (t.hour % 12) t.minute t.second u
  let u ← drawSelf w u
  some (w, u)

/-- The canvas of `display_watch` and `display_radar` before anything is drawn on it. -/
def ground : Set Pixel := boxPixels 0 0 128 128

def numeralPixels : Set Pixel :=
  {p | ∃ n ∈ nhour.zipIdx, p ∈ strPixelsAround .freedoomr10r n.1.x n.1.y (numeral n.2)}

def handPixels (ends : List Coord) (i : Nat) : Set Pixel :=
  {p | ∃ c ∈ ends[i]?, p ∈ linePixels 64 64 (.ofInt c.x) (.ofInt c.y)}

/-- The hands, the second hand with a disc at its end. -/
def handsPixels (hh mm ss : Nat) : Set Pixel :=
  handPixels hour hh ∪ handPixels minsec mm ∪ handPixels minsec ss ∪
    {p | ∃ c ∈ minsec[ss]?, p ∈ shifted (.ofInt c.x) (.ofInt c.y) (discPixels 3)}

/-- What the watch shows at `t`. -/
def watchFace (t : RtcTime) (w : Watch) : Set Pixel :=
  ground \ (numeralPixels ∪ handsPixels (t.hour % 12) t.minute t.second ∪ avatarPixels 35 w)

section

variable {u : U8g} {k : Nat} {on : Bool} {c : Set Pixel}

/-- One drawing call after the other. -/
theorem U8g.Shows.foldl {ι : Type} {P : U8g → Prop} {f : ι → U8g → U8g} {S : ι → Set Pixel}
    (hstep : ∀ i u c, u.Shows k .ls010b7dh01 on c → P u →
      (f i u).Shows k .ls010b7dh01 on (paint on (S i) c) ∧ P (f i u))
    (h : u.Shows k .ls010b7dh01 on c) (hP : P u) (l : List ι) :
    (l.foldl (fun u i => f i u) u).Shows k .ls010b7dh01 on
      (paint on {p | ∃ i ∈ l, p ∈ S i} c) := by
  induction l generalizing u c with
  | nil => simpa [paint] using h
  | cons i l ih =>
    obtain ⟨hi, hPi⟩ := hstep i u c h hP
    have hrest := ih hi hPi
    have hset : S i ∪ {p | ∃ j ∈ l, p ∈ S j} = {p | ∃ j ∈ i :: l, p ∈ S j} := by
      ext p
      simp
    rw [paint_paint, hset] at hrest
    exact hrest

theorem U8g.Shows.watch (h : u.Shows k .ls010b7dh01 on c) :
    (drawWatch u).Shows k .ls010b7dh01 on (paint on numeralPixels c) := by
  obtain ⟨hshows, hfont⟩ := h.centeredFont .freedoomr10r
  have hstep : ∀ (n : Coord × Nat) (u : U8g) (c : Set Pixel), u.Shows k .ls010b7dh01 on c →
      u.Typesets .freedoomr10r →
      (drawStrAround n.1.x n.1.y (numeral n.2) u).Shows k .ls010b7dh01 on
          (paint on (strPixelsAround .freedoomr10r n.1.x n.1.y (numeral n.2)) c) ∧
        (drawStrAround n.1.x n.1.y (numeral n.2) u).Typesets .freedoomr10r :=
    fun n u c hu hf => hu.strAround hf n.1.x n.1.y (numeral n.2)
  exact U8g.Shows.foldl hstep hshows hfont nhour.zipIdx

/-- The ends of the hands lie on the display. -/
theorem hand_ends : ∀ c ∈ hour ++ minsec, (UInt8.ofInt c.x).toNat ≤ 127 ∧
    (UInt8.ofInt c.y).toNat ≤ 127 := by
  decide

theorem U8g.Shows.hand (h : u.Shows k .ls010b7dh01 on c) {ends : List Coord}
    (hends : ∀ c ∈ ends, c ∈ hour ++ minsec) {i : Nat} (hi : i < ends.length) {fuel : Nat}
    (hfuel : 129 ≤ fuel) :
    ∃ u', drawHand fuel ends i u = some u' ∧
      u'.Shows k .ls010b7dh01 on (paint on (handPixels ends i) c) := by
  have hget : ends[i]? = some ends[i] := List.getElem?_eq_getElem hi
  obtain ⟨hx, hy⟩ := hand_ends ends[i] (hends _ (List.getElem_mem hi))
  have hmiddle : (64 : UInt8).toNat ≤ 127 := by decide
  obtain ⟨u', hline, hdraws⟩ := draws_line h.ready hmiddle hmiddle hx hy
  have hset : handPixels ends i = linePixels 64 64 (.ofInt ends[i].x) (.ofInt ends[i].y) := by
    simp [handPixels, hget]
  refine ⟨u', ?_, ?_⟩
  · rw [drawHand, hget]
    exact hline fuel hfuel
  · rw [hset]
    exact h.inks hdraws

theorem U8g.Shows.hands (h : u.Shows k .ls010b7dh01 on c) {hh mm ss : Nat} (hhh : hh < 12)
    (hmm : mm < 60) (hss : ss < 60) {fuel : Nat} (hfuel : 129 ≤ fuel) :
    ∃ u', drawHands fuel hh mm ss u = some u' ∧
      u'.Shows k .ls010b7dh01 on (paint on (handsPixels hh mm ss) c) := by
  have hhour : ∀ c ∈ hour, c ∈ hour ++ minsec := fun c hc => List.mem_append_left _ hc
  have hminsec : ∀ c ∈ minsec, c ∈ hour ++ minsec := fun c hc => List.mem_append_right _ hc
  have hget : minsec[ss]? = some minsec[ss] := List.getElem?_eq_getElem hss
  obtain ⟨u1, hu1, h1⟩ := h.hand hhour hhh hfuel
  obtain ⟨u2, hu2, h2⟩ := h1.hand hminsec hmm hfuel
  obtain ⟨u3, hu3, h3⟩ := h2.hand hminsec hss hfuel
  have hradius : (3 : UInt8).toNat ≤ 64 := by decide
  have hdisc := draws_disc h3.ready (.ofInt minsec[ss].x) (.ofInt minsec[ss].y) hradius (h3.fits _)
  refine ⟨u8gDrawDisc (.ofInt minsec[ss].x) (.ofInt minsec[ss].y) 3 u8gDrawAll u3,
    by simp [drawHands, hu1, hu2, hu3, hget], ?_⟩
  have hset : {p | ∃ c ∈ minsec[ss]?, p ∈ shifted (.ofInt c.x) (.ofInt c.y) (discPixels 3)} =
      shifted (.ofInt minsec[ss].x) (.ofInt minsec[ss].y) (discPixels 3) := by
    simp [hget]
  have hall := h3.inks hdisc
  rw [paint_paint, paint_paint, paint_paint] at hall
  rw [handsPixels, hset, Set.union_assoc, Set.union_assoc]
  exact hall

/-- `display_watch` and `display_radar` start with a page of ones. -/
theorem U8g.Shows.ground (h : u.Shows k .ls010b7dh01 on ∅) :
    (u8gSetColorIndex 0 (u8gDrawBox 0 0 128 128 (u8gSetColorIndex 1 u))).Shows k .ls010b7dh01 false
      ground := by
  have hset := h.setColor 1
  have hbox := (hset.inks (draws_box hset.ready 0 0 128 128 (hset.fits _))).setColor 0
  rwa [show ((1 : UInt8) != 0) = true from rfl, paint_true, Set.empty_union] at hbox

theorem renders_watchFace (t : RtcTime) {w : Watch} {s : List UInt8}
    (hs : avatarStr w.gAvatar = some s) {fuel : Nat} (hfuel : 129 ≤ fuel) :
    Renders (drawWatchFace fuel t) w w (watchFace t w) := by
  intro k on u _ h
  obtain ⟨u1, hu1, h1⟩ := h.ground.watch.hands (Nat.mod_lt t.hour (by decide)) t.minute_lt
    t.second_lt hfuel
  obtain ⟨u2, hu2, h2⟩ := h1.avatar hs 35
  refine ⟨u2, false, by simp [drawWatchFace, drawSelf, hu1, hu2], ?_⟩
  rw [paint_paint, paint_paint, paint_false] at h2
  rw [watchFace, Set.union_assoc]
  exact h2

end

/-! ## The radar -/

/-- The string of an avatar in the store. -/
def peerStr (avatar : Int8) : List UInt8 := if avatar = 0 then [] else [avatar.toUInt8]

/-- `u8g_GetStrWidth` of an avatar in the store. -/
def peerWidth (avatar : Int8) : Nat := (u8gGetStrWidth u8gUnifontUpper (peerStr avatar)).toNat

/-- The avatar of a peer, if its tables have a place for it. -/
def drawPeer (d : PeerDraw) (u : U8g) : Option U8g :=
  d.place.map fun at_ => (u8gDrawStr (.ofInt at_.x) (.ofInt at_.y) (peerStr d.avatar) u).2

/-- The `do` of `display_radar`. -/
def drawRadarFace (env : Env) : DrawFn Watch := fun w u => do
  let u := u8gDrawBox 0 0 128 128 (u8gSetColorIndex 1 u)
  let u ← drawAvatar 64 w (u8gSetColorIndex 0 u)
  let others := drawOthers peerWidth env w
  let u ← others.1.foldlM (fun u d => drawPeer d u) u
  some (others.2, u)

def peerPixels (d : PeerDraw) : Set Pixel :=
  {p | ∃ c ∈ d.place, p ∈ strPixelsFrom .unifontUpper c.x c.y (peerStr d.avatar)}

/-- What a call of `draw_others` leaves of the ground. -/
def radarFace (env : Env) (w : Watch) : Set Pixel :=
  ground \ (avatarPixels 64 w ∪ {p | ∃ d ∈ (drawOthers peerWidth env w).1, p ∈ peerPixels d})

/-! ## Messages and the boot text -/

/-- The bytes of a string in `line`, if it ends there. -/
def lineStr (line : List Cell) : Option (List UInt8) := (cstr line).map (·.map Cell.byte)

def lineWidth (line : List Cell) : Nat :=
  (u8gGetStrWidth u8gFontProfont22r ((lineStr line).getD [])).toNat

/-- A line of the message. -/
def drawTextLine (l : LineDraw) (u : U8g) : Option U8g :=
  (lineStr l.line).map fun s => (u8gDrawStr (.ofInt l.x) (.ofInt l.y) s u).2

/-- `draw_message` on the memory `text`; `prior n` is what `line` holds in its call `n`. -/
def drawMessageFace (text : List UInt8) (prior : Nat → Vector UInt8 6) (w : Watch) : DrawFn Nat :=
  fun n u => do
    let u := setCenteredFont .profont22r (u8gSetColorIndex 1 u)
    let u ← (drawMessage lineWidth text (prior n)).foldlM (fun u l => drawTextLine l u) u
    let u ← drawAvatar 15 w u
    some (n + 1, u)

def textLinePixels (l : LineDraw) : Set Pixel :=
  {p | ∃ s ∈ lineStr l.line, p ∈ strPixelsFrom .profont22r l.x l.y s}

/-- What `draw_message` draws over `prior`. -/
def messageFace (text : List UInt8) (prior : Vector UInt8 6) (w : Watch) : Set Pixel :=
  {p | ∃ l ∈ drawMessage lineWidth text prior, p ∈ textLinePixels l} ∪ avatarPixels 15 w

/-- `draw_4letter`. -/
def draw4letter (text : List UInt8) : DrawFn Watch := fun w u => do
  let u := setCenteredFont .profont22r (u8gSetColorIndex 1 u)
  let u ← drawAvatar 30 w (drawStrAround 64 64 text u)
  some (w, u)

def textFace (text : List UInt8) (w : Watch) : Set Pixel :=
  strPixelsAround .profont22r 64 64 text ∪ avatarPixels 30 w

section

variable {u : U8g} {k : Nat} {on : Bool} {c : Set Pixel}

/-- Drawing calls that may fail, one after the other. -/
theorem U8g.Shows.foldlM {ι : Type} {P : U8g → Prop} {f : U8g → ι → Option U8g}
    {S : ι → Set Pixel} (h : u.Shows k .ls010b7dh01 on c) (hP : P u) {l : List ι}
    (hstep : ∀ i ∈ l, ∀ u c, u.Shows k .ls010b7dh01 on c → P u →
      ∃ u', f u i = some u' ∧ u'.Shows k .ls010b7dh01 on (paint on (S i) c) ∧ P u') :
    ∃ u', l.foldlM f u = some u' ∧
      u'.Shows k .ls010b7dh01 on (paint on {p | ∃ i ∈ l, p ∈ S i} c) ∧ P u' := by
  induction l generalizing u c with
  | nil => exact ⟨u, rfl, by simpa [paint] using h, hP⟩
  | cons i l ih =>
    obtain ⟨u1, hcall, hi, hPi⟩ := hstep i List.mem_cons_self u c h hP
    obtain ⟨u', hcalls, hrest, hP'⟩ :=
      ih hi hPi fun j hj => hstep j (List.mem_cons_of_mem i hj)
    have hset : S i ∪ {p | ∃ j ∈ l, p ∈ S j} = {p | ∃ j ∈ i :: l, p ∈ S j} := by
      ext p
      simp
    rw [paint_paint, hset] at hrest
    exact ⟨u', by rw [List.foldlM_cons, hcall]; exact hcalls, hrest, hP'⟩

theorem U8g.Shows.peer (h : u.Shows k .ls010b7dh01 on c) (hfont : u.Typesets .unifontUpper)
    {d : PeerDraw} (hplace : d.place.isSome = true) :
    ∃ u', drawPeer d u = some u' ∧ u'.Shows k .ls010b7dh01 on (paint on (peerPixels d) c) ∧
      u'.Typesets .unifontUpper := by
  obtain ⟨coord, hcoord⟩ := Option.isSome_iff_exists.mp hplace
  obtain ⟨hshows, hfont'⟩ := h.strFrom hfont coord.x coord.y (peerStr d.avatar)
  have hset : peerPixels d = strPixelsFrom .unifontUpper coord.x coord.y (peerStr d.avatar) := by
    simp [peerPixels, hcoord]
  rw [← hset] at hshows
  exact ⟨_, by rw [drawPeer, hcoord]; rfl, hshows, hfont'⟩

theorem U8g.Shows.textLine (h : u.Shows k .ls010b7dh01 on c) (hfont : u.Typesets .profont22r)
    {l : LineDraw} {s : List UInt8} (hline : lineStr l.line = some s) :
    ∃ u', drawTextLine l u = some u' ∧
      u'.Shows k .ls010b7dh01 on (paint on (textLinePixels l) c) ∧ u'.Typesets .profont22r := by
  obtain ⟨hshows, hfont'⟩ := h.strFrom hfont l.x l.y s
  have hset : textLinePixels l = strPixelsFrom .profont22r l.x l.y s := by
    simp [textLinePixels, hline]
  rw [← hset] at hshows
  exact ⟨_, by rw [drawTextLine, hline]; rfl, hshows, hfont'⟩

end

theorem renders_radarFace {env : Env} {w : Watch} {s : List UInt8}
    (hs : avatarStr w.gAvatar = some s)
    (hplaces : ∀ d ∈ (drawOthers peerWidth env w).1, d.place.isSome = true) :
    Renders (drawRadarFace env) w (drawOthers peerWidth env w).2 (radarFace env w) := by
  intro k on u _ h
  obtain ⟨hset, hfont⟩ := h.ground.centeredFont .unifontUpper
  obtain ⟨h1, hfont1⟩ := hset.strAround hfont 64 64 s
  obtain ⟨u2, hu2, h2, -⟩ := h1.foldlM (S := peerPixels) hfont1
    fun d hd u c hu hf => hu.peer hf (hplaces d hd)
  refine ⟨u2, false, ?_, ?_⟩
  · simp only [drawRadarFace, drawAvatar, hs, Option.map_some, Option.bind_eq_bind,
      Option.bind_some, hu2]
  · rw [paint_paint, paint_false] at h2
    rw [radarFace, avatarPixels, hs]
    exact h2

theorem renders_messageFace {text : List UInt8} {prior : Nat → Vector UInt8 6} {w : Watch}
    {s : List UInt8} (hs : avatarStr w.gAvatar = some s) {n : Nat}
    (hlines : ∀ l ∈ drawMessage lineWidth text (prior n), (lineStr l.line).isSome = true) :
    Renders (drawMessageFace text prior w) n (n + 1) (messageFace text (prior n) w) := by
  intro k on u _ h
  obtain ⟨hset, hfont⟩ := (h.setColor 1).centeredFont .profont22r
  obtain ⟨u1, hu1, h1, -⟩ := hset.foldlM (S := textLinePixels) hfont fun l hl u c hu hf => by
    obtain ⟨s, hline⟩ := Option.isSome_iff_exists.mp (hlines l hl)
    exact hu.textLine hf hline
  obtain ⟨u2, hu2, h2⟩ := h1.avatar hs 15
  refine ⟨u2, true, ?_, ?_⟩
  · simp only [drawMessageFace, hu1, Option.bind_eq_bind, Option.bind_some, hu2]
  · rw [paint_paint, show ((1 : UInt8) != 0) = true from rfl, paint_true, Set.empty_union] at h2
    exact h2

theorem renders_textFace (text : List UInt8) {w : Watch} {s : List UInt8}
    (hs : avatarStr w.gAvatar = some s) :
    Renders (draw4letter text) w w (textFace text w) := by
  intro k on u _ h
  obtain ⟨hset, hfont⟩ := (h.setColor 1).centeredFont .profont22r
  obtain ⟨h1, -⟩ := hset.strAround hfont 64 64 text
  obtain ⟨u2, hu2, h2⟩ := h1.avatar hs 30
  refine ⟨u2, true, ?_, ?_⟩
  · simp only [draw4letter, Option.bind_eq_bind, hu2, Option.bind_some]
  · rw [paint_paint, show ((1 : UInt8) != 0) = true from rfl, paint_true, Set.empty_union] at h2
    exact h2

/-! ## The configuration -/

/-- `struct _cp`. -/
structure CursorPos where
  x : UInt8
  y : UInt8
  len : UInt8
  deriving DecidableEq, Repr

def cursorPos : Cursor → CursorPos
  | .avatar => ⟨24, 38, 16⟩
  | .ok => ⟨46, 30, 34⟩
  | .none => ⟨0, 0, 0⟩

/-- `ZOOM_SCALE`. -/
def zoomScale : Int := 2

def msgStr (w : Watch) : List UInt8 := w.msg.toList.map fun c => .ofNat c.toNat

/-- The column of the avatar on the scaled page. -/
def zoomedColumn (s : List UInt8) : UInt8 :=
  let w := (u8gGetStrWidth u8gUnifontUpper s).toNat * zoomScale
  .ofInt ((64 - w / 2).tdiv zoomScale)

/-- `draw_config`. -/
def drawConfig : DrawFn Watch := fun w u => do
  let u := u8gDrawDisc 64 64 64 u8gDrawAll (u8gSetColorIndex 1 u)
  let u := setCenteredFont .profont22r (u8gSetColorIndex 0 u)
  let u := if (msgStr w).length > 0 then drawStrAround 64 22 (msgStr w) u else u
  let u := setCenteredFont .unifontUpper (u8gSetScale2x2 u)
  let s ← avatarStr w.gAvatar
  let u := (u8gDrawStr (zoomedColumn s) (.ofInt (64 / zoomScale)) s u).2
  let cursor := cursorPos w.currCursor
  let u := if w.currCursor ≠ .avatar then u8gUndoScale u else u
  let u := u8gDrawHLine cursor.x cursor.y cursor.len u
  let u := if w.currCursor = .avatar then u8gUndoScale u else u
  some (w, u)

/-- The avatar twice as large. -/
def zoomedPixels (s : List UInt8) : Set Pixel :=
  doubled (strPixels u8gUnifontUpper (.ofInt (64 / zoomScale) + centerVref .unifontUpper) s
    (zoomedColumn s))

/-- The cursor, which is scaled with the avatar. -/
def cursorPixels (cursor : Cursor) : Set Pixel :=
  let line := hlinePixels (cursorPos cursor).x (cursorPos cursor).y (cursorPos cursor).len
  if cursor = .avatar then doubled line else line

/-- What is cut out of the disc while the watch is configured. -/
def configFace (w : Watch) : Set Pixel :=
  shifted 64 64 (discPixels 64) \ (strPixelsAround .profont22r 64 22 (msgStr w) ∪
    zoomedPixels ((avatarStr w.gAvatar).getD []) ∪ cursorPixels w.currCursor)

/-- Scaled, an avatar lies on the display. -/
def zoomedOk (avatar : UInt8) : Bool :=
  let glyph := (u8gGetGlyph u8gUnifontUpper avatar).2
  let x := zoomedColumn [avatar] + glyph.x.toUInt8
  let y := .ofInt (64 / zoomScale) + centerVref .unifontUpper - glyph.y.toUInt8 - 1 -
    glyph.height + 1
  decide (x.toNat + glyph.width.toNat ≤ 128 ∧ y.toNat + glyph.height.toNat ≤ 128)

theorem zoomedOk_all (avatar : UInt8) : zoomedOk avatar = true := by
  have hall : ∀ a : Fin 256, zoomedOk (.ofNat a) = true := by decide +kernel
  have h := hall ⟨avatar.toNat, avatar.toNat_lt⟩
  rwa [UInt8.ofNat_toNat] at h

theorem zoomed_fits {avatar : UInt8 × UInt8} {s : List UInt8} (hs : avatarStr avatar = some s) :
    ∀ q ∈ strPixels u8gUnifontUpper (.ofInt (64 / zoomScale) + centerVref .unifontUpper) s
      (zoomedColumn s), q.1 < 128 ∧ q.2 < 128 := by
  have hadd (a : UInt8) {i n : Nat} (hi : i < n) (h : a.toNat + n ≤ 128) : a + .ofNat i < 128 := by
    rw [UInt8.lt_iff_toNat_lt, UInt8.toNat_add, UInt8.toNat_ofNat_of_lt' (show i < 256 by omega)]
    show _ < 128
    omega
  intro q hq
  unfold avatarStr at hs
  split at hs
  · obtain rfl := Option.some.inj hs
    exact hq.elim
  · split at hs
    · obtain rfl := Option.some.inj hs
      obtain ⟨hx, hy⟩ := of_decide_eq_true (zoomedOk_all avatar.1)
      have hglyph : q ∈ glyphPixels (u8gFontData .unifontUpper) _ _ _ :=
        hq.resolve_right fun h => h
      obtain ⟨i, hi, j, hj, rfl⟩ := mem_glyphPixels hglyph rfl
      exact ⟨hadd _ hi hx, hadd _ hj hy⟩
    · cases hs

section

variable {u : U8g} {k : Nat} {on : Bool} {c : Set Pixel}

theorem U8g.Shows.zoomed (h : u.Shows k .scale2x2 on c) (hfont : u.Typesets .unifontUpper)
    {avatar : UInt8 × UInt8} {s : List UInt8} (hs : avatarStr avatar = some s) :
    (u8gDrawStr (zoomedColumn s) (.ofInt (64 / zoomScale)) s u).2.Shows k .scale2x2 on
      (paint on (zoomedPixels s) c) := by
  have hvref := h.fontCalcVref_eq hfont
  obtain ⟨-, hdraws⟩ := draws_str h.ready hfont.1 (zoomedColumn s) (.ofInt (64 / zoomScale)) s
    fun _ q hq => zoomed_fits hs q (by rw [hvref] at hq; exact hq)
  rw [hvref] at hdraws
  exact h.inksDoubled hdraws

/-- The line under the avatar, in numbers. -/
theorem cursor_fits : ∀ q ∈ hlinePixels (cursorPos .avatar).x (cursorPos .avatar).y
    (cursorPos .avatar).len, q.1 < 128 ∧ q.2 < 128 := by
  rintro ⟨x, y⟩ ⟨hx, rfl⟩
  have hlt := x.toNat_lt
  simp only [cursorPos, UInt8.lt_iff_toNat_lt, UInt8.toNat_sub, UInt8.reduceToNat] at hx ⊢
  omega

/-- The cursor at the end of `draw_config`, which undoes the scaling before or after it. -/
theorem U8g.Shows.cursor (h : u.Shows k .scale2x2 on c) (cursor : Cursor) :
    (let u := if cursor ≠ .avatar then u8gUndoScale u else u
      let u := u8gDrawHLine (cursorPos cursor).x (cursorPos cursor).y (cursorPos cursor).len u
      if cursor = .avatar then u8gUndoScale u else u).Shows k .ls010b7dh01 on
        (paint on (cursorPixels cursor) c) := by
  have hplain : (u8gDrawHLine (cursorPos cursor).x (cursorPos cursor).y (cursorPos cursor).len
      (u8gUndoScale u)).Shows k .ls010b7dh01 on
        (paint on (hlinePixels (cursorPos cursor).x (cursorPos cursor).y (cursorPos cursor).len)
          c) :=
    h.undoScale.inks (draws_hline h.undoScale.ready _ _ _ (h.undoScale.fits _))
  cases cursor with
  | avatar =>
    exact (h.inksDoubled (draws_hline h.ready _ _ _ fun _ => cursor_fits)).undoScale
  | ok => exact hplain
  | none => exact hplain

theorem U8g.Shows.message (h : u.Shows k .ls010b7dh01 on c) (hfont : u.Typesets .profont22r)
    (s : List UInt8) :
    (if s.length > 0 then drawStrAround 64 22 s u else u).Shows k .ls010b7dh01 on
      (paint on (strPixelsAround .profont22r 64 22 s) c) := by
  cases s with
  | nil =>
    have hempty : paint on (strPixelsAround .profont22r 64 22 []) c = c := by
      ext p
      exact mem_paint_of_notMem fun h => h
    rw [if_neg (by decide), hempty]
    exact h
  | cons b s => exact (h.strAround hfont 64 22 (b :: s)).1

theorem renders_configFace {w : Watch} {s : List UInt8} (hs : avatarStr w.gAvatar = some s) :
    Renders drawConfig w w (configFace w) := by
  intro k on u _ h
  have hset := h.setColor 1
  have hradius : (64 : UInt8).toNat ≤ 64 := by decide
  have hdisc := (hset.inks (draws_disc hset.ready 64 64 hradius (hset.fits _))).setColor 0
  rw [show ((1 : UInt8) != 0) = true from rfl, paint_true, Set.empty_union] at hdisc
  obtain ⟨hprofont, hfont⟩ := hdisc.centeredFont .profont22r
  obtain ⟨hunifont, hfont'⟩ := (hprofont.message hfont (msgStr w)).setScale.centeredFont
    .unifontUpper
  have hall := (hunifont.zoomed hfont' hs).cursor w.currCursor
  rw [paint_paint, paint_paint, show ((0 : UInt8) != 0) = false from rfl, paint_false,
    ← Set.union_assoc] at hall
  rw [configFace, hs]
  exact ⟨_, false, by rw [drawConfig, hs]; rfl, hall⟩

end

end Muchiwachi
