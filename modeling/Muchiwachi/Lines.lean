import Muchiwachi.Shapes
import Muchiwachi.Lib.Digital

/-!
# Lines (`u8g_line.c`)

A line is drawn with an error accumulator of eight bits. `draws_line` says that between points of
the display it does not overflow, and what is painted is a line: `digitalLine_linePixels`.
-/

namespace Muchiwachi

open Lib.Raster Lib.Digital

/-- The numbers of a pixel. -/
def point (p : Pixel) : Int × Int := (p.1.toNat, p.2.toNat)

theorem point_injective : Function.Injective point := by
  intro p q h
  obtain ⟨h1, h2⟩ := Prod.mk.inj h
  exact Prod.ext (UInt8.toNat_inj.mp (by omega)) (UInt8.toNat_inj.mp (by omega))

/-- The `for` of `u8g_DrawLine`, at most `fuel` times. -/
def drawLineLoop (x2 dx dy : UInt8) (ystep : Int8) (swapxy : Bool) :
    Nat → UInt8 → UInt8 → Int8 → U8g → Option U8g
  | 0, _, _, _, _ => none
  | fuel + 1, x, y, err, u =>
    if x ≤ x2 then
      let u := if swapxy = false then u8gDrawPixel x y u else u8gDrawPixel y x u
      let err := err - dy.toInt8
      if err < 0 then
        drawLineLoop x2 dx dy ystep swapxy fuel (x + 1) (y + ystep.toUInt8) (err + dx.toInt8) u
      else drawLineLoop x2 dx dy ystep swapxy fuel (x + 1) y err u
    else some u

/-- `u8g_DrawLine` from the exchange of the ends on: the longer axis is that of `x`. -/
def drawLineFrom (fuel : Nat) (x1 y1 x2 y2 dx dy : UInt8) (swapxy : Bool) (u : U8g) : Option U8g :=
  let ends := if x1 > x2 then (x2, y2, x1, y1) else (x1, y1, x2, y2)
  drawLineLoop ends.2.2.1 dx dy (if ends.2.2.2 > ends.2.1 then 1 else -1) swapxy fuel ends.1
    ends.2.1 (dx >>> 1).toInt8 u

def u8gDrawLine (fuel : Nat) (x1 y1 x2 y2 : UInt8) (u : U8g) : Option U8g :=
  let dx := if x1 > x2 then x1 - x2 else x2 - x1
  let dy := if y1 > y2 then y1 - y2 else y2 - y1
  if dy > dx then drawLineFrom fuel y1 x1 y2 x2 dy dx true u
  else drawLineFrom fuel x1 y1 x2 y2 dx dy false u

/-! ### The accumulator in eight bits -/

theorem toInt_toInt8 {a : UInt8} (h : a.toNat ≤ 127) : a.toInt8.toInt = a.toNat := by
  show a.toBitVec.toInt = a.toNat
  rw [BitVec.toInt_eq_toNat_bmod]
  exact Int.bmod_eq_of_le (by omega) (by simp only [UInt8.toNat_toBitVec]; omega)

theorem int8_add {a b : Int8} (hlo : -128 ≤ a.toInt + b.toInt) (hhi : a.toInt + b.toInt ≤ 127) :
    (a + b).toInt = a.toInt + b.toInt := by
  rw [Int8.toInt_add]
  exact Int.bmod_eq_of_le (by omega) (by omega)

theorem int8_sub {a b : Int8} (hlo : -128 ≤ a.toInt - b.toInt) (hhi : a.toInt - b.toInt ≤ 127) :
    (a - b).toInt = a.toInt - b.toInt := by
  rw [Int8.toInt_sub]
  exact Int.bmod_eq_of_le (by omega) (by omega)

/-- The loop is at column `i` of the line from `(x1, y1)` on. -/
structure LineState (x1 y1 dx dy : UInt8) (ystep : Int8) (i : Nat) (x y : UInt8) (err : Int8) :
    Prop where
  x : x = x1 + .ofNat i
  y : y = y1 + .ofNat (digital dx.toNat dy.toNat i) * ystep.toUInt8
  err : err.toInt = (lineAt dx.toNat dy.toNat i).1

section

variable {x1 y1 dx dy : UInt8} {ystep : Int8} {i : Nat} {x y : UInt8} {err : Int8}

/-- A turn of the loop goes to the next column; the error stays within its eight bits. -/
theorem LineState.next (h : LineState x1 y1 dx dy ystep i x y err) (hdx : dx.toNat ≤ 127)
    (hdy : dy ≤ dx) (hpos : 0 < dx.toNat) :
    if err - dy.toInt8 < 0 then
      LineState x1 y1 dx dy ystep (i + 1) (x + 1) (y + ystep.toUInt8) (err - dy.toInt8 + dx.toInt8)
    else LineState x1 y1 dx dy ystep (i + 1) (x + 1) y (err - dy.toInt8) := by
  have hdy' := UInt8.le_iff_toNat_le.mp hdy
  have hstep := lineStep_lineAt (i := i) hpos hdy'
  obtain ⟨hlo, hhi⟩ := lineAt_fst hpos dy.toNat i
  have hdyInt := toInt_toInt8 (hdy'.trans hdx)
  have hsub : (err - dy.toInt8).toInt = (lineAt dx.toNat dy.toNat i).1 - dy.toNat := by
    rw [int8_sub, hdyInt, h.err] <;> rw [hdyInt, h.err] <;> omega
  have hneg : err - dy.toInt8 < 0 ↔ (lineAt dx.toNat dy.toNat i).1 - dy.toNat < 0 := by
    rw [Int8.lt_iff_toInt_lt, hsub]
    rfl
  have hx : x + 1 = x1 + .ofNat (i + 1) := by
    rw [h.x, UInt8.ofNat_add]
    exact UInt8.add_assoc ..
  unfold lineStep at hstep
  split
  · have hbelow := hneg.mp ‹_›
    rw [if_pos hbelow] at hstep
    have hrow : digital dx.toNat dy.toNat i + 1 = digital dx.toNat dy.toNat (i + 1) :=
      congrArg Prod.snd hstep
    refine ⟨hx, ?_, ?_⟩
    · rw [h.y, ← hrow, UInt8.ofNat_add]
      have hone : UInt8.ofNat 1 = 1 := rfl
      rw [hone]
      grind
    · rw [int8_add, hsub, toInt_toInt8 hdx, ← hstep] <;> rw [hsub, toInt_toInt8 hdx] <;> omega
  · rw [if_neg (mt hneg.mpr ‹_›)] at hstep
    have hrow : digital dx.toNat dy.toNat i = digital dx.toNat dy.toNat (i + 1) :=
      congrArg Prod.snd hstep
    exact ⟨hx, by rw [h.y, hrow], by rw [hsub, ← hstep]⟩

end

/-- Pixel `i` of the line, with the axes as they were. -/
def loopPixel (x1 y1 dx dy : UInt8) (ystep : Int8) (swapxy : Bool) (i : Nat) : Pixel :=
  let p : Pixel := (x1 + .ofNat i, y1 + .ofNat (digital dx.toNat dy.toNat i) * ystep.toUInt8)
  if swapxy = false then p else p.swap

/-- The pixels from column `i` on. -/
def loopPixels (x1 y1 dx dy : UInt8) (ystep : Int8) (swapxy : Bool) (i : Nat) : Set Pixel :=
  {p | ∃ j, i ≤ j ∧ j ≤ dx.toNat ∧ p = loopPixel x1 y1 dx dy ystep swapxy j}

theorem loopPixels_succ {x1 y1 dx dy : UInt8} {ystep : Int8} {swapxy : Bool} {i : Nat}
    (hi : i ≤ dx.toNat) :
    {loopPixel x1 y1 dx dy ystep swapxy i} ∪ loopPixels x1 y1 dx dy ystep swapxy (i + 1) =
      loopPixels x1 y1 dx dy ystep swapxy i := by
  ext p
  constructor
  · rintro (rfl | ⟨j, hij, hj, rfl⟩)
    · exact ⟨i, Nat.le_refl i, hi, rfl⟩
    · exact ⟨j, by omega, hj, rfl⟩
  · rintro ⟨j, hij, hj, rfl⟩
    obtain rfl | hlt := Nat.eq_or_lt_of_le hij
    · exact .inl rfl
    · exact .inr ⟨j, hlt, hj, rfl⟩

/-- The pixel of a turn. -/
theorem draws_loopPixel {x1 y1 dx dy : UInt8} {ystep : Int8} (swapxy : Bool) {i : Nat} {x y : UInt8}
    {err : Int8} (hstate : LineState x1 y1 dx dy ystep i x y err) {u : U8g} (hu : u.Ready) :
    Draws u (if swapxy = false then u8gDrawPixel x y u else u8gDrawPixel y x u)
      (u.cover {loopPixel x1 y1 dx dy ystep swapxy i}) := by
  unfold loopPixel
  rw [← hstate.x, ← hstate.y]
  cases swapxy with
  | false => exact draws_pixel hu x y
  | true => exact draws_pixel hu y x

/-- The loop ends, and has painted the pixels from its column on. -/
theorem draws_lineLoop {x1 y1 x2 dx dy : UInt8} {ystep : Int8} (swapxy : Bool) (hx : x1 ≤ x2)
    (hdx : dx = x2 - x1) (hx2 : x2.toNat ≤ 127) (hdy : dy ≤ dx) {n i : Nat}
    (hn : i + n = dx.toNat) {x y : UInt8} {err : Int8}
    (hstate : LineState x1 y1 dx dy ystep i x y err) {u : U8g} (hu : u.Ready) :
    ∃ u', (∀ fuel, n + 2 ≤ fuel →
        drawLineLoop x2 dx dy ystep swapxy fuel x y err u = some u') ∧
      Draws u u' (u.cover (loopPixels x1 y1 dx dy ystep swapxy i)) := by
  have hdxNat : dx.toNat = x2.toNat - x1.toNat := by rw [hdx, UInt8.toNat_sub_of_le _ _ hx]
  have hx' := UInt8.le_iff_toNat_le.mp hx
  induction n generalizing i x y err u with
  | zero =>
    have hcol : x.toNat = x2.toNat := by
      rw [hstate.x, UInt8.toNat_add, UInt8.toNat_ofNat_of_lt' (show i < 256 by omega)]
      omega
    have hin : x ≤ x2 := UInt8.le_iff_toNat_le.mpr hcol.le
    have hout : ¬ x + 1 ≤ x2 := by
      rw [UInt8.le_iff_toNat_le, UInt8.toNat_add, hcol]
      simp only [UInt8.reduceToNat]
      omega
    have hpixel := draws_loopPixel swapxy hstate hu
    have hlast : loopPixels x1 y1 dx dy ystep swapxy (i + 1) = ∅ := by
      ext p
      refine ⟨fun ⟨j, hij, hj, _⟩ => ?_, fun h => h.elim⟩
      omega
    refine ⟨if swapxy = false then u8gDrawPixel x y u else u8gDrawPixel y x u,
      fun fuel hfuel => ?_, ?_⟩
    · obtain ⟨fuel, rfl⟩ := Nat.exists_eq_add_of_le' hfuel
      simp only [drawLineLoop, hin, hout, if_true, if_false]
      exact ite_self _
    · rw [← loopPixels_succ (by omega : i ≤ dx.toNat), hlast, Set.union_empty]
      exact hpixel
  | succ n ih =>
    have hcol : x.toNat = x1.toNat + i := by
      rw [hstate.x, UInt8.toNat_add, UInt8.toNat_ofNat_of_lt' (show i < 256 by omega)]
      omega
    have hin : x ≤ x2 := UInt8.le_iff_toNat_le.mpr (by omega)
    have hpixel := draws_loopPixel swapxy hstate hu
    have hnext := hstate.next (by omega) hdy (by omega)
    rw [← loopPixels_succ (by omega : i ≤ dx.toNat), ← cover_union]
    by_cases hneg : err - dy.toInt8 < 0
    · rw [if_pos hneg] at hnext
      obtain ⟨u', hrun, hdraws⟩ := ih (by omega) hnext (hpixel.ready hu)
      rw [hpixel.cover] at hdraws
      refine ⟨u', fun fuel hfuel => ?_, hpixel.trans hdraws⟩
      obtain ⟨fuel, rfl⟩ := Nat.exists_eq_add_of_le' hfuel
      rw [show fuel + (n + 1 + 2) = fuel + (n + 2) + 1 by omega, drawLineLoop, if_pos hin]
      simp only [hneg, if_true]
      exact hrun _ (Nat.le_add_left ..)
    · rw [if_neg hneg] at hnext
      obtain ⟨u', hrun, hdraws⟩ := ih (by omega) hnext (hpixel.ready hu)
      rw [hpixel.cover] at hdraws
      refine ⟨u', fun fuel hfuel => ?_, hpixel.trans hdraws⟩
      obtain ⟨fuel, rfl⟩ := Nat.exists_eq_add_of_le' hfuel
      rw [show fuel + (n + 1 + 2) = fuel + (n + 2) + 1 by omega, drawLineLoop, if_pos hin]
      simp only [hneg, if_false]
      exact hrun _ (Nat.le_add_left ..)

/-! ### The line -/

/-- The pixels of the line between two points of the display. -/
def linePixels (x1 y1 x2 y2 : UInt8) : Set Pixel :=
  {p | point p ∈ linePoints x1.toNat y1.toNat x2.toNat y2.toNat}

/-- A row between the ends. -/
theorem toNat_row {y1 y2 : UInt8} (hy1 : y1.toNat ≤ 127) (hy2 : y2.toNat ≤ 127) {d : Nat}
    (hd : d ≤ (y2.toNat - y1.toNat : Int).natAbs) :
    ((y1 + .ofNat d * (if y2 > y1 then 1 else -1 : Int8).toUInt8).toNat : Int) =
      y1.toNat + (if (y1.toNat : Int) < y2.toNat then 1 else -1) * d := by
  have hdNat : (UInt8.ofNat d).toNat = d := UInt8.toNat_ofNat_of_lt' (show d < 256 by omega)
  have hlt : y2 > y1 ↔ (y1.toNat : Int) < y2.toNat := by
    rw [gt_iff_lt, UInt8.lt_iff_toNat_lt]
    omega
  by_cases h : y2 > y1
  · rw [if_pos h, if_pos (hlt.mp h), UInt8.toNat_add, UInt8.toNat_mul, hdNat,
      show (Int8.toUInt8 1).toNat = 1 from rfl]
    omega
  · rw [if_neg h, if_neg (mt hlt.mpr h), UInt8.toNat_add, UInt8.toNat_mul, hdNat,
      show (Int8.toUInt8 (-1)).toNat = 255 from rfl]
    have hle := mt hlt.mpr h
    omega

/-- The pixels of the loop lie between the ends, and there eight bits are as good as numbers. -/
theorem loopPixels_eq {x1 y1 x2 y2 : UInt8} (hx : x1 ≤ x2) (hx2 : x2.toNat ≤ 127)
    (hy1 : y1.toNat ≤ 127) (hy2 : y2.toNat ≤ 127) {dy : UInt8}
    (hdy : dy.toNat = (y2.toNat - y1.toNat : Int).natAbs) (hflat : dy ≤ x2 - x1) :
    loopPixels x1 y1 (x2 - x1) dy (if y2 > y1 then 1 else -1) false 0 =
      {p | point p ∈ digitalPixels x1.toNat y1.toNat (x2.toNat - x1.toNat : Int).toNat
        (y2.toNat - y1.toNat : Int).natAbs (if (y1.toNat : Int) < y2.toNat then 1 else -1)} := by
  have hdx : (x2 - x1).toNat = (x2.toNat - x1.toNat : Int).toNat := by
    rw [UInt8.toNat_sub_of_le _ _ hx]
    omega
  have hx' := UInt8.le_iff_toNat_le.mp hx
  have hflat' := UInt8.le_iff_toNat_le.mp hflat
  have hpoint (j : Nat) (hj : j ≤ (x2 - x1).toNat) :
      point (loopPixel x1 y1 (x2 - x1) dy (if y2 > y1 then 1 else -1) false j) =
        (x1.toNat + (j : Int), y1.toNat + (if (y1.toNat : Int) < y2.toNat then 1 else -1) *
          (digital (x2.toNat - x1.toNat : Int).toNat (y2.toNat - y1.toNat : Int).natAbs j :
            Int)) := by
    have hrow : digital (x2 - x1).toNat dy.toNat j ≤ (y2.toNat - y1.toNat : Int).natAbs := by
      rw [← hdy]
      rcases Nat.eq_zero_or_pos (x2 - x1).toNat with h0 | hpos
      · obtain rfl : j = 0 := by omega
        rw [digital_zero]
        exact Nat.zero_le _
      · exact digital_le hpos hj
    have hcol : ((x1 + .ofNat j : UInt8).toNat : Int) = x1.toNat + j := by
      rw [UInt8.toNat_add, UInt8.toNat_ofNat_of_lt' (show j < 256 by omega)]
      omega
    refine Prod.ext hcol ?_
    rw [← hdx, ← hdy]
    exact toNat_row hy1 hy2 hrow
  ext p
  constructor
  · rintro ⟨j, -, hj, rfl⟩
    exact ⟨j, by omega, hpoint j hj⟩
  · rintro ⟨j, hj, hp⟩
    refine ⟨j, Nat.zero_le _, by omega, ?_⟩
    rw [← hpoint j (by omega)] at hp
    exact point_injective hp

theorem loopPixels_swap (x1 y1 dx dy : UInt8) (ystep : Int8) (i : Nat) :
    loopPixels x1 y1 dx dy ystep true i =
      {p | p.swap ∈ loopPixels x1 y1 dx dy ystep false i} := by
  ext p
  constructor
  · rintro ⟨j, hij, hj, rfl⟩
    exact ⟨j, hij, hj, rfl⟩
  · rintro ⟨j, hij, hj, hp⟩
    exact ⟨j, hij, hj, (Prod.swap_swap p).symm.trans (congrArg Prod.swap hp)⟩

theorem lineState_zero (x1 y1 dx dy : UInt8) (ystep : Int8) (hdx : dx.toNat ≤ 127) :
    LineState x1 y1 dx dy ystep 0 x1 y1 (dx >>> 1).toInt8 := by
  have hhalf : (dx >>> 1).toNat = dx.toNat / 2 := by
    simp [UInt8.toNat_shiftRight, Nat.shiftRight_eq_div_pow]
  refine ⟨by simp, by simp [digital_zero], ?_⟩
  rw [toInt_toInt8 (by omega), hhalf]
  simp [lineAt, digital_zero]

/-- A line to the right, along its longer axis. -/
theorem draws_rightward {u : U8g} (hu : u.Ready) {x1 y1 x2 y2 dy : UInt8} (hx : x1 ≤ x2)
    (hx2 : x2.toNat ≤ 127) (hy1 : y1.toNat ≤ 127) (hy2 : y2.toNat ≤ 127)
    (hdy : dy.toNat = (y2.toNat - y1.toNat : Int).natAbs) (hflat : dy ≤ x2 - x1) (swapxy : Bool) :
    ∃ u', (∀ fuel, 129 ≤ fuel → drawLineLoop x2 (x2 - x1) dy (if y2 > y1 then 1 else -1) swapxy
        fuel x1 y1 ((x2 - x1) >>> 1).toInt8 u = some u') ∧
      Draws u u' (u.cover {p | point (if swapxy = false then p else p.swap) ∈
        digitalPixels x1.toNat y1.toNat (x2.toNat - x1.toNat : Int).toNat
          (y2.toNat - y1.toNat : Int).natAbs (if (y1.toNat : Int) < y2.toNat then 1 else -1)}) := by
  have hdxNat : (x2 - x1).toNat ≤ 127 := by
    rw [UInt8.toNat_sub_of_le _ _ hx]
    omega
  obtain ⟨u', hrun, hdraws⟩ := draws_lineLoop swapxy hx rfl hx2 hflat (Nat.zero_add _)
    (lineState_zero x1 y1 (x2 - x1) dy (if y2 > y1 then 1 else -1) hdxNat) hu
  refine ⟨u', fun fuel hfuel => hrun fuel (by omega), ?_⟩
  have hpixels := loopPixels_eq hx hx2 hy1 hy2 hdy hflat
  cases swapxy with
  | false => rwa [hpixels] at hdraws
  | true => rwa [loopPixels_swap, hpixels] at hdraws

theorem toNat_absDiff (a b : UInt8) :
    (if a > b then a - b else b - a).toNat = (b.toNat - a.toNat : Int).natAbs := by
  split
  · have hlt := UInt8.lt_iff_toNat_lt.mp ‹a > b›
    rw [UInt8.toNat_sub_of_le _ _ (UInt8.le_of_lt ‹_›)]
    omega
  · have hle := UInt8.le_iff_toNat_le.mp (UInt8.not_lt.mp ‹¬ a > b›)
    rw [UInt8.toNat_sub_of_le _ _ (UInt8.not_lt.mp ‹_›)]
    omega

/-- The line from the exchange of the ends on, along its longer axis. -/
theorem draws_lineFrom {u : U8g} (hu : u.Ready) {x1 y1 x2 y2 dx dy : UInt8} (hx1 : x1.toNat ≤ 127)
    (hy1 : y1.toNat ≤ 127) (hx2 : x2.toNat ≤ 127) (hy2 : y2.toNat ≤ 127)
    (hdx : dx = if x1 > x2 then x1 - x2 else x2 - x1)
    (hdy : dy = if y1 > y2 then y1 - y2 else y2 - y1) (hflat : dy ≤ dx) (swapxy : Bool) :
    ∃ u', (∀ fuel, 129 ≤ fuel → drawLineFrom fuel x1 y1 x2 y2 dx dy swapxy u = some u') ∧
      Draws u u' (u.cover {p | point (if swapxy = false then p else p.swap) ∈
        flatPoints x1.toNat y1.toNat x2.toNat y2.toNat}) := by
  have hdyNat : dy.toNat = (y2.toNat - y1.toNat : Int).natAbs := by rw [hdy, toNat_absDiff]
  unfold drawLineFrom flatPoints
  by_cases hx : x1 > x2
  · have hlt := UInt8.lt_iff_toNat_lt.mp hx
    rw [if_pos hx] at hdx
    subst hdx
    have hdyNat' : dy.toNat = (y1.toNat - y2.toNat : Int).natAbs := by omega
    rw [if_pos hx, if_neg (by omega)]
    exact draws_rightward hu (UInt8.le_of_lt hx) hx1 hy2 hy1 hdyNat' hflat swapxy
  · have hle := UInt8.le_iff_toNat_le.mp (UInt8.not_lt.mp hx)
    rw [if_neg hx] at hdx
    subst hdx
    rw [if_neg hx, if_pos (by omega)]
    exact draws_rightward hu (UInt8.not_lt.mp hx) hx2 hy1 hy2 hdyNat hflat swapxy

/-- The loop ends, as its accumulator never leaves its eight bits, and what is painted is the line
between the two points. -/
theorem draws_line {u : U8g} (hu : u.Ready) {x1 y1 x2 y2 : UInt8} (hx1 : x1.toNat ≤ 127)
    (hy1 : y1.toNat ≤ 127) (hx2 : x2.toNat ≤ 127) (hy2 : y2.toNat ≤ 127) :
    ∃ u', (∀ fuel, 129 ≤ fuel → u8gDrawLine fuel x1 y1 x2 y2 u = some u') ∧
      Draws u u' (u.cover (linePixels x1 y1 x2 y2)) := by
  have hdx := toNat_absDiff x1 x2
  have hdy := toNat_absDiff y1 y2
  unfold u8gDrawLine linePixels linePoints
  by_cases hsteep : (if y1 > y2 then y1 - y2 else y2 - y1) > (if x1 > x2 then x1 - x2 else x2 - x1)
  · have habs : ¬ |(y2.toNat : Int) - y1.toNat| ≤ |(x2.toNat : Int) - x1.toNat| := by
      rw [Int.abs_eq_natAbs, Int.abs_eq_natAbs]
      have hlt := UInt8.lt_iff_toNat_lt.mp hsteep
      omega
    simp only [hsteep, if_true, habs, if_false]
    exact draws_lineFrom hu hy1 hx1 hy2 hx2 rfl rfl (UInt8.le_of_lt hsteep) true
  · have habs : |(y2.toNat : Int) - y1.toNat| ≤ |(x2.toNat : Int) - x1.toNat| := by
      rw [Int.abs_eq_natAbs, Int.abs_eq_natAbs]
      have hle := UInt8.le_iff_toNat_le.mp (UInt8.not_lt.mp hsteep)
      omega
    simp only [hsteep, if_true, habs, if_false]
    exact draws_lineFrom hu hx1 hy1 hx2 hy2 rfl rfl (UInt8.not_lt.mp hsteep) false

theorem exists_point {q : Int × Int} (hx : 0 ≤ q.1 ∧ q.1 ≤ 127) (hy : 0 ≤ q.2 ∧ q.2 ≤ 127) :
    ∃ p, point p = q := by
  refine ⟨(.ofNat q.1.toNat, .ofNat q.2.toNat), Prod.ext ?_ ?_⟩
  · simp only [point, UInt8.toNat_ofNat']
    omega
  · simp only [point, UInt8.toNat_ofNat']
    omega

/-- What is painted is a line in the sense of the grid. -/
theorem digitalLine_linePixels {x1 y1 x2 y2 : UInt8} (hx1 : x1.toNat ≤ 127) (hy1 : y1.toNat ≤ 127)
    (hx2 : x2.toNat ≤ 127) (hy2 : y2.toNat ≤ 127) :
    DigitalLine x1.toNat y1.toNat x2.toNat y2.toNat (point '' linePixels x1 y1 x2 y2) := by
  have hline := digitalLine_linePoints x1.toNat y1.toNat x2.toNat y2.toNat
  have himage : point '' linePixels x1 y1 x2 y2 =
      linePoints x1.toNat y1.toNat x2.toNat y2.toNat := by
    refine Set.image_preimage_eq_of_subset fun q hq => ?_
    unfold DigitalLine at hline
    split at hline
    · obtain ⟨⟨hxlo, hxhi⟩, hylo, hyhi⟩ := hline.inside q hq
      exact exists_point (by omega) (by omega)
    · obtain ⟨⟨hxlo, hxhi⟩, hylo, hyhi⟩ := hline.inside q.swap hq
      exact exists_point (by simp only [Prod.fst_swap, Prod.snd_swap] at *; omega)
        (by simp only [Prod.fst_swap, Prod.snd_swap] at *; omega)
  rwa [himage]

/-- **Lines between points of the display are lines**: there is a line of the grid between the two
points of which every page takes its part, and the loop ends. -/
theorem drawLine_digital {x1 y1 x2 y2 : UInt8} (hx1 : x1.toNat ≤ 127) (hy1 : y1.toNat ≤ 127)
    (hx2 : x2.toNat ≤ 127) (hy2 : y2.toNat ≤ 127) :
    ∃ S : Set Pixel, DigitalLine x1.toNat y1.toNat x2.toNat y2.toNat (point '' S) ∧
      ∀ u : U8g, u.Ready → ∃ u', (∀ fuel, 129 ≤ fuel → u8gDrawLine fuel x1 y1 x2 y2 u = some u') ∧
        Draws u u' (u.cover S) :=
  ⟨linePixels x1 y1 x2 y2, digitalLine_linePixels hx1 hy1 hx2 hy2,
    fun _ hu => draws_line hu hx1 hy1 hx2 hy2⟩

/-- A steep line up and to the left, across the borders of pages. -/
theorem drawLine_digital_sample :
    ∃ S : Set Pixel, DigitalLine 64 64 49 38 (point '' S) ∧
      ∀ u : U8g, u.Ready → ∃ u', (∀ fuel, 129 ≤ fuel → u8gDrawLine fuel 64 64 49 38 u = some u') ∧
        Draws u u' (u.cover S) :=
  @drawLine_digital 64 64 49 38 (by decide) (by decide) (by decide) (by decide)

end Muchiwachi
