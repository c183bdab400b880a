import Muchiwachi.Lines

/-!
# Discs (`u8g_circle.c`)

A disc is drawn with vertical lines, column by column of an octant, with accumulators of eight
bits. `draws_disc` says that up to a radius of 64 they do not overflow, and what is painted is a
disc: `digitalDisc`. The largest disc the application draws has this radius.
-/

namespace Muchiwachi

open Lib.Raster Lib.Digital

/-- `U8G_DRAW_UPPER_RIGHT`, `U8G_DRAW_UPPER_LEFT`, `U8G_DRAW_LOWER_LEFT` and
`U8G_DRAW_LOWER_RIGHT`. -/
def u8gDrawUpperRight : UInt8 := 0x01
def u8gDrawUpperLeft : UInt8 := 0x02
def u8gDrawLowerLeft : UInt8 := 0x04
def u8gDrawLowerRight : UInt8 := 0x08

def u8gDrawAll : UInt8 :=
  u8gDrawUpperRight ||| u8gDrawUpperLeft ||| u8gDrawLowerRight ||| u8gDrawLowerLeft

/-- The two lines of a quadrant. -/
def quadrant (xa xb ya yb h1 h2 : UInt8) (u : U8g) : U8g :=
  u8gDrawVLine xb yb h2 (u8gDrawVLine xa ya h1 u)

/-- `u8g_draw_disc_section`. -/
def discSection (x y x0 y0 option : UInt8) (u : U8g) : U8g :=
  let u := if option &&& u8gDrawUpperRight ≠ 0 then
    quadrant (x0 + x) (x0 + y) (y0 - y) (y0 - x) (y + 1) (x + 1) u else u
  let u := if option &&& u8gDrawUpperLeft ≠ 0 then
    quadrant (x0 - x) (x0 - y) (y0 - y) (y0 - x) (y + 1) (x + 1) u else u
  let u := if option &&& u8gDrawLowerRight ≠ 0 then
    quadrant (x0 + x) (x0 + y) y0 y0 (y + 1) (x + 1) u else u
  if option &&& u8gDrawLowerLeft ≠ 0 then
    quadrant (x0 - x) (x0 - y) y0 y0 (y + 1) (x + 1) u else u

/-- The locals of `u8g_draw_disc`. -/
structure DiscVars where
  f : Int8
  ddFx : Int8
  ddFy : Int8
  x : UInt8
  y : UInt8
  deriving DecidableEq, Repr

/-- The locals before the loop. -/
def DiscVars.init (rad : UInt8) : DiscVars where
  f := 1 - rad.toInt8
  ddFx := 1
  ddFy := (0 - rad.toInt8) * 2
  x := 0
  y := rad

/-- What a turn of the loop does to the locals. -/
def DiscVars.next (v : DiscVars) : DiscVars :=
  let v := if v.f ≥ 0 then
    { v with y := v.y - 1, ddFy := v.ddFy + 2, f := v.f + (v.ddFy + 2) } else v
  { v with x := v.x + 1, ddFx := v.ddFx + 2, f := v.f + (v.ddFx + 2) }

@[simp] theorem DiscVars.next_x (v : DiscVars) : v.next.x = v.x + 1 := by
  unfold DiscVars.next
  split <;> rfl

/-- A turn brings the row and the column closer. -/
theorem DiscVars.next_closer {v : DiscVars} (h : v.x < v.y) :
    v.next.y.toNat - v.next.x.toNat < v.y.toNat - v.x.toNat := by
  have hlt := UInt8.lt_iff_toNat_lt.mp h
  have hylt := v.y.toNat_lt
  have hx : v.next.x.toNat = v.x.toNat + 1 := by
    rw [next_x, UInt8.toNat_add, show (1 : UInt8).toNat = 1 from rfl]
    omega
  have hy : v.next.y.toNat ≤ v.y.toNat := by
    unfold DiscVars.next
    split
    · have hone : (1 : UInt8) ≤ v.y := by
        rw [UInt8.le_iff_toNat_le, show (1 : UInt8).toNat = 1 from rfl]
        omega
      simp only
      rw [UInt8.toNat_sub_of_le _ _ hone]
      exact Nat.sub_le ..
    · exact Nat.le_refl _
  omega

/-- The `while` of `u8g_draw_disc`. -/
def drawDiscLoop (x0 y0 option : UInt8) (v : DiscVars) (u : U8g) : U8g :=
  if v.x < v.y then
    drawDiscLoop x0 y0 option v.next (discSection v.next.x v.next.y x0 y0 option u)
  else u
termination_by v.y.toNat - v.x.toNat
decreasing_by exact DiscVars.next_closer ‹_›

/-- `u8g_draw_disc`. -/
def u8gDrawDiscUnclipped (x0 y0 rad option : UInt8) (u : U8g) : U8g :=
  drawDiscLoop x0 y0 option (.init rad) (discSection 0 rad x0 y0 option u)

def u8gDrawDisc (x0 y0 rad option : UInt8) (u : U8g) : U8g :=
  let radp := rad + 1
  let radp2 := radp * 2
  if u8gIsBBXIntersection u (x0 - radp) (y0 - radp) radp2 radp2 = false then u
  else u8gDrawDiscUnclipped x0 y0 rad option u

/-! ## The accumulators in eight bits -/

/-- The columns of an octant of radius at most 64 end by 46. -/
theorem inOctant_le {r n : Nat} (hr : r ≤ 64) (h : InOctant r n) : n ≤ 46 := by
  cases n with
  | zero => exact Nat.zero_le _
  | succ m =>
    have hlt := h m (Nat.lt_succ_self m)
    obtain ⟨hnear, -⟩ := circleRow_near (h.of_le (Nat.le_succ m))
    have hsq : (m + 1) * (m + 1) ≤ circleRow r m * circleRow r m := Nat.mul_le_mul hlt hlt
    have hrr : r * r ≤ 64 * 64 := Nat.mul_le_mul hr hr
    by_contra hm
    have hmm : 46 * 46 ≤ m * m := Nat.mul_le_mul (by omega) (by omega)
    have hmm' : 47 * 47 ≤ (m + 1) * (m + 1) := Nat.mul_le_mul (by omega) (by omega)
    omega

/-- The decision variable stays within its eight bits. -/
theorem circleAt_f {r n : Nat} (h : InOctant r n) :
    -2 * circleRow r n + (2 * n + 1) ≤ (circleAt r n).f ∧ (circleAt r n).f ≤ 2 * n + 2 := by
  obtain ⟨-, hlo⟩ := circleRow_near h
  obtain ⟨hhi, -⟩ := circleRow_outer h
  have hlo' : (r * r : Int) ≤ n * n + circleRow r n * circleRow r n + circleRow r n := by
    exact_mod_cast hlo
  have hhi' : (n * n + circleRow r n * circleRow r n : Int) ≤ r * r + circleRow r n + 1 := by
    exact_mod_cast hhi
  have hsq : ((n + 1) * (n + 1) : Int) = n * n + 2 * n + 1 := by ring
  simp only [circleAt, hsq]
  omega

/-- The locals are those of column `n`. -/
structure DiscState (r n : Nat) (v : DiscVars) : Prop where
  x : v.x = .ofNat n
  y : v.y = .ofNat (circleRow r n)
  f : v.f.toInt = (circleAt r n).f
  ddFx : v.ddFx.toInt = (circleAt r n).ddx
  ddFy : v.ddFy.toInt = (circleAt r n).ddy

theorem discState_init {rad : UInt8} (hrad : rad.toNat ≤ 64) :
    DiscState rad.toNat 0 (.init rad) := by
  have hr := toInt_toInt8 (show rad.toNat ≤ 127 by omega)
  have hzero : (0 : Int8).toInt = 0 := rfl
  have hone : (1 : Int8).toInt = 1 := rfl
  have hneg : (0 - rad.toInt8).toInt = 0 - rad.toNat := by
    rw [int8_sub (by rw [hr, hzero]; omega) (by rw [hr, hzero]; omega), hr, hzero]
  refine ⟨rfl, UInt8.ofNat_toNat.symm, ?_, rfl, ?_⟩
  · have hf : (1 - rad.toInt8).toInt = 1 - rad.toNat := by
      rw [int8_sub (by rw [hr, hone]; omega) (by rw [hr, hone]; omega), hr, hone]
    simp only [DiscVars.init, circleAt, circleRow, hf]
    ring
  · simp only [DiscVars.init, circleAt, circleRow]
    rw [Int8.toInt_mul, hneg, show (2 : Int8).toInt = 2 from rfl, Int.bmod_eq_of_le] <;> omega

/-- A turn of the loop goes to the next column. -/
theorem DiscState.next {r n : Nat} (hr : r ≤ 64) (hn : InOctant r (n + 1)) {v : DiscVars}
    (h : DiscState r n v) : DiscState r (n + 1) v.next := by
  have hstep := circleStep_circleAt hn
  have hn46 := inOctant_le hr hn
  have hrow := circleRow_le r n
  obtain ⟨hlo, hhi⟩ := circleAt_f (hn.of_le (Nat.le_succ n))
  obtain ⟨hlo', hhi'⟩ := circleAt_f hn
  have hrow' := circleRow_le r (n + 1)
  have hddx : (circleAt r n).ddx = 2 * n + 1 := rfl
  have hddy : (circleAt r n).ddy = -2 * circleRow r n := rfl
  have htwo : (2 : Int8).toInt = 2 := rfl
  have hddFx : (v.ddFx + 2).toInt = (circleAt r n).ddx + 2 := by
    rw [int8_add (by rw [h.ddFx, htwo]; omega) (by rw [h.ddFx, htwo]; omega), h.ddFx, htwo]
  have hx : v.next.x = .ofNat (n + 1) := by
    rw [DiscVars.next_x, h.x, UInt8.ofNat_add]
    rfl
  have hout : v.f ≥ 0 ↔ (circleAt r n).f ≥ 0 := by
    rw [ge_iff_le, Int8.le_iff_toInt_le, h.f]
    rfl
  unfold circleStep at hstep
  by_cases hf : (circleAt r n).f ≥ 0
  · rw [if_pos hf] at hstep
    have hyNext : (circleRow r n : Int) - 1 = circleRow r (n + 1) := congrArg Octant.y hstep
    have hfNext : (circleAt r n).f + ((circleAt r n).ddy + 2) + ((circleAt r n).ddx + 2) =
        (circleAt r (n + 1)).f := congrArg Octant.f hstep
    have hddFy : (v.ddFy + 2).toInt = (circleAt r n).ddy + 2 := by
      rw [int8_add (by rw [h.ddFy, htwo]; omega) (by rw [h.ddFy, htwo]; omega), h.ddFy, htwo]
    have hmid : (v.f + (v.ddFy + 2)).toInt = (circleAt r n).f + ((circleAt r n).ddy + 2) := by
      rw [int8_add (by rw [h.f, hddFy]; omega) (by rw [h.f, hddFy]; omega), h.f, hddFy]
    have hnext : v.next = ⟨v.f + (v.ddFy + 2) + (v.ddFx + 2), v.ddFx + 2, v.ddFy + 2, v.x + 1,
        v.y - 1⟩ := by
      unfold DiscVars.next
      rw [if_pos (hout.mpr hf)]
    refine ⟨hx, ?_, ?_, ?_, ?_⟩
    · rw [hnext]
      simp only
      rw [h.y, show circleRow r n = circleRow r (n + 1) + 1 by omega, UInt8.ofNat_add]
      have hone : UInt8.ofNat 1 = 1 := rfl
      rw [hone]
      grind
    · rw [hnext]
      simp only
      rw [int8_add (by rw [hmid, hddFx]; omega) (by rw [hmid, hddFx]; omega), hmid, hddFx, hfNext]
    · rw [hnext]
      exact hddFx.trans (congrArg Octant.ddx hstep)
    · rw [hnext]
      exact hddFy.trans (congrArg Octant.ddy hstep)
  · rw [if_neg hf] at hstep
    have hyNext : (circleRow r n : Int) = circleRow r (n + 1) := congrArg Octant.y hstep
    have hfNext : (circleAt r n).f + ((circleAt r n).ddx + 2) = (circleAt r (n + 1)).f :=
      congrArg Octant.f hstep
    have hddyNext : (circleAt r n).ddy = (circleAt r (n + 1)).ddy := by
      have hddy' := congrArg Octant.ddy hstep
      exact hddy'
    have hnext : v.next = ⟨v.f + (v.ddFx + 2), v.ddFx + 2, v.ddFy, v.x + 1, v.y⟩ := by
      unfold DiscVars.next
      rw [if_neg (mt hout.mp hf)]
    refine ⟨hx, ?_, ?_, ?_, ?_⟩
    · rw [hnext]
      simp only
      rw [h.y, show circleRow r n = circleRow r (n + 1) by omega]
    · rw [hnext]
      simp only
      rw [int8_add (by rw [h.f, hddFx]; omega) (by rw [h.f, hddFx]; omega), h.f, hddFx, hfNext]
    · rw [hnext]
      exact hddFx.trans (congrArg Octant.ddx hstep)
    · rw [hnext]
      exact h.ddFy.trans hddyNext

/-! ## What is painted -/

/-- The pixels at the given offsets from `(x0, y0)`. -/
def shifted (x0 y0 : UInt8) (S : Set (Int × Int)) : Set Pixel :=
  {p | ∃ q ∈ S, p = (x0 + .ofInt q.1, y0 + .ofInt q.2)}

theorem shifted_union (x0 y0 : UInt8) (S T : Set (Int × Int)) :
    shifted x0 y0 S ∪ shifted x0 y0 T = shifted x0 y0 (S ∪ T) := by
  ext p
  simp only [shifted, Set.mem_union, Set.mem_ofPred_eq, or_and_right, exists_or]

/-- The offsets of a vertical line. -/
def column (i lo hi : Int) : Set (Int × Int) := {q | q.1 = i ∧ lo ≤ q.2 ∧ q.2 ≤ hi}

theorem ofInt_toNat (a : UInt8) : .ofInt a.toNat = a :=
  UInt8.toNat_inj.mp (toNat_ofInt a.toNat_lt)

theorem ofInt_natCast {n : Nat} (hn : n ≤ 127) : UInt8.ofInt n = .ofNat n := by
  refine UInt8.toNat_inj.mp ?_
  rw [toNat_ofInt (by omega), UInt8.toNat_ofNat_of_lt' (show n < 256 by omega)]

theorem vlinePixels_column (x0 y0 : UInt8) (i : Int) {lo hi : Int} (hlo : lo ≤ hi)
    (hhi : hi < lo + 255) :
    vlinePixels (x0 + .ofInt i) (y0 + .ofInt lo) (.ofInt (hi - lo) + 1) =
      shifted x0 y0 (column i lo hi) := by
  have hlen : (UInt8.ofInt (hi - lo) + 1).toNat = (hi - lo).toNat + 1 := by
    rw [UInt8.toNat_add, show (hi - lo) = ((hi - lo).toNat : Int) by omega, toNat_ofInt (by omega)]
    simp only [UInt8.reduceToNat]
    omega
  ext ⟨px, py⟩
  constructor
  · rintro ⟨hx, hy⟩
    have hlt := UInt8.lt_iff_toNat_lt.mp hy
    simp only [hlen] at hlt
    refine ⟨(i, lo + (py - (y0 + .ofInt lo)).toNat), ⟨rfl, ?_, ?_⟩, Prod.ext hx ?_⟩
    · simp only
      omega
    · simp only
      omega
    · simp only [UInt8.ofInt_add, ofInt_toNat]
      grind
  · rintro ⟨⟨a, j⟩, ⟨rfl, hjlo, hjhi⟩, heq⟩
    obtain ⟨rfl, rfl⟩ := Prod.mk.inj heq
    refine ⟨rfl, UInt8.lt_iff_toNat_lt.mpr ?_⟩
    simp only at hjlo hjhi
    have hsub : y0 + .ofInt j - (y0 + .ofInt lo) = .ofInt ((j - lo).toNat : Int) := by
      rw [show ((j - lo).toNat : Int) = j + -lo by omega, UInt8.ofInt_add, UInt8.ofInt_neg]
      grind
    rw [hlen]
    simp only [hsub]
    rw [toNat_ofInt (by omega)]
    omega

/-- The offsets a section is to paint. -/
def sectionPoints (x y : Nat) : Set (Int × Int) :=
  {q | q.1.natAbs = x ∧ q.2.natAbs ≤ y ∨ q.1.natAbs = y ∧ q.2.natAbs ≤ x}

/-- The lines of a section. -/
theorem sectionPoints_eq (x y : Nat) :
    (column x (-y) 0 ∪ column y (-x) 0) ∪ (column (-x) (-y) 0 ∪ column (-y) (-x) 0) ∪
      (column x 0 y ∪ column y 0 x) ∪ (column (-x) 0 y ∪ column (-y) 0 x) = sectionPoints x y := by
  ext ⟨i, j⟩
  simp only [column, sectionPoints, Set.mem_union, Set.mem_ofPred_eq]
  omega

section

variable {u : U8g} (hu : u.Ready) (x0 y0 : UInt8)

include hu

theorem draws_column (i : Int) {lo hi : Int} (hlo : lo ≤ hi) (hhi : hi < lo + 255)
    (hfits : u.Fits (shifted x0 y0 (column i lo hi))) :
    Draws u (u8gDrawVLine (x0 + .ofInt i) (y0 + .ofInt lo) (.ofInt (hi - lo) + 1) u)
      (u.cover (shifted x0 y0 (column i lo hi))) := by
  rw [← vlinePixels_column x0 y0 i hlo hhi] at hfits ⊢
  exact draws_vline hu _ _ _ hfits

theorem draws_quadrant (i₁ i₂ : Int) {lo₁ hi₁ lo₂ hi₂ : Int} (hlo₁ : lo₁ ≤ hi₁)
    (hhi₁ : hi₁ < lo₁ + 255) (hlo₂ : lo₂ ≤ hi₂) (hhi₂ : hi₂ < lo₂ + 255)
    (hfits : u.Fits (shifted x0 y0 (column i₁ lo₁ hi₁ ∪ column i₂ lo₂ hi₂))) :
    Draws u (quadrant (x0 + .ofInt i₁) (x0 + .ofInt i₂) (y0 + .ofInt lo₁) (y0 + .ofInt lo₂)
        (.ofInt (hi₁ - lo₁) + 1) (.ofInt (hi₂ - lo₂) + 1) u)
      (u.cover (shifted x0 y0 (column i₁ lo₁ hi₁ ∪ column i₂ lo₂ hi₂))) := by
  rw [← shifted_union] at hfits ⊢
  have hfirst := draws_column hu x0 y0 i₁ hlo₁ hhi₁ fun hdev q hq => hfits hdev q (.inl hq)
  have hsecond := draws_column (hfirst.ready hu) x0 y0 i₂ hlo₂ hhi₂
    ((hfirst.fits _).mpr fun hdev q hq => hfits hdev q (.inr hq))
  rw [hfirst.cover] at hsecond
  rw [← cover_union]
  exact hfirst.trans hsecond

/-- Four quadrants, one after the other. -/
theorem draws_section_from {x y : Nat} (hx : x ≤ 127) (hy : y ≤ 127)
    (hfits : u.Fits (shifted x0 y0 (sectionPoints x y))) :
    Draws u
      (quadrant (x0 + .ofInt (-x)) (x0 + .ofInt (-y)) (y0 + .ofInt 0) (y0 + .ofInt 0)
        (.ofInt (y - 0) + 1) (.ofInt (x - 0) + 1)
        (quadrant (x0 + .ofInt x) (x0 + .ofInt y) (y0 + .ofInt 0) (y0 + .ofInt 0)
          (.ofInt (y - 0) + 1) (.ofInt (x - 0) + 1)
          (quadrant (x0 + .ofInt (-x)) (x0 + .ofInt (-y)) (y0 + .ofInt (-y)) (y0 + .ofInt (-x))
            (.ofInt (0 - -y) + 1) (.ofInt (0 - -x) + 1)
            (quadrant (x0 + .ofInt x) (x0 + .ofInt y) (y0 + .ofInt (-y)) (y0 + .ofInt (-x))
              (.ofInt (0 - -y) + 1) (.ofInt (0 - -x) + 1) u))))
      (u.cover (shifted x0 y0 (sectionPoints x y))) := by
  rw [← sectionPoints_eq, ← shifted_union, ← shifted_union, ← shifted_union] at hfits ⊢
  have h1 := draws_quadrant hu x0 y0 x y (by omega : (-y : Int) ≤ 0) (by omega)
    (by omega : (-x : Int) ≤ 0) (by omega) fun hdev q hq => hfits hdev q (.inl (.inl (.inl hq)))
  have h2 := draws_quadrant (h1.ready hu) x0 y0 (-x) (-y) (by omega : (-y : Int) ≤ 0) (by omega)
    (by omega : (-x : Int) ≤ 0) (by omega)
    ((h1.fits _).mpr fun hdev q hq => hfits hdev q (.inl (.inl (.inr hq))))
  rw [h1.cover] at h2
  have h12 := h1.trans h2
  have h3 := draws_quadrant (h12.ready hu) x0 y0 x y (by omega : (0 : Int) ≤ y) (by omega)
    (by omega : (0 : Int) ≤ x) (by omega)
    ((h12.fits _).mpr fun hdev q hq => hfits hdev q (.inl (.inr hq)))
  rw [h12.cover] at h3
  have h123 := h12.trans h3
  have h4 := draws_quadrant (h123.ready hu) x0 y0 (-x) (-y) (by omega : (0 : Int) ≤ y) (by omega)
    (by omega : (0 : Int) ≤ x) (by omega)
    ((h123.fits _).mpr fun hdev q hq => hfits hdev q (.inr hq))
  rw [h123.cover] at h4
  simp only [← cover_union]
  exact h123.trans h4

/-- All four quadrants of a section. -/
theorem draws_section {x y : Nat} (hx : x ≤ 127) (hy : y ≤ 127)
    (hfits : u.Fits (shifted x0 y0 (sectionPoints x y))) :
    Draws u (discSection (.ofNat x) (.ofNat y) x0 y0 u8gDrawAll u)
      (u.cover (shifted x0 y0 (sectionPoints x y))) := by
  have hdraws := draws_section_from hu x0 y0 hx hy hfits
  have hur : u8gDrawAll &&& u8gDrawUpperRight ≠ 0 := by decide
  have hul : u8gDrawAll &&& u8gDrawUpperLeft ≠ 0 := by decide
  have hlr : u8gDrawAll &&& u8gDrawLowerRight ≠ 0 := by decide
  have hll : u8gDrawAll &&& u8gDrawLowerLeft ≠ 0 := by decide
  have hzero : UInt8.ofInt 0 = 0 := rfl
  simp only [UInt8.ofInt_neg, ofInt_natCast hx, ofInt_natCast hy, Int.zero_sub, Int.neg_neg,
    Int.sub_zero, hzero, UInt8.add_zero, ← UInt8.sub_eq_add_neg] at hdraws
  simp only [discSection, if_pos hur, if_pos hul, if_pos hlr, if_pos hll]
  exact hdraws

end

/-- The sections from column `n + 1` on. -/
def sectionsAfter (r n : Nat) : Set (Int × Int) :=
  {q | ∃ m, n < m ∧ InOctant r m ∧ q ∈ sectionPoints m (circleRow r m)}

theorem sectionsAfter_eq {r n : Nat} (hn : InOctant r (n + 1)) :
    sectionPoints (n + 1) (circleRow r (n + 1)) ∪ sectionsAfter r (n + 1) = sectionsAfter r n := by
  ext q
  constructor
  · rintro (hq | ⟨m, hlt, hm, hq⟩)
    · exact ⟨n + 1, Nat.lt_succ_self n, hn, hq⟩
    · exact ⟨m, by omega, hm, hq⟩
  · rintro ⟨m, hlt, hm, hq⟩
    obtain rfl | hlt' := Nat.eq_or_lt_of_le hlt
    · exact .inl hq
    · exact .inr ⟨m, hlt', hm, hq⟩

/-- The octant of a disc is its first section and those after it. -/
theorem discPixels_eq (r : Nat) : sectionPoints 0 r ∪ sectionsAfter r 0 = discPixels r := by
  ext q
  constructor
  · rintro (hq | ⟨m, -, hm, hq⟩)
    · exact ⟨0, fun m hm => absurd hm (Nat.not_lt_zero m), hq⟩
    · exact ⟨m, hm, hq⟩
  · rintro ⟨m, hm, hq⟩
    obtain rfl | hpos := Nat.eq_zero_or_pos m
    · exact .inl hq
    · exact .inr ⟨m, hpos, hm, hq⟩

/-- The loop paints the sections that are left. -/
theorem draws_discLoop {r : Nat} (hr : r ≤ 64) (x0 y0 : UInt8) {n : Nat} (hn : InOctant r n)
    {v : DiscVars} (hv : DiscState r n v) {u : U8g} (hu : u.Ready)
    (hfits : u.Fits (shifted x0 y0 (sectionsAfter r n))) :
    Draws u (drawDiscLoop x0 y0 u8gDrawAll v u) (u.cover (shifted x0 y0 (sectionsAfter r n))) := by
  have hle := circleRow_le r n
  have hn46 := inOctant_le hr hn
  have hxy : v.x < v.y ↔ n < circleRow r n := by
    rw [hv.x, hv.y, UInt8.lt_iff_toNat_lt, UInt8.toNat_ofNat_of_lt' (show n < 256 by omega),
      UInt8.toNat_ofNat_of_lt' (show circleRow r n < 256 by omega)]
  fun_induction drawDiscLoop x0 y0 u8gDrawAll v u generalizing n with
  | case1 v u hlt ih =>
    have hnext : InOctant r (n + 1) := by
      intro m hm
      obtain rfl | hm' := Nat.eq_or_lt_of_le (Nat.le_of_lt_succ hm)
      · exact hxy.mp hlt
      · exact hn m hm'
    have hstate := hv.next hr hnext
    have hle' := circleRow_le r (n + 1)
    have hn46' := inOctant_le hr hnext
    rw [← sectionsAfter_eq hnext, ← shifted_union] at hfits ⊢
    have hsection := draws_section hu x0 y0 (show n + 1 ≤ 127 by omega)
      (show circleRow r (n + 1) ≤ 127 by omega) fun hdev q hq => hfits hdev q (.inl hq)
    rw [← hstate.x, ← hstate.y] at hsection
    have hxy' : v.next.x < v.next.y ↔ n + 1 < circleRow r (n + 1) := by
      rw [hstate.x, hstate.y, UInt8.lt_iff_toNat_lt,
        UInt8.toNat_ofNat_of_lt' (show n + 1 < 256 by omega),
        UInt8.toNat_ofNat_of_lt' (show circleRow r (n + 1) < 256 by omega)]
    have hrest := ih hnext hstate (hsection.ready hu)
      ((hsection.fits _).mpr fun hdev q hq => hfits hdev q (.inr hq)) hle' hn46' hxy'
    rw [hsection.cover] at hrest
    rw [← cover_union]
    exact hsection.trans hrest
  | case2 v u hge =>
    have hempty : sectionsAfter r n = ∅ := by
      ext q
      refine ⟨fun ⟨m, hlt, hm, _⟩ => hge (hxy.mpr (hm n hlt)), fun h => h.elim⟩
    have hnone : shifted x0 y0 (∅ : Set (Int × Int)) = ∅ := by
      ext p
      simp [shifted]
    rw [hempty, hnone, cover_empty]
    exact .none fun p _ hp => hp

/-- The offsets of a disc are at most its radius. -/
theorem natAbs_le_of_mem_disc {r : Nat} {q : Int × Int} (hq : q ∈ discPixels r) :
    q.1.natAbs ≤ r ∧ q.2.natAbs ≤ r := by
  obtain ⟨n, hn, hq⟩ := hq
  obtain ⟨hnear, -⟩ := circleRow_near hn
  have hrow := circleRow_le r n
  have hnr : n ≤ r := by
    by_contra hlt
    have hsq : (r + 1) * (r + 1) ≤ n * n := Nat.mul_le_mul (by omega) (by omega)
    have hexp : (r + 1) * (r + 1) = r * r + 2 * r + 1 := by ring
    omega
  omega

theorem mem_rowArc_centre {rad : UInt8} (hrad : rad.toNat ≤ 64) (c : UInt8) {i : Int}
    (hi : i.natAbs ≤ rad.toNat) :
    c + .ofInt i ∈ rowArc (c - (rad + 1)) (c - (rad + 1) + (rad + 1) * 2 - 1) := by
  have hpos : 0 ≤ i + rad.toNat + 1 := by omega
  have hfirst : c + .ofInt i - (c - (rad + 1)) = .ofInt ((i + rad.toNat + 1).toNat : Int) := by
    rw [Int.toNat_of_nonneg hpos, UInt8.ofInt_add, UInt8.ofInt_add, ofInt_toNat, UInt8.ofInt_one]
    grind
  have hlast : c - (rad + 1) + (rad + 1) * 2 - 1 - (c - (rad + 1)) = (rad + 1) * 2 - 1 := by grind
  show c + .ofInt i - (c - (rad + 1)) ≤ c - (rad + 1) + (rad + 1) * 2 - 1 - (c - (rad + 1))
  rw [hfirst, hlast, UInt8.le_iff_toNat_le, toNat_ofInt (by omega)]
  simp only [UInt8.toNat_sub, UInt8.toNat_mul, UInt8.toNat_add, UInt8.reduceToNat]
  omega

/-- A disc lies in the box that is tested. -/
theorem shifted_discPixels_subset {rad : UInt8} (hrad : rad.toNat ≤ 64) (x0 y0 : UInt8) :
    shifted x0 y0 (discPixels rad.toNat) ⊆
      bbx (x0 - (rad + 1)) (y0 - (rad + 1)) ((rad + 1) * 2) ((rad + 1) * 2) := by
  rintro _ ⟨q, hq, rfl⟩
  obtain ⟨hx, hy⟩ := natAbs_le_of_mem_disc hq
  exact ⟨mem_rowArc_centre hrad x0 hx, mem_rowArc_centre hrad y0 hy⟩

/-- Up to a radius of 64 the accumulators stay within their eight bits, and what is painted are the
pixels of the disc. -/
theorem draws_disc {u : U8g} (hu : u.Ready) (x0 y0 : UInt8) {rad : UInt8} (hrad : rad.toNat ≤ 64)
    (hfits : u.Fits (shifted x0 y0 (discPixels rad.toNat))) :
    Draws u (u8gDrawDisc x0 y0 rad u8gDrawAll u)
      (u.cover (shifted x0 y0 (discPixels rad.toNat))) := by
  refine Draws.clipped hu ?_ (shifted_discPixels_subset hrad x0 y0) hfits
  have hzero : InOctant rad.toNat 0 := fun m hm => absurd hm (Nat.not_lt_zero m)
  rw [← discPixels_eq, ← shifted_union] at hfits ⊢
  have hfirst := draws_section hu x0 y0 (Nat.zero_le 127) (show rad.toNat ≤ 127 by omega)
    fun hdev q hq => hfits hdev q (.inl hq)
  have hrest := draws_discLoop hrad x0 y0 hzero (discState_init hrad) (hfirst.ready hu)
    ((hfirst.fits _).mpr fun hdev q hq => hfits hdev q (.inr hq))
  rw [hfirst.cover] at hrest
  have hboth := hfirst.trans hrest
  rw [UInt8.ofNat_toNat] at hboth
  rw [← cover_union]
  exact hboth

/-- **Discs are discs**: on the unscaled display every page takes its part of one set of pixels
around the centre, for a radius up to 64, which has all pixels within the radius and none farther
than half a pixel past it. -/
theorem drawDisc_digital {rad : UInt8} (hrad : rad.toNat ≤ 64) :
    ∃ S : Set (Int × Int), DigitalDisc rad.toNat S ∧
      ∀ (u : U8g) (x0 y0 : UInt8), u.Ready → u.dev = .ls010b7dh01 →
        Draws u (u8gDrawDisc x0 y0 rad u8gDrawAll u) (shifted x0 y0 S) := by
  refine ⟨discPixels rad.toNat, digitalDisc rad.toNat, fun u x0 y0 hu hdev => ?_⟩
  have hdraws := draws_disc hu x0 y0 hrad fun h => by
    rw [hdev] at h
    cases h
  rwa [U8g.cover, hdev] at hdraws

/-- The disc behind the configuration. -/
theorem drawDisc_digital_sample : ∃ S : Set (Int × Int), DigitalDisc 64 S ∧
    ∀ (u : U8g) (x0 y0 : UInt8), u.Ready → u.dev = .ls010b7dh01 →
      Draws u (u8gDrawDisc x0 y0 64 u8gDrawAll u) (shifted x0 y0 S) :=
  @drawDisc_digital 64 (by decide)

end Muchiwachi
