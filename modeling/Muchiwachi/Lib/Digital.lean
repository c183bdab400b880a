import Mathlib.Algebra.Order.Group.Int
import Mathlib.Algebra.Order.Ring.Abs
import Mathlib.Algebra.Order.Ring.Int
import Mathlib.Data.Set.Basic
import Mathlib.Tactic.Linarith
import Mathlib.Tactic.Ring

/-!
# Lines and discs on a grid

The two accumulators that raster programs draw with. `lineStep` follows a line of slope at most
one along its longer axis: `lineStep_lineAt` says that it keeps to the nearest row. `circleStep`
follows an octant of a circle: `circleStep_near` says that it keeps to the pixels next to it.

`DigitalLine` says what a set of pixels is to be the line between two points, and `DigitalDisc`
what it is to be a disc.
-/

namespace Muchiwachi.Lib.Digital

/-! ## The accumulator of a line -/

/-- The row `i` columns along a line that rises `dy` rows in `dx` columns: the nearest one, and the
lower one if two are equally near. -/
def digital (dx dy i : Nat) : Nat := (i * dy + (dx - 1) / 2) / dx

/-- The error and the row in the next column. -/
def lineStep (dx dy : Int) (s : Int × Nat) : Int × Nat :=
  if s.1 - dy < 0 then (s.1 - dy + dx, s.2 + 1) else (s.1 - dy, s.2)

/-- The error and the row `i` columns along. -/
def lineAt (dx dy i : Nat) : Int × Nat :=
  ((dx / 2 : Nat) + (dx * digital dx dy i : Nat) - (i * dy : Nat), digital dx dy i)

section

variable {dx dy i : Nat}

/-- The row is the one where the error is in range. -/
theorem digital_eq_iff (hdx : 0 < dx) {j : Nat} :
    digital dx dy i = j ↔ i * dy ≤ dx / 2 + dx * j ∧ dx / 2 + dx * j < i * dy + dx := by
  rw [digital, Nat.div_eq_iff hdx, Nat.mul_comm j]
  constructor <;> intro h <;> omega

theorem digital_spec (hdx : 0 < dx) (dy i : Nat) :
    i * dy ≤ dx / 2 + dx * digital dx dy i ∧ dx / 2 + dx * digital dx dy i < i * dy + dx :=
  (digital_eq_iff hdx).mp rfl

theorem lineAt_fst (hdx : 0 < dx) (dy i : Nat) :
    0 ≤ (lineAt dx dy i).1 ∧ (lineAt dx dy i).1 < dx := by
  have hspec := digital_spec hdx dy i
  simp only [lineAt]
  omega

/-- A step goes to the next column. -/
theorem lineStep_lineAt (hdx : 0 < dx) (hdy : dy ≤ dx) :
    lineStep dx dy (lineAt dx dy i) = lineAt dx dy (i + 1) := by
  obtain ⟨hlo, hhi⟩ := digital_spec hdx dy i
  have hcol : (i + 1) * dy = i * dy + dy := Nat.succ_mul i dy
  have hrow : dx * (digital dx dy i + 1) = dx * digital dx dy i + dx := Nat.mul_succ ..
  have herr : (lineAt dx dy i).1 =
      (dx / 2 : Nat) + (dx * digital dx dy i : Nat) - (i * dy : Nat) := rfl
  by_cases hneg : dx / 2 + dx * digital dx dy i < (i + 1) * dy
  · have hnext : digital dx dy (i + 1) = digital dx dy i + 1 :=
      (digital_eq_iff hdx).mpr ⟨by omega, by omega⟩
    rw [lineStep, if_pos (by omega)]
    simp only [lineAt, hnext]
    exact Prod.ext (by simp only; omega) rfl
  · have hnext : digital dx dy (i + 1) = digital dx dy i :=
      (digital_eq_iff hdx).mpr ⟨by omega, by omega⟩
    rw [lineStep, if_neg (by omega)]
    simp only [lineAt, hnext]
    exact Prod.ext (by simp only; omega) rfl

theorem digital_zero : digital dx dy 0 = 0 := by
  rw [digital, Nat.zero_mul, Nat.zero_add, Nat.div_eq_zero_iff]
  omega

/-- The line ends where it should. -/
theorem digital_self (hdx : 0 < dx) : digital dx dy dx = dy :=
  (digital_eq_iff hdx).mpr ⟨by omega, by omega⟩

/-- The row is at most half a pixel away. -/
theorem digital_near (hdx : 0 < dx) (dy i : Nat) :
    2 * (i * dy) ≤ 2 * (dx * digital dx dy i) + dx ∧
      2 * (dx * digital dx dy i) ≤ 2 * (i * dy) + dx := by
  have hspec := digital_spec hdx dy i
  omega

/-- Neighbouring columns have neighbouring rows. -/
theorem digital_succ (hdx : 0 < dx) (hdy : dy ≤ dx) :
    digital dx dy (i + 1) = digital dx dy i ∨ digital dx dy (i + 1) = digital dx dy i + 1 := by
  have hstep := congrArg Prod.snd (lineStep_lineAt (i := i) hdx hdy)
  unfold lineStep at hstep
  split at hstep
  · exact .inr hstep.symm
  · exact .inl hstep.symm

theorem digital_le (hdx : 0 < dx) (hi : i ≤ dx) : digital dx dy i ≤ dy := by
  have hmono : i * dy + (dx - 1) / 2 ≤ dx * dy + (dx - 1) / 2 :=
    Nat.add_le_add_right (Nat.mul_le_mul_right dy hi) _
  exact (Nat.div_le_div_right hmono).trans (digital_self hdx).le

end

/-! ## What a line is -/

/-- `S` is the line between two points: one pixel for each column, as long as the line is no
steeper than a diagonal, each as near to the line as a pixel can be, and without gaps. -/
structure FlatLine (x₁ y₁ x₂ y₂ : Int) (S : Set (Int × Int)) : Prop where
  start : (x₁, y₁) ∈ S
  stop : (x₂, y₂) ∈ S
  column : ∀ x, min x₁ x₂ ≤ x → x ≤ max x₁ x₂ → ∃! p, p ∈ S ∧ p.1 = x
  inside : ∀ p ∈ S, (min x₁ x₂ ≤ p.1 ∧ p.1 ≤ max x₁ x₂) ∧ min y₁ y₂ ≤ p.2 ∧ p.2 ≤ max y₁ y₂
  near : ∀ p ∈ S, 2 * |(p.2 - y₁) * (x₂ - x₁) - (p.1 - x₁) * (y₂ - y₁)| ≤ |x₂ - x₁|
  joined : ∀ p ∈ S, ∀ q ∈ S, |p.1 - q.1| = 1 → |p.2 - q.2| ≤ 1

/-- `S` is the line between two points, flat or steep. -/
def DigitalLine (x₁ y₁ x₂ y₂ : Int) (S : Set (Int × Int)) : Prop :=
  if |y₂ - y₁| ≤ |x₂ - x₁| then FlatLine x₁ y₁ x₂ y₂ S
  else FlatLine y₁ x₁ y₂ x₂ (Set.preimage Prod.swap S)

theorem FlatLine.symm {x₁ y₁ x₂ y₂ : Int} {S : Set (Int × Int)} (h : FlatLine x₁ y₁ x₂ y₂ S) :
    FlatLine x₂ y₂ x₁ y₁ S where
  start := h.stop
  stop := h.start
  column x hlo hhi := h.column x (by rwa [min_comm]) (by rwa [max_comm])
  inside p hp := by
    rw [min_comm, max_comm, min_comm y₂, max_comm y₂]
    exact h.inside p hp
  near p hp := by
    have hfactor : (p.2 - y₂) * (x₁ - x₂) - (p.1 - x₂) * (y₁ - y₂) =
        -((p.2 - y₁) * (x₂ - x₁) - (p.1 - x₁) * (y₂ - y₁)) := by ring
    rw [hfactor, abs_neg, abs_sub_comm x₁]
    exact h.near p hp
  joined := h.joined

/-- The pixels of the columns from `x` on, in the direction `s` from row `y` on. -/
def digitalPixels (x y : Int) (dx dy : Nat) (s : Int) : Set (Int × Int) :=
  {p | ∃ i ≤ dx, p = (x + i, y + s * digital dx dy i)}

/-- The distance of row `digital dx dy i` from the line. -/
theorem abs_digital_le {dx dy i : Nat} (hdy : dy ≤ dx) (hi : i ≤ dx) :
    2 * |(digital dx dy i : Int) * dx - i * dy| ≤ dx := by
  rcases Nat.eq_zero_or_pos dx with rfl | hdx
  · obtain rfl := Nat.le_zero.mp hdy
    simp
  · obtain ⟨hlo, hhi⟩ := digital_near hdx dy i
    have hlo' : (2 * (i * dy) : Int) ≤ 2 * (digital dx dy i * dx) + dx := by
      rw [Int.mul_comm (digital dx dy i : Int)]
      exact_mod_cast hlo
    have hhi' : (2 * (digital dx dy i * dx) : Int) ≤ 2 * (i * dy) + dx := by
      rw [Int.mul_comm (digital dx dy i : Int)]
      exact_mod_cast hhi
    rcases abs_cases ((digital dx dy i : Int) * dx - i * dy) with ⟨habs, -⟩ | ⟨habs, -⟩ <;>
      rw [habs] <;> linarith

/-- **The accumulator draws lines.** -/
theorem flatLine_digital (x y : Int) {dx dy : Nat} (hdy : dy ≤ dx) {s : Int} (hs : s = 1 ∨ s = -1) :
    FlatLine x y (x + dx) (y + s * dy) (digitalPixels x y dx dy s) where
  start := ⟨0, Nat.zero_le _, by simp [digital_zero]⟩
  stop := by
    refine ⟨dx, Nat.le_refl _, ?_⟩
    rcases Nat.eq_zero_or_pos dx with rfl | hdx
    · obtain rfl := Nat.le_zero.mp hdy
      simp [digital_zero]
    · rw [digital_self hdx]
  column c hlo hhi := by
    refine ⟨(x + (c - x).toNat, y + s * digital dx dy (c - x).toNat),
      ⟨⟨(c - x).toNat, by omega, rfl⟩, by simp only; omega⟩, ?_⟩
    rintro _ ⟨⟨i, hi, rfl⟩, hc⟩
    obtain rfl : i = (c - x).toNat := by
      simp only at hc
      omega
    rfl
  inside := by
    rintro _ ⟨i, hi, rfl⟩
    have hrow : digital dx dy i ≤ dy := by
      rcases Nat.eq_zero_or_pos dx with rfl | hdx
      · obtain rfl := Nat.le_zero.mp hi
        exact digital_zero.trans_le (Nat.zero_le _)
      · exact digital_le hdx hi
    obtain rfl | rfl := hs
    · simp only
      omega
    · simp only
      omega
  near := by
    rintro _ ⟨i, hi, rfl⟩
    have hnear := abs_digital_le hdy hi
    have hfactor : (y + s * digital dx dy i - y) * (x + dx - x) - (x + i - x) * (y + s * dy - y) =
        s * (digital dx dy i * dx - i * dy) := by ring
    have hs' : |s| = 1 := by
      obtain rfl | rfl := hs <;> rfl
    have hdx : |x + dx - x| = dx := by
      rw [add_sub_cancel_left]
      exact Nat.abs_cast dx
    rw [hfactor, abs_mul, hs', one_mul, hdx]
    exact hnear
  joined := by
    rintro _ ⟨i, hi, rfl⟩ _ ⟨j, hj, rfl⟩ hij
    have hdx : 0 < dx := by
      by_contra h0
      obtain ⟨rfl, rfl⟩ : i = 0 ∧ j = 0 := by omega
      simp at hij
    have hrow : |s * digital dx dy i - s * digital dx dy j| =
        |(digital dx dy i : Int) - digital dx dy j| := by
      obtain rfl | rfl := hs
      · simp
      · rw [← mul_sub, abs_mul, abs_neg, abs_one, one_mul]
    have hcols : j = i + 1 ∨ i = j + 1 := by
      rcases abs_cases (x + (i : Int) - (x + j)) with ⟨habs, -⟩ | ⟨habs, -⟩ <;>
        rw [habs] at hij <;> omega
    simp only [add_sub_add_left_eq_sub]
    rw [hrow]
    rcases hcols with rfl | rfl
    · obtain h | h := digital_succ (i := i) hdx hdy <;> rw [h] <;> simp
    · obtain h | h := digital_succ (i := j) hdx hdy <;> rw [h] <;> simp

/-- A flat line, drawn from its left end on. -/
def flatPoints (x₁ y₁ x₂ y₂ : Int) : Set (Int × Int) :=
  if x₁ ≤ x₂ then
    digitalPixels x₁ y₁ (x₂ - x₁).toNat (y₂ - y₁).natAbs (if y₁ < y₂ then 1 else -1)
  else digitalPixels x₂ y₂ (x₁ - x₂).toNat (y₁ - y₂).natAbs (if y₂ < y₁ then 1 else -1)

/-- A line, with the axes exchanged if it is steep. -/
def linePoints (x₁ y₁ x₂ y₂ : Int) : Set (Int × Int) :=
  if |y₂ - y₁| ≤ |x₂ - x₁| then flatPoints x₁ y₁ x₂ y₂
  else Set.preimage Prod.swap (flatPoints y₁ x₁ y₂ x₂)

theorem flatLine_rightward {x₁ y₁ x₂ y₂ : Int} (hx : x₁ ≤ x₂) (hflat : |y₂ - y₁| ≤ |x₂ - x₁|) :
    FlatLine x₁ y₁ x₂ y₂
      (digitalPixels x₁ y₁ (x₂ - x₁).toNat (y₂ - y₁).natAbs (if y₁ < y₂ then 1 else -1)) := by
  have hdy : (y₂ - y₁).natAbs ≤ (x₂ - x₁).toNat := by
    rw [Int.abs_eq_natAbs, Int.abs_eq_natAbs] at hflat
    omega
  have hs : (if y₁ < y₂ then 1 else -1 : Int) = 1 ∨ (if y₁ < y₂ then 1 else -1 : Int) = -1 := by
    split
    · exact .inl rfl
    · exact .inr rfl
  have hline := flatLine_digital x₁ y₁ hdy hs
  have hx₂ : x₁ + (x₂ - x₁).toNat = x₂ := by omega
  have hy₂ : y₁ + (if y₁ < y₂ then 1 else -1) * (y₂ - y₁).natAbs = y₂ := by
    split <;> omega
  rwa [hx₂, hy₂] at hline

theorem flatLine_flatPoints {x₁ y₁ x₂ y₂ : Int} (hflat : |y₂ - y₁| ≤ |x₂ - x₁|) :
    FlatLine x₁ y₁ x₂ y₂ (flatPoints x₁ y₁ x₂ y₂) := by
  unfold flatPoints
  split
  · exact flatLine_rightward ‹_› hflat
  · refine (flatLine_rightward (by omega) ?_).symm
    rwa [abs_sub_comm y₁, abs_sub_comm x₁]

theorem digitalLine_linePoints (x₁ y₁ x₂ y₂ : Int) :
    DigitalLine x₁ y₁ x₂ y₂ (linePoints x₁ y₁ x₂ y₂) := by
  unfold DigitalLine linePoints
  by_cases hflat : |y₂ - y₁| ≤ |x₂ - x₁|
  · rw [if_pos hflat, if_pos hflat]
    exact flatLine_flatPoints hflat
  · rw [if_neg hflat, if_neg hflat, ← Set.preimage_comp, Prod.swap_swap_eq, Set.preimage_id]
    exact flatLine_flatPoints (by omega)

/-! ## The accumulator of a circle -/

/-- A point of the octant from the top to the diagonal, with the accumulators. -/
structure Octant where
  x : Int
  y : Int
  f : Int
  ddx : Int
  ddy : Int

/-- The next column: a row further in if the midpoint is outside. -/
def circleStep (o : Octant) : Octant :=
  let o := if o.f ≥ 0 then { o with y := o.y - 1, ddy := o.ddy + 2, f := o.f + (o.ddy + 2) } else o
  { o with x := o.x + 1, ddx := o.ddx + 2, f := o.f + (o.ddx + 2) }

/-- The row of the circle of radius `r` in column `n`. -/
def circleRow (r : Nat) : Nat → Nat
  | 0 => r
  | n + 1 =>
    let y := circleRow r n
    if r * r + y ≤ (n + 1) * (n + 1) + y * y then y - 1 else y

/-- The point in column `n`. -/
def circleAt (r n : Nat) : Octant where
  x := n
  y := circleRow r n
  f := (n + 1) * (n + 1) + circleRow r n * circleRow r n - circleRow r n - r * r
  ddx := 2 * n + 1
  ddy := -2 * circleRow r n

/-- Column `n` is one of the octant: none before it has reached the diagonal. -/
def InOctant (r n : Nat) : Prop := ∀ m < n, m < circleRow r m

section

variable {r n : Nat}

theorem InOctant.of_le {m : Nat} (h : InOctant r n) (hm : m ≤ n) : InOctant r m :=
  fun k hk => h k (Nat.lt_of_lt_of_le hk hm)

theorem circleRow_le (r n : Nat) : circleRow r n ≤ r := by
  induction n with
  | zero => exact Nat.le_refl r
  | succ n ih =>
    rw [circleRow]
    split <;> omega

/-- What a column does to the row. -/
theorem circleRow_succ (h : InOctant r (n + 1)) :
    (r * r + circleRow r n ≤ (n + 1) * (n + 1) + circleRow r n * circleRow r n ∧
        circleRow r n = circleRow r (n + 1) + 1) ∨
      ((n + 1) * (n + 1) + circleRow r n * circleRow r n < r * r + circleRow r n ∧
        circleRow r n = circleRow r (n + 1)) := by
  have hpos := h n (Nat.lt_succ_self n)
  rw [circleRow]
  split
  · exact .inl ⟨‹_›, by omega⟩
  · exact .inr ⟨by omega, rfl⟩

/-- **A step goes to the next column.** -/
theorem circleStep_circleAt (h : InOctant r (n + 1)) :
    circleStep (circleAt r n) = circleAt r (n + 1) := by
  unfold circleStep
  obtain ⟨hout, hrow⟩ | ⟨hin, hrow⟩ := circleRow_succ h
  · have hf : (circleAt r n).f ≥ 0 := by
      have hout' : (r * r + circleRow r n : Int) ≤
          (n + 1) * (n + 1) + circleRow r n * circleRow r n := by exact_mod_cast hout
      simp only [circleAt]
      omega
    rw [if_pos hf]
    simp only [circleAt, hrow, Octant.mk.injEq, Nat.cast_add, Nat.cast_one]
    refine ⟨trivial, ?_, ?_, ?_, ?_⟩ <;> ring
  · have hf : ¬ (circleAt r n).f ≥ 0 := by
      have hin' : ((n + 1) * (n + 1) + circleRow r n * circleRow r n : Int) <
          r * r + circleRow r n := by exact_mod_cast hin
      simp only [circleAt]
      omega
    rw [if_neg hf]
    simp only [circleAt, hrow, Octant.mk.injEq, Nat.cast_add, Nat.cast_one]
    refine ⟨trivial, trivial, ?_, ?_, trivial⟩ <;> ring

/-- **The row is next to the circle**: the point is less than half a pixel outside, and the one
below it is not inside. -/
theorem circleRow_near (h : InOctant r n) :
    n * n + circleRow r n * circleRow r n ≤ r * r + r ∧
      r * r ≤ n * n + circleRow r n * circleRow r n + circleRow r n := by
  induction n with
  | zero =>
    simp only [circleRow]
    omega
  | succ n ih =>
    obtain ⟨hhi, hlo⟩ := ih (h.of_le (Nat.le_succ n))
    have hle := circleRow_le r n
    have hlt := h n (Nat.lt_succ_self n)
    obtain ⟨hout, hrow⟩ | ⟨hin, hrow⟩ := circleRow_succ h
    · generalize circleRow r (n + 1) = y at *
      rw [hrow] at hhi hlo hout hle hlt
      constructor <;> nlinarith
    · rw [← hrow]
      constructor <;> nlinarith

/-- The row is closer than that, and until the diagonal still closer. -/
theorem circleRow_outer (h : InOctant r n) :
    n * n + circleRow r n * circleRow r n ≤ r * r + circleRow r n + 1 ∧
      (n < circleRow r n → n * n + circleRow r n * circleRow r n ≤ r * r + circleRow r n) := by
  induction n with
  | zero =>
    simp only [circleRow]
    omega
  | succ n ih =>
    obtain ⟨-, hprev⟩ := ih (h.of_le (Nat.le_succ n))
    have hlt := h n (Nat.lt_succ_self n)
    have hle := hprev hlt
    obtain ⟨hout, hrow⟩ | ⟨hin, hrow⟩ := circleRow_succ h
    · generalize circleRow r (n + 1) = y at *
      rw [hrow] at hle hout hlt
      constructor
      · nlinarith
      · intro hy
        nlinarith
    · rw [← hrow]
      constructor
      · omega
      · omega

/-- Every row down to a later one is the row of a column before it. -/
theorem exists_circleRow_eq (h : InOctant r (n + 1)) {y : Nat} (hlo : circleRow r (n + 1) < y)
    (hhi : y ≤ r) :
    ∃ m ≤ n, circleRow r m = y ∧ circleRow r (m + 1) + 1 = y := by
  induction n with
  | zero =>
    obtain ⟨-, hrow⟩ | ⟨-, hrow⟩ := circleRow_succ h
    · exact ⟨0, Nat.le_refl 0, by simp only [circleRow] at *; omega,
        by simp only [circleRow] at *; omega⟩
    · simp only [circleRow] at *
      omega
  | succ n ih =>
    by_cases hlt : circleRow r (n + 1) < y
    · obtain ⟨m, hm, hrows⟩ := ih (h.of_le (Nat.le_succ _)) hlt
      exact ⟨m, by omega, hrows⟩
    · obtain ⟨-, hrow⟩ | ⟨-, hrow⟩ := circleRow_succ h
      · exact ⟨n + 1, Nat.le_refl _, by omega, by omega⟩
      · omega

end

/-! ## What a disc is -/

/-- The columns and the rows of the octant, mirrored into the other seven. -/
def discPixels (r : Nat) : Set (Int × Int) :=
  {p | ∃ n, InOctant r n ∧ (p.1.natAbs = n ∧ p.2.natAbs ≤ circleRow r n ∨
    p.1.natAbs = circleRow r n ∧ p.2.natAbs ≤ n)}

/-- `S` is a disc of radius `r`, up to half a pixel. -/
structure DigitalDisc (r : Nat) (S : Set (Int × Int)) : Prop where
  filled : ∀ i j : Int, i * i + j * j ≤ r * r → (i, j) ∈ S
  bounded : ∀ i j : Int, (i, j) ∈ S → i * i + j * j ≤ r * r + r

/-- There is a last column. -/
theorem exists_octant_end (r : Nat) : ∃ n, InOctant r n ∧ circleRow r n ≤ n := by
  classical
  have hex : ∃ n, circleRow r n ≤ n := ⟨r, circleRow_le r r⟩
  exact ⟨Nat.find hex, fun m hm => Nat.not_le.mp (Nat.find_min hex hm), Nat.find_spec hex⟩

/-- **The accumulator draws discs.** -/
theorem digitalDisc (r : Nat) : DigitalDisc r (discPixels r) where
  filled i j hij := by
    have hij' : i.natAbs * i.natAbs + j.natAbs * j.natAbs ≤ r * r := by
      have hi := Int.natAbs_mul_self (a := i)
      have hj := Int.natAbs_mul_self (a := j)
      omega
    show ∃ n, _
    generalize i.natAbs = a at hij' ⊢
    generalize j.natAbs = b at hij' ⊢
    obtain ⟨last, hlast, hend⟩ := exists_octant_end r
    by_cases ha : a ≤ last
    -- The columns up to the diagonal are filled.
    · refine ⟨a, hlast.of_le ha, .inl ⟨rfl, ?_⟩⟩
      obtain ⟨-, hnear⟩ := circleRow_near (hlast.of_le ha)
      by_contra hb
      nlinarith
    -- Those after it are a row of the octant, and end where the row does.
    · have hra : a ≤ r := by nlinarith
      cases last with
      | zero =>
        have hr : r ≤ 0 := hend
        omega
      | succ k =>
        obtain ⟨m, hm, hrow, hnext⟩ :=
          exists_circleRow_eq hlast (Nat.lt_of_le_of_lt hend (by omega))
          hra
        refine ⟨m, hlast.of_le (by omega), .inr ⟨hrow.symm, ?_⟩⟩
        obtain ⟨-, hnear⟩ := circleRow_near (hlast.of_le (by omega : m + 1 ≤ k + 1))
        by_contra hb
        generalize circleRow r (m + 1) = y at hnear hnext
        subst hnext
        nlinarith
  bounded i j := by
    rintro ⟨n, hn, hpix⟩
    obtain ⟨hnear, -⟩ := circleRow_near hn
    have hle : i.natAbs * i.natAbs + j.natAbs * j.natAbs ≤ r * r + r := by
      simp only at hpix
      rcases hpix with ⟨hi, hj⟩ | ⟨hi, hj⟩
      · have hsq := Nat.mul_le_mul hj hj
        rw [hi]
        omega
      · have hsq := Nat.mul_le_mul hj hj
        rw [hi]
        omega
    have hi := Int.natAbs_mul_self (a := i)
    have hj := Int.natAbs_mul_self (a := j)
    omega

end Muchiwachi.Lib.Digital
