import Mathlib.Data.Nat.ModEq

/-!
# Ages on a clock that wraps around

A stamp is kept modulo `a` and the clock is read modulo `b`. `SeemsLate` compares the two as they
are; `seemsLate_iff` says for which times this tells whether more than `limit` has passed.
-/

namespace Muchiwachi.Lib.WrappedClock

/-- As far as the stamp of time `s` and the clock at time `t` show, more than `limit` has
passed. -/
def SeemsLate (a b limit s t : Nat) : Prop := s % a + limit < t % b

/-- The times at which that is right. Past the limit: the clock has not wrapped since the stamp,
or is more than `limit` past it again. Within the limit: the stamp is not cut off, or the clock
has wrapped since. -/
def TellsAge (a b limit s t : Nat) : Prop :=
  if limit < t - s then s / b = t / b ∨ s % a + limit < t % b else s % b < a ∨ s / b < t / b

instance (a b limit s t : Nat) : Decidable (TellsAge a b limit s t) :=
  inferInstanceAs (Decidable (if limit < t - s then _ ∨ _ else _ ∨ _))

variable {a b limit s t : Nat}

/-- What is cut off a stamp is at least `a`, if anything is. -/
theorem mod_add_le (hab : a ∣ b) (h : a ≤ s % b) : s % a + a ≤ s % b := by
  have hmod : s % b % a = s % a := Nat.mod_mod_of_dvd s hab
  rw [← hmod, Nat.mod_eq_sub_mod h]
  have hle := Nat.mod_le (s % b - a) a
  omega

theorem mod_le_mod (hab : a ∣ b) : s % a ≤ s % b := by
  have hmod : s % b % a = s % a := Nat.mod_mod_of_dvd s hab
  rw [← hmod]
  exact Nat.mod_le ..

/-- The clock as long as it does not wrap. -/
theorem mod_of_div_eq (hle : s ≤ t) (h : s / b = t / b) : t % b = s % b + (t - s) := by
  have hs := Nat.div_add_mod s b
  have ht := Nat.div_add_mod t b
  rw [h] at hs
  omega

/-- The clock when it has wrapped within `limit` shows less than what has passed. -/
theorem mod_le_of_div_lt (hle : s ≤ t) (hb : 0 < b) (h : s / b < t / b) : t % b ≤ t - s := by
  have hs : s < b * (t / b) := by
    have hlt := Nat.lt_mul_div_succ s hb
    have hmul := Nat.mul_le_mul_left b (Nat.succ_le_of_lt h)
    exact lt_of_lt_of_le hlt hmul
  have ht := Nat.div_add_mod t b
  omega

/-- **When a wrapped clock tells the age.** -/
theorem seemsLate_iff (hab : a ∣ b) (hb : 0 < b) (hlimit : limit < a) (hle : s ≤ t) :
    (SeemsLate a b limit s t ↔ limit < t - s) ↔ TellsAge a b limit s t := by
  have hdiv : s / b ≤ t / b := Nat.div_le_div_right hle
  unfold SeemsLate TellsAge
  by_cases hlate : limit < t - s
  · rw [if_pos hlate]
    refine ⟨fun h => .inr (h.mpr hlate), fun h => iff_of_true ?_ hlate⟩
    rcases h with hsame | hpast
    · have hclock := mod_of_div_eq hle hsame
      have hstamp := mod_le_mod (s := s) hab
      omega
    · exact hpast
  · rw [if_neg hlate]
    rcases hdiv.lt_or_eq with hwrap | hsame
    · have hclock := mod_le_of_div_lt hle hb hwrap
      exact iff_of_true (iff_of_false (by omega) hlate) (.inr hwrap)
    · have hclock := mod_of_div_eq hle hsame
      by_cases hcut : s % b < a
      · have hstamp : s % a = s % b := by
          rw [← Nat.mod_mod_of_dvd s hab, Nat.mod_eq_of_lt hcut]
        exact iff_of_true (iff_of_false (by omega) hlate) (.inl hcut)
      · have hstamp := mod_add_le (s := s) hab (by omega)
        refine iff_of_false (fun h => hlate (h.mp (by omega))) ?_
        rintro (h | h)
        · exact hcut h
        · omega

end Muchiwachi.Lib.WrappedClock
