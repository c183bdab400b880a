import Mathlib.Data.Set.Basic

/-!
# Painting in bands

A canvas is the set of the pixels that are on. A `Surface` is something that is drawn on through
a window: of what is on it only the part in the window counts. `Paints` says that an operation
paints a set of pixels there, and `Shows` that the window agrees with a canvas; a picture drawn
band by band is the picture drawn at once if each band shows the same canvas.

`arc` is an interval of numbers counted modulo `n`, and `arc_meets_iff` the test whether it meets
an ordinary one.
-/

namespace Muchiwachi.Lib.Raster

variable {P : Type*}

/-! ## Canvases -/

/-- `c` with the pixels of `S` switched on or off. -/
def paint (on : Bool) (S c : Set P) : Set P := {p | p ∈ S ∧ on = true ∨ p ∉ S ∧ p ∈ c}

theorem mem_paint_of_mem {on : Bool} {S c : Set P} {p : P} (h : p ∈ S) :
    p ∈ paint on S c ↔ on = true := by
  simp [paint, h]

theorem mem_paint_of_notMem {on : Bool} {S c : Set P} {p : P} (h : p ∉ S) :
    p ∈ paint on S c ↔ p ∈ c := by
  simp [paint, h]

theorem paint_true (S c : Set P) : paint true S c = c ∪ S := by
  ext p
  by_cases h : p ∈ S
  · simp [mem_paint_of_mem h, h]
  · simp [mem_paint_of_notMem h, h]

theorem paint_false (S c : Set P) : paint false S c = c \ S := by
  ext p
  by_cases h : p ∈ S
  · simp [mem_paint_of_mem h, h]
  · simp [mem_paint_of_notMem h, h]

/-- Painting twice in one color. -/
theorem paint_paint (on : Bool) (S T c : Set P) :
    paint on T (paint on S c) = paint on (S ∪ T) c := by
  ext p
  by_cases hT : p ∈ T
  · rw [mem_paint_of_mem hT, mem_paint_of_mem (.inr hT)]
  · by_cases hS : p ∈ S
    · rw [mem_paint_of_notMem hT, mem_paint_of_mem hS, mem_paint_of_mem (.inl hS)]
    · rw [mem_paint_of_notMem hT, mem_paint_of_notMem hS,
        mem_paint_of_notMem fun h => h.elim hS hT]

/-! ## Surfaces -/

/-- Something drawn on through a window. -/
structure Surface (σ P : Type*) where
  window : σ → Set P
  lit : σ → Set P
  /-- Whether drawing switches pixels on. -/
  ink : σ → Bool

namespace Surface

variable {σ : Type*} (V : Surface σ P)

/-- From `s` to `s'` the pixels of `S` are painted. -/
structure Paints (s s' : σ) (S : Set P) : Prop where
  window : V.window s' = V.window s
  ink : V.ink s' = V.ink s
  inside : ∀ p ∈ V.window s, p ∈ S → (p ∈ V.lit s' ↔ V.ink s = true)
  outside : ∀ p ∈ V.window s, p ∉ S → (p ∈ V.lit s' ↔ p ∈ V.lit s)

/-- What is in the window is on the canvas. -/
def Shows (s : σ) (c : Set P) : Prop := ∀ p ∈ V.window s, (p ∈ V.lit s ↔ p ∈ c)

variable {V} {s s' s'' : σ} {S T c : Set P}

theorem Paints.refl (s : σ) : V.Paints s s ∅ :=
  ⟨rfl, rfl, fun _ _ h => h.elim, fun _ _ _ => Iff.rfl⟩

/-- Only the part in the window matters. -/
theorem Paints.congr (h : V.Paints s s' S) (hST : ∀ p ∈ V.window s, (p ∈ S ↔ p ∈ T)) :
    V.Paints s s' T :=
  ⟨h.window, h.ink, fun p hp hT => h.inside p hp ((hST p hp).mpr hT),
    fun p hp hT => h.outside p hp fun hS => hT ((hST p hp).mp hS)⟩

/-- Nothing in the window is painted. -/
theorem Paints.none (hS : ∀ p ∈ V.window s, p ∉ S) : V.Paints s s S :=
  (Paints.refl s).congr fun p hp => ⟨fun h => h.elim, fun h => hS p hp h⟩

theorem Paints.trans (h : V.Paints s s' S) (h' : V.Paints s' s'' T) : V.Paints s s'' (S ∪ T) where
  window := h'.window.trans h.window
  ink := h'.ink.trans h.ink
  inside p hp hST := by
    have hp' : p ∈ V.window s' := h.window ▸ hp
    by_cases hT : p ∈ T
    · rw [h'.inside p hp' hT, h.ink]
    · rw [h'.outside p hp' hT, h.inside p hp (hST.resolve_right hT)]
  outside p hp hST := by
    have hp' : p ∈ V.window s' := h.window ▸ hp
    rw [h'.outside p hp' fun hT => hST (.inr hT), h.outside p hp fun hS => hST (.inl hS)]

/-- Painting what shows a canvas shows the painted canvas. -/
theorem Shows.paint (h : V.Shows s c) (hp : V.Paints s s' S) :
    V.Shows s' (paint (V.ink s) S c) := by
  intro p hw
  have hw' : p ∈ V.window s := hp.window ▸ hw
  by_cases hS : p ∈ S
  · rw [hp.inside p hw' hS, mem_paint_of_mem hS]
  · rw [hp.outside p hw' hS, mem_paint_of_notMem hS, h p hw']

end Surface

/-! ## Arcs -/

/-- The numbers at most `l` steps after `v`, modulo `n`. -/
def arc (n v l : Nat) : Set Nat := {a | a < n ∧ (a + (n - v)) % n ≤ l}

/-- **Whether an arc meets an interval** is seen from its ends: the arc from `v₀` to `v₁` and the
numbers from `a₀` to `a₁` have one in common if and only if two of the three comparisons hold. -/
theorem arc_meets_iff {n a₀ a₁ v₀ v₁ : Nat} (ha : a₀ ≤ a₁) (ha₁ : a₁ < n) (hv₀ : v₀ < n)
    (hv₁ : v₁ < n) :
    (∃ a ∈ arc n v₀ ((v₁ + (n - v₀)) % n), a₀ ≤ a ∧ a ≤ a₁) ↔
      v₀ ≤ a₁ ∧ a₀ ≤ v₁ ∨ v₀ ≤ a₁ ∧ v₁ < v₀ ∨ a₀ ≤ v₁ ∧ v₁ < v₀ := by
  have hstep : ∀ a < n, (a + (n - v₀)) % n = if v₀ ≤ a then a - v₀ else a + (n - v₀) := by
    intro a hlt
    split
    · rw [show a + (n - v₀) = a - v₀ + n by omega, Nat.add_mod_right]
      exact Nat.mod_eq_of_lt (by omega)
    · exact Nat.mod_eq_of_lt (by omega)
  rw [hstep v₁ hv₁]
  constructor
  · rintro ⟨a, ⟨han, hal⟩, h₀, h₁⟩
    rw [hstep a han] at hal
    split at hal <;> split at hal <;> omega
  · intro h
    by_cases hin : v₀ ≤ a₁ ∧ (a₀ ≤ v₁ ∨ v₁ < v₀)
    -- The later of the two lower ends is a common point.
    · refine ⟨max v₀ a₀, ⟨by omega, ?_⟩, by omega, by omega⟩
      rw [hstep _ (by omega), if_pos (by omega)]
      split <;> omega
    -- Otherwise the arc comes round to the lower end of the interval.
    · refine ⟨a₀, ⟨by omega, ?_⟩, by omega, by omega⟩
      rw [hstep _ (by omega)]
      split <;> split <;> omega

end Muchiwachi.Lib.Raster
