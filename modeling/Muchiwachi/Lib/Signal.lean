import Mathlib.Data.List.Chain

/-!
# Signals with cuts

A recording of a signal is a list of samples, with a cut wherever the signal is interrupted.
`Steady R` says that of two samples in a row, with no cut between them, the second follows the
first by `R`. A recording can be checked while it grows: what counts is its last entry.
-/

namespace Muchiwachi.Lib

/-- An entry of a recording. -/
inductive Reading (α : Type*) where
  | cut
  | sample (a : α)
  deriving DecidableEq, Repr

variable {α : Type*}

/-- The samples of a recording. -/
def samples (rs : List (Reading α)) : List α :=
  rs.filterMap fun
    | .sample a => some a
    | .cut => none

theorem samples_append (rs ss : List (Reading α)) : samples (rs ++ ss) = samples rs ++ samples ss :=
  List.filterMap_append

/-- Samples without a cut between them follow each other by `R`. -/
def Steady (R : α → α → Prop) (rs : List (Reading α)) : Prop :=
  ∀ seg : List α, seg.map .sample <:+: rs → seg.IsChain R

theorem steady_nil (R : α → α → Prop) : Steady R [] := by
  intro seg hseg
  rw [List.map_eq_nil_iff.mp (List.infix_nil.mp hseg)]
  exact .nil

/-- A cut can come anywhere. -/
theorem Steady.cut {R : α → α → Prop} {rs : List (Reading α)} (h : Steady R rs) :
    Steady R (rs ++ [.cut]) := by
  intro seg hseg
  rcases List.infix_concat_iff.mp hseg with hsuf | hin
  · rcases List.suffix_concat_iff.mp hsuf with hnil | ⟨t, ht, -⟩
    · rw [List.map_eq_nil_iff.mp hnil]
      exact .nil
    · have hmem : Reading.cut ∈ seg.map Reading.sample := by simp [ht]
      obtain ⟨a, -, ha⟩ := List.mem_map.mp hmem
      cases ha
  · exact h seg hin

/-- A sample follows the one that is last. -/
theorem Steady.sample {R : α → α → Prop} {rs : List (Reading α)} (h : Steady R rs) {b : α}
    (hlast : ∀ a, rs.getLast? = some (.sample a) → R a b) : Steady R (rs ++ [.sample b]) := by
  intro seg hseg
  rcases List.infix_concat_iff.mp hseg with hsuf | hin
  · rcases List.suffix_concat_iff.mp hsuf with hnil | ⟨t, ht, hts⟩
    · rw [List.map_eq_nil_iff.mp hnil]
      exact .nil
    · obtain ⟨init, tail, rfl, rfl, htail⟩ := List.map_eq_append_iff.mp ht
      obtain ⟨c, rfl, hc⟩ : ∃ c, tail = [c] ∧ Reading.sample c = .sample b := by
        simpa [List.map_eq_singleton_iff] using htail
      cases hc
      refine List.isChain_append.mpr ⟨h init hts.isInfix, .singleton _, fun a ha c hc => ?_⟩
      obtain rfl : c = b := by simpa using hc.symm
      refine hlast a ?_
      obtain ⟨pre, rfl⟩ := hts
      have hinit : (init.map Reading.sample).getLast? = some (.sample a) := by
        rw [List.getLast?_map, Option.mem_def.mp ha]
        rfl
      rw [List.getLast?_append, hinit]
      rfl
  · exact h seg hin

end Muchiwachi.Lib
