import Mathlib.Data.List.Basic
import Mathlib.Data.List.Nodup
import Muchiwachi.Lib.Run

/-!
# Bounded logs without repetition

A `BoundedLog α cap` is a list of at most `cap` distinct entries. `push` appends an entry that is
not in it yet, as long as there is room; nothing is ever removed or moved. `entries_run_push` gives
the log after any list of pushes, `entries_prefix_run` that it only grows at its end.

The last section relates a search through an array to positions in the list of its entries.
-/

namespace Muchiwachi.Lib

variable {α : Type*} [BEq α] [LawfulBEq α] {cap : Nat}

structure BoundedLog (α : Type*) (cap : Nat) where
  entries : List α
  nodup : entries.Nodup
  length_le : entries.length ≤ cap

namespace BoundedLog

def empty : BoundedLog α cap := ⟨[], List.nodup_nil, Nat.zero_le _⟩

def push (l : BoundedLog α cap) (a : α) : BoundedLog α cap :=
  if h : l.entries.length = cap ∨ a ∈ l.entries then l
  else
    { entries := l.entries ++ [a]
      nodup := by
        rw [not_or] at h
        exact List.nodup_append.mpr ⟨l.nodup, List.nodup_singleton a, by
          rintro x hx y hy rfl
          exact h.2 (List.mem_singleton.mp hy ▸ hx)⟩
      length_le := by
        have := l.length_le
        rw [List.length_append, List.length_singleton]
        omega }

theorem push_of_full {l : BoundedLog α cap} (h : l.entries.length = cap) (a : α) :
    l.push a = l := dif_pos (.inl h)

theorem push_of_mem {l : BoundedLog α cap} {a : α} (h : a ∈ l.entries) : l.push a = l :=
  dif_pos (.inr h)

theorem entries_push_new {l : BoundedLog α cap} {a : α} (hlen : l.entries.length ≠ cap)
    (ha : a ∉ l.entries) : (l.push a).entries = l.entries ++ [a] := by
  rw [push, dif_neg (by simp [hlen, ha])]

theorem entries_prefix_push (l : BoundedLog α cap) (a : α) : l.entries <+: (l.push a).entries := by
  by_cases hlen : l.entries.length = cap
  · rw [push_of_full hlen]
  · by_cases ha : a ∈ l.entries
    · rw [push_of_mem ha]
    · rw [entries_push_new hlen ha]
      exact List.prefix_append ..

theorem entries_prefix_run (l : BoundedLog α cap) (as : List α) :
    l.entries <+: (run push l as).entries :=
  run_rel (R := fun l l' => l.entries <+: l'.entries) (fun _ => List.prefix_refl _)
    List.IsPrefix.trans entries_prefix_push l as

/-- **The log after any list of pushes**: the old entries, then the new ones that were not among
them, in order of first occurrence, cut at the capacity. -/
theorem entries_run_push (l : BoundedLog α cap) (as : List α) :
    (run push l as).entries = (l.entries ++ (as.removeAll l.entries).eraseDups).take cap := by
  induction as generalizing l with
  | nil =>
    simp only [run_nil, List.removeAll, List.filter_nil, List.eraseDups_nil, List.append_nil]
    exact (List.take_of_length_le l.length_le).symm
  | cons a as ih =>
    rw [run_cons, ih, List.cons_removeAll]
    by_cases ha : a ∈ l.entries
    · rw [push_of_mem ha, if_neg (by simpa using ha)]
    rw [if_pos (by simpa using ha), List.eraseDups_cons]
    by_cases hlen : l.entries.length = cap
    · rw [push_of_full hlen, List.take_append_of_le_length hlen.ge,
        List.take_append_of_le_length hlen.ge]
    · have hrest : as.removeAll (l.entries ++ [a]) =
          (as.removeAll l.entries).filter fun b => !b == a := by
        simp only [List.removeAll, List.filter_filter]
        apply List.filter_congr
        intro x _
        by_cases hxa : x = a <;> simp [hxa]
      rw [entries_push_new hlen ha, hrest, List.append_assoc, List.singleton_append]

/-- New entries that fit are all kept. -/
theorem entries_run_push_of_nodup {l : BoundedLog α cap} {as : List α}
    (hnd : (l.entries ++ as).Nodup) (hlen : (l.entries ++ as).length ≤ cap) :
    (run push l as).entries = l.entries ++ as := by
  induction as generalizing l with
  | nil => simp
  | cons a as ih =>
    have hnew : a ∉ l.entries := fun ha =>
      List.nodup_append.mp hnd |>.2.2 a ha a List.mem_cons_self rfl
    have hroom : l.entries.length ≠ cap := by
      rw [List.length_append, List.length_cons] at hlen
      omega
    have hpush := entries_push_new hroom hnew
    rw [← List.singleton_append, ← List.append_assoc, ← hpush] at hnd hlen ⊢
    rw [List.singleton_append, run_cons]
    exact ih hnd hlen

end BoundedLog

/-! ## Searching an array -/

section

variable {β : Type*} [BEq β] [LawfulBEq β] {f : Nat → β} {b : β} {n : Nat}

/-- The first index below `n` whose entry is `b` is its position in the list of entries. -/
theorem find?_range_of_mem (h : b ∈ (List.range n).map f) :
    ((List.range n).find? fun i => f i == b) = some (((List.range n).map f).idxOf b) := by
  have hlt := List.idxOf_lt_length_of_mem h
  rw [List.find?_range_eq_some]
  refine ⟨?_, ?_, fun j hj => ?_⟩
  · have hget := List.getElem_idxOf hlt
    rw [List.getElem_map, List.getElem_range] at hget
    exact beq_iff_eq.mpr hget
  · simpa using hlt
  · have := List.not_of_lt_findIdx hj
    simpa using this

theorem find?_range_of_not_mem (h : b ∉ (List.range n).map f) :
    ((List.range n).find? fun i => f i == b) = none := by
  rw [List.find?_eq_none]
  intro i hi he
  exact h (List.mem_map.mpr ⟨i, hi, beq_iff_eq.mp he⟩)

end

end Muchiwachi.Lib
