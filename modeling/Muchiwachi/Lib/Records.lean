import Mathlib.Data.List.Induction
import Mathlib.Logic.Function.Basic

/-!
# Records written one at a time

A store of records `κ → β` changes by writes `(key, value)`, each atomic. `applyWrites` performs
a list of them; cutting the list short is losing power between two writes. `applyWrites_other`
and `applyWrites_table` say what a list of writes leaves in a record: nothing new where no write
goes, and the entry where a table is written out in order.
-/

namespace Muchiwachi.Lib

variable {κ β : Type*}

section

variable [DecidableEq κ]

def applyWrites (m : κ → β) (ws : List (κ × β)) : κ → β :=
  ws.foldl (fun m w => Function.update m w.1 w.2) m

@[simp] theorem applyWrites_nil (m : κ → β) : applyWrites m [] = m := rfl

@[simp] theorem applyWrites_cons (m : κ → β) (w : κ × β) (ws : List (κ × β)) :
    applyWrites m (w :: ws) = applyWrites (Function.update m w.1 w.2) ws := rfl

theorem applyWrites_append (m : κ → β) (as bs : List (κ × β)) :
    applyWrites m (as ++ bs) = applyWrites (applyWrites m as) bs := List.foldl_append ..

/-- A record no write goes to keeps its value. -/
theorem applyWrites_other {m : κ → β} {ws : List (κ × β)} {k : κ} (h : ∀ w ∈ ws, w.1 ≠ k) :
    applyWrites m ws k = m k := by
  induction ws generalizing m with
  | nil => rfl
  | cons w ws ih =>
    rw [applyWrites_cons, ih fun v hv => h v (List.mem_cons_of_mem _ hv)]
    exact Function.update_of_ne (Ne.symm (h w List.mem_cons_self)) ..

end

/-- A record that all its writes give the same value has that value. -/
theorem applyWrites_of_mem [DecidableEq κ] {m : κ → β} {ws : List (κ × β)} {k : κ} {v : β}
    (hmem : (k, v) ∈ ws) (hsame : ∀ w ∈ ws, w.1 = k → w.2 = v) : applyWrites m ws k = v := by
  induction ws using List.reverseRecOn with
  | nil => cases hmem
  | append_singleton ws w ih =>
    rw [applyWrites_append, applyWrites_cons, applyWrites_nil]
    by_cases hw : w.1 = k
    · rw [← hw, Function.update_self]
      exact hsame w (by simp) hw
    · rw [Function.update_of_ne (Ne.symm hw)]
      refine ih ?_ fun x hx => hsame x (List.mem_append_left _ hx)
      rcases List.mem_append.mp hmem with h | h
      · exact h
      · exact absurd (by rw [← List.mem_singleton.mp h]) hw

/-- The first `n` entries of a table written to keys `key 0, key 1, …` in order. -/
def tableWrites (key : Nat → κ) (val : Nat → β) (n : Nat) : List (κ × β) :=
  (List.range n).map fun k => (key k, val k)

@[simp] theorem length_tableWrites (key : Nat → κ) (val : Nat → β) (n : Nat) :
    (tableWrites key val n).length = n := by
  simp [tableWrites]

theorem take_tableWrites (key : Nat → κ) (val : Nat → β) (j n : Nat) :
    (tableWrites key val n).take j = tableWrites key val (min j n) := by
  simp only [tableWrites, ← List.map_take, List.take_range]

section

variable [DecidableEq κ]

theorem applyWrites_table_other {m : κ → β} {key : Nat → κ} {val : Nat → β} {n : Nat} {x : κ}
    (h : ∀ k, k < n → key k ≠ x) : applyWrites m (tableWrites key val n) x = m x := by
  apply applyWrites_other
  intro w hw
  obtain ⟨k, hk, rfl⟩ := List.mem_map.mp hw
  exact h k (List.mem_range.mp hk)

/-- After the first `n` entries are written, record `key k` holds entry `k` if that is one of
them, and what it held before otherwise. -/
theorem applyWrites_table {m : κ → β} {key : Nat → κ} {val : Nat → β}
    (hkey : Function.Injective key) (n k : Nat) :
    applyWrites m (tableWrites key val n) (key k) = if k < n then val k else m (key k) := by
  induction n with
  | zero => rfl
  | succ n ih =>
    have hsplit : tableWrites key val (n + 1) = tableWrites key val n ++ [(key n, val n)] := by
      simp only [tableWrites, List.range_succ, List.map_append, List.map_cons, List.map_nil]
    rw [hsplit, applyWrites_append, applyWrites_cons, applyWrites_nil]
    rcases Nat.lt_trichotomy k n with hlt | rfl | hgt
    · rw [Function.update_of_ne (fun e => Nat.ne_of_lt hlt (hkey e)), ih, if_pos hlt,
        if_pos (Nat.lt_succ_of_lt hlt)]
    · rw [Function.update_self, if_pos (Nat.lt_succ_self k)]
    · rw [Function.update_of_ne (fun e => Nat.ne_of_gt hgt (hkey e)), ih,
        if_neg (Nat.not_lt_of_gt hgt), if_neg (by omega)]

end

end Muchiwachi.Lib
