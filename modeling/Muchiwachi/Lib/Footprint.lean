import Mathlib.Data.List.Basic
import Mathlib.Logic.Function.Basic

/-!
# Footprints

A state `σ` with a memory of cells `ι → β` in it (`Memory`). `LocalAt M S f s` says that, at `s`,
the function `f` works on the cells in `S` and no others: whatever is put into the others, `f` does
the same and leaves them as they are. It is closed under sequencing and loops.
-/

namespace Muchiwachi.Lib

/-- Cells that can be read and replaced. -/
structure Memory (σ ι β : Type*) where
  cells : σ → ι → β
  put : (ι → β) → σ → σ
  cells_put : ∀ m s, cells (put m s) = m
  put_cells : ∀ s, put (cells s) s = s
  put_put : ∀ m m' s, put m (put m' s) = put m s

variable {σ ι β : Type*} [DecidableEq ι]

/-- The cells of `m` in `S`, and those of `m'` elsewhere. -/
def mask (S : List ι) (m m' : ι → β) : ι → β := fun i => if i ∈ S then m i else m' i

theorem mask_of_mem {S : List ι} {i : ι} (h : i ∈ S) (m m' : ι → β) : mask S m m' i = m i :=
  if_pos h

theorem mask_of_not_mem {S : List ι} {i : ι} (h : i ∉ S) (m m' : ι → β) :
    mask S m m' i = m' i := if_neg h

theorem mask_mask (S : List ι) (m m' m'' : ι → β) :
    mask S m (mask S m' m'') = mask S m m'' := by
  funext i
  by_cases h : i ∈ S
  · rw [mask_of_mem h, mask_of_mem h]
  · rw [mask_of_not_mem h, mask_of_not_mem h, mask_of_not_mem h]

/-- Two memories that agree on `S`. -/
theorem mask_eq {S : List ι} {m m' : ι → β} (h : ∀ i ∈ S, m' i = m i) : mask S m m' = m' := by
  funext i
  by_cases hi : i ∈ S
  · rw [mask_of_mem hi, h i hi]
  · rw [mask_of_not_mem hi]

variable {M : Memory σ ι β}

/-- At `s`, `f` works on the cells in `S` and no others. -/
def LocalAt (M : Memory σ ι β) (S : List ι) (f : σ → σ) (s : σ) : Prop :=
  ∀ m, (∀ i ∈ S, m i = M.cells s i) → f (M.put m s) = M.put (mask S (M.cells (f s)) m) (f s)

section

variable {S : List ι} {f g : σ → σ} {s : σ}

/-- The other cells keep their values. -/
theorem LocalAt.frame (h : LocalAt M S f s) {i : ι} (hi : i ∉ S) :
    M.cells (f s) i = M.cells s i := by
  have hself := h (M.cells s) fun _ _ => rfl
  rw [M.put_cells] at hself
  have hcells := congrFun (congrArg M.cells hself) i
  rwa [M.cells_put, mask_of_not_mem hi] at hcells

theorem LocalAt.mono {T : List ι} (h : LocalAt M S f s) (hsub : S ⊆ T) : LocalAt M T f s := by
  intro m hm
  rw [h m fun i hi => hm i (hsub hi)]
  congr 1
  funext i
  by_cases hS : i ∈ S
  · rw [mask_of_mem hS, mask_of_mem (hsub hS)]
  · rw [mask_of_not_mem hS]
    by_cases hT : i ∈ T
    · rw [mask_of_mem hT, hm i hT, h.frame hS]
    · rw [mask_of_not_mem hT]

theorem LocalAt.comp (hf : LocalAt M S f s) (hg : LocalAt M S g (f s)) :
    LocalAt M S (fun s => g (f s)) s := by
  intro m hm
  show g (f (M.put m s)) = _
  rw [hf m hm, hg _ fun i hi => mask_of_mem hi .., mask_mask]

/-- A function that does at `s`, and at what cannot be told from it, what a local one does. -/
theorem LocalAt.congr (h : LocalAt M S g s)
    (heq : ∀ m, (∀ i ∈ S, m i = M.cells s i) → f (M.put m s) = g (M.put m s)) :
    LocalAt M S f s := by
  have hs := heq (M.cells s) fun _ _ => rfl
  rw [M.put_cells] at hs
  intro m hm
  rw [heq m hm, hs]
  exact h m hm

/-- A function that does not come by the memory. -/
theorem localAt_of_put (h : ∀ m, f (M.put m s) = M.put m (f s)) : LocalAt M S f s := by
  have hself := h (M.cells s)
  rw [M.put_cells] at hself
  have hcells := congrArg M.cells hself
  rw [M.cells_put] at hcells
  intro m hm
  rw [h m, hcells, mask_eq hm]

/-- One cell is given a value. -/
theorem localAt_update {i : ι} (hi : i ∈ S) (b : β) :
    LocalAt M S (fun s => M.put (Function.update (M.cells s) i b) s) s := by
  intro m hm
  simp only [M.cells_put, M.put_put]
  congr 1
  funext j
  by_cases hj : j = i
  · subst hj
    rw [mask_of_mem hi, Function.update_self, Function.update_self]
  · by_cases hS : j ∈ S
    · rw [mask_of_mem hS, Function.update_of_ne hj, Function.update_of_ne hj, hm j hS]
    · rw [mask_of_not_mem hS, Function.update_of_ne hj]

theorem LocalAt.foldl {α : Type*} {f : σ → α → σ} {l : List α}
    (h : ∀ s, ∀ a ∈ l, LocalAt M S (fun s => f s a) s) (s : σ) :
    LocalAt M S (fun s => l.foldl f s) s := by
  induction l generalizing s with
  | nil => exact localAt_of_put fun _ => rfl
  | cons a l ih =>
    have hturn := h s a List.mem_cons_self
    exact hturn.comp (ih (fun s b hb => h s b (List.mem_cons_of_mem a hb)) (f s a))

end

end Muchiwachi.Lib
