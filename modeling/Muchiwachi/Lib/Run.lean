import Mathlib.Data.List.Infix

/-!
# Runs of a step function

A system is a step function `step : σ → α → σ`; a run feeds it a list of inputs. `Always P`
says `P` holds in every state the run passes through, its first and last included;
`EachStep C` says every input the run takes satisfies `C` in the state it is taken in.

`always_of_step` is the invariant rule, with variants for restricted inputs and for properties of
the history. `always_iff_eachStep` is its exact form: where a step keeps `P` exactly when it
satisfies `C`, a run keeps `P` exactly when all its steps satisfy `C`.
-/

namespace Muchiwachi.Lib

variable {σ α : Type*} (step : σ → α → σ)

/-- The state a run ends in. -/
def run (s : σ) (as : List α) : σ := as.foldl step s

@[simp] theorem run_nil (s : σ) : run step s [] = s := rfl

@[simp] theorem run_cons (s : σ) (a : α) (as : List α) :
    run step s (a :: as) = run step (step s a) as := rfl

theorem run_append (s : σ) (as bs : List α) :
    run step s (as ++ bs) = run step (run step s as) bs := List.foldl_append ..

theorem run_snoc (s : σ) (as : List α) (a : α) :
    run step s (as ++ [a]) = step (run step s as) a := by
  rw [run_append, run_cons, run_nil]

/-- `P` holds in every state of the run. -/
def Always (P : σ → Prop) (s : σ) (as : List α) : Prop :=
  ∀ pre, pre <+: as → P (run step s pre)

/-- Every input of the run satisfies `C` in the state that takes it. -/
def EachStep (C : σ → α → Prop) (s : σ) (as : List α) : Prop :=
  ∀ pre a, pre ++ [a] <+: as → C (run step s pre) a

variable {step}

theorem always_nil {P : σ → Prop} {s : σ} : Always step P s [] ↔ P s := by
  constructor
  · intro h; exact h [] (List.prefix_refl _)
  · intro h pre hpre
    rw [List.prefix_nil.mp hpre]
    exact h

theorem always_cons {P : σ → Prop} {s : σ} {a : α} {as : List α} :
    Always step P s (a :: as) ↔ P s ∧ Always step P (step s a) as := by
  constructor
  · intro h
    refine ⟨h [] (List.nil_prefix ..), fun pre hpre => h (a :: pre) ?_⟩
    exact (List.prefix_cons_inj a).mpr hpre
  · rintro ⟨hs, h⟩ pre hpre
    cases pre with
    | nil => exact hs
    | cons b pre =>
      obtain ⟨rfl, hpre'⟩ := List.cons_prefix_cons.mp hpre
      exact h pre hpre'

theorem eachStep_nil {C : σ → α → Prop} {s : σ} : EachStep step C s [] := by
  intro pre a h
  have := h.length_le
  simp at this

theorem eachStep_cons {C : σ → α → Prop} {s : σ} {a : α} {as : List α} :
    EachStep step C s (a :: as) ↔ C s a ∧ EachStep step C (step s a) as := by
  constructor
  · intro h
    refine ⟨h [] a ?_, fun pre b hb => h (a :: pre) b ?_⟩
    · exact (List.prefix_cons_inj a).mpr (List.nil_prefix ..)
    · exact (List.prefix_cons_inj a).mpr hb
  · rintro ⟨hs, h⟩ pre b hb
    cases pre with
    | nil =>
      obtain ⟨rfl, -⟩ := List.cons_prefix_cons.mp hb
      exact hs
    | cons c pre =>
      obtain ⟨rfl, hb'⟩ := List.cons_prefix_cons.mp hb
      exact h pre b hb'

instance decidableEachStep {C : σ → α → Prop} [∀ s a, Decidable (C s a)] :
    ∀ (s : σ) (as : List α), Decidable (EachStep step C s as)
  | _, [] => .isTrue eachStep_nil
  | s, a :: as =>
    have := decidableEachStep (C := C) (step s a) as
    decidable_of_iff (C s a ∧ EachStep step C (step s a) as) eachStep_cons.symm

theorem eachStep_append {C : σ → α → Prop} {s : σ} {as bs : List α} :
    EachStep step C s (as ++ bs) ↔ EachStep step C s as ∧ EachStep step C (run step s as) bs := by
  induction as generalizing s with
  | nil => exact (and_iff_right eachStep_nil).symm
  | cons a as ih => rw [List.cons_append, eachStep_cons, ih, eachStep_cons, run_cons, and_assoc]

theorem eachStep_congr {C D : σ → α → Prop} (h : ∀ s a, C s a ↔ D s a) {s : σ} {as : List α} :
    EachStep step C s as ↔ EachStep step D s as :=
  forall_congr' fun _ => forall_congr' fun a => imp_congr_right fun _ => h _ a

theorem Always.start {P : σ → Prop} {s : σ} {as : List α} (h : Always step P s as) : P s :=
  h [] (List.nil_prefix ..)

theorem Always.final {P : σ → Prop} {s : σ} {as : List α} (h : Always step P s as) :
    P (run step s as) := h as (List.prefix_refl _)

theorem Always.mono {P Q : σ → Prop} {s : σ} {as : List α} (h : Always step P s as)
    (hpq : ∀ s, P s → Q s) : Always step Q s as := fun pre hpre => hpq _ (h pre hpre)

/-- What `P` implies for every input holds of every step of a run that keeps `P`. -/
theorem Always.eachStep {P : σ → Prop} {C : σ → α → Prop} {s : σ} {as : List α}
    (h : Always step P s as) (hc : ∀ s a, P s → C s a) : EachStep step C s as := by
  intro pre a hpre
  exact hc _ a (h pre ((List.prefix_append ..).trans hpre))

/-- **The invariant rule**, for the inputs that satisfy `C`. -/
theorem always_of_step_of {P : σ → Prop} {C : α → Prop}
    (hstep : ∀ s a, C a → P s → P (step s a)) {s : σ} (hs : P s) {as : List α}
    (has : ∀ a ∈ as, C a) : Always step P s as := by
  induction as generalizing s with
  | nil => exact always_nil.mpr hs
  | cons a as ih =>
    have ha := has a List.mem_cons_self
    exact always_cons.mpr ⟨hs, ih (hstep s a ha hs) fun b hb => has b (List.mem_cons_of_mem a hb)⟩

/-- The invariant rule, for all inputs. -/
theorem always_of_step {P : σ → Prop} (hstep : ∀ s a, P s → P (step s a)) {s : σ} (hs : P s)
    (as : List α) : Always step P s as :=
  always_of_step_of (C := fun _ => True) (fun s a _ => hstep s a) hs fun _ _ => trivial

/-- The invariant rule, for the steps that satisfy `C`. -/
theorem always_of_eachStep {P : σ → Prop} {C : σ → α → Prop}
    (hstep : ∀ s a, C s a → P s → P (step s a)) {s : σ} (hs : P s) {as : List α}
    (has : EachStep step C s as) : Always step P s as := by
  induction as generalizing s with
  | nil => exact always_nil.mpr hs
  | cons a as ih =>
    obtain ⟨ha, has⟩ := eachStep_cons.mp has
    exact always_cons.mpr ⟨hs, ih (hstep s a ha hs) has⟩

/-- What `C` and an invariant it keeps imply holds of every step of a run that satisfies `C`. -/
theorem EachStep.of_invariant {P : σ → Prop} {C D : σ → α → Prop} {s : σ} {as : List α}
    (has : EachStep step C s as) (hstep : ∀ s a, C s a → P s → P (step s a)) (hs : P s)
    (hd : ∀ s a, C s a → P s → D s a) : EachStep step D s as := by
  intro pre a hpre
  have hinv := always_of_eachStep hstep hs has pre ((List.prefix_append ..).trans hpre)
  exact hd _ a (has pre a hpre) hinv

/-- A relation that every step respects holds between the ends of a run. -/
theorem run_rel {R : σ → σ → Prop} (hrefl : ∀ s, R s s) (htrans : ∀ {a b c}, R a b → R b c → R a c)
    (hstep : ∀ s a, R s (step s a)) (s : σ) (as : List α) : R s (run step s as) := by
  induction as generalizing s with
  | nil => exact hrefl s
  | cons a as ih => exact htrans (hstep s a) (ih (step s a))

/-- **The exact rule.** Under an invariant `I`, if a step from a `P`-state ends in a `P`-state
exactly when it satisfies `C`, the runs all of whose states satisfy `P` are the runs all of
whose steps satisfy `C`. -/
theorem always_iff_eachStep {I P : σ → Prop} {C : σ → α → Prop}
    (hI : ∀ s a, I s → I (step s a)) (hP : ∀ s a, I s → P s → (P (step s a) ↔ C s a))
    {s : σ} (hs : I s) (hp : P s) (as : List α) :
    Always step P s as ↔ EachStep step C s as := by
  induction as generalizing s with
  | nil => simp only [always_nil, hp, eachStep_nil]
  | cons a as ih =>
    rw [always_cons, eachStep_cons]
    constructor
    · rintro ⟨-, h⟩
      have hp' := h.start
      exact ⟨(hP s a hs hp).mp hp', (ih (hI s a hs) hp').mp h⟩
    · rintro ⟨hc, h⟩
      have hp' := (hP s a hs hp).mpr hc
      exact ⟨hp, (ih (hI s a hs) hp').mpr h⟩

/-! ## Outputs and simulation -/

/-- What the inputs of a run put out, in order. -/
def outputs {β : Type*} (step : σ → α → σ) (out : σ → α → List β) : σ → List α → List β
  | _, [] => []
  | s, a :: as => out s a ++ outputs step out (step s a) as

theorem outputs_append {β : Type*} (out : σ → α → List β) (s : σ) (as bs : List α) :
    outputs step out s (as ++ bs) =
      outputs step out s as ++ outputs step out (run step s as) bs := by
  induction as generalizing s with
  | nil => rfl
  | cons a as ih => rw [List.cons_append, outputs, outputs, run_cons, ih, List.append_assoc]

/-- **Simulation.** If every step is matched by a run of another system on what the step puts
out, then so is every run. -/
theorem run_simulates {τ β : Type*} {step' : τ → β → τ} {out : σ → α → List β} {R : σ → τ → Prop}
    (hstep : ∀ s t a, R s t → R (step s a) (run step' t (out s a))) {s : σ} {t : τ} (h : R s t)
    (as : List α) : R (run step s as) (run step' t (outputs step out s as)) := by
  induction as generalizing s t with
  | nil => exact h
  | cons a as ih =>
    rw [run_cons, outputs, run_append]
    exact ih (hstep s t a h)

/-! ## History -/

/-- The invariant rule for a property of the state and of the inputs that led to it. -/
theorem run_inv_history {P : List α → σ → Prop} {s : σ} (hs : P [] s)
    (hstep : ∀ pre a, P pre (run step s pre) → P (pre ++ [a]) (step (run step s pre) a))
    (as : List α) : P as (run step s as) := by
  induction as using List.reverseRecOn with
  | nil => exact hs
  | append_singleton pre a ih =>
    rw [run_snoc]
    exact hstep pre a ih

/-- The same, for the steps that satisfy `C`. -/
theorem EachStep.inv_history {P : List α → σ → Prop} {C : σ → α → Prop} {s : σ} {as : List α}
    (has : EachStep step C s as) (hs : P [] s)
    (hstep : ∀ pre a, C (run step s pre) a → P pre (run step s pre) →
      P (pre ++ [a]) (step (run step s pre) a)) :
    ∀ pre, pre <+: as → P pre (run step s pre) := by
  intro pre hpre
  induction pre using List.reverseRecOn with
  | nil => exact hs
  | append_singleton pre a ih =>
    rw [run_snoc]
    exact hstep pre a (has pre a hpre) (ih ((List.prefix_append ..).trans hpre))

/-- Some input of the run satisfies `C` in the state that takes it. -/
def Happened (step : σ → α → σ) (C : σ → α → Prop) (s : σ) (as : List α) : Prop :=
  ∃ pre a, pre ++ [a] <+: as ∧ C (run step s pre) a

theorem Happened.snoc {C : σ → α → Prop} {s : σ} {as : List α} (h : Happened step C s as) (a : α) :
    Happened step C s (as ++ [a]) := by
  obtain ⟨pre, b, hb, hc⟩ := h
  exact ⟨pre, b, hb.trans (List.prefix_append ..), hc⟩

theorem happened_last {C : σ → α → Prop} {s : σ} {as : List α} {a : α}
    (h : C (run step s as) a) : Happened step C s (as ++ [a]) :=
  ⟨as, a, List.prefix_refl _, h⟩

end Muchiwachi.Lib
