import Muchiwachi.Config

/-!
# Boot and first push

`do_boot_to_idle` and `do_state_idle` read the configuration mark into a local that is not
initialised, and look at the local whether the read delivered something or not. So what they do
depends on NVRAM alone exactly when both reads deliver a byte (`firstPush_exact`).
-/

namespace Muchiwachi

open Lib MainFsm

/-- The same answers from outside, other garbage on the stack. -/
def Env.withGarbage (env : Env) (g : UInt8) : Env := { env with configValid := g }

/-- The watch after a boot and a push of a button. -/
def firstPush (boot push : Env) (e : MEvent) (nv : Nvram) : Watch :=
  mainfsmProcessEvent push e (created boot nv)

/-! ## What the two handlers do -/

section

variable (env : Env) (nv : Nvram)

/-- `BOOT_DONE` starts advertising if the local is nonzero. -/
theorem discoverable_created : (created env nv).chip.discoverable =
    if configSeen env nv ≠ 0 then .lowUndirectedDiscoverable else .noDiscoverable := by
  have hidle : (booting env nv).chip.discoverable = .noDiscoverable :=
    (onlyStore_booting env nv).discoverable
  rw [created_eq]
  show (startIfConfigured env (booting env nv)).chip.discoverable = _
  unfold startIfConfigured
  simp only [readConfigValid_fst, nvram_booting]
  split
  · rfl
  · exact hidle

variable {env} {w : Watch} {e : MEvent}

/-- A push in `IDLE` shows the time if the local is nonzero, and the configuration if not. -/
theorem process_push (h : w.mainState = .idle) (he : e = .nextPush ∨ e = .acceptPush) :
    mainfsmProcessEvent env e w =
      if configSeen env w.chip.nvram ≠ 0 then (readConfigValid env w).2.inState .time
      else (displayPowerOn (readConfigValid env w).2).inState .cfg := by
  rw [← readConfigValid_fst]
  have hs := mainStep env e w
  generalize mainfsmProcessEvent env e w = w' at hs ⊢
  cases hs with
  | toTime _ _ hv => rw [if_pos hv]
  | toCfg _ _ hv => rw [if_neg (not_not.mpr hv)]
  | ignored hi => rcases he with rfl | rfl <;> simp [ignores, h] at hi
  | message hm => rcases hm with hm | hm <;> simp [hm] at h
  | tick => simp at he
  | boot hm | nextKey hm | acceptKey hm | confirm hm | dismiss hm | tilt hm | untilt hm | blank hm
  | inactive hm | inactiveRadar hm | push hm | wakeup hm | longInactive hm | hold hm | holdRadar hm
  | release hm | releaseRadar hm => exact absurd (hm.symm.trans h) (by decide)

theorem mainState_firstPush (boot push : Env) (he : e = .nextPush ∨ e = .acceptPush) :
    (firstPush boot push e nv).mainState = if configSeen push nv ≠ 0 then .time else .cfg := by
  rw [firstPush, process_push (mainState_created boot nv) he, nvram_created]
  split <;> rfl

end

/-! ## The garbage -/

/-- A read that delivers a byte overwrites the garbage. -/
theorem configSeen_of_read {env : Env} {nv : Nvram} (hrec : nv nvmConfigIsValid ≠ [])
    (hok : env.readOk nvmConfigIsValid = true) :
    configSeen env nv = (nv nvmConfigIsValid).headD 0 := by
  rw [configSeen, if_pos hok]
  cases h : nv nvmConfigIsValid with
  | nil => exact absurd h hrec
  | cons b bs => rfl

/-- A read that delivers nothing leaves it. -/
theorem configSeen_withGarbage {env : Env} {nv : Nvram}
    (h : nv nvmConfigIsValid = [] ∨ env.readOk nvmConfigIsValid = false) (g : UInt8) :
    configSeen (env.withGarbage g) nv = g := by
  unfold configSeen Env.withGarbage
  rcases h with hrec | hok
  · simp [hrec]
  · simp [hok]

theorem created_withGarbage {boot : Env} {nv : Nvram} (hrec : nv nvmConfigIsValid ≠ [])
    (hok : boot.readOk nvmConfigIsValid = true) (g : UInt8) :
    created (boot.withGarbage g) nv = created boot nv := by
  have hseen : configSeen (boot.withGarbage g) nv = configSeen boot nv := by
    rw [configSeen_of_read hrec hok]
    exact configSeen_of_read hrec hok
  have hbooting : booting (boot.withGarbage g) nv = booting boot nv := rfl
  rw [created_eq, created_eq, hbooting]
  congr 2
  unfold startIfConfigured
  simp only [readConfigValid_fst, nvram_booting, hseen]
  rfl

/-! ## The decision -/

/-- Whatever was on the stack, advertising starts at boot and a push shows the time exactly where
a mark is stored; and what was on the stack makes no difference to the watch. -/
def DecidedByNvram (boot push : Env) (nv : Nvram) : Prop :=
  ∀ g g' e, e = .nextPush ∨ e = .acceptPush →
    ((created (boot.withGarbage g) nv).chip.discoverable = .lowUndirectedDiscoverable ↔
      configMarked nv = true) ∧
    (firstPush (boot.withGarbage g) (push.withGarbage g') e nv).mainState =
      (if configMarked nv then .time else .cfg) ∧
    firstPush (boot.withGarbage g) (push.withGarbage g') e nv = firstPush boot push e nv

/-- **When the decision depends on NVRAM alone**: a `CONFIG_IS_VALID` record is stored and both
reads of it succeed. -/
theorem firstPush_exact (boot push : Env) (nv : Nvram) :
    DecidedByNvram boot push nv ↔ nv nvmConfigIsValid ≠ [] ∧
      boot.readOk nvmConfigIsValid = true ∧ push.readOk nvmConfigIsValid = true := by
  constructor
  · intro h
    have hboot : ¬ (nv nvmConfigIsValid = [] ∨ boot.readOk nvmConfigIsValid = false) := by
      intro hgarbage
      -- garbage 0 and garbage 1 differ in whether advertising starts
      have h0 := (h 0 0 .nextPush (.inl rfl)).1
      have h1 := (h 1 0 .nextPush (.inl rfl)).1
      rw [discoverable_created, configSeen_withGarbage hgarbage] at h0 h1
      have hmark : configMarked nv = true := h1.mp rfl
      exact absurd (h0.mpr hmark) (by decide)
    have hpush : push.readOk nvmConfigIsValid ≠ false := by
      intro hfail
      have h0 := (h 0 0 .nextPush (.inl rfl)).2.1
      have h1 := (h 0 1 .nextPush (.inl rfl)).2.1
      rw [mainState_firstPush _ _ _ (.inl rfl), configSeen_withGarbage (.inr hfail)] at h0 h1
      exact absurd (h0.trans h1.symm) (by decide)
    rw [not_or] at hboot
    exact ⟨hboot.1, by simpa using hboot.2, by simpa using hpush⟩
  · rintro ⟨hrec, hboot, hpush⟩ g g' e he
    have hseen : ∀ {env : Env} g, env.readOk nvmConfigIsValid = true →
        configSeen (env.withGarbage g) nv = (nv nvmConfigIsValid).headD 0 :=
      fun g hok => configSeen_of_read hrec hok
    refine ⟨?_, ?_, ?_⟩
    · rw [discoverable_created, hseen g hboot, configMarked]
      simp
    · rw [mainState_firstPush _ _ _ he, hseen g' hpush, configMarked]
      simp
    · rw [firstPush, firstPush, created_withGarbage hrec hboot,
        process_push (mainState_created ..) he, process_push (mainState_created ..) he,
        nvram_created, hseen g' hpush, configSeen_of_read hrec hpush]
      rfl

/-- A factory-fresh watch with garbage on the stack. -/
theorem fresh_watch_undecided : ¬ DecidedByNvram (nominalEnv 0) (nominalEnv 0) fun _ => [] := by
  intro h
  have hfresh := (h 1 0 .nextPush (.inl rfl)).1
  exact absurd hfresh (by decide +kernel)

end Muchiwachi
