import Muchiwachi.Config

/-!
# Advertising without a configuration

`do_boot_to_idle` and `do_cfg_to_time` look at the configuration mark before they start
advertising. The handlers of `TIME` and `RADAR` do not: they rely on the mark being set by the
time `TIME` is entered, which a failed save breaks. In the runs in which the mark is not lost on the
way to `TIME` every start finds it (`startsMarked_of_saved`); where it is lost, the next push starts
advertising without it (`startsUnmarked_of_lost`).
-/

namespace Muchiwachi

open Lib MainFsm

/-! ## The mark when advertising is started -/

/-- The first call of `grpr_start_adverts`. -/
def Call.startsAdverts : Call → Bool
  | .generateAdvData _ => true
  | _ => false

/-- For a call that starts advertising, whether the mark is stored at that moment. -/
def startMark (c : Chip) (k : Call) : List Bool :=
  if k.startsAdverts then [configMarked c.nvram] else []

/-- Each time the main event starts advertising, the mark is stored. -/
def Input.StartsMarked (w : Watch) : Input → Prop
  | .event env e => ∀ marked ∈ w.seenSince startMark (handle w (.event env e)), marked = true
  | _ => True

instance (w : Watch) (i : Input) : Decidable (i.StartsMarked w) :=
  match i with
  | .event _ _ => inferInstanceAs (Decidable (∀ _ ∈ _, _))
  | .advTimeout _ => inferInstanceAs (Decidable True)
  | .report _ _ => inferInstanceAs (Decidable True)

/-- What is seen of `grpr_start_adverts`, if not its other two calls. -/
theorem Emits.startAdverts {β : Type*} {obs : Chip → Call → List β}
    (hpower : ∀ c dbm, obs c (.setTxPowerInAdv dbm) = [])
    (hmode : ∀ c mode, obs c (.discoverable mode) = []) (env : Env) (flags : UInt8) (w : Watch) :
    Emits obs (obs w.chip (.generateAdvData (advFields env flags w))) w
      (grprStartAdverts env flags w) := by
  have htx : ∀ w, Emits obs [] w (w.call (.setTxPowerInAdv 4)) :=
    fun w => hpower w.chip 4 ▸ Emits.call (.setTxPowerInAdv 4) w
  have hdisc : ∀ w, Emits obs [] w (w.call (.discoverable .lowUndirectedDiscoverable)) :=
    fun w => hmode w.chip _ ▸ Emits.call (.discoverable .lowUndirectedDiscoverable) w
  exact ((Emits.call (.generateAdvData (advFields env flags w)) w).then_nil (htx _)).then_nil
    (hdisc _)

section

variable (env : Env) (w : Watch)

theorem emits_startAdverts (flags : UInt8) :
    Emits startMark [configMarked w.chip.nvram] w (grprStartAdverts env flags w) :=
  .startAdverts (fun _ _ => rfl) (fun _ _ => rfl) env flags w

/-- Calls that start no advertising. -/
theorem startMark_eq_nil (c : Chip) {k : Call} (h : k.kind ≠ .advertiser) : startMark c k = [] := by
  cases k with
  | generateAdvData => exact absurd rfl h
  | _ => rfl

theorem emits_displayOff : Emits startMark [] w (displayOff w) :=
  (issues_displayOff w).emits fun c _ h => startMark_eq_nil c (by simp [h])

theorem emits_displayPowerOn : Emits startMark [] w (displayPowerOn w) :=
  (issues_displayPowerOn w).emits fun c _ h => startMark_eq_nil c (by simp [h])

theorem emits_readConfigValid : Emits startMark [] w (readConfigValid env w).2 :=
  (issues_readConfigValid env w).emits fun c _ h => startMark_eq_nil c (by simp [h])

theorem emits_readAvatar : Emits startMark [] w (readAvatar env w) :=
  (issues_readAvatar env w).emits fun c _ h => startMark_eq_nil c (by simp [h])

theorem emits_saveConfig : Emits startMark [] w (saveConfig env w) :=
  (issues_saveConfig env w).emits fun c _ h => startMark_eq_nil c (by simp [h])

/-- `startIfConfigured` starts advertising if the local is nonzero. -/
theorem emits_startIfConfigured :
    Emits startMark (if configSeen env w.chip.nvram ≠ 0 then [configMarked w.chip.nvram] else []) w
      (startIfConfigured env w) := by
  have hread := emits_readConfigValid env w
  unfold startIfConfigured
  simp only [readConfigValid_fst]
  split
  · exact (hread.nil_trans (emits_readAvatar env _)).nil_trans (emits_startAdverts env _ 0)
  · exact hread

/-- `GROUPING_START` starts advertising unless the watch is grouping. -/
theorem emits_groupfsm_start :
    Emits startMark (if w.groupState = .idle then [configMarked w.chip.nvram] else []) w
      (groupfsmProcessEvent env .groupingStart w) := by
  cases hg : w.groupState with
  | idle =>
    rw [groupfsm_start hg]
    exact (emits_startAdverts env w flagGrouping).then_ram rfl rfl
  | grouping =>
    rw [groupfsm_start_grouping hg]
    exact .ram rfl rfl

/-- `GROUPING_STOP` starts advertising if the watch is grouping. -/
theorem emits_groupfsm_stop :
    Emits startMark (if w.groupState = .grouping then [configMarked w.chip.nvram] else []) w
      (groupfsmProcessEvent env .groupingStop w) := by
  cases hg : w.groupState with
  | idle =>
    rw [groupfsm_stop_idle hg]
    exact .ram rfl rfl
  | grouping =>
    rw [groupfsm_stop hg]
    exact (emits_startAdverts env w 0).then_ram rfl rfl

end

/-! ## What a main event starts -/

/-- The event starts advertising without a look at the mark. -/
def startsUnchecked (w : Watch) (e : MEvent) : Bool :=
  match w.mainState, e with
  | .time, .nextPush => true
  | .time, .wakeup => !w.ignoreWake
  | .time, .bothHold | .radar, .bothHold => w.groupState = .idle
  | .time, .bothRelease | .radar, .bothRelease => w.groupState = .grouping
  | _, _ => false

/-- The event starts advertising if it finds the mark. -/
def startsChecked (w : Watch) (e : MEvent) : Prop :=
  w.mainState = .boot ∧ e = .bootDone ∨ confirms w e

instance (w : Watch) (e : MEvent) : Decidable (startsChecked w e) :=
  inferInstanceAs (Decidable (_ ∨ _))

/-- NVRAM when the event looks at the mark. -/
def nvramAtCheck (env : Env) (w : Watch) (e : MEvent) : Nvram :=
  if confirms w e then applyWrites w.chip.nvram (confirmWrites env w) else w.chip.nvram

/-- What the starts of a main event find. -/
def stepMarks (env : Env) (w : Watch) (e : MEvent) : List Bool :=
  let nv := nvramAtCheck env w e
  if startsUnchecked w e ∨ startsChecked w e ∧ configSeen env nv ≠ 0 then [configMarked nv] else []

theorem stepMarks_quiet {env : Env} {w : Watch} {e : MEvent} (hu : startsUnchecked w e = false)
    (hc : ¬ startsChecked w e) : stepMarks env w e = [] := if_neg (by simp [hu, hc])

theorem stepMarks_unchecked {env : Env} {w : Watch} {e : MEvent} (hc : ¬ startsChecked w e) :
    stepMarks env w e = if startsUnchecked w e then [configMarked w.chip.nvram] else [] := by
  have hnv : nvramAtCheck env w e = w.chip.nvram := if_neg fun h => hc (.inr h)
  simp [stepMarks, hc, hnv]

theorem stepMarks_noAdvertiser {env : Env} {w : Watch} {e : MEvent}
    (h : .advertiser ∉ stepKinds w e) : stepMarks env w e = [] := by
  refine stepMarks_quiet ?_ ?_
  · unfold startsUnchecked
    split <;> simp_all [stepKinds]
  · rintro (⟨hm, rfl⟩ | ⟨rfl, hm, -⟩) <;> simp [stepKinds, hm] at h

theorem MainStep.emits {env : Env} {e : MEvent} {w w' : Watch} (hs : MainStep env e w w') :
    Emits startMark (stepMarks env w e) w w' := by
  have hissues := hs.issues
  by_cases ha : .advertiser ∈ stepKinds w e
  · cases hs with
    | boot hm =>
      have hmarks : stepMarks env w .bootDone =
          if configSeen env w.chip.nvram ≠ 0 then [configMarked w.chip.nvram] else [] := by
        simp [stepMarks, startsUnchecked, startsChecked, nvramAtCheck, confirms, hm]
      rw [hmarks]
      exact ((emits_startIfConfigured env w).then_nil (emits_displayOff _)).then_ram rfl rfl
    | confirm hm hc =>
      have hnv : (saveConfig env (displayKeypress .accept w).2).chip.nvram =
          nvramAtCheck env w .acceptPush := by
        rw [nvramAtCheck, if_pos ⟨rfl, hm, hc⟩]
        exact (writes_saveConfig env (displayKeypress .accept w).2).nvram
      have hmarks : stepMarks env w .acceptPush =
          if configSeen env (nvramAtCheck env w .acceptPush) ≠ 0
            then [configMarked (nvramAtCheck env w .acceptPush)] else [] := by
        simp [stepMarks, startsUnchecked, startsChecked, confirms, hm, hc]
      have hkey : Emits startMark [] w (displayKeypress .accept w).2 := .ram rfl rfl
      have hstart := emits_startIfConfigured env (saveConfig env (displayKeypress .accept w).2)
      rw [hnv] at hstart
      rw [hmarks]
      exact (hkey.nil_trans ((emits_saveConfig env _).nil_trans hstart)).then_ram rfl rfl
    | push hm =>
      have hmarks : stepMarks env w .nextPush = [configMarked w.chip.nvram] := by
        simp [stepMarks_unchecked, startsUnchecked, startsChecked, confirms, hm]
      rw [hmarks]
      exact ((emits_displayPowerOn w).then_ram rfl rfl).nil_trans (emits_startAdverts env _ 0)
    | wakeup hm hi =>
      have hmarks : stepMarks env w .wakeup = [configMarked w.chip.nvram] := by
        simp [stepMarks_unchecked, startsUnchecked, startsChecked, confirms, hm, hi]
      rw [hmarks]
      exact (emits_displayPowerOn w).nil_trans (emits_startAdverts env _ 0)
    | hold hm =>
      have hmarks : stepMarks env w .bothHold =
          if w.groupState = .idle then [configMarked w.chip.nvram] else [] := by
        simp [stepMarks_unchecked, startsUnchecked, startsChecked, confirms, hm]
      rw [hmarks]
      exact (((emits_displayPowerOn w).nil_trans (emits_groupfsm_start env _)).then_nil
        (Emits.call (.scan .lowScan) _)).then_ram rfl rfl
    | holdRadar hm =>
      have hmarks : stepMarks env w .bothHold =
          if w.groupState = .idle then [configMarked w.chip.nvram] else [] := by
        simp [stepMarks_unchecked, startsUnchecked, startsChecked, confirms, hm]
      rw [hmarks]
      exact emits_groupfsm_start env w
    | release hm =>
      have hmarks : stepMarks env w .bothRelease =
          if w.groupState = .grouping then [configMarked w.chip.nvram] else [] := by
        simp [stepMarks_unchecked, startsUnchecked, startsChecked, confirms, hm]
      rw [hmarks]
      exact emits_groupfsm_stop env w
    | releaseRadar hm =>
      have hmarks : stepMarks env w .bothRelease =
          if w.groupState = .grouping then [configMarked w.chip.nvram] else [] := by
        simp [stepMarks_unchecked, startsUnchecked, startsChecked, confirms, hm]
      rw [hmarks]
      exact ((emits_groupfsm_stop env w).then_nil (Emits.call (.scan .noScan) _)).then_ram rfl rfl
    | longInactive hm =>
      rw [stepMarks_quiet (by simp [startsUnchecked]) (by simp [startsChecked, confirms])]
      exact Emits.call (.discoverable .noDiscoverable) w
    | acceptKey hm hc =>
      rw [stepMarks_quiet (by simp [startsUnchecked, hm]) (by simp [startsChecked, confirms, hc])]
      exact .ram rfl rfl
    | ignored hi =>
      rw [stepMarks_quiet]
      · exact .ram rfl rfl
      · unfold startsUnchecked
        split <;> simp_all [ignores]
      · rintro (⟨hm, rfl⟩ | ⟨rfl, hm, -⟩) <;> simp [ignores, hm] at hi
    | toTime hm he | toCfg hm he => rcases he with rfl | rfl <;> simp [stepKinds, hm] at ha
    | message hm => rcases hm with hm | hm <;> simp [stepKinds, hm] at ha
    | tick ht => simp [stepKinds_tick ht] at ha
    | nextKey hm | dismiss hm | tilt hm | untilt hm | blank hm | inactive hm | inactiveRadar hm =>
      simp [stepKinds, hm] at ha
  · rw [stepMarks_noAdvertiser ha]
    exact hissues.emits fun c k hk => startMark_eq_nil c fun hadv => ha (hadv ▸ hk)

/-! ## Starts without a mark -/

/-- Both writes of a confirmed configuration succeed. -/
def Env.SavesConfig (env : Env) : Prop :=
  env.writeOk nvmAvatarCode = true ∧ env.writeOk nvmConfigIsValid = true

instance (env : Env) : Decidable env.SavesConfig := inferInstanceAs (Decidable (_ ∧ _))

/-- The read of the mark delivers nothing and what is on the stack is not zero. -/
def Env.MarkFromStack (env : Env) (nv : Nvram) : Prop :=
  env.configValid ≠ 0 ∧ (env.readOk nvmConfigIsValid = false ∨ nv nvmConfigIsValid = [])

/-- Advertising is started though no mark is stored: by an event that does not look for it, or by
one that takes what is on the stack for it. -/
def Input.startsUnmarked (w : Watch) : Input → Prop
  | .event env e => configMarked w.chip.nvram = false ∧
      (startsUnchecked w e = true ∨ startsChecked w e ∧
        ¬ (Muchiwachi.confirms w e ∧ env.SavesConfig) ∧ env.MarkFromStack w.chip.nvram)
  | _ => False

section

variable {env : Env} {nv : Nvram}

/-- Without a mark, only the stack can say that there is one. -/
theorem configSeen_unmarked (h : configMarked nv = false) :
    configSeen env nv ≠ 0 ↔ env.MarkFromStack nv := by
  have hzero := of_decide_eq_false h
  unfold configSeen Env.MarkFromStack
  cases env.readOk nvmConfigIsValid with
  | false => simp
  | true =>
    cases hrec : nv nvmConfigIsValid with
    | nil => simp
    | cons b bs => simpa [hrec] using hzero

/-- The mark after the writes of a confirmation. -/
theorem mark_confirmWrites (w : Watch) : applyWrites nv (confirmWrites env w) nvmConfigIsValid =
    if env.SavesConfig then [1] else nv nvmConfigIsValid := by
  unfold confirmWrites okWrite Env.SavesConfig
  by_cases ha : env.writeOk nvmAvatarCode = true <;>
    by_cases hm : env.writeOk nvmConfigIsValid = true <;>
      simp [ha, hm, show nvmConfigIsValid ≠ nvmAvatarCode by decide]

theorem mark_nvramAtCheck (w : Watch) (e : MEvent) : nvramAtCheck env w e nvmConfigIsValid =
    if confirms w e ∧ env.SavesConfig then [1] else w.chip.nvram nvmConfigIsValid := by
  unfold nvramAtCheck
  by_cases hc : confirms w e
  · simp only [hc, if_true, mark_confirmWrites, true_and]
  · simp only [hc, if_false, false_and]

/-- The starts of a main event all find the mark unless it starts without one. -/
theorem stepMarks_iff (w : Watch) (e : MEvent) :
    (∀ marked ∈ stepMarks env w e, marked = true) ↔ ¬ (Input.event env e).startsUnmarked w := by
  have hmark : nvramAtCheck env w e nvmConfigIsValid = _ := mark_nvramAtCheck w e
  have hiff : (∀ marked ∈ stepMarks env w e, marked = true) ↔
      ¬ (configMarked (nvramAtCheck env w e) = false ∧ (startsUnchecked w e = true ∨
        startsChecked w e ∧ configSeen env (nvramAtCheck env w e) ≠ 0)) := by
    unfold stepMarks
    simp only
    split
    · next h => simp [h]
    · next h => simp [h]
  rw [hiff]
  by_cases hs : confirms w e ∧ env.SavesConfig
  · -- the mark has just been written
    rw [if_pos hs] at hmark
    have hunchecked : startsUnchecked w e = false := by
      obtain ⟨⟨rfl, hm, -⟩, -⟩ := hs
      simp [startsUnchecked, hm]
    refine iff_of_true (fun h => ?_) (fun h => ?_)
    · simp [configMarked, hmark] at h
    · rcases h.2 with hu | hc
      · rw [hunchecked] at hu
        cases hu
      · exact hc.2.1 hs
  · rw [if_neg hs] at hmark
    have hmarked : configMarked (nvramAtCheck env w e) = configMarked w.chip.nvram := by
      rw [configMarked, configMarked, hmark]
    have hseen : configSeen env (nvramAtCheck env w e) = configSeen env w.chip.nvram := by
      rw [configSeen, configSeen, hmark]
    rw [hmarked, hseen, not_iff_not]
    refine and_congr_right fun hm => or_congr_right (and_congr_right fun _ => ?_)
    rw [configSeen_unmarked hm]
    exact ⟨fun h => ⟨hs, h⟩, And.right⟩

end

theorem startsMarked_handle (w : Watch) (i : Input) : i.StartsMarked w ↔ ¬ i.startsUnmarked w := by
  cases i with
  | event env e =>
    rw [← stepMarks_iff, ← (mainStep env e w).emits.seenSince]
    rfl
  | advTimeout env => exact iff_of_true trivial not_false
  | report env r => exact iff_of_true trivial not_false

/-- The user confirms an avatar that cannot be saved, and wakes the watch up. -/
def sampleUnsaved : List Input :=
  let env := nominalEnv 0
  ([.bootDone, .nextPush, .acceptPush].map fun e => .event env e) ++
    [.event { env with writeOk := fun _ => false } .acceptPush, .event env .nextPush]

theorem advertises_unsaved :
    ¬ EachStep handle (fun w i => i.StartsMarked w) (booting (nominalEnv 0) fun _ => [])
      sampleUnsaved := by
  intro h
  have hlast := h (sampleUnsaved.take 4) (.event (nominalEnv 0) .nextPush) (List.prefix_refl _)
  exact absurd hlast (by decide +kernel)

/-! ## How the mark comes to be missing -/

/-- The states past the configuration. -/
def MState.running : MState → Bool
  | .time | .radar | .message => true
  | .boot | .idle | .cfg => false

/-- The event looks at the mark, and saves none before. -/
def looksAtMark (w : Watch) (e : MEvent) : Prop :=
  w.mainState = .boot ∧ e = .bootDone ∨ w.mainState = .idle ∧ (e = .nextPush ∨ e = .acceptPush)

instance (w : Watch) (e : MEvent) : Decidable (looksAtMark w e) :=
  inferInstanceAs (Decidable (_ ∨ _))

instance (env : Env) (nv : Nvram) : Decidable (env.MarkFromStack nv) :=
  inferInstanceAs (Decidable (_ ∧ _))

/-- While no mark is stored, a confirmed configuration is not saved, or what is on the stack is
taken for a mark. -/
def Input.losesMark (w : Watch) : Input → Prop
  | .event env e => configMarked w.chip.nvram = false ∧
      (Muchiwachi.confirms w e ∧ ¬ env.SavesConfig ∨
        looksAtMark w e ∧ env.MarkFromStack w.chip.nvram)
  | _ => False

instance (w : Watch) (i : Input) : Decidable (i.losesMark w) :=
  match i with
  | .event _ _ => inferInstanceAs (Decidable (_ ∧ _))
  | .advTimeout _ => inferInstanceAs (Decidable False)
  | .report _ _ => inferInstanceAs (Decidable False)

/-- Past the configuration the mark is stored. -/
def Watch.MarkWhenRunning (w : Watch) : Prop :=
  w.mainState.running = true → configMarked w.chip.nvram = true

/-- The states past the configuration are entered by a push that sees a mark, or by confirming. -/
theorem MainStep.running {env : Env} {e : MEvent} {w w' : Watch} (hs : MainStep env e w w')
    (h : w'.mainState.running = true) : w.mainState.running = true ∨ confirms w e ∨
      w.mainState = .idle ∧ (e = .nextPush ∨ e = .acceptPush) ∧
        configSeen env w.chip.nvram ≠ 0 := by
  cases hs with
  | toTime hi he hv => exact .inr (.inr ⟨hi, he, by rwa [readConfigValid_fst] at hv⟩)
  | confirm hm hc => exact .inr (.inl ⟨rfl, hm, hc⟩)
  | boot | toCfg => cases h
  | message hm => exact .inl (by rcases hm with hm | hm <;> rw [hm] <;> rfl)
  | tick => exact .inl (by simpa using h)
  | nextKey hm | acceptKey hm => simp [hm, MState.running] at h
  | ignored => exact .inl h
  | dismiss hm | tilt hm | untilt hm | blank hm | inactive hm | inactiveRadar hm | push hm
  | wakeup hm | longInactive hm | hold hm | holdRadar hm | release hm | releaseRadar hm =>
    exact .inl (by rw [hm]; rfl)

/-- The states past the configuration are not left. -/
theorem MainStep.stays_running {env : Env} {e : MEvent} {w w' : Watch} (hs : MainStep env e w w')
    (h : w.mainState.running = true) : w'.mainState.running = true := by
  cases hs with
  | boot hm | toTime hm | toCfg hm | nextKey hm | acceptKey hm | confirm hm =>
    rw [hm] at h
    cases h
  | message | dismiss | tilt | untilt | inactiveRadar | hold | releaseRadar => rfl
  | tick => simpa using h
  | ignored => exact h
  | blank hm | inactive hm | push hm | wakeup hm | longInactive hm | holdRadar hm | release hm =>
    simp [hm, MState.running, displayOff, displayPowerOn, grprStopAdverts]

/-- `CFG` is not entered again. -/
theorem running_handle {w : Watch} (h : w.mainState.running = true) (i : Input) :
    (handle w i).mainState.running = true := by
  cases i with
  | advTimeout env => exact h
  | report env r =>
    have hstate : (handle w (.report env r)).mainState = w.mainState :=
      (onlyStore_report env r w).mainState
    rw [hstate]
    exact h
  | event env e => exact (mainStep env e w).stays_running h

/-- The mark after a main event. -/
theorem mark_event (env : Env) (w : Watch) (e : MEvent) :
    (mainfsmProcessEvent env e w).chip.nvram nvmConfigIsValid =
      if confirms w e ∧ env.SavesConfig then [1] else w.chip.nvram nvmConfigIsValid := by
  rw [← mark_nvramAtCheck, (mainStep env e w).writes.nvram]
  unfold nvramAtCheck
  split <;> rfl

/-- Reports leave the mark alone. -/
theorem mark_report (env : Env) (r : AdvReport) (w : Watch) :
    (grprProcessAdverts env r w).chip.nvram nvmConfigIsValid =
      w.chip.nvram nvmConfigIsValid := by
  obtain ⟨ws, hws, hkeys⟩ := writes_report env r w
  rw [hws.nvram, (config_records_other hkeys _).1]

/-- A stored mark stays. -/
theorem configMarked_handle {w : Watch} (h : configMarked w.chip.nvram = true) (i : Input) :
    configMarked (handle w i).chip.nvram = true := by
  cases i with
  | advTimeout env => exact h
  | report env r =>
    have hnv := mark_report env r w
    rwa [configMarked, ← hnv] at h
  | event env e =>
    have hnv : (handle w (.event env e)).chip.nvram nvmConfigIsValid = _ := mark_event env w e
    rw [configMarked, hnv]
    split
    · rfl
    · exact h

theorem markWhenRunning_handle {w : Watch} {i : Input} (hi : ¬ i.losesMark w)
    (h : w.MarkWhenRunning) : (handle w i).MarkWhenRunning := by
  intro hrun
  cases i with
  | advTimeout env => exact configMarked_handle (h hrun) _
  | report env r =>
    have hstate : (handle w (.report env r)).mainState = w.mainState :=
      (onlyStore_report env r w).mainState
    exact configMarked_handle (h (hstate ▸ hrun)) _
  | event env e =>
    rcases (mainStep env e w).running hrun with hw | hconf | ⟨hidle, he, hseen⟩
    · exact configMarked_handle (h hw) _
    · by_cases hsaves : env.SavesConfig
      · have hnv : (handle w (.event env e)).chip.nvram nvmConfigIsValid = _ := mark_event env w e
        rw [if_pos ⟨hconf, hsaves⟩] at hnv
        rw [configMarked, hnv]
        rfl
      · refine configMarked_handle ?_ _
        by_contra hm
        exact hi ⟨Bool.not_eq_true _ ▸ hm, .inl ⟨hconf, hsaves⟩⟩
    · refine configMarked_handle ?_ _
      by_contra hm
      rw [Bool.not_eq_true] at hm
      exact hi ⟨hm, .inr ⟨.inr ⟨hidle, he⟩, (configSeen_unmarked hm).mp hseen⟩⟩

/-- With the mark stored past the configuration, an event starts advertising without it only if
it takes what is on the stack for it. -/
theorem Watch.MarkWhenRunning.startsMarked {w : Watch} (h : w.MarkWhenRunning) {i : Input}
    (hi : ¬ i.losesMark w) : i.StartsMarked w := by
  rw [startsMarked_handle]
  intro hstart
  cases i with
  | advTimeout env => exact hstart
  | report env r => exact hstart
  | event env e =>
    obtain ⟨hunmarked, hstarts⟩ := hstart
    rcases hstarts with hu | ⟨hboot | hconf, hunsaved, hstack⟩
    · have hrun : w.mainState.running = true := by
        unfold startsUnchecked at hu
        split at hu <;> simp_all [MState.running]
      rw [h hrun] at hunmarked
      cases hunmarked
    · exact hi ⟨hunmarked, .inr ⟨.inl hboot, hstack⟩⟩
    · exact hi ⟨hunmarked, .inl ⟨hconf, fun hs => hunsaved ⟨hconf, hs⟩⟩⟩

/-- **When advertising is started only with a configuration**: in the runs from `BOOT` in which,
while no mark is stored, every confirmed configuration is saved and no look at the mark takes what
is on the stack for it. -/
theorem startsMarked_of_saved (boot : Env) (nv : Nvram) {is : List Input}
    (h : EachStep handle (fun w i => ¬ i.losesMark w) (booting boot nv) is) :
    EachStep handle (fun w i => i.StartsMarked w) (booting boot nv) is := by
  have hboot : (booting boot nv).MarkWhenRunning := by
    intro hrun
    rw [(onlyStore_booting boot nv).mainState] at hrun
    cases hrun
  exact h.of_invariant (fun _ _ hi hw => markWhenRunning_handle hi hw) hboot
    fun _ _ hi hw => hw.startsMarked hi

/-- The user configures the watch, wakes it up, and groups. -/
def sampleSaved : List Input :=
  [.bootDone, .nextPush, .acceptPush, .acceptPush, .nextPush, .bothHold, .bothRelease].map
    fun e => .event (nominalEnv 0) e

theorem startsMarked_of_saved_sample :
    EachStep handle (fun w i => i.StartsMarked w) (booting (nominalEnv 0) fun _ => [])
      sampleSaved :=
  startsMarked_of_saved (nominalEnv 0) (fun _ => []) (by decide +kernel)

/-! ## What a lost mark leads to -/

/-- Confirming leads to `TIME`, and so does a push that sees a mark. -/
theorem MainStep.to_time {env : Env} {e : MEvent} {w w' : Watch} (hs : MainStep env e w w')
    (h : confirms w e ∨ w.mainState = .idle ∧ (e = .nextPush ∨ e = .acceptPush) ∧
      configSeen env w.chip.nvram ≠ 0) : w'.mainState = .time := by
  rcases h with ⟨rfl, hcfg, hok⟩ | ⟨hidle, he, hseen⟩
  · cases hs with
    | confirm => rfl
    | acceptKey _ hc => exact absurd hok hc
    | ignored hi => simp [ignores, hcfg] at hi
    | toTime hm | toCfg hm | dismiss hm | blank hm => cases hcfg.symm.trans hm
  · cases hs with
    | toTime => rfl
    | toCfg _ _ hv => exact absurd (readConfigValid_fst env w ▸ hv) hseen
    | ignored hi => rcases he with rfl | rfl <;> simp [ignores, hidle] at hi
    | message hm => rcases hm with hm | hm <;> simp [hidle] at hm
    | tick => rcases he with he | he <;> cases he
    | boot hm | nextKey hm | acceptKey hm | confirm hm | dismiss hm | tilt hm | untilt hm | blank hm
    | inactive hm | inactiveRadar hm | push hm | wakeup hm | longInactive hm | hold hm
    | holdRadar hm | release hm | releaseRadar hm => cases hidle.symm.trans hm

/-- A push in `TIME` without a mark. -/
theorem startsUnmarked_push {w : Watch} (ht : w.mainState = .time)
    (hm : configMarked w.chip.nvram = false) (env : Env) :
    (Input.event env .nextPush).startsUnmarked w :=
  ⟨hm, .inl (by simp [startsUnchecked, ht])⟩

/-- A lost mark is missed at once or by the next push. -/
theorem startsUnmarked_of_lost {w : Watch} {i : Input} (h : i.losesMark w) (env : Env) :
    ¬ EachStep handle (fun w i => i.StartsMarked w) w [i, .event env .nextPush] := by
  intro hall
  cases i with
  | advTimeout _ => exact h
  | report _ _ => exact h
  | event env' e =>
    obtain ⟨hunmarked, hlost⟩ := h
    have hnow := (startsMarked_handle _ _).mp (hall [] (.event env' e) (by simp))
    have hpush := (startsMarked_handle _ _).mp
      (hall [.event env' e] (.event env .nextPush) (List.prefix_refl _))
    have hnv : (handle w (.event env' e)).chip.nvram nvmConfigIsValid = _ := mark_event env' w e
    -- no mark is written, and the event leads to TIME unless it is the one in BOOT
    have hlater : ¬ (confirms w e ∧ env'.SavesConfig) →
        (confirms w e ∨ w.mainState = .idle ∧ (e = .nextPush ∨ e = .acceptPush) ∧
          configSeen env' w.chip.nvram ≠ 0) → False := by
      intro hunsaved hto
      rw [if_neg hunsaved] at hnv
      refine hpush (startsUnmarked_push ((mainStep env' e w).to_time hto) ?_ env)
      exact (congrArg (fun r : List UInt8 => decide (r.headD 0 ≠ 0)) hnv).trans hunmarked
    rcases hlost with ⟨hconf, hunsaved⟩ | ⟨⟨hboot, rfl⟩ | ⟨hidle, he⟩, hstack⟩
    · exact hlater (fun hs => hunsaved hs.2) (.inl hconf)
    · have hother : ¬ confirms w .bootDone := fun hc => by cases hc.1
      exact hnow ⟨hunmarked, .inr ⟨.inl ⟨hboot, rfl⟩, fun hs => hother hs.1, hstack⟩⟩
    · have hother : ¬ confirms w e := fun hc => by cases hidle.symm.trans hc.2.1
      exact hlater (fun hs => hother hs.1)
        (.inr ⟨hidle, he, (configSeen_unmarked hunmarked).mpr hstack⟩)

end Muchiwachi
