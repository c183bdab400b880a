import Muchiwachi.Outline

/-!
# Runs of the device

`device_refines` says that the watch in a device makes a run of `Watch.powerStep`, and
`device_shows` that the panel shows the last picture drawn. `device_keeps_settings` is about the
accelerometer, and `device_advertises` about an event that is never raised.
-/

namespace Muchiwachi

open Lib Lib.MemoryLcd Lib.SpiBus Lib.Raster MainFsm

section

variable {α : Type} {chip : Lis3dsh α}

/-! ## Advertising -/

/-- The stack advertises. -/
def Watch.Advertises (w : Watch) : Prop := w.chip.discoverable = .lowUndirectedDiscoverable

theorem advertises_startIfConfigured {w : Watch} (h : w.Advertises) (env : Env) :
    (startIfConfigured env w).Advertises := by
  unfold startIfConfigured
  simp only
  split
  · exact discoverable_startAdverts ..
  · exact h

theorem advertises_groupfsm {w : Watch} (h : w.Advertises) (env : Env) {type : GEvent}
    (htype : type ≠ .groupingAdv) : (groupfsmProcessEvent env type w).Advertises := by
  cases hg : w.groupState with
  | idle =>
    cases type with
    | groupingStart =>
      rw [groupfsm_start hg]
      exact discoverable_startAdverts ..
    | groupingStop => rwa [groupfsm_stop_idle hg]
    | groupingAdv => exact absurd rfl htype
  | grouping =>
    cases type with
    | groupingStart => rwa [groupfsm_start_grouping hg]
    | groupingStop =>
      rw [groupfsm_stop hg]
      exact discoverable_startAdverts ..
    | groupingAdv => exact absurd rfl htype

/-- Only one event has the main state machine stop advertising. -/
theorem MainStep.advertises {env : Env} {e : MEvent} {w w' : Watch} (hs : MainStep env e w w')
    (he : e ≠ .longInactive) (h : w.Advertises) : w'.Advertises := by
  cases hs with
  | longInactive => exact absurd rfl he
  | boot => exact advertises_startIfConfigured h env
  | confirm =>
    have hsaved : (saveConfig env (displayKeypress .accept w).2).Advertises := by
      obtain ⟨_, _, heq⟩ := saveConfig_eq env (displayKeypress .accept w).2
      rw [heq]
      exact h
    exact advertises_startIfConfigured hsaved env
  | push | wakeup => exact discoverable_startAdverts ..
  | hold =>
    have hon : (displayPowerOn w).Advertises := h
    exact advertises_groupfsm hon env (by decide)
  | holdRadar | release | releaseRadar => exact advertises_groupfsm h env (by decide)
  | nextKey | tick => exact (discoverable_displayUpdate ..).trans h
  | tilt | untilt =>
    show (displayUpdate env w).Advertises
    exact (discoverable_displayUpdate ..).trans h
  | toTime | toCfg | acceptKey | message | dismiss | blank | inactive | inactiveRadar | ignored =>
    exact h

/-- The power is lost. -/
def DeviceInput.losesPower : DeviceInput chip → Bool
  | .powerLoss .. => true
  | _ => false

theorem buttonsInterruptHandler_event {levels : UInt8 → UInt8 → Bool} {value : UInt8} {e : MEvent}
    (h : buttonsInterruptHandler levels value = some e) :
    ∃ push level other, (push = .nextPush ∨ push = .acceptPush) ∧
      e = edgeEvent push level other := by
  unfold buttonsInterruptHandler at h
  simp only at h
  split at h
  · exact ⟨_, _, _, .inl rfl, (Option.some.inj h).symm⟩
  · split at h
    · exact ⟨_, _, _, .inr rfl, (Option.some.inj h).symm⟩
    · cases h

namespace Device

variable {d d' : Device α}

/-- Nothing raises `LONG_INACTIVE`. -/
theorem raised_ne (h : d.Sound chip) {i : DeviceInput chip} {m : Moment} {e : MEvent}
    (hr : d.raised i = some (m, e, d')) : e ≠ .longInactive := by
  rintro rfl
  cases i with
  | edge m port bit =>
    obtain ⟨e, he, heq⟩ := Option.map_eq_some_iff.mp hr
    cases heq
    split at he
    · obtain ⟨push, level, other, hpush, hevent⟩ := buttonsInterruptHandler_event he
      rcases hpush with rfl | rfl <;> cases level <;> cases other <;> cases hevent
    · cases he
  | serialized m =>
    obtain ⟨e, he, heq⟩ := Option.map_eq_some_iff.mp hr
    cases heq
    have hgesture := h.pending _ (List.mem_of_head? he)
    cases hgesture
  | timeout m => cases hr
  | write m handle value =>
    unfold raised at hr
    simp only at hr
    split at hr <;> cases hr
  | motion | advTimeout | report | clock | fade | powerLoss => cases hr

theorem longInactive_notMem_inputs (h : d.Sound chip) {i : DeviceInput chip} (env : Env) :
    .input (.event env .longInactive) ∉ d.inputs i := by
  unfold inputs
  cases hr : d.raised i with
  | some x =>
    obtain ⟨m, e, d₁⟩ := x
    intro hmem
    cases List.mem_singleton.mp hmem
    exact raised_ne h hr rfl
  | none => cases i <;> simp

/-- A device that advertises goes on while it has power. -/
theorem advertises_step (h : d.Sound chip) {i : DeviceInput chip} (hi : i.losesPower = false)
    {rs : List (Reading (Set Pixel))} (hgoes : Goes chip (d.inputs i) rs d d')
    (hadv : d.watch.Advertises) : d'.watch.Advertises := by
  rw [hgoes.watch]
  unfold inputs
  cases hr : d.raised i with
  | some x =>
    obtain ⟨m, e, d₁⟩ := x
    exact (mainStep (d₁.env m) e d.watch).advertises (raised_ne h hr) hadv
  | none =>
    cases i with
    | report m r => exact (onlyStore_report (d.env m) r d.watch).discoverable.trans hadv
    | advTimeout m => exact discoverable_startAdverts ..
    | powerLoss => cases hi
    | edge | motion | serialized | timeout | write | clock | fade => exact hadv

end Device

/-- A device that advertises goes on until its power is lost. -/
theorem advertises_run {d : Device α} (h : d.Sound chip) {is : List (DeviceInput chip)}
    (hdraw : DrawsInRange chip (some d) is) (his : ∀ i ∈ is, i.losesPower = false) :
    ∃ d', run (deviceStep chip) (some d) is = some d' ∧
      (d.watch.Advertises → d'.watch.Advertises) := by
  induction is generalizing d with
  | nil => exact ⟨d, rfl, id⟩
  | cons i is ih =>
    obtain ⟨hi, hrest⟩ := eachStep_cons.mp hdraw
    obtain ⟨d₁, hstep, hgoes⟩ := Device.goes_step h i (hi d rfl)
    have hfirst : deviceStep chip (some d) i = some d₁ := hstep
    rw [hfirst] at hrest
    obtain ⟨d', hrun, hadv⟩ := ih hgoes.sound hrest fun j hj => his j (List.mem_cons_of_mem _ hj)
    refine ⟨d', ?_, fun ha => hadv ?_⟩
    · rw [run_cons, hfirst, hrun]
    · exact Device.advertises_step h (his i List.mem_cons_self) hgoes ha

/-- The event is nowhere among what the watch is given. -/
theorem longInactive_notMem {d : Device α} (h : d.Sound chip) {is : List (DeviceInput chip)}
    (hdraw : DrawsInRange chip (some d) is) (env : Env) :
    .input (.event env .longInactive) ∉ watchInputs chip (some d) is := by
  induction is generalizing d with
  | nil => exact List.not_mem_nil
  | cons i is ih =>
    obtain ⟨hi, hrest⟩ := eachStep_cons.mp hdraw
    obtain ⟨d₁, hstep, hgoes⟩ := Device.goes_step h i (hi d rfl)
    have hfirst : deviceStep chip (some d) i = some d₁ := hstep
    rw [hfirst] at hrest
    rw [watchInputs, outputs, hfirst, List.mem_append]
    rintro (hnow | hlater)
    · exact Device.longInactive_notMem_inputs h env hnow
    · exact ih hgoes.sound hrest hlater

/-! ## The device -/

/-- **The watch in the device**: whatever the device was before it was started, and whatever order
its handlers are called in, every one of them comes back, and the watch has made the run of
`Watch.powerStep` on what they gave it. -/
theorem device_refines (chip : Lis3dsh α) (boot : Env) {nv : Nvram}
    (hmark : nv nvmConfigIsValid = []) (havatar : nv nvmAvatarCode = []) (remains : Device α)
    {is : List (DeviceInput chip)}
    (hdraw : DrawsInRange chip (remains.muchiCreate chip boot nv) is) : ∃ d,
    run (deviceStep chip) (remains.muchiCreate chip boot nv) is = some d ∧
    d.watch = run Watch.powerStep (created boot nv)
      (watchInputs chip (remains.muchiCreate chip boot nv) is) := by
  obtain ⟨d₀, d, hstart, hrun, hgoes⟩ := goes_started chip boot hmark havatar remains hdraw
  refine ⟨d, hrun, ?_⟩
  rw [hgoes.watch, hstart]

theorem device_refines_sample : ∃ d,
    run (deviceStep sampleChip) (sampleRemains.muchiCreate sampleChip (nominalEnv 0) fun _ => [])
      sampleDay = some d ∧
    d.watch = run Watch.powerStep (created (nominalEnv 0) fun _ => [])
      (watchInputs sampleChip
        (sampleRemains.muchiCreate sampleChip (nominalEnv 0) fun _ => []) sampleDay) :=
  device_refines sampleChip (nominalEnv 0) rfl rfl sampleRemains
    (outline_sampleDay (List.append_nil sampleDay)).1

/-- **The accelerometer keeps its settings**: in every state reached no slave is selected, and the
registers are as `gestures_init` set them, or as after a reset. -/
theorem device_keeps_settings (chip : Lis3dsh α) (boot : Env) {nv : Nvram}
    (hmark : nv nvmConfigIsValid = []) (havatar : nv nvmAvatarCode = []) (remains : Device α)
    {is : List (DeviceInput chip)}
    (hdraw : DrawsInRange chip (remains.muchiCreate chip boot nv) is) : ∃ d,
    run (deviceStep chip) (remains.muchiCreate chip boot nv) is = some d ∧ d.board.Idle ∧
    (∀ w ∈ gesturesSettings, chip.reg (d.board.state .accel) w.1 = w.2) ∧
    ∀ addr ∉ gesturesSettings.map (·.1), chip.reg (d.board.state .accel) addr = chip.por addr := by
  obtain ⟨d₀, d, -, hrun, hgoes⟩ := goes_started chip boot hmark havatar remains hdraw
  refine ⟨d, hrun, hgoes.sound.bus, fun w hw => ?_, fun addr haddr => ?_⟩
  · rw [hgoes.sound.reg]
    exact settings_of_mem hw
  · rw [hgoes.sound.reg]
    exact settings_of_notMem haddr

theorem device_keeps_settings_sample : ∃ d,
    run (deviceStep sampleChip) (sampleRemains.muchiCreate sampleChip (nominalEnv 0) fun _ => [])
      sampleDay = some d ∧ d.board.Idle ∧
    (∀ w ∈ gesturesSettings, sampleChip.reg (d.board.state .accel) w.1 = w.2) ∧
    ∀ addr ∉ gesturesSettings.map (·.1),
      sampleChip.reg (d.board.state .accel) addr = samplePor addr :=
  device_keeps_settings sampleChip (nominalEnv 0) rfl rfl sampleRemains
    (outline_sampleDay (List.append_nil sampleDay)).1

/-- **The gestures are read off the programs**: in every state reached, an interrupt whose program
counter is within its program is a tilt, or inactivity, exactly if the program stands behind its
`OUTW`. -/
theorem device_gestures (chip : Lis3dsh α) (boot : Env) {nv : Nvram}
    (hmark : nv nvmConfigIsValid = []) (havatar : nv nvmAvatarCode = []) (remains : Device α)
    {is : List (DeviceInput chip)}
    (hdraw : DrawsInRange chip (remains.muchiCreate chip boot nv) is) : ∃ d,
    run (deviceStep chip) (remains.muchiCreate chip boot nv) is = some d ∧
    ∀ (fill pc : UInt8), 0 < pc.toNat →
      (pc = (accelReadReg8 chip.toSlave fill lis3dshRegProgramResetPin1 d.board).1 →
        pc.toNat ≤ stateMachine1.length →
        ((accelInt1Handler chip fill d.board).1 = .tilt60 ↔
          chip.reg (d.board.state .accel) (lis3dshRegStateMachine1Base + (pc - 1)) =
            lis3dshCmdOutw)) ∧
      (pc = (accelReadReg8 chip.toSlave fill lis3dshRegProgramResetPin2 d.board).1 →
        pc.toNat ≤ stateMachine2.length →
        ((accelInt2Handler chip fill d.board).1 = .shortInactive ↔
          chip.reg (d.board.state .accel) (lis3dshRegStateMachine2Base + (pc - 1)) =
            lis3dshCmdOutw)) := by
  obtain ⟨d₀, d, -, hrun, hgoes⟩ := goes_started chip boot hmark havatar remains hdraw
  refine ⟨d, hrun, fun fill pc hlo => ⟨fun hpc hhi => ?_, fun hpc hhi => ?_⟩⟩
  · rw [accelInt1_event hgoes.sound.holds fill hpc hlo hhi]
    split <;> simp_all
  · rw [accelInt2_event hgoes.sound.holds fill hpc hlo hhi]
    split <;> simp_all

/-- Both programs of the sample are behind their `OUTW`. -/
theorem device_gestures_sample : ∃ d,
    run (deviceStep sampleChip) (sampleRemains.muchiCreate sampleChip (nominalEnv 0) fun _ => [])
      sampleDay = some d ∧
    ∀ fill, (accelReadReg8 sampleChip.toSlave fill lis3dshRegProgramResetPin1 d.board).1 = 7 ∧
      (accelReadReg8 sampleChip.toSlave fill lis3dshRegProgramResetPin2 d.board).1 = 3 ∧
      ((accelInt1Handler sampleChip fill d.board).1 = .tilt60 ↔
        sampleChip.reg (d.board.state .accel) (lis3dshRegStateMachine1Base + (7 - 1)) =
          lis3dshCmdOutw) ∧
      ((accelInt2Handler sampleChip fill d.board).1 = .shortInactive ↔
        sampleChip.reg (d.board.state .accel) (lis3dshRegStateMachine2Base + (3 - 1)) =
          lis3dshCmdOutw) := by
  obtain ⟨hrange, d, hrun, hsound, -⟩ := outline_sampleDay (List.append_nil sampleDay)
  obtain ⟨d', hrun', hgestures⟩ := device_gestures sampleChip (nominalEnv 0) rfl rfl sampleRemains
    hrange
  obtain rfl := Option.some.inj (hrun.symm.trans hrun')
  refine ⟨d, hrun, fun fill => ?_⟩
  have hfirst := @read_registerChip _ _ hsound fill lis3dshRegProgramResetPin1 (by decide)
    (by decide)
  have hsecond := @read_registerChip _ _ hsound fill lis3dshRegProgramResetPin2 (by decide)
    (by decide)
  exact ⟨hfirst, hsecond, (hgestures fill 7 (by decide)).1 hfirst.symm (by decide),
    (hgestures fill 3 (by decide)).2 hsecond.symm (by decide)⟩

/-- **Advertising goes on**: `LONG_INACTIVE` is never raised, and on no other event the main state
machine stops advertising, so a device that advertises does so until its power is lost. -/
theorem device_advertises (chip : Lis3dsh α) (boot : Env) {nv : Nvram}
    (hmark : nv nvmConfigIsValid = []) (havatar : nv nvmAvatarCode = []) (remains : Device α)
    {pre post : List (DeviceInput chip)}
    (hdraw : DrawsInRange chip (remains.muchiCreate chip boot nv) (pre ++ post))
    (hpost : ∀ i ∈ post, i.losesPower = false) : ∃ d d',
    run (deviceStep chip) (remains.muchiCreate chip boot nv) pre = some d ∧
    run (deviceStep chip) (some d) post = some d' ∧
    (d.watch.Advertises → d'.watch.Advertises) ∧
    (∀ env, .input (.event env .longInactive) ∉
      watchInputs chip (remains.muchiCreate chip boot nv) (pre ++ post)) ∧
    ∀ (env : Env) (e : MEvent) (w : Watch), e ≠ .longInactive → w.Advertises →
      (mainfsmProcessEvent env e w).Advertises := by
  obtain ⟨d₀, hcreate, hstart⟩ := started chip boot hmark havatar remains
  rw [hcreate] at hdraw ⊢
  obtain ⟨hpre, hrest⟩ := eachStep_append.mp hdraw
  obtain ⟨d, hrun, hgoes⟩ := goes_run hstart.sound hpre
  rw [hrun] at hrest
  obtain ⟨d', hrun', hadv⟩ := advertises_run hgoes.sound hrest hpost
  exact ⟨d, d', hrun, hrun', hadv, longInactive_notMem hstart.sound hdraw,
    fun env e w he hw => (mainStep env e w).advertises he hw⟩

/-- The device that has been set up advertises, through the tilt and the message. -/
theorem device_advertises_sample : ∃ d d',
    run (deviceStep sampleChip) (sampleRemains.muchiCreate sampleChip (nominalEnv 0) fun _ => [])
      sampleMorning = some d ∧
    run (deviceStep sampleChip) (some d) sampleCall = some d' ∧
    d.watch.Advertises ∧ d'.watch.Advertises ∧
    ∀ env, .input (.event env .longInactive) ∉ watchInputs sampleChip
      (sampleRemains.muchiCreate sampleChip (nominalEnv 0) fun _ => [])
      (sampleMorning ++ sampleCall) := by
  obtain ⟨-, d₁, hrun₁, -, houtline⟩ := @outline_sampleDay sampleMorning _ rfl
  obtain ⟨hrange, -⟩ := @outline_sampleDay (sampleMorning ++ sampleCall) _ rfl
  obtain ⟨d, d', hrun, hrun', hgoesOn, hnever, -⟩ := device_advertises sampleChip (nominalEnv 0)
    rfl rfl sampleRemains hrange (List.forall_iff_forall_mem.mp ⟨rfl, rfl, rfl, rfl, rfl, rfl⟩)
  obtain rfl := Option.some.inj (hrun₁.symm.trans hrun)
  have hadv : d₁.watch.Advertises := by
    have hwatch : d₁.watch = (sampleOutline sampleMorning).watch :=
      congrArg Outline.watch houtline
    rw [hwatch]
    show Chip.discoverable _ = _
    decide +kernel
  exact ⟨d₁, d', hrun, hrun', hadv, hgoesOn hadv, hnever⟩

end

end Muchiwachi
