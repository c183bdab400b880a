import Muchiwachi.Create
import Muchiwachi.GroupSpec

/-!
# What one main event does

`MainStep env e w w'` lists what `mainfsm_process_event` can do, one constructor for each pair
of state and event that has an effect and `ignored` for the rest; `mainStep` proves the list
complete. Invariants of the main state machine are proved by cases on it.
-/

namespace Muchiwachi

open Lib MainFsm

/-! ## Frame of the drawing code -/

section

variable (env : Env) (w : Watch)

/-- `display_update` changes `extcomin`, two parts of the chip and the trace. -/
theorem displayUpdate_eq : ∃ pins screen calls,
    displayUpdate env w = { w with
      extcomin := !w.extcomin, chip := { w.chip with pins := pins, screen := screen },
      calls := calls } := by
  unfold displayUpdate
  simp only
  split
  · exact ⟨w.chip.pins, w.chip.screen, w.calls, rfl⟩
  · rcases drawState_cases env _ with h | ⟨screen, h⟩ <;> exact ⟨_, _, _, h⟩

@[simp] theorem mainState_displayUpdate : (displayUpdate env w).mainState = w.mainState := by
  obtain ⟨_, _, _, h⟩ := displayUpdate_eq env w; rw [h]
@[simp] theorem ignoreWake_displayUpdate : (displayUpdate env w).ignoreWake = w.ignoreWake := by
  obtain ⟨_, _, _, h⟩ := displayUpdate_eq env w; rw [h]
@[simp] theorem groupState_displayUpdate : (displayUpdate env w).groupState = w.groupState := by
  obtain ⟨_, _, _, h⟩ := displayUpdate_eq env w; rw [h]
@[simp] theorem displayOn_displayUpdate : (displayUpdate env w).displayOn = w.displayOn := by
  obtain ⟨_, _, _, h⟩ := displayUpdate_eq env w; rw [h]
@[simp] theorem currCursor_displayUpdate : (displayUpdate env w).currCursor = w.currCursor := by
  obtain ⟨_, _, _, h⟩ := displayUpdate_eq env w; rw [h]
@[simp] theorem msg_displayUpdate : (displayUpdate env w).msg = w.msg := by
  obtain ⟨_, _, _, h⟩ := displayUpdate_eq env w; rw [h]
@[simp] theorem gAvatar_displayUpdate : (displayUpdate env w).gAvatar = w.gAvatar := by
  obtain ⟨_, _, _, h⟩ := displayUpdate_eq env w; rw [h]
@[simp] theorem store_displayUpdate : (displayUpdate env w).store = w.store := by
  obtain ⟨_, _, _, h⟩ := displayUpdate_eq env w; rw [h]
@[simp] theorem nvram_displayUpdate : (displayUpdate env w).chip.nvram = w.chip.nvram := by
  obtain ⟨_, _, _, h⟩ := displayUpdate_eq env w; rw [h]
@[simp] theorem scanMode_displayUpdate :
    (displayUpdate env w).chip.scanMode = w.chip.scanMode := by
  obtain ⟨_, _, _, h⟩ := displayUpdate_eq env w; rw [h]
@[simp] theorem advData_displayUpdate : (displayUpdate env w).chip.advData = w.chip.advData := by
  obtain ⟨_, _, _, h⟩ := displayUpdate_eq env w; rw [h]
@[simp] theorem discoverable_displayUpdate :
    (displayUpdate env w).chip.discoverable = w.chip.discoverable := by
  obtain ⟨_, _, _, h⟩ := displayUpdate_eq env w; rw [h]

end

/-! ## Frame of the configuration code -/

section

variable (env : Env) (w : Watch)

/-- `startIfConfigured` changes `g_avatar`, the advertiser and the trace. -/
theorem startIfConfigured_eq : ∃ gAvatar advData discoverable calls,
    startIfConfigured env w = { w with
      gAvatar := gAvatar
      chip := { w.chip with advData := advData, discoverable := discoverable }
      calls := calls } := by
  unfold startIfConfigured
  simp only
  split
  · rw [grprStartAdverts_eq]
    exact ⟨_, _, _, _, rfl⟩
  · exact ⟨_, w.chip.advData, w.chip.discoverable, _, rfl⟩

@[simp] theorem ignoreWake_startIfConfigured :
    (startIfConfigured env w).ignoreWake = w.ignoreWake := by
  obtain ⟨_, _, _, _, h⟩ := startIfConfigured_eq env w; rw [h]
@[simp] theorem groupState_startIfConfigured :
    (startIfConfigured env w).groupState = w.groupState := by
  obtain ⟨_, _, _, _, h⟩ := startIfConfigured_eq env w; rw [h]
@[simp] theorem displayOn_startIfConfigured :
    (startIfConfigured env w).displayOn = w.displayOn := by
  obtain ⟨_, _, _, _, h⟩ := startIfConfigured_eq env w; rw [h]
@[simp] theorem currCursor_startIfConfigured :
    (startIfConfigured env w).currCursor = w.currCursor := by
  obtain ⟨_, _, _, _, h⟩ := startIfConfigured_eq env w; rw [h]
@[simp] theorem msg_startIfConfigured : (startIfConfigured env w).msg = w.msg := by
  obtain ⟨_, _, _, _, h⟩ := startIfConfigured_eq env w; rw [h]
@[simp] theorem store_startIfConfigured : (startIfConfigured env w).store = w.store := by
  obtain ⟨_, _, _, _, h⟩ := startIfConfigured_eq env w; rw [h]
@[simp] theorem scanMode_startIfConfigured :
    (startIfConfigured env w).chip.scanMode = w.chip.scanMode := by
  obtain ⟨_, _, _, _, h⟩ := startIfConfigured_eq env w; rw [h]
@[simp] theorem nvram_startIfConfigured :
    (startIfConfigured env w).chip.nvram = w.chip.nvram := by
  obtain ⟨_, _, _, _, h⟩ := startIfConfigured_eq env w; rw [h]

/-- Saving the configuration changes the NVRAM and the trace. -/
theorem saveConfig_eq : ∃ nvram calls,
    saveConfig env w = { w with chip := { w.chip with nvram := nvram }, calls := calls } := by
  unfold saveConfig
  simp only
  split <;> exact ⟨_, _, rfl⟩

@[simp] theorem groupState_saveConfig : (saveConfig env w).groupState = w.groupState := by
  obtain ⟨_, _, h⟩ := saveConfig_eq env w; rw [h]
@[simp] theorem displayOn_saveConfig : (saveConfig env w).displayOn = w.displayOn := by
  obtain ⟨_, _, h⟩ := saveConfig_eq env w; rw [h]
@[simp] theorem gAvatar_saveConfig : (saveConfig env w).gAvatar = w.gAvatar := by
  obtain ⟨_, _, h⟩ := saveConfig_eq env w; rw [h]
@[simp] theorem store_saveConfig : (saveConfig env w).store = w.store := by
  obtain ⟨_, _, h⟩ := saveConfig_eq env w; rw [h]
@[simp] theorem scanMode_saveConfig :
    (saveConfig env w).chip.scanMode = w.chip.scanMode := by
  obtain ⟨_, _, h⟩ := saveConfig_eq env w; rw [h]

@[simp] theorem groupState_keypress (key : Key) :
    (displayKeypress key w).2.groupState = w.groupState := by cases key <;> rfl
@[simp] theorem displayOn_keypress (key : Key) :
    (displayKeypress key w).2.displayOn = w.displayOn := by cases key <;> rfl
@[simp] theorem store_keypress (key : Key) :
    (displayKeypress key w).2.store = w.store := by cases key <;> rfl
@[simp] theorem chip_keypress (key : Key) : (displayKeypress key w).2.chip = w.chip := by
  cases key <;> rfl
@[simp] theorem gAvatar_acceptKey : (displayKeypress .accept w).2.gAvatar = w.gAvatar := rfl

@[simp] theorem gAvatar_readConfigValid :
    (readConfigValid env w).2.gAvatar = w.gAvatar := rfl
@[simp] theorem chip_readConfigValid : (readConfigValid env w).2.chip = w.chip := rfl

end

/-! ## The calls of the parts of a step -/

section

variable (env : Env) (w : Watch)

theorem issues_startAdverts (flags : UInt8) :
    Issues (·.kind = .advertiser) w (grprStartAdverts env flags w) :=
  .trans (.trans (.call (k := .generateAdvData (advFields env flags w)) (by rfl) w)
    (.call (k := .setTxPowerInAdv 4) (by rfl) _))
      (.call (k := .discoverable .lowUndirectedDiscoverable) (by rfl) _)

theorem issues_groupfsm {type : GEvent} (h : type ≠ .groupingAdv) :
    Issues (·.kind = .advertiser) w (groupfsmProcessEvent env type w) := by
  cases hg : w.groupState <;> cases type
  · rw [groupfsm_start hg]
    exact (issues_startAdverts env w flagGrouping).then_ram rfl rfl
  · rw [groupfsm_stop_idle hg]
    exact .ram rfl rfl
  · exact absurd rfl h
  · rw [groupfsm_start_grouping hg]
    exact .ram rfl rfl
  · rw [groupfsm_stop hg]
    exact (issues_startAdverts env w 0).then_ram rfl rfl
  · exact absurd rfl h

theorem issues_readConfigValid : Issues (·.kind = .read) w (readConfigValid env w).2 :=
  .call (k := .readNvram nvmConfigIsValid 1) (by rfl) w

theorem issues_readAvatar : Issues (·.kind = .read) w (readAvatar env w) :=
  .then_ram (.call (k := .readNvram nvmAvatarCode 2) (by rfl) w) rfl rfl

theorem issues_startIfConfigured :
    Issues (fun k => k.kind = .read ∨ k.kind = .advertiser) w (startIfConfigured env w) := by
  have hread : ∀ {v v' : Watch}, Issues (·.kind = .read) v v' →
      Issues (fun k => k.kind = .read ∨ k.kind = .advertiser) v v' :=
    fun h => h.mono fun _ => .inl
  unfold startIfConfigured
  simp only
  split
  · have hmark := hread (issues_readConfigValid env w)
    have havatar := hread (issues_readAvatar env (readConfigValid env w).2)
    exact (hmark.trans havatar).trans ((issues_startAdverts env _ 0).mono fun _ => .inr)
  · exact hread (issues_readConfigValid env w)

theorem issues_saveConfig : Issues (·.kind = .write) w (saveConfig env w) := by
  have hwrite : ∀ vsId payload v,
      Issues (·.kind = .write) v (bleprofileWriteNVRAM env vsId payload v).2 :=
    fun vsId payload v => .call (k := .writeNvram vsId payload (env.writeOk vsId)) (by rfl) v
  unfold saveConfig
  simp only
  split
  · exact (hwrite ..).trans (hwrite ..)
  · exact hwrite ..

theorem issues_displayOff : Issues (·.kind = .panel) w (displayOff w) :=
  .then_ram (.call (k := .setPin .display5vOn false) (by rfl) w) rfl rfl

theorem issues_displayPowerOn : Issues (·.kind = .panel) w (displayPowerOn w) :=
  .then_ram (.call (k := .setPin .display5vOn true) (by rfl) w) rfl rfl

theorem issues_displayUpdate : Issues (·.kind = .panel) w (displayUpdate env w) := by
  unfold displayUpdate
  simp only
  split
  · exact .ram rfl rfl
  · have htoggle : Issues (·.kind = .panel) w { w with extcomin := !w.extcomin } := .ram rfl rfl
    refine (htoggle.trans (.call (k := .setPin .displayExtcomin (!w.extcomin)) (by rfl) _)).trans ?_
    rcases drawState_cases env _ with h | ⟨screen, h⟩ <;> rw [h]
    · exact .ram rfl rfl
    · exact .call (by rfl) _

end

/-! ## The step relation -/

/-- The pairs of state and event without effect. -/
def ignores (w : Watch) (e : MEvent) : Bool :=
  match w.mainState, e with
  | .boot, .bootDone => false
  | .idle, .nextPush | .idle, .acceptPush => false
  | .cfg, .nextPush | .cfg, .acceptPush | .cfg, .tick1s => false
  | .time, .messageArrived | .time, .tick1s | .time, .tilt60 | .time, .acceptPush
  | .time, .shortInactive | .time, .nextPush | .time, .longInactive | .time, .bothHold
  | .time, .bothRelease => false
  | .time, .wakeup => w.ignoreWake
  | .radar, .messageArrived | .radar, .tick1s | .radar, .untilt60 | .radar, .shortInactive
  | .radar, .bothHold | .radar, .bothRelease => false
  | .message, .tick1s | .message, .acceptPush => false
  | _, _ => true

/-- The watch with the main state machine in state `s`. -/
abbrev Watch.inState (w : Watch) (s : MState) : Watch := { w with mainState := s }

/-- The states that redraw on every tick. -/
def MState.ticks : MState → Bool
  | .cfg | .time | .radar | .message => true
  | .boot | .idle => false

inductive MainStep (env : Env) : MEvent → Watch → Watch → Prop where
  | boot {w : Watch} (h : w.mainState = .boot) :
    MainStep env .bootDone w ((displayOff (startIfConfigured env w)).inState .idle)
  | toTime {w : Watch} {e : MEvent} (h : w.mainState = .idle)
    (he : e = .nextPush ∨ e = .acceptPush) (hv : (readConfigValid env w).1 ≠ 0) :
    MainStep env e w ((readConfigValid env w).2.inState .time)
  | toCfg {w : Watch} {e : MEvent} (h : w.mainState = .idle)
    (he : e = .nextPush ∨ e = .acceptPush) (hv : (readConfigValid env w).1 = 0) :
    MainStep env e w ((displayPowerOn (readConfigValid env w).2).inState .cfg)
  | nextKey {w : Watch} (h : w.mainState = .cfg) :
    MainStep env .nextPush w (displayUpdate env (displayKeypress .next w).2)
  | acceptKey {w : Watch} (h : w.mainState = .cfg) (hc : w.currCursor ≠ .ok) :
    MainStep env .acceptPush w (displayKeypress .accept w).2
  | confirm {w : Watch} (h : w.mainState = .cfg) (hc : w.currCursor = .ok) :
    MainStep env .acceptPush w
      ((startIfConfigured env (saveConfig env (displayKeypress .accept w).2)).inState .time)
  | tick {w : Watch} (h : w.mainState.ticks = true) :
    MainStep env .tick1s w (displayUpdate env w)
  | message {w : Watch} (h : w.mainState = .time ∨ w.mainState = .radar) :
    MainStep env .messageArrived w (w.inState .message)
  | dismiss {w : Watch} (h : w.mainState = .message) :
    MainStep env .acceptPush w (w.inState .time)
  | tilt {w : Watch} (h : w.mainState = .time) :
    MainStep env .tilt60 w (((displayUpdate env w).call (.scan .lowScan)).inState .radar)
  | untilt {w : Watch} (h : w.mainState = .radar) :
    MainStep env .untilt60 w (((displayUpdate env w).call (.scan .noScan)).inState .time)
  | blank {w : Watch} (h : w.mainState = .time) :
    MainStep env .acceptPush w (displayOff { w with ignoreWake := true })
  | inactive {w : Watch} (h : w.mainState = .time) :
    MainStep env .shortInactive w (displayOff w)
  | inactiveRadar {w : Watch} (h : w.mainState = .radar) :
    MainStep env .shortInactive w (((displayOff w).call (.scan .noScan)).inState .time)
  | push {w : Watch} (h : w.mainState = .time) :
    MainStep env .nextPush w
      (grprStartAdverts env 0 (displayPowerOn { w with ignoreWake := false }))
  | wakeup {w : Watch} (h : w.mainState = .time) (hi : w.ignoreWake = false) :
    MainStep env .wakeup w (grprStartAdverts env 0 (displayPowerOn w))
  | longInactive {w : Watch} (h : w.mainState = .time) :
    MainStep env .longInactive w (grprStopAdverts w)
  | hold {w : Watch} (h : w.mainState = .time) :
    MainStep env .bothHold w
      (((groupfsmProcessEvent env .groupingStart (displayPowerOn w)).call
        (.scan .lowScan)).inState .radar)
  | holdRadar {w : Watch} (h : w.mainState = .radar) :
    MainStep env .bothHold w (groupfsmProcessEvent env .groupingStart w)
  | release {w : Watch} (h : w.mainState = .time) :
    MainStep env .bothRelease w (groupfsmProcessEvent env .groupingStop w)
  | releaseRadar {w : Watch} (h : w.mainState = .radar) :
    MainStep env .bothRelease w
      (((groupfsmProcessEvent env .groupingStop w).call (.scan .noScan)).inState .time)
  | ignored {w : Watch} {e : MEvent} (h : ignores w e = true) : MainStep env e w w

/-! ## Completeness -/

section

variable {env : Env} {w w' : Watch} {e : MEvent} {s s' : MState}

theorem process_eq (e : MEvent) (h : w.mainState = s)
    (hs : table.stateTable s ⟨env, e⟩ w = (s', w')) (hc : w'.mainState = s) :
    mainfsmProcessEvent env e w = (table.runTransition s s' ⟨env, e⟩ w').inState s' :=
  table.processEvent_eq h hs hc

theorem Watch.inState_self (h : w.mainState = s) : w.inState s = w := by
  rw [← h]

/-- A step that stays in its state and keeps `mainState`. -/
theorem process_stay (e : MEvent) (h : w.mainState = s)
    (hs : table.stateTable s ⟨env, e⟩ w = (s, w')) (hc : w'.mainState = s) :
    mainfsmProcessEvent env e w = w' := by
  have ht : table.runTransition s s ⟨env, e⟩ w' = w' := by cases s <;> rfl
  rw [process_eq e h hs hc, ht]
  exact Watch.inState_self hc

variable (env e)

theorem mainStep_boot (h : w.mainState = .boot) :
    MainStep env e w (mainfsmProcessEvent env e w) := by
  cases e with
  | bootDone =>
    rw [process_eq .bootDone h rfl h]
    exact .boot h
  | _ =>
    rw [process_stay _ h rfl h]
    exact .ignored (by simp [ignores, h])

theorem mainStep_idle (h : w.mainState = .idle) :
    MainStep env e w (mainfsmProcessEvent env e w) := by
  have hpush : ∀ e, e = .nextPush ∨ e = .acceptPush →
      MainStep env e w (mainfsmProcessEvent env e w) := by
    intro e he
    have hs : table.stateTable .idle ⟨env, e⟩ w =
        (if (readConfigValid env w).1 ≠ 0 then .time else .cfg, (readConfigValid env w).2) := by
      rcases he with rfl | rfl <;> rfl
    by_cases hv : (readConfigValid env w).1 = 0
    · rw [if_neg (not_not.mpr hv)] at hs
      rw [process_eq e h hs h]
      exact .toCfg h he hv
    · rw [if_pos hv] at hs
      rw [process_eq e h hs h]
      exact .toTime h he hv
  cases e with
  | nextPush => exact hpush _ (.inl rfl)
  | acceptPush => exact hpush _ (.inr rfl)
  | _ =>
    rw [process_stay _ h rfl h]
    exact .ignored (by simp [ignores, h])

theorem mainStep_cfg (h : w.mainState = .cfg) : MainStep env e w (mainfsmProcessEvent env e w) := by
  have hticks : w.mainState.ticks = true := by rw [h]; rfl
  cases e with
  | nextPush =>
    rw [process_stay .nextPush h rfl (by simpa using h)]
    exact .nextKey h
  | acceptPush =>
    by_cases hc : w.currCursor = .ok
    · have hs : table.stateTable .cfg ⟨env, .acceptPush⟩ w =
          (.time, saveConfig env (displayKeypress .accept w).2) := if_pos (by simpa using hc)
      rw [process_eq .acceptPush h hs (by simpa using h)]
      exact .confirm h hc
    · have hs : table.stateTable .cfg ⟨env, .acceptPush⟩ w =
          (.cfg, (displayKeypress .accept w).2) := if_neg (by simpa using hc)
      rw [process_stay .acceptPush h hs h]
      exact .acceptKey h hc
  | tick1s =>
    rw [process_stay .tick1s h rfl (by simpa using h)]
    exact .tick hticks
  | _ =>
    rw [process_stay _ h rfl h]
    exact .ignored (by simp [ignores, h])

theorem mainStep_time (h : w.mainState = .time) :
    MainStep env e w (mainfsmProcessEvent env e w) := by
  have hticks : w.mainState.ticks = true := by rw [h]; rfl
  cases e with
  | messageArrived =>
    rw [process_eq .messageArrived h rfl h]
    exact .message (.inl h)
  | tick1s =>
    rw [process_stay .tick1s h rfl (by simpa using h)]
    exact .tick hticks
  | tilt60 =>
    rw [process_eq .tilt60 h rfl (by simpa using h)]
    exact .tilt h
  | acceptPush =>
    rw [process_stay .acceptPush h rfl h]
    exact .blank h
  | shortInactive =>
    rw [process_stay .shortInactive h rfl h]
    exact .inactive h
  | nextPush =>
    rw [process_stay .nextPush h rfl h]
    exact .push h
  | wakeup =>
    cases hi : w.ignoreWake with
    | false =>
      have hs : table.stateTable .time ⟨env, .wakeup⟩ w =
          (.time, grprStartAdverts env 0 (displayPowerOn w)) := by
        simp [table, doStateTime, wake, hi]
      rw [process_stay .wakeup h hs h]
      exact .wakeup h hi
    | true =>
      have hs : table.stateTable .time ⟨env, .wakeup⟩ w = (.time, w) := by
        simp [table, doStateTime, wake, hi]
      rw [process_stay .wakeup h hs h]
      exact .ignored (by simp [ignores, h, hi])
  | longInactive =>
    rw [process_stay .longInactive h rfl h]
    exact .longInactive h
  | bothHold =>
    rw [process_eq .bothHold h rfl ((mainState_groupfsm env _).1.trans h)]
    exact .hold h
  | bothRelease =>
    rw [process_stay .bothRelease h rfl ((mainState_groupfsm env _).2.trans h)]
    exact .release h
  | _ =>
    rw [process_stay _ h rfl h]
    exact .ignored (by simp [ignores, h])

theorem mainStep_radar (h : w.mainState = .radar) :
    MainStep env e w (mainfsmProcessEvent env e w) := by
  have hticks : w.mainState.ticks = true := by rw [h]; rfl
  cases e with
  | messageArrived =>
    rw [process_eq .messageArrived h rfl h]
    exact .message (.inr h)
  | tick1s =>
    rw [process_stay .tick1s h rfl (by simpa using h)]
    exact .tick hticks
  | untilt60 =>
    rw [process_eq .untilt60 h rfl (by simpa using h)]
    exact .untilt h
  | shortInactive =>
    rw [process_eq .shortInactive h rfl h]
    exact .inactiveRadar h
  | bothHold =>
    rw [process_stay .bothHold h rfl ((mainState_groupfsm env _).1.trans h)]
    exact .holdRadar h
  | bothRelease =>
    rw [process_eq .bothRelease h rfl ((mainState_groupfsm env _).2.trans h)]
    exact .releaseRadar h
  | _ =>
    rw [process_stay _ h rfl h]
    exact .ignored (by simp [ignores, h])

theorem mainStep_message (h : w.mainState = .message) :
    MainStep env e w (mainfsmProcessEvent env e w) := by
  have hticks : w.mainState.ticks = true := by rw [h]; rfl
  cases e with
  | tick1s =>
    rw [process_stay .tick1s h rfl (by simpa using h)]
    exact .tick hticks
  | acceptPush =>
    rw [process_eq .acceptPush h rfl h]
    exact .dismiss h
  | _ =>
    rw [process_stay _ h rfl h]
    exact .ignored (by simp [ignores, h])

/-- **Every main event is one of the listed steps.** -/
theorem mainStep (w : Watch) : MainStep env e w (mainfsmProcessEvent env e w) := by
  cases h : w.mainState with
  | boot => exact mainStep_boot env e h
  | idle => exact mainStep_idle env e h
  | cfg => exact mainStep_cfg env e h
  | time => exact mainStep_time env e h
  | radar => exact mainStep_radar env e h
  | message => exact mainStep_message env e h

end

/-! ## The calls of a step -/

/-- What the calls of a main event may be about. -/
def stepKinds (w : Watch) (e : MEvent) : List CallKind :=
  match w.mainState, e with
  | .boot, .bootDone => [.read, .advertiser, .panel]
  | .idle, .nextPush | .idle, .acceptPush => [.read, .panel]
  | .cfg, .acceptPush => [.write, .read, .advertiser]
  | .cfg, .nextPush | .time, .acceptPush | .time, .shortInactive => [.panel]
  | .time, .tilt60 | .radar, .untilt60 | .radar, .shortInactive => [.panel, .scanner]
  | .time, .nextPush | .time, .wakeup => [.panel, .advertiser]
  | .time, .bothHold => [.panel, .advertiser, .scanner]
  | .time, .longInactive | .time, .bothRelease | .radar, .bothHold => [.advertiser]
  | .radar, .bothRelease => [.advertiser, .scanner]
  | s, .tick1s => if s.ticks then [.panel] else []
  | _, _ => []

theorem stepKinds_tick {w : Watch} (h : w.mainState.ticks = true) :
    stepKinds w .tick1s = [.panel] := by
  unfold stepKinds
  cases hm : w.mainState <;> simp_all [MState.ticks]

theorem MainStep.issues {env : Env} {e : MEvent} {w w' : Watch} (hs : MainStep env e w w') :
    Issues (·.kind ∈ stepKinds w e) w w' := by
  have hscan : ∀ mode v, Issues (·.kind = .scanner) v (v.call (.scan mode)) :=
    fun mode v => .call (k := .scan mode) (by rfl) v
  have hstart : ∀ {l : List CallKind} v, .read ∈ l → .advertiser ∈ l →
      Issues (·.kind ∈ l) v (startIfConfigured env v) :=
    fun v hread hadv => (issues_startIfConfigured env v).mono
      fun _ h => by rcases h with h | h <;> rwa [h]
  cases hs with
  | boot hm =>
    simp only [stepKinds, hm]
    exact ((hstart w (by simp) (by simp)).trans ((issues_displayOff _).among (by simp))).then_ram
      rfl rfl
  | toTime hm he =>
    have hkinds : stepKinds w e = [.read, .panel] := by
      rcases he with rfl | rfl <;> simp [stepKinds, hm]
    rw [hkinds]
    exact ((issues_readConfigValid env w).among (by simp)).then_ram rfl rfl
  | toCfg hm he =>
    have hkinds : stepKinds w e = [.read, .panel] := by
      rcases he with rfl | rfl <;> simp [stepKinds, hm]
    rw [hkinds]
    exact (((issues_readConfigValid env w).among (by simp)).trans
      ((issues_displayPowerOn _).among (by simp))).then_ram rfl rfl
  | nextKey hm =>
    simp only [stepKinds, hm]
    have hkey : Issues (·.kind ∈ [.panel]) w (displayKeypress .next w).2 := .ram rfl rfl
    exact hkey.trans ((issues_displayUpdate env _).among (by simp))
  | acceptKey | message | dismiss | ignored => exact .ram rfl rfl
  | confirm hm =>
    simp only [stepKinds, hm]
    have hkey : Issues (·.kind ∈ [.write, .read, .advertiser]) w (displayKeypress .accept w).2 :=
      .ram rfl rfl
    exact (hkey.trans (((issues_saveConfig env _).among (by simp)).trans
      (hstart _ (by simp) (by simp)))).then_ram rfl rfl
  | tick ht =>
    rw [stepKinds_tick ht]
    exact (issues_displayUpdate env w).among (by simp)
  | tilt hm | untilt hm =>
    simp only [stepKinds, hm]
    exact (((issues_displayUpdate env w).among (by simp)).trans
      ((hscan ..).among (by simp))).then_ram rfl rfl
  | blank hm =>
    simp only [stepKinds, hm]
    have hflag : Issues (·.kind ∈ [.panel]) w { w with ignoreWake := true } := .ram rfl rfl
    exact hflag.trans ((issues_displayOff _).among (by simp))
  | inactive hm =>
    simp only [stepKinds, hm]
    exact (issues_displayOff w).among (by simp)
  | inactiveRadar hm =>
    simp only [stepKinds, hm]
    exact (((issues_displayOff w).among (by simp)).trans
      ((hscan ..).among (by simp))).then_ram rfl rfl
  | push hm =>
    simp only [stepKinds, hm]
    have hflag : Issues (·.kind ∈ [.panel, .advertiser]) w { w with ignoreWake := false } :=
      .ram rfl rfl
    exact (hflag.trans ((issues_displayPowerOn _).among (by simp))).trans
      ((issues_startAdverts env _ 0).among (by simp))
  | wakeup hm =>
    simp only [stepKinds, hm]
    exact ((issues_displayPowerOn w).among (by simp)).trans
      ((issues_startAdverts env _ 0).among (by simp))
  | longInactive hm =>
    simp only [stepKinds, hm]
    exact .call (by simp [Call.kind]) w
  | hold hm =>
    simp only [stepKinds, hm]
    exact ((((issues_displayPowerOn w).among (by simp)).trans
      ((issues_groupfsm env _ (by decide)).among (by simp))).trans
        ((hscan ..).among (by simp))).then_ram rfl rfl
  | holdRadar hm | release hm =>
    simp only [stepKinds, hm]
    exact (issues_groupfsm env w (by decide)).among (by simp)
  | releaseRadar hm =>
    simp only [stepKinds, hm]
    exact (((issues_groupfsm env w (by decide)).among (by simp)).trans
      ((hscan ..).among (by simp))).then_ram rfl rfl

end Muchiwachi
