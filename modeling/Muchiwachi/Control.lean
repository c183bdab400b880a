import Muchiwachi.Lib.Run
import Muchiwachi.MainStep

/-!
# The control logic over whole runs

A running watch takes main events, advertising timeouts and reports (`Input`, `handle`) from the
state `muchi_create` leaves it in (`created`). Each rule below is a predicate on the watch, with
the inputs that break it and the theorem that a run keeps the rule exactly when it takes none of
them.
-/

namespace Muchiwachi

open Lib MainFsm

/-! ## Running watches -/

inductive Input where
  | event (env : Env) (e : MEvent)
  | advTimeout (env : Env)
  | report (env : Env) (r : AdvReport)

def handle (w : Watch) : Input → Watch
  | .event env e => mainfsmProcessEvent env e w
  | .advTimeout env => muchiAdvertisementTimeout env w
  | .report env r => muchiAdvertisementReport env r w

/-- The watch as `muchi_create` leaves it, started over NVRAM contents `nv`. -/
def created (env : Env) (nv : Nvram) : Watch := muchiCreate env (powerOn nv)

/-- What is in RAM and on the chip when `BOOT_DONE` is handled. -/
def booting (env : Env) (nv : Nvram) : Watch :=
  grprStoreInit env (displayInit ((powerOn nv).call (.scan .noScan)))

/-- NVRAM of a watch that has been configured with avatar `a` and has no peers. -/
def configuredNvram (a : UInt8) : Nvram := fun vsId =>
  if vsId = nvmConfigIsValid then [1] else if vsId = nvmAvatarCode then [a, 0] else []

section

variable (env : Env) (nv : Nvram)

theorem onlyStore_booting :
    OnlyStore (displayInit ((powerOn nv).call (.scan .noScan))) (booting env nv) :=
  onlyStore_init env _

theorem created_eq :
    created env nv = (displayOff (startIfConfigured env (booting env nv))).inState .idle := by
  have hboot : (booting env nv).mainState = .boot := (onlyStore_booting env nv).mainState
  have hstep := mainStep env .bootDone (booting env nv)
  show mainfsmProcessEvent env .bootDone (booting env nv) = _
  generalize mainfsmProcessEvent env .bootDone (booting env nv) = w at hstep ⊢
  cases hstep with
  | boot => rfl
  | toTime _ he | toCfg _ he => rcases he with he | he <;> cases he
  | ignored h => simp [ignores, hboot] at h

@[simp] theorem mainState_created : (created env nv).mainState = .idle := by
  rw [created_eq]
@[simp] theorem ignoreWake_created : (created env nv).ignoreWake = false := by
  have hboot : (booting env nv).ignoreWake = false := (onlyStore_booting env nv).ignoreWake
  simp [created_eq, displayOff, hboot]
@[simp] theorem groupState_created : (created env nv).groupState = .idle := by
  have hboot : (booting env nv).groupState = .idle := (onlyStore_booting env nv).groupState
  simp [created_eq, displayOff, hboot]
theorem gAvatar_created :
    (created env nv).gAvatar = (startIfConfigured env (booting env nv)).gAvatar := by
  simp [created_eq, displayOff]
@[simp] theorem gAvatar_booting : (booting env nv).gAvatar = (56, 0) :=
  (onlyStore_booting env nv).gAvatar
@[simp] theorem nvram_booting : (booting env nv).chip.nvram = nv := (writes_init env _).nvram
@[simp] theorem scanMode_created : (created env nv).chip.scanMode = .noScan := by
  have hboot : (booting env nv).chip.scanMode = .noScan := (onlyStore_booting env nv).scanMode
  simp [created_eq, displayOff, hboot]

end

/-! ## Scanning -/

/-- Scanning is on exactly while the radar is shown. -/
def Watch.ScansInRadar (w : Watch) : Prop := w.chip.scanMode = .lowScan ↔ w.mainState = .radar

instance (w : Watch) : Decidable w.ScansInRadar := inferInstanceAs (Decidable (_ ↔ _))

/-- A message takes the watch out of `RADAR` and no transition function stops the scan. -/
def Input.leavesScanOn (w : Watch) : Input → Prop
  | .event _ e => e = .messageArrived ∧ w.mainState = .radar
  | _ => False

theorem MainStep.scansInRadar {env : Env} {e : MEvent} {w w' : Watch} (hs : MainStep env e w w')
    (h : w.ScansInRadar) : w'.ScansInRadar ↔ ¬ (e = .messageArrived ∧ w.mainState = .radar) := by
  unfold Watch.ScansInRadar at *
  cases hs with
  | message hm => rcases hm with hm | hm <;> simpa [hm] using h
  | tilt | hold => simp
  | holdRadar hr => simpa [hr] using h
  | untilt | inactiveRadar | releaseRadar => simp
  | toTime hi he | toCfg hi he => rcases he with rfl | rfl <;> simpa [hi, displayPowerOn] using h
  | boot hb | nextKey hb | acceptKey hb | confirm hb | dismiss hb =>
    simpa [hb, displayOff, displayPowerOn] using h
  | tick => simpa using h
  | blank ht | inactive ht | push ht | wakeup ht | longInactive ht | release ht =>
    simpa [ht, displayOff, displayPowerOn, grprStopAdverts] using h
  | ignored hi =>
    have hmsg : ¬ (e = .messageArrived ∧ w.mainState = .radar) := by
      rintro ⟨rfl, hr⟩
      simp [ignores, hr] at hi
    simpa [hmsg] using h

theorem scansInRadar_handle {w : Watch} (h : w.ScansInRadar) (i : Input) :
    (handle w i).ScansInRadar ↔ ¬ i.leavesScanOn w := by
  cases i with
  | advTimeout env => exact iff_of_true h not_false
  | report env r =>
    have hs := onlyStore_report env r w
    refine iff_of_true ?_ not_false
    show (grprProcessAdverts env r w).chip.scanMode = _ ↔ (grprProcessAdverts env r w).mainState = _
    rw [hs.scanMode, hs.mainState]
    exact h
  | event env e => exact (mainStep env e w).scansInRadar h

/-- **When scanning is on exactly while the radar is shown**: in the runs in which no message
arrives in `RADAR`. -/
theorem scan_exact (env : Env) (nv : Nvram) (is : List Input) :
    Always handle Watch.ScansInRadar (created env nv) is ↔
      EachStep handle (fun w i => ¬ i.leavesScanOn w) (created env nv) is :=
  always_iff_eachStep (I := fun _ => True) (fun _ _ _ => trivial)
    (fun _ i _ h => scansInRadar_handle h i) trivial (by simp [Watch.ScansInRadar]) is

/-- A message reaches a watch that shows the radar: it scans on while the message is shown. -/
theorem scan_left_on :
    ¬ Always handle Watch.ScansInRadar (created (nominalEnv 0) (configuredNvram 60))
      ([.nextPush, .tilt60, .messageArrived].map (.event (nominalEnv 0))) := by
  intro h
  exact absurd h.final (by decide +kernel)

/-! ## Display power -/

/-- The states whose screen is meant to be looked at. -/
def MState.looked : MState → Bool
  | .cfg | .radar | .message => true
  | .boot | .idle | .time => false

def Watch.LitWhenLooked (w : Watch) : Prop := w.mainState.looked = true → w.displayOn = true

instance (w : Watch) : Decidable w.LitWhenLooked := inferInstanceAs (Decidable (_ → _))

/-- A tilt or a message takes a watch with a blanked display out of `TIME`, and nothing
powers the display. -/
def Input.entersDark (w : Watch) : Input → Prop
  | .event _ e => (e = .tilt60 ∨ e = .messageArrived) ∧ w.mainState = .time ∧ w.displayOn = false
  | _ => False

theorem MainStep.litWhenLooked {env : Env} {e : MEvent} {w w' : Watch} (hs : MainStep env e w w')
    (h : w.LitWhenLooked) : w'.LitWhenLooked ↔
      ¬ ((e = .tilt60 ∨ e = .messageArrived) ∧ w.mainState = .time ∧ w.displayOn = false) := by
  unfold Watch.LitWhenLooked at *
  cases hs with
  | message hm =>
    rcases hm with hm | hm
    · simp [hm, MState.looked]
    · simpa [hm, MState.looked] using h
  | tilt ht => simp [ht, MState.looked]
  | hold => simp [MState.looked, displayPowerOn]
  | holdRadar hr => simpa [hr, MState.looked] using h
  | untilt | inactiveRadar | releaseRadar | dismiss => simp [MState.looked]
  | toTime hi he => rcases he with rfl | rfl <;> simp [MState.looked]
  | toCfg hi he => rcases he with rfl | rfl <;> simp [MState.looked, displayPowerOn]
  | boot | confirm => simp [MState.looked]
  | nextKey hc => simpa [hc, MState.looked] using h
  | acceptKey hc => simpa [hc, MState.looked] using h
  | tick => simpa using h
  | blank ht | inactive ht | push ht | wakeup ht | longInactive ht | release ht =>
    simp [ht, MState.looked, displayOff, displayPowerOn, grprStopAdverts]
  | ignored hi =>
    refine iff_of_true h ?_
    rintro ⟨rfl | rfl, ht, -⟩ <;> simp [ignores, ht] at hi

theorem litWhenLooked_handle {w : Watch} (h : w.LitWhenLooked) (i : Input) :
    (handle w i).LitWhenLooked ↔ ¬ i.entersDark w := by
  cases i with
  | advTimeout env => exact iff_of_true h not_false
  | report env r =>
    have hs := onlyStore_report env r w
    refine iff_of_true ?_ not_false
    show (grprProcessAdverts env r w).mainState.looked = _ →
      (grprProcessAdverts env r w).displayOn = _
    rw [hs.mainState, hs.displayOn]
    exact h
  | event env e => exact (mainStep env e w).litWhenLooked h

/-- **When the screens meant to be looked at are lit**: in the runs in which no tilt and no
message arrives in `TIME` while the display is off. -/
theorem lit_exact (env : Env) (nv : Nvram) (is : List Input) :
    Always handle Watch.LitWhenLooked (created env nv) is ↔
      EachStep handle (fun w i => ¬ i.entersDark w) (created env nv) is :=
  always_iff_eachStep (I := fun _ => True) (fun _ _ _ => trivial)
    (fun _ i _ h => litWhenLooked_handle h i) trivial
    (by simp [Watch.LitWhenLooked, MState.looked]) is

/-- A message reaches a watch that has blanked its display: it is never visible. -/
theorem message_in_the_dark :
    ¬ Always handle Watch.LitWhenLooked (created (nominalEnv 0) (configuredNvram 60))
      ([.nextPush, .shortInactive, .messageArrived].map (.event (nominalEnv 0))) := by
  intro h
  exact absurd h.final (by decide +kernel)

/-! ## The flag on the air -/

/-- The group state after a main event. -/
def groupAfter (w : Watch) (e : MEvent) : GState :=
  match w.mainState, e with
  | .time, .bothHold | .radar, .bothHold => .grouping
  | .time, .bothRelease | .radar, .bothRelease => .idle
  | _, _ => w.groupState

theorem MainStep.groupState {env : Env} {e : MEvent} {w w' : Watch} (hs : MainStep env e w w') :
    w'.groupState = groupAfter w e := by
  cases hs with
  | hold ht | release ht | holdRadar ht | releaseRadar ht =>
    simp [groupAfter, ht]
  | toTime hi he | toCfg hi he =>
    rcases he with rfl | rfl <;> simp [groupAfter, hi, displayPowerOn, readConfigValid,
      bleprofileReadNVRAM]
  | message hm => rcases hm with hm | hm <;> simp [groupAfter, hm]
  | tick => simp [groupAfter]
  | boot h | nextKey h | acceptKey h | confirm h | dismiss h | tilt h | untilt h | blank h
  | inactive h | inactiveRadar h | push h | wakeup h | longInactive h =>
    simp [groupAfter, h, displayOff, displayPowerOn, grprStopAdverts]
  | ignored hi =>
    unfold groupAfter
    split <;> simp_all [ignores]

theorem groupState_process (env : Env) (e : MEvent) (w : Watch) :
    (mainfsmProcessEvent env e w).groupState = groupAfter w e := (mainStep env e w).groupState

/-- Main events leave the store alone. -/
theorem store_process (env : Env) (e : MEvent) (w : Watch) :
    (mainfsmProcessEvent env e w).store = w.store := by
  have hs := mainStep env e w
  generalize mainfsmProcessEvent env e w = w' at hs ⊢
  cases hs <;>
    simp [displayOff, displayPowerOn, grprStopAdverts, readConfigValid, bleprofileReadNVRAM]

/-- Grouping is confined to the states reached past the configuration. -/
def Watch.GroupsWhenRunning (w : Watch) : Prop :=
  w.groupState = .grouping → w.mainState = .time ∨ w.mainState = .radar ∨ w.mainState = .message

theorem MainStep.groupsWhenRunning {env : Env} {e : MEvent} {w w' : Watch}
    (hs : MainStep env e w w') (h : w.GroupsWhenRunning) : w'.GroupsWhenRunning := by
  intro hg
  have hg' := hs.groupState ▸ hg
  cases hs with
  | boot hm | nextKey hm | acceptKey hm | confirm hm =>
    have := h (by simpa [groupAfter, hm] using hg')
    simp [hm] at this
  | toTime hi he | toCfg hi he =>
    have := h (by rcases he with rfl | rfl <;> simpa [groupAfter, hi] using hg')
    simp [hi] at this
  | tick => simpa using h (by simpa [groupAfter] using hg')
  | message | dismiss | tilt | untilt | inactiveRadar | hold | releaseRadar => simp
  | blank ht | inactive ht | push ht | wakeup ht | longInactive ht | release ht | holdRadar ht =>
    simp [ht, displayOff, displayPowerOn, grprStopAdverts]
  | ignored => exact h hg

/-- A watch that is grouping says so on the air. -/
def Watch.GroupingOnAir (w : Watch) : Prop :=
  w.groupState = .grouping → w.chip.saysGrouping = true

instance (w : Watch) : Decidable w.GroupingOnAir := inferInstanceAs (Decidable (_ → _))

/-- Advertising is started over without the flag while the watch is grouping: when it times
out, and when the watch is woken up in `TIME`. -/
def Input.dropsFlag (w : Watch) : Input → Prop
  | .event _ e => w.groupState = .grouping ∧ w.mainState = .time ∧
      (e = .nextPush ∨ e = .wakeup ∧ w.ignoreWake = false)
  | .advTimeout _ => w.groupState = .grouping
  | .report _ _ => False

/-- Advertising started with `flags` says grouping if they have the flag. -/
@[simp] theorem saysGrouping_startAdverts (env : Env) (flags : UInt8) (w : Watch) :
    (grprStartAdverts env flags w).chip.saysGrouping = decide (flags &&& flagGrouping ≠ 0) := by
  rw [Chip.saysGrouping, advData_startAdverts, payloadByte_advFields_state, Option.any_some]

theorem saysGrouping_congr {c c' : Chip} (h : c.advData = c'.advData) :
    c.saysGrouping = c'.saysGrouping := by
  rw [Chip.saysGrouping, h]
  rfl

/-- A step that keeps the group state and the payload keeps the rule. -/
theorem groupingOnAir_of_eq {w w' : Watch} (h : w.GroupingOnAir)
    (hg : w'.groupState = w.groupState) (ha : w'.chip.advData = w.chip.advData) :
    w'.GroupingOnAir := by
  intro h'
  rw [saysGrouping_congr ha]
  exact h (hg ▸ h')

/-- Starting advertising without the flag keeps the rule when the watch is not grouping. -/
theorem groupingOnAir_startAdverts (env : Env) (w : Watch) :
    (grprStartAdverts env 0 w).GroupingOnAir ↔ w.groupState ≠ .grouping := by
  simp [Watch.GroupingOnAir]

theorem groupingOnAir_groupfsm (env : Env) {w : Watch} (h : w.GroupingOnAir) :
    (groupfsmProcessEvent env .groupingStart w).GroupingOnAir ∧
      (groupfsmProcessEvent env .groupingStop w).GroupingOnAir := by
  cases hg : w.groupState with
  | idle =>
    rw [groupfsm_start hg, groupfsm_stop_idle hg]
    refine ⟨fun _ => ?_, h⟩
    exact (saysGrouping_startAdverts env flagGrouping w).trans (by decide)
  | grouping =>
    rw [groupfsm_start_grouping hg, groupfsm_stop hg]
    refine ⟨h, fun hi => ?_⟩
    cases hi

theorem MainStep.groupingOnAir {env : Env} {e : MEvent} {w w' : Watch} (hs : MainStep env e w w')
    (hr : w.GroupsWhenRunning) (h : w.GroupingOnAir) :
    w'.GroupingOnAir ↔ ¬ (w.groupState = .grouping ∧ w.mainState = .time ∧
      (e = .nextPush ∨ e = .wakeup ∧ w.ignoreWake = false)) := by
  cases hs with
  | push ht => simp [groupingOnAir_startAdverts, ht, displayPowerOn]
  | wakeup ht hi => simp [groupingOnAir_startAdverts, ht, hi, displayPowerOn]
  | hold ht =>
    have hw : (displayPowerOn w).GroupingOnAir := h
    exact iff_of_true (groupingOnAir_of_eq (groupingOnAir_groupfsm env hw).1 rfl rfl) (by simp)
  | holdRadar => exact iff_of_true (groupingOnAir_groupfsm env h).1 (by simp)
  | release => exact iff_of_true (groupingOnAir_groupfsm env h).2 (by simp)
  | releaseRadar =>
    exact iff_of_true (groupingOnAir_of_eq (groupingOnAir_groupfsm env h).2 rfl rfl) (by simp)
  | boot hm | confirm hm | nextKey hm | acceptKey hm =>
    -- the group state machine is idle, and stays so
    have hidle : w.groupState ≠ .grouping := fun hg => by simpa [hm] using hr hg
    exact iff_of_true (fun hg => absurd (by simpa [displayOff] using hg) hidle)
      (fun hbad => hidle hbad.1)
  | toTime hi he | toCfg hi he => exact iff_of_true h (by simp [hi])
  | tick => exact iff_of_true (groupingOnAir_of_eq h (by simp) (by simp)) (by simp)
  | tilt | untilt => exact iff_of_true (groupingOnAir_of_eq h (by simp) (by simp)) (by simp)
  | message | dismiss | blank | inactive | inactiveRadar | longInactive =>
    exact iff_of_true h (by simp)
  | ignored hi =>
    refine iff_of_true h ?_
    rintro ⟨-, ht, rfl | ⟨rfl, hw⟩⟩ <;> simp_all [ignores]

theorem groupsWhenRunning_handle {w : Watch} (h : w.GroupsWhenRunning) (i : Input) :
    (handle w i).GroupsWhenRunning := by
  cases i with
  | advTimeout env => exact h
  | report env r =>
    have hs := onlyStore_report env r w
    show (grprProcessAdverts env r w).groupState = _ → _
    simp only [handle, muchiAdvertisementReport, hs.groupState, hs.mainState]
    exact h
  | event env e => exact (mainStep env e w).groupsWhenRunning h

theorem groupingOnAir_handle {w : Watch} (hr : w.GroupsWhenRunning) (h : w.GroupingOnAir)
    (i : Input) : (handle w i).GroupingOnAir ↔ ¬ i.dropsFlag w := by
  cases i with
  | advTimeout env => exact groupingOnAir_startAdverts env w
  | report env r =>
    have hs := onlyStore_report env r w
    exact iff_of_true (groupingOnAir_of_eq h hs.groupState hs.advData) not_false
  | event env e => exact (mainStep env e w).groupingOnAir hr h

/-- **When a watch that is grouping says so on the air**: in the runs in which, while it is
grouping, advertising does not time out and the watch is not woken up in `TIME`. -/
theorem groupingOnAir_exact (env : Env) (nv : Nvram) (is : List Input) :
    Always handle Watch.GroupingOnAir (created env nv) is ↔
      EachStep handle (fun w i => ¬ i.dropsFlag w) (created env nv) is :=
  always_iff_eachStep (fun _ i h => groupsWhenRunning_handle h i)
    (fun _ i hr h => groupingOnAir_handle hr h i) (by simp [Watch.GroupsWhenRunning])
    (by simp [Watch.GroupingOnAir]) is

/-- Both buttons are held, and advertising times out. -/
theorem timeout_drops_flag :
    ¬ Always handle Watch.GroupingOnAir (created (nominalEnv 0) (configuredNvram 60))
      [.event (nominalEnv 0) .nextPush, .event (nominalEnv 0) .bothHold,
        .advTimeout (nominalEnv 0)] := by
  intro h
  exact absurd h.final (by decide +kernel)

end Muchiwachi
