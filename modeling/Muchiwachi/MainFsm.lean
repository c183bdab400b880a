import Muchiwachi.Display
import Muchiwachi.GroupFsm

/-!
# The main state machine (`mainfsm.c`), in a build without `CHARM_BUILD`
-/

namespace Muchiwachi

open Lib

namespace MainFsm

/-- `event_t`. No handler reads `data`. -/
structure Event where
  env : Env
  type : MEvent

/-! ## State actions -/

def doStateBoot (evt : Event) (w : Watch) : MState × Watch :=
  match evt.type with
  | .bootDone => (.idle, w)
  | _ => (.boot, w)

/-- Read the configuration mark into the uninitialised local `config_valid`. -/
def readConfigValid (env : Env) (w : Watch) : UInt8 × Watch :=
  let r := bleprofileReadNVRAM env nvmConfigIsValid 1 w
  (r.1.getD 0 env.configValid, r.2)

def doStateIdle (evt : Event) (w : Watch) : MState × Watch :=
  match evt.type with
  | .nextPush | .acceptPush =>
    let r := readConfigValid evt.env w
    (if r.1 ≠ 0 then .time else .cfg, r.2)
  | _ => (.idle, w)

def doStateMessage (evt : Event) (w : Watch) : MState × Watch :=
  match evt.type with
  | .tick1s => (.message, displayUpdate evt.env w)
  | .acceptPush => (.time, w)
  | _ => (.message, w)

/-- The code shared by `NEXT_PUSH` and `WAKEUP`. -/
def wake (env : Env) (w : Watch) : Watch :=
  if !w.ignoreWake then grprStartAdverts env 0 (displayPowerOn w) else w

def doStateTime (evt : Event) (w : Watch) : MState × Watch :=
  match evt.type with
  | .messageArrived => (.message, w)
  | .tick1s => (.time, displayUpdate evt.env w)
  | .tilt60 => (.radar, displayUpdate evt.env w)
  -- falls through to SHORT_INACTIVE
  | .acceptPush => (.time, displayOff { w with ignoreWake := true })
  | .shortInactive => (.time, displayOff w)
  -- falls through to WAKEUP
  | .nextPush => (.time, wake evt.env { w with ignoreWake := false })
  | .wakeup => (.time, wake evt.env w)
  | .longInactive => (.time, grprStopAdverts w)
  | .bothHold => (.radar, groupfsmProcessEvent evt.env .groupingStart (displayPowerOn w))
  | .bothRelease => (.time, groupfsmProcessEvent evt.env .groupingStop w)
  | _ => (.time, w)

/-- The bytes of `g_avatar`. -/
def avatarBytes (w : Watch) : List UInt8 := [w.gAvatar.1, w.gAvatar.2]

/-- Save a confirmed avatar, and the configuration mark if that worked. -/
def saveConfig (env : Env) (w : Watch) : Watch :=
  let r := bleprofileWriteNVRAM env nvmAvatarCode (avatarBytes w) w
  if r.1 = 2 then (bleprofileWriteNVRAM env nvmConfigIsValid [1] r.2).2 else r.2

@[simp] theorem mainState_saveConfig (env : Env) (w : Watch) :
    (saveConfig env w).mainState = w.mainState := by
  unfold saveConfig
  simp only
  split <;> rfl

def doStateCfg (evt : Event) (w : Watch) : MState × Watch :=
  match evt.type with
  | .nextPush => (.cfg, displayUpdate evt.env (displayKeypress .next w).2)
  | .acceptPush =>
    let r := displayKeypress .accept w
    if r.1 then (.time, saveConfig evt.env r.2) else (.cfg, r.2)
  | .tick1s => (.cfg, displayUpdate evt.env w)
  | _ => (.cfg, w)

def doStateRadar (evt : Event) (w : Watch) : MState × Watch :=
  match evt.type with
  | .messageArrived => (.message, w)
  | .tick1s => (.radar, displayUpdate evt.env w)
  | .untilt60 => (.time, displayUpdate evt.env w)
  | .shortInactive => (.time, displayOff w)
  | .bothHold => (.radar, groupfsmProcessEvent evt.env .groupingStart w)
  | .bothRelease => (.time, groupfsmProcessEvent evt.env .groupingStop w)
  | _ => (.radar, w)

/-! ## Transition actions -/

def doTimeToRadar (_ : Event) (w : Watch) : Watch := w.call (.scan .lowScan)

def doRadarToTime (_ : Event) (w : Watch) : Watch := w.call (.scan .noScan)

/-- Read the saved avatar into `g_avatar`. -/
def readAvatar (env : Env) (w : Watch) : Watch :=
  let r := bleprofileReadNVRAM env nvmAvatarCode 2 w
  { r.2 with gAvatar := (r.1.getD 0 w.gAvatar.1, r.1.getD 1 w.gAvatar.2) }

/-- The code shared by `do_boot_to_idle` and `do_cfg_to_time`. -/
def startIfConfigured (env : Env) (w : Watch) : Watch :=
  let r := readConfigValid env w
  if r.1 ≠ 0 then grprStartAdverts env 0 (readAvatar env r.2) else r.2

def doBootToIdle (evt : Event) (w : Watch) : Watch := displayOff (startIfConfigured evt.env w)

def doIdleToCfg (_ : Event) (w : Watch) : Watch := displayPowerOn w

def doCfgToTime (evt : Event) (w : Watch) : Watch := startIfConfigured evt.env w

/-! ## The tables -/

def table : TableFsm MState Event Watch where
  cur w := w.mainState
  setCur s w := { w with mainState := s }
  stateTable
    | .boot => doStateBoot
    | .idle => doStateIdle
    | .cfg => doStateCfg
    | .time => doStateTime
    | .radar => doStateRadar
    | .message => doStateMessage
  transitionTable
    | .boot, .idle => some doBootToIdle
    | .idle, .cfg => some doIdleToCfg
    | .cfg, .time => some doCfgToTime
    | .time, .radar => some doTimeToRadar
    | .radar, .time => some doRadarToTime
    | _, _ => none

end MainFsm

def mainfsmProcessEvent (env : Env) (type : MEvent) (w : Watch) : Watch :=
  MainFsm.table.processEvent ⟨env, type⟩ w

end Muchiwachi
