import Muchiwachi.Gestures
import Muchiwachi.Handheld
import Muchiwachi.Panel
import Muchiwachi.Screens

/-!
# The device (`main.c`, `buttons.c`, `gestures.c`)

The watch with what is around it: the buttons, the accelerometer and the display on their bus, the
panel, the clock, and the characteristics a phone can write. The radio stack calls one handler after
the other; `Device.step` is such a call. `Muchiwachi.DeviceRuns` is about runs of them.

`Device.step` has no result where a picture leaves an array.
-/

namespace Muchiwachi

open Lib Lib.MemoryLcd Lib.SpiBus Lib.Raster MainFsm

/-! ## Redraws -/

/-- The watch `display_update` is called with, where a main event calls it. -/
def drawnFrom (w : Watch) (e : MEvent) : Option Watch :=
  if redraws w e then
    some (if w.mainState = .cfg ∧ e = .nextPush then (displayKeypress .next w).2 else w)
  else none

/-- A call only `display_update` makes. -/
def Call.updatesDisplay : Call → Bool
  | .setPin .displayExtcomin _ | .draw _ => true
  | _ => false

/-- Going from `w` to `w'` the display is not updated. -/
abbrev NoUpdate (w w' : Watch) : Prop := Issues (fun k => k.updatesDisplay = false) w w'

theorem Call.updatesDisplay_of_leavesPins {k : Call} (h : k.leavesPins = true)
    (hd : k.kind ≠ .panel) : k.updatesDisplay = false := by
  cases k with
  | setPin => cases h
  | draw => exact absurd rfl hd
  | _ => rfl

theorem NoUpdate.of_kind {P : Call → Prop} {w w' : Watch} (h : Issues P w w')
    (hp : ∀ k, P k → k.kind ≠ .panel) : NoUpdate w w' :=
  h.mono fun k hk => Call.updatesDisplay_of_leavesPins (Call.leavesPins_of_kind (hp k hk)) (hp k hk)

theorem noUpdate_displayOff (w : Watch) : NoUpdate w (displayOff w) :=
  .then_ram (.call (k := .setPin .display5vOn false) (by rfl) w) rfl rfl

theorem noUpdate_displayPowerOn (w : Watch) : NoUpdate w (displayPowerOn w) :=
  .then_ram (.call (k := .setPin .display5vOn true) (by rfl) w) rfl rfl

theorem noUpdate_startAdverts (env : Env) (flags : UInt8) (w : Watch) :
    NoUpdate w (grprStartAdverts env flags w) :=
  .of_kind (issues_startAdverts env w flags) fun _ hk => by simp [hk]

/-- **An event is nothing to the display but the `display_update` it calls.** -/
theorem MainStep.drawsFrom {env : Env} {e : MEvent} {w w' : Watch} (hs : MainStep env e w w') :
    match drawnFrom w e with
    | some v => v.calls = w.calls ∧ v.chip = w.chip ∧ NoUpdate (displayUpdate env v) w'
    | none => NoUpdate w w' := by
  have hquiet : redraws w e = false → NoUpdate w w' →
      match drawnFrom w e with
      | some v => v.calls = w.calls ∧ v.chip = w.chip ∧ NoUpdate (displayUpdate env v) w'
      | none => NoUpdate w w' := by
    intro hr h
    rw [drawnFrom, hr]
    exact h
  have hissues := hs.issues
  by_cases hpanel : .panel ∈ stepKinds w e
  · cases hs with
    | tick ht =>
      simp only [drawnFrom, redraws_tick, ht, if_true]
      rw [if_neg (by simp)]
      exact ⟨rfl, rfl, .ram rfl rfl⟩
    | nextKey hm =>
      simp only [drawnFrom, redraws, hm, if_true, and_self]
      exact ⟨rfl, rfl, .ram rfl rfl⟩
    | tilt hm | untilt hm =>
      simp only [drawnFrom, redraws, hm, if_true]
      rw [if_neg (by simp)]
      exact ⟨rfl, rfl, .then_ram (.call (by rfl) _) rfl rfl⟩
    | boot hm =>
      have hstart : NoUpdate w (startIfConfigured env w) :=
        .of_kind (issues_startIfConfigured env w) fun _ hk => by
          rcases hk with hk | hk <;> simp [hk]
      exact hquiet (by simp [redraws, hm])
        ((hstart.trans (noUpdate_displayOff _)).then_ram rfl rfl)
    | blank hm =>
      have hflag : NoUpdate w { w with ignoreWake := true } := .ram rfl rfl
      exact hquiet (by simp [redraws, hm]) (hflag.trans (noUpdate_displayOff _))
    | inactive hm => exact hquiet (by simp [redraws, hm]) (noUpdate_displayOff w)
    | inactiveRadar hm =>
      exact hquiet (by simp [redraws, hm])
        (((noUpdate_displayOff w).trans (.call (k := .scan .noScan) (by rfl) _)).then_ram rfl rfl)
    | toTime hm he =>
      have hread : NoUpdate w (readConfigValid env w).2 :=
        .of_kind (issues_readConfigValid env w) fun _ hk => by simp [hk]
      exact hquiet (by rcases he with rfl | rfl <;> simp [redraws, hm]) (hread.then_ram rfl rfl)
    | toCfg hm he =>
      have hread : NoUpdate w (readConfigValid env w).2 :=
        .of_kind (issues_readConfigValid env w) fun _ hk => by simp [hk]
      exact hquiet (by rcases he with rfl | rfl <;> simp [redraws, hm])
        ((hread.trans (noUpdate_displayPowerOn _)).then_ram rfl rfl)
    | push hm =>
      have hflag : NoUpdate w { w with ignoreWake := false } := .ram rfl rfl
      exact hquiet (by simp [redraws, hm])
        ((hflag.trans (noUpdate_displayPowerOn _)).trans (noUpdate_startAdverts env 0 _))
    | wakeup hm =>
      exact hquiet (by simp [redraws, hm])
        ((noUpdate_displayPowerOn w).trans (noUpdate_startAdverts env 0 _))
    | hold hm =>
      have hgroup : NoUpdate (displayPowerOn w)
          (groupfsmProcessEvent env .groupingStart (displayPowerOn w)) :=
        .of_kind (issues_groupfsm env _ (by decide)) fun _ hk => by simp [hk]
      exact hquiet (by simp [redraws, hm])
        ((((noUpdate_displayPowerOn w).trans hgroup).trans
          (.call (k := .scan .lowScan) (by rfl) _)).then_ram rfl rfl)
    | ignored hi => exact hquiet (redraws_of_ignores hi) (.ram rfl rfl)
    | message hm => rcases hm with hm | hm <;> simp [stepKinds, hm] at hpanel
    | acceptKey hm | confirm hm | dismiss hm | longInactive hm | holdRadar hm | release hm
    | releaseRadar hm => simp [stepKinds, hm] at hpanel
  · have hredraws : redraws w e = false := by
      unfold redraws
      split <;> simp_all [stepKinds]
    exact hquiet hredraws (.of_kind hissues fun k hk h => hpanel (h ▸ hk))

/-! ## The device -/

/-- `HANDLE_MUCHI_TIME` and `HANDLE_MUCHI_MESSAGE`. -/
def handleMuchiTime : UInt16 := 0x2a
def handleMuchiMessage : UInt16 := 0x2c

/-- The values `muchi_gatt_database` gives the characteristics that can be written. -/
def muchiGattDatabase (handle : UInt16) : List UInt8 :=
  if handle = handleMuchiTime then [0, 0, 0]
  else if handle = handleMuchiMessage then List.replicate 20 0
  else []

/-- What the outside answers while a handler runs. The message in `env` does not count: it is read
from its characteristic. -/
structure Moment where
  env : Env
  prior : Nat → Vector UInt8 6
  beyond : List UInt8
  /-- What `spiffyd_rxData` clocks out. -/
  fill : UInt8
  /-- `bleappevt_serialize` takes an event. -/
  queued : Bool
  /-- `rtc_setRTCTime` succeeds. -/
  clockSet : Bool

structure Device (α : Type) where
  watch : Watch
  u8g : U8g
  lcd : Lcd
  board : Board α
  /-- The memory of the panel. -/
  panel : Nat → List UInt8
  /-- The events `bleappevt_serialize` has taken, the oldest first. -/
  pending : List MEvent
  /-- The levels of the pins that are inputs, by port and place. -/
  levels : UInt8 → UInt8 → Bool
  rtc : RtcTime
  /-- The characteristics, by handle. -/
  attr : UInt16 → List UInt8

section

variable {α : Type} (chip : Lis3dsh α)

namespace Device

/-- `bleprofile_ReadHandle` and the like, for the watch in the device. -/
def env (m : Moment) (d : Device α) : Env := { m.env with message := d.attr handleMuchiMessage }

def sources (m : Moment) (d : Device α) : Sources := ⟨d.rtc, m.prior, m.beyond⟩

/-- `bleprofile_WriteHandle`. -/
def writeHandle (handle : UInt16) (value : List UInt8) (d : Device α) : Device α :=
  { d with attr := Function.update d.attr handle value }

/-- Something is done on the bus, and the panel takes the transfers that arrive. -/
def onBus (f : Board α → Board α) (d : Device α) : Device α :=
  let board := f d.board
  let fs := (board.state .display).frames.drop (d.board.state .display).frames.length
  { d with board, panel := fs.foldl (takeTransfer bytesPerLine) d.panel }

/-- The display driver draws: from `lcd` on, what it has done goes over the bus. -/
def draw (u : U8g) (lcd : Lcd) (d : Device α) : Device α :=
  { d with u8g := u, lcd := lcd }.onBus (play chip.toSlave (lcd.trace.drop d.lcd.trace.length))

/-- Turns enough for any loop of a picture. -/
def pictureFuel : Nat := 129

/-- `mainfsm_process_event`, with what it draws. -/
def mainfsmProcessEvent (m : Moment) (e : MEvent) (d : Device α) : Option (Device α) :=
  let w := Muchiwachi.mainfsmProcessEvent (d.env m) e d.watch
  match drawnFrom d.watch e with
  | none => some { d with watch := w }
  | some v =>
    (displayUpdatePanel pictureFuel (d.env m) (d.sources m) v d.u8g d.lcd).map fun r =>
      { d with watch := w }.draw chip r.1 r.2

/-! ## Interrupts -/

end Device

/-- `GPIO_NEXT_BTN` and `GPIO_ACCEPT_BTN`. -/
def gpioNextBtn : UInt8 := 3
def gpioAcceptBtn : UInt8 := 15

/-- An `interrupt_handler_mask`: for each port the places of the pins that interrupt. -/
def interruptHandlerMask (pins : List UInt8) (port : UInt8) : UInt16 :=
  pins.foldl (fun (mask : UInt16) (pin : UInt8) =>
    if pin >>> 4 = port then mask ||| (1 <<< (pin &&& 0xf).toUInt16) else mask) 0

/-- The masks of `grpr_buttons_configure` and of `gestures_init`. -/
def buttonsMask : UInt8 → UInt16 := interruptHandlerMask [gpioNextBtn, gpioAcceptBtn]
def gesturesMask : UInt8 → UInt16 := interruptHandlerMask [muchiGpioAccelInt1, muchiGpioAccelInt2]

/-- The pin interrupts. -/
def interrupts (mask : UInt8 → UInt16) (port bit : UInt8) : Bool :=
  mask port &&& (1 <<< bit.toUInt16) ≠ 0

/-- `gpio_getPinInput` of a pin. -/
def gpioGetPinInput (levels : UInt8 → UInt8 → Bool) (pin : UInt8) : Bool :=
  levels (pin >>> 4) (pin &&& 0xf)

/-- `buttons_interrupt_handler`, with the event its button handler gives to the main state machine;
an unexpected interrupt is only traced. -/
def buttonsInterruptHandler (levels : UInt8 → UInt8 → Bool) (value : UInt8) : Option MEvent :=
  let next := gpioGetPinInput levels gpioNextBtn
  let accept := gpioGetPinInput levels gpioAcceptBtn
  if value = gpioNextBtn then some (edgeEvent .nextPush next accept)
  else if value = gpioAcceptBtn then some (edgeEvent .acceptPush accept next)
  else none

namespace Device

/-- A pin changes its level. -/
def flip (port bit : UInt8) (d : Device α) : Device α :=
  let pins := Function.update (d.levels port) bit (!d.levels port bit)
  { d with levels := Function.update d.levels port pins }

/-- The accelerometer goes from `a` to `f a`. -/
def move (f : α → α) (d : Device α) : Device α :=
  { d with board := { d.board with
      state := Function.update d.board.state .accel (f (d.board.state .accel)) } }

/-- `accel_int_handler`, with the queue. -/
def accelInterrupt (m : Moment) (gpioPin : UInt8) (d : Device α) : Device α :=
  let r := accelIntHandler chip m.fill gpioPin d.board
  { d.onBus fun _ => r.2 with pending := d.pending ++ if m.queued then r.1 else [] }

/-- The interrupts of an edge: the accelerometer raises its pins, a button both edges. -/
def edge (m : Moment) (port bit : UInt8) (d : Device α) : Option (Device α) :=
  let d := d.flip port bit
  let arg := gpioArg port bit
  let d := if d.levels port bit && interrupts gesturesMask port bit then
    d.accelInterrupt chip m arg else d
  match if interrupts buttonsMask port bit then buttonsInterruptHandler d.levels arg else none with
  | some e => d.mainfsmProcessEvent chip m e
  | none => some d

/-- `serialized_callback`, for the oldest event. -/
def serializedCallback (m : Moment) (d : Device α) : Option (Device α) :=
  match d.pending with
  | [] => some d
  | e :: es => { d with pending := es }.mainfsmProcessEvent chip m e

/-! ## Callbacks -/

def showTime (d : Device α) : Device α :=
  d.writeHandle handleMuchiTime [.ofNat d.rtc.hour, .ofNat d.rtc.minute, .ofNat d.rtc.second]

/-- `muchi_timeout`, once a second. -/
def muchiTimeout (m : Moment) (d : Device α) : Option (Device α) :=
  (d.showTime.mainfsmProcessEvent chip m .tick1s).map (onBus (accelDebugInterrupts chip))

/-- The time of day `muchi_write_handler` takes from a value. -/
def timeWritten (value : List UInt8) : RtcTime where
  hour := (value.getD 0 0).toNat % 24
  minute := (value.getD 1 0).toNat % 60
  second := (value.getD 2 0).toNat % 60
  hour_lt := Nat.mod_lt _ (by decide)
  minute_lt := Nat.mod_lt _ (by decide)
  second_lt := Nat.mod_lt _ (by decide)

/-- `muchi_write_handler`, when the value is in its characteristic. -/
def muchiWriteHandler (m : Moment) (handle : UInt16) (d : Device α) : Option (Device α) :=
  let value := d.attr handle
  if handle = handleMuchiTime ∧ value.length = 3 then
    some (if m.clockSet then { d with rtc := timeWritten value } else d)
  else if handle = handleMuchiMessage ∧ 0 < value.length then
    d.mainfsmProcessEvent chip m .messageArrived
  else some d

/-! ## Power -/

/-- `muchi_create`, whatever there was before. -/
def muchiCreate (boot : Env) (nv : Nvram) (d : Device α) : Option (Device α) :=
  let d := { d with watch := created boot nv, pending := [], attr := muchiGattDatabase }
  let d := d.onBus (setUpBus chip)
  (displayInitPanel pictureFuel (booting boot nv) d.u8g d.lcd).map fun r => d.draw chip r.1 r.2

end Device

/-- What can happen to a device. -/
inductive DeviceInput where
  /-- A pin changes its level. -/
  | edge (m : Moment) (port bit : UInt8)
  /-- The accelerometer works on its own; its settings stay. -/
  | motion (f : α → α) (h : ∀ a, chip.reg (f a) = chip.reg a)
  /-- An event that was serialized is taken up. -/
  | serialized (m : Moment)
  | timeout (m : Moment)
  | advTimeout (m : Moment)
  | report (m : Moment) (r : AdvReport)
  /-- A phone writes a characteristic. -/
  | write (m : Moment) (handle : UInt16) (value : List UInt8)
  /-- The clock advances. -/
  | clock (t : RtcTime)
  /-- A panel without power loses what it holds. -/
  | fade (mem : Nat → List UInt8)
  /-- Power is lost after `j` of the NVRAM writes of handling `i`, and the watch is started again
  over the `remains` of the device. -/
  | powerLoss (i : Input) (j : Nat) (boot : Env) (remains : Device α)

def Device.step (d : Device α) : DeviceInput chip → Option (Device α)
  | .edge m port bit => d.edge chip m port bit
  | .motion f _ => some (d.move f)
  | .serialized m => d.serializedCallback chip m
  | .timeout m => d.muchiTimeout chip m
  | .advTimeout m => some { d with watch := muchiAdvertisementTimeout (d.env m) d.watch }
  | .report m r => some { d with watch := muchiAdvertisementReport (d.env m) r d.watch }
  | .write m handle value => (d.writeHandle handle value).muchiWriteHandler chip m handle
  | .clock t => some { d with rtc := t }
  | .fade mem => some (if d.watch.chip.pins .display5vOn then d else { d with panel := mem })
  | .powerLoss i j boot remains =>
    remains.muchiCreate chip boot (d.watch.crashNvram (handle d.watch i) j)

end

end Muchiwachi
