import Muchiwachi.Board
import Muchiwachi.Lib.Records
import Muchiwachi.Basic
import Mathlib.Data.List.Nodup

/-!
# Gestures (`gestures.c`)

At boot the accelerometer is given two programs of its own, one for each of its interrupt pins; an
interrupt of a program tells the main state machine what was done to the watch. `settings_boot` says
what the registers hold after the set-up, whatever they and the chip selects were before.

The chip is not code. `Lis3dsh` is what the driver relies on: an access without the read flag sets
a register, one with it sets none, and bit 0 of `CTRL_3` resets them all.
-/

namespace Muchiwachi

open Lib Lib.SpiBus

/-! ## Registers and commands (`lis3dsh.h`) -/

def lis3dshRegCtrl1 : UInt8 := 0x21
def lis3dshRegCtrl2 : UInt8 := 0x22
def lis3dshRegCtrl4 : UInt8 := 0x20
def lis3dshRegCtrl5 : UInt8 := 0x24
def lis3dshRegStateMachine1Base : UInt8 := 0x40
def lis3dshRegTimer4Pin1 : UInt8 := 0x50
def lis3dshRegTimer2Pin1L : UInt8 := 0x52
def lis3dshRegTimer2Pin1H : UInt8 := 0x53
def lis3dshRegThreshold2Pin1 : UInt8 := 0x56
def lis3dshRegMaskB1 : UInt8 := 0x59
def lis3dshRegMaskA1 : UInt8 := 0x5A
def lis3dshRegSettingMotoin1 : UInt8 := 0x5B
def lis3dshRegProgramResetPin1 : UInt8 := 0x5C
def lis3dshRegInterruptManagePin1 : UInt8 := 0x5F
def lis3dshRegStateMachine2Base : UInt8 := 0x60
def lis3dshRegTimer2Pin2L : UInt8 := 0x72
def lis3dshRegTimer2Pin2H : UInt8 := 0x73
def lis3dshRegThreshold1Pin2 : UInt8 := 0x77
def lis3dshRegMaskB2 : UInt8 := 0x79
def lis3dshRegMaskA2 : UInt8 := 0x7A
def lis3dshRegSettingMotoin2 : UInt8 := 0x7B
def lis3dshRegProgramResetPin2 : UInt8 := 0x7C
def lis3dshRegInterruptManagePin2 : UInt8 := 0x7F

def lis3dshCondTi2 : UInt8 := 0x2
def lis3dshCondTi4 : UInt8 := 0x4
def lis3dshCondGnth1 : UInt8 := 0x5
def lis3dshCondGnth2 : UInt8 := 0x6
def lis3dshCondLnth2 : UInt8 := 0x8
def lis3dshCondLlth2 : UInt8 := 0xA

def lis3dshCmdCont : UInt8 := 0x11
def lis3dshCmdSelma : UInt8 := 0x14
def lis3dshCmdJmp : UInt8 := 0x22
def lis3dshCmdSelsa : UInt8 := 0x24
def lis3dshCmdOutw : UInt8 := 0x99

/-! ## The set-up -/

/-- The program for tilting, run on pin 1. -/
def stateMachine1 : List UInt8 :=
  [lis3dshCondLlth2,
    lis3dshCmdSelsa,
    lis3dshCondGnth2,
    (lis3dshCondTi4 <<< 4) ||| lis3dshCondLnth2,
    (lis3dshCondTi4 <<< 4) ||| lis3dshCondGnth2,
    (lis3dshCondTi4 <<< 4) ||| lis3dshCondLnth2,
    lis3dshCmdOutw,
    lis3dshCmdJmp,
    (lis3dshCondTi2 <<< 4) ||| lis3dshCondGnth2,
    0xaa,
    lis3dshCmdSelma,
    lis3dshCmdCont]

/-- The program for inactivity, run on pin 2. -/
def stateMachine2 : List UInt8 :=
  [lis3dshCondLnth2,
    (lis3dshCondGnth1 <<< 4) ||| lis3dshCondTi2,
    lis3dshCmdOutw,
    lis3dshCondGnth1,
    lis3dshCmdCont]

/-- The writes of a program, one place after the other. -/
def programWrites (base : UInt8) (program : List UInt8) : List (UInt8 × UInt8) :=
  program.zipIdx.map fun p => (base + .ofNat p.2, p.1)

/-- What `gestures_init` writes after the reset. -/
def gesturesSettings : List (UInt8 × UInt8) :=
  [(lis3dshRegCtrl3, 0x58),
    (lis3dshRegCtrl4, 0x37),
    (lis3dshRegCtrl5, 0x0),
    (lis3dshRegThreshold2Pin1, 0x20),
    (lis3dshRegTimer4Pin1, 13),
    (lis3dshRegTimer2Pin1H, 0x02),
    (lis3dshRegTimer2Pin1L, 0xee),
    (lis3dshRegMaskA1, 0xF0),
    (lis3dshRegMaskB1, 0x10),
    (lis3dshRegSettingMotoin1, 0x23)] ++
  programWrites lis3dshRegStateMachine1Base stateMachine1 ++
  [(lis3dshRegTimer2Pin2H, 0x02),
    (lis3dshRegTimer2Pin2L, 0xee),
    (lis3dshRegThreshold1Pin2, 0x4),
    (lis3dshRegMaskA2, 0xFC),
    (lis3dshRegMaskB2, 0xFC),
    (lis3dshRegSettingMotoin2, 0x11)] ++
  programWrites lis3dshRegStateMachine2Base stateMachine2 ++
  [(lis3dshRegCtrl1, 0xE1),
    (lis3dshRegCtrl2, 0x09)]

/-- The value that resets the registers. -/
def softReset : UInt8 := 0x01

/-- The chip: its registers, and what an access does to them. -/
structure Lis3dsh (α : Type) extends Slave α where
  reg : α → UInt8 → UInt8
  /-- The registers after a reset. -/
  por : UInt8 → UInt8
  reg_reset (a : α) : reg (run next a (frame [lis3dshRegCtrl3, softReset])) = por
  reg_write (a : α) (addr val : UInt8) (hw : addr &&& lis3dshReadFlag = 0)
    (hr : ¬ (addr = lis3dshRegCtrl3 ∧ val &&& softReset ≠ 0)) :
    reg (run next a (frame [addr, val])) = Function.update (reg a) addr val
  reg_read (a : α) (addr fill : UInt8) (len : Nat) :
    reg (run next a (frame (readBytes fill addr len))) = reg a

/-- Reading leaves a register file alone. -/
theorem registerFile_read {por : UInt8 → UInt8} {s : RegisterFile} {addr : UInt8}
    (hphase : s.phase = .data addr) (hread : addr &&& lis3dshReadFlag ≠ 0) (bytes : List UInt8) :
    (run (registerFile por).next s (bytes.map .byte)).regs = s.regs := by
  induction bytes generalizing s addr with
  | nil => rfl
  | cons b bytes ih =>
    have hflag :
        ((addr &&& lis3dshReadFlag) ||| ((addr + 1) &&& 0x7f)) &&& lis3dshReadFlag ≠ 0 := by
      have hall : ∀ a : BitVec 8, UInt8.ofBitVec a &&& lis3dshReadFlag ≠ 0 →
          ((UInt8.ofBitVec a &&& lis3dshReadFlag) ||| ((UInt8.ofBitVec a + 1) &&& 0x7f)) &&&
            lis3dshReadFlag ≠ 0 := by decide +kernel
      exact hall addr.toBitVec hread
    have hbyte : (registerFile por).next s (.byte b) =
        ⟨s.regs, .data ((addr &&& lis3dshReadFlag) ||| ((addr + 1) &&& 0x7f))⟩ := by
      simp [registerFile, hphase, hread]
    rw [List.map_cons, run_cons, hbyte]
    exact ih rfl hflag

theorem readFlag_or (addr : UInt8) : (addr ||| lis3dshReadFlag) &&& lis3dshReadFlag ≠ 0 := by
  have hall : ∀ a : BitVec 8, (UInt8.ofBitVec a ||| lis3dshReadFlag) &&& lis3dshReadFlag ≠ 0 := by
    decide +kernel
  exact hall addr.toBitVec

/-- What is read is the register. -/
theorem read_registerFile {por : UInt8 → UInt8} {b : Board RegisterFile} (hidle : b.Idle)
    (fill addr : UInt8) : (accelReadReg8 (registerFile por) fill addr b).1 =
      (b.state .accel).regs ((addr ||| lis3dshReadFlag) &&& 0x7f) := by
  rw [accelReadReg8_eq _ fill addr hidle]
  simp [answered, Slave.replies, Slave.reply, readBytes, frame, outputs, registerFile,
    readFlag_or addr]

/-- A register file is a chip of this kind. -/
def registerChip (por : UInt8 → UInt8) : Lis3dsh RegisterFile where
  toSlave := registerFile por
  reg s := s.regs
  por := por
  reg_reset s := by
    have hw : lis3dshRegCtrl3 &&& lis3dshReadFlag = 0 := by decide
    have hr : softReset &&& 1 ≠ 0 := by decide
    simp [frame, registerFile, RegisterFile.store, hw, hr]
  reg_write s addr val hw hr := by
    simp only [softReset] at hr
    simp [frame, registerFile, RegisterFile.store, hw, hr]
  reg_read s addr fill len := by
    have hread := @registerFile_read por ⟨s.regs, .data (addr ||| lis3dshReadFlag)⟩ _ rfl
      (readFlag_or addr) (List.replicate len fill)
    rw [readBytes, frame, List.map_cons, run_cons, List.cons_append, run_cons, run_append]
    exact hread

section

variable {α : Type} (chip : Lis3dsh α)

/-- `gestures_init`, but for the interrupts. -/
def gesturesInit (b : Board α) : Board α :=
  let b := accelSpiMasterInit chip.toSlave b
  let b := accelWriteReg8 chip.toSlave lis3dshRegCtrl3 softReset b
  gesturesSettings.foldl (fun b w => accelWriteReg8 chip.toSlave w.1 w.2 b) b

/-- `accel_debug_interrupts`: the sensing block is switched off and on. -/
def accelDebugInterrupts (b : Board α) : Board α :=
  let b := accelWriteReg8 chip.toSlave lis3dshRegCtrl4 0x0 b
  accelWriteReg8 chip.toSlave lis3dshRegCtrl4 0x37 b

/-- What `muchi_create` does to the bus: `gestures_init()` and `spi_master_init(DISPLAY)`. -/
def setUpBus (b : Board α) : Board α :=
  spiMasterInit chip.toSlave selDisplay (gesturesInit chip b)

/-! ## What the registers hold -/

/-- The registers as `gestures_init` leaves them. -/
def settings : UInt8 → UInt8 := applyWrites chip.por gesturesSettings

/-- The accelerometer is not selected, and its registers are `regs`. -/
structure Holds (regs : UInt8 → UInt8) (b : Board α) : Prop where
  deselected : b.selected .accel = false
  reg : chip.reg (b.state .accel) = regs

variable {chip} {regs : UInt8 → UInt8} {b : Board α}

theorem Holds.reset (h : Holds chip regs b) :
    Holds chip chip.por (accelWriteReg8 chip.toSlave lis3dshRegCtrl3 softReset b) := by
  rw [accelWriteReg8_eq]
  refine ⟨?_, ?_⟩
  · rw [selected_transaction, if_pos rfl]
  · rw [state_transaction_self (slaves chip.toSlave) h.deselected]
    exact chip.reg_reset _

theorem Holds.write (h : Holds chip regs b) {addr val : UInt8}
    (hw : addr &&& lis3dshReadFlag = 0)
    (hr : ¬ (addr = lis3dshRegCtrl3 ∧ val &&& softReset ≠ 0)) :
    Holds chip (Function.update regs addr val) (accelWriteReg8 chip.toSlave addr val b) := by
  rw [accelWriteReg8_eq]
  refine ⟨?_, ?_⟩
  · rw [selected_transaction, if_pos rfl]
  · rw [state_transaction_self (slaves chip.toSlave) h.deselected, ← h.reg]
    exact chip.reg_write _ addr val hw hr

/-- A list of writes that set registers. -/
theorem Holds.writes (h : Holds chip regs b) {ws : List (UInt8 × UInt8)}
    (hws : ∀ w ∈ ws, w.1 &&& lis3dshReadFlag = 0 ∧
      ¬ (w.1 = lis3dshRegCtrl3 ∧ w.2 &&& softReset ≠ 0)) :
    Holds chip (applyWrites regs ws)
      (ws.foldl (fun b w => accelWriteReg8 chip.toSlave w.1 w.2 b) b) := by
  induction ws generalizing regs b with
  | nil => exact h
  | cons w ws ih =>
    obtain ⟨hw, hr⟩ := hws w List.mem_cons_self
    exact ih (h.write hw hr) fun v hv => hws v (List.mem_cons_of_mem _ hv)

theorem gesturesSettings_set : ∀ w ∈ gesturesSettings, w.1 &&& lis3dshReadFlag = 0 ∧
    ¬ (w.1 = lis3dshRegCtrl3 ∧ w.2 &&& softReset ≠ 0) :=
  List.forall_iff_forall_mem.mp (by decide)

/-- No register is set twice. -/
theorem gesturesSettings_nodup : (gesturesSettings.map (·.1)).Nodup := by decide

theorem holds_gesturesInit (b : Board α) : Holds chip (settings chip) (gesturesInit chip b) := by
  have hinit : Holds chip (chip.reg ((accelSpiMasterInit chip.toSlave b).state .accel))
      (accelSpiMasterInit chip.toSlave b) := by
    refine ⟨?_, rfl⟩
    rw [accelSpiMasterInit, gpio_accel]
    simp [Bus.step, selects, accelCsDeassert]
  exact hinit.reset.writes gesturesSettings_set

/-- A register that is set keeps its setting. -/
theorem settings_of_mem {w : UInt8 × UInt8} (h : w ∈ gesturesSettings) :
    settings chip w.1 = w.2 := by
  refine applyWrites_of_mem h fun v hv heq => ?_
  have hinj := List.inj_on_of_nodup_map gesturesSettings_nodup hv h heq
  rw [hinj]

/-- The other registers are as after a reset. -/
theorem settings_of_notMem {addr : UInt8} (h : addr ∉ gesturesSettings.map (·.1)) :
    settings chip addr = chip.por addr :=
  applyWrites_other fun _ hw heq => h (heq ▸ List.mem_map_of_mem hw)

theorem Holds.read (h : Holds chip regs b) (fill addr : UInt8) :
    Holds chip regs (accelReadReg8 chip.toSlave fill addr b).2 := by
  have hread : (accelReadReg8 chip.toSlave fill addr b).2 =
      run (Board.step chip.toSlave) b (transaction .accel (readBytes fill addr 1)) := by
    simp only [accelReadReg8, gpio_accel]
    rfl
  rw [hread]
  refine ⟨?_, ?_⟩
  · rw [selected_transaction, if_pos rfl]
  · rw [state_transaction_self (slaves chip.toSlave) h.deselected, ← h.reg]
    exact chip.reg_read _ addr fill 1

/-- Switching the sensing block off and on leaves the settings. -/
theorem Holds.debugInterrupts (h : Holds chip (settings chip) b) :
    Holds chip (settings chip) (accelDebugInterrupts chip b) := by
  have hoff := @Holds.write _ _ _ _ h lis3dshRegCtrl4 0x0 (by decide) (by decide)
  have hon := @Holds.write _ _ _ _ hoff lis3dshRegCtrl4 0x37 (by decide) (by decide)
  have hctrl : settings chip lis3dshRegCtrl4 = 0x37 :=
    settings_of_mem (w := (lis3dshRegCtrl4, 0x37)) (by decide)
  rw [Function.update_idem, ← hctrl, Function.update_eq_self] at hon
  exact hon

variable (chip)

/-- **The set-up does not depend on what was before**: whatever the chip selects and the registers
were, no slave is selected after it and the registers are as `settings` has them. -/
theorem settings_boot (b : Board α) :
    (setUpBus chip b).Idle ∧ chip.reg ((setUpBus chip b).state .accel) = settings chip := by
  have h : Holds chip (settings chip) (gesturesInit chip b) := holds_gesturesInit b
  have haccel : ¬ selDisplay &&& selAccel ≠ 0 := by decide
  have hdisplay : selDisplay &&& selDisplay ≠ 0 := by decide
  rw [setUpBus, spiMasterInit, if_neg haccel, if_pos hdisplay, gpio_display]
  generalize gesturesInit chip b = b' at h
  refine ⟨fun i => ?_, h.reg⟩
  cases i with
  | accel => simpa [Bus.step, selects] using h.deselected
  | display => simp [Bus.step, selects, csDeassert]

/-! ## Interrupts -/

def muchiGpioAccelInt1 : UInt8 := 27
def muchiGpioAccelInt2 : UInt8 := 32

/-- `accel_int1_handler`, with the event it hands to `bleappevt_serialize`. -/
def accelInt1Handler (fill : UInt8) (b : Board α) : MEvent × Board α :=
  let r := accelReadReg8 chip.toSlave fill lis3dshRegProgramResetPin1 b
  let b := (accelReadReg8 chip.toSlave fill lis3dshRegInterruptManagePin1 r.2).2
  (if r.1 = 7 then .tilt60 else .untilt60, b)

/-- `accel_int2_handler`. -/
def accelInt2Handler (fill : UInt8) (b : Board α) : MEvent × Board α :=
  let r := accelReadReg8 chip.toSlave fill lis3dshRegProgramResetPin2 b
  let b := (accelReadReg8 chip.toSlave fill lis3dshRegInterruptManagePin2 r.2).2
  (if r.1 = 3 then .shortInactive else .wakeup, b)

/-- `HANDLER_ARG_TO_PIN_NUMBER`. -/
def handlerArgToPinNumber (x : UInt8) : UInt8 := ((x &&& 0x60) >>> 1) ||| (x &&& 0xf)

/-- `accel_int_handler`; an unexpected interrupt is only traced. -/
def accelIntHandler (fill gpioPin : UInt8) (b : Board α) : List MEvent × Board α :=
  let pin := handlerArgToPinNumber gpioPin
  if pin = muchiGpioAccelInt1 then
    let r := accelInt1Handler chip fill b
    ([r.1], r.2)
  else if pin = muchiGpioAccelInt2 then
    let r := accelInt2Handler chip fill b
    ([r.1], r.2)
  else ([], b)

/-- An interrupt handler gets the port of the pin in bits 5 to 7, and its place there below. -/
def gpioArg (port bit : UInt8) : UInt8 := (port <<< 5) ||| bit

variable {chip}

theorem Holds.intHandler (h : Holds chip regs b) (fill gpioPin : UInt8) :
    Holds chip regs (accelIntHandler chip fill gpioPin b).2 := by
  unfold accelIntHandler accelInt1Handler accelInt2Handler
  simp only
  split
  · exact (h.read fill _).read fill _
  · split
    · exact (h.read fill _).read fill _
    · exact h

/-- Where a program in the settings has its `OUTW`: the place before `k`. -/
theorem settings_outw {base k : UInt8} {n : Nat}
    (hall : ∀ i : Fin n, ∃ w ∈ gesturesSettings, w.1 = base + (.ofNat (i + 1) - 1) ∧
      (w.2 = lis3dshCmdOutw ↔ UInt8.ofNat (i + 1) = k))
    {pc : UInt8} (hlo : 0 < pc.toNat) (hhi : pc.toNat ≤ n) :
    settings chip (base + (pc - 1)) = lis3dshCmdOutw ↔ pc = k := by
  obtain ⟨w, hw, hplace, hval⟩ := hall ⟨pc.toNat - 1, by omega⟩
  have hpc : UInt8.ofNat (pc.toNat - 1 + 1) = pc := by
    rw [Nat.sub_add_cancel (show 1 ≤ pc.toNat from hlo), UInt8.ofNat_toNat]
  simp only [hpc] at hplace hval
  rw [← hplace, settings_of_mem hw, hval]

/-- An interrupt of the first program is a tilt exactly if the program stands behind its `OUTW`. -/
theorem accelInt1_event (h : Holds chip (settings chip) b) (fill : UInt8) {pc : UInt8}
    (hpc : pc = (accelReadReg8 chip.toSlave fill lis3dshRegProgramResetPin1 b).1)
    (hlo : 0 < pc.toNat) (hhi : pc.toNat ≤ stateMachine1.length) :
    (accelInt1Handler chip fill b).1 =
      if chip.reg (b.state .accel) (lis3dshRegStateMachine1Base + (pc - 1)) = lis3dshCmdOutw then
        .tilt60
      else .untilt60 := by
  have houtw := @settings_outw _ chip lis3dshRegStateMachine1Base 7 12 (by decide) pc hlo hhi
  rw [h.reg]
  simp only [accelInt1Handler, ← hpc, houtw]

/-- An interrupt of the second program is inactivity exactly if that one does. -/
theorem accelInt2_event (h : Holds chip (settings chip) b) (fill : UInt8) {pc : UInt8}
    (hpc : pc = (accelReadReg8 chip.toSlave fill lis3dshRegProgramResetPin2 b).1)
    (hlo : 0 < pc.toNat) (hhi : pc.toNat ≤ stateMachine2.length) :
    (accelInt2Handler chip fill b).1 =
      if chip.reg (b.state .accel) (lis3dshRegStateMachine2Base + (pc - 1)) = lis3dshCmdOutw then
        .shortInactive
      else .wakeup := by
  have houtw := @settings_outw _ chip lis3dshRegStateMachine2Base 3 5 (by decide) pc hlo hhi
  rw [h.reg]
  simp only [accelInt2Handler, ← hpc, houtw]

end

end Muchiwachi
