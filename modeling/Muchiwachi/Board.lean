import Muchiwachi.Lib.SpiBus
import Muchiwachi.Lcd

/-!
# Two slaves on one bus (`accel.c` and `spi.c`)

The accelerometer and the display share the SPI block and have a chip select each, one active low
and the other active high. `accel.c` drives the first and `spi.c` the second. The functions of
`accel.c` are transactions with the accelerometer, and what the display driver sends are
transactions with the display, so neither device sees the other's (`bus_isolation`).
`listens_undisturbed_iff` is about accesses from within a picture loop.

The two devices are not code: the accelerometer is any slave, and the display one that listens.
-/

namespace Muchiwachi

open Lib Lib.MemoryLcd Lib.SpiBus

/-! ## The board -/

/-- `enum spi_slave_selector`, as far as it names one slave. -/
inductive SpiSlave where
  | accel | display
  deriving DecidableEq, Repr

/-- What the two slaves hold. -/
abbrev Slaves (α : Type) : SpiSlave → Type
  | .accel => α
  | .display => Listener

abbrev Board (α : Type) := Bus (Slaves α)

section

variable {α : Type} (accel : Slave α)

def slaves : ∀ i, Slave (Slaves α i)
  | .accel => accel
  | .display => listener

abbrev Board.step (b : Board α) (op : Op SpiSlave) : Board α := Bus.step (slaves accel) b op

/-- MISO has a pull-up, and the display is not connected to it. -/
def miso (driven : SpiSlave → Option UInt8) : UInt8 := (driven .accel).getD 0xff

/-! ## The SDK -/

def csPort : UInt8 := 0
def accelCsPin : UInt8 := 8
def displayCsPin : UInt8 := 14

/-- `gpio_setPinOutput`, and what `gpio_configurePin` does to an output. The accelerometer is
selected while its pin is low, the display while its pin is high. -/
def gpioSetPinOutput (port pin value : UInt8) (b : Board α) : Board α :=
  if port = csPort ∧ pin = accelCsPin then b.step accel (.drive .accel (value = 0))
  else if port = csPort ∧ pin = displayCsPin then b.step accel (.drive .display (value ≠ 0))
  else b

def spiffydTxData (buf : List UInt8) (b : Board α) : Board α :=
  run (Board.step accel) b (buf.map .clock)

/-- `spiffyd_rxData`, which clocks out `fill` meanwhile. -/
def spiffydRxData (fill : UInt8) (len : Nat) (b : Board α) : List UInt8 × Board α :=
  let ops := List.replicate len (.clock fill)
  (b.answers (slaves accel) miso ops, run (Board.step accel) b ops)

/-! ## `accel.c` -/

/-- `CS_ASSERT` of `accel.c`. -/
def accelCsAssert : UInt8 := 0
def accelCsDeassert : UInt8 := 1

def lis3dshReadFlag : UInt8 := 0x80

/-- `accel_spi_master_init`, after the SPI block is configured. -/
def accelSpiMasterInit (b : Board α) : Board α :=
  gpioSetPinOutput accel csPort accelCsPin accelCsDeassert b

def accelReadReg8 (fill addr : UInt8) (b : Board α) : UInt8 × Board α :=
  let b := gpioSetPinOutput accel csPort accelCsPin accelCsAssert b
  let addr := addr ||| lis3dshReadFlag
  let b := spiffydTxData accel [addr] b
  let r := spiffydRxData accel fill 1 b
  let b := gpioSetPinOutput accel csPort accelCsPin accelCsDeassert r.2
  (r.1.getD 0 0, b)

def accelWriteReg8 (addr val : UInt8) (b : Board α) : Board α :=
  let b := gpioSetPinOutput accel csPort accelCsPin accelCsAssert b
  let b := spiffydTxData accel [addr] b
  let b := spiffydTxData accel [val] b
  gpioSetPinOutput accel csPort accelCsPin accelCsDeassert b

/-- `accel_write_reg8_1`. -/
def accelWriteReg8Arg (addr val arg : UInt8) (b : Board α) : Board α :=
  let buf := [val, arg]
  let b := gpioSetPinOutput accel csPort accelCsPin accelCsAssert b
  let b := spiffydTxData accel [addr] b
  let b := spiffydTxData accel buf b
  gpioSetPinOutput accel csPort accelCsPin accelCsDeassert b

def accelReadReg16 (fill addr : UInt8) (b : Board α) : UInt16 × Board α :=
  let b := gpioSetPinOutput accel csPort accelCsPin accelCsAssert b
  let addr := addr ||| lis3dshReadFlag
  let b := spiffydTxData accel [addr] b
  let r := spiffydRxData accel fill 2 b
  let b := gpioSetPinOutput accel csPort accelCsPin accelCsDeassert r.2
  (((r.1.getD 1 0).toUInt16 <<< 8) ||| (r.1.getD 0 0).toUInt16, b)

/-! ## `spi.c` -/

/-- `CS_ASSERT` of `spi.c`. -/
def csAssert : UInt8 := 1
def csDeassert : UInt8 := 0

/-- `ACCEL` and `DISPLAY`, which may be set both. -/
def selAccel : UInt8 := 1
def selDisplay : UInt8 := 2

/-- The `pin` of all functions of `spi.c`. -/
def selPin (sel : UInt8) : UInt8 := if sel &&& selDisplay ≠ 0 then displayCsPin else accelCsPin

/-- `spi_master_init`, after the SPI block is configured. -/
def spiMasterInit (sel : UInt8) (b : Board α) : Board α :=
  let b := if sel &&& selAccel ≠ 0 then gpioSetPinOutput accel csPort accelCsPin csDeassert b else b
  if sel &&& selDisplay ≠ 0 then gpioSetPinOutput accel csPort displayCsPin csDeassert b else b

def spiReadReg8 (fill sel addr : UInt8) (b : Board α) : UInt8 × Board α :=
  let pin := selPin sel
  let b := gpioSetPinOutput accel csPort pin csAssert b
  let b := spiffydTxData accel [addr] b
  let r := spiffydRxData accel fill 1 b
  let b := gpioSetPinOutput accel csPort pin csDeassert r.2
  (r.1.getD 0 0, b)

/-- `spi_write_reg8`. A failed `GRPR_ASSERT` is only traced. -/
def spiWriteReg8 (sel addr val : UInt8) (b : Board α) : Board α :=
  let pin := selPin sel
  let b := gpioSetPinOutput accel csPort pin csAssert b
  let b := spiffydTxData accel [addr] b
  let b := spiffydTxData accel [val] b
  gpioSetPinOutput accel csPort pin csDeassert b

/-- `spi_write_buf`. -/
def spiWriteBuf (sel : UInt8) (buf : List UInt8) (b : Board α) : Board α :=
  let pin := selPin sel
  let b := gpioSetPinOutput accel csPort pin csAssert b
  let b := spiffydTxData accel buf b
  gpioSetPinOutput accel csPort pin csDeassert b

def spiCsAssert (sel : UInt8) (b : Board α) : Board α :=
  gpioSetPinOutput accel csPort (selPin sel) csAssert b

def spiCsDeassert (sel : UInt8) (b : Board α) : Board α :=
  gpioSetPinOutput accel csPort (selPin sel) csDeassert b

/-- `__spi_write_buf`. -/
def spiWriteBufRaw (buf : List UInt8) (b : Board α) : Board α := spiffydTxData accel buf b

/-! ## The display driver on the bus -/

/-- What the display driver calls. -/
def playEvent (b : Board α) : LcdEvent → Board α
  | .csAssert => spiCsAssert accel selDisplay b
  | .csDeassert => spiCsDeassert accel selDisplay b
  | .writeBuf buf => spiWriteBufRaw accel buf b
  | .draw _ => b

def play (evs : List LcdEvent) (b : Board α) : Board α := evs.foldl (playEvent accel) b

/-! ## A register file -/

/-- What the next byte of an access is. -/
inductive AccessPhase where
  | closed | address
  | data (addr : UInt8)
  deriving DecidableEq, Repr

structure RegisterFile where
  regs : UInt8 → UInt8
  phase : AccessPhase

/-- Bit 0 of `CTRL_3` resets the registers. -/
def lis3dshRegCtrl3 : UInt8 := 0x23

def RegisterFile.store (por : UInt8 → UInt8) (s : RegisterFile) (addr val : UInt8) :
    UInt8 → UInt8 :=
  if addr = lis3dshRegCtrl3 ∧ val &&& 1 ≠ 0 then por else Function.update s.regs addr val

/-- A plain stand-in for the accelerometer, whose registers are `por` after a reset. -/
def registerFile (por : UInt8 → UInt8) : Slave RegisterFile where
  next s
    | .select => { s with phase := .address }
    | .deselect => { s with phase := .closed }
    | .byte b =>
      match s.phase with
      | .closed => s
      | .address => { s with phase := .data b }
      | .data addr =>
        { regs := if addr &&& lis3dshReadFlag = 0 then s.store por addr b else s.regs
          phase := .data ((addr &&& lis3dshReadFlag) ||| ((addr + 1) &&& 0x7f)) }
  answer s _ :=
    match s.phase with
    | .data addr => if addr &&& lis3dshReadFlag = 0 then none else some (s.regs (addr &&& 0x7f))
    | .closed | .address => none

/-- Two devices at rest, the registers of the accelerometer all zero. -/
def boardAtRest : Board RegisterFile where
  selected _ := false
  state
    | .accel => ⟨fun _ => 0, .closed⟩
    | .display => ⟨[], none⟩

/-! ## Calls as transactions -/

theorem gpio_accel (value : UInt8) (b : Board α) :
    gpioSetPinOutput accel csPort accelCsPin value b =
      b.step accel (.drive .accel (value = 0)) := if_pos ⟨rfl, rfl⟩

theorem gpio_display (value : UInt8) (b : Board α) :
    gpioSetPinOutput accel csPort displayCsPin value b =
      b.step accel (.drive .display (value ≠ 0)) := by
  rw [gpioSetPinOutput, if_neg (by decide), if_pos ⟨rfl, rfl⟩]

/-- What `accel` answers to a transaction, byte by byte. -/
def answered (a : α) (bytes : List UInt8) : List UInt8 :=
  (accel.replies a bytes).map (·.getD 0xff)

/-- The bytes of a read access. -/
def readBytes (fill addr : UInt8) (len : Nat) : List UInt8 :=
  (addr ||| lis3dshReadFlag) :: List.replicate len fill

theorem single_miso (r : Option UInt8) : single miso .accel r = r.getD 0xff := by
  simp [single, miso]

/-- What `spiffyd_rxData` reads in an access that started on an idle bus. -/
theorem rx_read (fill addr : UInt8) (len : Nat) {b : Board α} (hidle : b.Idle) :
    (spiffydRxData accel fill len (spiffydTxData accel [addr ||| lis3dshReadFlag]
        (gpioSetPinOutput accel csPort accelCsPin accelCsAssert b))).1 =
      (answered accel (b.state .accel) (readBytes fill addr len)).drop 1 := by
  have h := answers_transaction (slaves accel) miso hidle .accel (readBytes fill addr len)
  have hline : single miso SpiSlave.accel = fun r : Option UInt8 => r.getD 0xff :=
    funext single_miso
  rw [hline] at h
  rw [gpio_accel, answered]
  refine Eq.trans ?_ (congrArg (List.drop 1) h)
  rw [transaction, Bus.answers, outputs, outputs_append, readBytes, List.map_cons, outputs]
  simp [outputs, Bus.reads, spiffydRxData, spiffydTxData, Bus.answers, accelCsAssert]

theorem accelWriteReg8_eq (addr val : UInt8) (b : Board α) :
    accelWriteReg8 accel addr val b =
      run (Board.step accel) b (transaction .accel [addr, val]) := by
  simp only [accelWriteReg8, gpio_accel]
  rfl

theorem accelWriteReg8Arg_eq (addr val arg : UInt8) (b : Board α) :
    accelWriteReg8Arg accel addr val arg b =
      run (Board.step accel) b (transaction .accel [addr, val, arg]) := by
  simp only [accelWriteReg8Arg, gpio_accel]
  rfl

theorem accelReadReg8_eq (fill addr : UInt8) {b : Board α} (hidle : b.Idle) :
    accelReadReg8 accel fill addr b =
      ((answered accel (b.state .accel) (readBytes fill addr 1)).getD 1 0,
        run (Board.step accel) b (transaction .accel (readBytes fill addr 1))) := by
  have hread := rx_read accel fill addr 1 hidle
  rw [gpio_accel] at hread
  simp only [accelReadReg8, gpio_accel, hread]
  refine Prod.ext ?_ rfl
  simp

theorem accelReadReg16_eq (fill addr : UInt8) {b : Board α} (hidle : b.Idle) :
    accelReadReg16 accel fill addr b =
      (((answered accel (b.state .accel) (readBytes fill addr 2)).getD 2 0).toUInt16 <<< 8 |||
          ((answered accel (b.state .accel) (readBytes fill addr 2)).getD 1 0).toUInt16,
        run (Board.step accel) b (transaction .accel (readBytes fill addr 2))) := by
  have hread := rx_read accel fill addr 2 hidle
  rw [gpio_accel] at hread
  simp only [accelReadReg16, gpio_accel, hread]
  refine Prod.ext ?_ rfl
  simp

/-! ## Pictures as transactions -/

/-- What an event of the display driver is on the bus. -/
def LcdEvent.ops : LcdEvent → List (Op SpiSlave)
  | .csAssert => [.drive .display true]
  | .csDeassert => [.drive .display false]
  | .writeBuf buf => buf.map .clock
  | .draw _ => []

theorem playEvent_eq (b : Board α) (ev : LcdEvent) :
    playEvent accel b ev = run (Board.step accel) b ev.ops := by
  cases ev with
  | csAssert => exact gpio_display accel csAssert b
  | csDeassert => exact gpio_display accel csDeassert b
  | writeBuf buf => rfl
  | draw pb => rfl

theorem play_eq (evs : List LcdEvent) (b : Board α) :
    play accel evs b = run (Board.step accel) b (evs.flatMap LcdEvent.ops) := by
  induction evs generalizing b with
  | nil => rfl
  | cons ev evs ih =>
    rw [List.flatMap_cons, run_append, ← playEvent_eq]
    exact ih _

/-- Events whose wire side is framed are transactions; `sent` is what an open one has sent. -/
theorem ops_of_frames (evs : List LcdEvent) :
    (∀ fs, frames none (wire evs) = some fs →
      evs.flatMap LcdEvent.ops = fs.flatMap (transaction .display)) ∧
    ∀ sent fs, frames (some sent) (wire evs) = some fs →
      .drive .display true :: (sent.map .clock ++ evs.flatMap LcdEvent.ops) =
        fs.flatMap (transaction .display) := by
  induction evs with
  | nil =>
    refine ⟨fun fs h => ?_, fun sent fs h => ?_⟩
    · rw [← Option.some.inj h]
      rfl
    · cases h
  | cons ev evs ih =>
    obtain ⟨hclosed, hopen⟩ := ih
    cases ev with
    | csAssert =>
      refine ⟨fun fs h => hopen [] fs h, fun sent fs h => ?_⟩
      cases h
    | csDeassert =>
      refine ⟨fun fs h => ?_, fun sent fs h => ?_⟩
      · cases h
      · have hmap : (sent :: ·) <$> frames none (wire evs) = some fs := h
        obtain ⟨fs', hfs', rfl⟩ := Option.map_eq_some_iff.mp hmap
        rw [List.flatMap_cons, List.flatMap_cons, ← hclosed fs' hfs', transaction]
        simp [LcdEvent.ops]
    | writeBuf buf =>
      refine ⟨fun fs h => ?_, fun sent fs h => ?_⟩
      · cases h
      · have hsent := hopen (sent ++ buf) fs h
        rw [List.map_append, List.append_assoc] at hsent
        exact hsent
    | draw pb => exact ⟨fun fs h => hclosed fs h, fun sent fs h => hopen sent fs h⟩

theorem play_run {evs : List LcdEvent} {fs : List (List UInt8)}
    (h : frames none (wire evs) = some fs) (b : Board α) :
    play accel evs b = run (Board.step accel) b (fs.flatMap (transaction .display)) := by
  rw [play_eq, (ops_of_frames evs).1 fs h]

/-! ## Any order of calls -/

/-- A use of the bus: a call of `accel.c`, or what the display driver does for a picture. -/
inductive BusCall where
  | masterInit
  | readReg8 (addr : UInt8)
  | readReg16 (addr : UInt8)
  | writeReg8 (addr val : UInt8)
  | writeReg8Arg (addr val arg : UInt8)
  | picture (evs : List LcdEvent)

/-- The driver closes each transfer it opens. -/
def BusCall.Closed : BusCall → Prop
  | .picture evs => (frames none (wire evs)).isSome = true
  | _ => True

variable (fill : UInt8)

def BusCall.exec (b : Board α) : BusCall → Board α
  | .masterInit => accelSpiMasterInit accel b
  | .readReg8 addr => (accelReadReg8 accel fill addr b).2
  | .readReg16 addr => (accelReadReg16 accel fill addr b).2
  | .writeReg8 addr val => accelWriteReg8 accel addr val b
  | .writeReg8Arg addr val arg => accelWriteReg8Arg accel addr val arg b
  | .picture evs => play accel evs b

/-- What a call returns, if anything. -/
def BusCall.returns (b : Board α) : BusCall → List UInt16
  | .readReg8 addr => [(accelReadReg8 accel fill addr b).1.toUInt16]
  | .readReg16 addr => [(accelReadReg16 accel fill addr b).1]
  | _ => []

/-- The bytes of a call to the accelerometer. -/
def BusCall.accelBytes : BusCall → List (List UInt8)
  | .readReg8 addr => [readBytes fill addr 1]
  | .readReg16 addr => [readBytes fill addr 2]
  | .writeReg8 addr val => [[addr, val]]
  | .writeReg8Arg addr val arg => [[addr, val, arg]]
  | .masterInit | .picture _ => []

/-- The transfers of a call to the display. -/
def BusCall.displayBytes : BusCall → List (List UInt8)
  | .picture evs => (frames none (wire evs)).getD []
  | _ => []

/-- What a call does to an accelerometer that has a bus of its own. -/
def BusCall.alone (a : α) (call : BusCall) : α :=
  run accel.next a ((call.accelBytes fill).flatMap frame)

/-- What it then returns. -/
def BusCall.returnsAlone (a : α) : BusCall → List UInt16
  | .readReg8 addr => [((answered accel a (readBytes fill addr 1)).getD 1 0).toUInt16]
  | .readReg16 addr =>
    [((answered accel a (readBytes fill addr 2)).getD 2 0).toUInt16 <<< 8 |||
      ((answered accel a (readBytes fill addr 2)).getD 1 0).toUInt16]
  | _ => []

theorem returns_eq {b : Board α} (hidle : b.Idle) (call : BusCall) :
    call.returns accel fill b = call.returnsAlone accel fill (b.state .accel) := by
  cases call with
  | readReg8 addr => rw [BusCall.returns, accelReadReg8_eq accel fill addr hidle]; rfl
  | readReg16 addr => rw [BusCall.returns, accelReadReg16_eq accel fill addr hidle]; rfl
  | masterInit | writeReg8 | writeReg8Arg | picture => rfl

/-- The transactions of a call. -/
def BusCall.transactions (call : BusCall) : List (SpiSlave × List UInt8) :=
  (call.accelBytes fill).map (.accel, ·) ++ call.displayBytes.map (.display, ·)

theorem exec_eq {b : Board α} (hidle : b.Idle) {call : BusCall} (h : call.Closed) :
    call.exec accel fill b =
      run (Board.step accel) b ((call.transactions fill).flatMap fun t => transaction t.1 t.2) := by
  cases call with
  | masterInit =>
    rw [BusCall.exec, accelSpiMasterInit, gpio_accel]
    exact step_deselect (slaves accel) hidle .accel
  | readReg8 addr =>
    rw [BusCall.exec, accelReadReg8_eq accel fill addr hidle]
    rfl
  | readReg16 addr =>
    rw [BusCall.exec, accelReadReg16_eq accel fill addr hidle]
    rfl
  | writeReg8 addr val => exact accelWriteReg8_eq accel addr val b
  | writeReg8Arg addr val arg => exact accelWriteReg8Arg_eq accel addr val arg b
  | picture evs =>
    obtain ⟨fs, hfs⟩ := Option.isSome_iff_exists.mp h
    rw [BusCall.exec, play_run accel hfs]
    simp [BusCall.transactions, BusCall.accelBytes, BusCall.displayBytes, hfs, List.flatMap_map]

/-- What a call leaves on the board. -/
theorem exec_spec {b : Board α} (hidle : b.Idle) {call : BusCall} (h : call.Closed) :
    (call.exec accel fill b).Idle ∧
      (call.exec accel fill b).state .accel = call.alone accel fill (b.state .accel) ∧
      ((call.exec accel fill b).state .display).frames =
        (b.state .display).frames ++ call.displayBytes := by
  have hstate := state_transactions (slaves accel) hidle (call.transactions fill)
  rw [exec_eq accel fill hidle h]
  refine ⟨idle_transactions (slaves accel) hidle _, ?_, ?_⟩
  · have hown : (call.transactions fill).filter (·.1 = .accel) =
        (call.accelBytes fill).map (.accel, ·) := by
      simp [BusCall.transactions, List.filter_map, Function.comp_def]
    rw [hstate, hown, List.flatMap_map]
    rfl
  · have hown : (call.transactions fill).filter (·.1 = .display) =
        call.displayBytes.map (.display, ·) := by
      simp [BusCall.transactions, List.filter_map, Function.comp_def]
    rw [hstate, hown, List.flatMap_map]
    exact listener_frames ..

/-- **The two devices do not disturb each other**: whatever calls of the driver of the
accelerometer and pictures take turns, the accelerometer ends as it would on a bus of its own, the
calls return what they would return there, and the display takes the transfers of the pictures and
no others. -/
theorem bus_isolation {b : Board α} (hidle : b.Idle) {calls : List BusCall}
    (h : ∀ call ∈ calls, call.Closed) :
    (run (BusCall.exec accel fill) b calls).Idle ∧
      (run (BusCall.exec accel fill) b calls).state .accel =
        run (BusCall.alone accel fill) (b.state .accel) calls ∧
      outputs (BusCall.exec accel fill) (BusCall.returns accel fill) b calls =
        outputs (BusCall.alone accel fill) (BusCall.returnsAlone accel fill) (b.state .accel)
          calls ∧
      ((run (BusCall.exec accel fill) b calls).state .display).frames =
        (b.state .display).frames ++ calls.flatMap BusCall.displayBytes := by
  induction calls generalizing b with
  | nil => exact ⟨hidle, rfl, rfl, by simp⟩
  | cons call calls ih =>
    obtain ⟨hidle', haccel, hdisplay⟩ := exec_spec accel fill hidle (h call List.mem_cons_self)
    obtain ⟨hend, hstate, hreturns, hframes⟩ :=
      ih hidle' fun c hc => h c (List.mem_cons_of_mem _ hc)
    rw [haccel] at hstate hreturns
    refine ⟨hend, hstate, ?_, ?_⟩
    · rw [outputs, outputs, hreturns, returns_eq accel fill hidle]
    · rw [run_cons, hframes, hdisplay, List.flatMap_cons, List.append_assoc]

/-- What the driver does to write line 1. -/
def sampleLine : List LcdEvent :=
  [.csAssert, .writeBuf [0x80, 0x80], .writeBuf (List.replicate 16 0xff), .writeBuf [0, 0],
    .csDeassert]

/-- A register is written, a line is drawn, and the register read. -/
def sampleCalls : List BusCall :=
  [.masterInit, .writeReg8 0x20 0x37, .picture sampleLine, .readReg8 0x20]

theorem bus_isolation_sample :
    (run (BusCall.exec (registerFile fun _ => 7) 0) boardAtRest sampleCalls).Idle ∧
      (run (BusCall.exec (registerFile fun _ => 7) 0) boardAtRest sampleCalls).state .accel =
        run (BusCall.alone (registerFile fun _ => 7) 0) (boardAtRest.state .accel) sampleCalls ∧
      outputs (BusCall.exec (registerFile fun _ => 7) 0)
          (BusCall.returns (registerFile fun _ => 7) 0) boardAtRest sampleCalls =
        outputs (BusCall.alone (registerFile fun _ => 7) 0)
          (BusCall.returnsAlone (registerFile fun _ => 7) 0) (boardAtRest.state .accel)
          sampleCalls ∧
      ((run (BusCall.exec (registerFile fun _ => 7) 0) boardAtRest sampleCalls).state
          .display).frames =
        (boardAtRest.state .display).frames ++ sampleCalls.flatMap BusCall.displayBytes :=
  bus_isolation (registerFile fun _ => 7) 0 (fun _ => rfl) (by
    intro call hcall
    simp only [sampleCalls, List.mem_cons, List.not_mem_nil, or_false] at hcall
    rcases hcall with rfl | rfl | rfl | rfl
    · trivial
    · trivial
    · show (frames none _).isSome = true
      decide
    · trivial)

/-! ## Calls in the middle of a picture -/

/-- **When a picture stands an interrupt**: with accesses to the accelerometer between any two
steps of the display driver, the display takes what it takes without them exactly if none of
them comes while the driver has a transfer open. -/
theorem listens_undisturbed_iff {b : Board α} (hidle : b.Idle)
    (hclosed : (b.state .display).sent = none) {evs : List LcdEvent} {s : Schedule SpiSlave}
    (hown : s.own = evs.flatMap LcdEvent.ops) (hs : ∀ t, .inr t ∈ s → t.1 = .accel) :
    (run (Board.step accel) b s.ops).state .display = (play accel evs b).state .display ↔
      EachStep (selectsOwn .display) (fun on p => ¬ intrudes on p) false s := by
  have hforeign : ∀ t, .inr t ∈ s → t.1 ≠ SpiSlave.display := by
    intro t ht
    rw [hs t ht]
    decide
  have hoff : b.selected SpiSlave.display = false := hidle _
  have hsent : (Listener.sent (b.state .display)).isSome = false := by rw [hclosed]; rfl
  rw [play_eq, ← hown, state_run, state_run, hoff]
  exact listens_schedule_iff SpiSlave.display hsent hforeign

/-- An access between two bytes of a transfer. -/
def sampleIntrusion : Schedule SpiSlave :=
  [.inl (.drive .display true), .inl (.clock 0x80), .inr (.accel, [0x9f, 0]), .inl (.clock 0x80),
    .inl (.drive .display false)]

theorem listens_undisturbed_sample :
    (run (Board.step (registerFile fun _ => 7)) boardAtRest sampleIntrusion.ops).state .display =
        (play (registerFile fun _ => 7) [.csAssert, .writeBuf [0x80, 0x80], .csDeassert]
          boardAtRest).state .display ↔
      EachStep (selectsOwn .display) (fun on p => ¬ intrudes on p) false sampleIntrusion :=
  listens_undisturbed_iff (registerFile fun _ => 7) (fun _ => rfl) rfl rfl (by
    intro t ht
    simp [sampleIntrusion] at ht
    rw [ht])

/-! ## The selector of `spi.c` -/

/-- A call of `spi.c` that is a whole transaction. -/
inductive SpiCall where
  | readReg8 (sel addr : UInt8)
  | writeReg8 (sel addr val : UInt8)
  | writeBuf (sel : UInt8) (buf : List UInt8)

def SpiCall.sel : SpiCall → UInt8
  | .readReg8 sel _ | .writeReg8 sel _ _ | .writeBuf sel _ => sel

def SpiCall.exec (b : Board α) : SpiCall → Board α
  | .readReg8 sel addr => (spiReadReg8 accel fill sel addr b).2
  | .writeReg8 sel addr val => spiWriteReg8 accel sel addr val b
  | .writeBuf sel buf => spiWriteBuf accel sel buf b

/-- What a call sends. -/
def SpiCall.bytes : SpiCall → List UInt8
  | .readReg8 _ addr => [addr, fill]
  | .writeReg8 _ addr val => [addr, val]
  | .writeBuf _ buf => buf

theorem spiCall_eq (b : Board α) (call : SpiCall) :
    call.exec accel fill b =
      gpioSetPinOutput accel csPort (selPin call.sel) csDeassert
        (spiffydTxData accel (call.bytes fill)
          (gpioSetPinOutput accel csPort (selPin call.sel) csAssert b)) := by
  cases call <;> rfl

/-- A call leaves its slave selected exactly if that is not the display. -/
theorem idle_spiCall {b : Board α} (hidle : b.Idle) (call : SpiCall) :
    (call.exec accel fill b).Idle ↔ call.sel &&& selDisplay ≠ 0 := by
  rw [spiCall_eq, selPin]
  by_cases hsel : call.sel &&& selDisplay ≠ 0
  · rw [if_pos hsel, gpio_display, gpio_display]
    refine iff_of_true ?_ hsel
    have htransaction := idle_transaction (slaves accel) hidle .display (call.bytes fill)
    rw [transaction, run_cons, run_append] at htransaction
    exact htransaction
  · rw [if_neg hsel, gpio_accel, gpio_accel]
    refine iff_of_false (fun h => ?_) hsel
    exact absurd (h .accel) (by simp [Bus.step, selects, csDeassert])

/-- **Whom `spi.c` can talk to**: its chip selects are idle between any calls exactly if all of
them are for the display. -/
theorem spi_idle_exact {b : Board α} (hidle : b.Idle) (calls : List SpiCall) :
    Always (SpiCall.exec accel fill) Bus.Idle b calls ↔
      EachStep (SpiCall.exec accel fill) (fun _ call => call.sel &&& selDisplay ≠ 0) b calls :=
  always_iff_eachStep (I := fun _ => True) (P := Bus.Idle) (fun _ _ _ => trivial)
    (fun _ call _ h => idle_spiCall accel fill h call) trivial hidle calls

/-- The display is written, and a register of the accelerometer. -/
theorem spi_idle_sample :
    Always (SpiCall.exec (registerFile fun _ => 7) 0) Bus.Idle boardAtRest
        [.writeBuf selDisplay [0x80], .writeReg8 selAccel 0x20 0x37] ↔
      EachStep (SpiCall.exec (registerFile fun _ => 7) 0)
        (fun _ call => call.sel &&& selDisplay ≠ 0) boardAtRest
        [.writeBuf selDisplay [0x80], .writeReg8 selAccel 0x20 0x37] :=
  spi_idle_exact (registerFile fun _ => 7) 0 (fun _ => rfl) _

end

end Muchiwachi
