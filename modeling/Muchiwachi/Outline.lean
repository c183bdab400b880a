import Muchiwachi.DeviceStep

/-!
# The device without its bus

`Outline` is what the handlers of a device go by: the watch, the queue, the levels of the pins, the
clock and the characteristics. A device steps as its outline does, given what the accelerometer
raises (`outline_step`), so its runs can be followed without the driver, the panel and the bus
(`outline_run`).
-/

namespace Muchiwachi

open Lib Lib.SpiBus Lib.Raster MainFsm

structure Outline where
  watch : Watch
  pending : List MEvent
  levels : UInt8 → UInt8 → Bool
  rtc : RtcTime
  attr : UInt16 → List UInt8

/-- The events an interrupt of the accelerometer raises, by what is clocked out and the pin. -/
abbrev Gestures := UInt8 → UInt8 → List MEvent

namespace Outline

def env (m : Moment) (o : Outline) : Env := { m.env with message := o.attr handleMuchiMessage }

def sources (m : Moment) (o : Outline) : Sources := ⟨o.rtc, m.prior, m.beyond⟩

def flip (port bit : UInt8) (o : Outline) : Outline :=
  let pins := Function.update (o.levels port) bit (!o.levels port bit)
  { o with levels := Function.update o.levels port pins }

def event (m : Moment) (e : MEvent) (o : Outline) : Outline :=
  { o with watch := mainfsmProcessEvent (o.env m) e o.watch }

/-- The event of a button. -/
def buttonEvent (port bit : UInt8) (o : Outline) : Option MEvent :=
  if interrupts buttonsMask port bit then buttonsInterruptHandler o.levels (gpioArg port bit)
  else none

section

variable {α : Type} {chip : Lis3dsh α}

/-- The outline of a device that has just been started. -/
def start (boot : Env) (nv : Nvram) (remains : Device α) : Outline where
  watch := created boot nv
  pending := []
  levels := remains.levels
  rtc := remains.rtc
  attr := muchiGattDatabase

/-- The event an input gives to the main state machine. -/
def raised (o : Outline) : DeviceInput chip → Option (Moment × MEvent)
  | .edge m port bit => ((o.flip port bit).buttonEvent port bit).map (m, ·)
  | .serialized m => o.pending.head?.map (m, ·)
  | .timeout m => some (m, .tick1s)
  | .write m handle value =>
    if handle = handleMuchiMessage ∧ 0 < value.length then some (m, .messageArrived) else none
  | _ => none

/-- What an input does before its event is handled. -/
def arrive (gestures : Gestures) (o : Outline) : DeviceInput chip → Outline
  | .edge m port bit =>
    let o := o.flip port bit
    if o.levels port bit && interrupts gesturesMask port bit && m.queued then
      { o with pending := o.pending ++ gestures m.fill (gpioArg port bit) }
    else o
  | .motion _ _ | .fade _ => o
  | .serialized _ => { o with pending := o.pending.tail }
  | .timeout _ =>
    let now := [.ofNat o.rtc.hour, .ofNat o.rtc.minute, .ofNat o.rtc.second]
    { o with attr := Function.update o.attr handleMuchiTime now }
  | .advTimeout m => { o with watch := handle o.watch (.advTimeout (o.env m)) }
  | .report m r => { o with watch := handle o.watch (.report (o.env m) r) }
  | .write m handle value =>
    { o with
      attr := Function.update o.attr handle value
      rtc := if handle = handleMuchiTime ∧ value.length = 3 ∧ m.clockSet = true then
        Device.timeWritten value else o.rtc }
  | .clock t => { o with rtc := t }
  | .powerLoss i j boot remains => start boot (o.watch.crashNvram (handle o.watch i) j) remains

def step (gestures : Gestures) (o : Outline) (i : DeviceInput chip) : Outline :=
  match o.raised i with
  | some (m, e) => (o.arrive gestures i).event m e
  | none => o.arrive gestures i

variable {o : Outline} {gestures : Gestures} {i : DeviceInput chip}

theorem step_of_raised {m : Moment} {e : MEvent} (h : o.raised i = some (m, e)) :
    o.step gestures i = (o.arrive gestures i).event m e := by
  rw [step, h]

theorem step_of_quiet (h : o.raised i = none) : o.step gestures i = o.arrive gestures i := by
  rw [step, h]

/-- What an input draws is in range. -/
def CanDraw (gestures : Gestures) (o : Outline) (i : DeviceInput chip) : Prop :=
  ∀ x ∈ o.raised i, ∀ v ∈ drawnFrom (o.arrive gestures i).watch x.2,
    Drawable ((o.arrive gestures i).env x.1) ((o.arrive gestures i).sources x.1) v

instance : Decidable (o.CanDraw gestures i) :=
  inferInstanceAs (Decidable (∀ x ∈ o.raised i, ∀ v ∈ drawnFrom _ x.2, _))

end

end Outline

/-! ## Devices and their outlines -/

section

variable {α : Type} {chip : Lis3dsh α}

namespace Device

def outline (d : Device α) : Outline := ⟨d.watch, d.pending, d.levels, d.rtc, d.attr⟩

variable (chip) in
/-- What the accelerometer of the device raises. -/
def gestures (d : Device α) : Gestures := fun fill gpioPin =>
  (accelIntHandler chip fill gpioPin d.board).1

variable {d d' : Device α} {m : Moment}

theorem outline_event {e : MEvent} (h : d.mainfsmProcessEvent chip m e = some d') :
    d'.outline = d.outline.event m e := by
  unfold mainfsmProcessEvent at h
  simp only at h
  split at h
  · cases h
    rfl
  · obtain ⟨r, -, rfl⟩ := Option.map_eq_some_iff.mp h
    rfl

/-- An edge: what it does before its event, and the event. -/
theorem edge_eq (port bit : UInt8) : ∃ d₁ : Device α,
    d₁.outline = d.outline.arrive (d.gestures chip) (.edge m port bit : DeviceInput chip) ∧
    d.edge chip m port bit = match (d.outline.flip port bit).buttonEvent port bit with
      | some e => d₁.mainfsmProcessEvent chip m e
      | none => some d₁ := by
  unfold edge Outline.arrive
  have hlevels : (d.outline.flip port bit).levels = (d.flip port bit).levels := rfl
  simp only [hlevels]
  cases (d.flip port bit).levels port bit && interrupts gesturesMask port bit with
  | false => exact ⟨d.flip port bit, rfl, rfl⟩
  | true =>
    refine ⟨(d.flip port bit).accelInterrupt chip m (gpioArg port bit), ?_, rfl⟩
    cases hq : m.queued with
    | true => simp [accelInterrupt, hq, outline, onBus, flip, Outline.flip, gestures]
    | false => simp [accelInterrupt, hq, outline, onBus, flip, Outline.flip]

theorem outline_edge {port bit : UInt8} (h : d.edge chip m port bit = some d') :
    d'.outline = d.outline.step (d.gestures chip) (.edge m port bit : DeviceInput chip) := by
  obtain ⟨d₁, harrive, hedge⟩ := @edge_eq _ chip d m port bit
  have hraised : d.outline.raised (.edge m port bit : DeviceInput chip) =
      ((d.outline.flip port bit).buttonEvent port bit).map (m, ·) := rfl
  rw [hedge] at h
  cases he : (d.outline.flip port bit).buttonEvent port bit with
  | none =>
    rw [he] at h hraised
    cases h
    rw [Outline.step_of_quiet hraised, harrive]
  | some e =>
    rw [he] at h hraised
    rw [Outline.step_of_raised hraised, ← harrive]
    exact outline_event h

theorem outline_write {handle : UInt16} {value : List UInt8}
    (h : (d.writeHandle handle value).muchiWriteHandler chip m handle = some d') :
    d'.outline = d.outline.step (d.gestures chip) (.write m handle value : DeviceInput chip) := by
  have hvalue : (d.writeHandle handle value).attr handle = value := Function.update_self ..
  have hraised : d.outline.raised (.write m handle value : DeviceInput chip) =
      if handle = handleMuchiMessage ∧ 0 < value.length then some (m, .messageArrived)
      else none := rfl
  unfold muchiWriteHandler at h
  simp only [hvalue] at h
  by_cases htime : handle = handleMuchiTime ∧ value.length = 3
  · have hnot : ¬ (handle = handleMuchiMessage ∧ 0 < value.length) := by
      rintro ⟨hmessage, -⟩
      rw [htime.1] at hmessage
      exact absurd hmessage (by decide)
    rw [if_neg hnot] at hraised
    rw [if_pos htime] at h
    rw [Outline.step_of_quiet hraised]
    cases hset : m.clockSet with
    | true =>
      rw [hset, if_pos rfl] at h
      cases h
      simp [outline, Outline.arrive, writeHandle, htime, hset]
    | false =>
      rw [hset, if_neg Bool.false_ne_true] at h
      cases h
      simp [outline, Outline.arrive, writeHandle, hset]
  · have hkept : ¬ (handle = handleMuchiTime ∧ value.length = 3 ∧ m.clockSet = true) :=
      fun hall => htime ⟨hall.1, hall.2.1⟩
    have harrive : (d.writeHandle handle value).outline =
        d.outline.arrive (d.gestures chip) (.write m handle value : DeviceInput chip) := by
      simp only [Outline.arrive, if_neg hkept]
      rfl
    rw [if_neg htime] at h
    split at h
    · next hmessage =>
      rw [if_pos hmessage] at hraised
      rw [Outline.step_of_raised hraised, ← harrive]
      exact outline_event h
    · next hmessage =>
      rw [if_neg hmessage] at hraised
      cases h
      rw [Outline.step_of_quiet hraised, harrive]

theorem outline_serialized (h : d.serializedCallback chip m = some d') :
    d'.outline = d.outline.step (d.gestures chip) (.serialized m : DeviceInput chip) := by
  have hraised : d.outline.raised (.serialized m : DeviceInput chip) =
      d.pending.head?.map (m, ·) := rfl
  unfold serializedCallback at h
  cases hp : d.pending with
  | nil =>
    rw [hp] at h hraised
    cases h
    rw [Outline.step_of_quiet hraised]
    simp [outline, Outline.arrive, hp]
  | cons e es =>
    rw [hp] at h hraised
    rw [Outline.step_of_raised hraised, outline_event h]
    simp [outline, Outline.arrive, hp]

theorem outline_create {boot : Env} {nv : Nvram} {remains : Device α}
    (h : remains.muchiCreate chip boot nv = some d) : d.outline = .start boot nv remains := by
  obtain ⟨r, -, rfl⟩ := Option.map_eq_some_iff.mp h
  rfl

/-- **A device steps as its outline does.** -/
theorem outline_step {i : DeviceInput chip} (h : d.step chip i = some d') :
    d'.outline = d.outline.step (d.gestures chip) i := by
  cases i with
  | edge m port bit => exact outline_edge h
  | write m handle value => exact outline_write h
  | serialized m => exact outline_serialized h
  | timeout m =>
    obtain ⟨d₁, hevent, rfl⟩ := Option.map_eq_some_iff.mp h
    exact outline_event hevent
  | motion | advTimeout | report | clock =>
    cases h
    rfl
  | fade mem =>
    cases h
    split <;> rfl
  | powerLoss i j boot remains => exact outline_create h

/-- The event of an input, and what the device handles it with. -/
theorem raised_outline {i : DeviceInput chip} {gestures : Gestures} {e : MEvent} {d₁ : Device α}
    (h : d.raised i = some (m, e, d₁)) :
    d.outline.raised i = some (m, e) ∧ (d.outline.arrive gestures i).watch = d₁.watch ∧
      (d.outline.arrive gestures i).rtc = d₁.rtc ∧
      (d.outline.arrive gestures i).attr = d₁.attr := by
  cases i with
  | edge m port bit =>
    obtain ⟨e, he, heq⟩ := Option.map_eq_some_iff.mp h
    cases heq
    refine ⟨congrArg (Option.map (m, ·)) he, ?_⟩
    unfold Outline.arrive
    simp only
    split <;> exact ⟨rfl, rfl, rfl⟩
  | serialized m =>
    obtain ⟨e, he, heq⟩ := Option.map_eq_some_iff.mp h
    cases heq
    exact ⟨congrArg (Option.map (m, ·)) he, rfl, rfl, rfl⟩
  | timeout m =>
    cases h
    exact ⟨rfl, rfl, rfl, rfl⟩
  | write m handle value =>
    unfold raised at h
    simp only at h
    split at h
    · next hmessage =>
      cases h
      have hother : ¬ (handle = handleMuchiTime ∧ value.length = 3 ∧ m.clockSet = true) := by
        rintro ⟨htime, -⟩
        rw [hmessage.1] at htime
        exact absurd htime (by decide)
      refine ⟨if_pos hmessage, rfl, ?_, rfl⟩
      exact if_neg hother
    · cases h
  | motion | advTimeout | report | clock | fade | powerLoss => cases h

/-- What an outline draws in range, its device does. -/
theorem canDraw_of_outline {i : DeviceInput chip} {gestures : Gestures}
    (h : d.outline.CanDraw gestures i) : d.CanDraw i := by
  intro m e d₁ hr v hv
  obtain ⟨hraised, hwatch, hrtc, hattr⟩ := @raised_outline _ _ _ _ _ gestures _ _ hr
  have hdraws := h (m, e) hraised v (by rwa [hwatch])
  rwa [Outline.env, Outline.sources, hrtc, hattr] at hdraws

end Device

/-- **Runs of a device are runs of its outline**, where what the accelerometer raises is known. -/
theorem outline_run {gestures : Gestures}
    (hread : ∀ d : Device α, d.Sound chip → d.gestures chip = gestures) {d : Device α}
    (h : d.Sound chip) {is : List (DeviceInput chip)}
    (hdraw : EachStep (Outline.step gestures) (fun o i => o.CanDraw gestures i) d.outline is) :
    DrawsInRange chip (some d) is ∧ ∃ d', run (deviceStep chip) (some d) is = some d' ∧
      d'.Sound chip ∧ d'.outline = run (Outline.step gestures) d.outline is := by
  induction is generalizing d with
  | nil => exact ⟨eachStep_nil, d, rfl, h, rfl⟩
  | cons i is ih =>
    obtain ⟨hi, hrest⟩ := eachStep_cons.mp hdraw
    have hcan := Device.canDraw_of_outline hi
    obtain ⟨d₁, hstep, hgoes⟩ := Device.goes_step h i hcan
    have hfirst : deviceStep chip (some d) i = some d₁ := hstep
    have houtline : d₁.outline = d.outline.step gestures i := by
      rw [Device.outline_step hstep, hread d h]
    rw [← houtline] at hrest
    obtain ⟨hrange, d', hrun, hsound, hend⟩ := ih hgoes.sound hrest
    refine ⟨eachStep_cons.mpr ⟨?_, ?_⟩, d', ?_, hsound, ?_⟩
    · rintro d ⟨⟩
      exact hcan
    · rwa [hfirst]
    · rw [run_cons, hfirst, hrun]
    · rw [run_cons, ← houtline, hend]

theorem outline_started {gestures : Gestures}
    (hread : ∀ d : Device α, d.Sound chip → d.gestures chip = gestures) (boot : Env) {nv : Nvram}
    (hmark : nv nvmConfigIsValid = []) (havatar : nv nvmAvatarCode = []) (remains : Device α)
    {is : List (DeviceInput chip)}
    (hdraw : EachStep (Outline.step gestures) (fun o i => o.CanDraw gestures i)
      (.start boot nv remains) is) :
    DrawsInRange chip (remains.muchiCreate chip boot nv) is ∧
    ∃ d, run (deviceStep chip) (remains.muchiCreate chip boot nv) is = some d ∧ d.Sound chip ∧
      d.outline = run (Outline.step gestures) (.start boot nv remains) is := by
  obtain ⟨d₀, hcreate, hstart⟩ := started chip boot hmark havatar remains
  have houtline := Device.outline_create hcreate
  rw [← houtline] at hdraw ⊢
  rw [hcreate]
  exact outline_run hread hstart.sound hdraw

end

/-! ## A sample -/

/-- What a register file raises whose registers are `por` after a reset. -/
def registerGestures (por : UInt8 → UInt8) : Gestures := fun _ gpioPin =>
  if handlerArgToPinNumber gpioPin = muchiGpioAccelInt1 then
    [if por lis3dshRegProgramResetPin1 = 7 then .tilt60 else .untilt60]
  else if handlerArgToPinNumber gpioPin = muchiGpioAccelInt2 then
    [if por lis3dshRegProgramResetPin2 = 3 then .shortInactive else .wakeup]
  else []

/-- A register `gestures_init` does not set is read as after a reset. -/
theorem read_registerChip {por : UInt8 → UInt8} {d : Device RegisterFile}
    (h : d.Sound (registerChip por)) (fill : UInt8) {addr : UInt8}
    (haddr : addr ∉ gesturesSettings.map (·.1))
    (hplace : (addr ||| lis3dshReadFlag) &&& 0x7f = addr) :
    (accelReadReg8 (registerChip por).toSlave fill addr d.board).1 = por addr := by
  have hreg := congrFun h.reg addr
  rw [settings_of_notMem haddr] at hreg
  show (accelReadReg8 (registerFile por) fill addr d.board).1 = por addr
  rw [read_registerFile h.bus, hplace]
  exact hreg

theorem gestures_registerChip {por : UInt8 → UInt8} (d : Device RegisterFile)
    (h : d.Sound (registerChip por)) : d.gestures (registerChip por) = registerGestures por := by
  funext fill gpioPin
  have hfirst := @read_registerChip _ _ h fill lis3dshRegProgramResetPin1 (by decide) (by decide)
  have hsecond := @read_registerChip _ _ h fill lis3dshRegProgramResetPin2 (by decide) (by decide)
  simp only [Device.gestures, accelIntHandler, accelInt1Handler, accelInt2Handler, hfirst, hsecond]
  unfold registerGestures
  split
  · rfl
  · split <;> rfl

/-- Nothing fails, and the stack holds zeroes. -/
def sampleMoment : Moment := ⟨nominalEnv 0, fun _ => .replicate 6 0, [], 0, true, true⟩

/-- No button is pressed. -/
def sampleRemains : Device RegisterFile where
  watch := powerOn fun _ => []
  u8g := u8gAtRest
  lcd := lcdAtRest
  board := boardAtRest
  panel _ := []
  pending := []
  levels _ _ := false
  rtc := sampleSources.time
  attr _ := []

/-- After a reset, both programs are behind their `OUTW`. -/
def samplePor (addr : UInt8) : UInt8 := if addr = lis3dshRegProgramResetPin1 then 7 else 3

def sampleChip : Lis3dsh RegisterFile := registerChip samplePor

/-- The user selects an avatar, pressing and releasing first one button and then the other. -/
def sampleSetUp : List (DeviceInput sampleChip) :=
  [gpioNextBtn, gpioNextBtn, gpioNextBtn, gpioNextBtn, gpioAcceptBtn, gpioAcceptBtn, gpioAcceptBtn,
    gpioAcceptBtn].map (.edge sampleMoment 0 ·)

/-- It is set up, and a phone sets the time. -/
def sampleMorning : List (DeviceInput sampleChip) :=
  sampleSetUp ++ [.write sampleMoment handleMuchiTime [10, 9, 30]]

/-- A second passes, the watch is moved and the accelerometer reports a tilt, and then a phone sends
a message. -/
def sampleCall : List (DeviceInput sampleChip) :=
  [.timeout sampleMoment, .motion (fun s => { s with phase := .closed }) fun _ => rfl,
    .edge sampleMoment 1 11, .serialized sampleMoment, .timeout sampleMoment,
    .write sampleMoment handleMuchiMessage [72, 73]]

/-- A second passes, the watch loses its power, and is pushed awake. -/
def sampleRestart : List (DeviceInput sampleChip) :=
  [.timeout sampleMoment,
    .powerLoss (.event (nominalEnv 0) .tick1s) 0 (nominalEnv 0) sampleRemains,
    .edge sampleMoment 0 gpioNextBtn, .edge sampleMoment 0 gpioNextBtn,
    .edge sampleMoment 0 gpioNextBtn]

def sampleDay : List (DeviceInput sampleChip) :=
  sampleMorning ++ sampleCall ++ sampleRestart ++ [.timeout sampleMoment]

/-- The outline of the device after `is`. -/
def sampleOutline (is : List (DeviceInput sampleChip)) : Outline :=
  run (Outline.step (registerGestures samplePor))
    (.start (nominalEnv 0) (fun _ => []) sampleRemains) is

theorem sampleDay_draws : EachStep (Outline.step (registerGestures samplePor))
    (fun o i => o.CanDraw (registerGestures samplePor) i)
    (.start (nominalEnv 0) (fun _ => []) sampleRemains) sampleDay := by
  decide +kernel

/-- The day, or the first part of it. -/
theorem outline_sampleDay {is js : List (DeviceInput sampleChip)} (h : is ++ js = sampleDay) :
    DrawsInRange sampleChip (sampleRemains.muchiCreate sampleChip (nominalEnv 0) fun _ => []) is ∧
    ∃ d, run (deviceStep sampleChip)
        (sampleRemains.muchiCreate sampleChip (nominalEnv 0) fun _ => []) is = some d ∧
      d.Sound sampleChip ∧ d.outline = sampleOutline is := by
  have hdraws := sampleDay_draws
  rw [← h] at hdraws
  exact outline_started gestures_registerChip (nominalEnv 0) rfl rfl sampleRemains
    (eachStep_append.mp hdraws).1

end Muchiwachi
