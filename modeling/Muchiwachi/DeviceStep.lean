import Mathlib.Data.List.Forall2
import Muchiwachi.Device
import Muchiwachi.Redraw
import Muchiwachi.Lib.Signal

/-!
# What a step of the device does

`Goes` is what a step of the device, or several, amount to: what the watch in it has handled, and
what has become of the picture on the panel. `goes_step` says so of every input, `goes_run` of every
run.
-/

namespace Muchiwachi

open Lib Lib.MemoryLcd Lib.SpiBus Lib.Raster MainFsm

/-- The events the accelerometer raises. -/
def MEvent.ofGestures : MEvent → Bool
  | .tilt60 | .untilt60 | .shortInactive | .wakeup => true
  | _ => false

/-! ## The pictures the watch draws -/

/-- A call that draws a picture. -/
def drawing (_ : Chip) : Call → List Screen
  | .draw screen => [screen]
  | _ => []

/-- The canvas is one of the faces of the picture. -/
def Screen.HasFace (screen : Screen) (c : Set Pixel) : Prop :=
  ∃ env src w, w.mainState.screen = some screen ∧ c = face env src w

/-- The pictures an input draws, if power lasts while it is handled. -/
def PowerInput.screens (w : Watch) : PowerInput → List Screen
  | .input i => w.seenSince drawing (handle w i)
  | .powerLoss .. => []

theorem NoUpdate.emits {w w' : Watch} (h : NoUpdate w w') : Emits drawing [] w w' :=
  Issues.emits h fun c k hk => by
    cases k with
    | draw => cases hk
    | _ => rfl

theorem emits_displayUpdate (env : Env) (w : Watch) :
    Emits drawing (if w.displayOn && w.showsFace env then w.mainState.screen.toList else []) w
      (displayUpdate env w) := by
  have htoggle : Emits drawing [] w { w with extcomin := !w.extcomin } := .ram rfl rfl
  unfold displayUpdate
  cases hon : w.displayOn with
  | false => simpa [hon] using htoggle
  | true =>
    simp only [Bool.not_true, Bool.false_eq_true, if_false, Bool.true_and]
    refine (htoggle.nil_trans (Emits.call (.setPin .displayExtcomin (!w.extcomin)) _)).nil_trans ?_
    unfold drawState Watch.showsFace
    simp only [mainState_call]
    cases w.mainState with
    | boot | idle => exact .ram rfl rfl
    | time => exact Emits.call (.draw .watch) _
    | radar => exact Emits.call (.draw .radar) _
    | cfg => exact Emits.call (.draw .config) _
    | message =>
      simp only [displayMessage]
      by_cases hempty : env.message.length = 0
      · simp only [hempty, if_true]
        exact .ram rfl rfl
      · have hshows : decide (env.message.length ≠ 0) = true := decide_eq_true hempty
        rw [hshows, if_neg hempty]
        exact Emits.call (.draw .message) _

section

variable {α : Type} {chip : Lis3dsh α}

namespace Device

/-! ## What a step is for the watch and for the panel -/

/-- The event an input gives to the main state machine, and the device that takes it. -/
def raised (d : Device α) : DeviceInput chip → Option (Moment × MEvent × Device α)
  | .edge m port bit =>
    let d := d.flip port bit
    let e := if interrupts buttonsMask port bit then
      buttonsInterruptHandler d.levels (gpioArg port bit) else none
    e.map (m, ·, d)
  | .serialized m => d.pending.head?.map (m, ·, { d with pending := d.pending.tail })
  | .timeout m => some (m, .tick1s, d.showTime)
  | .write m handle value =>
    if handle = handleMuchiMessage ∧ 0 < value.length then
      some (m, .messageArrived, d.writeHandle handle value)
    else none
  | _ => none

/-- What an input is for the watch. -/
def inputs (d : Device α) (i : DeviceInput chip) : List PowerInput :=
  match d.raised i with
  | some (m, e, d') => [.input (.event (d'.env m) e)]
  | none =>
    match i with
    | .advTimeout m => [.input (.advTimeout (d.env m))]
    | .report m r => [.input (.report (d.env m) r)]
    | .powerLoss i j boot _ => [.powerLoss i j boot]
    | _ => []

/-- What an event is for the panel: a picture is drawn, or it loses its power. -/
def eventPictures (env : Env) (src : Sources) (w : Watch) (e : MEvent) :
    List (Reading (Set Pixel)) :=
  match drawnFrom w e with
  | some v => if v.displayOn && v.showsFace env then [.sample (face env src v)] else []
  | none => if powerChange env w e = some false then [.cut] else []

/-- What an input is for the panel. -/
def pictures (d : Device α) (i : DeviceInput chip) : List (Reading (Set Pixel)) :=
  match d.raised i with
  | some (m, e, d') => eventPictures (d'.env m) (d'.sources m) d'.watch e
  | none =>
    match i with
    | .powerLoss .. => [.cut]
    | _ => []

/-- **An event draws what `display_update` draws**, and on the panel. -/
theorem screens_event (env : Env) (src : Sources) (w : Watch) (e : MEvent) :
    List.Forall₂ Screen.HasFace (PowerInput.screens w (.input (.event env e)))
      (samples (eventPictures env src w e)) := by
  have hdraws := (mainStep env e w).drawsFrom
  show List.Forall₂ _ (w.seenSince drawing (Muchiwachi.mainfsmProcessEvent env e w)) _
  unfold eventPictures
  cases hd : drawnFrom w e with
  | none =>
    rw [hd] at hdraws
    rw [hdraws.emits.seenSince]
    simp only
    split <;> exact .nil
  | some v =>
    rw [hd] at hdraws
    obtain ⟨hcalls, hchip, hafter⟩ := hdraws
    have hbefore : Emits drawing [] w v := .ram hcalls hchip
    rw [((hbefore.nil_trans (emits_displayUpdate env v)).then_nil hafter.emits).seenSince]
    by_cases hshow : (v.displayOn && v.showsFace env) = true
    · simp only [hshow, if_true]
      obtain ⟨screen, hscreen⟩ : ∃ screen, v.mainState.screen = some screen := by
        have hface := (Bool.and_eq_true_iff.mp hshow).2
        unfold Watch.showsFace at hface
        cases hm : v.mainState with
        | boot | idle => simp [hm] at hface
        | time | radar | message | cfg => exact ⟨_, rfl⟩
      rw [hscreen]
      exact .cons ⟨env, src, v, hscreen, rfl⟩ .nil
    · simp only [hshow]
      exact .nil

/-- What an input draws is in range. -/
def CanDraw (d : Device α) (i : DeviceInput chip) : Prop :=
  ∀ m e d', d.raised i = some (m, e, d') →
    ∀ v ∈ drawnFrom d'.watch e, Drawable (d'.env m) (d'.sources m) v

variable (chip)

/-- What every device keeps. -/
structure Sound (d : Device α) : Prop where
  config : ConfigInv (fun _ => True) d.watch
  power : d.watch.KnowsPower
  u8g : d.u8g.Idle
  bus : d.board.Idle
  reg : chip.reg (d.board.state .accel) = settings chip
  pending : ∀ e ∈ d.pending, e.ofGestures = true

variable {chip}

/-- The panel is powered and shows the canvas. -/
structure Shows (d : Device α) (c : Set Pixel) : Prop where
  on : d.watch.displayOn = true
  pixels : ∀ x y, x < 128 → y < 128 →
    (panelPixel d.panel x y = true ↔ ((.ofNat x, .ofNat y) : Pixel) ∈ c)

variable (chip)

/-- From `d` to `d'` the watch has handled `is`, and `rs` has happened to the panel, which has got
the pictures that were drawn meanwhile. -/
structure Goes (is : List PowerInput) (rs : List (Reading (Set Pixel))) (d d' : Device α) :
    Prop where
  sound : d'.Sound chip
  watch : d'.watch = run Watch.powerStep d.watch is
  drawn : List.Forall₂ Screen.HasFace (outputs Watch.powerStep PowerInput.screens d.watch is)
    (samples rs)
  panel : match rs.getLast? with
    | some (.sample c) => d'.Shows c
    | some .cut => True
    | none => ∀ c, d.Shows c → d'.Shows c

variable {chip} {d d' d'' : Device α}

theorem Goes.refl (h : d.Sound chip) : Goes chip [] [] d d := ⟨h, rfl, .nil, fun _ h => h⟩

theorem Goes.trans {is js : List PowerInput} {rs ss : List (Reading (Set Pixel))}
    (h : Goes chip is rs d d') (h' : Goes chip js ss d' d'') :
    Goes chip (is ++ js) (rs ++ ss) d d'' := by
  refine ⟨h'.sound, ?_, ?_, ?_⟩
  · rw [run_append, ← h.watch, h'.watch]
  · rw [outputs_append, samples_append, ← h.watch]
    exact List.rel_append h.drawn h'.drawn
  · have hlast := h'.panel
    rw [List.getLast?_append]
    cases hss : ss.getLast? with
    | some r =>
      rw [hss] at hlast
      rw [Option.some_or]
      cases r with
      | cut => trivial
      | sample c => exact hlast
    | none =>
      rw [hss] at hlast
      have hpanel := h.panel
      rw [Option.none_or]
      cases hrs : rs.getLast? with
      | none =>
        rw [hrs] at hpanel
        exact fun c hc => hlast c (hpanel c hc)
      | some r =>
        rw [hrs] at hpanel
        cases r with
        | cut => trivial
        | sample c => exact hlast c hpanel

/-- A step that neither the watch nor the panel sees. -/
theorem Goes.quiet (h : d'.Sound chip) (hwatch : d'.watch = d.watch) (hpanel : d'.panel = d.panel) :
    Goes chip [] [] d d' := by
  refine ⟨h, hwatch, .nil, fun c hc => ⟨?_, ?_⟩⟩
  · rw [hwatch]
    exact hc.on
  · rw [hpanel]
    exact hc.pixels

/-- An input that is not for the panel. -/
theorem Goes.input (h : d.Sound chip) {i : Input} (hdraws : NoUpdate d.watch (handle d.watch i))
    (hpower : (handle d.watch i).panelPower = d.watch.panelPower) :
    Goes chip [.input i] [] d { d with watch := handle d.watch i } := by
  have hsound : Sound chip { d with watch := handle d.watch i } :=
    ⟨h.config.powerStep (.input i) (fun _ _ => trivial) fun _ => trivial,
      knowsPower_handle h.power i, h.u8g, h.bus, h.reg, h.pending⟩
  refine ⟨hsound, rfl, ?_, fun c hc => ⟨?_, hc.pixels⟩⟩
  · have hscreens : PowerInput.screens d.watch (.input i) = [] := hdraws.emits.seenSince
    simp [outputs, hscreens, samples]
  · exact (congrArg Prod.fst hpower).trans hc.on

/-! ## The bus -/

end Device

/-- From `b` to `b'` the bus is used, and not by the display. -/
structure Board.Aside (b b' : Board α) : Prop where
  idle : b'.Idle
  frames : (b'.state .display).frames = (b.state .display).frames

theorem Board.Aside.trans {b b' b'' : Board α} (h : Board.Aside b b') (h' : Board.Aside b' b'') :
    Board.Aside b b'' := ⟨h'.idle, h'.frames.trans h.frames⟩

theorem aside_call {b : Board α} (hidle : b.Idle) (fill : UInt8) (call : BusCall)
    (h : call.Closed) (hbytes : call.displayBytes = []) :
    Board.Aside b (call.exec chip.toSlave fill b) := by
  obtain ⟨hend, -, hframes⟩ := exec_spec chip.toSlave fill hidle h
  refine ⟨hend, ?_⟩
  rw [hframes, hbytes, List.append_nil]

variable (chip) in
theorem aside_intHandler {b : Board α} (hidle : b.Idle) (fill gpioPin : UInt8) :
    Board.Aside b (accelIntHandler chip fill gpioPin b).2 := by
  have hreads : ∀ addr addr', Board.Aside b
      (accelReadReg8 chip.toSlave fill addr' (accelReadReg8 chip.toSlave fill addr b).2).2 := by
    intro addr addr'
    have hfirst : Board.Aside b (accelReadReg8 chip.toSlave fill addr b).2 :=
      aside_call hidle fill (.readReg8 addr) trivial rfl
    exact hfirst.trans (aside_call hfirst.idle fill (.readReg8 addr') trivial rfl)
  unfold accelIntHandler accelInt1Handler accelInt2Handler
  simp only
  split
  · exact hreads _ _
  · split
    · exact hreads _ _
    · exact ⟨hidle, rfl⟩

variable (chip) in
theorem aside_debugInterrupts {b : Board α} (hidle : b.Idle) :
    Board.Aside b (accelDebugInterrupts chip b) := by
  have hoff : Board.Aside b (accelWriteReg8 chip.toSlave lis3dshRegCtrl4 0x0 b) :=
    aside_call hidle 0 (.writeReg8 lis3dshRegCtrl4 0x0) trivial rfl
  exact hoff.trans
    (aside_call hoff.idle 0 (.writeReg8 lis3dshRegCtrl4 0x37) trivial rfl)

namespace Device

theorem panel_onBus {d : Device α} {f : Board α → Board α} (h : Board.Aside d.board (f d.board)) :
    (d.onBus f).panel = d.panel := by
  simp [onBus, h.frames]

/-- Nothing is drawn. -/
theorem draw_self (d : Device α) : d.draw chip d.u8g d.lcd = d := by
  simp [draw, onBus, play]

/-- A picture goes over the bus to the panel. -/
theorem draw_puts {d : Device α} (hbus : d.board.Idle) {lcd : Lcd} {c : Set Pixel}
    (hputs : d.lcd.PutsOn lcd c) (u : U8g) :
    (d.draw chip u lcd).board.Idle ∧
      (d.draw chip u lcd).board.state .accel = d.board.state .accel ∧
      ∀ x y, x < 128 → y < 128 →
        (panelPixel (d.draw chip u lcd).panel x y = true ↔ ((.ofNat x, .ofNat y) : Pixel) ∈ c) := by
  obtain ⟨evs, ws, htrace, hdecode, hpixels⟩ := hputs
  obtain ⟨fs, hfs, hpanel⟩ := takeTransfers_decodeWire hdecode
  have hclosed : (BusCall.picture evs).Closed := by
    rw [BusCall.Closed, hfs]
    rfl
  obtain ⟨hidle, haccel, hframes⟩ := exec_spec chip.toSlave 0 hbus hclosed
  have hnew : ((play chip.toSlave evs d.board).state .display).frames =
      (d.board.state .display).frames ++ fs := by
    rw [BusCall.displayBytes, hfs] at hframes
    exact hframes
  rw [draw, htrace, List.drop_left]
  refine ⟨hidle, haccel, fun x y hx hy => ?_⟩
  simp only [onBus, hnew, List.drop_left, hpanel]
  exact hpixels _ x y hx hy

end Device

theorem drawnFrom_some {w v : Watch} {e : MEvent} (h : drawnFrom w e = some v) :
    redraws w e = true ∧ (v = w ∨ v = (displayKeypress .next w).2) := by
  unfold drawnFrom at h
  split at h
  · next hr =>
    refine ⟨hr, ?_⟩
    rw [← Option.some.inj h]
    split
    · exact .inr rfl
    · exact .inl rfl
  · cases h

theorem avatarOk_drawnFrom {w v : Watch} {e : MEvent} (hw : avatarOk w.gAvatar)
    (h : drawnFrom w e = some v) : avatarOk v.gAvatar := by
  rcases (drawnFrom_some h).2 with rfl | rfl
  · exact hw
  · show avatarOk (if w.currCursor = .avatar then (nextAvatar w.gAvatar.1, w.gAvatar.2)
      else w.gAvatar)
    split
    · exact ⟨avatarInRange_next hw.1, hw.2⟩
    · exact hw

theorem displayOn_drawnFrom {w v : Watch} {e : MEvent} (h : drawnFrom w e = some v) :
    v.displayOn = w.displayOn := by
  rcases (drawnFrom_some h).2 with rfl | rfl
  · rfl
  · exact displayOn_keypress ..

namespace Device

variable {d d' : Device α}

/-- A main event, with what it draws. -/
theorem goes_event (h : d.Sound chip) (m : Moment) (e : MEvent)
    (hdraw : ∀ v ∈ drawnFrom d.watch e, Drawable (d.env m) (d.sources m) v) :
    ∃ d', d.mainfsmProcessEvent chip m e = some d' ∧
      Goes chip [.input (.event (d.env m) e)]
        (eventPictures (d.env m) (d.sources m) d.watch e) d d' := by
  have hconfig := h.config.powerStep (.input (.event (d.env m) e)) (fun _ _ => trivial)
    fun _ => trivial
  have hknows := knowsPower_handle h.power (.event (d.env m) e)
  have hpower := (mainStep (d.env m) e d.watch).panelPower
  have hdrawn : List.Forall₂ Screen.HasFace
      (outputs Watch.powerStep PowerInput.screens d.watch [.input (.event (d.env m) e)])
      (samples (eventPictures (d.env m) (d.sources m) d.watch e)) := by
    rw [outputs, outputs, List.append_nil]
    exact screens_event ..
  unfold eventPictures at hdrawn
  unfold mainfsmProcessEvent eventPictures
  cases hd : drawnFrom d.watch e with
  | none =>
    rw [hd] at hdrawn
    refine ⟨_, rfl, ⟨hconfig, hknows, h.u8g, h.bus, h.reg, h.pending⟩, rfl, hdrawn, ?_⟩
    by_cases hcut : powerChange (d.env m) d.watch e = some false
    · simp [hcut]
    · simp only [hcut, if_false, List.getLast?_nil]
      rintro c ⟨hon, hpixels⟩
      refine ⟨?_, hpixels⟩
      have hafter : (Muchiwachi.mainfsmProcessEvent (d.env m) e d.watch).displayOn = _ :=
        congrArg Prod.fst hpower
      show (Muchiwachi.mainfsmProcessEvent (d.env m) e d.watch).displayOn = true
      rw [hafter]
      cases hc : powerChange (d.env m) d.watch e with
      | none => exact hon
      | some on =>
        cases on with
        | true => rfl
        | false => exact absurd hc hcut
  | some v =>
    have hsame : powerChange (d.env m) d.watch e = none :=
      powerChange_of_redraws (drawnFrom_some hd).1
    have hafter : (Muchiwachi.mainfsmProcessEvent (d.env m) e d.watch).displayOn = _ :=
      congrArg Prod.fst hpower
    rw [hsame] at hafter
    rw [hd] at hdrawn
    by_cases hshow : v.displayOn = true ∧ v.showsFace (d.env m) = true
    · obtain ⟨u', lcd', hupdate, hu', hputs⟩ :=
        putsOnPanel_update (show 129 ≤ pictureFuel by decide) d.lcd h.u8g (d.env m) (d.sources m)
          (avatarOk_drawnFrom h.config.ram hd) hshow.1 (hdraw v hd) hshow.2
      obtain ⟨hbus, haccel, hpixels⟩ := @draw_puts _ chip { d with
        watch := Muchiwachi.mainfsmProcessEvent (d.env m) e d.watch } h.bus _ _ hputs u'
      have hon : (Muchiwachi.mainfsmProcessEvent (d.env m) e d.watch).displayOn = true :=
        hafter.trans ((displayOn_drawnFrom hd).symm.trans hshow.1)
      simp only [hshow.1, hshow.2, Bool.and_self, if_true] at hdrawn
      simp only [hupdate, Option.map_some, hshow.1, hshow.2, Bool.and_self, if_true]
      refine ⟨_, rfl, ⟨hconfig, hknows, hu', hbus, ?_, h.pending⟩, rfl, hdrawn, hon, hpixels⟩
      rw [haccel]
      exact h.reg
    · have hquiet : displayUpdatePanel pictureFuel (d.env m) (d.sources m) v d.u8g d.lcd =
          some (d.u8g, d.lcd) := displayUpdatePanel_quiet hshow
      have hnone : ¬ (v.displayOn && v.showsFace (d.env m)) = true := by
        rwa [Bool.and_eq_true]
      have hself := @draw_self _ chip { d with
        watch := Muchiwachi.mainfsmProcessEvent (d.env m) e d.watch }
      simp only at hself
      simp only [if_neg hnone] at hdrawn
      simp only [hquiet, Option.map_some, hself, if_neg hnone]
      refine ⟨_, rfl, ⟨hconfig, hknows, h.u8g, h.bus, h.reg, h.pending⟩, rfl, hdrawn,
        fun c hc => ?_⟩
      exact ⟨hafter.trans hc.on, hc.pixels⟩

/-! ## Steps -/

theorem ofGestures_accelIntHandler {fill gpioPin : UInt8} {b : Board α} :
    ∀ e ∈ (accelIntHandler chip fill gpioPin b).1, e.ofGestures = true := by
  unfold accelIntHandler accelInt1Handler accelInt2Handler
  simp only
  split
  · split <;> simp [MEvent.ofGestures]
  · split
    · split <;> simp [MEvent.ofGestures]
    · simp

theorem Sound.holds (h : d.Sound chip) : Holds chip (settings chip) d.board :=
  ⟨h.bus .accel, h.reg⟩

/-- The accelerometer is read. -/
theorem goes_accelInterrupt (h : d.Sound chip) (m : Moment) (gpioPin : UInt8) :
    Goes chip [] [] d (d.accelInterrupt chip m gpioPin) := by
  have haside := aside_intHandler chip h.bus m.fill gpioPin
  have hpanel := panel_onBus (f := fun _ => (accelIntHandler chip m.fill gpioPin d.board).2) haside
  refine .quiet ⟨h.config, h.power, h.u8g, haside.idle, ?_, ?_⟩ rfl hpanel
  · exact (h.holds.intHandler m.fill gpioPin).reg
  · intro e he
    rcases List.mem_append.mp he with hold | hnew
    · exact h.pending e hold
    · split at hnew
      · exact ofGestures_accelIntHandler e hnew
      · cases hnew

/-- The event an input raises is handled. -/
theorem goes_raised {d₁ d₂ : Device α} (h : Goes chip [] [] d d₂) {m : Moment} {e : MEvent}
    (hwatch : d₂.watch = d₁.watch) (henv : d₂.env m = d₁.env m)
    (hsrc : d₂.sources m = d₁.sources m)
    (hdraw : ∀ v ∈ drawnFrom d₁.watch e, Drawable (d₁.env m) (d₁.sources m) v) :
    ∃ d', d₂.mainfsmProcessEvent chip m e = some d' ∧
      Goes chip [.input (.event (d₁.env m) e)]
        (eventPictures (d₁.env m) (d₁.sources m) d₁.watch e) d d' := by
  rw [← hwatch, ← henv, ← hsrc] at hdraw ⊢
  obtain ⟨d', hstep, hgoes⟩ := goes_event h.sound m e hdraw
  exact ⟨d', hstep, h.trans hgoes⟩

theorem goes_edge (h : d.Sound chip) {m : Moment} {port bit : UInt8}
    (hdraw : d.CanDraw (.edge m port bit : DeviceInput chip)) :
    ∃ d', d.edge chip m port bit = some d' ∧
      Goes chip (d.inputs (.edge m port bit : DeviceInput chip))
        (d.pictures (.edge m port bit : DeviceInput chip)) d d' := by
  have hflip : Goes chip [] [] d (d.flip port bit) := .quiet ⟨h.config, h.power, h.u8g, h.bus,
    h.reg, h.pending⟩ rfl rfl
  have hread : Goes chip [] [] d ((d.flip port bit).accelInterrupt chip m (gpioArg port bit)) :=
    hflip.trans (goes_accelInterrupt hflip.sound m _)
  unfold CanDraw raised at hdraw
  unfold edge inputs pictures raised
  simp only at hdraw ⊢
  generalize ((d.flip port bit).levels port bit && interrupts gesturesMask port bit) = raises
  have hlevels : (if raises = true then
      (d.flip port bit).accelInterrupt chip m (gpioArg port bit) else d.flip port bit).levels =
      (d.flip port bit).levels := by
    cases raises <;> rfl
  rw [hlevels]
  generalize (if interrupts buttonsMask port bit then
    buttonsInterruptHandler (d.flip port bit).levels (gpioArg port bit) else none) = e? at hdraw ⊢
  cases e? with
  | none =>
    cases raises with
    | true => exact ⟨_, rfl, hread⟩
    | false => exact ⟨_, rfl, hflip⟩
  | some e =>
    have hdraw := hdraw m e _ rfl
    cases raises with
    | true => exact goes_raised hread rfl rfl rfl hdraw
    | false => exact goes_raised hflip rfl rfl rfl hdraw

theorem goes_write (h : d.Sound chip) {m : Moment} {handle : UInt16} {value : List UInt8}
    (hdraw : d.CanDraw (.write m handle value : DeviceInput chip)) :
    ∃ d', (d.writeHandle handle value).muchiWriteHandler chip m handle = some d' ∧
      Goes chip (d.inputs (.write m handle value : DeviceInput chip))
        (d.pictures (.write m handle value : DeviceInput chip)) d d' := by
  have hwrite : Goes chip [] [] d (d.writeHandle handle value) := .quiet ⟨h.config, h.power, h.u8g,
    h.bus, h.reg, h.pending⟩ rfl rfl
  have hvalue : (d.writeHandle handle value).attr handle = value := Function.update_self ..
  unfold CanDraw raised at hdraw
  unfold muchiWriteHandler inputs pictures raised
  simp only [hvalue] at hdraw ⊢
  by_cases htime : handle = handleMuchiTime ∧ value.length = 3
  · have hnot : ¬ (handle = handleMuchiMessage ∧ 0 < value.length) := by
      rintro ⟨hmessage, -⟩
      rw [htime.1] at hmessage
      exact absurd hmessage (by decide)
    rw [if_pos htime, if_neg hnot]
    cases m.clockSet with
    | true =>
      exact ⟨_, rfl, hwrite.trans
        (.quiet ⟨h.config, h.power, h.u8g, h.bus, h.reg, h.pending⟩ rfl rfl)⟩
    | false => exact ⟨_, rfl, hwrite⟩
  · rw [if_neg htime]
    by_cases hmessage : handle = handleMuchiMessage ∧ 0 < value.length
    · rw [if_pos hmessage] at hdraw
      rw [if_pos hmessage, if_pos hmessage]
      exact goes_raised hwrite rfl rfl rfl (hdraw m .messageArrived _ rfl)
    · rw [if_neg hmessage, if_neg hmessage]
      exact ⟨_, rfl, hwrite⟩

variable (chip) in
/-- A device that has just been started. -/
structure Started (boot : Env) (nv : Nvram) (remains d : Device α) : Prop where
  sound : d.Sound chip
  watch : d.watch = created boot nv
  levels : d.levels = remains.levels
  attr : d.attr = muchiGattDatabase

theorem create_spec (boot : Env) {nv : Nvram} (h : SavedConfig (fun _ => True) nv)
    (remains : Device α) :
    ∃ d', remains.muchiCreate chip boot nv = some d' ∧ Started chip boot nv remains d' := by
  obtain ⟨hidle, hreg⟩ := settings_boot chip remains.board
  obtain ⟨u', lcd', hinit, hu', hputs⟩ := @putsOnPanel_init pictureFuel (by decide) remains.u8g
    remains.lcd _ (avatarOk_booting boot nv)
  obtain ⟨hbus, haccel, -⟩ := @draw_puts _ chip (onBus (setUpBus chip) { remains with
    watch := created boot nv, pending := [], attr := muchiGattDatabase }) hidle _ _ hputs u'
  have hpower := panelPower_created boot nv
  have hknows : (created boot nv).KnowsPower :=
    (congrArg Prod.fst hpower).trans (congrArg Prod.snd hpower).symm
  unfold muchiCreate
  simp only
  refine ⟨_, congrArg _ hinit, ⟨configInv_created h boot, hknows, hu', hbus, ?_, ?_⟩, rfl, rfl, rfl⟩
  · rw [haccel]
    exact hreg
  · intro e he
    cases he

/-- **A step of the device**: it has a result, which is what `inputs` and `pictures` say. -/
theorem goes_step (h : d.Sound chip) (i : DeviceInput chip) (hdraw : d.CanDraw i) :
    ∃ d', d.step chip i = some d' ∧ Goes chip (d.inputs i) (d.pictures i) d d' := by
  cases i with
  | edge m port bit => exact goes_edge h hdraw
  | motion f hf =>
    refine ⟨_, rfl, .quiet ⟨h.config, h.power, h.u8g, h.bus, ?_, h.pending⟩ rfl rfl⟩
    show chip.reg (Function.update d.board.state .accel (f (d.board.state .accel)) .accel) = _
    rw [Function.update_self, hf]
    exact h.reg
  | serialized m =>
    have hpending := h.pending
    unfold CanDraw raised at hdraw
    unfold step serializedCallback inputs pictures raised
    cases hp : d.pending with
    | nil => exact ⟨d, rfl, .refl h⟩
    | cons e es =>
      rw [hp] at hpending hdraw
      have hpop : Goes chip [] [] d { d with pending := es } := .quiet ⟨h.config, h.power, h.u8g,
        h.bus, h.reg, fun e he => hpending e (List.mem_cons_of_mem _ he)⟩ rfl rfl
      exact goes_raised hpop rfl rfl rfl (hdraw m e _ rfl)
  | timeout m =>
    have hshow : Goes chip [] [] d d.showTime := .quiet ⟨h.config, h.power, h.u8g, h.bus, h.reg,
      h.pending⟩ rfl rfl
    obtain ⟨d', hstep, hgoes⟩ := goes_raised hshow rfl rfl rfl (hdraw m .tick1s d.showTime rfl)
    have haside := aside_debugInterrupts chip hgoes.sound.bus
    refine ⟨d'.onBus (accelDebugInterrupts chip), ?_, ?_⟩
    · show (d.showTime.mainfsmProcessEvent chip m .tick1s).map _ = _
      rw [hstep]
      rfl
    · have hquiet : Goes chip [] [] d' (d'.onBus (accelDebugInterrupts chip)) :=
        .quiet ⟨hgoes.sound.config, hgoes.sound.power, hgoes.sound.u8g, haside.idle,
          hgoes.sound.holds.debugInterrupts.reg, hgoes.sound.pending⟩ rfl (panel_onBus haside)
      have hall := hgoes.trans hquiet
      rw [List.append_nil, List.append_nil] at hall
      exact hall
  | advTimeout m =>
    exact ⟨_, rfl, .input h (noUpdate_startAdverts (d.env m) 0 d.watch)
      (panelPower_handle d.watch (.advTimeout (d.env m)))⟩
  | report m r =>
    have hdraws : NoUpdate d.watch (handle d.watch (.report (d.env m) r)) :=
      issues_report (P := fun k => k.updatesDisplay = false) rfl (fun _ _ _ => rfl) (d.env m) r
        d.watch
    exact ⟨_, rfl, .input h hdraws (panelPower_handle d.watch (.report (d.env m) r))⟩
  | write m handle value => exact goes_write h hdraw
  | clock t =>
    exact ⟨_, rfl, .quiet ⟨h.config, h.power, h.u8g, h.bus, h.reg, h.pending⟩ rfl rfl⟩
  | fade mem =>
    refine ⟨_, rfl, ?_⟩
    split
    · exact .refl h
    · next hoff =>
      refine ⟨⟨h.config, h.power, h.u8g, h.bus, h.reg, h.pending⟩, rfl, .nil, fun c hc => ?_⟩
      exact absurd (h.power.symm.trans hc.on) hoff
  | powerLoss i j boot remains =>
    have hconfig := h.config.powerStep (.powerLoss i j boot) (fun _ _ => trivial) fun _ => trivial
    have hsaved := hconfig.saved
    obtain ⟨d', hstep, hstart⟩ := @create_spec _ chip boot
      (d.watch.crashNvram (handle d.watch i) j) (by simpa [Watch.powerStep] using hsaved) remains
    exact ⟨d', hstep, hstart.sound, hstart.watch, .nil, trivial⟩

end Device

/-- A timeout draws the face of the state the watch is in. -/
theorem Device.pictures_timeout {d : Device α} {m : Moment} (hon : d.watch.displayOn = true)
    (hface : d.watch.showsFace (d.env m) = true) :
    d.pictures (.timeout m : DeviceInput chip) =
      [.sample (face (d.env m) (d.sources m) d.watch)] := by
  have hother : handleMuchiMessage ≠ handleMuchiTime := by decide
  have henv : d.showTime.env m = d.env m := by
    simp [env, showTime, writeHandle, Function.update_of_ne hother]
  have hticks : d.watch.mainState.ticks = true := by
    cases hm : d.watch.mainState with
    | time | radar | cfg | message => rfl
    | boot | idle => simp [Watch.showsFace, hm] at hface
  have hdrawn : drawnFrom d.watch .tick1s = some d.watch := by
    simp [drawnFrom, redraws_tick, hticks]
  show eventPictures (d.showTime.env m) (d.sources m) d.watch .tick1s = _
  rw [henv, eventPictures, hdrawn]
  simp only [hon, hface, Bool.and_self, if_true]

/-! ## Runs -/

variable (chip)

/-- A step of the device, if it has come so far. -/
def deviceStep (d? : Option (Device α)) (i : DeviceInput chip) : Option (Device α) :=
  d?.bind (·.step chip i)

/-- Started over `remains`, the device draws nothing that is out of range. -/
def DrawsInRange (d? : Option (Device α)) (is : List (DeviceInput chip)) : Prop :=
  EachStep (deviceStep chip) (fun d? i => ∀ d ∈ d?, d.CanDraw i) d? is

/-- What a run is for the watch. -/
def watchInputs (d? : Option (Device α)) (is : List (DeviceInput chip)) : List PowerInput :=
  outputs (deviceStep chip) (fun d? i => d?.elim [] (·.inputs i)) d? is

/-- What a run is for the panel. -/
def panelPictures (d? : Option (Device α)) (is : List (DeviceInput chip)) :
    List (Reading (Set Pixel)) :=
  outputs (deviceStep chip) (fun d? i => d?.elim [] (·.pictures i)) d? is

variable {chip}

theorem goes_run {d : Device α} (h : d.Sound chip) {is : List (DeviceInput chip)}
    (hdraw : DrawsInRange chip (some d) is) :
    ∃ d', run (deviceStep chip) (some d) is = some d' ∧
      Device.Goes chip (watchInputs chip (some d) is) (panelPictures chip (some d) is) d d' := by
  have hall := hdraw.inv_history (P := fun pre d? => ∃ d', d? = some d' ∧
    Device.Goes chip (watchInputs chip (some d) pre) (panelPictures chip (some d) pre) d d')
    ⟨d, rfl, .refl h⟩ fun pre i hc ⟨d', hrun, hgoes⟩ => ?_
  · exact hall is (List.prefix_refl _)
  · rw [hrun] at hc ⊢
    obtain ⟨d'', hstep, hgoes'⟩ := Device.goes_step hgoes.sound i (hc d' rfl)
    refine ⟨d'', hstep, ?_⟩
    have hsnoc := hgoes.trans hgoes'
    simpa [watchInputs, panelPictures, outputs_append, outputs, hrun] using hsnoc

theorem panelPictures_snoc {d? : Option (Device α)} {is : List (DeviceInput chip)} {d : Device α}
    (h : run (deviceStep chip) d? is = some d) (i : DeviceInput chip) :
    panelPictures chip d? (is ++ [i]) = panelPictures chip d? is ++ d.pictures i := by
  rw [panelPictures, outputs_append, h]
  simp [outputs, panelPictures]

theorem started (chip : Lis3dsh α) (boot : Env) {nv : Nvram} (hmark : nv nvmConfigIsValid = [])
    (havatar : nv nvmAvatarCode = []) (remains : Device α) :
    ∃ d, remains.muchiCreate chip boot nv = some d ∧ Device.Started chip boot nv remains d :=
  Device.create_spec boot ⟨.inl havatar, fun h => by simp [configMarked, hmark] at h⟩ remains

theorem goes_started (chip : Lis3dsh α) (boot : Env) {nv : Nvram}
    (hmark : nv nvmConfigIsValid = []) (havatar : nv nvmAvatarCode = []) (remains : Device α)
    {is : List (DeviceInput chip)}
    (hdraw : DrawsInRange chip (remains.muchiCreate chip boot nv) is) : ∃ d₀ d,
    d₀.watch = created boot nv ∧
    run (deviceStep chip) (remains.muchiCreate chip boot nv) is = some d ∧
    Device.Goes chip (watchInputs chip (remains.muchiCreate chip boot nv) is)
      (panelPictures chip (remains.muchiCreate chip boot nv) is) d₀ d := by
  obtain ⟨d₀, hcreate, hstart⟩ := started chip boot hmark havatar remains
  rw [hcreate] at hdraw ⊢
  obtain ⟨d, hrun, hgoes⟩ := goes_run hstart.sound hdraw
  exact ⟨d₀, d, hstart.watch, hrun, hgoes⟩

end

end Muchiwachi
