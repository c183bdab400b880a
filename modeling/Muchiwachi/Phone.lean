import Muchiwachi.DeviceRuns

/-!
# What a device tells (`main.c`)

A phone writes two characteristics, the time and the message. `Told` is what they come to: the time
the clock goes on from, and the last message. A device knows both in every run (`told_run`), and
each second it tells the time, and shows what it has been told (`device_tells`).
-/

namespace Muchiwachi

open Lib Lib.Raster MainFsm

/-! ## What is told -/

structure Told where
  clock : RtcTime
  message : List UInt8

section

variable {α : Type} {chip : Lis3dsh α}

/-- What a device has been told when it is started over `remains`. -/
def Told.atBoot (remains : Device α) : Told := ⟨remains.rtc, muchiGattDatabase handleMuchiMessage⟩

/-- What an input tells the device. -/
def Told.step (t : Told) : DeviceInput chip → Told
  | .clock c => { t with clock := c }
  | .write m handle value =>
    if handle = handleMuchiTime ∧ value.length = 3 then
      if m.clockSet then { t with clock := Device.timeWritten value } else t
    else if handle = handleMuchiMessage then { t with message := value }
    else t
  | .powerLoss _ _ _ remains => .atBoot remains
  | _ => t

/-- What the device has been told. -/
def Device.told (d : Device α) : Told := ⟨d.rtc, d.attr handleMuchiMessage⟩

namespace Outline

/-- What the device has been told, by its outline. -/
def told (o : Outline) : Told := ⟨o.rtc, o.attr handleMuchiMessage⟩

variable {o : Outline} {gestures : Gestures}

/-- **A step tells the device what its input tells it.** -/
theorem told_step (i : DeviceInput chip) : (o.step gestures i).told = o.told.step i := by
  have hother : handleMuchiMessage ≠ handleMuchiTime := by decide
  have hevent : (o.step gestures i).told = (o.arrive gestures i).told := by
    unfold step
    split <;> rfl
  rw [hevent]
  cases i with
  | edge m port bit =>
    unfold arrive
    simp only
    split <;> rfl
  | timeout m => simp [told, arrive, Told.step, Function.update_of_ne hother]
  | write m handle value =>
    simp only [told, arrive, Told.step]
    by_cases htime : handle = handleMuchiTime ∧ value.length = 3
    · obtain ⟨rfl, hlength⟩ := htime
      simp only [hlength, true_and, if_true, Function.update_of_ne hother]
      split <;> rfl
    · have hkept : ¬ (handle = handleMuchiTime ∧ value.length = 3 ∧ m.clockSet = true) :=
        fun hall => htime ⟨hall.1, hall.2.1⟩
      rw [if_neg hkept, if_neg htime]
      by_cases hmessage : handle = handleMuchiMessage
      · subst hmessage
        simp
      · rw [if_neg hmessage, Function.update_of_ne (Ne.symm hmessage)]
  | motion | serialized | advTimeout | report | clock | fade | powerLoss => rfl

end Outline

namespace Device

variable {d d' : Device α} {m : Moment}

theorem told_create {boot : Env} {nv : Nvram} {remains : Device α}
    (h : remains.muchiCreate chip boot nv = some d') : d'.told = .atBoot remains :=
  congrArg Outline.told (outline_create h)

theorem told_run {is : List (DeviceInput chip)}
    (h : run (deviceStep chip) (some d) is = some d') : d'.told = run Told.step d.told is := by
  induction is using List.reverseRecOn generalizing d' with
  | nil =>
    cases h
    rfl
  | append_singleton is i ih =>
    rw [run_snoc] at h ⊢
    obtain ⟨d₁, hrun, hstep⟩ := Option.bind_eq_some_iff.mp h
    rw [← ih hrun]
    exact (congrArg Outline.told (outline_step hstep)).trans (Outline.told_step i)

/-! ## The timeout -/

/-- A timeout tells the time, and shows the face of the state the watch is in. -/
theorem timeout_spec (h : d.Sound chip) (hdraw : d.CanDraw (.timeout m : DeviceInput chip)) :
    ∃ d', d.step chip (.timeout m) = some d' ∧
      d'.attr handleMuchiTime = [.ofNat d.rtc.hour, .ofNat d.rtc.minute, .ofNat d.rtc.second] ∧
      (d.watch.displayOn = true → d.watch.showsFace (d.env m) = true →
        d'.Shows (face (d.env m) (d.sources m) d.watch)) := by
  obtain ⟨d', hstep, hgoes⟩ := goes_step h (.timeout m) hdraw
  refine ⟨d', hstep, ?_, fun hon hface => ?_⟩
  · have hattr : d'.attr = (d.outline.step (d.gestures chip) (.timeout m)).attr :=
      congrArg Outline.attr (outline_step hstep)
    rw [hattr]
    show Function.update d.attr handleMuchiTime _ handleMuchiTime = _
    exact Function.update_self ..
  · have hpanel := hgoes.panel
    rwa [pictures_timeout hon hface] at hpanel

end Device

/-- **What the device tells**: in every run, a second's timeout leaves the time of the clock in its
characteristic, and on a panel that is on the face of the watch's state, for the time and the
message the device was told last. -/
theorem device_tells (chip : Lis3dsh α) (boot : Env) {nv : Nvram}
    (hmark : nv nvmConfigIsValid = []) (havatar : nv nvmAvatarCode = []) (remains : Device α)
    {is : List (DeviceInput chip)} (m : Moment)
    (hdraw : DrawsInRange chip (remains.muchiCreate chip boot nv) (is ++ [.timeout m])) :
    let told := run Told.step (.atBoot remains) is
    let env := { m.env with message := told.message }
    ∃ d d', run (deviceStep chip) (remains.muchiCreate chip boot nv) is = some d ∧
      d.step chip (.timeout m) = some d' ∧
      d'.attr handleMuchiTime =
        [.ofNat told.clock.hour, .ofNat told.clock.minute, .ofNat told.clock.second] ∧
      (d.watch.displayOn = true → d.watch.showsFace env = true →
        d'.Shows (face env ⟨told.clock, m.prior, m.beyond⟩ d.watch)) := by
  intro told env
  obtain ⟨d₀, hcreate, hstart⟩ := started chip boot hmark havatar remains
  rw [hcreate] at hdraw ⊢
  obtain ⟨hpre, hrest⟩ := eachStep_append.mp hdraw
  obtain ⟨d, hrun, hgoes⟩ := goes_run hstart.sound hpre
  rw [hrun] at hrest
  have hlast : d.CanDraw (.timeout m : DeviceInput chip) := (eachStep_cons.mp hrest).1 d rfl
  have htold : d.told = told := by
    rw [Device.told_run hrun, Device.told_create hcreate]
  obtain ⟨d', hstep, htime, hshows⟩ := Device.timeout_spec hgoes.sound hlast
  have hclock : d.rtc = told.clock := congrArg Told.clock htold
  have henv : d.env m = env := by
    rw [Device.env, show d.attr handleMuchiMessage = told.message from
      congrArg Told.message htold]
  rw [Device.sources, hclock, henv] at hshows
  rw [hclock] at htime
  exact ⟨d, d', hrun, hstep, htime, hshows⟩

end

/-- A phone sets the time, which the face shows, and then sends a message, which is shown. -/
theorem device_tells_sample :
    (∃ d', run (deviceStep sampleChip)
        (sampleRemains.muchiCreate sampleChip (nominalEnv 0) fun _ => [])
        (sampleMorning ++ [.timeout sampleMoment]) = some d' ∧
      d'.attr handleMuchiTime = [10, 9, 30] ∧
      d'.Shows (watchFace (Device.timeWritten [10, 9, 30]) (sampleOutline sampleMorning).watch)) ∧
    ∃ d', run (deviceStep sampleChip)
        (sampleRemains.muchiCreate sampleChip (nominalEnv 0) fun _ => [])
        (sampleMorning ++ sampleCall ++ [.timeout sampleMoment]) = some d' ∧
      d'.attr handleMuchiTime = [10, 9, 30] ∧
      d'.Shows (bands fun _ => messageFace [72, 73, 0] (.replicate 6 0)
        (sampleOutline (sampleMorning ++ sampleCall)).watch) := by
  have htells : ∀ is js, is ++ [.timeout sampleMoment] ++ js = sampleDay →
      let o := sampleOutline is
      o.watch.displayOn = true → o.watch.showsFace (o.env sampleMoment) = true → ∃ d',
      run (deviceStep sampleChip) (sampleRemains.muchiCreate sampleChip (nominalEnv 0) fun _ => [])
        (is ++ [.timeout sampleMoment]) = some d' ∧
      d'.attr handleMuchiTime = [.ofNat o.rtc.hour, .ofNat o.rtc.minute, .ofNat o.rtc.second] ∧
      d'.Shows (face (o.env sampleMoment) (o.sources sampleMoment) o.watch) := by
    intro is js hday o hon hface
    obtain ⟨hrange, -⟩ := outline_sampleDay hday
    rw [List.append_assoc] at hday
    obtain ⟨-, d₁, hrun₁, -, houtline⟩ := outline_sampleDay hday
    obtain ⟨d, d', hrun, hstep, htime, hshows⟩ := device_tells sampleChip (nominalEnv 0) rfl rfl
      sampleRemains sampleMoment hrange
    obtain rfl := Option.some.inj (hrun₁.symm.trans hrun)
    have htold : run Told.step (.atBoot sampleRemains) is = o.told := by
      obtain ⟨d₀, hcreate, -⟩ := @started _ sampleChip (nominalEnv 0) (fun _ => []) rfl rfl
        sampleRemains
      rw [hcreate] at hrun
      rw [← Device.told_create hcreate, ← Device.told_run hrun]
      exact congrArg Outline.told houtline
    have hwatch : d₁.watch = o.watch := congrArg Outline.watch houtline
    rw [htold] at htime hshows
    rw [hwatch] at hshows
    refine ⟨d', ?_, htime, hshows hon hface⟩
    rw [run_snoc, hrun]
    exact hstep
  refine ⟨?_, ?_⟩
  · obtain ⟨d', hrun, htime, hshows⟩ := htells sampleMorning (sampleCall.tail ++ sampleRestart ++
      [.timeout sampleMoment]) rfl (by decide +kernel) (by decide +kernel)
    have hstate : (sampleOutline sampleMorning).watch.mainState = .time := by decide +kernel
    rw [face, hstate] at hshows
    exact ⟨d', hrun, htime, hshows⟩
  · obtain ⟨d', hrun, htime, hshows⟩ := htells (sampleMorning ++ sampleCall) (sampleRestart.tail ++
      [.timeout sampleMoment]) rfl (by decide +kernel) (by decide +kernel)
    have hstate : (sampleOutline (sampleMorning ++ sampleCall)).watch.mainState = .message := by
      decide +kernel
    rw [face, hstate] at hshows
    exact ⟨d', hrun, htime, hshows⟩

end Muchiwachi
