import Muchiwachi.Panel

/-!
# Blanking and waking up

The display of a watch in `TIME` is blanked by `ACCEPT_PUSH` and by inactivity. `ignore_wake` is
to tell the two apart: motion undoes the second only. `blank_respected` says that the first is
kept up; `wakesUp_exact` says when the second is undone.
-/

namespace Muchiwachi

open Lib MainFsm

/-! ## The flag -/

@[simp] theorem ignoreWake_groupfsm (env : Env) (w : Watch) :
    (groupfsmProcessEvent env .groupingStart w).ignoreWake = w.ignoreWake ∧
      (groupfsmProcessEvent env .groupingStop w).ignoreWake = w.ignoreWake :=
  groupfsm_keeps env w (·.ignoreWake) fun _ _ _ _ => rfl

@[simp] theorem ignoreWake_saveConfig (env : Env) (w : Watch) :
    (saveConfig env w).ignoreWake = w.ignoreWake := by
  obtain ⟨_, _, h⟩ := saveConfig_eq env w; rw [h]

@[simp] theorem ignoreWake_keypress (key : Key) (w : Watch) :
    (displayKeypress key w).2.ignoreWake = w.ignoreWake := by cases key <;> rfl

/-- `ignore_wake` after a main event. -/
def ignoreWakeAfter (w : Watch) (e : MEvent) : Bool :=
  match w.mainState, e with
  | .time, .acceptPush => true
  | .time, .nextPush => false
  | _, _ => w.ignoreWake

theorem MainStep.ignoreWake {env : Env} {e : MEvent} {w w' : Watch} (hs : MainStep env e w w') :
    w'.ignoreWake = ignoreWakeAfter w e := by
  cases hs with
  | toTime hm he | toCfg hm he => rcases he with rfl | rfl <;> simp [ignoreWakeAfter, hm] <;> rfl
  | message hm => rcases hm with hm | hm <;> simp [ignoreWakeAfter, hm]
  | tick => simp [ignoreWakeAfter]
  | boot hm | nextKey hm | acceptKey hm | confirm hm | dismiss hm | tilt hm | untilt hm | blank hm
  | inactive hm | inactiveRadar hm | push hm | wakeup hm | longInactive hm | hold hm
  | holdRadar hm | release hm | releaseRadar hm =>
    simp [ignoreWakeAfter, hm, displayOff, displayPowerOn, grprStopAdverts]
  | ignored hi =>
    unfold ignoreWakeAfter
    split <;> simp_all [ignores]

theorem ignoreWake_handle (w : Watch) (i : Input) :
    (handle w i).ignoreWake = match i with
      | .event _ e => ignoreWakeAfter w e
      | _ => w.ignoreWake := by
  cases i with
  | event env e => exact (mainStep env e w).ignoreWake
  | advTimeout env => rfl
  | report env r => exact (onlyStore_report env r w).ignoreWake

/-! ## Blanked by the user -/

/-- The main event `e`, handled in `TIME`. -/
def Input.inTime (w : Watch) (e : MEvent) : Input → Prop
  | .event _ e' => e' = e ∧ w.mainState = .time
  | _ => False

instance (w : Watch) (e : MEvent) (i : Input) : Decidable (i.inTime w e) :=
  match i with
  | .event _ _ => inferInstanceAs (Decidable (_ ∧ _))
  | .advTimeout _ => inferInstanceAs (Decidable False)
  | .report _ _ => inferInstanceAs (Decidable False)

/-- The watch runs with the flag set. -/
structure Watch.IgnoresWake (w : Watch) : Prop where
  running : w.mainState.running = true
  flag : w.ignoreWake = true

/-- Only `NEXT_PUSH` in `TIME` clears the flag. -/
theorem Watch.IgnoresWake.handle {w : Watch} (h : w.IgnoresWake) {i : Input}
    (hi : ¬ i.inTime w .nextPush) : (handle w i).IgnoresWake := by
  refine ⟨running_handle h.running i, ?_⟩
  rw [ignoreWake_handle]
  cases i with
  | advTimeout env => exact h.flag
  | report env r => exact h.flag
  | event env e =>
    simp only [ignoreWakeAfter]
    split
    · rfl
    · next hm => exact absurd ⟨rfl, hm⟩ hi
    · exact h.flag

/-- With the flag set, two events in `TIME` power the panel. -/
theorem Watch.IgnoresWake.powers {w : Watch} (h : w.IgnoresWake) {env : Env} {e : MEvent}
    (hp : powerChange env w e = some true) :
    (Input.event env e).inTime w .nextPush ∨ (Input.event env e).inTime w .bothHold := by
  have hrun := h.running
  have hflag := h.flag
  unfold powerChange at hp
  split at hp
  case h_1 | h_4 | h_5 | h_6 => cases hp
  case h_2 hm | h_3 hm =>
    rw [hm] at hrun
    cases hrun
  case h_7 hm => exact .inl ⟨rfl, hm⟩
  case h_8 hm => exact .inr ⟨rfl, hm⟩
  case h_9 =>
    rw [hflag] at hp
    cases hp
  case h_10 => cases hp

/-- A dark panel stays dark. -/
theorem Watch.IgnoresWake.dark {w : Watch} (h : w.IgnoresWake) {i : Input}
    (hi : ¬ i.inTime w .nextPush ∧ ¬ i.inTime w .bothHold) (hdark : w.panelPower = (false, false)) :
    (Muchiwachi.handle w i).panelPower = (false, false) := by
  rw [panelPower_handle]
  cases i with
  | advTimeout env => exact hdark
  | report env r => exact hdark
  | event env e =>
    cases hp : powerChange env w e with
    | none => simpa [hp] using hdark
    | some on =>
      cases on with
      | false => simp [hp]
      | true => exact absurd (h.powers hp) (not_or.mpr hi)

theorem Watch.IgnoresWake.wakeup {w : Watch} (h : w.IgnoresWake) (env : Env) :
    Muchiwachi.handle w (.event env .wakeup) = w := by
  have hrun := h.running
  have hflag := h.flag
  have hstep := mainStep env .wakeup w
  show mainfsmProcessEvent env .wakeup w = w
  generalize mainfsmProcessEvent env .wakeup w = w' at hstep ⊢
  cases hstep with
  | toTime hm | toCfg hm =>
    rw [hm] at hrun
    cases hrun
  | wakeup _ hi =>
    rw [hflag] at hi
    cases hi
  | ignored => rfl

/-- The calls made since `w` include a start of advertising. -/
def Watch.StartsAdverts (w w' : Watch) : Prop := ∃ k ∈ w.callsSince w', k.startsAdverts = true

theorem ignoresWake_blanked {w : Watch} (hm : w.mainState = .time) (env : Env) :
    (handle w (.event env .acceptPush)).IgnoresWake ∧
      (handle w (.event env .acceptPush)).panelPower = (false, false) := by
  refine ⟨⟨running_handle (by rw [hm]; rfl) _, ?_⟩, ?_⟩
  · rw [ignoreWake_handle]
    simp [ignoreWakeAfter, hm]
  · rw [panelPower_handle]
    simp [powerChange, hm]

/-- **Blanking by the user is respected.** After `ACCEPT_PUSH` in `TIME`, the display stays off
until `NEXT_PUSH` or `BOTH_HOLD` is handled in `TIME`, and no `WAKEUP` starts advertising until
`NEXT_PUSH` is. -/
theorem blank_respected (env : Env) {w : Watch} (hm : w.mainState = .time) (is : List Input) :
    let s := handle w (.event env .acceptPush)
    (EachStep handle (fun v i => ¬ i.inTime v .nextPush ∧ ¬ i.inTime v .bothHold) s is →
      Always handle (fun v => v.displayOn = false ∧ v.chip.pins .display5vOn = false) s is) ∧
    (EachStep handle (fun v i => ¬ i.inTime v .nextPush) s is →
      EachStep handle (fun v i => ∀ env, i = .event env .wakeup → ¬ v.StartsAdverts (handle v i))
        s is) := by
  intro s
  obtain ⟨hflag, hdark⟩ : s.IgnoresWake ∧ s.panelPower = (false, false) :=
    ignoresWake_blanked hm env
  constructor
  · intro hsteps
    have hblank : Always handle (fun v => v.IgnoresWake ∧ v.panelPower = (false, false)) s is :=
      always_of_eachStep (fun v i hi hv => ⟨hv.1.handle hi.1, hv.1.dark hi hv.2⟩) ⟨hflag, hdark⟩
        hsteps
    exact hblank.mono fun v hv => ⟨congrArg Prod.fst hv.2, congrArg Prod.snd hv.2⟩
  · intro hsteps
    refine hsteps.of_invariant (P := Watch.IgnoresWake) (fun v i hi hv => hv.handle hi) hflag ?_
    rintro v i - hv env rfl ⟨k, hk, -⟩
    rw [hv.wakeup, Watch.callsSince, List.drop_length] at hk
    cases hk

/-- After the watch is blanked it is moved, tilted and moved back. -/
def sampleStir : List Input :=
  [.wakeup, .tilt60, .tick1s, .wakeup, .untilt60, .wakeup].map (.event (nominalEnv 0))

/-- A configured watch is lit, and blanked. -/
theorem blank_respected_sample :
    let w := run handle (created (nominalEnv 0) (configuredNvram 60))
      ([.nextPush, .nextPush].map (.event (nominalEnv 0)))
    let s := handle w (.event (nominalEnv 0) .acceptPush)
    Always handle (fun v => v.displayOn = false ∧ v.chip.pins .display5vOn = false) s sampleStir ∧
      EachStep handle (fun v i => ∀ env, i = .event env .wakeup → ¬ v.StartsAdverts (handle v i))
        s sampleStir := by
  intro w s
  have hblank := blank_respected (nominalEnv 0) (w := w) (by decide +kernel) sampleStir
  exact ⟨hblank.1 (by decide +kernel), hblank.2 (by decide +kernel)⟩

/-! ## Blanked by inactivity -/

/-- The watch after `SHORT_INACTIVE` and some ticks. -/
def dozed (env : Env) (ticks : List Env) (w : Watch) : Watch :=
  run handle w (.event env .shortInactive :: ticks.map fun t => .event t .tick1s)

/-- If the watch is lit in `TIME`, then motion undoes its being blanked by inactivity. -/
def Watch.WakesUp (w : Watch) : Prop :=
  w.mainState = .time → w.displayOn = true → ∀ env ticks env',
    let s := dozed env ticks w
    let s' := handle s (.event env' .wakeup)
    s'.mainState = .time ∧ s'.displayOn = true ∧ s.StartsAdverts s' ∧
      s'.chip.discoverable = .lowUndirectedDiscoverable

/-- The watch comes back to `TIME` lit, with the flag set. -/
def Input.returnsStale (w : Watch) : Input → Prop
  | .event _ e => w.ignoreWake = true ∧ w.displayOn = true ∧
      (w.mainState = .radar ∧ (e = .untilt60 ∨ e = .bothRelease) ∨
        w.mainState = .message ∧ e = .acceptPush)
  | _ => False

section

variable {w : Watch} (hm : w.mainState = .time)
include hm

/-- However long it dozes, the watch stays in `TIME`, dark, with the flag as it was. -/
theorem dozed_time (env : Env) (ticks : List Env) :
    (dozed env ticks w).mainState = .time ∧ (dozed env ticks w).displayOn = false ∧
      (dozed env ticks w).ignoreWake = w.ignoreWake := by
  have hoff : handle w (.event env .shortInactive) = displayOff w :=
    process_stay .shortInactive hm rfl hm
  have htick : ∀ (v : Watch) (i : Input), (∃ t, i = .event t .tick1s) →
      v.mainState = .time ∧ v.displayOn = false ∧ v.ignoreWake = w.ignoreWake →
      (handle v i).mainState = .time ∧ (handle v i).displayOn = false ∧
        (handle v i).ignoreWake = w.ignoreWake := by
    rintro v _ ⟨t, rfl⟩ hv
    have htick : handle v (.event t .tick1s) = displayUpdate t v :=
      process_stay .tick1s hv.1 rfl (by simpa using hv.1)
    rw [htick]
    simpa using hv
  have hticks : ∀ i ∈ ticks.map (fun t => Input.event t .tick1s), ∃ t, i = .event t .tick1s := by
    intro i hi
    obtain ⟨t, -, rfl⟩ := List.mem_map.mp hi
    exact ⟨t, rfl⟩
  have hdark : (displayOff w).mainState = .time ∧ (displayOff w).displayOn = false ∧
      (displayOff w).ignoreWake = w.ignoreWake := ⟨hm, rfl, rfl⟩
  rw [dozed, run_cons, hoff]
  exact (always_of_step_of htick hdark hticks).final

theorem wakeup_time (hi : w.ignoreWake = false) (env : Env) :
    handle w (.event env .wakeup) = grprStartAdverts env 0 (displayPowerOn w) := by
  have hs : table.stateTable .time ⟨env, .wakeup⟩ w =
      (.time, grprStartAdverts env 0 (displayPowerOn w)) := by
    simp [table, doStateTime, wake, hi]
  exact process_stay .wakeup hm hs (by simpa [displayPowerOn] using hm)

end

/-- The watch that motion has lit. -/
theorem relit (env : Env) (w : Watch) :
    let w' := grprStartAdverts env 0 (displayPowerOn w)
    w'.displayOn = true ∧ w.StartsAdverts w' ∧
      w'.chip.discoverable = .lowUndirectedDiscoverable := by
  refine ⟨rfl, ⟨.generateAdvData (advFields env 0 (displayPowerOn w)), ?_, rfl⟩, rfl⟩
  simp [Watch.callsSince, grprStartAdverts, displayPowerOn, Watch.call]

/-- Lit in `TIME`, the watch has the flag cleared. -/
def Watch.HeedsWake (w : Watch) : Prop :=
  w.mainState = .time → w.displayOn = true → w.ignoreWake = false

/-- Motion is heeded as long as the flag is clear. -/
theorem wakesUp_iff (w : Watch) : w.WakesUp ↔ w.HeedsWake := by
  constructor
  · intro h hm hon
    by_contra hflag
    rw [Bool.not_eq_false] at hflag
    obtain ⟨hstate, hdark, hsame⟩ := dozed_time hm (nominalEnv 0) []
    have hignores : (dozed (nominalEnv 0) [] w).IgnoresWake :=
      ⟨by rw [hstate]; rfl, hsame.trans hflag⟩
    have hlit := (h hm hon (nominalEnv 0) [] (nominalEnv 0)).2.1
    rw [hignores.wakeup, hdark] at hlit
    cases hlit
  · intro h hm hon env ticks env'
    obtain ⟨hstate, -, hsame⟩ := dozed_time hm env ticks
    have hclear := hsame.trans (h hm hon)
    intro s s'
    have hwake : s' = grprStartAdverts env' 0 (displayPowerOn s) := wakeup_time hstate hclear env'
    have htime : (grprStartAdverts env' 0 (displayPowerOn s)).mainState = .time := by
      rw [mainState_startAdverts]
      exact hstate
    rw [hwake]
    exact ⟨htime, relit env' s⟩

/-- The flag is set in running watches only. -/
def Watch.FlagWhenRunning (w : Watch) : Prop := w.ignoreWake = true → w.mainState.running = true

theorem flagWhenRunning_handle {w : Watch} (h : w.FlagWhenRunning) (i : Input) :
    (handle w i).FlagWhenRunning := by
  intro hflag
  rw [ignoreWake_handle] at hflag
  refine running_handle ?_ i
  cases i with
  | advTimeout env => exact h hflag
  | report env r => exact h hflag
  | event env e =>
    simp only [ignoreWakeAfter] at hflag
    split at hflag
    · next hm =>
      rw [hm]
      rfl
    · cases hflag
    · exact h hflag

theorem MainStep.heedsWake {env : Env} {e : MEvent} {w w' : Watch} (hs : MainStep env e w w')
    (hr : w.FlagWhenRunning) (h : w.HeedsWake) :
    w'.HeedsWake ↔ ¬ (Input.event env e).returnsStale w := by
  have hclear : w.mainState.running = false → w.ignoreWake = false := by
    intro hrun
    by_contra hflag
    rw [Bool.not_eq_false] at hflag
    rw [hr hflag] at hrun
    cases hrun
  unfold Watch.HeedsWake at *
  unfold Input.returnsStale
  cases hs with
  | message | tilt | hold | boot => simp
  | toCfg hm => simp [hm]
  | toTime hm =>
    have hflag := hclear (by rw [hm]; rfl)
    refine iff_of_true (fun _ _ => hflag) ?_
    simp [hflag]
  | confirm hm =>
    have hflag := hclear (by rw [hm]; rfl)
    simp [hflag]
  | nextKey hm | acceptKey hm | dismiss hm | untilt hm | releaseRadar hm | holdRadar hm =>
    simp [hm]
  | blank hm | inactive hm | push hm => simp [hm, displayOff, displayPowerOn]
  | inactiveRadar => simp [displayOff]
  | wakeup hm hi => simp [hm, hi, displayPowerOn]
  | longInactive hm | release hm => simpa [hm, grprStopAdverts] using h hm
  | tick => simpa using h
  | ignored hi =>
    refine iff_of_true h ?_
    rintro ⟨-, -, ⟨hm, rfl | rfl⟩ | ⟨hm, rfl⟩⟩ <;> simp [ignores, hm] at hi

theorem heedsWake_handle {w : Watch} (hr : w.FlagWhenRunning) (h : w.HeedsWake) (i : Input) :
    (handle w i).HeedsWake ↔ ¬ i.returnsStale w := by
  cases i with
  | advTimeout env => exact iff_of_true h not_false
  | report env r =>
    have hs := onlyStore_report env r w
    have hstate : (handle w (.report env r)).mainState = w.mainState := hs.mainState
    have hon : (handle w (.report env r)).displayOn = w.displayOn := hs.displayOn
    have hflag : (handle w (.report env r)).ignoreWake = w.ignoreWake := hs.ignoreWake
    refine iff_of_true ?_ not_false
    unfold Watch.HeedsWake
    rwa [hstate, hon, hflag]
  | event env e => exact (mainStep env e w).heedsWake hr h

/-- **When motion undoes blanking by inactivity**: in the runs in which the watch does not come
back to `TIME` from `RADAR` or `MESSAGE` lit and with the flag still set. -/
theorem wakesUp_exact (boot : Env) (nv : Nvram) (is : List Input) :
    Always handle Watch.WakesUp (booting boot nv) is ↔
      EachStep handle (fun w i => ¬ i.returnsStale w) (booting boot nv) is := by
  have hs := onlyStore_booting boot nv
  have hflag : (booting boot nv).ignoreWake = false := hs.ignoreWake
  rw [← always_iff_eachStep (I := Watch.FlagWhenRunning) (P := Watch.HeedsWake)
    (fun _ i h => flagWhenRunning_handle h i) (fun _ i hr h => heedsWake_handle hr h i)
    (by simp [Watch.FlagWhenRunning, hflag]) (fun _ _ => hflag) is]
  exact forall_congr' fun pre => imp_congr_right fun _ => wakesUp_iff _

/-- A configured watch is lit and blanked by the accept button; the other button is pressed before
that one is let go. -/
def sampleBlankHold : List Input :=
  [.bootDone, .nextPush, .nextPush, .acceptPush, .bothHold, .bothRelease].map
    (.event (nominalEnv 0))

/-- The watch is lit in `TIME` and motion does not bring it back. -/
theorem blanked_for_good :
    ¬ Always handle Watch.WakesUp (booting (nominalEnv 0) (configuredNvram 60))
      sampleBlankHold := by
  intro h
  have hwake := h.final (by decide +kernel) (by decide +kernel) (nominalEnv 0) [nominalEnv 0]
    (nominalEnv 0)
  exact absurd hwake.2.1 (by decide +kernel)

/-! ## How the flag is left behind -/

/-- Both buttons are held in `TIME`, which lights the display and leaves the flag as it is. -/
def Input.lightsStale (w : Watch) (i : Input) : Prop :=
  i.inTime w .bothHold ∧ w.ignoreWake = true

/-- With the flag set the watch runs and is dark. -/
def Watch.DarkWhenFlagged (w : Watch) : Prop :=
  w.ignoreWake = true → w.IgnoresWake ∧ w.panelPower = (false, false)

theorem darkWhenFlagged_handle {w : Watch} {i : Input} (hi : ¬ i.lightsStale w)
    (h : w.DarkWhenFlagged) : (handle w i).DarkWhenFlagged := by
  intro hset
  cases hflag : w.ignoreWake with
  | true =>
    obtain ⟨hw, hdark⟩ := h hflag
    have hpush : ¬ i.inTime w .nextPush := by
      intro hpush
      cases i with
      | event env e =>
        obtain ⟨rfl, hm⟩ := hpush
        rw [ignoreWake_handle] at hset
        simp [ignoreWakeAfter, hm] at hset
      | advTimeout | report => exact hpush
    exact ⟨hw.handle hpush, hw.dark ⟨hpush, fun hhold => hi ⟨hhold, hflag⟩⟩ hdark⟩
  | false =>
    rw [ignoreWake_handle] at hset
    cases i with
    | advTimeout | report =>
      rw [hflag] at hset
      cases hset
    | event env e =>
      simp only [ignoreWakeAfter] at hset
      split at hset
      · next hm => exact ignoresWake_blanked hm env
      · cases hset
      · rw [hflag] at hset
        cases hset

/-- While both buttons are held only with the flag clear, motion undoes blanking by inactivity. -/
theorem wakesUp_of_clear (boot : Env) (nv : Nvram) {is : List Input}
    (h : EachStep handle (fun w i => ¬ i.lightsStale w) (booting boot nv) is) :
    Always handle Watch.WakesUp (booting boot nv) is := by
  have hflag : (booting boot nv).ignoreWake = false := (onlyStore_booting boot nv).ignoreWake
  have hboot : (booting boot nv).DarkWhenFlagged := by
    intro hset
    rw [hflag] at hset
    cases hset
  refine (always_of_eachStep (fun _ _ => darkWhenFlagged_handle) hboot h).mono fun w hw => ?_
  rw [wakesUp_iff]
  intro _ hon
  by_contra hset
  rw [Bool.not_eq_false] at hset
  have hdark := congrArg Prod.fst (hw hset).2
  exact Bool.false_ne_true (hdark.symm.trans hon)

end Muchiwachi
