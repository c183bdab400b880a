import Muchiwachi.Panel

/-!
# Redraws

`display_update` draws the screen of `cur_state`, which the state functions run before it changes.
`redraws_exact` says in which runs a redraw leaves the screen of the state that is entered.
-/

namespace Muchiwachi

open Lib MainFsm

/-- The picture that belongs to a state. -/
def MState.screen : MState → Option Screen
  | .time => some .watch
  | .radar => some .radar
  | .message => some .message
  | .cfg => some .config
  | .boot | .idle => none

/-- A main event that drives EXTCOMIN, which only `display_update` does, leaves the picture of
the state it leads to. -/
def Input.RedrawsRight (w : Watch) : Input → Prop
  | .event env e =>
    let w' := handle w (.event env e)
    w.displayOn = true → (∃ level, .sample level ∈ w.seenSince panelReading w') →
      w'.chip.screen = w'.mainState.screen
  | _ => True

/-- The picture is drawn before the watch is turned to look at it, or there is no message to draw
and something else on the panel. -/
def Input.drawsStale (w : Watch) : Input → Prop
  | .event env e => w.displayOn = true ∧
      (w.mainState = .time ∧ e = .tilt60 ∨ w.mainState = .radar ∧ e = .untilt60 ∨
        w.mainState = .message ∧ e = .tick1s ∧ env.message = [] ∧
          w.chip.screen ≠ some .message)
  | _ => False

/-! ## The picture of a redraw -/

/-- What `display_update` leaves on a panel that is on. -/
theorem screen_displayUpdate {env : Env} {w : Watch} (hon : w.displayOn = true)
    (ht : w.mainState.ticks = true) : (displayUpdate env w).chip.screen =
      if w.mainState = .message ∧ env.message = [] then w.chip.screen
      else w.mainState.screen := by
  unfold displayUpdate
  simp only [hon, Bool.not_true, Bool.false_eq_true, if_false]
  cases hm : w.mainState with
  | boot | idle =>
    rw [hm] at ht
    cases ht
  | message =>
    cases hmsg : env.message with
    | nil => simp [drawState, displayMessage, hmsg]
    | cons b bs => simp [drawState, displayMessage, hmsg, MState.screen]
  | time | radar | cfg => simp [drawState, MState.screen]

/-- What a redraw leaves on the panel, and the state it leads to. -/
theorem MainStep.redrawn {env : Env} {e : MEvent} {w w' : Watch} (hs : MainStep env e w w')
    (hon : w.displayOn = true) (hr : redraws w e = true) :
    w'.chip.screen = w'.mainState.screen ↔ ¬ (Input.event env e).drawsStale w := by
  cases hs with
  | tick ht =>
    rw [mainState_displayUpdate, screen_displayUpdate hon ht]
    by_cases hempty : w.mainState = .message ∧ env.message = []
    · -- nothing is drawn
      rw [if_pos hempty]
      simp [Input.drawsStale, hon, hempty.1, hempty.2, MState.screen]
    · rw [if_neg hempty]
      refine iff_of_true rfl ?_
      rintro ⟨-, ⟨-, he⟩ | ⟨-, he⟩ | ⟨hm, -, hmsg, -⟩⟩
      · cases he
      · cases he
      · exact hempty ⟨hm, hmsg⟩
  | nextKey hm =>
    have hcfg : (displayKeypress .next w).2.mainState = .cfg := by simpa using hm
    refine iff_of_true ?_ (by simp [Input.drawsStale, hm])
    rw [mainState_displayUpdate, screen_displayUpdate (by simpa using hon) (by rw [hcfg]; rfl)]
    exact if_neg (by simp [hm])
  | tilt hm =>
    refine iff_of_false ?_ (by simp [Input.drawsStale, hm, hon])
    show (displayUpdate env w).chip.screen ≠ some .radar
    rw [screen_displayUpdate hon (by rw [hm]; rfl), if_neg (by simp [hm]), hm]
    decide
  | untilt hm =>
    refine iff_of_false ?_ (by simp [Input.drawsStale, hm, hon])
    show (displayUpdate env w).chip.screen ≠ some .watch
    rw [screen_displayUpdate hon (by rw [hm]; rfl), if_neg (by simp [hm]), hm]
    decide
  | message hm => rcases hm with hm | hm <;> simp [redraws, hm] at hr
  | toTime hm he | toCfg hm he => rcases he with rfl | rfl <;> simp [redraws, hm] at hr
  | boot hm | acceptKey hm | confirm hm | dismiss hm | blank hm | inactive hm | inactiveRadar hm
  | push hm | wakeup hm | longInactive hm | hold hm | holdRadar hm | release hm
  | releaseRadar hm => simp [redraws, hm] at hr
  | ignored hi =>
    rw [redraws_of_ignores hi] at hr
    cases hr

/-! ## Over a run -/

/-- A level is seen exactly when a lit panel is redrawn. -/
theorem mem_stepReadings_iff {env : Env} {w : Watch} {e : MEvent} (hon : w.displayOn = true) :
    (∃ level, .sample level ∈ stepReadings env w e) ↔ redraws w e = true := by
  unfold stepReadings
  rw [if_pos hon]
  cases hr : redraws w e with
  | true => simp
  | false =>
    simp only [Bool.false_eq_true, if_false, iff_false]
    rintro ⟨level, hmem⟩
    split at hmem <;> simp at hmem

theorem redraws_of_drawsStale {env : Env} {w : Watch} {e : MEvent}
    (h : (Input.event env e).drawsStale w) : redraws w e = true := by
  obtain ⟨-, ⟨hm, rfl⟩ | ⟨hm, rfl⟩ | ⟨hm, rfl, -⟩⟩ := h <;> simp [redraws, hm, MState.ticks]

theorem redrawsRight_iff (w : Watch) (i : Input) : i.RedrawsRight w ↔ ¬ i.drawsStale w := by
  cases i with
  | advTimeout env => exact iff_of_true trivial not_false
  | report env r => exact iff_of_true trivial not_false
  | event env e =>
    have hstep := mainStep env e w
    have hseen : w.seenSince panelReading (handle w (.event env e)) = stepReadings env w e :=
      hstep.readings.seenSince
    simp only [Input.RedrawsRight, hseen]
    by_cases hon : w.displayOn = true
    · rw [mem_stepReadings_iff hon]
      constructor
      · intro h hstale
        have hr := redraws_of_drawsStale hstale
        exact (hstep.redrawn hon hr).mp (h hon hr) hstale
      · intro h _ hr
        exact (hstep.redrawn hon hr).mpr h
    · exact iff_of_true (fun h => absurd h hon) fun h => hon h.1

/-- A configured watch is woken up and tilted. -/
def sampleTilt : List Input :=
  [.bootDone, .nextPush, .nextPush, .tilt60].map (.event (nominalEnv 0))

end Muchiwachi
