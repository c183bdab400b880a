import Muchiwachi.ConfigGate
import Muchiwachi.Lib.Signal

/-!
# Power of the panel

`powerChange` is what each main event does to the power of the panel; `__display_on` and the pin
that switches the 5 V supply change together.
-/

namespace Muchiwachi

open Lib MainFsm

/-- `__display_on`, and the level of the pin that powers the panel. -/
def Watch.panelPower (w : Watch) : Bool × Bool := (w.displayOn, w.chip.pins .display5vOn)

/-! ## Frame -/

section

variable (env : Env) (w : Watch)

@[simp] theorem panelPower_displayOff : (displayOff w).panelPower = (false, false) := rfl

@[simp] theorem panelPower_displayPowerOn : (displayPowerOn w).panelPower = (true, true) := rfl

@[simp] theorem panelPower_displayUpdate : (displayUpdate env w).panelPower = w.panelPower := by
  unfold displayUpdate
  simp only
  split
  · rfl
  · rcases drawState_cases env _ with h | ⟨screen, h⟩ <;> rw [h] <;> rfl

@[simp] theorem panelPower_startAdverts (flags : UInt8) :
    (grprStartAdverts env flags w).panelPower = w.panelPower := rfl

@[simp] theorem panelPower_startIfConfigured :
    (startIfConfigured env w).panelPower = w.panelPower := by
  obtain ⟨_, _, _, _, h⟩ := startIfConfigured_eq env w; rw [h]; rfl

@[simp] theorem panelPower_saveConfig : (saveConfig env w).panelPower = w.panelPower := by
  obtain ⟨_, _, h⟩ := saveConfig_eq env w; rw [h]; rfl

@[simp] theorem panelPower_keypress (key : Key) :
    (displayKeypress key w).2.panelPower = w.panelPower := by cases key <;> rfl

@[simp] theorem panelPower_groupfsm :
    (groupfsmProcessEvent env .groupingStart w).panelPower = w.panelPower ∧
      (groupfsmProcessEvent env .groupingStop w).panelPower = w.panelPower :=
  groupfsm_keeps env w (·.panelPower) fun _ _ _ _ => rfl

@[simp] theorem panelPower_scan (mode : ScanMode) :
    (w.call (.scan mode)).panelPower = w.panelPower := rfl

@[simp] theorem panelPower_inState (s : MState) : (w.inState s).panelPower = w.panelPower := rfl

end

theorem OnlyStore.panelPower {w w' : Watch} (h : OnlyStore w w') :
    w'.panelPower = w.panelPower := congrArg (·.panelPower) h

/-! ## What switches the panel -/

/-- What a main event switches the panel to, if anything. -/
def powerChange (env : Env) (w : Watch) (e : MEvent) : Option Bool :=
  match w.mainState, e with
  | .boot, .bootDone => some false
  | .idle, .nextPush | .idle, .acceptPush =>
    if configSeen env w.chip.nvram = 0 then some true else none
  | .time, .acceptPush | .time, .shortInactive | .radar, .shortInactive => some false
  | .time, .nextPush | .time, .bothHold => some true
  | .time, .wakeup => if w.ignoreWake then none else some true
  | _, _ => none

theorem powerChange_of_ignores {env : Env} {w : Watch} {e : MEvent} (h : ignores w e = true) :
    powerChange env w e = none := by
  unfold powerChange
  split <;> simp_all [ignores]

/-- The power of the panel after a main event. -/
theorem MainStep.panelPower {env : Env} {e : MEvent} {w w' : Watch} (hs : MainStep env e w w') :
    w'.panelPower = (powerChange env w e).elim w.panelPower fun on => (on, on) := by
  cases hs with
  | toTime hi he hv =>
    rw [readConfigValid_fst] at hv
    rcases he with rfl | rfl <;> simp [powerChange, hi, hv] <;> rfl
  | toCfg hi he hv =>
    rw [readConfigValid_fst] at hv
    rcases he with rfl | rfl <;> simp [powerChange, hi, hv]
  | message hm => rcases hm with hm | hm <;> simp [powerChange, hm]
  | tick => simp [powerChange]
  | wakeup ht hi => simp [powerChange, ht, hi]
  | boot h | nextKey h | acceptKey h | confirm h | dismiss h | tilt h | untilt h | blank h
  | inactive h | inactiveRadar h | push h | hold h | holdRadar h | release h | releaseRadar h =>
    simp [powerChange, h]
  | longInactive h =>
    simp [powerChange, h]
    rfl
  | ignored hi => rw [powerChange_of_ignores hi, Option.elim_none]

theorem panelPower_handle (w : Watch) (i : Input) :
    (handle w i).panelPower = match i with
      | .event env e => (powerChange env w e).elim w.panelPower fun on => (on, on)
      | _ => w.panelPower := by
  cases i with
  | event env e => exact (mainStep env e w).panelPower
  | advTimeout env => rfl
  | report env r => exact (onlyStore_report env r w).panelPower

/-- `__display_on` says whether the panel is powered. -/
def Watch.KnowsPower (w : Watch) : Prop := w.displayOn = w.chip.pins .display5vOn

theorem knowsPower_handle {w : Watch} (h : w.KnowsPower) (i : Input) : (handle w i).KnowsPower := by
  have hpower := panelPower_handle w i
  have hkeep : (handle w i).panelPower = w.panelPower → (handle w i).KnowsPower := by
    intro hsame
    have hon := congrArg Prod.fst hsame
    have hpin := congrArg Prod.snd hsame
    exact hon.trans (h.trans hpin.symm)
  cases i with
  | advTimeout env => exact hkeep hpower
  | report env r => exact hkeep hpower
  | event env e =>
    cases hchange : powerChange env w e with
    | none => exact hkeep (by simpa [hchange] using hpower)
    | some on =>
      simp only [hchange, Option.elim_some] at hpower
      have hon := congrArg Prod.fst hpower
      have hpin := congrArg Prod.snd hpower
      exact hon.trans hpin.symm

theorem panelPower_created (boot : Env) (nv : Nvram) :
    (created boot nv).panelPower = (false, false) := by
  rw [created_eq]
  simp

/-! ## What is seen of the panel -/

/-- The levels EXTCOMIN is driven to, cut where the panel loses its power. -/
def panelReading (_ : Chip) : Call → List (Reading Bool)
  | .setPin .displayExtcomin level => [.sample level]
  | .setPin .display5vOn false => [.cut]
  | _ => []

/-- No pin is driven. -/
def Call.leavesPins : Call → Bool
  | .setPin _ _ => false
  | _ => true

/-- Going from `w` to `w'` no pin is driven. -/
abbrev LeavesPins (w w' : Watch) : Prop := Issues (fun k => k.leavesPins = true) w w'

theorem Call.leavesPins_of_kind {k : Call} (h : k.kind ≠ .panel) : k.leavesPins = true := by
  cases k with
  | setPin => exact absurd rfl h
  | _ => rfl

theorem LeavesPins.call {k : Call} (h : k.leavesPins = true) (w : Watch) :
    LeavesPins w (w.call k) := Issues.call h w

theorem LeavesPins.emits {w w' : Watch} (h : LeavesPins w w') : Emits panelReading [] w w' := by
  refine Issues.emits h fun c k hk => ?_
  cases k with
  | setPin => cases hk
  | _ => rfl

section

variable (env : Env) (w : Watch)

theorem leavesPins_startAdverts (flags : UInt8) : LeavesPins w (grprStartAdverts env flags w) :=
  (issues_startAdverts env w flags).mono fun _ h => Call.leavesPins_of_kind (by simp [h])

theorem leavesPins_readConfigValid : LeavesPins w (readConfigValid env w).2 :=
  (issues_readConfigValid env w).mono fun _ h => Call.leavesPins_of_kind (by simp [h])

theorem leavesPins_startIfConfigured : LeavesPins w (startIfConfigured env w) :=
  (issues_startIfConfigured env w).mono fun _ h =>
    Call.leavesPins_of_kind (by rcases h with h | h <;> simp [h])

theorem leavesPins_groupfsm {type : GEvent} (h : type ≠ .groupingAdv) :
    LeavesPins w (groupfsmProcessEvent env type w) :=
  (issues_groupfsm env w h).mono fun _ h => Call.leavesPins_of_kind (by simp [h])

theorem panel_displayOff : Emits panelReading [.cut] w (displayOff w) :=
  (Emits.call (.setPin .display5vOn false) w).then_ram rfl rfl

theorem panel_displayPowerOn : Emits panelReading [] w (displayPowerOn w) :=
  (Emits.call (.setPin .display5vOn true) w).then_ram rfl rfl

/-- `display_update` drives EXTCOMIN if the display is on. -/
theorem panel_displayUpdate :
    Emits panelReading (if w.displayOn then [.sample !w.extcomin] else []) w
      (displayUpdate env w) := by
  have htoggle : Emits panelReading [] w { w with extcomin := !w.extcomin } := .ram rfl rfl
  unfold displayUpdate
  cases hon : w.displayOn with
  | false => simpa [hon] using htoggle
  | true =>
    simp only [Bool.not_true, Bool.false_eq_true, if_false, if_true]
    refine (htoggle.nil_trans (Emits.call (.setPin .displayExtcomin (!w.extcomin)) _)).then_nil ?_
    rcases drawState_cases env _ with h | ⟨screen, h⟩ <;> rw [h]
    · exact .ram rfl rfl
    · exact Emits.call (.draw screen) _

end

/-! ## Redraws -/

/-- The event runs `display_update`. -/
def redraws (w : Watch) (e : MEvent) : Bool :=
  match w.mainState, e with
  | .cfg, .nextPush | .time, .tilt60 | .radar, .untilt60 => true
  | s, .tick1s => s.ticks
  | _, _ => false

theorem redraws_tick (w : Watch) : redraws w .tick1s = w.mainState.ticks := by
  unfold redraws
  cases w.mainState <;> rfl

theorem redraws_of_ignores {w : Watch} {e : MEvent} (h : ignores w e = true) :
    redraws w e = false := by
  unfold redraws
  split
  · simp_all [ignores]
  · simp_all [ignores]
  · simp_all [ignores]
  · cases hm : w.mainState <;> simp_all [ignores, MState.ticks]
  · rfl

/-- An event that redraws leaves the power alone. -/
theorem powerChange_of_redraws {env : Env} {w : Watch} {e : MEvent} (h : redraws w e = true) :
    powerChange env w e = none := by
  unfold powerChange
  split <;> simp_all [redraws]

/-- What is seen of the panel while a main event is handled. -/
def stepReadings (env : Env) (w : Watch) (e : MEvent) : List (Reading Bool) :=
  if redraws w e then (if w.displayOn then [.sample !w.extcomin] else [])
  else if powerChange env w e = some false then [.cut] else []

theorem stepReadings_noPanel {env : Env} {w : Watch} {e : MEvent} (h : .panel ∉ stepKinds w e) :
    stepReadings env w e = [] := by
  have hredraws : redraws w e = false := by
    unfold redraws
    split <;> simp_all [stepKinds]
  have hpower : powerChange env w e ≠ some false := by
    unfold powerChange
    split <;> simp_all [stepKinds]
  simp [stepReadings, hredraws, hpower]

theorem MainStep.readings {env : Env} {e : MEvent} {w w' : Watch} (hs : MainStep env e w w') :
    Emits panelReading (stepReadings env w e) w w' := by
  have hredraw : redraws w e = true →
      stepReadings env w e = if w.displayOn then [.sample !w.extcomin] else [] := fun h => if_pos h
  have hoff : redraws w e = false → powerChange env w e = some false →
      stepReadings env w e = [.cut] := by
    intro hr hp
    simp [stepReadings, hr, hp]
  have hquiet : redraws w e = false → powerChange env w e ≠ some false →
      stepReadings env w e = [] := by
    intro hr hp
    simp [stepReadings, hr, hp]
  have hissues := hs.issues
  by_cases hpanel : .panel ∈ stepKinds w e
  · cases hs with
    | tick ht =>
      rw [hredraw (by rw [redraws_tick, ht])]
      exact panel_displayUpdate env w
    | nextKey hm =>
      rw [hredraw (by simp [redraws, hm])]
      have hkey : Emits panelReading [] w (displayKeypress .next w).2 := .ram rfl rfl
      exact hkey.nil_trans (panel_displayUpdate env (displayKeypress .next w).2)
    | tilt hm =>
      rw [hredraw (by simp [redraws, hm])]
      exact ((panel_displayUpdate env w).then_nil (Emits.call (.scan .lowScan) _)).then_ram rfl rfl
    | untilt hm =>
      rw [hredraw (by simp [redraws, hm])]
      exact ((panel_displayUpdate env w).then_nil (Emits.call (.scan .noScan) _)).then_ram rfl rfl
    | boot hm =>
      rw [hoff (by simp [redraws, hm]) (by simp [powerChange, hm])]
      exact ((leavesPins_startIfConfigured env w).emits.nil_trans (panel_displayOff _)).then_ram
        rfl rfl
    | blank hm =>
      rw [hoff (by simp [redraws, hm]) (by simp [powerChange, hm])]
      exact (panel_displayOff w).then_ram rfl rfl
    | inactive hm =>
      rw [hoff (by simp [redraws, hm]) (by simp [powerChange, hm])]
      exact panel_displayOff w
    | inactiveRadar hm =>
      rw [hoff (by simp [redraws, hm]) (by simp [powerChange, hm])]
      exact ((panel_displayOff w).then_nil (Emits.call (.scan .noScan) _)).then_ram rfl rfl
    | toTime hm he hv =>
      rw [readConfigValid_fst] at hv
      have hchange : powerChange env w e ≠ some false := by
        rcases he with rfl | rfl <;> simp [powerChange, hm, hv]
      rw [hquiet (by rcases he with rfl | rfl <;> simp [redraws, hm]) hchange]
      exact (leavesPins_readConfigValid env w).emits.then_ram rfl rfl
    | toCfg hm he hv =>
      rw [readConfigValid_fst] at hv
      have hchange : powerChange env w e ≠ some false := by
        rcases he with rfl | rfl <;> simp [powerChange, hm, hv]
      rw [hquiet (by rcases he with rfl | rfl <;> simp [redraws, hm]) hchange]
      exact ((leavesPins_readConfigValid env w).emits.nil_trans (panel_displayPowerOn _)).then_ram
        rfl rfl
    | push hm =>
      rw [hquiet (by simp [redraws, hm]) (by simp [powerChange, hm])]
      exact ((panel_displayPowerOn w).then_ram rfl rfl).nil_trans
        (leavesPins_startAdverts env _ 0).emits
    | wakeup hm hi =>
      rw [hquiet (by simp [redraws, hm]) (by simp [powerChange, hm, hi])]
      exact (panel_displayPowerOn w).nil_trans (leavesPins_startAdverts env _ 0).emits
    | hold hm =>
      rw [hquiet (by simp [redraws, hm]) (by simp [powerChange, hm])]
      have hgroup : LeavesPins (displayPowerOn w)
          (groupfsmProcessEvent env .groupingStart (displayPowerOn w)) :=
        leavesPins_groupfsm env _ (by decide)
      exact (((panel_displayPowerOn w).nil_trans hgroup.emits).then_nil
        (Emits.call (.scan .lowScan) _)).then_ram rfl rfl
    | ignored hi =>
      rw [hquiet (redraws_of_ignores hi) (by simp [powerChange_of_ignores hi])]
      exact .ram rfl rfl
    | message hm => rcases hm with hm | hm <;> simp [stepKinds, hm] at hpanel
    | acceptKey hm | confirm hm | dismiss hm | longInactive hm | holdRadar hm | release hm
    | releaseRadar hm => simp [stepKinds, hm] at hpanel
  · rw [stepReadings_noPanel hpanel]
    have hpins : LeavesPins w w' :=
      hissues.mono fun k hk => Call.leavesPins_of_kind fun h => hpanel (h ▸ hk)
    exact hpins.emits

/-! ## The toggle -/

section

variable (env : Env) (w : Watch)

@[simp] theorem extcomin_displayUpdate : (displayUpdate env w).extcomin = !w.extcomin := by
  obtain ⟨_, _, _, h⟩ := displayUpdate_eq env w; rw [h]

@[simp] theorem extcomin_startIfConfigured :
    (startIfConfigured env w).extcomin = w.extcomin := by
  obtain ⟨_, _, _, _, h⟩ := startIfConfigured_eq env w; rw [h]

@[simp] theorem extcomin_saveConfig : (saveConfig env w).extcomin = w.extcomin := by
  obtain ⟨_, _, h⟩ := saveConfig_eq env w; rw [h]

@[simp] theorem extcomin_keypress (key : Key) :
    (displayKeypress key w).2.extcomin = w.extcomin := by cases key <;> rfl

@[simp] theorem extcomin_groupfsm :
    (groupfsmProcessEvent env .groupingStart w).extcomin = w.extcomin ∧
      (groupfsmProcessEvent env .groupingStop w).extcomin = w.extcomin :=
  groupfsm_keeps env w (·.extcomin) fun _ _ _ _ => rfl

end

theorem OnlyStore.extcomin {w w' : Watch} (h : OnlyStore w w') : w'.extcomin = w.extcomin :=
  congrArg (·.extcomin) h

/-- `display_update` toggles whether the display is on or not. -/
theorem MainStep.extcomin {env : Env} {e : MEvent} {w w' : Watch} (hs : MainStep env e w w') :
    w'.extcomin = if redraws w e then !w.extcomin else w.extcomin := by
  cases hs with
  | tick ht => simp [redraws_tick, ht]
  | nextKey hm | tilt hm | untilt hm => simp [redraws, hm, Watch.call]
  | toTime hm he | toCfg hm he => rcases he with rfl | rfl <;> simp [redraws, hm] <;> rfl
  | message hm => rcases hm with hm | hm <;> simp [redraws, hm]
  | acceptKey hm => simp [redraws, hm]
  | boot hm | confirm hm | dismiss hm | blank hm | inactive hm | inactiveRadar hm | push hm
  | wakeup hm | longInactive hm | hold hm | holdRadar hm | release hm | releaseRadar hm =>
    simp [redraws, hm, Watch.call, displayOff, displayPowerOn, grprStopAdverts, grprStartAdverts]
  | ignored hi => rw [redraws_of_ignores hi, if_neg Bool.false_ne_true]

/-! ## Ticks -/

/-- Past `BOOT`, a main event leads to a state that redraws on ticks or does nothing. -/
theorem MainStep.ticks {env : Env} {e : MEvent} {w w' : Watch} (hs : MainStep env e w w')
    (hb : w.mainState ≠ .boot) : w'.mainState.ticks = true ∨ w' = w := by
  cases hs with
  | boot hm => exact absurd hm hb
  | ignored => exact .inr rfl
  | tick ht => exact .inl (by simpa using ht)
  | toTime | toCfg | confirm | message | dismiss | tilt | untilt | inactiveRadar | hold
  | releaseRadar => exact .inl rfl
  | nextKey hm | acceptKey hm | blank hm | inactive hm | push hm | wakeup hm | longInactive hm
  | holdRadar hm | release hm =>
    exact .inl (by simp [hm, MState.ticks, displayOff, displayPowerOn, grprStopAdverts])

/-- The watch waits in `IDLE` with the display off, or redraws on ticks. -/
def Watch.TicksWhenLit (w : Watch) : Prop :=
  w.mainState = .idle ∧ w.displayOn = false ∨ w.mainState.ticks = true

theorem ticksWhenLit_handle {w : Watch} (h : w.TicksWhenLit) (i : Input) :
    (handle w i).TicksWhenLit := by
  cases i with
  | advTimeout env => exact h
  | report env r =>
    have hs := onlyStore_report env r w
    have hstate : (handle w (.report env r)).mainState = w.mainState := hs.mainState
    have hon : (handle w (.report env r)).displayOn = w.displayOn := hs.displayOn
    unfold Watch.TicksWhenLit
    rwa [hstate, hon]
  | event env e =>
    have hb : w.mainState ≠ .boot := by
      rcases h with ⟨hm, -⟩ | ht
      · simp [hm]
      · intro hm
        simp [hm, MState.ticks] at ht
    rcases (mainStep env e w).ticks hb with ht | hsame
    · exact .inr ht
    · show (mainfsmProcessEvent env e w).TicksWhenLit
      rwa [hsame]

/-! ## Polarity -/

/-- The levels seen since `c` alternate, and if the last thing seen is a level, the display is on
and the toggle stands at that level. -/
def Alternating (c w : Watch) : Prop :=
  ∃ rs, Emits panelReading rs c w ∧ Steady (fun a b => b = !a) rs ∧
    ∀ level, rs.getLast? = some (.sample level) → w.displayOn = true ∧ level = w.extcomin

/-- A step that drives no pin and leaves display power and toggle alone. -/
theorem Alternating.quiet {c w w' : Watch} (h : Alternating c w)
    (hs : Emits panelReading [] w w') (hon : w.displayOn = true → w'.displayOn = true)
    (htoggle : w.displayOn = true → w'.extcomin = w.extcomin) : Alternating c w' := by
  obtain ⟨rs, hrs, hsteady, hlast⟩ := h
  refine ⟨rs, hrs.then_nil hs, hsteady, fun level hl => ?_⟩
  obtain ⟨hw, rfl⟩ := hlast level hl
  exact ⟨hon hw, (htoggle hw).symm⟩

theorem Alternating.event {c w : Watch} (h : Alternating c w) (env : Env) (e : MEvent) :
    Alternating c (handle w (.event env e)) := by
  have hstep := mainStep env e w
  have hreadings := hstep.readings
  have htoggle := hstep.extcomin
  have hpower : (mainfsmProcessEvent env e w).displayOn = _ := congrArg Prod.fst hstep.panelPower
  show Alternating c (mainfsmProcessEvent env e w)
  generalize mainfsmProcessEvent env e w = w' at hreadings htoggle hpower ⊢
  unfold stepReadings at hreadings
  cases hr : redraws w e with
  | true =>
    have hchange : powerChange env w e = none := powerChange_of_redraws hr
    rw [hr, if_pos rfl] at hreadings htoggle
    rw [hchange] at hpower
    cases hon : w.displayOn with
    | true =>
      -- the new level is the opposite of the last one
      obtain ⟨rs, hrs, hsteady, hlast⟩ := h
      rw [hon, if_pos rfl] at hreadings
      refine ⟨rs ++ [.sample !w.extcomin], hrs.trans hreadings, hsteady.sample ?_, ?_⟩
      · rintro a ha
        rw [(hlast a ha).2]
      · intro level hlevel
        rw [List.getLast?_concat] at hlevel
        cases hlevel
        exact ⟨hpower.trans hon, htoggle.symm⟩
    | false =>
      rw [hon, if_neg Bool.false_ne_true] at hreadings
      exact h.quiet hreadings (by simp [hon]) (by simp [hon])
  | false =>
    rw [hr, if_neg Bool.false_ne_true] at hreadings htoggle
    split at hreadings
    · obtain ⟨rs, hrs, hsteady, -⟩ := h
      exact ⟨rs ++ [.cut], hrs.trans hreadings, hsteady.cut, by simp⟩
    · next hchange =>
      refine h.quiet hreadings (fun hon => ?_) fun _ => htoggle
      rw [hpower]
      cases hc : powerChange env w e with
      | none => exact hon
      | some on =>
        cases on with
        | true => rfl
        | false => exact absurd hc hchange

theorem alternating_handle {c w : Watch} (h : Alternating c w) (i : Input) :
    Alternating c (handle w i) := by
  cases i with
  | advTimeout env => exact h.quiet (leavesPins_startAdverts env w 0).emits id fun _ => rfl
  | report env r =>
    have hs := onlyStore_report env r w
    have hpins : LeavesPins w (handle w (.report env r)) :=
      issues_report (P := fun k => k.leavesPins = true) rfl (fun _ _ _ => rfl) env r w
    exact h.quiet hpins.emits (fun hon => hs.displayOn.trans hon) fun _ => hs.extcomin
  | event env e => exact h.event env e

/-- **The panel keeps its polarity turning.** After `muchi_create`, `__display_on` says whether
the panel is powered, every tick handled while it is drives EXTCOMIN, and as long as it is, each
drive sets the level opposite to that of the drive before. -/
theorem polarity_alternates (boot : Env) (nv : Nvram) (is : List Input) :
    Always handle Watch.KnowsPower (created boot nv) is ∧
      EachStep handle (fun w i => ∀ env, i = .event env .tick1s → w.displayOn = true →
        ∃ level, .sample level ∈ w.seenSince panelReading (handle w i)) (created boot nv) is ∧
      Steady (fun a b => b = !a)
        ((created boot nv).seenSince panelReading (run handle (created boot nv) is)) := by
  have hpower := panelPower_created boot nv
  have hoff : (created boot nv).displayOn = false := congrArg Prod.fst hpower
  refine ⟨?_, ?_, ?_⟩
  · exact always_of_step (P := Watch.KnowsPower) (fun _ i h => knowsPower_handle h i)
      (hoff.trans (congrArg Prod.snd hpower).symm) is
  · have hlit : Always handle Watch.TicksWhenLit (created boot nv) is :=
      always_of_step (P := Watch.TicksWhenLit) (fun _ i h => ticksWhenLit_handle h i)
        (.inl ⟨mainState_created boot nv, hoff⟩) is
    refine hlit.eachStep fun w i hw => ?_
    rintro env rfl hon
    have hticks : w.mainState.ticks = true := by
      rcases hw with ⟨-, hdark⟩ | ht
      · rw [hon] at hdark
        cases hdark
      · exact ht
    have hreadings := (mainStep env .tick1s w).readings.seenSince
    refine ⟨!w.extcomin, ?_⟩
    show _ ∈ w.seenSince panelReading (mainfsmProcessEvent env .tick1s w)
    rw [hreadings, stepReadings, redraws_tick, hticks, hon]
    exact List.mem_singleton_self _
  · have hstart : Alternating (created boot nv) (created boot nv) :=
      ⟨[], .ram rfl rfl, steady_nil _, by simp⟩
    have hruns : Always handle (Alternating (created boot nv)) (created boot nv) is :=
      always_of_step (P := Alternating (created boot nv)) (fun _ i h => alternating_handle h i)
        hstart is
    obtain ⟨rs, hrs, hsteady, -⟩ := hruns.final
    rw [hrs.seenSince]
    exact hsteady

/-- The first push lights the configuration, which two ticks redraw. -/
def sampleLit : List Input := [.nextPush, .tick1s, .tick1s].map (.event (nominalEnv 0))

theorem polarity_alternates_sample :
    let w := created (nominalEnv 0) fun _ => []
    w.seenSince panelReading (run handle w sampleLit) = [.sample true, .sample false] ∧
      Steady (fun a b => b = !a) (w.seenSince panelReading (run handle w sampleLit)) := by
  intro w
  exact ⟨by decide +kernel, (polarity_alternates (nominalEnv 0) (fun _ => []) sampleLit).2.2⟩

end Muchiwachi
