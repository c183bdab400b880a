import Muchiwachi.Reports
import Muchiwachi.StoreSpec

/-!
# What group events and reports do

Each group event as one equation, and the effect of a report on the address list: an accepted
invitation is pushed to it, any other report leaves it alone.
-/

namespace Muchiwachi

open Lib

/-! ## Group events -/

section

variable {env : Env} {w : Watch}

theorem GroupFsm.setCur_self {s : GState} (h : w.groupState = s) :
    { w with groupState := s } = w := by
  rw [← h]

theorem groupfsm_start (h : w.groupState = .idle) :
    groupfsmProcessEvent env .groupingStart w =
      { grprStartAdverts env flagGrouping w with groupState := .grouping } :=
  GroupFsm.table.processEvent_eq h rfl h

theorem groupfsm_stop (h : w.groupState = .grouping) :
    groupfsmProcessEvent env .groupingStop w =
      { grprStartAdverts env 0 w with groupState := .idle } :=
  GroupFsm.table.processEvent_eq h rfl h

/-- `GROUPING_START` is ignored in `GROUPING`. -/
theorem groupfsm_start_grouping (h : w.groupState = .grouping) :
    groupfsmProcessEvent env .groupingStart w = w :=
  GroupFsm.table.processEvent_ignored h rfl rfl (GroupFsm.setCur_self h)

/-- `GROUPING_STOP` is ignored in `IDLE`. -/
theorem groupfsm_stop_idle (h : w.groupState = .idle) :
    groupfsmProcessEvent env .groupingStop w = w :=
  GroupFsm.table.processEvent_ignored h rfl rfl (GroupFsm.setCur_self h)

theorem groupfsm_adv_idle (h : w.groupState = .idle) (r : AdvReport) :
    groupfsmProcessEventWithData env .groupingAdv (some r) w = w :=
  GroupFsm.table.processEvent_ignored h rfl rfl (GroupFsm.setCur_self h)

/-- `GROUPING_ADV` in `GROUPING`: the sender is added if it is near. -/
theorem groupfsm_adv_grouping (h : w.groupState = .grouping) (r : AdvReport) :
    groupfsmProcessEventWithData env .groupingAdv (some r) w =
      if r.rssi > GroupFsm.grouperMinRssiInvitation then (grprStoreAdd env (some r.wdAddr) w).2
      else w := by
  have hadd := (onlyStore_add env (some r.wdAddr) w).groupState.trans h
  by_cases hr : r.rssi > GroupFsm.grouperMinRssiInvitation
  · have hstate : GroupFsm.table.stateTable .grouping ⟨env, .groupingAdv, some r⟩ w =
        (.grouping, (grprStoreAdd env (some r.wdAddr) w).2) := if_pos hr
    rw [if_pos hr]
    exact (GroupFsm.table.processEvent_eq h hstate hadd).trans (GroupFsm.setCur_self hadd)
  · rw [if_neg hr]
    exact GroupFsm.table.processEvent_ignored h (if_neg hr) rfl (GroupFsm.setCur_self h)

/-- Group events change the group state, the advertiser and the trace. -/
theorem groupfsm_eq (env : Env) (w : Watch) (type : GEvent) (h : type ≠ .groupingAdv) :
    ∃ groupState advData discoverable calls,
      groupfsmProcessEvent env type w = { w with
        groupState := groupState
        chip := { w.chip with advData := advData, discoverable := discoverable }
        calls := calls } := by
  cases hg : w.groupState <;> cases type
  · exact ⟨_, _, _, _, groupfsm_start hg⟩
  · exact ⟨_, _, _, _, groupfsm_stop_idle hg⟩
  · exact absurd rfl h
  · exact ⟨_, _, _, _, groupfsm_start_grouping hg⟩
  · exact ⟨_, _, _, _, groupfsm_stop hg⟩
  · exact absurd rfl h

/-- What does not look at these is kept by starting and by stopping. -/
theorem groupfsm_keeps {α : Type} (env : Env) (w : Watch) (f : Watch → α)
    (hf : ∀ groupState advData discoverable calls, f { w with
      groupState := groupState
      chip := { w.chip with advData := advData, discoverable := discoverable }
      calls := calls } = f w) :
    f (groupfsmProcessEvent env .groupingStart w) = f w ∧
      f (groupfsmProcessEvent env .groupingStop w) = f w := by
  obtain ⟨_, _, _, _, hstart⟩ := groupfsm_eq env w .groupingStart (by decide)
  obtain ⟨_, _, _, _, hstop⟩ := groupfsm_eq env w .groupingStop (by decide)
  rw [hstart, hstop]
  exact ⟨hf .., hf ..⟩

section

variable (env : Env) (w : Watch)

@[simp] theorem mainState_groupfsm :
    (groupfsmProcessEvent env .groupingStart w).mainState = w.mainState ∧
      (groupfsmProcessEvent env .groupingStop w).mainState = w.mainState :=
  groupfsm_keeps env w (·.mainState) fun _ _ _ _ => rfl
@[simp] theorem displayOn_groupfsm :
    (groupfsmProcessEvent env .groupingStart w).displayOn = w.displayOn ∧
      (groupfsmProcessEvent env .groupingStop w).displayOn = w.displayOn :=
  groupfsm_keeps env w (·.displayOn) fun _ _ _ _ => rfl
@[simp] theorem gAvatar_groupfsm :
    (groupfsmProcessEvent env .groupingStart w).gAvatar = w.gAvatar ∧
      (groupfsmProcessEvent env .groupingStop w).gAvatar = w.gAvatar :=
  groupfsm_keeps env w (·.gAvatar) fun _ _ _ _ => rfl
@[simp] theorem store_groupfsm :
    (groupfsmProcessEvent env .groupingStart w).store = w.store ∧
      (groupfsmProcessEvent env .groupingStop w).store = w.store :=
  groupfsm_keeps env w (·.store) fun _ _ _ _ => rfl
@[simp] theorem nvram_groupfsm :
    (groupfsmProcessEvent env .groupingStart w).chip.nvram = w.chip.nvram ∧
      (groupfsmProcessEvent env .groupingStop w).chip.nvram = w.chip.nvram :=
  groupfsm_keeps env w (·.chip.nvram) fun _ _ _ _ => rfl
@[simp] theorem scanMode_groupfsm :
    (groupfsmProcessEvent env .groupingStart w).chip.scanMode = w.chip.scanMode ∧
      (groupfsmProcessEvent env .groupingStop w).chip.scanMode = w.chip.scanMode :=
  groupfsm_keeps env w (·.chip.scanMode) fun _ _ _ _ => rfl

@[simp] theorem groupState_groupfsm_start :
    (groupfsmProcessEvent env .groupingStart w).groupState = .grouping := by
  cases hg : w.groupState with
  | idle => rw [groupfsm_start hg]
  | grouping => rw [groupfsm_start_grouping hg, hg]

@[simp] theorem groupState_groupfsm_stop :
    (groupfsmProcessEvent env .groupingStop w).groupState = .idle := by
  cases hg : w.groupState with
  | idle => rw [groupfsm_stop_idle hg, hg]
  | grouping => rw [groupfsm_stop hg]

end

end

/-! ## Reports -/

/-- The report is an invitation the watch accepts: the service field it carries has
`FLAG_GROUPING`, its sender is near, and the group state machine is in `GROUPING`. -/
def acceptedInvitation (env : Env) (r : AdvReport) (w : Watch) : Bool :=
  match serviceField env.serviceUuid r with
  | some off => r.byte (off + 2 + stateOffset) &&& flagGrouping ≠ 0 ∧ r.rssi > -50 ∧
      w.groupState = .grouping
  | none => false

theorem acceptedInvitation_iff {env : Env} {r : AdvReport} {w : Watch} :
    acceptedInvitation env r w = true ↔
      (∃ off, Reaches env.serviceUuid r off ∧ isServiceField env.serviceUuid r off = true ∧
        r.byte (off + 2 + stateOffset) &&& flagGrouping ≠ 0) ∧
      r.rssi > -50 ∧ w.groupState = .grouping := by
  constructor
  · intro h
    unfold acceptedInvitation at h
    split at h
    · next off hoff =>
      obtain ⟨hreach, hf⟩ := serviceField_eq_some_iff.mp hoff
      obtain ⟨hflag, hr, hg⟩ := of_decide_eq_true h
      exact ⟨⟨off, hreach, hf, hflag⟩, hr, hg⟩
    · cases h
  · rintro ⟨⟨off, hreach, hf, hflag⟩, hr, hg⟩
    rw [acceptedInvitation, serviceField_eq_some_iff.mpr ⟨hreach, hf⟩]
    exact decide_eq_true ⟨hflag, hr, hg⟩

/-- The part of `processServiceField` that may add the sender. -/
def inviteSender (env : Env) (r : AdvReport) (off : Nat) (w : Watch) : Watch :=
  if r.byte (off + 2 + stateOffset) &&& flagGrouping ≠ 0 then
    groupfsmProcessEventWithData env .groupingAdv (some r) w else w

theorem inviteSender_eq {env : Env} {r : AdvReport} {off : Nat} {w : Watch}
    (hoff : serviceField env.serviceUuid r = some off) :
    inviteSender env r off w =
      if acceptedInvitation env r w then (grprStoreAdd env (some r.wdAddr) w).2 else w := by
  unfold inviteSender acceptedInvitation
  rw [hoff]
  cases hg : w.groupState with
  | idle => simp [groupfsm_adv_idle hg]
  | grouping =>
    rw [groupfsm_adv_grouping hg]
    by_cases hf : r.byte (off + 2 + stateOffset) &&& flagGrouping ≠ 0 <;>
      by_cases hr : r.rssi > -50 <;> simp [hf, hr, GroupFsm.grouperMinRssiInvitation]

/-- What a report does to the node of its sender, once that is known. -/
def updateSender (env : Env) (r : AdvReport) (off : Nat) (w : Watch) : Watch :=
  let idx := grprStoreGet (some r.wdAddr) w.store
  if idx ≥ 0 then
    let w := (grprStoreTimestamp env idx w).2
    let w := (grprStoreSetRssi idx r.rssi w).2
    (grprStoreSetAvatar idx (r.byte (off + 2 + avatarOffset)).toInt8 w).2
  else w

theorem processServiceField_eq (env : Env) (r : AdvReport) (off : Nat) (w : Watch) :
    processServiceField env r off w = updateSender env r off (inviteSender env r off w) := rfl

/-- The node of a known sender after a report. -/
def heardNode (env : Env) (r : AdvReport) (off : Nat) (w : Watch) : Node where
  addr := r.wdAddr
  timestamp := (clockSeconds env w).toUInt16
  rssi := r.rssi
  avatar := (r.byte (off + 2 + avatarOffset)).toInt8

theorem updateSender_known {env : Env} {r : AdvReport} {off : Nat} {w : Watch}
    (h : r.wdAddr ∈ w.store.addrs) :
    updateSender env r off w = (w.call .readRtc).setNode (w.store.addrs.idxOf r.wdAddr)
      fun _ => heardNode env r off w := by
  have hlook : grprStoreGet (some r.wdAddr) w.store = (w.store.addrs.idxOf r.wdAddr : Int) :=
    grprStoreLookup_of_mem h
  have hget := List.getElem?_idxOf h
  have hlt := List.idxOf_lt_length_of_mem h
  unfold updateSender
  simp only [hlook]
  rw [if_pos (by omega)]
  generalize w.store.addrs.idxOf r.wdAddr = k at hget hlt ⊢
  rw [Store.length_addrs] at hlt
  rw [Store.getElem?_addrs hlt, Option.some.injEq] at hget
  rw [grprStoreTimestamp_stored hlt, grprStoreSetRssi_stored (by exact hlt),
    grprStoreSetAvatar_stored (by exact hlt)]
  simp only [Watch.setNode, Function.update_idem, Function.update_self, heardNode, ← hget]
  rfl

theorem updateSender_unknown {env : Env} {r : AdvReport} {off : Nat} {w : Watch}
    (h : r.wdAddr ∉ w.store.addrs) : updateSender env r off w = w := by
  unfold updateSender
  rw [grprStoreGet, grprStoreLookup_of_not_mem h]
  rfl

theorem onlyStore_updateSender (env : Env) (r : AdvReport) (off : Nat) (w : Watch) :
    OnlyStore w (updateSender env r off w) := by
  unfold updateSender
  simp only
  split
  · exact (onlyStore_timestamp ..).trans ((onlyStore_setRssi ..).trans (onlyStore_setAvatar ..))
  · exact .refl w

theorem addrs_updateSender (env : Env) (r : AdvReport) (off : Nat) (w : Watch) :
    (updateSender env r off w).store.addrs = w.store.addrs := by
  unfold updateSender
  simp only
  split
  · rw [addrs_setAvatar, addrs_setRssi, addrs_timestamp]
  · rfl

/-- A report changes the store, the NVRAM and nothing else. -/
theorem onlyStore_report (env : Env) (r : AdvReport) (w : Watch) :
    OnlyStore w (grprProcessAdverts env r w) := by
  unfold grprProcessAdverts
  cases hoff : serviceField env.serviceUuid r with
  | none => exact .refl w
  | some off =>
    refine OnlyStore.trans ?_ (onlyStore_updateSender env r off (inviteSender env r off w))
    rw [inviteSender_eq hoff]
    split
    · exact onlyStore_add ..
    · exact .refl w

/-- The address list after a report. -/
theorem addrs_report (env : Env) (r : AdvReport) (w : Watch) :
    (grprProcessAdverts env r w).store.addrs =
      if acceptedInvitation env r w then (grprStoreAdd env (some r.wdAddr) w).2.store.addrs
      else w.store.addrs := by
  unfold grprProcessAdverts
  cases hoff : serviceField env.serviceUuid r with
  | none => simp [acceptedInvitation, hoff]
  | some off =>
    show (processServiceField env r off w).store.addrs = _
    rw [processServiceField_eq, addrs_updateSender, inviteSender_eq hoff]
    split <;> rfl

/-- Updating the sender reads the clock. -/
theorem issues_updateSender {P : Call → Prop} (hrtc : P .readRtc) (env : Env) (r : AdvReport)
    (off : Nat) (w : Watch) : Issues P w (updateSender env r off w) := by
  unfold updateSender
  simp only
  split
  · exact (issues_timestamp hrtc ..).trans ((issues_setRssi ..).trans (issues_setAvatar ..))
  · exact .ram rfl rfl

theorem writes_updateSender (env : Env) (r : AdvReport) (off : Nat) (w : Watch) :
    Writes [] w (updateSender env r off w) :=
  (issues_updateSender (P := fun k => k.kind = .clock) rfl env r off w).writes
    fun _ h => by simp [h]

/-- A report writes records of the store only. -/
theorem writes_report (env : Env) (r : AdvReport) (w : Watch) :
    ∃ ws, Writes ws w (grprProcessAdverts env r w) ∧ ∀ x ∈ ws, nvmStoreCount ≤ x.1 := by
  unfold grprProcessAdverts
  cases hoff : serviceField env.serviceUuid r with
  | none => exact ⟨[], .ram rfl rfl, by simp⟩
  | some off =>
    show ∃ ws, Writes ws w (processServiceField env r off w) ∧ _
    rw [processServiceField_eq, inviteSender_eq hoff]
    by_cases hacc : acceptedInvitation env r w = true
    · rw [if_pos hacc]
      refine ⟨_, writes_add.then_nil (writes_updateSender env r off _), ?_⟩
      split
      · exact fun x hx => nvmStoreCount_le_of_mem hx
      · simp
    · rw [if_neg hacc]
      exact ⟨[], writes_updateSender env r off w, by simp⟩

/-- A report reads the clock and writes NVRAM. -/
theorem issues_report {P : Call → Prop} (hrtc : P .readRtc)
    (hwrite : ∀ vsId payload ok, P (.writeNvram vsId payload ok)) (env : Env) (r : AdvReport)
    (w : Watch) : Issues P w (grprProcessAdverts env r w) := by
  unfold grprProcessAdverts
  cases hoff : serviceField env.serviceUuid r with
  | none => exact .ram rfl rfl
  | some off =>
    show Issues P w (processServiceField env r off w)
    rw [processServiceField_eq, inviteSender_eq hoff]
    refine Issues.trans ?_ (issues_updateSender hrtc env r off _)
    split
    · exact issues_add env _ w hrtc (fun _ _ _ _ => hwrite ..) (fun _ _ => hwrite ..)
    · exact .ram rfl rfl

end Muchiwachi
