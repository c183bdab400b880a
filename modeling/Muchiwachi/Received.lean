import Muchiwachi.Walk

/-!
# Received bytes

The walk over a report stays inside `data`, but not inside the bytes that were received: the end of
the data is tested only after a field has been looked at, and only where the next field starts.
`receivedOnly_exact` says when the outcome depends on the received bytes alone.
-/

namespace Muchiwachi

open Lib

/-- Two reports that differ behind the received bytes only. -/
structure SameReceived (r r' : AdvReport) : Prop where
  wdAddr : r'.wdAddr = r.wdAddr
  rssi : r'.rssi = r.rssi
  dataLen : r'.dataLen = r.dataLen
  byte : ∀ i, i < r.dataLen.toNat → r'.byte i = r.byte i

theorem SameReceived.symm {r r' : AdvReport} (h : SameReceived r r') : SameReceived r' r :=
  ⟨h.wdAddr.symm, h.rssi.symm, h.dataLen.symm, fun i hi => (h.byte i (h.dataLen ▸ hi)).symm⟩

/-- What the watch makes of a report depends on the received bytes alone. -/
def ReceivedOnly (env : Env) (w : Watch) (r : AdvReport) : Prop :=
  ∀ r', SameReceived r r' →
    (grprProcessAdverts env r' w).store = (grprProcessAdverts env r w).store ∧
      (grprProcessAdverts env r' w).groupState = (grprProcessAdverts env r w).groupState ∧
      (grprProcessAdverts env r' w).chip.nvram = (grprProcessAdverts env r w).chip.nvram

/-- The state byte of a field at `off` was received, and so was all that is before it. -/
def StateReceived (r : AdvReport) (off : Nat) : Prop := off + 2 + stateOffset < r.dataLen.toNat

instance (r : AdvReport) (off : Nat) : Decidable (StateReceived r off) :=
  inferInstanceAs (Decidable (_ < _))

/-- All of the field that `len` announces at `off` was received. -/
def Complete (r : AdvReport) (off : Nat) : Prop := off + serviceDataSize + 2 ≤ r.dataLen.toNat

/-- What was received at `off` is a service field or the start of one. -/
def MayBeField (uuid : Vector UInt8 16) (r : AdvReport) (off : Nat) : Prop :=
  ∀ j, j < 18 → off + j < r.dataLen.toNat → r.byte (off + j) = headerByte uuid j

/-- What was not received of a service field at `off` makes a difference to the store: its sender
is known, or can be invited. A sender that is invited by the received bytes makes none where
the count of nodes wraps around: it is lost again. -/
def CanAct (w : Watch) (r : AdvReport) (off : Nat) : Prop :=
  r.wdAddr ∈ w.store.addrs ∨
    w.groupState = .grouping ∧ r.rssi > -50 ∧ w.store.numNodes.toNat ≠ maxNodes ∧
      (StateReceived r off →
        r.byte (off + 2 + stateOffset) &&& flagGrouping ≠ 0 ∧ w.store.numNodes.toNat ≠ 255)

/-- The walk comes to a field that may be a service field and is cut off by the end of the
received bytes, of a sender it makes a difference for. -/
def ActsOnCutOff (uuid : Vector UInt8 16) (w : Watch) (r : AdvReport) : Prop :=
  ∃ off, Reaches uuid r off ∧ MayBeField uuid r off ∧ ¬ Complete r off ∧ CanAct w r off

section

variable {uuid : Vector UInt8 16} {r r' : AdvReport} {off : Nat}

/-- A field whose header was received is the same in both reports. -/
theorem isServiceField_congr (h : SameReceived r r') (hc : off + 18 ≤ r.dataLen.toNat) :
    isServiceField uuid r' off = isServiceField uuid r off := by
  rw [Bool.eq_iff_iff, isServiceField_iff, isServiceField_iff]
  constructor
  · intro hf j hj
    rw [← h.byte _ (by omega)]
    exact hf j hj
  · intro hf j hj
    rw [h.byte _ (by omega)]
    exact hf j hj

theorem mayBeField_of_isServiceField (h : isServiceField uuid r off = true) :
    MayBeField uuid r off := fun j hj _ => isServiceField_iff.mp h j hj

/-- The walk goes on from a field only where its `len` byte was received, so it comes to the
same offsets in both reports. -/
theorem Reaches.congr (h : SameReceived r r') (hr : Reaches uuid r off) : Reaches uuid r' off := by
  induction hr with
  | start => exact .start
  | @next off _ hf hlt ih =>
    have hlen : r'.byte off = r.byte off := h.byte off (by omega)
    have hf' : isServiceField uuid r' off = false := by
      by_contra hne
      rw [Bool.not_eq_false] at hne
      -- its length is that of a service field, so the whole of it was received
      have h27 : r.byte off = UInt8.ofNat (serviceDataSize + 1) := by
        rw [← hlen]
        exact isServiceField_iff.mp hne 0 (by decide)
      rw [h27] at hlt
      simp [serviceDataSize] at hlt
      rw [isServiceField_congr h (by omega), hf] at hne
      cases hne
    have hnext := ih.next hf' (by rw [hlen, h.dataLen]; exact hlt)
    rwa [hlen] at hnext

theorem MayBeField.congr (h : SameReceived r r') (hm : MayBeField uuid r off) :
    MayBeField uuid r' off := by
  intro j hj hlt
  rw [h.dataLen] at hlt
  rw [h.byte _ hlt]
  exact hm j hj hlt

theorem CanAct.congr {w : Watch} (h : SameReceived r r') (hc : CanAct w r off) :
    CanAct w r' off := by
  unfold CanAct StateReceived
  rw [h.wdAddr, h.rssi, h.dataLen]
  rcases hc with hknown | ⟨hg, hr, hn, hstate⟩
  · exact .inl hknown
  · refine .inr ⟨hg, hr, hn, fun hlt => ?_⟩
    rw [h.byte _ hlt]
    exact hstate hlt

theorem ActsOnCutOff.congr {w : Watch} (h : SameReceived r r') (hc : ActsOnCutOff uuid w r) :
    ActsOnCutOff uuid w r' := by
  obtain ⟨off, hreach, hmay, hcut, hact⟩ := hc
  refine ⟨off, hreach.congr h, hmay.congr h, ?_, hact.congr h⟩
  rwa [Complete, h.dataLen]

/-- A service field whose state was received is the one the walk comes to in both reports. -/
theorem serviceField_congr (h : SameReceived r r') (hoff : serviceField uuid r = some off)
    (hstate : StateReceived r off) : serviceField uuid r' = some off := by
  obtain ⟨hreach, hf⟩ := serviceField_eq_some_iff.mp hoff
  unfold StateReceived stateOffset at hstate
  exact serviceField_eq_some_iff.mpr
    ⟨hreach.congr h, (isServiceField_congr h (by omega)).trans hf⟩

end

/-! ## Acting on received bytes only -/

section

variable {env : Env} {w : Watch} {r r' : AdvReport} {off : Nat}

/-- A sender is known after its invitation if it was before, or the invitation was accepted by a
store with room. -/
theorem mem_addrs_inviteSender (hoff : serviceField env.serviceUuid r = some off) :
    r.wdAddr ∈ (inviteSender env r off w).store.addrs ↔ r.wdAddr ∈ w.store.addrs ∨
      acceptedInvitation env r w = true ∧ w.store.numNodes.toNat ≠ maxNodes ∧
        w.store.numNodes.toNat ≠ 255 := by
  rw [inviteSender_eq hoff]
  by_cases hknown : r.wdAddr ∈ w.store.addrs
  · refine iff_of_true ?_ (.inl hknown)
    split
    · by_cases hfull : w.store.numNodes.toNat = maxNodes
      · rwa [grprStoreAdd_full hfull]
      · rwa [grprStoreAdd_known hfull hknown, addrs_readd hknown]
    · exact hknown
  · split
    · next hacc =>
      by_cases hfull : w.store.numNodes.toNat = maxNodes
      · rw [grprStoreAdd_full hfull]
        simp [hknown, hfull]
      · rw [mem_addrs_add_new hfull hknown]
        simp [hknown, hfull, hacc]
    · next hacc => simp [hknown, hacc]

/-- A service field is acted on in the same way in both reports, if what is used of it was
received. -/
theorem report_congr (h : SameReceived r r') (hoff : serviceField env.serviceUuid r = some off)
    (hstate : StateReceived r off)
    (hused : Complete r off ∨ r.wdAddr ∉ (inviteSender env r off w).store.addrs) :
    grprProcessAdverts env r' w = grprProcessAdverts env r w := by
  have hoff' := serviceField_congr h hoff hstate
  have hbyte : r'.byte (off + 2 + stateOffset) = r.byte (off + 2 + stateOffset) := h.byte _ hstate
  have hinvite : inviteSender env r' off w = inviteSender env r off w := by
    simp only [inviteSender_eq hoff, inviteSender_eq hoff', acceptedInvitation, hoff, hoff', hbyte,
      h.wdAddr, h.rssi]
  simp only [grprProcessAdverts, hoff, hoff', processServiceField_eq, hinvite]
  rcases hused with hc | hunknown
  · have havatar : r'.byte (off + 2 + avatarOffset) = r.byte (off + 2 + avatarOffset) :=
      h.byte _ (by unfold Complete serviceDataSize at hc; unfold avatarOffset; omega)
    simp only [updateSender, havatar, h.wdAddr, h.rssi]
  · rw [updateSender_unknown hunknown, updateSender_unknown (h.wdAddr ▸ hunknown)]

/-- Where no service field comes with its state and none is cut off that matters, nothing
happens. -/
theorem report_quiet (h : ¬ ActsOnCutOff env.serviceUuid w r)
    (hc : ∀ off, serviceField env.serviceUuid r = some off → ¬ StateReceived r off) :
    grprProcessAdverts env r w = w := by
  cases hoff : serviceField env.serviceUuid r with
  | none => simp only [grprProcessAdverts, hoff]
  | some off =>
    obtain ⟨hreach, hf⟩ := serviceField_eq_some_iff.mp hoff
    have hcut : ¬ Complete r off := by
      have hstate := hc off hoff
      unfold StateReceived stateOffset at hstate
      unfold Complete serviceDataSize
      omega
    have hact : ¬ CanAct w r off := fun hact =>
      h ⟨off, hreach, mayBeField_of_isServiceField hf, hcut, hact⟩
    obtain ⟨hunknown, hinvite⟩ := not_or.mp hact
    have hsame : inviteSender env r off w = w := by
      rw [inviteSender_eq hoff]
      split
      · next hacc =>
        obtain ⟨-, hr, hg⟩ := acceptedInvitation_iff.mp hacc
        have hfull : w.store.numNodes.toNat = maxNodes := by
          by_contra hn
          exact hinvite ⟨hg, hr, hn, fun hstate => absurd hstate (hc off hoff)⟩
        rw [grprStoreAdd_full hfull]
      · rfl
    simp only [grprProcessAdverts, hoff, processServiceField_eq, hsame]
    exact updateSender_unknown hunknown

/-- A service field that comes with its state and is cut off where it does not matter has a
sender that is not known in the end. -/
theorem unknown_of_not_actsOnCutOff (h : ¬ ActsOnCutOff env.serviceUuid w r)
    (hoff : serviceField env.serviceUuid r = some off) (hcut : ¬ Complete r off) :
    r.wdAddr ∉ (inviteSender env r off w).store.addrs := by
  obtain ⟨hreach, hf⟩ := serviceField_eq_some_iff.mp hoff
  have hact : ¬ CanAct w r off := fun hact =>
    h ⟨off, hreach, mayBeField_of_isServiceField hf, hcut, hact⟩
  rw [mem_addrs_inviteSender hoff]
  rintro (hknown | ⟨hacc, hn, hwrap⟩)
  · exact hact (.inl hknown)
  · rw [acceptedInvitation, hoff] at hacc
    obtain ⟨hflag, hr, hg⟩ := of_decide_eq_true hacc
    exact hact (.inr ⟨hg, hr, hn, fun _ => ⟨hflag, hwrap⟩⟩)

theorem receivedOnly_of_not_actsOnCutOff (h : ¬ ActsOnCutOff env.serviceUuid w r) :
    ReceivedOnly env w r := by
  intro r' hr'
  by_cases hc : ∃ off, serviceField env.serviceUuid r = some off ∧ StateReceived r off
  · obtain ⟨off, hoff, hstate⟩ := hc
    have hused : Complete r off ∨ r.wdAddr ∉ (inviteSender env r off w).store.addrs := by
      by_cases hcut : Complete r off
      · exact .inl hcut
      · exact .inr (unknown_of_not_actsOnCutOff h hoff hcut)
    rw [report_congr hr' hoff hstate hused]
    exact ⟨rfl, rfl, rfl⟩
  · have hc' : ∀ off, serviceField env.serviceUuid r' = some off → ¬ StateReceived r' off :=
      fun off hoff' hstate => hc ⟨off, serviceField_congr hr'.symm hoff' hstate, by
        rwa [StateReceived, hr'.dataLen] at hstate⟩
    have hquiet := report_quiet h fun off hoff hstate => hc ⟨off, hoff, hstate⟩
    have hquiet' := report_quiet (fun hcut => h (hcut.congr hr'.symm)) hc'
    rw [hquiet, hquiet']
    exact ⟨rfl, rfl, rfl⟩

end

/-! ## Bytes that were not received -/

/-- The report with the rest of a service field at `off` behind the received bytes: its header
as it should be, a state, and an avatar. -/
def AdvReport.completed (r : AdvReport) (uuid : Vector UInt8 16) (off : Nat)
    (state avatar : UInt8) : AdvReport :=
  { r with data := Vector.ofFn fun i =>
      if i < r.dataLen.toNat then r.data[i]
      else if i < off + 18 then headerByte uuid (i - off)
      else if i < off + 2 + avatarOffset then state
      else avatar }

section

variable {r : AdvReport} {off : Nat} (uuid : Vector UInt8 16) (state avatar : UInt8)

@[simp] theorem wdAddr_completed : (r.completed uuid off state avatar).wdAddr = r.wdAddr := by
  simp only [AdvReport.completed]
@[simp] theorem rssi_completed : (r.completed uuid off state avatar).rssi = r.rssi := by
  simp only [AdvReport.completed]
@[simp] theorem dataLen_completed : (r.completed uuid off state avatar).dataLen = r.dataLen := by
  simp only [AdvReport.completed]

theorem byte_completed {i : Nat} (hi : i < 64) : (r.completed uuid off state avatar).byte i =
    if i < r.dataLen.toNat then r.byte i
    else if i < off + 18 then headerByte uuid (i - off)
    else if i < off + 2 + avatarOffset then state
    else avatar := by
  simp only [AdvReport.byte, AdvReport.completed, hi, ↓reduceDIte, Vector.getElem_ofFn]
  rfl

end

section

variable {env : Env} {w : Watch} {r : AdvReport} {off : Nat} (hlen : r.dataLen.toNat ≤ 31)
include hlen

theorem sameReceived_completed (uuid : Vector UInt8 16) (state avatar : UInt8) :
    SameReceived r (r.completed uuid off state avatar) where
  wdAddr := wdAddr_completed ..
  rssi := rssi_completed ..
  dataLen := dataLen_completed ..
  byte i hi := by rw [byte_completed uuid state avatar (by omega), if_pos hi]

variable (hreach : Reaches env.serviceUuid r off) (hmay : MayBeField env.serviceUuid r off)
  (state avatar : UInt8)
include hreach hmay

/-- The completed field is the one the walk comes to. -/
theorem serviceField_completed :
    serviceField env.serviceUuid (r.completed env.serviceUuid off state avatar) = some off := by
  have hoff := hreach.lt
  refine serviceField_eq_some_iff.mpr
    ⟨hreach.congr (sameReceived_completed hlen ..), isServiceField_iff.mpr fun j hj => ?_⟩
  rw [byte_completed _ _ _ (by omega)]
  split
  · next hlt => exact hmay j hj hlt
  · rw [if_pos (by omega), Nat.add_sub_cancel_left]

/-- It invites with the state that was received, or else with the one it is completed with. -/
theorem accepted_completed :
    acceptedInvitation env (r.completed env.serviceUuid off state avatar) w = true ↔
      (if StateReceived r off then r.byte (off + 2 + stateOffset) else state) &&& flagGrouping ≠ 0 ∧
        r.rssi > -50 ∧ w.groupState = .grouping := by
  have hlt := hreach.lt
  have hstate : (r.completed env.serviceUuid off state avatar).byte (off + 2 + stateOffset) =
      if StateReceived r off then r.byte (off + 2 + stateOffset) else state := by
    rw [byte_completed _ _ _ (by unfold stateOffset; omega)]
    by_cases hs : StateReceived r off
    · rw [if_pos hs]
      exact if_pos hs
    · rw [if_neg hs]
      refine (if_neg hs).trans ?_
      unfold stateOffset avatarOffset
      rw [if_neg (by omega), if_pos (by omega)]
  rw [acceptedInvitation, serviceField_completed hlen hreach hmay]
  simp only [hstate, rssi_completed, decide_eq_true_iff]

/-- A sender that is known in the end has the avatar of the completed field. -/
theorem avatar_completed (hcut : ¬ Complete r off)
    (hknown : r.wdAddr ∈ w.store.addrs ∨
      acceptedInvitation env (r.completed env.serviceUuid off state avatar) w = true ∧
        w.store.numNodes.toNat ≠ maxNodes ∧ w.store.numNodes.toNat ≠ 255) :
    let v := grprProcessAdverts env (r.completed env.serviceUuid off state avatar) w
    (v.store.nodes (v.store.addrs.idxOf r.wdAddr)).avatar = avatar.toInt8 := by
  intro v
  have hlt := hreach.lt
  have hoff := serviceField_completed hlen hreach hmay state avatar
  have havatar : (r.completed env.serviceUuid off state avatar).byte (off + 2 + avatarOffset) =
      avatar := by
    unfold Complete serviceDataSize at hcut
    rw [byte_completed _ _ _ (by unfold avatarOffset; omega)]
    unfold avatarOffset
    rw [if_neg (by omega), if_neg (by omega), if_neg (by omega)]
  have hv : v = updateSender env (r.completed env.serviceUuid off state avatar) off
      (inviteSender env (r.completed env.serviceUuid off state avatar) off w) := by
    simp only [v, grprProcessAdverts, hoff, processServiceField_eq]
  have hmem := mem_addrs_inviteSender (w := w) hoff
  rw [wdAddr_completed] at hmem
  rw [hv, addrs_updateSender, updateSender_known (by rw [wdAddr_completed]; exact hmem.mpr hknown),
    wdAddr_completed]
  simp [Watch.setNode, heardNode, havatar]

/-- Where acting on a cut off field makes a difference, it makes the one that the bytes behind
it say. -/
theorem not_receivedOnly (hcut : ¬ Complete r off) (hact : CanAct w r off) :
    ¬ ReceivedOnly env w r := by
  intro h
  have hsame : ∀ state avatar,
      (grprProcessAdverts env (r.completed env.serviceUuid off state avatar) w).store =
        (grprProcessAdverts env r w).store :=
    fun state avatar => (h _ (sameReceived_completed hlen ..)).1
  by_cases hwrap : r.wdAddr ∉ w.store.addrs ∧ w.store.numNodes.toNat = 255
  · -- two reports that differ in the state, which was not received
    obtain ⟨hg, hr, -, hstate⟩ := hact.resolve_left hwrap.1
    have hnot : ¬ StateReceived r off := fun hs => (hstate hs).2 hwrap.2
    have hacc : acceptedInvitation env
        (r.completed env.serviceUuid off flagGrouping 0) w = true := by
      rw [accepted_completed hlen hreach hmay, if_neg hnot]
      exact ⟨by decide, hr, hg⟩
    have hrej : ¬ acceptedInvitation env (r.completed env.serviceUuid off 0 0) w = true := by
      rw [accepted_completed hlen hreach hmay, if_neg hnot]
      exact fun hbad => hbad.1 rfl
    have h0 := congrArg Store.addrs (hsame 0 0)
    have h1 := congrArg Store.addrs (hsame flagGrouping 0)
    rw [addrs_report, if_neg hrej] at h0
    rw [addrs_report, if_pos hacc, ← h0, wdAddr_completed,
      grprStoreAdd_new (by rw [hwrap.2]; decide) hwrap.1, store_saveToNvram] at h1
    have hnum := congrArg List.length h1
    rw [Store.length_addrs, Store.length_addrs, numNodes_appendNode_eq, UInt8.toNat_add,
      hwrap.2] at hnum
    exact absurd hnum (by decide)
  · -- two reports that differ in the avatar, which was not received
    have hknown : ∀ avatar, r.wdAddr ∈ w.store.addrs ∨
        acceptedInvitation env (r.completed env.serviceUuid off flagGrouping avatar) w = true ∧
          w.store.numNodes.toNat ≠ maxNodes ∧ w.store.numNodes.toNat ≠ 255 := by
      intro avatar
      by_cases hmem : r.wdAddr ∈ w.store.addrs
      · exact .inl hmem
      obtain ⟨hg, hr, hn, hstate⟩ := hact.resolve_left hmem
      refine .inr ⟨?_, hn, fun hn' => hwrap ⟨hmem, hn'⟩⟩
      rw [accepted_completed hlen hreach hmay]
      refine ⟨?_, hr, hg⟩
      split
      · next hs => exact (hstate hs).1
      · decide
    have h0 := avatar_completed hlen hreach hmay flagGrouping 0 hcut (hknown 0)
    have h1 := avatar_completed hlen hreach hmay flagGrouping 1 hcut (hknown 1)
    simp only [hsame] at h0 h1
    exact absurd (h0.symm.trans h1) (by decide)

end

/-- **When the outcome of a report depends on the received bytes alone**: unless the walk comes to
a field cut off by the end of the received bytes that may be a service field, of a sender that
is known or can be invited. -/
theorem receivedOnly_exact (env : Env) (w : Watch) (r : AdvReport)
    (hlen : r.dataLen.toNat ≤ 31) :
    ReceivedOnly env w r ↔ ¬ ActsOnCutOff env.serviceUuid w r := by
  constructor
  · rintro h ⟨off, hreach, hmay, hcut, hact⟩
    exact not_receivedOnly hlen hreach hmay hcut hact h
  · exact receivedOnly_of_not_actsOnCutOff

/-- A watch that knows the sender of a field that was received whole. -/
theorem receivedOnly_exact_sample :
    let w := run groupStep (powerOn fun _ => []) sampleMeeting
    w.store.addrs = [addrTwo] ∧ ReceivedOnly (nominalEnv 0) w (serviceReport addrTwo 0) := by
  intro w
  refine ⟨by decide +kernel, (receivedOnly_exact _ _ (serviceReport addrTwo 0) (by decide)).mpr ?_⟩
  rintro ⟨off, hreach, -, hcut, -⟩
  -- the walk does not get past the field it starts at
  have hfield : isServiceField uuidMuchiService (serviceReport addrTwo 0) 0 = true := by
    decide +kernel
  have hzero : off = 0 := by
    clear hcut
    induction hreach with
    | start => rfl
    | next _ hf _ ih =>
      rw [ih] at hf
      exact absurd (hfield.symm.trans hf) (by decide)
  subst hzero
  exact hcut (show _ ≤ _ by decide)

/-- An empty report, in a buffer that still holds service data. -/
def staleReport : AdvReport := { serviceReport addrTwo 0 with dataLen := 0, rssi := -20 }

/-- A watch that knows the sender takes it for heard. -/
theorem stale_bytes_acted_on :
    ¬ ReceivedOnly (nominalEnv 0) (run groupStep (powerOn fun _ => []) sampleMeeting)
      staleReport := by
  intro h
  have hblank := (h { staleReport with data := Vector.replicate 64 0 }
    ⟨rfl, rfl, rfl, fun i hi => absurd hi (Nat.not_lt_zero i)⟩).1
  exact absurd (congrArg (fun s => (s.nodes 0).rssi) hblank) (by decide +kernel)

end Muchiwachi
