import Muchiwachi.Consent
import Muchiwachi.Walk

/-!
# From one watch's store to another's

What a watch puts on the air with `grpr_start_adverts`, another one takes off it with
`grpr_process_adverts`: flag, avatar, address and signal strength arrive as they are, in one
node of the store, and nothing else changes (`advert_round_trip`).
-/

namespace Muchiwachi

open Lib

/-! ## The field on the air -/

/-- Behind the three bytes of the flags field stands the header of a service field. -/
theorem header_payloadBytes (d : MuchiServiceData) {j : Nat} (hj : j < 18) :
    (payloadBytes d)[3 + j]? = some (headerByte d.uuid j) := by
  unfold headerByte payloadBytes
  rcases j with _ | _ | j
  · rfl
  · rfl
  · rw [List.getElem?_append_right (by simp; omega), MuchiServiceData.toBytes,
      List.getElem?_append_left (by simp; omega)]
    simp [show 3 + (j + 1 + 1) - 5 = j by omega, show j < 16 by omega]

section

variable {gen : List BleAdvField → List UInt8} (hgen : SerialisesAdvData gen) {env env' : Env}
  {flags : UInt8} {w₀ : Watch} {sender : Addr} {d : Air}
include hgen

/-- The receiver finds the service data behind the flags field. -/
theorem serviceField_airReport (huuid : env'.serviceUuid = env.serviceUuid) :
    serviceField env'.serviceUuid (airReport gen sender (advFields env flags w₀) d) = some 3 := by
  have hdata : (airReport gen sender (advFields env flags w₀) d).dataLen.toNat = 31 := by
    simp [airReport, gen_advFields hgen]
  have hfirst : (airReport gen sender (advFields env flags w₀) d).byte 0 = 2 :=
    byte_airReport hgen rfl
  refine serviceField_eq_some_iff.mpr ⟨?_, ?_⟩
  · have hskip : isServiceField env'.serviceUuid
        (airReport gen sender (advFields env flags w₀) d) 0 = false := by
      simp [isServiceField, hfirst, serviceDataSize]
    have hnext := Reaches.start.next hskip (by rw [hfirst, hdata]; decide)
    rwa [hfirst] at hnext
  · refine isServiceField_iff.mpr fun j hj => byte_airReport hgen ?_
    rw [huuid]
    exact header_payloadBytes (advService env flags w₀) hj

end

/-! ## The sender in the store -/

/-- The sender of a broadcast with these flags joins the peers of the watch. -/
def Joins (flags : UInt8) (sender : Addr) (rssi : Int8) (w : Watch) : Prop :=
  flags &&& flagGrouping ≠ 0 ∧ w.groupState = .grouping ∧ rssi > -50 ∧
    sender ∉ w.store.addrs ∧ w.store.numNodes.toNat < maxNodes

instance (flags : UInt8) (sender : Addr) (rssi : Int8) (w : Watch) :
    Decidable (Joins flags sender rssi w) := inferInstanceAs (Decidable (_ ∧ _ ∧ _ ∧ _ ∧ _))

/-- The store with `sender` appended at time `t`. Signal strength and avatar are what the memory
of the node holds. -/
def Store.joined (s : Store) (t : UInt32) (sender : Addr) : Store where
  nodes := Function.update s.nodes s.numNodes.toNat
    { s.nodes s.numNodes.toNat with addr := sender, timestamp := (t >>> 15).toUInt16 }
  numNodes := s.numNodes + 1

theorem store_appendNode {env : Env} {t : UInt32} (ht : ∀ n, env.rtc n = t) {w : Watch}
    (hroom : w.store.numNodes.toNat < maxNodes) (sender : Addr) :
    (appendNode env sender w).store = w.store.joined t sender := by
  have hin : w.store.numNodes.toNat < (w.store.numNodes + 1).toNat := by
    rw [UInt8.toNat_add]
    unfold maxNodes at hroom
    simp; omega
  unfold appendNode
  simp only
  rw [grprStoreTimestamp_stored (by exact hin)]
  simp only [Watch.setNode, Function.update_idem, Function.update_self, Store.joined,
    clockSeconds, ht]
  rfl

section

variable {env : Env} {r : AdvReport} {off : Nat} {w : Watch}

/-- A sender that joins is appended, and the store is saved. -/
theorem inviteSender_joins {t : UInt32} (ht : ∀ n, env.rtc n = t)
    (hoff : serviceField env.serviceUuid r = some off) (hacc : acceptedInvitation env r w = true)
    (hnew : r.wdAddr ∉ w.store.addrs) (hroom : w.store.numNodes.toNat < maxNodes) :
    (inviteSender env r off w).store = w.store.joined t r.wdAddr ∧
      (inviteSender env r off w).store.addrs = w.store.addrs ++ [r.wdAddr] ∧
      (inviteSender env r off w).chip.nvram =
        applyWrites w.chip.nvram (saveWrites env (w.store.joined t r.wdAddr)) := by
  have hstore := store_appendNode ht hroom r.wdAddr
  rw [inviteSender_eq hoff, if_pos hacc, grprStoreAdd_new hroom.ne hnew]
  refine ⟨?_, ?_, ?_⟩
  · rw [store_saveToNvram, hstore]
  · rw [store_saveToNvram, addrs_appendNode (hroom.trans (by decide))]
  · have hwrites := writes_appendNode.nil_trans
      (writes_saveToNvram env (appendNode env r.wdAddr w))
    rw [hwrites.nvram, hstore]

/-- A sender that does not join is not added, and other nodes stay. -/
theorem inviteSender_stays (hoff : serviceField env.serviceUuid r = some off)
    (h : ¬ (acceptedInvitation env r w = true ∧ r.wdAddr ∉ w.store.addrs ∧
      w.store.numNodes.toNat ≠ maxNodes)) :
    (inviteSender env r off w).store.addrs = w.store.addrs ∧
      (inviteSender env r off w).chip.nvram = w.chip.nvram ∧
      ∀ i, w.store.addrs[i]? ≠ some r.wdAddr →
        (inviteSender env r off w).store.nodes i = w.store.nodes i := by
  rw [inviteSender_eq hoff]
  split
  · next hacc =>
    by_cases hfull : w.store.numNodes.toNat = maxNodes
    · rw [grprStoreAdd_full hfull]
      exact ⟨rfl, rfl, fun _ _ => rfl⟩
    · have hknown : r.wdAddr ∈ w.store.addrs := by
        by_contra hn
        exact h ⟨hacc, hn, hfull⟩
      have hlt := List.idxOf_lt_length_of_mem hknown
      rw [Store.length_addrs] at hlt
      rw [grprStoreAdd_known hfull hknown]
      refine ⟨addrs_readd hknown, ?_, fun i hi => ?_⟩
      · rw [grprStoreTimestamp_stored hlt]
        rfl
      · have hne : i ≠ w.store.addrs.idxOf r.wdAddr := by
          rintro rfl
          exact hi (List.getElem?_idxOf hknown)
        rw [grprStoreTimestamp_stored hlt]
        simp [Watch.setNode, Function.update_of_ne hne]
  · exact ⟨rfl, rfl, fun _ _ => rfl⟩

/-- The list entry of an address without repetition is where it is found. -/
theorem getElem?_addrs_eq_some {l : List Addr} (hnd : l.Nodup) {a : Addr} (ha : a ∈ l) (i : Nat) :
    l[i]? = some a ↔ i = l.idxOf a := by
  constructor
  · intro h
    obtain ⟨hlt, rfl⟩ := List.getElem?_eq_some_iff.mp h
    exact (hnd.idxOf_getElem i hlt).symm
  · rintro rfl
    exact List.getElem?_idxOf ha

end

/-- The node of a sender that was heard at time `t`. -/
def heardAt (t : UInt32) (sender : Addr) (rssi : Int8) (avatar : UInt8) : Node :=
  ⟨sender, (t >>> 15).toUInt16, rssi, avatar.toInt8⟩

/-- Handling the field touches the node of the sender, if there is one. -/
theorem nodes_updateSender {env : Env} {t : UInt32} (ht : ∀ n, env.rtc n = t) {r : AdvReport}
    {off : Nat} {w : Watch} (hnd : w.store.addrs.Nodup) (i : Nat) :
    (updateSender env r off w).store.nodes i = if w.store.addrs[i]? = some r.wdAddr
      then heardAt t r.wdAddr r.rssi (r.byte (off + 2 + avatarOffset)) else w.store.nodes i := by
  by_cases hknown : r.wdAddr ∈ w.store.addrs
  · rw [updateSender_known hknown]
    simp only [getElem?_addrs_eq_some hnd hknown]
    split
    · next hi =>
      subst hi
      simp [Watch.setNode, heardNode, heardAt, clockSeconds, ht]
    · next hi => simp [Watch.setNode, Function.update_of_ne hi]
  · rw [updateSender_unknown hknown, if_neg fun hi => hknown (List.mem_of_getElem? hi)]

/-- The effect of an invitation, whether its sender joins or not. -/
theorem inviteSender_effect {env : Env} {t : UInt32} (ht : ∀ n, env.rtc n = t) {r : AdvReport}
    {off : Nat} {w : Watch} (hoff : serviceField env.serviceUuid r = some off)
    (hle : w.store.numNodes.toNat ≤ maxNodes) (hnd : w.store.addrs.Nodup) {joins : Prop}
    [Decidable joins] (hjoins : joins ↔ acceptedInvitation env r w = true ∧
      r.wdAddr ∉ w.store.addrs ∧ w.store.numNodes.toNat < maxNodes) :
    let v := inviteSender env r off w
    v.store.addrs = w.store.addrs ++ (if joins then [r.wdAddr] else []) ∧
      v.chip.nvram = applyWrites w.chip.nvram
        (if joins then saveWrites env (w.store.joined t r.wdAddr) else []) ∧
      v.store.addrs.Nodup ∧
      ∀ i, v.store.addrs[i]? ≠ some r.wdAddr → v.store.nodes i = w.store.nodes i := by
  intro v
  by_cases hj : joins
  · obtain ⟨hacc, hnew, hroom⟩ := hjoins.mp hj
    obtain ⟨hstore, haddrs, hnv⟩ := inviteSender_joins ht hoff hacc hnew hroom
    rw [if_pos hj, if_pos hj]
    refine ⟨haddrs, hnv, ?_, fun i hi => ?_⟩
    · rw [haddrs]
      refine List.nodup_append.mpr ⟨hnd, List.nodup_singleton _, ?_⟩
      rintro x hx y hy rfl
      exact hnew (List.mem_singleton.mp hy ▸ hx)
    · have hne : i ≠ w.store.numNodes.toNat := by
        rintro rfl
        rw [haddrs, ← Store.length_addrs, List.getElem?_concat_length] at hi
        exact hi rfl
      rw [hstore]
      exact Function.update_of_ne hne ..
  · obtain ⟨haddrs, hnv, hnodes⟩ := inviteSender_stays hoff fun h =>
      hj (hjoins.mpr ⟨h.1, h.2.1, lt_of_le_of_ne hle h.2.2⟩)
    rw [if_neg hj, if_neg hj, List.append_nil]
    exact ⟨haddrs, hnv, haddrs ▸ hnd, fun i hi => hnodes i (haddrs ▸ hi)⟩

/-- The effect of a report with a service field at `off`: its sender joins or not, its node is
updated if there is one, and nothing else changes. -/
theorem report_effect {env : Env} {t : UInt32} (ht : ∀ n, env.rtc n = t) {r : AdvReport}
    {off : Nat} {w : Watch} (hoff : serviceField env.serviceUuid r = some off)
    (hle : w.store.numNodes.toNat ≤ maxNodes) (hnd : w.store.addrs.Nodup) {joins : Prop}
    [Decidable joins] (hjoins : joins ↔ acceptedInvitation env r w = true ∧
      r.wdAddr ∉ w.store.addrs ∧ w.store.numNodes.toNat < maxNodes) :
    let v := grprProcessAdverts env r w
    v.store.addrs = w.store.addrs ++ (if joins then [r.wdAddr] else []) ∧
      v.chip.nvram = applyWrites w.chip.nvram
        (if joins then saveWrites env (w.store.joined t r.wdAddr) else []) ∧
      ∀ i, v.store.nodes i = if v.store.addrs[i]? = some r.wdAddr
        then heardAt t r.wdAddr r.rssi (r.byte (off + 2 + avatarOffset)) else w.store.nodes i := by
  intro v
  have hv : v = updateSender env r off (inviteSender env r off w) := by
    simp only [v, grprProcessAdverts, hoff, processServiceField_eq]
  obtain ⟨haddrs, hnv, hnd', hnodes⟩ := inviteSender_effect ht hoff hle hnd hjoins
  have haddrs' : v.store.addrs = (inviteSender env r off w).store.addrs := by
    rw [hv, addrs_updateSender]
  refine ⟨haddrs'.trans haddrs, ?_, fun i => ?_⟩
  · rw [hv, (writes_updateSender env r off _).nvram, applyWrites_nil, hnv]
  · rw [haddrs', hv, nodes_updateSender ht hnd']
    split
    · rfl
    · next hi => exact hnodes i hi

/-- A watch's own flags and avatar are what the receiver reads. -/
theorem read_airReport {gen : List BleAdvField → List UInt8} (hgen : SerialisesAdvData gen)
    (env env' : Env) (huuid : env'.serviceUuid = env.serviceUuid) (f : UInt8) (w₀ w : Watch)
    (sender : Addr) (d : Air) :
    let r := airReport gen sender (advFields env f w₀) d
    (acceptedInvitation env' r w = true ↔
        f &&& flagGrouping ≠ 0 ∧ d.rssi > -50 ∧ w.groupState = .grouping) ∧
      r.byte (3 + 2 + avatarOffset) = w₀.gAvatar.1 := by
  intro r
  have hstate : r.byte (3 + 2 + stateOffset) = f := byte_airReport hgen (state_payloadBytes _)
  refine ⟨?_, byte_airReport hgen (advService env f w₀).avatar_toBytes⟩
  rw [acceptedInvitation, serviceField_airReport hgen huuid]
  simp only [hstate, decide_eq_true_iff]
  rfl

/-- Saving leaves the records of other nodes alone. -/
theorem saveWrites_other {env : Env} {s : Store} {nv : Nvram} {vsId : Nat}
    (hpair : ∀ k, 2 * k < s.numNodes.toNat → vsId ≠ nvmStoreBase + k)
    (hcount : vsId ≠ nvmStoreCount) : applyWrites nv (saveWrites env s) vsId = nv vsId := by
  refine applyWrites_other fun x hx hkey => ?_
  rcases key_of_mem_saveWrites hx with hx | ⟨k, hk, hx⟩
  · exact hcount (hkey.symm.trans hx)
  · exact hpair k hk (hkey.symm.trans hx)

theorem numNodes_joined_le {s s' : Store} {t : UInt32} {sender : Addr}
    (h : s'.addrs = s.addrs ++ [sender]) :
    (s.joined t sender).numNodes.toNat ≤ s'.numNodes.toNat := by
  have hlen : s'.numNodes.toNat = s.numNodes.toNat + 1 := by
    rw [← Store.length_addrs, h, List.length_append, Store.length_addrs, List.length_singleton]
  rw [hlen]
  exact Nat.mod_le ..

/-- **Advert round trip.** A watch with avatar `a` advertises with flags `f`, and a watch with
the same service UUID handles the report, while its clock stands at `t`. Then the sender is
appended and the store saved exactly if it joins; if it is stored now, its node has `t`, the
signal strength and `a`; and nothing else has changed. -/
theorem advert_round_trip {gen : List BleAdvField → List UInt8} (hgen : SerialisesAdvData gen)
    (env env' : Env) (huuid : env'.serviceUuid = env.serviceUuid) (t : UInt32)
    (ht : ∀ n, env'.rtc n = t) (f : UInt8) (w₀ w : Watch) (sender : Addr) (rssi : Int8)
    (fill : Nat → UInt8) (hle : w.store.numNodes.toNat ≤ maxNodes) (hnd : w.store.addrs.Nodup) :
    let r := airReport gen sender (grprStartAdverts env f w₀).chip.advData ⟨env', rssi, fill⟩
    let w' := grprProcessAdverts env' r w
    r.dataLen = 31 ∧
    w'.store.addrs = w.store.addrs ++ (if Joins f sender rssi w then [sender] else []) ∧
    w'.chip.nvram = applyWrites w.chip.nvram
      (if Joins f sender rssi w then saveWrites env' (w.store.joined t sender) else []) ∧
    (∀ i, w'.store.nodes i = if w'.store.addrs[i]? = some sender
      then heardAt t sender rssi w₀.gAvatar.1 else w.store.nodes i) ∧
    (∀ vsId, (∀ k, 2 * k < w'.store.numNodes.toNat → vsId ≠ nvmStoreBase + k) →
      vsId ≠ nvmStoreCount → w'.chip.nvram vsId = w.chip.nvram vsId) ∧
    w'.mainState = w.mainState ∧ w'.groupState = w.groupState := by
  intro r w'
  have hdata : r.dataLen = 31 := by
    show UInt8.ofNat (gen (advFields env f w₀)).length = 31
    rw [gen_advFields hgen, length_payloadBytes]
    rfl
  have hoff : serviceField env'.serviceUuid r = some 3 := serviceField_airReport hgen huuid
  obtain ⟨hacc, havatar⟩ :=
    read_airReport hgen env env' huuid f w₀ w sender ⟨env', rssi, fill⟩
  change acceptedInvitation env' r w = true ↔ _ at hacc
  have hjoins : Joins f sender rssi w ↔ acceptedInvitation env' r w = true ∧
      r.wdAddr ∉ w.store.addrs ∧ w.store.numNodes.toNat < maxNodes := by
    rw [hacc]
    exact ⟨fun ⟨hf, hg, hr, hnew, hroom⟩ => ⟨⟨hf, hr, hg⟩, hnew, hroom⟩,
      fun ⟨⟨hf, hr, hg⟩, hnew, hroom⟩ => ⟨hf, hg, hr, hnew, hroom⟩⟩
  obtain ⟨haddrs, hnv, hnodes⟩ := report_effect ht hoff hle hnd hjoins
  have honly : OnlyStore w w' := onlyStore_report env' r w
  refine ⟨hdata, haddrs, hnv, fun i => havatar ▸ hnodes i, fun vsId hpair hcount => ?_,
    honly.mainState, honly.groupState⟩
  refine (congrFun hnv vsId).trans ?_
  by_cases hj : Joins f sender rssi w
  · rw [if_pos hj] at haddrs ⊢
    exact saveWrites_other (fun k hk => hpair k (lt_of_lt_of_le hk (numNodes_joined_le haddrs)))
      hcount
  · rw [if_neg hj]
    rfl

/-- A grouping watch without peers hears a configured one that groups. -/
theorem advert_round_trip_sample :
    let env := nominalEnv 0
    let w := groupfsmProcessEvent env .groupingStart (powerOn fun _ => [])
    let adv := (grprStartAdverts env flagGrouping (powerOn fun _ => [])).chip.advData
    (grprProcessAdverts env (airReport sampleGen addrTwo adv ⟨env, -10, fun _ => 0⟩)
      w).store.addrs =
        w.store.addrs ++ (if Joins flagGrouping addrTwo (-10) w then [addrTwo] else []) ∧
    Joins flagGrouping addrTwo (-10) w := by
  intro env w adv
  have hround := advert_round_trip serialisesAdvData_sampleGen env env rfl 0 (fun _ => rfl)
    flagGrouping (powerOn fun _ => []) w addrTwo (-10) (fun _ => 0) (by decide +kernel)
    (by decide +kernel)
  exact ⟨hround.2.1, by decide +kernel⟩

end Muchiwachi
