import Muchiwachi.Control
import Muchiwachi.Lib.Broadcast
import Muchiwachi.PeerList

/-!
# Watches that meet

Any number of watches share the air: a watch that is advertising may broadcast the payload
installed last, and any broadcast may reach any watch at any later time, as a report with the
sender's address. A payload that says grouping is installed only by a watch that goes to
`GROUPING`, and is replaced when it leaves (`Watch.HonestPayload`). So a watch that is added to a
store was grouping when it sent, and is added by a watch that is grouping (`mutual_consent`).

`bleprofile_GenerateADVData` is library code; it is a parameter here, with what its output is
relied on for as a hypothesis (`SerialisesAdvData`).
-/

namespace Muchiwachi

open Lib MainFsm

/-! ## The payload of a watch -/

/-- While a watch advertises, its payload is one of `grpr_start_adverts`, and says grouping only
if the watch is grouping. -/
def Watch.HonestPayload (w : Watch) : Prop :=
  w.chip.discoverable = .lowUndirectedDiscoverable →
    ∃ env flags w₀, w.chip.advData = advFields env flags w₀ ∧
      (flags &&& flagGrouping ≠ 0 → w.groupState = .grouping)

theorem Watch.HonestPayload.congr {w w' : Watch} (h : w.HonestPayload)
    (hadv : w'.chip.advData = w.chip.advData)
    (hdisc : w'.chip.discoverable = w.chip.discoverable)
    (hgroup : w'.groupState = w.groupState) : w'.HonestPayload := by
  unfold Watch.HonestPayload
  rw [hadv, hdisc, hgroup]
  exact h

/-- Advertising started without the flag is honest. -/
theorem honestPayload_startAdverts (env : Env) (w : Watch) :
    (grprStartAdverts env 0 w).HonestPayload :=
  fun _ => ⟨env, 0, w, rfl, fun h => absurd rfl h⟩

theorem honestPayload_groupfsm {w : Watch} (h : w.HonestPayload) (env : Env) :
    (groupfsmProcessEvent env .groupingStart w).HonestPayload ∧
      (groupfsmProcessEvent env .groupingStop w).HonestPayload := by
  cases hg : w.groupState with
  | idle =>
    rw [groupfsm_start hg, groupfsm_stop_idle hg]
    exact ⟨fun _ => ⟨env, flagGrouping, w, rfl, fun _ => rfl⟩, h⟩
  | grouping =>
    rw [groupfsm_start_grouping hg, groupfsm_stop hg]
    exact ⟨h, fun _ => ⟨env, 0, w, rfl, fun h => absurd rfl h⟩⟩

theorem honestPayload_startIfConfigured {w : Watch} (h : w.HonestPayload) (env : Env) :
    (startIfConfigured env w).HonestPayload := by
  unfold startIfConfigured
  simp only
  split
  · exact honestPayload_startAdverts env _
  · exact h.congr rfl rfl rfl

theorem honestPayload_created (env : Env) (nv : Nvram) : (created env nv).HonestPayload := by
  have hbooting : (booting env nv).HonestPayload := by
    intro hdisc
    rw [(onlyStore_booting env nv).discoverable] at hdisc
    cases hdisc
  rw [created_eq]
  exact (honestPayload_startIfConfigured hbooting env).congr rfl rfl rfl

theorem MainStep.honestPayload {env : Env} {e : MEvent} {w w' : Watch} (hs : MainStep env e w w')
    (h : w.HonestPayload) : w'.HonestPayload := by
  cases hs with
  | boot => exact (honestPayload_startIfConfigured h env).congr rfl rfl rfl
  | confirm =>
    have hsaved : (saveConfig env (displayKeypress .accept w).2).HonestPayload := by
      obtain ⟨_, _, heq⟩ := saveConfig_eq env (displayKeypress .accept w).2
      rw [heq]
      exact h.congr rfl rfl rfl
    exact (honestPayload_startIfConfigured hsaved env).congr rfl rfl rfl
  | push | wakeup => exact honestPayload_startAdverts env _
  | longInactive => exact fun hdisc => by cases hdisc
  | hold =>
    have hon : (displayPowerOn w).HonestPayload := h.congr rfl rfl rfl
    exact (honestPayload_groupfsm hon env).1.congr rfl rfl rfl
  | holdRadar => exact (honestPayload_groupfsm h env).1
  | release => exact (honestPayload_groupfsm h env).2
  | releaseRadar => exact (honestPayload_groupfsm h env).2.congr rfl rfl rfl
  | nextKey | tick | tilt | untilt => exact h.congr (by simp) (by simp) (by simp)
  | toTime | toCfg | acceptKey | message | dismiss | blank | inactive | inactiveRadar =>
    exact h.congr rfl rfl rfl
  | ignored => exact h

/-! ## A payload as a report -/

/-- What `bleprofile_GenerateADVData` is relied on for: fields whose lengths are right and that
fit in an advertisement are put on the air back to back, as length, type and data. -/
def SerialisesAdvData (gen : List BleAdvField → List UInt8) : Prop :=
  ∀ fields, (∀ f ∈ fields, f.len.toNat = f.data.length + 1) →
    (fields.flatMap fun f => f.len :: f.val :: f.data).length ≤ 31 →
      gen fields = fields.flatMap fun f => f.len :: f.val :: f.data

/-- What the air and the receiver add to a broadcast: the receiver's environment, the signal
strength, and what stands behind the payload in the report. -/
structure Air where
  env : Env
  rssi : Int8
  fill : Nat → UInt8

/-- The report of a broadcast. -/
def airReport (gen : List BleAdvField → List UInt8) (sender : Addr) (fields : List BleAdvField)
    (d : Air) : AdvReport where
  wdAddr := sender
  dataLen := UInt8.ofNat (gen fields).length
  data := Vector.ofFn fun i => (gen fields).getD i (d.fill i)
  rssi := d.rssi
  beyond i := d.fill (65 + i)

/-- The bytes of the two fields of `grpr_start_adverts`. -/
def payloadBytes (d : MuchiServiceData) : List UInt8 :=
  [2, advFlags, leGeneralDiscoverable ||| brEdrNotSupported, 27, advServiceDataUuid128] ++ d.toBytes

@[simp] theorem length_payloadBytes (d : MuchiServiceData) : (payloadBytes d).length = 31 := by
  simp [payloadBytes, d.length_toBytes, serviceDataSize]

theorem state_payloadBytes (d : MuchiServiceData) :
    (payloadBytes d)[3 + 2 + stateOffset]? = some d.state := d.state_toBytes

/-- The service data `grpr_start_adverts` builds. -/
def advService (env : Env) (flags : UInt8) (w : Watch) : MuchiServiceData :=
  ⟨env.serviceUuid, 0, flags, 0, 0, w.gAvatar.1⟩

section

variable {gen : List BleAdvField → List UInt8} (hgen : SerialisesAdvData gen) {env : Env}
  {flags : UInt8} {w₀ : Watch} {sender : Addr} {d : Air}
include hgen

theorem gen_advFields :
    gen (advFields env flags w₀) = payloadBytes (advService env flags w₀) := by
  have hlen := (advService env flags w₀).length_toBytes
  unfold advService at *
  rw [hgen]
  · simp [advFields, payloadBytes, serviceDataSize]
  · simp [advFields, hlen, serviceDataSize]
  · simp [advFields, hlen, serviceDataSize]

/-- Byte `k` of the report of a watch's payload. -/
theorem byte_airReport {k : Nat} {b : UInt8}
    (hk : (payloadBytes (advService env flags w₀))[k]? = some b) :
    (airReport gen sender (advFields env flags w₀) d).byte k = b := by
  have hlt := (List.getElem?_eq_some_iff.mp hk).1
  rw [length_payloadBytes] at hlt
  rw [AdvReport.byte, dif_pos (by omega)]
  simp only [airReport, Vector.getElem_ofFn, gen_advFields hgen, List.getD_eq_getElem?_getD, hk]
  rfl

/-- The loop looks at the two fields of the payload, and ends. -/
theorem reaches_airReport {uuid : Vector UInt8 16} {off : Nat}
    (h : Reaches uuid (airReport gen sender (advFields env flags w₀) d) off) :
    off = 0 ∨ off = 3 := by
  have hdata : (airReport gen sender (advFields env flags w₀) d).dataLen.toNat = 31 := by
    simp [airReport, gen_advFields hgen]
  induction h with
  | start => exact .inl rfl
  | next _ _ hlt ih =>
    rw [hdata] at hlt
    rcases ih with rfl | rfl
    · right
      rw [byte_airReport (b := 2) hgen rfl]
      rfl
    · rw [byte_airReport (b := 27) hgen rfl] at hlt
      exact absurd hlt (by decide)

/-- An invitation that is accepted was sent with the flag, and is accepted while grouping. -/
theorem accepted_airReport {env' : Env} {w : Watch}
    (h : acceptedInvitation env' (airReport gen sender (advFields env flags w₀) d) w = true) :
    flags &&& flagGrouping ≠ 0 ∧ w.groupState = .grouping := by
  obtain ⟨⟨off, hreach, hfield, hflag⟩, -, hgroup⟩ := acceptedInvitation_iff.mp h
  refine ⟨?_, hgroup⟩
  rcases reaches_airReport hgen hreach with rfl | rfl
  · -- the first field has length 2
    have hlen := (of_decide_eq_true hfield).1
    rw [byte_airReport (b := 2) hgen rfl] at hlen
    exact absurd hlen (by decide)
  · rwa [byte_airReport hgen (state_payloadBytes _)] at hflag

end

/-! ## Watches on the air -/

/-- What a watch does by itself. -/
inductive OwnInput where
  | event (env : Env) (e : MEvent)
  | advTimeout (env : Env)

def OwnInput.act (w : Watch) : OwnInput → Watch
  | .event env e => mainfsmProcessEvent env e w
  | .advTimeout env => muchiAdvertisementTimeout env w

/-- Watches with addresses `addr` on the air. -/
def watches {ι : Type*} (gen : List BleAdvField → List UInt8) (addr : ι → Addr) :
    Broadcast ι Watch (List BleAdvField) OwnInput Air where
  act := OwnInput.act
  payload w :=
    if w.chip.discoverable = .lowUndirectedDiscoverable then some w.chip.advData else none
  receive sender fields d w :=
    muchiAdvertisementReport d.env (airReport gen (addr sender) fields d) w

section

variable {ι : Type*} [DecidableEq ι] {gen : List BleAdvField → List UInt8} {addr : ι → Addr}

/-- The watches as `muchi_create` leaves them, and nothing sent. -/
def createdAll (boot : ι → Env) (nv : ι → Nvram) : Medium ι Watch (List BleAdvField) :=
  ⟨fun i => created (boot i) (nv i), []⟩

theorem always_honestPayload (boot : ι → Env) (nv : ι → Nvram)
    (is : List (MediumInput ι OwnInput Air)) :
    Always (watches gen addr).step (fun n => ∀ i, (n.parties i).HonestPayload)
      (createdAll boot nv) is := by
  refine Broadcast.always_parties (fun w a h => ?_) (fun j fields d w h => ?_)
    (fun i => honestPayload_created (boot i) (nv i)) is
  · cases a with
    | event env e => exact (mainStep env e w).honestPayload h
    | advTimeout env => exact honestPayload_startAdverts env w
  · have honly := onlyStore_report d.env (airReport gen (addr j) fields d) w
    exact h.congr honly.advData honly.discoverable honly.groupState

theorem store_act (w : Watch) (i : OwnInput) : (i.act w).store = w.store := by
  cases i with
  | event env e => exact store_process env e w
  | advTimeout env => exact store_startAdverts env 0 w

/-- A watch's store gains an address only from a broadcast that is delivered to it. -/
theorem deliver_of_gain {n : Medium ι Watch (List BleAdvField)} {x : MediumInput ι OwnInput Air}
    {A : ι} {a : Addr} (hold : a ∉ (n.parties A).store.addrs)
    (hnew : a ∈ (((watches gen addr).step n x).parties A).store.addrs) :
    ∃ k d B fields, x = .deliver k A d ∧ n.sent[k]? = some (B, fields) ∧
      a ∈ (muchiAdvertisementReport d.env (airReport gen (addr B) fields d)
        (n.parties A)).store.addrs := by
  rcases Broadcast.party_step n x A with heq | ⟨own, -, heq⟩ | ⟨k, d, B, fields, hx, hk, heq⟩ <;>
    rw [heq] at hnew
  · exact absurd hnew hold
  · have hstore : ((watches gen addr).act (n.parties A) own).store = (n.parties A).store :=
      store_act (n.parties A) own
    exact absurd (hstore ▸ hnew) hold
  · exact ⟨k, d, B, fields, hx, hk, hnew⟩

/-- Only the sender of an accepted invitation is added. -/
theorem accepted_of_gain {env : Env} {r : AdvReport} {w : Watch} {a : Addr}
    (hold : a ∉ w.store.addrs) (hnew : a ∈ (muchiAdvertisementReport env r w).store.addrs) :
    acceptedInvitation env r w = true ∧ a = r.wdAddr := by
  rw [muchiAdvertisementReport, addrs_report] at hnew
  split at hnew
  · next hacc => exact ⟨hacc, (mem_addrs_grprStoreAdd hnew).resolve_left hold⟩
  · exact absurd hnew hold

/-- **Mutual consent.** Over any run of any number of watches: if the store of watch `A` gains
the address `a`, then by a broadcast, now delivered to `A`, of a watch `B` with this address.
`A` is grouping when it is delivered, and `B` was grouping when it was sent, as the `k`-th. -/
theorem mutual_consent (hgen : SerialisesAdvData gen) (boot : ι → Env) (nv : ι → Nvram)
    (is : List (MediumInput ι OwnInput Air)) (x : MediumInput ι OwnInput Air) (A : ι) (a : Addr)
    (hold : a ∉ ((run (watches gen addr).step (createdAll boot nv) is).parties A).store.addrs)
    (hnew : a ∈
      ((run (watches gen addr).step (createdAll boot nv) (is ++ [x])).parties A).store.addrs) :
    ((run (watches gen addr).step (createdAll boot nv) is).parties A).groupState = .grouping ∧
      ∃ k d B pre, x = .deliver k A d ∧ addr B = a ∧ pre ++ [.send B] <+: is ∧
        (run (watches gen addr).step (createdAll boot nv) pre).sent.length = k ∧
        ((run (watches gen addr).step (createdAll boot nv) pre).parties B).groupState =
          .grouping := by
  rw [run_snoc] at hnew
  obtain ⟨k, d, B, fields, rfl, hk, hgain⟩ := deliver_of_gain hold hnew
  obtain ⟨hacc, ha⟩ := accepted_of_gain hold hgain
  obtain ⟨pre, hpre, hlen, hsent⟩ := Broadcast.sent_provenance rfl is k B fields hk
  -- the sender was honest when it sent
  have hhonest : ((run (watches gen addr).step (createdAll boot nv) pre).parties B).HonestPayload :=
    always_honestPayload boot nv is pre ((List.prefix_append ..).trans hpre) B
  obtain ⟨hdisc, hfields⟩ := Option.ite_none_right_eq_some.mp hsent
  obtain ⟨env, flags, w₀, hadv, hgroup⟩ := hhonest hdisc
  rw [← Option.some.inj hfields, hadv] at hacc
  obtain ⟨hflag, hA⟩ := accepted_airReport hgen hacc
  exact ⟨hA, k, d, B, pre, rfl, ha.symm, hpre, hlen, hgroup hflag⟩

end

/-- Two watches, by address. -/
def sampleAddr (i : Bool) : Addr := if i then addrTwo else addrOne

/-- Fields put on the air back to back. -/
def sampleGen (fields : List BleAdvField) : List UInt8 :=
  fields.flatMap fun f => f.len :: f.val :: f.data

theorem serialisesAdvData_sampleGen : SerialisesAdvData sampleGen := fun _ _ _ => rfl

/-- Both watches are configured and go to `GROUPING`, and one of them broadcasts. -/
def sampleGrouping : List (MediumInput Bool OwnInput Air) :=
  let both (e : MEvent) : List (MediumInput Bool OwnInput Air) :=
    [.act false (.event (nominalEnv 0) e), .act true (.event (nominalEnv 0) e)]
  both .nextPush ++ both .bothHold ++ [.send true]

theorem mutual_consent_sample :
    ((run (watches sampleGen sampleAddr).step
      (createdAll (fun _ => nominalEnv 0) fun _ => configuredNvram 60) sampleGrouping).parties
        false).groupState = .grouping :=
  (mutual_consent serialisesAdvData_sampleGen _ _ sampleGrouping
    (.deliver 0 false ⟨nominalEnv 0, -10, fun _ => 0⟩) false addrTwo
    (by decide +kernel) (by decide +kernel)).1

end Muchiwachi
