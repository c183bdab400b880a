import Muchiwachi.Consent
import Muchiwachi.Screens
import Muchiwachi.StoreBounds

/-!
# What watches know of each other

The avatar stored of a peer comes from a payload, and a payload has the avatar its watch had when
it was installed (`Watch.Tells`). So over any run of any number of watches, an avatar that came
into a store was on the air before, in a payload of a watch with the stored address, and it can be
drawn (`peers_heard`).
-/

namespace Muchiwachi

open Lib MainFsm

/-! ## The nodes after a report -/

section

variable {env : Env} {r : AdvReport} {off : Nat} {w : Watch}

/-- Nodes below the appended one stay. -/
theorem nodes_appendNode {a : Addr} {i : Nat} (h : i ≠ w.store.numNodes.toNat) :
    (appendNode env a w).store.nodes i = w.store.nodes i := by
  unfold appendNode grprStoreTimestamp Watch.setNode
  simp only [Function.update_of_ne h]
  split
  · rfl
  · simp [Function.update_of_ne h, Watch.call]

/-- After adding `a`, a node is that of `a`, or as it was. -/
theorem node_grprStoreAdd {a : Addr} (hle : w.store.numNodes.toNat ≤ maxNodes) {i : Nat}
    (hi : i < (grprStoreAdd env (some a) w).2.store.numNodes.toNat) :
    (a ∈ (grprStoreAdd env (some a) w).2.store.addrs ∧
        i = (grprStoreAdd env (some a) w).2.store.addrs.idxOf a) ∨
      (i < w.store.numNodes.toNat ∧
        (grprStoreAdd env (some a) w).2.store.nodes i = w.store.nodes i) := by
  by_cases hfull : w.store.numNodes.toNat = maxNodes
  · rw [grprStoreAdd_full hfull] at hi ⊢
    exact .inr ⟨hi, rfl⟩
  · by_cases hknown : a ∈ w.store.addrs
    · rw [grprStoreAdd_known hfull hknown, Watch.numNodes_setNode, numNodes_timestamp] at hi
      rw [grprStoreAdd_known hfull hknown, addrs_readd hknown]
      by_cases hidx : i = w.store.addrs.idxOf a
      · exact .inl ⟨hknown, hidx⟩
      · have hlt := List.idxOf_lt_length_of_mem hknown
        rw [Store.length_addrs] at hlt
        refine .inr ⟨hi, ?_⟩
        rw [grprStoreTimestamp_stored hlt]
        simp [Watch.setNode, Function.update_of_ne hidx]
    · have hroom : w.store.numNodes.toNat < 255 := lt_of_le_of_lt hle (by decide)
      have hcount := @numNodes_appendNode env a w hroom
      have haddrs := @addrs_appendNode env a w hroom
      rw [grprStoreAdd_new hfull hknown, store_saveToNvram, hcount] at hi
      rw [grprStoreAdd_new hfull hknown, store_saveToNvram]
      by_cases hlast : i = w.store.numNodes.toNat
      · refine .inl ⟨by simp [haddrs], ?_⟩
        rw [haddrs, List.idxOf_append_of_notMem hknown, List.idxOf_cons_self, hlast]
        simp
      · exact .inr ⟨by omega, nodes_appendNode hlast⟩

/-- After an invitation a node is that of the sender, or as it was. -/
theorem node_inviteSender (hoff : serviceField env.serviceUuid r = some off)
    (hle : w.store.numNodes.toNat ≤ maxNodes) {i : Nat}
    (hi : i < (inviteSender env r off w).store.numNodes.toNat) :
    (r.wdAddr ∈ (inviteSender env r off w).store.addrs ∧
        i = (inviteSender env r off w).store.addrs.idxOf r.wdAddr) ∨
      (i < w.store.numNodes.toNat ∧
        (inviteSender env r off w).store.nodes i = w.store.nodes i) := by
  rw [inviteSender_eq hoff] at hi ⊢
  split at hi
  · next hacc =>
    rw [if_pos hacc]
    exact node_grprStoreAdd hle hi
  · next hacc =>
    rw [if_neg hacc]
    exact .inr ⟨hi, rfl⟩

theorem numNodes_inviteSender (hoff : serviceField env.serviceUuid r = some off)
    (hle : w.store.numNodes.toNat ≤ maxNodes) :
    (inviteSender env r off w).store.numNodes.toNat ≤ maxNodes := by
  rw [inviteSender_eq hoff]
  split
  · exact (numNodes_add hle).2
  · exact hle

theorem numNodes_updateSender (env : Env) (r : AdvReport) (off : Nat) (w : Watch) :
    (updateSender env r off w).store.numNodes.toNat = w.store.numNodes.toNat := by
  rw [← Store.length_addrs, addrs_updateSender, Store.length_addrs]

theorem numNodes_report (hle : w.store.numNodes.toNat ≤ maxNodes) :
    (grprProcessAdverts env r w).store.numNodes.toNat ≤ maxNodes := by
  unfold grprProcessAdverts
  cases hoff : serviceField env.serviceUuid r with
  | none => exact hle
  | some off =>
    show (processServiceField env r off w).store.numNodes.toNat ≤ maxNodes
    rw [processServiceField_eq, numNodes_updateSender]
    exact numNodes_inviteSender hoff hle

/-- **A node after a report**: it has the address the report came from and the avatar in it, or it
is as it was. -/
theorem node_report (hle : w.store.numNodes.toNat ≤ maxNodes) {i : Nat}
    (hi : i < (grprProcessAdverts env r w).store.numNodes.toNat) :
    (∃ off, serviceField env.serviceUuid r = some off ∧
        ((grprProcessAdverts env r w).store.nodes i).addr = r.wdAddr ∧
        ((grprProcessAdverts env r w).store.nodes i).avatar =
          (r.byte (off + 2 + avatarOffset)).toInt8) ∨
      (i < w.store.numNodes.toNat ∧
        (grprProcessAdverts env r w).store.nodes i = w.store.nodes i) := by
  unfold grprProcessAdverts at hi ⊢
  cases hoff : serviceField env.serviceUuid r with
  | none =>
    rw [hoff] at hi
    exact .inr ⟨hi, rfl⟩
  | some off =>
    simp only [hoff, processServiceField_eq] at hi ⊢
    rw [numNodes_updateSender] at hi
    have hnode := node_inviteSender hoff hle hi
    generalize inviteSender env r off w = u at hi hnode ⊢
    by_cases hknown : r.wdAddr ∈ u.store.addrs
    · rw [updateSender_known hknown]
      by_cases hidx : i = u.store.addrs.idxOf r.wdAddr
      · refine .inl ⟨off, rfl, ?_, ?_⟩ <;> simp [Watch.setNode, hidx, heardNode]
      · obtain ⟨hlt, hsame⟩ := hnode.resolve_left fun h => hidx h.2
        refine .inr ⟨hlt, ?_⟩
        rw [← hsame]
        simp [Watch.setNode, Function.update_of_ne hidx, Watch.call]
    · rw [updateSender_unknown hknown]
      exact .inr (hnode.resolve_left fun h => hknown h.1)

end

/-! ## The avatar on the air -/

/-- The avatar of the payload can be chosen. -/
def Watch.AirOk (w : Watch) : Prop := ∀ a, w.chip.advAvatar = some a → avatarInRange a

theorem Watch.AirOk.congr {w w' : Watch} (h : w.AirOk) (hadv : w'.chip.advData = w.chip.advData) :
    w'.AirOk := by
  unfold Watch.AirOk Chip.advAvatar
  rw [hadv]
  exact h

theorem airOk_startAdverts {w : Watch} (hw : avatarOk w.gAvatar) (env : Env) (flags : UInt8) :
    (grprStartAdverts env flags w).AirOk := by
  intro a ha
  rw [Chip.advAvatar, advData_startAdverts, payloadByte_advFields_avatar] at ha
  exact Option.some.inj ha ▸ hw.1

theorem airOk_startIfConfigured {w : Watch} (h : w.AirOk) {env : Env}
    (hok : avatarOk (startIfConfigured env w).gAvatar) : (startIfConfigured env w).AirOk := by
  unfold startIfConfigured at hok ⊢
  simp only at hok ⊢
  split at hok
  · next hv =>
    rw [if_pos hv]
    exact airOk_startAdverts (by simpa using hok) env 0
  · next hv =>
    rw [if_neg hv]
    exact h.congr rfl

theorem airOk_groupfsm {w : Watch} (h : w.AirOk) (hw : avatarOk w.gAvatar) (env : Env) :
    (groupfsmProcessEvent env .groupingStart w).AirOk ∧
      (groupfsmProcessEvent env .groupingStop w).AirOk := by
  cases hg : w.groupState with
  | idle =>
    rw [groupfsm_start hg, groupfsm_stop_idle hg]
    exact ⟨airOk_startAdverts hw env flagGrouping, h⟩
  | grouping =>
    rw [groupfsm_start_grouping hg, groupfsm_stop hg]
    exact ⟨h, airOk_startAdverts hw env 0⟩

theorem MainStep.airOk {env : Env} {e : MEvent} {w w' : Watch} (hs : MainStep env e w w')
    (h : w.AirOk) (hw : avatarOk w.gAvatar) (hok : avatarOk w'.gAvatar) : w'.AirOk := by
  cases hs with
  | boot => exact (airOk_startIfConfigured h (by simpa [displayOff] using hok)).congr rfl
  | confirm =>
    have hsaved : (saveConfig env (displayKeypress .accept w).2).AirOk := by
      obtain ⟨_, _, heq⟩ := saveConfig_eq env (displayKeypress .accept w).2
      rw [heq]
      exact h.congr rfl
    exact (airOk_startIfConfigured hsaved hok).congr rfl
  | push | wakeup => exact airOk_startAdverts (by simpa [displayPowerOn] using hw) env 0
  | hold =>
    have hon : (displayPowerOn w).AirOk := h.congr rfl
    exact (airOk_groupfsm hon hw env).1.congr rfl
  | holdRadar => exact (airOk_groupfsm h hw env).1
  | release => exact (airOk_groupfsm h hw env).2
  | releaseRadar => exact (airOk_groupfsm h hw env).2.congr rfl
  | nextKey | tick | tilt | untilt => exact h.congr (by simp)
  | toTime | toCfg | acceptKey | message | dismiss | blank | inactive | inactiveRadar |
    longInactive => exact h.congr rfl
  | ignored => exact h

/-! ## Watches on the air -/

/-- What holds of every watch on the air. -/
structure Watch.Tells (w : Watch) : Prop where
  config : ConfigInv (fun _ => True) w
  honest : w.HonestPayload
  air : w.AirOk
  count : w.store.numNodes.toNat ≤ maxNodes

theorem tells_created {nv : Nvram} (hsaved : SavedConfig (fun _ => True) nv) (env : Env)
    (hcount : (created env nv).store.numNodes.toNat ≤ maxNodes) : (created env nv).Tells := by
  have hconfig := configInv_created hsaved env
  refine ⟨hconfig, honestPayload_created env nv, ?_, hcount⟩
  have hbooting : (booting env nv).AirOk := by
    intro a ha
    have hdata : (booting env nv).chip.advData = [] := (onlyStore_booting env nv).advData
    rw [Chip.advAvatar, hdata] at ha
    cases ha
  have hok := hconfig.ram
  rw [created_eq] at hok ⊢
  exact (airOk_startIfConfigured hbooting (by simpa [displayOff] using hok)).congr rfl

theorem tells_act {w : Watch} (h : w.Tells) (i : OwnInput) : (i.act w).Tells := by
  have hcount : (i.act w).store.numNodes.toNat ≤ maxNodes := by
    rw [store_act]
    exact h.count
  cases i with
  | event env e =>
    have hconfig := h.config.powerStep (.input (.event env e)) (fun _ _ => trivial)
      fun _ => trivial
    exact ⟨hconfig, (mainStep env e w).honestPayload h.honest,
      (mainStep env e w).airOk h.air h.config.ram hconfig.ram, hcount⟩
  | advTimeout env =>
    exact ⟨h.config.powerStep (.input (.advTimeout env)) (fun _ _ => trivial) fun _ => trivial,
      honestPayload_startAdverts env w, airOk_startAdverts h.config.ram env 0, hcount⟩

theorem tells_report {w : Watch} (h : w.Tells) (env : Env) (r : AdvReport) :
    (muchiAdvertisementReport env r w).Tells := by
  have honly := onlyStore_report env r w
  exact ⟨h.config.powerStep (.input (.report env r)) (fun _ _ => trivial) fun _ => trivial,
    h.honest.congr honly.advData honly.discoverable honly.groupState, h.air.congr honly.advData,
    numNodes_report h.count⟩

theorem savedConfig_configured {a : UInt8} (h : avatarInRange a) :
    SavedConfig (fun _ => True) (configuredNvram a) :=
  ⟨.inr ⟨a, rfl, h, trivial⟩, fun _ h => by cases h⟩

/-- The service data of a payload is its second field. -/
theorem serviceField_payload {gen : List BleAdvField → List UInt8} (hgen : SerialisesAdvData gen)
    {env : Env} {flags : UInt8} {w₀ : Watch} {sender : Addr} {d : Air} {uuid : Vector UInt8 16}
    {off : Nat}
    (h : serviceField uuid (airReport gen sender (advFields env flags w₀) d) = some off) :
    off = 3 := by
  obtain ⟨hreach, hfield⟩ := serviceField_eq_some_iff.mp h
  rcases reaches_airReport hgen hreach with rfl | rfl
  · have hlen := (of_decide_eq_true hfield).1
    rw [byte_airReport (b := 2) hgen rfl] at hlen
    exact absurd hlen (by decide)
  · rfl

section

variable {ι : Type*} [DecidableEq ι] {gen : List BleAdvField → List UInt8} {addr : ι → Addr}
  {boot : ι → Env} {nv : ι → Nvram}

/-- In the run a watch with the address `a` put this avatar on the air, and there is a glyph for
it. -/
def OnAir (gen : List BleAdvField → List UInt8) (addr : ι → Addr) (boot : ι → Env) (nv : ι → Nvram)
    (is : List (MediumInput ι OwnInput Air)) (a : Addr) (avatar : Int8) : Prop :=
  ∃ B pre x, addr B = a ∧ pre ++ [.send B] <+: is ∧
    ((run (watches gen addr).step (createdAll boot nv) pre).parties B).chip.advAvatar = some x ∧
    x.toInt8 = avatar ∧ (u8gGetGlyph u8gUnifontUpper x).1.isSome = true

theorem OnAir.mono {is js : List (MediumInput ι OwnInput Air)} {a : Addr} {avatar : Int8}
    (h : OnAir gen addr boot nv is a avatar) (hjs : is <+: js) :
    OnAir gen addr boot nv js a avatar := by
  obtain ⟨B, pre, x, hB, hpre, hair⟩ := h
  exact ⟨B, pre, x, hB, hpre.trans hjs, hair⟩

/-- After the run, a stored node is as its watch found it when it was created, or its avatar was on
the air. -/
def NodesHeard (gen : List BleAdvField → List UInt8) (addr : ι → Addr) (boot : ι → Env)
    (nv : ι → Nvram) (is : List (MediumInput ι OwnInput Air))
    (n : Medium ι Watch (List BleAdvField)) : Prop :=
  ∀ A j, j < (n.parties A).store.numNodes.toNat →
    (j < (created (boot A) (nv A)).store.numNodes.toNat ∧
        (n.parties A).store.nodes j = (created (boot A) (nv A)).store.nodes j) ∨
      OnAir gen addr boot nv is ((n.parties A).store.nodes j).addr
        ((n.parties A).store.nodes j).avatar

section

variable (hsaved : ∀ i, SavedConfig (fun _ => True) (nv i))
  (hcount : ∀ i, (created (boot i) (nv i)).store.numNodes.toNat ≤ maxNodes)
include hsaved hcount

theorem always_tells (is : List (MediumInput ι OwnInput Air)) :
    Always (watches gen addr).step (fun n => ∀ i, (n.parties i).Tells) (createdAll boot nv) is := by
  refine Broadcast.always_parties (I := Watch.Tells) (fun _ a h => ?_) (fun _ _ d _ h => ?_)
    (fun i => ?_) is
  · exact tells_act h a
  · exact tells_report h d.env _
  · exact tells_created (hsaved i) (boot i) (hcount i)

/-- What is on the air is the payload of a watch, and the report of it carries its avatar. -/
theorem onAir_of_sent (hgen : SerialisesAdvData gen) {is : List (MediumInput ι OwnInput Air)}
    {k : Nat} {B : ι} {fields : List BleAdvField}
    (hk : (run (watches gen addr).step (createdAll boot nv) is).sent[k]? = some (B, fields))
    {uuid : Vector UInt8 16} {d : Air} {off : Nat}
    (hoff : serviceField uuid (airReport gen (addr B) fields d) = some off) :
    OnAir gen addr boot nv is (addr B)
      ((airReport gen (addr B) fields d).byte (off + 2 + avatarOffset)).toInt8 := by
  obtain ⟨pre, hpre, -, hsent⟩ := Broadcast.sent_provenance rfl is k B fields hk
  have htells : ((run (watches gen addr).step (createdAll boot nv) pre).parties B).Tells :=
    always_tells hsaved hcount is pre ((List.prefix_append ..).trans hpre) B
  obtain ⟨hdisc, hfields⟩ := Option.ite_none_right_eq_some.mp hsent
  have hfields := Option.some.inj hfields
  obtain ⟨env, flags, w₀, hadv, -⟩ := htells.honest hdisc
  have havatar : ((run (watches gen addr).step (createdAll boot nv) pre).parties B).chip.advAvatar =
      some w₀.gAvatar.1 := by
    rw [Chip.advAvatar, hadv, payloadByte_advFields_avatar]
  rw [← hfields, hadv] at hoff ⊢
  obtain rfl := serviceField_payload hgen hoff
  rw [byte_airReport hgen (advService env flags w₀).avatar_toBytes]
  exact ⟨B, pre, w₀.gAvatar.1, rfl, hpre, havatar, rfl, glyph_of_inRange (htells.air _ havatar)⟩

theorem nodesHeard_step (hgen : SerialisesAdvData gen) (pre : List (MediumInput ι OwnInput Air))
    (x : MediumInput ι OwnInput Air)
    (h : NodesHeard gen addr boot nv pre (run (watches gen addr).step (createdAll boot nv) pre)) :
    NodesHeard gen addr boot nv (pre ++ [x])
      ((watches gen addr).step (run (watches gen addr).step (createdAll boot nv) pre) x) := by
  intro A j hj
  have hmono {a : Addr} {avatar : Int8} (h : OnAir gen addr boot nv pre a avatar) :
      OnAir gen addr boot nv (pre ++ [x]) a avatar := h.mono (List.prefix_append ..)
  have htells : ((run (watches gen addr).step (createdAll boot nv) pre).parties A).Tells :=
    always_tells hsaved hcount pre pre (List.prefix_refl _) A
  rcases Broadcast.party_step (b := watches gen addr)
      (run (watches gen addr).step (createdAll boot nv) pre) x A with
    heq | ⟨own, -, heq⟩ | ⟨k, d, B, fields, -, hk, heq⟩ <;> rw [heq] at hj ⊢
  · exact (h A j hj).imp_right hmono
  · have hstore : ((watches gen addr).act
        ((run (watches gen addr).step (createdAll boot nv) pre).parties A) own).store =
          ((run (watches gen addr).step (createdAll boot nv) pre).parties A).store :=
      store_act _ own
    rw [hstore] at hj ⊢
    exact (h A j hj).imp_right hmono
  · rcases node_report htells.count hj with ⟨off, hoff, haddr, havatar⟩ | ⟨hold, hsame⟩
    · -- the node is the sender's now
      right
      show OnAir gen addr boot nv (pre ++ [x])
        ((grprProcessAdverts d.env (airReport gen (addr B) fields d) _).store.nodes j).addr
        ((grprProcessAdverts d.env (airReport gen (addr B) fields d) _).store.nodes j).avatar
      rw [haddr, havatar]
      exact hmono (onAir_of_sent hsaved hcount hgen hk hoff)
    · have hin := (h A j hold).imp_right hmono
      rw [← hsame] at hin
      exact hin

end

end

end Muchiwachi
