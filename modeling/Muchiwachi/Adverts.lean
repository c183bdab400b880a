import Muchiwachi.Basic

/-!
# Building and scanning advertisements (`adverts.c`)

`grprStartAdverts` installs two fields: the flags, and the service data
(`struct muchi_service_data`) under the service UUID. `advLoop` is the `while(1)` loop of
`grpr_process_adverts`, which looks for a field of the second kind; what is done with the field
is in `Muchiwachi.Reports`.
-/

namespace Muchiwachi

/-- `ADV_FLAGS`. -/
def advFlags : UInt8 := 0x01
/-- `ADV_SERVICE_DATA_UUID128`. -/
def advServiceDataUuid128 : UInt8 := 0x21
/-- `LE_GENERAL_DISCOVERABLE`. -/
def leGeneralDiscoverable : UInt8 := 0x02
/-- `BR_EDR_NOT_SUPPORTED`. -/
def brEdrNotSupported : UInt8 := 0x04
/-- `FLAG_GROUPING`. -/
def flagGrouping : UInt8 := 0x1

/-! ## Service data -/

/-- `struct muchi_service_data`. -/
structure MuchiServiceData where
  uuid : Vector UInt8 16
  groupid : UInt32
  state : UInt8
  msgid : UInt16
  msg : UInt16
  avatar : UInt8
  deriving DecidableEq, Repr

/-- The bytes of the packed struct, little-endian. -/
def MuchiServiceData.toBytes (d : MuchiServiceData) : List UInt8 :=
  d.uuid.toList ++ [d.groupid.toUInt8, (d.groupid >>> 8).toUInt8, (d.groupid >>> 16).toUInt8,
    (d.groupid >>> 24).toUInt8, d.state, d.msgid.toUInt8, (d.msgid >>> 8).toUInt8,
    d.msg.toUInt8, (d.msg >>> 8).toUInt8, d.avatar]

/-- `sizeof(struct muchi_service_data)`. -/
def serviceDataSize : Nat := 26

/-- `offsetof(struct muchi_service_data, state)`. -/
def stateOffset : Nat := 20

/-- `offsetof(struct muchi_service_data, avatar)`. -/
def avatarOffset : Nat := 25

theorem MuchiServiceData.length_toBytes (d : MuchiServiceData) :
    d.toBytes.length = serviceDataSize := by
  simp [toBytes, serviceDataSize]

theorem MuchiServiceData.state_toBytes (d : MuchiServiceData) :
    d.toBytes[stateOffset]? = some d.state := by
  simp [toBytes, stateOffset]

theorem MuchiServiceData.avatar_toBytes (d : MuchiServiceData) :
    d.toBytes[avatarOffset]? = some d.avatar := by
  simp [toBytes, avatarOffset]

/-! ## Starting and stopping -/

def grprStopAdverts (w : Watch) : Watch := w.call (.discoverable .noDiscoverable)

/-- The two fields `grpr_start_adverts` builds. -/
def advFields (env : Env) (flags : UInt8) (w : Watch) : List BleAdvField :=
  let advData : MuchiServiceData :=
    { uuid := env.serviceUuid, groupid := 0, state := flags, msgid := 0, msg := 0,
      avatar := w.gAvatar.1 }
  [{ len := 1 + 1, val := advFlags, data := [leGeneralDiscoverable ||| brEdrNotSupported] },
    { len := UInt8.ofNat serviceDataSize + 1, val := advServiceDataUuid128,
      data := advData.toBytes }]

def grprStartAdverts (env : Env) (flags : UInt8) (w : Watch) : Watch :=
  let adv := advFields env flags w
  ((w.call (.generateAdvData adv)).call (.setTxPowerInAdv 4)).call
    (.discoverable .lowUndirectedDiscoverable)

section

variable (env : Env) (flags : UInt8) (w : Watch)

/-- `grpr_start_adverts` changes the advertiser and the trace. -/
theorem grprStartAdverts_eq :
    grprStartAdverts env flags w = { w with
      chip := { w.chip with
        advData := advFields env flags w, discoverable := .lowUndirectedDiscoverable }
      calls := w.calls ++ [.generateAdvData (advFields env flags w)] ++ [.setTxPowerInAdv 4] ++
        [.discoverable .lowUndirectedDiscoverable] } := by
  simp only [grprStartAdverts, Watch.call, Chip.apply]

@[simp] theorem mainState_startAdverts :
    (grprStartAdverts env flags w).mainState = w.mainState := rfl
@[simp] theorem ignoreWake_startAdverts :
    (grprStartAdverts env flags w).ignoreWake = w.ignoreWake := rfl
@[simp] theorem groupState_startAdverts :
    (grprStartAdverts env flags w).groupState = w.groupState := rfl
@[simp] theorem displayOn_startAdverts :
    (grprStartAdverts env flags w).displayOn = w.displayOn := rfl
@[simp] theorem currCursor_startAdverts :
    (grprStartAdverts env flags w).currCursor = w.currCursor := rfl
@[simp] theorem gAvatar_startAdverts :
    (grprStartAdverts env flags w).gAvatar = w.gAvatar := rfl
@[simp] theorem store_startAdverts :
    (grprStartAdverts env flags w).store = w.store := rfl
@[simp] theorem nvram_startAdverts :
    (grprStartAdverts env flags w).chip.nvram = w.chip.nvram := rfl
@[simp] theorem scanMode_startAdverts :
    (grprStartAdverts env flags w).chip.scanMode = w.chip.scanMode := rfl
@[simp] theorem advData_startAdverts :
    (grprStartAdverts env flags w).chip.advData = advFields env flags w := rfl
@[simp] theorem discoverable_startAdverts :
    (grprStartAdverts env flags w).chip.discoverable = .lowUndirectedDiscoverable := rfl

end

/-- The byte at offset `off` of the service data of a payload. -/
def payloadByte (off : Nat) (fields : List BleAdvField) : Option UInt8 :=
  fields[1]?.bind fun f => f.data[off]?

/-- The state byte of the installed payload has `FLAG_GROUPING`. -/
def Chip.saysGrouping (c : Chip) : Bool :=
  (payloadByte stateOffset c.advData).any fun state => state &&& flagGrouping ≠ 0

/-- The avatar byte of the installed payload. -/
def Chip.advAvatar (c : Chip) : Option UInt8 := payloadByte avatarOffset c.advData

theorem payloadByte_advFields_state (env : Env) (flags : UInt8) (w : Watch) :
    payloadByte stateOffset (advFields env flags w) = some flags :=
  MuchiServiceData.state_toBytes _

theorem payloadByte_advFields_avatar (env : Env) (flags : UInt8) (w : Watch) :
    payloadByte avatarOffset (advFields env flags w) = some w.gAvatar.1 :=
  MuchiServiceData.avatar_toBytes _

/-! ## Scanning a report -/

/-- The field at offset `off` is service data of this service. -/
def isServiceField (uuid : Vector UInt8 16) (r : AdvReport) (off : Nat) : Bool :=
  (r.byte off).toNat = serviceDataSize + 1 ∧ r.byte (off + 1) = advServiceDataUuid128 ∧
    Vector.ofFn (fun i : Fin 16 => r.byte (off + 2 + i)) = uuid

/-- The loop of `grpr_process_adverts` from offset `off` on: the offset of the first service
field it reaches, if any. The outer `none` is fuel running out. -/
def advLoop (uuid : Vector UInt8 16) (r : AdvReport) : Nat → Nat → Option (Option Nat)
  | 0, _ => none
  | fuel + 1, off =>
    if isServiceField uuid r off then some (some off)
    else
      let off := off + ((r.byte off).toNat + 1)
      if off ≥ r.dataLen.toNat then some none else advLoop uuid r fuel off

/-- Each turn moves the cursor, so as many turns as there are bytes left are enough. -/
theorem advLoop_isSome (uuid : Vector UInt8 16) (r : AdvReport) :
    ∀ fuel off, 0 < fuel → r.dataLen.toNat ≤ off + fuel → (advLoop uuid r fuel off).isSome := by
  intro fuel
  induction fuel with
  | zero => intro off h; omega
  | succ fuel ih =>
    intro off _ hle
    unfold advLoop
    split
    · rfl
    · simp only
      split
      · rfl
      · next hlt => exact ih _ (by omega) (by omega)

/-- The service field `grpr_process_adverts` reaches in a report. -/
def serviceField (uuid : Vector UInt8 16) (r : AdvReport) : Option Nat :=
  (advLoop uuid r (max 1 r.dataLen.toNat) 0).join

/-- The loop of `grpr_process_adverts` ends: `serviceField` is its result. -/
theorem advLoop_eq_serviceField (uuid : Vector UInt8 16) (r : AdvReport) :
    advLoop uuid r (max 1 r.dataLen.toNat) 0 = some (serviceField uuid r) := by
  have h := advLoop_isSome uuid r (max 1 r.dataLen.toNat) 0 (by omega) (by omega)
  obtain ⟨x, hx⟩ := Option.isSome_iff_exists.mp h
  simp [serviceField, hx]

/-- The offsets the loop brings its cursor to. -/
inductive Reaches (uuid : Vector UInt8 16) (r : AdvReport) : Nat → Prop where
  | start : Reaches uuid r 0
  | next {off : Nat} : Reaches uuid r off → isServiceField uuid r off = false →
      off + ((r.byte off).toNat + 1) < r.dataLen.toNat →
      Reaches uuid r (off + ((r.byte off).toNat + 1))

theorem reaches_of_advLoop {uuid : Vector UInt8 16} {r : AdvReport} :
    ∀ {fuel off x : Nat}, Reaches uuid r off → advLoop uuid r fuel off = some (some x) →
      Reaches uuid r x ∧ isServiceField uuid r x = true := by
  intro fuel
  induction fuel with
  | zero => intro off x _ h; simp [advLoop] at h
  | succ fuel ih =>
    intro off x hoff h
    unfold advLoop at h
    split at h
    · next hf =>
      cases h
      exact ⟨hoff, hf⟩
    · next hf =>
      simp only at h
      split at h
      · cases h
      · next hlt => exact ih (hoff.next (by simpa using hf) (by omega)) h

/-- From an offset it reaches, the loop goes on as it does from the start. -/
theorem advLoop_of_reaches {uuid : Vector UInt8 16} {r : AdvReport} {off : Nat}
    (h : Reaches uuid r off) : ∃ fuel, 0 < fuel ∧ r.dataLen.toNat ≤ off + fuel ∧
      advLoop uuid r (max 1 r.dataLen.toNat) 0 = advLoop uuid r fuel off := by
  induction h with
  | start => exact ⟨max 1 r.dataLen.toNat, by omega, by omega, rfl⟩
  | @next off _ hf hlt ih =>
    obtain ⟨fuel, hpos, hle, heq⟩ := ih
    obtain ⟨f, rfl⟩ : ∃ f, fuel = f + 1 := ⟨fuel - 1, by omega⟩
    refine ⟨f, by omega, by omega, heq.trans ?_⟩
    rw [advLoop, if_neg (by simp [hf])]
    exact if_neg (by omega)

/-- `serviceField` is the one service field the loop reaches. -/
theorem serviceField_eq_some_iff {uuid : Vector UInt8 16} {r : AdvReport} {off : Nat} :
    serviceField uuid r = some off ↔ Reaches uuid r off ∧ isServiceField uuid r off = true := by
  constructor
  · intro h
    exact reaches_of_advLoop .start ((advLoop_eq_serviceField uuid r).trans (congrArg some h))
  · rintro ⟨hreach, hf⟩
    obtain ⟨fuel, hpos, -, heq⟩ := advLoop_of_reaches hreach
    obtain ⟨f, rfl⟩ : ∃ f, fuel = f + 1 := ⟨fuel - 1, by omega⟩
    rw [advLoop_eq_serviceField, advLoop, if_pos hf] at heq
    exact Option.some.inj heq

end Muchiwachi
