import Mathlib.Logic.Function.Basic

/-!
# The watch and its chip

`Watch` holds the statics of every source file of the application (one field each) and the
`Chip` they drive: the NVRAM records, the scanner, the advertiser, the output pins and the
panel. The firmware reaches the chip only through library calls; `Watch.call` issues one, which
changes the chip (`Chip.apply`) and is appended to the trace `calls`.

What the chip answers while one event is handled is an `Env`: which NVRAM accesses succeed, what
the clock reads, and the stack garbage an uninitialised local starts with.
-/

namespace Muchiwachi

/-! ## Enumerations of the headers -/

/-- `state_t` of `mainfsm.h`. -/
inductive MState where
  | boot | idle | cfg | time | radar | message
  deriving DecidableEq, Repr

/-- `enum mainfsm_event`. -/
inductive MEvent where
  | bootDone | tilt60 | untilt60 | nextPush | acceptPush | bothHold | bothRelease
  | tick1s | wakeup | shortInactive | longInactive | messageArrived
  deriving DecidableEq, Repr

/-- `state_t` of `groupfsm.c`. -/
inductive GState where
  | idle | grouping
  deriving DecidableEq, Repr

/-- `enum groupfsm_event`. -/
inductive GEvent where
  | groupingStart | groupingStop | groupingAdv
  deriving DecidableEq, Repr

/-- `enum cursors`. -/
inductive Cursor where
  | avatar | ok | none
  deriving DecidableEq, Repr

/-- `enum ble_scan_mode`, the modes the application requests. -/
inductive ScanMode where
  | noScan | lowScan
  deriving DecidableEq, Repr

/-- `enum ble_discover_mode`, the modes the application requests. -/
inductive DiscoverMode where
  | noDiscoverable | lowUndirectedDiscoverable
  deriving DecidableEq, Repr

/-- The output pins of the display (`muchi_iomap.h`). -/
inductive Pin where
  | display5vOn | displayExtcomin | backlight
  deriving DecidableEq, Repr

/-- The pictures `display.c` draws. -/
inductive Screen where
  | text | watch | radar | message | config
  deriving DecidableEq, Repr

/-! ## NVRAM -/

/-- NVRAM by record id. A stored record has 1 to 255 bytes; `[]` means no record. -/
abbrev Nvram := Nat → List UInt8

/-- `MUCHI_NVM_CONFIG_IS_VALID`. -/
def nvmConfigIsValid : Nat := 0x10
/-- `MUCHI_NVM_AVATAR_CODE`. -/
def nvmAvatarCode : Nat := 0x11
/-- `MUCHI_NVM_STORE_COUNT`. -/
def nvmStoreCount : Nat := 0x3D
/-- `MUCHI_NVM_STORE_BASE`: 50 entries, 2 nodes per entry. -/
def nvmStoreBase : Nat := 0x3E

/-! ## Addresses, reports, advertisement fields -/

/-- A device address, `WD_ADDRESS_SIZE` bytes. -/
abbrev Addr := Vector UInt8 6

/-- `HCIULP_ADV_PACKET_REPORT_WDATA`, with the memory that follows it: the walk over `data`
is bounded by `dataLen` only. -/
structure AdvReport where
  wdAddr : Addr
  dataLen : UInt8
  data : Vector UInt8 64
  rssi : Int8
  beyond : Nat → UInt8

/-- The byte at offset `off` from `evt->data`. The struct is packed: `rssi` follows `data`. -/
def AdvReport.byte (r : AdvReport) (off : Nat) : UInt8 :=
  if h : off < 64 then r.data[off]
  else if off = 64 then r.rssi.toUInt8 else r.beyond (off - 65)

/-- `BLE_ADV_FIELD`; of its `data` the bytes that are set. -/
structure BleAdvField where
  len : UInt8
  val : UInt8
  data : List UInt8
  deriving DecidableEq, Repr

/-! ## The chip -/

/-- A call into the firmware library. -/
inductive Call where
  | readNvram (vsId itemLength : Nat)
  | writeNvram (vsId : Nat) (payload : List UInt8) (ok : Bool)
  | readRtc
  | scan (mode : ScanMode)
  | generateAdvData (fields : List BleAdvField)
  | setTxPowerInAdv (dbm : Int)
  | discoverable (mode : DiscoverMode)
  | setPin (pin : Pin) (level : Bool)
  | draw (screen : Screen)
  deriving DecidableEq, Repr

/-- What the calls act on. `advData` is what `bleprofile_GenerateADVData` was last given,
`screen` the picture last drawn. -/
structure Chip where
  nvram : Nvram
  scanMode : ScanMode
  advData : List BleAdvField
  discoverable : DiscoverMode
  pins : Pin → Bool
  screen : Option Screen

@[simp] def Chip.apply (c : Chip) : Call → Chip
  | .readNvram _ _ => c
  | .writeNvram vsId payload ok =>
    { c with nvram := if ok then Function.update c.nvram vsId payload else c.nvram }
  | .readRtc => c
  | .scan mode => { c with scanMode := mode }
  | .generateAdvData fields => { c with advData := fields }
  | .setTxPowerInAdv _ => c
  | .discoverable mode => { c with discoverable := mode }
  | .setPin pin level => { c with pins := Function.update c.pins pin level }
  | .draw screen => { c with screen := some screen }

/-- The chip after a list of calls. -/
def Chip.applyAll (c : Chip) (cs : List Call) : Chip := cs.foldl Chip.apply c

@[simp] theorem Chip.applyAll_nil (c : Chip) : c.applyAll [] = c := rfl

@[simp] theorem Chip.applyAll_cons (c : Chip) (k : Call) (cs : List Call) :
    c.applyAll (k :: cs) = (c.apply k).applyAll cs := rfl

theorem Chip.applyAll_append (c : Chip) (as bs : List Call) :
    c.applyAll (as ++ bs) = (c.applyAll as).applyAll bs := List.foldl_append ..

/-- What the outside answers while one event is handled. No handler reads or writes one
record twice, so an outcome per record is an outcome per access. -/
structure Env where
  /-- Whether a read of the record succeeds. -/
  readOk : Nat → Bool
  /-- Whether a write of the record succeeds. -/
  writeOk : Nat → Bool
  /-- The low word of the 32768 Hz counter, by the number of calls made before it is read. -/
  rtc : Nat → UInt32
  /-- `bleprofile_ReadHandle` of `HANDLE_MUCHI_SERVICE_UUID`. -/
  serviceUuid : Vector UInt8 16
  /-- `bleprofile_ReadHandle` of `HANDLE_MUCHI_MESSAGE`. -/
  message : List UInt8
  /-- What the uninitialised local `config_valid` holds on entry. -/
  configValid : UInt8

/-- `UUID_MUCHI_SERVICE`, what the GATT database of the application has under
`HANDLE_MUCHI_SERVICE_UUID`. -/
def uuidMuchiService : Vector UInt8 16 :=
  #v[0x1b, 0xc5, 0xd5, 0xa5, 0x02, 0x00, 0xb2, 0xbe, 0xe3, 0x11, 0x6a, 0xf2, 0x00, 0xd4, 0xec, 0x01]

/-- Every access succeeds, the clock stands at zero, there is no message, and the stack holds
`garbage`. -/
def nominalEnv (garbage : UInt8) : Env where
  readOk _ := true
  writeOk _ := true
  rtc _ := 0
  serviceUuid := uuidMuchiService
  message := []
  configValid := garbage

/-! ## The watch -/

/-- `struct grouper_node`. -/
structure Node where
  addr : Addr
  timestamp : UInt16
  rssi : Int8
  avatar : Int8
  deriving DecidableEq, Repr

/-- A node of zeroed memory. -/
def Node.zero : Node := ⟨Vector.replicate 6 0, 0, 0, 0⟩

/-- `MAX_NODES`. -/
def maxNodes : Nat := 100

/-- `MUCHI_NODE_EXPIRATION_IN_S`. -/
def muchiNodeExpirationInS : Nat := 5

/-- The statics of `store.c`. `nodes` is the memory from `&nodes[0]` on in units of a node: the
array is its first `maxNodes` entries. -/
structure Store where
  nodes : Nat → Node
  numNodes : UInt8

structure Watch where
  /-- `cur_state` of `mainfsm.c`. -/
  mainState : MState
  ignoreWake : Bool
  /-- `cur_state` of `groupfsm.c`. -/
  groupState : GState
  displayOn : Bool
  currCursor : Cursor
  msg : String
  gAvatar : UInt8 × UInt8
  extcomin : Bool
  store : Store
  chip : Chip
  calls : List Call

/-- Issue a library call. -/
def Watch.call (k : Call) (w : Watch) : Watch :=
  { w with chip := w.chip.apply k, calls := w.calls ++ [k] }

section

variable (k : Call) (w : Watch)

@[simp] theorem mainState_call : (w.call k).mainState = w.mainState := rfl
@[simp] theorem ignoreWake_call : (w.call k).ignoreWake = w.ignoreWake := rfl
@[simp] theorem groupState_call : (w.call k).groupState = w.groupState := rfl
@[simp] theorem displayOn_call : (w.call k).displayOn = w.displayOn := rfl
@[simp] theorem currCursor_call : (w.call k).currCursor = w.currCursor := rfl
@[simp] theorem msg_call : (w.call k).msg = w.msg := rfl
@[simp] theorem gAvatar_call : (w.call k).gAvatar = w.gAvatar := rfl
@[simp] theorem store_call : (w.call k).store = w.store := rfl
@[simp] theorem chip_call : (w.call k).chip = w.chip.apply k := rfl

end

/-- RAM after a reset, over NVRAM contents `nv`: statics at their initialisers, nothing
requested from the radio yet. -/
def powerOn (nv : Nvram) : Watch where
  mainState := .boot
  ignoreWake := false
  groupState := .idle
  displayOn := true
  currCursor := .avatar
  msg := ""
  gAvatar := (56, 0)
  extcomin := false
  store := ⟨fun _ => Node.zero, 0⟩
  chip := ⟨nv, .noScan, [], .noDiscoverable, fun _ => false, none⟩
  calls := []

/-- `bleprofile_ReadNVRAM`: the bytes it copies to the buffer, none when the record is absent or
the read fails. Byte `i` of the caller's buffer becomes byte `i` of these where there is one. -/
def bleprofileReadNVRAM (env : Env) (vsId itemLength : Nat) (w : Watch) : List UInt8 × Watch :=
  (if env.readOk vsId then (w.chip.nvram vsId).take itemLength else [],
    w.call (.readNvram vsId itemLength))

/-- `bleprofile_WriteNVRAM`: the number of bytes written, and the watch after it. -/
def bleprofileWriteNVRAM (env : Env) (vsId : Nat) (payload : List UInt8) (w : Watch) :
    Nat × Watch :=
  (if env.writeOk vsId then payload.length else 0,
    w.call (.writeNvram vsId payload (env.writeOk vsId)))

end Muchiwachi
