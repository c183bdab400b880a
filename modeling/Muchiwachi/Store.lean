import Mathlib.Data.List.Basic
import Muchiwachi.Basic

/-!
# The peer store (`store.c`)

Up to `maxNodes` peers, saved two to an NVRAM record (`nvmStoreBase + i / 2` holds nodes `i` and
`i + 1`) with their number in a record of its own, written last.
-/

namespace Muchiwachi

/-! ## A node in memory -/

/-- The bytes of the packed `struct grouper_node`, little-endian. -/
def Node.toBytes (n : Node) : List UInt8 :=
  n.addr.toList ++ [n.timestamp.toUInt8, (n.timestamp >>> 8).toUInt8, n.rssi.toUInt8,
    n.avatar.toUInt8]

/-- `sizeof(nodes[0])`. -/
def nodeSize : Nat := 10

/-- The node that the bytes at offset `off` of `bs` form. -/
def Node.ofBytes (bs : List UInt8) (off : Nat) : Node where
  addr := Vector.ofFn fun j => bs.getD (off + j) 0
  timestamp := (bs.getD (off + 6) 0).toUInt16 ||| ((bs.getD (off + 7) 0).toUInt16 <<< 8)
  rssi := (bs.getD (off + 8) 0).toInt8
  avatar := (bs.getD (off + 9) 0).toInt8

/-- `bs` copied over the start of `buf`. -/
def overlay (bs buf : List UInt8) : List UInt8 := bs ++ buf.drop bs.length

/-- The two nodes from index `i` on, as one block of bytes. -/
def Store.pairBytes (s : Store) (i : Nat) : List UInt8 :=
  (s.nodes i).toBytes ++ (s.nodes (i + 1)).toBytes

/-- The store with bytes `bs` copied to `&nodes[i]`, at most two nodes of them. -/
def Store.setPairBytes (s : Store) (i : Nat) (bs : List UInt8) : Store :=
  let new := overlay bs (s.pairBytes i)
  let nodes := Function.update s.nodes i (Node.ofBytes new 0)
  { s with nodes := Function.update nodes (i + 1) (Node.ofBytes new nodeSize) }

/-- The address list `nodes[0..num_nodes)`. -/
def Store.addrs (s : Store) : List Addr :=
  (List.range s.numNodes.toNat).map fun i => (s.nodes i).addr

/-! ## Loading and saving -/

/-- One turn of the loop of `load_from_nvram`, at `i = 2 * k`. -/
def loadPair (env : Env) (w : Watch) (k : Nat) : Watch :=
  let r := bleprofileReadNVRAM env (nvmStoreBase + k) (2 * nodeSize) w
  { r.2 with store := r.2.store.setPairBytes (2 * k) r.1 }

def loadFromNvram (env : Env) (w : Watch) : Watch :=
  (List.range ((w.store.numNodes.toNat + 1) / 2)).foldl (loadPair env) w

/-- One turn of the loop of `save_to_nvram`, at `i = 2 * k`. -/
def savePair (env : Env) (w : Watch) (k : Nat) : Watch :=
  (bleprofileWriteNVRAM env (nvmStoreBase + k) (w.store.pairBytes (2 * k)) w).2

def saveToNvram (env : Env) (w : Watch) : Watch :=
  let w := (List.range ((w.store.numNodes.toNat + 1) / 2)).foldl (savePair env) w
  (bleprofileWriteNVRAM env nvmStoreCount [w.store.numNodes] w).2

def grprStoreInit (env : Env) (w : Watch) : Watch :=
  -- memset clears the array, not what lies behind it
  let nodes := fun i => if i < maxNodes then Node.zero else w.store.nodes i
  let r := bleprofileReadNVRAM env nvmStoreCount 1 w
  let numNodes := r.1.getD 0 w.store.numNodes
  let w := { r.2 with store := ⟨nodes, numNodes⟩ }
  if numNodes ≠ 0 then loadFromNvram env w else w

/-! ## Operations -/

/-- `__grpr_store_lookup`. `none` is the null pointer. -/
def grprStoreLookup (addr : Option Addr) (s : Store) : Int :=
  match addr with
  | none => -1
  | some a =>
    match (List.range s.numNodes.toNat).find? fun i => (s.nodes i).addr == a with
    | some i => i
    | none => -1

def grprStoreGet (addr : Option Addr) (s : Store) : Int := grprStoreLookup addr s

def grprStoreGetFirst (s : Store) : Int := if s.numNodes > 0 then 0 else -1

def grprStoreGetNext (idx : Int) (s : Store) : Int :=
  if idx + 1 < s.numNodes.toNat then idx + 1 else -1

/-- The guard of the operations that take an index. -/
def Store.badIdx (s : Store) (idx : Int) : Prop := idx < 0 ∨ idx ≥ s.numNodes.toNat

instance (s : Store) (idx : Int) : Decidable (s.badIdx idx) :=
  inferInstanceAs (Decidable (_ ∨ _))

/-- The watch with node `idx` changed by `f`. -/
def Watch.setNode (idx : Nat) (f : Node → Node) (w : Watch) : Watch :=
  { w with store := { w.store with
      nodes := Function.update w.store.nodes idx (f (w.store.nodes idx)) } }

/-- `rtc_getRTCRawClock`, in seconds: every 2^15 cycles is one. -/
def clockSeconds (env : Env) (w : Watch) : UInt32 := env.rtc w.calls.length >>> 15

def grprStoreTimestamp (env : Env) (idx : Int) (w : Watch) : Int × Watch :=
  if w.store.badIdx idx then (-1, w)
  else
    let now := clockSeconds env w
    (0, (w.call .readRtc).setNode idx.toNat fun n => { n with timestamp := now.toUInt16 })

/-- `IS_EXPIRED`. -/
def isExpired (node : Node) (now : UInt32) : Bool :=
  node.timestamp.toNat + muchiNodeExpirationInS < now.toNat

def grprStoreIsExpired (env : Env) (idx : Nat) (w : Watch) : Bool × Watch :=
  (isExpired (w.store.nodes idx) (clockSeconds env w), w.call .readRtc)

/-- One turn of the loop of `grpr_store_get_total_expired`. -/
def countExpired (env : Env) (r : Nat × Watch) (i : Nat) : Nat × Watch :=
  let e := grprStoreIsExpired env i r.2
  (if e.1 then r.1 + 1 else r.1, e.2)

def grprStoreGetTotalExpired (env : Env) (w : Watch) : Nat × Watch :=
  (List.range w.store.numNodes.toNat).foldl (countExpired env) (0, w)

def grprStoreSetRssi (idx : Int) (rssi : Int8) (w : Watch) : Int × Watch :=
  if w.store.badIdx idx then (-1, w)
  else (0, w.setNode idx.toNat fun n => { n with rssi := rssi })

def grprStoreGetRssi (idx : Int) (s : Store) : Int8 :=
  if s.badIdx idx then -1 else (s.nodes idx.toNat).rssi

def grprStoreSetAvatar (idx : Int) (avatar : Int8) (w : Watch) : Int × Watch :=
  if w.store.badIdx idx then (-1, w)
  else (0, w.setNode idx.toNat fun n => { n with avatar := avatar })

def grprStoreGetAvatar (idx : Int) (s : Store) : Int8 :=
  if s.badIdx idx then -1 else (s.nodes idx.toNat).avatar

def grprStoreAdd (env : Env) (addr : Option Addr) (w : Watch) : Int × Watch :=
  match addr with
  | none => (-1, w)
  | some a =>
    if w.store.numNodes.toNat = maxNodes then (-1, w)
    else
      let i := grprStoreLookup addr w.store
      if i < 0 then
        -- a new node: i = num_nodes++
        let i : Nat := w.store.numNodes.toNat
        let w := { w with store := { w.store with numNodes := w.store.numNodes + 1 } }
        let w := (grprStoreTimestamp env i w).2
        let w := w.setNode i fun n => { n with addr := a }
        (i, saveToNvram env w)
      else
        let w := (grprStoreTimestamp env i w).2
        (i, w.setNode i.toNat fun n => { n with addr := a })

end Muchiwachi
