import Muchiwachi.Lib.BoundedLog
import Muchiwachi.Store
import Muchiwachi.Trace

/-!
# What the store operations do

The frame of the store's code (`OnlyStore`), what a lookup finds in the address list, the three
outcomes of `grpr_store_add`, and the writes of `save_to_nvram`.
-/

namespace Muchiwachi

open Lib

/-! ## Frame -/

/-- Nothing but the store, the NVRAM and the trace differs. -/
def OnlyStore (w w' : Watch) : Prop :=
  w' = { w with store := w'.store, chip := { w.chip with nvram := w'.chip.nvram },
                calls := w'.calls }

theorem OnlyStore.refl (w : Watch) : OnlyStore w w := rfl

theorem OnlyStore.trans {a b c : Watch} (h1 : OnlyStore a b) (h2 : OnlyStore b c) :
    OnlyStore a c := by
  unfold OnlyStore at *
  rw [h2, h1]

theorem OnlyStore.store {w : Watch} (s : Store) : OnlyStore w { w with store := s } := rfl

section

variable {w w' : Watch} (h : OnlyStore w w')
include h

theorem OnlyStore.mainState : w'.mainState = w.mainState := congrArg (·.mainState) h
theorem OnlyStore.ignoreWake : w'.ignoreWake = w.ignoreWake := congrArg (·.ignoreWake) h
theorem OnlyStore.groupState : w'.groupState = w.groupState := congrArg (·.groupState) h
theorem OnlyStore.displayOn : w'.displayOn = w.displayOn := congrArg (·.displayOn) h
theorem OnlyStore.currCursor : w'.currCursor = w.currCursor := congrArg (·.currCursor) h
theorem OnlyStore.msg : w'.msg = w.msg := congrArg (·.msg) h
theorem OnlyStore.gAvatar : w'.gAvatar = w.gAvatar := congrArg (·.gAvatar) h
theorem OnlyStore.scanMode : w'.chip.scanMode = w.chip.scanMode :=
  congrArg (fun w => w.chip.scanMode) h
theorem OnlyStore.advData : w'.chip.advData = w.chip.advData := congrArg (fun w => w.chip.advData) h
theorem OnlyStore.discoverable : w'.chip.discoverable = w.chip.discoverable :=
  congrArg (fun w => w.chip.discoverable) h

end

theorem onlyStore_foldl {α : Type} {f : Watch → α → Watch} (h : ∀ w a, OnlyStore w (f w a))
    (l : List α) (w : Watch) : OnlyStore w (l.foldl f w) := by
  induction l generalizing w with
  | nil => exact .refl w
  | cons a l ih => exact (h w a).trans (ih (f w a))

theorem onlyStore_write (env : Env) (vsId : Nat) (payload : List UInt8) (w : Watch) :
    OnlyStore w (bleprofileWriteNVRAM env vsId payload w).2 := rfl

theorem onlyStore_timestamp (env : Env) (idx : Int) (w : Watch) :
    OnlyStore w (grprStoreTimestamp env idx w).2 := by
  unfold grprStoreTimestamp
  split <;> rfl

theorem onlyStore_setRssi (idx : Int) (rssi : Int8) (w : Watch) :
    OnlyStore w (grprStoreSetRssi idx rssi w).2 := by
  unfold grprStoreSetRssi
  split <;> rfl

theorem onlyStore_setAvatar (idx : Int) (avatar : Int8) (w : Watch) :
    OnlyStore w (grprStoreSetAvatar idx avatar w).2 := by
  unfold grprStoreSetAvatar
  split <;> rfl

theorem onlyStore_saveToNvram (env : Env) (w : Watch) : OnlyStore w (saveToNvram env w) :=
  (onlyStore_foldl (fun w _ => onlyStore_write env _ _ w) _ w).trans (onlyStore_write ..)

theorem onlyStore_init (env : Env) (w : Watch) : OnlyStore w (grprStoreInit env w) := by
  have hload : ∀ w k, OnlyStore w (loadPair env w k) := fun w k => rfl
  unfold grprStoreInit
  simp only
  split
  · refine OnlyStore.trans ?_ (onlyStore_foldl hload _ _)
    rfl
  · rfl

theorem onlyStore_add (env : Env) (addr : Option Addr) (w : Watch) :
    OnlyStore w (grprStoreAdd env addr w).2 := by
  unfold grprStoreAdd
  rcases addr with _ | a
  · rfl
  · simp only
    split
    · rfl
    · split
      · refine OnlyStore.trans ?_ (onlyStore_saveToNvram env _)
        exact (OnlyStore.store _).trans ((onlyStore_timestamp ..).trans (OnlyStore.store _))
      · exact (onlyStore_timestamp ..).trans (OnlyStore.store _)

/-! ## The address list -/

@[simp] theorem Store.length_addrs (s : Store) : s.addrs.length = s.numNodes.toNat := by
  simp [Store.addrs]

theorem Store.getElem?_addrs {s : Store} {i : Nat} (h : i < s.numNodes.toNat) :
    s.addrs[i]? = some (s.nodes i).addr := by
  simp [Store.addrs, h]

/-- A lookup finds the first position of the address in the list. -/
theorem grprStoreLookup_of_mem {a : Addr} {s : Store} (h : a ∈ s.addrs) :
    grprStoreLookup (some a) s = (s.addrs.idxOf a : Int) := by
  simp only [grprStoreLookup, find?_range_of_mem (f := fun i => (s.nodes i).addr) h]
  rfl

theorem grprStoreLookup_of_not_mem {a : Addr} {s : Store} (h : a ∉ s.addrs) :
    grprStoreLookup (some a) s = -1 := by
  simp only [grprStoreLookup, find?_range_of_not_mem (f := fun i => (s.nodes i).addr) h]

/-- Changing a node without touching its address keeps the list. -/
theorem Watch.addrs_setNode {w : Watch} {i : Nat} {f : Node → Node}
    (hf : (f (w.store.nodes i)).addr = (w.store.nodes i).addr) :
    (w.setNode i f).store.addrs = w.store.addrs := by
  unfold Store.addrs Watch.setNode
  apply List.map_congr_left
  intro j _
  by_cases hj : j = i
  · subst hj; simpa using hf
  · simp [Function.update_of_ne hj]

@[simp] theorem Watch.numNodes_setNode (w : Watch) (i : Nat) (f : Node → Node) :
    (w.setNode i f).store.numNodes = w.store.numNodes := rfl

theorem numNodes_timestamp (env : Env) (idx : Int) (w : Watch) :
    (grprStoreTimestamp env idx w).2.store.numNodes = w.store.numNodes := by
  unfold grprStoreTimestamp
  split <;> rfl

theorem addrs_timestamp (env : Env) (idx : Int) (w : Watch) :
    (grprStoreTimestamp env idx w).2.store.addrs = w.store.addrs := by
  unfold grprStoreTimestamp
  split
  · rfl
  · exact Watch.addrs_setNode rfl

theorem addrs_setRssi (idx : Int) (rssi : Int8) (w : Watch) :
    (grprStoreSetRssi idx rssi w).2.store.addrs = w.store.addrs := by
  unfold grprStoreSetRssi
  split
  · rfl
  · exact Watch.addrs_setNode rfl

theorem addrs_setAvatar (idx : Int) (avatar : Int8) (w : Watch) :
    (grprStoreSetAvatar idx avatar w).2.store.addrs = w.store.addrs := by
  unfold grprStoreSetAvatar
  split
  · rfl
  · exact Watch.addrs_setNode rfl

/-! ## Operations on a stored node -/

section

variable {w : Watch} {i : Nat} (h : i < w.store.numNodes.toNat)
include h

theorem not_badIdx : ¬ w.store.badIdx i := by
  unfold Store.badIdx
  omega

theorem grprStoreTimestamp_stored (env : Env) : grprStoreTimestamp env i w =
    (0, (w.call .readRtc).setNode i fun n =>
      { n with timestamp := (clockSeconds env w).toUInt16 }) := if_neg (not_badIdx h)

theorem grprStoreSetRssi_stored (rssi : Int8) :
    grprStoreSetRssi i rssi w = (0, w.setNode i fun n => { n with rssi := rssi }) :=
  if_neg (not_badIdx h)

theorem grprStoreSetAvatar_stored (avatar : Int8) :
    grprStoreSetAvatar i avatar w = (0, w.setNode i fun n => { n with avatar := avatar }) :=
  if_neg (not_badIdx h)

end

/-! ## Loading -/

section

variable (env : Env) (w : Watch)

/-- The turns for the first `m` pairs of the loop leave the records and the count alone. -/
theorem frame_foldl_loadPair (m : Nat) :
    ((List.range m).foldl (loadPair env) w).chip.nvram = w.chip.nvram ∧
      ((List.range m).foldl (loadPair env) w).store.numNodes = w.store.numNodes := by
  induction m with
  | zero => exact ⟨rfl, rfl⟩
  | succ m ih =>
    rw [List.range_succ, List.foldl_append, List.foldl_cons, List.foldl_nil]
    exact ih

/-- The count `grpr_store_init` goes by: where the read delivers nothing, the one in RAM. -/
def countRead : UInt8 := (bleprofileReadNVRAM env nvmStoreCount 1 w).1.getD 0 w.store.numNodes

/-- The watch before the nodes are loaded. -/
def emptied : Watch :=
  { w.call (.readNvram nvmStoreCount 1) with
    store := ⟨fun i => if i < maxNodes then Node.zero else w.store.nodes i, countRead env w⟩ }

theorem grprStoreInit_eq : grprStoreInit env w = loadFromNvram env (emptied env w) := by
  show (if countRead env w ≠ 0 then loadFromNvram env (emptied env w) else emptied env w) = _
  split
  · rfl
  · next hzero =>
    have hcount : (emptied env w).store.numNodes = 0 := not_not.mp hzero
    simp [loadFromNvram, hcount]

theorem numNodes_init : (grprStoreInit env w).store.numNodes = countRead env w := by
  rw [grprStoreInit_eq]
  exact (frame_foldl_loadPair env (emptied env w) _).2

end

/-! ## The calls of the store -/

section

variable {P : Call → Prop}

theorem issues_timestamp (hrtc : P .readRtc) (env : Env) (idx : Int) (w : Watch) :
    Issues P w (grprStoreTimestamp env idx w).2 := by
  unfold grprStoreTimestamp
  split
  · exact .ram rfl rfl
  · exact (Issues.call hrtc w).then_ram rfl rfl

theorem issues_setRssi (idx : Int) (rssi : Int8) (w : Watch) :
    Issues P w (grprStoreSetRssi idx rssi w).2 := by
  unfold grprStoreSetRssi
  split <;> exact .ram rfl rfl

theorem issues_setAvatar (idx : Int) (avatar : Int8) (w : Watch) :
    Issues P w (grprStoreSetAvatar idx avatar w).2 := by
  unfold grprStoreSetAvatar
  split <;> exact .ram rfl rfl

theorem issues_saveToNvram (env : Env) (w : Watch)
    (hpair : ∀ k payload ok, 2 * k < w.store.numNodes.toNat →
      P (.writeNvram (nvmStoreBase + k) payload ok))
    (hcount : ∀ payload ok, P (.writeNvram nvmStoreCount payload ok)) :
    Issues P w (saveToNvram env w) := by
  have hpairs : ∀ v, ∀ k ∈ List.range ((w.store.numNodes.toNat + 1) / 2),
      Issues P v (savePair env v k) := by
    intro v k hk
    have hk := List.mem_range.mp hk
    exact .call (hpair k _ _ (by omega)) v
  exact (Issues.foldl hpairs w).trans (.call (hcount _ _) _)

/-- Loading reads the count, and the records of the pairs it stands for. -/
theorem issues_init (env : Env) (w : Watch) (hcount : P (.readNvram nvmStoreCount 1))
    (hpair : ∀ k, 2 * k < (countRead env w).toNat →
      P (.readNvram (nvmStoreBase + k) (2 * nodeSize))) : Issues P w (grprStoreInit env w) := by
  have hpairs : ∀ v, ∀ k ∈ List.range (((emptied env w).store.numNodes.toNat + 1) / 2),
      Issues P v (loadPair env v k) := by
    intro v k hk
    have hk : k < ((countRead env w).toNat + 1) / 2 := List.mem_range.mp hk
    exact (Issues.call (hpair k (by omega)) v).then_ram rfl rfl
  rw [grprStoreInit_eq]
  exact ((Issues.call hcount w).then_ram rfl rfl).trans (Issues.foldl hpairs _)

end

/-! ## Saving -/

theorem store_foldl_savePair (env : Env) (l : List Nat) (w : Watch) :
    (l.foldl (savePair env) w).store = w.store := by
  induction l generalizing w with
  | nil => rfl
  | cons k l ih => exact ih (savePair env w k)

@[simp] theorem store_saveToNvram (env : Env) (w : Watch) :
    (saveToNvram env w).store = w.store := store_foldl_savePair env _ w

theorem writes_foldl_savePair (env : Env) (l : List Nat) (w : Watch) :
    Writes (l.flatMap fun k => okWrite env (nvmStoreBase + k) (w.store.pairBytes (2 * k))) w
      (l.foldl (savePair env) w) := by
  induction l generalizing w with
  | nil => exact .ram rfl rfl
  | cons k l ih =>
    rw [List.flatMap_cons, List.foldl_cons]
    exact (writes_write env _ _ w).trans (ih (savePair env w k))

/-- The writes of `save_to_nvram` that succeed: the pairs in order, then the count. -/
def saveWrites (env : Env) (s : Store) : List (Nat × List UInt8) :=
  ((List.range ((s.numNodes.toNat + 1) / 2)).flatMap fun k =>
    okWrite env (nvmStoreBase + k) (s.pairBytes (2 * k))) ++ okWrite env nvmStoreCount [s.numNodes]

theorem writes_saveToNvram (env : Env) (w : Watch) :
    Writes (saveWrites env w.store) w (saveToNvram env w) := by
  have hpairs := writes_foldl_savePair env (List.range ((w.store.numNodes.toNat + 1) / 2)) w
  have hcount := writes_write env nvmStoreCount [w.store.numNodes]
    ((List.range ((w.store.numNodes.toNat + 1) / 2)).foldl (savePair env) w)
  unfold saveToNvram saveWrites
  simp only [store_foldl_savePair]
  exact hpairs.trans hcount

/-- Loading writes nothing. -/
theorem writes_init (env : Env) (w : Watch) : Writes [] w (grprStoreInit env w) :=
  (issues_init (P := fun k => k.kind = .read) env w rfl fun _ _ => rfl).writes
    fun _ h => by simp [h]

/-! ## Adding -/

theorem writes_timestamp (env : Env) (idx : Int) (w : Watch) :
    Writes [] w (grprStoreTimestamp env idx w).2 :=
  (issues_timestamp (P := fun k => k.kind = .clock) rfl env idx w).writes fun _ h => by simp [h]

theorem writes_setRssi (idx : Int) (rssi : Int8) (w : Watch) :
    Writes [] w (grprStoreSetRssi idx rssi w).2 :=
  (issues_setRssi (P := fun _ => False) idx rssi w).writes fun _ h => h.elim

theorem writes_setAvatar (idx : Int) (avatar : Int8) (w : Watch) :
    Writes [] w (grprStoreSetAvatar idx avatar w).2 :=
  (issues_setAvatar (P := fun _ => False) idx avatar w).writes fun _ h => h.elim

variable {env : Env} {a : Addr} {w : Watch}

/-- A full store turns every address away. -/
theorem grprStoreAdd_full (h : w.store.numNodes.toNat = maxNodes) :
    grprStoreAdd env (some a) w = (-1, w) := by
  simp only [grprStoreAdd, h, ↓reduceIte]

/-- The watch after a known address has been added to a store that is not full. -/
theorem grprStoreAdd_known (h : w.store.numNodes.toNat ≠ maxNodes) (ha : a ∈ w.store.addrs) :
    grprStoreAdd env (some a) w = ((w.store.addrs.idxOf a : Int),
      (grprStoreTimestamp env (w.store.addrs.idxOf a) w).2.setNode (w.store.addrs.idxOf a)
        fun n => { n with addr := a }) := by
  have hlook := grprStoreLookup_of_mem ha
  simp only [grprStoreAdd, h, ↓reduceIte, hlook]
  rw [if_neg (by omega)]
  rfl

/-- The watch with a node for `a` appended, before it is saved. -/
def appendNode (env : Env) (a : Addr) (w : Watch) : Watch :=
  let n := w.store.numNodes.toNat
  let w := { w with store := { w.store with numNodes := w.store.numNodes + 1 } }
  (grprStoreTimestamp env n w).2.setNode n fun node => { node with addr := a }

theorem grprStoreAdd_new (h : w.store.numNodes.toNat ≠ maxNodes) (ha : a ∉ w.store.addrs) :
    grprStoreAdd env (some a) w =
      ((w.store.numNodes.toNat : Int), saveToNvram env (appendNode env a w)) := by
  have hlook := grprStoreLookup_of_not_mem ha
  simp only [grprStoreAdd, h, ↓reduceIte, hlook]
  rw [if_pos (by omega)]
  rfl

/-! ## The writes of an addition -/

theorem writes_appendNode : Writes [] w (appendNode env a w) := by
  have hcount : Writes [] w
      { w with store := { w.store with numNodes := w.store.numNodes + 1 } } := .ram rfl rfl
  exact (hcount.nil_trans (writes_timestamp env _ _)).then_ram rfl rfl

/-- Adding an address saves the store if the address is new and has room, and else writes
nothing. -/
theorem writes_add : Writes
    (if w.store.numNodes.toNat ≠ maxNodes ∧ a ∉ w.store.addrs then
      saveWrites env (appendNode env a w).store else []) w (grprStoreAdd env (some a) w).2 := by
  by_cases hfull : w.store.numNodes.toNat = maxNodes
  · rw [grprStoreAdd_full hfull, if_neg fun h => h.1 hfull]
    exact .ram rfl rfl
  · by_cases ha : a ∈ w.store.addrs
    · rw [grprStoreAdd_known hfull ha, if_neg fun h => h.2 ha]
      exact (writes_timestamp env _ w).then_ram rfl rfl
    · rw [grprStoreAdd_new hfull ha, if_pos ⟨hfull, ha⟩]
      exact writes_appendNode.nil_trans (writes_saveToNvram env _)

theorem okWrite_eq_self {vsId : Nat} {payload : List UInt8} {x : Nat × List UInt8}
    (h : x ∈ okWrite env vsId payload) : x = (vsId, payload) := by
  unfold okWrite at h
  split at h
  · exact List.mem_singleton.mp h
  · exact absurd h List.not_mem_nil

/-- The store is saved to the records of its pairs and of its count. -/
theorem key_of_mem_saveWrites {s : Store} {x : Nat × List UInt8} (h : x ∈ saveWrites env s) :
    x.1 = nvmStoreCount ∨ ∃ k, 2 * k < s.numNodes.toNat ∧ x.1 = nvmStoreBase + k := by
  rcases List.mem_append.mp h with hpair | hcount
  · obtain ⟨k, hk, hx⟩ := List.mem_flatMap.mp hpair
    have hlt := List.mem_range.mp hk
    exact .inr ⟨k, by omega, by rw [okWrite_eq_self hx]⟩
  · exact .inl (by rw [okWrite_eq_self hcount])

theorem nvmStoreCount_le_of_mem {s : Store} {x : Nat × List UInt8} (h : x ∈ saveWrites env s) :
    nvmStoreCount ≤ x.1 := by
  rcases key_of_mem_saveWrites h with hx | ⟨k, -, hx⟩
  · exact hx.ge
  · rw [hx]
    unfold nvmStoreCount nvmStoreBase
    omega

/-! ## The calls of an addition -/

section

variable {P : Call → Prop}

/-- Adding reads the clock, and saves the store if the address is new. -/
theorem issues_add (env : Env) (addr : Option Addr) (w : Watch) (hrtc : P .readRtc)
    (hpair : ∀ k payload ok, 2 * k < (grprStoreAdd env addr w).2.store.numNodes.toNat →
      P (.writeNvram (nvmStoreBase + k) payload ok))
    (hcount : ∀ payload ok, P (.writeNvram nvmStoreCount payload ok)) :
    Issues P w (grprStoreAdd env addr w).2 := by
  rcases addr with _ | a
  · exact .ram rfl rfl
  · by_cases hfull : w.store.numNodes.toNat = maxNodes
    · rw [grprStoreAdd_full hfull]
      exact .ram rfl rfl
    · by_cases ha : a ∈ w.store.addrs
      · rw [grprStoreAdd_known hfull ha]
        exact (issues_timestamp hrtc ..).then_ram rfl rfl
      · rw [grprStoreAdd_new hfull ha] at hpair ⊢
        rw [store_saveToNvram] at hpair
        have hcounted : Issues P w
            { w with store := { w.store with numNodes := w.store.numNodes + 1 } } := .ram rfl rfl
        have happend : Issues P w (appendNode env a w) :=
          (hcounted.trans (issues_timestamp hrtc ..)).then_ram rfl rfl
        exact happend.trans (issues_saveToNvram env _ hpair hcount)

end

end Muchiwachi
