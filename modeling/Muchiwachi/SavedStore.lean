import Muchiwachi.PeerList

/-!
# The saved peer list

`Saves nv l` says that NVRAM holds the address list `l`: the count record has its length, and the
address of node `i` is in half `i % 2` of pair record `i / 2`. Loading rebuilds the list that is
saved (`addrs_init`). Saving a list with one address more goes through the pairs first and the
count last, so that a prefix of its writes saves the old list until the last write saves the new
one (`saves_take_saveWrites`).
-/

namespace Muchiwachi

open Lib

/-! ## Nodes in records -/

@[simp] theorem Node.length_toBytes (n : Node) : n.toBytes.length = nodeSize := by
  simp [Node.toBytes, nodeSize]

@[simp] theorem Store.length_pairBytes (s : Store) (i : Nat) :
    (s.pairBytes i).length = 2 * nodeSize := by
  simp [Store.pairBytes, nodeSize]

/-- A timestamp is the two bytes it is stored in. -/
theorem timestamp_bytes (t : UInt16) :
    t.toUInt8.toUInt16 ||| (t >>> 8).toUInt8.toUInt16 <<< 8 = t := by
  have ht := t.toNat_lt
  have hlo : t.toUInt8.toUInt16.toNat < 2 ^ 8 := by simp; omega
  have hhi : ((t >>> 8).toUInt8.toUInt16 <<< 8).toNat = (t.toNat / 256) <<< 8 := by
    simp [Nat.shiftRight_eq_div_pow, Nat.shiftLeft_eq]; omega
  apply UInt16.toNat_inj.mp
  rw [UInt16.toNat_or, Nat.or_comm, hhi, ← Nat.shiftLeft_add_eq_or_of_lt hlo]
  simp [Nat.shiftLeft_eq]
  omega

/-- **A node is read back from where its bytes stand.** -/
theorem Node.ofBytes_toBytes (pre post : List UInt8) (n : Node) :
    Node.ofBytes (pre ++ (n.toBytes ++ post)) pre.length = n := by
  have hbyte : ∀ j, j < nodeSize →
      (pre ++ (n.toBytes ++ post)).getD (pre.length + j) 0 = n.toBytes.getD j 0 := by
    intro j hj
    rw [← n.length_toBytes] at hj
    simp only [List.getD_eq_getElem?_getD, List.getElem?_append_right (Nat.le_add_right ..),
      Nat.add_sub_cancel_left, List.getElem?_append_left hj]
  obtain ⟨addr, timestamp, rssi, avatar⟩ := n
  unfold Node.ofBytes
  congr 1
  · apply Vector.ext
    intro j hj
    rw [Vector.getElem_ofFn, hbyte j (by unfold nodeSize; omega)]
    simp [Node.toBytes, hj, List.getElem?_append_left]
  · rw [hbyte 6 (by decide), hbyte 7 (by decide)]
    simpa [Node.toBytes] using timestamp_bytes timestamp
  · rw [hbyte 8 (by decide)]
    simp [Node.toBytes]
  · rw [hbyte 9 (by decide)]
    simp [Node.toBytes]

/-- So is each node of a pair. -/
theorem Store.ofBytes_pairBytes (s : Store) (k : Nat) {r : Nat} (hr : r < 2) :
    Node.ofBytes (s.pairBytes (2 * k)) (nodeSize * r) = s.nodes (2 * k + r) := by
  unfold Store.pairBytes
  obtain rfl | rfl : r = 0 ∨ r = 1 := by omega
  · exact Node.ofBytes_toBytes [] _ (s.nodes (2 * k))
  · have h := Node.ofBytes_toBytes (s.nodes (2 * k)).toBytes [] (s.nodes (2 * k + 1))
    rwa [List.append_nil, Node.length_toBytes] at h

/-! ## Loading -/

/-- The address in half `i % 2` of pair record `i / 2`. -/
def savedAddr (nv : Nvram) (i : Nat) : Addr :=
  (Node.ofBytes (nv (nvmStoreBase + i / 2)) (nodeSize * (i % 2))).addr

/-- NVRAM holds the address list `l`. -/
structure Saves (nv : Nvram) (l : List Addr) : Prop where
  count : ((nv nvmStoreCount).headD 0).toNat = l.length
  length : ∀ k, 2 * k < l.length → (nv (nvmStoreBase + k)).length = 2 * nodeSize
  addr : ∀ i, i < l.length → l[i]? = some (savedAddr nv i)

/-- What is copied over a pair of nodes leaves the others alone. -/
theorem Store.nodes_setPairBytes_other {s : Store} {i k : Nat} (h : i / 2 ≠ k) (bs : List UInt8) :
    (s.setPairBytes (2 * k) bs).nodes i = s.nodes i := by
  unfold Store.setPairBytes
  simp only
  rw [Function.update_of_ne (by omega), Function.update_of_ne (by omega)]

/-- A whole record copied over a pair of nodes replaces both. -/
theorem Store.nodes_setPairBytes {s : Store} {bs : List UInt8} (h : bs.length = 2 * nodeSize)
    (i : Nat) : (s.setPairBytes (2 * (i / 2)) bs).nodes i =
      Node.ofBytes bs (nodeSize * (i % 2)) := by
  have hall : overlay bs (s.pairBytes (2 * (i / 2))) = bs := by
    rw [overlay, List.drop_of_length_le (by rw [Store.length_pairBytes, h]), List.append_nil]
  unfold Store.setPairBytes
  simp only [hall]
  rcases Nat.mod_two_eq_zero_or_one i with heven | hodd
  · have hi : i = 2 * (i / 2) := by omega
    rw [Function.update_of_ne (by omega), ← hi, Function.update_self, heven, Nat.mul_zero]
  · have hi : i = 2 * (i / 2) + 1 := by omega
    rw [← hi, Function.update_self, hodd, Nat.mul_one]

section

variable {env : Env} {w : Watch}

/-- After these turns, a node of theirs whose record could be read holds what is saved. -/
theorem nodes_foldl_loadPair {m i : Nat} (hi : i / 2 < m)
    (hread : env.readOk (nvmStoreBase + i / 2) = true)
    (hrec : (w.chip.nvram (nvmStoreBase + i / 2)).length = 2 * nodeSize) :
    ((List.range m).foldl (loadPair env) w).store.nodes i =
      Node.ofBytes (w.chip.nvram (nvmStoreBase + i / 2)) (nodeSize * (i % 2)) := by
  induction m with
  | zero => exact absurd hi (Nat.not_lt_zero _)
  | succ m ih =>
    have hnv := (frame_foldl_loadPair env w m).1
    rw [List.range_succ, List.foldl_append, List.foldl_cons, List.foldl_nil]
    generalize (List.range m).foldl (loadPair env) w = v at hnv ih ⊢
    show (v.store.setPairBytes (2 * m) _).nodes i = _
    rcases Nat.lt_succ_iff_lt_or_eq.mp hi with hlt | rfl
    · rw [Store.nodes_setPairBytes_other (by omega)]
      exact ih hlt
    · have hbytes : (bleprofileReadNVRAM env (nvmStoreBase + i / 2) (2 * nodeSize) v).1 =
          w.chip.nvram (nvmStoreBase + i / 2) := by
        rw [bleprofileReadNVRAM, hread, hnv, ← hrec]
        exact List.take_length
      rw [hbytes, Store.nodes_setPairBytes hrec]

/-- A list of the right length whose nodes have the saved addresses is the saved list. -/
theorem Saves.addrs_eq {nv : Nvram} {l : List Addr} (h : Saves nv l) {s : Store}
    (hnum : s.numNodes.toNat = l.length)
    (hnodes : ∀ i, i < l.length → (s.nodes i).addr = savedAddr nv i) : s.addrs = l := by
  apply List.ext_getElem?
  intro i
  by_cases hi : i < l.length
  · rw [Store.getElem?_addrs (by omega), hnodes i hi, h.addr i hi]
  · rw [List.getElem?_eq_none (by rw [Store.length_addrs]; omega), List.getElem?_eq_none (by omega)]

theorem addrs_loadFromNvram {l : List Addr} (hread : ∀ vsId, env.readOk vsId = true)
    (h : Saves w.chip.nvram l) (hnum : w.store.numNodes.toNat = l.length) :
    (loadFromNvram env w).store.addrs = l := by
  refine h.addrs_eq ?_ fun i hi => ?_
  · rw [loadFromNvram, (frame_foldl_loadPair _ _ _).2, hnum]
  · rw [loadFromNvram, nodes_foldl_loadPair (by omega) (hread _) (h.length _ (by omega))]
    rfl

/-- **Loading rebuilds the saved list.** A count that was never written is left at what RAM
has. -/
theorem addrs_init {l : List Addr} (hread : ∀ vsId, env.readOk vsId = true)
    (h : Saves w.chip.nvram l) (hcount : w.chip.nvram nvmStoreCount = [] → w.store.numNodes = 0) :
    (grprStoreInit env w).store.addrs = l := by
  have hnum : (countRead env w).toNat = l.length := by
    rw [← h.count, countRead, bleprofileReadNVRAM, hread]
    cases hrec : w.chip.nvram nvmStoreCount with
    | nil => simp [hcount hrec]
    | cons b bs => simp
  rw [grprStoreInit_eq]
  exact addrs_loadFromNvram (w := emptied env w) hread h hnum

end

/-! ## Saving -/

section

variable {env : Env} {nv : Nvram} {s : Store}

theorem pairKey_injective : Function.Injective fun k => nvmStoreBase + k :=
  fun _ _ h => Nat.add_left_cancel h

theorem pairKey_ne_count (k : Nat) : nvmStoreBase + k ≠ nvmStoreCount := by
  unfold nvmStoreBase nvmStoreCount
  omega

/-- Where all writes succeed, `save_to_nvram` writes out the table of pairs, and the count. -/
theorem saveWrites_eq (hwrite : ∀ vsId, env.writeOk vsId = true) (s : Store) :
    saveWrites env s =
      tableWrites (fun k => nvmStoreBase + k) (fun k => s.pairBytes (2 * k))
        ((s.numNodes.toNat + 1) / 2) ++ [(nvmStoreCount, [s.numNodes])] := by
  simp only [saveWrites, okWrite, hwrite, if_true, tableWrites, ← List.map_eq_flatMap]

/-- Once the first `j` pairs are written, their nodes are the ones that are saved. -/
theorem savedAddr_table (j i : Nat) :
    savedAddr (applyWrites nv
      (tableWrites (fun k => nvmStoreBase + k) (fun k => s.pairBytes (2 * k)) j)) i =
      if i / 2 < j then (s.nodes i).addr else savedAddr nv i := by
  unfold savedAddr
  rw [applyWrites_table pairKey_injective]
  split
  · rw [Store.ofBytes_pairBytes _ _ (Nat.mod_lt _ (by decide)), Nat.div_add_mod]
  · rfl

/-- A list stays saved while pairs are written over it that have the same addresses. -/
theorem Saves.table {l : List Addr} (h : Saves nv l)
    (hs : ∀ i, i < l.length → l[i]? = some (s.nodes i).addr) (j : Nat) :
    Saves (applyWrites nv
      (tableWrites (fun k => nvmStoreBase + k) (fun k => s.pairBytes (2 * k)) j)) l := by
  refine ⟨?_, fun k hk => ?_, fun i hi => ?_⟩
  · rw [applyWrites_table_other fun k _ => pairKey_ne_count k]
    exact h.count
  · rw [applyWrites_table pairKey_injective]
    split
    · exact Store.length_pairBytes ..
    · exact h.length k hk
  · rw [savedAddr_table]
    split
    · exact hs i hi
    · exact h.addr i hi

/-- When all is written, the store's own list is saved. -/
theorem saves_save (hwrite : ∀ vsId, env.writeOk vsId = true) (s : Store) :
    Saves (applyWrites nv (saveWrites env s)) s.addrs := by
  rw [saveWrites_eq hwrite, applyWrites_append, applyWrites_cons, applyWrites_nil]
  refine ⟨?_, fun k hk => ?_, fun i hi => ?_⟩
  · rw [Function.update_self, Store.length_addrs]
    rfl
  · rw [Store.length_addrs] at hk
    rw [Function.update_of_ne (pairKey_ne_count k), applyWrites_table pairKey_injective,
      if_pos (by omega)]
    exact Store.length_pairBytes ..
  · rw [Store.length_addrs] at hi
    have hsaved : savedAddr (applyWrites nv (tableWrites (fun k => nvmStoreBase + k)
        (fun k => s.pairBytes (2 * k)) ((s.numNodes.toNat + 1) / 2))) i = (s.nodes i).addr := by
      rw [savedAddr_table, if_pos (by omega)]
    rw [Store.getElem?_addrs hi, ← hsaved, savedAddr, savedAddr,
      Function.update_of_ne (pairKey_ne_count _)]

/-- **Saving is atomic.** Losing power during the save of a store whose list extends the saved
one leaves the saved list or the store's. -/
theorem saves_take_saveWrites (hwrite : ∀ vsId, env.writeOk vsId = true) {l : List Addr}
    (h : Saves nv l) (hs : l <+: s.addrs) (j : Nat) :
    Saves (applyWrites nv ((saveWrites env s).take j)) l ∨
      Saves (applyWrites nv ((saveWrites env s).take j)) s.addrs := by
  have hlen : (saveWrites env s).length = (s.numNodes.toNat + 1) / 2 + 1 := by
    rw [saveWrites_eq hwrite, List.length_append, length_tableWrites, List.length_singleton]
  by_cases hj : j ≤ (s.numNodes.toNat + 1) / 2
  · -- the count is not written yet
    left
    rw [saveWrites_eq hwrite, List.take_append_of_le_length (by rw [length_tableWrites]; exact hj),
      take_tableWrites]
    refine h.table (fun i hi => ?_) _
    have hle := hs.length_le
    rw [Store.length_addrs] at hle
    rw [List.getElem?_eq_getElem hi, ← List.prefix_iff_getElem?.mp hs i hi,
      Store.getElem?_addrs (by omega)]
  · right
    rw [List.take_of_length_le (by omega)]
    exact saves_save hwrite s

end

/-! ## Store operations and power losses -/

/-- The operations of the store that change something. -/
inductive StoreOp where
  | init (env : Env)
  | add (env : Env) (addr : Option Addr)
  | timestamp (env : Env) (idx : Int)
  | isExpired (env : Env) (idx : Nat)
  | getTotalExpired (env : Env)
  | setRssi (idx : Int) (rssi : Int8)
  | setAvatar (idx : Int) (avatar : Int8)

def Watch.storeOp (w : Watch) : StoreOp → Watch
  | .init env => grprStoreInit env w
  | .add env addr => (grprStoreAdd env addr w).2
  | .timestamp env idx => (grprStoreTimestamp env idx w).2
  | .isExpired env idx => (grprStoreIsExpired env idx w).2
  | .getTotalExpired env => (grprStoreGetTotalExpired env w).2
  | .setRssi idx rssi => (grprStoreSetRssi idx rssi w).2
  | .setAvatar idx avatar => (grprStoreSetAvatar idx avatar w).2

/-- The store as it is rebuilt over NVRAM contents `nv`. -/
def restarted (env : Env) (nv : Nvram) : Watch := grprStoreInit env (powerOn nv)

/-- `powerLoss o j boot`: power is lost after `j` of the NVRAM writes of `o`. -/
inductive StoreInput where
  | op (o : StoreOp)
  | powerLoss (o : StoreOp) (j : Nat) (boot : Env)

def Watch.storeStep (w : Watch) : StoreInput → Watch
  | .op o => w.storeOp o
  | .powerLoss o j boot => restarted boot (w.crashNvram (w.storeOp o) j)

/-- Reads and writes of NVRAM succeed. -/
def Env.Reliable (env : Env) : Prop :=
  (∀ vsId, env.readOk vsId = true) ∧ ∀ vsId, env.writeOk vsId = true

def StoreOp.Reliable : StoreOp → Prop
  | .init env | .add env _ | .timestamp env _ | .isExpired env _ | .getTotalExpired env =>
    env.Reliable
  | .setRssi _ _ | .setAvatar _ _ => True

def StoreInput.Reliable : StoreInput → Prop
  | .op o => o.Reliable
  | .powerLoss o _ boot => o.Reliable ∧ boot.Reliable

/-- The list in RAM is the one that is saved. -/
structure StoreInv (w : Watch) : Prop where
  saves : Saves w.chip.nvram w.store.addrs
  le : w.store.numNodes.toNat ≤ maxNodes

theorem store_totalExpired (env : Env) (w : Watch) :
    (grprStoreGetTotalExpired env w).2.store = w.store := by
  have hfold : ∀ (l : List Nat) (r : Nat × Watch),
      (l.foldl (countExpired env) r).2.store = r.2.store := by
    intro l
    induction l with
    | nil => exact fun r => rfl
    | cons i l ih => exact fun r => (ih (countExpired env r i)).trans rfl
  exact hfold _ (0, w)

theorem writes_totalExpired (env : Env) (w : Watch) :
    Writes [] w (grprStoreGetTotalExpired env w).2 := by
  have hfold : ∀ (l : List Nat) (r : Nat × Watch),
      Writes [] r.2 (l.foldl (countExpired env) r).2 := by
    intro l
    induction l with
    | nil => exact fun r => .ram rfl rfl
    | cons i l ih =>
      intro r
      exact (Writes.call .readRtc r.2).nil_trans (ih (countExpired env r i))
  exact hfold _ (0, w)

/-- Going from `w` to `w'` saves the new list in a way that losing power leaves the old list or
the new one. -/
structure SavesAtomically (w w' : Watch) (ws : List (Nat × List UInt8)) : Prop where
  writes : Writes ws w w'
  saves : Saves (applyWrites w.chip.nvram ws) w'.store.addrs
  le : w'.store.numNodes.toNat ≤ maxNodes
  crash : ∀ j, Saves (applyWrites w.chip.nvram (ws.take j)) w.store.addrs ∨
    Saves (applyWrites w.chip.nvram (ws.take j)) w'.store.addrs

/-- Code that writes nothing and keeps the list. -/
theorem savesAtomically_nil {w w' : Watch} (h : StoreInv w) (hw : Writes [] w w')
    (ha : w'.store.addrs = w.store.addrs) : SavesAtomically w w' [] := by
  refine ⟨hw, ?_, ?_, fun j => .inl ?_⟩
  · rw [ha]
    exact h.saves
  · rw [← Store.length_addrs, ha, Store.length_addrs]
    exact h.le
  · rw [List.take_nil]
    exact h.saves

theorem savesAtomically_add {env : Env} {w : Watch} (h : StoreInv w) (henv : env.Reliable)
    (a : Addr) : ∃ ws, SavesAtomically w (grprStoreAdd env (some a) w).2 ws := by
  by_cases hfull : w.store.numNodes.toNat = maxNodes
  · rw [grprStoreAdd_full hfull]
    exact ⟨[], savesAtomically_nil h (.ram rfl rfl) rfl⟩
  · by_cases ha : a ∈ w.store.addrs
    · rw [grprStoreAdd_known hfull ha]
      exact ⟨[], savesAtomically_nil h ((writes_timestamp env _ w).then_ram rfl rfl)
        (addrs_readd ha)⟩
    · have hlt : w.store.numNodes.toNat < maxNodes := by
        have := h.le
        omega
      have hnum : w.store.numNodes.toNat < 255 := hlt.trans (by decide)
      have haddrs : (appendNode env a w).store.addrs = w.store.addrs ++ [a] := addrs_appendNode hnum
      rw [grprStoreAdd_new hfull ha]
      refine ⟨saveWrites env (appendNode env a w).store,
        writes_appendNode.nil_trans (writes_saveToNvram env _), ?_, ?_, fun j => ?_⟩
      · rw [store_saveToNvram]
        exact saves_save henv.2 _
      · rw [store_saveToNvram, numNodes_appendNode hnum]
        omega
      · rw [store_saveToNvram]
        refine saves_take_saveWrites henv.2 h.saves ?_ j
        rw [haddrs]
        exact List.prefix_append ..

/-- What an operation asks to add. -/
def StoreOp.adds : StoreOp → List Addr
  | .add _ (some a) => [a]
  | _ => []

/-- An operation that adds nothing writes nothing and keeps the list. -/
theorem storeOp_quiet {w : Watch} (h : StoreInv w) {o : StoreOp} (ho : o.Reliable)
    (hadds : o.adds = []) :
    Writes [] w (w.storeOp o) ∧ (w.storeOp o).store.addrs = w.store.addrs := by
  cases o with
  | init env =>
    have hcount : w.chip.nvram nvmStoreCount = [] → w.store.numNodes = 0 := by
      intro hnil
      have hlen := h.saves.count
      rw [hnil, Store.length_addrs] at hlen
      exact UInt8.toNat_inj.mp hlen.symm
    exact ⟨writes_init env w, addrs_init ho.1 h.saves hcount⟩
  | add env addr =>
    cases addr with
    | none => exact ⟨.ram rfl rfl, rfl⟩
    | some a => cases hadds
  | timestamp env idx => exact ⟨writes_timestamp env idx w, addrs_timestamp env idx w⟩
  | isExpired env idx => exact ⟨Writes.call .readRtc w, rfl⟩
  | getTotalExpired env =>
    exact ⟨writes_totalExpired env w, congrArg Store.addrs (store_totalExpired env w)⟩
  | setRssi idx rssi => exact ⟨writes_setRssi idx rssi w, addrs_setRssi idx rssi w⟩
  | setAvatar idx avatar => exact ⟨writes_setAvatar idx avatar w, addrs_setAvatar idx avatar w⟩

theorem StoreOp.adds_cases (o : StoreOp) : o.adds = [] ∨ ∃ env a, o = .add env (some a) := by
  rcases o with _ | ⟨env, _ | a⟩ | _ | _ | _ | _ | _
  · exact .inl rfl
  · exact .inl rfl
  · exact .inr ⟨env, a, rfl⟩
  all_goals exact .inl rfl

/-- Every operation saves atomically. -/
theorem savesAtomically_storeOp {w : Watch} (h : StoreInv w) {o : StoreOp} (ho : o.Reliable) :
    ∃ ws, SavesAtomically w (w.storeOp o) ws := by
  rcases o.adds_cases with hadds | ⟨env, a, rfl⟩
  · obtain ⟨hw, ha⟩ := storeOp_quiet h ho hadds
    exact ⟨[], savesAtomically_nil h hw ha⟩
  · exact savesAtomically_add h ho a

/-- On the list, an operation pushes what it adds. -/
theorem addrs_storeOp {w : Watch} (h : StoreInv w) {o : StoreOp} (ho : o.Reliable)
    {l : BoundedLog Addr maxNodes} (hl : w.store.addrs = l.entries) :
    (w.storeOp o).store.addrs = (run BoundedLog.push l o.adds).entries := by
  rcases o.adds_cases with hadds | ⟨env, a, rfl⟩
  · rw [(storeOp_quiet h ho hadds).2, hadds, run_nil, hl]
  · exact addrs_grprStoreAdd hl

/-- Restarting rebuilds the saved list. -/
theorem addrs_restarted {boot : Env} {nv : Nvram} {l : List Addr} (hboot : boot.Reliable)
    (h : Saves nv l) : (restarted boot nv).store.addrs = l :=
  addrs_init hboot.1 h fun _ => rfl

theorem storeInv_restarted {boot : Env} {nv : Nvram} {l : List Addr} (hboot : boot.Reliable)
    (h : Saves nv l) (hle : l.length ≤ maxNodes) : StoreInv (restarted boot nv) := by
  have haddrs := addrs_restarted hboot h
  have hnv : (restarted boot nv).chip.nvram = nv := (writes_init boot (powerOn nv)).nvram
  refine ⟨?_, ?_⟩
  · rw [haddrs, hnv]
    exact h
  · rw [← Store.length_addrs, haddrs]
    exact hle

theorem StoreInv.step {w : Watch} (h : StoreInv w) {i : StoreInput} (hi : i.Reliable) :
    StoreInv (w.storeStep i) := by
  cases i with
  | op o =>
    obtain ⟨ws, hws⟩ := savesAtomically_storeOp h hi
    have hsaves := hws.saves
    rw [← hws.writes.nvram] at hsaves
    exact ⟨hsaves, hws.le⟩
  | powerLoss o j boot =>
    obtain ⟨ws, hws⟩ := savesAtomically_storeOp h hi.1
    show StoreInv (restarted boot (w.crashNvram (w.storeOp o) j))
    rw [hws.writes.crashNvram]
    rcases hws.crash j with hold | hnew
    · exact storeInv_restarted hi.2 hold (by rw [Store.length_addrs]; exact h.le)
    · exact storeInv_restarted hi.2 hnew (by rw [Store.length_addrs]; exact hws.le)

theorem storeInv_empty : StoreInv (powerOn fun _ => []) :=
  ⟨⟨rfl, fun _ hk => absurd hk (Nat.not_lt_zero _), fun _ hi => absurd hi (Nat.not_lt_zero _)⟩,
    Nat.zero_le _⟩

theorem storeInv_run {is : List StoreInput} (his : ∀ i ∈ is, i.Reliable) :
    StoreInv (run Watch.storeStep (powerOn fun _ => []) is) :=
  (always_of_step_of (fun _ _ hi h => h.step hi) storeInv_empty his).final

/-- **Crash consistency of the saved list.** Over any run of store operations and power losses
from empty NVRAM: losing power during an operation leaves the list before it or the one after
it, and a restart between operations rebuilds the list. -/
theorem savedList_crash_consistent (is : List StoreInput) (his : ∀ i ∈ is, i.Reliable)
    (o : StoreOp) (ho : o.Reliable) (j : Nat) (boot : Env) (hboot : boot.Reliable) :
    let w := run Watch.storeStep (powerOn fun _ => []) is
    ((restarted boot (w.crashNvram (w.storeOp o) j)).store.addrs = w.store.addrs ∨
        (restarted boot (w.crashNvram (w.storeOp o) j)).store.addrs =
          (w.storeOp o).store.addrs) ∧
      (restarted boot w.chip.nvram).store.addrs = w.store.addrs := by
  intro w
  have hinv : StoreInv w := storeInv_run his
  obtain ⟨ws, hws⟩ := savesAtomically_storeOp hinv ho
  refine ⟨?_, addrs_restarted hboot hinv.saves⟩
  rw [hws.writes.crashNvram]
  rcases hws.crash j with hold | hnew
  · exact .inl (addrs_restarted hboot hold)
  · exact .inr (addrs_restarted hboot hnew)

theorem reliable_nominalEnv (garbage : UInt8) : (nominalEnv garbage).Reliable :=
  ⟨fun _ => rfl, fun _ => rfl⟩

/-- One address is added, and power is lost before the count of a second one is written. -/
def sampleReboots : List StoreInput :=
  let env := nominalEnv 0
  [.op (.init env), .op (.add env (some addrOne)),
    .powerLoss (.add env (some addrTwo)) 1 env]

theorem savedList_crash_consistent_sample :
    (restarted (nominalEnv 0)
      (run Watch.storeStep (powerOn fun _ => []) sampleReboots).chip.nvram).store.addrs =
      [addrOne] := by
  have henv := reliable_nominalEnv 0
  have his : ∀ i ∈ sampleReboots, i.Reliable := by
    simp [sampleReboots, StoreInput.Reliable, StoreOp.Reliable, henv]
  rw [(savedList_crash_consistent sampleReboots his (.init (nominalEnv 0)) henv 0 _ henv).2]
  decide +kernel

/-! ## The list over a whole run -/

/-- What an input asks to add, whether power lasts or not. -/
def StoreInput.attempts : StoreInput → List Addr
  | .op o => o.adds
  | .powerLoss o _ _ => o.adds

/-- What an input adds for certain. -/
def StoreInput.completes : StoreInput → List Addr
  | .op o => o.adds
  | .powerLoss _ _ _ => []

theorem addrs_storeStep {w : Watch} (h : StoreInv w) {i : StoreInput} (hi : i.Reliable)
    {l : BoundedLog Addr maxNodes} (hl : w.store.addrs = l.entries) :
    ∃ kept, i.completes.Sublist kept ∧ kept.Sublist i.attempts ∧
      (w.storeStep i).store.addrs = (run BoundedLog.push l kept).entries := by
  cases i with
  | op o =>
    exact ⟨o.adds, List.Sublist.refl _, List.Sublist.refl _, addrs_storeOp h hi hl⟩
  | powerLoss o j boot =>
    obtain ⟨ws, hws⟩ := savesAtomically_storeOp h hi.1
    show ∃ kept, List.Sublist [] kept ∧ kept.Sublist o.adds ∧
      (restarted boot (w.crashNvram (w.storeOp o) j)).store.addrs = _
    rw [hws.writes.crashNvram]
    rcases hws.crash j with hold | hnew
    · refine ⟨[], List.Sublist.refl _, List.nil_sublist _, ?_⟩
      rw [addrs_restarted hi.2 hold, hl, run_nil]
    · refine ⟨o.adds, List.nil_sublist _, List.Sublist.refl _, ?_⟩
      rw [addrs_restarted hi.2 hnew]
      exact addrs_storeOp h hi.1 hl

/-- **The saved list over a whole run** is the log of the additions that were kept: all the
completed ones, and of the interrupted ones some. -/
theorem addrs_storeRun (is : List StoreInput) (his : ∀ i ∈ is, i.Reliable) :
    ∃ kept, (is.flatMap StoreInput.completes).Sublist kept ∧
      kept.Sublist (is.flatMap StoreInput.attempts) ∧
      (run Watch.storeStep (powerOn fun _ => []) is).store.addrs =
        (run BoundedLog.push (.empty : BoundedLog Addr maxNodes) kept).entries := by
  induction is using List.reverseRecOn with
  | nil => exact ⟨[], List.Sublist.refl _, List.Sublist.refl _, rfl⟩
  | append_singleton is i ih =>
    have his' : ∀ i ∈ is, i.Reliable := fun x hx => his x (List.mem_append_left _ hx)
    obtain ⟨kept, hdone, htried, haddrs⟩ := ih his'
    obtain ⟨kept', hdone', htried', haddrs'⟩ :=
      addrs_storeStep (storeInv_run his') (his i (by simp)) haddrs
    refine ⟨kept ++ kept', ?_, ?_, ?_⟩
    · simpa using hdone.append hdone'
    · simpa using htried.append htried'
    · rw [run_snoc, haddrs', run_append]

end Muchiwachi
