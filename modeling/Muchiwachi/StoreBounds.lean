import Muchiwachi.StoreFootprint

/-!
# Bounds of the store

`inBounds_exact` says in which runs, over any NVRAM contents, the accesses to `nodes[]`, the
records and the count keep their bounds, `behind_unchanged` what this is worth to the rest of the
memory.
-/

namespace Muchiwachi

open Lib

/-! ## The bounds -/

/-- `MUCHI_NVM_STORE_LAST`. -/
def nvmStoreLast : Nat := 0x6F

/-- The NVRAM record a call goes to. -/
def Call.record : Call → Option Nat
  | .readNvram vsId _ => some vsId
  | .writeNvram vsId _ _ => some vsId
  | _ => none

/-- The record holds the count or nodes. -/
def Call.inStore (k : Call) : Prop :=
  ∀ vsId, k.record = some vsId →
    vsId = nvmStoreCount ∨ nvmStoreBase ≤ vsId ∧ vsId ≤ nvmStoreLast

/-- A call keeps to the array, to the records of the store, and to a count of at most
`maxNodes` that does not wrap around. -/
structure StoreCall.InBounds (w : Watch) (c : StoreCall) : Prop where
  nodes : ∀ i ∈ c.footprint w, i < maxNodes
  records : ∀ k ∈ w.callsSince (w.storeCall c), k.inStore
  count : (w.storeCall c).store.numNodes.toNat ≤ maxNodes
  noWrap : ∀ env addr, c = .add env addr →
    w.store.numNodes.toNat ≤ (w.storeCall c).store.numNodes.toNat

/-- The store is loaded by a stored count that is too large. -/
def StoreCall.trustsCount (w : Watch) : StoreCall → Prop
  | .init env => env.readOk nvmStoreCount = true ∧
      maxNodes < ((w.chip.nvram nvmStoreCount).headD 0).toNat
  | _ => False

/-! ## Footprints -/

theorem lt_of_mem_pairFootprint {n i : Nat} (h : i ∈ pairFootprint n) : i < 2 * ((n + 1) / 2) := by
  obtain ⟨k, hk, hi⟩ := List.mem_flatMap.mp h
  have hk := List.mem_range.mp hk
  simp only [List.mem_cons, List.not_mem_nil, or_false] at hi
  omega

theorem lt_of_mem_indexFootprint {idx : Int} {s : Store} {i : Nat} (h : i ∈ indexFootprint idx s) :
    i < s.numNodes.toNat := by
  unfold indexFootprint at h
  split at h
  · cases h
  · next hgood =>
    rw [List.mem_singleton.mp h]
    unfold Store.badIdx at hgood
    omega

theorem grprStoreLookup_lt (addr : Option Addr) (s : Store) :
    grprStoreLookup addr s < s.numNodes.toNat := by
  unfold grprStoreLookup
  split
  · omega
  · split
    · next hfind =>
      have hmem := List.mem_range.mp (List.mem_of_find?_eq_some hfind)
      omega
    · omega

theorem lt_of_mem_lookupFootprint {addr : Option Addr} {s : Store} {i : Nat}
    (h : i ∈ lookupFootprint addr s) : i < s.numNodes.toNat := by
  have hlt := grprStoreLookup_lt addr s
  unfold lookupFootprint at h
  rcases addr with _ | a
  · cases h
  · simp only at h
    split at h
    · exact List.mem_range.mp h
    · have hi := List.mem_range.mp h
      omega

theorem toNat_succ_numNodes {s : Store} (h : s.numNodes.toNat < maxNodes) :
    (s.numNodes + 1).toNat = s.numNodes.toNat + 1 := by
  unfold maxNodes at h
  rw [UInt8.toNat_add]
  simp
  omega

theorem lt_of_mem_addFootprint {addr : Option Addr} {s : Store} {i : Nat}
    (hle : s.numNodes.toNat ≤ maxNodes) (h : i ∈ addFootprint addr s) : i < maxNodes := by
  have hlookup := grprStoreLookup_lt addr s
  have hcompared : i ∈ lookupFootprint addr s → i < maxNodes :=
    fun h => (lt_of_mem_lookupFootprint h).trans_le hle
  unfold addFootprint at h
  split at h
  · cases h
  · split at h
    · cases h
    · next hfull =>
      have hroom : s.numNodes.toNat < maxNodes := by omega
      have hnum := toNat_succ_numNodes hroom
      simp only at h
      split at h
      · simp only [List.mem_append, List.mem_singleton] at h
        rcases h with ((h | h) | h) | h
        · exact hcompared h
        · have hstamped := lt_of_mem_indexFootprint h
          simp only [hnum] at hstamped
          omega
        · omega
        · -- the pairs reach up to an even bound
          have hpair := lt_of_mem_pairFootprint h
          rw [hnum] at hpair
          unfold maxNodes at hroom ⊢
          omega
      · simp only [List.mem_append, List.mem_singleton] at h
        rcases h with (h | h) | h
        · exact hcompared h
        · exact (lt_of_mem_indexFootprint h).trans_le hle
        · omega

/-- The count after an addition: one more, or the same. -/
theorem numNodes_add {env : Env} {addr : Option Addr} {w : Watch}
    (hle : w.store.numNodes.toNat ≤ maxNodes) :
    w.store.numNodes.toNat ≤ (grprStoreAdd env addr w).2.store.numNodes.toNat ∧
      (grprStoreAdd env addr w).2.store.numNodes.toNat ≤ maxNodes := by
  rcases addr with _ | a
  · exact ⟨Nat.le_refl _, hle⟩
  · by_cases hfull : w.store.numNodes.toNat = maxNodes
    · rw [grprStoreAdd_full hfull]
      exact ⟨Nat.le_refl _, hle⟩
    · by_cases ha : a ∈ w.store.addrs
      · rw [grprStoreAdd_known hfull ha, Watch.numNodes_setNode, numNodes_timestamp]
        exact ⟨Nat.le_refl _, hle⟩
      · have hroom : w.store.numNodes.toNat < maxNodes := by omega
        rw [grprStoreAdd_new hfull ha, store_saveToNvram,
          numNodes_appendNode (hroom.trans (by decide))]
        omega

/-! ## The count that is read -/

section

variable {env : Env} {w : Watch}

theorem countRead_le (hle : w.store.numNodes.toNat ≤ maxNodes)
    (h : ¬ (StoreCall.init env).trustsCount w) : (countRead env w).toNat ≤ maxNodes := by
  unfold countRead bleprofileReadNVRAM
  cases hok : env.readOk nvmStoreCount with
  | false => simpa using hle
  | true =>
    cases hrec : w.chip.nvram nvmStoreCount with
    | nil => simpa using hle
    | cons b bs =>
      have hb : ¬ maxNodes < b.toNat := by simpa [StoreCall.trustsCount, hok, hrec] using h
      simpa using Nat.not_lt.mp hb

theorem lt_countRead (h : (StoreCall.init env).trustsCount w) :
    maxNodes < (countRead env w).toNat := by
  obtain ⟨hok, hcount⟩ := h
  unfold countRead bleprofileReadNVRAM
  rw [hok]
  cases hrec : w.chip.nvram nvmStoreCount with
  | nil =>
    rw [hrec] at hcount
    exact absurd hcount (by decide)
  | cons b bs =>
    rw [hrec] at hcount
    simpa using hcount

end

/-! ## One call -/

section

variable {w : Watch}

theorem numNodes_setRssi (idx : Int) (rssi : Int8) (w : Watch) :
    (grprStoreSetRssi idx rssi w).2.store.numNodes = w.store.numNodes := by
  unfold grprStoreSetRssi
  split <;> rfl

theorem numNodes_setAvatar (idx : Int) (avatar : Int8) (w : Watch) :
    (grprStoreSetAvatar idx avatar w).2.store.numNodes = w.store.numNodes := by
  unfold grprStoreSetAvatar
  split <;> rfl

theorem numNodes_storeCall (hle : w.store.numNodes.toNat ≤ maxNodes) {c : StoreCall}
    (hc : ¬ c.trustsCount w) : (w.storeCall c).store.numNodes.toNat ≤ maxNodes := by
  cases c with
  | init env =>
    show (grprStoreInit env w).store.numNodes.toNat ≤ maxNodes
    rw [numNodes_init]
    exact countRead_le hle hc
  | add env addr => exact (numNodes_add hle).2
  | timestamp env idx =>
    show (grprStoreTimestamp env idx w).2.store.numNodes.toNat ≤ maxNodes
    rw [numNodes_timestamp]
    exact hle
  | setRssi idx rssi =>
    show (grprStoreSetRssi idx rssi w).2.store.numNodes.toNat ≤ maxNodes
    rw [numNodes_setRssi]
    exact hle
  | setAvatar idx avatar =>
    show (grprStoreSetAvatar idx avatar w).2.store.numNodes.toNat ≤ maxNodes
    rw [numNodes_setAvatar]
    exact hle
  | get | getFirst | getNext | getRssi | getAvatar => exact hle

theorem footprint_lt (hle : w.store.numNodes.toNat ≤ maxNodes) {c : StoreCall}
    (hc : ¬ c.trustsCount w) : ∀ i ∈ c.footprint w, i < maxNodes := by
  intro i hi
  cases c with
  | init env =>
    have hcount := countRead_le hle hc
    rcases List.mem_append.mp hi with h | h
    · exact List.mem_range.mp h
    · have hpair := lt_of_mem_pairFootprint h
      unfold maxNodes at hcount ⊢
      omega
  | add env addr => exact lt_of_mem_addFootprint hle hi
  | get addr => exact (lt_of_mem_lookupFootprint hi).trans_le hle
  | getFirst | getNext => cases hi
  | timestamp | setRssi | getRssi | setAvatar | getAvatar =>
    exact (lt_of_mem_indexFootprint hi).trans_le hle

/-- The records of the pairs of at most `maxNodes` nodes. -/
theorem pairKey_le {n k : Nat} (hn : n ≤ maxNodes) (hk : 2 * k < n) :
    nvmStoreBase + k ≤ nvmStoreLast := by
  unfold maxNodes at hn
  unfold nvmStoreBase nvmStoreLast
  omega

theorem records_storeCall (hle : w.store.numNodes.toNat ≤ maxNodes) {c : StoreCall}
    (hc : ¬ c.trustsCount w) : ∀ k ∈ w.callsSince (w.storeCall c), k.inStore := by
  have hrtc : Call.readRtc.inStore := by
    intro vsId h
    cases h
  have hread : ∀ vsId len, vsId = nvmStoreCount ∨ nvmStoreBase ≤ vsId ∧ vsId ≤ nvmStoreLast →
      (Call.readNvram vsId len).inStore := by
    intro vsId len h _ heq
    cases heq
    exact h
  have hwrite : ∀ vsId payload ok,
      vsId = nvmStoreCount ∨ nvmStoreBase ≤ vsId ∧ vsId ≤ nvmStoreLast →
      (Call.writeNvram vsId payload ok).inStore := by
    intro vsId payload ok h _ heq
    cases heq
    exact h
  refine Issues.callsSince (P := Call.inStore) ?_
  cases c with
  | init env =>
    refine issues_init env w (hread _ _ (.inl rfl)) fun k hk => hread _ _ (.inr ⟨?_, ?_⟩)
    · exact Nat.le_add_right ..
    · exact pairKey_le (countRead_le hle hc) hk
  | add env addr =>
    refine issues_add env addr w hrtc (fun k _ _ hk => hwrite _ _ _ (.inr ⟨?_, ?_⟩))
      fun _ _ => hwrite _ _ _ (.inl rfl)
    · exact Nat.le_add_right ..
    · exact pairKey_le (numNodes_add hle).2 hk
  | timestamp env idx => exact issues_timestamp hrtc env idx w
  | setRssi idx rssi => exact issues_setRssi idx rssi w
  | setAvatar idx avatar => exact issues_setAvatar idx avatar w
  | get | getFirst | getNext | getRssi | getAvatar => exact .ram rfl rfl

theorem inBounds_storeCall (hle : w.store.numNodes.toNat ≤ maxNodes) {c : StoreCall}
    (hc : ¬ c.trustsCount w) : c.InBounds w where
  nodes := footprint_lt hle hc
  records := records_storeCall hle hc
  count := numNodes_storeCall hle hc
  noWrap := by
    rintro env addr rfl
    exact (numNodes_add hle).1

end

/-- **When the store keeps its bounds**: in the runs, over any NVRAM contents, in which no
`grpr_store_init` reads a stored count above `maxNodes`. -/
theorem inBounds_exact (nv : Nvram) (cs : List StoreCall) :
    EachStep Watch.storeCall (fun w c => c.InBounds w) (powerOn nv) cs ↔
      EachStep Watch.storeCall (fun w c => ¬ c.trustsCount w) (powerOn nv) cs := by
  constructor
  · intro h pre c hpre htrusts
    have hbounds := (h pre c hpre).count
    cases c with
    | init env =>
      have hcount := lt_countRead htrusts
      have hnum : (countRead env (run Watch.storeCall (powerOn nv) pre)).toNat ≤ maxNodes := by
        rw [← numNodes_init]
        exact hbounds
      omega
    | _ => exact htrusts
  · intro h
    exact h.of_invariant (P := fun w => w.store.numNodes.toNat ≤ maxNodes)
      (fun _ _ hc hle => numNodes_storeCall hle hc) (Nat.zero_le _)
      fun _ _ hc hle => inBounds_storeCall hle hc

/-- The count record holds a byte that no save has written. -/
theorem trusts_count_byte :
    ¬ EachStep Watch.storeCall (fun w c => c.InBounds w)
      (powerOn fun vsId => if vsId = nvmStoreCount then [200] else []) [.init (nominalEnv 0)] := by
  intro h
  have hbounds : (StoreCall.init (nominalEnv 0)).InBounds _ := h [] _ (List.prefix_refl _)
  exact absurd (hbounds.nodes 100 (by decide +kernel)) (by decide)

/-- In a run that never loads by a count that is too large, the memory behind the array keeps its
contents. -/
theorem behind_unchanged {nv : Nvram} {cs : List StoreCall}
    (h : EachStep Watch.storeCall (fun w c => ¬ c.trustsCount w) (powerOn nv) cs) {i : Nat}
    (hi : maxNodes ≤ i) :
    (run Watch.storeCall (powerOn nv) cs).store.nodes i = (powerOn nv).store.nodes i := by
  have hkeep : Always Watch.storeCall (fun w => w.store.numNodes.toNat ≤ maxNodes ∧
      w.store.nodes i = (powerOn nv).store.nodes i) (powerOn nv) cs := by
    refine always_of_eachStep ?_ ⟨Nat.zero_le _, rfl⟩ h
    rintro w c hc ⟨hle, hnode⟩
    have hout : i ∉ c.footprint w := fun hmem => absurd (footprint_lt hle hc i hmem) (by omega)
    exact ⟨numNodes_storeCall hle hc, ((localAt_storeCall w c).frame hout).trans hnode⟩
  exact hkeep.final.2

end Muchiwachi
