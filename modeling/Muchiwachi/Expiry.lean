import Muchiwachi.Lib.WrappedClock
import Muchiwachi.SavedStore

/-!
# When a peer counts as heard

A node carries the low 16 bits of the second it was last heard in; `IS_EXPIRED` compares them with
the 17 bits of seconds in the low word of the clock. What an operation does to a node's stamp is
`timestamp_storeOp`; from it follow the two results. `expired_exact` says for which times a stamped
node expires after `muchiNodeExpirationInS`, and `restored_expired` when a node that was restored
from NVRAM, saved stamp and all, counts as not heard.
-/

namespace Muchiwachi

open Lib

/-! ## The stamp of a node -/

/-- What an operation passes to `grpr_store_timestamp`. -/
def StoreOp.stamps (s : Store) : StoreOp → Option Int
  | .timestamp _ idx => some idx
  | .add _ (some a) =>
    if s.numNodes.toNat = maxNodes then none
    else if grprStoreLookup (some a) s < 0 then some s.numNodes.toNat
    else some (grprStoreLookup (some a) s)
  | _ => none

/-- The operation does not load the store anew, and does not stamp node `i`. -/
def StoreOp.KeepsStamp (i : Nat) (w : Watch) (o : StoreOp) : Prop :=
  (∀ env, o ≠ .init env) ∧ o.stamps w.store ≠ some (i : Int)

section

variable {env : Env} {w : Watch} {i : Nat}

theorem Watch.nodes_setNode_self (f : Node → Node) :
    (w.setNode i f).store.nodes i = f (w.store.nodes i) := Function.update_self ..

theorem Watch.nodes_setNode_ne {j : Nat} (h : i ≠ j) (f : Node → Node) :
    (w.setNode j f).store.nodes i = w.store.nodes i := Function.update_of_ne h ..

/-- A change that is not to the stamp. -/
theorem Watch.timestamp_setNode {f : Node → Node} (hf : ∀ n, (f n).timestamp = n.timestamp)
    (j : Nat) : ((w.setNode j f).store.nodes i).timestamp = (w.store.nodes i).timestamp := by
  by_cases h : i = j
  · subst h
    rw [Watch.nodes_setNode_self, hf]
  · rw [Watch.nodes_setNode_ne h]

theorem nodes_timestamp_ne {idx : Int} (h : idx ≠ i) :
    (grprStoreTimestamp env idx w).2.store.nodes i = w.store.nodes i := by
  unfold grprStoreTimestamp
  split
  · rfl
  · next hidx =>
    unfold Store.badIdx at hidx
    exact Watch.nodes_setNode_ne (by omega) _

theorem timestamp_add {a : Addr} (h : (StoreOp.add env (some a)).stamps w.store ≠ some (i : Int)) :
    ((grprStoreAdd env (some a) w).2.store.nodes i).timestamp = (w.store.nodes i).timestamp := by
  simp only [StoreOp.stamps] at h
  by_cases hfull : w.store.numNodes.toNat = maxNodes
  · rw [grprStoreAdd_full hfull]
  · by_cases ha : a ∈ w.store.addrs
    · rw [if_neg hfull, grprStoreLookup_of_mem ha, if_neg (by omega)] at h
      have hne : (w.store.addrs.idxOf a : Int) ≠ i := fun heq => h (congrArg some heq)
      rw [grprStoreAdd_known hfull ha, Watch.timestamp_setNode, nodes_timestamp_ne hne]
      exact fun _ => rfl
    · rw [if_neg hfull, grprStoreLookup_of_not_mem ha, if_pos (by omega)] at h
      have hne : (w.store.numNodes.toNat : Int) ≠ i := fun heq => h (congrArg some heq)
      rw [grprStoreAdd_new hfull ha, store_saveToNvram, appendNode]
      simp only
      rw [Watch.timestamp_setNode, nodes_timestamp_ne hne]
      exact fun _ => rfl

/-- **Only stamping changes a stamp.** -/
theorem timestamp_storeOp {o : StoreOp} (h : o.KeepsStamp i w) :
    ((w.storeOp o).store.nodes i).timestamp = (w.store.nodes i).timestamp := by
  obtain ⟨hinit, hstamps⟩ := h
  cases o with
  | init env => exact absurd rfl (hinit env)
  | add env addr =>
    cases addr with
    | none => rfl
    | some a => exact timestamp_add hstamps
  | timestamp env idx =>
    have hidx : idx ≠ i := fun heq => hstamps (congrArg some heq)
    exact congrArg Node.timestamp (nodes_timestamp_ne hidx)
  | isExpired env idx => rfl
  | getTotalExpired env =>
    show ((grprStoreGetTotalExpired env w).2.store.nodes i).timestamp = _
    rw [store_totalExpired]
  | setRssi idx rssi =>
    show ((grprStoreSetRssi idx rssi w).2.store.nodes i).timestamp = _
    unfold grprStoreSetRssi
    split
    · rfl
    · exact Watch.timestamp_setNode (f := fun n => { n with rssi := rssi }) (fun _ => rfl) _
  | setAvatar idx avatar =>
    show ((grprStoreSetAvatar idx avatar w).2.store.nodes i).timestamp = _
    unfold grprStoreSetAvatar
    split
    · rfl
    · exact Watch.timestamp_setNode (f := fun n => { n with avatar := avatar }) (fun _ => rfl) _

theorem timestamp_storeRun {os : List StoreOp}
    (h : EachStep Watch.storeOp (fun w o => o.KeepsStamp i w) w os) :
    ((run Watch.storeOp w os).store.nodes i).timestamp = (w.store.nodes i).timestamp :=
  (always_of_eachStep (P := fun v => (v.store.nodes i).timestamp = (w.store.nodes i).timestamp)
    (fun _ _ ho hv => (timestamp_storeOp ho).trans hv) rfl h).final

end

/-! ## The clock -/

/-- The counter stands at `c`. -/
def Env.atClock (env : Env) (c : Nat) : Env := { env with rtc := fun _ => .ofNat c }

/-- The counter in seconds. -/
def seconds (c : Nat) : Nat := c / 32768

theorem toNat_clockSeconds (env : Env) (c : Nat) (w : Watch) :
    (clockSeconds (env.atClock c) w).toNat = seconds c % 2 ^ 17 := by
  have hshift : ((15 : UInt32).toNat % 32) = 15 := rfl
  simp only [clockSeconds, Env.atClock, seconds, UInt32.toNat_shiftRight, UInt32.toNat_ofNat',
    hshift, Nat.shiftRight_eq_div_pow]
  omega

theorem toNat_stamp (env : Env) (c : Nat) (w : Watch) :
    (clockSeconds (env.atClock c) w).toUInt16.toNat = seconds c % 2 ^ 16 := by
  rw [UInt32.toNat_toUInt16, toNat_clockSeconds]
  exact Nat.mod_mod_of_dvd _ (by decide)

theorem isExpired_iff (env : Env) (c i : Nat) (w : Watch) :
    (grprStoreIsExpired (env.atClock c) i w).1 = true ↔
      (w.store.nodes i).timestamp.toNat + muchiNodeExpirationInS < seconds c % 2 ^ 17 := by
  rw [← toNat_clockSeconds env c w]
  exact decide_eq_true_iff

/-! ## A node that was stamped -/

/-- **When expiry follows the time that has passed** since the stamp. -/
theorem expired_exact (env1 env2 : Env) {c1 c2 : Nat} (hc : c1 ≤ c2) (w : Watch) {i : Nat}
    (hi : i < w.store.numNodes.toNat) {os : List StoreOp}
    (hos : EachStep Watch.storeOp (fun w o => o.KeepsStamp i w)
      (grprStoreTimestamp (env1.atClock c1) i w).2 os) :
    ((grprStoreIsExpired (env2.atClock c2) i
        (run Watch.storeOp (grprStoreTimestamp (env1.atClock c1) i w).2 os)).1 = true ↔
      muchiNodeExpirationInS < seconds c2 - seconds c1) ↔
    WrappedClock.TellsAge (2 ^ 16) (2 ^ 17) muchiNodeExpirationInS (seconds c1) (seconds c2) := by
  have hstamp : ((run Watch.storeOp (grprStoreTimestamp (env1.atClock c1) i w).2 os).store.nodes
      i).timestamp.toNat = seconds c1 % 2 ^ 16 := by
    rw [timestamp_storeRun hos, grprStoreTimestamp_stored hi, Watch.nodes_setNode_self, toNat_stamp]
  rw [isExpired_iff, hstamp]
  exact WrappedClock.seemsLate_iff (by decide) (by decide) (by decide) (Nat.div_le_div_right hc)

/-- A node is stamped when the counter has bit 31 set for the first time, and looked at in the
same second. -/
theorem expired_at_once :
    let env := (nominalEnv 0).atClock (2 ^ 31)
    let w := run Watch.storeOp (powerOn fun _ => []) [.add env (some addrOne)]
    (grprStoreIsExpired env 0 (grprStoreTimestamp env 0 w).2).1 = true ∧
      ¬ muchiNodeExpirationInS < seconds (2 ^ 31) - seconds (2 ^ 31) := by
  decide +kernel

theorem expired_exact_sample :
    let env := nominalEnv 0
    let w := run Watch.storeOp (powerOn fun _ => []) [.add env (some addrOne)]
    (grprStoreIsExpired (env.atClock (9 * 32768)) 0
      (run Watch.storeOp (grprStoreTimestamp (env.atClock 32768) 0 w).2
        [.add env (some addrTwo), .setRssi 0 (-20)])).1 = true := by
  intro env w
  refine ((expired_exact env env (by decide) w (by decide +kernel) ?_).mpr
    (by decide)).mpr (by decide)
  refine eachStep_cons.mpr ⟨⟨by simp, by decide +kernel⟩, ?_⟩
  exact eachStep_cons.mpr ⟨⟨by simp, by decide +kernel⟩, eachStep_nil⟩

/-! ## A node that was restored -/

section

variable {env : Env} (nv : Nvram) (s : Store)

theorem saved_pair {k : Nat} (hk : 2 * k < s.numNodes.toNat)
    (hwrite : env.writeOk (nvmStoreBase + k) = true) :
    applyWrites nv (saveWrites env s) (nvmStoreBase + k) = s.pairBytes (2 * k) := by
  refine applyWrites_of_mem (List.mem_append_left _ (List.mem_flatMap.mpr
    ⟨k, List.mem_range.mpr (by omega), by simp [okWrite, hwrite]⟩)) fun w hw hkey => ?_
  rcases List.mem_append.mp hw with hpair | hcount
  · obtain ⟨j, -, hj⟩ := List.mem_flatMap.mp hpair
    obtain rfl := okWrite_eq_self hj
    rw [Nat.add_left_cancel hkey]
  · obtain rfl := okWrite_eq_self hcount
    exact absurd hkey.symm (pairKey_ne_count k)

theorem saved_count (hwrite : env.writeOk nvmStoreCount = true) :
    applyWrites nv (saveWrites env s) nvmStoreCount = [s.numNodes] := by
  refine applyWrites_of_mem (List.mem_append_right _ (by simp [okWrite, hwrite]))
    fun w hw hkey => ?_
  rcases List.mem_append.mp hw with hpair | hcount
  · obtain ⟨j, -, hj⟩ := List.mem_flatMap.mp hpair
    obtain rfl := okWrite_eq_self hj
    exact absurd hkey (pairKey_ne_count j)
  · rw [okWrite_eq_self hcount]

end

/-- The accesses that save node `i` with `save`, or load it with `boot`, succeed. -/
structure Restores (save boot : Env) (i : Nat) : Prop where
  writeCount : save.writeOk nvmStoreCount = true
  writePair : save.writeOk (nvmStoreBase + i / 2) = true
  readCount : boot.readOk nvmStoreCount = true
  readPair : boot.readOk (nvmStoreBase + i / 2) = true

/-- A restored node is the saved one, its stamp included. -/
theorem node_restored {save boot : Env} {v : Watch} {i : Nat} (hi : i < v.store.numNodes.toNat)
    (h : Restores save boot i) :
    (restarted boot (saveToNvram save v).chip.nvram).store.nodes i = v.store.nodes i := by
  rw [(writes_saveToNvram save v).nvram]
  have hpair := saved_pair v.chip.nvram v.store (k := i / 2) (by omega) h.writePair
  have hcount := saved_count v.chip.nvram v.store h.writeCount
  generalize applyWrites v.chip.nvram (saveWrites save v.store) = nv at hpair hcount ⊢
  have hread : (bleprofileReadNVRAM boot nvmStoreCount 1 (powerOn nv)).1 = [v.store.numNodes] := by
    unfold bleprofileReadNVRAM
    rw [if_pos h.readCount]
    show (nv nvmStoreCount).take 1 = _
    rw [hcount]
    rfl
  have hnum : v.store.numNodes ≠ 0 := by
    intro hzero
    rw [hzero] at hi
    exact absurd hi (Nat.not_lt_zero _)
  unfold restarted grprStoreInit
  simp only [hread, List.getD_cons_zero]
  rw [if_pos hnum, loadFromNvram]
  have hlen : (nv (nvmStoreBase + i / 2)).length = 2 * nodeSize := by
    rw [hpair, Store.length_pairBytes]
  have hlt : i / 2 < (v.store.numNodes.toNat + 1) / 2 := by omega
  rw [nodes_foldl_loadPair hlt h.readPair hlen]
  show Node.ofBytes (nv _) _ = _
  rw [hpair, Store.ofBytes_pairBytes _ _ (Nat.mod_lt _ (by decide)), Nat.div_add_mod]

/-- **When a restored node counts as not heard**: its saved stamp, of a clock that is gone, is
more than `muchiNodeExpirationInS` before the new clock. -/
theorem restored_expired (save boot : Env) (v : Watch) {i : Nat} (hi : i < v.store.numNodes.toNat)
    (h : Restores save boot i) {os : List StoreOp}
    (hos : EachStep Watch.storeOp (fun w o => o.KeepsStamp i w)
      (restarted boot (saveToNvram save v).chip.nvram) os) (env : Env) (c : Nat) :
    (grprStoreIsExpired (env.atClock c) i
        (run Watch.storeOp (restarted boot (saveToNvram save v).chip.nvram) os)).1 = true ↔
      (v.store.nodes i).timestamp.toNat + muchiNodeExpirationInS < seconds c % 2 ^ 17 := by
  rw [isExpired_iff, timestamp_storeRun hos, node_restored hi h]

/-- A peer is heard 100 seconds after the watch is switched on, and power is lost. -/
theorem restored_alive :
    let env := nominalEnv 0
    let v := run Watch.storeOp (powerOn fun _ => [])
      [.add (env.atClock (100 * 32768)) (some addrOne)]
    (grprStoreIsExpired (env.atClock 0) 0 (restarted env v.chip.nvram)).1 = false := by
  decide +kernel

theorem restored_expired_sample :
    let env := nominalEnv 0
    let v := run Watch.storeOp (powerOn fun _ => [])
      [.add (env.atClock (100 * 32768)) (some addrOne)]
    (grprStoreIsExpired (env.atClock (106 * 32768)) 0
      (run Watch.storeOp (restarted env (saveToNvram env v).chip.nvram)
        [.add env (some addrTwo)])).1 = true := by
  intro env v
  refine (restored_expired env env v (by decide +kernel) ⟨rfl, rfl, rfl, rfl⟩ ?_ env _).mpr
    (by decide +kernel)
  exact eachStep_cons.mpr ⟨⟨by simp, by decide +kernel⟩, eachStep_nil⟩

end Muchiwachi
