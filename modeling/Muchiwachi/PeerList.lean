import Muchiwachi.Create
import Muchiwachi.GroupSpec

/-!
# The peer list over whole runs

The address list of the store is a `BoundedLog`: `grpr_store_add` is its `push`
(`addrs_grprStoreAdd`), so over any sequence of group events and reports the list is the initial
one with the senders of the accepted invitations pushed to it (`peerList_exact`).
-/

namespace Muchiwachi

open Lib

/-! ## Appending a node -/

section

variable {env : Env} {a : Addr} {w : Watch}

theorem numNodes_appendNode_eq :
    (appendNode env a w).store.numNodes = w.store.numNodes + 1 :=
  numNodes_timestamp env _ { w with store := { w.store with numNodes := w.store.numNodes + 1 } }

theorem numNodes_appendNode (h : w.store.numNodes.toNat < 255) :
    (appendNode env a w).store.numNodes.toNat = w.store.numNodes.toNat + 1 := by
  rw [numNodes_appendNode_eq, UInt8.toNat_add]
  simp; omega

/-- Nodes below the appended one keep their address, and the appended one has its own. -/
theorem addr_appendNode (i : Nat) :
    ((appendNode env a w).store.nodes i).addr =
      if i = w.store.numNodes.toNat then a else (w.store.nodes i).addr := by
  unfold appendNode grprStoreTimestamp Watch.setNode
  by_cases hi : i = w.store.numNodes.toNat
  · subst hi
    simp
  · simp only [Function.update_of_ne hi, if_neg hi]
    split
    · rfl
    · simp [Function.update_of_ne hi, Watch.call]

theorem addrs_appendNode (h : w.store.numNodes.toNat < 255) :
    (appendNode env a w).store.addrs = w.store.addrs ++ [a] := by
  unfold Store.addrs
  rw [numNodes_appendNode h, List.range_succ, List.map_append, List.map_singleton,
    addr_appendNode, if_pos rfl]
  congr 1
  apply List.map_congr_left
  intro i hi
  rw [addr_appendNode, if_neg (by have := List.mem_range.mp hi; omega)]

/-- Overwriting a known node's address with itself. -/
theorem addrs_readd (ha : a ∈ w.store.addrs) :
    ((grprStoreTimestamp env (w.store.addrs.idxOf a) w).2.setNode (w.store.addrs.idxOf a)
      fun n => { n with addr := a }).store.addrs = w.store.addrs := by
  have hget := List.getElem?_idxOf ha
  have hlt := List.idxOf_lt_length_of_mem ha
  generalize w.store.addrs.idxOf a = k at hget hlt ⊢
  have hts := addrs_timestamp env k w
  rw [← hts] at hget hlt ⊢
  rw [Store.getElem?_addrs (by simpa using hlt), Option.some.injEq] at hget
  exact Watch.addrs_setNode (f := fun n => { n with addr := a }) hget.symm

/-- Whatever the store holds, adding `a` adds no other address. -/
theorem mem_addrs_grprStoreAdd {x : Addr}
    (hx : x ∈ (grprStoreAdd env (some a) w).2.store.addrs) : x ∈ w.store.addrs ∨ x = a := by
  by_cases hfull : w.store.numNodes.toNat = maxNodes
  · rw [grprStoreAdd_full hfull] at hx
    exact .inl hx
  · by_cases ha : a ∈ w.store.addrs
    · rw [grprStoreAdd_known hfull ha] at hx
      exact .inl (addrs_readd ha ▸ hx)
    · rw [grprStoreAdd_new hfull ha, store_saveToNvram] at hx
      obtain ⟨i, hi, rfl⟩ := List.mem_map.mp hx
      rw [addr_appendNode]
      split
      · exact .inr rfl
      · next hne =>
        -- the count may wrap around, but never skips
        have hnum : (appendNode env a w).store.numNodes.toNat ≤ w.store.numNodes.toNat + 1 := by
          rw [numNodes_appendNode_eq, UInt8.toNat_add]
          exact Nat.mod_le ..
        have hlt := List.mem_range.mp hi
        exact .inl (List.mem_map.mpr ⟨i, List.mem_range.mpr (by omega), rfl⟩)

/-- A new address is known when it has been added, unless the count has wrapped around. -/
theorem mem_addrs_add_new (h : w.store.numNodes.toNat ≠ maxNodes) (ha : a ∉ w.store.addrs) :
    a ∈ (grprStoreAdd env (some a) w).2.store.addrs ↔ w.store.numNodes.toNat ≠ 255 := by
  rw [grprStoreAdd_new h ha, store_saveToNvram]
  have hlt := w.store.numNodes.toNat_lt
  by_cases hwrap : w.store.numNodes.toNat = 255
  · have hnum : (appendNode env a w).store.numNodes.toNat = 0 := by
      rw [numNodes_appendNode_eq, UInt8.toNat_add, hwrap]
      rfl
    simp [Store.addrs, hnum, hwrap]
  · rw [addrs_appendNode (by omega)]
    simp [hwrap]

/-- **`grpr_store_add` is a push** on the list of addresses. -/
theorem addrs_grprStoreAdd {l : BoundedLog Addr maxNodes} (h : w.store.addrs = l.entries) :
    (grprStoreAdd env (some a) w).2.store.addrs = (l.push a).entries := by
  have hlen : w.store.numNodes.toNat = l.entries.length := by rw [← h, Store.length_addrs]
  by_cases hfull : w.store.numNodes.toNat = maxNodes
  · rw [grprStoreAdd_full hfull, BoundedLog.push_of_full (hlen ▸ hfull), h]
  · by_cases ha : a ∈ w.store.addrs
    · rw [grprStoreAdd_known hfull ha, BoundedLog.push_of_mem (h ▸ ha), ← h]
      exact addrs_readd ha
    · have hlt : w.store.numNodes.toNat < maxNodes := by
        have := l.length_le
        omega
      rw [grprStoreAdd_new hfull ha, BoundedLog.entries_push_new (hlen ▸ hfull) (h ▸ ha),
        store_saveToNvram, addrs_appendNode (hlt.trans (by decide)), h]

end

/-! ## Runs of group events and reports -/

/-- What drives the group state machine. -/
inductive GroupInput where
  | groupingStart (env : Env)
  | groupingStop (env : Env)
  | report (env : Env) (r : AdvReport)

def groupStep (w : Watch) : GroupInput → Watch
  | .groupingStart env => groupfsmProcessEvent env .groupingStart w
  | .groupingStop env => groupfsmProcessEvent env .groupingStop w
  | .report env r => muchiAdvertisementReport env r w

/-- The sender of an accepted invitation. -/
def invitedBy (w : Watch) : GroupInput → List Addr
  | .report env r => if acceptedInvitation env r w then [r.wdAddr] else []
  | _ => []

/-- One input pushes the sender it accepts, if any. -/
theorem addrs_groupStep {w : Watch} {l : BoundedLog Addr maxNodes}
    (h : w.store.addrs = l.entries) (i : GroupInput) :
    (groupStep w i).store.addrs = (run BoundedLog.push l (invitedBy w i)).entries := by
  cases i with
  | groupingStart env =>
    show (groupfsmProcessEvent env .groupingStart w).store.addrs = _
    rw [(store_groupfsm env w).1]
    exact h
  | groupingStop env =>
    show (groupfsmProcessEvent env .groupingStop w).store.addrs = _
    rw [(store_groupfsm env w).2]
    exact h
  | report env r =>
    show (grprProcessAdverts env r w).store.addrs = _
    rw [addrs_report, invitedBy]
    split
    · exact addrs_grprStoreAdd h
    · exact h

theorem addrs_groupRun {w : Watch} {l : BoundedLog Addr maxNodes}
    (h : w.store.addrs = l.entries) (is : List GroupInput) :
    (run groupStep w is).store.addrs =
      (run BoundedLog.push l (outputs groupStep invitedBy w is)).entries :=
  run_simulates (R := fun (w : Watch) (l : BoundedLog Addr maxNodes) => w.store.addrs = l.entries)
    (fun _ _ i h => addrs_groupStep h i) h is

/-- A found address keeps its index when the list grows at its end. -/
theorem grprStoreGet_stable {s s' : Store} (h : s.addrs <+: s'.addrs) {a : Addr}
    (ha : 0 ≤ grprStoreGet (some a) s) : grprStoreGet (some a) s' = grprStoreGet (some a) s := by
  have hmem : a ∈ s.addrs := by
    by_contra hn
    rw [grprStoreGet, grprStoreLookup_of_not_mem hn] at ha
    omega
  rw [grprStoreGet, grprStoreGet, grprStoreLookup_of_mem hmem,
    grprStoreLookup_of_mem (h.subset hmem), h.idxOf_eq_of_mem hmem]

/-- **The exact content of the peer list.** Over any run of group events and reports from a
store of at most `maxNodes` distinct addresses: the list at the end is the initial one followed
by the senders of the accepted invitations that were not in it, in order of first occurrence,
cut at `maxNodes`. So it stays distinct and within bounds, at every point of the run it is a
prefix of what it becomes, and an index once returned by `grpr_store_get` stays. -/
theorem peerList_exact (w : Watch) (hle : w.store.numNodes.toNat ≤ maxNodes)
    (hnd : w.store.addrs.Nodup) (is : List GroupInput) :
    (run groupStep w is).store.addrs =
        (w.store.addrs ++
          ((outputs groupStep invitedBy w is).removeAll w.store.addrs).eraseDups).take maxNodes ∧
      (run groupStep w is).store.addrs.Nodup ∧
      (run groupStep w is).store.numNodes.toNat ≤ maxNodes ∧
      ∀ pre, pre <+: is →
        (run groupStep w pre).store.addrs <+: (run groupStep w is).store.addrs ∧
        ∀ a, 0 ≤ grprStoreGet (some a) (run groupStep w pre).store →
          grprStoreGet (some a) (run groupStep w is).store =
            grprStoreGet (some a) (run groupStep w pre).store := by
  let l : BoundedLog Addr maxNodes := ⟨w.store.addrs, hnd, by rw [Store.length_addrs]; exact hle⟩
  have hrun : ∀ is, (run groupStep w is).store.addrs =
      (run BoundedLog.push l (outputs groupStep invitedBy w is)).entries :=
    fun is => addrs_groupRun rfl is
  have hgrow : ∀ pre, pre <+: is →
      (run groupStep w pre).store.addrs <+: (run groupStep w is).store.addrs := by
    rintro pre ⟨post, rfl⟩
    rw [run_append, addrs_groupRun (hrun pre) post, hrun pre]
    exact BoundedLog.entries_prefix_run ..
  refine ⟨?_, ?_, ?_, fun pre hpre => ⟨hgrow pre hpre, fun a ha => ?_⟩⟩
  · exact (hrun is).trans (BoundedLog.entries_run_push l _)
  · rw [hrun]
    exact (run BoundedLog.push l _).nodup
  · rw [← Store.length_addrs, hrun]
    exact (run BoundedLog.push l _).length_le
  · exact grprStoreGet_stable (hgrow pre hpre) ha

/-- Two neighbours. -/
def addrOne : Addr := #v[1, 2, 3, 4, 5, 6]
def addrTwo : Addr := #v[9, 9, 9, 9, 9, 9]

/-- A report from `a`, received at full strength, that carries nothing but service data with the
given state byte. -/
def serviceReport (a : Addr) (state : UInt8) : AdvReport where
  wdAddr := a
  dataLen := 28
  data :=
    let d : MuchiServiceData := ⟨uuidMuchiService, 0, state, 0, 0, 56⟩
    let bytes := 27 :: advServiceDataUuid128 :: d.toBytes
    Vector.ofFn fun i => bytes.getD i 0
  rssi := -10
  beyond _ := 0

/-- A fresh watch meets one neighbour that is not grouping, and one that is twice. -/
def sampleMeeting : List GroupInput :=
  let env := nominalEnv 0
  [.groupingStart env, .report env (serviceReport addrOne 0),
    .report env (serviceReport addrTwo flagGrouping),
    .report env (serviceReport addrTwo flagGrouping), .groupingStop env]

theorem peerList_exact_sample :
    (run groupStep (powerOn fun _ => []) sampleMeeting).store.addrs = [addrTwo] := by
  rw [(peerList_exact (powerOn fun _ => []) (by decide) (by decide) sampleMeeting).1]
  decide +kernel

end Muchiwachi
