import Muchiwachi.SavedStore

/-!
# Adding to a full store

`grpr_store_add` looks at the room there is before it looks for the address. `addsRight_exact`
says in which runs it treats known peers as known: those that add none of them to a full store.
-/

namespace Muchiwachi

open Lib

/-! ## A known peer -/

/-- `a` is stored at index `i`, and at none before it. -/
def Store.FirstAt (s : Store) (a : Addr) (i : Nat) : Prop :=
  i < s.numNodes.toNat ∧ (s.nodes i).addr = a ∧ ∀ j < i, (s.nodes j).addr ≠ a

/-- The clock is read, and node `i` stamped with its seconds. -/
def stamped (env : Env) (i : Nat) (w : Watch) : Watch :=
  (w.call .readRtc).setNode i fun n => { n with timestamp := (clockSeconds env w).toUInt16 }

/-- What `grpr_store_add` is to do with an address: stamp the node of a known one and nothing
else, and refuse only null and, in a full store, an unknown one. -/
structure AddsRight (env : Env) (addr : Option Addr) (w : Watch) : Prop where
  known : ∀ a i, addr = some a → w.store.FirstAt a i →
    grprStoreAdd env addr w = ((i : Int), stamped env i w)
  refused : (grprStoreAdd env addr w).1 = -1 → (grprStoreAdd env addr w).2 = w ∧
    (addr = none ∨ ∃ a, addr = some a ∧ a ∉ w.store.addrs ∧ w.store.numNodes.toNat = maxNodes)

/-- A known address is added to a full store. -/
def AddsKnownToFull (addr : Option Addr) (w : Watch) : Prop :=
  ∃ a, addr = some a ∧ a ∈ w.store.addrs ∧ w.store.numNodes.toNat = maxNodes

section

variable {env : Env} {a : Addr} {w : Watch}

theorem Store.FirstAt.mem {s : Store} {i : Nat} (h : s.FirstAt a i) : a ∈ s.addrs :=
  List.mem_map.mpr ⟨i, List.mem_range.mpr h.1, h.2.1⟩

/-- A lookup finds the first index. -/
theorem firstAt_idxOf {s : Store} (h : a ∈ s.addrs) : s.FirstAt a (s.addrs.idxOf a) := by
  have hlt := List.idxOf_lt_length_of_mem h
  have hget := List.getElem?_idxOf h
  have hnum : s.addrs.idxOf a < s.numNodes.toNat := by rwa [Store.length_addrs] at hlt
  refine ⟨hnum, ?_, fun j hj haddr => ?_⟩
  · rwa [Store.getElem?_addrs hnum, Option.some.injEq] at hget
  · have hj' : s.addrs[j]? = some a := by rw [Store.getElem?_addrs (by omega), haddr]
    obtain ⟨hlen, hel⟩ := List.getElem?_eq_some_iff.mp hj'
    have hnot := List.not_of_lt_findIdx (p := (· == a)) hj
    simp [hel] at hnot

theorem Store.FirstAt.unique {s : Store} {i j : Nat} (hi : s.FirstAt a i) (hj : s.FirstAt a j) :
    i = j := by
  rcases Nat.lt_trichotomy i j with hlt | heq | hgt
  · exact absurd hi.2.1 (hj.2.2 i hlt)
  · exact heq
  · exact absurd hj.2.1 (hi.2.2 j hgt)

@[simp] theorem Watch.nodes_setNode (i : Nat) (f : Node → Node) :
    (w.setNode i f).store.nodes i = f (w.store.nodes i) := Function.update_self ..

/-- Changing a node to what it is. -/
theorem Watch.setNode_self {i : Nat} {f : Node → Node}
    (hf : f (w.store.nodes i) = w.store.nodes i) : w.setNode i f = w := by
  unfold Watch.setNode
  rw [hf, Function.update_eq_self]

theorem Node.withAddr_self {n : Node} (h : n.addr = a) : { n with addr := a } = n := by
  subst h
  rfl

/-- A known address added to a store that is not full: its node is stamped. -/
theorem grprStoreAdd_stamps (hroom : w.store.numNodes.toNat ≠ maxNodes) {i : Nat}
    (hi : w.store.FirstAt a i) : grprStoreAdd env (some a) w = ((i : Int), stamped env i w) := by
  obtain rfl := hi.unique (firstAt_idxOf hi.mem)
  rw [grprStoreAdd_known hroom hi.mem, grprStoreTimestamp_stored hi.1]
  obtain ⟨-, haddr, -⟩ := hi
  generalize w.store.addrs.idxOf a = i at haddr ⊢
  have hstamp : ((stamped env i w).store.nodes i).addr = a := by
    rw [stamped, Watch.nodes_setNode]
    exact haddr
  exact congrArg _ (Watch.setNode_self (Node.withAddr_self hstamp))

theorem addsRight_iff (env : Env) (addr : Option Addr) (w : Watch) :
    AddsRight env addr w ↔ ¬ AddsKnownToFull addr w := by
  constructor
  · rintro h ⟨a, rfl, ha, hfull⟩
    have hknown := h.known a _ rfl (firstAt_idxOf ha)
    rw [grprStoreAdd_full hfull] at hknown
    have hindex := congrArg Prod.fst hknown
    simp only at hindex
    omega
  · intro h
    refine ⟨?_, fun hrefused => ?_⟩
    · rintro a i rfl hi
      exact grprStoreAdd_stamps (fun hfull => h ⟨a, rfl, hi.mem, hfull⟩) hi
    · rcases addr with _ | a
      · exact ⟨rfl, .inl rfl⟩
      · by_cases hfull : w.store.numNodes.toNat = maxNodes
        · have hunknown : a ∉ w.store.addrs := fun ha => h ⟨a, rfl, ha, hfull⟩
          exact ⟨by rw [grprStoreAdd_full hfull], .inr ⟨a, rfl, hunknown, hfull⟩⟩
        · -- an index is returned
          by_cases ha : a ∈ w.store.addrs
          · rw [grprStoreAdd_known hfull ha] at hrefused
            simp only at hrefused
            omega
          · rw [grprStoreAdd_new hfull ha] at hrefused
            simp only at hrefused
            omega

end

/-! ## Over a run -/

/-- An addition does what it is to do. -/
def StoreInput.AddsRight (w : Watch) : StoreInput → Prop
  | .op (.add env addr) => Muchiwachi.AddsRight env addr w
  | _ => True

/-- A known address is added to a full store. -/
def StoreInput.addsKnownToFull (w : Watch) : StoreInput → Prop
  | .op (.add _ addr) => AddsKnownToFull addr w
  | _ => False

theorem storeInput_addsRight_iff (w : Watch) (i : StoreInput) :
    i.AddsRight w ↔ ¬ i.addsKnownToFull w := by
  rcases i with (_ | ⟨env, addr⟩ | _ | _ | _ | _ | _) | _
  case op.add => exact addsRight_iff env addr w
  all_goals exact iff_of_true trivial not_false

/-- **When known peers are treated as known**: in the runs of store operations and power losses,
over any NVRAM contents, that add no known address to a full store. -/
theorem addsRight_exact (nv : Nvram) (is : List StoreInput) :
    EachStep Watch.storeStep (fun w i => i.AddsRight w) (powerOn nv) is ↔
      EachStep Watch.storeStep (fun w i => ¬ i.addsKnownToFull w) (powerOn nv) is :=
  eachStep_congr storeInput_addsRight_iff

/-- A hundred neighbours. -/
def samplePeers : List Addr := (List.range 100).map fun k => #v[.ofNat k, 0, 0, 0, 0, 0]

/-- All of them are added to an empty store. -/
def sampleFill : List StoreInput :=
  samplePeers.map fun a => .op (.add (nominalEnv 0) (some a))

theorem addrs_sampleFill :
    (run Watch.storeStep (powerOn fun _ => []) sampleFill).store.addrs = samplePeers := by
  have hadds : ∀ (as : List Addr) (w : Watch) (l : BoundedLog Addr maxNodes),
      w.store.addrs = l.entries →
      (run Watch.storeStep w (as.map fun a => .op (.add (nominalEnv 0) (some a)))).store.addrs =
        (run BoundedLog.push l as).entries := by
    intro as
    induction as with
    | nil => exact fun w l h => h
    | cons a as ih => exact fun w l h => ih _ _ (addrs_grprStoreAdd h)
  have hnd : samplePeers.Nodup := by
    refine List.nodup_range.map_on fun i hi j hj h => ?_
    have hi := List.mem_range.mp hi
    have hj := List.mem_range.mp hj
    have hbyte : (UInt8.ofNat i).toNat = (UInt8.ofNat j).toNat :=
      congrArg (fun a : Addr => a[0].toNat) h
    simp only [UInt8.toNat_ofNat'] at hbyte
    omega
  rw [sampleFill, hadds samplePeers (powerOn fun _ => []) .empty rfl,
    BoundedLog.entries_run_push_of_nodup]
  · rfl
  · exact hnd
  · simp [samplePeers, BoundedLog.empty, maxNodes]

/-- The first of them is added again, and turned down. -/
theorem full_store_refuses_known :
    ¬ EachStep Watch.storeStep (fun w i => i.AddsRight w) (powerOn fun _ => [])
      (sampleFill ++ [.op (.add (nominalEnv 0) (some (samplePeers.headD addrOne)))]) := by
  intro h
  have hlast : AddsRight (nominalEnv 0) _ _ := h sampleFill _ (List.prefix_refl _)
  refine (addsRight_iff _ _ _).mp hlast ⟨_, rfl, ?_, ?_⟩
  · rw [addrs_sampleFill]
    decide +kernel
  · rw [← Store.length_addrs, addrs_sampleFill]
    simp [samplePeers, maxNodes]

end Muchiwachi
