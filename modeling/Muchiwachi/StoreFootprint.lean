import Muchiwachi.SavedStore
import Muchiwachi.Lib.Footprint

/-!
# What the store accesses

`StoreCall.footprint` lists the places of `nodes[]` that a call of the store accesses, in the array
or behind it, as the code does. `localAt_storeCall` and `answer_put` say that it misses none: what
is in the other places is neither changed nor does it make a difference.
-/

namespace Muchiwachi

open Lib

/-! ## The calls and what they access -/

/-- The calls of the store that check the index they are given, and those without one. -/
inductive StoreCall where
  | init (env : Env)
  | add (env : Env) (addr : Option Addr)
  | get (addr : Option Addr)
  | getFirst
  | getNext (idx : Int)
  | timestamp (env : Env) (idx : Int)
  | setRssi (idx : Int) (rssi : Int8)
  | getRssi (idx : Int)
  | setAvatar (idx : Int) (avatar : Int8)
  | getAvatar (idx : Int)

def Watch.storeCall (w : Watch) : StoreCall → Watch
  | .init env => grprStoreInit env w
  | .add env addr => (grprStoreAdd env addr w).2
  | .timestamp env idx => (grprStoreTimestamp env idx w).2
  | .setRssi idx rssi => (grprStoreSetRssi idx rssi w).2
  | .setAvatar idx avatar => (grprStoreSetAvatar idx avatar w).2
  | .get _ | .getFirst | .getNext _ | .getRssi _ | .getAvatar _ => w

/-- What a call returns. -/
def StoreCall.answer (w : Watch) : StoreCall → Option Int
  | .init _ => none
  | .add env addr => some (grprStoreAdd env addr w).1
  | .get addr => some (grprStoreGet addr w.store)
  | .getFirst => some (grprStoreGetFirst w.store)
  | .getNext idx => some (grprStoreGetNext idx w.store)
  | .timestamp env idx => some (grprStoreTimestamp env idx w).1
  | .setRssi idx rssi => some (grprStoreSetRssi idx rssi w).1
  | .getRssi idx => some (grprStoreGetRssi idx w.store).toInt
  | .setAvatar idx avatar => some (grprStoreSetAvatar idx avatar w).1
  | .getAvatar idx => some (grprStoreGetAvatar idx w.store).toInt

/-- The nodes a lookup compares: up to the first that matches. -/
def lookupFootprint (addr : Option Addr) (s : Store) : List Nat :=
  match addr with
  | none => []
  | some _ =>
    let i := grprStoreLookup addr s
    if i < 0 then List.range s.numNodes.toNat else List.range (i.toNat + 1)

/-- The node behind an index that is checked. -/
def indexFootprint (idx : Int) (s : Store) : List Nat := if s.badIdx idx then [] else [idx.toNat]

/-- The nodes that loading and saving of `n` nodes go through, two at a time. -/
def pairFootprint (n : Nat) : List Nat :=
  (List.range ((n + 1) / 2)).flatMap fun k => [2 * k, 2 * k + 1]

/-- The indices at which `grpr_store_add` accesses `nodes[]`. -/
def addFootprint (addr : Option Addr) (s : Store) : List Nat :=
  match addr with
  | none => []
  | some _ =>
    if s.numNodes.toNat = maxNodes then []
    else
      let i := grprStoreLookup addr s
      if i < 0 then
        let s' := { s with numNodes := s.numNodes + 1 }
        let i := s.numNodes.toNat
        lookupFootprint addr s ++ indexFootprint i s' ++ [i] ++ pairFootprint s'.numNodes.toNat
      else lookupFootprint addr s ++ indexFootprint i s ++ [i.toNat]

/-- The indices at which a call accesses `nodes[]`. -/
def StoreCall.footprint (w : Watch) : StoreCall → List Nat
  | .init env => List.range maxNodes ++ pairFootprint (countRead env w).toNat
  | .add _ addr => addFootprint addr w.store
  | .get addr => lookupFootprint addr w.store
  | .getFirst | .getNext _ => []
  | .timestamp _ idx | .setRssi idx _ | .getRssi idx | .setAvatar idx _ | .getAvatar idx =>
    indexFootprint idx w.store

/-! ## Locality -/

/-- `nodes[]` and what lies behind it. -/
def nodeMemory : Memory Watch Nat Node where
  cells w := w.store.nodes
  put m w := { w with store := { w.store with nodes := m } }
  cells_put _ _ := rfl
  put_cells _ := rfl
  put_put _ _ _ := rfl

theorem numNodes_put (m : Nat → Node) (w : Watch) :
    (nodeMemory.put m w).store.numNodes = w.store.numNodes := rfl

section

variable {w : Watch} {S : List Nat}

theorem localAt_setNode {i : Nat} (hi : i ∈ S) (f : Node → Node) :
    LocalAt nodeMemory S (fun v => v.setNode i f) w := by
  refine (localAt_update hi (f (w.store.nodes i))).congr fun m hm => ?_
  show nodeMemory.put (Function.update m i (f (m i))) w = _
  rw [hm i hi]
  rfl

/-- Code that checks its index and then changes the node. -/
theorem localAt_checked {idx : Int} (hS : indexFootprint idx w.store ⊆ S) {f : Watch → Watch}
    {g : Node → Node} {h : Watch → Watch} (hput : ∀ m, h (nodeMemory.put m w) =
      nodeMemory.put m (h w))
    (hf : ∀ m, f (nodeMemory.put m w) = if w.store.badIdx idx then nodeMemory.put m w
      else (h (nodeMemory.put m w)).setNode idx.toNat g) : LocalAt nodeMemory S f w := by
  by_cases hbad : w.store.badIdx idx
  · have hid : LocalAt nodeMemory S (fun v => v) w := localAt_of_put fun _ => rfl
    refine hid.congr fun m _ => ?_
    rw [hf m, if_pos hbad]
  · have hi : idx.toNat ∈ S := hS (by simp [indexFootprint, hbad])
    have hcall : LocalAt nodeMemory S h w := localAt_of_put hput
    refine (hcall.comp (localAt_setNode hi g)).congr fun m _ => ?_
    rw [hf m, if_neg hbad]

theorem localAt_timestamp (env : Env) {idx : Int} (hS : indexFootprint idx w.store ⊆ S) :
    LocalAt nodeMemory S (fun v => (grprStoreTimestamp env idx v).2) w := by
  refine localAt_checked (h := fun v => v.call .readRtc)
    (g := fun n => { n with timestamp := (clockSeconds env w).toUInt16 }) hS (fun _ => rfl)
    fun m => ?_
  show (grprStoreTimestamp env idx (nodeMemory.put m w)).2 = _
  unfold grprStoreTimestamp
  exact apply_ite Prod.snd ..

theorem localAt_setRssi {idx : Int} (hS : indexFootprint idx w.store ⊆ S) (rssi : Int8) :
    LocalAt nodeMemory S (fun v => (grprStoreSetRssi idx rssi v).2) w := by
  refine localAt_checked (h := fun v => v) (g := fun n => { n with rssi := rssi }) hS
    (fun _ => rfl) fun m => ?_
  show (grprStoreSetRssi idx rssi (nodeMemory.put m w)).2 = _
  unfold grprStoreSetRssi
  exact apply_ite Prod.snd ..

theorem localAt_setAvatar {idx : Int} (hS : indexFootprint idx w.store ⊆ S) (avatar : Int8) :
    LocalAt nodeMemory S (fun v => (grprStoreSetAvatar idx avatar v).2) w := by
  refine localAt_checked (h := fun v => v) (g := fun n => { n with avatar := avatar }) hS
    (fun _ => rfl) fun m => ?_
  show (grprStoreSetAvatar idx avatar (nodeMemory.put m w)).2 = _
  unfold grprStoreSetAvatar
  exact apply_ite Prod.snd ..

end

/-! ### Lookup -/

theorem grprStoreLookup_congr {addr : Option Addr} {s : Store} {m : Nat → Node}
    (hm : ∀ i ∈ lookupFootprint addr s, m i = s.nodes i) :
    grprStoreLookup addr { s with nodes := m } = grprStoreLookup addr s := by
  rcases addr with _ | a
  · rfl
  · cases hfind : (List.range s.numNodes.toNat).find? fun i => (s.nodes i).addr == a with
    | none =>
      have hlook : grprStoreLookup (some a) s = -1 := by
        simp only [grprStoreLookup, hfind]
      have hsame : (List.range s.numNodes.toNat).find? (fun i => (m i).addr == a) = none := by
        rw [List.find?_eq_none] at hfind ⊢
        intro i hi
        rw [hm i (by simpa [lookupFootprint, hlook] using hi)]
        exact hfind i hi
      rw [hlook]
      simp only [grprStoreLookup, hsame]
    | some i =>
      have hlook : grprStoreLookup (some a) s = i := by
        simp only [grprStoreLookup, hfind]
      have hread : ∀ j ≤ i, m j = s.nodes j := by
        intro j hj
        refine hm j ?_
        have hpos : ¬ (i : Int) < 0 := by omega
        simp only [lookupFootprint, hlook, hpos, ↓reduceIte, Int.toNat_natCast, List.mem_range]
        omega
      have hsame : (List.range s.numNodes.toNat).find? (fun i => (m i).addr == a) = some i := by
        rw [List.find?_range_eq_some] at hfind ⊢
        obtain ⟨hmatch, hi, hfirst⟩ := hfind
        refine ⟨?_, hi, fun j hj => ?_⟩
        · rw [hread i (Nat.le_refl i)]
          exact hmatch
        · rw [hread j hj.le]
          exact hfirst j hj
      rw [hlook]
      simp only [grprStoreLookup, hsame]

/-! ### Loading and saving -/

section

variable {env : Env} {S : List Nat}

theorem mem_pairFootprint {n k : Nat} (h : k ∈ List.range ((n + 1) / 2)) :
    2 * k ∈ pairFootprint n ∧ 2 * k + 1 ∈ pairFootprint n :=
  ⟨List.mem_flatMap.mpr ⟨k, h, by simp⟩, List.mem_flatMap.mpr ⟨k, h, by simp⟩⟩

theorem pairBytes_put {i : Nat} {w : Watch} (hi : i ∈ S) (hi' : i + 1 ∈ S) {m : Nat → Node}
    (hm : ∀ j ∈ S, m j = nodeMemory.cells w j) :
    (nodeMemory.put m w).store.pairBytes i = w.store.pairBytes i := by
  show (m i).toBytes ++ (m (i + 1)).toBytes = _
  rw [hm i hi, hm (i + 1) hi']
  rfl

theorem localAt_savePair {k : Nat} (hk : 2 * k ∈ S) (hk' : 2 * k + 1 ∈ S) (w : Watch) :
    LocalAt nodeMemory S (fun v => savePair env v k) w := by
  have hwrite : LocalAt nodeMemory S (fun v => (bleprofileWriteNVRAM env (nvmStoreBase + k)
      (w.store.pairBytes (2 * k)) v).2) w := localAt_of_put fun _ => rfl
  refine hwrite.congr fun m hm => ?_
  unfold savePair
  rw [pairBytes_put hk hk' hm]

theorem localAt_saveToNvram {w : Watch} (hS : pairFootprint w.store.numNodes.toNat ⊆ S) :
    LocalAt nodeMemory S (saveToNvram env) w := by
  have hpairs : LocalAt nodeMemory S (fun v =>
      (List.range ((w.store.numNodes.toNat + 1) / 2)).foldl (savePair env) v) w := by
    refine LocalAt.foldl (fun v k hk => ?_) w
    obtain ⟨hmem, hmem'⟩ := mem_pairFootprint hk
    exact localAt_savePair (hS hmem) (hS hmem') v
  have hcount : ∀ v, LocalAt nodeMemory S (fun v =>
      (bleprofileWriteNVRAM env nvmStoreCount [v.store.numNodes] v).2) v :=
    fun _ => localAt_of_put fun _ => rfl
  exact (hpairs.comp (hcount _)).congr fun _ _ => rfl

theorem localAt_loadPair {k : Nat} (hk : 2 * k ∈ S) (hk' : 2 * k + 1 ∈ S) (w : Watch) :
    LocalAt nodeMemory S (fun v => loadPair env v k) w := by
  have hread : LocalAt nodeMemory S (fun v =>
      (bleprofileReadNVRAM env (nvmStoreBase + k) (2 * nodeSize) v).2) w :=
    localAt_of_put fun _ => rfl
  let new := overlay (bleprofileReadNVRAM env (nvmStoreBase + k) (2 * nodeSize) w).1
    (w.store.pairBytes (2 * k))
  refine ((hread.comp (localAt_update hk (Node.ofBytes new 0))).comp
    (localAt_update hk' (Node.ofBytes new nodeSize))).congr fun m hm => ?_
  have hnew : overlay (bleprofileReadNVRAM env (nvmStoreBase + k) (2 * nodeSize) w).1
      ((nodeMemory.put m w).store.pairBytes (2 * k)) = new := by
    rw [pairBytes_put hk hk' hm]
  rw [← hnew]
  rfl

theorem localAt_loadFromNvram {w : Watch} (hS : pairFootprint w.store.numNodes.toNat ⊆ S) :
    LocalAt nodeMemory S (loadFromNvram env) w := by
  have hpairs : LocalAt nodeMemory S (fun v =>
      (List.range ((w.store.numNodes.toNat + 1) / 2)).foldl (loadPair env) v) w := by
    refine LocalAt.foldl (fun v k hk => ?_) w
    obtain ⟨hmem, hmem'⟩ := mem_pairFootprint hk
    exact localAt_loadPair (hS hmem) (hS hmem') v
  exact hpairs.congr fun _ _ => rfl

/-- The array is cleared up to its end. -/
theorem localAt_emptied {w : Watch} (hS : List.range maxNodes ⊆ S) :
    LocalAt nodeMemory S (emptied env) w := by
  intro m hm
  show nodeMemory.put (fun i => if i < maxNodes then Node.zero else m i) (emptied env w) = _
  congr 1
  funext i
  by_cases hi : i ∈ S
  · rw [mask_of_mem hi, hm i hi]
    rfl
  · rw [mask_of_not_mem hi, if_neg fun hlt => hi (hS (List.mem_range.mpr hlt))]

theorem localAt_init {w : Watch}
    (hS : List.range maxNodes ++ pairFootprint (countRead env w).toNat ⊆ S) :
    LocalAt nodeMemory S (grprStoreInit env) w := by
  obtain ⟨harray, hpairs⟩ := List.append_subset.mp hS
  have hload : LocalAt nodeMemory S (loadFromNvram env) (emptied env w) :=
    localAt_loadFromNvram hpairs
  exact ((localAt_emptied harray).comp hload).congr fun m _ => grprStoreInit_eq env _

/-! ### Adding -/

theorem localAt_appendNode {a : Addr} {w : Watch}
    (hstamp : indexFootprint w.store.numNodes.toNat
      { w.store with numNodes := w.store.numNodes + 1 } ⊆ S)
    (hnode : w.store.numNodes.toNat ∈ S) : LocalAt nodeMemory S (appendNode env a) w := by
  have hcount : LocalAt nodeMemory S (fun v =>
      { v with store := { v.store with numNodes := v.store.numNodes + 1 } }) w :=
    localAt_of_put fun _ => rfl
  have hset := fun v => localAt_setNode (w := v) hnode fun node => { node with addr := a }
  exact ((hcount.comp (localAt_timestamp env hstamp)).comp (hset _)).congr
    fun _ _ => rfl

/-- What an addition does by the outcome of its lookup. -/
theorem grprStoreAdd_eq (a : Addr) (w : Watch) : (grprStoreAdd env (some a) w).2 =
    if w.store.numNodes.toNat = maxNodes then w
    else if grprStoreLookup (some a) w.store < 0 then saveToNvram env (appendNode env a w)
    else (grprStoreTimestamp env (grprStoreLookup (some a) w.store) w).2.setNode
      (grprStoreLookup (some a) w.store).toNat fun n => { n with addr := a } := by
  unfold grprStoreAdd
  simp only [apply_ite Prod.snd]
  rfl

theorem localAt_add {addr : Option Addr} {w : Watch} (hS : addFootprint addr w.store ⊆ S) :
    LocalAt nodeMemory S (fun v => (grprStoreAdd env addr v).2) w := by
  have hid : LocalAt nodeMemory S (fun v => v) w := localAt_of_put fun _ => rfl
  rcases addr with _ | a
  · exact hid
  · by_cases hfull : w.store.numNodes.toNat = maxNodes
    · refine hid.congr fun m _ => ?_
      rw [grprStoreAdd_eq, numNodes_put, if_pos hfull]
    · have hsame : lookupFootprint (some a) w.store ⊆ S → ∀ m, (∀ i ∈ S, m i = w.store.nodes i) →
          grprStoreLookup (some a) (nodeMemory.put m w).store =
            grprStoreLookup (some a) w.store :=
        fun hlook m hm => grprStoreLookup_congr fun i hi => hm i (hlook hi)
      unfold addFootprint at hS
      simp only [hfull, ↓reduceIte] at hS
      split at hS
      · next hnew =>
        simp only [List.append_subset, List.cons_subset, List.nil_subset, and_true] at hS
        obtain ⟨⟨⟨hlook, hstamp⟩, hnode⟩, hpairs⟩ := hS
        have happend : LocalAt nodeMemory S (appendNode env a) w :=
          localAt_appendNode hstamp hnode
        have hcount : (appendNode env a w).store.numNodes = w.store.numNodes + 1 :=
          numNodes_timestamp env _ _
        have hsave : LocalAt nodeMemory S (saveToNvram env) (appendNode env a w) :=
          localAt_saveToNvram (by rw [hcount]; exact hpairs)
        refine (happend.comp hsave).congr fun m hm => ?_
        rw [grprStoreAdd_eq, hsame hlook m hm, numNodes_put, if_neg hfull, if_pos hnew]
      · next hknown =>
        simp only [List.append_subset, List.cons_subset, List.nil_subset, and_true] at hS
        obtain ⟨⟨hlook, hstamp⟩, hnode⟩ := hS
        have hset := fun v => localAt_setNode (w := v) hnode fun n => { n with addr := a }
        refine ((localAt_timestamp env hstamp).comp (hset _)).congr fun m hm => ?_
        rw [grprStoreAdd_eq, hsame hlook m hm, numNodes_put, if_neg hfull, if_neg hknown]

/-! ### Any call -/

/-- **The footprint of a call is complete.** -/
theorem localAt_storeCall (w : Watch) (c : StoreCall) :
    LocalAt nodeMemory (c.footprint w) (·.storeCall c) w := by
  have hid : LocalAt nodeMemory (c.footprint w) (fun v => v) w := localAt_of_put fun _ => rfl
  cases c with
  | init env => exact localAt_init (List.Subset.refl _)
  | add env addr => exact localAt_add (List.Subset.refl _)
  | timestamp env idx => exact localAt_timestamp env (List.Subset.refl _)
  | setRssi idx rssi => exact localAt_setRssi (List.Subset.refl _) rssi
  | setAvatar idx avatar => exact localAt_setAvatar (List.Subset.refl _) avatar
  | get | getFirst | getNext | getRssi | getAvatar => exact hid

theorem grprStoreAdd_answer (a : Addr) (w : Watch) : (grprStoreAdd env (some a) w).1 =
    if w.store.numNodes.toNat = maxNodes then -1
    else if grprStoreLookup (some a) w.store < 0 then (w.store.numNodes.toNat : Int)
    else grprStoreLookup (some a) w.store := by
  unfold grprStoreAdd
  simp only [apply_ite Prod.fst]

/-- What is read from behind a checked index. -/
theorem answer_checked {β : Type} {idx : Int} {w : Watch} {m : Nat → Node}
    (hm : ∀ i ∈ indexFootprint idx w.store, m i = w.store.nodes i) (b : β) (f : Node → β) :
    (if (nodeMemory.put m w).store.badIdx idx then b else f (m idx.toNat)) =
      if w.store.badIdx idx then b else f (w.store.nodes idx.toNat) := by
  show (if w.store.badIdx idx then b else f (m idx.toNat)) = _
  by_cases hbad : w.store.badIdx idx
  · rw [if_pos hbad, if_pos hbad]
  · rw [if_neg hbad, if_neg hbad, hm idx.toNat (by simp [indexFootprint, hbad])]

theorem lookupFootprint_subset {a : Addr} {s : Store} (h : s.numNodes.toNat ≠ maxNodes) :
    lookupFootprint (some a) s ⊆ addFootprint (some a) s := by
  unfold addFootprint
  simp only [h, ↓reduceIte]
  split <;> simp

/-- A call answers by its footprint. -/
theorem answer_put {w : Watch} {c : StoreCall} {m : Nat → Node}
    (hm : ∀ i ∈ c.footprint w, m i = w.store.nodes i) :
    c.answer (nodeMemory.put m w) = c.answer w := by
  cases c with
  | init env => rfl
  | add env addr =>
    rcases addr with _ | a
    · rfl
    · show some (grprStoreAdd env (some a) (nodeMemory.put m w)).1 =
        some (grprStoreAdd env (some a) w).1
      rw [grprStoreAdd_answer, grprStoreAdd_answer, numNodes_put]
      by_cases hfull : w.store.numNodes.toNat = maxNodes
      · rw [if_pos hfull, if_pos hfull]
      · have hlook : grprStoreLookup (some a) (nodeMemory.put m w).store =
            grprStoreLookup (some a) w.store :=
          grprStoreLookup_congr fun i hi => hm i (lookupFootprint_subset hfull hi)
        rw [hlook]
  | get addr => exact congrArg some (grprStoreLookup_congr hm)
  | getFirst | getNext => rfl
  | timestamp env idx =>
    show some (grprStoreTimestamp env idx (nodeMemory.put m w)).1 =
      some (grprStoreTimestamp env idx w).1
    unfold grprStoreTimestamp
    simp only [apply_ite Prod.fst]
    rfl
  | setRssi idx rssi =>
    show some (grprStoreSetRssi idx rssi (nodeMemory.put m w)).1 =
      some (grprStoreSetRssi idx rssi w).1
    unfold grprStoreSetRssi
    simp only [apply_ite Prod.fst]
    rfl
  | setAvatar idx avatar =>
    show some (grprStoreSetAvatar idx avatar (nodeMemory.put m w)).1 =
      some (grprStoreSetAvatar idx avatar w).1
    unfold grprStoreSetAvatar
    simp only [apply_ite Prod.fst]
    rfl
  | getRssi idx => exact congrArg (fun r => some (Int8.toInt r)) (answer_checked hm (-1) Node.rssi)
  | getAvatar idx =>
    exact congrArg (fun r => some (Int8.toInt r)) (answer_checked hm (-1) Node.avatar)

end

end Muchiwachi
