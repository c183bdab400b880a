import Muchiwachi.SavedStore

/-!
# Saving with failed writes

`save_to_nvram` ignores what its writes return, so that any of its records may be left as it was.
While the count is not written over nodes whose records are left without their addresses, the saved
list stays a prefix of the list in RAM (`SavedPrefix`), and a restart brings back nothing but
addresses that were added (`noPhantoms_of_counted`).
-/

namespace Muchiwachi

open Lib

/-! ## Additions and restarts -/

/-- An addition, during which any of the writes may fail, or a restart. -/
inductive SaveInput where
  | add (env : Env) (addr : Option Addr)
  | reboot

/-- A restart reads what is stored; of an absent record it reads nothing. -/
def Watch.saveStep (w : Watch) : SaveInput → Watch
  | .add env addr => (grprStoreAdd env addr w).2
  | .reboot => restarted (nominalEnv 0) w.chip.nvram

/-- `a` is added and not turned down. -/
def SaveInput.addsOk (a : Addr) (w : Watch) : SaveInput → Prop
  | .add env addr => addr = some a ∧ 0 ≤ (grprStoreAdd env addr w).1
  | .reboot => False

/-- The addresses a restart brings back were added before, and are distinct. -/
def NoPhantoms (w : Watch) (is : List SaveInput) : Prop :=
  ∀ pre, pre ++ [.reboot] <+: is →
    let l := (run Watch.saveStep w (pre ++ [.reboot])).store.addrs
    l.Nodup ∧ ∀ a ∈ l, Happened Watch.saveStep (SaveInput.addsOk a) w pre

/-- A new address is counted while the record of a counted node cannot be written and does not
have the node's address already. -/
def SaveInput.countsUnsaved (w : Watch) : SaveInput → Prop
  | .add env (some a) =>
    w.store.numNodes.toNat ≠ maxNodes ∧ a ∉ w.store.addrs ∧ env.writeOk nvmStoreCount = true ∧
      ∃ i, i ≤ w.store.addrs.length ∧ env.writeOk (nvmStoreBase + i / 2) = false ∧
        (w.store.addrs ++ [a])[i]? ≠ some (savedAddr w.chip.nvram i)
  | _ => False

instance (w : Watch) (i : SaveInput) : Decidable (i.countsUnsaved w) :=
  match i with
  | .add _ (some _) => inferInstanceAs (Decidable (_ ∧ _ ∧ _ ∧ ∃ i, i ≤ _ ∧ _))
  | .add _ none => inferInstanceAs (Decidable False)
  | .reboot => inferInstanceAs (Decidable False)

/-! ## What a save leaves in the records -/

section

variable {env : Env} {nv : Nvram} {s : Store}

theorem record_saveWrites (k : Nat) :
    applyWrites nv (saveWrites env s) (nvmStoreBase + k) =
      if 2 * k < s.numNodes.toNat ∧ env.writeOk (nvmStoreBase + k) = true
        then s.pairBytes (2 * k) else nv (nvmStoreBase + k) := by
  have hpair : ∀ x ∈ saveWrites env s, x.1 = nvmStoreBase + k →
      x.2 = s.pairBytes (2 * k) ∧ 2 * k < s.numNodes.toNat ∧
        env.writeOk (nvmStoreBase + k) = true := by
    intro x hx hkey
    rcases List.mem_append.mp hx with h | h
    · obtain ⟨j, hj, hx⟩ := List.mem_flatMap.mp h
      have hj := List.mem_range.mp hj
      have heq := okWrite_eq_self hx
      subst heq
      obtain rfl : j = k := Nat.add_left_cancel hkey
      refine ⟨rfl, by omega, ?_⟩
      by_contra hfail
      rw [okWrite, if_neg hfail] at hx
      cases hx
    · rw [okWrite_eq_self h] at hkey
      exact absurd hkey.symm (pairKey_ne_count k)
  split
  · next hk =>
    refine applyWrites_of_mem ?_ fun x hx hkey => (hpair x hx hkey).1
    refine List.mem_append_left _ (List.mem_flatMap.mpr ⟨k, List.mem_range.mpr (by omega), ?_⟩)
    rw [okWrite, if_pos hk.2]
    exact List.mem_singleton_self _
  · next hk => exact applyWrites_other fun x hx hkey => hk (hpair x hx hkey).2

theorem count_saveWrites : applyWrites nv (saveWrites env s) nvmStoreCount =
    if env.writeOk nvmStoreCount = true then [s.numNodes] else nv nvmStoreCount := by
  have hpairs : ∀ x ∈ (List.range ((s.numNodes.toNat + 1) / 2)).flatMap (fun k =>
      okWrite env (nvmStoreBase + k) (s.pairBytes (2 * k))), x.1 ≠ nvmStoreCount := by
    intro x hx
    obtain ⟨k, -, hx⟩ := List.mem_flatMap.mp hx
    rw [okWrite_eq_self hx]
    exact pairKey_ne_count k
  unfold saveWrites
  rw [applyWrites_append]
  unfold okWrite at hpairs ⊢
  by_cases hok : env.writeOk nvmStoreCount = true
  · rw [if_pos hok, if_pos hok, applyWrites_cons, applyWrites_nil, Function.update_self]
  · rw [if_neg hok, if_neg hok, applyWrites_nil]
    exact applyWrites_other hpairs

/-- A node whose record is written has its own address there, the others what they had. -/
theorem savedAddr_saveWrites {i : Nat} (hi : i < s.numNodes.toNat) :
    savedAddr (applyWrites nv (saveWrites env s)) i =
      if env.writeOk (nvmStoreBase + i / 2) = true then (s.nodes i).addr else savedAddr nv i := by
  have hlt : 2 * (i / 2) < s.numNodes.toNat := by omega
  unfold savedAddr
  rw [record_saveWrites]
  simp only [hlt, true_and]
  split
  · rw [Store.ofBytes_pairBytes _ _ (Nat.mod_lt _ (by decide)), Nat.div_add_mod]
  · rfl

end

/-! ## Loading where records are absent -/

/-- The number of nodes that are saved. -/
def savedCount (nv : Nvram) : Nat := ((nv nvmStoreCount).headD 0).toNat

/-- Every pair record is absent or whole. -/
def WholeRecords (nv : Nvram) : Prop :=
  ∀ k, nv (nvmStoreBase + k) = [] ∨ (nv (nvmStoreBase + k)).length = 2 * nodeSize

section

variable {nv : Nvram} (env : Env) (s : Store)

theorem savedCount_saveWrites : savedCount (applyWrites nv (saveWrites env s)) =
    if env.writeOk nvmStoreCount = true then s.numNodes.toNat else savedCount nv := by
  unfold savedCount
  rw [count_saveWrites]
  split <;> rfl

theorem WholeRecords.saveWrites (h : WholeRecords nv) :
    WholeRecords (applyWrites nv (saveWrites env s)) := by
  intro k
  rw [record_saveWrites]
  split
  · exact .inr (Store.length_pairBytes ..)
  · exact h k

end

/-- Nothing copied over a pair of nodes leaves it alone. -/
theorem Store.nodes_setPairBytes_nil (s : Store) (k i : Nat) :
    (s.setPairBytes (2 * k) []).nodes i = s.nodes i := by
  have hsame : overlay [] (s.pairBytes (2 * k)) = s.pairBytes (2 * k) := rfl
  by_cases hi : i / 2 = k
  · subst hi
    unfold Store.setPairBytes
    simp only [hsame]
    have hnode := s.ofBytes_pairBytes (i / 2) (Nat.mod_lt i (by decide : 0 < 2))
    rcases Nat.mod_two_eq_zero_or_one i with heven | hodd
    · have hi : 2 * (i / 2) = i := by omega
      rw [heven, Nat.mul_zero, Nat.add_zero] at hnode
      rw [Function.update_of_ne (by omega), hnode, hi, Function.update_self]
    · have hi : 2 * (i / 2) + 1 = i := by omega
      rw [hodd, Nat.mul_one] at hnode
      rw [hnode, hi, Function.update_self]
  · exact Store.nodes_setPairBytes_other hi []

theorem nodes_foldl_loadPair_absent {env : Env} {w : Watch} (m : Nat) {i : Nat}
    (hrec : w.chip.nvram (nvmStoreBase + i / 2) = []) :
    ((List.range m).foldl (loadPair env) w).store.nodes i = w.store.nodes i := by
  induction m with
  | zero => rfl
  | succ m ih =>
    have hnv := (frame_foldl_loadPair env w m).1
    rw [List.range_succ, List.foldl_append, List.foldl_cons, List.foldl_nil]
    generalize (List.range m).foldl (loadPair env) w = v at hnv ih ⊢
    show (v.store.setPairBytes (2 * m) _).nodes i = _
    by_cases hi : i / 2 = m
    · have hbytes : (bleprofileReadNVRAM env (nvmStoreBase + m) (2 * nodeSize) v).1 = [] := by
        rw [bleprofileReadNVRAM, hnv, ← hi, hrec]
        simp
      rw [hbytes, Store.nodes_setPairBytes_nil]
      exact ih
    · rw [Store.nodes_setPairBytes_other hi]
      exact ih

/-- An absent record stands for zeroed nodes. -/
theorem savedAddr_absent {nv : Nvram} {i : Nat} (h : nv (nvmStoreBase + i / 2) = []) :
    savedAddr nv i = Node.zero.addr := by
  unfold savedAddr
  rw [h]
  ext j hj
  simp [Node.ofBytes, Node.zero]

/-- **A restart takes the records as they are**: the list it builds is made of the saved
addresses. -/
theorem addrs_restarted_whole {nv : Nvram} (hwhole : WholeRecords nv) :
    (restarted (nominalEnv 0) nv).store.addrs =
      (List.range (savedCount nv)).map (savedAddr nv) := by
  have hcount : countRead (nominalEnv 0) (powerOn nv) = (nv nvmStoreCount).headD 0 := by
    show ((nv nvmStoreCount).take 1).getD 0 0 = _
    cases nv nvmStoreCount <;> rfl
  have hnum : (restarted (nominalEnv 0) nv).store.numNodes.toNat = savedCount nv := by
    rw [restarted, numNodes_init, hcount]
    rfl
  unfold Store.addrs
  rw [hnum]
  refine List.map_congr_left fun i hi => ?_
  have hi := List.mem_range.mp hi
  have hpairs : i / 2 < ((emptied (nominalEnv 0) (powerOn nv)).store.numNodes.toNat + 1) / 2 := by
    show i / 2 < ((countRead (nominalEnv 0) (powerOn nv)).toNat + 1) / 2
    rw [hcount]
    show i / 2 < (savedCount nv + 1) / 2
    omega
  rw [restarted, grprStoreInit_eq, loadFromNvram]
  rcases hwhole (i / 2) with habsent | hfull
  · rw [nodes_foldl_loadPair_absent _ habsent, savedAddr_absent habsent]
    show (if i < maxNodes then Node.zero else Node.zero).addr = _
    rw [ite_self]
  · rw [nodes_foldl_loadPair hpairs rfl hfull]
    rfl

/-! ## The saved list is a prefix -/

/-- What is saved is the beginning of the list in RAM, which has no repetitions. -/
structure SavedPrefix (w : Watch) : Prop where
  nodup : w.store.addrs.Nodup
  le : w.store.addrs.length ≤ maxNodes
  whole : WholeRecords w.chip.nvram
  count : savedCount w.chip.nvram ≤ w.store.addrs.length
  saved : ∀ i, i < savedCount w.chip.nvram → w.store.addrs[i]? = some (savedAddr w.chip.nvram i)

theorem SavedPrefix.restarted {w : Watch} (h : SavedPrefix w) :
    (restarted (nominalEnv 0) w.chip.nvram).store.addrs =
      w.store.addrs.take (savedCount w.chip.nvram) := by
  rw [addrs_restarted_whole h.whole]
  apply List.ext_getElem?
  intro i
  by_cases hi : i < savedCount w.chip.nvram
  · rw [List.getElem?_take_of_lt hi, h.saved i hi]
    simp [hi]
  · rw [List.getElem?_eq_none (by simpa using hi), List.getElem?_eq_none (by simp; omega)]

theorem SavedPrefix.reboot {w : Watch} (h : SavedPrefix w) :
    SavedPrefix (w.saveStep .reboot) := by
  have haddrs : (w.saveStep .reboot).store.addrs = _ := h.restarted
  have hnv : (w.saveStep .reboot).chip.nvram = w.chip.nvram :=
    (writes_init (nominalEnv 0) (powerOn w.chip.nvram)).nvram
  have hlen : (w.store.addrs.take (savedCount w.chip.nvram)).length =
      savedCount w.chip.nvram := List.length_take_of_le h.count
  refine ⟨?_, ?_, ?_, ?_, ?_⟩
  · rw [haddrs]
    exact h.nodup.sublist (List.take_sublist ..)
  · rw [haddrs, hlen]
    exact h.count.trans h.le
  · rw [hnv]
    exact h.whole
  · rw [haddrs, hnv, hlen]
  · rw [haddrs, hnv]
    intro i hi
    rw [List.getElem?_take_of_lt hi]
    exact h.saved i hi

/-- Nothing is added, nothing written. -/
theorem SavedPrefix.quiet {w w' : Watch} (h : SavedPrefix w)
    (haddrs : w'.store.addrs = w.store.addrs) (hnv : w'.chip.nvram = w.chip.nvram) :
    SavedPrefix w' := by
  refine ⟨?_, ?_, ?_, ?_, ?_⟩
  · rw [haddrs]
    exact h.nodup
  · rw [haddrs]
    exact h.le
  · rw [hnv]
    exact h.whole
  · rw [haddrs, hnv]
    exact h.count
  · rw [haddrs, hnv]
    exact h.saved

section

variable {env : Env} {a : Addr} {w : Watch}

/-- The node that is appended is the next one. -/
theorem SavedPrefix.appended (h : SavedPrefix w) (env : Env) (a : Addr) :
    (appendNode env a w).store.addrs = w.store.addrs ++ [a] ∧
      (appendNode env a w).store.numNodes.toNat = w.store.addrs.length + 1 := by
  have hle := h.le
  rw [Store.length_addrs] at hle ⊢
  have hlt : w.store.numNodes.toNat < 255 := hle.trans_lt (by decide)
  exact ⟨addrs_appendNode hlt, numNodes_appendNode hlt⟩

/-- The record of a node that is counted is written, or has the node's address already. -/
theorem SavedPrefix.saved_append (h : SavedPrefix w)
    (hcounted : env.writeOk nvmStoreCount = true → ∀ i, i ≤ w.store.addrs.length →
      env.writeOk (nvmStoreBase + i / 2) = false →
        (w.store.addrs ++ [a])[i]? = some (savedAddr w.chip.nvram i)) :
    let nv := applyWrites w.chip.nvram (saveWrites env (appendNode env a w).store)
    ∀ i, i < savedCount nv → (w.store.addrs ++ [a])[i]? = some (savedAddr nv i) := by
  intro nv i hi
  obtain ⟨haddrs, hnum⟩ := h.appended env a
  rw [savedCount_saveWrites] at hi
  have hile : i ≤ w.store.addrs.length := by
    split at hi
    · omega
    · exact (hi.trans_le h.count).le
  have hstored : i < (appendNode env a w).store.numNodes.toNat := by omega
  rw [savedAddr_saveWrites hstored]
  cases hpair : env.writeOk (nvmStoreBase + i / 2) with
  | true =>
    rw [if_pos rfl, ← haddrs]
    exact Store.getElem?_addrs hstored
  | false =>
    rw [if_neg Bool.false_ne_true]
    split at hi
    · next hok => exact hcounted hok i hile hpair
    · rw [List.getElem?_append_left (hi.trans_le h.count)]
      exact h.saved i hi

/-- A new address, with any of the writes failing. -/
theorem SavedPrefix.append (h : SavedPrefix w) (hroom : w.store.numNodes.toNat ≠ maxNodes)
    (ha : a ∉ w.store.addrs)
    (hcounted : env.writeOk nvmStoreCount = true → ∀ i, i ≤ w.store.addrs.length →
      env.writeOk (nvmStoreBase + i / 2) = false →
        (w.store.addrs ++ [a])[i]? = some (savedAddr w.chip.nvram i)) :
    SavedPrefix (grprStoreAdd env (some a) w).2 := by
  obtain ⟨happend, hnum⟩ := h.appended env a
  have haddrs : (grprStoreAdd env (some a) w).2.store.addrs = w.store.addrs ++ [a] := by
    rw [grprStoreAdd_new hroom ha, store_saveToNvram, happend]
  have hnv : (grprStoreAdd env (some a) w).2.chip.nvram =
      applyWrites w.chip.nvram (saveWrites env (appendNode env a w).store) := by
    rw [grprStoreAdd_new hroom ha]
    exact (writes_appendNode.nil_trans (writes_saveToNvram env _)).nvram
  refine ⟨?_, ?_, ?_, ?_, ?_⟩
  · rw [haddrs]
    exact List.nodup_append.mpr ⟨h.nodup, List.nodup_singleton a, by
      rintro x hx y hy rfl
      exact ha (List.mem_singleton.mp hy ▸ hx)⟩
  · have hle := h.le
    rw [Store.length_addrs] at hle
    rw [haddrs, List.length_append, List.length_singleton, Store.length_addrs]
    omega
  · rw [hnv]
    exact h.whole.saveWrites env _
  · rw [haddrs, hnv, List.length_append, List.length_singleton, savedCount_saveWrites]
    split
    · exact hnum.le
    · exact h.count.trans (Nat.le_succ _)
  · rw [haddrs, hnv]
    exact h.saved_append hcounted

theorem SavedPrefix.add (h : SavedPrefix w) (addr : Option Addr)
    (hi : ¬ (SaveInput.add env addr).countsUnsaved w) :
    SavedPrefix (grprStoreAdd env addr w).2 := by
  rcases addr with _ | a
  · exact h
  · by_cases hfull : w.store.numNodes.toNat = maxNodes
    · rw [grprStoreAdd_full hfull]
      exact h
    · by_cases ha : a ∈ w.store.addrs
      · rw [grprStoreAdd_known hfull ha]
        exact h.quiet (addrs_readd ha) (writes_timestamp env _ w).nvram
      · refine h.append hfull ha fun hok i hile hpair => ?_
        by_contra hne
        exact hi ⟨hfull, ha, hok, i, hile, hpair, hne⟩

end

/-! ## Over a run -/

theorem savedPrefix_step {w : Watch} (h : SavedPrefix w) {i : SaveInput}
    (hi : ¬ i.countsUnsaved w) : SavedPrefix (w.saveStep i) := by
  cases i with
  | add env addr => exact h.add addr hi
  | reboot => exact h.reboot

theorem savedPrefix_empty : SavedPrefix (powerOn fun _ => []) where
  nodup := List.nodup_nil
  le := Nat.zero_le _
  whole := fun _ => .inl rfl
  count := Nat.zero_le _
  saved := fun _ hi => absurd hi (Nat.not_lt_zero _)

/-- What is added to the list was added for good. -/
theorem mem_addrs_saveStep {w : Watch} (h : SavedPrefix w) {i : SaveInput} {a : Addr}
    (ha : a ∈ (w.saveStep i).store.addrs) : a ∈ w.store.addrs ∨ i.addsOk a w := by
  cases i with
  | reboot =>
    have haddrs : (w.saveStep .reboot).store.addrs = _ := h.restarted
    rw [haddrs] at ha
    exact .inl (List.mem_of_mem_take ha)
  | add env addr =>
    rcases addr with _ | b
    · exact .inl ha
    · rcases mem_addrs_grprStoreAdd ha with hold | rfl
      · exact .inl hold
      · by_cases hknown : a ∈ w.store.addrs
        · exact .inl hknown
        · by_cases hfull : w.store.numNodes.toNat = maxNodes
          · rw [Watch.saveStep, grprStoreAdd_full hfull] at ha
            exact .inl ha
          · refine .inr ⟨rfl, ?_⟩
            rw [grprStoreAdd_new hfull hknown]
            exact Int.natCast_nonneg _

/-- **When failed writes leave no phantoms**: in the runs of additions and restarts from empty
NVRAM in which no count is written over a node whose record is not written and does not have its
address already. -/
theorem noPhantoms_of_counted {is : List SaveInput}
    (h : EachStep Watch.saveStep (fun w i => ¬ i.countsUnsaved w) (powerOn fun _ => []) is) :
    NoPhantoms (powerOn fun _ => []) is := by
  have hinv := h.inv_history (P := fun pre w => SavedPrefix w ∧ ∀ a ∈ w.store.addrs,
      Happened Watch.saveStep (SaveInput.addsOk a) (powerOn fun _ => []) pre)
    ⟨savedPrefix_empty, fun _ ha => absurd ha List.not_mem_nil⟩ fun pre i hi hw => by
      refine ⟨savedPrefix_step hw.1 hi, fun a ha => ?_⟩
      rcases mem_addrs_saveStep hw.1 ha with hold | hadds
      · exact (hw.2 a hold).snoc i
      · exact happened_last hadds
  intro pre hpre
  obtain ⟨hsaved, hadded⟩ := hinv pre ((List.prefix_append ..).trans hpre)
  generalize hw : run Watch.saveStep (powerOn fun _ => []) pre = w at hsaved hadded
  intro l
  have hl : l = w.store.addrs.take (savedCount w.chip.nvram) := by
    show (run Watch.saveStep (powerOn fun _ => []) (pre ++ [.reboot])).store.addrs = _
    rw [run_snoc, hw]
    exact hsaved.restarted
  rw [hl]
  exact ⟨hsaved.nodup.sublist (List.take_sublist ..),
    fun a ha => hadded a (List.mem_of_mem_take ha)⟩

/-- Nothing is written when the first address is added, and all when the second is. -/
def sampleLate : List SaveInput :=
  [.add { nominalEnv 0 with writeOk := fun _ => false } (some addrOne),
    .add (nominalEnv 0) (some addrTwo), .reboot]

theorem noPhantoms_of_counted_sample : NoPhantoms (powerOn fun _ => []) sampleLate :=
  noPhantoms_of_counted (by decide +kernel)

/-- An address is added, and the write of its record fails, but not that of the count. -/
def sampleLost : List SaveInput :=
  [.add { nominalEnv 0 with writeOk := fun vsId => vsId = nvmStoreCount } (some addrOne), .reboot]

/-- The restart brings back an address nobody has. -/
theorem phantom_restored : ¬ NoPhantoms (powerOn fun _ => []) sampleLost := by
  intro h
  obtain ⟨-, hadded⟩ := h (sampleLost.take 1) (List.prefix_refl _)
  obtain ⟨pre, i, hpre, hi⟩ := hadded Node.zero.addr (by decide +kernel)
  have hmem : i ∈ sampleLost.take 1 := hpre.subset (by simp)
  rw [List.mem_singleton.mp hmem] at hi
  exact absurd hi.1 (by decide)

end Muchiwachi
