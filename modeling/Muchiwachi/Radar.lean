import Muchiwachi.Expiry

/-!
# The radar (`draw_others`)

`draw_others` goes through the store and draws each peer that is not expired on one of four
circles, in one of ten slots. The accesses to its tables are checked here: `PeerDraw.place` is
`none` if one of them is out of range. `radar_exact` says for which stores all of them are in
range and no two peers of a picture share a slot.
-/

namespace Muchiwachi

/-! ## The tables -/

/-- `struct coord`. -/
structure Coord where
  x : Int
  y : Int
  deriving DecidableEq, Repr

/-- The slot of a peer on its circle, by its index. -/
def i2idx : List Nat := [0, 5, 3, 8, 1, 6, 4, 9, 7, 2]

def circle50 : List Coord :=
  [⟨64, 14⟩, ⟨93, 24⟩, ⟨112, 49⟩, ⟨112, 79⟩, ⟨93, 104⟩, ⟨64, 114⟩, ⟨35, 104⟩, ⟨16, 79⟩, ⟨16, 49⟩,
    ⟨35, 24⟩]
def circle40 : List Coord :=
  [⟨64, 24⟩, ⟨88, 32⟩, ⟨102, 52⟩, ⟨102, 76⟩, ⟨88, 96⟩, ⟨64, 104⟩, ⟨40, 96⟩, ⟨26, 76⟩, ⟨26, 52⟩,
    ⟨40, 32⟩]
def circle30 : List Coord :=
  [⟨64, 34⟩, ⟨82, 40⟩, ⟨93, 55⟩, ⟨93, 73⟩, ⟨82, 88⟩, ⟨64, 94⟩, ⟨46, 88⟩, ⟨35, 73⟩, ⟨35, 55⟩,
    ⟨46, 40⟩]
def circle20 : List Coord :=
  [⟨64, 44⟩, ⟨76, 48⟩, ⟨83, 58⟩, ⟨83, 70⟩, ⟨76, 80⟩, ⟨64, 84⟩, ⟨52, 80⟩, ⟨45, 70⟩, ⟨45, 58⟩,
    ⟨52, 48⟩]

def rssi2circ : List (List Coord) := [circle20, circle30, circle40, circle50]

/-- `MAX_RSSI`. -/
def maxRssi : Int := -30

/-- `rssi_idx`; the second clamp looks at `rssi`. -/
def rssiIdx (rssi : Int8) : Int :=
  let i := (-(rssi.toInt - maxRssi)).tdiv 20
  if i < 0 then 0
  else if rssi.toInt > rssi2circ.length - 1 then rssi2circ.length - 1
  else i

/-- `l[i]` in C, if that is in range. -/
def at? {α : Type} (l : List α) (i : Int) : Option α := if 0 ≤ i then l[i.toNat]? else none

/-! ## `draw_others` -/

/-- A peer that is drawn: its index, its slot, and where its avatar goes. -/
structure PeerDraw where
  idx : Int
  slot : Option Nat
  place : Option Coord
  avatar : Int8
  deriving DecidableEq, Repr

/-- The body of the loop for a peer that is not expired. `strWidth` is `u8g_GetStrWidth`. -/
def peerDraw (strWidth : Int8 → Nat) (s : Store) (idx : Int) : PeerDraw :=
  let avatar := grprStoreGetAvatar idx s
  { idx := idx
    slot := at? i2idx idx
    place := do
      let circle ← at? rssi2circ (rssiIdx (grprStoreGetRssi idx s))
      let slot ← at? i2idx idx
      let coord ← circle[slot]?
      some ⟨coord.x - strWidth avatar / 2, coord.y⟩
    avatar := avatar }

/-- The loop of `draw_others` from `idx` on. -/
def drawOthersFrom (strWidth : Int8 → Nat) (env : Env) (idx : Int) (w : Watch) :
    List PeerDraw × Watch :=
  if idx = -1 then ([], w)
  else
    let e := grprStoreIsExpired env idx.toNat w
    let r := drawOthersFrom strWidth env (grprStoreGetNext idx w.store) e.2
    (if e.1 then r.1 else peerDraw strWidth w.store idx :: r.1, r.2)
termination_by if idx = -1 then 0 else 1 + (w.store.numNodes.toNat - idx).toNat
decreasing_by
  simp only [grprStoreIsExpired, store_call, grprStoreGetNext]
  split <;> split <;> omega

/-- `draw_others`, but for the own avatar in the middle. -/
def drawOthers (strWidth : Int8 → Nat) (env : Env) (w : Watch) : List PeerDraw × Watch :=
  drawOthersFrom strWidth env (grprStoreGetFirst w.store) w

/-- The peers drawn in the first `pages` pages of `display_radar`. -/
def radarPages (strWidth : Int8 → Nat) (env : Env) (pages : Nat) (w : Watch) :
    List PeerDraw × Watch :=
  (List.range pages).foldl (fun r _ =>
    let next := drawOthers strWidth env r.2
    (r.1 ++ next.1, next.2)) ([], w)

/-- The peers `display_radar` draws: a picture has 16 pages. -/
def displayRadar (strWidth : Int8 → Nat) (env : Env) (w : Watch) : List PeerDraw × Watch :=
  radarPages strWidth env 16 w

/-- All accesses are in range, and no two peers share a slot. -/
structure RadarOk (draws : List PeerDraw) : Prop where
  inRange : ∀ d ∈ draws, d.place.isSome = true
  separate : ∀ d ∈ draws, ∀ d' ∈ draws, d.idx ≠ d'.idx → d.slot ≠ d'.slot

instance (draws : List PeerDraw) : Decidable (RadarOk draws) :=
  decidable_of_iff ((∀ d ∈ draws, d.place.isSome = true) ∧
      ∀ d ∈ draws, ∀ d' ∈ draws, d.idx ≠ d'.idx → d.slot ≠ d'.slot)
    ⟨fun h => ⟨h.1, h.2⟩, fun h => ⟨h.1, h.2⟩⟩

/-! ## Which peers are drawn -/

section

variable {strWidth : Int8 → Nat} {env : Env} {w : Watch}

/-- Node `j` is not expired at the `n`-th look at the clock from now on. -/
def Watch.alive (env : Env) (w : Watch) (n j : Nat) : Prop :=
  isExpired (w.store.nodes j) (env.rtc (w.calls.length + n) >>> 15) = false

instance (env : Env) (w : Watch) (n j : Nat) : Decidable (w.alive env n j) :=
  inferInstanceAs (Decidable (_ = _))

theorem drawOthersFrom_end : drawOthersFrom strWidth env (-1) w = ([], w) := by
  rw [drawOthersFrom, if_pos rfl]

theorem drawOthersFrom_node (i : Nat) :
    drawOthersFrom strWidth env i w =
      (if isExpired (w.store.nodes i) (env.rtc w.calls.length >>> 15) then
          (drawOthersFrom strWidth env (grprStoreGetNext i w.store) (w.call .readRtc)).1
        else peerDraw strWidth w.store i ::
          (drawOthersFrom strWidth env (grprStoreGetNext i w.store) (w.call .readRtc)).1,
        (drawOthersFrom strWidth env (grprStoreGetNext i w.store) (w.call .readRtc)).2) := by
  have hi : ¬ (i : Int) = -1 := by omega
  rw [drawOthersFrom, if_neg hi]
  rfl

/-- What a turn at node `i` adds. -/
theorem mem_drawOthersFrom (i : Nat) (d : PeerDraw) :
    d ∈ (drawOthersFrom strWidth env i w).1 ↔
      w.alive env 0 i ∧ d = peerDraw strWidth w.store i ∨
        d ∈ (drawOthersFrom strWidth env (grprStoreGetNext i w.store) (w.call .readRtc)).1 := by
  rw [drawOthersFrom_node, Watch.alive, Nat.add_zero]
  cases isExpired (w.store.nodes i) (env.rtc w.calls.length >>> 15) <;> simp

theorem watch_drawOthersFrom (i : Nat) : (drawOthersFrom strWidth env i w).2 =
    (drawOthersFrom strWidth env (grprStoreGetNext i w.store) (w.call .readRtc)).2 := by
  rw [drawOthersFrom_node]

theorem alive_call (k j : Nat) : (w.call .readRtc).alive env k j ↔ w.alive env (k + 1) j := by
  have hn : w.calls.length + 1 + k = w.calls.length + (k + 1) := by omega
  simp [Watch.alive, Watch.call, hn]

/-- The loop looks at the clock once for each node from `i` on. -/
theorem drawOthersFrom_eq (strWidth : Int8 → Nat) (env : Env) {w : Watch} {n i : Nat}
    (h : i + n + 1 = w.store.numNodes.toNat) :
    (drawOthersFrom strWidth env i w).2.store = w.store ∧
      (drawOthersFrom strWidth env i w).2.calls.length = w.calls.length + (n + 1) ∧
      ∀ d, d ∈ (drawOthersFrom strWidth env i w).1 ↔ ∃ k, k ≤ n ∧ w.alive env k (i + k) ∧
        d = peerDraw strWidth w.store (i + k : Nat) := by
  induction n generalizing i w with
  | zero =>
    have hnext : grprStoreGetNext i w.store = -1 := if_neg (by omega)
    rw [watch_drawOthersFrom, hnext, drawOthersFrom_end]
    refine ⟨rfl, by simp [Watch.call], fun d => ?_⟩
    rw [mem_drawOthersFrom, hnext, drawOthersFrom_end]
    simp
  | succ n ih =>
    have hnext : grprStoreGetNext i w.store = (i + 1 : Nat) := by
      rw [grprStoreGetNext, if_pos (by omega)]
      rfl
    obtain ⟨hstore, hcalls, hmem⟩ := ih (i := i + 1) (w := w.call .readRtc)
      (by rw [store_call]; omega)
    rw [watch_drawOthersFrom, hnext]
    refine ⟨hstore, ?_, fun d => ?_⟩
    · rw [hcalls, Watch.call, List.length_append, List.length_singleton]
      omega
    · rw [mem_drawOthersFrom, hnext, hmem]
      constructor
      · rintro (⟨halive, rfl⟩ | ⟨k, hk, halive, rfl⟩)
        · exact ⟨0, Nat.zero_le _, halive, rfl⟩
        · rw [alive_call, Nat.add_right_comm] at halive
          exact ⟨k + 1, by omega, halive, by rw [store_call, Nat.add_right_comm]; rfl⟩
      · rintro ⟨k, hk, halive, rfl⟩
        cases k with
        | zero => exact .inl ⟨halive, rfl⟩
        | succ k =>
          refine .inr ⟨k, by omega, ?_, by rw [store_call, Nat.add_right_comm]; rfl⟩
          rw [alive_call, Nat.add_right_comm]
          exact halive

/-- `draw_others` draws the nodes that are not expired when it looks. -/
theorem drawOthers_eq (strWidth : Int8 → Nat) (env : Env) (w : Watch) :
    (drawOthers strWidth env w).2.store = w.store ∧
      (drawOthers strWidth env w).2.calls.length = w.calls.length + w.store.numNodes.toNat ∧
      ∀ d, d ∈ (drawOthers strWidth env w).1 ↔ ∃ j, j < w.store.numNodes.toNat ∧ w.alive env j j ∧
        d = peerDraw strWidth w.store j := by
  have hpos : w.store.numNodes > 0 ↔ 0 < w.store.numNodes.toNat := Iff.rfl
  unfold drawOthers grprStoreGetFirst
  by_cases hn : 0 < w.store.numNodes.toNat
  · rw [if_pos (hpos.mpr hn)]
    have hall : 0 + (w.store.numNodes.toNat - 1) + 1 = w.store.numNodes.toNat := by omega
    obtain ⟨hstore, hcalls, hmem⟩ := drawOthersFrom_eq strWidth env hall
    refine ⟨hstore, by rw [Int.natCast_zero] at hcalls; omega, fun d => (hmem d).trans ?_⟩
    simp only [Nat.zero_add]
    exact exists_congr fun j => and_congr_left fun _ => by omega
  · rw [if_neg fun h => hn (hpos.mp h), drawOthersFrom_end]
    refine ⟨rfl, by simp only; omega, fun d => iff_of_false List.not_mem_nil ?_⟩
    rintro ⟨j, hj, -⟩
    omega

/-- So do all its calls for a picture, page after page. -/
theorem radarPages_eq (strWidth : Int8 → Nat) (env : Env) (pages : Nat) (w : Watch) :
    (radarPages strWidth env pages w).2.store = w.store ∧
      (radarPages strWidth env pages w).2.calls.length =
        w.calls.length + pages * w.store.numNodes.toNat ∧
      ∀ d, d ∈ (radarPages strWidth env pages w).1 ↔ ∃ p j, p < pages ∧
        j < w.store.numNodes.toNat ∧ w.alive env (p * w.store.numNodes.toNat + j) j ∧
        d = peerDraw strWidth w.store j := by
  induction pages with
  | zero =>
    refine ⟨rfl, by simp [radarPages], fun d => iff_of_false List.not_mem_nil ?_⟩
    rintro ⟨p, j, hp, -⟩
    exact absurd hp (Nat.not_lt_zero _)
  | succ pages ih =>
    obtain ⟨hstore, hcalls, hmem⟩ := ih
    have hstep : radarPages strWidth env (pages + 1) w =
        ((radarPages strWidth env pages w).1 ++
            (drawOthers strWidth env (radarPages strWidth env pages w).2).1,
          (drawOthers strWidth env (radarPages strWidth env pages w).2).2) := by
      simp only [radarPages, List.range_succ, List.foldl_append, List.foldl_cons, List.foldl_nil]
    obtain ⟨hstore', hcalls', hmem'⟩ :=
      drawOthers_eq strWidth env (radarPages strWidth env pages w).2
    rw [hstep]
    rw [hstore] at hstore' hcalls' hmem'
    refine ⟨hstore', ?_, fun d => ?_⟩
    · rw [hcalls', hcalls, Nat.succ_mul, Nat.add_assoc]
    · have halive : ∀ j, (radarPages strWidth env pages w).2.alive env j j ↔
          w.alive env (pages * w.store.numNodes.toNat + j) j := by
        intro j
        rw [Watch.alive, Watch.alive, hstore, hcalls, Nat.add_assoc]
      rw [List.mem_append, hmem, hmem']
      constructor
      · rintro (⟨p, j, hp, hd⟩ | ⟨j, hj, ha, hd⟩)
        · exact ⟨p, j, by omega, hd⟩
        · exact ⟨pages, j, Nat.lt_succ_self _, hj, (halive j).mp ha, hd⟩
      · rintro ⟨p, j, hp, hj, ha, hd⟩
        rcases Nat.lt_succ_iff_lt_or_eq.mp hp with hlt | rfl
        · exact .inl ⟨p, j, hlt, hj, ha, hd⟩
        · exact .inr ⟨j, hj, (halive j).mpr ha, hd⟩

end

/-! ## When the radar is drawn right -/

theorem rssiIdx_nonneg (rssi : Int8) : 0 ≤ rssiIdx rssi := by
  unfold rssiIdx
  simp only
  split
  · decide
  · split
    · decide
    · omega

/-- The circle is one of the four above -110 dB. -/
theorem rssiIdx_lt (rssi : Int8) : rssiIdx rssi < rssi2circ.length ↔ -110 < rssi.toInt := by
  have hlen : (rssi2circ.length : Int) = 4 := rfl
  unfold rssiIdx maxRssi
  simp only [hlen]
  rcases Int.le_total 0 (-(rssi.toInt - -30)) with hge | hle
  · rw [Int.tdiv_eq_ediv_of_nonneg hge]
    split
    · omega
    · split <;> omega
  · rw [Int.neg_tdiv, Int.tdiv_eq_ediv_of_nonneg (by omega)]
    split
    · omega
    · split <;> omega

theorem at?_isSome {α : Type} {l : List α} {i : Int} (h : 0 ≤ i) :
    (at? l i).isSome = true ↔ i < l.length := by
  rw [at?, if_pos h, isSome_getElem?]
  exact Int.toNat_lt h

theorem mem_of_at? {α : Type} {l : List α} {i : Int} {a : α} (h : at? l i = some a) : a ∈ l := by
  unfold at? at h
  split at h
  · exact List.mem_of_getElem? h
  · cases h

section

variable {strWidth : Int8 → Nat} {s : Store} {j : Nat}

/-- The accesses for node `j` are in range. -/
theorem place_isSome (hj : j < s.numNodes.toNat) :
    (peerDraw strWidth s j).place.isSome = true ↔ j < 10 ∧ -110 < (s.nodes j).rssi.toInt := by
  have hrssi : grprStoreGetRssi j s = (s.nodes j).rssi := by
    rw [grprStoreGetRssi, if_neg (by unfold Store.badIdx; omega)]
    rfl
  have hcircle := at?_isSome (l := rssi2circ) (rssiIdx_nonneg (s.nodes j).rssi)
  have hslot := at?_isSome (l := i2idx) (Int.natCast_nonneg j)
  rw [rssiIdx_lt] at hcircle
  have hten : ((j : Int) < i2idx.length) ↔ j < 10 := by
    show (j : Int) < 10 ↔ _
    omega
  rw [← hcircle, ← hten, ← hslot, peerDraw, hrssi]
  cases hc : at? rssi2circ (rssiIdx (s.nodes j).rssi) with
  | none => simp
  | some circle =>
    cases hs : at? i2idx (j : Int) with
    | none => simp
    | some slot =>
      have hwidth : ∀ circle ∈ rssi2circ, circle.length = 10 := by decide
      have hslots : ∀ slot ∈ i2idx, slot < 10 := by decide
      have hlt : slot < circle.length := by
        rw [hwidth circle (mem_of_at? hc)]
        exact hslots slot (mem_of_at? hs)
      simp [List.getElem?_eq_getElem hlt]

/-- Two of the first ten have different slots. -/
theorem slot_injective {j j' : Nat} (hj : j < 10) (hj' : j' < 10)
    (h : (peerDraw strWidth s j).slot = (peerDraw strWidth s j').slot) : j = j' := by
  have hnodup : i2idx.Nodup := by decide
  have hlen : j < i2idx.length := hj
  have hlen' : j' < i2idx.length := hj'
  simp only [peerDraw, at?, Int.natCast_nonneg, if_true, Int.toNat_natCast,
    List.getElem?_eq_getElem hlen, List.getElem?_eq_getElem hlen', Option.some.injEq] at h
  exact (hnodup.getElem_inj_iff).mp h

end

/-- Every peer that is drawn in a picture is one of the first ten and is heard with more than
-110 dB. -/
def FitsRadar (env : Env) (w : Watch) : Prop :=
  ∀ p j, p < 16 → j < w.store.numNodes.toNat →
    w.alive env (p * w.store.numNodes.toNat + j) j → j < 10 ∧ -110 < (w.store.nodes j).rssi.toInt

instance (env : Env) (w : Watch) : Decidable (FitsRadar env w) :=
  decidable_of_iff (∀ p < 16, ∀ j < w.store.numNodes.toNat,
      w.alive env (p * w.store.numNodes.toNat + j) j →
        j < 10 ∧ -110 < (w.store.nodes j).rssi.toInt)
    ⟨fun h p j hp hj => h p hp j hj, fun h p hp j hj => h p j hp hj⟩

/-- **When the radar is drawn right**: all accesses are in range, and the slots differ, exactly
when no peer past the tenth and none below -109 dB is drawn. -/
theorem radar_exact (strWidth : Int8 → Nat) (env : Env) (w : Watch) :
    RadarOk (displayRadar strWidth env w).1 ↔ FitsRadar env w := by
  have hmem := (radarPages_eq strWidth env 16 w).2.2
  constructor
  · intro h p j hp hj ha
    exact (place_isSome hj).mp (h.inRange _ ((hmem _).mpr ⟨p, j, hp, hj, ha, rfl⟩))
  · intro h
    refine ⟨fun d hd => ?_, fun d hd d' hd' hne hslot => ?_⟩
    · obtain ⟨p, j, hp, hj, ha, rfl⟩ := (hmem d).mp hd
      exact (place_isSome hj).mpr (h p j hp hj ha)
    · obtain ⟨p, j, hp, hj, ha, rfl⟩ := (hmem d).mp hd
      obtain ⟨p', j', hp', hj', ha', rfl⟩ := (hmem d').mp hd'
      have hsame := slot_injective (h p j hp hj ha).1 (h p' j' hp' hj' ha').1 hslot
      exact hne (congrArg (fun j : Nat => (j : Int)) hsame)

/-- A neighbour joins the group and is heard very weakly. -/
def sampleFaint : List GroupInput :=
  sampleMeeting ++ [.report (nominalEnv 0) { serviceReport addrTwo 0 with rssi := -120 }]

theorem radar_out_of_range : ¬ RadarOk (displayRadar (fun _ => 16) (nominalEnv 0)
    (Lib.run groupStep (powerOn fun _ => []) sampleFaint)).1 := by
  intro h
  have hnum : 0 < (Lib.run groupStep (powerOn fun _ => []) sampleFaint).store.numNodes.toNat := by
    decide +kernel
  have halive : (Lib.run groupStep (powerOn fun _ => []) sampleFaint).alive (nominalEnv 0) 0 0 := by
    unfold Watch.alive
    decide +kernel
  have hplace := h.inRange _
    (((radarPages_eq _ _ 16 _).2.2 _).mpr ⟨0, 0, by decide, hnum, by rwa [Nat.zero_mul], rfl⟩)
  exact absurd hplace (by decide +kernel)

end Muchiwachi
