import Muchiwachi.PeerList

/-!
# What the walk over a report reads

`advWalk` is the loop of `grpr_process_adverts` with a count of its turns and a list of the bytes
it looks at. It ends within as many turns as there are bytes and stays inside `data`
(`walk_bounded`).
-/

namespace Muchiwachi

open Lib

/-! ## The walk with its reads -/

structure AdvWalk where
  field : Option Nat
  turns : Nat
  /-- The offsets from `data` of the bytes that are looked at. -/
  reads : List Nat

/-- The bytes one turn compares: `len`, then `val`, then the UUID, each if the one before it
is right. -/
def headerReads (r : AdvReport) (off : Nat) : List Nat :=
  if (r.byte off).toNat = serviceDataSize + 1 then
    if r.byte (off + 1) = advServiceDataUuid128 then
      off :: (off + 1) :: (List.range 16).map fun i => off + 2 + i
    else [off, off + 1]
  else [off]

/-- The bytes of a service field that are used: `state`, and `avatar` if the sender is known. -/
def fieldReads (off : Nat) : List Nat := [off + 2 + stateOffset, off + 2 + avatarOffset]

/-- `advLoop` with its turns counted and its reads listed. -/
def advWalk (uuid : Vector UInt8 16) (r : AdvReport) : Nat → Nat → Option AdvWalk
  | 0, _ => none
  | fuel + 1, off =>
    if isServiceField uuid r off then
      some ⟨some off, 1, headerReads r off ++ fieldReads off⟩
    else
      let next := off + ((r.byte off).toNat + 1)
      if next ≥ r.dataLen.toNat then some ⟨none, 1, headerReads r off⟩
      else (advWalk uuid r fuel next).map fun x =>
        ⟨x.field, x.turns + 1, headerReads r off ++ x.reads⟩

/-- The walk finds what the loop finds. -/
theorem field_advWalk (uuid : Vector UInt8 16) (r : AdvReport) (fuel off : Nat) :
    (advWalk uuid r fuel off).map AdvWalk.field = advLoop uuid r fuel off := by
  induction fuel generalizing off with
  | zero => rfl
  | succ fuel ih =>
    unfold advWalk advLoop
    split
    · rfl
    · simp only
      split
      · rfl
      · rw [← ih, Option.map_map]
        rfl

/-- More turns than the loop needs change nothing. -/
theorem advLoop_of_le {uuid : Vector UInt8 16} {r : AdvReport} :
    ∀ {fuel fuel' off : Nat} {x : Option Nat}, fuel ≤ fuel' → advLoop uuid r fuel off = some x →
      advLoop uuid r fuel' off = some x := by
  intro fuel
  induction fuel with
  | zero => intro fuel' off x _ h; cases h
  | succ fuel ih =>
    intro fuel' off x hle h
    obtain ⟨f, rfl⟩ : ∃ f, fuel' = f + 1 := ⟨fuel' - 1, by omega⟩
    unfold advLoop at h ⊢
    split at h
    · next hf => rwa [if_pos hf]
    · next hf =>
      rw [if_neg hf]
      simp only at h ⊢
      split at h
      · next hge => rwa [if_pos hge]
      · next hlt =>
        rw [if_neg hlt]
        exact ih (by omega) h

/-- One turn reads up to 18 bytes from its cursor on. -/
theorem mem_headerReads {r : AdvReport} {off x : Nat} (h : x ∈ headerReads r off) :
    x < off + 18 := by
  unfold headerReads at h
  split at h
  · split at h
    · simp only [List.mem_cons, List.mem_map, List.mem_range] at h
      rcases h with rfl | rfl | ⟨i, hi, rfl⟩ <;> omega
    · simp only [List.mem_cons, List.not_mem_nil, or_false] at h
      rcases h with rfl | rfl <;> omega
  · have := List.mem_singleton.mp h
    omega

/-- From a cursor on the first byte or inside the data, the walk takes one turn a byte at most,
and reads no further than a service field at the last byte reaches. -/
theorem advWalk_bounds {uuid : Vector UInt8 16} {r : AdvReport} :
    ∀ {fuel off : Nat} {x : AdvWalk}, off ≤ r.dataLen.toNat - 1 → advWalk uuid r fuel off = some x →
      off + x.turns ≤ max 1 r.dataLen.toNat ∧
        ∀ o ∈ x.reads, o ≤ r.dataLen.toNat - 1 + 2 + avatarOffset := by
  intro fuel
  induction fuel with
  | zero => intro off x _ h; cases h
  | succ fuel ih =>
    intro off x hoff h
    have hheader : ∀ o ∈ headerReads r off, o ≤ r.dataLen.toNat - 1 + 2 + avatarOffset := by
      intro o ho
      have := mem_headerReads ho
      unfold avatarOffset
      omega
    unfold advWalk at h
    split at h
    · cases h
      refine ⟨by simp only; omega, fun o ho => ?_⟩
      rcases List.mem_append.mp ho with ho | ho
      · exact hheader o ho
      · simp only [fieldReads, stateOffset, avatarOffset, List.mem_cons, List.not_mem_nil,
          or_false] at ho ⊢
        omega
    · simp only at h
      split at h
      · cases h
        exact ⟨by simp only; omega, hheader⟩
      · next hlt =>
        obtain ⟨y, hy, rfl⟩ := Option.map_eq_some_iff.mp h
        obtain ⟨hturns, hreads⟩ := ih (by omega) hy
        refine ⟨by simp only; omega, fun o ho => ?_⟩
        rcases List.mem_append.mp ho with ho | ho
        · exact hheader o ho
        · exact hreads o ho

/-- **The walk ends and stays inside the report buffer.** Given any turns from one a byte on, it
comes to the result of `grpr_process_adverts` within one turn a byte, and every byte it looks at
is inside `data`. -/
theorem walk_bounded (uuid : Vector UInt8 16) (r : AdvReport) (hlen : r.dataLen.toNat ≤ 31)
    (fuel : Nat) (hfuel : max 1 r.dataLen.toNat ≤ fuel) :
    ∃ x, advWalk uuid r fuel 0 = some x ∧ x.field = serviceField uuid r ∧
      x.turns ≤ max 1 r.dataLen.toNat ∧ ∀ o ∈ x.reads, o < 64 := by
  have hloop := advLoop_of_le hfuel (advLoop_eq_serviceField uuid r)
  rw [← field_advWalk] at hloop
  obtain ⟨x, hx, hfield⟩ := Option.map_eq_some_iff.mp hloop
  obtain ⟨hturns, hreads⟩ := advWalk_bounds (Nat.zero_le _) hx
  refine ⟨x, hx, hfield, by omega, fun o ho => ?_⟩
  have := hreads o ho
  unfold avatarOffset at this
  omega

/-- A report that ends with the service field. -/
theorem walk_bounded_sample :
    ∃ x, advWalk uuidMuchiService (serviceReport addrOne 0) 28 0 = some x ∧
      x.field = serviceField uuidMuchiService (serviceReport addrOne 0) ∧
      x.turns ≤ max 1 28 ∧ ∀ o ∈ x.reads, o < 64 :=
  walk_bounded uuidMuchiService (serviceReport addrOne 0) (by decide) 28 (by decide)

/-! ## The header of a service field -/

/-- The first 18 bytes of a service field: `len`, `val` and the UUID. -/
def headerByte (uuid : Vector UInt8 16) (j : Nat) : UInt8 :=
  (UInt8.ofNat (serviceDataSize + 1) :: advServiceDataUuid128 :: uuid.toList).getD j 0

theorem isServiceField_iff {uuid : Vector UInt8 16} {r : AdvReport} {off : Nat} :
    isServiceField uuid r off = true ↔ ∀ j, j < 18 → r.byte (off + j) = headerByte uuid j := by
  unfold isServiceField headerByte
  rw [decide_eq_true_iff]
  constructor
  · rintro ⟨hlen, hval, hu⟩ j hj
    rcases j with _ | _ | j
    · exact UInt8.toNat_inj.mp hlen
    · exact hval
    · subst hu
      simp [show j < 16 by omega, Nat.add_comm, Nat.add_left_comm]
  · intro h
    refine ⟨?_, h 1 (by decide), ?_⟩
    · have h0 := h 0 (by decide)
      rw [Nat.add_zero] at h0
      rw [h0]
      rfl
    · apply Vector.ext
      intro j hj
      have hb := h (j + 2) (by omega)
      rw [Vector.getElem_ofFn, show off + 2 + j = off + (j + 2) by omega, hb]
      simp [hj]

theorem Reaches.lt {uuid : Vector UInt8 16} {r : AdvReport} {off : Nat} (h : Reaches uuid r off) :
    off = 0 ∨ off < r.dataLen.toNat := by
  cases h with
  | start => exact .inl rfl
  | next _ _ hlt => exact .inr hlt

end Muchiwachi
