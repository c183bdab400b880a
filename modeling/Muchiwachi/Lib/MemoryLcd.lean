import Mathlib.Data.List.Basic
import Mathlib.Logic.Function.Basic

/-!
# The multi-line write of a memory LCD

Under chip select the panel takes a mode byte and then, for each line, its address (bits
reversed), its pixels and eight trailer bits; eight more trailer bits end the transfer.

`decodeWire` reads the line writes back from what went over the wire, and fails on anything else.
It inverts `encodeTransfer` on one transfer (`decodeTransfer_encode`) and takes the transfers of
a wire one after the other (`decodeWire_transfer`).
-/

namespace Muchiwachi.Lib.MemoryLcd

/-! ## One transfer -/

/-- A byte with its bits in the opposite order. -/
def reversed (b : UInt8) : UInt8 := ⟨b.toBitVec.reverse⟩

@[simp] theorem reversed_reversed (b : UInt8) : reversed (reversed b) = b := by
  simp [reversed]

/-- A mode byte of a write, with either polarity of the panel's drive. -/
def IsMode (b : UInt8) : Prop := b = 0x80 ∨ b = 0xC0

instance (b : UInt8) : Decidable (IsMode b) := inferInstanceAs (Decidable (_ ∨ _))

/-- The lines of a transfer, `width` bytes each, and the trailer that ends it. -/
def decodeLines (width : Nat) : List UInt8 → Option (List (Nat × List UInt8))
  | [] => none
  | [last] => if last = 0 then some [] else none
  | address :: body =>
    match _h : body.drop width with
    | [] => none
    | trailer :: rest =>
      if trailer = 0 then
        (((reversed address).toNat, body.take width) :: ·) <$> decodeLines width rest
      else none
termination_by bytes => bytes.length
decreasing_by
  have hrest := congrArg List.length _h
  simp only [List.length_drop, List.length_cons] at hrest ⊢
  omega

/-- The line writes of a transfer. -/
def decodeTransfer (width : Nat) : List UInt8 → Option (List (Nat × List UInt8))
  | mode :: body => if IsMode mode then decodeLines width body else none
  | [] => none

/-- A line as it is sent, its trailer included. -/
def encodeLine (line : UInt8 × List UInt8) : List UInt8 := reversed line.1 :: (line.2 ++ [0])

/-- The transfer that writes the lines. -/
def encodeTransfer (mode : UInt8) (lines : List (UInt8 × List UInt8)) : List UInt8 :=
  mode :: (lines.flatMap encodeLine ++ [0])

theorem decodeLines_cons {width : Nat} {line : UInt8 × List UInt8} (h : line.2.length = width)
    (rest : List UInt8) : decodeLines width (encodeLine line ++ rest) =
      ((line.1.toNat, line.2) :: ·) <$> decodeLines width rest := by
  have hbody : encodeLine line ++ rest = reversed line.1 :: (line.2 ++ 0 :: rest) := by
    simp [encodeLine]
  have hdrop : (line.2 ++ 0 :: rest).drop width = 0 :: rest := List.drop_left' h
  have htake : (line.2 ++ 0 :: rest).take width = line.2 := List.take_left' h
  rw [hbody, decodeLines]
  · split
    · next heq =>
      rw [hdrop] at heq
      cases heq
    · next heq =>
      rw [hdrop] at heq
      cases heq
      rw [if_pos rfl, htake, reversed_reversed]
  · intro hnil
    simp at hnil

theorem decodeLines_encode {width : Nat} {lines : List (UInt8 × List UInt8)}
    (h : ∀ line ∈ lines, line.2.length = width) :
    decodeLines width (lines.flatMap encodeLine ++ [0]) =
      some (lines.map fun line => (line.1.toNat, line.2)) := by
  induction lines with
  | nil => simp [decodeLines]
  | cons line lines ih =>
    have hline := h line List.mem_cons_self
    have hlines := ih fun l hl => h l (List.mem_cons_of_mem _ hl)
    rw [List.flatMap_cons, List.append_assoc, decodeLines_cons hline, hlines]
    rfl

/-- Decoding inverts encoding. -/
theorem decodeTransfer_encode {width : Nat} {mode : UInt8} {lines : List (UInt8 × List UInt8)}
    (hmode : IsMode mode) (h : ∀ line ∈ lines, line.2.length = width) :
    decodeTransfer width (encodeTransfer mode lines) =
      some (lines.map fun line => (line.1.toNat, line.2)) := by
  rw [encodeTransfer, decodeTransfer, if_pos hmode, decodeLines_encode h]

/-! ## The wire -/

/-- What a master does on the bus. -/
inductive WireOp where
  | select | deselect
  | send (bytes : List UInt8)
  deriving DecidableEq, Repr

/-- The transfers chip select frames, given what was sent since it was asserted. Bytes outside
a frame, a frame within a frame and one that is left open are errors. -/
def frames : Option (List UInt8) → List WireOp → Option (List (List UInt8))
  | none, [] => some []
  | none, .select :: ops => frames (some []) ops
  | some sent, .send bytes :: ops => frames (some (sent ++ bytes)) ops
  | some sent, .deselect :: ops => (sent :: ·) <$> frames none ops
  | _, _ => none

/-- The line writes of all transfers. -/
def decodeWire (width : Nat) (ops : List WireOp) : Option (List (Nat × List UInt8)) := do
  let transfers ← frames none ops
  let writes ← transfers.mapM (decodeTransfer width)
  some writes.flatten

theorem frames_send (sent : List UInt8) (bytes : List (List UInt8)) (ops : List WireOp) :
    frames (some sent) (bytes.map .send ++ .deselect :: ops) =
      ((sent ++ bytes.flatten) :: ·) <$> frames none ops := by
  induction bytes generalizing sent with
  | nil => simp [frames]
  | cons b bs ih => simp [frames, ih, List.append_assoc]

/-- One transfer, however its bytes are split up. -/
def transfer (bytes : List (List UInt8)) : List WireOp :=
  .select :: (bytes.map .send ++ [.deselect])

theorem frames_transfer (bytes : List (List UInt8)) (ops : List WireOp) :
    frames none (transfer bytes ++ ops) = (bytes.flatten :: ·) <$> frames none ops := by
  simp [transfer, frames, frames_send]

theorem decodeWire_nil (width : Nat) : decodeWire width [] = some [] := rfl

/-- A transfer is decoded before what follows it. -/
theorem decodeWire_transfer {width : Nat} {bytes : List (List UInt8)}
    {writes : List (Nat × List UInt8)} (h : decodeTransfer width bytes.flatten = some writes)
    (ops : List WireOp) :
    decodeWire width (transfer bytes ++ ops) = (writes ++ ·) <$> decodeWire width ops := by
  unfold decodeWire
  rw [frames_transfer]
  cases frames none ops with
  | none => rfl
  | some rest =>
    cases hrest : rest.mapM (decodeTransfer width) <;> simp [h, hrest]

/-! ## The panel -/

/-- The lines of a panel after some writes. -/
def writeLines (mem : Nat → List UInt8) (writes : List (Nat × List UInt8)) : Nat → List UInt8 :=
  writes.foldl (fun mem write => Function.update mem write.1 write.2) mem

/-- Writing the first `n` lines, one after the other. -/
theorem writeLines_range (mem : Nat → List UInt8) (row : Nat → List UInt8) {n y : Nat}
    (hy : y < n) :
    writeLines mem ((List.range n).map fun y => (y + 1, row y)) (y + 1) = row y := by
  induction n with
  | zero => exact absurd hy (Nat.not_lt_zero y)
  | succ n ih =>
    unfold writeLines at ih ⊢
    rw [List.range_succ, List.map_append, List.foldl_append, List.map_singleton, List.foldl_cons,
      List.foldl_nil]
    by_cases hyn : y = n
    · rw [hyn, Function.update_self]
    · rw [Function.update_of_ne (by omega)]
      exact ih (by omega)

/-- What a panel does with a transfer; one that is none is ignored. -/
def takeTransfer (width : Nat) (mem : Nat → List UInt8) (bytes : List UInt8) : Nat → List UInt8 :=
  writeLines mem ((decodeTransfer width bytes).getD [])

theorem takeTransfers {width : Nat} {transfers : List (List UInt8)}
    {writes : List (List (Nat × List UInt8))}
    (h : transfers.mapM (decodeTransfer width) = some writes) (mem : Nat → List UInt8) :
    transfers.foldl (takeTransfer width) mem = writeLines mem writes.flatten := by
  induction transfers generalizing mem writes with
  | nil =>
    obtain rfl : [] = writes := by simpa using h
    rfl
  | cons bytes transfers ih =>
    rw [List.mapM_cons] at h
    cases hfirst : decodeTransfer width bytes with
    | none => simp [hfirst] at h
    | some first =>
      cases hrest : transfers.mapM (decodeTransfer width) with
      | none => simp [hfirst, hrest] at h
      | some rest =>
        obtain rfl : first :: rest = writes := by simpa [hfirst, hrest] using h
        rw [List.foldl_cons, ih hrest, takeTransfer, hfirst, Option.getD_some, List.flatten_cons]
        exact (List.foldl_append ..).symm

/-- A panel that takes the transfers of a wire makes the line writes read back from it. -/
theorem takeTransfers_decodeWire {width : Nat} {ops : List WireOp}
    {writes : List (Nat × List UInt8)} (h : decodeWire width ops = some writes) :
    ∃ transfers, frames none ops = some transfers ∧
      ∀ mem, transfers.foldl (takeTransfer width) mem = writeLines mem writes := by
  unfold decodeWire at h
  cases hframes : frames none ops with
  | none => simp [hframes] at h
  | some transfers =>
    cases hwrites : transfers.mapM (decodeTransfer width) with
    | none => simp [hframes, hwrites] at h
    | some ws =>
      obtain rfl : ws.flatten = writes := by simpa [hframes, hwrites] using h
      exact ⟨transfers, rfl, takeTransfers hwrites⟩

end Muchiwachi.Lib.MemoryLcd
