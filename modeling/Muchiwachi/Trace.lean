import Muchiwachi.Basic
import Muchiwachi.Lib.Records
import Muchiwachi.Lib.Run

/-!
# What a handler leaves in the trace

`Writes ws w w'`: going from `w` to `w'` the code has issued some calls, its chip is what these
calls make of the old one, and `ws` are the NVRAM writes among them that succeeded, in order.
Every function of the application satisfies it for some `ws`; `Writes.trans` composes the
functions' lists. Losing power after `j` of the writes leaves the NVRAM of `crashNvram`.

`Emits obs os w w'` does the same for anything `obs` that can be seen of a call in the chip that
takes it. `Issues P w w'` only says that all of the calls satisfy `P`; where `P` tells the kind of
the calls, it gives `Writes []` and `Emits obs []` for what does not look at that kind.
-/

namespace Muchiwachi

open Lib

/-- The write a call performs. -/
def Call.write : Call → Option (Nat × List UInt8)
  | .writeNvram vsId payload true => some (vsId, payload)
  | _ => none

theorem Chip.nvram_apply (c : Chip) (k : Call) :
    (c.apply k).nvram = applyWrites c.nvram k.write.toList := by
  rcases k with _ | ⟨vsId, payload, _ | _⟩ | _ | _ | _ | _ | _ | _ | _ <;> rfl

theorem Chip.nvram_applyAll (c : Chip) (cs : List Call) :
    (c.applyAll cs).nvram = applyWrites c.nvram (cs.filterMap Call.write) := by
  induction cs generalizing c with
  | nil => rfl
  | cons k cs ih =>
    rw [Chip.applyAll_cons, ih, Chip.nvram_apply, ← applyWrites_append]
    congr 1
    cases h : k.write <;> simp [h]

/-- The calls `w'` has made since `w`. -/
def Watch.callsSince (w w' : Watch) : List Call := w'.calls.drop w.calls.length

/-- The successful NVRAM writes made since `w`, in order. -/
def Watch.writesSince (w w' : Watch) : List (Nat × List UInt8) :=
  (w.callsSince w').filterMap Call.write

/-- NVRAM when power is lost after the first `j` of the writes made since `w`. -/
def Watch.crashNvram (w w' : Watch) (j : Nat) : Nvram :=
  applyWrites w.chip.nvram ((w.writesSince w').take j)

def Writes (ws : List (Nat × List UInt8)) (w w' : Watch) : Prop :=
  ∃ cs, w'.calls = w.calls ++ cs ∧ w'.chip = w.chip.applyAll cs ∧ cs.filterMap Call.write = ws

/-- Code that touches RAM only. -/
theorem Writes.ram {w w' : Watch} (hcalls : w'.calls = w.calls) (hchip : w'.chip = w.chip) :
    Writes [] w w' := ⟨[], by simp [hcalls], hchip, rfl⟩

theorem Writes.call (k : Call) (w : Watch) : Writes k.write.toList w (w.call k) :=
  ⟨[k], rfl, rfl, by cases h : k.write <;> simp [h]⟩

theorem Writes.trans {as bs : List (Nat × List UInt8)} {a b c : Watch} (h1 : Writes as a b)
    (h2 : Writes bs b c) : Writes (as ++ bs) a c := by
  obtain ⟨cs, hcs, hchip, rfl⟩ := h1
  obtain ⟨ds, hds, hchip', rfl⟩ := h2
  refine ⟨cs ++ ds, ?_, ?_, List.filterMap_append⟩
  · rw [hds, hcs, List.append_assoc]
  · rw [hchip', hchip, Chip.applyAll_append]

/-- What follows touches RAM only. -/
theorem Writes.then_ram {ws : List (Nat × List UInt8)} {a b c : Watch} (h : Writes ws a b)
    (hcalls : c.calls = b.calls) (hchip : c.chip = b.chip) : Writes ws a c := by
  obtain ⟨cs, hcs, hc, hws⟩ := h
  exact ⟨cs, hcalls.trans hcs, hchip.trans hc, hws⟩

/-- What goes before writes nothing. -/
theorem Writes.nil_trans {ws : List (Nat × List UInt8)} {a b c : Watch} (h1 : Writes [] a b)
    (h2 : Writes ws b c) : Writes ws a c := h1.trans h2

/-- What follows writes nothing. -/
theorem Writes.then_nil {ws : List (Nat × List UInt8)} {a b c : Watch} (h1 : Writes ws a b)
    (h2 : Writes [] b c) : Writes ws a c := by
  have h := h1.trans h2
  rwa [List.append_nil] at h

theorem Writes.nvram {ws : List (Nat × List UInt8)} {w w' : Watch} (h : Writes ws w w') :
    w'.chip.nvram = applyWrites w.chip.nvram ws := by
  obtain ⟨cs, -, hchip, rfl⟩ := h
  rw [hchip, Chip.nvram_applyAll]

theorem Writes.writesSince {ws : List (Nat × List UInt8)} {w w' : Watch} (h : Writes ws w w') :
    w.writesSince w' = ws := by
  obtain ⟨cs, hcs, -, rfl⟩ := h
  rw [Watch.writesSince, Watch.callsSince, hcs, List.drop_left]

theorem Writes.crashNvram {ws : List (Nat × List UInt8)} {w w' : Watch} (h : Writes ws w w')
    (j : Nat) : w.crashNvram w' j = applyWrites w.chip.nvram (ws.take j) := by
  rw [Watch.crashNvram, h.writesSince]

/-- The write of a record, if it succeeds. -/
def okWrite (env : Env) (vsId : Nat) (payload : List UInt8) : List (Nat × List UInt8) :=
  if env.writeOk vsId then [(vsId, payload)] else []

theorem writes_write (env : Env) (vsId : Nat) (payload : List UInt8) (w : Watch) :
    Writes (okWrite env vsId payload) w (bleprofileWriteNVRAM env vsId payload w).2 := by
  have h := Writes.call (.writeNvram vsId payload (env.writeOk vsId)) w
  unfold okWrite
  cases hok : env.writeOk vsId <;> rw [hok] at h <;>
    simpa [bleprofileWriteNVRAM, hok, Call.write] using h

/-! ## Observing calls -/

section

variable {β : Type*} {obs : Chip → Call → List β}

/-- What `obs` sees of the calls made since `w`, each in the chip that takes it. -/
def Watch.seenSince (obs : Chip → Call → List β) (w w' : Watch) : List β :=
  outputs Chip.apply obs w.chip (w.callsSince w')

/-- Going from `w` to `w'` the code has issued calls of which `obs` sees `os`. -/
def Emits (obs : Chip → Call → List β) (os : List β) (w w' : Watch) : Prop :=
  ∃ cs, w'.calls = w.calls ++ cs ∧ w'.chip = w.chip.applyAll cs ∧
    outputs Chip.apply obs w.chip cs = os

theorem Emits.ram {w w' : Watch} (hcalls : w'.calls = w.calls) (hchip : w'.chip = w.chip) :
    Emits obs [] w w' := ⟨[], by simp [hcalls], hchip, rfl⟩

theorem Emits.call (k : Call) (w : Watch) : Emits obs (obs w.chip k) w (w.call k) :=
  ⟨[k], rfl, rfl, List.append_nil _⟩

theorem Emits.trans {as bs : List β} {a b c : Watch} (h1 : Emits obs as a b)
    (h2 : Emits obs bs b c) : Emits obs (as ++ bs) a c := by
  obtain ⟨cs, hcs, hchip, rfl⟩ := h1
  obtain ⟨ds, hds, hchip', rfl⟩ := h2
  refine ⟨cs ++ ds, ?_, ?_, ?_⟩
  · rw [hds, hcs, List.append_assoc]
  · rw [hchip', hchip, Chip.applyAll_append]
  · rw [outputs_append, hchip]
    rfl

/-- What follows touches RAM only. -/
theorem Emits.then_ram {os : List β} {a b c : Watch} (h : Emits obs os a b)
    (hcalls : c.calls = b.calls) (hchip : c.chip = b.chip) : Emits obs os a c := by
  obtain ⟨cs, hcs, hc, hos⟩ := h
  exact ⟨cs, hcalls.trans hcs, hchip.trans hc, hos⟩

/-- Of what goes before nothing is seen. -/
theorem Emits.nil_trans {os : List β} {a b c : Watch} (h1 : Emits obs [] a b)
    (h2 : Emits obs os b c) : Emits obs os a c := h1.trans h2

/-- Of what follows nothing is seen. -/
theorem Emits.then_nil {os : List β} {a b c : Watch} (h1 : Emits obs os a b)
    (h2 : Emits obs [] b c) : Emits obs os a c := by
  have h := h1.trans h2
  rwa [List.append_nil] at h

theorem Emits.seenSince {os : List β} {w w' : Watch} (h : Emits obs os w w') :
    w.seenSince obs w' = os := by
  obtain ⟨cs, hcs, -, rfl⟩ := h
  rw [Watch.seenSince, Watch.callsSince, hcs, List.drop_left]

theorem emits_write (env : Env) (vsId : Nat) (payload : List UInt8) (w : Watch) :
    Emits obs (obs w.chip (.writeNvram vsId payload (env.writeOk vsId))) w
      (bleprofileWriteNVRAM env vsId payload w).2 := Emits.call ..

end

/-! ## Calls of a kind -/

/-- What a call is about. -/
inductive CallKind where
  | read | write | clock | scanner | advertiser | panel
  deriving DecidableEq

def Call.kind : Call → CallKind
  | .readNvram _ _ => .read
  | .writeNvram _ _ _ => .write
  | .readRtc => .clock
  | .scan _ => .scanner
  | .generateAdvData _ | .setTxPowerInAdv _ | .discoverable _ => .advertiser
  | .setPin _ _ | .draw _ => .panel

theorem Call.write_eq_none {k : Call} (h : k.kind ≠ .write) : k.write = none := by
  cases k with
  | writeNvram => exact absurd rfl h
  | _ => rfl

section

variable {P : Call → Prop}

/-- Going from `w` to `w'` the code has issued calls that satisfy `P`, and no others. -/
def Issues (P : Call → Prop) (w w' : Watch) : Prop :=
  ∃ cs, w'.calls = w.calls ++ cs ∧ w'.chip = w.chip.applyAll cs ∧ ∀ k ∈ cs, P k

theorem Issues.ram {w w' : Watch} (hcalls : w'.calls = w.calls) (hchip : w'.chip = w.chip) :
    Issues P w w' := ⟨[], by simp [hcalls], hchip, by simp⟩

theorem Issues.call {k : Call} (h : P k) (w : Watch) : Issues P w (w.call k) :=
  ⟨[k], rfl, rfl, by simpa using h⟩

theorem Issues.trans {a b c : Watch} (h1 : Issues P a b) (h2 : Issues P b c) : Issues P a c := by
  obtain ⟨cs, hcs, hchip, hP⟩ := h1
  obtain ⟨ds, hds, hchip', hP'⟩ := h2
  refine ⟨cs ++ ds, ?_, ?_, ?_⟩
  · rw [hds, hcs, List.append_assoc]
  · rw [hchip', hchip, Chip.applyAll_append]
  · simp only [List.mem_append]
    rintro k (hk | hk)
    · exact hP k hk
    · exact hP' k hk

/-- What follows touches RAM only. -/
theorem Issues.then_ram {a b c : Watch} (h : Issues P a b) (hcalls : c.calls = b.calls)
    (hchip : c.chip = b.chip) : Issues P a c := h.trans (.ram hcalls hchip)

/-- A loop issues what its turns issue. -/
theorem Issues.foldl {α : Type} {f : Watch → α → Watch} {l : List α}
    (h : ∀ w, ∀ a ∈ l, Issues P w (f w a)) (w : Watch) : Issues P w (l.foldl f w) := by
  induction l generalizing w with
  | nil => exact .ram rfl rfl
  | cons a l ih =>
    have hturn := h w a List.mem_cons_self
    exact hturn.trans (ih (fun w b hb => h w b (List.mem_cons_of_mem a hb)) (f w a))

theorem Issues.mono {Q : Call → Prop} {w w' : Watch} (h : Issues P w w')
    (hpq : ∀ k, P k → Q k) : Issues Q w w' := by
  obtain ⟨cs, hcs, hchip, hP⟩ := h
  exact ⟨cs, hcs, hchip, fun k hk => hpq k (hP k hk)⟩

/-- Calls of one kind, among others. -/
theorem Issues.among {κ : CallKind} {l : List CallKind} {w w' : Watch}
    (h : Issues (·.kind = κ) w w') (hκ : κ ∈ l) : Issues (·.kind ∈ l) w w' :=
  h.mono fun _ hk => hk ▸ hκ

theorem Issues.callsSince {w w' : Watch} (h : Issues P w w') : ∀ k ∈ w.callsSince w', P k := by
  obtain ⟨cs, hcs, -, hP⟩ := h
  rwa [Watch.callsSince, hcs, List.drop_left]

/-- Calls that write no record. -/
theorem Issues.writes {w w' : Watch} (h : Issues P w w')
    (hkind : ∀ k, P k → k.kind ≠ .write) : Writes [] w w' := by
  obtain ⟨cs, hcs, hchip, hP⟩ := h
  refine ⟨cs, hcs, hchip, List.filterMap_eq_nil_iff.mpr fun k hk => ?_⟩
  exact Call.write_eq_none (hkind k (hP k hk))

/-- Calls that cannot be seen. -/
theorem Issues.emits {β : Type*} {obs : Chip → Call → List β} {w w' : Watch} (h : Issues P w w')
    (hobs : ∀ c k, P k → obs c k = []) : Emits obs [] w w' := by
  obtain ⟨cs, hcs, hchip, hP⟩ := h
  refine ⟨cs, hcs, hchip, ?_⟩
  clear hcs hchip
  generalize w.chip = c
  induction cs generalizing c with
  | nil => rfl
  | cons k cs ih =>
    rw [outputs, hobs c k (hP k List.mem_cons_self), List.nil_append]
    exact ih (fun k hk => hP k (List.mem_cons_of_mem _ hk)) (c.apply k)

end

end Muchiwachi
