import Muchiwachi.Control

/-!
# What the handlers write, and losing power

The NVRAM writes of each input: main events write the configuration when an avatar is confirmed
and nothing otherwise, reports write store records only. `Watch.powerStep` is the watch over any
number of boots: an input is handled, or power is lost during one and the watch started again.
-/

namespace Muchiwachi

open Lib MainFsm

/-! ## Writes of the main state machine -/

section

variable (env : Env) (w : Watch)

theorem writes_startAdverts (flags : UInt8) : Writes [] w (grprStartAdverts env flags w) :=
  (issues_startAdverts env w flags).writes fun _ h => by simp [h]

theorem writes_startIfConfigured : Writes [] w (startIfConfigured env w) :=
  (issues_startIfConfigured env w).writes fun _ h => by rcases h with h | h <;> simp [h]

/-- The writes of a confirmed avatar: the avatar, and if that succeeds the mark. -/
def confirmWrites : List (Nat × List UInt8) :=
  okWrite env nvmAvatarCode (avatarBytes w) ++
    if env.writeOk nvmAvatarCode then okWrite env nvmConfigIsValid [1] else []

theorem writes_saveConfig : Writes (confirmWrites env w) w (saveConfig env w) := by
  have havatar := writes_write env nvmAvatarCode (avatarBytes w) w
  unfold saveConfig confirmWrites
  cases hok : env.writeOk nvmAvatarCode with
  | true =>
    simp only [bleprofileWriteNVRAM, hok, ↓reduceIte, avatarBytes, List.length_cons,
      List.length_nil]
    simp only [bleprofileWriteNVRAM, hok, avatarBytes] at havatar
    exact havatar.trans (writes_write env nvmConfigIsValid [1] _)
  | false =>
    simp only [bleprofileWriteNVRAM, hok, Bool.false_eq_true, ↓reduceIte, List.append_nil]
    simp only [bleprofileWriteNVRAM, hok] at havatar
    exact havatar

end

/-- A main event confirms the avatar that is selected. -/
def confirms (w : Watch) (e : MEvent) : Prop :=
  e = .acceptPush ∧ w.mainState = .cfg ∧ w.currCursor = .ok

instance (w : Watch) (e : MEvent) : Decidable (confirms w e) :=
  inferInstanceAs (Decidable (_ ∧ _ ∧ _))

theorem of_write_mem_stepKinds {w : Watch} {e : MEvent} (h : .write ∈ stepKinds w e) :
    w.mainState = .cfg ∧ e = .acceptPush := by
  unfold stepKinds at h
  split at h <;> simp_all

theorem MainStep.writes {env : Env} {e : MEvent} {w w' : Watch} (hs : MainStep env e w w') :
    Writes (if confirms w e then confirmWrites env w else []) w w' := by
  have hissues := hs.issues
  by_cases hw : .write ∈ stepKinds w e
  · obtain ⟨hcfg, rfl⟩ := of_write_mem_stepKinds hw
    cases hs with
    | confirm hm hc =>
      rw [if_pos ⟨rfl, hm, hc⟩]
      have hkey : Writes [] w (displayKeypress .accept w).2 := .ram rfl rfl
      exact (hkey.nil_trans ((writes_saveConfig env _).then_nil
        (writes_startIfConfigured env _))).then_ram rfl rfl
    | acceptKey hm hc =>
      rw [if_neg fun h => hc h.2.2]
      exact .ram rfl rfl
    | toTime hm | toCfg hm | dismiss hm | blank hm =>
      rw [hcfg] at hm
      cases hm
    | ignored hi => simp [ignores, hcfg] at hi
  · have hc : ¬ confirms w e := by
      rintro ⟨rfl, hm, -⟩
      simp [stepKinds, hm] at hw
    rw [if_neg hc]
    exact hissues.writes fun k hk hwrite => hw (hwrite ▸ hk)

/-! ## Losing power -/

/-- What happens to a watch over any number of boots. `powerLoss i j boot`: power is lost after
`j` of the NVRAM writes of handling `i`, and the watch is started again. -/
inductive PowerInput where
  | input (i : Input)
  | powerLoss (i : Input) (j : Nat) (boot : Env)

def Watch.powerStep (w : Watch) : PowerInput → Watch
  | .input i => handle w i
  | .powerLoss i j boot => created boot (w.crashNvram (handle w i) j)

/-- The input that is handled, to its end or not. -/
def PowerInput.handled : PowerInput → Input
  | .input i => i
  | .powerLoss i _ _ => i

/-- The input confirms the avatar that is selected. -/
def Input.confirms (w : Watch) : Input → Prop
  | .event _ e => Muchiwachi.confirms w e
  | _ => False

/-- Nothing is written before `muchi_create` returns. -/
@[simp] theorem nvram_created (env : Env) (nv : Nvram) : (created env nv).chip.nvram = nv := by
  rw [created_eq]
  exact (nvram_startIfConfigured ..).trans (nvram_booting env nv)

end Muchiwachi
