import Muchiwachi.Power

/-!
# The saved configuration

Three places hold the avatar of the user: RAM, the NVRAM record, and the advertising payload. A
fourth, the mark `MUCHI_NVM_CONFIG_IS_VALID`, says that the record is good. This module proves
what keeps them together over any number of boots: the mark is set only over a confirmed avatar
(`configMark_honest`), and past the configuration the three copies agree (`avatars_agree`).
-/

namespace Muchiwachi

open Lib MainFsm

/-- A nonzero `MUCHI_NVM_CONFIG_IS_VALID` record is stored. -/
def configMarked (nv : Nvram) : Bool := (nv nvmConfigIsValid).headD 0 ≠ 0

/-- The avatar codes a user can select. -/
def avatarInRange (a : UInt8) : Prop := avatarFirst ≤ a ∧ a ≤ avatarLast

theorem avatarInRange_next {a : UInt8} (h : avatarInRange a) : avatarInRange (nextAvatar a) := by
  obtain ⟨hlo, hhi⟩ := h
  unfold avatarInRange nextAvatar
  split
  · exact ⟨by decide, by decide⟩
  · next hle =>
    simp only [avatarFirst, avatarLast, UInt8.le_iff_toNat_le, UInt8.lt_iff_toNat_lt,
      UInt8.toNat_add, UInt8.reduceToNat, not_lt] at hlo hhi hle ⊢
    omega

/-! ## What the configuration code reads -/

section

variable {env : Env} {w : Watch}

/-- What `config_valid` holds after the read: the stored mark, or what was on the stack. -/
def configSeen (env : Env) (nv : Nvram) : UInt8 :=
  if env.readOk nvmConfigIsValid then (nv nvmConfigIsValid).headD env.configValid
  else env.configValid

theorem readConfigValid_fst (env : Env) (w : Watch) :
    (readConfigValid env w).1 = configSeen env w.chip.nvram := by
  simp only [readConfigValid, bleprofileReadNVRAM, configSeen]
  split
  · cases w.chip.nvram nvmConfigIsValid <;> rfl
  · rfl

/-- A stored mark that can be read is seen. -/
theorem readConfigValid_of_marked (hok : env.readOk nvmConfigIsValid = true)
    (h : configMarked w.chip.nvram = true) : (readConfigValid env w).1 ≠ 0 := by
  rw [readConfigValid_fst, configSeen, if_pos hok]
  have hne := of_decide_eq_true h
  cases hrec : w.chip.nvram nvmConfigIsValid with
  | nil => simp [hrec] at hne
  | cons b bs => simpa [hrec] using hne

/-- The avatar is read back whole, or RAM keeps the one it has. -/
theorem gAvatar_readAvatar (env : Env) (w : Watch) :
    (readAvatar env w).gAvatar =
      if env.readOk nvmAvatarCode then
        ((w.chip.nvram nvmAvatarCode).getD 0 w.gAvatar.1,
          (w.chip.nvram nvmAvatarCode).getD 1 w.gAvatar.2)
      else w.gAvatar := by
  simp only [readAvatar, bleprofileReadNVRAM]
  split
  · cases hrec : w.chip.nvram nvmAvatarCode with
    | nil => rfl
    | cons a l => cases l <;> rfl
  · rfl

theorem gAvatar_startIfConfigured (env : Env) (w : Watch) :
    (startIfConfigured env w).gAvatar =
      if (readConfigValid env w).1 ≠ 0 then (readAvatar env w).gAvatar else w.gAvatar := by
  unfold startIfConfigured
  simp only
  split
  · simp only [gAvatar_startAdverts, gAvatar_readAvatar, chip_readConfigValid]
    rfl
  · rfl

end

/-! ## The mark -/

/-- The configuration records, where the user has chosen the avatars `chosen`: an avatar record
holds one of them, and there is one below a mark. -/
structure SavedConfig (chosen : UInt8 → Prop) (nv : Nvram) : Prop where
  record : nv nvmAvatarCode = [] ∨ ∃ a, nv nvmAvatarCode = [a, 0] ∧ avatarInRange a ∧ chosen a
  marked : configMarked nv = true → nv nvmAvatarCode ≠ []

theorem SavedConfig.mono {chosen chosen' : UInt8 → Prop} {nv : Nvram} (h : SavedConfig chosen nv)
    (hc : ∀ a, chosen a → chosen' a) : SavedConfig chosen' nv where
  record := by
    rcases h.record with hnil | ⟨a, ha, hr, hchosen⟩
    · exact .inl hnil
    · exact .inr ⟨a, ha, hr, hc a hchosen⟩
  marked := h.marked

/-- Only two records matter. -/
theorem SavedConfig.congr {chosen : UInt8 → Prop} {nv nv' : Nvram} (h : SavedConfig chosen nv)
    (hmark : nv' nvmConfigIsValid = nv nvmConfigIsValid)
    (havatar : nv' nvmAvatarCode = nv nvmAvatarCode) : SavedConfig chosen nv' := by
  obtain ⟨hrecord, hmarked⟩ := h
  rw [configMarked, ← hmark] at hmarked
  exact ⟨havatar ▸ hrecord, havatar ▸ hmarked⟩

/-- What of the writes of a confirmation is done when power is lost. -/
theorem take_confirmWrites (env : Env) (w : Watch) (j : Nat) :
    (confirmWrites env w).take j = [] ∨
      (confirmWrites env w).take j = [(nvmAvatarCode, avatarBytes w)] ∨
      (confirmWrites env w).take j = [(nvmAvatarCode, avatarBytes w), (nvmConfigIsValid, [1])] := by
  unfold confirmWrites okWrite
  cases env.writeOk nvmAvatarCode <;> cases env.writeOk nvmConfigIsValid <;>
    rcases j with _ | _ | j <;> simp

/-- The avatar in RAM can be saved. -/
def avatarOk (avatar : UInt8 × UInt8) : Prop := avatarInRange avatar.1 ∧ avatar.2 = 0

/-- The avatar is written before the mark, so no prefix of the writes has a bare mark. -/
theorem SavedConfig.confirm {chosen : UInt8 → Prop} {nv : Nvram} (h : SavedConfig chosen nv)
    {w : Watch} (hok : avatarOk w.gAvatar) (hc : chosen w.gAvatar.1) (env : Env) (j : Nat) :
    SavedConfig chosen (applyWrites nv ((confirmWrites env w).take j)) := by
  have hnew : ∀ nv : Nvram, nv nvmAvatarCode = avatarBytes w → SavedConfig chosen nv := by
    intro nv hnv
    refine ⟨.inr ⟨w.gAvatar.1, ?_, hok.1, hc⟩, fun _ => ?_⟩
    · rw [hnv, avatarBytes, hok.2]
    · rw [hnv]
      exact List.cons_ne_nil _ _
  rcases take_confirmWrites env w j with ht | ht | ht <;> rw [ht]
  · exact h
  · exact hnew _ rfl
  · exact hnew _ rfl

/-- RAM and NVRAM of a watch whose user has chosen the avatars `chosen`. -/
structure ConfigInv (chosen : UInt8 → Prop) (w : Watch) : Prop where
  saved : SavedConfig chosen w.chip.nvram
  ram : avatarOk w.gAvatar

theorem avatarOk_startIfConfigured {chosen : UInt8 → Prop} {w : Watch} (env : Env)
    (h : ConfigInv chosen w) : avatarOk (startIfConfigured env w).gAvatar := by
  rw [gAvatar_startIfConfigured, gAvatar_readAvatar]
  split
  · split
    · rcases h.saved.record with hnil | ⟨a, ha, hr, -⟩
      · simpa [hnil] using h.ram
      · rw [ha]
        exact ⟨hr, rfl⟩
    · exact h.ram
  · exact h.ram

/-- A confirmed avatar is saved as one of all avatars. -/
theorem configInv_saveConfig {chosen : UInt8 → Prop} {w : Watch} (h : ConfigInv chosen w)
    (env : Env) : ConfigInv (fun _ => True) (saveConfig env (displayKeypress .accept w).2) := by
  have hsaved := (h.saved.mono fun a _ => trivial).confirm h.ram trivial env
    (confirmWrites env w).length
  have hwrites : (saveConfig env (displayKeypress .accept w).2).chip.nvram =
      applyWrites w.chip.nvram (confirmWrites env w) := (writes_saveConfig env _).nvram
  rw [List.take_length, ← hwrites] at hsaved
  exact ⟨hsaved, by simpa using h.ram⟩

theorem MainStep.keepsAvatarOk {chosen : UInt8 → Prop} {env : Env} {e : MEvent} {w w' : Watch}
    (hs : MainStep env e w w') (h : ConfigInv chosen w) : avatarOk w'.gAvatar := by
  cases hs with
  | boot => simpa [displayOff] using avatarOk_startIfConfigured env h
  -- the avatar is read back from what has just been saved
  | confirm => exact avatarOk_startIfConfigured env (configInv_saveConfig h env)
  | nextKey =>
    rw [gAvatar_displayUpdate]
    show avatarOk (if w.currCursor = .avatar then (nextAvatar w.gAvatar.1, w.gAvatar.2)
      else w.gAvatar)
    split
    · exact ⟨avatarInRange_next h.ram.1, h.ram.2⟩
    · exact h.ram
  | _ => simpa [displayOff, displayPowerOn, grprStopAdverts] using h.ram

/-- Writes to the store leave the configuration records alone. -/
theorem config_records_other {ws : List (Nat × List UInt8)} (h : ∀ x ∈ ws, nvmStoreCount ≤ x.1)
    (nv : Nvram) : applyWrites nv ws nvmConfigIsValid = nv nvmConfigIsValid ∧
      applyWrites nv ws nvmAvatarCode = nv nvmAvatarCode := by
  have hother : ∀ vsId, vsId < nvmStoreCount → applyWrites nv ws vsId = nv vsId := by
    intro vsId hlt
    apply applyWrites_other
    intro x hx
    have := h x hx
    omega
  exact ⟨hother _ (by decide), hother _ (by decide)⟩

/-- However much of its writing an input gets done, the records stay good. -/
theorem savedConfig_handle {chosen : UInt8 → Prop} {w : Watch} (h : ConfigInv chosen w) (i : Input)
    (hnew : i.confirms w → chosen w.gAvatar.1) :
    ∃ ws, Writes ws w (handle w i) ∧
      ∀ j, SavedConfig chosen (applyWrites w.chip.nvram (ws.take j)) := by
  cases i with
  | advTimeout env => exact ⟨[], writes_startAdverts env w 0, fun j => by simpa using h.saved⟩
  | report env r =>
    obtain ⟨ws, hws, hkeys⟩ := writes_report env r w
    refine ⟨ws, hws, fun j => ?_⟩
    have htake : ∀ x ∈ ws.take j, nvmStoreCount ≤ x.1 :=
      fun x hx => hkeys x (List.mem_of_mem_take hx)
    have hother := config_records_other htake w.chip.nvram
    exact h.saved.congr hother.1 hother.2
  | event env e =>
    refine ⟨_, (mainStep env e w).writes, fun j => ?_⟩
    by_cases hc : Muchiwachi.confirms w e
    · rw [if_pos hc]
      exact h.saved.confirm h.ram (hnew hc) env j
    · rw [if_neg hc]
      simpa using h.saved

theorem configInv_booting {chosen : UInt8 → Prop} {nv : Nvram} (h : SavedConfig chosen nv)
    (boot : Env) : ConfigInv chosen (booting boot nv) := by
  refine ⟨?_, ?_⟩
  · rwa [nvram_booting]
  · rw [gAvatar_booting]
    exact ⟨⟨by decide, by decide⟩, rfl⟩

theorem configInv_created {chosen : UInt8 → Prop} {nv : Nvram} (h : SavedConfig chosen nv)
    (boot : Env) : ConfigInv chosen (created boot nv) := by
  refine ⟨?_, ?_⟩
  · rwa [nvram_created]
  · rw [gAvatar_created]
    exact avatarOk_startIfConfigured boot (configInv_booting h boot)

/-- One input, handled to its end or not, keeps the invariant; a confirmation adds the selected
avatar to the chosen ones. -/
theorem ConfigInv.powerStep {chosen chosen' : UInt8 → Prop} {w : Watch} (h : ConfigInv chosen w)
    (i : PowerInput) (hmono : ∀ a, chosen a → chosen' a)
    (hnew : i.handled.confirms w → chosen' w.gAvatar.1) : ConfigInv chosen' (w.powerStep i) := by
  have h' : ConfigInv chosen' w := ⟨h.saved.mono hmono, h.ram⟩
  cases i with
  | input i =>
    obtain ⟨ws, hws, hsaved⟩ := savedConfig_handle h' i hnew
    refine ⟨?_, ?_⟩
    · have hall := hsaved ws.length
      rw [List.take_length] at hall
      rwa [← hws.nvram] at hall
    · cases i with
      | event env e => exact (mainStep env e w).keepsAvatarOk h
      | advTimeout env => exact h.ram
      | report env r =>
        show avatarOk (grprProcessAdverts env r w).gAvatar
        rw [(onlyStore_report env r w).gAvatar]
        exact h.ram
  | powerLoss i j boot =>
    obtain ⟨ws, hws, hsaved⟩ := savedConfig_handle h' i hnew
    refine configInv_created ?_ boot
    rw [hws.crashNvram]
    exact hsaved j

/-- The user confirms avatar `a`. -/
def confirmed (a : UInt8) (w : Watch) (i : PowerInput) : Prop :=
  i.handled.confirms w ∧ w.gAvatar.1 = a

/-- **The mark never lies.** Started without configuration records, whatever is handled, fails
and loses power: where the mark is stored, so is an avatar in range that the user confirmed. -/
theorem configMark_honest (boot : Env) (nv : Nvram) (hmark : nv nvmConfigIsValid = [])
    (havatar : nv nvmAvatarCode = []) (is : List PowerInput) :
    configMarked (run Watch.powerStep (created boot nv) is).chip.nvram = true →
      ∃ a, (run Watch.powerStep (created boot nv) is).chip.nvram nvmAvatarCode = [a, 0] ∧
        avatarFirst ≤ a ∧ a ≤ avatarLast ∧
        Happened Watch.powerStep (confirmed a) (created boot nv) is := by
  have hinv : ConfigInv
      (fun a => Happened Watch.powerStep (confirmed a) (created boot nv) is)
      (run Watch.powerStep (created boot nv) is) := run_inv_history
    (P := fun is => ConfigInv fun a =>
      Happened Watch.powerStep (confirmed a) (created boot nv) is)
    (configInv_created ⟨.inl havatar, fun h => by simp [configMarked, hmark] at h⟩ boot)
    (fun pre i h => h.powerStep i (fun a ha => ha.snoc i)
      fun hconf => happened_last ⟨hconf, rfl⟩) is
  intro hm
  rcases hinv.saved.record with hnil | ⟨a, ha, hr, hhap⟩
  · exact absurd hnil (hinv.saved.marked hm)
  · exact ⟨a, ha, hr.1, hr.2, hhap⟩

/-- A fresh watch is configured with the avatar after the initial one; power is lost when all is
written. -/
def sampleSetup : List PowerInput :=
  let env := nominalEnv 0
  ([.nextPush, .nextPush, .acceptPush].map fun e => .input (.event env e)) ++
    [.powerLoss (.event env .acceptPush) 2 env]

theorem configMark_honest_sample :
    ∃ a, (run Watch.powerStep (created (nominalEnv 0) fun _ => []) sampleSetup).chip.nvram
        nvmAvatarCode = [a, 0] ∧
      avatarFirst ≤ a ∧ a ≤ avatarLast ∧
      Happened Watch.powerStep (confirmed a) (created (nominalEnv 0) fun _ => []) sampleSetup :=
  configMark_honest (nominalEnv 0) (fun _ => []) rfl rfl sampleSetup (by decide +kernel)

/-! ## The three copies -/

/-- Reads of the configuration records succeed. -/
def Env.ReadsConfig (env : Env) : Prop :=
  env.readOk nvmConfigIsValid = true ∧ env.readOk nvmAvatarCode = true

/-- RAM and air have the avatar that is saved. -/
def Watch.AvatarsAgree (w : Watch) : Prop :=
  w.chip.nvram nvmAvatarCode = avatarBytes w ∧ w.chip.advAvatar = some w.gAvatar.1

theorem Watch.AvatarsAgree.congr {w w' : Watch} (h : w.AvatarsAgree)
    (hnv : w'.chip.nvram nvmAvatarCode = w.chip.nvram nvmAvatarCode)
    (hram : w'.gAvatar = w.gAvatar) (hadv : w'.chip.advData = w.chip.advData) :
    w'.AvatarsAgree := by
  refine ⟨?_, ?_⟩
  · rw [hnv, h.1, avatarBytes, avatarBytes, hram]
  · rw [Chip.advAvatar, hadv, hram]
    exact h.2

/-- Starting advertising puts the avatar in RAM on the air. -/
theorem avatarsAgree_startAdverts {w : Watch} (h : w.chip.nvram nvmAvatarCode = avatarBytes w)
    (env : Env) (flags : UInt8) : (grprStartAdverts env flags w).AvatarsAgree :=
  ⟨h, payloadByte_advFields_avatar env flags w⟩

theorem avatarsAgree_displayOff {w : Watch} (h : w.AvatarsAgree) : (displayOff w).AvatarsAgree :=
  h.congr rfl rfl rfl

theorem avatarsAgree_groupfsm {w : Watch} (h : w.AvatarsAgree) (env : Env) :
    (groupfsmProcessEvent env .groupingStart w).AvatarsAgree ∧
      (groupfsmProcessEvent env .groupingStop w).AvatarsAgree := by
  cases hg : w.groupState with
  | idle =>
    rw [groupfsm_start hg, groupfsm_stop_idle hg]
    exact ⟨(avatarsAgree_startAdverts h.1 env flagGrouping).congr rfl rfl rfl, h⟩
  | grouping =>
    rw [groupfsm_start_grouping hg, groupfsm_stop hg]
    exact ⟨h, (avatarsAgree_startAdverts h.1 env 0).congr rfl rfl rfl⟩

/-- Where the mark is stored, the avatar is read back and put on the air. -/
theorem avatarsAgree_startIfConfigured {chosen : UInt8 → Prop} {env : Env} {w : Watch}
    (henv : env.ReadsConfig) (h : ConfigInv chosen w) (hm : configMarked w.chip.nvram = true) :
    (startIfConfigured env w).AvatarsAgree := by
  have hread := readConfigValid_of_marked henv.1 hm
  obtain ⟨a, ha⟩ : ∃ a, w.chip.nvram nvmAvatarCode = [a, 0] := by
    rcases h.saved.record with hnil | ⟨a, ha, -⟩
    · exact absurd hnil (h.saved.marked hm)
    · exact ⟨a, ha⟩
  unfold startIfConfigured
  simp only
  rw [if_pos hread]
  apply avatarsAgree_startAdverts
  show w.chip.nvram nvmAvatarCode = [_, _]
  rw [gAvatar_readAvatar, if_pos henv.2, chip_readConfigValid, ha]
  rfl

/-- Past the configuration, a stored mark means that the copies agree. -/
structure AvatarInv (w : Watch) : Prop where
  config : ConfigInv (fun _ => True) w
  agree : configMarked w.chip.nvram = true → w.mainState ≠ .boot →
    w.mainState ≠ .cfg ∧ w.AvatarsAgree

theorem MainStep.agree {env : Env} {e : MEvent} {w w' : Watch} (hs : MainStep env e w w')
    (henv : env.ReadsConfig) (h : AvatarInv w) (hm : configMarked w'.chip.nvram = true)
    (hboot : w'.mainState ≠ .boot) : w'.mainState ≠ .cfg ∧ w'.AvatarsAgree := by
  have hagree : configMarked w.chip.nvram = true → w.mainState ≠ .boot → w.AvatarsAgree :=
    fun hm hb => (h.agree hm hb).2
  cases hs with
  | boot =>
    have hstart := avatarsAgree_startIfConfigured henv h.config (by simpa [displayOff] using hm)
    exact ⟨by simp, (avatarsAgree_displayOff hstart).congr rfl rfl rfl⟩
  | confirm =>
    have hstart := avatarsAgree_startIfConfigured henv (configInv_saveConfig h.config env)
      (by simpa using hm)
    exact ⟨by simp, hstart.congr rfl rfl rfl⟩
  | toTime hi => exact ⟨by simp, (hagree hm (by simp [hi])).congr rfl rfl rfl⟩
  | toCfg hi he hv => exact absurd hv (readConfigValid_of_marked henv.1 hm)
  | nextKey hc | acceptKey hc =>
    exact absurd hc (h.agree (by simpa using hm) (by simp [hc])).1
  | tick =>
    have h' := h.agree (by simpa using hm) (by simpa using hboot)
    exact ⟨by simpa using h'.1, h'.2.congr (by simp) (by simp) (by simp)⟩
  | ignored => exact h.agree hm hboot
  | message ht =>
    have hb : w.mainState ≠ .boot := by rcases ht with ht | ht <;> simp [ht]
    exact ⟨by simp, (hagree hm hb).congr rfl rfl rfl⟩
  | dismiss ht | inactiveRadar ht =>
    exact ⟨by simp, (hagree hm (by simp [ht])).congr rfl rfl rfl⟩
  | tilt ht | untilt ht =>
    have hw := hagree (by simpa using hm) (by simp [ht])
    exact ⟨by simp, hw.congr (by simp) (by simp) (by simp)⟩
  | blank ht | inactive ht | longInactive ht =>
    exact ⟨by simp [displayOff, grprStopAdverts, ht], (hagree hm (by simp [ht])).congr rfl rfl rfl⟩
  | push ht | wakeup ht =>
    refine ⟨by simp [displayPowerOn, ht], avatarsAgree_startAdverts ?_ env 0⟩
    exact (hagree hm (by simp [ht])).1
  | hold ht =>
    have hw : (displayPowerOn w).AvatarsAgree :=
      (hagree (by simpa [displayPowerOn] using hm) (by simp [ht])).congr rfl rfl rfl
    exact ⟨by simp, (avatarsAgree_groupfsm hw env).1.congr rfl rfl rfl⟩
  | holdRadar ht =>
    have hw := hagree (by simpa using hm) (by simp [ht])
    exact ⟨by simp [ht], (avatarsAgree_groupfsm hw env).1⟩
  | release ht =>
    have hw := hagree (by simpa using hm) (by simp [ht])
    exact ⟨by simp [ht], (avatarsAgree_groupfsm hw env).2⟩
  | releaseRadar ht =>
    have hw := hagree (by simpa using hm) (by simp [ht])
    exact ⟨by simp, (avatarsAgree_groupfsm hw env).2.congr rfl rfl rfl⟩

theorem avatarInv_created {chosen : UInt8 → Prop} {nv : Nvram} (h : SavedConfig chosen nv)
    {boot : Env} (hboot : boot.ReadsConfig) : AvatarInv (created boot nv) := by
  have htrue : SavedConfig (fun _ => True) nv := h.mono fun _ _ => trivial
  refine ⟨configInv_created htrue boot, fun hm _ => ⟨by simp, ?_⟩⟩
  have hbooting : ConfigInv (fun _ => True) (booting boot nv) := configInv_booting htrue boot
  have hstart := avatarsAgree_startIfConfigured hboot hbooting (by simpa using hm)
  rw [created_eq]
  exact (avatarsAgree_displayOff hstart).congr rfl rfl rfl

def Input.env : Input → Env
  | .event env _ => env
  | .advTimeout env => env
  | .report env _ => env

/-- Reads of the configuration records succeed, also when the input ends in a boot. -/
def PowerInput.ReadsConfig : PowerInput → Prop
  | .input i => i.env.ReadsConfig
  | .powerLoss i _ boot => i.env.ReadsConfig ∧ boot.ReadsConfig

theorem AvatarInv.powerStep {w : Watch} (h : AvatarInv w) (i : PowerInput)
    (hreads : i.ReadsConfig) : AvatarInv (w.powerStep i) := by
  have hconfig : ConfigInv (fun _ => True) (w.powerStep i) :=
    h.config.powerStep i (fun _ _ => trivial) fun _ => trivial
  refine ⟨hconfig, ?_⟩
  cases i with
  | powerLoss i j boot =>
    have hsaved := hconfig.saved
    rw [Watch.powerStep, nvram_created] at hsaved
    exact (avatarInv_created hsaved hreads.2).agree
  | input i =>
    cases i with
    | event env e => exact (mainStep env e w).agree hreads h
    | advTimeout env =>
      intro hm hb
      have h' := h.agree hm hb
      exact ⟨h'.1, avatarsAgree_startAdverts h'.2.1 env 0⟩
    | report env r =>
      have honly := onlyStore_report env r w
      obtain ⟨ws, hws, hkeys⟩ := writes_report env r w
      have hrecords := config_records_other hkeys w.chip.nvram
      rw [← hws.nvram] at hrecords
      intro hm hb
      have hm' : configMarked w.chip.nvram = true := by
        rw [configMarked, ← hrecords.1]
        exact hm
      have h' := h.agree hm' (honly.mainState ▸ hb)
      exact ⟨honly.mainState ▸ h'.1, h'.2.congr hrecords.2 honly.gAvatar honly.advData⟩

/-- **RAM, NVRAM and air agree on the avatar.** Started without configuration records, over any
number of boots in which the configuration can be read: past the configuration, where the mark
is stored, the avatar in RAM is the saved one and so is the one on the air. -/
theorem avatars_agree (boot : Env) (nv : Nvram) (hmark : nv nvmConfigIsValid = [])
    (havatar : nv nvmAvatarCode = []) (hboot : boot.ReadsConfig) (is : List PowerInput)
    (hreads : ∀ i ∈ is, i.ReadsConfig) :
    Always Watch.powerStep
      (fun w => configMarked w.chip.nvram = true →
        w.mainState = .time ∨ w.mainState = .radar ∨ w.mainState = .message →
          w.chip.nvram nvmAvatarCode = avatarBytes w ∧
            (w.chip.discoverable ≠ .noDiscoverable →
              w.chip.advAvatar = (w.chip.nvram nvmAvatarCode).head?))
      (created boot nv) is := by
  have hfresh : SavedConfig (fun _ => True) nv :=
    ⟨.inl havatar, fun h => by simp [configMarked, hmark] at h⟩
  have hinv : Always Watch.powerStep AvatarInv (created boot nv) is :=
    always_of_step_of (fun _ i hi h => h.powerStep i hi) (avatarInv_created hfresh hboot) hreads
  refine hinv.mono fun w h hm hstate => ?_
  have hb : w.mainState ≠ .boot := by rcases hstate with hs | hs | hs <;> simp [hs]
  obtain ⟨hram, hair⟩ := (h.agree hm hb).2
  refine ⟨hram, fun _ => ?_⟩
  rw [hair, hram]
  rfl

/-- The watch of the sample setup is switched to the time. -/
theorem avatars_agree_sample :
    let w := run Watch.powerStep (created (nominalEnv 0) fun _ => [])
      (sampleSetup ++ [.input (.event (nominalEnv 0) .nextPush)])
    w.chip.nvram nvmAvatarCode = avatarBytes w ∧
      (w.chip.discoverable ≠ .noDiscoverable →
        w.chip.advAvatar = (w.chip.nvram nvmAvatarCode).head?) := by
  refine (avatars_agree (nominalEnv 0) (fun _ => []) rfl rfl ⟨rfl, rfl⟩ _ ?_).final
    (by decide +kernel) (.inl (by decide +kernel))
  simp [sampleSetup, PowerInput.ReadsConfig, Env.ReadsConfig, nominalEnv, Input.env]

end Muchiwachi
