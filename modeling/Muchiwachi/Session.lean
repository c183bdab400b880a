import Muchiwachi.ConfigGate

/-!
# A configuration session

The watch enters `CFG` once, and in it the two keys drive a hidden cursor. `session_language`
says what this comes to: which sequences of pushes end the session, and which avatar is saved.
-/

namespace Muchiwachi

open Lib MainFsm

/-! ## Pushes -/

/-- The key an input pushes. -/
def Input.push : Input → Option Key
  | .event _ .nextPush => some .next
  | .event _ .acceptPush => some .accept
  | _ => none

/-- The keys pushed, in order. -/
def pushes (is : List Input) : List Key := is.filterMap Input.push

/-- `ACCEPT_PUSH` twice, with no `NEXT_PUSH` between. -/
def DoubleAccept (ks : List Key) : Prop := [.accept, .accept] <:+: ks

/-- How many of the pushes of `NEXT` do not follow a push of `ACCEPT`, after the push `prev`. -/
def advances (prev : Option Key) : List Key → Nat
  | [] => 0
  | .accept :: ks => advances (some .accept) ks
  | .next :: ks => (if prev = some .accept then 0 else 1) + advances (some .next) ks

/-- The avatar code `k` places after `a`, around the codes from `0x0a` to `0x52`. -/
def avatarAt (a : UInt8) (k : Nat) : UInt8 := .ofNat (0x0a + (a.toNat - 0x0a + k) % 73)

theorem pushes_snoc (is : List Input) (i : Input) :
    pushes (is ++ [i]) = pushes is ++ i.push.toList := by
  rw [pushes, List.filterMap_append]
  cases h : i.push <;> simp [pushes, h]

theorem doubleAccept_snoc (ks : List Key) (k : Key) :
    DoubleAccept (ks ++ [k]) ↔ DoubleAccept ks ∨ k = .accept ∧ ks.getLast? = some .accept := by
  unfold DoubleAccept
  rw [List.infix_concat_iff, List.suffix_concat_iff, or_comm]
  refine or_congr_right ?_
  constructor
  · rintro (h | ⟨t, ht, hsuffix⟩)
    · cases h
    · have hsplit : [Key.accept] ++ [.accept] = t ++ [k] := ht
      obtain ⟨rfl, hk⟩ := List.append_inj' hsplit rfl
      have hlast := List.singleton_suffix_iff_getLast?_eq_some.mp hsuffix
      exact ⟨(List.singleton_inj.mp hk).symm, hlast⟩
  · rintro ⟨rfl, hlast⟩
    exact .inr ⟨[.accept], rfl, List.singleton_suffix_iff_getLast?_eq_some.mpr hlast⟩

theorem advances_accept (prev : Option Key) (ks : List Key) :
    advances prev (ks ++ [.accept]) = advances prev ks := by
  induction ks generalizing prev with
  | nil => rfl
  | cons k ks ih => cases k <;> simp [advances, ih]

theorem advances_next (prev : Option Key) (ks : List Key) :
    advances prev (ks ++ [.next]) =
      advances prev ks + if ks.getLast?.or prev = some .accept then 0 else 1 := by
  induction ks generalizing prev with
  | nil => exact Nat.add_comm _ 0
  | cons k ks ih =>
    have hlast : (k :: ks).getLast?.or prev = ks.getLast?.or (some k) := by
      rw [List.getLast?_cons]
      cases ks.getLast? <;> rfl
    rw [hlast]
    cases k <;> simp [advances, ih, Nat.add_assoc]

theorem avatarAt_zero {a : UInt8} (h : avatarInRange a) : avatarAt a 0 = a := by
  have hlo := UInt8.le_iff_toNat_le.mp h.1
  have hhi := UInt8.le_iff_toNat_le.mp h.2
  apply UInt8.toNat.inj
  simp only [avatarFirst, avatarLast, UInt8.reduceToNat] at hlo hhi
  simp only [avatarAt, UInt8.toNat_ofNat']
  omega

/-- The wrap of `display_keypress` goes around the codes. -/
theorem nextAvatar_avatarAt (a : UInt8) (k : Nat) :
    nextAvatar (avatarAt a k) = avatarAt a (k + 1) := by
  have hcode : (avatarAt a k).toNat = 0x0a + (a.toNat - 0x0a + k) % 73 := by
    simp only [avatarAt, UInt8.toNat_ofNat']
    omega
  have hsucc : (avatarAt a k + 1).toNat = 0x0a + (a.toNat - 0x0a + k) % 73 + 1 := by
    rw [UInt8.toNat_add, hcode]
    simp only [UInt8.reduceToNat]
    omega
  apply UInt8.toNat.inj
  unfold nextAvatar
  simp only [gt_iff_lt, UInt8.lt_iff_toNat_lt, hsucc, avatarLast, UInt8.reduceToNat]
  split
  · simp only [avatarFirst, avatarAt, UInt8.toNat_ofNat', UInt8.reduceToNat]
    omega
  · rw [hsucc]
    simp only [avatarAt, UInt8.toNat_ofNat']
    omega

/-! ## Entering the session -/

/-- Nothing has been selected yet. -/
def Watch.Unselected (w : Watch) : Prop := w.currCursor = .avatar ∧ w.msg = ""

theorem MainStep.unselected {env : Env} {e : MEvent} {w w' : Watch} (hs : MainStep env e w w')
    (h : w'.mainState.ticks = false) : w.mainState.ticks = false ∧
      w'.currCursor = w.currCursor ∧ w'.msg = w.msg := by
  cases hs with
  | boot hm => simp [hm, MState.ticks, displayOff]
  | ignored => exact ⟨h, rfl, rfl⟩
  | tick ht => simp [ht] at h
  | toTime | toCfg | confirm | message | dismiss | tilt | untilt | inactiveRadar | hold
  | releaseRadar => cases h
  | nextKey hm | acceptKey hm | blank hm | inactive hm | push hm | wakeup hm | longInactive hm
  | holdRadar hm | release hm =>
    simp [hm, MState.ticks, displayOff, displayPowerOn, grprStopAdverts] at h

theorem unselected_handle {w : Watch} (h : w.mainState.ticks = false → w.Unselected) (i : Input)
    (hi : (handle w i).mainState.ticks = false) : (handle w i).Unselected := by
  cases i with
  | advTimeout env => exact h hi
  | report env r =>
    have hs : OnlyStore w (handle w (.report env r)) := onlyStore_report env r w
    obtain ⟨hcursor, hmsg⟩ := h (hs.mainState ▸ hi)
    exact ⟨hs.currCursor.trans hcursor, hs.msg.trans hmsg⟩
  | event env e =>
    obtain ⟨hw, hcursor, hmsg⟩ := (mainStep env e w).unselected hi
    exact ⟨hcursor.trans (h hw).1, hmsg.trans (h hw).2⟩

/-- Up to the configuration nothing is selected. -/
theorem unselected_run (boot : Env) (nv : Nvram) (is : List Input) :
    (run handle (booting boot nv) is).mainState.ticks = false →
      (run handle (booting boot nv) is).Unselected := by
  have hs := onlyStore_booting boot nv
  have hstart : (booting boot nv).Unselected := ⟨hs.currCursor, hs.msg⟩
  exact (always_of_step (P := fun w : Watch => w.mainState.ticks = false → w.Unselected)
    (fun _ i h => unselected_handle h i) (fun _ => hstart) is).final

/-- `CFG` is entered from `IDLE`, where nothing has been selected. -/
theorem unselected_entered {w : Watch} (h : w.mainState.ticks = false → w.Unselected) (i : Input)
    (hout : w.mainState ≠ .cfg) (hin : (handle w i).mainState = .cfg) :
    (handle w i).Unselected := by
  cases i with
  | advTimeout env => exact absurd hin hout
  | report env r => exact absurd ((onlyStore_report env r w).mainState ▸ hin) hout
  | event env e =>
    have hs := mainStep env e w
    change (mainfsmProcessEvent env e w).mainState = .cfg at hin
    show (mainfsmProcessEvent env e w).Unselected
    generalize mainfsmProcessEvent env e w = w' at hs hin ⊢
    cases hs with
    | toCfg hm => exact h (by rw [hm]; rfl)
    | nextKey hm | acceptKey hm => exact absurd hm hout
    | ignored => exact absurd hin hout
    | tick => exact absurd (by simpa using hin) hout
    | boot | toTime | confirm | message | dismiss | tilt | untilt | inactiveRadar | hold
    | releaseRadar => cases hin
    | blank hm | inactive hm | push hm | wakeup hm | longInactive hm | holdRadar hm | release hm =>
      simp [hm, displayOff, displayPowerOn, grprStopAdverts] at hin

/-! ## In the session -/

/-- In the session, after the pushes `ks`, with avatar `a0` at its start. -/
structure InSession (a0 : UInt8) (ks : List Key) (w : Watch) : Prop where
  state : w.mainState = .cfg
  cursor : w.currCursor = if ks.getLast? = some .accept then .ok else .avatar
  avatar : w.gAvatar = (avatarAt a0 (advances none ks), 0)
  msg : w.msg = if w.currCursor = .ok then "OK?" else ""

/-- What a call hands to `bleprofile_WriteNVRAM` as the avatar. -/
def handedAvatar (_ : Chip) : Call → List (List UInt8)
  | .writeNvram vsId payload _ => if vsId = nvmAvatarCode then [payload] else []
  | _ => []

theorem handed_saveConfig (env : Env) (w : Watch) :
    Emits handedAvatar [avatarBytes w] w (saveConfig env w) := by
  have havatar : Emits handedAvatar [avatarBytes w] w
      (bleprofileWriteNVRAM env nvmAvatarCode (avatarBytes w) w).2 := emits_write ..
  have hmark : ∀ w, Emits handedAvatar [] w (bleprofileWriteNVRAM env nvmConfigIsValid [1] w).2 :=
    emits_write env nvmConfigIsValid [1]
  unfold saveConfig
  simp only
  split
  · exact havatar.then_nil (hmark _)
  · exact havatar

theorem handed_startIfConfigured (env : Env) (w : Watch) :
    Emits handedAvatar [] w (startIfConfigured env w) := by
  refine (issues_startIfConfigured env w).emits fun c k hk => ?_
  cases k with
  | writeNvram => simp [Call.kind] at hk
  | _ => rfl

section

variable {a0 : UInt8} {ks : List Key} {w : Watch}

theorem inSession_entered (h : w.mainState.ticks = false → w.Unselected) (i : Input)
    (hout : w.mainState ≠ .cfg) (hin : (handle w i).mainState = .cfg)
    (havatar : (handle w i).gAvatar = (a0, 0)) (hrange : avatarInRange a0) :
    InSession a0 [] (handle w i) := by
  obtain ⟨hcursor, hmsg⟩ := unselected_entered h i hout hin
  refine ⟨hin, hcursor, ?_, ?_⟩
  · rw [advances, avatarAt_zero hrange]
    exact havatar
  · rw [hcursor]
    exact hmsg

theorem InSession.congr {w' : Watch} (h : InSession a0 ks w) (hstate : w'.mainState = w.mainState)
    (hcursor : w'.currCursor = w.currCursor) (havatar : w'.gAvatar = w.gAvatar)
    (hmsg : w'.msg = w.msg) : InSession a0 ks w' where
  state := hstate.trans h.state
  cursor := hcursor.trans h.cursor
  avatar := havatar.trans h.avatar
  msg := by rw [hmsg, hcursor, h.msg]

theorem InSession.displayUpdate (h : InSession a0 ks w) (env : Env) :
    InSession a0 ks (displayUpdate env w) :=
  h.congr (by simp) (by simp) (by simp) (by simp)

/-- The cursor asks for a confirmation exactly after an `ACCEPT_PUSH`. -/
theorem InSession.cursor_ok (h : InSession a0 ks w) :
    w.currCursor = .ok ↔ ks.getLast? = some .accept := by
  rw [h.cursor]
  split <;> simp_all

theorem InSession.asks (h : InSession a0 ks w) :
    (w.currCursor = .avatar ∨ w.currCursor = .ok) ∧ (w.msg = "OK?" ↔ w.currCursor = .ok) := by
  refine ⟨?_, ?_⟩
  · rw [h.cursor]
    split <;> simp
  · rw [h.msg]
    split <;> simp_all

/-- `NEXT_PUSH` advances the avatar, or takes back the `ACCEPT_PUSH` before it. -/
theorem InSession.next (h : InSession a0 ks w) :
    InSession a0 (ks ++ [.next]) (displayKeypress .next w).2 := by
  have hcursor : (displayKeypress .next w).2.currCursor = .avatar := by
    show (if w.currCursor = .ok then .avatar else w.currCursor) = Cursor.avatar
    rw [h.cursor]
    split <;> simp
  refine ⟨h.state, ?_, ?_, rfl⟩
  · rw [hcursor]
    simp
  · show (if w.currCursor = .avatar then (nextAvatar w.gAvatar.1, w.gAvatar.2) else w.gAvatar) = _
    rw [advances_next, Option.or_none, h.cursor, h.avatar]
    by_cases hlast : ks.getLast? = some .accept
    · simp [hlast]
    · simp [hlast, nextAvatar_avatarAt]

/-- A first `ACCEPT_PUSH` asks for a confirmation. -/
theorem InSession.accept (h : InSession a0 ks w) (hlast : ks.getLast? ≠ some .accept) :
    InSession a0 (ks ++ [.accept]) (displayKeypress .accept w).2 := by
  have hcursor : w.currCursor = .avatar := by rw [h.cursor, if_neg hlast]
  refine ⟨h.state, ?_, ?_, rfl⟩
  · show w.currCursor.next = _
    rw [hcursor]
    simp [Cursor.next]
  · rw [advances_accept]
    exact h.avatar

/-- Inputs without a push leave the session alone. -/
theorem InSession.other (h : InSession a0 ks w) {i : Input} (hi : i.push = none) :
    InSession a0 ks (handle w i) := by
  cases i with
  | advTimeout env => exact h.congr rfl rfl rfl rfl
  | report env r =>
    have hs : OnlyStore w (handle w (.report env r)) := onlyStore_report env r w
    exact h.congr hs.mainState hs.currCursor hs.gAvatar hs.msg
  | event env e =>
    have hm := h.state
    have hs := mainStep env e w
    show InSession a0 ks (mainfsmProcessEvent env e w)
    generalize mainfsmProcessEvent env e w = w' at hs ⊢
    cases hs with
    | nextKey | acceptKey | confirm => cases hi
    | tick => exact h.displayUpdate env
    | ignored => exact h
    | message hm' => simp [hm] at hm'
    | boot hm' | toTime hm' | toCfg hm' | dismiss hm' | tilt hm' | untilt hm' | blank hm'
    | inactive hm' | inactiveRadar hm' | push hm' | wakeup hm' | longInactive hm' | hold hm'
    | holdRadar hm' | release hm' | releaseRadar hm' => simp [hm] at hm'

/-- A push that is no second `ACCEPT_PUSH` goes on with the session. -/
theorem InSession.key (h : InSession a0 ks w) {i : Input} {k : Key} (hi : i.push = some k)
    (hk : ¬ (k = .accept ∧ ks.getLast? = some .accept)) :
    InSession a0 (ks ++ [k]) (handle w i) := by
  obtain ⟨env, e⟩ | env | ⟨env, r⟩ := i
  case advTimeout | report => cases hi
  have hm := h.state
  have hs := mainStep env e w
  show InSession a0 (ks ++ [k]) (mainfsmProcessEvent env e w)
  generalize mainfsmProcessEvent env e w = w' at hs ⊢
  cases hs with
  | nextKey =>
    obtain rfl : Key.next = k := Option.some.inj hi
    exact h.next.displayUpdate env
  | acceptKey _ hc =>
    obtain rfl : Key.accept = k := Option.some.inj hi
    exact h.accept fun hlast => hc (h.cursor_ok.mpr hlast)
  | confirm _ hc =>
    obtain rfl : Key.accept = k := Option.some.inj hi
    exact absurd ⟨rfl, h.cursor_ok.mp hc⟩ hk
  | ignored hig =>
    have hpush : e = .nextPush ∨ e = .acceptPush := by
      cases e <;> simp [Input.push] at hi ⊢
    rcases hpush with rfl | rfl <;> simp [ignores, hm] at hig
  | toTime hm' | toCfg hm' | dismiss hm' | blank hm' | push hm' => simp [hm] at hm'
  | boot | tick | message | tilt | untilt | inactive | inactiveRadar | wakeup | longInactive
  | hold | holdRadar | release | releaseRadar => cases hi

/-- A second `ACCEPT_PUSH` hands over the avatar and ends the session. -/
theorem InSession.confirm (h : InSession a0 ks w) {i : Input} (hi : i.push = some .accept)
    (hlast : ks.getLast? = some .accept) : (handle w i).mainState = .time ∧
      w.seenSince handedAvatar (handle w i) = [[avatarAt a0 (advances none ks), 0]] := by
  obtain ⟨env, rfl⟩ : ∃ env, i = .event env .acceptPush := by
    obtain ⟨env, e⟩ | env | ⟨env, r⟩ := i
    case advTimeout | report => cases hi
    refine ⟨env, ?_⟩
    cases e <;> simp [Input.push] at hi ⊢
  have hm := h.state
  have hok := h.cursor_ok.mpr hlast
  have hs := mainStep env .acceptPush w
  show (mainfsmProcessEvent env .acceptPush w).mainState = _ ∧
    w.seenSince _ (mainfsmProcessEvent env .acceptPush w) = _
  generalize mainfsmProcessEvent env .acceptPush w = w' at hs ⊢
  cases hs with
  | confirm =>
    have hkey : Emits handedAvatar [] w (displayKeypress .accept w).2 := .ram rfl rfl
    have hhanded := hkey.nil_trans ((handed_saveConfig env _).then_nil
      (handed_startIfConfigured env _))
    have hbytes : avatarBytes (displayKeypress .accept w).2 =
        [avatarAt a0 (advances none ks), 0] := by
      rw [avatarBytes, gAvatar_acceptKey, h.avatar]
    rw [hbytes] at hhanded
    exact ⟨rfl, (hhanded.then_ram rfl rfl).seenSince⟩
  | acceptKey _ hc => exact absurd hok hc
  | ignored hig => simp [ignores, hm] at hig
  | toTime hm' | toCfg hm' | dismiss hm' | blank hm' => simp [hm] at hm'

/-- The session is left in no other way. -/
theorem InSession.leaves (h : InSession a0 ks w) (i : Input)
    (hleaves : (handle w i).mainState ≠ .cfg) :
    w.seenSince handedAvatar (handle w i) = [[avatarAt a0 (advances none ks), 0]] := by
  cases hi : i.push with
  | none => exact absurd (h.other hi).state hleaves
  | some k =>
    by_cases hk : k = .accept ∧ ks.getLast? = some .accept
    · obtain ⟨rfl, hlast⟩ := hk
      exact (h.confirm hi hlast).2
    · exact absurd (h.key hi hk).state hleaves

end

/-! ## After the session -/

/-- One input in the session. -/
theorem InSession.input {a0 : UInt8} {ks : List Key} {w : Watch} (h : InSession a0 ks w)
    (hks : ¬ DoubleAccept ks) (i : Input) :
    DoubleAccept (ks ++ i.push.toList) ∧ (handle w i).mainState.running = true ∨
      ¬ DoubleAccept (ks ++ i.push.toList) ∧ InSession a0 (ks ++ i.push.toList) (handle w i) := by
  cases hi : i.push with
  | none =>
    refine .inr ⟨?_, ?_⟩ <;> rw [Option.toList_none, List.append_nil]
    · exact hks
    · exact h.other hi
  | some k =>
    rw [Option.toList_some, doubleAccept_snoc, or_iff_right hks]
    by_cases hk : k = .accept ∧ ks.getLast? = some .accept
    · obtain ⟨rfl, hlast⟩ := hk
      refine .inl ⟨⟨rfl, hlast⟩, ?_⟩
      rw [(h.confirm hi hlast).1]
      rfl
    · exact .inr ⟨hk, h.key hi hk⟩

theorem session_run {a0 : UInt8} {w : Watch} (h : InSession a0 [] w) (is : List Input) :
    DoubleAccept (pushes is) ∧ (run handle w is).mainState.running = true ∨
      ¬ DoubleAccept (pushes is) ∧ InSession a0 (pushes is) (run handle w is) := by
  have hnil : ¬ DoubleAccept [] := fun hc => by simpa using hc.length_le
  refine run_inv_history (P := fun is w => DoubleAccept (pushes is) ∧ w.mainState.running = true ∨
    ¬ DoubleAccept (pushes is) ∧ InSession a0 (pushes is) w) (.inr ⟨hnil, h⟩)
    (fun pre i hpre => ?_) is
  rw [pushes_snoc]
  rcases hpre with ⟨hc, hrun⟩ | ⟨hc, hin⟩
  · exact .inl ⟨hc.trans (List.prefix_append ..).isInfix, running_handle hrun i⟩
  · exact hin.input hc i

/-- **The language of a configuration session, and its result.** From `BOOT`, once `CFG` is
entered with avatar `a0`: the session lasts until the first two pushes of `ACCEPT` with none of
`NEXT` between, the avatar handed to `bleprofile_WriteNVRAM` at its end is as many places after
`a0` as there are pushes of `NEXT` that do not follow one of `ACCEPT`, and in it the cursor is on
the avatar or on the question `OK?`, which is shown exactly then. -/
theorem session_language (boot : Env) (nv : Nvram) (pre : List Input) (i : Input) (a0 : UInt8)
    (hout : (run handle (booting boot nv) pre).mainState ≠ .cfg)
    (hin : (run handle (booting boot nv) (pre ++ [i])).mainState = .cfg)
    (havatar : (run handle (booting boot nv) (pre ++ [i])).gAvatar = (a0, 0))
    (hrange : 0x0a ≤ a0 ∧ a0 ≤ 0x52) (is : List Input) :
    let w := run handle (booting boot nv) (pre ++ [i])
    let w' := run handle w is
    w.currCursor = .avatar ∧
      (w'.mainState = .cfg ↔ ¬ [.accept, .accept] <:+: pushes is) ∧
      (w'.mainState = .cfg → (w'.currCursor = .avatar ∨ w'.currCursor = .ok) ∧
        (w'.msg = "OK?" ↔ w'.currCursor = .ok)) ∧
      ∀ i', w'.mainState = .cfg → (handle w' i').mainState ≠ .cfg →
        w'.seenSince handedAvatar (handle w' i') =
          [[avatarAt a0 (advances none (pushes is)), 0]] := by
  intro w w'
  have hstart : InSession a0 [] w := by
    rw [run_snoc] at hin havatar
    have hw : w = handle (run handle (booting boot nv) pre) i := run_snoc ..
    rw [hw]
    exact inSession_entered (unselected_run boot nv pre) i hout hin havatar hrange
  have hcases := session_run hstart is
  have hsession : w'.mainState = .cfg →
      ¬ DoubleAccept (pushes is) ∧ InSession a0 (pushes is) w' := by
    intro hm
    refine hcases.resolve_left fun h => ?_
    have hrun := h.2
    rw [hm] at hrun
    cases hrun
  refine ⟨hstart.cursor, ⟨fun hm => (hsession hm).1, fun hc => ?_⟩, fun hm => (hsession hm).2.asks,
    fun i' hm hleaves => (hsession hm).2.leaves i' hleaves⟩
  exact (hcases.resolve_left fun h => hc h.1).2.state

/-- The user advances, asks, takes it back, advances, asks and confirms. -/
def sampleSession : List Input :=
  [.nextPush, .tick1s, .acceptPush, .nextPush, .nextPush, .acceptPush].map (.event (nominalEnv 0))

theorem session_language_sample :
    let w := run handle (booting (nominalEnv 0) fun _ => [])
      ([.bootDone, .nextPush].map (.event (nominalEnv 0)))
    let w' := run handle w sampleSession
    w'.mainState = .cfg ∧
      w'.seenSince handedAvatar (handle w' (.event (nominalEnv 0) .acceptPush)) =
        [[avatarAt 56 (advances none (pushes sampleSession)), 0]] := by
  have h := session_language (nominalEnv 0) (fun _ => []) [.event (nominalEnv 0) .bootDone]
    (.event (nominalEnv 0) .nextPush) 56 (by decide +kernel) (by decide +kernel)
    (by decide +kernel) (by decide) sampleSession
  have hcfg := h.2.1.mpr (by decide)
  exact ⟨hcfg, h.2.2.2 (.event (nominalEnv 0) .acceptPush) hcfg (by decide +kernel)⟩

end Muchiwachi
