import Muchiwachi.Faces
import Muchiwachi.Config
import Muchiwachi.PeerList

/-!
# The panel (`display_init` and `display_update`)

The picture loops of the display, run over any history of the watch. `picture_boot`,
`picture_watch`, `picture_radar`, `picture_config` and `picture_message` say what the panel shows
after them, whatever it showed before.
-/

namespace Muchiwachi

open Lib Lib.Raster Lib.MemoryLcd

/-! ## The updates -/

/-- `u8g_Init`, whose second half is skipped as the driver returns 0. -/
def u8gInit (u : U8g) (d : Lcd) : U8g × Lcd :=
  let u := { u8gSetColorIndex 1 u with
    dev := .ls010b7dh01
    font := none
    fontPos := .baseline
    fontRefAscent := 0
    fontRefDescent := 0 }
  let r := u8gDevFn .init d
  (if r.1 = 0 then u else u8gUpdateDimension u, r.2)

theorem idle_init (u : U8g) (d : Lcd) : (u8gInit u d).1.Idle :=
  ⟨rfl, fun _ (h : none = some _) => by cases h⟩

/-- What pictures are drawn from besides the watch and its `Env`: the time, what the stack holds
for `line` in each call of `draw_message`, and what is behind the message in its buffer. -/
structure Sources where
  time : RtcTime
  prior : Nat → Vector UInt8 6
  beyond : List UInt8

/-- The message as `display_message` has it in memory. -/
def messageText (env : Env) (src : Sources) : List UInt8 := env.message ++ 0 :: src.beyond

/-- `display_init` ends with this text. -/
def bootText : List UInt8 := [77, 85, 67, 72, 73]

/-- The pictures of `display_init`. -/
def displayInitPanel (fuel : Nat) (w : Watch) (u : U8g) (d : Lcd) : Option (U8g × Lcd) :=
  let r := u8gInit u d
  (drawPicture (draw4letter bootText) fuel w r.1 r.2).map (·.2)

/-- The pictures of `display_update`. -/
def displayUpdatePanel (fuel : Nat) (env : Env) (src : Sources) (w : Watch) (u : U8g) (d : Lcd) :
    Option (U8g × Lcd) :=
  if w.displayOn = false then some (u, d)
  else
    match w.mainState with
    | .time => (drawPicture (drawWatchFace fuel src.time) fuel w u d).map (·.2)
    | .radar => (drawPicture (drawRadarFace env) fuel w u d).map (·.2)
    | .message =>
      if env.message.length = 0 then some (u, d)
      else
        (drawPicture (drawMessageFace (messageText env src) src.prior w) fuel 0 u d).map (·.2)
    | .cfg => (drawPicture drawConfig fuel w u d).map (·.2)
    | _ => some (u, d)

/-- The result of drawing on `d` is the canvas `c` on the panel. -/
def PutsOnPanel (result : Option (U8g × Lcd)) (d : Lcd) (c : Set Pixel) : Prop :=
  ∃ u' d', result = some (u', d') ∧ u'.Idle ∧ d.PutsOn d' c

theorem avatarOk_booting (boot : Env) (nv : Nvram) : avatarOk (booting boot nv).gAvatar := by
  rw [gAvatar_booting]
  exact ⟨⟨by decide, by decide⟩, rfl⟩

/-- In every state the watch reaches, its avatar is one of the codes to choose from. -/
theorem avatarOk_reachable (boot : Env) {nv : Nvram} (hmark : nv nvmConfigIsValid = [])
    (havatar : nv nvmAvatarCode = []) (is : List PowerInput) :
    avatarOk (run Watch.powerStep (created boot nv) is).gAvatar := by
  have hfresh : SavedConfig (fun _ => True) nv :=
    ⟨.inl havatar, fun h => by simp [configMarked, hmark] at h⟩
  have hinv : Always Watch.powerStep (ConfigInv fun _ => True) (created boot nv) is :=
    always_of_step (fun _ i h => h.powerStep i (fun _ _ => trivial) fun _ => trivial)
      (configInv_created hfresh boot) is
  exact hinv.final.ram

theorem avatarStr_of_ok {avatar : UInt8 × UInt8} (h : avatarOk avatar) :
    avatarStr avatar = some [avatar.1] := by
  have hne : avatar.1 ≠ 0 := by
    intro h0
    have hlo := h.1.1
    rw [h0] at hlo
    exact absurd hlo (by decide)
  rw [avatarStr, if_neg hne, if_pos h.2]

/-- Each of these codes has a glyph. -/
theorem glyph_of_inRange {a : UInt8} (h : avatarInRange a) :
    (u8gGetGlyph u8gUnifontUpper a).1.isSome = true := by
  have hall : ∀ a : Fin 256, 10 ≤ a.val ∧ a.val ≤ 82 →
      (u8gGetGlyph u8gUnifontUpper (.ofNat a)).1.isSome = true := by
    decide +kernel
  have hfound := hall ⟨a.toNat, a.toNat_lt⟩ ⟨UInt8.le_iff_toNat_le.mp h.1,
    UInt8.le_iff_toNat_le.mp h.2⟩
  rwa [UInt8.ofNat_toNat] at hfound

/-- **Every avatar can be drawn**: in every state the watch reaches, there is a glyph for its own
avatar, and the string it is drawn from ends. -/
theorem avatar_glyph (boot : Env) {nv : Nvram} (hmark : nv nvmConfigIsValid = [])
    (havatar : nv nvmAvatarCode = []) (is : List PowerInput) :
    ∃ a, avatarStr (run Watch.powerStep (created boot nv) is).gAvatar = some [a] ∧
      (u8gGetGlyph u8gUnifontUpper a).1.isSome = true := by
  have hok := avatarOk_reachable boot hmark havatar is
  exact ⟨_, avatarStr_of_ok hok, glyph_of_inRange hok.1⟩

theorem avatar_glyph_sample :
    ∃ a, avatarStr (run Watch.powerStep (created (nominalEnv 0) fun _ => [])
        sampleSetup).gAvatar = some [a] ∧ (u8gGetGlyph u8gUnifontUpper a).1.isSome = true :=
  avatar_glyph (nominalEnv 0) rfl rfl sampleSetup

/-- The picture loop over pages that all show one canvas. -/
theorem putsOnPanel_of_renders {α : Type} {draw : DrawFn α} {a : Nat → α} {c : Nat → Set Pixel}
    (hdraw : ∀ k < 16, Renders draw (a k) (a (k + 1)) (c k)) {u : U8g} (hu : u.Idle) (d : Lcd)
    {fuel : Nat} (hfuel : 129 ≤ fuel) :
    PutsOnPanel ((drawPicture draw fuel (a 0) u d).map (·.2)) d (bands c) := by
  obtain ⟨u', d', hidle, hputs, hloop⟩ := shows_drawPicture hdraw hu d
  refine ⟨u', d', ?_, hidle, hputs⟩
  rw [hloop, if_pos (by omega)]
  rfl

/-! ## The radar, page by page -/

section

variable {strWidth : Int8 → Nat} {env : Env} {w : Watch}

theorem radarPages_succ (pages : Nat) :
    (radarPages strWidth env (pages + 1) w).2 =
      (drawOthers strWidth env (radarPages strWidth env pages w).2).2 := by
  simp only [radarPages, List.range_succ, List.foldl_append, List.foldl_cons, List.foldl_nil]

theorem gAvatar_drawOthersFrom (idx : Int) :
    (drawOthersFrom strWidth env idx w).2.gAvatar = w.gAvatar := by
  fun_induction drawOthersFrom strWidth env idx w with
  | case1 => rfl
  | case2 idx w hidx e r ih => exact ih

theorem gAvatar_radarPages (pages : Nat) :
    (radarPages strWidth env pages w).2.gAvatar = w.gAvatar := by
  induction pages with
  | zero => rfl
  | succ pages ih =>
    rw [radarPages_succ]
    exact (gAvatar_drawOthersFrom _).trans ih

/-- The peers drawn on page `k`. -/
theorem mem_radarPage (strWidth : Int8 → Nat) (env : Env) (w : Watch) (k : Nat) (d : PeerDraw) :
    d ∈ (drawOthers strWidth env (radarPages strWidth env k w).2).1 ↔
      ∃ j < w.store.numNodes.toNat, w.alive env (k * w.store.numNodes.toNat + j) j ∧
        d = peerDraw strWidth w.store j := by
  obtain ⟨hstore, hcalls, -⟩ := radarPages_eq strWidth env k w
  rw [(drawOthers_eq strWidth env (radarPages strWidth env k w).2).2.2, hstore]
  simp only [Watch.alive, hstore, hcalls, Nat.add_assoc]

end

/-- What the rows of page `k` show: the own avatar in the middle, and the peers that are not expired
when that page is drawn. -/
def radarBand (env : Env) (w : Watch) (k : Nat) : Set Pixel :=
  ground \ (avatarPixels 64 w ∪ {p | ∃ j < w.store.numNodes.toNat,
    w.alive env (k * w.store.numNodes.toNat + j) j ∧ p ∈ peerPixels (peerDraw peerWidth w.store j)})

theorem renders_radarBand {env : Env} {w : Watch} (hw : avatarOk w.gAvatar)
    (hfits : FitsRadar env w) {k : Nat} (hk : k < 16) :
    Renders (drawRadarFace env) (radarPages peerWidth env k w).2
      (radarPages peerWidth env (k + 1) w).2 (radarBand env w k) := by
  have hmem := mem_radarPage peerWidth env w k
  have hs : avatarStr (radarPages peerWidth env k w).2.gAvatar = some [w.gAvatar.1] := by
    rw [gAvatar_radarPages, avatarStr_of_ok hw]
  have hplaces : ∀ d ∈ (drawOthers peerWidth env (radarPages peerWidth env k w).2).1,
      d.place.isSome = true := by
    intro d hd
    obtain ⟨j, hj, halive, rfl⟩ := (hmem d).mp hd
    exact (place_isSome hj).mpr (hfits k j hk hj halive)
  have hrenders := renders_radarFace hs hplaces
  have hface : radarFace env (radarPages peerWidth env k w).2 = radarBand env w k := by
    have hown : avatarPixels 64 (radarPages peerWidth env k w).2 = avatarPixels 64 w := by
      rw [avatarPixels, gAvatar_radarPages, avatarPixels]
    have hothers : {p | ∃ d ∈ (drawOthers peerWidth env (radarPages peerWidth env k w).2).1,
        p ∈ peerPixels d} = {p | ∃ j < w.store.numNodes.toNat,
          w.alive env (k * w.store.numNodes.toNat + j) j ∧
          p ∈ peerPixels (peerDraw peerWidth w.store j)} := by
      ext p
      constructor
      · rintro ⟨d, hd, hp⟩
        obtain ⟨j, hj, halive, rfl⟩ := (hmem d).mp hd
        exact ⟨j, hj, halive, hp⟩
      · rintro ⟨j, hj, halive, hp⟩
        exact ⟨_, (hmem _).mpr ⟨j, hj, halive, rfl⟩, hp⟩
    rw [radarFace, hown, hothers, radarBand]
  rwa [hface, ← radarPages_succ] at hrenders

/-! ## The picture of each state -/

/-- `display_update` draws something. -/
def Watch.showsFace (env : Env) (w : Watch) : Bool :=
  match w.mainState with
  | .time | .radar | .cfg => true
  | .message => env.message.length ≠ 0
  | .boot | .idle => false

/-- What it draws. -/
def face (env : Env) (src : Sources) (w : Watch) : Set Pixel :=
  match w.mainState with
  | .time => watchFace src.time w
  | .radar => bands (radarBand env w)
  | .cfg => configFace w
  | .message => bands fun k => messageFace (messageText env src) (src.prior k) w
  | .boot | .idle => ∅

/-- What it draws is in range: all peers fit the radar, and each line of the message ends in its
buffer. -/
def Drawable (env : Env) (src : Sources) (w : Watch) : Prop :=
  w.displayOn = true →
    match w.mainState with
    | .radar => FitsRadar env w
    | .message => ∀ k < 16, ∀ l ∈ drawMessage lineWidth (messageText env src) (src.prior k),
        (lineStr l.line).isSome = true
    | _ => True

theorem drawable_iff {env : Env} {src : Sources} {w : Watch} : Drawable env src w ↔
    (w.displayOn = true → (w.mainState = .radar → FitsRadar env w) ∧
      (w.mainState = .message → ∀ k < 16, ∀ l ∈ drawMessage lineWidth (messageText env src)
        (src.prior k), (lineStr l.line).isSome = true)) := by
  unfold Drawable
  refine forall_congr' fun _ => ?_
  cases w.mainState <;> simp

instance (env : Env) (src : Sources) (w : Watch) : Decidable (Drawable env src w) :=
  decidable_of_iff _ drawable_iff.symm

theorem displayUpdatePanel_quiet {fuel : Nat} {env : Env} {src : Sources} {w : Watch} {u : U8g}
    {d : Lcd} (h : ¬ (w.displayOn = true ∧ w.showsFace env = true)) :
    displayUpdatePanel fuel env src w u d = some (u, d) := by
  cases hon : w.displayOn with
  | false => exact if_pos hon
  | true =>
    have hstate : ¬ w.showsFace env = true := fun hs => h ⟨hon, hs⟩
    rw [displayUpdatePanel, if_neg (by simp [hon])]
    unfold Watch.showsFace at hstate
    cases hm : w.mainState with
    | boot | idle => rfl
    | time | cfg | radar => simp [hm] at hstate
    | message =>
      rw [hm] at hstate
      simp only [decide_eq_true_eq, not_not] at hstate
      simp only [hstate, if_true]

/-! ## The pictures -/

/-- `u8g` after a reset. -/
def u8gAtRest : U8g := ⟨blankPage 0, .ls010b7dh01, ⟨0, 0, 0, 0⟩, 0, none, 0, 0, .baseline⟩

/-- 3:04:05, zeroes on the stack, and nothing behind the message. -/
def sampleSources : Sources where
  time := ⟨5, 4, 3, by decide, by decide, by decide⟩
  prior _ := .replicate 6 0
  beyond := []

def sampleKeys (es : List MEvent) : List PowerInput :=
  es.map fun e => .input (.event (nominalEnv 0) e)

/-- The keys that configure a fresh watch. -/
def setupKeys : List MEvent := [.nextPush, .nextPush, .acceptPush, .acceptPush]

/-- A fresh watch is configured and meets a neighbour. -/
def sampleEncounter : List PowerInput :=
  sampleKeys (setupKeys ++ [.tilt60, .bothHold]) ++
    [.input (.report (nominalEnv 0) (serviceReport addrTwo flagGrouping))]

/-- A fresh watch handles `es`. -/
def sampleWatch (es : List PowerInput) : Watch :=
  run Watch.powerStep (created (nominalEnv 0) fun _ => []) es

/-- "SEE YOU AT" has arrived. -/
def sampleMessageEnv : Env :=
  { nominalEnv 0 with message := [83, 69, 69, 32, 89, 79, 85, 32, 65, 84] }

section

variable {fuel : Nat} (hfuel : 129 ≤ fuel) {u : U8g} (d : Lcd)

include hfuel

theorem putsOnPanel_init {w : Watch} (hw : avatarOk w.gAvatar) :
    PutsOnPanel (displayInitPanel fuel w u d) d (textFace bootText w) := by
  obtain ⟨u', d', hdraw, hidle, hputs⟩ := putsOnPanel_of_renders (a := fun _ => w)
    (c := fun _ => textFace bootText w)
    (fun k _ => renders_textFace bootText (avatarStr_of_ok hw))
    (idle_init u d) (u8gInit u d).2 hfuel
  exact ⟨u', d', hdraw, hidle, hputs⟩

section

variable (hu : u.Idle) (env : Env) (src : Sources) {w : Watch} (hw : avatarOk w.gAvatar)
  (hon : w.displayOn = true) (hdraw : Drawable env src w)

include hu hw hon hdraw

/-- `display_update` puts the picture of the state on the panel. -/
theorem putsOnPanel_update (hstate : w.showsFace env = true) :
    PutsOnPanel (displayUpdatePanel fuel env src w u d) d (face env src w) := by
  have hs := avatarStr_of_ok hw
  have hdraw := hdraw hon
  unfold Watch.showsFace at hstate
  unfold face
  rw [displayUpdatePanel, if_neg (by simp [hon])]
  cases hm : w.mainState with
  | boot | idle =>
    rw [hm] at hstate
    cases hstate
  | time =>
    exact putsOnPanel_of_renders (a := fun _ => w) (c := fun _ => watchFace src.time w)
      (fun k _ => renders_watchFace src.time hs hfuel) hu d hfuel
  | cfg =>
    exact putsOnPanel_of_renders (a := fun _ => w) (c := fun _ => configFace w)
      (fun k _ => renders_configFace hs) hu d hfuel
  | radar =>
    rw [hm] at hdraw
    exact putsOnPanel_of_renders (a := fun k => (radarPages peerWidth env k w).2)
      (fun k hk => renders_radarBand hw hdraw hk) hu d hfuel
  | message =>
    rw [hm] at hdraw hstate
    simp only [decide_eq_true_eq] at hstate
    simp only [hstate, if_false]
    exact putsOnPanel_of_renders (a := fun k => k)
      (fun k hk => renders_messageFace hs (hdraw k hk)) hu d hfuel

end

/-- **The boot picture**: `display_init` leaves the avatar and its text on the panel, whatever the
library, the driver and the panel were like before. -/
theorem picture_boot (boot : Env) (nv : Nvram) :
    PutsOnPanel (displayInitPanel fuel (booting boot nv) u d) d
      (textFace bootText (booting boot nv)) :=
  putsOnPanel_init hfuel d (avatarOk_booting boot nv)

omit hfuel

theorem picture_boot_sample :
    PutsOnPanel (displayInitPanel 129 (booting (nominalEnv 0) fun _ => []) u8gAtRest lcdAtRest)
      lcdAtRest (textFace bootText (booting (nominalEnv 0) fun _ => [])) :=
  picture_boot (by decide) lcdAtRest (nominalEnv 0) fun _ => []

variable (hu : u.Idle) (boot : Env) {nv : Nvram} (hmark : nv nvmConfigIsValid = [])
  (havatar : nv nvmAvatarCode = []) (is : List PowerInput) (env : Env) (src : Sources)

include hfuel hu hmark havatar

/-- **The watch picture**: whatever happened before, in `TIME` the panel is updated to show the
numerals, the hands at the time and the avatar, dark on a lit panel. -/
theorem picture_watch (hon : (run Watch.powerStep (created boot nv) is).displayOn = true)
    (hstate : (run Watch.powerStep (created boot nv) is).mainState = .time) :
    PutsOnPanel
      (displayUpdatePanel fuel env src (run Watch.powerStep (created boot nv) is) u d) d
      (watchFace src.time (run Watch.powerStep (created boot nv) is)) := by
  have hw := avatarOk_reachable boot hmark havatar is
  generalize run Watch.powerStep (created boot nv) is = w at hw hon hstate ⊢
  have hputs := putsOnPanel_update hfuel d hu env src hw hon (fun _ => by simp [hstate])
    (by simp [Watch.showsFace, hstate])
  rwa [face, hstate] at hputs

omit hfuel hu hmark havatar

theorem picture_watch_sample :
    PutsOnPanel (displayUpdatePanel 129 (nominalEnv 0) sampleSources
        (sampleWatch (sampleKeys setupKeys)) (u8gInit u8gAtRest lcdAtRest).1 lcdAtRest) lcdAtRest
      (watchFace sampleSources.time (sampleWatch (sampleKeys setupKeys))) :=
  picture_watch (by decide) lcdAtRest (idle_init u8gAtRest lcdAtRest) (nominalEnv 0) rfl rfl
    (sampleKeys setupKeys) (nominalEnv 0) sampleSources (by decide +kernel) (by decide +kernel)

include hfuel hu hmark havatar

/-- **The radar picture**: where all peers fit the radar, the panel shows the own avatar, and in
the rows of each page the peers that were not expired when that page was drawn. -/
theorem picture_radar (hon : (run Watch.powerStep (created boot nv) is).displayOn = true)
    (hstate : (run Watch.powerStep (created boot nv) is).mainState = .radar)
    (hfits : FitsRadar env (run Watch.powerStep (created boot nv) is)) :
    PutsOnPanel
      (displayUpdatePanel fuel env src (run Watch.powerStep (created boot nv) is) u d) d
      (bands (radarBand env (run Watch.powerStep (created boot nv) is))) := by
  have hw := avatarOk_reachable boot hmark havatar is
  generalize run Watch.powerStep (created boot nv) is = w at hw hon hstate hfits ⊢
  have hputs := putsOnPanel_update hfuel d hu env src hw hon
    (fun _ => by rw [hstate]; exact hfits) (by simp [Watch.showsFace, hstate])
  rwa [face, hstate] at hputs

omit hfuel hu hmark havatar

theorem picture_radar_sample :
    PutsOnPanel (displayUpdatePanel 129 (nominalEnv 0) sampleSources (sampleWatch sampleEncounter)
        (u8gInit u8gAtRest lcdAtRest).1 lcdAtRest) lcdAtRest
      (bands (radarBand (nominalEnv 0) (sampleWatch sampleEncounter))) := by
  have hone : (sampleWatch sampleEncounter).store.numNodes.toNat = 1 := by decide +kernel
  have hfits : FitsRadar (nominalEnv 0) (sampleWatch sampleEncounter) := by
    have hnear : -110 < ((sampleWatch sampleEncounter).store.nodes 0).rssi.toInt := by
      decide +kernel
    intro p j _ hj _
    rw [hone] at hj
    obtain rfl := Nat.lt_one_iff.mp hj
    exact ⟨by decide, hnear⟩
  exact picture_radar (by decide) lcdAtRest (idle_init u8gAtRest lcdAtRest) (nominalEnv 0) rfl rfl
    sampleEncounter (nominalEnv 0) sampleSources (by decide +kernel) (by decide +kernel) hfits

include hfuel hu hmark havatar

/-- **The configuration picture**: a disc with the scaled avatar, the message and the cursor cut
out. -/
theorem picture_config (hon : (run Watch.powerStep (created boot nv) is).displayOn = true)
    (hstate : (run Watch.powerStep (created boot nv) is).mainState = .cfg) :
    PutsOnPanel
      (displayUpdatePanel fuel env src (run Watch.powerStep (created boot nv) is) u d) d
      (configFace (run Watch.powerStep (created boot nv) is)) := by
  have hw := avatarOk_reachable boot hmark havatar is
  generalize run Watch.powerStep (created boot nv) is = w at hw hon hstate ⊢
  have hputs := putsOnPanel_update hfuel d hu env src hw hon (fun _ => by simp [hstate])
    (by simp [Watch.showsFace, hstate])
  rwa [face, hstate] at hputs

omit hfuel hu hmark havatar

theorem picture_config_sample :
    PutsOnPanel (displayUpdatePanel 129 (nominalEnv 0) sampleSources
        (sampleWatch (sampleKeys [.nextPush])) (u8gInit u8gAtRest lcdAtRest).1 lcdAtRest) lcdAtRest
      (configFace (sampleWatch (sampleKeys [.nextPush]))) :=
  picture_config (by decide) lcdAtRest (idle_init u8gAtRest lcdAtRest) (nominalEnv 0) rfl rfl
    (sampleKeys [.nextPush]) (nominalEnv 0) sampleSources (by decide +kernel) (by decide +kernel)

include hfuel hu hmark havatar

/-- **The message picture**: where each line ends in its buffer, page `k` shows the lines
`draw_message` cuts the message into over what the stack held then, and the avatar above. -/
theorem picture_message (hon : (run Watch.powerStep (created boot nv) is).displayOn = true)
    (hstate : (run Watch.powerStep (created boot nv) is).mainState = .message)
    (hmessage : env.message.length ≠ 0)
    (hlines : ∀ k < 16, ∀ l ∈ drawMessage lineWidth (messageText env src) (src.prior k),
      (lineStr l.line).isSome = true) :
    PutsOnPanel
      (displayUpdatePanel fuel env src (run Watch.powerStep (created boot nv) is) u d) d
      (bands fun k => messageFace (messageText env src) (src.prior k)
        (run Watch.powerStep (created boot nv) is)) := by
  have hw := avatarOk_reachable boot hmark havatar is
  generalize run Watch.powerStep (created boot nv) is = w at hw hon hstate ⊢
  have hputs := putsOnPanel_update hfuel d hu env src hw hon
    (fun _ => by rw [hstate]; exact hlines) (by simp [Watch.showsFace, hstate, hmessage])
  rwa [face, hstate] at hputs

omit hfuel hu hmark havatar

theorem picture_message_sample :
    PutsOnPanel (displayUpdatePanel 129 sampleMessageEnv sampleSources
        (sampleWatch (sampleKeys (setupKeys ++ [.messageArrived])))
        (u8gInit u8gAtRest lcdAtRest).1 lcdAtRest) lcdAtRest
      (bands fun k => messageFace (messageText sampleMessageEnv sampleSources)
        (sampleSources.prior k) (sampleWatch (sampleKeys (setupKeys ++ [.messageArrived])))) := by
  have hlines : ∀ l ∈ drawMessage lineWidth (messageText sampleMessageEnv sampleSources)
      (.replicate 6 0), (lineStr l.line).isSome = true := by
    decide +kernel
  have hsample := @picture_message 129 (by decide) _ lcdAtRest (idle_init u8gAtRest lcdAtRest)
    (nominalEnv 0) (fun _ => []) rfl rfl (sampleKeys (setupKeys ++ [.messageArrived]))
    sampleMessageEnv sampleSources (by decide +kernel) (by decide +kernel) (by decide)
    fun _ _ => hlines
  exact hsample

end

end Muchiwachi
