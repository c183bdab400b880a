import Muchiwachi.Basic

/-!
# The display (`display.c`)
-/

namespace Muchiwachi

/-- `grouper_keys_t`. -/
inductive Key where
  | accept | next
  deriving DecidableEq, Repr

/-- `(curr_cursor + 1) % ARRAY_SIZE(cursor_pos)`. -/
def Cursor.next : Cursor → Cursor
  | .avatar => .ok
  | .ok => .none
  | .none => .avatar

/-- The first and the last avatar code. -/
def avatarFirst : UInt8 := 0x0a
def avatarLast : UInt8 := 0x52

/-- `g_avatar[0]++`, wrapped to the first code past the last. -/
def nextAvatar (a : UInt8) : UInt8 := if a + 1 > avatarLast then avatarFirst else a + 1

/-- The switch of `display_keypress`. -/
def keypressSwitch (key : Key) (w : Watch) : Bool × Watch :=
  match key with
  | .accept => (w.currCursor = .ok, { w with currCursor := w.currCursor.next })
  | .next =>
    let gAvatar :=
      if w.currCursor = .avatar then (nextAvatar w.gAvatar.1, w.gAvatar.2) else w.gAvatar
    let cursor := if w.currCursor = .ok then .avatar else w.currCursor
    (false, { w with gAvatar := gAvatar, currCursor := cursor })

/-- `display_keypress`: whether the avatar was confirmed, and the watch after the key. -/
def displayKeypress (key : Key) (w : Watch) : Bool × Watch :=
  let r := keypressSwitch key w
  (r.1, { r.2 with msg := if r.2.currCursor = .ok then "OK?" else "" })

@[simp] theorem mainState_displayKeypress (key : Key) (w : Watch) :
    (displayKeypress key w).2.mainState = w.mainState := by
  cases key <;> rfl

@[simp] theorem displayKeypress_accept (w : Watch) :
    (displayKeypress .accept w).1 = decide (w.currCursor = .ok) := rfl

def displayInit (w : Watch) : Watch :=
  let w := { w with displayOn := true }
  (((w.call (.setPin .display5vOn true)).call (.setPin .displayExtcomin true)).call
    (.setPin .backlight true)).call (.draw .text)

def displayOff (w : Watch) : Watch :=
  { w.call (.setPin .display5vOn false) with displayOn := false }

/-- `display_on`, in a build without `CHARM_BUILD`. -/
def displayPowerOn (w : Watch) : Watch :=
  { w.call (.setPin .display5vOn true) with displayOn := true }

/-- `display_message`: an empty attribute draws nothing. -/
def displayMessage (env : Env) (w : Watch) : Watch :=
  if env.message.length = 0 then w else w.call (.draw .message)

/-- The chain of `if`s of `display_update`: the picture of the main state. -/
def drawState (env : Env) (w : Watch) : Watch :=
  match w.mainState with
  | .time => w.call (.draw .watch)
  | .radar => w.call (.draw .radar)
  | .message => displayMessage env w
  | .cfg => w.call (.draw .config)
  | _ => w

def displayUpdate (env : Env) (w : Watch) : Watch :=
  let w := { w with extcomin := !w.extcomin }
  if !w.displayOn then w else drawState env (w.call (.setPin .displayExtcomin w.extcomin))

theorem drawState_cases (env : Env) (w : Watch) :
    drawState env w = w ∨ ∃ screen, drawState env w = w.call (.draw screen) := by
  unfold drawState
  cases w.mainState with
  | message =>
    simp only [displayMessage]
    split
    · exact .inl rfl
    · exact .inr ⟨_, rfl⟩
  | boot => exact .inl rfl
  | idle => exact .inl rfl
  | _ => exact .inr ⟨_, rfl⟩

end Muchiwachi
