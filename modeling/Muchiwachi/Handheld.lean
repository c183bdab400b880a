import Muchiwachi.Control

/-!
# The watch in a hand

A handheld watch is the watch with the levels of its two buttons. An edge of a button flips its
level and runs the button's handler, which reads both levels; sensors and the radio act on the
watch alone. Grouping should last only while both buttons are held: `heldGrouping_exact` says in
which runs it does.
-/

namespace Muchiwachi

open Lib

structure Handheld where
  watch : Watch
  next : Bool
  accept : Bool

/-- What the accelerometer, the timers and the GATT server report. -/
inductive Sensor where
  | tilt60 | untilt60 | tick1s | wakeup | shortInactive | messageArrived
  deriving DecidableEq, Repr

def Sensor.event : Sensor → MEvent
  | .tilt60 => .tilt60
  | .untilt60 => .untilt60
  | .tick1s => .tick1s
  | .wakeup => .wakeup
  | .shortInactive => .shortInactive
  | .messageArrived => .messageArrived

inductive HandInput where
  | nextEdge (env : Env)
  | acceptEdge (env : Env)
  | sensor (env : Env) (s : Sensor)
  | report (env : Env) (r : AdvReport)

def Handheld.step (h : Handheld) : HandInput → Handheld
  | .nextEdge env =>
    { h with next := !h.next, watch := nextButtonHandler env (!h.next) h.accept h.watch }
  | .acceptEdge env =>
    { h with accept := !h.accept, watch := acceptButtonHandler env (!h.accept) h.next h.watch }
  | .sensor env s => { h with watch := mainfsmProcessEvent env s.event h.watch }
  | .report env r => { h with watch := muchiAdvertisementReport env r h.watch }

/-- A button handler raises one main event: the level of its button and of the other one
decide which. -/
def edgeEvent (push : MEvent) (value other : Bool) : MEvent :=
  if value then if other then .bothHold else push else .bothRelease

theorem nextButtonHandler_eq (env : Env) (value other : Bool) (w : Watch) :
    nextButtonHandler env value other w =
      mainfsmProcessEvent env (edgeEvent .nextPush value other) w := by
  cases value <;> cases other <;> rfl

theorem acceptButtonHandler_eq (env : Env) (value other : Bool) (w : Watch) :
    acceptButtonHandler env value other w =
      mainfsmProcessEvent env (edgeEvent .acceptPush value other) w := by
  cases value <;> cases other <;> rfl

/-! ## Grouping and the buttons -/

/-- The group state machine is in `GROUPING` only while both buttons are pressed. -/
def Handheld.GroupsWhileHeld (h : Handheld) : Prop :=
  h.watch.groupState = .grouping → h.next = true ∧ h.accept = true

instance (h : Handheld) : Decidable h.GroupsWhileHeld := inferInstanceAs (Decidable (_ → _))

/-- The input adds an address to the store. -/
def HandInput.adds (h : Handheld) (i : HandInput) : Prop :=
  ∃ a, a ∈ (h.step i).watch.store.addrs ∧ a ∉ h.watch.store.addrs

/-- A button is released while a message is shown: `MESSAGE` ignores `BOTH_RELEASE`. -/
def HandInput.losesRelease (h : Handheld) : HandInput → Prop
  | .nextEdge _ => h.next = true ∧ h.watch.mainState = .message ∧ h.watch.groupState = .grouping
  | .acceptEdge _ =>
    h.accept = true ∧ h.watch.mainState = .message ∧ h.watch.groupState = .grouping
  | .sensor _ _ => False
  | .report _ _ => False

/-- The group state after an edge of a button whose level was `level`. -/
theorem groupState_edge {env : Env} {w : Watch} {push : MEvent} {level other : Bool}
    (hpush : push = .nextPush ∨ push = .acceptPush) (hr : w.GroupsWhenRunning)
    (h : w.groupState = .grouping → level = true ∧ other = true) :
    ((mainfsmProcessEvent env (edgeEvent push (!level) other) w).groupState = .grouping →
        (!level) = true ∧ other = true) ↔
      ¬ (level = true ∧ w.mainState = .message ∧ w.groupState = .grouping) := by
  rw [groupState_process]
  cases level with
  | false =>
    have hidle : w.groupState ≠ .grouping := fun hg => by simpa using (h hg).1
    cases other with
    | true => simp
    | false => rcases hpush with rfl | rfl <;> simpa [edgeEvent, groupAfter] using hidle
  | true =>
    have hrelease : groupAfter w (edgeEvent push false other) = .grouping ↔
        w.mainState = .message ∧ w.groupState = .grouping := by
      cases hg : w.groupState with
      | idle => cases hm : w.mainState <;> simp [groupAfter, edgeEvent, hm, hg]
      | grouping => rcases hr hg with hm | hm | hm <;> simp [groupAfter, edgeEvent, hm, hg]
    simp [hrelease]

theorem groupState_sensor (env : Env) (s : Sensor) (w : Watch) :
    (mainfsmProcessEvent env s.event w).groupState = w.groupState := by
  rw [groupState_process]
  cases s <;> simp [Sensor.event, groupAfter]

theorem groupsWhileHeld_step {h : Handheld} (hr : h.watch.GroupsWhenRunning)
    (hh : h.GroupsWhileHeld) (i : HandInput) :
    (h.step i).GroupsWhileHeld ↔ ¬ i.losesRelease h := by
  cases i with
  | nextEdge env =>
    show ((nextButtonHandler env (!h.next) h.accept h.watch).groupState = _ → _) ↔ _
    rw [nextButtonHandler_eq]
    exact groupState_edge (.inl rfl) hr hh
  | acceptEdge env =>
    show ((acceptButtonHandler env (!h.accept) h.next h.watch).groupState = _ → _) ↔ _
    rw [acceptButtonHandler_eq, and_comm]
    exact groupState_edge (.inr rfl) hr fun hg => (hh hg).symm
  | sensor env s =>
    refine iff_of_true ?_ not_false
    show (mainfsmProcessEvent env s.event h.watch).groupState = _ → _
    rw [groupState_sensor]
    exact hh
  | report env r =>
    refine iff_of_true ?_ not_false
    show (grprProcessAdverts env r h.watch).groupState = _ → _
    rw [(onlyStore_report env r h.watch).groupState]
    exact hh

theorem groupsWhenRunning_step {h : Handheld} (hr : h.watch.GroupsWhenRunning) (i : HandInput) :
    (h.step i).watch.GroupsWhenRunning := by
  cases i with
  | nextEdge env =>
    show (nextButtonHandler env _ _ h.watch).GroupsWhenRunning
    rw [nextButtonHandler_eq]
    exact (mainStep ..).groupsWhenRunning hr
  | acceptEdge env =>
    show (acceptButtonHandler env _ _ h.watch).GroupsWhenRunning
    rw [acceptButtonHandler_eq]
    exact (mainStep ..).groupsWhenRunning hr
  | sensor env s => exact (mainStep ..).groupsWhenRunning hr
  | report env r => exact groupsWhenRunning_handle hr (.report env r)

/-- An address is added by a report that is handled while grouping. -/
theorem grouping_of_adds {h : Handheld} {i : HandInput} (hadd : i.adds h) :
    h.watch.groupState = .grouping := by
  obtain ⟨a, hin, hout⟩ := hadd
  cases i with
  | nextEdge env =>
    simp only [Handheld.step, nextButtonHandler_eq, store_process] at hin
    exact absurd hin hout
  | acceptEdge env =>
    simp only [Handheld.step, acceptButtonHandler_eq, store_process] at hin
    exact absurd hin hout
  | sensor env s =>
    simp only [Handheld.step, store_process] at hin
    exact absurd hin hout
  | report env r =>
    by_contra hg
    have hrej : ¬ acceptedInvitation env r h.watch = true :=
      fun hacc => hg (acceptedInvitation_iff.mp hacc).2.2
    simp only [Handheld.step, muchiAdvertisementReport, addrs_report, if_neg hrej] at hin
    exact hout hin

/-- **When grouping lasts only while both buttons are held**, and no address is added while one
is up: in the runs in which no button is released while the watch is grouping and shows a
message. -/
theorem heldGrouping_exact (env : Env) (nv : Nvram) (next accept : Bool) (is : List HandInput) :
    (Always Handheld.step Handheld.GroupsWhileHeld ⟨created env nv, next, accept⟩ is ∧
        EachStep Handheld.step (fun h i => i.adds h → h.next = true ∧ h.accept = true)
          ⟨created env nv, next, accept⟩ is) ↔
      EachStep Handheld.step (fun h i => ¬ i.losesRelease h) ⟨created env nv, next, accept⟩ is := by
  have hheld := always_iff_eachStep (I := fun h : Handheld => h.watch.GroupsWhenRunning)
    (fun _ i hr => groupsWhenRunning_step hr i) (fun _ i hr hh => groupsWhileHeld_step hr hh i)
    (s := ⟨created env nv, next, accept⟩) (by simp [Watch.GroupsWhenRunning])
    (by simp [Handheld.GroupsWhileHeld]) is
  rw [← hheld]
  constructor
  · exact And.left
  · intro h
    exact ⟨h, h.eachStep fun _ _ hh hadd => hh (grouping_of_adds hadd)⟩

/-- A message is shown while both buttons are held, and one of them is let go. -/
def sampleRelease : List HandInput :=
  let env := nominalEnv 0
  [.nextEdge env, .acceptEdge env, .sensor env .messageArrived, .nextEdge env]

theorem release_lost :
    ¬ Always Handheld.step Handheld.GroupsWhileHeld
      ⟨created (nominalEnv 0) (configuredNvram 60), false, false⟩ sampleRelease := by
  intro h
  exact absurd h.final (by decide +kernel)

end Muchiwachi
