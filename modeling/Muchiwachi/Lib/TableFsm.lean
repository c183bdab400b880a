import Mathlib.Logic.Basic

/-!
# Table-driven state machines

A machine keeps its current state in a larger memory `ω`. Handling an event runs the function
the state table has for the current state, which returns the next state; then the transition
function the transition table has for the two states, if any; and then makes the next state
current.
-/

namespace Muchiwachi.Lib

structure TableFsm (σ ε ω : Type*) where
  cur : ω → σ
  setCur : σ → ω → ω
  stateTable : σ → ε → ω → σ × ω
  transitionTable : σ → σ → Option (ε → ω → ω)

namespace TableFsm

variable {σ ε ω : Type*} (m : TableFsm σ ε ω)

/-- Run the transition function of a table cell. -/
def runTransition (s s' : σ) (e : ε) (w : ω) : ω :=
  match m.transitionTable s s' with
  | some f => f e w
  | none => w

def processEvent (e : ε) (w : ω) : ω :=
  let r := m.stateTable (m.cur w) e w
  m.setCur r.1 (m.runTransition (m.cur r.2) r.1 e r.2)

/-- A state function that leaves the current state alone: the cell is that of the state the
event arrived in. -/
theorem processEvent_eq {e : ε} {w w' : ω} {s s' : σ} (hs : m.cur w = s)
    (h : m.stateTable s e w = (s', w')) (hc : m.cur w' = s) :
    m.processEvent e w = m.setCur s' (m.runTransition s s' e w') := by
  simp only [processEvent, hs, h, hc]

/-- An event the state function ignores, in a table without self-transitions. -/
theorem processEvent_ignored {e : ε} {w : ω} {s : σ} (hs : m.cur w = s)
    (h : m.stateTable s e w = (s, w)) (ht : m.transitionTable s s = none)
    (hset : m.setCur s w = w) : m.processEvent e w = w := by
  rw [m.processEvent_eq hs h hs, runTransition, ht]
  exact hset

end TableFsm

end Muchiwachi.Lib
