import Muchiwachi.Adverts
import Muchiwachi.Lib.TableFsm
import Muchiwachi.Store

/-!
# The group state machine (`groupfsm.c`)
-/

namespace Muchiwachi

open Lib

namespace GroupFsm

/-- `event_t`: the type, and the report that comes with `GROUPING_ADV`. -/
structure Event where
  env : Env
  type : GEvent
  data : Option AdvReport

/-- `GROUPER_MIN_RSSI_INVITATION`. -/
def grouperMinRssiInvitation : Int8 := -50

def doStateIdle (evt : Event) (w : Watch) : GState × Watch :=
  match evt.type with
  | .groupingStart => (.grouping, grprStartAdverts evt.env flagGrouping w)
  | _ => (.idle, w)

def doStateGrouping (evt : Event) (w : Watch) : GState × Watch :=
  match evt.type with
  | .groupingAdv =>
    match evt.data with
    | some pktdata =>
      if pktdata.rssi > grouperMinRssiInvitation then
        (.grouping, (grprStoreAdd evt.env (some pktdata.wdAddr) w).2)
      else (.grouping, w)
    | none => (.grouping, w)
  | .groupingStop => (.idle, grprStartAdverts evt.env 0 w)
  | _ => (.grouping, w)

def doIdleToGrouping (_ : Event) (w : Watch) : Watch := w
def doGroupingToIdle (_ : Event) (w : Watch) : Watch := w

def table : TableFsm GState Event Watch where
  cur w := w.groupState
  setCur s w := { w with groupState := s }
  stateTable
    | .idle => doStateIdle
    | .grouping => doStateGrouping
  transitionTable
    | .idle, .grouping => some doIdleToGrouping
    | .grouping, .idle => some doGroupingToIdle
    | _, _ => none

end GroupFsm

def groupfsmProcessEventWithData (env : Env) (type : GEvent) (data : Option AdvReport)
    (w : Watch) : Watch := GroupFsm.table.processEvent ⟨env, type, data⟩ w

def groupfsmProcessEvent (env : Env) (type : GEvent) (w : Watch) : Watch :=
  groupfsmProcessEventWithData env type none w

end Muchiwachi
