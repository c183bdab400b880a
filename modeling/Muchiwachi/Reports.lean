import Muchiwachi.GroupFsm

/-!
# Handling an advertisement report (`grpr_process_adverts`)
-/

namespace Muchiwachi

/-- What `grpr_process_adverts` does with the service field at offset `off`. -/
def processServiceField (env : Env) (evt : AdvReport) (off : Nat) (w : Watch) : Watch :=
  let state := evt.byte (off + 2 + stateOffset)
  let avatar := evt.byte (off + 2 + avatarOffset)
  let w := if state &&& flagGrouping ≠ 0 then
    groupfsmProcessEventWithData env .groupingAdv (some evt) w else w
  let idx := grprStoreGet (some evt.wdAddr) w.store
  if idx ≥ 0 then
    let w := (grprStoreTimestamp env idx w).2
    let w := (grprStoreSetRssi idx evt.rssi w).2
    (grprStoreSetAvatar idx avatar.toInt8 w).2
  else w

def grprProcessAdverts (env : Env) (evt : AdvReport) (w : Watch) : Watch :=
  match serviceField env.serviceUuid evt with
  | some off => processServiceField env evt off w
  | none => w

end Muchiwachi
