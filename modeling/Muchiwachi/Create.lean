import Muchiwachi.MainFsm
import Muchiwachi.Reports

/-!
# Start-up and callbacks (`main.c`, `buttons.c`)
-/

namespace Muchiwachi

/-- `muchi_create`, of what it does the calls that act on the modelled state. -/
def muchiCreate (env : Env) (w : Watch) : Watch :=
  let w := w.call (.scan .noScan)
  let w := displayInit w
  let w := grprStoreInit env w
  mainfsmProcessEvent env .bootDone w

def muchiAdvertisementTimeout (env : Env) (w : Watch) : Watch := grprStartAdverts env 0 w

def muchiAdvertisementReport (env : Env) (evt : AdvReport) (w : Watch) : Watch :=
  grprProcessAdverts env evt w

def nextButtonHandler (env : Env) (value acceptButtonValue : Bool) (w : Watch) : Watch :=
  if value then
    if acceptButtonValue then mainfsmProcessEvent env .bothHold w
    else mainfsmProcessEvent env .nextPush w
  else mainfsmProcessEvent env .bothRelease w

def acceptButtonHandler (env : Env) (value nextButtonValue : Bool) (w : Watch) : Watch :=
  if value then
    if nextButtonValue then mainfsmProcessEvent env .bothHold w
    else mainfsmProcessEvent env .acceptPush w
  else mainfsmProcessEvent env .bothRelease w

end Muchiwachi
