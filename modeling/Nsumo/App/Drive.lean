import Nsumo.App.Actuators
import Nsumo.Drivers.Tb6612fng

namespace Nsumo.App.Drive

open Common Drivers Motors

def mode (speed : Int) : Tb6612fngMode := if 0 < speed then .forward else .reverse

def driveSet (direction : DriveDir) (speed : DriveSpeed) (m : Motors) : Except Assert Motors := do
  let (speedLeft, speedRight) := driveSpeeds direction speed
  assert (speedLeft != 0 && speedRight != 0) .driveSet
  let m := tb6612fngSetMode .left (mode speedLeft) m
  let m := tb6612fngSetMode .right (mode speedRight) m
  let m ← tb6612fngSetPwm .left (BitVec.ofNat 8 speedLeft.natAbs) m
  tb6612fngSetPwm .right (BitVec.ofNat 8 speedRight.natAbs) m

def driveStop (m : Motors) : Except Assert Motors := do
  let m := tb6612fngSetMode .left .stop m
  let m := tb6612fngSetMode .right .stop m
  let m ← tb6612fngSetPwm .left 0 m
  tb6612fngSetPwm .right 0 m

/-- `initialized` is never set. -/
def driveInit (m : Motors) : Except Assert Motors := do
  assert (!m.driveInitialized) .driveInit
  tb6612fngInit m

def step : DriveCommand → Motors → Except Assert Motors
  | .set direction speed => driveSet direction speed
  | .stop => driveStop

end Nsumo.App.Drive
