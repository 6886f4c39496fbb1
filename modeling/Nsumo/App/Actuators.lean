namespace Nsumo.App

inductive DriveDir : Type
  | forward
  | reverse
  | rotateLeft
  | rotateRight
  | arcturnSharpLeft
  | arcturnSharpRight
  | arcturnMidLeft
  | arcturnMidRight
  | arcturnWideLeft
  | arcturnWideRight
  deriving DecidableEq, Repr

inductive DriveSpeed : Type
  | slow
  | medium
  | fast
  | max
  deriving DecidableEq, Repr

/-- `DRIVE_PRIMARY_DIRECTION`: the even member of the pair of directions. -/
def drivePrimaryDirection (dir : DriveDir) : DriveDir := .ofNat (dir.ctorIdx - dir.ctorIdx % 2)

/-- The left and right speeds; only the primary directions have an entry. -/
def drivePrimarySpeeds : DriveDir → DriveSpeed → Int × Int
  | .forward, .slow => (25, 25)
  | .forward, .medium => (45, 45)
  | .forward, .fast => (55, 55)
  | .forward, .max => (100, 100)
  | .rotateLeft, .slow => (-25, 25)
  | .rotateLeft, .medium => (-50, 50)
  | .rotateLeft, .fast => (-60, 60)
  | .rotateLeft, .max => (-100, 100)
  | .arcturnSharpLeft, .slow => (-10, 25)
  | .arcturnSharpLeft, .medium => (-10, 50)
  | .arcturnSharpLeft, .fast => (-25, 75)
  | .arcturnSharpLeft, .max => (-20, 100)
  | .arcturnMidLeft, .slow => (15, 30)
  | .arcturnMidLeft, .medium => (25, 50)
  | .arcturnMidLeft, .fast => (35, 70)
  | .arcturnMidLeft, .max => (50, 100)
  | .arcturnWideLeft, .slow => (20, 25)
  | .arcturnWideLeft, .medium => (40, 50)
  | .arcturnWideLeft, .fast => (60, 70)
  | .arcturnWideLeft, .max => (85, 100)
  | _, _ => (0, 0)

def driveInverseSpeeds : Int × Int → Int × Int
  | (left, right) => if left = right then (-left, -right) else (right, left)

def driveSpeeds (direction : DriveDir) (speed : DriveSpeed) : Int × Int :=
  let primaryDirection := drivePrimaryDirection direction
  let speeds := drivePrimarySpeeds primaryDirection speed
  if direction ≠ primaryDirection then driveInverseSpeeds speeds else speeds

inductive DriveCommand : Type
  | set (direction : DriveDir) (speed : DriveSpeed)
  | stop
  deriving DecidableEq, Repr

def lastDirection : List DriveCommand → Option DriveDir
  | [] => none
  | .set direction _ :: _ => some direction
  | .stop :: commands => lastDirection commands

/-- Milliseconds since boot; the watchdog interrupt counts every half of one. -/
def millis (watchdogInterruptCnt : BitVec 32) : BitVec 32 := watchdogInterruptCnt / 2

abbrev Timer := BitVec 32

def timerCleared : Timer := 0

def timerStart (watchdogInterruptCnt timeoutMs : BitVec 32) : Timer :=
  millis watchdogInterruptCnt + timeoutMs

def timerTimeout (watchdogInterruptCnt : BitVec 32) (timer : Timer) : Bool :=
  if timer == timerCleared then false else decide (timer < millis watchdogInterruptCnt)

end Nsumo.App
