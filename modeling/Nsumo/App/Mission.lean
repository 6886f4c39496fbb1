import Nsumo.App.InputHistoryLaws

/-! What the robot is to do: where it searches, whom it attacks and how it gets off a line. -/

namespace Nsumo.App

open Common Drivers

inductive Side : Type
  | left
  | right
  deriving DecidableEq, Repr

namespace Side

def other : Side → Side
  | left => right
  | right => left

def rotation : Side → DriveDir
  | left => .rotateLeft
  | right => .rotateRight

def sharp : Side → DriveDir
  | left => .arcturnSharpLeft
  | right => .arcturnSharpRight

def mid : Side → DriveDir
  | left => .arcturnMidLeft
  | right => .arcturnMidRight

def wide : Side → DriveDir
  | left => .arcturnWideLeft
  | right => .arcturnWideRight

end Side

inductive Bearing : Type
  | ahead
  | aside (side : Side)
  deriving DecidableEq, Repr

def Enemy.bearing (enemy : Enemy) : Option Bearing :=
  match enemy.position with
  | .none | .impossible => none
  | .front | .frontAll => some .ahead
  | .left | .frontLeft | .frontAndFrontLeft => some (.aside .left)
  | .right | .frontRight | .frontAndFrontRight => some (.aside .right)

def Bearing.direction : Bearing → DriveDir
  | ahead => .forward
  | aside side => side.wide

def rotationSide : Option Bearing → Side
  | some (.aside side) => side
  | some .ahead | none => .left

inductive Escape : Type
  | back
  | ahead
  | turn (side : Side)
  | align (side : Side)
  deriving DecidableEq, Repr

namespace Escape

def first : Escape → Move
  | back | align _ => ⟨.reverse, .max, 300⟩
  | ahead => ⟨.forward, .fast, 300⟩
  | turn side => ⟨side.sharp, .max, 150⟩

def rest : Escape → List Move
  | align side => [⟨side.sharp, .max, 250⟩, ⟨side.other.mid, .max, 300⟩]
  | back | ahead | turn _ => []

/-- From a line in front, also at one corner only: the robot comes round to face an enemy. -/
def fromFront (corner : Option Side) : Option Bearing → Escape
  | none => back
  | some (.aside side) => align side
  | some .ahead =>
    match corner with
    | some side => align side.other
    | none => back

/-- From a line at a back corner: one that the robot has backed into runs along that side. -/
def fromBack (corner : Side) (last : Escape) : Escape :=
  if last.first.dir = .reverse ∨ last = turn corner.other then turn corner.other else ahead

end Escape

def Line.escape (line : Line) (bearing : Option Bearing) (last : Escape) : Option Escape :=
  match line with
  | .none | .diagonalLeft | .diagonalRight => Option.none
  | .front => some (.fromFront Option.none bearing)
  | .frontLeft => some (.fromFront (some .left) bearing)
  | .frontRight => some (.fromFront (some .right) bearing)
  | .back => some .ahead
  | .backLeft => some (.fromBack .left last)
  | .backRight => some (.fromBack .right last)
  | .left => some (.turn .right)
  | .right => some (.turn .left)

def Elapsed (ms : Nat) (since : BitVec 32) (next : Readings) : Prop :=
  ms < next.pollCnt.toNat / 2 - since.toNat / 2

instance {ms : Nat} {since : BitVec 32} {next : Readings} : Decidable (Elapsed ms since next) :=
  inferInstanceAs (Decidable (_ < _))

def SearchState.limit : SearchState → Nat
  | .rotate => 400
  | .forward => 3000

/-- What the robot is doing, and the count at which it started to. -/
inductive Doing : Type
  | waiting
  | searching (search : SearchState) (since : BitVec 32)
  | attacking (bearing : Bearing) (resume : SearchState) (since : BitVec 32)
  | retreating (move : Move) (rest : List Move) (since : BitVec 32)
  | retreated
  | remote
  /-- Taken over by remote control at the very end of a retreat. -/
  | stranded
  deriving DecidableEq

namespace Doing

def state : Doing → State
  | waiting => .wait
  | searching _ _ => .search
  | attacking _ _ _ => .attack
  | retreating _ _ _ | retreated => .retreat
  | remote | stranded => .manual

def Due (next : Readings) : Doing → Prop
  | searching search since => Elapsed search.limit since next
  | attacking _ _ since => Elapsed 5000 since next
  | retreating move _ since => Elapsed move.duration.toNat since next
  | waiting | retreated | remote | stranded => False

instance (next : Readings) : (doing : Doing) → Decidable (doing.Due next)
  | searching _ _ | attacking _ _ _ | retreating _ _ _ =>
    inferInstanceAs (Decidable (Elapsed _ _ _))
  | waiting | retreated | remote | stranded => inferInstanceAs (Decidable False)

end Doing

structure Mission : Type where
  doing : Doing
  last : Escape
  inputs : List Input
  drives : List DriveCommand

namespace Mission

def start : Mission where
  doing := .waiting
  last := .back
  inputs := []
  drives := []

def lastSide (m : Mission) : Side :=
  rotationSide ((lastSided (retained 6 m.inputs)).bind (·.enemy.bearing))

def search (next : Readings) (search : SearchState) (m : Mission) : Mission :=
  let direction := match search with
    | .rotate => m.lastSide.rotation
    | .forward => .forward
  { m with
    doing := .searching search next.startCnt
    drives := .set direction .fast :: m.drives }

def attack (next : Readings) (bearing : Bearing) (resume : SearchState) (m : Mission) : Mission :=
  { m with
    doing := .attacking bearing resume next.startCnt
    drives := .set bearing.direction .fast :: m.drives }

def move (next : Readings) (move : Move) (rest : List Move) (m : Mission) : Mission :=
  { m with
    doing := .retreating move rest next.startCnt
    drives := .set move.dir move.speed :: m.drives }

def escape (next : Readings) (m : Mission) : Except Assert Mission :=
  match next.line.escape next.enemy.bearing m.last with
  | some escape => .ok (({ m with last := escape } : Mission).move next escape.first escape.rest)
  | none => .error .nextRetreatState

def obey (next : Readings) (m : Mission) : Mission :=
  let manually (doing : Doing) : Mission :=
    { m with doing, drives := (manualDrive next.cmd).toList ++ m.drives }
  match m.doing with
  | .waiting => m.search next .rotate
  | .searching _ _ | .attacking _ _ _ | .retreating _ _ _ | .remote => manually .remote
  | .retreated | .stranded => manually .stranded

def due (next : Readings) (m : Mission) : Except Assert Mission :=
  match m.doing with
  | .searching search _ => .ok (m.search next search.next)
  | .attacking _ _ _ =>
    .error (if next.enemy.bearing = none then .nextAttackState else .stateAttackEnter)
  | .retreating _ (move :: rest) _ => .ok (m.move next move rest)
  | .retreating _ [] _ => .ok { m with doing := .retreated }
  | .waiting | .retreated | .remote | .stranded => .ok m

def pursue (next : Readings) (m : Mission) : Mission :=
  match m.doing, next.enemy.bearing with
  | .searching search _, some bearing => m.attack next bearing search
  | .attacking current resume _, some bearing =>
    if current = bearing then m else m.attack next bearing resume
  | .attacking _ resume _, none => m.search next resume
  | _, _ => m

def goOn (next : Readings) (m : Mission) : Except Assert Mission :=
  match m.doing with
  | .waiting | .remote => .ok m
  | .stranded => .error .processEvent
  | .retreated => .ok (m.search next .rotate)
  | .searching _ _ | .attacking _ _ _ | .retreating _ _ _ =>
    if m.doing.Due next then
      m.due next
    else if next.line ≠ .none then
      m.escape next
    else
      .ok (m.pursue next)

def step (next : Readings) (m : Mission) : Except Assert Mission :=
  let m := { m with inputs := m.inputs ++ [next.input] }
  if next.cmd ≠ IrCmd.none then .ok (m.obey next) else m.goOn next

end Mission

end Nsumo.App
