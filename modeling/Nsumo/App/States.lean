import Nsumo.App.Actuators
import Nsumo.App.Input
import Nsumo.Drivers.IrRemote

namespace Nsumo.App

open Common Drivers

inductive State : Type
  | wait
  | search
  | attack
  | retreat
  | manual
  deriving DecidableEq, Repr

inductive StateEvent : Type
  | timeout
  | line
  | enemy
  | finished
  | command
  | none
  deriving DecidableEq, Repr

inductive SearchState : Type
  | rotate
  | forward
  deriving DecidableEq, Repr

inductive AttackState : Type
  | forward
  | left
  | right
  deriving DecidableEq, Repr

inductive RetreatState : Type
  | reverse
  | forward
  | rotateLeft
  | rotateRight
  | arcturnLeft
  | arcturnRight
  | alignLeft
  | alignRight
  deriving DecidableEq, Repr

structure StateCommonData : Type where
  enemy : Enemy
  line : Line
  cmd : IrCmd
  deriving DecidableEq

structure StateSearchData : Type where
  state : SearchState
  deriving DecidableEq

structure StateAttackData : Type where
  state : AttackState
  deriving DecidableEq

structure StateRetreatData : Type where
  state : RetreatState
  moveIdx : Nat
  deriving DecidableEq

structure StateMachineData : Type where
  state : State
  common : StateCommonData
  search : StateSearchData
  attack : StateAttackData
  retreat : StateRetreatData
  internalEvent : StateEvent
  timer : Timer
  inputHistory : RingBuffer
  /-- The calls of the drive interface so far, the latest first. -/
  drives : List DriveCommand
  deriving DecidableEq

def hasInternalEvent (data : StateMachineData) : Bool := data.internalEvent != .none

def stateMachinePostInternalEvent (event : StateEvent) (data : StateMachineData) :
    Except Assert StateMachineData := do
  assert (!hasInternalEvent data) .stateMachinePostInternalEvent
  return { data with internalEvent := event }

def driveSet (direction : DriveDir) (speed : DriveSpeed) (data : StateMachineData) :
    Except Assert StateMachineData := do
  let (speedLeft, speedRight) := driveSpeeds direction speed
  assert (speedLeft != 0 && speedRight != 0) .driveSet
  return { data with drives := .set direction speed :: data.drives }

def driveStop (data : StateMachineData) : StateMachineData :=
  { data with drives := .stop :: data.drives }

section

-- The watchdog count that `timer_start` reads in this iteration.
variable (watchdogCnt : BitVec 32)

def startTimer (timeoutMs : BitVec 32) (data : StateMachineData) : StateMachineData :=
  { data with timer := timerStart watchdogCnt timeoutMs }

def stateWaitEnter (src : State) (data : StateMachineData) : Except Assert StateMachineData := do
  assert (src == .wait) .stateWaitEnter
  return data

def stateSearchRun (data : StateMachineData) : Except Assert StateMachineData :=
  match data.search.state with
  | .rotate => do
    -- Rotate to where enemy was last seen
    let lastEnemy ← inputHistoryLastDirectedEnemy data.inputHistory
    let data ← if enemyAtRight lastEnemy then
        driveSet .rotateRight .fast data
      else
        driveSet .rotateLeft .fast data
    return startTimer watchdogCnt 400 data
  | .forward => do
    let data ← driveSet .forward .fast data
    return startTimer watchdogCnt 3000 data

def SearchState.next : SearchState → SearchState
  | .rotate => .forward
  | .forward => .rotate

def stateSearchEnter (src : State) (event : StateEvent) (data : StateMachineData) :
    Except Assert StateMachineData :=
  match src, event with
  | .wait, event => do
    assert (event == .command) .stateSearchEnter
    stateSearchRun watchdogCnt data
  | .attack, .none | .retreat, .none => do
    assert (src == .attack) .stateSearchEnter
    stateSearchRun watchdogCnt data
  | .attack, .finished | .retreat, .finished => do
    assert (src == .retreat) .stateSearchEnter
    -- Switch state to avoid getting stuck driving back and forth when enemy lost
    let data := if data.search.state = .forward then
        { data with search.state := .rotate }
      else
        data
    stateSearchRun watchdogCnt data
  | .search, .none => .ok data
  | .search, .timeout =>
    stateSearchRun watchdogCnt { data with search.state := data.search.state.next }
  | _, _ => .error .stateSearchEnter

def AttackState.direction : AttackState → DriveDir
  | .forward => .forward
  | .left => .arcturnWideLeft
  | .right => .arcturnWideRight

def stateAttackRun (data : StateMachineData) : Except Assert StateMachineData := do
  let data ← driveSet data.attack.state.direction .fast data
  return startTimer watchdogCnt 5000 data

def nextAttackState (enemy : Enemy) : Except Assert AttackState :=
  if enemyAtFront enemy then
    .ok .forward
  else if enemyAtLeft enemy then
    .ok .left
  else if enemyAtRight enemy then
    .ok .right
  else
    .error .nextAttackState

def stateAttackEnter (src : State) (event : StateEvent) (data : StateMachineData) :
    Except Assert StateMachineData := do
  let prevAttackState := data.attack.state
  let attackState ← nextAttackState data.common.enemy
  let data := { data with attack.state := attackState }
  match src, event with
  | .search, .enemy => stateAttackRun watchdogCnt data
  | .attack, .enemy =>
    if prevAttackState ≠ data.attack.state then stateAttackRun watchdogCnt data else .ok data
  | _, _ => .error .stateAttackEnter

structure Move : Type where
  dir : DriveDir
  speed : DriveSpeed
  duration : BitVec 16
  deriving DecidableEq, Repr

structure RetreatMoves : Type where
  moves : List Move
  moveCnt : Nat

def retreatStates : RetreatState → RetreatMoves
  | .reverse => { moveCnt := 1, moves := [⟨.reverse, .max, 300⟩] }
  | .forward => { moveCnt := 1, moves := [⟨.forward, .fast, 300⟩] }
  | .rotateLeft => { moveCnt := 1, moves := [⟨.rotateLeft, .fast, 150⟩] }
  | .rotateRight => { moveCnt := 1, moves := [⟨.rotateRight, .fast, 150⟩] }
  | .arcturnLeft => { moveCnt := 1, moves := [⟨.arcturnSharpLeft, .max, 150⟩] }
  | .arcturnRight => { moveCnt := 1, moves := [⟨.arcturnSharpRight, .max, 150⟩] }
  | .alignLeft =>
    { moveCnt := 3
      moves := [⟨.reverse, .max, 300⟩, ⟨.arcturnSharpLeft, .max, 250⟩,
        ⟨.arcturnMidRight, .max, 300⟩] }
  | .alignRight =>
    { moveCnt := 3
      moves := [⟨.reverse, .max, 300⟩, ⟨.arcturnSharpRight, .max, 250⟩,
        ⟨.arcturnMidLeft, .max, 300⟩] }

/-- The move at the current index; the unused entries of `moves` are zero. -/
def currentMove (data : StateRetreatData) : Move :=
  (retreatStates data.state).moves.getD data.moveIdx ⟨.forward, .slow, 0⟩

def nextRetreatState (data : StateMachineData) : Except Assert RetreatState :=
  let enemy := data.common.enemy
  match data.common.line with
  | .frontLeft =>
    if enemyAtRight enemy || enemyAtFront enemy then
      .ok .alignRight
    else if enemyAtLeft enemy then
      .ok .alignLeft
    else
      .ok .reverse
  | .frontRight =>
    if enemyAtLeft enemy || enemyAtFront enemy then
      .ok .alignLeft
    else if enemyAtRight enemy then
      .ok .alignRight
    else
      .ok .reverse
  | .backLeft =>
    if (currentMove data.retreat).dir = .reverse then
      .ok .arcturnRight
    else if data.retreat.state = .arcturnRight then
      .ok .arcturnRight
    else
      .ok .forward
  | .backRight =>
    if (currentMove data.retreat).dir = .reverse then
      .ok .arcturnLeft
    else if data.retreat.state = .arcturnLeft then
      .ok .arcturnLeft
    else
      .ok .forward
  | .front =>
    if enemyAtLeft enemy then
      .ok .alignLeft
    else if enemyAtRight enemy then
      .ok .alignRight
    else
      .ok .reverse
  | .back => .ok .forward
  | .left => .ok .arcturnRight
  | .right => .ok .arcturnLeft
  | .diagonalLeft | .diagonalRight => .error .nextRetreatState
  | .none => .error .nextRetreatState

def startRetreatMove (data : StateMachineData) : Except Assert StateMachineData := do
  assert (data.retreat.moveIdx < (retreatStates data.retreat.state).moveCnt) .startRetreatMove
  let move := currentMove data.retreat
  driveSet move.dir move.speed (startTimer watchdogCnt (move.duration.setWidth 32) data)

def retreatStateDone (data : StateRetreatData) : Bool :=
  data.moveIdx == (retreatStates data.state).moveCnt

def stateRetreatRun (data : StateMachineData) : Except Assert StateMachineData := do
  let data := { data with retreat.moveIdx := 0 }
  let state ← nextRetreatState data
  startRetreatMove watchdogCnt { data with retreat.state := state }

def stateRetreatEnter (src : State) (event : StateEvent) (data : StateMachineData) :
    Except Assert StateMachineData :=
  match src, event with
  | .search, .line | .attack, .line => stateRetreatRun watchdogCnt data
  | .retreat, .line => stateRetreatRun watchdogCnt data
  | .retreat, .timeout =>
    let data := { data with retreat.moveIdx := data.retreat.moveIdx + 1 }
    if retreatStateDone data.retreat then
      stateMachinePostInternalEvent .finished data
    else
      startRetreatMove watchdogCnt data
  -- Ignore enemy when retreating
  | .retreat, .enemy | .retreat, .none => .ok data
  | _, _ => .error .stateRetreatEnter

end

/-- The drive call of each case of the switch over the command; a byte that is not a named command
matches no case. -/
def manualDrive (cmd : IrCmd) : Option DriveCommand :=
  if cmd = IrCmd.up then
    some (.set .forward .max)
  else if cmd = IrCmd.down then
    some (.set .reverse .max)
  else if cmd = IrCmd.left then
    some (.set .rotateLeft .max)
  else if cmd = IrCmd.right then
    some (.set .rotateRight .max)
  else if cmd ∈ [IrCmd.zero, IrCmd.one, IrCmd.two, IrCmd.three, IrCmd.four, IrCmd.five, IrCmd.six,
      IrCmd.seven, IrCmd.eight, IrCmd.nine, IrCmd.star, IrCmd.ok, IrCmd.hash] then
    some .stop
  else
    none

def stateManualEnter (event : StateEvent) (data : StateMachineData) :
    Except Assert StateMachineData :=
  if event ≠ .command then
    .ok data
  else match manualDrive data.common.cmd with
    | some (.set direction speed) => driveSet direction speed data
    | some .stop => .ok (driveStop data)
    | none => .ok data

end Nsumo.App
