import Nsumo.App.States
import Nsumo.Lib.Run

namespace Nsumo.App

open Common Drivers Lib

structure StateTransition : Type where
  src : State
  event : StateEvent
  dst : State
  deriving DecidableEq, Repr

def stateTransitions : List StateTransition :=
  [⟨.wait, .none, .wait⟩,
    ⟨.wait, .line, .wait⟩,
    ⟨.wait, .enemy, .wait⟩,
    ⟨.wait, .command, .search⟩,
    ⟨.search, .none, .search⟩,
    ⟨.search, .timeout, .search⟩,
    ⟨.search, .enemy, .attack⟩,
    ⟨.search, .line, .retreat⟩,
    ⟨.search, .command, .manual⟩,
    ⟨.attack, .enemy, .attack⟩,
    ⟨.attack, .line, .retreat⟩,
    ⟨.attack, .none, .search⟩, -- Enemy lost
    ⟨.attack, .command, .manual⟩,
    ⟨.attack, .timeout, .attack⟩,
    ⟨.retreat, .line, .retreat⟩,
    ⟨.retreat, .finished, .search⟩,
    ⟨.retreat, .timeout, .retreat⟩,
    ⟨.retreat, .enemy, .retreat⟩,
    ⟨.retreat, .none, .retreat⟩,
    ⟨.retreat, .command, .manual⟩,
    ⟨.manual, .command, .manual⟩,
    ⟨.manual, .none, .manual⟩,
    ⟨.manual, .line, .manual⟩,
    ⟨.manual, .enemy, .manual⟩]

/-- What one iteration reads from outside.  The clock is read up to twice: by `timer_timeout` and,
in the state that is entered, by `timer_start`. -/
structure Readings : Type where
  enemy : Enemy
  line : Line
  cmd : IrCmd
  pollCnt : BitVec 32
  startCnt : BitVec 32
  deriving DecidableEq

def takeInternalEvent (data : StateMachineData) : Except Assert (StateEvent × StateMachineData) := do
  assert (hasInternalEvent data) .takeInternalEvent
  return (data.internalEvent, { data with internalEvent := .none })

def stateEnter (watchdogCnt : BitVec 32) (src : State) (event : StateEvent) (dst : State)
    (data : StateMachineData) : Except Assert StateMachineData :=
  let data := if src ≠ dst then { data with timer := timerCleared, state := dst } else data
  match dst with
  | .wait => stateWaitEnter src data
  | .search => stateSearchEnter watchdogCnt src event data
  | .attack => stateAttackEnter watchdogCnt src event data
  | .retreat => stateRetreatEnter watchdogCnt src event data
  | .manual => stateManualEnter event data

def processEvent (watchdogCnt : BitVec 32) (nextEvent : StateEvent) (data : StateMachineData) :
    Except Assert StateMachineData :=
  match stateTransitions.find? fun t => data.state == t.src && nextEvent == t.event with
  | some t => stateEnter watchdogCnt t.src nextEvent t.dst data
  | none => .error .processEvent

def readInputs (readings : Readings) (data : StateMachineData) :
    Except Assert StateMachineData := do
  let data := { data with common := ⟨readings.enemy, readings.line, readings.cmd⟩ }
  let inputHistory ← inputHistorySave data.inputHistory ⟨data.common.enemy, data.common.line⟩
  return { data with inputHistory }

def processInput (readings : Readings) (data : StateMachineData) :
    Except Assert (StateEvent × StateMachineData) := do
  let data ← readInputs readings data
  if data.common.cmd ≠ IrCmd.none then
    return (.command, data)
  else if hasInternalEvent data then
    takeInternalEvent data
  else if timerTimeout readings.pollCnt data.timer then
    return (.timeout, { data with timer := timerCleared })
  else if data.common.line ≠ .none then
    return (.line, data)
  else if enemyDetected data.common.enemy then
    return (.enemy, data)
  else
    return (.none, data)

def stateMachineInit : StateMachineData where
  state := .wait
  common := ⟨enemyNone, .none, IrCmd.none⟩
  search := ⟨.rotate⟩
  attack := ⟨.forward⟩
  retreat := ⟨.reverse, 0⟩
  internalEvent := .none
  timer := timerCleared
  inputHistory := RingBuffer.ofSize 6 3
  drives := []

def iteration (readings : Readings) (data : StateMachineData) :
    Except Assert StateMachineData := do
  let (nextEvent, data) ← processInput readings data
  processEvent readings.startCnt nextEvent data

/-- The iterations with the given readings, from the start; a failing assertion ends them. -/
def stateMachineRun (readings : List Readings) : Except Assert StateMachineData :=
  Run.run iteration readings stateMachineInit

end Nsumo.App
