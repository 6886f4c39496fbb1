import Nsumo.App.Drive
import Nsumo.App.Sensing
import Nsumo.Common.AssertHandler

namespace Nsumo.App

open Common Drivers Lib

abbrev Ranging : Type := Except Vl53l0xStop (Vl53l0xIdx → BitVec 16)

/-- What the main program does next, with what `process_input` has read so far.  The handler of a
failed assertion never returns; it still has `writes` to do in this iteration of its loop. -/
inductive RobotPhase : Type
  | input
  | line (enemy : Enemy)
  | cmd (enemy : Enemy) (line : Line)
  | event (enemy : Enemy) (line : Line) (cmd : IrCmd)
  | process (readings : Readings) (event : StateEvent)
  | halted (site : Assert) (writes : List PortWrite)
  deriving DecidableEq

structure Robot : Type where
  ir : IrRemote
  watchdogInterruptCnt : BitVec 32
  data : StateMachineData
  motors : Motors
  phase : RobotPhase
  /-- What the iterations have read, oldest first. -/
  iterations : List Readings

namespace Robot

open AssertHandler

def boot (port3In : Byte) (ports : PortRegs) : Except Assert Robot := do
  let ports ← PortRegs.ioInit port3In ports
  let motors ← Drive.driveInit (Motors.reset ports)
  return {
    ir := .init
    watchdogInterruptCnt := 0
    data := stateMachineInit
    motors
    phase := .input
    iterations := [] }

def assertHandler (site : Assert) (r : Robot) : Robot :=
  { r with
    motors.ports := after assertStopMotors r.motors.ports
    phase := .halted site (assertTrace ++ gpioOutputLow p10 ++ gpioOutputLow p26) }

/-- `enemy_get` in `process_input`. -/
def stepEnemy (ranging : Ranging) (r : Robot) : Except Assert Robot :=
  match ranging with
  | .ok ranges => .ok { r with phase := .line (enemyGet (.ok ranges)) }
  | .error (.result result) => .ok { r with phase := .line (enemyGet (.error result)) }
  -- `ASSERT(initialized)`, or the sanity check
  | .error .assert => .error .vl53l0xReadRangeMultiple
  -- One of its loops goes on
  | .error .fuel => .ok r

def stepCmd (enemy : Enemy) (line : Line) (r : Robot) : Except Assert Robot := do
  let (cmd, ir) ← r.ir.irRemoteGetCmd
  return { r with ir, phase := .event enemy line cmd }

def stepEvent (enemy : Enemy) (line : Line) (cmd : IrCmd) (r : Robot) : Except Assert Robot := do
  let pollCnt := r.watchdogInterruptCnt
  let readings := { enemy, line, cmd, pollCnt, startCnt := pollCnt }
  let (event, data) ← processInput readings r.data
  return { r with data, phase := .process readings event }

/-- The calls of the drive interface that were made between two states, oldest first. -/
def newDrives (data data' : StateMachineData) : List DriveCommand :=
  (data'.drives.take (data'.drives.length - data.drives.length)).reverse

def stepProcess (readings : Readings) (event : StateEvent) (r : Robot) : Except Assert Robot := do
  let startCnt := r.watchdogInterruptCnt
  let data ← processEvent startCnt event r.data
  let motors ← Run.run Drive.step (newDrives r.data data) r.motors
  return { r with
    data
    motors
    phase := .input
    iterations := r.iterations ++ [{ readings with startCnt }] }

def stepMain (ranging : Ranging) (voltages : Qre1113Voltages) (r : Robot) : Except Assert Robot :=
  match r.phase with
  | .input => r.stepEnemy ranging
  | .line enemy => .ok { r with phase := .cmd enemy (lineGet voltages) }
  | .cmd enemy line => r.stepCmd enemy line
  | .event enemy line cmd => r.stepEvent enemy line cmd
  | .process readings event => r.stepProcess readings event
  | .halted site (w :: writes) =>
    .ok { r with motors.ports := w.run r.motors.ports, phase := .halted site writes }
  | .halted site [] => .ok { r with phase := .halted site blink }

/-- The main program goes on, with what the sensors give if it reads them now, or an interrupt
comes in between.  The assertion handler does not disable the interrupts. -/
inductive Event : Type
  | irq (irq : IrRemote.Irq)
  | watchdog
  | main (ranging : Ranging) (voltages : Qre1113Voltages)

def resume (r : Robot) : Except Assert Robot → Robot
  | .ok r' => r'
  | .error site => r.assertHandler site

def step (r : Robot) : Event → Robot
  | .irq irq => r.resume ((IrRemote.handle irq r.ir).map fun ir => { r with ir })
  | .watchdog => { r with watchdogInterruptCnt := r.watchdogInterruptCnt + 1 }
  | .main ranging voltages => r.resume (r.stepMain ranging voltages)

def run (r : Robot) (events : List Event) : Robot := events.foldl step r

def irqs (events : List Event) : List IrRemote.Irq :=
  events.filterMap fun
    | .irq irq => some irq
    | .watchdog | .main _ _ => none

end Robot

end Nsumo.App
