import Nsumo.Drivers.Vl53l0x
import Mathlib.Logic.Function.Basic

namespace Nsumo.Drivers

open Common

namespace Vl53l0x

/-- What ranging depends on: the selected register page, whether a measurement is in progress,
whether the interrupt of a finished one is still to be cleared, and the last range. -/
structure Sensor : Type where
  page : Byte
  measuring : Bool
  interrupt : Bool
  range : BitVec 16
  deriving DecidableEq

namespace Sensor

def Idle (s : Sensor) : Prop := s.measuring = false ∧ s.interrupt = false

instance (s : Sensor) : Decidable s.Idle := inferInstanceAs (Decidable (_ ∧ _))

def write (reg data : Byte) (s : Sensor) : Sensor :=
  if reg = 0xFF then
    { s with page := data }
  else if s.page = 0 ∧ reg = regSysrangeStart ∧ data &&& 0x01 ≠ 0 then
    { s with measuring := true }
  else if s.page = 0 ∧ reg = regSystemInterruptClear ∧ data &&& 0x01 ≠ 0 then
    { s with interrupt := false }
  else
    s

def writeBytes (reg : Byte) : List Byte → Sensor → Sensor
  | [], s => s
  | data :: bytes, s => writeBytes (reg + 1) bytes (s.write reg data)

def read (values : Byte → Byte) (reg : Byte) (s : Sensor) : Byte :=
  if s.page = 0 ∧ reg = regResultInterruptStatus then
    if s.interrupt then values reg ||| 0x04 else values reg &&& 0xF8
  else if s.page = 0 ∧ reg = regResultRangeStatus + 10 then
    s.range.extractLsb' 8 8
  else if s.page = 0 ∧ reg = regResultRangeStatus + 11 then
    s.range.extractLsb' 0 8
  else
    values reg

/-- The last byte of the destination receives the first register. -/
def readBytes (values : Byte → Byte) (reg : Byte) : Nat → Sensor → List Byte
  | 0, _ => []
  | n + 1, s => readBytes values (reg + 1) n s ++ [s.read values reg]

end Sensor

inductive SensorEvent : Type
  | complete (idx : Vl53l0xIdx) (range : BitVec 16)
  | frontInterrupt

/-- How a transfer ends.  One that fails has stored some of the bytes, but not all. -/
structure Outcome : Type where
  error : Option I2cError
  stored : Nat
  values : Byte → Byte

structure Sensors : Type where
  sensor : Vl53l0xIdx → Sensor
  slaveAddress : Byte
  edge : Bool
  /-- What happens before the accesses to come, and how the transfers to come end. -/
  events : Nat → List SensorEvent
  outcomes : Nat → Outcome
  failed : List (Vl53l0xIdx → Sensor)

namespace Sensors

def complete (idx : Vl53l0xIdx) (range : BitVec 16) (d : Sensors) : Sensors :=
  if (d.sensor idx).measuring then
    { d with
      sensor := Function.update d.sensor idx
        { d.sensor idx with measuring := false, interrupt := true, range := range }
      edge := d.edge || (idx = .front && !(d.sensor idx).interrupt) }
  else
    d

def happen : List SensorEvent → Sensors → Bool × Sensors
  | [], d => (false, d)
  | .complete idx range :: events, d => happen events (d.complete idx range)
  | .frontInterrupt :: events, d =>
    (d.edge || (happen events { d with edge := false }).1,
      (happen events { d with edge := false }).2)

def elapse (d : Sensors) : Bool × Sensors :=
  ((happen (d.events 0) d).1,
    { (happen (d.events 0) d).2 with events := fun k => d.events (k + 1) })

def addressee (addr : Byte) : Option Vl53l0xIdx :=
  [.front, .left, .right, .frontLeft, .frontRight].find? fun idx => vl53l0xCfgs idx = addr

/-- The error of the next transfer; no sensor answers to an address that is not configured. -/
def nextError (d : Sensors) : Option I2cError :=
  if (addressee d.slaveAddress).isSome then (d.outcomes 0).error else some .start

def fail (d : Sensors) : Sensors := { d with
  outcomes := fun k => d.outcomes (k + 1)
  failed := d.failed ++ [d.sensor] }

def write (reg : Byte) (data : List Byte) (d : Sensors) : Option I2cError × Sensors :=
  match d.nextError, addressee d.slaveAddress with
  | none, some idx => (none, { d with
      outcomes := fun k => d.outcomes (k + 1)
      sensor := Function.update d.sensor idx ((d.sensor idx).writeBytes reg data) })
  | error, _ => (error, d.fail)

def read (reg : Byte) (data : List Byte) (d : Sensors) : Option I2cError × List Byte × Sensors :=
  match d.nextError, addressee d.slaveAddress with
  | none, some idx =>
    (none, (d.sensor idx).readBytes (d.outcomes 0).values reg data.length,
      { d with outcomes := fun k => d.outcomes (k + 1) })
  | error, some idx =>
    let kept := data.length - min (d.outcomes 0).stored (data.length - 1)
    (error, data.take kept ++
      ((d.sensor idx).readBytes (d.outcomes 0).values reg data.length).drop kept, d.fail)
  | error, none => (error, data, d.fail)

def bus : Bus Sensors where
  elapse := elapse
  setSlaveAddress addr d := { d with slaveAddress := addr }
  write := write
  read := read

end Sensors

/-- The result of a call is not seen by the next; an assertion and a loop that goes on end the
run. -/
def call (fuel : Nat) (s : Vl53l0x Sensors) : Except Vl53l0xStop (Vl53l0x Sensors) :=
  match vl53l0xReadRangeMultiple Sensors.bus fuel s with
  | .ok _ t | .error (.result _) t => .ok t
  | .error stop _ => .error stop

/-- What `vl53l0x_init` leaves in the driver (see `init_initial`), beside sensors at rest. -/
structure Initial (s : Vl53l0x Sensors) : Prop where
  initialized : s.initialized = true
  statusMultiple : s.statusMultiple = .notStarted
  latestRanges (idx : Vl53l0xIdx) : s.latestRanges idx = vl53l0xOutOfRange
  slaveAddress : s.dev.slaveAddress = vl53l0xCfgs .frontRight
  page (idx : Vl53l0xIdx) : (s.dev.sensor idx).page = 0
  idle (idx : Vl53l0xIdx) : (s.dev.sensor idx).Idle
  edge : s.dev.edge = false
  failed : s.dev.failed = []

end Vl53l0x

end Nsumo.Drivers
