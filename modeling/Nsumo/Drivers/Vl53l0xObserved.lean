import Nsumo.Drivers.Vl53l0xSensors

/-! The sensors with an observer, who notes their measurements and the transfers that tear the
cached ranges. -/

namespace Nsumo.Drivers

open Common

namespace Vl53l0x

inductive Observation : Type
  | started
  | completed (range : BitVec 16)
  | read (range : BitVec 16)
  deriving DecidableEq

def Sensor.starts (reg : Byte) : List Byte → Sensor → Bool
  | [], _ => false
  | data :: bytes, s =>
    decide (s.page = 0 ∧ reg = regSysrangeStart ∧ data &&& 0x01 ≠ 0) ||
      starts (reg + 1) bytes (s.write reg data)

structure Observed : Type where
  sensors : Sensors
  log : Vl53l0xIdx → List Observation
  /-- A byte of a range has been stored since the call began. -/
  stored : Bool
  torn : Bool

namespace Observed

def note (idx : Vl53l0xIdx) (observation : Observation) (d : Observed) : Observed :=
  { d with log := Function.update d.log idx (d.log idx ++ [observation]) }

def elapse (d : Observed) : Bool × Observed :=
  (d.sensors.elapse.1, { d with
    sensors := d.sensors.elapse.2
    log := fun idx =>
      if (d.sensors.sensor idx).measuring && !(d.sensors.elapse.2.sensor idx).measuring then
        d.log idx ++ [.completed (d.sensors.elapse.2.sensor idx).range]
      else
        d.log idx })

def fail (touched : Bool) (d : Observed) : Observed := { d with
  sensors := d.sensors.fail
  stored := d.stored || touched
  torn := d.torn || d.stored || touched }

def write (reg : Byte) (data : List Byte) (d : Observed) : Option I2cError × Observed :=
  match Sensors.write reg data d.sensors, Sensors.addressee d.sensors.slaveAddress with
  | (none, sensors), some idx =>
    let noted := { d with sensors }
    (none, if (d.sensors.sensor idx).starts reg data then noted.note idx .started else noted)
  | (error, _), _ => (error, d.fail false)

def read (reg : Byte) (data : List Byte) (d : Observed) :
    Option I2cError × List Byte × Observed :=
  let ofRange := decide (reg = regResultRangeStatus + 10)
  match Sensors.read reg data d.sensors, Sensors.addressee d.sensors.slaveAddress with
  | (none, bytes, sensors), some idx =>
    let noted := { d with sensors, stored := d.stored || ofRange }
    (none, bytes,
      if ofRange && (d.sensors.sensor idx).page = 0 then
        noted.note idx (.read (d.sensors.sensor idx).range)
      else
        noted)
  | (error, bytes, _), _ =>
    (error, bytes, d.fail (ofRange && (d.sensors.outcomes 0).stored != 0))

def bus : Bus Observed where
  elapse := elapse
  setSlaveAddress addr d := { d with sensors := { d.sensors with slaveAddress := addr } }
  write := write
  read := read

end Observed

abbrev Answer := Except Vl53l0xResult Vl53l0xRanges

def beginCall (s : Vl53l0x Observed) : Vl53l0x Observed :=
  { s with dev := { s.dev with stored := false } }

def answeredCall (fuel : Nat) :
    Vl53l0x Observed × List Answer → Except Vl53l0xStop (Vl53l0x Observed × List Answer)
  | (s, answers) =>
    match vl53l0xReadRangeMultiple Observed.bus fuel (beginCall s) with
    | .ok ranges t => .ok (t, answers ++ [.ok ranges])
    | .error (.result r) t => .ok (t, answers ++ [.error r])
    | .error stop _ => .error stop

def observe (s : Vl53l0x Sensors) : Vl53l0x Observed where
  stopVariable := s.stopVariable
  statusMultiple := s.statusMultiple
  initialized := s.initialized
  latestRanges := s.latestRanges
  dev := { sensors := s.dev, log := fun _ => [], stored := false, torn := false }

def completions (log : List Observation) : List (BitVec 16) := log.filterMap fun
  | .completed range => some range
  | _ => none

def freshRanges (answers : List Answer) : List (Vl53l0xIdx → Nat) := answers.filterMap fun
  | .ok ⟨ranges, true⟩ => some ranges
  | _ => none

/-- 8190 and 8191 stand for an obstacle out of range. -/
def toRange (range : BitVec 16) : Nat :=
  if range.toNat = 8190 ∨ range.toNat = 8191 then vl53l0xOutOfRange else range.toNat

/-- Each measurement completes once, and is read once before the next one starts. -/
def ReadOnce : List Observation → Prop
  | [] => True
  | [.started] => True
  | [.started, .completed _] => True
  | .started :: .completed range :: .read range' :: log => range' = range ∧ ReadOnce log
  | _ => False

end Vl53l0x

end Nsumo.Drivers
