import Nsumo.Drivers.Vl53l0xSensors

namespace Nsumo.Drivers

open Common

namespace I2c

/-- `UCB0TXBUF`: the bytes that have left it, and the one that is still in it. -/
structure TxBuffer : Type where
  sent : List Byte
  pending : Option Byte

/-- A byte has left when its flag is read as set, and it counts if it is not refused.  Until then
the next byte overwrites it. -/
def TxBuffer.access (buffer : TxBuffer) : I2cAccess → TxBuffer
  | .txBuf byte => { buffer with pending := some byte }
  | .waited .ucb0TxIfg true error =>
    if error = some .tx then
      { buffer with pending := none }
    else
      { sent := buffer.sent ++ buffer.pending.toList, pending := none }
  | _ => buffer

def txBuffer (trace : List I2cAccess) : TxBuffer := trace.foldl TxBuffer.access ⟨[], none⟩

def sent (trace : List I2cAccess) : List Byte := (txBuffer trace).sent

def unseen : I2cAccess → Bool
  | .waited .ucb0TxIfg false none | .waited .ucb0RxIfg false none => true
  | _ => false

structure Made : Type where
  error : Option I2cError
  trace : List I2cAccess

def ended : EStateM.Result I2cError I2c Unit → Option I2cError × I2c
  | .ok _ t => (none, t)
  | .error error t => (some error, t)

/-- The transfer has seen the flag of every byte before it went on, and it has failed, if at all,
before the device got more than the register's address. -/
def Made.Reliable (made : Made) : Prop :=
  (∀ a ∈ made.trace, unseen a = false) ∧ (made.error ≠ none → (sent made.trace).length ≤ 1)

instance (made : Made) : Decidable made.Reliable := inferInstanceAs (Decidable (_ ∧ _))

end I2c

namespace Vl53l0x

/-- The first byte of a transfer selects the register. -/
def Sensor.obey : List Byte → Sensor → Sensor
  | [], s => s
  | reg :: data, s => s.writeBytes reg data

structure Mastered : Type where
  sensors : Sensors
  waits : Nat → Nat → I2cWait
  values : Nat → Byte → Byte
  /-- What the transfers to come store if they do not wait for the flags of their bytes. -/
  stale : Nat → Nat → Byte
  made : List I2c.Made

namespace Mastered

def master (rxBuf : Nat → Byte) (data : List Byte) (d : Mastered) : I2c where
  waits := d.waits 0
  rxBuf := rxBuf
  data := data
  trace := []

def next (d : Mastered) : Mastered := { d with
  waits := fun k => d.waits (k + 1)
  values := fun k => d.values (k + 1)
  stale := fun k => d.stale (k + 1) }

def fail (d : Mastered) : Mastered :=
  { d.next with sensors.failed := d.sensors.failed ++ [d.sensors.sensor] }

def after (error : Option I2cError) (trace : List I2cAccess) (d : Mastered) : Mastered :=
  { if error.isSome then d.fail else d.next with made := d.made ++ [⟨error, trace⟩] }

/-- The sensor obeys the bytes that it has got, whether or not the transfer succeeds. -/
def write (reg : Byte) (data : List Byte) (d : Mastered) : Option I2cError × Mastered :=
  match Sensors.addressee d.sensors.slaveAddress with
  | none => (some .start, d.fail)
  | some idx =>
    let (error, t) := I2c.ended (I2c.i2cWrite [reg] data (d.master (fun _ => 0) []))
    (error, { d.after error t.trace with
      sensors.sensor := Function.update d.sensors.sensor idx
        ((d.sensors.sensor idx).obey (I2c.sent t.trace)) })

/-- The sensor sends its registers from the addressed one on.  If the transfer went on without one
of the flags, the address or a byte may not have come through, and it stores anything. -/
def read (reg : Byte) (data : List Byte) (d : Mastered) : Option I2cError × List Byte × Mastered :=
  match Sensors.addressee d.sensors.slaveAddress with
  | none => (some .start, data, d.fail)
  | some idx =>
    let regs := (d.sensors.sensor idx).read (d.values 0)
    let answers := fun k => regs (reg + BitVec.ofNat 8 k)
    let (error, t) := I2c.ended (I2c.i2cRead [reg] data.length (d.master answers data))
    let stored :=
      if ∀ a ∈ t.trace, I2c.unseen a = false then t.data
      else (List.range data.length).map (d.stale 0)
    (error, stored, d.after error t.trace)

def bus : Bus Mastered where
  elapse d := (d.sensors.elapse.1, { d with sensors := d.sensors.elapse.2 })
  setSlaveAddress addr d := { d with sensors.slaveAddress := addr }
  write := write
  read := read

end Mastered

end Vl53l0x

end Nsumo.Drivers
