import Nsumo.Drivers.Vl53l0x

namespace Nsumo.Drivers

open Common

namespace Vl53l0x

inductive BusEvent : Type
  | elapsed (interrupt : Bool)
  | written (reg : Byte) (data : List Byte) (error : Option I2cError)
  | read (reg : Byte) (error : Option I2cError)
  deriving DecidableEq

def BusEvent.error : BusEvent → Option I2cError
  | .elapsed _ => none
  | .written _ _ error | .read _ error => error

structure Logged (δ : Type) : Type where
  dev : δ
  log : List BusEvent

def logged {δ : Type} (s : Vl53l0x δ) : Vl53l0x (Logged δ) where
  stopVariable := s.stopVariable
  statusMultiple := s.statusMultiple
  initialized := s.initialized
  latestRanges := s.latestRanges
  dev := { dev := s.dev, log := [] }

namespace Logged

variable {δ : Type}

def bus (bus : Bus δ) : Bus (Logged δ) where
  elapse d := ((bus.elapse d.dev).1,
    { dev := (bus.elapse d.dev).2, log := d.log ++ [.elapsed (bus.elapse d.dev).1] })
  setSlaveAddress addr d := { d with dev := bus.setSlaveAddress addr d.dev }
  write reg data d := ((bus.write reg data d.dev).1, {
    dev := (bus.write reg data d.dev).2
    log := d.log ++ [.written reg data (bus.write reg data d.dev).1] })
  read reg data d := ((bus.read reg data d.dev).1, (bus.read reg data d.dev).2.1, {
    dev := (bus.read reg data d.dev).2.2
    log := d.log ++ [.read reg (bus.read reg data d.dev).1] })

end Logged

def reported {δ α : Type} (run : EStateM.Result Vl53l0xStop (Vl53l0x (Logged δ)) α) :
    Option Vl53l0xStop × Option BusEvent :=
  match run with
  | .ok _ t => (none, t.dev.log.getLast?)
  | .error stop t => (some stop, t.dev.log.getLast?)

end Vl53l0x

end Nsumo.Drivers
