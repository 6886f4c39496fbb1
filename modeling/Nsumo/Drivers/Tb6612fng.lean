import Nsumo.Drivers.IoConfig
import Nsumo.Drivers.Pwm

namespace Nsumo.Drivers

open Common

inductive Tb6612fng : Type
  | left
  | right
  deriving DecidableEq, Repr

inductive Tb6612fngMode : Type
  | stop
  | forward
  | reverse
  deriving DecidableEq, Repr

structure CcPins : Type where
  cc1 : Io
  cc2 : Io

def tb6612fngCcPins : Tb6612fng → CcPins
  | .left => { cc1 := Io.motorsLeftCc1, cc2 := Io.motorsLeftCc2 }
  | .right => { cc1 := Io.motorsRightCc1, cc2 := Io.motorsRightCc2 }

def Tb6612fng.pwm : Tb6612fng → Pwm
  | .left => .tb6612fngLeft
  | .right => .tb6612fngRight

structure Motors : Type where
  ports : PortRegs
  pwm : PwmState
  tb6612fngInitialized : Bool
  driveInitialized : Bool

def pwmIoConfig : IoConfig where
  select := .alt1
  resistor := .disabled
  dir := .output
  out := .low

def ccIoConfig : IoConfig where
  select := .gpio
  resistor := .disabled
  dir := .output
  out := .low

namespace Motors

open PortRegs

def tb6612fngSetMode (tb : Tb6612fng) (mode : Tb6612fngMode) (m : Motors) : Motors :=
  let setPins (out1 out2 : IoOut) : Motors :=
    { m with
      ports := ioSetOut (tb6612fngCcPins tb).cc2 out2
        (ioSetOut (tb6612fngCcPins tb).cc1 out1 m.ports) }
  match mode with
  | .stop => setPins .low .low
  | .forward => setPins .high .low
  | .reverse => setPins .low .high

def tb6612fngSetPwm (tb : Tb6612fng) (dutyCycle : Byte) (m : Motors) : Except Assert Motors := do
  let pwm ← m.pwm.pwmSetDutyCycle tb.pwm dutyCycle
  return { m with pwm }

def assertConfig (site : Assert) (config : IoConfig) (m : Motors) (io : Io) : Except Assert Unit :=
  assert (ioConfigCompare (ioGetCurrentConfig io m.ports) config) site

def pwmInit (m : Motors) : Except Assert Motors := do
  assert (!m.pwm.initialized) .pwmInit
  assertConfig .pwmInit pwmIoConfig m Io.pwmMotorsLeft
  assertConfig .pwmInit pwmIoConfig m Io.pwmMotorsRight
  return { m with
    pwm := { m.pwm with
      ta0ctl := PwmState.written (tassel2 + id3 + mc0)
      ta0ccr0 := pwmTa0ccr0
      initialized := true } }

def tb6612fngAssertIoCfg (m : Motors) : Except Assert Unit := do
  assertConfig .tb6612fngAssertIoCfg ccIoConfig m Io.motorsLeftCc1
  assertConfig .tb6612fngAssertIoCfg ccIoConfig m Io.motorsLeftCc2
  assertConfig .tb6612fngAssertIoCfg ccIoConfig m Io.motorsRightCc1
  assertConfig .tb6612fngAssertIoCfg ccIoConfig m Io.motorsRightCc2

def tb6612fngInit (m : Motors) : Except Assert Motors := do
  assert (!m.tb6612fngInitialized) .tb6612fngInit
  tb6612fngAssertIoCfg m
  let m ← pwmInit m
  return { m with tb6612fngInitialized := true }

def reset (ports : PortRegs) : Motors where
  ports := ports
  pwm := PwmState.reset
  tb6612fngInitialized := false
  driveInitialized := false

end Motors

end Nsumo.Drivers
