import Nsumo.Drivers.IoConfig
import Nsumo.Drivers.PinInterrupts
import Nsumo.Drivers.Vl53l0xSpad

/-! The initialisation of the sensors, on the NSUMO build. -/

namespace Nsumo.Drivers

open Common Lib

/-- What the drivers reach of the board besides the bus. -/
structure Board (δ : Type) : Type where
  ports : δ → PortRegs
  setPorts : PortRegs → δ → δ
  interrupts : δ → IoRegs PinIsr
  setInterrupts : IoRegs PinIsr → δ → δ
  i2cInitialized : δ → Bool
  setI2cInitialized : δ → δ

structure BoardState : Type where
  ports : PortRegs
  interrupts : IoRegs PinIsr
  i2cInitialized : Bool

namespace BoardState

def board : Board BoardState where
  ports := ports
  setPorts ports b := { b with ports }
  interrupts := interrupts
  setInterrupts interrupts b := { b with interrupts }
  i2cInitialized := i2cInitialized
  setI2cInitialized b := { b with i2cInitialized := true }

def boot : BoardState where
  ports := PortRegs.ioConfigureAll PortRegs.reset
  interrupts := IoRegs.reset
  i2cInitialized := false

end BoardState

namespace Vl53l0x

open PortRegs IoRegs

def regIdentificationModelId : Byte := 0xC0
def regVhvConfigPadSclSdaExtsupHv : Byte := 0x89
def regSystemSequenceConfig : Byte := 0x01
def regSystemInterruptConfigGpio : Byte := 0x0A
def regGpioHvMuxActiveHigh : Byte := 0x84
def regSlaveDeviceAddress : Byte := 0x8A

def rangeSequenceStepDss : Byte := 0x28
def rangeSequenceStepPreRange : Byte := 0x40
def rangeSequenceStepFinalRange : Byte := 0x80

def vl53l0xExpectedDeviceId : Byte := 0xEE
def vl53l0xDefaultAddress : Byte := 0x29
def defaultSlaveAddress : Byte := 0x29

inductive Vl53l0xCalibrationType : Type
  | vhv
  | phase
  deriving DecidableEq, Repr

def xshutIo : Vl53l0xIdx → Io
  | .front => Io.xshutFront
  | .left => Io.xshutLeft
  | .right => Io.xshutRight
  | .frontRight => Io.xshutFrontRight
  | .frontLeft => Io.xshutFrontLeft

def dataRegs1 : List (Byte × Byte) := [(0x80, 0x01), (0xFF, 0x01), (0x00, 0x00)]

def dataRegs2 : List (Byte × Byte) := [(0x00, 0x01), (0xFF, 0x00), (0x80, 0x00)]

def defaultTuningRegs : List (Byte × Byte) :=
  [(0xFF, 0x01), (0x00, 0x00), (0xFF, 0x00), (0x09, 0x00), (0x10, 0x00), (0x11, 0x00),
    (0x24, 0x01), (0x25, 0xFF), (0x75, 0x00), (0xFF, 0x01), (0x4E, 0x2C), (0x48, 0x00),
    (0x30, 0x20), (0xFF, 0x00), (0x30, 0x09), (0x54, 0x00), (0x31, 0x04), (0x32, 0x03),
    (0x40, 0x83), (0x46, 0x25), (0x60, 0x00), (0x27, 0x00), (0x50, 0x06), (0x51, 0x00),
    (0x52, 0x96), (0x56, 0x08), (0x57, 0x30), (0x61, 0x00), (0x62, 0x00), (0x64, 0x00),
    (0x65, 0x00), (0x66, 0xA0), (0xFF, 0x01), (0x22, 0x32), (0x47, 0x14), (0x49, 0xFF),
    (0x4A, 0x00), (0xFF, 0x00), (0x7A, 0x0A), (0x7B, 0x00), (0x78, 0x21), (0xFF, 0x01),
    (0x23, 0x34), (0x42, 0x00), (0x44, 0xFF), (0x45, 0x26), (0x46, 0x05), (0x40, 0x40),
    (0x0E, 0x06), (0x20, 0x1A), (0x43, 0x40), (0xFF, 0x00), (0x34, 0x03), (0x35, 0x44),
    (0xFF, 0x01), (0x31, 0x04), (0x4B, 0x09), (0x4C, 0x05), (0x4D, 0x04), (0xFF, 0x00),
    (0x44, 0x00), (0x45, 0x20), (0x47, 0x08), (0x48, 0x28), (0x67, 0x00), (0x70, 0x04),
    (0x71, 0x01), (0x72, 0xFE), (0x76, 0x00), (0x77, 0x00), (0xFF, 0x01), (0x0D, 0x01),
    (0xFF, 0x00), (0x80, 0x01), (0x01, 0xF8), (0xFF, 0x01), (0x8E, 0x01), (0x00, 0x01),
    (0xFF, 0x00), (0x80, 0x00)]

def i2cConfig : IoConfig where
  select := .alt3
  resistor := .disabled
  dir := .output
  out := .low

def frontInterruptConfig : IoConfig where
  select := .gpio
  resistor := .disabled
  dir := .input
  out := .low

def xshutConfig : IoConfig where
  select := .gpio
  resistor := .disabled
  dir := .output
  out := .low

section

variable {δ : Type} (bus : Bus δ) (board : Board δ)

def deviceIsBooted : Driver δ Unit := do
  let (error, deviceId) ← i2cReadAddr8Data8 bus regIdentificationModelId
  check error
  if deviceId = vl53l0xExpectedDeviceId then return () else throw (.result .errorBoot)

def setStopVariable (stopVariable : Byte) : Driver δ Unit :=
  modify fun s => { s with stopVariable }

def vl53l0xDataInit : Driver δ Unit := do
  let (error, vhvConfigSclSda) ← i2cReadAddr8Data8 bus regVhvConfigPadSclSdaExtsupHv
  check error
  check (← i2cWriteAddr8Data8 bus regVhvConfigPadSclSdaExtsupHv (vhvConfigSclSda ||| 0x01))
  check (← i2cWriteAddr8Data8 bus 0x88 0x00)
  vl53l0xWrite8regs bus dataRegs1
  let stopVariable := (← get).stopVariable
  let (error, data) ← i2cReadBytes bus 0x91 [stopVariable]
  setStopVariable (data.headD stopVariable)
  check error
  vl53l0xWrite8regs bus dataRegs2

def vl53l0xLoadDefaultTuningSettings : Driver δ Unit := vl53l0xWrite8regs bus defaultTuningRegs

def vl53l0xConfigureInterrupt : Driver δ Unit := do
  check (← i2cWriteAddr8Data8 bus regSystemInterruptConfigGpio 0x04)
  let (error, gpioHvMuxActiveHigh) ← i2cReadAddr8Data8 bus regGpioHvMuxActiveHigh
  check error
  check (← i2cWriteAddr8Data8 bus regGpioHvMuxActiveHigh (gpioHvMuxActiveHigh &&& ~~~0x10))
  check (← i2cWriteAddr8Data8 bus regSystemInterruptClear 0x01)

def assertConfig (config : IoConfig) (io : Io) : Driver δ Unit := do
  let s ← get
  vl53l0xAssert (ioConfigCompare config (ioGetCurrentConfig io (board.ports s.dev)))

def setInterrupts (regs : IoRegs PinIsr) : Driver δ Unit :=
  modify fun s => { s with dev := board.setInterrupts regs s.dev }

def vl53l0xConfigureFrontSensorInterrupt : Driver δ Unit := do
  let io := Io.rangeSensorFrontInt .nsumo
  assertConfig board frontInterruptConfig io
  let s ← get
  match ioConfigureInterrupt io .falling .frontMeasurementDone (board.interrupts s.dev) with
  | .error _ => throw .assert
  | .ok regs => setInterrupts board (ioEnableInterrupt io regs)

def vl53l0xSetSequenceStepsEnabled (sequenceStep : Byte) : Driver δ Unit := do
  check (← i2cWriteAddr8Data8 bus regSystemSequenceConfig sequenceStep)

def enabledSteps : Byte :=
  rangeSequenceStepDss + rangeSequenceStepPreRange + rangeSequenceStepFinalRange

def vl53l0xStaticInit (fuel : Nat) : Driver δ Unit := do
  vl53l0xSetSpadsFromNvm bus fuel
  vl53l0xLoadDefaultTuningSettings bus
  vl53l0xConfigureInterrupt bus
  vl53l0xSetSequenceStepsEnabled bus enabledSteps

def sequenceConfig : Vl53l0xCalibrationType → Byte
  | .vhv => 0x01
  | .phase => 0x02

def sysrangeStart : Vl53l0xCalibrationType → Byte
  | .vhv => 0x01 ||| 0x40
  | .phase => 0x01 ||| 0x00

def vl53l0xPerformSingleRefCalibration (fuel : Nat) (calibType : Vl53l0xCalibrationType) :
    Driver δ Unit := do
  check (← i2cWriteAddr8Data8 bus regSystemSequenceConfig (sequenceConfig calibType))
  check (← i2cWriteAddr8Data8 bus regSysrangeStart (sysrangeStart calibType))
  pollRegister bus regResultInterruptStatus
    (fun interruptStatus => interruptStatus &&& 0x07 == 0) fuel
  check (← i2cWriteAddr8Data8 bus regSystemInterruptClear 0x01)
  check (← i2cWriteAddr8Data8 bus regSysrangeStart 0x00)

def vl53l0xPerformRefCalibration (fuel : Nat) : Driver δ Unit := do
  vl53l0xPerformSingleRefCalibration bus fuel .vhv
  vl53l0xPerformSingleRefCalibration bus fuel .phase
  vl53l0xSetSequenceStepsEnabled bus enabledSteps

def vl53l0xConfigureAddress (addr : Byte) : Driver δ Unit := do
  check (← i2cWriteAddr8Data8 bus regSlaveDeviceAddress (addr &&& 0x7F))

def vl53l0xSetHardwareStandby (idx : Vl53l0xIdx) (enable : Bool) : Driver δ Unit :=
  modify fun s => { s with
    dev := board.setPorts
      (ioSetOut (xshutIo idx) (if enable then .low else .high) (board.ports s.dev)) s.dev }

def vl53l0xAssertXshutPins : Driver δ Unit := do
  assertConfig board xshutConfig Io.xshutFront
  assertConfig board xshutConfig Io.xshutFrontLeft
  assertConfig board xshutConfig Io.xshutFrontRight
  assertConfig board xshutConfig Io.xshutLeft
  assertConfig board xshutConfig Io.xshutRight

def vl53l0xInitAddress (idx : Vl53l0xIdx) : Driver δ Unit := do
  vl53l0xSetHardwareStandby board idx false
  i2cSetSlaveAddress bus vl53l0xDefaultAddress
  deviceIsBooted bus
  vl53l0xConfigureAddress bus (vl53l0xCfgs idx)

def vl53l0xInitAddresses : Driver δ Unit := do
  vl53l0xAssertXshutPins board
  vl53l0xInitAddress bus board .front
  vl53l0xInitAddress bus board .left
  vl53l0xInitAddress bus board .right
  vl53l0xInitAddress bus board .frontLeft
  vl53l0xInitAddress bus board .frontRight

def vl53l0xInitConfig (fuel : Nat) (idx : Vl53l0xIdx) : Driver δ Unit := do
  i2cSetSlaveAddress bus (vl53l0xCfgs idx)
  vl53l0xDataInit bus
  vl53l0xStaticInit bus fuel
  vl53l0xPerformRefCalibration bus fuel
  if idx = .front then vl53l0xConfigureFrontSensorInterrupt board else return ()

/-- The configuration of the peripheral is left to the bus. -/
def i2cInit : Driver δ Unit := do
  let s ← get
  vl53l0xAssert (!board.i2cInitialized s.dev)
  assertConfig board i2cConfig Io.i2cScl
  assertConfig board i2cConfig Io.i2cSda
  i2cSetSlaveAddress bus defaultSlaveAddress
  modify fun s => { s with dev := board.setI2cInitialized s.dev }

def setInitialized : Driver δ Unit := modify fun s => { s with initialized := true }

def vl53l0xInit (fuel : Nat) : Driver δ Unit := do
  vl53l0xAssert (!(← get).initialized)
  i2cInit bus board
  vl53l0xInitAddresses bus board
  vl53l0xInitConfig bus board fuel .front
  vl53l0xInitConfig bus board fuel .left
  vl53l0xInitConfig bus board fuel .right
  vl53l0xInitConfig bus board fuel .frontLeft
  vl53l0xInitConfig bus board fuel .frontRight
  setInitialized

end

end Vl53l0x

end Nsumo.Drivers
