import Nsumo.Drivers.I2c

namespace Nsumo.Drivers

open Common

inductive Vl53l0xIdx : Type
  | front
  | left
  | right
  | frontLeft
  | frontRight
  deriving DecidableEq, Repr

/-- The results other than `VL53L0X_RESULT_OK`, and a value without a name. -/
inductive Vl53l0xResult : Type
  | errorI2c
  | errorBoot
  | errorSpad
  | errorMeasureOngoing
  | unnamed
  deriving DecidableEq, Repr

/-- Why a function does not go on: it returns an error, an assertion fails, or one of its loops is
still running when the fuel is used up. -/
inductive Vl53l0xStop : Type
  | result (r : Vl53l0xResult)
  | assert
  | fuel
  deriving DecidableEq, Repr

inductive StatusMultiple : Type
  | notStarted
  | measuring
  | done
  deriving DecidableEq, Repr

structure Vl53l0xRanges : Type where
  ranges : Vl53l0xIdx → Nat
  freshValues : Bool

/-- The I2C bus with the devices on it, and the interrupt line of the front sensor. -/
structure Bus (δ : Type) : Type where
  elapse : δ → Bool × δ
  setSlaveAddress : Byte → δ → δ
  write : Byte → List Byte → δ → Option I2cError × δ
  /-- The second argument is the destination before the transfer. -/
  read : Byte → List Byte → δ → Option I2cError × List Byte × δ

structure Vl53l0x (δ : Type) : Type where
  stopVariable : Byte
  statusMultiple : StatusMultiple
  initialized : Bool
  latestRanges : Vl53l0xIdx → Nat
  dev : δ

namespace Vl53l0x

variable {δ : Type}

abbrev Driver (δ α : Type) := EStateM Vl53l0xStop (Vl53l0x δ) α

def regSystemInterruptClear : Byte := 0x0B
def regResultInterruptStatus : Byte := 0x13
def regSysrangeStart : Byte := 0x00
def regResultRangeStatus : Byte := 0x14

def vl53l0xOutOfRange : Nat := 8190

def vl53l0xCfgs : Vl53l0xIdx → Byte
  | .front => 0x30
  | .left => 0x31
  | .right => 0x32
  | .frontRight => 0x33
  | .frontLeft => 0x34

def vl53l0xAssert (expression : Bool) : Driver δ Unit :=
  if expression then return () else throw .assert

def frontMeasurementDoneIsr (s : Vl53l0x δ) : Vl53l0x δ := { s with statusMultiple := .done }

section

variable (bus : Bus δ)

/-- Let the sensors and the interrupt go on; every access does so first. -/
def elapse : Driver δ Unit := modify fun s =>
  let t := { s with dev := (bus.elapse s.dev).2 }
  if (bus.elapse s.dev).1 then frontMeasurementDoneIsr t else t

def getStatusMultiple : Driver δ StatusMultiple := do
  elapse bus
  return (← get).statusMultiple

def setStatusMultiple (status : StatusMultiple) : Driver δ Unit := do
  elapse bus
  modify fun s => { s with statusMultiple := status }

def i2cSetSlaveAddress (addr : Byte) : Driver δ Unit :=
  modify fun s => { s with dev := bus.setSlaveAddress addr s.dev }

def i2cWriteAddr8Data8 (addr data : Byte) : Driver δ (Option I2cError) := do
  elapse bus
  modifyGet fun s =>
    ((bus.write addr [data] s.dev).1, { s with dev := (bus.write addr [data] s.dev).2 })

def i2cReadBytes (addr : Byte) (data : List Byte) : Driver δ (Option I2cError × List Byte) := do
  elapse bus
  modifyGet fun s =>
    (((bus.read addr data s.dev).1, (bus.read addr data s.dev).2.1),
      { s with dev := (bus.read addr data s.dev).2.2 })

def i2cReadAddr8Data8 (addr : Byte) : Driver δ (Option I2cError × Byte) := do
  let (error, data) ← i2cReadBytes bus addr [0]
  return (error, data.headD 0)

/-- The least significant byte is the first in memory. -/
def i2cReadAddr8Data16 (addr : Byte) (data : Nat) : Driver δ (Option I2cError × Nat) := do
  let (error, data) ← i2cReadBytes bus addr [BitVec.ofNat 8 data, BitVec.ofNat 8 (data / 256)]
  return (error, (data.headD 0).toNat + 256 * (data.tail.headD 0).toNat)

/-- `if (result) return VL53L0X_RESULT_ERROR_I2C`. -/
def check : Option I2cError → Driver δ Unit
  | none => return ()
  | some _ => throw (.result .errorI2c)

def vl53l0xWrite8regs : List (Byte × Byte) → Driver δ Unit
  | [] => return ()
  | (addr, data) :: regs => do
    check (← i2cWriteAddr8Data8 bus addr data)
    vl53l0xWrite8regs regs

/-- The loops that read a register while `again` holds of its value. -/
def pollRegister (addr : Byte) (again : Byte → Bool) : (fuel : Nat) → Driver δ Unit
  | 0 => throw .fuel
  | fuel + 1 => do
    let (error, data) ← i2cReadAddr8Data8 bus addr
    check error
    if again data then pollRegister addr again fuel else return ()

def sysrangeRegs : List (Byte × Byte) :=
  [(0x80, 0x01), (0xFF, 0x01), (0x00, 0x00), (0x00, 0x01), (0xFF, 0x00), (0x80, 0x00)]

def vl53l0xStartSysrange (fuel : Nat) (idx : Vl53l0xIdx) : Driver δ Unit := do
  i2cSetSlaveAddress bus (vl53l0xCfgs idx)
  vl53l0xWrite8regs bus (sysrangeRegs.take 3)
  let stopVariable := (← get).stopVariable
  check (← i2cWriteAddr8Data8 bus 0x91 stopVariable)
  vl53l0xWrite8regs bus (sysrangeRegs.drop 3)
  check (← i2cWriteAddr8Data8 bus regSysrangeStart 0x01)
  pollRegister bus regSysrangeStart (fun sysrangeStart => sysrangeStart &&& 0x01 != 0) fuel

def vl53l0xClearSysrangeInterrupt : Driver δ Unit := do
  check (← i2cWriteAddr8Data8 bus regSystemInterruptClear 0x01)

def vl53l0xPollwaitSysrange (fuel : Nat) : Driver δ Unit :=
  pollRegister bus regResultInterruptStatus
    (fun interruptStatus => interruptStatus &&& 0x07 == 0) fuel

def vl53l0xIsSysrangeDone (idx : Vl53l0xIdx) : Driver δ Bool :=
  if idx ≠ .frontLeft ∧ idx ≠ .front ∧ idx ≠ .frontRight then
    return true
  else do
    i2cSetSlaveAddress bus (vl53l0xCfgs idx)
    let (error, interruptStatus) ← i2cReadAddr8Data8 bus regResultInterruptStatus
    return error == none && interruptStatus &&& 0x07 != 0

def setLatestRange (idx : Vl53l0xIdx) (range : Nat) : Driver δ Unit := modify fun s =>
  { s with latestRanges := fun i => if i = idx then range else s.latestRanges i }

def vl53l0xReadRange (fuel : Nat) (idx : Vl53l0xIdx) : Driver δ Unit := do
  i2cSetSlaveAddress bus (vl53l0xCfgs idx)
  vl53l0xPollwaitSysrange bus fuel
  let (error, range) ←
    i2cReadAddr8Data16 bus (regResultRangeStatus + 10) ((← get).latestRanges idx)
  setLatestRange idx range
  check error
  check (← i2cWriteAddr8Data8 bus regSystemInterruptClear 0x01)
  -- 8190 or 8191 may be returned when obstacle is out of range
  setLatestRange idx (if range = 8190 ∨ range = 8191 then vl53l0xOutOfRange else range)
  vl53l0xClearSysrangeInterrupt bus

def vl53l0xStartMeasuringMultiple (fuel : Nat) : Driver δ Unit := do
  vl53l0xAssert (← get).initialized
  let status ← getStatusMultiple bus
  if status = .measuring then
    throw (.result .errorMeasureOngoing)
  else do
    setStatusMultiple bus .measuring
    vl53l0xStartSysrange bus fuel .front
    vl53l0xStartSysrange bus fuel .frontLeft
    vl53l0xStartSysrange bus fuel .frontRight

def waitDone : (fuel : Nat) → Driver δ Unit
  | 0 => throw .fuel
  | fuel + 1 => do
    let status ← getStatusMultiple bus
    if status ≠ .done then waitDone fuel else return ()

def startIfNotStarted (fuel : Nat) : Driver δ Unit := do
  let status ← getStatusMultiple bus
  if status = .notStarted then do
    vl53l0xStartMeasuringMultiple bus fuel
    waitDone bus fuel
  else
    return ()

/-- A conjunction of `vl53l0x_is_sysrange_done`, which stops at the first that is false. -/
def areSysrangesDone : List Vl53l0xIdx → Driver δ Bool
  | [] => return true
  | idx :: rest => do
    let done ← vl53l0xIsSysrangeDone bus idx
    if done then areSysrangesDone rest else return false

def isMultipleDone : Driver δ Bool := do
  let status ← getStatusMultiple bus
  if status = .done then
    areSysrangesDone bus [.left, .right, .frontLeft, .frontRight]
  else
    return false

def readSensors (fuel : Nat) : Driver δ Unit := do
  let done ← vl53l0xIsSysrangeDone bus .front
  vl53l0xAssert done
  vl53l0xReadRange bus fuel .front
  vl53l0xReadRange bus fuel .frontLeft
  vl53l0xReadRange bus fuel .frontRight
  vl53l0xStartMeasuringMultiple bus fuel

def vl53l0xReadRangeMultiple (fuel : Nat) : Driver δ Vl53l0xRanges := do
  vl53l0xAssert (← get).initialized
  startIfNotStarted bus fuel
  let done ← isMultipleDone bus
  if done then do
    readSensors bus fuel
    return ⟨(← get).latestRanges, true⟩
  else
    return ⟨(← get).latestRanges, false⟩

end

end Vl53l0x

end Nsumo.Drivers
