import Nsumo.Drivers.Vl53l0x
import Nsumo.Lib.Registers

namespace Nsumo.Drivers

open Common Lib

namespace Vl53l0x

def regDynamicSpadRefEnStartOffset : Byte := 0x4F
def regDynamicSpadNumRequestedRefSpad : Byte := 0x4E
def regGlobalConfigRefEnStartSelect : Byte := 0xB6
def regGlobalConfigSpadEnablesRef0 : Byte := 0xB0

def spadTypeAperture : Nat := 0x01
def spadStartSelect : Byte := 0xB4
def spadMaxCount : Nat := 44
def spadMapRowCount : Nat := 6
def spadRowSize : Nat := 8
def spadApertureStartIndex : Nat := 12

structure SpadInfo : Type where
  spadCount : Nat
  spadType : Nat
  goodSpadMap : List Byte

structure SpadSelection : Type where
  spadMap : List Byte
  spadsEnabledCount : Nat
  deriving DecidableEq

/-- The number of an I2C result, which `vl53l0x_get_spad_info_from_nvm` returns as its own.  An
assertion returns nothing. -/
def i2cResult : I2cError → Vl53l0xResult
  | .start => .errorI2c
  | .tx => .errorBoot
  | .rx => .errorSpad
  | .stop => .errorMeasureOngoing
  | .timeout | .assert => .unnamed

def nvmSetupRegs : List (Byte × Byte) :=
  [(0x80, 0x01), (0xFF, 0x01), (0x00, 0x00), (0xFF, 0x06), (0xFF, 0x07), (0x81, 0x01),
    (0x80, 0x01)]

def nvmRestoreRegs : List (Byte × Byte) :=
  [(0x81, 0x00), (0xFF, 0x06), (0xFF, 0x01), (0x00, 0x01), (0xFF, 0x00), (0x80, 0x00)]

def spadRegs : List (Byte × Byte) :=
  [(0xFF, 0x01), (regDynamicSpadRefEnStartOffset, 0x00),
    (regDynamicSpadNumRequestedRefSpad, 0x2C), (0xFF, 0x00),
    (regGlobalConfigRefEnStartSelect, spadStartSelect)]

section

variable {δ : Type} (bus : Bus δ)

def i2cWriteBytes (addr : Byte) (data : List Byte) : Driver δ (Option I2cError) := do
  elapse bus
  modifyGet fun s =>
    ((bus.write addr data s.dev).1, { s with dev := (bus.write addr data s.dev).2 })

/-- The least significant byte is the first in memory. -/
def i2cReadAddr8Data32 (addr : Byte) : Driver δ (Option I2cError × BitVec 32) := do
  let (error, data) ← i2cReadBytes bus addr [0, 0, 0, 0]
  return (error, data.getD 3 0 ++ data.getD 2 0 ++ data.getD 1 0 ++ data.getD 0 0)

def vl53l0xReadStrobe (fuel : Nat) : Driver δ Unit := do
  check (← i2cWriteAddr8Data8 bus 0x83 0x00)
  pollRegister bus 0x83 (fun strobe => strobe == 0) fuel
  check (← i2cWriteAddr8Data8 bus 0x83 0x01)

/-- Read register 0x83 and write it back with some of its bits changed. -/
def updateStrobe (f : Byte → Byte) : Driver δ Unit := do
  let (error, tmpData8) ← i2cReadAddr8Data8 bus 0x83
  check error
  check (← i2cWriteAddr8Data8 bus 0x83 (f tmpData8))

def vl53l0xGetSpadInfoFromNvm (fuel : Nat) : Driver δ SpadInfo := do
  vl53l0xWrite8regs bus (nvmSetupRegs.take 4)
  updateStrobe bus (· ||| 0x04)
  vl53l0xWrite8regs bus (nvmSetupRegs.drop 4)
  check (← i2cWriteAddr8Data8 bus 0x94 0x6B)
  vl53l0xReadStrobe bus fuel
  let (error, tmpData32) ← i2cReadAddr8Data32 bus 0x90
  check error
  vl53l0xWrite8regs bus (nvmRestoreRegs.take 2)
  updateStrobe bus (· &&& 0xFB)
  vl53l0xWrite8regs bus (nvmRestoreRegs.drop 2)
  let (error, goodSpadMap) ←
    i2cReadBytes bus regGlobalConfigSpadEnablesRef0 (List.replicate spadMapRowCount 0)
  match error with
  | some error => throw (.result (i2cResult error))
  | none => return {
      spadCount := ((tmpData32 >>> 8) &&& 0x7F).toNat
      spadType := ((tmpData32 >>> 15) &&& 0x01).toNat
      goodSpadMap }

end

def selectColumns (good : List Byte) (count offset row : Nat) :
    (columns : List Nat) → SpadSelection → Option SpadSelection
  | [], s => some s
  | column :: columns, s =>
    let index := row * spadRowSize + column
    if spadMaxCount ≤ index then
      none
    else if s.spadsEnabledCount = count then
      some s
    else if index < offset then
      selectColumns good count offset row columns s
    else if (good.getD row 0 >>> column) &&& 0x01 ≠ 0 then
      selectColumns good count offset row columns
        { spadMap := s.spadMap.modify row (· ||| 1#8 <<< column)
          spadsEnabledCount := s.spadsEnabledCount + 1 }
    else
      selectColumns good count offset row columns s

def selectRows (good : List Byte) (count offset : Nat) :
    (rows : List Nat) → SpadSelection → Option SpadSelection
  | [], s => some s
  | row :: rows, s =>
    match selectColumns good count offset row (List.range spadRowSize) s with
    | none => none
    | some s =>
      if s.spadsEnabledCount = count then some s else selectRows good count offset rows s

def selectSpads (info : SpadInfo) : Option SpadSelection :=
  let offset := if info.spadType = spadTypeAperture then spadApertureStartIndex else 0
  selectRows info.goodSpadMap info.spadCount offset (List.range spadMapRowCount)
    { spadMap := List.replicate spadMapRowCount 0, spadsEnabledCount := 0 }

def vl53l0xSetSpadsFromNvm {δ : Type} (bus : Bus δ) (fuel : Nat) : Driver δ Unit := do
  let info ← vl53l0xGetSpadInfoFromNvm bus fuel
  vl53l0xWrite8regs bus spadRegs
  match selectSpads info with
  | none => throw (.result .errorSpad)
  | some selection =>
    if selection.spadsEnabledCount ≠ info.spadCount then
      throw (.result .errorSpad)
    else
      check (← i2cWriteBytes bus regGlobalConfigSpadEnablesRef0 selection.spadMap)

/-- How a transfer ends, and the registers whose content is not modelled. -/
structure SpadOutcome : Type where
  error : Option I2cError
  values : Byte → Byte

structure SpadDevice : Type where
  registers : Byte → Byte
  nvm : BitVec 32
  outcomes : Nat → SpadOutcome

namespace SpadDevice

def isSpadEnable (reg : Byte) : Bool := 0xB0 ≤ reg && reg ≤ 0xB5

def value (d : SpadDevice) (values : Byte → Byte) (reg : Byte) : Byte :=
  if isSpadEnable reg then
    d.registers reg
  else if 0x90 ≤ reg && reg ≤ 0x93 then
    d.nvm.extractLsb' (8 * (0x93 - reg).toNat) 8
  else
    values reg

def next (d : SpadDevice) : SpadDevice := { d with outcomes := fun k => d.outcomes (k + 1) }

/-- The registers auto-increment, and a transfer that fails changes none of them. -/
def bus : Bus SpadDevice where
  elapse d := (false, d)
  setSlaveAddress _ d := d
  write reg data d :=
    match (d.outcomes 0).error with
    | none => (none, { d.next with registers := Registers.store reg data d.registers })
    | some error => (some error, d.next)
  read reg data d :=
    match (d.outcomes 0).error with
    | none =>
      (none, (Registers.load (d.value (d.outcomes 0).values) reg data.length).reverse, d.next)
    | some error => (some error, data, d.next)

def spadEnables (d : SpadDevice) : List Byte :=
  Registers.load d.registers regGlobalConfigSpadEnablesRef0 spadMapRowCount

def spadCount (d : SpadDevice) : Nat := ((d.nvm >>> 8) &&& 0x7F).toNat

def spadType (d : SpadDevice) : Nat := ((d.nvm >>> 15) &&& 0x01).toNat

end SpadDevice

end Vl53l0x

end Nsumo.Drivers
