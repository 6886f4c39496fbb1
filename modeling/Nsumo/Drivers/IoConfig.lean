import Nsumo.Drivers.Io

namespace Nsumo.Drivers

open Common Lib

inductive IoSelect : Type
  | gpio
  | alt1
  | alt2
  | alt3
  deriving DecidableEq, Repr

inductive IoResistor : Type
  | disabled
  | enabled
  deriving DecidableEq, Repr

inductive IoDir : Type
  | input
  | output
  deriving DecidableEq, Repr

inductive IoOut : Type
  | low
  | high
  deriving DecidableEq, Repr

structure IoConfig : Type where
  select : IoSelect
  resistor : IoResistor
  dir : IoDir
  out : IoOut
  deriving DecidableEq, Repr

structure PortRegs : Type where
  portDirRegs : IoPort → Byte
  portRenRegs : IoPort → Byte
  portOutRegs : IoPort → Byte
  portSel1Regs : IoPort → Byte
  portSel2Regs : IoPort → Byte

namespace Io

abbrev uartRxd : Io := 1
abbrev uartTxd : Io := 2
abbrev i2cScl : Io := 6
abbrev i2cSda : Io := 7
abbrev xshutFront : Io := 10
abbrev motorsLeftCc2 : Io := 12
abbrev motorsLeftCc1 : Io := 13
abbrev testLed : Io := 14
abbrev motorsRightCc2 : Io := 15
abbrev xshutFrontRight : Io := 16
abbrev xshutRight : Io := 17
abbrev xshutFrontLeft : Io := 18
abbrev xshutLeft : Io := 19
abbrev io34 : Io := 20
abbrev pwmMotorsLeft : Io := 21
abbrev pwmMotorsRight : Io := 22
abbrev motorsRightCc1 : Io := 23

end Io

namespace PortRegs

open Io

def testPin (io : Io) (regs : IoPort → Byte) : Bool := regs (ioPort io) &&& ioPinBit io != 0

def setPin (io : Io) (regs : IoPort → Byte) : IoPort → Byte :=
  Function.update regs (ioPort io) (regs (ioPort io) ||| ioPinBit io)

def clearPin (io : Io) (regs : IoPort → Byte) : IoPort → Byte :=
  Function.update regs (ioPort io) (regs (ioPort io) &&& ~~~ioPinBit io)

def ioSetSelect (io : Io) (select : IoSelect) (regs : PortRegs) : PortRegs :=
  match select with
  | .gpio => { regs with
      portSel1Regs := clearPin io regs.portSel1Regs
      portSel2Regs := clearPin io regs.portSel2Regs }
  | .alt1 => { regs with
      portSel1Regs := setPin io regs.portSel1Regs
      portSel2Regs := clearPin io regs.portSel2Regs }
  | .alt2 => { regs with
      portSel1Regs := clearPin io regs.portSel1Regs
      portSel2Regs := setPin io regs.portSel2Regs }
  | .alt3 => { regs with
      portSel1Regs := setPin io regs.portSel1Regs
      portSel2Regs := setPin io regs.portSel2Regs }

def ioSetDirection (io : Io) (direction : IoDir) (regs : PortRegs) : PortRegs :=
  match direction with
  | .input => { regs with portDirRegs := clearPin io regs.portDirRegs }
  | .output => { regs with portDirRegs := setPin io regs.portDirRegs }

def ioSetResistor (io : Io) (resistor : IoResistor) (regs : PortRegs) : PortRegs :=
  match resistor with
  | .disabled => { regs with portRenRegs := clearPin io regs.portRenRegs }
  | .enabled => { regs with portRenRegs := setPin io regs.portRenRegs }

def ioSetOut (io : Io) (out : IoOut) (regs : PortRegs) : PortRegs :=
  match out with
  | .low => { regs with portOutRegs := clearPin io regs.portOutRegs }
  | .high => { regs with portOutRegs := setPin io regs.portOutRegs }

def ioConfigure (io : Io) (config : IoConfig) (regs : PortRegs) : PortRegs :=
  ioSetResistor io config.resistor
    (ioSetOut io config.out (ioSetDirection io config.dir (ioSetSelect io config.select regs)))

def ioGetCurrentConfig (io : Io) (regs : PortRegs) : IoConfig :=
  let sel1 := if testPin io regs.portSel1Regs then 1 else 0
  let sel2 := if testPin io regs.portSel2Regs then 1 else 0
  { select := .ofNat (sel2 <<< 1 ||| sel1)
    resistor := if testPin io regs.portRenRegs then .enabled else .disabled
    dir := if testPin io regs.portDirRegs then .output else .input
    out := if testPin io regs.portOutRegs then .high else .low }

def outputConfig : IoConfig where
  select := .gpio
  resistor := .disabled
  dir := .output
  out := .low

def inputConfig : IoConfig where
  select := .gpio
  resistor := .disabled
  dir := .input
  out := .low

def ioInitialConfigs (io : Io) : IoConfig :=
  if io ∈ [uartRxd, uartTxd, i2cScl, i2cSda] then
    { outputConfig with select := .alt3 }
  else if io ∈ [pwmMotorsLeft, pwmMotorsRight] then
    { outputConfig with select := .alt1 }
  else if io ∈ [testLed, motorsLeftCc1, motorsLeftCc2, motorsRightCc1, motorsRightCc2, xshutFront,
      xshutFrontLeft, xshutRight, xshutLeft, xshutFrontRight] then
    outputConfig
  else
    inputConfig

/-- The external resistor pulls pin 3.4 up on the board. -/
def ioDetectHwType (port3In : Byte) (regs : PortRegs) : HwType × PortRegs :=
  (if port3In &&& ioPinBit io34 != 0 then .nsumo else .launchpad,
    ioSetOut io34 .low (ioSetResistor io34 .disabled
      (ioSetDirection io34 .input (ioSetSelect io34 .gpio regs))))

def ioConfigureAll (regs : PortRegs) : PortRegs :=
  (List.range 24).foldl
    (fun regs k => ioConfigure (BitVec.ofNat 8 k) (ioInitialConfigs (BitVec.ofNat 8 k)) regs) regs

def ioInit (port3In : Byte) (regs : PortRegs) : Except Assert PortRegs := do
  let (hw, regs) := ioDetectHwType port3In regs
  assert (hw == .nsumo) .ioInit
  return ioConfigureAll regs

def reset : PortRegs where
  portDirRegs _ := 0
  portRenRegs _ := 0
  portOutRegs _ := 0
  portSel1Regs _ := 0
  portSel2Regs _ := 0

end PortRegs

def ioConfigCompare (cfg1 cfg2 : IoConfig) : Bool :=
  cfg1.dir == cfg2.dir && cfg1.out == cfg2.out && cfg1.resistor == cfg2.resistor &&
    cfg1.select == cfg2.select

end Nsumo.Drivers
