import Nsumo.Common.Assert
import Nsumo.Lib.Mask
import Mathlib.Logic.Function.Basic

namespace Nsumo.Drivers

open Common Lib

/-- A pin as a byte: three zero bits, two bits of port, three bits of pin. -/
abbrev Io := BitVec 8

inductive IoPort : Type
  | port1
  | port2
  | port3
  deriving DecidableEq, Repr

inductive HwType : Type
  | launchpad
  | nsumo
  deriving DecidableEq, Repr

namespace Io

abbrev io10 : Io := 0
abbrev io17 : Io := 7
abbrev io20 : Io := 8
abbrev io21 : Io := 9
abbrev io23 : Io := 11
abbrev io27 : Io := 15

abbrev irRemote : Io := io20

def rangeSensorFrontInt : HwType → Io
  | .launchpad => io23
  | .nsumo => io21

def ioPort (io : Io) : IoPort := .ofNat ((io &&& 0x18) >>> 3).toNat

def ioPinIdx (io : Io) : Nat := (io &&& 0x7).toNat

def ioPinBit (io : Io) : Byte := Mask.bit (ioPinIdx io)

end Io

inductive IoTrigger : Type
  | rising
  | falling
  deriving DecidableEq, Repr

structure IoRegs (η : Type) : Type where
  portInterruptFlagRegs : IoPort → Byte
  portInterruptEnableRegs : IoPort → Byte
  portInterruptEdgeSelectRegs : IoPort → Byte
  isrFunctions : IoPort → Nat → Option η

namespace IoRegs

open Io

variable {η : Type}

def reset : IoRegs η where
  portInterruptFlagRegs _ := 0
  portInterruptEnableRegs _ := 0
  portInterruptEdgeSelectRegs _ := 0
  isrFunctions _ _ := none

def flagged (io : Io) (regs : IoRegs η) : Bool :=
  regs.portInterruptFlagRegs (ioPort io) &&& ioPinBit io != 0

def enabled (io : Io) (regs : IoRegs η) : Bool :=
  regs.portInterruptEnableRegs (ioPort io) &&& ioPinBit io != 0

def isrFunction (io : Io) (regs : IoRegs η) : Option η :=
  regs.isrFunctions (ioPort io) (ioPinIdx io)

def ioClearInterrupt (io : Io) (regs : IoRegs η) : IoRegs η :=
  { regs with
    portInterruptFlagRegs := Function.update regs.portInterruptFlagRegs (ioPort io)
      (regs.portInterruptFlagRegs (ioPort io) &&& ~~~ioPinBit io) }

def ioEnableInterrupt (io : Io) (regs : IoRegs η) : IoRegs η :=
  { regs with
    portInterruptEnableRegs := Function.update regs.portInterruptEnableRegs (ioPort io)
      (regs.portInterruptEnableRegs (ioPort io) ||| ioPinBit io) }

def ioDisableInterrupt (io : Io) (regs : IoRegs η) : IoRegs η :=
  { regs with
    portInterruptEnableRegs := Function.update regs.portInterruptEnableRegs (ioPort io)
      (regs.portInterruptEnableRegs (ioPort io) &&& ~~~ioPinBit io) }

def ioSetInterruptTrigger (io : Io) (trigger : IoTrigger) (regs : IoRegs η) : IoRegs η :=
  let regs := ioDisableInterrupt io regs
  let select := regs.portInterruptEdgeSelectRegs (ioPort io)
  ioClearInterrupt io { regs with
    portInterruptEdgeSelectRegs := Function.update regs.portInterruptEdgeSelectRegs (ioPort io)
      (match trigger with
        | .rising => select &&& ~~~ioPinBit io
        | .falling => select ||| ioPinBit io) }

def ioRegisterIsr (io : Io) (isr : η) (regs : IoRegs η) : Except Assert (IoRegs η) := do
  assert (regs.isrFunction io).isNone .ioRegisterIsr
  return { regs with
    isrFunctions := Function.update regs.isrFunctions (ioPort io)
      (Function.update (regs.isrFunctions (ioPort io)) (ioPinIdx io) (some isr)) }

def ioConfigureInterrupt (io : Io) (trigger : IoTrigger) (isr : η) (regs : IoRegs η) :
    Except Assert (IoRegs η) :=
  ioRegisterIsr io isr (ioSetInterruptTrigger io trigger regs)

def ioUnregisterIsr (io : Io) (regs : IoRegs η) : IoRegs η :=
  { regs with
    isrFunctions := Function.update regs.isrFunctions (ioPort io)
      (Function.update (regs.isrFunctions (ioPort io)) (ioPinIdx io) none) }

def ioDeconfigureInterrupt (io : Io) (regs : IoRegs η) : IoRegs η :=
  ioDisableInterrupt io (ioUnregisterIsr io regs)

/-- An edge on a pin sets its flag, enabled or not. -/
def edge (io : Io) (regs : IoRegs η) : IoRegs η :=
  { regs with
    portInterruptFlagRegs := Function.update regs.portInterruptFlagRegs (ioPort io)
      (regs.portInterruptFlagRegs (ioPort io) ||| ioPinBit io) }

abbrev Called (η : Type) : Type := IoRegs η × List Io

def ioIsr (io : Io) : Called η → Called η
  | (regs, calls) =>
    if regs.flagged io then
      (ioClearInterrupt io regs, if (regs.isrFunction io).isSome then calls ++ [io] else calls)
    else
      (regs, calls)

def pins (first last : Io) : List Io :=
  (List.range (last.toNat + 1 - first.toNat)).map fun k => first + BitVec.ofNat 8 k

def isrPort1 (regs : IoRegs η) : Called η :=
  (pins io10 io17).foldl (fun called io => ioIsr io called) (regs, [])

def isrPort2 (regs : IoRegs η) : Called η :=
  (pins io20 io27).foldl (fun called io => ioIsr io called) (regs, [])

end IoRegs

end Nsumo.Drivers
