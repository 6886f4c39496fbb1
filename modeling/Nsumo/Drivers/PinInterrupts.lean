import Nsumo.Drivers.Io
import Nsumo.Drivers.IrRemote
import Nsumo.Lib.Run

namespace Nsumo.Drivers

open Common Lib

inductive PinIsr : Type
  | isrPulse
  | frontMeasurementDone
  deriving DecidableEq, Repr

inductive IsrPhase : Type
  | test
  | call
  | clear
  deriving DecidableEq, Repr

structure PortIsr : Type where
  io : Io
  last : Io
  phase : IsrPhase
  deriving DecidableEq

/-- Where the main program is, before the named part of `ir_remote_get_cmd`; `outside` is before
the interrupt of the pin is disabled. -/
inductive GetCmd : Type
  | outside
  | check
  | get
  | enable
  deriving DecidableEq, Repr

structure PinSystem : Type where
  regs : IoRegs PinIsr
  ir : IrRemote
  main : GetCmd
  cmd : IrCmd
  isr : Option PortIsr
  /-- Where the main program was at each call of `isr_pulse`, the latest first. -/
  pulses : List GetCmd

namespace PinSystem

open Io IoRegs

def start (hw : HwType) : Except Assert PinSystem := do
  let regs ← ioConfigureInterrupt irRemote .rising .isrPulse reset
  let regs := ioEnableInterrupt irRemote regs
  let regs ← ioConfigureInterrupt (rangeSensorFrontInt hw) .falling .frontMeasurementDone regs
  return {
    regs := ioEnableInterrupt (rangeSensorFrontInt hw) regs
    ir := .init
    main := .outside
    cmd := IrCmd.none
    isr := none
    pulses := [] }

def ioPortVector : IoPort → Option PortIsr
  | .port1 => some ⟨io10, io17, .test⟩
  | .port2 => some ⟨io20, io27, .test⟩
  | .port3 => none

def nextPin (isr : PortIsr) : Option PortIsr :=
  if isr.io = isr.last then none else some ⟨isr.io + 1, isr.last, .test⟩

def callIsr (io : Io) (s : PinSystem) : Except Assert PinSystem :=
  match s.regs.isrFunction io with
  | some .isrPulse => do
    let ir ← s.ir.isrPulse
    return { s with ir, pulses := s.main :: s.pulses }
  | some .frontMeasurementDone | none => .ok s

def stepIsr (isr : PortIsr) (s : PinSystem) : Except Assert PinSystem :=
  match isr.phase with
  | .test => .ok { s with
    isr := if s.regs.flagged isr.io then some { isr with phase := .call } else nextPin isr }
  | .call => callIsr isr.io { s with isr := some { isr with phase := .clear } }
  | .clear => .ok { s with regs := ioClearInterrupt isr.io s.regs, isr := nextPin isr }

def stepMain (s : PinSystem) : Except Assert PinSystem :=
  match s.main with
  | .outside => .ok { s with
    regs := ioDisableInterrupt irRemote s.regs, cmd := IrCmd.none, main := .check }
  | .check => .ok { s with main := if s.ir.irCmdBuffer.empty then .enable else .get }
  | .get => do
    let (data, irCmdBuffer) ← s.ir.irCmdBuffer.get
    return { s with ir.irCmdBuffer := irCmdBuffer, cmd := data.headD s.cmd, main := .enable }
  | .enable => .ok { s with regs := ioEnableInterrupt irRemote s.regs, main := .outside }

inductive Event : Type
  | edge (io : Io)
  | vector (port : IoPort)
  | timer
  | isr
  | main
  deriving DecidableEq

/-- Interrupts do not nest, and the main program waits for them.  An event that is not possible
leaves the state as it is. -/
def step : Event → PinSystem → Except Assert PinSystem
  | .edge io, s => .ok { s with regs := s.regs.edge io }
  | .vector port, s => .ok <|
    if s.isr = none ∧
        s.regs.portInterruptFlagRegs port &&& s.regs.portInterruptEnableRegs port ≠ 0 then
      { s with isr := ioPortVector port }
    else
      s
  | .timer, s => .ok (if s.isr = none then { s with ir := s.ir.isrTimerA0 } else s)
  | .isr, s =>
    match s.isr with
    | some isr => stepIsr isr s
    | none => .ok s
  | .main, s => if s.isr = none then stepMain s else .ok s

end PinSystem

end Nsumo.Drivers
