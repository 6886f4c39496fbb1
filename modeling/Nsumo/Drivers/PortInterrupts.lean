import Nsumo.Drivers.PinInterrupts

namespace Nsumo.Drivers

open Common Lib

structure PortSystem (η : Type) : Type where
  regs : IoRegs η
  isr : Option PortIsr
  calls : List Io

/-- An edge may arrive at any moment, the rest of the program runs outside the interrupts. -/
inductive PortEvent : Type
  | edge (io : Io)
  | vector (port : IoPort)
  | isr
  | enable (io : Io)
  | disable (io : Io)
  deriving DecidableEq

namespace PortSystem

open Io IoRegs PinSystem

variable {η : Type}

def start (regs : IoRegs η) : PortSystem η where
  regs := regs
  isr := none
  calls := []

def stepPin (s : PortSystem η) (isr : PortIsr) : PortSystem η :=
  match isr.phase with
  | .test => { s with
    isr := if s.regs.flagged isr.io then some { isr with phase := .call } else nextPin isr }
  | .call => { s with
    isr := some { isr with phase := .clear }
    calls := if (s.regs.isrFunction isr.io).isSome then s.calls ++ [isr.io] else s.calls }
  | .clear => { s with regs := ioClearInterrupt isr.io s.regs, isr := nextPin isr }

def stepPort (s : PortSystem η) : PortEvent → PortSystem η
  | .edge io => { s with regs := s.regs.edge io }
  | .vector port =>
    if s.isr = none ∧
        s.regs.portInterruptFlagRegs port &&& s.regs.portInterruptEnableRegs port ≠ 0 then
      { s with isr := ioPortVector port }
    else
      s
  | .isr => s.isr.elim s s.stepPin
  | .enable io => if s.isr = none then { s with regs := ioEnableInterrupt io s.regs } else s
  | .disable io => if s.isr = none then { s with regs := ioDisableInterrupt io s.regs } else s

def runPort (s : PortSystem η) (events : List PortEvent) : PortSystem η :=
  events.foldl stepPort s

end PortSystem

end Nsumo.Drivers
