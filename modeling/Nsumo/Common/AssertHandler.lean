import Nsumo.Drivers.IoConfig

/-! The handler of a failed assertion, as the sequence of its writes to the port registers. -/

namespace Nsumo.Common

open Drivers Drivers.Io Drivers.PortRegs

inductive PortReg : Type
  | sel
  | sel2
  | dir
  | ren
  | out
  deriving DecidableEq, Repr

inductive BitOp : Type
  | clear
  | set
  | toggle
  deriving DecidableEq, Repr

structure PortWrite : Type where
  reg : PortReg
  op : BitOp
  io : Io
  deriving DecidableEq, Repr

def togglePin (io : Io) (regs : IoPort → Byte) : IoPort → Byte :=
  Function.update regs (ioPort io) (regs (ioPort io) ^^^ ioPinBit io)

namespace BitOp

def run (io : Io) (regs : IoPort → Byte) : BitOp → IoPort → Byte
  | clear => clearPin io regs
  | set => setPin io regs
  | toggle => togglePin io regs

end BitOp

namespace PortWrite

def run (regs : PortRegs) (w : PortWrite) : PortRegs :=
  match w.reg with
  | .sel => { regs with portSel1Regs := w.op.run w.io regs.portSel1Regs }
  | .sel2 => { regs with portSel2Regs := w.op.run w.io regs.portSel2Regs }
  | .dir => { regs with portDirRegs := w.op.run w.io regs.portDirRegs }
  | .ren => { regs with portRenRegs := w.op.run w.io regs.portRenRegs }
  | .out => { regs with portOutRegs := w.op.run w.io regs.portOutRegs }

end PortWrite

namespace AssertHandler

abbrev p10 : Io := 0
abbrev p12 : Io := 2
abbrev p21 : Io := 9
abbrev p22 : Io := 10
abbrev p24 : Io := 12
abbrev p25 : Io := 13
abbrev p26 : Io := 14
abbrev p27 : Io := 15
abbrev p35 : Io := 21
abbrev p36 : Io := 22
abbrev p37 : Io := 23

def gpioOutputLow (io : Io) : List PortWrite :=
  [⟨.sel, .clear, io⟩, ⟨.sel2, .clear, io⟩, ⟨.dir, .set, io⟩, ⟨.ren, .clear, io⟩, ⟨.out, .clear, io⟩]

def assertStopMotors : List PortWrite :=
  [p26, p21, p22, p24, p25, p27, p37, p35, p36].flatMap gpioOutputLow

def assertTrace : List PortWrite := [⟨.sel, .set, p12⟩, ⟨.sel2, .set, p12⟩]

def blink : List PortWrite := [⟨.out, .toggle, p10⟩, ⟨.out, .toggle, p26⟩]

/-- The loop does not end: `n` of its iterations. -/
def assertBlinkLed (n : Nat) : List PortWrite :=
  gpioOutputLow p10 ++ gpioOutputLow p26 ++ (List.replicate n blink).flatten

/-- The motor driver's pins in `io_e`: left CC1, CC2 and PWM, then right. -/
def motorPins : HwType → List Io
  | .launchpad => [p21, p22, p26]
  | .nsumo => [motorsLeftCc1, motorsLeftCc2, pwmMotorsLeft, motorsRightCc1, motorsRightCc2,
      pwmMotorsRight]

def after (writes : List PortWrite) (regs : PortRegs) : PortRegs := writes.foldl PortWrite.run regs

end AssertHandler

end Nsumo.Common
