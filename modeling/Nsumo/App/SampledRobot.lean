import Nsumo.App.Robot
import Nsumo.Drivers.AdcInterrupts

/-! The robot beside its ADC: conversions go on while an iteration copies the voltages. -/

namespace Nsumo.App

open Common Drivers Lib

structure SampledRobot : Type where
  robot : Robot
  adc : AdcSystem

namespace SampledRobot

def boot (port3In : Byte) (ports : PortRegs) : Option SampledRobot := do
  let robot ← (Robot.boot port3In ports).toOption
  let adc ← (AdcSystem.start (Adc.ioAdcPins .nsumo)).toOption
  return { robot, adc }

/-- What comes next: an interrupt of the receiver or the clock, a conversion, the interrupt of the
ADC or a step of its loop, or a step of the main program. -/
inductive Event : Type
  | irq (irq : IrRemote.Irq)
  | watchdog
  | conversion
  | adcInterrupt
  | adcIsr
  | main (ranging : Ranging)

/-- Interrupts do not nest, and the copying of the voltages disables them all. -/
def interruptible (s : SampledRobot) : Bool := s.adc.gie && s.adc.isr.isNone

def unread : Qre1113Voltages := ⟨0, 0, 0, 0⟩

def stepMain (ranging : Ranging) (s : SampledRobot) : Except AdcStop SampledRobot :=
  match s.robot.phase with
  | .line _ => do
    let adc ← s.adc.stepMain
    if s.adc.main = some [] then
      -- `adc_get_channel_values` returns
      let voltages ← qre1113GetVoltages adc.values
      return { robot := s.robot.step (.main ranging voltages), adc }
    else
      return { s with adc }
  | .input | .cmd _ _ | .event _ _ _ | .process _ _ | .halted _ _ =>
    .ok { s with robot := s.robot.step (.main ranging unread) }

-- The sample of each channel in each sequence of conversions.
variable (samples : Nat → Nat → BitVec 16)

/-- An event that is not possible leaves the state as it is. -/
def step : Event → SampledRobot → Except AdcStop SampledRobot
  | .irq irq, s =>
    .ok (if s.interruptible then { s with robot := s.robot.step (.irq irq) } else s)
  | .watchdog, s =>
    .ok (if s.interruptible then { s with robot := s.robot.step .watchdog } else s)
  | .conversion, s => do return { s with adc := ← AdcSystem.step samples .conversion s.adc }
  | .adcInterrupt, s => do return { s with adc := ← AdcSystem.step samples .interrupt s.adc }
  | .adcIsr, s => do return { s with adc := ← AdcSystem.step samples .isr s.adc }
  | .main ranging, s => if s.adc.isr = none then s.stepMain ranging else .ok s

end SampledRobot

end Nsumo.App
