import Nsumo.Common.Assert
import Mathlib.Logic.Function.Basic

namespace Nsumo.Drivers

open Common

abbrev Word := BitVec 16

def tassel2 : Word := 0x0200
def id3 : Word := 0x00C0
def mc0 : Word := 0x0000
def mc1 : Word := 0x0010
def taclr : Word := 0x0004
def outmod0 : Word := 0x0000
def outmod7 : Word := 0x00E0
def timerMcMask : Word := 0x0030

def smclk : Nat := 16000000
def timerInputDivider3 : Nat := 8
def pwmTimerFreqHz : Nat := smclk / timerInputDivider3
def pwmPeriodFreqHz : Nat := 20000
def pwmPeriodTicks : Nat := pwmTimerFreqHz / pwmPeriodFreqHz
def pwmTa0ccr0 : Word := BitVec.ofNat 16 (pwmPeriodTicks - 1)

inductive Pwm : Type
  | tb6612fngLeft
  | tb6612fngRight
  deriving DecidableEq, Repr

structure PwmChannelCfg : Type where
  enabled : Bool
  cctl : Word
  ccr : Word

structure PwmState : Type where
  ta0ctl : Word
  ta0ccr0 : Word
  pwmEnabled : Bool
  pwmCfgs : Pwm → PwmChannelCfg
  initialized : Bool

namespace PwmState

/-- The control register after a write: the timer is cleared at once, and so is the bit for it. -/
def written (value : Word) : Word := value &&& ~~~taclr

def pwmAllChannelsDisabled (s : PwmState) : Bool :=
  [Pwm.tb6612fngLeft, Pwm.tb6612fngRight].all fun ch => !(s.pwmCfgs ch).enabled

def pwmEnable (enable : Bool) (s : PwmState) : PwmState :=
  if s.pwmEnabled ≠ enable then
    { s with
      ta0ctl := written ((s.ta0ctl &&& ~~~timerMcMask) + taclr + (if enable then mc1 else mc0))
      pwmEnabled := enable }
  else
    s

def setCfg (pwm : Pwm) (cfg : PwmChannelCfg) (s : PwmState) : PwmState :=
  { s with pwmCfgs := Function.update s.pwmCfgs pwm cfg }

def pwmChannelEnable (pwm : Pwm) (enable : Bool) (s : PwmState) : PwmState :=
  if (s.pwmCfgs pwm).enabled ≠ enable then
    let s := s.setCfg pwm { s.pwmCfgs pwm with
      cctl := if enable then outmod7 else outmod0
      enabled := enable }
    if enable then
      pwmEnable true s
    else if pwmAllChannelsDisabled s then
      pwmEnable false s
    else
      s
  else
    s

def pwmScaleDutyCycle (dutyCyclePercent : Byte) : Byte :=
  if dutyCyclePercent = 1 then
    dutyCyclePercent
  else
    BitVec.ofNat 8 (dutyCyclePercent.toNat * 3 / 4)

def pwmSetDutyCycle (pwm : Pwm) (dutyCyclePercent : Byte) (s : PwmState) :
    Except Assert PwmState := do
  assert (dutyCyclePercent ≤ 100) .pwmSetDutyCycle
  let enable := decide (0 < dutyCyclePercent)
  let s :=
    if enable then
      s.setCfg pwm { s.pwmCfgs pwm with
        ccr := (pwmScaleDutyCycle dutyCyclePercent).setWidth 16 }
    else
      s
  return pwmChannelEnable pwm enable s

def reset : PwmState where
  ta0ctl := 0
  ta0ccr0 := 0
  pwmEnabled := false
  pwmCfgs _ := { enabled := false, cctl := 0, ccr := 0 }
  initialized := false

end PwmState

end Nsumo.Drivers
