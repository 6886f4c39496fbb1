import Nsumo.Drivers.Adc
import Nsumo.Lib.Run

/-! `adc_get_channel_values` beside the conversions and their interrupt, step by step. -/

namespace Nsumo.Drivers

open Common Lib

structure AdcSystem : Type where
  adc : Adc
  /-- The transfers that the running sequence of conversions has made. -/
  transfers : Option Nat
  adc10ifg : Bool
  /-- The interrupts are enabled globally. -/
  gie : Bool
  /-- The index in the loop of `isr_adc10`. -/
  isr : Option Nat
  main : Option (List Io)
  values : AdcChannelValues
  converted : Nat
  /-- The values returned, oldest first, with the sequences that had ended by then. -/
  returned : List (AdcChannelValues × Nat)

namespace AdcSystem

open Adc

def start (pins : List Io) : Except AdcStop AdcSystem := do
  let adc ← adcInit pins reset
  return {
    adc
    transfers := some 0
    adc10ifg := false
    gie := true
    isr := none
    main := none
    values := fun _ => 0
    converted := 0
    returned := [] }

-- The sample of each channel in each sequence of conversions.
variable (samples : Nat → Nat → BitVec 16)

def stepConversion (s : AdcSystem) : Except AdcStop AdcSystem :=
  match s.transfers with
  | none => .ok s
  | some k => do
    let sample := samples s.converted ((s.adc.adc10ctl1 >>> 12).toNat - k)
    let adcDtcBlock ← Cells.write .outside k sample s.adc.adcDtcBlock
    if k + 1 = s.adc.adc10dtc1.toNat then
      return { s with
        adc.adcDtcBlock := adcDtcBlock
        transfers := none
        adc10ifg := true
        converted := s.converted + 1 }
    else
      return { s with adc.adcDtcBlock := adcDtcBlock, transfers := some (k + 1) }

def acceptInterrupt (s : AdcSystem) : AdcSystem :=
  if s.adc10ifg && s.gie && s.isr.isNone && s.adc.adc10ctl0 &&& adc10ie != 0 then
    { s with adc10ifg := false, isr := some 0 }
  else
    s

def stepIsr (i : Nat) (s : AdcSystem) : Except AdcStop AdcSystem :=
  if i < s.adc.dtcChannelCnt.toNat then do
    let sample ← Cells.read .outside (s.adc.dtcChannelCnt.toNat - 1 - i) s.adc.adcDtcBlock
    let adcDtcBlockCache ← Cells.write .outside i sample s.adc.adcDtcBlockCache
    return { s with adc.adcDtcBlockCache := adcDtcBlockCache, isr := some (i + 1) }
  else
    .ok { s with adc := s.adc.adcEnableAndStartConversion, transfers := some 0, isr := none }

def stepMain (s : AdcSystem) : Except AdcStop AdcSystem :=
  match s.main with
  | none => .ok { s with gie := false, main := some (s.adc.adcPins.take s.adc.adcPinCnt.toNat) }
  | some (io :: pins) => do
    let channelIdx ← ioToAdcIdx io
    let value ← Cells.read .outside channelIdx.toNat s.adc.adcDtcBlockCache
    let values ← Cells.write .outside channelIdx.toNat value s.values
    return { s with values, main := some pins }
  | some [] =>
    .ok { s with gie := true, main := none, returned := s.returned ++ [(s.values, s.converted)] }

inductive Event : Type
  | conversion
  | interrupt
  | isr
  | main
  deriving DecidableEq, Repr

/-- The main program waits for the interrupt. -/
def step : Event → AdcSystem → Except AdcStop AdcSystem
  | .conversion, s => s.stepConversion samples
  | .interrupt, s => .ok s.acceptInterrupt
  | .isr, s =>
    match s.isr with
    | some i => s.stepIsr i
    | none => .ok s
  | .main, s => if s.isr = none then s.stepMain else .ok s

end AdcSystem

end Nsumo.Drivers
