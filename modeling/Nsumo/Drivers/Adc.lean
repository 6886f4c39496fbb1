import Nsumo.Drivers.Io
import Nsumo.Lib.Cells

namespace Nsumo.Drivers

open Common Lib

inductive AdcStop : Type
  | adcInit
  | ioToAdcIdx
  | outside
  deriving DecidableEq, Repr

def adcChannelCount : Nat := 8

abbrev AdcChannelValues : Type := Fin adcChannelCount → BitVec 16

structure Adc : Type where
  adcDtcBlock : AdcChannelValues
  adcDtcBlockCache : AdcChannelValues
  adcPins : List Io
  adcPinCnt : Byte
  dtcChannelCnt : Byte
  initialized : Bool
  adc10ctl0 : BitVec 16
  adc10ctl1 : BitVec 16
  adc10ae0 : Byte
  adc10dtc0 : Byte
  adc10dtc1 : Byte

namespace Adc

open Io

abbrev adc10sc : BitVec 16 := 0x0001
abbrev enc : BitVec 16 := 0x0002
abbrev adc10ie : BitVec 16 := 0x0008
abbrev adc10on : BitVec 16 := 0x0010
abbrev msc : BitVec 16 := 0x0080
abbrev adc10sht2 : BitVec 16 := 0x1000
abbrev sref0 : BitVec 16 := 0x0000
abbrev conseq1 : BitVec 16 := 0x0002
abbrev adc10ssel1 : BitVec 16 := 0x0008
abbrev adc10div7 : BitVec 16 := 0x00E0
abbrev shs0 : BitVec 16 := 0x0000
abbrev adc10ct : Byte := 0x04

abbrev lineDetectFrontRight : Io := 0
abbrev lineDetectFrontLeft : Io := 3
abbrev lineDetectBackLeft : Io := 4
abbrev lineDetectBackRight : Io := 5

def ioAdcPins : HwType → List Io
  | .launchpad => [lineDetectFrontLeft]
  | .nsumo => [lineDetectFrontLeft, lineDetectBackLeft, lineDetectFrontRight, lineDetectBackRight]

def check (expression : Bool) (site : AdcStop) : Except AdcStop Unit :=
  if expression then .ok () else .error site

def ioToAdcIdx (io : Io) : Except AdcStop Byte := do
  check (ioPort io == .port1) .ioToAdcIdx
  return BitVec.ofNat 8 (ioPinIdx io)

def adcEnableAndStartConversion (adc : Adc) : Adc :=
  { adc with adc10ctl0 := adc.adc10ctl0 ||| (enc + adc10sc) }

def scanPin (scanned : Byte × Byte) (io : Io) : Except AdcStop (Byte × Byte) := do
  let (adc10ae0, lastIdx) := scanned
  let pinIdx ← ioToAdcIdx io
  let pinBit : Byte := 1 <<< pinIdx.toNat
  return (adc10ae0 + pinBit, if pinIdx > lastIdx then pinIdx else lastIdx)

def adcInit (pins : List Io) (adc : Adc) : Except AdcStop Adc := do
  check (!adc.initialized) .adcInit
  let adcPinCnt := BitVec.ofNat 8 pins.length
  let (adc10ae0, lastIdx) ← (pins.take adcPinCnt.toNat).foldlM scanPin (0, 0)
  let inch : BitVec 16 := lastIdx.zeroExtend 16 <<< 12
  return adcEnableAndStartConversion { adc with
    adcPins := pins
    adcPinCnt := adcPinCnt
    adc10ctl1 := inch + adc10div7 + conseq1 + shs0 + adc10ssel1
    adc10ctl0 := adc10on + sref0 + adc10sht2 + msc + adc10ie
    adc10ae0 := adc10ae0
    dtcChannelCnt := lastIdx + 1
    adc10dtc0 := adc10ct
    adc10dtc1 := lastIdx + 1
    initialized := true }

/-- The transfers of the hardware: the samples of the channels from the one in `ADC10CTL1`
downwards, as many as `ADC10DTC1` says. -/
def transfer (samples : Nat → BitVec 16) (adc : Adc) : Except AdcStop Adc := do
  let adcDtcBlock ← (List.range adc.adc10dtc1.toNat).foldlM (fun block k =>
    Cells.write .outside k (samples ((adc.adc10ctl1 >>> 12).toNat - k)) block) adc.adcDtcBlock
  return { adc with adcDtcBlock }

def isrAdc10 (adc : Adc) : Except AdcStop Adc := do
  let adcDtcBlockCache ← (List.range adc.dtcChannelCnt.toNat).foldlM (fun cache i => do
    let sample ← Cells.read .outside (adc.dtcChannelCnt.toNat - 1 - i) adc.adcDtcBlock
    Cells.write .outside i sample cache) adc.adcDtcBlockCache
  return adcEnableAndStartConversion { adc with adcDtcBlockCache }

def adcGetChannelValues (values : AdcChannelValues) (adc : Adc) :
    Except AdcStop AdcChannelValues :=
  (adc.adcPins.take adc.adcPinCnt.toNat).foldlM (fun values io => do
    let channelIdx ← ioToAdcIdx io
    let value ← Cells.read .outside channelIdx.toNat adc.adcDtcBlockCache
    Cells.write .outside channelIdx.toNat value values) values

/-- The blocks as they are linked, before the initialisation. -/
def reset : Adc where
  adcDtcBlock _ := 0
  adcDtcBlockCache _ := 0
  adcPins := []
  adcPinCnt := 0
  dtcChannelCnt := 0
  initialized := false
  adc10ctl0 := 0
  adc10ctl1 := 0
  adc10ae0 := 0
  adc10dtc0 := 0
  adc10dtc1 := 0

end Adc

end Nsumo.Drivers
