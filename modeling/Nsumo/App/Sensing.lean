import Nsumo.App.StateMachine
import Nsumo.Drivers.Adc
import Nsumo.Drivers.Vl53l0x

namespace Nsumo.App

open Common Drivers

structure Qre1113Voltages : Type where
  frontLeft : BitVec 16
  frontRight : BitVec 16
  backLeft : BitVec 16
  backRight : BitVec 16
  deriving DecidableEq, Repr

/-- From the values of `adc_get_channel_values`, on the NSUMO build. -/
def qre1113GetVoltages (values : AdcChannelValues) : Except AdcStop Qre1113Voltages := do
  let voltage (io : Io) : Except AdcStop (BitVec 16) := do
    let channelIdx ← Adc.ioToAdcIdx io
    Lib.Cells.read .outside channelIdx.toNat values
  let frontLeft ← voltage Adc.lineDetectFrontLeft
  let frontRight ← voltage Adc.lineDetectFrontRight
  let backLeft ← voltage Adc.lineDetectBackLeft
  let backRight ← voltage Adc.lineDetectBackRight
  return { frontLeft, frontRight, backLeft, backRight }

def lineDetectedVoltageThreshold : BitVec 16 := 700

def lineGet (voltages : Qre1113Voltages) : Line :=
  let frontLeft := voltages.frontLeft < lineDetectedVoltageThreshold
  let frontRight := voltages.frontRight < lineDetectedVoltageThreshold
  let backLeft := voltages.backLeft < lineDetectedVoltageThreshold
  let backRight := voltages.backRight < lineDetectedVoltageThreshold
  if frontLeft then
    if frontRight then
      .front
    else if backLeft then
      .left
    else if backRight then
      .diagonalLeft
    else
      .frontLeft
  else if frontRight then
    if backRight then
      .right
    else if backLeft then
      .diagonalRight
    else
      .frontRight
  else if backLeft then
    if backRight then
      .back
    else
      .backLeft
  else if backRight then
    .backRight
  else
    .none

def rangeDetectThreshold : BitVec 16 := 600
def invalidRange : BitVec 16 := 0xFFFF
def rangeClose : BitVec 16 := 100
def rangeMid : BitVec 16 := 200

/-- The position, and the range that stands for it. -/
def enemyPosition (rangeFront rangeFrontLeft rangeFrontRight : BitVec 16) :
    EnemyPos × BitVec 16 :=
  let front := rangeFront < rangeDetectThreshold
  let frontLeft := rangeFrontLeft < rangeDetectThreshold
  let frontRight := rangeFrontRight < rangeDetectThreshold
  if frontLeft ∧ front ∧ frontRight then
    (.frontAll, ((rangeFrontLeft + rangeFront) / 2 + rangeFrontRight) / 2)
  else if frontLeft ∧ frontRight then
    (.impossible, invalidRange)
  else if frontLeft then
    if front then
      (.frontAndFrontLeft, (rangeFrontLeft + rangeFront) / 2)
    else
      (.frontLeft, rangeFrontLeft)
  else if frontRight then
    if front then
      (.frontAndFrontRight, (rangeFrontRight + rangeFront) / 2)
    else
      (.frontRight, rangeFrontRight)
  else if front then
    (.front, rangeFront)
  else
    (.none, invalidRange)

def enemyRange (range : BitVec 16) : EnemyRange :=
  if range = invalidRange then
    .none
  else if range < rangeClose then
    .close
  else if range < rangeMid then
    .mid
  else
    .far

/-- From the result of `vl53l0x_read_range_multiple`. -/
def enemyGet : Except Vl53l0xResult (Vl53l0xIdx → BitVec 16) → Enemy
  | .error _ => enemyNone
  | .ok ranges =>
    let (position, range) := enemyPosition (ranges .front) (ranges .frontLeft) (ranges .frontRight)
    ⟨position, enemyRange range⟩

structure Sensed : Type where
  ranges : Except Vl53l0xResult (Vl53l0xIdx → BitVec 16)
  voltages : Qre1113Voltages
  cmd : IrCmd
  pollCnt : BitVec 32
  startCnt : BitVec 32

def Sensed.readings (sensed : Sensed) : Readings where
  enemy := enemyGet sensed.ranges
  line := lineGet sensed.voltages
  cmd := sensed.cmd
  pollCnt := sensed.pollCnt
  startCnt := sensed.startCnt

end Nsumo.App
