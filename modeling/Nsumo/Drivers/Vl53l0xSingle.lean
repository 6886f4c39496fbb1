import Nsumo.Drivers.Vl53l0x

namespace Nsumo.Drivers

open Common

namespace Vl53l0x

variable {δ : Type} (bus : Bus δ)

/-- `vl53l0x_read_range(idx, &range)` for a variable of the caller, which is not looked at when the
call fails. -/
def vl53l0xReadRangeLocal (fuel : Nat) (idx : Vl53l0xIdx) (range : Nat) : Driver δ Nat := do
  i2cSetSlaveAddress bus (vl53l0xCfgs idx)
  vl53l0xPollwaitSysrange bus fuel
  let (error, range) ← i2cReadAddr8Data16 bus (regResultRangeStatus + 10) range
  check error
  check (← i2cWriteAddr8Data8 bus regSystemInterruptClear 0x01)
  vl53l0xClearSysrangeInterrupt bus
  return if range = 8190 ∨ range = 8191 then vl53l0xOutOfRange else range

def vl53l0xReadRangeSingle (fuel : Nat) (idx : Vl53l0xIdx) (range : Nat) : Driver δ Nat := do
  vl53l0xAssert (← get).initialized
  vl53l0xStartSysrange bus fuel idx
  vl53l0xReadRangeLocal bus fuel idx range

def readSingles (fuel : Nat) : List Vl53l0xIdx → Driver δ (List Nat)
  | [] => return []
  | idx :: idxs => do
    let range ← vl53l0xReadRangeSingle bus fuel idx 0
    return range :: (← readSingles fuel idxs)

inductive RangeCall : Type
  | single (idx : Vl53l0xIdx)
  | multiple
  deriving DecidableEq, Repr

abbrev RangeAnswer := Except Vl53l0xResult (Nat ⊕ Vl53l0xRanges)

def answered {α : Type} (x : Driver δ α) : Driver δ (Except Vl53l0xResult α) := fun s =>
  match x s with
  | .ok a t => .ok (.ok a) t
  | .error (.result r) t => .ok (.error r) t
  | .error stop t => .error stop t

def RangeCall.run (fuel : Nat) : RangeCall → Driver δ (Nat ⊕ Vl53l0xRanges)
  | .single idx => do return .inl (← vl53l0xReadRangeSingle bus fuel idx 0)
  | .multiple => do return .inr (← vl53l0xReadRangeMultiple bus fuel)

def runCalls (fuel : Nat) : List RangeCall → Driver δ (List RangeAnswer)
  | [] => return []
  | call :: calls => do
    let answer ← answered (call.run bus fuel)
    return answer :: (← runCalls fuel calls)

end Vl53l0x

end Nsumo.Drivers
