import Nsumo.App.Actuators
import Mathlib.Algebra.Group.Nat.Defs
import Mathlib.Logic.Function.Iterate

namespace Nsumo.App

def isrWatchdog (watchdogInterruptCnt : BitVec 32) : BitVec 32 := watchdogInterruptCnt + 1

def cntAfter (ticks : Nat) (cnt : BitVec 32) : BitVec 32 := isrWatchdog^[ticks] cnt

/-- The whole milliseconds of `millis` that pass with the ticks, on a counter that does not wrap. -/
def elapsedMs (cnt : BitVec 32) (ticks : Nat) : Nat := (cnt.toNat + ticks) / 2 - cnt.toNat / 2

structure TimerCorrect (cnt timeoutMs : BitVec 32) (ticks : Nat) : Prop where
  armed : timerStart cnt timeoutMs ≠ timerCleared
  timeout : timerTimeout (cntAfter ticks cnt) (timerStart cnt timeoutMs) = true ↔
    timeoutMs.toNat < elapsedMs cnt ticks

section

variable {cnt pollCnt timeoutMs : BitVec 32} {ticks : Nat}

theorem toNat_cntAfter (ticks : Nat) (cnt : BitVec 32) :
    (cntAfter ticks cnt).toNat = (cnt.toNat + ticks) % 2 ^ 32 := by
  induction ticks with
  | zero => exact (Nat.mod_eq_of_lt cnt.isLt).symm
  | succ ticks ih =>
    rw [cntAfter, Function.iterate_succ_apply', isrWatchdog, BitVec.toNat_add]
    change ((cntAfter ticks cnt).toNat + 1) % 2 ^ 32 = _
    rw [ih]
    omega

theorem toNat_millis (cnt : BitVec 32) : (millis cnt).toNat = cnt.toNat / 2 := by
  simp [millis]

theorem toNat_timerStart (hle : timeoutMs.toNat ≤ 2147483648) :
    (timerStart cnt timeoutMs).toNat = cnt.toNat / 2 + timeoutMs.toNat := by
  rw [timerStart, BitVec.toNat_add, toNat_millis]
  omega

theorem timerStart_ne_cleared (hpos : 0 < timeoutMs.toNat) (hle : timeoutMs.toNat ≤ 2147483648) :
    timerStart cnt timeoutMs ≠ timerCleared := by
  intro h
  have hnat := congrArg BitVec.toNat h
  rw [toNat_timerStart hle] at hnat
  change _ = 0 at hnat
  omega

theorem timerTimeout_iff (hpos : 0 < timeoutMs.toNat) (hle : timeoutMs.toNat ≤ 2147483648) :
    timerTimeout pollCnt (timerStart cnt timeoutMs) = true ↔
      cnt.toNat / 2 + timeoutMs.toNat < pollCnt.toNat / 2 := by
  rw [timerTimeout, if_neg (by simpa using timerStart_ne_cleared hpos hle), decide_eq_true_iff,
    BitVec.lt_def, toNat_timerStart hle, toNat_millis]

theorem timerTimeout_of_soon (hpos : 0 < timeoutMs.toNat) (hle : timeoutMs.toNat ≤ 2147483648)
    (hsoon : (pollCnt - cnt).toNat < 2 * timeoutMs.toNat) :
    timerTimeout pollCnt (timerStart cnt timeoutMs) = false := by
  rw [← Bool.not_eq_true, timerTimeout_iff hpos hle]
  intro hlate
  have hsub : (pollCnt - cnt).toNat = pollCnt.toNat - cnt.toNat :=
    BitVec.toNat_sub_of_le (BitVec.le_def.mpr (by omega))
  omega

theorem timer_correct_iff (hpos : 1 ≤ timeoutMs.toNat) (hlt : timeoutMs.toNat < 2 ^ 30)
    (helapsed : elapsedMs cnt ticks < 2 ^ 30) :
    TimerCorrect cnt timeoutMs ticks ↔
      cnt.toNat + ticks < 2 ^ 32 ∨ elapsedMs cnt ticks ≤ timeoutMs.toNat := by
  have hle : timeoutMs.toNat ≤ 2147483648 := by omega
  have harmed : timerStart cnt timeoutMs ≠ timerCleared := timerStart_ne_cleared hpos hle
  have hcnt := cnt.isLt
  rw [elapsedMs] at helapsed
  constructor
  · rintro ⟨-, htimeout⟩
    rw [timerTimeout_iff hpos hle, toNat_cntAfter, elapsedMs] at htimeout
    rw [elapsedMs]
    by_contra hwrapped
    obtain ⟨hwrap, hdue⟩ := not_or.mp hwrapped
    have hreported := htimeout.mpr (Nat.lt_of_not_le hdue)
    omega
  · intro h
    refine ⟨harmed, ?_⟩
    rw [timerTimeout_iff hpos hle, toNat_cntAfter, elapsedMs]
    rw [elapsedMs] at h
    omega

theorem timer_correct_iff_undue :
    TimerCorrect 0xFFFFFF80 400 700 ↔
      (0xFFFFFF80 : BitVec 32).toNat + 700 < 2 ^ 32 ∨ elapsedMs 0xFFFFFF80 700 ≤ 400 :=
  timer_correct_iff (by decide) (by decide) (by decide)

theorem not_timer_correct :
    elapsedMs 0xFFFFFF80 1200 = 600 ∧
      timerTimeout (cntAfter 1200 0xFFFFFF80) (timerStart 0xFFFFFF80 400) = false ∧
      ¬TimerCorrect 0xFFFFFF80 400 1200 := by
  have hlost : timerTimeout (cntAfter 1200 0xFFFFFF80) (timerStart 0xFFFFFF80 400) = false := by
    rw [← Bool.not_eq_true, timerTimeout_iff (by decide) (by decide), toNat_cntAfter]
    decide
  refine ⟨by decide, hlost, fun h => ?_⟩
  have hreported := h.timeout.mpr (by decide)
  rw [hlost] at hreported
  cases hreported

end

end Nsumo.App
