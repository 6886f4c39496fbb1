namespace Nsumo.Drivers

/-- Where a call of `millis` is, before the named step.  The counter is read in two words. -/
inductive MillisPoint : Type
  | outside
  | low
  | high (low : BitVec 16)
  | enable (ms : BitVec 32)
  deriving DecidableEq, Repr

structure Clock : Type where
  watchdogInterruptCnt : BitVec 32
  wdtie : Bool
  wdtifg : Bool
  main : MillisPoint
  ticks : Nat
  lost : Nat
  /-- What `millis` has returned, oldest first, with the ticks until then that were not lost. -/
  returned : List (BitVec 32 × Nat)
  deriving DecidableEq

namespace Clock

def start : Clock where
  watchdogInterruptCnt := 0
  wdtie := true
  wdtifg := false
  main := .outside
  ticks := 0
  lost := 0
  returned := []

def isrWatchdog (s : Clock) : Clock :=
  { s with watchdogInterruptCnt := s.watchdogInterruptCnt + 1 }

def stepMillis (s : Clock) : Clock :=
  match s.main with
  | .outside => { s with wdtie := false, main := .low }
  | .low => { s with main := .high (s.watchdogInterruptCnt.extractLsb' 0 16) }
  | .high low =>
    let watchdogInterruptCnt : BitVec 32 := s.watchdogInterruptCnt.extractLsb' 16 16 ++ low
    { s with main := .enable (watchdogInterruptCnt / 2) }
  | .enable ms =>
    { s with wdtie := true, main := .outside, returned := s.returned ++ [(ms, s.ticks - s.lost)] }

inductive Event : Type
  | tick
  | interrupt
  | main
  deriving DecidableEq, Repr

/-- The flag is cleared when the interrupt is served. -/
def step (s : Clock) : Event → Clock
  | .tick =>
    { s with ticks := s.ticks + 1, wdtifg := true, lost := if s.wdtifg then s.lost + 1 else s.lost }
  | .interrupt => if s.wdtifg && s.wdtie then { s with wdtifg := false }.isrWatchdog else s
  | .main => s.stepMillis

def run (events : List Event) : Clock := events.foldl step start

end Clock

end Nsumo.Drivers
