import Nsumo.App.Actuators
import Nsumo.Drivers.Millis
import Nsumo.Lib.Masked
import Mathlib.Data.List.Forall2

namespace Nsumo.App

open Drivers Lib

namespace Clock

open Drivers.Clock

def words : List (BitVec 32 → BitVec 16) :=
  [fun cnt => cnt.extractLsb' 0 16, fun cnt => cnt.extractLsb' 16 16]

def count (cnt : BitVec 32) (_ : Unit) : BitVec 32 := cnt + 1

theorem foldl_count (cnt : BitVec 32) (served : List Unit) :
    served.foldl count cnt = cnt + BitVec.ofNat 32 served.length := by
  induction served generalizing cnt with
  | nil => simp
  | cons _ served ih =>
    rw [List.foldl_cons, ih, count, List.length_cons, BitVec.add_assoc, BitVec.add_comm 1,
      BitVec.ofNat_add]
    rfl

theorem append_words (cnt : BitVec 32) :
    (cnt.extractLsb' 16 16 ++ cnt.extractLsb' 0 16 : BitVec 32) = cnt := by
  rw [BitVec.extractLsb'_append_extractLsb'_eq_extractLsb' (by rfl)]
  exact BitVec.extractLsb'_eq_self

def At : MillisPoint → Option (List (BitVec 16)) → Prop
  | .outside, reading => reading = none
  | .low, reading => reading = some []
  | .high low, reading => reading = some [low]
  | .enable ms, reading => ∃ low high, reading = some [low, high] ∧ ms = millis (high ++ low)

def Returned (result : List (BitVec 16) × Nat) (returned : BitVec 32 × Nat) : Prop :=
  (∃ low high, result.1 = [low, high] ∧ returned.1 = millis (high ++ low)) ∧
    result.2 ≤ returned.2 ∧ returned.2 ≤ result.2 + 1

structure Reads (m : Masked (BitVec 32) Unit (BitVec 16)) (s : Clock) : Prop where
  shared : m.shared = s.watchdogInterruptCnt
  point : At s.main m.reading
  wdtie : s.wdtie = m.reading.isNone
  ticks : s.ticks = m.served.length + s.wdtifg.toNat + s.lost
  returned : List.Forall₂ Returned m.results s.returned

section

variable {m : Masked (BitVec 32) Unit (BitVec 16)} {s : Clock}

theorem Reads.tick (h : Reads m s) : Reads m (s.step .tick) where
  shared := h.shared
  point := h.point
  wdtie := h.wdtie
  returned := h.returned
  ticks := by
    have hticks := h.ticks
    rw [Drivers.Clock.step]
    cases hflag : s.wdtifg <;> simp [hflag] at hticks ⊢ <;> omega

theorem Reads.interrupt (h : Reads m s) (hflag : s.wdtifg = true) (hwdtie : s.wdtie = true) :
    Reads (m.step count words (.serve ())) { s with wdtifg := false }.isrWatchdog := by
  have hreading : m.reading = none := Option.isNone_iff_eq_none.mp (h.wdtie.symm.trans hwdtie)
  have hpoint := h.point
  have hticks := h.ticks
  rw [Masked.step, hreading]
  rw [hreading] at hpoint
  refine ⟨congrArg (· + 1) h.shared, hpoint, hwdtie, ?_, h.returned⟩
  rw [hflag] at hticks
  change s.ticks = (m.served ++ [()]).length + 0 + s.lost
  rw [List.length_append]
  exact hticks

theorem Reads.main (h : Reads m s) : Reads (m.step count words .read) s.stepMillis := by
  have hpoint := h.point
  rw [Masked.step, Masked.stepRead, stepMillis]
  cases hmain : s.main with
  | outside =>
    rw [hmain] at hpoint
    rw [show m.reading = none from hpoint]
    exact ⟨h.shared, rfl, rfl, h.ticks, h.returned⟩
  | low =>
    rw [hmain] at hpoint
    have hreading : m.reading = some [] := hpoint
    have hwdtie := h.wdtie
    rw [hreading] at hwdtie ⊢
    refine ⟨h.shared, ?_, hwdtie, h.ticks, h.returned⟩
    rw [← h.shared]
    rfl
  | high low =>
    rw [hmain] at hpoint
    have hreading : m.reading = some [low] := hpoint
    have hwdtie := h.wdtie
    rw [hreading] at hwdtie ⊢
    refine ⟨h.shared, ?_, hwdtie, h.ticks, h.returned⟩
    rw [← h.shared]
    exact ⟨low, m.shared.extractLsb' 16 16, rfl, rfl⟩
  | enable ms =>
    rw [hmain] at hpoint
    obtain ⟨low, high, hreading, hms⟩ := hpoint
    rw [hreading]
    refine ⟨h.shared, rfl, rfl, h.ticks, ?_⟩
    have hticks : m.served.length ≤ s.ticks - s.lost ∧ s.ticks - s.lost ≤ m.served.length + 1 := by
      have hticks := h.ticks
      have hone := Bool.toNat_le s.wdtifg
      omega
    exact List.rel_append h.returned (.cons ⟨⟨low, high, rfl, hms⟩, hticks⟩ .nil)

theorem Reads.step (h : Reads m s) (event : Event) :
    ∃ events : List (Masked.Event Unit),
      Reads (events.foldl (Masked.step count words) m) (s.step event) := by
  cases event with
  | tick => exact ⟨[], h.tick⟩
  | main => exact ⟨[.read], h.main⟩
  | interrupt =>
    rw [Drivers.Clock.step]
    split
    case isTrue hserved =>
      rw [Bool.and_eq_true] at hserved
      exact ⟨[.serve ()], h.interrupt hserved.1 hserved.2⟩
    case isFalse => exact ⟨[], h⟩

theorem start_reads : Reads (Masked.start 0) start where
  shared := rfl
  point := rfl
  wdtie := rfl
  ticks := rfl
  returned := .nil

theorem run_reads (events : List Event) :
    ∃ m, Masked.Inv count words 0 m ∧ Reads m (run events) := by
  refine Total.foldl_invariant (I := fun s => ∃ m, Masked.Inv count words 0 m ∧ Reads m s)
    (fun s event ⟨m, hm, hreads⟩ => ?_)
    ⟨Masked.start 0, Masked.start_inv 0, start_reads⟩ events
  obtain ⟨events, hstep⟩ := hreads.step event
  exact ⟨_, Total.foldl_invariant (fun _ event h => h.step event) hm events, hstep⟩

end

/-- The value for one count of the ticks, which is behind by one at most. -/
structure Counts (count : Nat) (returned : BitVec 32 × Nat) : Prop where
  ms : returned.1 = millis (BitVec.ofNat 32 count)
  le : count ≤ returned.2
  near : returned.2 ≤ count + 1

theorem foldl_count_zero (served : List Unit) :
    served.foldl count 0 = BitVec.ofNat 32 served.length :=
  (foldl_count 0 served).trans (BitVec.zero_add _)

theorem counts_of_returned {served : List Unit} {result : List (BitVec 16) × Nat}
    {returned : BitVec 32 × Nat} (hle : result.2 ≤ served.length)
    (hsnapshot : result.1 = Masked.snapshot count words 0 (served.take result.2))
    (hreturned : Returned result returned) : Counts result.2 returned := by
  obtain ⟨⟨low, high, hwords, hms⟩, hbefore, hnear⟩ := hreturned
  refine ⟨?_, hbefore, hnear⟩
  have hcount : (served.take result.2).foldl count 0 = BitVec.ofNat 32 result.2 := by
    rw [foldl_count_zero, List.length_take_of_le hle]
  rw [hwords, Masked.snapshot, hcount] at hsnapshot
  obtain ⟨rfl, rfl⟩ : low = _ ∧ high = _ := by simpa [words] using hsnapshot
  rw [hms, append_words]

theorem millis_counts (events : List Event) :
    (∃ counts : List Nat, counts.Pairwise (· ≤ ·) ∧
      List.Forall₂ Counts counts (run events).returned) ∧
    ∃ served, (run events).watchdogInterruptCnt = BitVec.ofNat 32 served ∧
      (run events).ticks = served + (run events).wdtifg.toNat + (run events).lost := by
  obtain ⟨m, hm, hreads⟩ := run_reads events
  refine ⟨⟨m.results.map Prod.snd, hm.sorted, ?_⟩, m.served.length, ?_, hreads.ticks⟩
  · rw [List.forall₂_map_left_iff]
    refine ((List.forall₂_and_left _ _).mpr ⟨hm.results, hreads.returned⟩).imp ?_
    rintro result returned ⟨⟨hle, hsnapshot⟩, hreturned⟩
    exact counts_of_returned hle hsnapshot hreturned
  · rw [← hreads.shared, hm.shared, foldl_count_zero]

end Clock

end Nsumo.App
