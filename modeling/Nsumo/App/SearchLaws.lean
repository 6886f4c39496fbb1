import Nsumo.App.MissionLaws

namespace Nsumo.App

open Common Drivers Lib

/-- How far a search has come: what it is at, the count at which it started to, and the turns it has
taken. -/
structure Sweep : Type where
  search : SearchState
  since : BitVec 32
  turns : Nat

def Sweep.next (sweep : Sweep) (next : Readings) : Sweep :=
  if Elapsed sweep.search.limit sweep.since next then
    ⟨sweep.search.next, next.startCnt, sweep.turns + 1⟩
  else
    sweep

def SearchState.command (side : Side) : SearchState → DriveCommand
  | .rotate => .set side.rotation .fast
  | .forward => .set .forward .fast

def swept (side : Side) (search : SearchState) : (turns : Nat) → List DriveCommand
  | 0 => []
  | turns + 1 => search.command side :: swept side search.next turns

structure Readings.Empty (next : Readings) : Prop where
  line : next.line = .none
  cmd : next.cmd = IrCmd.none
  position : next.enemy.position = .none

section

variable {side : Side} {sweep : Sweep} {next : Readings} {readings rest : List Readings}
  {m : Mission} {data data₀ : StateMachineData}

theorem SearchState.next_next (search : SearchState) : search.next.next = search := by
  cases search <;> rfl

theorem Readings.Empty.retained (h : next.Empty) (inputs : List Input) :
    App.retained 6 (inputs ++ [next.input]) = App.retained 6 inputs := by
  have hnoticed : noticed next.input = false := by
    rw [noticed, Readings.input, h.line, h.position]
    rfl
  rw [retained_concat, hnoticed, if_neg Bool.false_ne_true]

structure Sweeping (side : Side) (data₀ : StateMachineData) (sweep : Sweep) (m : Mission) :
    Prop where
  doing : m.doing = .searching sweep.search sweep.since
  lastSide : m.lastSide = side
  drives : m.drives = swept side sweep.search sweep.turns ++ data₀.drives

theorem Sweeping.step (h : Sweeping side data₀ sweep m) (hnext : next.Empty) :
    ∃ m', m.step next = .ok m' ∧ Sweeping side data₀ (sweep.next next) m' := by
  obtain ⟨hdoing, hside, hdrives⟩ := h
  obtain ⟨doing, last, inputs, drives⟩ := m
  dsimp only at hdoing hdrives
  subst hdoing hdrives
  have hlast (doing : Doing) (drives : List DriveCommand) :
      Mission.lastSide ⟨doing, last, inputs ++ [next.input], drives⟩ = side := by
    rw [Mission.lastSide, hnext.retained]
    exact hside
  have hunseen : next.enemy.bearing = none := by rw [Enemy.bearing, hnext.position]
  rw [Mission.step, if_neg (not_not.mpr hnext.cmd)]
  by_cases hdue : Doing.Due next (.searching sweep.search sweep.since)
  · have hsweep : sweep.next next = ⟨sweep.search.next, next.startCnt, sweep.turns + 1⟩ :=
      if_pos hdue
    rw [goOn_due hdue, hsweep]
    refine ⟨_, rfl, rfl, hlast _ _, ?_⟩
    rw [swept, SearchState.next_next, List.cons_append]
    refine congrArg (· :: _) ?_
    cases sweep.search with
    | rotate => rfl
    | forward =>
      exact congrArg (fun side : Side => DriveCommand.set side.rotation .fast) (hlast _ _)
  · have hsweep : sweep.next next = sweep := if_neg hdue
    rw [Mission.goOn, hsweep]
    dsimp only
    rw [if_neg hdue, if_neg (not_not.mpr hnext.line), Mission.pursue, hunseen]
    exact ⟨_, rfl, rfl, hlast _ _, rfl⟩

end

end Nsumo.App
