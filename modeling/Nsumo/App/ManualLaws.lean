import Nsumo.App.TransitionLaws

namespace Nsumo.App

open Common Drivers Lib

def namedCmds : List IrCmd :=
  [IrCmd.zero, IrCmd.one, IrCmd.two, IrCmd.three, IrCmd.four, IrCmd.five, IrCmd.six, IrCmd.seven,
    IrCmd.eight, IrCmd.nine, IrCmd.star, IrCmd.hash, IrCmd.up, IrCmd.down, IrCmd.left, IrCmd.right,
    IrCmd.ok]

/-- What the motors do: the last call of the drive interface. -/
def motorCommand (data : StateMachineData) : Option DriveCommand := data.drives.head?

/-- After the iteration that consumes `cmd` in an autonomous state, the motor command is the same,
whatever the robot was doing. -/
def TakesOver (cmd : IrCmd) : Prop :=
  ∀ readings₁ readings₂ data₁ data₂ next₁ next₂,
    stateMachineRun readings₁ = .ok data₁ → stateMachineRun readings₂ = .ok data₂ →
    data₁.state.autonomous = true → data₂.state.autonomous = true →
    next₁.cmd = cmd → next₂.cmd = cmd →
    ∃ data₁' data₂', iteration next₁ data₁ = .ok data₁' ∧ iteration next₂ data₂ = .ok data₂' ∧
      data₁'.state = .manual ∧ data₂'.state = .manual ∧ motorCommand data₁' = motorCommand data₂'

theorem manualDrive_isSome : ∀ cmd, (manualDrive cmd).isSome = true ↔ cmd ∈ namedCmds := by
  decide +kernel

section

variable {next : Readings} {data data' : StateMachineData}

theorem iteration_takesOver (hcmd : next.cmd ≠ IrCmd.none) (hauto : data.state.autonomous = true) :
    ∃ data', iteration next data = .ok data' ∧ data'.state = .manual ∧
      data'.drives = (manualDrive next.cmd).toList ++ data.drives := by
  obtain ⟨history, data', hi, hp⟩ := iteration_command hcmd data
  refine ⟨data', hi, ?_⟩
  cases hp with
  | idle _ hevent | retreatStay _ hevent => simp at hevent
  | start hs | manualCommand hs =>
    change data.state = _ at hs
    simp [hs, State.autonomous] at hauto
  | takeOver => exact ⟨rfl, rfl⟩

theorem takesOver_of_named {cmd : IrCmd} (hcmd : cmd ≠ IrCmd.none) (hnamed : cmd ∈ namedCmds) :
    TakesOver cmd := by
  rintro _ _ data₁ data₂ next₁ next₂ - - hauto₁ hauto₂ rfl hsame
  obtain ⟨command, hcommand⟩ := Option.isSome_iff_exists.mp ((manualDrive_isSome _).mpr hnamed)
  obtain ⟨data₁', hi₁, hs₁, hdrives₁⟩ := iteration_takesOver hcmd hauto₁
  obtain ⟨data₂', hi₂, hs₂, hdrives₂⟩ := iteration_takesOver (hsame ▸ hcmd) hauto₂
  refine ⟨data₁', data₂', hi₁, hi₂, hs₁, hs₂, ?_⟩
  rw [motorCommand, motorCommand, hdrives₁, hdrives₂, hsame, hcommand]
  rfl

end

def searching : List Readings := [⟨enemyNone, .none, IrCmd.up, 0, 0⟩]

def attacking : List Readings := searching ++ [⟨⟨.front, .far⟩, .none, IrCmd.none, 0, 0⟩]

theorem named_of_takesOver {cmd : IrCmd} (hcmd : cmd ≠ IrCmd.none) (h : TakesOver cmd) :
    cmd ∈ namedCmds := by
  by_contra hnamed
  have hnone : manualDrive cmd = none := by
    rw [← Option.not_isSome_iff_eq_none, manualDrive_isSome]
    exact hnamed
  have hdrives {data data' : StateMachineData} {next : Readings} (hnext : next.cmd = cmd)
      (hauto : data.state.autonomous = true) (hi : iteration next data = .ok data') :
      motorCommand data' = motorCommand data := by
    obtain ⟨data'', hi', -, hdrives⟩ := iteration_takesOver (hnext ▸ hcmd) hauto
    cases hi'.symm.trans hi
    rw [motorCommand, hdrives, hnext, hnone]
    rfl
  obtain ⟨data₁', data₂', hi₁, hi₂, -, -, hsame⟩ :=
    h searching attacking _ _ ⟨enemyNone, .none, cmd, 0, 0⟩ ⟨enemyNone, .none, cmd, 0, 0⟩
      rfl rfl rfl rfl rfl rfl
  rw [hdrives rfl rfl hi₁, hdrives rfl rfl hi₂] at hsame
  cases hsame

theorem takesOver_iff (cmd : IrCmd) (hcmd : cmd ≠ IrCmd.none) :
    TakesOver cmd ↔ cmd ∈ namedCmds :=
  ⟨named_of_takesOver hcmd, takesOver_of_named hcmd⟩

theorem takesOver_iff_star : TakesOver IrCmd.star ↔ IrCmd.star ∈ namedCmds :=
  takesOver_iff IrCmd.star (by decide)

theorem not_takesOver_zero : (0x00 : IrCmd) ≠ IrCmd.none ∧ ¬TakesOver 0x00 := by
  refine ⟨by decide, fun h => ?_⟩
  exact absurd (named_of_takesOver (by decide) h) (by decide)

end Nsumo.App
