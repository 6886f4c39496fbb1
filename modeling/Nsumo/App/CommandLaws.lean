import Nsumo.App.TransitionLaws

namespace Nsumo.App

open Common Drivers Lib

def consumed (readings : List Readings) : Nat := readings.countP fun next => next.cmd != IrCmd.none

def State.After (m : Nat) : State → Prop
  | .wait => m = 0
  | .search | .attack | .retreat => m = 1
  | .manual => 2 ≤ m

structure Commanded (readings : List Readings) (data : StateMachineData) : Prop where
  wait : consumed readings = 0 → data.state = .wait ∧ data.drives = []
  driving : consumed readings = 1 →
    data.state = .search ∨ data.state = .attack ∨ data.state = .retreat
  manual : 2 ≤ consumed readings → data.state = .manual
  driven (next : Readings) (data' : StateMachineData) : iteration next data = .ok data' →
    data.state = .manual ∨ data'.state = .manual → data'.drives ≠ data.drives →
    next.cmd ≠ IrCmd.none

section

variable {cnt : BitVec 32} {m : Nat} {next : Readings} {readings : List Readings}
  {data data' : StateMachineData}

theorem consumed_append (readings : List Readings) (next : Readings) :
    consumed (readings ++ [next]) = consumed readings + if next.cmd = IrCmd.none then 0 else 1 := by
  by_cases hcmd : next.cmd = IrCmd.none <;> simp [consumed, hcmd]

theorem State.after_autonomous {s : State} (hauto : s.autonomous = true) : s.After m ↔ m = 1 := by
  cases s with
  | wait | manual => cases hauto
  | search | attack | retreat => exact Iff.rfl

theorem Processed.after_command (h : Processed cnt data .command data')
    (hm : data.state.After m) : data'.state.After (m + 1) := by
  cases h with
  | idle _ hevent | retreatStay _ hevent => simp at hevent
  | start hs =>
    rw [hs] at hm
    exact congrArg (· + 1) hm
  | takeOver hauto =>
    rw [State.after_autonomous hauto] at hm
    exact (congrArg (· + 1) hm).ge
  | manualCommand hs =>
    rw [hs] at hm
    change State.After (m + 1) data.state
    rw [hs]
    exact Nat.le_succ_of_le hm

theorem Processed.without_command {event : StateEvent} (h : Processed cnt data event data')
    (hevent : event ≠ .command) :
    data' = data ∨ data.state.autonomous = true ∧ data'.state.autonomous = true := by
  cases h with
  | start | takeOver | manualCommand => exact absurd rfl hevent
  | idle | searchNone | enemyKept | retreatStay => exact .inl rfl
  | searchTimeout hs | enemyFound hs | enemyMoved hs | enemyLost hs | finished hs | nextMove hs =>
    exact .inr ⟨by rw [hs]; rfl, rfl⟩
  | lastMove hs => exact .inr ⟨by rw [hs]; rfl, by rw [hs]; rfl⟩
  | line hauto => exact .inr ⟨hauto, rfl⟩

theorem Settled.not_command (h : Settled data) (hcmd : data.common.cmd = IrCmd.none)
    {event : StateEvent} (htaken : Taken cnt data event data') : event ≠ .command := by
  cases htaken with
  | command hcmd' => exact absurd hcmd hcmd'
  | internal =>
    obtain hevent | hevent := h.internalEvent <;> rw [hevent] <;> decide
  | timeout | line | enemy | none => decide

theorem Settled.without_command (h : Settled data) (hcmd : next.cmd = IrCmd.none)
    (hi : iteration next data = .ok data') :
    data'.state = data.state ∧ data'.drives = data.drives ∨
      data.state.autonomous = true ∧ data'.state.autonomous = true := by
  obtain ⟨history, event, data₁, htaken, hp⟩ := iteration_ok hi
  have hevent := (h.reading next history).not_command hcmd htaken
  obtain rfl | ⟨hauto, hauto'⟩ := hp.without_command hevent
  · exact .inl ⟨htaken.state, htaken.drives⟩
  · rw [htaken.state] at hauto
    exact .inr ⟨hauto, hauto'⟩

theorem iteration_after (h : Settled data) (hm : data.state.After m)
    (hi : iteration next data = .ok data') :
    data'.state.After (m + if next.cmd = IrCmd.none then 0 else 1) := by
  by_cases hcmd : next.cmd = IrCmd.none
  · rw [if_pos hcmd]
    obtain ⟨hs, -⟩ | ⟨hauto, hauto'⟩ := h.without_command hcmd hi
    · rwa [hs]
    · rw [State.after_autonomous hauto] at hm
      exact (State.after_autonomous hauto').mpr hm
  · rw [if_neg hcmd]
    obtain ⟨history, data'', hi', hp⟩ := iteration_command hcmd data
    cases hi'.symm.trans hi
    exact hp.after_command hm

theorem after_of_run (h : stateMachineRun readings = .ok data) :
    data.state.After (consumed readings) := by
  have hboth : Settled data ∧ data.state.After (consumed readings) := by
    refine Run.run_prefix_invariant (I := fun is t => Settled t ∧ t.state.After (consumed is))
      ⟨settled_init, rfl⟩ ?_ h
    rintro is i s t ⟨hs, hm⟩ hi
    rw [consumed_append]
    exact ⟨settled_iteration hs hi, iteration_after hs hm hi⟩
  exact hboth.2

theorem Settled.driven (h : Settled data) (hi : iteration next data = .ok data')
    (hs : data.state = .manual ∨ data'.state = .manual) (hdrives : data'.drives ≠ data.drives) :
    next.cmd ≠ IrCmd.none := by
  intro hcmd
  obtain ⟨-, hsame⟩ | ⟨hauto, hauto'⟩ := h.without_command hcmd hi
  · exact hdrives hsame
  · obtain hs | hs := hs
    · rw [hs] at hauto
      cases hauto
    · rw [hs] at hauto'
      cases hauto'

theorem commanded_of_run (h : stateMachineRun readings = .ok data) : Commanded readings data := by
  have hsettled := settled_of_run h
  have hafter := after_of_run h
  constructor
  case wait =>
    intro hm
    rw [hm] at hafter
    cases hs : data.state with
    | wait =>
      cases hsettled with
      | wait _ _ _ hdrives => exact ⟨rfl, hdrives⟩
      | search hs' | attack hs' | moving hs' | moved hs' | manual hs' => cases hs.symm.trans hs'
    | search | attack | retreat | manual => simp [hs, State.After] at hafter
  case driving =>
    intro hm
    rw [hm] at hafter
    cases hs : data.state <;> simp [hs, State.After] at hafter ⊢
  case manual =>
    intro hm
    cases hs : data.state with
    | manual => rfl
    | wait | search | attack | retreat => simp [hs, State.After] at hafter; omega
  case driven => exact fun next data' hi hs hdrives => hsettled.driven hi hs hdrives

theorem Settled.wait_goes_on (h : Settled data) (hs : data.state = .wait) (next : Readings) :
    ∃ data', iteration next data = .ok data' := by
  cases hi : iteration next data with
  | ok data' => exact ⟨data', rfl⟩
  | error site =>
    obtain ⟨history, event, data₁, htaken, hfailed⟩ := iteration_error hi
    have hread := h.reading next history
    have hs₁ : data₁.state = .wait := htaken.state.trans hs
    cases hfailed with
    | noTransition hrow =>
      have hmanual := (hread.noRow htaken hrow).1.state
      cases hs.symm.trans hmanual
    | attackState hs' => simp [hs₁] at hs'
    | retreatState hauto => simp [hs₁, State.autonomous] at hauto
    | attackTimeout hs' | moveIdx hs' | pending hs' => cases hs₁.symm.trans hs'

theorem consumed_of_halt {site : Assert} (h : stateMachineRun readings = .error site) :
    0 < consumed readings := by
  obtain ⟨pre, next, post, data, rfl, hpre, hi⟩ := Run.run_error h
  have hle : consumed pre ≤ consumed (pre ++ next :: post) := by
    simp [consumed, List.countP_append]
  refine Nat.lt_of_lt_of_le (Nat.pos_of_ne_zero fun hm => ?_) hle
  obtain ⟨data', hok⟩ :=
    (settled_of_run hpre).wait_goes_on ((commanded_of_run hpre).wait hm).1 next
  cases hok.symm.trans hi

theorem mode_of_commands (readings : List Readings) :
    (∀ data, stateMachineRun readings = .ok data → Commanded readings data) ∧
      ∀ site, stateMachineRun readings = .error site → 0 < consumed readings :=
  ⟨fun _ h => commanded_of_run h, fun _ h => consumed_of_halt h⟩

theorem mode_of_commands_takeOver :
    ∃ data, stateMachineRun
        [⟨enemyNone, .none, IrCmd.up, 0, 0⟩, ⟨enemyNone, .none, IrCmd.none, 10, 10⟩,
          ⟨enemyNone, .none, IrCmd.left, 20, 20⟩] = .ok data ∧
      data.state = .manual ∧ Commanded
        [⟨enemyNone, .none, IrCmd.up, 0, 0⟩, ⟨enemyNone, .none, IrCmd.none, 10, 10⟩,
          ⟨enemyNone, .none, IrCmd.left, 20, 20⟩] data := by
  have hrun : ∃ data, stateMachineRun
        [⟨enemyNone, .none, IrCmd.up, 0, 0⟩, ⟨enemyNone, .none, IrCmd.none, 10, 10⟩,
          ⟨enemyNone, .none, IrCmd.left, 20, 20⟩] = .ok data ∧ data.state = .manual :=
    ⟨_, rfl, rfl⟩
  obtain ⟨data, h, hs⟩ := hrun
  exact ⟨data, h, hs, (mode_of_commands _).1 data h⟩

end

end Nsumo.App
