import Nsumo.App.CommandLaws

namespace Nsumo.App

open Common Drivers Lib

structure OverLine (next : Readings) (data : StateMachineData) : Prop where
  autonomous : data.state = .search ∨ data.state = .attack ∨ data.state = .retreat
  line : next.line ≠ .none
  cmd : next.cmd = IrCmd.none

def HandlesLine (next : Readings) (data data' : StateMachineData) : Prop :=
  ∃ data₁ timer, processInput next data = .ok (.line, data₁) ∧
    stateRetreatRun next.startCnt { data₁ with timer := timer, state := .retreat } = .ok data'

/-- The ticks from the last reading of the clock in one iteration to the first in the next. -/
def ticksBetween (earlier later : Readings) : Nat := (later.pollCnt - earlier.startCnt).toNat

structure Fresh (readings : Readings) (data : StateMachineData) : Prop where
  internalEvent : data.internalEvent = .none
  timer : ∃ timeoutMs : BitVec 32, 250 ≤ timeoutMs.toNat ∧ timeoutMs.toNat ≤ 5000 ∧
    data.timer = timerStart readings.startCnt timeoutMs

section

variable {cnt : BitVec 32} {next earlier : Readings} {data data' : StateMachineData}

theorem OverLine.auto (h : OverLine next data) : data.state.autonomous = true := by
  obtain hs | hs | hs := h.autonomous <;> rw [hs] <;> rfl

theorem fresh_searchStart (h : data.internalEvent = .none) :
    Fresh next (searchStart next.startCnt data) := by
  refine ⟨h, _, ?_, ?_, rfl⟩ <;> cases data.search.state <;> decide

theorem later_duration {retreat : RetreatState} {moveIdx : Nat} {move : Move}
    (h : (retreatStates retreat).moves[moveIdx + 1]? = some move) :
    250 ≤ (move.duration.setWidth 32).toNat ∧ (move.duration.setWidth 32).toNat ≤ 5000 := by
  cases retreat <;> rcases moveIdx with _ | _ | _ <;> cases h <;> decide

theorem fresh_nextMove (h : data.internalEvent = .none)
    (hidx : data.retreat.moveIdx + 1 < (retreatStates data.retreat.state).moveCnt) :
    Fresh next (moveStart next.startCnt
      { data with retreat.moveIdx := data.retreat.moveIdx + 1 }) := by
  obtain ⟨hge, hle⟩ := later_duration
    (@currentMove_get { data.retreat with moveIdx := data.retreat.moveIdx + 1 } hidx)
  exact ⟨h, _, hge, hle, rfl⟩

theorem processEvent_line (hauto : data.state.autonomous = true) :
    ∃ timer, processEvent cnt .line data =
      stateRetreatRun cnt { data with timer := timer, state := .retreat } := by
  cases hs : data.state with
  | wait | manual => simp [hs, State.autonomous] at hauto
  | search | attack =>
    refine ⟨timerCleared, ?_⟩
    rw [processEvent_row .retreat (by rw [hs]; rfl), hs]
    rfl
  | retreat =>
    refine ⟨data.timer, ?_⟩
    rw [processEvent_row .retreat (by rw [hs]; rfl), hs]
    change stateRetreatRun cnt data = _
    rw [← hs]

theorem handlesLine_of_input {data₁ : StateMachineData} (hauto : data₁.state.autonomous = true)
    (hinput : processInput next data = .ok (.line, data₁)) (hi : iteration next data = .ok data') :
    HandlesLine next data data' := by
  obtain ⟨timer, hevent⟩ := @processEvent_line next.startCnt _ hauto
  rw [iteration, hinput, Run.ok_bind] at hi
  exact ⟨data₁, timer, hinput, hevent.symm.trans hi⟩

theorem not_handlesLine {event : StateEvent} {data₁ : StateMachineData} (hevent : event ≠ .line)
    (hinput : processInput next data = .ok (event, data₁)) : ¬HandlesLine next data data' := by
  rintro ⟨data₂, timer, hline, -⟩
  cases hinput.symm.trans hline
  exact hevent rfl

theorem Settled.ignores_line (h : Settled data) (hover : OverLine next data)
    (hi : iteration next data = .ok data') :
    HandlesLine next data data' ∨ Fresh next data' ∨
      data.internalEvent = .none ∧ data'.internalEvent = .finished := by
  obtain ⟨history, -, event, data₁, hinput, htaken⟩ := processInput_taken next data
  have hread := h.reading next history
  have hi' := hi
  rw [iteration, hinput, Run.ok_bind] at hi
  have hp := processEvent_ok hi
  have hauto : data₁.state.autonomous = true := by
    rw [htaken.state]
    exact hover.auto
  cases htaken with
  | command hcmd => exact absurd hover.cmd hcmd
  | enemy _ hline | none _ hline => exact absurd hline hover.line
  | line => exact .inl (handlesLine_of_input hauto hinput hi')
  | internal _ hpending =>
    refine .inr (.inl ?_)
    rw [hread.internalEvent.resolve_left hpending] at hp
    cases hp with
    | idle _ hevent | retreatStay _ hevent => simp at hevent
    | finished => exact fresh_searchStart rfl
  | timeout _ hnone =>
    refine .inr ?_
    cases hp with
    | idle _ hevent | retreatStay _ hevent => simp at hevent
    | searchTimeout => exact .inl (fresh_searchStart hnone)
    | nextMove _ hidx => exact .inl (fresh_nextMove hnone hidx)
    | lastMove => exact .inr ⟨hnone, rfl⟩

theorem Fresh.handles_line (h : Fresh earlier data) (hover : OverLine next data)
    (hsoon : ticksBetween earlier next < 300) (hi : iteration next data = .ok data') :
    HandlesLine next data data' := by
  obtain ⟨hnone, timeoutMs, hge, hle, htimer⟩ := h
  obtain ⟨history, -, event, data₁, hinput, htaken⟩ := processInput_taken next data
  cases htaken with
  | command hcmd => exact absurd hover.cmd hcmd
  | internal _ hpending => exact absurd hnone hpending
  | enemy _ hline | none _ hline => exact absurd hline hover.line
  | timeout _ _ htime =>
    have hwaits : timerTimeout next.pollCnt (timerStart earlier.startCnt timeoutMs) = false :=
      timerTimeout_of_soon (by omega) (by omega) (by unfold ticksBetween at hsoon; omega)
    rw [← htimer] at hwaits
    cases htime.symm.trans hwaits
  | line => exact handlesLine_of_input (by exact hover.auto) hinput hi

theorem line_handled_in_three {readings : List Readings} {first second third : Readings}
    {data₀ data₁ data₂ data₃ : StateMachineData} (hrun : stateMachineRun readings = .ok data₀)
    (hfirst : iteration first data₀ = .ok data₁) (hsecond : iteration second data₁ = .ok data₂)
    (hthird : iteration third data₂ = .ok data₃) (hover₀ : OverLine first data₀)
    (hover₁ : OverLine second data₁) (hover₂ : OverLine third data₂)
    (hsoon₁ : ticksBetween first second < 300) (hsoon₂ : ticksBetween second third < 300) :
    HandlesLine first data₀ data₁ ∨ HandlesLine second data₁ data₂ ∨
      HandlesLine third data₂ data₃ := by
  have hsettled := settled_of_run hrun
  obtain hline | hfresh | ⟨-, hfinished⟩ := hsettled.ignores_line hover₀ hfirst
  · exact .inl hline
  · exact .inr (.inl (hfresh.handles_line hover₁ hsoon₁ hsecond))
  · have hsettled₁ := settled_iteration hsettled hfirst
    obtain hline | hfresh | ⟨hnone, -⟩ := hsettled₁.ignores_line hover₁ hsecond
    · exact .inr (.inl hline)
    · exact .inr (.inr (hfresh.handles_line hover₂ hsoon₂ hthird))
    · cases hnone.symm.trans hfinished

theorem line_handled_in_three_retreat :
    ∃ data₀ data₁ data₂ data₃, stateMachineRun
        [⟨enemyNone, .none, IrCmd.up, 0, 0⟩, ⟨enemyNone, .back, IrCmd.none, 10, 10⟩] = .ok data₀ ∧
      iteration ⟨enemyNone, .front, IrCmd.none, 700, 700⟩ data₀ = .ok data₁ ∧
      iteration ⟨enemyNone, .front, IrCmd.none, 900, 900⟩ data₁ = .ok data₂ ∧
      iteration ⟨enemyNone, .front, IrCmd.none, 1100, 1100⟩ data₂ = .ok data₃ ∧
      ¬HandlesLine ⟨enemyNone, .front, IrCmd.none, 700, 700⟩ data₀ data₁ ∧
      ¬HandlesLine ⟨enemyNone, .front, IrCmd.none, 900, 900⟩ data₁ data₂ ∧
      HandlesLine ⟨enemyNone, .front, IrCmd.none, 1100, 1100⟩ data₂ data₃ := by
  have hrun : ∃ data₀ data₁ data₂ data₃ data₁' data₂', stateMachineRun
        [⟨enemyNone, .none, IrCmd.up, 0, 0⟩, ⟨enemyNone, .back, IrCmd.none, 10, 10⟩] = .ok data₀ ∧
      iteration ⟨enemyNone, .front, IrCmd.none, 700, 700⟩ data₀ = .ok data₁ ∧
      iteration ⟨enemyNone, .front, IrCmd.none, 900, 900⟩ data₁ = .ok data₂ ∧
      iteration ⟨enemyNone, .front, IrCmd.none, 1100, 1100⟩ data₂ = .ok data₃ ∧
      data₀.state = .retreat ∧ data₁.state = .retreat ∧ data₂.state = .search ∧
      processInput ⟨enemyNone, .front, IrCmd.none, 700, 700⟩ data₀ = .ok (.timeout, data₁') ∧
      processInput ⟨enemyNone, .front, IrCmd.none, 900, 900⟩ data₁ = .ok (.finished, data₂') :=
    ⟨_, _, _, _, _, _, rfl, rfl, rfl, rfl, rfl, rfl, rfl, rfl, rfl⟩
  obtain ⟨data₀, data₁, data₂, data₃, data₁', data₂', h, hfirst, hsecond, hthird, hs₀, hs₁, hs₂,
    htimeout, hfinished⟩ := hrun
  have hnot₁ : ¬HandlesLine ⟨enemyNone, .front, IrCmd.none, 700, 700⟩ data₀ data₁ :=
    not_handlesLine (by decide) htimeout
  have hnot₂ : ¬HandlesLine ⟨enemyNone, .front, IrCmd.none, 900, 900⟩ data₁ data₂ :=
    not_handlesLine (by decide) hfinished
  have hline := line_handled_in_three h hfirst hsecond hthird
    ⟨.inr (.inr hs₀), by decide, rfl⟩ ⟨.inr (.inr hs₁), by decide, rfl⟩ ⟨.inl hs₂, by decide, rfl⟩
    (by decide) (by decide)
  exact ⟨data₀, data₁, data₂, data₃, h, hfirst, hsecond, hthird, hnot₁, hnot₂,
    (hline.resolve_left hnot₁).resolve_left hnot₂⟩

end

end Nsumo.App
