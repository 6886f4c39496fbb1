import Nsumo.App.Invariant

namespace Nsumo.App

open Common Drivers Lib

theorem transition_ne_none {src : State} {event : StateEvent} :
    transition src event ≠ none ↔ ∃ dst, ⟨src, event, dst⟩ ∈ stateTransitions := by
  constructor
  · intro h
    obtain ⟨dst, hdst⟩ := Option.ne_none_iff_exists'.mp h
    obtain ⟨t, ht, -⟩ := Option.map_eq_some_iff.mp hdst
    have heq := List.find?_some ht
    simp only [Bool.and_eq_true, beq_iff_eq] at heq
    obtain ⟨rfl, rfl⟩ := heq
    exact ⟨t.dst, List.mem_of_find?_eq_some ht⟩
  · rintro ⟨dst, hrow⟩ h
    have hnone := List.find?_eq_none.mp (Option.map_eq_none_iff.mp h) _ hrow
    simp at hnone

def RowsFound (readings : List Readings) : Prop :=
  ∀ before next after data event data', readings = before ++ next :: after →
    stateMachineRun before = .ok data → processInput next data = .ok (event, data') →
    ∃ dst, ⟨data'.state, event, dst⟩ ∈ stateTransitions

/-- A command read while an internal event is pending is followed by commands only. -/
def CommandsFollow (readings : List Readings) : Prop :=
  ∀ before next after data, readings = before ++ next :: after →
    stateMachineRun before = .ok data → hasInternalEvent data = true →
    next.cmd ≠ IrCmd.none → ∀ later ∈ after, later.cmd ≠ IrCmd.none

/-- MANUAL entered over a pending event, which has no row there. -/
structure Stranded (data : StateMachineData) : Prop where
  state : data.state = .manual
  internalEvent : data.internalEvent = .finished

section

variable {cnt : BitVec 32} {next : Readings} {data data' : StateMachineData}

theorem Settled.pending (h : Settled data) (hpending : hasInternalEvent data = true) :
    data.internalEvent = .finished :=
  h.internalEvent.resolve_left (by simpa [hasInternalEvent] using hpending)

theorem Taken.state {event : StateEvent} (h : Taken cnt data event data') :
    data'.state = data.state := by
  cases h <;> rfl

theorem Settled.noRow (h : Settled data) {event : StateEvent} (htaken : Taken cnt data event data')
    (hrow : transition data'.state event = none) :
    Stranded data ∧ data.common.cmd = IrCmd.none := by
  rw [htaken.state, transition_eq_none] at hrow
  cases htaken with
  | command | line | enemy | none => simp at hrow
  | timeout _ _ htime =>
    obtain ⟨-, hidle⟩ := hrow.resolve_right (by simp)
    simp [timerTimeout, h.timer hidle] at htime
  | internal hcmd hpending =>
    have hfinished := h.internalEvent.resolve_left hpending
    rw [hfinished] at hrow
    obtain ⟨-, hs⟩ := hrow.resolve_left (by simp)
    refine ⟨⟨?_, hfinished⟩, hcmd⟩
    cases h with
    | manual hs' => exact hs'
    | wait _ _ hnone | search _ _ hnone | attack _ _ hnone | moving _ _ hnone =>
      exact absurd hnone hpending
    | moved hs' => exact absurd hs' hs

theorem Processed.internalEvent {event : StateEvent} (h : Processed cnt data event data')
    (hs : data'.state = .manual) : data'.internalEvent = data.internalEvent := by
  cases h with
  | lastMove hs' => cases hs'.symm.trans hs
  | _ => rfl

theorem Taken.of_command {event : StateEvent} (h : Taken cnt data event data')
    (hcmd : data.common.cmd ≠ IrCmd.none) : event = .command ∧ data' = data := by
  cases h with
  | command => exact ⟨rfl, rfl⟩
  | internal hnone | timeout hnone => exact absurd hnone hcmd
  | line hquiet | enemy hquiet | none hquiet => exact absurd hquiet.cmd hcmd

theorem Stranded.origin (hi : iteration next data = .ok data') (h : Stranded data') :
    hasInternalEvent data = true ∧ next.cmd ≠ IrCmd.none := by
  obtain ⟨history, event, data₁, htaken, hp⟩ := iteration_ok hi
  have hfinished := (hp.internalEvent h.state).symm.trans h.internalEvent
  cases htaken with
  | command hcmd =>
    have hpending : data.internalEvent = .finished := hfinished
    exact ⟨by rw [hasInternalEvent, hpending]; rfl, hcmd⟩
  | internal => cases hfinished
  | timeout _ hnone => cases hnone.symm.trans hfinished
  | line hquiet | enemy hquiet | none hquiet => cases hquiet.internalEvent.symm.trans hfinished

theorem iteration_command (hcmd : next.cmd ≠ IrCmd.none) (data : StateMachineData) :
    ∃ history data', iteration next data = .ok data' ∧
      Processed next.startCnt (data.reading next history) .command data' := by
  cases hi : iteration next data with
  | ok data' =>
    obtain ⟨history, event, data₁, htaken, hp⟩ := iteration_ok hi
    obtain ⟨rfl, rfl⟩ := htaken.of_command hcmd
    exact ⟨history, data', rfl, hp⟩
  | error site =>
    obtain ⟨history, event, data₁, htaken, hfailed⟩ := iteration_error hi
    obtain ⟨rfl, rfl⟩ := htaken.of_command hcmd
    cases hfailed with
    | noTransition hrow => simp [transition_eq_none] at hrow
    | attackState _ hevent => simp at hevent

theorem Settled.strand (h : Settled data) (hpending : hasInternalEvent data = true)
    (hcmd : next.cmd ≠ IrCmd.none) : ∃ data', iteration next data = .ok data' ∧ Stranded data' := by
  have hfinished := h.pending hpending
  obtain ⟨history, data', hi, hp⟩ := iteration_command hcmd data
  refine ⟨data', hi, ?_⟩
  cases hp with
  | idle _ hevent | retreatStay _ hevent => simp at hevent
  | takeOver => exact ⟨rfl, hfinished⟩
  | manualCommand hs => exact ⟨hs, hfinished⟩
  | start hs =>
    cases h with
    | wait _ _ hnone => cases hnone.symm.trans hfinished
    | search hs' | attack hs' | moving hs' | moved hs' | manual hs' => cases hs'.symm.trans hs

theorem Stranded.takes_finished (h : Stranded data) (hcmd : next.cmd = IrCmd.none) :
    ∃ data', processInput next data = .ok (.finished, data') ∧ data'.state = .manual := by
  obtain ⟨history, -, event, data', hinput, htaken⟩ := processInput_taken next data
  have hs := htaken.state.trans h.state
  cases htaken with
  | command hcmd' => exact absurd hcmd hcmd'
  | internal => exact ⟨_, by rw [hinput]; exact congrArg _ (congrArg (·, _) h.internalEvent), hs⟩
  | timeout _ hnone => cases hnone.symm.trans h.internalEvent
  | line hquiet | enemy hquiet | none hquiet =>
    cases hquiet.internalEvent.symm.trans h.internalEvent

theorem Stranded.keeps (h : Stranded data) (hcmd : next.cmd ≠ IrCmd.none) :
    ∃ data', iteration next data = .ok data' ∧ Stranded data' := by
  obtain ⟨history, data', hi, hp⟩ := iteration_command hcmd data
  refine ⟨data', hi, ?_⟩
  cases hp with
  | manualCommand hs => exact ⟨hs, h.internalEvent⟩
  | idle _ hevent | retreatStay _ hevent => simp at hevent
  | start hs => cases h.state.symm.trans hs
  | takeOver hauto => simp [StateMachineData.reading, h.state, State.autonomous] at hauto

theorem Stranded.commands {readings before after : List Readings} (hrows : RowsFound readings)
    (hsplit : readings = before ++ after) (hrun : stateMachineRun before = .ok data)
    (h : Stranded data) : ∀ later ∈ after, later.cmd ≠ IrCmd.none := by
  induction after generalizing before data with
  | nil => simp
  | cons next after ih =>
    have hcmd : next.cmd ≠ IrCmd.none := by
      intro hcmd
      obtain ⟨data', hinput, hs⟩ := h.takes_finished hcmd
      obtain ⟨dst, hrow⟩ := hrows before next after data .finished data' hsplit hrun hinput
      exact transition_ne_none.mpr ⟨dst, hrow⟩ (by rw [hs]; rfl)
    obtain ⟨data', hi, hstranded⟩ := h.keeps hcmd
    have hsplit' : readings = (before ++ [next]) ++ after := by simpa using hsplit
    have hnext := ih hsplit' (Run.run_concat_ok.mpr ⟨data, hrun, hi⟩) hstranded
    simpa [hcmd] using hnext

theorem commandsFollow_of_rowsFound {readings : List Readings} (hrows : RowsFound readings) :
    CommandsFollow readings := by
  intro before next after data hsplit hrun hpending hcmd
  obtain ⟨data', hi, hstranded⟩ := (settled_of_run hrun).strand hpending hcmd
  exact hstranded.commands hrows (by simpa using hsplit)
    (Run.run_concat_ok.mpr ⟨data, hrun, hi⟩)

theorem rowsFound_of_commandsFollow {readings : List Readings} (h : CommandsFollow readings) :
    RowsFound readings := by
  intro before next after data event data' hsplit hrun hinput
  refine transition_ne_none.mp fun hrow => ?_
  obtain ⟨history, htaken⟩ := processInput_ok hinput
  obtain ⟨hstranded, hcmd⟩ := ((settled_of_run hrun).reading next history).noRow htaken hrow
  have hstranded : Stranded data := ⟨hstranded.state, hstranded.internalEvent⟩
  obtain ⟨rfl, rfl⟩ | ⟨earlier, last, data₀, rfl, hearlier, hlast⟩ := Run.run_last hrun
  · cases hstranded.state
  · obtain ⟨hpending, hlastCmd⟩ := hstranded.origin hlast
    exact h earlier last (next :: after) data₀ (by simpa using hsplit) hearlier hpending hlastCmd
      next List.mem_cons_self hcmd

theorem run_ne_processEvent {readings : List Readings} (hrows : RowsFound readings) :
    stateMachineRun readings ≠ .error .processEvent := by
  intro h
  obtain ⟨before, next, after, data, hsplit, hrun, hi⟩ := Run.run_error h
  obtain ⟨history, -, event, data', hinput, -⟩ := processInput_taken next data
  have hrow := transition_ne_none.mpr (hrows before next after data event data' hsplit hrun hinput)
  rw [iteration, hinput] at hi
  cases processEvent_error hi with
  | noTransition hnone => exact hrow hnone

theorem rowsFound_iff (readings : List Readings) :
    RowsFound readings ∧ stateMachineRun readings ≠ .error .processEvent ↔
      CommandsFollow readings :=
  ⟨fun h => commandsFollow_of_rowsFound h.1, fun h =>
    have hrows := rowsFound_of_commandsFollow h
    ⟨hrows, run_ne_processEvent hrows⟩⟩

theorem not_rowsFound :
    let readings : List Readings := [⟨enemyNone, .none, IrCmd.up, 0, 0⟩,
      ⟨enemyNone, .back, IrCmd.none, 10, 10⟩, ⟨enemyNone, .none, IrCmd.none, 1000, 1000⟩,
      ⟨enemyNone, .none, IrCmd.up, 1002, 1002⟩, ⟨enemyNone, .none, IrCmd.none, 1004, 1004⟩]
    ¬ RowsFound readings ∧ stateMachineRun readings = .error .processEvent := by
  intro readings
  have herror : stateMachineRun readings = .error .processEvent := rfl
  exact ⟨fun hrows => run_ne_processEvent hrows herror, herror⟩

end

end Nsumo.App
