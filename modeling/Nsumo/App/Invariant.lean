import Nsumo.App.StateMachineLaws
import Nsumo.App.TimerLaws

namespace Nsumo.App

open Common Drivers Lib

section

variable {cnt : BitVec 32} {data data' : StateMachineData}

theorem duration_bounds {retreat : RetreatState} :
    ∀ move ∈ (retreatStates retreat).moves,
      0 < (move.duration.setWidth 32).toNat ∧ (move.duration.setWidth 32).toNat ≤ 2147483648 := by
  cases retreat <;> decide

theorem length_moves (retreat : RetreatState) :
    (retreatStates retreat).moves.length = (retreatStates retreat).moveCnt := by
  cases retreat <;> rfl

theorem currentMove_get {retreat : StateRetreatData}
    (h : retreat.moveIdx < (retreatStates retreat.state).moveCnt) :
    (retreatStates retreat.state).moves[retreat.moveIdx]? = some (currentMove retreat) := by
  rw [← length_moves] at h
  simp [currentMove, h]

def SearchState.directions : SearchState → List DriveDir
  | .rotate => [.rotateLeft, .rotateRight]
  | .forward => [.forward]

inductive Settled (data : StateMachineData) : Prop
  | wait : data.state = .wait → data.timer = timerCleared → data.internalEvent = .none →
      data.drives = [] → Settled data
  | search {direction} : data.state = .search → data.timer ≠ timerCleared →
      data.internalEvent = .none → direction ∈ data.search.state.directions →
      data.drives.head? = some (.set direction .fast) → Settled data
  | attack : data.state = .attack → data.timer ≠ timerCleared → data.internalEvent = .none →
      data.drives.head? = some (.set data.attack.state.direction .fast) → Settled data
  | moving {move} : data.state = .retreat → data.timer ≠ timerCleared →
      data.internalEvent = .none →
      (retreatStates data.retreat.state).moves[data.retreat.moveIdx]? = some move →
      data.drives.head? = some (.set move.dir move.speed) → Settled data
  | moved {move} : data.state = .retreat → data.timer = timerCleared →
      data.internalEvent = .finished →
      data.retreat.moveIdx = (retreatStates data.retreat.state).moveCnt →
      (retreatStates data.retreat.state).moves.getLast? = some move →
      data.drives.head? = some (.set move.dir move.speed) → Settled data
  | manual : data.state = .manual → data.timer = timerCleared →
      data.internalEvent = .none ∨ data.internalEvent = .finished → Settled data

theorem settled_init : Settled stateMachineInit := .wait rfl rfl rfl rfl

theorem searchDirection_mem (data : StateMachineData) :
    searchDirection data ∈ data.search.state.directions := by
  unfold searchDirection
  cases data.search.state with
  | rotate => dsimp only; split <;> simp [SearchState.directions]
  | forward => simp [SearchState.directions]

theorem settled_searchStart (h : data.internalEvent = .none) : Settled (searchStart cnt data) := by
  refine .search rfl ?_ h (searchDirection_mem data) rfl
  cases hs : data.search.state <;>
    exact timerStart_ne_cleared (by simp [hs, SearchState.timeout])
      (by simp [hs, SearchState.timeout])

theorem settled_attackStart (h : data.internalEvent = .none) : Settled (attackStart cnt data) :=
  .attack rfl (timerStart_ne_cleared (by decide) (by decide)) h rfl

theorem settled_moveStart (h : data.internalEvent = .none)
    (hidx : data.retreat.moveIdx < (retreatStates data.retreat.state).moveCnt) :
    Settled (moveStart cnt data) := by
  have hmove := currentMove_get hidx
  obtain ⟨hpos, hle⟩ := duration_bounds _ (List.mem_of_getElem? hmove)
  exact .moving rfl (timerStart_ne_cleared hpos hle) h hmove rfl

theorem Settled.reading (h : Settled data) (readings : Readings) (history : RingBuffer) :
    Settled (data.reading readings history) := by
  cases h with
  | wait hs htimer hnone hdrive => exact .wait hs htimer hnone hdrive
  | search hs htimer hnone hdir hdrive => exact .search hs htimer hnone hdir hdrive
  | attack hs htimer hnone hdrive => exact .attack hs htimer hnone hdrive
  | moving hs htimer hnone hmove hdrive => exact .moving hs htimer hnone hmove hdrive
  | moved hs htimer hdone hidx hmove hdrive => exact .moved hs htimer hdone hidx hmove hdrive
  | manual hs htimer hevent => exact .manual hs htimer hevent

theorem Settled.internalEvent (h : Settled data) :
    data.internalEvent = .none ∨ data.internalEvent = .finished := by
  cases h with
  | wait _ _ hnone | search _ _ hnone | attack _ _ hnone | moving _ _ hnone => exact .inl hnone
  | moved _ _ hdone => exact .inr hdone
  | manual _ _ hevent => exact hevent

theorem Settled.timer (h : Settled data) (hidle : data.state.autonomous = false) :
    data.timer = timerCleared := by
  cases h with
  | wait _ htimer | manual _ htimer | moved _ htimer => exact htimer
  | search hs | attack hs | moving hs => simp [hs, State.autonomous] at hidle

theorem Settled.command (h : Settled data) (hp : Processed cnt data .command data') :
    Settled data' := by
  cases hp with
  | idle _ hevent | retreatStay _ hevent => simp at hevent
  | start hs =>
    cases h with
    | wait _ _ hnone => exact settled_searchStart hnone
    | search hs' | attack hs' | moving hs' | moved hs' | manual hs' => simp [hs] at hs'
  | takeOver _ => exact .manual rfl rfl h.internalEvent
  | manualCommand hs => exact .manual hs (h.timer (by rw [hs]; rfl)) h.internalEvent

theorem finished_settled (hnone : data.internalEvent = .none)
    (hp : Processed cnt data .finished data') : Settled data' := by
  cases hp with
  | idle _ hevent | retreatStay _ hevent => simp at hevent
  | finished _ => exact settled_searchStart hnone

theorem Settled.lastMove (h : Settled data) (hnone : data.internalEvent = .none)
    (hs : data.state = .retreat)
    (hidx : data.retreat.moveIdx + 1 = (retreatStates data.retreat.state).moveCnt) :
    ∃ move, (retreatStates data.retreat.state).moves.getLast? = some move ∧
      data.drives.head? = some (.set move.dir move.speed) := by
  cases h with
  | wait hs' | search hs' | attack hs' | manual hs' => simp [hs] at hs'
  | moved _ _ hdone => simp [hnone] at hdone
  | @moving move _ _ _ hmove hdrive =>
    refine ⟨move, ?_, hdrive⟩
    rw [List.getLast?_eq_getElem?, length_moves, ← hidx, Nat.add_sub_cancel]
    exact hmove

theorem Settled.timeout (h : Settled data) (hnone : data.internalEvent = .none)
    (hp : Processed cnt { data with timer := timerCleared } .timeout data') : Settled data' := by
  cases hp with
  | idle _ hevent | retreatStay _ hevent => simp at hevent
  | searchTimeout _ => exact settled_searchStart hnone
  | nextMove _ hidx => exact settled_moveStart hnone hidx
  | lastMove hs hidx _ =>
    obtain ⟨_, hlast, hdrive⟩ := h.lastMove hnone hs hidx
    exact .moved hs rfl rfl hidx hlast hdrive

theorem Settled.sensed (h : Settled data) (hnone : data.internalEvent = .none) {event : StateEvent}
    (hevent : event = .line ∨ event = .enemy ∨ event = .none)
    (hp : Processed cnt data event data') : Settled data' := by
  cases hp with
  | start | searchTimeout | finished | nextMove | lastMove | takeOver | manualCommand =>
    simp at hevent
  | idle | searchNone | enemyKept | retreatStay => exact h
  | enemyFound | enemyMoved => exact settled_attackStart hnone
  | enemyLost => exact settled_searchStart hnone
  | line => exact settled_moveStart hnone (retreatStates_pos _)

theorem settled_iteration {readings : Readings} (h : Settled data)
    (hi : iteration readings data = .ok data') : Settled data' := by
  obtain ⟨history, event, data₁, htaken, hp⟩ := iteration_ok hi
  have hread := h.reading readings history
  cases htaken with
  | command => exact hread.command hp
  | timeout _ hnone => exact hread.timeout hnone hp
  | line hquiet => exact hread.sensed hquiet.internalEvent (by simp) hp
  | enemy hquiet => exact hread.sensed hquiet.internalEvent (by simp) hp
  | none hquiet => exact hread.sensed hquiet.internalEvent (by simp) hp
  | internal _ hpending =>
    rw [hread.internalEvent.resolve_left hpending] at hp
    exact finished_settled rfl hp

theorem settled_of_run {readings : List Readings} (h : stateMachineRun readings = .ok data) :
    Settled data :=
  Run.run_invariant (fun _ _ _ hs hi => settled_iteration hs hi) settled_init h

end

section

variable {cnt : BitVec 32} {data data' : StateMachineData}

structure TimerMatches (data : StateMachineData) : Prop where
  idle : data.state = .wait ∨ data.state = .manual → data.timer = timerCleared
  driven : data.state = .search ∨ data.state = .attack →
    data.timer ≠ timerCleared ∧ hasInternalEvent data = false
  retreat : data.state = .retreat →
    Xor
      (data.timer ≠ timerCleared ∧ hasInternalEvent data = false ∧
        data.retreat.moveIdx < (retreatStates data.retreat.state).moveCnt)
      (data.timer = timerCleared ∧ data.internalEvent = .finished ∧
        data.retreat.moveIdx = (retreatStates data.retreat.state).moveCnt)
  attended : data.state.autonomous = true →
    data.timer ≠ timerCleared ∨ hasInternalEvent data = true
  moveInRange (next : Readings) : iteration next data ≠ .error .startRetreatMove
  postAlone (next : Readings) : iteration next data ≠ .error .stateMachinePostInternalEvent

theorem Settled.moveIdx_lt (h : Settled data) (hs : data.state = .retreat)
    (hnone : data.internalEvent = .none) :
    data.retreat.moveIdx < (retreatStates data.retreat.state).moveCnt := by
  cases h with
  | wait hs' | search hs' | attack hs' | manual hs' => simp [hs] at hs'
  | moved _ _ hdone => simp [hnone] at hdone
  | moving _ _ _ hmove =>
    rw [← length_moves]
    exact (List.getElem?_eq_some_iff.mp hmove).1

theorem Settled.not_pending (h : Settled data) {event : StateEvent} (hnone : event ≠ .none)
    (hfinished : event ≠ .finished) : data.internalEvent ≠ event := by
  obtain hevent | hevent := h.internalEvent
  · rw [hevent]
    exact hnone.symm
  · rw [hevent]
    exact hfinished.symm

theorem Settled.of_timeout (h : Settled data) {event : StateEvent} (hevent : event = .timeout)
    (htaken : Taken cnt data event data') :
    data.internalEvent = .none ∧ timerTimeout cnt data.timer = true ∧
      data' = { data with timer := timerCleared } := by
  cases htaken with
  | timeout _ hnone htimer => exact ⟨hnone, htimer, rfl⟩
  | internal => exact absurd hevent (h.not_pending (by decide) (by decide))
  | command | line | enemy | none => cases hevent

theorem Settled.of_line (h : Settled data) {event : StateEvent} (hevent : event = .line)
    (htaken : Taken cnt data event data') :
    Quiet cnt data ∧ data.common.line ≠ .none ∧ data' = data := by
  cases htaken with
  | line hquiet hline => exact ⟨hquiet, hline, rfl⟩
  | internal => exact absurd hevent (h.not_pending (by decide) (by decide))
  | command | timeout | enemy | none => cases hevent

theorem Settled.move_not_failed (h : Settled data) {next : Readings} {site : Assert}
    (hi : iteration next data = .error site) :
    site ≠ .startRetreatMove ∧ site ≠ .stateMachinePostInternalEvent := by
  obtain ⟨history, event, data₁, htaken, hfailed⟩ := iteration_error hi
  have hread := h.reading next history
  cases hfailed with
  | noTransition | attackState | attackTimeout | retreatState => simp
  | moveIdx hs hidx =>
    obtain ⟨hnone, -, rfl⟩ := hread.of_timeout rfl htaken
    exact absurd (hread.moveIdx_lt hs hnone) (by dsimp only at hidx; omega)
  | pending hs _ hpending =>
    obtain ⟨hnone, -, rfl⟩ := hread.of_timeout rfl htaken
    exact absurd hnone hpending

theorem Settled.timerMatches (h : Settled data) : TimerMatches data where
  idle hs := h.timer (by obtain hs | hs := hs <;> rw [hs] <;> rfl)
  driven hs := by
    cases h with
    | wait hs' | moving hs' | moved hs' | manual hs' => simp [hs'] at hs
    | search _ htimer hnone | attack _ htimer hnone =>
      exact ⟨htimer, by simp [hasInternalEvent, hnone]⟩
  retreat hs := by
    cases h with
    | wait hs' | search hs' | attack hs' | manual hs' => simp [hs'] at hs
    | moving _ htimer hnone hmove =>
      have hlt := Settled.moveIdx_lt (.moving hs htimer hnone hmove ‹_›) hs hnone
      exact .inl ⟨⟨htimer, by simp [hasInternalEvent, hnone], hlt⟩, fun hdone => htimer hdone.1⟩
    | moved _ htimer hdone hidx =>
      exact .inr ⟨⟨htimer, hdone, hidx⟩, fun hmoving => hmoving.1 htimer⟩
  attended hs := by
    cases h with
    | wait hs' | manual hs' => simp [hs', State.autonomous] at hs
    | search _ htimer | attack _ htimer | moving _ htimer => exact .inl htimer
    | moved _ _ hdone => exact .inr (by rw [hasInternalEvent, hdone]; rfl)
  moveInRange _ hi := (h.move_not_failed hi).1 rfl
  postAlone _ hi := (h.move_not_failed hi).2 rfl

theorem timer_matches_state {readings : List Readings}
    (h : stateMachineRun readings = .ok data) : TimerMatches data :=
  (settled_of_run h).timerMatches

theorem timer_matches_state_retreat :
    ∃ data, stateMachineRun
        [⟨enemyNone, .none, IrCmd.up, 0, 0⟩, ⟨enemyNone, .back, IrCmd.none, 10, 10⟩,
          ⟨enemyNone, .none, IrCmd.none, 1000, 1000⟩] = .ok data ∧
      data.internalEvent = .finished ∧ TimerMatches data := by
  have hrun : ∃ data, stateMachineRun
        [⟨enemyNone, .none, IrCmd.up, 0, 0⟩, ⟨enemyNone, .back, IrCmd.none, 10, 10⟩,
          ⟨enemyNone, .none, IrCmd.none, 1000, 1000⟩] = .ok data ∧
      data.internalEvent = .finished := ⟨_, rfl, rfl⟩
  obtain ⟨data, h, hfinished⟩ := hrun
  exact ⟨data, h, hfinished, timer_matches_state h⟩

structure DriveMatches (data : StateMachineData) : Prop where
  wait : data.state = .wait → data.drives = []
  search : data.state = .search →
    ∃ direction ∈ data.search.state.directions, data.drives.head? = some (.set direction .fast)
  attack : data.state = .attack →
    data.drives.head? = some (.set data.attack.state.direction .fast) ∧
      nextAttackState data.common.enemy = .ok data.attack.state
  retreat : data.state = .retreat →
    ∃ move, data.drives.head? = some (.set move.dir move.speed) ∧
      if data.internalEvent = .finished then
        (retreatStates data.retreat.state).moves.getLast? = some move
      else
        (retreatStates data.retreat.state).moves[data.retreat.moveIdx]? = some move

theorem Taken.common {event : StateEvent} (h : Taken cnt data event data') :
    data'.common = data.common := by
  cases h <;> rfl

theorem Processed.common {event : StateEvent} (h : Processed cnt data event data') :
    data'.common = data.common := by
  cases h <;> rfl

theorem iteration_common {readings : Readings} (h : iteration readings data = .ok data') :
    data'.common = ⟨readings.enemy, readings.line, readings.cmd⟩ := by
  obtain ⟨history, event, data₁, htaken, hp⟩ := iteration_ok h
  exact hp.common.trans htaken.common

theorem Processed.attack {event : StateEvent} (h : Processed cnt data event data')
    (hs : data'.state = .attack) :
    nextAttackState data'.common.enemy = .ok data'.attack.state := by
  cases h with
  | idle hidle => simp [hs, State.autonomous] at hidle
  | start | searchTimeout | enemyLost | line | finished | nextMove | takeOver => cases hs
  | searchNone hs' | retreatStay hs' | lastMove hs' | manualCommand hs' =>
    cases hs'.symm.trans hs
  | enemyFound _ hattack | enemyMoved _ hattack | enemyKept _ hattack => exact hattack

theorem Settled.driveMatches (h : Settled data)
    (hattack : data.state = .attack →
      nextAttackState data.common.enemy = .ok data.attack.state) : DriveMatches data where
  wait hs := by
    cases h with
    | wait _ _ _ hdrive => exact hdrive
    | search hs' | attack hs' | moving hs' | moved hs' | manual hs' => cases hs.symm.trans hs'
  search hs := by
    cases h with
    | search _ _ _ hdir hdrive => exact ⟨_, hdir, hdrive⟩
    | wait hs' | attack hs' | moving hs' | moved hs' | manual hs' => cases hs.symm.trans hs'
  attack hs := by
    cases h with
    | attack _ _ _ hdrive => exact ⟨hdrive, hattack hs⟩
    | wait hs' | search hs' | moving hs' | moved hs' | manual hs' => cases hs.symm.trans hs'
  retreat hs := by
    cases h with
    | moving _ _ hnone hmove hdrive => exact ⟨_, hdrive, by simpa [hnone] using hmove⟩
    | moved _ _ hdone _ hlast hdrive => exact ⟨_, hdrive, by simpa [hdone] using hlast⟩
    | wait hs' | search hs' | attack hs' | manual hs' => cases hs.symm.trans hs'

theorem drive_matches_state {readings : List Readings}
    (h : stateMachineRun readings = .ok data) :
    DriveMatches data ∧ ∀ last ∈ readings.getLast?, data.common.enemy = last.enemy := by
  have hsettled := settled_of_run h
  obtain ⟨rfl, rfl⟩ | ⟨before, last, data₀, rfl, hbefore, hlast⟩ := Run.run_last h
  · exact ⟨hsettled.driveMatches nofun, by simp⟩
  · obtain ⟨history, event, data₁, htaken, hp⟩ := iteration_ok hlast
    refine ⟨hsettled.driveMatches hp.attack, ?_⟩
    simp [iteration_common hlast]

theorem drive_matches_state_attack :
    ∃ data, stateMachineRun
        [⟨enemyNone, .none, IrCmd.up, 0, 0⟩, ⟨⟨.left, .close⟩, .none, IrCmd.none, 10, 10⟩] =
          .ok data ∧
      data.state = .attack ∧ DriveMatches data ∧ data.common.enemy = ⟨.left, .close⟩ := by
  have hrun : ∃ data, stateMachineRun
      [⟨enemyNone, .none, IrCmd.up, 0, 0⟩, ⟨⟨.left, .close⟩, .none, IrCmd.none, 10, 10⟩] =
        .ok data ∧ data.state = .attack := ⟨_, rfl, rfl⟩
  obtain ⟨data, h, hs⟩ := hrun
  obtain ⟨hdrive, henemy⟩ := drive_matches_state h
  exact ⟨data, h, hs, hdrive, henemy _ rfl⟩

end

end Nsumo.App
