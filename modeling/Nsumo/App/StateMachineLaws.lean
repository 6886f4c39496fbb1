import Nsumo.App.StateMachine
import Nsumo.Common.RingBufferLaws

namespace Nsumo.App

open Common Drivers Lib Lib.Run

theorem peekHead_ok (rb : RingBuffer) {offset : Nat} (h : offset < rb.count) :
    ∃ bytes, rb.peekHead offset = .ok bytes := by
  simp [RingBuffer.peekHead, h]

theorem inputHistorySave_ok (history : RingBuffer) (input : Input) :
    ∃ history', inputHistorySave history input = .ok history' := by
  unfold inputHistorySave
  split
  · exact ⟨history, rfl⟩
  · split
    · rename_i hcount
      have hpos : 0 < history.count := by
        simp at hcount
        omega
      obtain ⟨bytes, hbytes⟩ := peekHead_ok history hpos
      rw [hbytes, ok_bind]
      dsimp only
      split
      · exact ⟨history, rfl⟩
      · exact RingBuffer.put_ok history input.toBytes
    · exact RingBuffer.put_ok history input.toBytes

theorem lastDirectedEnemyFrom_ok (history : RingBuffer) {offsets : List Nat}
    (h : ∀ offset ∈ offsets, offset < history.count) :
    ∃ enemy, lastDirectedEnemyFrom history offsets = .ok enemy := by
  induction offsets with
  | nil => exact ⟨enemyNone, rfl⟩
  | cons offset offsets ih =>
    obtain ⟨bytes, hbytes⟩ := peekHead_ok history (h offset List.mem_cons_self)
    rw [lastDirectedEnemyFrom, hbytes, ok_bind]
    dsimp only
    split
    · exact ⟨_, rfl⟩
    · exact ih fun o ho => h o (List.mem_cons_of_mem offset ho)

theorem inputHistoryLastDirectedEnemy_ok (history : RingBuffer) :
    ∃ enemy, inputHistoryLastDirectedEnemy history = .ok enemy :=
  lastDirectedEnemyFrom_ok history fun _ h => List.mem_range.mp h

def lastDirectedEnemy (history : RingBuffer) : Enemy :=
  (inputHistoryLastDirectedEnemy history).toOption.getD enemyNone

theorem inputHistoryLastDirectedEnemy_eq (history : RingBuffer) :
    inputHistoryLastDirectedEnemy history = .ok (lastDirectedEnemy history) := by
  obtain ⟨enemy, h⟩ := inputHistoryLastDirectedEnemy_ok history
  simp [lastDirectedEnemy, h, Except.toOption]

@[simp] theorem driveSet_eq (direction : DriveDir) (speed : DriveSpeed) (data : StateMachineData) :
    driveSet direction speed data =
      .ok { data with drives := .set direction speed :: data.drives } := by
  cases direction <;> cases speed <;> rfl

def searchDirection (data : StateMachineData) : DriveDir :=
  match data.search.state with
  | .rotate =>
    if enemyAtRight (lastDirectedEnemy data.inputHistory) then .rotateRight else .rotateLeft
  | .forward => .forward

def SearchState.timeout : SearchState → BitVec 32
  | .rotate => 400
  | .forward => 3000

section

variable (cnt : BitVec 32)

def searchStart (data : StateMachineData) : StateMachineData :=
  { data with
    state := .search
    timer := timerStart cnt data.search.state.timeout
    drives := .set (searchDirection data) .fast :: data.drives }

def attackStart (data : StateMachineData) : StateMachineData :=
  { data with
    state := .attack
    timer := timerStart cnt 5000
    drives := .set data.attack.state.direction .fast :: data.drives }

def moveStart (data : StateMachineData) : StateMachineData :=
  { data with
    state := .retreat
    timer := timerStart cnt ((currentMove data.retreat).duration.setWidth 32)
    drives := .set (currentMove data.retreat).dir (currentMove data.retreat).speed :: data.drives }

theorem stateSearchRun_eq {data : StateMachineData} (h : data.state = .search) :
    stateSearchRun cnt data = .ok (searchStart cnt data) := by
  obtain ⟨state, common, search, attack, retreat, internalEvent, timer, history, drives⟩ := data
  obtain ⟨search⟩ := search
  cases h
  cases search with
  | rotate =>
    simp only [stateSearchRun, inputHistoryLastDirectedEnemy_eq, ok_bind, driveSet_eq]
    cases hright : enemyAtRight (lastDirectedEnemy history) <;>
      simp [hright, startTimer, searchStart, searchDirection, SearchState.timeout]
  | forward => rfl

theorem stateAttackRun_eq {data : StateMachineData} (h : data.state = .attack) :
    stateAttackRun cnt data = .ok (attackStart cnt data) := by
  simp [stateAttackRun, startTimer, attackStart, ← h]

theorem startRetreatMove_eq {data : StateMachineData} (h : data.state = .retreat) :
    startRetreatMove cnt data =
      if data.retreat.moveIdx < (retreatStates data.retreat.state).moveCnt then
        .ok (moveStart cnt data)
      else
        .error .startRetreatMove := by
  by_cases hidx : data.retreat.moveIdx < (retreatStates data.retreat.state).moveCnt <;>
    simp [startRetreatMove, hidx, startTimer, moveStart, ← h]

def driveManually (data : StateMachineData) : StateMachineData :=
  { data with drives := (manualDrive data.common.cmd).toList ++ data.drives }

theorem stateManualEnter_command (data : StateMachineData) :
    stateManualEnter .command data = .ok (driveManually data) := by
  unfold stateManualEnter driveManually
  cases h : manualDrive data.common.cmd with
  | none => rfl
  | some command =>
    cases command with
    | set direction speed => simp
    | stop => rfl

def State.autonomous : State → Bool
  | .search | .attack | .retreat => true
  | .wait | .manual => false

def transition (src : State) (event : StateEvent) : Option State :=
  (stateTransitions.find? fun t => src == t.src && event == t.event).map (·.dst)

theorem processEvent_eq (event : StateEvent) (data : StateMachineData) :
    processEvent cnt event data =
      match transition data.state event with
      | some dst => stateEnter cnt data.state event dst data
      | none => .error .processEvent := by
  unfold processEvent transition
  cases h : stateTransitions.find? fun t => data.state == t.src && event == t.event with
  | none => rfl
  | some t =>
    have hsrc := List.find?_some h
    simp only [Bool.and_eq_true, beq_iff_eq] at hsrc
    simp [hsrc.1]

theorem transition_eq_none (src : State) (event : StateEvent) :
    transition src event = none ↔
      event = .timeout ∧ src.autonomous = false ∨ event = .finished ∧ src ≠ .retreat := by
  cases src <;> cases event <;> decide

end

def StateMachineData.reading (data : StateMachineData) (readings : Readings)
    (history : RingBuffer) : StateMachineData :=
  { data with common := ⟨readings.enemy, readings.line, readings.cmd⟩, inputHistory := history }

structure Quiet (cnt : BitVec 32) (data : StateMachineData) : Prop where
  cmd : data.common.cmd = IrCmd.none
  internalEvent : data.internalEvent = .none
  timer : timerTimeout cnt data.timer = false

/-- The events that `process_input` can return, in its order of priority. -/
inductive Taken (cnt : BitVec 32) (data : StateMachineData) :
    StateEvent → StateMachineData → Prop
  | command : data.common.cmd ≠ IrCmd.none → Taken cnt data .command data
  | internal : data.common.cmd = IrCmd.none → data.internalEvent ≠ .none →
      Taken cnt data data.internalEvent { data with internalEvent := .none }
  | timeout : data.common.cmd = IrCmd.none → data.internalEvent = .none →
      timerTimeout cnt data.timer = true →
      Taken cnt data .timeout { data with timer := timerCleared }
  | line : Quiet cnt data → data.common.line ≠ .none → Taken cnt data .line data
  | enemy : Quiet cnt data → data.common.line = .none →
      enemyDetected data.common.enemy = true → Taken cnt data .enemy data
  | none : Quiet cnt data → data.common.line = .none →
      enemyDetected data.common.enemy = false → Taken cnt data .none data

theorem readInputs_eq (readings : Readings) (data : StateMachineData) :
    ∃ history, inputHistorySave data.inputHistory ⟨readings.enemy, readings.line⟩ = .ok history ∧
      readInputs readings data = .ok (data.reading readings history) := by
  obtain ⟨history, h⟩ := inputHistorySave_ok data.inputHistory ⟨readings.enemy, readings.line⟩
  exact ⟨history, h, by simp [readInputs, h, StateMachineData.reading]⟩

theorem processInput_taken (readings : Readings) (data : StateMachineData) :
    ∃ history, inputHistorySave data.inputHistory ⟨readings.enemy, readings.line⟩ = .ok history ∧
      ∃ event data', processInput readings data = .ok (event, data') ∧
        Taken readings.pollCnt (data.reading readings history) event data' := by
  obtain ⟨history, hsave, hread⟩ := readInputs_eq readings data
  refine ⟨history, hsave, ?_⟩
  simp only [processInput, hread, ok_bind]
  generalize data.reading readings history = data
  split
  case isTrue hcmd => exact ⟨_, _, rfl, .command hcmd⟩
  case isFalse hcmd =>
    have hcmd := not_not.mp hcmd
    split
    case isTrue hpending =>
      simp only [takeInternalEvent, hpending, assert_true, ok_bind, pure_ok]
      exact ⟨_, _, rfl, .internal hcmd (bne_iff_ne.mp hpending)⟩
    case isFalse hpending =>
      have hnone : data.internalEvent = .none := by simpa [hasInternalEvent] using hpending
      split
      case isTrue htime => exact ⟨_, _, rfl, .timeout hcmd hnone htime⟩
      case isFalse htime =>
        have hquiet : Quiet readings.pollCnt data := ⟨hcmd, hnone, by simpa using htime⟩
        split
        case isTrue hline => exact ⟨_, _, rfl, .line hquiet hline⟩
        case isFalse hline =>
          have hline := not_not.mp hline
          split
          case isTrue henemy => exact ⟨_, _, rfl, .enemy hquiet hline henemy⟩
          case isFalse henemy => exact ⟨_, _, rfl, .none hquiet hline (by simpa using henemy)⟩

inductive Processed (cnt : BitVec 32) (data : StateMachineData) :
    StateEvent → StateMachineData → Prop
  | idle {event} : data.state.autonomous = false →
      event = .none ∨ event = .line ∨ event = .enemy → Processed cnt data event data
  | start : data.state = .wait → Processed cnt data .command (searchStart cnt data)
  | searchNone : data.state = .search → Processed cnt data .none data
  | searchTimeout : data.state = .search → Processed cnt data .timeout
      (searchStart cnt { data with search.state := data.search.state.next })
  | enemyFound {attack} : data.state = .search → nextAttackState data.common.enemy = .ok attack →
      Processed cnt data .enemy (attackStart cnt { data with attack.state := attack })
  | enemyMoved {attack} : data.state = .attack → nextAttackState data.common.enemy = .ok attack →
      data.attack.state ≠ attack →
      Processed cnt data .enemy (attackStart cnt { data with attack.state := attack })
  | enemyKept : data.state = .attack →
      nextAttackState data.common.enemy = .ok data.attack.state → Processed cnt data .enemy data
  | enemyLost : data.state = .attack → Processed cnt data .none (searchStart cnt data)
  | line {retreat} : data.state.autonomous = true →
      nextRetreatState { data with retreat.moveIdx := 0 } = .ok retreat →
      Processed cnt data .line (moveStart cnt { data with retreat := ⟨retreat, 0⟩ })
  | finished : data.state = .retreat → Processed cnt data .finished
      (searchStart cnt { data with search.state := .rotate })
  | nextMove : data.state = .retreat →
      data.retreat.moveIdx + 1 < (retreatStates data.retreat.state).moveCnt →
      Processed cnt data .timeout
        (moveStart cnt { data with retreat.moveIdx := data.retreat.moveIdx + 1 })
  | lastMove : data.state = .retreat →
      data.retreat.moveIdx + 1 = (retreatStates data.retreat.state).moveCnt →
      data.internalEvent = .none → Processed cnt data .timeout
        { data with retreat.moveIdx := data.retreat.moveIdx + 1, internalEvent := .finished }
  | retreatStay {event} : data.state = .retreat → event = .enemy ∨ event = .none →
      Processed cnt data event data
  | takeOver : data.state.autonomous = true → Processed cnt data .command
      (driveManually { data with state := .manual, timer := timerCleared })
  | manualCommand : data.state = .manual → Processed cnt data .command (driveManually data)

section

variable {cnt : BitVec 32} {data data' : StateMachineData}

theorem Taken.drives {event : StateEvent} (h : Taken cnt data event data') :
    data'.drives = data.drives := by
  cases h <;> rfl

theorem retreatStates_pos (retreat : RetreatState) : 0 < (retreatStates retreat).moveCnt := by
  cases retreat <;> decide

theorem stateRetreatRun_eq (h : data.state = .retreat) :
    stateRetreatRun cnt data = (nextRetreatState { data with retreat.moveIdx := 0 }).map
      fun retreat => moveStart cnt { data with retreat := ⟨retreat, 0⟩ } := by
  change (nextRetreatState { data with retreat.moveIdx := 0 } >>= _) = _
  cases nextRetreatState { data with retreat.moveIdx := 0 } with
  | error site => rfl
  | ok retreat => simp [startRetreatMove_eq cnt, h, retreatStates_pos, Except.map]

inductive Failed (data : StateMachineData) : StateEvent → Assert → Prop
  | noTransition {event} : transition data.state event = none → Failed data event .processEvent
  | attackState {event} : data.state = .search ∨ data.state = .attack →
      event = .enemy ∨ event = .timeout →
      nextAttackState data.common.enemy = .error .nextAttackState →
      Failed data event .nextAttackState
  | attackTimeout {attack} : data.state = .attack →
      nextAttackState data.common.enemy = .ok attack → Failed data .timeout .stateAttackEnter
  | retreatState : data.state.autonomous = true →
      nextRetreatState { data with retreat.moveIdx := 0 } = .error .nextRetreatState →
      Failed data .line .nextRetreatState
  | moveIdx : data.state = .retreat →
      (retreatStates data.retreat.state).moveCnt < data.retreat.moveIdx + 1 →
      Failed data .timeout .startRetreatMove
  | pending : data.state = .retreat →
      data.retreat.moveIdx + 1 = (retreatStates data.retreat.state).moveCnt →
      data.internalEvent ≠ .none → Failed data .timeout .stateMachinePostInternalEvent

def Outcome (cnt : BitVec 32) (data : StateMachineData) (event : StateEvent) :
    Except Assert StateMachineData → Prop
  | .ok data' => Processed cnt data event data'
  | .error site => Failed data event site

theorem nextAttackState_error {enemy : Enemy} {site : Assert}
    (h : nextAttackState enemy = .error site) : site = .nextAttackState := by
  unfold nextAttackState at h
  split at h <;> try cases h
  split at h <;> try cases h
  split at h <;> cases h
  rfl

theorem nextRetreatState_error {site : Assert} (h : nextRetreatState data = .error site) :
    site = .nextRetreatState := by
  cases hline : data.common.line <;> simp only [nextRetreatState, hline] at h
  case none | diagonalLeft | diagonalRight => exact (Except.error.inj h).symm
  all_goals grind

theorem processEvent_row {event : StateEvent} (dst : State)
    (h : transition data.state event = some dst) :
    processEvent cnt event data = stateEnter cnt data.state event dst data := by
  rw [processEvent_eq, h]

theorem noRow_outcome {event : StateEvent} (h : transition data.state event = none) :
    Outcome cnt data event (processEvent cnt event data) := by
  rw [processEvent_eq, h]
  exact .noTransition h

theorem wait_outcome (hs : data.state = .wait) (event : StateEvent) :
    Outcome cnt data event (processEvent cnt event data) := by
  cases event with
  | timeout | finished => exact noRow_outcome (by rw [hs]; rfl)
  | line | enemy | none =>
    rw [processEvent_row .wait (by rw [hs]; rfl), hs]
    exact .idle (by rw [hs]; rfl) (by simp)
  | command =>
    have h : stateEnter cnt .wait .command .search data = .ok (searchStart cnt data) :=
      @stateSearchRun_eq cnt { data with timer := timerCleared, state := .search } rfl
    rw [processEvent_row .search (by rw [hs]; rfl), hs, h]
    exact .start hs

theorem stateRetreatRun_outcome (hauto : data.state.autonomous = true) (timer : Timer) :
    Outcome cnt data .line
      (stateRetreatRun cnt { data with timer := timer, state := .retreat }) := by
  rw [stateRetreatRun_eq rfl]
  change Outcome cnt data .line (Except.map _ (nextRetreatState { data with retreat.moveIdx := 0 }))
  cases hnext : nextRetreatState { data with retreat.moveIdx := 0 } with
  | error site =>
    cases nextRetreatState_error hnext
    exact .retreatState hauto hnext
  | ok retreat => exact .line hauto hnext

theorem takeOver_outcome (hauto : data.state.autonomous = true) :
    Outcome cnt data .command
      (stateManualEnter .command { data with timer := timerCleared, state := .manual }) := by
  rw [stateManualEnter_command]
  exact .takeOver hauto

theorem nextAttack_outcome {event : StateEvent}
    {attackRun : AttackState → Except Assert StateMachineData}
    (hs : data.state = .search ∨ data.state = .attack) (hevent : event = .enemy ∨ event = .timeout)
    (hrun : ∀ attack, nextAttackState data.common.enemy = .ok attack →
      Outcome cnt data event (attackRun attack)) :
    Outcome cnt data event (nextAttackState data.common.enemy >>= attackRun) := by
  cases hattack : nextAttackState data.common.enemy with
  | error site =>
    cases nextAttackState_error hattack
    exact .attackState hs hevent hattack
  | ok attack => exact hrun attack hattack

theorem search_outcome (hs : data.state = .search) (event : StateEvent) :
    Outcome cnt data event (processEvent cnt event data) := by
  have hauto : data.state.autonomous = true := by rw [hs]; rfl
  cases event with
  | finished => exact noRow_outcome (by rw [hs]; rfl)
  | command =>
    rw [processEvent_row .manual (by rw [hs]; rfl), hs]
    exact takeOver_outcome hauto
  | none =>
    rw [processEvent_row .search (by rw [hs]; rfl), hs]
    exact .searchNone hs
  | timeout =>
    have h : stateEnter cnt .search .timeout .search data =
        .ok (searchStart cnt { data with search.state := data.search.state.next }) :=
      @stateSearchRun_eq cnt { data with search.state := data.search.state.next } hs
    rw [processEvent_row .search (by rw [hs]; rfl), hs, h]
    exact .searchTimeout hs
  | line =>
    rw [processEvent_row .retreat (by rw [hs]; rfl), hs]
    exact stateRetreatRun_outcome hauto timerCleared
  | enemy =>
    rw [processEvent_row .attack (by rw [hs]; rfl), hs]
    refine nextAttack_outcome (.inl hs) (.inl rfl) fun attack hattack => ?_
    change Outcome cnt data .enemy (stateAttackRun cnt _)
    rw [stateAttackRun_eq cnt rfl]
    exact .enemyFound hs hattack

theorem attack_outcome (hs : data.state = .attack) (event : StateEvent) :
    Outcome cnt data event (processEvent cnt event data) := by
  have hauto : data.state.autonomous = true := by rw [hs]; rfl
  cases event with
  | finished => exact noRow_outcome (by rw [hs]; rfl)
  | command =>
    rw [processEvent_row .manual (by rw [hs]; rfl), hs]
    exact takeOver_outcome hauto
  | none =>
    have h : stateEnter cnt .attack .none .search data = .ok (searchStart cnt data) :=
      @stateSearchRun_eq cnt { data with timer := timerCleared, state := .search } rfl
    rw [processEvent_row .search (by rw [hs]; rfl), hs, h]
    exact .enemyLost hs
  | line =>
    rw [processEvent_row .retreat (by rw [hs]; rfl), hs]
    exact stateRetreatRun_outcome hauto timerCleared
  | timeout =>
    rw [processEvent_row .attack (by rw [hs]; rfl), hs]
    exact nextAttack_outcome (.inr hs) (.inr rfl) fun attack hattack => .attackTimeout hs hattack
  | enemy =>
    rw [processEvent_row .attack (by rw [hs]; rfl), hs]
    refine nextAttack_outcome (.inr hs) (.inl rfl) fun attack hattack => ?_
    change Outcome cnt data .enemy
      (if data.attack.state ≠ attack then stateAttackRun cnt _ else .ok _)
    split
    case isTrue hne =>
      rw [stateAttackRun_eq cnt (by exact hs)]
      exact .enemyMoved hs hattack hne
    case isFalse heq =>
      cases not_not.mp heq
      exact .enemyKept hs hattack

theorem postInternalEvent_eq (event : StateEvent) (data : StateMachineData) :
    stateMachinePostInternalEvent event data =
      if data.internalEvent = .none then
        .ok { data with internalEvent := event }
      else
        .error .stateMachinePostInternalEvent := by
  cases hpost : data.internalEvent <;>
    simp [stateMachinePostInternalEvent, hasInternalEvent, hpost] <;> rfl

theorem moveTimeout_outcome (hs : data.state = .retreat) :
    Outcome cnt data .timeout (stateRetreatEnter cnt .retreat .timeout data) := by
  have hmove := @startRetreatMove_eq cnt
    { data with retreat.moveIdx := data.retreat.moveIdx + 1 } hs
  simp only [stateRetreatEnter, retreatStateDone, postInternalEvent_eq, hmove, beq_iff_eq]
  split
  case isTrue hdone =>
    split
    case isTrue hnone => exact Processed.lastMove hs hdone hnone
    case isFalse hpending => exact Failed.pending hs hdone hpending
  case isFalse hdone =>
    split
    case isTrue hidx => exact Processed.nextMove hs hidx
    case isFalse hidx => exact Failed.moveIdx hs (by omega)

theorem retreatFinished_eq (hs : data.state = .retreat) : processEvent cnt .finished data =
    .ok (searchStart cnt { data with search.state := .rotate }) := by
  rw [processEvent_row .search (by rw [hs]; rfl), hs]
  change stateSearchRun cnt (if data.search.state = .forward then _ else _) = _
  cases hsearch : data.search.state with
  | forward => exact stateSearchRun_eq cnt rfl
  | rotate =>
    have hkeep : data.search = ⟨.rotate⟩ := congrArg StateSearchData.mk hsearch
    rw [if_neg (by decide), stateSearchRun_eq cnt rfl, ← hkeep]
    rfl

theorem retreat_outcome (hs : data.state = .retreat) (event : StateEvent) :
    Outcome cnt data event (processEvent cnt event data) := by
  have hauto : data.state.autonomous = true := by rw [hs]; rfl
  cases event with
  | command =>
    rw [processEvent_row .manual (by rw [hs]; rfl), hs]
    exact takeOver_outcome hauto
  | none | enemy =>
    rw [processEvent_row .retreat (by rw [hs]; rfl), hs]
    exact .retreatStay hs (by simp)
  | line =>
    rw [processEvent_row .retreat (by rw [hs]; rfl), hs]
    have h := @stateRetreatRun_outcome cnt data hauto data.timer
    rwa [← hs] at h
  | finished =>
    rw [retreatFinished_eq hs]
    exact .finished hs
  | timeout =>
    rw [processEvent_row .retreat (by rw [hs]; rfl), hs]
    exact moveTimeout_outcome hs

theorem manual_outcome (hs : data.state = .manual) (event : StateEvent) :
    Outcome cnt data event (processEvent cnt event data) := by
  cases event with
  | timeout | finished => exact noRow_outcome (by rw [hs]; rfl)
  | line | enemy | none =>
    rw [processEvent_row .manual (by rw [hs]; rfl), hs]
    exact .idle (by rw [hs]; rfl) (by simp)
  | command =>
    rw [processEvent_row .manual (by rw [hs]; rfl), hs]
    change Outcome cnt data .command (stateManualEnter .command data)
    rw [stateManualEnter_command]
    exact .manualCommand hs

theorem processEvent_outcome (cnt : BitVec 32) (event : StateEvent) (data : StateMachineData) :
    Outcome cnt data event (processEvent cnt event data) := by
  cases hs : data.state with
  | wait => exact wait_outcome hs event
  | search => exact search_outcome hs event
  | attack => exact attack_outcome hs event
  | retreat => exact retreat_outcome hs event
  | manual => exact manual_outcome hs event

theorem processEvent_ok {event : StateEvent} (h : processEvent cnt event data = .ok data') :
    Processed cnt data event data' := by
  have houtcome := processEvent_outcome cnt event data
  rwa [h] at houtcome

theorem processEvent_error {event : StateEvent} {site : Assert}
    (h : processEvent cnt event data = .error site) : Failed data event site := by
  have houtcome := processEvent_outcome cnt event data
  rwa [h] at houtcome

end

section

variable {readings : Readings} {data data' : StateMachineData}

theorem processInput_ok {event : StateEvent} (h : processInput readings data = .ok (event, data')) :
    ∃ history, Taken readings.pollCnt (data.reading readings history) event data' := by
  obtain ⟨history, -, _, _, hinput, htaken⟩ := processInput_taken readings data
  cases hinput.symm.trans h
  exact ⟨history, htaken⟩

theorem iteration_ok (h : iteration readings data = .ok data') :
    ∃ history event data₁, Taken readings.pollCnt (data.reading readings history) event data₁ ∧
      Processed readings.startCnt data₁ event data' := by
  obtain ⟨⟨event, data₁⟩, hinput, hevent⟩ := bind_ok.mp h
  obtain ⟨history, htaken⟩ := processInput_ok hinput
  exact ⟨history, event, data₁, htaken, processEvent_ok hevent⟩

theorem iteration_error {site : Assert} (h : iteration readings data = .error site) :
    ∃ history event data₁, Taken readings.pollCnt (data.reading readings history) event data₁ ∧
      Failed data₁ event site := by
  obtain ⟨history, -, event, data₁, hinput, htaken⟩ := processInput_taken readings data
  rw [iteration, hinput] at h
  exact ⟨history, event, data₁, htaken, processEvent_error h⟩

end

end Nsumo.App
