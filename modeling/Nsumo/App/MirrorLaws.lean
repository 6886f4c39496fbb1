import Nsumo.App.InputHistoryLaws

namespace Nsumo.App

open Common Drivers Lib

def EnemyPos.mirror : EnemyPos → EnemyPos
  | .frontLeft => .frontRight
  | .frontRight => .frontLeft
  | .left => .right
  | .right => .left
  | .frontAndFrontLeft => .frontAndFrontRight
  | .frontAndFrontRight => .frontAndFrontLeft
  | position => position

def Enemy.mirror (enemy : Enemy) : Enemy := { enemy with position := enemy.position.mirror }

def Line.mirror : Line → Line
  | .left => .right
  | .right => .left
  | .frontLeft => .frontRight
  | .frontRight => .frontLeft
  | .backLeft => .backRight
  | .backRight => .backLeft
  | .diagonalLeft => .diagonalRight
  | .diagonalRight => .diagonalLeft
  | line => line

def Input.mirror (input : Input) : Input := ⟨input.enemy.mirror, input.line.mirror⟩

def mirrorCmd (cmd : IrCmd) : IrCmd :=
  if cmd = IrCmd.left then IrCmd.right else if cmd = IrCmd.right then IrCmd.left else cmd

def Readings.mirror (readings : Readings) : Readings := { readings with
  enemy := readings.enemy.mirror
  line := readings.line.mirror
  cmd := mirrorCmd readings.cmd }

def DriveDir.mirror : DriveDir → DriveDir
  | .rotateLeft => .rotateRight
  | .rotateRight => .rotateLeft
  | .arcturnSharpLeft => .arcturnSharpRight
  | .arcturnSharpRight => .arcturnSharpLeft
  | .arcturnMidLeft => .arcturnMidRight
  | .arcturnMidRight => .arcturnMidLeft
  | .arcturnWideLeft => .arcturnWideRight
  | .arcturnWideRight => .arcturnWideLeft
  | direction => direction

def DriveCommand.mirror : DriveCommand → DriveCommand
  | .set direction speed => .set direction.mirror speed
  | .stop => .stop

def AttackState.mirror : AttackState → AttackState
  | .left => .right
  | .right => .left
  | .forward => .forward

def RetreatState.mirror : RetreatState → RetreatState
  | .rotateLeft => .rotateRight
  | .rotateRight => .rotateLeft
  | .arcturnLeft => .arcturnRight
  | .arcturnRight => .arcturnLeft
  | .alignLeft => .alignRight
  | .alignRight => .alignLeft
  | retreat => retreat

def StateMachineData.mirror (history : RingBuffer) (data : StateMachineData) :
    StateMachineData := { data with
  common := ⟨data.common.enemy.mirror, data.common.line.mirror, mirrorCmd data.common.cmd⟩
  attack.state := data.attack.state.mirror
  retreat.state := data.retreat.state.mirror
  inputHistory := history
  drives := data.drives.map .mirror }

structure Histories (history history' : RingBuffer) : Prop where
  growing : history.Growing 6 3
  growing' : history'.Growing 6 3
  entries : entries history' = (entries history).map Input.mirror

def Mirrored (data data' : StateMachineData) : Prop :=
  Histories data.inputHistory data'.inputHistory ∧ data' = data.mirror data'.inputHistory

/-- A rotating search has started with no enemy to a side in the history. -/
structure StartedBlind (data data' : StateMachineData) : Prop where
  state : data'.state = .search
  rotate : data'.search.state = .rotate
  started : data.drives.length < data'.drives.length
  blind : lastSided (entries data'.inputHistory) = none

theorem EnemyPos.mirror_mirror (position : EnemyPos) : position.mirror.mirror = position := by
  cases position <;> rfl

theorem Line.mirror_mirror (line : Line) : line.mirror.mirror = line := by
  cases line <;> rfl

theorem Input.mirror_mirror (input : Input) : input.mirror.mirror = input := by
  simp only [mirror, Enemy.mirror, EnemyPos.mirror_mirror, Line.mirror_mirror]

theorem Input.mirror_injective : Function.Injective Input.mirror :=
  Function.LeftInverse.injective Input.mirror_mirror

section

variable (enemy : Enemy) (line : Line) (cmd : IrCmd)

@[simp] theorem enemyAtLeft_mirror : enemyAtLeft enemy.mirror = enemyAtRight enemy := by
  obtain ⟨position, range⟩ := enemy
  cases position <;> rfl

@[simp] theorem enemyAtRight_mirror : enemyAtRight enemy.mirror = enemyAtLeft enemy := by
  obtain ⟨position, range⟩ := enemy
  cases position <;> rfl

@[simp] theorem enemyAtFront_mirror : enemyAtFront enemy.mirror = enemyAtFront enemy := by
  obtain ⟨position, range⟩ := enemy
  cases position <;> rfl

@[simp] theorem enemyDetected_mirror : enemyDetected enemy.mirror = enemyDetected enemy := by
  obtain ⟨position, range⟩ := enemy
  cases position <;> rfl

theorem enemyAtRight_of_left (h : enemyAtLeft enemy = true) : enemyAtRight enemy = false := by
  obtain ⟨position, range⟩ := enemy
  cases position <;> first | rfl | cases h

@[simp] theorem mirror_eq_none : line.mirror = .none ↔ line = .none := by
  cases line <;> simp [Line.mirror]

@[simp] theorem noticed_mirror (input : Input) : noticed input.mirror = noticed input := by
  obtain ⟨⟨position, range⟩, line⟩ := input
  cases position <;> cases line <;> rfl

@[simp] theorem sided_mirror (input : Input) : sided input.mirror = sided input := by
  simp only [sided, Input.mirror, enemyAtLeft_mirror, enemyAtRight_mirror, Bool.or_comm]

@[simp] theorem mirrorCmd_eq_none : mirrorCmd cmd = IrCmd.none ↔ cmd = IrCmd.none := by
  unfold mirrorCmd
  split
  case isTrue h =>
    rw [h]
    decide
  case isFalse =>
    split
    case isTrue h =>
      rw [h]
      decide
    case isFalse => rfl

theorem manualDrive_mirror : manualDrive (mirrorCmd cmd) = (manualDrive cmd).map .mirror := by
  by_cases hleft : cmd = IrCmd.left
  · subst hleft
    rfl
  by_cases hright : cmd = IrCmd.right
  · subst hright
    rfl
  rw [mirrorCmd, if_neg hleft, if_neg hright, manualDrive, if_neg hleft, if_neg hright]
  split
  · rfl
  split
  · rfl
  split <;> rfl

end

theorem lastSided_mirror (inputs : List Input) :
    lastSided (inputs.map Input.mirror) = (lastSided inputs).map Input.mirror := by
  rw [lastSided, ← List.map_reverse, List.find?_map, lastSided]
  congr 2
  funext input
  exact sided_mirror input

section

variable {history history' : RingBuffer}

theorem Histories.save (h : Histories history history') (input : Input) :
    ∃ next next', inputHistorySave history input = .ok next ∧
      inputHistorySave history' input.mirror = .ok next' ∧ Histories next next' := by
  obtain ⟨next, hsave, hgrowing, hentries⟩ := save_spec h.growing (by decide) input
  obtain ⟨next', hsave', hgrowing', hentries'⟩ :=
    save_spec h.growing' (by decide) input.mirror
  refine ⟨next, next', hsave, hsave', hgrowing, hgrowing', ?_⟩
  rw [hentries', hentries, noticed_mirror, h.entries]
  split
  · exact Recent.remember_map Input.mirror_injective 6 _ _
  · rfl

theorem lastDirectedEnemy_eq (h : history.Growing 6 3) :
    lastDirectedEnemy history = (lastSided (entries history)).elim enemyNone Input.enemy := by
  rw [lastDirectedEnemy, lastDirectedEnemy_spec h (by decide)]
  rfl

theorem Histories.atRight (h : Histories history history')
    (hsided : lastSided (App.entries history) ≠ none) :
    enemyAtRight (lastDirectedEnemy history') = !enemyAtRight (lastDirectedEnemy history) := by
  obtain ⟨input, hinput⟩ := Option.ne_none_iff_exists'.mp hsided
  have hside : sided input = true := List.find?_some hinput
  rw [lastDirectedEnemy_eq h.growing, lastDirectedEnemy_eq h.growing', h.entries, lastSided_mirror,
    hinput]
  change enemyAtRight input.enemy.mirror = !enemyAtRight input.enemy
  rw [enemyAtRight_mirror]
  cases hleft : enemyAtLeft input.enemy with
  | true => rw [enemyAtRight_of_left _ hleft]; rfl
  | false =>
    rw [sided, hleft, Bool.false_or] at hside
    rw [hside]
    rfl

end

def Move.mirror (move : Move) : Move := { move with dir := move.dir.mirror }

def StateRetreatData.mirror (retreat : StateRetreatData) : StateRetreatData :=
  { retreat with state := retreat.state.mirror }

theorem moves_mirror (retreat : RetreatState) :
    (retreatStates retreat.mirror).moves = (retreatStates retreat).moves.map Move.mirror := by
  cases retreat <;> rfl

theorem moveCnt_mirror (retreat : RetreatState) :
    (retreatStates retreat.mirror).moveCnt = (retreatStates retreat).moveCnt := by
  cases retreat <;> rfl

theorem currentMove_mirror (retreat : StateRetreatData) :
    currentMove retreat.mirror = (currentMove retreat).mirror := by
  change (retreatStates retreat.state.mirror).moves.getD retreat.moveIdx _ = _
  rw [moves_mirror, currentMove, List.getD_eq_getElem?_getD, List.getD_eq_getElem?_getD,
    List.getElem?_map]
  cases (retreatStates retreat.state).moves[retreat.moveIdx]? <;> rfl

theorem reverse_mirror (move : Move) : move.mirror.dir = .reverse ↔ move.dir = .reverse := by
  obtain ⟨dir, speed, duration⟩ := move
  cases dir <;> simp [Move.mirror, DriveDir.mirror]

theorem arcturnLeft_mirror (retreat : RetreatState) :
    retreat.mirror = .arcturnLeft ↔ retreat = .arcturnRight := by
  cases retreat <;> simp [RetreatState.mirror]

theorem arcturnRight_mirror (retreat : RetreatState) :
    retreat.mirror = .arcturnRight ↔ retreat = .arcturnLeft := by
  cases retreat <;> simp [RetreatState.mirror]

theorem nextAttackState_mirror (enemy : Enemy) :
    nextAttackState enemy.mirror = (nextAttackState enemy).map .mirror := by
  obtain ⟨position, range⟩ := enemy
  cases position <;> rfl

section

variable {cnt : BitVec 32} {data data' : StateMachineData} {history : RingBuffer}

theorem nextRetreatState_mirror :
    nextRetreatState (data.mirror history) = (nextRetreatState data).map .mirror := by
  have hdir : (currentMove (data.mirror history).retreat).dir = .reverse ↔
      (currentMove data.retreat).dir = .reverse := by
    rw [show (data.mirror history).retreat = data.retreat.mirror from rfl, currentMove_mirror]
    exact reverse_mirror _
  have hleft : (data.mirror history).retreat.state = .arcturnLeft ↔
      data.retreat.state = .arcturnRight := arcturnLeft_mirror _
  have hright : (data.mirror history).retreat.state = .arcturnRight ↔
      data.retreat.state = .arcturnLeft := arcturnRight_mirror _
  have henemy : (data.mirror history).common.enemy = data.common.enemy.mirror := rfl
  have hline : (data.mirror history).common.line = data.common.line.mirror := rfl
  simp only [nextRetreatState, hdir, hleft, hright, henemy, hline, enemyAtLeft_mirror,
    enemyAtRight_mirror, enemyAtFront_mirror]
  cases data.common.line with
  | front =>
    cases hside : enemyAtLeft data.common.enemy with
    | true => simp [Line.mirror, enemyAtRight_of_left _ hside, Except.map, RetreatState.mirror]
    | false =>
      simp only [Line.mirror, Bool.false_eq_true, if_false]
      split <;> rfl
  | none | diagonalLeft | diagonalRight | back | left | right => rfl
  | frontLeft | frontRight | backLeft | backRight =>
    dsimp only [Line.mirror]
    split
    · rfl
    split <;> rfl

theorem searchDirection_mirror (h : Histories data.inputHistory history)
    (hsided : data.search.state = .rotate → lastSided (entries data.inputHistory) ≠ none) :
    searchDirection (data.mirror history) = (searchDirection data).mirror := by
  have hstate : (data.mirror history).search.state = data.search.state := rfl
  have hhistory : (data.mirror history).inputHistory = history := rfl
  cases hsearch : data.search.state with
  | forward => simp only [searchDirection, hstate, hsearch, DriveDir.mirror]
  | rotate =>
    simp only [searchDirection, hstate, hsearch, hhistory, h.atRight (hsided hsearch)]
    cases enemyAtRight (lastDirectedEnemy data.inputHistory) <;> rfl

theorem searchStart_mirror (h : Histories data.inputHistory history)
    (hblind : ¬StartedBlind data (searchStart cnt data)) :
    searchStart cnt (data.mirror history) = (searchStart cnt data).mirror history := by
  have hsided (hrotate : data.search.state = .rotate) :
      lastSided (entries data.inputHistory) ≠ none :=
    fun hnone => hblind ⟨rfl, hrotate, Nat.lt_succ_self _, hnone⟩
  rw [searchStart, searchDirection_mirror h hsided]
  rfl

theorem attackStart_mirror :
    attackStart cnt (data.mirror history) = (attackStart cnt data).mirror history := by
  have hdirection : data.attack.state.mirror.direction = data.attack.state.direction.mirror := by
    cases data.attack.state <;> rfl
  rw [attackStart, attackStart]
  simp only [StateMachineData.mirror, hdirection, List.map_cons, DriveCommand.mirror]

theorem moveStart_mirror :
    moveStart cnt (data.mirror history) = (moveStart cnt data).mirror history := by
  have hmove : currentMove (data.mirror history).retreat = (currentMove data.retreat).mirror :=
    currentMove_mirror data.retreat
  rw [moveStart, moveStart, hmove]
  rfl

theorem driveManually_mirror :
    driveManually (data.mirror history) = (driveManually data).mirror history := by
  rw [driveManually, driveManually]
  simp only [StateMachineData.mirror, manualDrive_mirror, List.map_append, Option.toList_map]

theorem stateSearchRun_mirror (hs : data.state = .search) (h : Histories data.inputHistory history)
    (hblind : ∀ data', stateSearchRun cnt data = .ok data' → ¬StartedBlind data data') :
    stateSearchRun cnt (data.mirror history) = (stateSearchRun cnt data).map (.mirror history) := by
  have hrun := stateSearchRun_eq cnt hs
  have hrun' : stateSearchRun cnt (data.mirror history) = _ := stateSearchRun_eq cnt hs
  rw [hrun, hrun', searchStart_mirror h (hblind _ hrun)]
  rfl

theorem stateSearchRun_from (hs : data.state = .search) (h : Histories data.inputHistory history)
    (search : SearchState) (hblind : ∀ data',
      stateSearchRun cnt { data with search.state := search } = .ok data' →
      ¬StartedBlind data data') :
    stateSearchRun cnt (StateMachineData.mirror history { data with search.state := search }) =
      (stateSearchRun cnt { data with search.state := search }).map (.mirror history) :=
  @stateSearchRun_mirror cnt { data with search.state := search } history hs h
    fun data' hrun hstarted => hblind data' hrun
      ⟨hstarted.state, hstarted.rotate, hstarted.started, hstarted.blind⟩

theorem stateSearchEnter_finished (data : StateMachineData) :
    stateSearchEnter cnt .retreat .finished data =
      stateSearchRun cnt { data with search.state := .rotate } := by
  change stateSearchRun cnt (if data.search.state = .forward then _ else _) = _
  congr 1
  cases hsearch : data.search.state with
  | forward => rfl
  | rotate =>
    have hkeep : data.search = ⟨.rotate⟩ := congrArg StateSearchData.mk hsearch
    rw [if_neg (by decide), ← hkeep]

theorem stateSearchEnter_mirror (src : State) (event : StateEvent) (hs : data.state = .search)
    (h : Histories data.inputHistory history)
    (hblind : ∀ data', stateSearchEnter cnt src event data = .ok data' →
      ¬StartedBlind data data') :
    stateSearchEnter cnt src event (data.mirror history) =
      (stateSearchEnter cnt src event data).map (.mirror history) := by
  cases src with
  | wait =>
    cases event with
    | command => exact stateSearchRun_mirror hs h hblind
    | _ => rfl
  | attack =>
    cases event with
    | none => exact stateSearchRun_mirror hs h hblind
    | _ => rfl
  | retreat =>
    cases event with
    | finished =>
      simp only [stateSearchEnter_finished] at hblind ⊢
      exact stateSearchRun_from hs h _ hblind
    | _ => rfl
  | search =>
    cases event with
    | timeout => exact stateSearchRun_from hs h _ hblind
    | _ => rfl
  | manual => cases event <;> rfl

theorem AttackState.mirror_inj {attack attack' : AttackState} :
    attack.mirror = attack'.mirror ↔ attack = attack' := by
  cases attack <;> cases attack' <;> decide

theorem stateAttackRun_mirror (hs : data.state = .attack) :
    stateAttackRun cnt (data.mirror history) = (stateAttackRun cnt data).map (.mirror history) := by
  have hrun' : stateAttackRun cnt (data.mirror history) = _ := stateAttackRun_eq cnt hs
  rw [stateAttackRun_eq cnt hs, hrun', attackStart_mirror]
  rfl

theorem stateAttackEnter_mirror (src : State) (event : StateEvent) (hs : data.state = .attack) :
    stateAttackEnter cnt src event (data.mirror history) =
      (stateAttackEnter cnt src event data).map (.mirror history) := by
  have hnext : nextAttackState (data.mirror history).common.enemy =
      (nextAttackState data.common.enemy).map .mirror := nextAttackState_mirror _
  rw [stateAttackEnter, stateAttackEnter, hnext]
  cases nextAttackState data.common.enemy with
  | error site => rfl
  | ok attack =>
    have hrun := @stateAttackRun_mirror cnt { data with attack.state := attack } history hs
    cases src with
    | search =>
      cases event with
      | enemy => exact hrun
      | _ => rfl
    | attack =>
      cases event with
      | enemy =>
        change (if data.attack.state.mirror ≠ attack.mirror then _ else _) =
          Except.map _ (if data.attack.state ≠ attack then _ else _)
        have hmoved : data.attack.state.mirror ≠ attack.mirror ↔ data.attack.state ≠ attack :=
          not_congr AttackState.mirror_inj
        simp only [hmoved]
        split
        · exact hrun
        · rfl
      | _ => rfl
    | wait | retreat | manual => rfl

theorem startRetreatMove_mirror (hs : data.state = .retreat) :
    startRetreatMove cnt (data.mirror history) =
      (startRetreatMove cnt data).map (.mirror history) := by
  have hrun' : startRetreatMove cnt (data.mirror history) = _ := startRetreatMove_eq cnt hs
  rw [startRetreatMove_eq cnt hs, hrun', moveStart_mirror]
  change (if data.retreat.moveIdx < (retreatStates data.retreat.state.mirror).moveCnt then _
    else _) = _
  rw [moveCnt_mirror]
  split <;> rfl

theorem stateRetreatRun_mirror (hs : data.state = .retreat) :
    stateRetreatRun cnt (data.mirror history) =
      (stateRetreatRun cnt data).map (.mirror history) := by
  have hnext : nextRetreatState
      { data.mirror history with retreat.moveIdx := 0 } =
        (nextRetreatState { data with retreat.moveIdx := 0 }).map .mirror :=
    @nextRetreatState_mirror { data with retreat.moveIdx := 0 } history
  have hrun' : stateRetreatRun cnt (data.mirror history) = _ := stateRetreatRun_eq hs
  rw [stateRetreatRun_eq hs, hrun', hnext]
  cases nextRetreatState { data with retreat.moveIdx := 0 } with
  | error site => rfl
  | ok retreat =>
    have hstart := @moveStart_mirror cnt { data with retreat := ⟨retreat, 0⟩ } history
    exact congrArg Except.ok hstart

theorem moveTimeout_mirror (hs : data.state = .retreat) :
    stateRetreatEnter cnt .retreat .timeout (data.mirror history) =
      (stateRetreatEnter cnt .retreat .timeout data).map (.mirror history) := by
  have hmove := @startRetreatMove_mirror cnt
    { data with retreat.moveIdx := data.retreat.moveIdx + 1 } history hs
  have hdone : retreatStateDone ⟨data.retreat.state.mirror, data.retreat.moveIdx + 1⟩ =
      retreatStateDone ⟨data.retreat.state, data.retreat.moveIdx + 1⟩ := by
    rw [retreatStateDone, retreatStateDone, moveCnt_mirror]
  change (if retreatStateDone ⟨data.retreat.state.mirror, data.retreat.moveIdx + 1⟩ then _
    else _) = Except.map _
      (if retreatStateDone ⟨data.retreat.state, data.retreat.moveIdx + 1⟩ then _ else _)
  rw [hdone]
  split
  · rw [postInternalEvent_eq, postInternalEvent_eq]
    change (if data.internalEvent = .none then _ else _) =
      Except.map _ (if data.internalEvent = .none then _ else _)
    split <;> rfl
  · exact hmove

theorem stateRetreatEnter_mirror (src : State) (event : StateEvent) (hs : data.state = .retreat) :
    stateRetreatEnter cnt src event (data.mirror history) =
      (stateRetreatEnter cnt src event data).map (.mirror history) := by
  have hrun := @stateRetreatRun_mirror cnt data history hs
  cases src with
  | search | attack =>
    cases event with
    | line => exact hrun
    | _ => rfl
  | retreat =>
    cases event with
    | line => exact hrun
    | timeout => exact moveTimeout_mirror hs
    | _ => rfl
  | wait | manual => cases event <;> rfl

theorem stateManualEnter_mirror (event : StateEvent) :
    stateManualEnter event (data.mirror history) =
      (stateManualEnter event data).map (.mirror history) := by
  by_cases hevent : event = .command
  · rw [hevent, stateManualEnter_command, stateManualEnter_command, driveManually_mirror]
    rfl
  · rw [stateManualEnter, stateManualEnter, if_pos hevent, if_pos hevent]
    rfl

def entered (src dst : State) (data : StateMachineData) : StateMachineData :=
  if src ≠ dst then { data with timer := timerCleared, state := dst } else data

theorem entered_state {src dst : State} (hs : data.state = src) :
    (entered src dst data).state = dst := by
  rw [entered]
  split
  case isTrue => rfl
  case isFalse hsame => rw [hs, not_not.mp hsame]

theorem entered_kept (src dst : State) (data : StateMachineData) :
    (entered src dst data).inputHistory = data.inputHistory ∧
      (entered src dst data).drives = data.drives := by
  rw [entered]
  split <;> exact ⟨rfl, rfl⟩

theorem entered_mirror (src dst : State) :
    entered src dst (data.mirror history) = (entered src dst data).mirror history := by
  rw [entered, entered]
  split <;> rfl

theorem StartedBlind.entered {src dst : State} (h : StartedBlind (entered src dst data) data') :
    StartedBlind data data' :=
  ⟨h.state, h.rotate, (entered_kept src dst data).2 ▸ h.started, h.blind⟩

theorem stateEnter_mirror (src : State) (event : StateEvent) (dst : State) (hs : data.state = src)
    (h : Histories data.inputHistory history)
    (hblind : ∀ data', stateEnter cnt src event dst data = .ok data' →
      ¬StartedBlind data data') :
    stateEnter cnt src event dst (data.mirror history) =
      (stateEnter cnt src event dst data).map (.mirror history) := by
  have hstate := @entered_state data src dst hs
  have hhistory : Histories (entered src dst data).inputHistory history :=
    (entered_kept src dst data).1 ▸ h
  have hmirror := @entered_mirror data history src dst
  cases dst with
  | wait =>
    change stateWaitEnter src (entered src .wait (data.mirror history)) = _
    rw [hmirror]
    change _ = (stateWaitEnter src (entered src .wait data)).map _
    cases src <;> rfl
  | search =>
    change stateSearchEnter cnt src event (entered src .search (data.mirror history)) = _
    rw [hmirror]
    exact stateSearchEnter_mirror src event hstate hhistory fun data' hrun hstarted =>
      hblind data' hrun hstarted.entered
  | attack =>
    change stateAttackEnter cnt src event (entered src .attack (data.mirror history)) = _
    rw [hmirror]
    exact stateAttackEnter_mirror src event hstate
  | retreat =>
    change stateRetreatEnter cnt src event (entered src .retreat (data.mirror history)) = _
    rw [hmirror]
    exact stateRetreatEnter_mirror src event hstate
  | manual =>
    change stateManualEnter event (entered src .manual (data.mirror history)) = _
    rw [hmirror]
    exact stateManualEnter_mirror event

theorem processEvent_mirror (event : StateEvent) (h : Histories data.inputHistory history)
    (hblind : ∀ data', processEvent cnt event data = .ok data' → ¬StartedBlind data data') :
    processEvent cnt event (data.mirror history) =
      (processEvent cnt event data).map (.mirror history) := by
  have hstate : (data.mirror history).state = data.state := rfl
  rw [processEvent_eq] at hblind ⊢
  rw [processEvent_eq, hstate]
  cases htransition : transition data.state event with
  | none => rfl
  | some dst =>
    rw [htransition] at hblind
    exact stateEnter_mirror data.state event dst rfl h hblind

def takeEvent (cnt : BitVec 32) (data : StateMachineData) :
    Except Assert (StateEvent × StateMachineData) :=
  if data.common.cmd ≠ IrCmd.none then
    .ok (.command, data)
  else if hasInternalEvent data then
    takeInternalEvent data
  else if timerTimeout cnt data.timer then
    .ok (.timeout, { data with timer := timerCleared })
  else if data.common.line ≠ .none then
    .ok (.line, data)
  else if enemyDetected data.common.enemy then
    .ok (.enemy, data)
  else
    .ok (.none, data)

theorem processInput_eq (readings : Readings) (data : StateMachineData) :
    processInput readings data = readInputs readings data >>= takeEvent readings.pollCnt := rfl

theorem takeEvent_mirror :
    takeEvent cnt (data.mirror history) =
      (takeEvent cnt data).map fun taken => (taken.1, taken.2.mirror history) := by
  have hcmd : (data.mirror history).common.cmd ≠ IrCmd.none ↔ data.common.cmd ≠ IrCmd.none :=
    not_congr (mirrorCmd_eq_none _)
  have hline : (data.mirror history).common.line ≠ .none ↔ data.common.line ≠ .none :=
    not_congr (mirror_eq_none _)
  have henemy : enemyDetected (data.mirror history).common.enemy =
      enemyDetected data.common.enemy := enemyDetected_mirror _
  have hpending : hasInternalEvent (data.mirror history) = hasInternalEvent data := rfl
  have htimer : (data.mirror history).timer = data.timer := rfl
  simp only [takeEvent, hcmd, hline, henemy, hpending, htimer]
  split
  · rfl
  split
  · rw [takeInternalEvent, takeInternalEvent, hpending]
    cases hasInternalEvent data <;> rfl
  split
  · rfl
  split
  · rfl
  split <;> rfl

theorem processInput_mirror (readings : Readings) (h : Histories data.inputHistory history) :
    ∃ next event data', Histories data'.inputHistory next ∧ data'.drives = data.drives ∧
      processInput readings data = .ok (event, data') ∧
      processInput readings.mirror (data.mirror history) = .ok (event, data'.mirror next) := by
  obtain ⟨saved, next, hsave, hsave', hhistories⟩ := h.save ⟨readings.enemy, readings.line⟩
  obtain ⟨saved₁, hsaved₁, hread⟩ := readInputs_eq readings data
  obtain ⟨saved₂, hsaved₂, hread'⟩ := readInputs_eq readings.mirror (data.mirror history)
  cases hsave.symm.trans hsaved₁
  cases hsave'.symm.trans hsaved₂
  obtain ⟨_, hsaved, event, data', hinput, htaken⟩ := processInput_taken readings data
  cases hsave.symm.trans hsaved
  refine ⟨next, event, data', htaken.inputHistory ▸ hhistories, htaken.drives, hinput, ?_⟩
  rw [processInput_eq, hread, Run.ok_bind] at hinput
  rw [processInput_eq, hread', Run.ok_bind]
  refine (@takeEvent_mirror readings.pollCnt (data.reading readings saved) next).trans ?_
  rw [hinput]
  rfl

end

section

variable {data data' : StateMachineData}

theorem iteration_mirror (readings : Readings) (h : Mirrored data data')
    (hblind : ∀ next, iteration readings data = .ok next → ¬StartedBlind data next) :
    Run.Together Mirrored (iteration readings data) (iteration readings.mirror data') := by
  obtain ⟨hhistories, hdata'⟩ := h
  obtain ⟨history, event, taken, hnext, hdrives, hinput, hinput'⟩ :=
    processInput_mirror readings hhistories
  have hrun : iteration readings data = processEvent readings.startCnt event taken := by
    rw [iteration, hinput, Run.ok_bind]
  have hrun' : iteration readings.mirror data' =
      (processEvent readings.startCnt event taken).map (.mirror history) := by
    rw [hdata', iteration, hinput', Run.ok_bind]
    refine processEvent_mirror event hnext fun next hevent hstarted => ?_
    exact hblind next (hrun.trans hevent)
      ⟨hstarted.state, hstarted.rotate, hdrives ▸ hstarted.started, hstarted.blind⟩
  rw [hrun, hrun']
  cases hevent : processEvent readings.startCnt event taken with
  | error site => rfl
  | ok next =>
    have hkept : next.inputHistory = taken.inputHistory := (processEvent_ok hevent).inputHistory
    exact ⟨hkept.symm ▸ hnext, rfl⟩

theorem mirrored_init : Mirrored stateMachineInit stateMachineInit :=
  ⟨⟨RingBuffer.ofSize_growing (by decide), RingBuffer.ofSize_growing (by decide), rfl⟩, rfl⟩

end

def NeverBlind (readings : List Readings) : Prop :=
  Run.Along iteration (fun reading data => ∀ next, iteration reading data = .ok next →
    ¬StartedBlind data next) readings stateMachineInit

def SameMirrored : Except Assert StateMachineData → Except Assert StateMachineData → Prop :=
  Run.Together fun data data' =>
    data'.state = data.state ∧ data'.drives = data.drives.map DriveCommand.mirror

theorem run_mirror {readings : List Readings} (hsides : NeverBlind readings) :
    SameMirrored (stateMachineRun readings) (stateMachineRun (readings.map Readings.mirror)) := by
  have hrun : Run.Together Mirrored (stateMachineRun readings)
      (stateMachineRun (readings.map Readings.mirror)) :=
    Run.run_together (fun reading data data' hblind h => iteration_mirror reading h hblind) hsides
      mirrored_init
  refine hrun.mono fun data data' h => ?_
  rw [h.2]
  exact ⟨rfl, rfl⟩

theorem runs_mirror (readings : List Readings) (hsides : NeverBlind readings)
    (before after : List Readings) (hsplit : readings = before ++ after) :
    SameMirrored (stateMachineRun before) (stateMachineRun (before.map Readings.mirror)) := by
  have hbefore : NeverBlind before := Run.along_of_append (hsplit ▸ hsides)
  exact run_mirror hbefore

def startedRight : List Readings :=
  [⟨⟨.right, .far⟩, .none, IrCmd.none, 0, 0⟩, ⟨enemyNone, .none, IrCmd.up, 0, 0⟩]

theorem runs_mirror_startedRight :
    SameMirrored (stateMachineRun startedRight)
      (stateMachineRun (startedRight.map Readings.mirror)) := by
  refine runs_mirror startedRight ?_ startedRight [] (List.append_nil _).symm
  refine (Run.along_cons rfl).mpr ⟨fun next hnext hblind => ?_,
    (Run.along_cons rfl).mpr ⟨fun next hnext hblind => ?_, Run.along_nil _⟩⟩
  · cases hnext
    cases hblind.state
  · cases hnext
    cases hblind.blind

end Nsumo.App
