import Nsumo.App.Mission
import Nsumo.App.PlaybackLaws

namespace Nsumo.App

open Common Drivers Lib

def Bearing.attackState : Bearing → AttackState
  | ahead => .forward
  | aside .left => .left
  | aside .right => .right

def Escape.retreatState : Escape → RetreatState
  | back => .reverse
  | ahead => .forward
  | turn .left => .arcturnLeft
  | turn .right => .arcturnRight
  | align .left => .alignLeft
  | align .right => .alignRight

inductive Does (data : StateMachineData) : Doing → Prop
  | waiting : data.state = .wait → data.search.state = .rotate → data.internalEvent = .none →
      data.timer = timerCleared → Does data .waiting
  | searching {since} : data.state = .search → data.internalEvent = .none →
      data.timer = timerStart since data.search.state.timeout →
      Does data (.searching data.search.state since)
  | attacking {bearing since} : data.state = .attack → data.internalEvent = .none →
      data.attack.state = bearing.attackState → data.timer = timerStart since 5000 →
      Does data (.attacking bearing data.search.state since)
  | retreating {move rest since} : data.state = .retreat → data.internalEvent = .none →
      (retreatStates data.retreat.state).moves.drop data.retreat.moveIdx = move :: rest →
      data.timer = timerStart since (move.duration.setWidth 32) →
      Does data (.retreating move rest since)
  | retreated : data.state = .retreat → data.internalEvent = .finished →
      data.timer = timerCleared → Does data .retreated
  | remote : data.state = .manual → data.internalEvent = .none → data.timer = timerCleared →
      Does data .remote
  | stranded : data.state = .manual → data.internalEvent = .finished →
      data.timer = timerCleared → Does data .stranded

structure Remembers (data : StateMachineData) (m : Mission) : Prop where
  last : data.retreat.state = m.last.retreatState
  growing : data.inputHistory.Growing 6 3
  entries : entries data.inputHistory = retained 6 m.inputs
  drives : data.drives = m.drives

structure CarriesOut (data : StateMachineData) (m : Mission) : Prop extends Remembers data m where
  doing : Does data m.doing

section

variable {enemy : Enemy} {data : StateMachineData} {last : Escape}

theorem atLeft_bearing (enemy : Enemy) :
    enemyAtLeft enemy = decide (enemy.bearing = some (.aside .left)) := by
  obtain ⟨position, range⟩ := enemy
  cases position <;> rfl

theorem atRight_bearing (enemy : Enemy) :
    enemyAtRight enemy = decide (enemy.bearing = some (.aside .right)) := by
  obtain ⟨position, range⟩ := enemy
  cases position <;> rfl

theorem atFront_bearing (enemy : Enemy) :
    enemyAtFront enemy = decide (enemy.bearing = some .ahead) := by
  obtain ⟨position, range⟩ := enemy
  cases position <;> rfl

theorem detected_bearing (enemy : Enemy) : enemyDetected enemy = enemy.bearing.isSome := by
  obtain ⟨position, range⟩ := enemy
  cases position <;> rfl

theorem nextAttackState_bearing (enemy : Enemy) :
    nextAttackState enemy =
      enemy.bearing.elim (.error .nextAttackState) fun bearing => .ok bearing.attackState := by
  obtain ⟨position, range⟩ := enemy
  cases position <;> rfl

theorem attackState_inj {bearing bearing' : Bearing} :
    bearing.attackState = bearing'.attackState ↔ bearing = bearing' := by
  rcases bearing with _ | side <;> rcases bearing' with _ | side' <;> try cases side
  all_goals try cases side'
  all_goals decide

theorem Escape.moves (escape : Escape) :
    (retreatStates escape.retreatState).moves = escape.first :: escape.rest := by
  cases escape with
  | back | ahead => rfl
  | turn side | align side => cases side <;> rfl

theorem nextRetreatState_escape (hlast : data.retreat = ⟨last.retreatState, 0⟩) :
    nextRetreatState data =
      (data.common.line.escape data.common.enemy.bearing last).elim (.error .nextRetreatState)
        fun escape => .ok escape.retreatState := by
  have hfirst : currentMove data.retreat = last.first := by
    rw [hlast, currentMove, Escape.moves]
    rfl
  rw [nextRetreatState, hfirst, hlast, atLeft_bearing, atRight_bearing, atFront_bearing]
  generalize data.common.enemy.bearing = bearing
  cases hline : data.common.line with
  | none | diagonalLeft | diagonalRight | back | left | right => rfl
  | front | frontLeft | frontRight =>
    rcases bearing with _ | _ | _ | _ <;> rfl
  | backLeft | backRight =>
    cases last with
    | back | ahead => rfl
    | turn side | align side => cases side <;> rfl

end

section

variable {cnt : BitVec 32} {data : StateMachineData} {event : StateEvent}

theorem idle_eq (hs : data.state.autonomous = false)
    (hevent : event = .line ∨ event = .enemy ∨ event = .none) :
    processEvent cnt event data = .ok data := by
  cases hcase : data.state with
  | search | attack | retreat => simp [hcase, State.autonomous] at hs
  | wait | manual =>
    obtain rfl | rfl | rfl := hevent <;> rw [processEvent_row _ (by rw [hcase]; rfl), hcase] <;> rfl

theorem start_eq (hs : data.state = .wait) :
    processEvent cnt .command data = .ok (searchStart cnt data) := by
  rw [processEvent_row .search (by rw [hs]; rfl), hs]
  exact @stateSearchRun_eq cnt { data with timer := timerCleared, state := .search } rfl

theorem takeOver_eq (hauto : data.state.autonomous = true) : processEvent cnt .command data =
    .ok (driveManually { data with state := .manual, timer := timerCleared }) := by
  cases hs : data.state with
  | wait | manual => simp [hs, State.autonomous] at hauto
  | search | attack | retreat =>
    rw [processEvent_row .manual (by rw [hs]; rfl), hs]
    exact stateManualEnter_command _

theorem manualCommand_eq (hs : data.state = .manual) :
    processEvent cnt .command data = .ok (driveManually data) := by
  rw [processEvent_row .manual (by rw [hs]; rfl), hs]
  exact stateManualEnter_command _

theorem searchTimeout_eq (hs : data.state = .search) : processEvent cnt .timeout data =
    .ok (searchStart cnt { data with search.state := data.search.state.next }) := by
  rw [processEvent_row .search (by rw [hs]; rfl), hs]
  exact @stateSearchRun_eq cnt { data with search.state := data.search.state.next } hs

theorem searchNone_eq (hs : data.state = .search) : processEvent cnt .none data = .ok data := by
  rw [processEvent_row .search (by rw [hs]; rfl), hs]
  rfl

theorem attackNone_eq (hs : data.state = .attack) :
    processEvent cnt .none data = .ok (searchStart cnt data) := by
  rw [processEvent_row .search (by rw [hs]; rfl), hs]
  exact @stateSearchRun_eq cnt { data with timer := timerCleared, state := .search } rfl

theorem searchEnemy_eq (hs : data.state = .search) {bearing : Bearing}
    (hbearing : data.common.enemy.bearing = some bearing) : processEvent cnt .enemy data =
      .ok (attackStart cnt { data with attack.state := bearing.attackState }) := by
  have hnext := nextAttackState_bearing data.common.enemy
  rw [hbearing] at hnext
  rw [processEvent_row .attack (by rw [hs]; rfl), hs]
  change (nextAttackState data.common.enemy >>= _) = _
  rw [hnext]
  exact stateAttackRun_eq cnt rfl

theorem attackEnemy_eq (hs : data.state = .attack) {bearing : Bearing}
    (hbearing : data.common.enemy.bearing = some bearing) : processEvent cnt .enemy data =
      .ok (if data.attack.state = bearing.attackState then data
        else attackStart cnt { data with attack.state := bearing.attackState }) := by
  have hnext := nextAttackState_bearing data.common.enemy
  rw [hbearing] at hnext
  rw [processEvent_row .attack (by rw [hs]; rfl), hs]
  change (nextAttackState data.common.enemy >>= _) = _
  rw [hnext]
  change (if data.attack.state ≠ bearing.attackState then stateAttackRun cnt _ else .ok _) = _
  by_cases hsame : data.attack.state = bearing.attackState
  · rw [if_neg (not_not.mpr hsame), if_pos hsame, ← hsame]
    rfl
  · rw [if_pos hsame, if_neg hsame]
    exact stateAttackRun_eq cnt (by exact hs)

theorem attackTimeout_eq (hs : data.state = .attack) : processEvent cnt .timeout data =
    .error (if data.common.enemy.bearing = none then .nextAttackState else .stateAttackEnter) := by
  have hnext := nextAttackState_bearing data.common.enemy
  rw [processEvent_row .attack (by rw [hs]; rfl), hs]
  change (nextAttackState data.common.enemy >>= _) = _
  rw [hnext]
  cases data.common.enemy.bearing <;> rfl

theorem line_eq (hauto : data.state.autonomous = true) : processEvent cnt .line data =
    (nextRetreatState { data with retreat.moveIdx := 0 }).map
      fun retreat => moveStart cnt { data with retreat := ⟨retreat, 0⟩ } := by
  cases hs : data.state with
  | wait | manual => simp [hs, State.autonomous] at hauto
  | search | attack =>
    rw [processEvent_row .retreat (by rw [hs]; rfl), hs]
    exact @stateRetreatRun_eq cnt { data with timer := timerCleared, state := .retreat } rfl
  | retreat =>
    rw [processEvent_row .retreat (by rw [hs]; rfl), hs]
    exact stateRetreatRun_eq hs

theorem manualFinished_eq (hs : data.state = .manual) :
    processEvent cnt .finished data = .error .processEvent := by
  rw [processEvent_eq, hs]
  rfl

end

section

variable {next : Readings} {data data' : StateMachineData} {m : Mission} {doing : Doing}
  {first : Move} {rest : List Move} {bearing : Bearing} {phase : SearchState} {event : StateEvent}

theorem retained_concat (inputs : List Input) (input : Input) : retained 6 (inputs ++ [input]) =
    if noticed input then Recent.remember 6 (retained 6 inputs) input else retained 6 inputs := by
  rw [retained_eq, retained_eq, sightings, sightings, ← Recent.foldl_remember (by decide),
    ← Recent.foldl_remember (by decide), List.filter_append, List.foldl_append, List.filter_cons]
  split <;> rfl

theorem Remembers.read (h : Remembers data m) {history : RingBuffer}
    (hsave : inputHistorySave data.inputHistory next.input = .ok history) :
    Remembers (data.reading next history) { m with inputs := m.inputs ++ [next.input] } := by
  obtain ⟨history', hsave', hgrowing, hentries⟩ := save_spec h.growing (by decide) next.input
  cases hsave.symm.trans hsave'
  exact ⟨h.last, hgrowing, by rw [retained_concat, ← h.entries]; exact hentries, h.drives⟩

theorem Does.read (h : Does data doing) (history : RingBuffer) :
    Does (data.reading next history) doing := by
  cases h with
  | waiting hs hsearch hnone htimer => exact .waiting hs hsearch hnone htimer
  | searching hs hnone htimer => exact .searching hs hnone htimer
  | attacking hs hnone hattack htimer => exact .attacking hs hnone hattack htimer
  | retreating hs hnone hmoves htimer => exact .retreating hs hnone hmoves htimer
  | retreated hs hdone htimer => exact .retreated hs hdone htimer
  | remote hs hnone htimer => exact .remote hs hnone htimer
  | stranded hs hdone htimer => exact .stranded hs hdone htimer

theorem Remembers.direction (h : Remembers data m) (hrotate : data.search.state = .rotate) :
    searchDirection data = m.lastSide.rotation := by
  rw [searchDirection, hrotate, lastDirectedEnemy, lastDirectedEnemy_spec h.growing (by decide),
    h.entries, Mission.lastSide]
  cases hlast : lastSided (retained 6 m.inputs) with
  | none => rfl
  | some input =>
    have hsided : sided input = true := List.find?_some hlast
    rw [sided, atLeft_bearing, atRight_bearing] at hsided
    change (if enemyAtRight input.enemy then _ else _) = (rotationSide input.enemy.bearing).rotation
    rw [atRight_bearing]
    cases hbearing : input.enemy.bearing with
    | none => simp [hbearing] at hsided
    | some bearing =>
      rcases bearing with _ | _ | _
      · simp [hbearing] at hsided
      · rfl
      · rfl

theorem Remembers.search (h : Remembers data m) (hnone : data.internalEvent = .none)
    (hsearch : data.search.state = phase) :
    CarriesOut (searchStart next.startCnt data) (m.search next phase) where
  last := h.last
  growing := h.growing
  entries := h.entries
  drives := by
    subst hsearch
    refine congrArg₂ (fun direction drives => .set direction .fast :: drives) ?_ h.drives
    cases hsearch : data.search.state with
    | rotate => exact h.direction hsearch
    | forward => rw [searchDirection, hsearch]
  doing := hsearch ▸ .searching rfl hnone rfl

theorem Remembers.attack (h : Remembers data m) (hnone : data.internalEvent = .none)
    (hattack : data.attack.state = bearing.attackState) :
    CarriesOut (attackStart next.startCnt data) (m.attack next bearing data.search.state) where
  last := h.last
  growing := h.growing
  entries := h.entries
  drives := by
    refine congrArg₂ (fun direction drives => .set direction .fast :: drives) ?_ h.drives
    rw [hattack]
    rcases bearing with _ | _ | _ <;> rfl
  doing := .attacking rfl hnone hattack rfl

theorem Remembers.move (h : Remembers data m) (hnone : data.internalEvent = .none)
    (hmoves : (retreatStates data.retreat.state).moves.drop data.retreat.moveIdx = first :: rest) :
    CarriesOut (moveStart next.startCnt data) (m.move next first rest) := by
  have hcurrent : currentMove data.retreat = first := by
    have hget : (retreatStates data.retreat.state).moves[data.retreat.moveIdx]? = some first := by
      rw [← List.head?_drop, hmoves]
      rfl
    rw [currentMove, List.getD_eq_getElem?_getD, hget]
    rfl
  exact {
    last := h.last
    growing := h.growing
    entries := h.entries
    drives := by
      rw [moveStart, hcurrent, h.drives]
      rfl
    doing := .retreating rfl hnone hmoves
      (congrArg (fun move : Move => timerStart _ (move.duration.setWidth 32)) hcurrent) }

theorem elapsed_iff {ms since : BitVec 32} (hpos : 0 < ms.toNat)
    (hle : ms.toNat ≤ 2147483648) :
    Elapsed ms.toNat since next ↔ timerTimeout next.pollCnt (timerStart since ms) = true := by
  rw [timerTimeout_iff hpos hle, Elapsed]
  omega

theorem Does.due_iff (h : Does data doing) :
    doing.Due next ↔ timerTimeout next.pollCnt data.timer = true := by
  cases h with
  | searching _ _ htimer =>
    rw [htimer]
    cases data.search.state with
    | rotate => exact @elapsed_iff next 400 _ (by decide) (by decide)
    | forward => exact @elapsed_iff next 3000 _ (by decide) (by decide)
  | attacking _ _ _ htimer =>
    rw [htimer]
    exact @elapsed_iff next 5000 _ (by decide) (by decide)
  | @retreating move rest _ _ _ hmoves htimer =>
    rw [htimer]
    have hmem : move ∈ (retreatStates data.retreat.state).moves :=
      List.mem_of_mem_drop (hmoves ▸ List.mem_cons_self)
    obtain ⟨hpos, hle⟩ := duration_bounds move hmem
    rw [← elapsed_iff hpos hle, BitVec.toNat_setWidth_of_le (by decide)]
    rfl
  | waiting _ _ _ htimer | retreated _ _ htimer | remote _ _ htimer | stranded _ _ htimer =>
    rw [htimer]
    exact iff_of_false not_false (by simp [timerTimeout])

theorem Remembers.kept {m' : Mission} (h : Remembers data m)
    (hretreat : data'.retreat.state = data.retreat.state)
    (hhistory : data'.inputHistory = data.inputHistory) (hlast : m'.last = m.last)
    (hinputs : m'.inputs = m.inputs) (hdrives : data'.drives = m'.drives) : Remembers data' m' where
  last := by rw [hretreat, hlast, h.last]
  growing := hhistory ▸ h.growing
  entries := by rw [hhistory, hinputs, h.entries]
  drives := hdrives

theorem drop_cons_length {moves : List Move} {idx : Nat} (h : moves.drop idx = first :: rest) :
    moves.drop (idx + 1) = rest ∧ moves.length = idx + 1 + rest.length := by
  have hlength := congrArg List.length h
  rw [List.length_drop, List.length_cons] at hlength
  exact ⟨by rw [← List.tail_drop, h, List.tail_cons], by omega⟩

theorem goOn_due (h : m.doing.Due next) : m.goOn next = m.due next := by
  obtain ⟨doing, last, inputs, drives⟩ := m
  cases doing with
  | searching | attacking | retreating => exact if_pos h
  | waiting | retreated | remote | stranded => exact h.elim

theorem Does.goOn (h : Does data m.doing) (hquiet : Quiet next.pollCnt data) : m.goOn next =
    if data.state.autonomous then
      if next.line ≠ .none then m.escape next else .ok (m.pursue next)
    else
      .ok m := by
  have hdue : ¬m.doing.Due next := by
    rw [h.due_iff, hquiet.timer]
    decide
  have hnone := hquiet.internalEvent
  obtain ⟨doing, last, inputs, drives⟩ := m
  dsimp only at h hdue
  cases h with
  | waiting hs | remote hs =>
    rw [hs]
    rfl
  | searching hs | attacking hs | retreating hs =>
    rw [hs]
    exact if_neg hdue
  | retreated _ hdone | stranded _ hdone => cases hdone.symm.trans hnone

theorem CarriesOut.command (h : CarriesOut data m) (hcmd : data.common.cmd = next.cmd) :
    ∃ data', processEvent next.startCnt .command data = .ok data' ∧
      CarriesOut data' (m.obey next) := by
  obtain ⟨hremembers, hdoing⟩ := h
  have hdrives : (manualDrive data.common.cmd).toList ++ data.drives =
      (manualDrive next.cmd).toList ++ m.drives := by rw [hcmd, hremembers.drives]
  obtain ⟨doing, last, inputs, drives⟩ := m
  dsimp only at hdoing
  cases hdoing with
  | waiting hs hsearch hnone => exact ⟨_, start_eq hs, hremembers.search hnone hsearch⟩
  | searching hs hnone | attacking hs hnone | retreating hs hnone =>
    exact ⟨_, takeOver_eq (by rw [hs]; rfl), hremembers.kept rfl rfl rfl rfl hdrives,
      .remote rfl hnone rfl⟩
  | retreated hs hdone =>
    exact ⟨_, takeOver_eq (by rw [hs]; rfl), hremembers.kept rfl rfl rfl rfl hdrives,
      .stranded rfl hdone rfl⟩
  | remote hs hnone htimer =>
    exact ⟨_, manualCommand_eq hs, hremembers.kept rfl rfl rfl rfl hdrives,
      .remote hs hnone htimer⟩
  | stranded hs hdone htimer =>
    exact ⟨_, manualCommand_eq hs, hremembers.kept rfl rfl rfl rfl hdrives,
      .stranded hs hdone htimer⟩

theorem CarriesOut.timeout (h : CarriesOut data m) (henemy : data.common.enemy = next.enemy)
    (hdue : m.doing.Due next) :
    Run.Together CarriesOut
      (processEvent next.startCnt .timeout { data with timer := timerCleared }) (m.goOn next) := by
  rw [goOn_due hdue]
  obtain ⟨hremembers, hdoing⟩ := h
  obtain ⟨doing, last, inputs, drives⟩ := m
  dsimp only at hdoing
  cases hdoing with
  | waiting | retreated | remote | stranded => exact hdue.elim
  | searching hs hnone =>
    have hkept : Remembers
        { data with search.state := data.search.state.next, timer := timerCleared } _ :=
      hremembers.kept rfl rfl rfl rfl hremembers.drives
    rw [searchTimeout_eq (by exact hs)]
    exact hkept.search hnone rfl
  | attacking hs =>
    rw [attackTimeout_eq (by exact hs)]
    exact congrArg (fun enemy : Enemy => if enemy.bearing = none then Assert.nextAttackState else _)
      henemy
  | @retreating first rest _ hs hnone hmoves =>
    obtain ⟨hrest, hlength⟩ := drop_cons_length hmoves
    rw [length_moves] at hlength
    rw [@retreatTimeout_eq next.startCnt { data with timer := timerCleared } hs hnone
      (by dsimp only; omega)]
    cases rest with
    | nil =>
      rw [if_neg (by dsimp only; rw [hlength, List.length_nil]; omega)]
      exact ⟨hremembers.kept rfl rfl rfl rfl hremembers.drives, .retreated hs rfl rfl⟩
    | cons second rest =>
      have hkept : Remembers
          { data with retreat.moveIdx := data.retreat.moveIdx + 1, timer := timerCleared } _ :=
        hremembers.kept rfl rfl rfl rfl hremembers.drives
      rw [if_pos (by dsimp only; rw [hlength, List.length_cons]; omega)]
      exact hkept.move hnone hrest

theorem CarriesOut.line (h : CarriesOut data m) (hline : data.common.line = next.line)
    (henemy : data.common.enemy = next.enemy) (hquiet : Quiet next.pollCnt data)
    (hseen : next.line ≠ .none) :
    Run.Together CarriesOut (processEvent next.startCnt .line data) (m.goOn next) := by
  rw [h.doing.goOn hquiet]
  cases hauto : data.state.autonomous with
  | false =>
    rw [idle_eq hauto (.inl rfl)]
    exact h
  | true =>
    have hnext := @nextRetreatState_escape { data with retreat.moveIdx := 0 } m.last
      (congrArg (StateRetreatData.mk · 0) h.last)
    rw [if_pos rfl, if_pos hseen, line_eq hauto, hnext, Mission.escape]
    dsimp only
    rw [hline, henemy]
    cases next.line.escape next.enemy.bearing m.last with
    | none => rfl
    | some escape =>
      have hkept : Remembers { data with retreat := ⟨escape.retreatState, 0⟩ }
          { m with last := escape } :=
        ⟨rfl, h.growing, h.entries, h.drives⟩
      exact hkept.move hquiet.internalEvent escape.moves

theorem CarriesOut.sensed (h : CarriesOut data m) (henemy : data.common.enemy = next.enemy)
    (hquiet : Quiet next.pollCnt data) (hline : next.line = .none)
    (hevent : event = if next.enemy.bearing = none then .none else .enemy) :
    Run.Together CarriesOut (processEvent next.startCnt event data) (m.goOn next) := by
  have hsensor : event = .enemy ∨ event = .none := by
    rw [hevent]
    split <;> simp
  rw [h.doing.goOn hquiet, if_neg (not_not.mpr hline)]
  cases hauto : data.state.autonomous with
  | false =>
    rw [idle_eq hauto (.inr hsensor)]
    exact h
  | true =>
    rw [if_pos rfl]
    obtain ⟨hremembers, hdoing⟩ := h
    have hnone := hquiet.internalEvent
    obtain ⟨doing, last, inputs, drives⟩ := m
    dsimp only at hdoing
    cases hdoing with
    | waiting hs | remote hs | stranded hs => simp [hs, State.autonomous] at hauto
    | retreated _ hdone => cases hdone.symm.trans hnone
    | retreating hs _ hmoves htimer =>
      rw [retreatStay_eq hs hsensor]
      exact ⟨hremembers, .retreating hs hnone hmoves htimer⟩
    | searching hs _ htimer =>
      cases hseen : next.enemy.bearing with
      | none =>
        rw [Mission.pursue, hseen, hevent, if_pos hseen, searchNone_eq hs]
        exact ⟨hremembers, .searching hs hnone htimer⟩
      | some bearing =>
        have hkept : Remembers { data with attack.state := bearing.attackState } _ :=
          hremembers.kept rfl rfl rfl rfl hremembers.drives
        rw [Mission.pursue, hseen, hevent, if_neg (by simp [hseen]),
          searchEnemy_eq hs (henemy ▸ hseen)]
        exact hkept.attack hnone rfl
    | @attacking current _ hs _ hattack htimer =>
      cases hseen : next.enemy.bearing with
      | none =>
        rw [Mission.pursue, hseen, hevent, if_pos hseen, attackNone_eq hs]
        exact hremembers.search hnone rfl
      | some bearing =>
        rw [Mission.pursue, hseen, hevent, if_neg (by simp [hseen]),
          attackEnemy_eq hs (henemy ▸ hseen), hattack]
        dsimp only
        by_cases hsame : current = bearing
        · rw [if_pos (attackState_inj.mpr hsame), if_pos hsame]
          exact ⟨hremembers, .attacking hs hnone hattack htimer⟩
        · have hkept : Remembers { data with attack.state := bearing.attackState } _ :=
            hremembers.kept rfl rfl rfl rfl hremembers.drives
          rw [if_neg (mt attackState_inj.mp hsame), if_neg hsame]
          exact hkept.attack hnone rfl

theorem CarriesOut.internal (h : CarriesOut data m) (hpending : data.internalEvent ≠ .none) :
    Run.Together CarriesOut
      (processEvent next.startCnt data.internalEvent { data with internalEvent := .none })
      (m.goOn next) := by
  obtain ⟨hremembers, hdoing⟩ := h
  obtain ⟨doing, last, inputs, drives⟩ := m
  dsimp only at hdoing
  cases hdoing with
  | waiting _ _ hnone | searching _ hnone | attacking _ hnone | retreating _ hnone
    | remote _ hnone => exact absurd hnone hpending
  | retreated hs hdone =>
    have hkept : Remembers { data with search.state := .rotate, internalEvent := .none } _ :=
      hremembers.kept rfl rfl rfl rfl hremembers.drives
    rw [hdone, retreatFinished_eq (by exact hs)]
    exact hkept.search rfl rfl
  | stranded hs hdone =>
    rw [hdone, manualFinished_eq (by exact hs)]
    rfl

theorem CarriesOut.iteration (h : CarriesOut data m) :
    Run.Together CarriesOut (App.iteration next data) (m.step next) := by
  obtain ⟨history, hsave, event, data₁, hinput, htaken⟩ := processInput_taken next data
  have hread : CarriesOut (data.reading next history)
      { m with inputs := m.inputs ++ [next.input] } :=
    ⟨h.toRemembers.read hsave, h.doing.read history⟩
  rw [App.iteration, hinput, Run.ok_bind, Mission.step]
  by_cases hcmd : next.cmd = IrCmd.none
  · rw [if_neg (not_not.mpr hcmd)]
    cases htaken with
    | command hcmd' => exact absurd hcmd hcmd'
    | internal _ hpending => exact hread.internal hpending
    | timeout _ _ htime => exact hread.timeout rfl (hread.doing.due_iff.mpr htime)
    | line hquiet hline => exact hread.line rfl rfl hquiet hline
    | enemy hquiet hline hdetected =>
      have hseen : next.enemy.bearing ≠ none := by
        rw [← Option.isSome_iff_ne_none, ← detected_bearing]
        exact hdetected
      exact hread.sensed rfl hquiet hline (if_neg hseen).symm
    | none hquiet hline hdetected =>
      have hseen : next.enemy.bearing = none := by
        rw [← Option.not_isSome_iff_eq_none, ← detected_bearing, Bool.not_eq_true]
        exact hdetected
      exact hread.sensed rfl hquiet hline (if_pos hseen).symm
  · rw [if_pos hcmd]
    obtain ⟨rfl, rfl⟩ := htaken.of_command hcmd
    obtain ⟨data', hok, hcarried⟩ := hread.command rfl
    dsimp only
    rw [hok]
    exact hcarried

theorem carriesOut_init : CarriesOut stateMachineInit .start where
  last := rfl
  growing := RingBuffer.ofSize_growing (by decide)
  entries := rfl
  drives := rfl
  doing := .waiting rfl rfl rfl rfl

theorem mission_together (readings : List Readings) :
    Run.Together CarriesOut (stateMachineRun readings) (Run.run Mission.step readings .start) := by
  have hquiet : Run.Along iteration (fun _ _ => True) readings stateMachineInit :=
    fun _ _ _ _ _ _ => trivial
  have htogether := Run.run_together (R := CarriesOut) (f := id)
    (fun _ _ _ _ h => h.iteration) hquiet carriesOut_init
  rwa [List.map_id] at htogether

theorem Does.state (h : Does data doing) : data.state = doing.state := by
  cases h <;> assumption

/-- From outside, the state machine cannot be told from the mission: it goes through the same states
with the same commands to the motors, and it halts where the mission does, at the same place. -/
theorem mission_followed (readings : List Readings) :
    (stateMachineRun readings).map (fun data => (data.state, data.drives)) =
      (Run.run Mission.step readings .start).map fun m => (m.doing.state, m.drives) :=
  (mission_together readings).map_eq fun _ _ h => Prod.ext h.doing.state h.drives

end

end Nsumo.App
