import Nsumo.App.Invariant

namespace Nsumo.App

open Common Drivers Lib

def backTurn : Line → Option RetreatState
  | .backLeft => some .arcturnRight
  | .backRight => some .arcturnLeft
  | _ => none

def RetreatState.aligns : RetreatState → Bool
  | .alignLeft | .alignRight => true
  | _ => false

def ReversesOrTurns (data : StateMachineData) (turn : RetreatState) : Prop :=
  lastDirection data.drives = some .reverse ∨
    data.state = .retreat ∧ data.retreat.state = turn

instance {data : StateMachineData} {turn : RetreatState} : Decidable (ReversesOrTurns data turn) :=
  inferInstanceAs (Decidable (_ ∨ _))

/-- The first move of the retreat data tells the movement in progress. -/
def MoveCurrent (data : StateMachineData) (turn : RetreatState) : Prop :=
  if data.state = .retreat then
    data.retreat.state.aligns = true → data.retreat.moveIdx = 0
  else
    data.retreat.state ≠ .reverse ∧ data.retreat.state.aligns = false ∧ data.retreat.state ≠ turn

section

variable {cnt : BitVec 32} {next : Readings} {data data' : StateMachineData} {turn : RetreatState}

theorem first_move_reverse (retreat : RetreatState) :
    (currentMove ⟨retreat, 0⟩).dir = .reverse ↔ retreat = .reverse ∨ retreat.aligns = true := by
  cases retreat <;> simp [currentMove, retreatStates, RetreatState.aligns]

theorem move_reverse {retreat : RetreatState} {moveIdx : Nat} {move : Move}
    (h : (retreatStates retreat).moves[moveIdx]? = some move) :
    move.dir = .reverse ↔ retreat = .reverse ∨ retreat.aligns = true ∧ moveIdx = 0 := by
  cases retreat <;> rcases moveIdx with _ | _ | _ | _ <;>
    simp [retreatStates, RetreatState.aligns] at h ⊢ <;> simp [← h]

theorem nextRetreatState_back (hline : backTurn data.common.line = some turn) :
    nextRetreatState { data with retreat.moveIdx := 0 } =
      .ok (if data.retreat.state = .reverse ∨ data.retreat.state.aligns = true ∨
        data.retreat.state = turn then turn else .forward) := by
  have hfirst := first_move_reverse data.retreat.state
  cases hback : data.common.line <;> rw [hback] at hline <;> cases hline <;>
    simp only [nextRetreatState, hback, hfirst] <;> grind

theorem lastDirection_eq {drives : List DriveCommand} {direction : DriveDir} {speed : DriveSpeed}
    (h : drives.head? = some (.set direction speed)) : lastDirection drives = some direction := by
  cases drives with
  | nil => simp at h
  | cons command drives =>
    cases Option.some.inj h
    rfl

theorem SearchState.directions_ne_reverse {search : SearchState} {direction : DriveDir}
    (h : direction ∈ search.directions) : direction ≠ .reverse := by
  cases search <;> simp [SearchState.directions] at h
  case rotate => obtain rfl | rfl := h <;> decide
  case forward => rw [h]; decide

theorem AttackState.direction_ne_reverse (attack : AttackState) : attack.direction ≠ .reverse := by
  cases attack <;> decide

theorem Settled.reversesOrTurns_iff (h : Settled data) (hauto : data.state.autonomous = true)
    (hnone : data.internalEvent = .none) (hturn : turn.aligns = false) :
    (data.retreat.state = .reverse ∨ data.retreat.state.aligns = true ∨ data.retreat.state = turn ↔
      ReversesOrTurns data turn) ↔ MoveCurrent data turn := by
  unfold ReversesOrTurns MoveCurrent
  cases h with
  | wait hs | manual hs => simp [hs, State.autonomous] at hauto
  | moved _ _ hdone => cases hdone.symm.trans hnone
  | search hs _ _ hdir hdrive =>
    have hne := SearchState.directions_ne_reverse hdir
    simp [lastDirection_eq hdrive, hs, hne]
  | attack hs _ _ hdrive =>
    have hne := data.attack.state.direction_ne_reverse
    simp [lastDirection_eq hdrive, hs, hne]
  | moving hs _ _ hmove hdrive =>
    simp only [lastDirection_eq hdrive, hs, if_true, Option.some.injEq, move_reverse hmove,
      true_and]
    cases ha : data.retreat.state.aligns with
    | false => simp
    | true =>
      have hne : data.retreat.state ≠ .reverse := fun h => by simp [h, RetreatState.aligns] at ha
      have hne' : data.retreat.state ≠ turn := fun h => by simp [h, hturn] at ha
      simp [hne, hne']

theorem line_choice (hauto : data.state.autonomous = true)
    (hline : backTurn data.common.line = some turn)
    (hp : processEvent cnt .line data = .ok data') :
    data'.retreat.state = if data.retreat.state = .reverse ∨ data.retreat.state.aligns = true ∨
      data.retreat.state = turn then turn else .forward := by
  cases processEvent_ok hp with
  | idle hidle => simp [hauto] at hidle
  | retreatStay _ hevent => simp at hevent
  | line _ hnext =>
    rw [nextRetreatState_back hline] at hnext
    exact (Except.ok.inj hnext).symm

theorem back_line_choice_iff {readings : List Readings} {data₁ : StateMachineData}
    (hrun : stateMachineRun readings = .ok data) (hauto : data.state.autonomous = true)
    (hinput : processInput next data = .ok (.line, data₁))
    (hline : backTurn next.line = some turn) (hi : iteration next data = .ok data') :
    data'.retreat.state = (if ReversesOrTurns data turn then turn else .forward) ↔
      MoveCurrent data turn := by
  have hsettled := settled_of_run hrun
  have hturn : turn.aligns = false ∧ turn ≠ .forward := by
    cases h : next.line <;> rw [h] at hline <;> cases hline <;> decide
  obtain ⟨history, htaken⟩ := processInput_ok hinput
  obtain ⟨hquiet, -, rfl⟩ := (hsettled.reading next history).of_line rfl htaken
  rw [iteration, hinput] at hi
  have hchoice := @line_choice _ (data.reading next history) _ _ hauto hline hi
  rw [← hsettled.reversesOrTurns_iff hauto hquiet.internalEvent hturn.1, hchoice]
  change (if data.retreat.state = .reverse ∨ data.retreat.state.aligns = true ∨
    data.retreat.state = turn then turn else .forward) = _ ↔ _
  have hne := hturn.2
  split <;> split <;> simp [*, hne.symm]

theorem back_line_choice_reversing :
    ∃ data data₁ data', stateMachineRun
        [⟨enemyNone, .none, IrCmd.up, 0, 0⟩, ⟨enemyNone, .front, IrCmd.none, 10, 10⟩] = .ok data ∧
      processInput ⟨enemyNone, .backLeft, IrCmd.none, 20, 20⟩ data = .ok (.line, data₁) ∧
      iteration ⟨enemyNone, .backLeft, IrCmd.none, 20, 20⟩ data = .ok data' ∧
      MoveCurrent data .arcturnRight ∧
      data'.retreat.state =
        if ReversesOrTurns data .arcturnRight then .arcturnRight else .forward := by
  have hrun : ∃ data data₁ data', stateMachineRun
        [⟨enemyNone, .none, IrCmd.up, 0, 0⟩, ⟨enemyNone, .front, IrCmd.none, 10, 10⟩] = .ok data ∧
      data.state.autonomous = true ∧ data.retreat.moveIdx = 0 ∧ data.state = .retreat ∧
      processInput ⟨enemyNone, .backLeft, IrCmd.none, 20, 20⟩ data = .ok (.line, data₁) ∧
      iteration ⟨enemyNone, .backLeft, IrCmd.none, 20, 20⟩ data = .ok data' :=
    ⟨_, _, _, rfl, rfl, rfl, rfl, rfl, rfl⟩
  obtain ⟨data, data₁, data', h, hauto, hidx, hs, hinput, hi⟩ := hrun
  have hcurrent : MoveCurrent data .arcturnRight := by simp [MoveCurrent, hs, hidx]
  exact ⟨data, data₁, data', h, hinput, hi, hcurrent,
    (back_line_choice_iff h hauto hinput rfl hi).mpr hcurrent⟩

/-- The first back line of a match: the robot rotates, and the retreat data still say REVERSE. -/
theorem back_line_choice_searching :
    ∃ data data₁ data', stateMachineRun [⟨enemyNone, .none, IrCmd.up, 0, 0⟩] = .ok data ∧
      processInput ⟨enemyNone, .backLeft, IrCmd.none, 10, 10⟩ data = .ok (.line, data₁) ∧
      iteration ⟨enemyNone, .backLeft, IrCmd.none, 10, 10⟩ data = .ok data' ∧
      data.state = .search ∧ lastDirection data.drives = some .rotateLeft ∧
      data'.retreat.state = .arcturnRight ∧
      data'.retreat.state ≠
        if ReversesOrTurns data .arcturnRight then .arcturnRight else .forward :=
  ⟨_, _, _, rfl, rfl, rfl, rfl, rfl, rfl, by decide⟩

end

end Nsumo.App
