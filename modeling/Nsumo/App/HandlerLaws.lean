import Nsumo.App.Sensing
import Nsumo.App.Invariant

namespace Nsumo.App

open Common Drivers Lib

def handlerAsserts : List Assert :=
  [.stateSearchEnter, .nextAttackState, .stateAttackEnter, .nextRetreatState, .startRetreatMove,
    .stateRetreatEnter]

def Line.diagonal : Line → Bool
  | .diagonalLeft | .diagonalRight => true
  | _ => false

def AttackRunsOut (next : Readings) (data : StateMachineData) : Prop :=
  data.state = .attack ∧ timerTimeout next.pollCnt data.timer = true

structure MeetsDiagonal (next : Readings) (data : StateMachineData) : Prop where
  autonomous : data.state.autonomous = true
  internalEvent : hasInternalEvent data = false
  timer : timerTimeout next.pollCnt data.timer = false
  line : next.line.diagonal = true

def CommandsInWait (readings : List Readings) : Prop :=
  Run.Along iteration (fun next data => data.state ≠ .wait → next.cmd = IrCmd.none) readings
    stateMachineInit

def Bearable (readings : List Readings) : Prop :=
  Run.Along iteration (fun next data => ¬AttackRunsOut next data ∧ ¬MeetsDiagonal next data)
    readings stateMachineInit

theorem nextAttackState_detected {enemy : Enemy} (h : enemyDetected enemy = true) :
    ∃ attack, nextAttackState enemy = .ok attack := by
  obtain ⟨position, range⟩ := enemy
  cases position <;> first | cases h; done | exact ⟨_, rfl⟩

section

variable {cnt : BitVec 32} {next : Readings} {data data' : StateMachineData}

theorem nextRetreatState_ok (hline : data.common.line ≠ .none)
    (hdiagonal : data.common.line.diagonal = false) :
    ∃ retreat, nextRetreatState data = .ok retreat := by
  cases hcase : data.common.line with
  | none => exact absurd hcase hline
  | diagonalLeft | diagonalRight => simp [hcase, Line.diagonal] at hdiagonal
  | back | left | right =>
    simp only [nextRetreatState, hcase]
    exact ⟨_, rfl⟩
  | front | frontLeft | frontRight | backLeft | backRight =>
    simp only [nextRetreatState, hcase]
    split
    · exact ⟨_, rfl⟩
    · split <;> exact ⟨_, rfl⟩

theorem nextRetreatState_diagonal (h : data.common.line.diagonal = true) :
    nextRetreatState data = .error .nextRetreatState := by
  cases hcase : data.common.line <;> simp only [hcase, Line.diagonal, Bool.false_eq_true] at h
  case diagonalLeft | diagonalRight => simp only [nextRetreatState, hcase]

theorem search_timeout (hs : data.state = .search) :
    ∃ data', processEvent cnt .timeout data = .ok data' := by
  rw [processEvent_row .search (by rw [hs]; rfl), hs]
  exact ⟨_, @stateSearchRun_eq cnt { data with search.state := data.search.state.next } hs⟩

theorem Settled.of_enemy (h : Settled data) {event : StateEvent} (hevent : event = .enemy)
    (htaken : Taken cnt data event data') :
    enemyDetected data.common.enemy = true ∧ data' = data := by
  cases htaken with
  | enemy _ _ hdetected => exact ⟨hdetected, rfl⟩
  | internal => exact absurd hevent (h.not_pending (by decide) (by decide))
  | command | timeout | line | none => cases hevent

theorem Settled.halts (h : Settled data) {site : Assert} (hsite : site ∈ handlerAsserts)
    (hi : iteration next data = .error site) :
    AttackRunsOut next data ∨ MeetsDiagonal next data := by
  have hmoved := h.move_not_failed hi
  obtain ⟨history, -, event, data₁, hinput, htaken⟩ := processInput_taken next data
  rw [iteration, hinput, Run.ok_bind] at hi
  have hread := h.reading next history
  have hstate : data₁.state = data.state := by cases htaken <;> rfl
  cases processEvent_error hi with
  | noTransition => simp [handlerAsserts] at hsite
  | moveIdx => exact absurd rfl hmoved.1
  | pending => exact absurd rfl hmoved.2
  | attackTimeout hs =>
    obtain ⟨-, htimer, -⟩ := hread.of_timeout rfl htaken
    exact .inl ⟨hstate.symm.trans hs, htimer⟩
  | retreatState hauto hnext =>
    obtain ⟨hquiet, hline, rfl⟩ := hread.of_line rfl htaken
    refine .inr ⟨hauto, ?_, hquiet.timer, ?_⟩
    · have hnone : data.internalEvent = .none := hquiet.internalEvent
      rw [hasInternalEvent, hnone]
      rfl
    · by_contra hdiagonal
      obtain ⟨retreat, hok⟩ := @nextRetreatState_ok
        { data.reading next history with retreat.moveIdx := 0 } hline (Bool.not_eq_true _ ▸ hdiagonal)
      cases hok.symm.trans hnext
  | attackState hs hevent hattack =>
    obtain rfl | rfl := hevent
    · obtain ⟨hdetected, rfl⟩ := hread.of_enemy rfl htaken
      obtain ⟨attack, hok⟩ := nextAttackState_detected hdetected
      cases hok.symm.trans hattack
    · obtain hs | hs := hs
      · obtain ⟨data', hok⟩ := @search_timeout next.startCnt _ hs
        cases hok.symm.trans hi
      · obtain ⟨-, htimer, -⟩ := hread.of_timeout rfl htaken
        exact .inl ⟨hstate.symm.trans hs, htimer⟩

theorem MeetsDiagonal.halts (h : MeetsDiagonal next data) (hcmd : next.cmd = IrCmd.none) :
    iteration next data = .error .nextRetreatState := by
  have hpending : data.internalEvent = .none := by simpa [hasInternalEvent] using h.internalEvent
  have hdiagonal := h.line
  obtain ⟨history, -, event, data₁, hinput, htaken⟩ := processInput_taken next data
  rw [iteration, hinput, Run.ok_bind]
  cases htaken with
  | command hcommand => exact absurd hcmd hcommand
  | internal _ hevent => exact absurd hpending hevent
  | timeout _ _ htimer => exact absurd (h.timer.symm.trans htimer) Bool.false_ne_true
  | enemy _ hnone | none _ hnone =>
    change next.line = .none at hnone
    simp [hnone, Line.diagonal] at hdiagonal
  | line =>
    have hnext : nextRetreatState { data.reading next history with retreat.moveIdx := 0 } =
        .error .nextRetreatState := nextRetreatState_diagonal hdiagonal
    cases hevent : processEvent next.startCnt .line (data.reading next history) with
    | ok data' =>
      cases processEvent_ok hevent with
      | idle hidle => exact absurd (h.autonomous.symm.trans hidle) Bool.false_ne_true.symm
      | line _ hok => cases hok.symm.trans hnext
      | retreatStay _ hstay => simp at hstay
    | error site =>
      cases processEvent_error hevent with
      | noTransition hrow => simp [transition_eq_none] at hrow
      | attackState _ hattack => simp at hattack
      | retreatState => exact hevent

theorem AttackRunsOut.halts (h : AttackRunsOut next data) (hcmd : next.cmd = IrCmd.none)
    (hnone : data.internalEvent = .none) :
    ∃ site ∈ handlerAsserts, iteration next data = .error site := by
  obtain ⟨history, -, event, data₁, hinput, htaken⟩ := processInput_taken next data
  rw [iteration, hinput, Run.ok_bind]
  cases htaken with
  | command hcommand => exact absurd hcmd hcommand
  | internal _ hevent => exact absurd hnone hevent
  | line hquiet | enemy hquiet | none hquiet =>
    exact absurd (hquiet.timer.symm.trans h.2) Bool.false_ne_true
  | timeout =>
    have hs : data.state = .attack := h.1
    cases hevent : processEvent next.startCnt .timeout
        { data.reading next history with timer := timerCleared } with
    | ok data' =>
      cases processEvent_ok hevent with
      | idle _ hidle | retreatStay _ hidle => simp at hidle
      | searchTimeout hs' | nextMove hs' | lastMove hs' => cases hs.symm.trans hs'
    | error site =>
      cases processEvent_error hevent with
      | noTransition hrow =>
        change transition data.state .timeout = none at hrow
        rw [hs] at hrow
        cases hrow
      | attackState => exact ⟨.nextAttackState, by simp [handlerAsserts], hevent⟩
      | attackTimeout => exact ⟨.stateAttackEnter, by simp [handlerAsserts], hevent⟩
      | moveIdx hs' | pending hs' => cases hs.symm.trans hs'

end

theorem handlers_bearable {readings : List Readings} (hcmd : CommandsInWait readings) :
    (∀ site ∈ handlerAsserts, stateMachineRun readings ≠ .error site) ↔ Bearable readings := by
  constructor
  · intro h pre next post data hsplit hpre
    have hsettled := settled_of_run hpre
    have hnone (hs : data.state ≠ .wait) : next.cmd = IrCmd.none :=
      hcmd pre next post data hsplit hpre hs
    have hok {site : Assert} (hsite : site ∈ handlerAsserts) : iteration next data ≠ .error site :=
      fun hi => h site hsite (hsplit ▸ Run.run_append_error hpre hi)
    constructor
    · intro hout
      have hevent := (hsettled.timerMatches.driven (.inr hout.1)).2
      have hpending : data.internalEvent = .none := by simpa [hasInternalEvent] using hevent
      obtain ⟨site, hsite, hi⟩ := hout.halts (hnone (by rw [hout.1]; decide)) hpending
      exact hok hsite hi
    · intro hmeets
      have hwait : data.state ≠ .wait := by
        intro hs
        have hauto := hmeets.autonomous
        rw [hs] at hauto
        cases hauto
      exact hok (by simp [handlerAsserts]) (hmeets.halts (hnone hwait))
  · intro h site hsite hrun
    obtain ⟨pre, next, post, data, hsplit, hpre, hi⟩ := Run.run_error hrun
    obtain ⟨hattack, hdiagonal⟩ := h pre next post data hsplit hpre
    exact ((settled_of_run hpre).halts hsite hi).elim hattack hdiagonal

theorem handlers_never_assert_iff (sensed : List Sensed)
    (hcmd : CommandsInWait (sensed.map Sensed.readings)) :
    (∀ site ∈ handlerAsserts, stateMachineRun (sensed.map Sensed.readings) ≠ .error site) ↔
      Bearable (sensed.map Sensed.readings) :=
  handlers_bearable hcmd

theorem commandsInWait_cons {first : Readings} {rest : List Readings}
    (h : ∀ next ∈ rest, next.cmd = IrCmd.none) : CommandsInWait (first :: rest) := by
  rintro (_ | ⟨_, pre⟩) next post data hsplit hpre hwait
  · cases hpre
    exact absurd rfl hwait
  · cases hsplit
    exact h next (List.mem_append_right _ List.mem_cons_self)

def clock (sensed : List Sensed) : List Nat :=
  sensed.flatMap fun s => [s.pollCnt.toNat, s.startCnt.toNat]

def bright : Qre1113Voltages := ⟨900, 900, 900, 900⟩

def starting : Sensed := ⟨.error .errorI2c, bright, IrCmd.up, 0, 0⟩

def onDiagonal : List Sensed :=
  [starting, ⟨.error .errorI2c, ⟨300, 900, 900, 300⟩, IrCmd.none, 20, 20⟩]

def enemyInFront : Vl53l0xIdx → BitVec 16
  | .front => 200
  | _ => 8190

def longAttack : List Sensed :=
  [starting, ⟨.ok enemyInFront, bright, IrCmd.none, 20, 20⟩,
    ⟨.ok enemyInFront, bright, IrCmd.none, 10022, 10022⟩]

theorem handlers_never_assert_iff_onDiagonal :
    (∀ site ∈ handlerAsserts,
        stateMachineRun (onDiagonal.map Sensed.readings) ≠ .error site) ↔
      Bearable (onDiagonal.map Sensed.readings) :=
  handlers_never_assert_iff onDiagonal (commandsInWait_cons (by simp [Sensed.readings]))

theorem handlers_assert :
    (CommandsInWait (onDiagonal.map Sensed.readings) ∧ (clock onDiagonal).Pairwise (· ≤ ·) ∧
        stateMachineRun (onDiagonal.map Sensed.readings) = .error .nextRetreatState) ∧
      CommandsInWait (longAttack.map Sensed.readings) ∧ (clock longAttack).Pairwise (· ≤ ·) ∧
        stateMachineRun (longAttack.map Sensed.readings) = .error .stateAttackEnter :=
  ⟨⟨commandsInWait_cons (by simp [Sensed.readings]), by decide, by rfl⟩,
    commandsInWait_cons (by simp [Sensed.readings]), by decide, by rfl⟩

end Nsumo.App
