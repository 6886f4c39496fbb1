import Nsumo.App.LineLaws

namespace Nsumo.App

open Common Drivers Lib

/-- How far a retreat has come: the move that is driven and the count at which it was started. -/
inductive Playback : Type
  | playing (moveIdx : Nat) (startCnt : BitVec 32)
  | finished
  | left
  | past

def Due (move : Move) (startCnt : BitVec 32) (next : Readings) : Prop :=
  move.duration.toNat < (millis next.pollCnt).toNat - (millis startCnt).toNat

instance {move : Move} {startCnt : BitVec 32} {next : Readings} :
    Decidable (Due move startCnt next) :=
  inferInstanceAs (Decidable (_ < _))

/-- The purpose of `state_retreat.c`, an iteration at a time. -/
def Playback.next (retreat : RetreatState) : Playback → Readings → Playback
  | .playing moveIdx startCnt, next =>
    if Due (currentMove ⟨retreat, moveIdx⟩) startCnt next then
      if moveIdx + 1 < (retreatStates retreat).moveCnt then
        .playing (moveIdx + 1) next.startCnt
      else
        .finished
    else
      .playing moveIdx startCnt
  | .finished, _ => .left
  | .left, _ | .past, _ => .past

def Playback.run (retreat : RetreatState) (p : Playback) (rest : List Readings) : Playback :=
  rest.foldl (Playback.next retreat) p

def played (retreat : RetreatState) (cnt : Nat) : List DriveCommand :=
  (((retreatStates retreat).moves.take cnt).map fun move => .set move.dir move.speed).reverse

inductive Shows (retreat : RetreatState) (drives : List DriveCommand) :
    Playback → StateMachineData → Prop
  | playing {moveIdx startCnt data} : data.state = .retreat → data.retreat = ⟨retreat, moveIdx⟩ →
      moveIdx < (retreatStates retreat).moveCnt → data.internalEvent = .none →
      data.timer =
        timerStart startCnt ((currentMove ⟨retreat, moveIdx⟩).duration.setWidth 32) →
      data.drives = played retreat (moveIdx + 1) ++ drives →
      Shows retreat drives (.playing moveIdx startCnt) data
  | finished {data} : data.state = .retreat → data.internalEvent = .finished →
      data.drives = played retreat (retreatStates retreat).moveCnt ++ drives →
      Shows retreat drives .finished data
  | left {direction data} : data.state = .search → data.search.state = .rotate →
      data.internalEvent = .none → direction ∈ SearchState.rotate.directions →
      data.drives =
        .set direction .fast :: played retreat (retreatStates retreat).moveCnt ++ drives →
      Shows retreat drives .left data

section

variable {retreat : RetreatState} {drives : List DriveCommand} {moveIdx : Nat}
  {startCnt cnt : BitVec 32} {next first readings : Readings} {rest : List Readings}
  {data data' data₀ data₁ : StateMachineData} {p : Playback}

theorem played_succ (h : moveIdx < (retreatStates retreat).moveCnt) :
    played retreat (moveIdx + 1) =
      .set (currentMove ⟨retreat, moveIdx⟩).dir (currentMove ⟨retreat, moveIdx⟩).speed ::
        played retreat moveIdx := by
  have hmove := @currentMove_get ⟨retreat, moveIdx⟩ h
  rw [played, List.take_add_one, hmove]
  simp [played]

theorem due_iff (h : moveIdx < (retreatStates retreat).moveCnt) :
    Due (currentMove ⟨retreat, moveIdx⟩) startCnt next ↔
      timerTimeout next.pollCnt
        (timerStart startCnt ((currentMove ⟨retreat, moveIdx⟩).duration.setWidth 32)) = true := by
  have hmove := @currentMove_get ⟨retreat, moveIdx⟩ h
  obtain ⟨hpos, hle⟩ := duration_bounds _ (List.mem_of_getElem? hmove)
  have hwidth : ((currentMove ⟨retreat, moveIdx⟩).duration.setWidth 32).toNat =
      (currentMove ⟨retreat, moveIdx⟩).duration.toNat := by
    simp
    omega
  rw [timerTimeout_iff hpos hle, Due, toNat_millis, toNat_millis, hwidth]
  omega

theorem retreatTimeout_eq (hs : data.state = .retreat) (hnone : data.internalEvent = .none)
    (hidx : data.retreat.moveIdx < (retreatStates data.retreat.state).moveCnt) :
    processEvent cnt .timeout data = .ok
      (if data.retreat.moveIdx + 1 < (retreatStates data.retreat.state).moveCnt then
        moveStart cnt { data with retreat.moveIdx := data.retreat.moveIdx + 1 }
      else
        { data with retreat.moveIdx := data.retreat.moveIdx + 1, internalEvent := .finished }) := by
  cases hprocess : processEvent cnt .timeout data with
  | error site =>
    cases processEvent_error hprocess with
    | noTransition hrow => simp [transition_eq_none, hs, State.autonomous] at hrow
    | attackState hs' => simp [hs] at hs'
    | attackTimeout hs' => cases hs.symm.trans hs'
    | moveIdx _ hlt => omega
    | pending _ _ hpending => exact absurd hnone hpending
  | ok data' =>
    cases processEvent_ok hprocess with
    | idle _ hevent | retreatStay _ hevent => simp at hevent
    | searchTimeout hs' => cases hs.symm.trans hs'
    | nextMove _ hlt => rw [if_pos hlt]
    | lastMove _ hlast => rw [if_neg (by omega)]

theorem retreatStay_eq (hs : data.state = .retreat) {event : StateEvent}
    (hevent : event = .enemy ∨ event = .none) : processEvent cnt event data = .ok data := by
  obtain rfl | rfl := hevent <;> rw [processEvent_row .retreat (by rw [hs]; rfl), hs] <;> rfl

theorem Playback.next_of_due (hdue : Due (currentMove ⟨retreat, moveIdx⟩) startCnt readings) :
    (playing moveIdx startCnt).next retreat readings =
      if moveIdx + 1 < (retreatStates retreat).moveCnt then playing (moveIdx + 1) readings.startCnt
      else finished :=
  if_pos hdue

theorem Playback.next_of_not_due
    (hdue : ¬Due (currentMove ⟨retreat, moveIdx⟩) startCnt readings) :
    (playing moveIdx startCnt).next retreat readings = playing moveIdx startCnt :=
  if_neg hdue

theorem shows_due (hs : data.state = .retreat) (hretreat : data.retreat = ⟨retreat, moveIdx⟩)
    (hidx : moveIdx < (retreatStates retreat).moveCnt) (hnone : data.internalEvent = .none)
    (hdrives : data.drives = played retreat (moveIdx + 1) ++ drives) :
    ∃ data', processEvent next.startCnt .timeout data = .ok data' ∧
      Shows retreat drives
        (if moveIdx + 1 < (retreatStates retreat).moveCnt then
          .playing (moveIdx + 1) next.startCnt else .finished) data' := by
  refine ⟨_, retreatTimeout_eq hs hnone (by rwa [hretreat]), ?_⟩
  rw [hretreat]
  split
  case isTrue hlt =>
    refine .playing rfl rfl hlt hnone rfl ?_
    change _ :: data.drives = _
    rw [hdrives, played_succ hlt]
    rfl
  case isFalse hlt =>
    have hlast : moveIdx + 1 = (retreatStates retreat).moveCnt := by omega
    exact .finished hs rfl (hlast ▸ hdrives)

theorem playing_step (hline : next.line = .none) (hcmd : next.cmd = IrCmd.none)
    (h : Shows retreat drives (.playing moveIdx startCnt) data) :
    ∃ data', iteration next data = .ok data' ∧
      Shows retreat drives (Playback.next retreat (.playing moveIdx startCnt) next) data' := by
  cases h with
  | playing hs hretreat hidx hnone htimer hdrives =>
    obtain ⟨history, -, event, data₁, hinput, htaken⟩ := processInput_taken next data
    have hdue := @due_iff retreat moveIdx startCnt next hidx
    rw [← htimer] at hdue
    rw [iteration, hinput, Run.ok_bind]
    cases htaken with
    | command hcmd' => exact absurd hcmd hcmd'
    | internal _ hpending => exact absurd hnone hpending
    | line _ hline' => exact absurd hline hline'
    | enemy hquiet | none hquiet =>
      have hwaits : timerTimeout next.pollCnt data.timer = false := hquiet.timer
      refine ⟨_, @retreatStay_eq _ (data.reading next history) hs _ (by simp), ?_⟩
      rw [Playback.next_of_not_due (by rw [hdue, hwaits]; decide)]
      exact .playing hs hretreat hidx hnone htimer hdrives
    | timeout _ _ htime =>
      rw [Playback.next_of_due (hdue.mpr htime)]
      exact shows_due hs hretreat hidx hnone hdrives

theorem finished_step (hcmd : next.cmd = IrCmd.none) (h : Shows retreat drives .finished data) :
    ∃ data', iteration next data = .ok data' ∧ Shows retreat drives .left data' := by
  cases h with
  | finished hs hfinished hdrives =>
    obtain ⟨history, -, event, data₁, hinput, htaken⟩ := processInput_taken next data
    have hpending : data.internalEvent ≠ .none := by rw [hfinished]; decide
    rw [iteration, hinput, Run.ok_bind]
    cases htaken with
    | command hcmd' => exact absurd hcmd hcmd'
    | timeout _ hnone => exact absurd hnone hpending
    | line hquiet | enemy hquiet | none hquiet => exact absurd hquiet.internalEvent hpending
    | internal =>
      change ∃ data', processEvent next.startCnt data.internalEvent
        { data.reading next history with internalEvent := .none } = .ok data' ∧ _
      rw [hfinished]
      refine ⟨_, retreatFinished_eq hs, .left rfl rfl rfl
        (searchDirection_mem { data with search.state := .rotate, inputHistory := history }) ?_⟩
      change _ :: data.drives = _
      rw [hdrives]
      rfl

theorem shows_line (h : Settled data₀) (hline : HandlesLine first data₀ data₁) :
    Shows data₁.retreat.state data₀.drives (.playing 0 first.startCnt) data₁ := by
  obtain ⟨data, timer, hinput, hrun⟩ := hline
  obtain ⟨history, htaken⟩ := processInput_ok hinput
  obtain ⟨hquiet, -, rfl⟩ := (h.reading first history).of_line rfl htaken
  rw [stateRetreatRun_eq rfl] at hrun
  cases hnext : nextRetreatState { data₀.reading first history with
      timer := timer, state := .retreat, retreat.moveIdx := 0 } with
  | error site =>
    rw [hnext] at hrun
    cases hrun
  | ok retreat =>
    rw [hnext] at hrun
    cases hrun
    have hidx := retreatStates_pos retreat
    exact .playing rfl rfl hidx hquiet.internalEvent rfl
      (congrArg (· ++ data₀.drives) (played_succ hidx)).symm

theorem Playback.run_past (rest : List Readings) : run retreat .past rest = .past := by
  induction rest with
  | nil => rfl
  | cons next rest ih => exact ih

theorem shows_next (hline : next.line = .none) (hcmd : next.cmd = IrCmd.none)
    (h : Shows retreat drives p data) :
    p.next retreat next = .past ∨
      ∃ data', iteration next data = .ok data' ∧
        Shows retreat drives (p.next retreat next) data' := by
  cases p with
  | playing moveIdx startCnt => exact .inr (playing_step hline hcmd h)
  | finished => exact .inr (finished_step hcmd h)
  | left | past => exact .inl rfl

theorem shows_run (hrest : ∀ next ∈ rest, next.line = .none ∧ next.cmd = IrCmd.none)
    (h : Shows retreat drives p data) :
    p.run retreat rest = .past ∨
      ∃ data', Run.run iteration rest data = .ok data' ∧
        Shows retreat drives (p.run retreat rest) data' := by
  induction rest generalizing p data with
  | nil => exact .inr ⟨data, rfl, h⟩
  | cons next rest ih =>
    obtain ⟨hline, hcmd⟩ := hrest next List.mem_cons_self
    obtain hpast | ⟨data', hi, h'⟩ := shows_next hline hcmd h
    · refine .inl ?_
      change (p.next retreat next).run retreat rest = .past
      rw [hpast]
      exact Playback.run_past rest
    · have hlater := ih (fun later hlater => hrest later (List.mem_cons_of_mem next hlater)) h'
      refine hlater.imp_right ?_
      rintro ⟨data'', hrun, hshows⟩
      exact ⟨data'', Run.run_cons_ok.mpr ⟨data', hi, hrun⟩, hshows⟩

theorem undisturbed_retreat_plays {readings : List Readings}
    (hrun : stateMachineRun readings = .ok data₀) (hline : HandlesLine first data₀ data₁)
    (hrest : ∀ next ∈ rest, next.line = .none ∧ next.cmd = IrCmd.none) :
    Playback.run data₁.retreat.state (.playing 0 first.startCnt) rest = .past ∨
      ∃ data, Run.run iteration rest data₁ = .ok data ∧
        Shows data₁.retreat.state data₀.drives
          (Playback.run data₁.retreat.state (.playing 0 first.startCnt) rest) data :=
  shows_run hrest (shows_line (settled_of_run hrun) hline)

def aligning : List Readings :=
  [⟨enemyNone, .none, IrCmd.none, 20, 20⟩, ⟨⟨.front, .far⟩, .none, IrCmd.none, 700, 702⟩,
    ⟨⟨.left, .mid⟩, .none, IrCmd.none, 1300, 1300⟩, ⟨enemyNone, .none, IrCmd.none, 2000, 2000⟩,
    ⟨enemyNone, .none, IrCmd.none, 2010, 2010⟩]

theorem undisturbed_retreat_plays_align :
    ∃ data₀ data₁ data, stateMachineRun [⟨enemyNone, .none, IrCmd.up, 0, 0⟩] = .ok data₀ ∧
      HandlesLine ⟨⟨.left, .close⟩, .frontLeft, IrCmd.none, 10, 10⟩ data₀ data₁ ∧
      Run.run iteration aligning data₁ = .ok data ∧
      Shows .alignLeft data₀.drives .left data := by
  have hrun : ∃ data₀ data₁, stateMachineRun [⟨enemyNone, .none, IrCmd.up, 0, 0⟩] = .ok data₀ ∧
      HandlesLine ⟨⟨.left, .close⟩, .frontLeft, IrCmd.none, 10, 10⟩ data₀ data₁ ∧
      data₁.retreat.state = .alignLeft :=
    ⟨_, _, rfl, ⟨_, timerCleared, rfl, rfl⟩, rfl⟩
  obtain ⟨data₀, data₁, h, hline, hretreat⟩ := hrun
  have hleft : Playback.run .alignLeft (.playing 0 10) aligning = .left := rfl
  have hquiet : ∀ next ∈ aligning, next.line = .none ∧ next.cmd = IrCmd.none := by simp [aligning]
  have hplays := undisturbed_retreat_plays h hline hquiet
  rw [hretreat, hleft] at hplays
  obtain ⟨data, hdata, hshows⟩ := hplays.resolve_left (by simp)
  exact ⟨data₀, data₁, data, h, hline, hdata, hshows⟩

end

end Nsumo.App
