import Nsumo.App.HandlerLaws
import Nsumo.App.LineLaws
import Nsumo.App.RobotLaws

namespace Nsumo.App

open Common Drivers Lib

def Line.Evaded (speeds : Tb6612fng → Int) : Line → Prop
  | .front | .frontLeft | .frontRight => speeds .left < 0 ∧ speeds .right < 0
  | .back => 0 < speeds .left ∧ 0 < speeds .right
  | .backLeft => 0 < speeds .left
  | .backRight => 0 < speeds .right
  | .left => 0 < speeds .left ∧ speeds .right < 0
  | .right => speeds .left < 0 ∧ 0 < speeds .right
  | .diagonalLeft | .diagonalRight | .none => False

def Line.retreats : Line → List RetreatState
  | .front | .frontLeft | .frontRight => [.reverse, .alignLeft, .alignRight]
  | .back => [.forward]
  | .backLeft => [.arcturnRight, .forward]
  | .backRight => [.arcturnLeft, .forward]
  | .left => [.arcturnRight]
  | .right => [.arcturnLeft]
  | .diagonalLeft | .diagonalRight | .none => []

def RetreatState.firstSpeeds (retreat : RetreatState) : Tb6612fng → Int :=
  Drive.speedOf (.set (currentMove ⟨retreat, 0⟩).dir (currentMove ⟨retreat, 0⟩).speed)

section

variable {data data' : StateMachineData} {cnt : BitVec 32}

theorem nextRetreatState_mem {retreat : RetreatState} (h : nextRetreatState data = .ok retreat) :
    retreat ∈ data.common.line.retreats := by
  cases hline : data.common.line <;> simp only [nextRetreatState, hline] at h
  case none | diagonalLeft | diagonalRight => cases h
  case back | left | right =>
    cases h
    exact List.mem_singleton_self _
  case front | frontLeft | frontRight | backLeft | backRight =>
    split at h
    · cases h
      decide
    · split at h <;> (cases h; decide)

theorem Line.evaded_retreats : ∀ line : Line, ∀ retreat ∈ line.retreats,
    line.Evaded retreat.firstSpeeds := by
  intro line
  cases line with
  | front | frontLeft | frontRight =>
    exact (by decide : ∀ retreat ∈ [RetreatState.reverse, .alignLeft, .alignRight],
      retreat.firstSpeeds .left < 0 ∧ retreat.firstSpeeds .right < 0)
  | back =>
    exact (by decide : ∀ retreat ∈ [RetreatState.forward],
      0 < retreat.firstSpeeds .left ∧ 0 < retreat.firstSpeeds .right)
  | backLeft =>
    exact (by decide : ∀ retreat ∈ [RetreatState.arcturnRight, .forward],
      0 < retreat.firstSpeeds .left)
  | backRight =>
    exact (by decide : ∀ retreat ∈ [RetreatState.arcturnLeft, .forward],
      0 < retreat.firstSpeeds .right)
  | left =>
    exact (by decide : ∀ retreat ∈ [RetreatState.arcturnRight],
      0 < retreat.firstSpeeds .left ∧ retreat.firstSpeeds .right < 0)
  | right =>
    exact (by decide : ∀ retreat ∈ [RetreatState.arcturnLeft],
      retreat.firstSpeeds .left < 0 ∧ 0 < retreat.firstSpeeds .right)
  | diagonalLeft | diagonalRight | none => nofun

end

abbrev Sees (voltage : BitVec 16) : Prop := voltage < lineDetectedVoltageThreshold

/-- Only two sensors see the line, a front one and the back one of the other side. -/
def Diagonal (v : Qre1113Voltages) : Prop :=
  Sees v.frontLeft ∧ ¬Sees v.frontRight ∧ ¬Sees v.backLeft ∧ Sees v.backRight ∨
    ¬Sees v.frontLeft ∧ Sees v.frontRight ∧ Sees v.backLeft ∧ ¬Sees v.backRight

instance (v : Qre1113Voltages) : Decidable (Diagonal v) :=
  inferInstanceAs (Decidable (_ ∨ _))

/-- Lines that only the front sensors see are left backwards.  Of the lines that only the back
sensors see, each is left by the wheel of its side, forwards; so are those at one side, in a turn
away from it. -/
structure Evades (v : Qre1113Voltages) (speeds : Tb6612fng → Int) : Prop where
  front : (Sees v.frontLeft ∨ Sees v.frontRight) → ¬Sees v.backLeft → ¬Sees v.backRight →
    speeds .left < 0 ∧ speeds .right < 0
  bothFront : Sees v.frontLeft → Sees v.frontRight → speeds .left < 0 ∧ speeds .right < 0
  back : ¬Sees v.frontLeft → ¬Sees v.frontRight →
    (Sees v.backLeft → 0 < speeds .left) ∧ (Sees v.backRight → 0 < speeds .right)
  left : Sees v.frontLeft → ¬Sees v.frontRight → Sees v.backLeft →
    0 < speeds .left ∧ speeds .right < 0
  right : ¬Sees v.frontLeft → Sees v.frontRight → Sees v.backRight →
    speeds .left < 0 ∧ 0 < speeds .right

theorem lineGet_diagonal (v : Qre1113Voltages) : (lineGet v).diagonal = true ↔ Diagonal v := by
  rw [lineGet, Diagonal]
  split_ifs <;> simp [Line.diagonal, *]

theorem lineGet_evaded {v : Qre1113Voltages} {speeds : Tb6612fng → Int}
    (h : (lineGet v).Evaded speeds) : Evades v speeds where
  front hfront hbl hbr := by
    by_cases hfl : Sees v.frontLeft
    · by_cases hfr : Sees v.frontRight
      · simp only [lineGet, if_pos hfl, if_pos hfr] at h
        exact h
      · simp only [lineGet, if_pos hfl, if_neg hfr, if_neg hbl, if_neg hbr] at h
        exact h
    · have hfr := hfront.resolve_left hfl
      simp only [lineGet, if_neg hfl, if_pos hfr, if_neg hbl, if_neg hbr] at h
      exact h
  bothFront hfl hfr := by
    simp only [lineGet, if_pos hfl, if_pos hfr] at h
    exact h
  back hfl hfr := by
    by_cases hbl : Sees v.backLeft
    · by_cases hbr : Sees v.backRight
      · simp only [lineGet, if_neg hfl, if_neg hfr, if_pos hbl, if_pos hbr] at h
        exact ⟨fun _ => h.1, fun _ => h.2⟩
      · simp only [lineGet, if_neg hfl, if_neg hfr, if_pos hbl, if_neg hbr] at h
        exact ⟨fun _ => h, fun hbr' => absurd hbr' hbr⟩
    · refine ⟨fun hbl' => absurd hbl' hbl, fun hbr => ?_⟩
      simp only [lineGet, if_neg hfl, if_neg hfr, if_neg hbl, if_pos hbr] at h
      exact h
  left hfl hfr hbl := by
    simp only [lineGet, if_pos hfl, if_neg hfr, if_pos hbl] at h
    exact h
  right hfl hfr hbr := by
    simp only [lineGet, if_neg hfl, if_pos hfr, if_pos hbr] at h
    exact h

namespace Robot

/-- One step of the main program, and the interrupts before its next. -/
def Goes (voltages : Qre1113Voltages) (r r' : Robot) : Prop :=
  ∃ ranging events, (∀ event ∈ events, ¬Event.IsMain event) ∧
    r' = (r.step (.main ranging voltages)).run events

/-- An autonomous robot that has nothing on its mind is about to read a line. -/
structure AtLine (r : Robot) (voltages : Qre1113Voltages) : Prop where
  phase : ∃ enemy, r.phase = .line enemy
  autonomous : r.data.state.autonomous = true
  internalEvent : r.data.internalEvent = .none
  line : lineGet voltages ≠ .none

section

variable {r r' : Robot} {ranging : Ranging} {voltages : Qre1113Voltages}

theorem Inv.run (h : Inv r) (events : List Event) : Inv (r.run events) :=
  Total.foldl_invariant (I := Inv) (fun _ event h => h.step event) h events

theorem Inv.interrupted_run (h : Inv r) {events : List Event}
    (hevents : ∀ event ∈ events, ¬event.IsMain) : Interrupted r (r.run events) := by
  induction events generalizing r with
  | nil => exact ⟨rfl, rfl, rfl, rfl⟩
  | cons event events ih =>
    have hstep := h.interrupted (hevents event List.mem_cons_self)
    have hrest := ih (h.step event) fun event hmem => hevents event (List.mem_cons_of_mem _ hmem)
    exact ⟨hrest.phase.trans hstep.phase, hrest.data.trans hstep.data,
      hrest.motors.trans hstep.motors, hrest.iterations.trans hstep.iterations⟩

theorem Inv.goes (h : Inv r) (hgoes : Goes voltages r r') : Inv r' := by
  obtain ⟨ranging, events, -, rfl⟩ := hgoes
  exact (h.step _).run events

theorem goes_line (h : Inv r) (hgoes : Goes voltages r r') {enemy : Enemy}
    (hphase : r.phase = .line enemy) :
    r'.phase = .cmd enemy (lineGet voltages) ∧ r'.data = r.data := by
  obtain ⟨ranging, events, hevents, rfl⟩ := hgoes
  have hsame := (h.step (.main ranging voltages)).interrupted_run hevents
  have hline := step_line hphase ranging voltages
  exact ⟨hsame.phase.trans (by rw [hline]), hsame.data.trans (by rw [hline])⟩

theorem goes_cmd (h : Inv r) (hgoes : Goes voltages r r') {enemy : Enemy} {line : Line}
    (hphase : r.phase = .cmd enemy line) (hwaiting : r.ir.waiting = []) :
    r'.phase = .event enemy line IrCmd.none ∧ r'.data = r.data := by
  obtain ⟨ranging, events, hevents, rfl⟩ := hgoes
  have hsame := (h.step (.main ranging voltages)).interrupted_run hevents
  obtain ⟨cmd, rb, hcmd, -, ⟨-, rfl, -⟩ | hcons⟩ := IrRemote.getCmd_spec h.buffer
  · have htaken := step_cmd hphase hcmd ranging voltages
    exact ⟨hsame.phase.trans (by rw [htaken]), hsame.data.trans (by rw [htaken])⟩
  · cases hwaiting.symm.trans hcons

theorem goes_event (h : Inv r) (hgoes : Goes voltages r r') {enemy : Enemy} {line : Line}
    (hphase : r.phase = .event enemy line IrCmd.none) (hinternal : r.data.internalEvent = .none)
    (htimer : timerTimeout r.watchdogInterruptCnt r.data.timer = false) (hline : line ≠ .none) :
    ∃ readings history, r'.phase = .process readings .line ∧ readings.line = line ∧
      r'.data = r.data.reading readings history := by
  obtain ⟨ranging, events, hevents, rfl⟩ := hgoes
  have hsame := (h.step (.main ranging voltages)).interrupted_run hevents
  obtain ⟨history, -, event, data, hinput, htaken⟩ :=
    processInput_taken (r.readings enemy line IrCmd.none) r.data
  have hevent := step_event hphase hinput ranging voltages
  cases htaken with
  | command hcommand => exact absurd rfl hcommand
  | internal _ hpending => exact absurd hinternal hpending
  | timeout _ _ htime => cases htimer.symm.trans htime
  | line =>
    exact ⟨_, history, hsame.phase.trans (by rw [hevent]), rfl,
      hsame.data.trans (by rw [hevent])⟩
  | enemy _ hnone | none _ hnone => exact absurd hnone hline

theorem line_main {readings : Readings} (hphase : r.phase = .process readings .line)
    (hauto : r.data.state.autonomous = true) (hline : r.data.common.line ≠ .none)
    (hstep : MainStep ranging voltages r r') :
    (r.data.common.line.diagonal = true ∧ Halted r') ∨
      r.data.common.line.diagonal = false ∧ r'.phase = .input ∧ r'.data.state = .retreat ∧
        r.data.common.line.Evaded (speeds r'.data) := by
  cases hstep with
  | ranged hphase' | asserted hphase' | blocked hphase' | line hphase' | cmd hphase'
  | event hphase' | write hphase' | again hphase' => cases hphase.symm.trans hphase'
  | process hphase' hevent =>
    cases hphase.symm.trans hphase'
    cases processEvent_ok hevent with
    | idle hidle => cases hidle.symm.trans hauto
    | retreatStay _ hother => simp at hother
    | line _ hnext =>
      refine .inr ⟨?_, rfl, rfl, ?_⟩
      · by_contra hdiagonal
        rw [Bool.not_eq_false] at hdiagonal
        cases hnext.symm.trans (@nextRetreatState_diagonal
          { r.data with retreat.moveIdx := 0 } hdiagonal)
      · exact Line.evaded_retreats _ _ (@nextRetreatState_mem
          { r.data with retreat.moveIdx := 0 } _ hnext)
  | failed hphase' hevent =>
    cases hphase.symm.trans hphase'
    refine .inl ⟨?_, _, _, rfl⟩
    by_contra hdiagonal
    rw [Bool.not_eq_true] at hdiagonal
    obtain ⟨retreat, hnext⟩ :=
      @nextRetreatState_ok { r.data with retreat.moveIdx := 0 } hline hdiagonal
    obtain ⟨timer, hprocess⟩ := @processEvent_line r.watchdogInterruptCnt r.data hauto
    rw [hprocess, stateRetreatRun_eq rfl] at hevent
    change Except.map _ (nextRetreatState { r.data with retreat.moveIdx := 0 }) = _ at hevent
    rw [hnext] at hevent
    cases hevent

def Escapes (v : Qre1113Voltages) (r : Robot) : Prop :=
  if Diagonal v then
    Off r
  else
    r.phase = .input ∧ r.data.state = .retreat ∧ Evades v (speeds r.data) ∧
      Drive.outputs r.motors = Drive.commanded (speeds r.data)

theorem line_processed (hinv : Inv r) {readings : Readings}
    (hphase : r.phase = .process readings .line) (hauto : r.data.state.autonomous = true)
    {v : Qre1113Voltages} (hcommon : r.data.common.line = lineGet v) (hline : lineGet v ≠ .none)
    (ranging : Ranging) (v' : Qre1113Voltages) : Escapes v (r.step (.main ranging v')) := by
  have hinv' := hinv.step (.main ranging v')
  have hmain := main_step hinv.sound hinv.buffer ranging v'
  have hdiagonal_iff := lineGet_diagonal v
  rw [← hcommon] at hdiagonal_iff
  rw [Escapes]
  obtain ⟨hdiagonal, hhalted⟩ | ⟨hdiagonal, hinput, hretreat, hevaded⟩ :=
    line_main hphase hauto (hcommon ▸ hline) hmain
  · rw [if_pos (hdiagonal_iff.mp hdiagonal)]
    exact hinv'.off hhalted
  · rw [if_neg fun h => by cases hdiagonal.symm.trans (hdiagonal_iff.mpr h)]
    refine ⟨hinput, hretreat, lineGet_evaded (hcommon ▸ hevaded), ?_⟩
    exact hinv'.sound.follows.motors fun _ _ hhalted => by cases hinput.symm.trans hhalted

end

/-- However the interrupts fall between the steps of an iteration that reads a line, with no command
waiting when it looks for one and no timeout when it looks at the timer, the robot then drives away
from the line; on a diagonal it halts. -/
theorem line_evaded {port3In : Byte} {ports : PortRegs} {robot : Robot}
    (hboot : boot port3In ports = .ok robot) {events : List Event} {v v₁ v₂ : Qre1113Voltages}
    (h : AtLine (robot.run events) v) {r₁ r₂ r₃ : Robot} (h₁ : Goes v (robot.run events) r₁)
    (hwaiting : r₁.ir.waiting = []) (h₂ : Goes v₁ r₁ r₂)
    (htimer : timerTimeout r₂.watchdogInterruptCnt r₂.data.timer = false) (h₃ : Goes v₂ r₂ r₃)
    (ranging : Ranging) (v₃ : Qre1113Voltages) : Escapes v (r₃.step (.main ranging v₃)) := by
  have hinv := reached_inv hboot events
  have hinv₁ := hinv.goes h₁
  have hinv₂ := hinv₁.goes h₂
  obtain ⟨enemy, hphase⟩ := h.phase
  obtain ⟨hphase₁, hdata₁⟩ := goes_line hinv h₁ hphase
  obtain ⟨hphase₂, hdata₂⟩ := goes_cmd hinv₁ h₂ hphase₁ hwaiting
  rw [hdata₁] at hdata₂
  obtain ⟨readings, history, hphase₃, hline, hdata₃⟩ :=
    goes_event hinv₂ h₃ hphase₂ (hdata₂ ▸ h.internalEvent) htimer h.line
  refine line_processed (hinv₂.goes h₃) hphase₃ ?_ ?_ h.line ranging v₃
  · rw [hdata₃, hdata₂]
    exact h.autonomous
  · rw [hdata₃]
    exact hline

theorem goes_run {robot : Robot} {before after : List Event} (ranging : Ranging)
    (v : Qre1113Voltages) (h : ∀ event ∈ after, ¬event.IsMain) :
    Goes v (robot.run before) (robot.run (before ++ .main ranging v :: after)) :=
  ⟨ranging, after, h, List.foldl_append⟩

def beforeLine : List Event :=
  searching ++ [.main (.ok fun _ => 8190) noLine, .watchdog]

def afterLine : List Event :=
  beforeLine ++ [.main (.error .fuel) ⟨300, 1000, 1000, 1000⟩, .watchdog]

def afterCmd : List Event := afterLine ++ [.main (.error .fuel) noLine, .irq .pulse]

def afterEvent : List Event := afterCmd ++ [.main (.error .fuel) noLine, .watchdog]

theorem line_evaded_front :
    ∃ robot, boot 0x10 PortRegs.reset = .ok robot ∧ Escapes ⟨300, 1000, 1000, 1000⟩
      ((robot.run afterEvent).step (.main (.error .fuel) noLine)) := by
  have hrun : ∃ robot, boot 0x10 PortRegs.reset = .ok robot ∧
      (robot.run beforeLine).phase = .line enemyNone ∧
      (robot.run beforeLine).data.state = .search ∧
      (robot.run beforeLine).data.internalEvent = .none ∧
      (robot.run afterLine).ir.irCmdBuffer.toList = [] ∧
      timerTimeout (robot.run afterCmd).watchdogInterruptCnt (robot.run afterCmd).data.timer =
        false := by
    refine ⟨_, rfl, ?_⟩
    decide +kernel
  obtain ⟨robot, hboot, hphase, hstate, hevent, hempty, htimer⟩ := hrun
  have hline : Goes ⟨300, 1000, 1000, 1000⟩ (robot.run beforeLine) (robot.run afterLine) :=
    @goes_run robot beforeLine [.watchdog] _ _ (by simp [Event.IsMain])
  have hcmd : Goes noLine (robot.run afterLine) (robot.run afterCmd) :=
    @goes_run robot afterLine [.irq .pulse] _ _ (by simp [Event.IsMain])
  have hinput : Goes noLine (robot.run afterCmd) (robot.run afterEvent) :=
    @goes_run robot afterCmd [.watchdog] _ _ (by simp [Event.IsMain])
  exact ⟨robot, hboot, line_evaded hboot
    ⟨⟨_, hphase⟩, by rw [hstate]; rfl, hevent, by decide⟩ hline
    (by rw [IrRemote.waiting, hempty]; rfl) hcmd htimer hinput _ _⟩

end Robot

end Nsumo.App
