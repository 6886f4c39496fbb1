import Nsumo.App.EvadeLaws
import Nsumo.App.SampledRobot
import Nsumo.Drivers.AdcInterruptsLaws

namespace Nsumo.App

open Common Drivers Lib

open AdcSystem (Consistent OfRound channel)

def voltagesIn (samples : Nat → Nat → BitVec 16) (round : Nat) : Qre1113Voltages :=
  let sampled (io : Io) : BitVec 16 := if round = 0 then 0 else samples (round - 1) io.ioPinIdx
  { frontLeft := sampled Adc.lineDetectFrontLeft
    frontRight := sampled Adc.lineDetectFrontRight
    backLeft := sampled Adc.lineDetectBackLeft
    backRight := sampled Adc.lineDetectBackRight }

def voltagesOf (values : AdcChannelValues) : Qre1113Voltages where
  frontLeft := values (channel Adc.lineDetectFrontLeft)
  frontRight := values (channel Adc.lineDetectFrontRight)
  backLeft := values (channel Adc.lineDetectBackLeft)
  backRight := values (channel Adc.lineDetectBackRight)

theorem voltagesOf_round {samples : Nat → Nat → BitVec 16} {round : Nat}
    {returned : AdcChannelValues × Nat}
    (h : OfRound samples (Adc.ioAdcPins .nsumo) round returned) :
    voltagesOf returned.1 = voltagesIn samples round := by
  rw [voltagesOf, h.values Adc.lineDetectFrontLeft (by decide),
    h.values Adc.lineDetectFrontRight (by decide), h.values Adc.lineDetectBackLeft (by decide),
    h.values Adc.lineDetectBackRight (by decide)]
  rfl

namespace SampledRobot

open Robot (Follows Escapes MainStep)

def lineRead : RobotPhase → List Line
  | .input | .line _ | .halted _ _ => []
  | .cmd _ line | .event _ line _ => [line]
  | .process readings _ => [readings.line]

structure Reads (r : Robot) (lines : List Line) : Prop where
  running : Robot.Running r → r.iterations.map Readings.line ++ lineRead r.phase = lines
  started : r.iterations.map Readings.line <+: lines
  pending : lines.length ≤ r.iterations.length + 1

section

variable {r r' : Robot} {lines : List Line} {ranging : Ranging} {voltages : Qre1113Voltages}

theorem Reads.interrupted (h : Reads r lines) (hsame : Robot.Interrupted r r') :
    Reads r' lines := by
  constructor
  case running =>
    rw [Robot.Running, hsame.phase, hsame.iterations]
    exact h.running
  case started => exact hsame.iterations ▸ h.started
  case pending => exact hsame.iterations ▸ h.pending

theorem Reads.line_main (h : Reads r lines) {enemy : Enemy} (hphase : r.phase = .line enemy)
    (ranging : Ranging) (voltages : Qre1113Voltages) :
    Reads (r.step (.main ranging voltages)) (lines ++ [lineGet voltages]) := by
  have hlines := h.running fun _ _ hhalted => nomatch hphase.symm.trans hhalted
  rw [hphase, lineRead, List.append_nil] at hlines
  subst hlines
  rw [Robot.step_line hphase]
  exact ⟨fun _ => rfl, List.prefix_append _ _, by simp⟩

theorem Reads.main (h : Reads r lines) (hphase : ∀ enemy, r.phase ≠ .line enemy)
    (hstep : MainStep ranging voltages r r') : Reads r' lines := by
  cases hstep with
  | line hphase' => exact absurd hphase' (hphase _)
  | blocked => exact h
  | ranged hphase' | cmd hphase' | event hphase' =>
    refine ⟨fun _ => ?_, h.started, h.pending⟩
    have hlines := h.running fun _ _ hhalted => nomatch hphase'.symm.trans hhalted
    rwa [hphase'] at hlines
  | asserted | failed | write | again =>
    exact ⟨fun hrunning => absurd rfl (hrunning _ _), h.started, h.pending⟩
  | @process readings _ _ _ hphase' =>
    have hlines := h.running fun _ _ hhalted => nomatch hphase'.symm.trans hhalted
    rw [hphase'] at hlines
    subst hlines
    refine ⟨fun _ => ?_, ?_, by simp [lineRead]⟩
    · rw [List.map_append]
      exact List.append_nil _
    · rw [List.map_append]
      exact List.prefix_rfl

end

structure Inv (samples : Nat → Nat → BitVec 16) (s : SampledRobot) : Prop where
  robot : s.robot.Inv
  adc : Consistent samples (Adc.ioAdcPins .nsumo) s.adc
  reads : Reads s.robot (s.adc.returned.map fun returned => lineGet (voltagesOf returned.1))

section

variable {samples : Nat → Nat → BitVec 16} {s s' : SampledRobot}

theorem Inv.interrupted (h : Inv samples s) {event : Robot.Event} (hevent : ¬event.IsMain) :
    Inv samples { s with robot := s.robot.step event } where
  robot := h.robot.step event
  adc := h.adc
  reads := h.reads.interrupted (h.robot.interrupted hevent)

theorem Inv.adc_step (h : Inv samples s) (event : AdcSystem.Event) (hevent : event ≠ .main) :
    ∃ adc, AdcSystem.step samples event s.adc = .ok adc ∧ Inv samples { s with adc } := by
  obtain ⟨adc, hstep, hadc⟩ := h.adc.step event
  refine ⟨adc, hstep, h.robot, hadc, ?_⟩
  rw [AdcSystem.step_returned hevent hstep]
  exact h.reads

theorem Inv.line_main (h : Inv samples s) (hisr : s.adc.isr = none) {enemy : Enemy}
    (hphase : s.robot.phase = .line enemy) (ranging : Ranging) :
    ∃ s', s.stepMain ranging = .ok s' ∧ Inv samples s' := by
  obtain ⟨adc, hstep, hadc⟩ := h.adc.step .main
  rw [AdcSystem.step, if_pos hisr] at hstep
  rw [stepMain, hphase]
  dsimp only
  rw [hstep, Run.ok_bind]
  by_cases hcalled : s.adc.main = some []
  case pos =>
    rw [if_pos hcalled]
    refine ⟨_, rfl, h.robot.step (.main ranging (voltagesOf adc.values)), hadc, ?_⟩
    have hreturned : adc.returned = s.adc.returned ++ [(adc.values, s.adc.converted)] := by
      rw [AdcSystem.stepMain, hcalled] at hstep
      cases hstep
      rfl
    rw [hreturned, List.map_append]
    exact h.reads.line_main hphase ranging _
  case neg =>
    rw [if_neg hcalled]
    refine ⟨_, rfl, h.robot, hadc, ?_⟩
    rw [AdcSystem.stepMain_returned hcalled hstep]
    exact h.reads

theorem Inv.main (h : Inv samples s) (hisr : s.adc.isr = none) (ranging : Ranging) :
    ∃ s', s.stepMain ranging = .ok s' ∧ Inv samples s' := by
  cases hphase : s.robot.phase with
  | line => exact h.line_main hisr hphase ranging
  | input | cmd | event | process | halted =>
    have hmain := Robot.main_step h.robot.sound h.robot.buffer ranging unread
    exact ⟨{ s with robot := s.robot.step (.main ranging unread) }, by rw [stepMain, hphase],
      h.robot.step (.main ranging unread), h.adc, h.reads.main (by simp [hphase]) hmain⟩

theorem Inv.step (h : Inv samples s) (event : Event) :
    ∃ s', SampledRobot.step samples event s = .ok s' ∧ Inv samples s' := by
  cases event with
  | irq irq =>
    refine ⟨_, rfl, ?_⟩
    split
    · exact @Inv.interrupted samples s h (.irq irq) id
    · exact h
  | watchdog =>
    refine ⟨_, rfl, ?_⟩
    split
    · exact @Inv.interrupted samples s h .watchdog id
    · exact h
  | conversion =>
    obtain ⟨adc, hstep, hinv⟩ := h.adc_step .conversion nofun
    exact ⟨{ s with adc }, by rw [SampledRobot.step, hstep]; rfl, hinv⟩
  | adcInterrupt =>
    obtain ⟨adc, hstep, hinv⟩ := h.adc_step .interrupt nofun
    exact ⟨{ s with adc }, by rw [SampledRobot.step, hstep]; rfl, hinv⟩
  | adcIsr =>
    obtain ⟨adc, hstep, hinv⟩ := h.adc_step .isr nofun
    exact ⟨{ s with adc }, by rw [SampledRobot.step, hstep]; rfl, hinv⟩
  | main ranging =>
    rw [SampledRobot.step]
    split
    case isTrue hisr => exact h.main hisr ranging
    case isFalse => exact ⟨s, rfl, h⟩

theorem start_returned {pins : List Io} {adc : AdcSystem}
    (h : AdcSystem.start pins = .ok adc) : adc.returned = [] := by
  obtain ⟨_, -, h⟩ := Run.bind_ok.mp h
  cases h
  rfl

theorem boot_parts {port3In : Byte} {ports : PortRegs} (h : boot port3In ports = some s) :
    Robot.boot port3In ports = .ok s.robot ∧
      AdcSystem.start (Adc.ioAdcPins .nsumo) = .ok s.adc := by
  obtain ⟨robot, hrobot, h⟩ := Option.bind_eq_some_iff.mp h
  obtain ⟨adc, hadc, h⟩ := Option.bind_eq_some_iff.mp h
  cases h
  cases hr : Robot.boot port3In ports with
  | error => cases hr ▸ hrobot
  | ok robot' =>
    cases ha : AdcSystem.start (Adc.ioAdcPins .nsumo) with
    | error => cases ha ▸ hadc
    | ok adc' =>
      cases hr ▸ hrobot
      cases ha ▸ hadc
      exact ⟨rfl, rfl⟩

theorem nsumo_port1Pins : Adc.Port1Pins (Adc.ioAdcPins .nsumo) := ⟨by decide, by decide⟩

theorem boot_inv {port3In : Byte} {ports : PortRegs} (h : boot port3In ports = some s)
    (samples : Nat → Nat → BitVec 16) : Inv samples s := by
  obtain ⟨hrobot, hadc⟩ := boot_parts h
  obtain ⟨adc, hadc', hconsistent⟩ := AdcSystem.start_consistent samples nsumo_port1Pins
  cases hadc.symm.trans hadc'
  obtain ⟨-, hphase, hiterations⟩ := Robot.boot_fresh hrobot
  refine ⟨Robot.boot_inv hrobot, hconsistent, ?_⟩
  rw [start_returned hadc]
  constructor <;> simp [hphase, hiterations, lineRead]

theorem boot_run {port3In : Byte} (hpin : port3In.getLsbD 4 = true) (ports : PortRegs) :
    ∃ s, boot port3In ports = some s := by
  obtain ⟨robot, hrobot⟩ := Robot.boot_run hpin ports
  obtain ⟨adc, hadc, -⟩ := AdcSystem.start_consistent (fun _ _ => 0) nsumo_port1Pins
  exact ⟨⟨robot, adc⟩, by rw [boot, hrobot, hadc]; rfl⟩

theorem Inv.run (h : Inv samples s) (events : List Event) :
    ∃ s', Run.run (SampledRobot.step samples) events s = .ok s' ∧ Inv samples s' :=
  Run.run_total (fun event _ h => h.step event) h events

/-- The latest returned voltages are those of the last sequence of conversions or of the last but
one that had ended. -/
def Recent (round : Nat) (returned : AdcChannelValues × Nat) : Prop :=
  round ≤ returned.2 ∧ returned.2 ≤ round + 1

structure Sampled (samples : Nat → Nat → BitVec 16) (s : SampledRobot) (rounds : List Nat) :
    Prop where
  sorted : rounds.Pairwise (· ≤ ·)
  recent : List.Forall₂ Recent rounds s.adc.returned
  lines : s.robot.iterations.map Readings.line <+:
    rounds.map fun round => lineGet (voltagesIn samples round)
  pending : rounds.length ≤ s.robot.iterations.length + 1

theorem Inv.lines (h : Inv samples s) :
    ∃ rounds : List Nat, rounds.Pairwise (· ≤ ·) ∧ List.Forall₂ Recent rounds s.adc.returned ∧
      Reads s.robot (rounds.map fun round => lineGet (voltagesIn samples round)) := by
  obtain ⟨rounds, hsorted, hrounds⟩ := h.adc.rounds
  refine ⟨rounds, hsorted, hrounds.imp fun _ _ hround => ⟨hround.le, hround.near⟩, ?_⟩
  have hlines : (rounds.map fun round => lineGet (voltagesIn samples round)) =
      s.adc.returned.map fun returned => lineGet (voltagesOf returned.1) := by
    rw [← List.forall₂_eq_eq_eq, List.forall₂_map_left_iff, List.forall₂_map_right_iff]
    exact hrounds.imp fun _ _ hround => congrArg lineGet (voltagesOf_round hround).symm
  rw [hlines]
  exact h.reads

theorem Consistent.ofRound {pins : List Io} {adc : AdcSystem} (h : Consistent samples pins adc)
    {returned : AdcChannelValues × Nat} (hmem : returned ∈ adc.returned) :
    ∃ round, OfRound samples pins round returned := by
  obtain ⟨rounds, -, hrounds⟩ := h.rounds
  generalize adc.returned = results at *
  induction hrounds with
  | nil => cases hmem
  | cons hfirst _ ih =>
    obtain rfl | hmem := List.mem_cons.mp hmem
    · exact ⟨_, hfirst⟩
    · exact ih hmem

theorem Inv.underWay (h : Inv samples s) {readings : Readings} {event : StateEvent}
    (hphase : s.robot.phase = .process readings event) :
    ∃ round returned, s.adc.returned.getLast? = some returned ∧ Recent round returned ∧
      readings.line = lineGet (voltagesIn samples round) := by
  have hlines := h.reads.running fun _ _ hhalted => nomatch hphase.symm.trans hhalted
  rw [hphase] at hlines
  obtain ⟨before, latest, hreturned, -, hlatest⟩ := List.append_eq_map_iff.mp hlines
  obtain ⟨returned, rfl, hline⟩ := List.map_eq_singleton_iff.mp hlatest
  have hmem : returned ∈ s.adc.returned := by
    rw [hreturned]
    exact List.mem_append_right _ List.mem_cons_self
  obtain ⟨round, hround⟩ := Consistent.ofRound h.adc hmem
  refine ⟨round, returned, by rw [hreturned, List.getLast?_concat], ⟨hround.le, hround.near⟩, ?_⟩
  rw [← voltagesOf_round hround, hline]

theorem Inv.sampled (h : Inv samples s) : ∃ rounds, Sampled samples s rounds := by
  obtain ⟨rounds, hsorted, hrecent, hreads⟩ := h.lines
  have hpending := hreads.pending
  rw [List.length_map] at hpending
  exact ⟨rounds, hsorted, hrecent, hreads.started, hpending⟩

end

/-- However the conversions, the interrupts and the main loop interleave, the robot follows
`state_machine_run`, and the lines that it reads are those under its sensors: each in one recent
sequence of conversions, and never an earlier one after a later. -/
theorem sampled_robot_follows {port3In : Byte} (hpin : port3In.getLsbD 4 = true)
    (ports : PortRegs) :
    ∃ s, boot port3In ports = some s ∧ ∀ samples events,
      ∃ s', Run.run (step samples) events s = .ok s' ∧ Follows s'.robot ∧
        ∃ rounds, Sampled samples s' rounds := by
  obtain ⟨s, hboot⟩ := boot_run hpin ports
  refine ⟨s, hboot, fun samples events => ?_⟩
  obtain ⟨s', hrun, hs'⟩ := (boot_inv hboot samples).run events
  exact ⟨s', hrun, hs'.robot.sound.follows, hs'.sampled⟩

theorem sampled_robot_follows_reset :
    ∃ s, boot 0x10 PortRegs.reset = some s ∧ ∀ samples events,
      ∃ s', Run.run (step samples) events s = .ok s' ∧ Follows s'.robot ∧
        ∃ rounds, Sampled samples s' rounds :=
  sampled_robot_follows (by decide) PortRegs.reset

theorem common_of_line {r : Robot} (h : r.Inv) {readings : Readings}
    (hphase : r.phase = .process readings .line) :
    r.data.common.line = readings.line ∧ readings.line ≠ .none := by
  obtain ⟨⟨data, hrun, hinput⟩, -⟩ := h.sound.of_process hphase
  obtain ⟨history, htaken⟩ := processInput_ok hinput
  obtain ⟨-, hline, hdata⟩ := ((settled_of_run hrun).reading readings history).of_line rfl htaken
  rw [hdata]
  exact ⟨rfl, hline⟩

theorem edge_evaded {port3In : Byte} {ports : PortRegs} {s s' : SampledRobot}
    (hboot : boot port3In ports = some s) {samples : Nat → Nat → BitVec 16} {events : List Event}
    (hrun : Run.run (step samples) events s = .ok s') {readings : Readings}
    (hphase : s'.robot.phase = .process readings .line)
    (hauto : s'.robot.data.state.autonomous = true) (hisr : s'.adc.isr = none)
    (ranging : Ranging) :
    ∃ s'' round returned, step samples (.main ranging) s' = .ok s'' ∧
      s'.adc.returned.getLast? = some returned ∧ Recent round returned ∧
      Escapes (voltagesIn samples round) s''.robot := by
  obtain ⟨s₁, hrun₁, hinv⟩ := (boot_inv hboot samples).run events
  cases hrun.symm.trans hrun₁
  obtain ⟨round, returned, hlast, hrecent, hline⟩ := hinv.underWay hphase
  obtain ⟨hcommon, hnone⟩ := common_of_line hinv.robot hphase
  refine ⟨{ s' with robot := s'.robot.step (.main ranging unread) }, round, returned, ?_, hlast,
    hrecent, ?_⟩
  · rw [step, if_pos hisr, stepMain, hphase]
  · rw [hline] at hcommon hnone
    exact Robot.line_processed hinv.robot hphase hauto hcommon hnone ranging unread

def conversions : List Event :=
  List.replicate 6 .conversion ++ .adcInterrupt :: List.replicate 7 .adcIsr

def overEdge : List Event :=
  Robot.startKey.irqs.map .irq ++
    conversions ++ List.replicate 10 (.main (.error (.result .errorI2c))) ++
    conversions ++ List.replicate 9 (.main (.error (.result .errorI2c)))

def cornerSamples (round channel : Nat) : BitVec 16 :=
  if round = 1 ∧ channel = 3 then 300 else 1000

theorem edge_evaded_corner :
    ∃ s s', boot 0x10 PortRegs.reset = some s ∧
      Run.run (step cornerSamples) overEdge s = .ok s' ∧
      ∃ s'' round returned, step cornerSamples (.main (.error .fuel)) s' = .ok s'' ∧
        s'.adc.returned.getLast? = some returned ∧ Recent round returned ∧
        Escapes (voltagesIn cornerSamples round) s''.robot := by
  obtain ⟨s, hboot⟩ := @boot_run 0x10 (by decide) PortRegs.reset
  obtain ⟨s', hrun, -⟩ := (boot_inv hboot cornerSamples).run overEdge
  have hreached : ((boot 0x10 PortRegs.reset).bind fun s =>
      (Run.run (step cornerSamples) overEdge s).toOption.map fun s' =>
        (s'.robot.phase, s'.robot.data.state.autonomous, s'.adc.isr)) =
      some (.process ⟨enemyNone, .frontLeft, IrCmd.none, 0, 0⟩ .line, true, none) := by
    decide +kernel
  rw [hboot, Option.bind_some, hrun] at hreached
  obtain ⟨hphase, hauto, hisr⟩ :
      s'.robot.phase = .process ⟨enemyNone, .frontLeft, IrCmd.none, 0, 0⟩ .line ∧
        s'.robot.data.state.autonomous = true ∧ s'.adc.isr = none := by
    simpa [Except.toOption] using hreached
  exact ⟨s, s', hboot, hrun, edge_evaded hboot hrun hphase hauto hisr _⟩

end SampledRobot

end Nsumo.App
