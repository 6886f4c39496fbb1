import Nsumo.App.DriveLaws
import Nsumo.App.ManualLaws
import Nsumo.App.Robot
import Nsumo.Common.AssertHandlerLaws
import Nsumo.Drivers.IrMessageLaws
import Nsumo.Drivers.IrQueueLaws
import Nsumo.Lib.Total

namespace Nsumo.App

open Common Drivers Lib

def speeds (data : StateMachineData) : Tb6612fng → Int :=
  (motorCommand data).elim (fun _ => 0) Drive.speedOf

section

variable {cnt : BitVec 32} {readings : Readings} {event : StateEvent}
  {data data' : StateMachineData}

theorem Processed.drives (h : Processed cnt data event data') :
    ∃ command : Option DriveCommand, data'.drives = command.toList ++ data.drives := by
  cases h with
  | idle | searchNone | enemyKept | retreatStay | lastMove => exact ⟨none, rfl⟩
  | start | searchTimeout | enemyFound | enemyMoved | enemyLost | line | finished | nextMove =>
    exact ⟨some _, rfl⟩
  | takeOver | manualCommand => exact ⟨manualDrive data.common.cmd, rfl⟩

theorem processInput_drives (h : processInput readings data = .ok (event, data')) :
    data'.drives = data.drives := by
  obtain ⟨_, htaken⟩ := processInput_ok h
  exact htaken.drives

theorem processInput_startCnt (readings : Readings) (data : StateMachineData) (cnt : BitVec 32) :
    processInput { readings with startCnt := cnt } data = processInput readings data := rfl

end

/-- `process_input` has not found the event yet. -/
def RobotPhase.Reading : RobotPhase → Prop
  | .input | .line _ | .cmd _ _ | .event _ _ _ => True
  | .process _ _ | .halted _ _ => False

namespace Robot

open AssertHandler

section

variable {r r' : Robot}

theorem newDrives_eq {data data' : StateMachineData} {command : Option DriveCommand}
    (h : data'.drives = command.toList ++ data.drives) :
    newDrives data data' = command.toList := by
  cases command <;> simp [newDrives, h]

structure Driven (r : Robot) : Prop where
  ready : Drive.Ready r.motors
  outputs : Drive.outputs r.motors = Drive.commanded (speeds r.data)

theorem Driven.run (h : Driven r) {data : StateMachineData} {command : Option DriveCommand}
    (hdrives : data.drives = command.toList ++ r.data.drives) :
    ∃ motors, Run.run Drive.step (newDrives r.data data) r.motors = .ok motors ∧
      Drive.Ready motors ∧ Drive.outputs motors = Drive.commanded (speeds data) := by
  rw [newDrives_eq hdrives]
  cases command with
  | none =>
    refine ⟨r.motors, rfl, h.ready, h.outputs.trans ?_⟩
    rw [speeds, speeds, motorCommand, motorCommand, hdrives]
    rfl
  | some c =>
    obtain ⟨motors, hstep, hready, houtputs⟩ := Drive.step_run h.ready c
    refine ⟨motors, Run.run_cons_ok.mpr ⟨motors, hstep, rfl⟩, hready, houtputs.trans ?_⟩
    rw [speeds, motorCommand, hdrives]
    rfl

/-- The motors are off, and what the handler still has to write leaves them off. -/
structure Dark (r : Robot) (writes : List PortWrite) : Prop where
  low (io : Io) : io ∈ motorPins .nsumo → DrivenLow io r.motors.ports
  keeps (io : Io) : io ∈ motorPins .nsumo → ∀ w ∈ writes, Keeps io w

inductive Sound (r : Robot) : Prop
  | reading : r.phase.Reading → stateMachineRun r.iterations = .ok r.data → Driven r → Sound r
  | process {readings event data} : r.phase = .process readings event →
      stateMachineRun r.iterations = .ok data →
      processInput readings data = .ok (event, r.data) → Driven r → Sound r
  | asserted {writes} : r.phase = .halted .vl53l0xReadRangeMultiple writes →
      stateMachineRun r.iterations = .ok r.data → Dark r writes → Sound r
  | failed {site writes data next} : r.phase = .halted site writes →
      stateMachineRun r.iterations = .ok data → iteration next data = .error site →
      Dark r writes → Sound r

theorem boot_fresh {port3In : Byte} {ports : PortRegs} (h : boot port3In ports = .ok r) :
    r.ir = .init ∧ r.phase = .input ∧ r.iterations = [] := by
  obtain ⟨_, -, h⟩ := Run.bind_ok.mp h
  obtain ⟨_, -, h⟩ := Run.bind_ok.mp h
  cases h
  exact ⟨rfl, rfl, rfl⟩

theorem boot_sound {port3In : Byte} {ports : PortRegs} (h : boot port3In ports = .ok r) :
    Sound r := by
  obtain ⟨_, -, h⟩ := Run.bind_ok.mp h
  obtain ⟨motors, hinit, h⟩ := Run.bind_ok.mp h
  cases h
  exact .reading trivial rfl ⟨Drive.driveInit_ready hinit, Drive.driveInit_outputs hinit⟩

structure Interrupted (r r' : Robot) : Prop where
  phase : r'.phase = r.phase
  data : r'.data = r.data
  motors : r'.motors = r.motors
  iterations : r'.iterations = r.iterations

theorem Sound.interrupted (h : Sound r) (hsame : Interrupted r r') : Sound r' := by
  obtain ⟨hphase', hdata, hmotors, hiterations⟩ := hsame
  have hdriven' (hdriven : Driven r) : Driven r' :=
    ⟨hmotors ▸ hdriven.ready, hmotors ▸ hdata ▸ hdriven.outputs⟩
  have hdark' {writes : List PortWrite} (hdark : Dark r writes) : Dark r' writes :=
    ⟨fun io hmem => hmotors ▸ hdark.low io hmem, hdark.keeps⟩
  cases h with
  | reading hphase hrun hdriven =>
    exact .reading (hphase' ▸ hphase) (by rwa [hiterations, hdata]) (hdriven' hdriven)
  | process hphase hrun hinput hdriven =>
    exact .process (hphase'.trans hphase) (hiterations ▸ hrun) (hdata ▸ hinput) (hdriven' hdriven)
  | asserted hphase hrun hdark =>
    exact .asserted (hphase'.trans hphase) (by rwa [hiterations, hdata]) (hdark' hdark)
  | failed hphase hrun hfail hdark =>
    exact .failed (hphase'.trans hphase) (hiterations ▸ hrun) hfail (hdark' hdark)

def Running (r : Robot) : Prop := ∀ site writes, r.phase ≠ .halted site writes

theorem Sound.driven (h : Sound r) (hrunning : Running r) : Driven r := by
  cases h with
  | reading _ _ hdriven | process _ _ _ hdriven => exact hdriven
  | asserted hphase | failed hphase => exact absurd hphase (hrunning _ _)

inductive MainStep (ranging : Ranging) (voltages : Qre1113Voltages) (r : Robot) : Robot → Prop
  | ranged {ranges} : r.phase = .input →
      MainStep ranging voltages r { r with phase := .line (enemyGet ranges) }
  | asserted : r.phase = .input → ranging = .error .assert →
      MainStep ranging voltages r (r.assertHandler .vl53l0xReadRangeMultiple)
  | blocked : r.phase = .input → ranging = .error .fuel → MainStep ranging voltages r r
  | line {enemy} : r.phase = .line enemy →
      MainStep ranging voltages r { r with phase := .cmd enemy (lineGet voltages) }
  | cmd {enemy line cmd rb} : r.phase = .cmd enemy line →
      r.ir.irRemoteGetCmd = .ok (cmd, r.ir.withBuffer rb) →
      MainStep ranging voltages r
        { r with ir := r.ir.withBuffer rb, phase := .event enemy line cmd }
  | event {readings event data} : r.phase = .event readings.enemy readings.line readings.cmd →
      readings.pollCnt = r.watchdogInterruptCnt → processInput readings r.data = .ok (event, data) →
      MainStep ranging voltages r { r with data, phase := .process readings event }
  | process {readings event data motors} : r.phase = .process readings event →
      processEvent r.watchdogInterruptCnt event r.data = .ok data → Drive.Ready motors →
      Drive.outputs motors = Drive.commanded (speeds data) →
      MainStep ranging voltages r { r with
        data
        motors
        phase := .input
        iterations := r.iterations ++ [{ readings with startCnt := r.watchdogInterruptCnt }] }
  | failed {readings event site} : r.phase = .process readings event →
      processEvent r.watchdogInterruptCnt event r.data = .error site →
      MainStep ranging voltages r (r.assertHandler site)
  | write {site w writes} : r.phase = .halted site (w :: writes) →
      MainStep ranging voltages r
        { r with motors.ports := w.run r.motors.ports, phase := .halted site writes }
  | again {site} : r.phase = .halted site [] →
      MainStep ranging voltages r { r with phase := .halted site blink }

variable {ranging : Ranging} {voltages : Qre1113Voltages}

theorem main_input (hphase : r.phase = .input) (ranging : Ranging) (voltages : Qre1113Voltages) :
    MainStep ranging voltages r (r.step (.main ranging voltages)) := by
  have hstep : r.step (.main ranging voltages) = r.resume (r.stepEnemy ranging) := by
    rw [step, stepMain, hphase]
  rw [hstep]
  match ranging with
  | .ok _ | .error (.result _) => exact .ranged hphase
  | .error .assert => exact .asserted hphase rfl
  | .error .fuel => exact .blocked hphase rfl

theorem step_line {enemy : Enemy} (hphase : r.phase = .line enemy) (ranging : Ranging)
    (voltages : Qre1113Voltages) :
    r.step (.main ranging voltages) = { r with phase := .cmd enemy (lineGet voltages) } := by
  rw [step, stepMain, hphase]
  rfl

theorem main_line {enemy : Enemy} (hphase : r.phase = .line enemy) (ranging : Ranging)
    (voltages : Qre1113Voltages) :
    MainStep ranging voltages r (r.step (.main ranging voltages)) := by
  rw [step_line hphase]
  exact .line hphase

theorem step_cmd {enemy : Enemy} {line : Line} {cmd : IrCmd} {ir : IrRemote}
    (hphase : r.phase = .cmd enemy line) (hcmd : r.ir.irRemoteGetCmd = .ok (cmd, ir))
    (ranging : Ranging) (voltages : Qre1113Voltages) :
    r.step (.main ranging voltages) = { r with ir, phase := .event enemy line cmd } := by
  have hstep : r.step (.main ranging voltages) = r.resume (r.stepCmd enemy line) := by
    rw [step, stepMain, hphase]
  rw [hstep, stepCmd, hcmd]
  rfl

theorem main_cmd (hbuffer : r.ir.BufferWf) {enemy : Enemy} {line : Line}
    (hphase : r.phase = .cmd enemy line) (ranging : Ranging) (voltages : Qre1113Voltages) :
    MainStep ranging voltages r (r.step (.main ranging voltages)) := by
  obtain ⟨cmd, rb, hcmd, -, -⟩ := IrRemote.getCmd_spec hbuffer
  rw [step_cmd hphase hcmd]
  exact .cmd hphase hcmd

/-- The readings of the iteration, once its command has been taken. -/
def readings (r : Robot) (enemy : Enemy) (line : Line) (cmd : IrCmd) : Readings where
  enemy := enemy
  line := line
  cmd := cmd
  pollCnt := r.watchdogInterruptCnt
  startCnt := r.watchdogInterruptCnt

theorem step_event {enemy : Enemy} {line : Line} {cmd : IrCmd} {event : StateEvent}
    {data : StateMachineData} (hphase : r.phase = .event enemy line cmd)
    (hinput : processInput (r.readings enemy line cmd) r.data = .ok (event, data))
    (ranging : Ranging) (voltages : Qre1113Voltages) :
    r.step (.main ranging voltages) =
      { r with data, phase := .process (r.readings enemy line cmd) event } := by
  have hstep : r.step (.main ranging voltages) = r.resume (r.stepEvent enemy line cmd) := by
    rw [step, stepMain, hphase]
  have hevent : r.stepEvent enemy line cmd =
      .ok { r with data, phase := .process (r.readings enemy line cmd) event } := by
    change processInput (r.readings enemy line cmd) r.data >>= _ = _
    rw [hinput]
    rfl
  rw [hstep, hevent]
  rfl

theorem main_event {enemy : Enemy} {line : Line} {cmd : IrCmd}
    (hphase : r.phase = .event enemy line cmd) (ranging : Ranging) (voltages : Qre1113Voltages) :
    MainStep ranging voltages r (r.step (.main ranging voltages)) := by
  obtain ⟨-, -, event, data, hinput, -⟩ := processInput_taken (r.readings enemy line cmd) r.data
  rw [step_event hphase hinput]
  exact .event hphase rfl hinput

theorem main_process (hdriven : Driven r) {readings : Readings} {event : StateEvent}
    (hphase : r.phase = .process readings event) (ranging : Ranging)
    (voltages : Qre1113Voltages) :
    MainStep ranging voltages r (r.step (.main ranging voltages)) := by
  have hstep : r.step (.main ranging voltages) = r.resume (r.stepProcess readings event) := by
    rw [step, stepMain, hphase]
  rw [hstep, stepProcess]
  cases hevent : processEvent r.watchdogInterruptCnt event r.data with
  | error site => exact .failed hphase hevent
  | ok data =>
    obtain ⟨command, hdrives⟩ := (processEvent_ok hevent).drives
    obtain ⟨motors, hmotors, hready, houtputs⟩ := hdriven.run hdrives
    rw [Run.ok_bind, hmotors]
    exact .process hphase hevent hready houtputs

theorem main_halted {site : Assert} {writes : List PortWrite}
    (hphase : r.phase = .halted site writes) (ranging : Ranging) (voltages : Qre1113Voltages) :
    MainStep ranging voltages r (r.step (.main ranging voltages)) := by
  cases writes with
  | nil =>
    have hstep : r.step (.main ranging voltages) = { r with phase := .halted site blink } := by
      rw [step, stepMain, hphase]
      rfl
    rw [hstep]
    exact .again hphase
  | cons w writes =>
    have hstep : r.step (.main ranging voltages) =
        { r with motors.ports := w.run r.motors.ports, phase := .halted site writes } := by
      rw [step, stepMain, hphase]
      rfl
    rw [hstep]
    exact .write hphase

theorem main_step (h : Sound r) (hbuffer : r.ir.BufferWf) (ranging : Ranging)
    (voltages : Qre1113Voltages) :
    MainStep ranging voltages r (r.step (.main ranging voltages)) := by
  cases hphase : r.phase with
  | input => exact main_input hphase ranging voltages
  | line => exact main_line hphase ranging voltages
  | cmd => exact main_cmd hbuffer hphase ranging voltages
  | event => exact main_event hphase ranging voltages
  | process => exact main_process (h.driven (by simp [Running, hphase])) hphase ranging voltages
  | halted => exact main_halted hphase ranging voltages

theorem Sound.of_reading (h : Sound r) (hphase : r.phase.Reading) :
    stateMachineRun r.iterations = .ok r.data ∧ Driven r := by
  cases h with
  | reading _ hrun hdriven => exact ⟨hrun, hdriven⟩
  | process hphase' | asserted hphase' | failed hphase' => cases hphase' ▸ hphase

theorem Sound.of_process (h : Sound r) {readings : Readings} {event : StateEvent}
    (hphase : r.phase = .process readings event) :
    (∃ data, stateMachineRun r.iterations = .ok data ∧
      processInput readings data = .ok (event, r.data)) ∧ Driven r := by
  cases h with
  | reading hphase' => cases hphase ▸ hphase'
  | process hphase' hrun hinput hdriven =>
    cases hphase.symm.trans hphase'
    exact ⟨⟨_, hrun, hinput⟩, hdriven⟩
  | asserted hphase' | failed hphase' => cases hphase.symm.trans hphase'

theorem Sound.of_halted (h : Sound r) {site : Assert} {writes : List PortWrite}
    (hphase : r.phase = .halted site writes) :
    Dark r writes ∧ ∀ {ports : PortRegs} {writes' : List PortWrite},
      Dark { r with motors.ports := ports } writes' →
        Sound { r with motors.ports := ports, phase := .halted site writes' } := by
  cases h with
  | reading hphase' => cases hphase ▸ hphase'
  | process hphase' => cases hphase.symm.trans hphase'
  | asserted hphase' hrun hdark =>
    cases hphase.symm.trans hphase'
    exact ⟨hdark, fun hdark' => .asserted rfl hrun ⟨hdark'.low, hdark'.keeps⟩⟩
  | failed hphase' hrun hfail hdark =>
    cases hphase.symm.trans hphase'
    exact ⟨hdark, fun hdark' => .failed rfl hrun hfail ⟨hdark'.low, hdark'.keeps⟩⟩

theorem assertHandler_dark (site : Assert) (r : Robot) :
    Dark (r.assertHandler site) (assertTrace ++ gpioOutputLow p10 ++ gpioOutputLow p26) where
  low io hmem := assertStopMotors_drivenLow hmem _
  keeps io hmem w hw :=
    rest_keeps (n := 0) (.inl rfl) hmem w (by simpa [rest, assertBlinkLed] using hw)

theorem Sound.main (h : Sound r) (hstep : MainStep ranging voltages r r') : Sound r' := by
  cases hstep with
  | ranged hphase | line hphase =>
    obtain ⟨hrun, hdriven⟩ := h.of_reading (hphase ▸ trivial)
    exact .reading trivial hrun ⟨hdriven.ready, hdriven.outputs⟩
  | cmd hphase =>
    obtain ⟨hrun, hdriven⟩ := h.of_reading (hphase ▸ trivial)
    exact .reading trivial hrun ⟨hdriven.ready, hdriven.outputs⟩
  | blocked => exact h
  | asserted hphase =>
    obtain ⟨hrun, -⟩ := h.of_reading (hphase ▸ trivial)
    exact .asserted rfl hrun (assertHandler_dark _ r)
  | event hphase _ hinput =>
    obtain ⟨hrun, hdriven⟩ := h.of_reading (hphase ▸ trivial)
    refine .process rfl hrun hinput ⟨hdriven.ready, hdriven.outputs.trans ?_⟩
    rw [speeds, speeds, motorCommand, motorCommand, processInput_drives hinput]
  | process hphase hevent hready houtputs =>
    obtain ⟨⟨data, hrun, hinput⟩, -⟩ := h.of_process hphase
    exact .reading trivial
      (Run.run_concat_ok.mpr ⟨_, hrun, Run.bind_ok.mpr ⟨_, hinput, hevent⟩⟩) ⟨hready, houtputs⟩
  | @failed readings event site hphase hevent =>
    obtain ⟨⟨data, hrun, hinput⟩, -⟩ := h.of_process hphase
    have hfail : iteration { readings with startCnt := r.watchdogInterruptCnt } data =
        .error site := by
      rw [iteration, processInput_startCnt, hinput]
      exact hevent
    exact .failed rfl hrun hfail (assertHandler_dark site r)
  | write hphase =>
    obtain ⟨hdark, hgo⟩ := h.of_halted hphase
    refine hgo ⟨fun io hmem => ?_, fun io hmem w hw => ?_⟩
    · exact (hdark.low io hmem).run (hdark.keeps io hmem _ List.mem_cons_self)
    · exact hdark.keeps io hmem w (List.mem_cons_of_mem _ hw)
  | again hphase =>
    obtain ⟨hdark, hgo⟩ := h.of_halted hphase
    refine hgo ⟨hdark.low, fun io hmem w hw => ?_⟩
    exact rest_keeps (n := 1) (.inl rfl) hmem w (by simp [rest, assertBlinkLed, hw])

theorem irq_step {irq : IrRemote.Irq} {ir : IrRemote} (h : IrRemote.handle irq r.ir = .ok ir) :
    r.step (.irq irq) = { r with ir } := by
  rw [step, h]
  rfl

theorem MainStep.bufferWf (h : MainStep ranging voltages r r') (hbuffer : r.ir.BufferWf) :
    r'.ir.BufferWf := by
  cases h with
  | cmd _ hcmd =>
    obtain ⟨_, rb, hcmd', hwf, -⟩ := IrRemote.getCmd_spec hbuffer
    cases hcmd.symm.trans hcmd'
    exact hwf
  | ranged | asserted | blocked | line | event | process | failed | write | again => exact hbuffer

structure Inv (r : Robot) : Prop where
  sound : Sound r
  buffer : r.ir.BufferWf

def Event.IsMain : Event → Prop
  | .main _ _ => True
  | .irq _ | .watchdog => False

theorem Inv.interrupted (h : Inv r) {event : Event} (hevent : ¬event.IsMain) :
    Interrupted r (r.step event) := by
  cases event with
  | irq irq =>
    obtain ⟨ir, hir, -⟩ := IrRemote.handle_spec h.buffer irq
    rw [irq_step hir]
    exact ⟨rfl, rfl, rfl, rfl⟩
  | watchdog => exact ⟨rfl, rfl, rfl, rfl⟩
  | main => exact absurd trivial hevent

theorem Inv.step (h : Inv r) (event : Event) : Inv (r.step event) := by
  cases event with
  | irq irq =>
    obtain ⟨ir, hir, hwf, -⟩ := IrRemote.handle_spec h.buffer irq
    refine ⟨h.sound.interrupted (@Inv.interrupted r h (.irq irq) id), ?_⟩
    rw [irq_step hir]
    exact hwf
  | watchdog => exact ⟨h.sound.interrupted (@Inv.interrupted r h .watchdog id), h.buffer⟩
  | main ranging voltages =>
    have hmain := main_step h.sound h.buffer ranging voltages
    exact ⟨h.sound.main hmain, hmain.bufferWf h.buffer⟩

theorem boot_inv {port3In : Byte} {ports : PortRegs} (h : boot port3In ports = .ok r) : Inv r where
  sound := boot_sound h
  buffer := by
    rw [(boot_fresh h).1]
    exact IrRemote.init_bufferWf

theorem reached_inv {port3In : Byte} {ports : PortRegs} (h : boot port3In ports = .ok r)
    (events : List Event) : Inv (r.run events) :=
  Total.foldl_invariant (I := Inv) (fun _ event hinv => hinv.step event) (boot_inv h) events

theorem boot_run {port3In : Byte} (hpin : port3In.getLsbD 4 = true) (ports : PortRegs) :
    ∃ robot, boot port3In ports = .ok robot := by
  obtain ⟨ports', hports, hconfig⟩ := PortRegs.ioInit_run hpin ports
  obtain ⟨motors, hmotors⟩ := Drive.driveInit_run hconfig
  rw [boot, hports, Run.ok_bind, hmotors]
  exact ⟨_, rfl⟩

/-- The robot is where `state_machine_run` is after its iterations, with the motors doing what that
asked for last.  It halts in an iteration that `state_machine_run` halts in, or in the ranging that
comes before. -/
structure Follows (r : Robot) : Prop where
  reading : r.phase.Reading → stateMachineRun r.iterations = .ok r.data
  motors : Running r → Drive.outputs r.motors = Drive.commanded (speeds r.data)
  halted (site : Assert) (writes : List PortWrite) : r.phase = .halted site writes →
    ∃ data, stateMachineRun r.iterations = .ok data ∧
      (site = .vl53l0xReadRangeMultiple ∨ ∃ next, iteration next data = .error site)

theorem Sound.follows (h : Sound r) : Follows r where
  reading hphase := (h.of_reading hphase).1
  motors hrunning := (h.driven hrunning).outputs
  halted site writes hphase := by
    cases h with
    | reading hphase' => cases hphase ▸ hphase'
    | process hphase' => cases hphase.symm.trans hphase'
    | asserted hphase' hrun =>
      cases hphase.symm.trans hphase'
      exact ⟨_, hrun, .inl rfl⟩
    | failed hphase' hrun hfail =>
      cases hphase.symm.trans hphase'
      exact ⟨_, hrun, .inr ⟨_, hfail⟩⟩

/-- The robot has halted, if at all, in an iteration of the state machine. -/
def Ranges (r : Robot) : Prop := ∀ writes, r.phase ≠ .halted .vl53l0xReadRangeMultiple writes

def Event.Asserts : Event → Prop
  | .main (.error .assert) _ => True
  | _ => False

theorem processEvent_ranges {cnt : BitVec 32} {event : StateEvent} {data : StateMachineData}
    {site : Assert} (h : processEvent cnt event data = .error site) :
    site ≠ .vl53l0xReadRangeMultiple := by
  cases processEvent_error h <;> nofun

theorem MainStep.ranges (h : MainStep ranging voltages r r') (hranges : Ranges r)
    (hends : ranging ≠ .error .assert) : Ranges r' := by
  cases h with
  | ranged | line | cmd | event | process => nofun
  | blocked => exact hranges
  | asserted _ hassert => exact absurd hassert hends
  | failed _ hevent =>
    intro writes hphase
    cases hphase
    exact processEvent_ranges hevent rfl
  | write hphase | again hphase =>
    intro writes hphase'
    cases hphase'
    exact hranges _ hphase

theorem ranges_step (h : Inv r) (hranges : Ranges r) {event : Event} (hends : ¬event.Asserts) :
    Ranges (r.step event) := by
  cases event with
  | irq irq =>
    rw [Ranges, (@Inv.interrupted r h (.irq irq) id).phase]
    exact hranges
  | watchdog => exact hranges
  | main ranging voltages =>
    refine (main_step h.sound h.buffer ranging voltages).ranges hranges ?_
    rintro rfl
    exact hends trivial

theorem reached_ranges {port3In : Byte} {ports : PortRegs} (hboot : boot port3In ports = .ok r)
    {events : List Event} (hends : ∀ event ∈ events, ¬event.Asserts) : Ranges (r.run events) := by
  induction events using List.reverseRecOn with
  | nil =>
    rw [Ranges, run, List.foldl_nil, (boot_fresh hboot).2.1]
    nofun
  | append_singleton events event ih =>
    have hrest := ih fun event hmem => hends event (List.mem_append_left _ hmem)
    rw [run, List.foldl_append]
    exact ranges_step (reached_inv hboot events) hrest (hends event (by simp))

end

theorem robot_follows {port3In : Byte} (hpin : port3In.getLsbD 4 = true) (ports : PortRegs) :
    ∃ robot, boot port3In ports = .ok robot ∧ ∀ events, Follows (robot.run events) ∧
      ((∀ event ∈ events, ¬event.Asserts) → Ranges (robot.run events)) := by
  obtain ⟨robot, hboot⟩ := boot_run hpin ports
  exact ⟨robot, hboot, fun events =>
    ⟨(reached_inv hboot events).sound.follows, reached_ranges hboot⟩⟩

theorem robot_follows_reset :
    ∃ robot, boot 0x10 PortRegs.reset = .ok robot ∧ ∀ events, Follows (robot.run events) ∧
      ((∀ event ∈ events, ¬event.Asserts) → Ranges (robot.run events)) :=
  robot_follows (by decide) PortRegs.reset

def Halted (r : Robot) : Prop := ∃ site writes, r.phase = .halted site writes

structure Off (r : Robot) : Prop where
  halted : Halted r
  pins (io : Io) : io ∈ motorPins .nsumo → DrivenLow io r.motors.ports

theorem Inv.off {r : Robot} (h : Inv r) (hhalted : Halted r) : Off r where
  halted := hhalted
  pins := by
    obtain ⟨site, writes, hphase⟩ := hhalted
    exact (h.sound.of_halted hphase).1.low

theorem MainStep.halted {r r' : Robot} {ranging : Ranging} {voltages : Qre1113Voltages}
    (h : MainStep ranging voltages r r') (hhalted : Halted r) : Halted r' := by
  obtain ⟨site, writes, hphase⟩ := hhalted
  cases h with
  | ranged hphase' | asserted hphase' | blocked hphase' | line hphase' | cmd hphase'
  | event hphase' | process hphase' | failed hphase' => cases hphase.symm.trans hphase'
  | write | again => exact ⟨_, _, rfl⟩

theorem halted_step {r : Robot} (h : Inv r) (hhalted : Halted r) (event : Event) :
    Halted (r.step event) := by
  cases event with
  | irq irq =>
    obtain ⟨site, writes, hphase⟩ := hhalted
    exact ⟨site, writes, (@Inv.interrupted r h (.irq irq) id).phase.trans hphase⟩
  | watchdog => exact hhalted
  | main ranging voltages => exact (main_step h.sound h.buffer ranging voltages).halted hhalted

theorem halted_stays_off {port3In : Byte} {ports : PortRegs} {robot : Robot}
    (hboot : boot port3In ports = .ok robot) {events : List Event}
    (hhalted : Halted (robot.run events)) (later : List Event) :
    Off ((robot.run events).run later) := by
  have hboth : Inv ((robot.run events).run later) ∧ Halted ((robot.run events).run later) :=
    Total.foldl_invariant (I := fun r => Inv r ∧ Halted r)
      (fun _ event h => ⟨h.1.step event, halted_step h.1 h.2 event⟩)
      ⟨reached_inv hboot events, hhalted⟩ later
  exact hboth.1.off hboth.2

def startKey : IrRemote.Message := IrRemote.pressed 0x00001800 [] (IrRemote.inside_codedGaps _)

def noLine : Qre1113Voltages := ⟨1000, 1000, 1000, 1000⟩

def iterationOf (voltages : Qre1113Voltages) : List Event :=
  List.replicate 5 (.main (.error (.result .errorI2c)) voltages)

def searching : List Event :=
  startKey.irqs.map .irq ++ iterationOf noLine

theorem halted_stays_off_diagonal :
    ∃ robot, boot 0x10 PortRegs.reset = .ok robot ∧
      ∀ later, Off ((robot.run (searching ++ iterationOf ⟨0, 1000, 1000, 0⟩)).run later) := by
  have hhalted : ∃ robot, boot 0x10 PortRegs.reset = .ok robot ∧
      Halted (robot.run (searching ++ iterationOf ⟨0, 1000, 1000, 0⟩)) := by
    refine ⟨_, rfl, .nextRetreatState, assertTrace ++ gpioOutputLow p10 ++ gpioOutputLow p26, ?_⟩
    decide +kernel
  obtain ⟨robot, hboot, hhalted⟩ := hhalted
  exact ⟨robot, hboot, halted_stays_off hboot hhalted⟩

end Robot

end Nsumo.App
