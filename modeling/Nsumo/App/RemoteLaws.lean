import Nsumo.App.CommandLaws
import Nsumo.App.RobotLaws
import Nsumo.Drivers.IrMessageLaws

namespace Nsumo.App

open Common Drivers Lib

def commands (cmds : List IrCmd) : List IrCmd := cmds.filter (· != IrCmd.none)

theorem commands_append (xs ys : List IrCmd) : commands (xs ++ ys) = commands xs ++ commands ys :=
  List.filter_append xs ys

def consumedCmds (readings : List Readings) : List IrCmd := commands (readings.map Readings.cmd)

theorem consumed_eq (readings : List Readings) :
    consumed readings = (consumedCmds readings).length := by
  rw [consumed, consumedCmds, commands, List.filter_map, List.length_map,
    List.countP_eq_length_filter]
  rfl

def manualDrives (cmds : List IrCmd) : List DriveCommand := (cmds.drop 1).filterMap manualDrive

section

variable {readings : List Readings} {next : Readings} {data data' : StateMachineData}

theorem consumedCmds_concat (readings : List Readings) (next : Readings) :
    consumedCmds (readings ++ [next]) =
      consumedCmds readings ++ if next.cmd = IrCmd.none then [] else [next.cmd] := by
  rw [consumedCmds, consumedCmds, List.map_append, commands_append]
  by_cases hcmd : next.cmd = IrCmd.none <;> simp [commands, hcmd]

theorem manualDrives_concat {cmds : List IrCmd} (cmd : IrCmd) (h : cmds ≠ []) :
    manualDrives (cmds ++ [cmd]) = manualDrives cmds ++ (manualDrive cmd).toList := by
  have hpos : 1 ≤ cmds.length := List.length_pos_iff.mpr h
  rw [manualDrives, manualDrives, List.drop_append_of_le_length hpos, List.filterMap_append]
  cases hdrive : manualDrive cmd <;> simp [hdrive]

/-- The drive commands of a run: those of the autonomous states, then those given by hand. -/
def DrivenBy (cmds : List IrCmd) (data : StateMachineData) : Prop :=
  ∃ autonomous, data.drives = (manualDrives cmds).reverse ++ autonomous

theorem DrivenBy.command {cmds : List IrCmd} (h : DrivenBy cmds data)
    (hafter : data.state.After cmds.length) (hcmd : next.cmd ≠ IrCmd.none)
    (hi : iteration next data = .ok data') : DrivenBy (cmds ++ [next.cmd]) data' := by
  obtain ⟨history, data'', hi', hp⟩ := iteration_command hcmd data
  cases hi'.symm.trans hi
  obtain ⟨autonomous, hdrives⟩ := h
  have hmanual (hne : cmds ≠ [])
      (hdata : data'.drives = (manualDrive next.cmd).toList ++ data.drives) :
      DrivenBy (cmds ++ [next.cmd]) data' := by
    refine ⟨autonomous, ?_⟩
    rw [hdata, hdrives, manualDrives_concat _ hne, List.reverse_append, ← List.append_assoc]
    cases manualDrive next.cmd <;> rfl
  cases hp with
  | idle _ hevent | retreatStay _ hevent => simp at hevent
  | start hs =>
    change data.state = .wait at hs
    rw [hs] at hafter
    obtain rfl := List.length_eq_zero_iff.mp hafter
    exact ⟨_, rfl⟩
  | takeOver hauto =>
    change data.state.autonomous = true at hauto
    rw [State.after_autonomous hauto] at hafter
    exact hmanual (by rintro rfl; simp at hafter) rfl
  | manualCommand hs =>
    change data.state = .manual at hs
    rw [hs] at hafter
    exact hmanual (by rintro rfl; exact Nat.not_succ_le_zero 1 hafter) rfl

theorem DrivenBy.without_command {cmds : List IrCmd} (h : DrivenBy cmds data)
    (hsettled : Settled data) (hafter : data.state.After cmds.length) (hcmd : next.cmd = IrCmd.none)
    (hi : iteration next data = .ok data') : DrivenBy cmds data' := by
  obtain ⟨-, hdrives⟩ | ⟨hauto, -⟩ := hsettled.without_command hcmd hi
  · obtain ⟨autonomous, hdata⟩ := h
    exact ⟨autonomous, hdrives.trans hdata⟩
  · rw [State.after_autonomous hauto] at hafter
    have hnone : manualDrives cmds = [] := by
      rw [manualDrives, List.drop_of_length_le (by omega)]
      rfl
    exact ⟨data'.drives, by rw [hnone]; rfl⟩

theorem drivenBy_of_run (h : stateMachineRun readings = .ok data) :
    DrivenBy (consumedCmds readings) data := by
  induction readings using List.reverseRecOn generalizing data with
  | nil =>
    cases h
    exact ⟨[], rfl⟩
  | append_singleton readings next ih =>
    obtain ⟨m, hm, hi⟩ := Run.run_concat_ok.mp h
    have hafter := after_of_run hm
    rw [consumed_eq] at hafter
    rw [consumedCmds_concat]
    split
    case isTrue hcmd =>
      rw [List.append_nil]
      exact (ih hm).without_command (settled_of_run hm) hafter hcmd hi
    case isFalse hcmd => exact (ih hm).command hafter hcmd hi

end

namespace Robot

open IrRemote

def reading (r : Robot) : List IrCmd :=
  match r.phase with
  | .event _ _ cmd => [cmd]
  | .process readings _ => [readings.cmd]
  | .input | .line _ | .cmd _ _ | .halted _ _ => []

def taken (r : Robot) : List IrCmd := consumedCmds r.iterations ++ commands r.reading

def received (r : Robot) : List IrCmd := r.taken ++ commands r.ir.waiting

section

variable {r r' : Robot} {ranging : Ranging} {voltages : Qre1113Voltages}

theorem taken_input (h : r.phase = .input) : r.taken = consumedCmds r.iterations := by
  rw [taken, reading, h]
  exact List.append_nil _

theorem received_cmd (hbuffer : r.ir.BufferWf) {enemy : Enemy} {line : Line} {cmd : IrCmd}
    {rb : RingBuffer} (hphase : r.phase = .cmd enemy line)
    (hcmd : r.ir.irRemoteGetCmd = .ok (cmd, r.ir.withBuffer rb)) :
    received { r with ir := r.ir.withBuffer rb, phase := .event enemy line cmd } = r.received := by
  have htaken : taken { r with ir := r.ir.withBuffer rb, phase := .event enemy line cmd } =
      r.taken ++ commands [cmd] := by
    rw [taken, taken, reading, reading, hphase]
    exact congrArg (· ++ _) (List.append_nil _).symm
  rw [received, received, htaken, List.append_assoc, ← commands_append]
  obtain ⟨cmd', rb', hcmd', -, hwaiting⟩ := getCmd_spec hbuffer
  cases hcmd.symm.trans hcmd'
  obtain ⟨hempty, hnone, hempty'⟩ | hcons := hwaiting
  · rw [hempty, hempty', hnone]
    rfl
  · rw [hcons]
    rfl

theorem consumedCmds_process (readings : Readings) (startCnt : BitVec 32)
    (iterations : List Readings) :
    consumedCmds (iterations ++ [{ readings with startCnt }]) =
      consumedCmds iterations ++ commands [readings.cmd] := by
  rw [consumedCmds, consumedCmds, List.map_append, commands_append]
  rfl

theorem failed_cmd {readings : Readings} {event : StateEvent} {data data' : StateMachineData}
    {cnt : BitVec 32} {site : Assert} (hinput : processInput readings data = .ok (event, data'))
    (hevent : processEvent cnt event data' = .error site) : readings.cmd = IrCmd.none := by
  by_contra hcmd
  obtain ⟨history, htaken⟩ := processInput_ok hinput
  obtain ⟨rfl, rfl⟩ := htaken.of_command hcmd
  cases processEvent_error hevent with
  | noTransition hrow => simp [transition_eq_none] at hrow
  | attackState _ hnot => simp at hnot

theorem received_main (h : Inv r) (hstep : MainStep ranging voltages r r') :
    r'.received = r.received := by
  cases hstep with
  | blocked => rfl
  | cmd hphase hcmd => exact received_cmd h.buffer hphase hcmd
  | ranged hphase | line hphase | event hphase | write hphase | again hphase =>
    rw [received, received, taken, taken, reading, reading, hphase]
  | asserted hphase =>
    rw [received, received, taken, taken, reading, reading, hphase]
    rfl
  | process hphase =>
    rw [received, received, taken, taken, reading, reading, hphase]
    exact congrArg (· ++ _) ((List.append_nil _).trans (consumedCmds_process _ _ _))
  | failed hphase hevent =>
    obtain ⟨⟨_, -, hinput⟩, -⟩ := h.sound.of_process hphase
    rw [received, received, taken, taken, reading, reading, hphase]
    dsimp only
    rw [failed_cmd hinput hevent]
    rfl

theorem MainStep.enqueued (h : MainStep ranging voltages r r') :
    r'.ir.enqueued = r.ir.enqueued := by
  cases h <;> rfl

theorem step_received (h : Inv r) (event : Event) :
    (r.step event).received = r.received ∧ (r.step event).ir.enqueued = r.ir.enqueued ∨
      event = .irq .pulse ∧ ∃ cmd, (r.step event).taken = r.taken ∧
        (r.step event).ir.waiting = Fifo.push 10 r.ir.waiting cmd ∧
        (r.step event).ir.enqueued = r.ir.enqueued ++ [cmd] := by
  cases event with
  | watchdog => exact .inl ⟨rfl, rfl⟩
  | main ranging voltages =>
    have hmain := main_step h.sound h.buffer ranging voltages
    exact .inl ⟨received_main h hmain, hmain.enqueued⟩
  | irq irq =>
    obtain ⟨ir, hir, -, put, hpulse, henqueued, hwaiting⟩ := handle_spec h.buffer irq
    rw [irq_step hir]
    cases put with
    | none => exact .inl ⟨congrArg (r.taken ++ commands ·) hwaiting, by simpa using henqueued⟩
    | some cmd =>
      exact .inr ⟨by rw [hpulse (Option.some_ne_none cmd)], cmd, rfl, hwaiting, henqueued⟩

theorem boot_received {port3In : Byte} {ports : PortRegs} (h : boot port3In ports = .ok r) :
    r.received = [] ∧ r.ir.enqueued = [] := by
  obtain ⟨hir, hphase, hiterations⟩ := boot_fresh h
  rw [received, taken_input hphase, hiterations, hir, waiting_init]
  exact ⟨rfl, rfl⟩

def Room (r : Robot) (event : Event) : Prop := event = .irq .pulse → r.ir.waiting.length < 10

theorem received_sublist (h : Inv r) (hreceived : r.received.Sublist (commands r.ir.enqueued))
    (event : Event) :
    (r.step event).received.Sublist (commands (r.step event).ir.enqueued) := by
  obtain ⟨hsame, henqueued⟩ | ⟨-, cmd, htaken, hwaiting, henqueued⟩ := step_received h event
  · rwa [hsame, henqueued]
  · have hpush := (Fifo.push_suffix (n := 10) cmd (List.suffix_refl r.ir.waiting)).sublist
    rw [received, htaken, hwaiting, henqueued, commands_append]
    refine ((hpush.filter _).append_left _).trans ?_
    rw [List.filter_append, ← List.append_assoc]
    exact hreceived.append_right _

theorem received_eq (h : Inv r) (hreceived : r.received = commands r.ir.enqueued) {event : Event}
    (hroom : Room r event) :
    (r.step event).received = commands (r.step event).ir.enqueued := by
  obtain ⟨hsame, henqueued⟩ | ⟨hevent, cmd, htaken, hwaiting, henqueued⟩ := step_received h event
  · rwa [hsame, henqueued]
  · rw [received, htaken, hwaiting, henqueued, Fifo.push_of_lt (hroom hevent), commands_append,
      commands_append, ← List.append_assoc]
    exact congrArg (· ++ _) hreceived

theorem run_received {port3In : Byte} {ports : PortRegs} (hboot : boot port3In ports = .ok r)
    (events : List Event) :
    (r.run events).received.Sublist (commands (r.run events).ir.enqueued) := by
  have hboth : Inv (r.run events) ∧
      (r.run events).received.Sublist (commands (r.run events).ir.enqueued) := by
    refine Total.foldl_invariant
      (I := fun r => Inv r ∧ r.received.Sublist (commands r.ir.enqueued))
      (fun _ event h => ⟨h.1.step event, received_sublist h.1 h.2 event⟩)
      ⟨boot_inv hboot, ?_⟩ events
    rw [(boot_received hboot).1]
    exact List.nil_sublist _
  exact hboth.2

theorem run_received_eq {port3In : Byte} {ports : PortRegs} (hboot : boot port3In ports = .ok r)
    {events : List Event} (hroom : Total.Along Robot.step Room events r) :
    (r.run events).received = commands (r.run events).ir.enqueued := by
  have hboth : Inv (r.run events) ∧
      (r.run events).received = commands (r.run events).ir.enqueued := by
    refine Total.foldl_prefix_invariant (C := Room)
      (I := fun _ r => Inv r ∧ r.received = commands r.ir.enqueued) ⟨boot_inv hboot, ?_⟩
      (fun _ _ event hC h => ⟨h.1.step event, received_eq h.1 h.2 hC⟩) hroom
    rw [(boot_received hboot).1, (boot_received hboot).2]
    rfl
  exact hboth.2

theorem MainStep.waiting_suffix (h : MainStep ranging voltages r r') (hbuffer : r.ir.BufferWf) :
    r'.ir.waiting <:+ r.ir.waiting := by
  cases h with
  | cmd _ hcmd =>
    obtain ⟨_, _, hcmd', -, hwaiting⟩ := getCmd_spec hbuffer
    cases hcmd.symm.trans hcmd'
    obtain ⟨-, -, hempty⟩ | hcons := hwaiting
    · exact ⟨r.ir.waiting, by rw [hempty, List.append_nil]⟩
    · rw [hcons]
      exact List.suffix_cons _ _
  | ranged | asserted | blocked | line | event | process | failed | write | again =>
    exact List.suffix_refl _

theorem waiting_suffix (h : Inv r) (hwaiting : r.ir.waiting <:+ r.ir.enqueued) (event : Event) :
    (r.step event).ir.waiting <:+ (r.step event).ir.enqueued := by
  cases event with
  | watchdog => exact hwaiting
  | main ranging voltages =>
    have hmain := main_step h.sound h.buffer ranging voltages
    rw [hmain.enqueued]
    exact (hmain.waiting_suffix h.buffer).trans hwaiting
  | irq irq =>
    obtain ⟨ir, hir, -, put, -, henqueued, hput⟩ := handle_spec h.buffer irq
    rw [irq_step hir]
    change ir.waiting <:+ ir.enqueued
    rw [henqueued, hput]
    cases put with
    | none => simpa using hwaiting
    | some cmd => exact Fifo.push_suffix cmd hwaiting

theorem enqueued_grows (h : Inv r) (events : List Event) :
    r.ir.enqueued <+: (r.run events).ir.enqueued := by
  have hboth : Inv (r.run events) ∧ r.ir.enqueued <+: (r.run events).ir.enqueued := by
    refine Total.foldl_invariant (I := fun s => Inv s ∧ r.ir.enqueued <+: s.ir.enqueued)
      (fun s event hs => ⟨hs.1.step event, hs.2.trans ?_⟩) ⟨h, List.prefix_refl _⟩ events
    obtain ⟨-, hsame⟩ | ⟨-, cmd, -, -, hmore⟩ := step_received hs.1 event
    · exact hsame ▸ List.prefix_refl _
    · rw [hmore]
      exact List.prefix_append _ _
  exact hboth.2

theorem room_of_few {port3In : Byte} {ports : PortRegs} (hboot : boot port3In ports = .ok r)
    {events : List Event} (hfew : (r.run events).ir.enqueued.length < 10) :
    Total.Along Robot.step Room events r := by
  rintro pre event post rfl -
  have hwaiting : Inv (r.run pre) ∧ (r.run pre).ir.waiting <:+ (r.run pre).ir.enqueued := by
    refine Total.foldl_invariant (I := fun s => Inv s ∧ s.ir.waiting <:+ s.ir.enqueued)
      (fun _ event hs => ⟨hs.1.step event, waiting_suffix hs.1 hs.2 event⟩) ⟨boot_inv hboot, ?_⟩ pre
    rw [(boot_fresh hboot).1, waiting_init]
    exact List.nil_suffix
  have hrun : r.run (pre ++ event :: post) = (r.run pre).run (event :: post) := List.foldl_append
  rw [hrun] at hfew
  have hmore := (enqueued_grows hwaiting.1 (event :: post)).length_le
  exact Nat.lt_of_le_of_lt (hwaiting.2.length_le.trans hmore) hfew

/-- The robot as its user knows it: it waits for a first command, drives on its own after it, and
obeys every later one. -/
structure Shows (cmds : List IrCmd) (r : Robot) : Prop where
  waits : cmds = [] →
    r.data.state = .wait ∧ Drive.outputs r.motors = Drive.commanded fun _ => 0
  drives : cmds.length = 1 → r.data.state.autonomous = true
  obeys : 2 ≤ cmds.length → r.data.state = .manual ∧
    ∀ c ∈ (manualDrives cmds).getLast?, Drive.outputs r.motors = Drive.commanded (Drive.speedOf c)

theorem Sound.shows (h : Sound r) (hphase : r.phase = .input) : Shows r.taken r := by
  obtain ⟨hrun, hdriven⟩ := h.of_reading (hphase ▸ trivial)
  have hafter := commanded_of_run hrun
  obtain ⟨autonomous, hdrives⟩ := drivenBy_of_run hrun
  have hcount : consumed r.iterations = r.taken.length := by rw [consumed_eq, taken_input hphase]
  rw [← taken_input hphase] at hdrives
  constructor
  case waits =>
    intro hnone
    obtain ⟨hs, hempty⟩ := hafter.wait (by rw [hcount, hnone]; rfl)
    refine ⟨hs, hdriven.outputs.trans ?_⟩
    rw [speeds, motorCommand, hempty]
    rfl
  case drives =>
    intro hone
    obtain hs | hs | hs := hafter.driving (hcount.trans hone) <;> rw [hs] <;> rfl
  case obeys =>
    intro hmany
    refine ⟨hafter.manual (hmany.trans_eq hcount.symm), fun c hc => hdriven.outputs.trans ?_⟩
    rw [speeds, motorCommand, hdrives, List.head?_append, List.head?_reverse,
      Option.mem_def.mp hc]
    rfl

end

/-- The commands that the user sees obeyed are commands that the decoder has put, in their order;
they are all of them, but for those still waiting, unless ten were waiting when one came. -/
theorem remote_obeyed {port3In : Byte} (hpin : port3In.getLsbD 4 = true) (ports : PortRegs) :
    ∃ robot, boot port3In ports = .ok robot ∧ ∀ events,
      (robot.run events).received.Sublist (commands (robot.run events).ir.enqueued) ∧
      ((robot.run events).phase = .input → Shows (robot.run events).taken (robot.run events)) ∧
      (Total.Along Robot.step Room events robot →
        (robot.run events).received = commands (robot.run events).ir.enqueued) := by
  obtain ⟨robot, hboot⟩ := boot_run hpin ports
  exact ⟨robot, hboot, fun events => ⟨run_received hboot events,
    (reached_inv hboot events).sound.shows, run_received_eq hboot⟩⟩

theorem remote_obeyed_reset :
    ∃ robot, boot 0x10 PortRegs.reset = .ok robot ∧ ∀ events,
      (robot.run events).received.Sublist (commands (robot.run events).ir.enqueued) ∧
      ((robot.run events).phase = .input → Shows (robot.run events).taken (robot.run events)) ∧
      (Total.Along Robot.step Room events robot →
        (robot.run events).received = commands (robot.run events).ir.enqueued) :=
  remote_obeyed (by decide) PortRegs.reset

section

variable {r r' robot : Robot} {port3In : Byte} {ports : PortRegs} {ranging : Ranging}
  {voltages : Qre1113Voltages}

def Decodes (events : List Event) (r : Robot) : Prop :=
  ∃ ir rb, Run.run handle (irqs events) init = .ok ir ∧ r.ir = ir.withBuffer rb

theorem irqs_append (events events' : List Event) :
    irqs (events ++ events') = irqs events ++ irqs events' := List.filterMap_append

theorem MainStep.withBuffer (h : MainStep ranging voltages r r') :
    ∃ rb, r'.ir = r.ir.withBuffer rb := by
  cases h with
  | @cmd _ _ _ rb => exact ⟨rb, rfl⟩
  | ranged | asserted | blocked | line | event | process | failed | write | again =>
    exact ⟨r.ir.irCmdBuffer, rfl⟩

theorem Decodes.step {events : List Event} (h : Decodes events r) (hinv : Inv r) (event : Event) :
    Decodes (events ++ [event]) (r.step event) := by
  obtain ⟨ir, rb, hrun, hir⟩ := h
  rw [Decodes, irqs_append]
  cases event with
  | watchdog => exact ⟨ir, rb, by simpa [irqs] using hrun, hir⟩
  | main ranging voltages =>
    obtain ⟨rb', hrb⟩ := (main_step hinv.sound hinv.buffer ranging voltages).withBuffer
    refine ⟨ir, rb', by simpa [irqs] using hrun, hrb.trans ?_⟩
    rw [hir]
    rfl
  | irq irq =>
    obtain ⟨ir', hlast⟩ := run_total [irq] ir
    obtain ⟨_, hhandle, hnil⟩ := Run.run_cons_ok.mp hlast
    cases hnil
    obtain ⟨rb', hbuffer⟩ := handle_withBuffer hhandle rb
    rw [← hir] at hbuffer
    exact ⟨ir', rb', Run.run_append_ok.mpr ⟨ir, hrun, hlast⟩, by rw [irq_step hbuffer]⟩

theorem run_decodes (hboot : boot port3In ports = .ok robot) (events : List Event) :
    Decodes events (robot.run events) := by
  induction events using List.reverseRecOn with
  | nil =>
    exact ⟨init, init.irCmdBuffer, rfl, (boot_fresh hboot).1⟩
  | append_singleton events event ih =>
    have hlast : robot.run (events ++ [event]) = (robot.run events).step event := by
      rw [run, run, List.foldl_append]
      rfl
    rw [hlast]
    exact ih.step (reached_inv hboot events) event

/-- The robot waits with its motors off.  It may have halted, but only in the ranging. -/
structure Still (r : Robot) : Prop where
  wait : r.data.state = .wait
  stopped : Running r → Drive.outputs r.motors = Drive.commanded fun _ => 0
  halted (site : Assert) (writes : List PortWrite) : r.phase = .halted site writes →
    site = .vl53l0xReadRangeMultiple ∧ Off r

theorem Inv.still (h : Inv r) (hnone : consumedCmds r.iterations = []) : Still r := by
  have hconsumed : consumed r.iterations = 0 := by rw [consumed_eq, hnone]; rfl
  have hoff {data : StateMachineData} (hdriven : Driven r) (hsame : r.data.drives = data.drives)
      (hdata : data.drives = []) : Drive.outputs r.motors = Drive.commanded fun _ => 0 := by
    rw [hdriven.outputs, speeds, motorCommand, hsame, hdata]
    rfl
  cases h.sound with
  | reading hphase hrun hdriven =>
    obtain ⟨hs, hdata⟩ := (commanded_of_run hrun).wait hconsumed
    refine ⟨hs, fun _ => hoff hdriven rfl hdata, fun site writes hhalted => ?_⟩
    cases hhalted ▸ hphase
  | process hphase hrun hinput hdriven =>
    obtain ⟨hs, hdata⟩ := (commanded_of_run hrun).wait hconsumed
    obtain ⟨history, htaken⟩ := processInput_ok hinput
    refine ⟨htaken.state.trans hs, fun _ => hoff hdriven htaken.drives hdata, ?_⟩
    intro site writes hhalted
    cases hphase.symm.trans hhalted
  | asserted hphase hrun =>
    refine ⟨((commanded_of_run hrun).wait hconsumed).1, fun hrunning => ?_, ?_⟩
    · exact absurd hphase (hrunning _ _)
    · intro site writes hhalted
      cases hphase.symm.trans hhalted
      exact ⟨rfl, h.off ⟨_, _, hphase⟩⟩
  | failed _ hrun hfail =>
    have hs := ((commanded_of_run hrun).wait hconsumed).1
    obtain ⟨_, hok⟩ := (settled_of_run hrun).wait_goes_on hs _
    cases hok.symm.trans hfail

end

theorem still_before_message {port3In : Byte} (hpin : port3In.getLsbD 4 = true) (ports : PortRegs) :
    ∃ robot, boot port3In ports = .ok robot ∧
      ∀ events, (irqs events).count .pulse < 34 → Still (robot.run events) ∧
        ((∀ event ∈ events, ¬event.Asserts) → Running (robot.run events)) := by
  obtain ⟨robot, hboot⟩ := boot_run hpin ports
  refine ⟨robot, hboot, fun events hcount => ?_⟩
  have hstill : Still (robot.run events) := by
    refine (reached_inv hboot events).still ?_
    obtain ⟨ir, rb, hir, hsame⟩ := run_decodes hboot events
    have hreceived := run_received hboot events
    have henqueued : (robot.run events).ir.enqueued = [] := by
      rw [hsame]
      exact @enqueued_eq_nil _ ir hir hcount
    rw [henqueued] at hreceived
    have hnone := List.sublist_nil.mp hreceived
    rw [received, taken, List.append_assoc] at hnone
    exact (List.append_eq_nil_iff.mp hnone).1
  refine ⟨hstill, fun hends site writes hphase => ?_⟩
  obtain ⟨rfl, -⟩ := hstill.halted site writes hphase
  exact reached_ranges hboot hends writes hphase

theorem still_before_message_reset :
    ∃ robot, boot 0x10 PortRegs.reset = .ok robot ∧
      ∀ events, (irqs events).count .pulse < 34 → Still (robot.run events) ∧
        ((∀ event ∈ events, ¬event.Asserts) → Running (robot.run events)) :=
  still_before_message (by decide) PortRegs.reset

theorem messages_obeyed {port3In : Byte} {ports : PortRegs} {robot : Robot}
    (hboot : boot port3In ports = .ok robot) {messages : List Message}
    (hspaced : Message.Spaced 0 messages) {events : List Event}
    (hirqs : irqs events = messages.flatMap Message.irqs)
    (hroom : Total.Along Robot.step Room events robot)
    (hphase : (robot.run events).phase = .input)
    (hempty : (robot.run events).ir.waiting = []) :
    Shows (commands (messages.flatMap Message.commands)) (robot.run events) := by
  obtain ⟨ir, rb, hir, hsame⟩ := run_decodes hboot events
  obtain ⟨ir', hir', henqueued⟩ :=
    messages_run (restarts_of_silent List.not_mem_nil 0) hspaced (rfl : _ = Except.ok init)
  rw [hirqs] at hir
  cases hir'.symm.trans hir
  have hshows := (reached_inv hboot events).sound.shows hphase
  have hreceived := run_received_eq hboot hroom
  have hall : (robot.run events).ir.enqueued = messages.flatMap Message.commands := by
    rw [hsame]
    exact henqueued
  rw [received, hempty, hall] at hreceived
  rwa [← hreceived, commands, List.filter_nil, List.append_nil]

def leftKey : Message := pressed 0x00001000 [] (inside_codedGaps _)

def startThenLeft : List Event :=
  [startKey, leftKey].flatMap fun key => key.irqs.map .irq ++ iterationOf noLine

theorem messages_obeyed_left :
    ∃ robot, boot 0x10 PortRegs.reset = .ok robot ∧
      Shows [IrCmd.up, IrCmd.left] (robot.run startThenLeft) := by
  have hspaced : Message.Spaced 0 [startKey, leftKey] := ⟨Nat.zero_le _, by decide, trivial⟩
  have hrun : ∃ robot, boot 0x10 PortRegs.reset = .ok robot ∧
      (robot.run startThenLeft).ir.enqueued.length < 10 ∧
      (robot.run startThenLeft).phase = .input ∧
      (robot.run startThenLeft).ir.irCmdBuffer.toList = [] := by
    refine ⟨_, rfl, ?_⟩
    decide +kernel
  obtain ⟨robot, hboot, hfew, hphase, hempty⟩ := hrun
  exact ⟨robot, hboot, messages_obeyed hboot hspaced (by decide +kernel) (room_of_few hboot hfew)
    hphase (by rw [waiting, hempty]; rfl)⟩

end Robot

end Nsumo.App
