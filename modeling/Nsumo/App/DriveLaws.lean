import Nsumo.App.Drive
import Nsumo.Drivers.IoConfigLaws
import Nsumo.Drivers.PwmLaws

namespace Nsumo.App.Drive

open Common Drivers Lib Lib.Run Motors PortRegs

@[ext] structure MotorOutputs : Type where
  ccPins : Tb6612fng → IoConfig × IoConfig
  outputMode : Tb6612fng → Word
  runMode : Word
  compare : Tb6612fng → Option Word

def outputs (m : Motors) : MotorOutputs where
  ccPins tb := (ioGetCurrentConfig (tb6612fngCcPins tb).cc1 m.ports,
    ioGetCurrentConfig (tb6612fngCcPins tb).cc2 m.ports)
  outputMode tb := (m.pwm.pwmCfgs tb.pwm).cctl
  runMode := m.pwm.ta0ctl &&& timerMcMask
  compare tb :=
    if (m.pwm.pwmCfgs tb.pwm).enabled then some (m.pwm.pwmCfgs tb.pwm).ccr else none

def speedOf : DriveCommand → Tb6612fng → Int
  | .set direction speed, .left => (driveSpeeds direction speed).1
  | .set direction speed, .right => (driveSpeeds direction speed).2
  | .stop, _ => 0

def modeOf (speed : Int) : Tb6612fngMode := if speed = 0 then .stop else mode speed

def duty (speed : Int) : Byte := BitVec.ofNat 8 speed.natAbs

def ccOuts : Tb6612fngMode → IoOut × IoOut
  | .stop => (.low, .low)
  | .forward => (.high, .low)
  | .reverse => (.low, .high)

def commanded (speeds : Tb6612fng → Int) : MotorOutputs where
  ccPins tb := ({ ccIoConfig with out := (ccOuts (modeOf (speeds tb))).1 },
    { ccIoConfig with out := (ccOuts (modeOf (speeds tb))).2 })
  outputMode tb := outmod (decide (0 < duty (speeds tb)))
  runMode := runMode (decide (0 < duty (speeds .left)) || decide (0 < duty (speeds .right)))
  compare tb :=
    if 0 < duty (speeds tb) then
      some ((PwmState.pwmScaleDutyCycle (duty (speeds tb))).setWidth 16)
    else
      none

/-- Both kinds of command are one: the modes of the motors, then their duty cycles. -/
def apply (speeds : Tb6612fng → Int) (m : Motors) : Except Assert Motors := do
  let m := tb6612fngSetMode .left (modeOf (speeds .left)) m
  let m := tb6612fngSetMode .right (modeOf (speeds .right)) m
  let m ← tb6612fngSetPwm .left (duty (speeds .left)) m
  tb6612fngSetPwm .right (duty (speeds .right)) m

theorem step_eq (c : DriveCommand) : step c = apply (speedOf c) := by
  funext m
  cases c with
  | stop => rfl
  | set direction speed => cases direction <;> cases speed <;> rfl

theorem duty_le (c : DriveCommand) (tb : Tb6612fng) : duty (speedOf c tb) ≤ 100 := by
  cases c with
  | stop => cases tb <;> decide
  | set direction speed => cases direction <;> cases speed <;> cases tb <;> decide

structure Ready (m : Motors) : Prop where
  pwm : m.pwm.Consistent
  cc1 (tb : Tb6612fng) :
    ∃ out, ioGetCurrentConfig (tb6612fngCcPins tb).cc1 m.ports = { ccIoConfig with out }
  cc2 (tb : Tb6612fng) :
    ∃ out, ioGetCurrentConfig (tb6612fngCcPins tb).cc2 m.ports = { ccIoConfig with out }

theorem setMode_ports (tb : Tb6612fng) (mode : Tb6612fngMode) (m : Motors) :
    (tb6612fngSetMode tb mode m).ports =
      ioSetOut (tb6612fngCcPins tb).cc2 (ccOuts mode).2
        (ioSetOut (tb6612fngCcPins tb).cc1 (ccOuts mode).1 m.ports) := by
  cases mode <;> rfl

theorem setMode_pwm (tb : Tb6612fng) (mode : Tb6612fngMode) (m : Motors) :
    (tb6612fngSetMode tb mode m).pwm = m.pwm := by
  cases mode <;> rfl

def modePorts (speeds : Tb6612fng → Int) (m : Motors) : PortRegs :=
  (tb6612fngSetMode .right (modeOf (speeds .right))
    (tb6612fngSetMode .left (modeOf (speeds .left)) m)).ports

variable {m : Motors}

theorem withOut_eq {config config' : IoConfig} (h : ∃ out, config = { config' with out })
    (out : IoOut) : { config with out } = { config' with out } := by
  obtain ⟨out', rfl⟩ := h
  rfl

theorem modePorts_ccPins (h : Ready m) (speeds : Tb6612fng → Int) (tb : Tb6612fng) :
    (ioGetCurrentConfig (tb6612fngCcPins tb).cc1 (modePorts speeds m),
      ioGetCurrentConfig (tb6612fngCcPins tb).cc2 (modePorts speeds m)) =
      (commanded speeds).ccPins tb := by
  rw [modePorts, setMode_ports, setMode_ports]
  cases tb with
  | left =>
    rw [getCurrentConfig_setOut_of_ne (by decide), getCurrentConfig_setOut_of_ne (by decide),
      getCurrentConfig_setOut_of_ne (by decide), getCurrentConfig_setOut,
      getCurrentConfig_setOut_of_ne (by decide), getCurrentConfig_setOut_of_ne (by decide),
      getCurrentConfig_setOut, getCurrentConfig_setOut_of_ne (by decide), withOut_eq (h.cc1 .left),
      withOut_eq (h.cc2 .left)]
    rfl
  | right =>
    rw [getCurrentConfig_setOut_of_ne (by decide), getCurrentConfig_setOut,
      getCurrentConfig_setOut_of_ne (by decide), getCurrentConfig_setOut_of_ne (by decide),
      getCurrentConfig_setOut, getCurrentConfig_setOut_of_ne (by decide),
      getCurrentConfig_setOut_of_ne (by decide), getCurrentConfig_setOut_of_ne (by decide),
      withOut_eq (h.cc1 .right), withOut_eq (h.cc2 .right)]
    rfl

theorem setPwm_run {tb : Tb6612fng} {dutyCycle : Byte} {pwm : PwmState}
    (hrun : m.pwm.pwmSetDutyCycle tb.pwm dutyCycle = .ok pwm) :
    tb6612fngSetPwm tb dutyCycle m = .ok { m with pwm } := by
  rw [tb6612fngSetPwm, hrun]
  rfl

def channelFor (speed : Int) (old : Word) : PwmChannelCfg :=
  PwmState.channelCfg (decide (0 < duty speed))
    (if 0 < duty speed then (PwmState.pwmScaleDutyCycle (duty speed)).setWidth 16 else old)

theorem pwmCfgs_channelFor {s t u : PwmState} {speeds : Tb6612fng → Int} {left right : Word}
    (ht : t.pwmCfgs =
      Function.update s.pwmCfgs Pwm.tb6612fngLeft (channelFor (speeds .left) left))
    (hu : u.pwmCfgs =
      Function.update t.pwmCfgs Pwm.tb6612fngRight (channelFor (speeds .right) right))
    (tb : Tb6612fng) : ∃ old, u.pwmCfgs tb.pwm = channelFor (speeds tb) old := by
  cases tb with
  | left =>
    refine ⟨left, ?_⟩
    rw [hu, ht]
    rfl
  | right =>
    refine ⟨right, ?_⟩
    rw [hu]
    rfl

theorem compare_channelFor (speed : Int) (old : Word) :
    (if (channelFor speed old).enabled then some (channelFor speed old).ccr else none) =
      if 0 < duty speed then
        some ((PwmState.pwmScaleDutyCycle (duty speed)).setWidth 16)
      else
        none := by
  rw [channelFor, PwmState.channelCfg]
  by_cases hpos : 0 < duty speed
  · rw [decide_eq_true hpos, if_pos hpos, if_pos hpos, if_pos rfl]
  · rw [decide_eq_false hpos, if_neg hpos, if_neg hpos, if_neg Bool.false_ne_true]

theorem runMode_and_mask (running : Bool) :
    (tassel2 + id3 + runMode running) &&& timerMcMask = runMode running := by
  cases running <;> rfl

theorem apply_run (h : Ready m) {speeds : Tb6612fng → Int}
    (hduty : ∀ tb, duty (speeds tb) ≤ 100) :
    ∃ m', apply speeds m = .ok m' ∧ Ready m' ∧ outputs m' = commanded speeds := by
  obtain ⟨s, hs, hconsistent, hleft⟩ := h.pwm.setDutyCycle .tb6612fngLeft (hduty .left)
  obtain ⟨t, ht, hready, hright⟩ := hconsistent.setDutyCycle .tb6612fngRight (hduty .right)
  have hchannel := pwmCfgs_channelFor hleft hright
  have hports := modePorts_ccPins h speeds
  have hrun : apply speeds m = .ok { tb6612fngSetMode .right (modeOf (speeds .right))
      (tb6612fngSetMode .left (modeOf (speeds .left)) m) with pwm := t } := by
    rw [← setMode_pwm .left (modeOf (speeds .left)), ← setMode_pwm .right (modeOf (speeds .right))]
      at hs
    rw [apply, @setPwm_run _ .left _ _ hs]
    exact @setPwm_run _ .right _ _ ht
  refine ⟨_, hrun, ⟨hready, fun tb => ⟨_, congrArg Prod.fst (hports tb)⟩,
    fun tb => ⟨_, congrArg Prod.snd (hports tb)⟩⟩, MotorOutputs.ext (funext hports) ?_ ?_ ?_⟩
  · funext tb
    obtain ⟨old, hold⟩ := hchannel tb
    change (t.pwmCfgs tb.pwm).cctl = _
    rw [hold]
    rfl
  · obtain ⟨old, hold⟩ := hchannel .left
    obtain ⟨old', hold'⟩ := hchannel .right
    have henabled : t.pwmEnabled =
        (decide (0 < duty (speeds .left)) || decide (0 < duty (speeds .right))) := by
      rw [hready.enabled, PwmState.pwmAllChannelsDisabled]
      simp only [List.all_cons, List.all_nil, Bool.and_true, Bool.not_and, Bool.not_not]
      exact congrArg₂ _ (congrArg PwmChannelCfg.enabled hold) (congrArg PwmChannelCfg.enabled hold')
    change t.ta0ctl &&& timerMcMask = _
    rw [hready.ta0ctl, runMode_and_mask, henabled]
    rfl
  · funext tb
    obtain ⟨old, hold⟩ := hchannel tb
    change (if (t.pwmCfgs tb.pwm).enabled then some (t.pwmCfgs tb.pwm).ccr else none) = _
    rw [hold]
    exact compare_channelFor (speeds tb) old

theorem step_run (h : Ready m) (c : DriveCommand) :
    ∃ m', step c m = .ok m' ∧ Ready m' ∧ outputs m' = commanded (speedOf c) := by
  rw [step_eq]
  exact apply_run h (duty_le c)

theorem run_ready (h : Ready m) (commands : List DriveCommand) :
    ∃ m', run step commands m = .ok m' ∧ Ready m' := by
  induction commands generalizing m with
  | nil => exact ⟨m, rfl, h⟩
  | cons c commands ih =>
    obtain ⟨m', hc, hready, -⟩ := step_run h c
    obtain ⟨n, hrun, hn⟩ := ih hready
    exact ⟨n, run_cons_ok.mpr ⟨m', hc, hrun⟩, hn⟩

/-- The outputs have no memory, and the timer runs for the enabled channels only. -/
structure Memoryless (init : Motors) : Prop where
  last (commands : List DriveCommand) (c : DriveCommand) :
    ∃ m m', run step (commands ++ [c]) init = .ok m ∧ run step [c] init = .ok m' ∧
      outputs m = outputs m'
  running (commands : List DriveCommand) : ∃ m, run step commands init = .ok m ∧
    (m.pwm.ta0ctl &&& timerMcMask = mc1 ↔ ∃ tb : Tb6612fng, (m.pwm.pwmCfgs tb.pwm).enabled = true) ∧
    ∀ tb : Tb6612fng, (m.pwm.pwmCfgs tb.pwm).Valid

theorem assertConfig_ok {site : Assert} {config : IoConfig} {io : Io}
    (h : assertConfig site config m io = .ok ()) : ioGetCurrentConfig io m.ports = config := by
  rw [assertConfig] at h
  cases hcompare : ioConfigCompare (ioGetCurrentConfig io m.ports) config with
  | true => exact ioConfigCompare_iff.mp hcompare
  | false =>
    rw [hcompare] at h
    cases h

theorem pwmInit_ok {m' : Motors} (h : pwmInit m = .ok m') : m' = { m with
    pwm := { m.pwm with
      ta0ctl := PwmState.written (tassel2 + id3 + mc0)
      ta0ccr0 := pwmTa0ccr0
      initialized := true } } := by
  obtain ⟨-, -, h⟩ := bind_ok.mp h
  obtain ⟨-, -, h⟩ := bind_ok.mp h
  obtain ⟨-, -, h⟩ := bind_ok.mp h
  cases h
  rfl

theorem written_stopped :
    PwmState.written (tassel2 + id3 + mc0) = tassel2 + id3 + runMode false := by
  decide

theorem driveInit_ready {ports : PortRegs} {init : Motors}
    (h : driveInit (Motors.reset ports) = .ok init) : Ready init := by
  obtain ⟨-, -, h⟩ := bind_ok.mp h
  obtain ⟨-, -, h⟩ := bind_ok.mp h
  obtain ⟨_, hconfig, h⟩ := bind_ok.mp h
  obtain ⟨m, hinit, h⟩ := bind_ok.mp h
  obtain ⟨_, hleft1, hconfig⟩ := bind_ok.mp hconfig
  obtain ⟨_, hleft2, hconfig⟩ := bind_ok.mp hconfig
  obtain ⟨_, hright1, hright2⟩ := bind_ok.mp hconfig
  rw [pwmInit_ok hinit] at h
  cases h
  refine ⟨⟨fun pwm => ⟨rfl, nofun⟩, written_stopped, rfl⟩, fun tb => ⟨.low, ?_⟩, fun tb => ⟨.low, ?_⟩⟩
  · cases tb with
    | left => exact assertConfig_ok hleft1
    | right => exact assertConfig_ok hright1
  · cases tb with
    | left => exact assertConfig_ok hleft2
    | right => exact assertConfig_ok hright2

theorem assertConfig_run {site : Assert} {config : IoConfig} {io : Io}
    (h : ioGetCurrentConfig io m.ports = config) : assertConfig site config m io = .ok () := by
  rw [assertConfig, ioConfigCompare_iff.mpr h]
  rfl

theorem driveInit_run {ports : PortRegs}
    (h : ∀ io : Io, io.toNat < 24 → ioGetCurrentConfig io ports = ioInitialConfigs io) :
    ∃ init, driveInit (Motors.reset ports) = .ok init := by
  have hconfig {io : Io} {config : IoConfig} (site : Assert) (hio : io.toNat < 24)
      (hsame : ioInitialConfigs io = config) :
      assertConfig site config (Motors.reset ports) io = .ok () :=
    assertConfig_run ((h io hio).trans hsame)
  have hpins : tb6612fngAssertIoCfg (Motors.reset ports) = .ok () := by
    rw [tb6612fngAssertIoCfg, hconfig _ (by decide) (by decide), hconfig _ (by decide) (by decide),
      hconfig _ (by decide) (by decide), hconfig _ (by decide) (by decide)]
    rfl
  have hpwm : ∃ m, pwmInit (Motors.reset ports) = .ok m := by
    rw [pwmInit, hconfig _ (by decide) (by decide), hconfig _ (by decide) (by decide)]
    exact ⟨_, rfl⟩
  obtain ⟨m, hpwm⟩ := hpwm
  have hinit : driveInit (Motors.reset ports) = tb6612fngInit (Motors.reset ports) := rfl
  rw [hinit, tb6612fngInit, hpins, hpwm]
  exact ⟨_, rfl⟩

theorem driveInit_outputs {ports : PortRegs} {init : Motors}
    (h : driveInit (Motors.reset ports) = .ok init) : outputs init = commanded fun _ => 0 := by
  obtain ⟨-, -, h⟩ := bind_ok.mp h
  obtain ⟨-, -, h⟩ := bind_ok.mp h
  obtain ⟨_, hconfig, h⟩ := bind_ok.mp h
  obtain ⟨m, hinit, h⟩ := bind_ok.mp h
  obtain ⟨_, hleft1, hconfig⟩ := bind_ok.mp hconfig
  obtain ⟨_, hleft2, hconfig⟩ := bind_ok.mp hconfig
  obtain ⟨_, hright1, hright2⟩ := bind_ok.mp hconfig
  rw [pwmInit_ok hinit] at h
  cases h
  refine MotorOutputs.ext (funext fun tb => ?_) rfl ?_ rfl
  · cases tb with
    | left => exact Prod.ext (assertConfig_ok hleft1) (assertConfig_ok hleft2)
    | right => exact Prod.ext (assertConfig_ok hright1) (assertConfig_ok hright2)
  · change PwmState.written (tassel2 + id3 + mc0) &&& timerMcMask = _
    rw [written_stopped, runMode_and_mask]
    rfl

theorem timer_runs_iff (h : m.pwm.Consistent) :
    m.pwm.ta0ctl &&& timerMcMask = mc1 ↔
      ∃ tb : Tb6612fng, (m.pwm.pwmCfgs tb.pwm).enabled = true := by
  have hmode : runMode m.pwm.pwmEnabled = mc1 ↔ m.pwm.pwmEnabled = true := by
    cases m.pwm.pwmEnabled <;> decide
  rw [h.ta0ctl, runMode_and_mask, hmode, h.running_iff]
  constructor
  · rintro ⟨pwm, hpwm⟩
    cases pwm with
    | tb6612fngLeft => exact ⟨.left, hpwm⟩
    | tb6612fngRight => exact ⟨.right, hpwm⟩
  · rintro ⟨tb, htb⟩
    exact ⟨tb.pwm, htb⟩

theorem run_last_outputs (h : Ready m) (commands : List DriveCommand) (c : DriveCommand) :
    ∃ m', run step (commands ++ [c]) m = .ok m' ∧ outputs m' = commanded (speedOf c) := by
  obtain ⟨n, hrun, hn⟩ := run_ready h commands
  obtain ⟨m', hc, -, houtputs⟩ := step_run hn c
  exact ⟨m', run_concat_ok.mpr ⟨n, hrun, hc⟩, houtputs⟩

theorem motor_outputs_memoryless {ports : PortRegs} {init : Motors}
    (h : driveInit (Motors.reset ports) = .ok init) : Memoryless init where
  last commands c := by
    obtain ⟨m, hrun, houtputs⟩ := run_last_outputs (driveInit_ready h) commands c
    obtain ⟨m', hrun', houtputs'⟩ := run_last_outputs (driveInit_ready h) [] c
    exact ⟨m, m', hrun, hrun', houtputs.trans houtputs'.symm⟩
  running commands := by
    obtain ⟨m, hrun, hready⟩ := run_ready (driveInit_ready h) commands
    exact ⟨m, hrun, timer_runs_iff hready.pwm, fun tb => hready.pwm.channels tb.pwm⟩

theorem motor_outputs_memoryless_boot :
    ∃ init, driveInit (Motors.reset (ioConfigureAll PortRegs.reset)) = .ok init ∧
      Memoryless init := by
  obtain ⟨init, h⟩ : ∃ init, driveInit (Motors.reset (ioConfigureAll PortRegs.reset)) = .ok init :=
    ⟨_, rfl⟩
  exact ⟨init, h, motor_outputs_memoryless h⟩

end Nsumo.App.Drive
