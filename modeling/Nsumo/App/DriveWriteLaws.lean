import Nsumo.App.DriveLaws

namespace Nsumo.App.Drive

open Common Drivers Lib Io Motors PortRegs

inductive MotorWrite : Type
  | setOut (io : Io) (out : IoOut)
  | setPwm (tb : Tb6612fng) (dutyCycle : Byte)
  deriving DecidableEq

def MotorWrite.run : MotorWrite → Motors → Except Assert Motors
  | .setOut io out, m => .ok { m with ports := ioSetOut io out m.ports }
  | .setPwm tb dutyCycle, m => tb6612fngSetPwm tb dutyCycle m

def modeWrites (tb : Tb6612fng) (mode : Tb6612fngMode) : List MotorWrite :=
  [.setOut (tb6612fngCcPins tb).cc1 (ccOuts mode).1,
    .setOut (tb6612fngCcPins tb).cc2 (ccOuts mode).2]

def writes (speeds : Tb6612fng → Int) : List MotorWrite :=
  modeWrites .left (modeOf (speeds .left)) ++ modeWrites .right (modeOf (speeds .right)) ++
    [.setPwm .left (duty (speeds .left)), .setPwm .right (duty (speeds .right))]

def pins (tb : Tb6612fng) (m : Motors) : IoOut × IoOut :=
  ((ioGetCurrentConfig (tb6612fngCcPins tb).cc1 m.ports).out,
    (ioGetCurrentConfig (tb6612fngCcPins tb).cc2 m.ports).out)

def lastSpeeds (commands : List DriveCommand) : Tb6612fng → Int :=
  (commands.getLast?).elim (fun _ => 0) speedOf

/-- What the pins of a motor can be while its speed changes. -/
inductive Passing (old new : Int) : IoOut × IoOut → Prop
  | before : Passing old new (ccOuts (modeOf old))
  | braking : old < 0 → 0 < new → Passing old new (.high, .high)
  | coasting : 0 < old → new < 0 → Passing old new (.low, .low)
  | after : Passing old new (ccOuts (modeOf new))

section

variable {m m' : Motors} {tb : Tb6612fng} {speeds : Tb6612fng → Int} {pre : List MotorWrite}

theorem run_writes (speeds : Tb6612fng → Int) (m : Motors) :
    Run.run MotorWrite.run (writes speeds) m = apply speeds m := by
  have hmode (tb : Tb6612fng) (mode : Tb6612fngMode) (m : Motors) :
      Run.run MotorWrite.run (modeWrites tb mode) m = .ok (tb6612fngSetMode tb mode m) := by
    cases mode <;> rfl
  rw [writes, Run.run_append, Run.run_append, hmode]
  change (Run.run MotorWrite.run (modeWrites .right _) _).bind _ = _
  rw [hmode, apply]
  change Run.run MotorWrite.run [.setPwm .left _, .setPwm .right _] _ = _
  rw [Run.run_cons]
  change (tb6612fngSetPwm .left _ _).bind _ = (tb6612fngSetPwm .left _ _).bind _
  refine congrArg _ (funext fun m => ?_)
  change (tb6612fngSetPwm .right _ _).bind _ = _
  cases tb6612fngSetPwm .right (duty (speeds .right)) m <;> rfl

def Spares (tb : Tb6612fng) (w : MotorWrite) : Prop :=
  ∀ m m', w.run m = .ok m' → pins tb m' = pins tb m

theorem spares_setPwm (tb tb' : Tb6612fng) (dutyCycle : Byte) :
    Spares tb (.setPwm tb' dutyCycle) := by
  intro m m' h
  obtain ⟨_, -, h⟩ := Run.bind_ok.mp h
  cases h
  rfl

theorem spares_modeWrites {tb tb' : Tb6612fng} (hne : tb ≠ tb') (mode : Tb6612fngMode) :
    ∀ w ∈ modeWrites tb' mode, Spares tb w := by
  have hplace : ∀ tb tb', tb ≠ tb' →
      ∀ io ∈ [(tb6612fngCcPins tb').cc1, (tb6612fngCcPins tb').cc2],
        place (tb6612fngCcPins tb).cc1 ≠ place io ∧ place (tb6612fngCcPins tb).cc2 ≠ place io := by
    intro tb tb' hne
    cases tb <;> cases tb' <;> first | exact absurd rfl hne | decide
  have hspares {io : Io} (out : IoOut)
      (hio : io ∈ [(tb6612fngCcPins tb').cc1, (tb6612fngCcPins tb').cc2]) :
      Spares tb (.setOut io out) := by
    rintro m _ ⟨⟩
    obtain ⟨hcc1, hcc2⟩ := hplace tb tb' hne io hio
    rw [pins, getCurrentConfig_setOut_of_ne hcc1, getCurrentConfig_setOut_of_ne hcc2]
    rfl
  intro w hw
  obtain rfl | rfl : w = _ ∨ w = _ := by simpa [modeWrites] using hw
  · exact hspares _ (by simp)
  · exact hspares _ (by simp)

theorem pins_spared (hspares : ∀ w ∈ pre, Spares tb w)
    (hrun : Run.run MotorWrite.run pre m = .ok m') : pins tb m' = pins tb m := by
  induction pre generalizing m with
  | nil =>
    cases hrun
    rfl
  | cons w pre ih =>
    obtain ⟨n, hw, hrun⟩ := Run.run_cons_ok.mp hrun
    rw [ih (fun w hw => hspares w (List.mem_cons_of_mem _ hw)) hrun]
    exact hspares w List.mem_cons_self m n hw

theorem writes_around (speeds : Tb6612fng → Int) (tb : Tb6612fng) :
    ∃ before after, writes speeds = before ++ modeWrites tb (modeOf (speeds tb)) ++ after ∧
      before.length ≤ 2 ∧ (∀ w ∈ before, Spares tb w) ∧ ∀ w ∈ after, Spares tb w := by
  have hduties : ∀ w ∈ [MotorWrite.setPwm .left (duty (speeds .left)),
      MotorWrite.setPwm .right (duty (speeds .right))], Spares tb w := by
    intro w hw
    obtain rfl | rfl : w = _ ∨ w = _ := by simpa using hw
    · exact spares_setPwm _ _ _
    · exact spares_setPwm _ _ _
  cases tb with
  | left =>
    refine ⟨[], modeWrites .right _ ++ _, List.append_assoc .., Nat.zero_le _, nofun, ?_⟩
    intro w hw
    obtain hw | hw := List.mem_append.mp hw
    · exact spares_modeWrites (by decide) _ w hw
    · exact hduties w hw
  | right =>
    exact ⟨modeWrites .left _, _, rfl, Nat.le_refl 2, spares_modeWrites (by decide) _, hduties⟩

theorem pins_setCc1 (tb : Tb6612fng) (out : IoOut) (m : Motors) :
    pins tb { m with ports := ioSetOut (tb6612fngCcPins tb).cc1 out m.ports } =
      (out, (pins tb m).2) := by
  have hne : place (tb6612fngCcPins tb).cc2 ≠ place (tb6612fngCcPins tb).cc1 := by
    cases tb <;> decide
  rw [pins, getCurrentConfig_setOut, getCurrentConfig_setOut_of_ne hne]
  rfl

theorem pins_setCc2 (tb : Tb6612fng) (out : IoOut) (m : Motors) :
    pins tb { m with ports := ioSetOut (tb6612fngCcPins tb).cc2 out m.ports } =
      ((pins tb m).1, out) := by
  have hne : place (tb6612fngCcPins tb).cc1 ≠ place (tb6612fngCcPins tb).cc2 := by
    cases tb <;> decide
  rw [pins, getCurrentConfig_setOut, getCurrentConfig_setOut_of_ne hne]
  rfl

theorem pins_part (hpre : pre <+: writes speeds) (hrun : Run.run MotorWrite.run pre m = .ok m') :
    pins tb m' = pins tb m ∨ pins tb m' = ((ccOuts (modeOf (speeds tb))).1, (pins tb m).2) ∨
      pins tb m' = ccOuts (modeOf (speeds tb)) := by
  obtain ⟨before, after, hwrites, -, hbefore, hafter⟩ := writes_around speeds tb
  rw [hwrites, List.append_assoc] at hpre
  obtain hpre' | ⟨rest, rfl⟩ := List.prefix_or_prefix_of_prefix hpre (List.prefix_append before _)
  · exact .inl (pins_spared (fun w hw => hbefore w (hpre'.subset hw)) hrun)
  · obtain ⟨n, hn, hrest⟩ := Run.run_append_ok.mp hrun
    have hrest' := (List.prefix_append_right_inj before).mp hpre
    rw [← pins_spared hbefore hn]
    obtain rfl | ⟨rest, rfl, hone⟩ := List.prefix_cons_iff.mp hrest'
    · cases hrest
      exact .inl rfl
    obtain rfl | ⟨rest, rfl, htwo⟩ := List.prefix_cons_iff.mp hone
    · cases hrest
      exact .inr (.inl (pins_setCc1 ..))
    · refine .inr (.inr ((pins_spared (fun w hw => hafter w (htwo.subset hw)) hrest).trans ?_))
      rw [pins_setCc2, pins_setCc1]

theorem setOuts_part (hpre : pre <+: writes speeds) (hlength : pre.length ≤ 4) :
    ∀ w ∈ pre, ∃ io out, w = .setOut io out := by
  have hmodes : pre <+: modeWrites .left (modeOf (speeds .left)) ++
      modeWrites .right (modeOf (speeds .right)) :=
    List.prefix_of_prefix_length_le hpre (List.prefix_append _ _) hlength
  intro w hw
  obtain hmem | hmem := List.mem_append.mp (hmodes.subset hw)
  all_goals
    obtain rfl | rfl : w = _ ∨ w = _ := by simpa [modeWrites] using hmem
    all_goals exact ⟨_, _, rfl⟩

theorem run_setOuts (houts : ∀ w ∈ pre, ∃ io out, w = .setOut io out) (m : Motors) :
    ∃ m', Run.run MotorWrite.run pre m = .ok m' ∧ m'.pwm = m.pwm := by
  induction pre generalizing m with
  | nil => exact ⟨m, rfl, rfl⟩
  | cons w pre ih =>
    obtain ⟨io, out, rfl⟩ := houts w List.mem_cons_self
    obtain ⟨m', hrun, hpwm⟩ := ih (fun w hw => houts w (List.mem_cons_of_mem _ hw))
      { m with ports := ioSetOut io out m.ports }
    exact ⟨m', Run.run_cons_ok.mpr ⟨_, rfl, hrun⟩, hpwm⟩

theorem modeOf_neg {speed : Int} (h : speed < 0) : modeOf speed = .reverse := by
  rw [modeOf, if_neg (by omega), mode, if_neg (by omega)]

theorem modeOf_pos {speed : Int} (h : 0 < speed) : modeOf speed = .forward := by
  rw [modeOf, if_neg (by omega), mode, if_pos h]

theorem passing_between (old new : Int) :
    Passing old new ((ccOuts (modeOf new)).1, (ccOuts (modeOf old)).2) := by
  have hbefore := @Passing.before old new
  have hafter := @Passing.after old new
  obtain hnew | rfl | hnew := Int.lt_trichotomy new 0
  · rw [modeOf_neg hnew]
    obtain hold | rfl | hold := Int.lt_trichotomy old 0
    · rw [modeOf_neg hold] at hbefore ⊢
      exact hbefore
    · exact hbefore
    · rw [modeOf_pos hold]
      exact .coasting hold hnew
  · obtain hold | rfl | hold := Int.lt_trichotomy old 0
    · rw [modeOf_neg hold] at hbefore ⊢
      exact hbefore
    · exact hbefore
    · rw [modeOf_pos hold]
      exact hafter
  · rw [modeOf_pos hnew] at hafter ⊢
    obtain hold | rfl | hold := Int.lt_trichotomy old 0
    · rw [modeOf_neg hold]
      exact .braking hold hnew
    · exact hafter
    · rw [modeOf_pos hold]
      exact hafter

end

theorem run_outputs {ports : PortRegs} {init : Motors}
    (h : driveInit (Motors.reset ports) = .ok init) (commands : List DriveCommand) :
    ∃ m, Run.run step commands init = .ok m ∧ Ready m ∧
      outputs m = commanded (lastSpeeds commands) := by
  obtain rfl | ⟨commands, c, rfl⟩ := List.eq_nil_or_concat commands
  · exact ⟨init, rfl, driveInit_ready h, driveInit_outputs h⟩
  · rw [List.concat_eq_append]
    obtain ⟨m, hm, hready⟩ := run_ready (driveInit_ready h) commands
    obtain ⟨m', hm', hready', houtputs⟩ := step_run hready c
    refine ⟨m', Run.run_concat_ok.mpr ⟨m, hm, hm'⟩, hready', houtputs.trans ?_⟩
    rw [lastSpeeds, List.getLast?_concat]
    rfl

theorem pins_commanded {speeds : Tb6612fng → Int} {m : Motors} (h : outputs m = commanded speeds)
    (tb : Tb6612fng) : pins tb m = ccOuts (modeOf (speeds tb)) :=
  congrArg (fun configs : IoConfig × IoConfig => (configs.1.out, configs.2.out))
    (congrFun (congrArg MotorOutputs.ccPins h) tb)

/-- The pins of a motor during the writes of a command.  Both are high only on the way from reverse to
forward, where the duty cycle is still the one of the command before. -/
structure During (old new : Tb6612fng → Int) (m : Motors) : Prop where
  passing (tb : Tb6612fng) {pre : List MotorWrite} {m' : Motors} : pre <+: writes new →
    Run.run MotorWrite.run pre m = .ok m' → Passing (old tb) (new tb) (pins tb m')
  duty {pre : List MotorWrite} {m' : Motors} : pre <+: writes new → pre.length ≤ 4 →
    Run.run MotorWrite.run pre m = .ok m' → m'.pwm = m.pwm
  braked (tb : Tb6612fng) : (∃ pre m', pre <+: writes new ∧ pre.length ≤ 4 ∧
    Run.run MotorWrite.run pre m = .ok m' ∧ pins tb m' = (.high, .high)) ↔ old tb < 0 ∧ 0 < new tb

theorem passing_high {old new : Int} (h : Passing old new (.high, .high)) : old < 0 ∧ 0 < new := by
  have hnot (mode : Tb6612fngMode) : ccOuts mode ≠ (.high, .high) := by cases mode <;> decide
  generalize hpins : (IoOut.high, IoOut.high) = outs at h
  cases h with
  | before | after => exact absurd hpins.symm (hnot _)
  | braking hold hnew => exact ⟨hold, hnew⟩
  | coasting => cases hpins

section

variable {old new : Tb6612fng → Int} {m m' : Motors} {tb : Tb6612fng} {pre : List MotorWrite}

theorem passing_part (h : outputs m = commanded old) (hpre : pre <+: writes new)
    (hrun : Run.run MotorWrite.run pre m = .ok m') : Passing (old tb) (new tb) (pins tb m') := by
  obtain hpins | hpins | hpins := @pins_part m m' tb new pre hpre hrun
  · rw [hpins, pins_commanded h]
    exact .before
  · rw [hpins, pins_commanded h]
    exact passing_between _ _
  · rw [hpins]
    exact .after

theorem braked_part (h : outputs m = commanded old) (hold : old tb < 0) (hnew : 0 < new tb) :
    ∃ pre m', pre <+: writes new ∧ pre.length ≤ 4 ∧ Run.run MotorWrite.run pre m = .ok m' ∧
      pins tb m' = (.high, .high) := by
  obtain ⟨before, after, hwrites, hlength, hbefore, -⟩ := writes_around new tb
  have hpre : before ++ [.setOut (tb6612fngCcPins tb).cc1 (ccOuts (modeOf (new tb))).1] <+:
      writes new := by
    rw [hwrites, List.append_assoc]
    exact (List.prefix_append_right_inj before).mpr ⟨_, rfl⟩
  have hshort : (before ++ [MotorWrite.setOut (tb6612fngCcPins tb).cc1
      (ccOuts (modeOf (new tb))).1]).length ≤ 4 := by
    rw [List.length_append, List.length_singleton]
    omega
  obtain ⟨m', hrun, -⟩ := run_setOuts (setOuts_part hpre hshort) m
  refine ⟨_, m', hpre, hshort, hrun, ?_⟩
  obtain ⟨n, hn, hlast⟩ := Run.run_append_ok.mp hrun
  cases hlast
  rw [pins_setCc1, pins_spared hbefore hn, pins_commanded h, modeOf_neg hold, modeOf_pos hnew]
  rfl

theorem during (h : outputs m = commanded old) : During old new m where
  passing _ _ _ := passing_part h
  duty hpre hlength hrun := by
    obtain ⟨m', hrun', hpwm⟩ := run_setOuts (setOuts_part hpre hlength) m
    cases hrun.symm.trans hrun'
    exact hpwm
  braked tb := by
    constructor
    · rintro ⟨pre, m', hpre, -, hrun, hpins⟩
      have hpassing := @passing_part old new m m' tb pre h hpre hrun
      rw [hpins] at hpassing
      exact passing_high hpassing
    · rintro ⟨hold, hnew⟩
      exact braked_part h hold hnew

end

theorem pins_during {ports : PortRegs} {init : Motors}
    (h : driveInit (Motors.reset ports) = .ok init) (commands : List DriveCommand)
    (c : DriveCommand) :
    ∃ m, Run.run step commands init = .ok m ∧
      Run.run MotorWrite.run (writes (speedOf c)) m = step c m ∧
      During (lastSpeeds commands) (speedOf c) m := by
  obtain ⟨m, hm, -, houtputs⟩ := run_outputs h commands
  exact ⟨m, hm, by rw [run_writes, step_eq], during houtputs⟩

theorem pins_during_boot :
    ∃ init m, driveInit (Motors.reset (ioConfigureAll PortRegs.reset)) = .ok init ∧
      Run.run step [.set .rotateLeft .fast] init = .ok m ∧
      Run.run MotorWrite.run (writes (speedOf (.set .forward .fast))) m =
        step (.set .forward .fast) m ∧
      During (lastSpeeds [.set .rotateLeft .fast]) (speedOf (.set .forward .fast)) m := by
  obtain ⟨init, h⟩ : ∃ init, driveInit (Motors.reset (ioConfigureAll PortRegs.reset)) = .ok init :=
    ⟨_, rfl⟩
  obtain ⟨m, hm⟩ := pins_during h [.set .rotateLeft .fast] (.set .forward .fast)
  exact ⟨init, m, h, hm⟩

end Nsumo.App.Drive
