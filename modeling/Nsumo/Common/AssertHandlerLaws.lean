import Nsumo.Common.AssertHandler
import Nsumo.Drivers.IoCallLaws

namespace Nsumo.Common

open Drivers Drivers.Io Drivers.PortRegs Lib

theorem testPin_togglePin (io io' : Io) (regs : IoPort → Byte) :
    testPin io' (togglePin io regs) = (testPin io' regs ^^ decide (place io' = place io)) := by
  rw [testPin_eq, testPin_eq, togglePin]
  by_cases hport : ioPort io' = ioPort io
  · simp only [hport, Function.update_self, ioPinBit, BitVec.getLsbD_xor, Mask.getLsbD_bit, place]
    simp [ioPinIdx_lt, eq_comm]
  · simp [hport, place]

namespace BitOp

theorem testPin_run_of_ne {io io' : Io} (hplace : place io' ≠ place io) (regs : IoPort → Byte)
    (op : BitOp) : testPin io' (op.run io regs) = testPin io' regs := by
  cases op with
  | clear => exact testPin_clearPin_of_ne hplace regs
  | set => exact testPin_setPin_of_ne hplace regs
  | toggle =>
    rw [BitOp.run, testPin_togglePin, decide_eq_false hplace]
    exact Bool.xor_false _

end BitOp

namespace AssertHandler

variable {io : Io} {regs : PortRegs}

theorem after_append (writes writes' : List PortWrite) (regs : PortRegs) :
    after (writes ++ writes') regs = after writes' (after writes regs) :=
  List.foldl_append

structure DrivenLow (io : Io) (regs : PortRegs) : Prop where
  select : (ioGetCurrentConfig io regs).select = .gpio
  dir : (ioGetCurrentConfig io regs).dir = .output
  out : (ioGetCurrentConfig io regs).out = .low

theorem drivenLow_iff : DrivenLow io regs ↔
    testPin io regs.portSel1Regs = false ∧ testPin io regs.portSel2Regs = false ∧
      testPin io regs.portDirRegs = true ∧ testPin io regs.portOutRegs = false := by
  rw [testPin_sel1, testPin_sel2, testPin_dir, testPin_out]
  constructor
  · intro h
    simp [h.select, h.dir, h.out]
  · intro ⟨hsel1, hsel2, hdir, hout⟩
    refine ⟨?_, of_decide_eq_true hdir, ?_⟩
    · cases hselect : (ioGetCurrentConfig io regs).select <;> simp [hselect] at hsel1 hsel2 ⊢
    · cases hlow : (ioGetCurrentConfig io regs).out <;> simp [hlow] at hout ⊢

theorem gpioOutputLow_drivenLow (io : Io) (regs : PortRegs) :
    DrivenLow io (after (gpioOutputLow io) regs) :=
  drivenLow_iff.mpr ⟨testPin_clearPin_self io _, testPin_clearPin_self io _,
    testPin_setPin_self io _, testPin_clearPin_self io _⟩

def Keeps (io : Io) (w : PortWrite) : Prop := place io ≠ place w.io ∨ w ∈ gpioOutputLow w.io

instance (io : Io) (w : PortWrite) : Decidable (Keeps io w) :=
  inferInstanceAs (Decidable (_ ∨ _))

theorem DrivenLow.run {w : PortWrite} (h : DrivenLow io regs) (hw : Keeps io w) :
    DrivenLow io (w.run regs) := by
  rw [drivenLow_iff] at h ⊢
  obtain ⟨hsel1, hsel2, hdir, hout⟩ := h
  obtain ⟨reg, op, io'⟩ := w
  obtain hplace | hmem := hw
  · have hbit := fun r => BitOp.testPin_run_of_ne hplace r op
    cases reg with
    | sel => exact ⟨(hbit _).trans hsel1, hsel2, hdir, hout⟩
    | sel2 => exact ⟨hsel1, (hbit _).trans hsel2, hdir, hout⟩
    | dir => exact ⟨hsel1, hsel2, (hbit _).trans hdir, hout⟩
    | ren => exact ⟨hsel1, hsel2, hdir, hout⟩
    | out => exact ⟨hsel1, hsel2, hdir, (hbit _).trans hout⟩
  · have hclear : ∀ r, testPin io r = false → testPin io (clearPin io' r) = false := by
      intro r hr
      rw [testPin_clearPin, hr, Bool.false_and]
    have hset : ∀ r, testPin io r = true → testPin io (setPin io' r) = true := by
      intro r hr
      rw [testPin_setPin, hr, Bool.true_or]
    simp only [gpioOutputLow, List.mem_cons, PortWrite.mk.injEq, List.not_mem_nil, or_false,
      and_true] at hmem
    obtain ⟨rfl, rfl⟩ | ⟨rfl, rfl⟩ | ⟨rfl, rfl⟩ | ⟨rfl, rfl⟩ | ⟨rfl, rfl⟩ := hmem
    · exact ⟨hclear _ hsel1, hsel2, hdir, hout⟩
    · exact ⟨hsel1, hclear _ hsel2, hdir, hout⟩
    · exact ⟨hsel1, hsel2, hset _ hdir, hout⟩
    · exact ⟨hsel1, hsel2, hdir, hout⟩
    · exact ⟨hsel1, hsel2, hdir, hclear _ hout⟩

theorem DrivenLow.after {writes : List PortWrite} (h : DrivenLow io regs)
    (hkeep : ∀ w ∈ writes, Keeps io w) : DrivenLow io (after writes regs) := by
  induction writes generalizing regs with
  | nil => exact h
  | cons w writes ih =>
    rw [List.forall_mem_cons] at hkeep
    exact ih (h.run hkeep.1) hkeep.2

theorem keeps_gpioOutputLow (io io' : Io) : ∀ w ∈ gpioOutputLow io', Keeps io w := by
  intro w hw
  have hio : w.io = io' := by
    simp only [gpioOutputLow, List.mem_cons, List.not_mem_nil, or_false] at hw
    obtain rfl | rfl | rfl | rfl | rfl := hw <;> rfl
  exact .inr (hio.symm ▸ hw)

theorem drivenLow_flatMap {ios : List Io} (hmem : io ∈ ios) (regs : PortRegs) :
    DrivenLow io (after (ios.flatMap gpioOutputLow) regs) := by
  obtain ⟨pre, post, rfl⟩ := List.append_of_mem hmem
  rw [List.flatMap_append, List.flatMap_cons, after_append, after_append]
  apply (gpioOutputLow_drivenLow io _).after
  intro w hw
  obtain ⟨io', -, hw⟩ := List.mem_flatMap.mp hw
  exact keeps_gpioOutputLow io io' w hw

theorem assertStopMotors_drivenLow {hw : HwType} (hmem : io ∈ motorPins hw) (regs : PortRegs) :
    DrivenLow io (after assertStopMotors regs) := by
  have hlisted : ∀ hw, motorPins hw ⊆ [p26, p21, p22, p24, p25, p27, p37, p35, p36] := by
    intro hw
    cases hw <;> decide
  exact drivenLow_flatMap (hlisted hw hmem) regs

def rest (n : Nat) : List PortWrite := assertTrace ++ assertBlinkLed n

theorem mem_rest {n : Nat} {w : PortWrite} (h : w ∈ rest n) :
    w ∈ assertTrace ∨ w ∈ gpioOutputLow p10 ∨ w ∈ gpioOutputLow p26 ∨ n ≠ 0 ∧ w ∈ blink := by
  simp only [rest, assertBlinkLed, List.mem_append, List.mem_flatten, List.mem_replicate] at h
  obtain h | (h | h) | ⟨_, ⟨hn, rfl⟩, h⟩ := h
  · exact .inl h
  · exact .inr (.inl h)
  · exact .inr (.inr (.inl h))
  · exact .inr (.inr (.inr ⟨hn, h⟩))

theorem rest_keeps {hw : HwType} {n : Nat} (hcond : hw = .nsumo ∨ n = 0) (hmem : io ∈ motorPins hw) :
    ∀ w ∈ rest n, Keeps io w := by
  intro w hw'
  obtain h | h | h | ⟨hn, h⟩ := mem_rest hw'
  · have htrace : ∀ hw, ∀ io ∈ motorPins hw, ∀ w ∈ assertTrace, Keeps io w := by
      intro hw
      cases hw <;> decide
    exact htrace hw io hmem w h
  · exact keeps_gpioOutputLow io p10 w h
  · exact keeps_gpioOutputLow io p26 w h
  · obtain rfl := hcond.resolve_right hn
    have hblink : ∀ io ∈ motorPins .nsumo, ∀ w ∈ blink, Keeps io w := by decide
    exact hblink io hmem w h

def MotorsStayOff (hw : HwType) (n : Nat) (regs : PortRegs) : Prop :=
  ∀ writes, writes <+: rest n → ∀ io ∈ motorPins hw,
    DrivenLow io (after writes (after assertStopMotors regs))

theorem blink_not_drivenLow (h : DrivenLow p26 regs) : ¬ DrivenLow p26 (after blink regs) := by
  intro hblink
  have hlow := (drivenLow_iff.mp h).2.2.2
  have hhigh : testPin p26 (togglePin p26 (togglePin p10 regs.portOutRegs)) = false :=
    (drivenLow_iff.mp hblink).2.2.2
  rw [testPin_togglePin, testPin_togglePin, hlow] at hhigh
  exact absurd hhigh (by decide)

/-- The LED of the one board is the PWM pin of the other. -/
theorem launchpad_not_motorsStayOff (n : Nat) (regs : PortRegs) :
    ¬ MotorsStayOff .launchpad (n + 1) regs := by
  intro h
  have hwrites : assertTrace ++ (gpioOutputLow p10 ++ gpioOutputLow p26 ++ blink) <+:
      rest (n + 1) := by
    refine ⟨(List.replicate n blink).flatten, ?_⟩
    rw [rest, assertBlinkLed, List.replicate_succ, List.flatten_cons, List.append_assoc,
      List.append_assoc (gpioOutputLow p10 ++ gpioOutputLow p26)]
  have hlow := h _ hwrites p26 (by decide)
  rw [after_append, after_append, after_append] at hlow
  exact blink_not_drivenLow (gpioOutputLow_drivenLow p26 _) hlow

theorem motorsStayOff_iff (hw : HwType) (n : Nat) (regs : PortRegs) :
    MotorsStayOff hw n regs ↔ hw = .nsumo ∨ n = 0 := by
  constructor
  · intro h
    cases hw with
    | nsumo => exact .inl rfl
    | launchpad =>
      cases n with
      | zero => exact .inr rfl
      | succ n => exact absurd h (launchpad_not_motorsStayOff n regs)
  · intro hcond writes hwrites io hmem
    apply (assertStopMotors_drivenLow hmem regs).after
    intro w hw'
    exact rest_keeps hcond hmem w (hwrites.subset hw')

theorem launchpad_pwm_blinks : ¬ MotorsStayOff .launchpad 1 reset :=
  launchpad_not_motorsStayOff 0 reset

end AssertHandler

end Nsumo.Common
