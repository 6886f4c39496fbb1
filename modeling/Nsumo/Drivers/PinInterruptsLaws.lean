import Nsumo.Drivers.IoLaws
import Nsumo.Drivers.IrRemoteLaws
import Nsumo.Drivers.PinInterrupts

namespace Nsumo.Drivers.PinSystem

open Common Lib Io IoRegs

/-- Between calls of `ir_remote_get_cmd`, with `isr_pulse` registered for its own pin only. -/
structure Ready (s : PinSystem) : Prop where
  main : s.main = .outside
  isr : s.isr = none
  pulses : s.pulses = []
  registered (io : Io) : s.regs.isrFunction io = some .isrPulse → place io = place irRemote

/-- In the guarded part, the port of the pin is only served while the flag of the pin is clear, and
no edge sets that flag before it is tested. -/
def Spared (event : Event) (s : PinSystem) : Prop :=
  s.main ≠ .outside →
    (event = .vector .port2 → s.regs.flagged irRemote = false) ∧
    ∀ io, event = .edge io → s.isr = some ⟨irRemote, io27, .test⟩ → place io ≠ place irRemote

structure Inv (s : PinSystem) : Prop where
  range (isr : PortIsr) : s.isr = some isr →
    isr.last = io17 ∧ isr.io ≤ io17 ∨ isr.last = io27 ∧ io20 ≤ isr.io ∧ isr.io ≤ io27
  spared (isr : PortIsr) : s.isr = some isr → s.main ≠ .outside → isr.io = irRemote →
    isr = ⟨irRemote, io27, .test⟩ ∧ s.regs.flagged irRemote = false
  registered (io : Io) : s.regs.isrFunction io = some .isrPulse → place io = place irRemote
  pulses : ∀ main ∈ s.pulses, main = .outside

theorem Ready.inv {s : PinSystem} (h : Ready s) : Inv s where
  range isr hisr := by simp [h.isr] at hisr
  spared isr hisr := by simp [h.isr] at hisr
  registered := h.registered
  pulses := by simp [h.pulses]

theorem place_irRemote : ∀ io : Io, io ≤ io27 → place io = place irRemote → io = irRemote := by
  decide

section

variable {s t : PinSystem}

theorem Inv.edge (h : Inv s) {io : Io} (hc : Spared (.edge io) s) :
    Inv { s with regs := s.regs.edge io } where
  range := h.range
  registered := h.registered
  pulses := h.pulses
  spared isr hisr hmain hio := by
    obtain ⟨rfl, hflag⟩ := h.spared isr hisr hmain hio
    have hne := (hc hmain).2 io rfl hisr
    exact ⟨rfl, by rw [flagged_edge, hflag, decide_eq_false (Ne.symm hne)]; rfl⟩

theorem Inv.vector (h : Inv s) {port : IoPort} (hc : Spared (.vector port) s) :
    Inv { s with isr := ioPortVector port } where
  registered := h.registered
  pulses := h.pulses
  range isr hisr := by
    cases port with
    | port1 => cases hisr; decide
    | port2 => cases hisr; decide
    | port3 => cases hisr
  spared isr hisr hmain hio := by
    cases port with
    | port1 => cases hisr; cases hio
    | port2 => cases hisr; exact ⟨rfl, (hc hmain).1 rfl⟩
    | port3 => cases hisr

theorem nextPin_eq_some {isr isr' : PortIsr} (h : nextPin isr = some isr') :
    isr.io ≠ isr.last ∧ isr' = ⟨isr.io + 1, isr.last, .test⟩ := by
  unfold nextPin at h
  split at h
  case isTrue => cases h
  case isFalse hne => exact ⟨hne, (Option.some.inj h).symm⟩

theorem Inv.next (h : Inv s) {isr : PortIsr} (hisr : s.isr = some isr) {regs : IoRegs PinIsr}
    (hregs : regs.isrFunctions = s.regs.isrFunctions) :
    Inv { s with regs := regs, isr := nextPin isr } where
  registered io hio := h.registered io (by rwa [isrFunction, hregs] at hio)
  pulses := h.pulses
  range isr' hisr' := by
    obtain ⟨hne, rfl⟩ := nextPin_eq_some hisr'
    obtain ⟨hlast, hio⟩ | ⟨hlast, hio⟩ := h.range isr hisr
    · exact .inl ⟨hlast, by rw [hlast] at hne; bv_omega⟩
    · exact .inr ⟨hlast, by rw [hlast] at hne; bv_omega⟩
  spared isr' hisr' _ hio := by
    obtain ⟨hne, rfl⟩ := nextPin_eq_some hisr'
    obtain ⟨hlast, hrange⟩ | ⟨hlast, hrange⟩ := h.range isr hisr
    · rw [hlast] at hne
      bv_omega
    · bv_omega

theorem Inv.outside_of_call (h : Inv s) {isr : PortIsr} (hisr : s.isr = some isr)
    (hphase : isr.phase = .call) (hio : isr.io = irRemote) : s.main = .outside := by
  by_contra hmain
  obtain ⟨rfl, -⟩ := h.spared isr hisr hmain hio
  cases hphase

theorem Inv.callIsr (h : Inv s) {isr : PortIsr} (hisr : s.isr = some isr)
    (hphase : isr.phase = .call)
    (ht : callIsr isr.io { s with isr := some { isr with phase := .clear } } = .ok t) : Inv t := by
  have hrange : ∀ isr', some { isr with phase := IsrPhase.clear } = some isr' →
      isr'.last = io17 ∧ isr'.io ≤ io17 ∨ isr'.last = io27 ∧ io20 ≤ isr'.io ∧ isr'.io ≤ io27 := by
    rintro _ ⟨⟩
    exact h.range isr hisr
  unfold PinSystem.callIsr at ht
  split at ht
  case h_1 hfun =>
    obtain ⟨ir, -, hok⟩ := Run.bind_ok.mp ht
    cases hok
    have hle : isr.io ≤ io27 := by
      obtain ⟨-, hio⟩ | ⟨-, hio⟩ := h.range isr hisr <;> bv_omega
    have hmain := h.outside_of_call hisr hphase
      (place_irRemote isr.io hle (h.registered isr.io hfun))
    refine ⟨hrange, fun _ _ hne => absurd hmain hne, h.registered, ?_⟩
    intro main hmem
    obtain rfl | hmem := List.mem_cons.mp hmem
    · exact hmain
    · exact h.pulses main hmem
  all_goals
    cases ht
    refine ⟨hrange, ?_, h.registered, h.pulses⟩
    rintro _ ⟨⟩ hmain hio
    exact absurd (h.outside_of_call hisr hphase hio) hmain

theorem Inv.stepIsr (h : Inv s) {isr : PortIsr} (hisr : s.isr = some isr)
    (ht : stepIsr isr s = .ok t) : Inv t := by
  unfold PinSystem.stepIsr at ht
  cases hphase : isr.phase with
  | call =>
    rw [hphase] at ht
    exact h.callIsr hisr hphase ht
  | clear =>
    rw [hphase] at ht
    cases ht
    exact h.next hisr rfl
  | test =>
    rw [hphase] at ht
    cases ht
    cases hflag : s.regs.flagged isr.io with
    | false => exact h.next hisr rfl
    | true =>
      refine ⟨?_, ?_, h.registered, h.pulses⟩
      · rintro _ ⟨⟩
        exact h.range isr hisr
      · rintro _ ⟨⟩ hmain hio
        obtain ⟨rfl, hclear⟩ := h.spared isr hisr hmain hio
        exact absurd hflag (by rw [hclear]; decide)

theorem Inv.stepMain (h : Inv s) (hisr : s.isr = none) (ht : stepMain s = .ok t) : Inv t := by
  have hnone (t : PinSystem) (hisr' : t.isr = none) (hregs : t.regs.isrFunctions = s.regs.isrFunctions)
      (hpulses : t.pulses = s.pulses) : Inv t := by
    refine ⟨by simp [hisr'], by simp [hisr'], ?_, by rw [hpulses]; exact h.pulses⟩
    intro io hio
    exact h.registered io (by rwa [isrFunction, hregs] at hio)
  cases hmain : s.main with
  | outside | check | enable =>
    rw [PinSystem.stepMain, hmain] at ht
    cases ht
    exact hnone _ hisr rfl rfl
  | get =>
    rw [PinSystem.stepMain, hmain] at ht
    obtain ⟨_, -, hok⟩ := Run.bind_ok.mp ht
    cases hok
    exact hnone _ hisr rfl rfl

theorem Inv.step (h : Inv s) {event : Event} (hc : Spared event s) (ht : step event s = .ok t) :
    Inv t := by
  cases event with
  | edge io =>
    cases ht
    exact h.edge hc
  | vector port =>
    cases ht
    split
    case isTrue => exact h.vector hc
    case isFalse => exact h
  | timer =>
    cases ht
    split
    case isTrue => exact ⟨h.range, h.spared, h.registered, h.pulses⟩
    case isFalse => exact h
  | isr =>
    cases hisr : s.isr with
    | none =>
      rw [PinSystem.step, hisr] at ht
      cases ht
      exact h
    | some isr =>
      rw [PinSystem.step, hisr] at ht
      exact h.stepIsr hisr ht
  | main =>
    rw [PinSystem.step] at ht
    split at ht
    case isTrue hisr => exact h.stepMain hisr ht
    case isFalse =>
      cases ht
      exact h

end

section

variable {s : PinSystem}

theorem callIsr_ok (io : Io) (s : PinSystem) :
    ∃ t, callIsr io s = .ok t ∧ t.regs = s.regs ∧ t.isr = s.isr ∧ t.main = s.main := by
  unfold callIsr
  split
  case h_1 =>
    obtain ⟨ir, hir, -⟩ := s.ir.isrPulse_spec
    exact ⟨_, congrArg (· >>= _) hir, rfl, rfl, rfl⟩
  all_goals exact ⟨s, rfl, rfl, rfl, rfl⟩

theorem step_isr {isr : PortIsr} (h : s.isr = some isr) : step .isr s = stepIsr isr s := by
  rw [step, h]

theorem pin_steps {io last : Io} (h : s.isr = some ⟨io, last, .test⟩) :
    ∃ k t, Run.run step (List.replicate k .isr) s = .ok t ∧
      t.regs = (ioIsr io (s.regs, [])).1 ∧ t.isr = nextPin ⟨io, last, .test⟩ ∧ t.main = s.main := by
  cases hflag : s.regs.flagged io with
  | false =>
    have htest : step .isr s = .ok { s with isr := nextPin ⟨io, last, .test⟩ } := by
      simp [step_isr h, stepIsr, hflag]
    exact ⟨1, _, Run.run_cons_ok.mpr ⟨_, htest, rfl⟩, by simp [ioIsr, hflag], rfl, rfl⟩
  | true =>
    have htest : step .isr s = .ok { s with isr := some ⟨io, last, .call⟩ } := by
      simp [step_isr h, stepIsr, hflag]
    obtain ⟨t, hcall, hregs, hisr, hmain⟩ := callIsr_ok io { s with isr := some ⟨io, last, .clear⟩ }
    have hclear : step .isr t = .ok { t with
        regs := ioClearInterrupt io t.regs, isr := nextPin ⟨io, last, .test⟩ } := step_isr hisr
    refine ⟨3, _, Run.run_cons_ok.mpr ⟨_, htest, Run.run_cons_ok.mpr ⟨_, hcall,
      Run.run_cons_ok.mpr ⟨_, hclear, rfl⟩⟩⟩, ?_, rfl, hmain⟩
    simp [ioIsr, hflag, hregs]

theorem isr_steps {io last : Io} {n : Nat} (hn : last.toNat = io.toNat + n)
    (h : s.isr = some ⟨io, last, .test⟩) :
    ∃ k t, Run.run step (List.replicate k .isr) s = .ok t ∧
      t.regs = ((pins io last).foldl (fun called io => ioIsr io called) (s.regs, [])).1 ∧
      t.isr = none ∧ t.main = s.main := by
  induction n generalizing io s with
  | zero =>
    obtain rfl : last = io := BitVec.eq_of_toNat_eq hn
    obtain ⟨k, t, hrun, hregs, hisr, hmain⟩ := pin_steps h
    exact ⟨k, t, hrun, by rw [hregs, pins_self]; rfl, by rw [hisr, nextPin, if_pos rfl], hmain⟩
  | succ n ih =>
    obtain ⟨k, m, hrun, hregs, hisr, hmain⟩ := pin_steps h
    have hne : io ≠ last := by
      rintro rfl
      omega
    rw [nextPin, if_neg hne] at hisr
    have hlt := last.isLt
    have hnext : last.toNat = (io + 1).toNat + n := by
      rw [BitVec.toNat_add, Nat.mod_eq_of_lt (by simp; omega)]
      simp
      omega
    obtain ⟨k', t, hrun', hregs', hnone, hmain'⟩ := ih hnext hisr
    refine ⟨k + k', t, ?_, ?_, hnone, hmain'.trans hmain⟩
    · rw [List.replicate_add]
      exact Run.run_append_ok.mpr ⟨m, hrun, hrun'⟩
    · rw [hregs', hregs, pins_succ hn, List.foldl_cons, ← foldl_ioIsr_regs _ _ (ioIsr io (s.regs, [])).2]

theorem isrPort2_steps (h : s.isr = ioPortVector .port2) :
    ∃ k t, Run.run step (List.replicate k .isr) s = .ok t ∧ t.regs = (isrPort2 s.regs).1 ∧
      t.isr = none ∧ t.main = s.main :=
  isr_steps (n := 7) rfl h

theorem isrPort1_steps (h : s.isr = ioPortVector .port1) :
    ∃ k t, Run.run step (List.replicate k .isr) s = .ok t ∧ t.regs = (isrPort1 s.regs).1 ∧
      t.isr = none ∧ t.main = s.main :=
  isr_steps (n := 7) rfl h

end

theorem start_ready {hw : HwType} {s : PinSystem} (h : start hw = .ok s) : Ready s := by
  obtain ⟨regs, hir, h⟩ := Run.bind_ok.mp h
  obtain ⟨regs', hfront, h⟩ := Run.bind_ok.mp h
  cases h
  refine ⟨rfl, rfl, rfl, fun io hio => ?_⟩
  have hregs' := isrFunction_configure hfront io
  have hregs := isrFunction_configure hir io
  change regs'.isrFunction io = some .isrPulse at hio
  change _ = if _ then _ else regs.isrFunction io at hregs'
  rw [hregs', hregs] at hio
  split at hio
  case isTrue => cases hio
  case isFalse =>
    split at hio
    case isTrue hplace => exact hplace
    case isFalse => cases hio

theorem isr_guarded {η : Type} (regs : IoRegs η) :
    ((regs.CallsEnabled (isrPort1 regs).2 ↔ regs.FlagsEnabled io10 io17) ∧
      (regs.CallsEnabled (isrPort2 regs).2 ↔ regs.FlagsEnabled io20 io27)) ∧
    ∀ s events t, Ready s → Run.Along step Spared events s → Run.run step events s = .ok t →
      ∀ main ∈ t.pulses, main = .outside :=
  ⟨⟨isrPort1_callsEnabled_iff regs, isrPort2_callsEnabled_iff regs⟩,
    fun _ _ _ hready hspared hrun =>
      (Run.run_invariant_along (fun _ _ _ hc hinv ht => hinv.step hc ht) hspared hready.inv
        hrun).pulses⟩

theorem isr_guarded_served :
    ∃ t, start .nsumo >>= Run.run step
        [.main, .edge irRemote, .main, .main, .vector .port2, .isr, .isr] = .ok t ∧
      t.pulses = [.outside] ∧ ∀ main ∈ t.pulses, main = .outside := by
  have hrun : ∃ s t, start .nsumo = .ok s ∧ Run.run step
      [.main, .edge irRemote, .main, .main, .vector .port2, .isr, .isr] s = .ok t ∧
      t.pulses = [.outside] := ⟨_, _, rfl, rfl, rfl⟩
  obtain ⟨s, t, hstart, hrun, hpulses⟩ := hrun
  refine ⟨t, by rw [hstart]; exact hrun, hpulses,
    (isr_guarded s.regs).2 s _ t (start_ready hstart) ?_ hrun⟩
  cases hstart
  refine (Run.along_cons rfl).mpr ⟨fun _ => ⟨nofun, nofun⟩, ?_⟩
  refine (Run.along_cons rfl).mpr ⟨fun _ => ⟨nofun, fun _ _ h => nomatch h⟩, ?_⟩
  refine (Run.along_cons rfl).mpr ⟨fun _ => ⟨nofun, nofun⟩, ?_⟩
  refine (Run.along_cons rfl).mpr ⟨fun _ => ⟨nofun, nofun⟩, ?_⟩
  refine (Run.along_cons rfl).mpr ⟨fun hmain => absurd rfl hmain, ?_⟩
  refine (Run.along_cons rfl).mpr ⟨fun _ => ⟨nofun, nofun⟩, ?_⟩
  exact (Run.along_cons rfl).mpr ⟨fun _ => ⟨nofun, nofun⟩, Run.along_nil _⟩

theorem isr_unguarded :
    (¬∀ regs : IoRegs PinIsr, regs.CallsEnabled (isrPort2 regs).2) ∧
      ∃ s t, start .nsumo = .ok s ∧
        Run.run step [.main, .edge irRemote, .edge (rangeSensorFrontInt .nsumo), .vector .port2,
          .isr, .isr] s = .ok t ∧ t.pulses = [.check] := by
  refine ⟨fun h => ?_, _, _, rfl, rfl, rfl⟩
  let regs : IoRegs PinIsr := ⟨fun _ => 1, fun _ => 0, fun _ => 0, fun _ _ => some .isrPulse⟩
  have hmem : irRemote ∈ (isrPort2 regs).2 := by decide
  exact absurd (h regs irRemote hmem).2 (by decide)

end Nsumo.Drivers.PinSystem
