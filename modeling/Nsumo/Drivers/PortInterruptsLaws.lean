import Nsumo.Drivers.PinInterruptsLaws
import Nsumo.Drivers.PortInterrupts

namespace Nsumo.Drivers.PortSystem

open Common Lib Io IoRegs PinSystem

variable {η : Type} {s : PortSystem η} {io : Io}

def callCnt (io : Io) (s : PortSystem η) : Nat := s.calls.countP fun io' => place io' = place io

/-- The function of the pin runs, or has returned with the flag not cleared yet. -/
def Serving (io : Io) (s : PortSystem η) : Prop :=
  ∃ isr, s.isr = some isr ∧ isr.phase = .clear ∧ place isr.io = place io

/-- However the run goes on after an edge on the pin, its flag stays set until its function is
called again. -/
def Kept (io : Io) (s : PortSystem η) : Prop :=
  ∀ events, ((s.stepPort (.edge io)).runPort events).regs.flagged io = true ∨
    callCnt io s < callCnt io ((s.stepPort (.edge io)).runPort events)

theorem isrFunction_congr {io' : Io} (h : place io = place io') (regs : IoRegs η) :
    regs.isrFunction io = regs.isrFunction io' := by
  obtain ⟨hport, hidx⟩ := Prod.mk.inj h
  rw [isrFunction, isrFunction, hport, hidx]

theorem stepPort_isrFunctions (s : PortSystem η) (event : PortEvent) :
    (s.stepPort event).regs.isrFunctions = s.regs.isrFunctions := by
  cases event with
  | edge io => rfl
  | vector port =>
    rw [stepPort]
    split <;> rfl
  | isr =>
    rw [stepPort]
    cases s.isr with
    | none => rfl
    | some isr =>
      rw [Option.elim_some, stepPin]
      cases isr.phase <;> rfl
  | enable io | disable io =>
    rw [stepPort]
    split <;> rfl

theorem stepPort_isrFunction (s : PortSystem η) (event : PortEvent) (io : Io) :
    (s.stepPort event).regs.isrFunction io = s.regs.isrFunction io :=
  congrFun (congrFun (stepPort_isrFunctions s event) _) _

theorem pin_statements {last : Io} (h : s.isr = some ⟨io, last, .test⟩) :
    ∃ k, s.runPort (List.replicate k .isr) =
      ⟨(ioIsr io (s.regs, s.calls)).1, nextPin ⟨io, last, .test⟩,
        (ioIsr io (s.regs, s.calls)).2⟩ := by
  cases hflag : s.regs.flagged io with
  | false => exact ⟨1, by simp [runPort, stepPort, h, stepPin, ioIsr, hflag]⟩
  | true => exact ⟨3, by simp [runPort, List.replicate, stepPort, h, stepPin, ioIsr, hflag]; rfl⟩

theorem port_statements {last : Io} {n : Nat} (hn : last.toNat = io.toNat + n)
    (h : s.isr = some ⟨io, last, .test⟩) :
    ∃ k, s.runPort (List.replicate k .isr) =
      ⟨((pins io last).foldl (fun called io => ioIsr io called) (s.regs, s.calls)).1, none,
        ((pins io last).foldl (fun called io => ioIsr io called) (s.regs, s.calls)).2⟩ := by
  induction n generalizing io s with
  | zero =>
    obtain rfl : last = io := BitVec.eq_of_toNat_eq hn
    obtain ⟨k, hrun⟩ := pin_statements h
    refine ⟨k, ?_⟩
    rw [hrun, pins_self, nextPin, if_pos rfl]
    rfl
  | succ n ih =>
    obtain ⟨k, hrun⟩ := pin_statements h
    have hne : io ≠ last := by
      rintro rfl
      omega
    have hnext : last.toNat = (io + 1).toNat + n := by
      have hlt := last.isLt
      rw [BitVec.toNat_add, Nat.mod_eq_of_lt (by simp; omega)]
      simp
      omega
    rw [nextPin, if_neg hne] at hrun
    obtain ⟨k', hrest⟩ := ih hnext (congrArg PortSystem.isr hrun)
    refine ⟨k + k', ?_⟩
    rw [List.replicate_add, runPort, List.foldl_append, pins_succ hn, List.foldl_cons]
    rw [hrun] at hrest
    exact (congrArg (List.foldl stepPort · _) hrun).trans hrest

theorem port1_statements (regs : IoRegs η) :
    ∃ k, runPort ⟨regs, ioPortVector .port1, []⟩ (List.replicate k .isr) =
      ⟨(isrPort1 regs).1, none, (isrPort1 regs).2⟩ :=
  port_statements (n := 7) rfl rfl

theorem port2_statements (regs : IoRegs η) :
    ∃ k, runPort ⟨regs, ioPortVector .port2, []⟩ (List.replicate k .isr) =
      ⟨(isrPort2 regs).1, none, (isrPort2 regs).2⟩ :=
  port_statements (n := 7) rfl rfl

/-- An edge on the pin is not forgotten: the function has been called more than `n` times, or the
flag is set and is not about to be cleared. -/
structure Pending (n : Nat) (io : Io) (s : PortSystem η) : Prop where
  registered : (s.regs.isrFunction io).isSome = true
  le : n ≤ callCnt io s
  kept : n < callCnt io s ∨ s.regs.flagged io = true ∧ ¬ Serving io s

theorem not_serving_of_phase {regs : IoRegs η} {calls : List Io} {isr : Option PortIsr}
    (h : ∀ isr', isr = some isr' → isr'.phase ≠ .clear) : ¬ Serving io ⟨regs, isr, calls⟩ := by
  rintro ⟨isr', hisr, hphase, -⟩
  exact h isr' hisr hphase

theorem nextPin_phase (isr : PortIsr) :
    ∀ isr', nextPin isr = some isr' → isr'.phase ≠ .clear := by
  intro isr' h
  obtain ⟨-, rfl⟩ := nextPin_eq_some h
  exact nofun

theorem ioPortVector_phase (port : IoPort) :
    ∀ isr', ioPortVector port = some isr' → isr'.phase ≠ .clear := by
  intro isr' h
  cases port with
  | port1 | port2 => cases h; exact nofun
  | port3 => cases h

variable {n : Nat} {isr : PortIsr}

theorem Pending.test (h : Pending n io s) :
    Pending n io { s with
      isr := if s.regs.flagged isr.io then some { isr with phase := .call } else nextPin isr } where
  registered := h.registered
  le := h.le
  kept := by
    refine h.kept.imp_right fun ⟨hflag, _⟩ => ⟨hflag, not_serving_of_phase ?_⟩
    split
    case isTrue =>
      rintro _ ⟨⟩
      exact nofun
    case isFalse => exact nextPin_phase isr

theorem Pending.call (h : Pending n io s) :
    Pending n io { s with
      isr := some { isr with phase := .clear }
      calls := if (s.regs.isrFunction isr.io).isSome then s.calls ++ [isr.io] else s.calls } := by
  by_cases hplace : place isr.io = place io
  · -- The function is registered, so this is the call that the edge leads to.
    have hfun : (s.regs.isrFunction isr.io).isSome = true := by
      rw [isrFunction_congr hplace]
      exact h.registered
    have hcnt : n < callCnt io s + 1 := Nat.lt_succ_of_le h.le
    have hcalls : n < (s.calls ++ [isr.io]).countP fun io' => place io' = place io := by
      rw [List.countP_append]
      simpa [hplace, callCnt] using hcnt
    rw [if_pos hfun]
    exact ⟨h.registered, hcalls.le, .inl hcalls⟩
  · have hcalls : (if (s.regs.isrFunction isr.io).isSome then s.calls ++ [isr.io] else s.calls).countP
        (fun io' => place io' = place io) = callCnt io s := by
      split
      · rw [List.countP_append]
        simp [hplace, callCnt]
      · rfl
    refine ⟨h.registered, h.le.trans hcalls.ge, h.kept.imp hcalls.ge.trans_lt' ?_⟩
    rintro ⟨hflag, -⟩
    refine ⟨hflag, ?_⟩
    rintro ⟨_, ⟨⟩, -, hio⟩
    exact hplace hio

theorem Pending.clear (h : Pending n io s) (hisr : s.isr = some isr) (hphase : isr.phase = .clear) :
    Pending n io { s with regs := ioClearInterrupt isr.io s.regs, isr := nextPin isr } where
  registered := h.registered
  le := h.le
  kept := by
    refine h.kept.imp_right fun ⟨hflag, hserving⟩ =>
      ⟨?_, not_serving_of_phase (nextPin_phase isr)⟩
    have hplace : place io ≠ place isr.io := fun hio => hserving ⟨isr, hisr, hphase, hio.symm⟩
    rw [flagged_clear, hflag, decide_eq_true hplace]
    rfl

theorem Pending.regs (h : Pending n io s) {regs : IoRegs η}
    (hfun : regs.isrFunctions = s.regs.isrFunctions)
    (hflag : s.regs.flagged io = true → regs.flagged io = true) :
    Pending n io { s with regs } where
  registered := by
    rw [isrFunction, hfun]
    exact h.registered
  le := h.le
  kept := h.kept.imp_right fun ⟨hset, hserving⟩ => ⟨hflag hset, hserving⟩

theorem Pending.step (h : Pending n io s) (event : PortEvent) : Pending n io (s.stepPort event) := by
  cases event with
  | edge io' => exact h.regs rfl fun hflag => by rw [flagged_edge, hflag, Bool.true_or]
  | vector port =>
    rw [stepPort]
    split
    case isTrue =>
      refine ⟨h.registered, h.le, h.kept.imp_right fun ⟨hflag, _⟩ => ⟨hflag, ?_⟩⟩
      exact not_serving_of_phase (ioPortVector_phase port)
    case isFalse => exact h
  | isr =>
    rw [stepPort]
    cases hisr : s.isr with
    | none => exact h
    | some isr =>
      rw [Option.elim_some, stepPin]
      cases hphase : isr.phase with
      | test => exact h.test
      | call => exact h.call
      | clear => exact h.clear hisr hphase
  | enable io' | disable io' =>
    rw [stepPort]
    split
    case isTrue => exact h.regs rfl id
    case isFalse => exact h

theorem Pending.run (h : Pending n io s) (events : List PortEvent) :
    Pending n io (s.runPort events) := by
  induction events generalizing s with
  | nil => exact h
  | cons event events ih => exact ih (h.step event)

theorem kept_iff (hfun : (s.regs.isrFunction io).isSome = true) : Kept io s ↔ ¬ Serving io s := by
  constructor
  · rintro h ⟨isr, hisr, hphase, hplace⟩
    have hclear : (s.stepPort (.edge io)).runPort [.isr] =
        { s with regs := ioClearInterrupt isr.io (edge io s.regs), isr := nextPin isr } := by
      simp [runPort, stepPort, hisr, stepPin, hphase]
    have hlost := h [.isr]
    rw [hclear] at hlost
    obtain hflag | hcnt := hlost
    · rw [flagged_clear, decide_eq_false (not_not_intro hplace.symm), Bool.and_false] at hflag
      cases hflag
    · exact absurd hcnt (Nat.lt_irrefl _)
  · intro hserving events
    have hflag : (edge io s.regs).flagged io = true := by
      rw [flagged_edge, decide_eq_true rfl, Bool.or_true]
    have hedge : Pending (callCnt io s) io (s.stepPort (.edge io)) :=
      ⟨hfun, Nat.le_refl _, .inr ⟨hflag, hserving⟩⟩
    exact (hedge.run events).kept.symm.imp_left And.left

def CallsRegistered (s : PortSystem η) : Prop := ∀ io ∈ s.calls, (s.regs.isrFunction io).isSome = true

theorem mem_stepPort_calls {event : PortEvent} (h : io ∈ (s.stepPort event).calls) :
    io ∈ s.calls ∨ (s.regs.isrFunction io).isSome = true := by
  cases event with
  | edge io' => exact .inl h
  | vector port =>
    rw [stepPort] at h
    split at h <;> exact .inl h
  | isr =>
    rw [stepPort] at h
    cases hisr : s.isr with
    | none =>
      rw [hisr] at h
      exact .inl h
    | some isr =>
      rw [hisr, Option.elim_some, stepPin] at h
      cases hphase : isr.phase with
      | test | clear =>
        rw [hphase] at h
        exact .inl h
      | call =>
        rw [hphase] at h
        change io ∈ if _ then s.calls ++ [isr.io] else s.calls at h
        split at h
        case isTrue hfun =>
          obtain hmem | hmem := List.mem_append.mp h
          · exact .inl hmem
          · obtain rfl := List.mem_singleton.mp hmem
            exact .inr hfun
        case isFalse => exact .inl h
  | enable io' | disable io' =>
    rw [stepPort] at h
    split at h <;> exact .inl h

theorem CallsRegistered.run (h : CallsRegistered s) (events : List PortEvent) :
    CallsRegistered (s.runPort events) := by
  induction events generalizing s with
  | nil => exact h
  | cons event events ih =>
    refine ih fun io hio => ?_
    rw [stepPort_isrFunction]
    exact (mem_stepPort_calls hio).elim (h io) id

theorem registered_of_called {regs : IoRegs η} {events : List PortEvent}
    (hcalled : 0 < callCnt io ((start regs).runPort events)) :
    (((start regs).runPort events).regs.isrFunction io).isSome = true := by
  have hstart : CallsRegistered (start regs) := nofun
  obtain ⟨io', hmem, hplace⟩ := List.countP_pos_iff.mp hcalled
  rw [← isrFunction_congr (of_decide_eq_true hplace)]
  exact hstart.run events io' hmem

theorem edge_kept_iff (regs : IoRegs η) (events : List PortEvent) (io : Io)
    (hcalled : 0 < callCnt io ((start regs).runPort events)) :
    (Kept io ((start regs).runPort events) ↔ ¬ Serving io ((start regs).runPort events)) ∧
      ∀ (regs' : IoRegs η) (io' : Io), place io' ≠ place io →
        (ioClearInterrupt io regs').flagged io' = regs'.flagged io' := by
  refine ⟨kept_iff (registered_of_called hcalled), fun regs' io' hplace => ?_⟩
  rw [flagged_clear, decide_eq_true hplace, Bool.and_true]

def irRegs : IoRegs PinIsr where
  portInterruptFlagRegs _ := 0
  portInterruptEnableRegs _ := ioPinBit irRemote
  portInterruptEdgeSelectRegs _ := 0
  isrFunctions _ _ := some .isrPulse

theorem edge_kept_after_clear :
    Kept irRemote ((start irRegs).runPort [.edge irRemote, .vector .port2, .isr, .isr, .isr]) := by
  refine (edge_kept_iff irRegs [.edge irRemote, .vector .port2, .isr, .isr, .isr] irRemote
    (by decide +kernel)).1.mpr ?_
  rintro ⟨_, ⟨⟩, hphase, -⟩
  cases hphase

theorem edge_lost_while_serving :
    0 < callCnt irRemote ((start irRegs).runPort [.edge irRemote, .vector .port2, .isr, .isr]) ∧
    ¬ Kept irRemote ((start irRegs).runPort [.edge irRemote, .vector .port2, .isr, .isr]) := by
  refine ⟨by decide +kernel, fun h => ?_⟩
  have hlost := h [.isr]
  revert hlost
  decide +kernel

end Nsumo.Drivers.PortSystem
