import Nsumo.Drivers.IoCallLaws
import Nsumo.Lib.Product

namespace Nsumo.Drivers

open Common Lib Io IoRegs

variable {η : Type}

abbrev InterruptPin : Type := { io : Io // io.toNat < pinCnt .launchpad }

inductive PinOp (η : Type) : Type
  | configure (trigger : IoTrigger) (isr : η)
  | deconfigure
  | enable
  | disable
  | edge
  | serve

@[ext] structure PinIrq (η : Type) : Type where
  isr : Option η
  enabled : Bool
  flagged : Bool
  trigger : IoTrigger

def falling (regs : IoRegs η) (io : Io) : Bool :=
  (regs.portInterruptEdgeSelectRegs (ioPort io)).getLsbD (ioPinIdx io)

def irqOf (regs : IoRegs η) (pin : InterruptPin) : PinIrq η where
  isr := regs.isrFunction pin
  enabled := regs.enabled pin
  flagged := regs.flagged pin
  trigger := if falling regs pin then .falling else .rising

namespace PinOp

def run (io : Io) (regs : IoRegs η) : PinOp η → Except Assert (IoRegs η)
  | configure trigger isr => ioConfigureInterrupt io trigger isr regs
  | deconfigure => .ok (ioDeconfigureInterrupt io regs)
  | enable => .ok (ioEnableInterrupt io regs)
  | disable => .ok (ioDisableInterrupt io regs)
  | edge => .ok (regs.edge io)
  | serve => .ok (ioIsr io (regs, [])).1

def step (op : InterruptPin × PinOp η) (regs : IoRegs η) : Except Assert (IoRegs η) :=
  op.2.run op.1 regs

def after (irq : PinIrq η) : PinOp η → PinIrq η
  | configure trigger isr => ⟨some isr, false, false, trigger⟩
  | deconfigure => { irq with isr := none, enabled := false }
  | enable => { irq with enabled := true }
  | disable => { irq with enabled := false }
  | edge => { irq with flagged := true }
  | serve => { irq with flagged := false }

def Allowed (irq : PinIrq η) : PinOp η → Prop
  | configure _ _ => irq.isr = none
  | _ => True

instance (irq : PinIrq η) : (op : PinOp η) → Decidable (op.Allowed irq)
  | configure _ _ => inferInstanceAs (Decidable (irq.isr = none))
  | deconfigure | enable | disable | edge | serve => inferInstanceAs (Decidable True)

def change (op : PinOp η) (irq : PinIrq η) : Except Assert (PinIrq η) :=
  if op.Allowed irq then .ok (op.after irq) else .error .ioRegisterIsr

section

variable {io io' : Io} {regs : IoRegs η}

theorem enabled_eq (io : Io) (regs : IoRegs η) :
    regs.enabled io = (regs.portInterruptEnableRegs (ioPort io)).getLsbD (ioPinIdx io) := by
  rw [Bool.eq_iff_iff, IoRegs.enabled, bne_iff_ne]
  exact Mask.and_bit_ne_zero

theorem enabled_disable (io io' : Io) (regs : IoRegs η) :
    (ioDisableInterrupt io regs).enabled io' =
      (regs.enabled io' && decide (place io' ≠ place io)) := by
  rw [enabled_eq, enabled_eq]
  exact getLsbD_clear io io' regs.portInterruptEnableRegs

theorem enabled_enable (io io' : Io) (regs : IoRegs η) :
    (ioEnableInterrupt io regs).enabled io' =
      (regs.enabled io' || decide (place io' = place io)) := by
  rw [enabled_eq, enabled_eq]
  exact getLsbD_set io io' regs.portInterruptEnableRegs

theorem isrFunction_unregister (io io' : Io) (regs : IoRegs η) :
    (ioUnregisterIsr io regs).isrFunction io' =
      if place io' = place io then none else regs.isrFunction io' := by
  by_cases hport : ioPort io' = ioPort io
  · by_cases hidx : ioPinIdx io' = ioPinIdx io <;>
      simp [isrFunction, ioUnregisterIsr, place, hport, hidx]
  · simp [isrFunction, ioUnregisterIsr, place, hport]

theorem falling_setInterruptTrigger (trigger : IoTrigger) (io io' : Io) (regs : IoRegs η) :
    falling (ioSetInterruptTrigger io trigger regs) io' =
      if place io' = place io then trigger == .falling else falling regs io' := by
  cases trigger with
  | rising =>
    refine (getLsbD_clear io io' regs.portInterruptEdgeSelectRegs).trans ?_
    split <;> simp [*, falling]
  | falling =>
    refine (getLsbD_set io io' regs.portInterruptEdgeSelectRegs).trans ?_
    split <;> simp [*, falling]

theorem place_inj {pin pin' : InterruptPin} : place pin.1 = place pin'.1 ↔ pin = pin' := by
  rw [← Pin.wide_inj]
  exact @Pin.place_inj (Pin.wide pin) (Pin.wide pin')

theorem irqOf_update {regs' : IoRegs η} {pin : InterruptPin} {irq : PinIrq η}
    (hself : irqOf regs' pin = irq)
    (hothers : ∀ pin' : InterruptPin, place pin'.1 ≠ place pin.1 →
      irqOf regs' pin' = irqOf regs pin') :
    irqOf regs' = Function.update (irqOf regs) pin irq := by
  funext pin'
  by_cases h : pin' = pin
  · rw [h, hself, Function.update_self]
  · rw [hothers pin' (mt place_inj.mp h), Function.update_of_ne h]

theorem irqOf_configure (pin : InterruptPin) (trigger : IoTrigger) (isr : η) (regs : IoRegs η) :
    (ioConfigureInterrupt pin trigger isr regs).map irqOf =
      Product.stepAt change (pin, .configure trigger isr) (irqOf regs) := by
  have hsame : (ioSetInterruptTrigger pin trigger regs).isrFunction pin =
      regs.isrFunction pin := rfl
  rw [ioConfigureInterrupt, ioRegisterIsr, hsame, Product.stepAt, change]
  cases hisr : regs.isrFunction pin with
  | some isr' =>
    have hnot : ¬(configure trigger isr).Allowed (irqOf regs pin) := fun h => by
      cases hisr.symm.trans h
    rw [if_neg hnot]
    rfl
  | none =>
    have hallowed : (configure trigger isr).Allowed (irqOf regs pin) := hisr
    have hfunction := @isrFunction_configure η regs pin trigger isr _ <| by
      rw [ioConfigureInterrupt, ioRegisterIsr, hsame, hisr]
      rfl
    have henabled (io' : Io) : (ioSetInterruptTrigger pin trigger regs).enabled io' =
        (regs.enabled io' && decide (place io' ≠ place pin)) := enabled_disable pin io' regs
    have hflagged (io' : Io) : (ioSetInterruptTrigger pin trigger regs).flagged io' =
        (regs.flagged io' && decide (place io' ≠ place pin)) := flagged_clear pin io' _
    have hfalling (io' : Io) := falling_setInterruptTrigger trigger pin.1 io' regs
    rw [if_pos hallowed]
    refine congrArg Except.ok (irqOf_update ?_ fun pin' hplace => ?_)
    · refine PinIrq.ext ((hfunction pin).trans (if_pos rfl))
        ((henabled pin).trans (by simp [after]))
        ((hflagged pin).trans (by simp [after])) ?_
      change (if falling (ioSetInterruptTrigger pin trigger regs) pin then _ else _) = trigger
      rw [hfalling, if_pos rfl]
      cases trigger <;> rfl
    · refine PinIrq.ext ((hfunction pin').trans (if_neg hplace))
        ((henabled pin').trans (by simp [hplace]; rfl))
        ((hflagged pin').trans (by simp [hplace]; rfl)) ?_
      change (if falling (ioSetInterruptTrigger pin trigger regs) pin' then _ else _) = _
      rw [hfalling, if_neg hplace]
      rfl

theorem irqOf_run (op : InterruptPin × PinOp η) (regs : IoRegs η) :
    (step op regs).map irqOf = Product.stepAt change op (irqOf regs) := by
  obtain ⟨pin, op⟩ := op
  cases op with
  | configure trigger isr => exact irqOf_configure pin trigger isr regs
  | deconfigure =>
    refine congrArg Except.ok (irqOf_update ?_ fun pin' hplace => ?_)
    · exact PinIrq.ext ((isrFunction_unregister _ _ _).trans (if_pos rfl))
        ((enabled_disable _ _ _).trans (by simp [after])) rfl rfl
    · exact PinIrq.ext ((isrFunction_unregister _ _ _).trans (if_neg hplace))
        ((enabled_disable _ _ _).trans (by simp [hplace]; rfl)) rfl rfl
  | enable =>
    refine congrArg Except.ok (irqOf_update ?_ fun pin' hplace => ?_)
    · exact PinIrq.ext rfl ((enabled_enable _ _ _).trans (by simp [after])) rfl rfl
    · exact PinIrq.ext rfl ((enabled_enable _ _ _).trans (by simp [hplace]; rfl)) rfl rfl
  | disable =>
    refine congrArg Except.ok (irqOf_update ?_ fun pin' hplace => ?_)
    · exact PinIrq.ext rfl ((enabled_disable _ _ _).trans (by simp [after])) rfl rfl
    · exact PinIrq.ext rfl ((enabled_disable _ _ _).trans (by simp [hplace]; rfl)) rfl rfl
  | edge =>
    refine congrArg Except.ok (irqOf_update ?_ fun pin' hplace => ?_)
    · exact PinIrq.ext rfl rfl ((flagged_edge _ _ _).trans (by simp [after])) rfl
    · exact PinIrq.ext rfl rfl ((flagged_edge _ _ _).trans (by simp [hplace]; rfl)) rfl
  | serve =>
    refine congrArg Except.ok ?_
    rw [ioIsr]
    cases hflag : regs.flagged pin with
    | false => exact irqOf_update (PinIrq.ext rfl rfl hflag rfl) fun _ _ => rfl
    | true =>
      refine irqOf_update ?_ fun pin' hplace => ?_
      · exact PinIrq.ext rfl rfl ((flagged_clear _ _ _).trans (by simp [after])) rfl
      · exact PinIrq.ext rfl rfl ((flagged_clear _ _ _).trans (by simp [hplace]; rfl)) rfl

end

def isrSet : PinOp η → Option (Option η)
  | configure _ isr => some (some isr)
  | deconfigure => some none
  | _ => none

def enabledSet : PinOp η → Option Bool
  | configure _ _ | deconfigure | disable => some false
  | enable => some true
  | edge | serve => none

def flaggedSet : PinOp η → Option Bool
  | configure _ _ | serve => some false
  | edge => some true
  | deconfigure | enable | disable => none

def triggerSet : PinOp η → Option IoTrigger
  | configure trigger _ => some trigger
  | _ => none

def lastIrq (ops : List (PinOp η)) (irq : PinIrq η) : PinIrq η where
  isr := (Edits.lastSet isrSet ops).getD irq.isr
  enabled := (Edits.lastSet enabledSet ops).getD irq.enabled
  flagged := (Edits.lastSet flaggedSet ops).getD irq.flagged
  trigger := (Edits.lastSet triggerSet ops).getD irq.trigger

theorem foldl_after (ops : List (PinOp η)) (irq : PinIrq η) :
    ops.foldl after irq = lastIrq ops irq := by
  refine PinIrq.ext ?_ ?_ ?_ ?_
  · exact Edits.field_foldl _ _ (fun _ op => by cases op <;> rfl) ops irq
  · exact Edits.field_foldl _ _ (fun _ op => by cases op <;> rfl) ops irq
  · exact Edits.field_foldl _ _ (fun _ op => by cases op <;> rfl) ops irq
  · exact Edits.field_foldl _ _ (fun _ op => by cases op <;> rfl) ops irq

def Released (irq : PinIrq η) (ops : List (PinOp η)) : Prop :=
  ∀ pre trigger isr post, ops = pre ++ .configure trigger isr :: post →
    (Edits.lastSet isrSet pre).getD irq.isr = none

theorem released_concat {ops : List (PinOp η)} {op : PinOp η} {irq : PinIrq η} :
    Released irq (ops ++ [op]) ↔ Released irq ops ∧ op.Allowed (lastIrq ops irq) := by
  constructor
  · intro h
    refine ⟨fun pre trigger isr post hsplit => ?_, ?_⟩
    · exact h pre trigger isr (post ++ [op]) (by rw [hsplit, List.append_assoc, List.cons_append])
    · cases op with
      | configure trigger isr => exact h ops trigger isr [] rfl
      | deconfigure | enable | disable | edge | serve => trivial
  · rintro ⟨h, hallowed⟩ pre trigger isr post hsplit
    obtain rfl | ⟨post, last, rfl⟩ := List.eq_nil_or_concat post
    · obtain ⟨rfl, hop⟩ := List.append_inj' hsplit rfl
      cases hop
      exact hallowed
    · rw [List.concat_eq_append, ← List.cons_append, ← List.append_assoc] at hsplit
      exact h pre trigger isr post (List.append_inj' hsplit rfl).1

theorem change_ok {op : PinOp η} {irq irq' : PinIrq η} :
    change op irq = .ok irq' ↔ op.Allowed irq ∧ irq' = op.after irq := by
  rw [change]
  split
  case isTrue h => simp [h, eq_comm]
  case isFalse h => simp [h]

theorem run_change_ok {ops : List (PinOp η)} {irq irq' : PinIrq η} :
    Run.run change ops irq = .ok irq' ↔ Released irq ops ∧ irq' = lastIrq ops irq := by
  induction ops using List.reverseRecOn generalizing irq' with
  | nil =>
    rw [Run.run_nil, Except.ok.injEq, eq_comm]
    exact (and_iff_right (by simp [Released])).symm
  | append_singleton ops op ih =>
    have hlast : lastIrq (ops ++ [op]) irq = op.after (lastIrq ops irq) := by
      rw [← foldl_after, ← foldl_after, List.foldl_append]
      rfl
    rw [Run.run_concat_ok, released_concat, hlast, and_assoc, ← change_ok]
    constructor
    · rintro ⟨m, hm, hop⟩
      obtain ⟨hreleased, rfl⟩ := ih.mp hm
      exact ⟨hreleased, hop⟩
    · rintro ⟨hreleased, hop⟩
      exact ⟨_, ih.mpr ⟨hreleased, rfl⟩, hop⟩

end PinOp

open PinOp

/-- Pins do not interfere: the calls fail at the assertion of `io_register_isr` if and only if those
for one pin register a function over another one; else each pin is left as its own calls, edges and
interrupts leave it. -/
theorem interrupt_calls (ops : List (InterruptPin × PinOp η)) (regs : IoRegs η) :
    match Run.run step ops regs with
    | .ok regs' => ∀ pin, Released (irqOf regs pin) (Product.own pin ops) ∧
        irqOf regs' pin = lastIrq (Product.own pin ops) (irqOf regs pin)
    | .error site => site = .ioRegisterIsr ∧
        ∃ pin, ¬Released (irqOf regs pin) (Product.own pin ops) := by
  have hview := Run.run_view (f := id) (fun op regs => irqOf_run op regs) ops regs
  rw [List.map_id] at hview
  cases hrun : Run.run step ops regs with
  | ok regs' =>
    rw [hrun] at hview
    exact fun pin => run_change_ok.mp (Product.run_stepAt_ok.mp hview.symm pin)
  | error site =>
    rw [hrun] at hview
    constructor
    · obtain ⟨_, op, _, irqs, -, -, herror⟩ := Run.run_error hview.symm
      rw [Product.stepAt, change] at herror
      split at herror
      · cases herror
      · cases herror
        rfl
    · by_contra hnone
      have hall (pin : InterruptPin) : Released (irqOf regs pin) (Product.own pin ops) :=
        by_contra fun h => hnone ⟨pin, h⟩
      have hok := Product.run_stepAt_ok.mpr fun pin => run_change_ok.mpr ⟨hall pin, rfl⟩
      cases hview.trans hok

end Nsumo.Drivers
