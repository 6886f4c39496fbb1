import Nsumo.Drivers.Vl53l0x
import Nsumo.Lib.Triple
import Mathlib.Tactic.Tauto

namespace Nsumo.Drivers

open Common Lib

namespace Vl53l0x

variable {δ : Type} {bus : Bus δ} {E : Vl53l0xStop → Vl53l0x δ → Prop}
  {P P₀ P₁ P₂ Q R : Vl53l0x δ → Prop} {reg data : Byte} {fuel : Nat} {idx : Vl53l0xIdx}

/-- `Q` after a transfer without an error; after one with an error the function may end. -/
def After (E : Vl53l0xStop → Vl53l0x δ → Prop) (Q : Vl53l0x δ → Prop) (error : Option I2cError)
    (s : Vl53l0x δ) : Prop :=
  match error with
  | none => Q s
  | some _ => E (.result .errorI2c) s

theorem After.intro {s : Vl53l0x δ} (hQ : Q s) (hE : E (.result .errorI2c) s)
    (error : Option I2cError) : After E Q error s := by
  cases error with
  | none => exact hQ
  | some e => exact hE

theorem After.mono {error : Option I2cError} {s : Vl53l0x δ} (h : After E Q error s)
    (hQ : ∀ s, Q s → R s) : After E R error s := by
  cases error with
  | none => exact hQ s h
  | some e => exact h

theorem check_rule (error : Option I2cError) :
    Triple (After E Q error) (check error) (fun _ => Q) E := by
  cases error with
  | none => exact .ret fun _ h => h
  | some e => exact .raise fun _ h => h

theorem write_rule (hwrite : Triple P (i2cWriteAddr8Data8 bus reg data) (After E Q) E) :
    Triple P (i2cWriteAddr8Data8 bus reg data >>= check) (fun _ => Q) E :=
  hwrite.bind check_rule

theorem writeRegs_rule {regs : List (Byte × Byte)}
    (hwrite : ∀ r ∈ regs, Triple P (i2cWriteAddr8Data8 bus r.1 r.2) (After E P) E) :
    Triple P (vl53l0xWrite8regs bus regs) (fun _ => P) E := by
  induction regs with
  | nil => exact .ret fun _ h => h
  | cons r regs ih =>
    refine (hwrite r List.mem_cons_self).bind fun error => (check_rule error).bind fun _ => ?_
    exact ih fun r' hr' => hwrite r' (List.mem_cons_of_mem r hr')

theorem writeRegs_nil : Triple P (vl53l0xWrite8regs bus []) (fun _ => P) E :=
  .ret fun _ h => h

theorem writeRegs_cons {regs : List (Byte × Byte)}
    (hwrite : Triple P (i2cWriteAddr8Data8 bus reg data) (After E Q) E)
    (hregs : Triple Q (vl53l0xWrite8regs bus regs) (fun _ => R) E) :
    Triple P (vl53l0xWrite8regs bus ((reg, data) :: regs)) (fun _ => R) E :=
  hwrite.bind fun error => (check_rule error).bind fun _ => hregs

theorem pollRegister_rule {again : Byte → Bool} (hfuel : ∀ t, P t → E .fuel t)
    (hread : Triple P (i2cReadAddr8Data8 bus reg) (fun r => After E P r.1) E) :
    Triple P (pollRegister bus reg again fuel) (fun _ => P) E := by
  induction fuel with
  | zero => exact .raise hfuel
  | succ fuel ih =>
    refine hread.bind fun r => ?_
    refine (check_rule r.1).bind fun _ => ?_
    exact .cond (fun _ => ih) fun _ => .ret fun _ h => h

theorem waitDone_rule (hfuel : ∀ t, E .fuel t)
    (hstatus : Triple P (getStatusMultiple bus) (fun _ => P) E) :
    Triple P (waitDone bus fuel) (fun _ => P) E := by
  induction fuel with
  | zero => exact .raise fun t _ => hfuel t
  | succ fuel ih =>
    exact hstatus.bind fun status => .cond (fun _ => ih) fun _ => .ret fun _ h => h

/-- `P₀` on page 0 before the start, `P₁` on page 1, `P₂` on page 0 again. -/
theorem startSysrange_rule (hfuel : ∀ t, E .fuel t)
    (haddress : Triple P (i2cSetSlaveAddress bus (vl53l0xCfgs idx)) (fun _ => P₀) E)
    (henter : ∀ data, Triple P₀ (i2cWriteAddr8Data8 bus 0x80 data) (After E P₀) E)
    (hone : Triple P₀ (i2cWriteAddr8Data8 bus 0xFF 0x01) (After E P₁) E)
    (hother : ∀ reg data, reg ≠ 0xFF →
      Triple P₁ (i2cWriteAddr8Data8 bus reg data) (After E P₁) E)
    (hzero : Triple P₁ (i2cWriteAddr8Data8 bus 0xFF 0x00) (After E P₂) E)
    (hleave : ∀ data, Triple P₂ (i2cWriteAddr8Data8 bus 0x80 data) (After E P₂) E)
    (hstart : Triple P₂ (i2cWriteAddr8Data8 bus regSysrangeStart 0x01) (After E Q) E)
    (hread : Triple Q (i2cReadAddr8Data8 bus regSysrangeStart) (fun r => After E Q r.1) E) :
    Triple P (vl53l0xStartSysrange bus fuel idx) (fun _ => Q) E := by
  refine haddress.bind fun _ => ?_
  refine Triple.bind (Q := fun _ => P₁) ?_ fun _ => ?_
  · refine writeRegs_cons (henter _) (writeRegs_cons hone ?_)
    exact writeRegs_cons (hother _ _ (by decide)) writeRegs_nil
  refine Triple.bind (.read fun _ h => h) fun s => ?_
  refine Triple.bind (hother _ _ (by decide)) fun error => (check_rule error).bind fun _ => ?_
  refine Triple.bind (Q := fun _ => P₂) ?_ fun _ => ?_
  · refine writeRegs_cons (hother _ _ (by decide)) (writeRegs_cons hzero ?_)
    exact writeRegs_cons (hleave _) writeRegs_nil
  refine hstart.bind fun error => (check_rule error).bind fun _ => ?_
  exact pollRegister_rule (fun t _ => hfuel t) hread

/-- `P₀` before the range is read, `P₁` once it is stored, `P₂` once the interrupt is cleared. -/
theorem readRange_rule {P₁ P₂ : Nat → Vl53l0x δ → Prop}
    {S : Option I2cError × Nat → Vl53l0x δ → Prop} (hfuel : ∀ t, E .fuel t)
    (haddress : Triple P (i2cSetSlaveAddress bus (vl53l0xCfgs idx)) (fun _ => P₀) E)
    (hstatus : Triple P₀ (i2cReadAddr8Data8 bus regResultInterruptStatus)
      (fun r => After E P₀ r.1) E)
    (hrange : ∀ old, Triple (fun s => P₀ s ∧ s.latestRanges idx = old)
      (i2cReadAddr8Data16 bus (regResultRangeStatus + 10) old) S E)
    (hstore : ∀ error range, Triple (S (error, range)) (setLatestRange idx range)
      (fun _ => After E (P₁ range) error) E)
    (hclear : ∀ range, Triple (P₁ range) (i2cWriteAddr8Data8 bus regSystemInterruptClear 0x01)
      (After E (P₂ range)) E)
    (hmap : ∀ range, Triple (P₂ range) (setLatestRange idx
      (if range = 8190 ∨ range = 8191 then vl53l0xOutOfRange else range)) (fun _ => Q) E)
    (hagain : Triple Q (i2cWriteAddr8Data8 bus regSystemInterruptClear 0x01) (After E Q) E) :
    Triple P (vl53l0xReadRange bus fuel idx) (fun _ => Q) E := by
  refine haddress.bind fun _ => ?_
  refine (pollRegister_rule (fun t _ => hfuel t) hstatus).bind fun _ => ?_
  refine Triple.bind (Q := fun s t => P₀ t ∧ t.latestRanges idx = s.latestRanges idx)
    (.read fun _ h => ⟨h, rfl⟩) fun s => ?_
  refine (hrange _).bind fun r => ?_
  refine (hstore r.1 r.2).bind fun _ => (check_rule r.1).bind fun _ => ?_
  refine (hclear r.2).bind fun error => (check_rule error).bind fun _ => ?_
  exact (hmap r.2).bind fun _ => write_rule hagain

/-- `P done` says that the sensors of `done` have been found finished. -/
theorem areSysrangesDone_rule {P : List Vl53l0xIdx → Vl53l0x δ → Prop} {done : List Vl53l0xIdx}
    {idxs : List Vl53l0xIdx}
    (hmono : ∀ {done done'} s, P done s → done' ⊆ done → P done' s)
    (hdone : ∀ idx done, Triple (P done) (vl53l0xIsSysrangeDone bus idx)
      (fun b => P (if b then idx :: done else done)) E) :
    Triple (P done) (areSysrangesDone bus idxs) (fun b => P (if b then idxs ++ done else []))
      E := by
  induction idxs generalizing done with
  | nil => exact .ret fun _ h => h
  | cons idx idxs ih =>
    refine (hdone idx done).bind fun b => ?_
    refine .cond (fun hb => ?_) fun _ => .ret fun s h => hmono s h (List.nil_subset _)
    rw [if_pos hb]
    refine ih.conseq (fun _ h => h) (fun b' s h => ?_) fun _ _ h => h
    cases b' with
    | false => exact h
    | true =>
      apply hmono s h
      intro i hi
      simp only [if_true, List.mem_append, List.mem_cons] at hi ⊢
      tauto

theorem startMeasuring_rule
    (hinitialized : ∀ s, P s → s.initialized = true)
    (hstatus : Triple P (getStatusMultiple bus) (fun r s => r ≠ .measuring ∧ P₀ s) E)
    (hset : Triple P₀ (setStatusMultiple bus .measuring) (fun _ => P₁) E)
    (hfront : Triple P₁ (vl53l0xStartSysrange bus fuel .front) (fun _ => P₂) E)
    (hleft : Triple P₂ (vl53l0xStartSysrange bus fuel .frontLeft) (fun _ => R) E)
    (hright : Triple R (vl53l0xStartSysrange bus fuel .frontRight) (fun _ => Q) E) :
    Triple P (vl53l0xStartMeasuringMultiple bus fuel) (fun _ => Q) E := by
  refine Triple.bind (Q := fun r s => r.initialized = true ∧ P s)
    (.read fun s h => ⟨hinitialized s h, h⟩) fun r => .guarded fun hr => ?_
  rw [hr]
  refine Triple.bind (Q := fun _ => P) (.ret fun _ h => h) fun _ => ?_
  refine hstatus.bind fun status => .guarded fun hne => ?_
  refine .cond (fun heq => absurd heq hne) fun _ => ?_
  exact hset.bind fun _ => hfront.bind fun _ => hleft.bind fun _ => hright

end Vl53l0x

end Nsumo.Drivers
